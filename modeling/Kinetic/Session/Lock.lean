import Kinetic.Bus.Authors
import Kinetic.Bus.Sockets
import Kinetic.Session.Model

namespace Kinetic
open Function (update)
open Ownership
open Transition (Reach exec)

/-- The steps of a thread that change nothing but where it stands. -/
inductive Walk (pk : Packer) (s : Session) (c : Nat) : OpPc → OpPc → Prop
  | fails (op : Operation) : Walk pk s c (.lock op) .outside
  | binds (op : Operation) (seqId : Int) : Walk pk s c (.bind op seqId) (.packCommand { op with sequence := seqId })
  | packs (op : Operation) : Walk pk s c (.packCommand op) (.authenticate op (packCommand pk op))
  | authenticates (op : Operation) (commandBytes : List UInt8) :
      Walk pk s c (.authenticate op commandBytes) (.packMessage op commandBytes)
  | composes (op : Operation) (commandBytes msg : List UInt8) : packMessage pk op commandBytes = some msg →
      Walk pk s c (.packMessage op commandBytes) (.take op msg .takeLock)
  | noCommand (op : Operation) : Walk pk s c (.packCommand op) .unlock
  | noAuthentication (op : Operation) (commandBytes : List UInt8) : Walk pk s c (.authenticate op commandBytes) .unlock
  | noMessage (op : Operation) (commandBytes : List UInt8) : Walk pk s c (.packMessage op commandBytes) .unlock
  | finds (op : Operation) (msg : List UInt8) (ci : Nat) : s.socket ≠ -1 → s.socket ≠ 0 → s.bus.fdSet s.socket = some ci →
      Walk pk s c (.box op msg) (.check op msg ci (s.bus.conns.info ci).ssl)
  | noBox (op : Operation) (msg : List UInt8) : Walk pk s c (.box op msg) (.give op .giveLock)
  | passes (op : Operation) (msg : List UInt8) (ci : Nat) (ssl : Bool) :
      (s.bus.conns.info ci).nonMonotonic op.sequence = false → Walk pk s c (.check op msg ci ssl) (.update op msg ci ssl)
  | turnedAway (op : Operation) (msg : List UInt8) (ci : Nat) (ssl : Bool) :
      Walk pk s c (.check op msg ci ssl) (.give op .giveLock)
  | accepted (op : Operation) (b : Nat) : s.bus.clients c = .idle → s.bus.results b = some true →
      Walk pk s c (.send op b) .unlock
  | rejected (op : Operation) (b : Nat) : s.bus.clients c = .idle → s.bus.results b = some false →
      Walk pk s c (.send op b) (.give op .giveLock)

/-- Everything a step of a thread can do. -/
inductive ThreadMove (pk : Packer) (s t : Session) (c : Nat) : Prop
  | walks (pc : OpPc) : Walk pk s c (s.threads c) pc → t = s.setThread c pc → ThreadMove pk s t c
  | locks (op : Operation) : s.threads c = .lock op → s.sendMutex = none →
      t = { s.setThread c (.draw op) with sendMutex := some c } → ThreadMove pk s t c
  | draws (op : Operation) : s.threads c = .draw op →
      t = { s.setThread c (.bind op s.sequence) with sequence := (s.sequence + 1).bmod (2 ^ 64) } → ThreadMove pk s t c
  | takes (op : Operation) (msg : List UInt8) (pc pc' : SemPc) (sem : CountingSemaphore Agent) :
      s.threads c = .take op msg pc → semStep s.outstandingOperations (.thread c) pc = some (sem, pc') →
      t = { s.setThread c (if pc' = .done then .box op msg else .take op msg pc') with outstandingOperations := sem } →
      ThreadMove pk s t c
  | boxes (op : Operation) (msg : List UInt8) (ci : Nat) (ssl : Bool) : s.threads c = .update op msg ci ssl →
      t = { s.setThread c (.send op s.bus.nextBox) with
        bus := s.bus.boxed c ci ssl ⟨s.socket, op.sequence, op.timeoutSeconds, msg⟩
        udata := update s.udata s.bus.nextBox (some op) } → ThreadMove pk s t c
  | gives (op : Operation) (pc pc' : SemPc) (sem : CountingSemaphore Agent) : s.threads c = .give op pc →
      semStep s.outstandingOperations (.thread c) pc = some (sem, pc') →
      t = { s.setThread c (if pc' = .done then .unlock else .give op pc') with outstandingOperations := sem } →
      ThreadMove pk s t c
  | unlocks : s.threads c = .unlock → t = { s.setThread c .outside with sendMutex := none } → ThreadMove pk s t c

theorem threadStep_move {pk : Packer} {s t : Session} {c : Nat} {ok : Bool} (run : threadStep pk s c ok = some t) :
    ThreadMove pk s t c := by
  unfold threadStep at run
  split at run
  · cases run
  · rename_i op atPc
    split at run
    · split at run
      · cases run
        exact .locks op atPc ‹_› rfl
      · cases run
    · cases run
      exact .walks _ (by rw [atPc]; exact .fails op) rfl
  · rename_i op atPc
    cases run
    exact .draws op atPc rfl
  · rename_i op seqId atPc
    split at run
    · cases run
      exact .walks _ (by rw [atPc]; exact .binds op seqId) rfl
    · cases run
  · rename_i op atPc
    cases run
    cases ok with
    | true => exact .walks _ (by rw [atPc]; exact .packs op) rfl
    | false => exact .walks _ (by rw [atPc]; exact .noCommand op) rfl
  · rename_i op commandBytes atPc
    cases run
    cases ok with
    | true => exact .walks _ (by rw [atPc]; exact .authenticates op commandBytes) rfl
    | false => exact .walks _ (by rw [atPc]; exact .noAuthentication op commandBytes) rfl
  · rename_i op commandBytes atPc
    split at run
    · obtain ⟨msg, composed, run⟩ := Option.bind_eq_some_iff.mp run
      cases run
      exact .walks _ (by rw [atPc]; exact .composes op commandBytes msg composed) rfl
    · cases run
      exact .walks _ (by rw [atPc]; exact .noMessage op commandBytes) rfl
  · rename_i op msg pc atPc
    obtain ⟨⟨sem, pc'⟩, moved, run⟩ := Option.bind_eq_some_iff.mp run
    cases run
    exact .takes op msg pc pc' sem atPc moved rfl
  · rename_i op msg atPc
    split at run
    · cases run
      exact .walks _ (by rw [atPc]; exact .noBox op msg) rfl
    · rename_i present
      split at run
      · cases run
      · rename_i nonzero
        split at run
        · cases run
          exact .walks _ (by rw [atPc]; exact .noBox op msg) rfl
        · rename_i ci registered
          cases run
          exact .walks _ (by rw [atPc]; exact .finds op msg ci (fun absent => present (.inl absent)) nonzero registered) rfl
  · rename_i op msg ci ssl atPc
    cases run
    split
    · exact .walks _ (by rw [atPc]; exact .turnedAway op msg ci ssl) rfl
    · rename_i monotonic
      exact .walks _ (by rw [atPc]; exact .passes op msg ci ssl (by simpa using monotonic)) rfl
  · rename_i op msg ci ssl atPc
    cases run
    exact .boxes op msg ci ssl atPc rfl
  · rename_i op b atPc
    split at run
    · rename_i res idle answered
      cases run
      cases res with
      | true => exact .walks _ (by rw [atPc]; exact .accepted op b idle answered) rfl
      | false => exact .walks _ (by rw [atPc]; exact .rejected op b idle answered) rfl
    · cases run
  · rename_i op pc atPc
    obtain ⟨⟨sem, pc'⟩, moved, run⟩ := Option.bind_eq_some_iff.mp run
    cases run
    exact .gives op pc pc' sem atPc moved rfl
  · rename_i atPc
    cases run
    exact .unlocks atPc rfl

/-- Everything a step of a session can do. -/
inductive SessionMove (pk : Packer) (s t : Session) : SessionLabel → Prop
  | calls (c : Nat) (op : Operation) : s.threads c = .outside → s.bus.clients c = .idle →
      t = { s.setThread c (.lock { op with serial := s.nextOp }) with nextOp := s.nextOp + 1 } → SessionMove pk s t (.call c op)
  | thread (c : Nat) (ok : Bool) : ThreadMove pk s t c → SessionMove pk s t (.thread c ok)
  | handles (k b : Nat) (op : Operation) : s.bus.heap.scheduled[k]? = some b → s.udata b = some op →
      busStep s.bus (.run k) = some { s.bus with ran := k :: s.bus.ran } → k ∉ s.bus.ran →
      t = { s with
        bus := { s.bus with ran := k :: s.bus.ran }
        tasks := update s.tasks k (some (op, .giveLock)) } → SessionMove pk s t (.handleResult k)
  | completes (k : Nat) (op : Operation) (pc pc' : SemPc) (sem : CountingSemaphore Agent) : s.tasks k = some (op, pc) →
      semStep s.outstandingOperations (.task k) pc = some (sem, pc') →
      t = { s with outstandingOperations := sem, tasks := update s.tasks k (some (op, pc')) } →
      SessionMove pk s t (.complete k)
  | rest (label : BusLabel) (bus : BusState) : s.leaves label = true → busStep s.bus label = some bus →
      t = { s with bus := bus } → SessionMove pk s t (.bus label)

theorem sessionStep_move {pk : Packer} {s t : Session} {label : SessionLabel} (taken : sessionStep pk s label = some t) :
    SessionMove pk s t label := by
  cases label with
  | call c op =>
    simp only [sessionStep] at taken
    split at taken
    · rename_i outside idle
      cases taken
      exact .calls c op outside idle rfl
    · cases taken
  | thread c ok => exact .thread c ok (threadStep_move taken)
  | handleResult k =>
    obtain ⟨b, atK, taken⟩ := Option.bind_eq_some_iff.mp taken
    obtain ⟨op, ours, taken⟩ := Option.bind_eq_some_iff.mp taken
    obtain ⟨bus, stepped, taken⟩ := Option.bind_eq_some_iff.mp taken
    obtain ⟨_, waiting, rfl⟩ := busStep_run stepped
    split at taken
    · cases taken
      exact .handles k b op atK ours stepped waiting rfl
    · cases taken
  | complete k =>
    obtain ⟨⟨op, pc⟩, completing, taken⟩ := Option.bind_eq_some_iff.mp taken
    obtain ⟨⟨sem, pc'⟩, moved, taken⟩ := Option.bind_eq_some_iff.mp taken
    cases taken
    exact .completes k op pc pc' sem completing moved rfl
  | bus label =>
    simp only [sessionStep] at taken
    split at taken
    · rename_i allowed
      obtain ⟨bus, stepped, same⟩ := Option.map_eq_some_iff.mp taken
      exact .rest label bus allowed stepped same.symm
    · cases taken

/-- Whether the thread has the send mutex. -/
def OpPc.locked : OpPc → Bool
  | .outside => false
  | .lock _ => false
  | _ => true

/-- Whether the thread is in `KineticOperation_SendRequest` and not in the bus. -/
def OpPc.alone : OpPc → Bool
  | .outside => false
  | .send _ _ => false
  | _ => true

/-- What the connection was like when a thread in `box_msg` looked, and still is. -/
def Session.checked (s : Session) (ci : Nat) : OpPc → Prop
  | .check _ _ found ssl => found = ci ∧ ssl = (s.bus.conns.info ci).ssl ∧ s.socket ≠ -1 ∧ s.socket ≠ 0
  | .update op _ found ssl => found = ci ∧ ssl = (s.bus.conns.info ci).ssl ∧ s.socket ≠ -1 ∧ s.socket ≠ 0 ∧
      (s.bus.conns.info ci).nonMonotonic op.sequence = false
  | _ => True

/-- The session and its bus fit together: the bus has only made steps of its own, the send mutex is with the one thread
behind it, nobody releases the socket, and the boxes of the session are with the threads that send them. -/
structure SessionInv (n ci : Nat) (s : Session) : Prop where
  bus : Reach busStep (.new n) (fun _ _ => True) s.bus
  mutex : ∀ c, (s.threads c).locked = true → s.sendMutex = some c
  idle : ∀ c, (s.threads c).alone = true → s.bus.clients c = .idle
  registered : s.bus.fdSet s.socket = some ci
  kept : ∀ c, (s.bus.clients c).removes s.socket = false
  checked : ∀ c, s.checked ci (s.threads c)
  sends : ∀ c op b, s.threads c = .send op b → s.udata b = some op ∧
    (s.bus.results b = none → (s.bus.clients c).box = some b)
  owned : ∀ c b op, (s.bus.clients c).box = some b → s.udata b = some op → s.threads c = .send op b
  boxes : ∀ b op, s.udata b = some op → b < s.bus.nextBox ∧
    (s.bus.results b = none → ∃ c, (s.bus.clients c).box = some b)

/-- A socket that has just been registered: no request has been sent on it, and nobody is releasing it. -/
structure BusState.Connected (bus : BusState) (fd : Int) (ci : Nat) : Prop where
  registered : bus.fdSet fd = some ci
  unused : (bus.conns.info ci).largestWrSeqIdSeen = -1
  kept : ∀ c, (bus.clients c).removes fd = false

/-- Whether a step is the call of `Bus_ReleaseSocket` for the socket. -/
def BusLabel.releases (fd : Int) : BusLabel → Bool
  | .client _ (.release released) => released = fd
  | _ => false

/-- Without such a call nobody is releasing the socket. -/
theorem kept_of_reach {n : Nat} {bus : BusState} {fd : Int}
    (reach : Reach busStep (.new n) (fun _ label => label.releases fd = false) bus) (c : Nat) :
    (bus.clients c).removes fd = false := by
  induction reach with
  | start => rfl
  | @next s t label _ met taken kept =>
    cases busStep_move taken with
    | client c' a next clients =>
      by_cases here : c = c'
      · subst here
        by_contra removes
        rcases clientStep_removes taken (by simpa using removes) with old | ⟨_, rfl⟩
        · rw [kept] at old
          cases old
        · simp [BusLabel.releases] at met
      · rw [clients, Function.update_of_ne here]
        exact kept
    | listener l a listener clients => rw [clients]; exact kept
    | run k clients => rw [clients]; exact kept

theorem SessionInv.connected {n ci : Nat} {bus : BusState} {fd : Int} (reach : Reach busStep (.new n) (fun _ _ => True) bus)
    (connected : bus.Connected fd ci) : SessionInv n ci (.connected bus fd) := by
  refine ⟨reach, ?_, ?_, connected.registered, connected.kept, fun _ => trivial, ?_, ?_, ?_⟩
  · intro c locked
    cases locked
  · intro c alone
    cases alone
  · intro c op b sending
    cases sending
  · intro c b op _ ours
    cases ours
  · intro b op ours
    cases ours

section Invariant
variable {pk : Packer} {n ci : Nat} {s t : Session}

/-- Two threads behind the send mutex are the same. -/
theorem SessionInv.same_thread (inv : SessionInv n ci s) {c c' : Nat} (first : (s.threads c).locked = true)
    (second : (s.threads c').locked = true) : c = c' := by
  have here := inv.mutex c first
  rw [inv.mutex c' second] at here
  exact (Option.some.inj here).symm

/-- A thread moves on, with the mutex as its new place needs it, and nothing that concerns the bus changes. -/
theorem SessionInv.moves {c : Nat} (inv : SessionInv n ci s) (pc : OpPc) (bus : t.bus = s.bus) (socket : t.socket = s.socket)
    (udata : t.udata = s.udata) (threads : t.threads = update s.threads c pc)
    (mutex : ∀ c', c' ≠ c → (s.threads c').locked = true → t.sendMutex = some c')
    (own : pc.locked = true → t.sendMutex = some c) (alone : pc.alone = true → s.bus.clients c = .idle)
    (checked : s.checked ci pc) (notSending : ∀ op b, pc ≠ .send op b) (left : ∀ op b, s.threads c = .send op b →
      (s.bus.clients c).box = none) : SessionInv n ci t := by
  have elsewhere (c' : Nat) (other : c' ≠ c) : t.threads c' = s.threads c' := by rw [threads, Function.update_of_ne other]
  have here : t.threads c = pc := by rw [threads, Function.update_self]
  refine ⟨by rw [bus]; exact inv.bus, fun c' locked => ?_, fun c' is_alone => ?_, by rw [bus, socket]; exact inv.registered,
    by rw [bus, socket]; exact inv.kept, fun c' => ?_, fun c' op b sending => ?_, fun c' b op held ours => ?_,
    by rw [bus, udata]; exact inv.boxes⟩
  · by_cases same : c' = c
    · subst same
      rw [here] at locked
      exact own locked
    · rw [elsewhere c' same] at locked
      exact mutex c' same locked
  · rw [bus]
    by_cases same : c' = c
    · subst same
      rw [here] at is_alone
      exact alone is_alone
    · rw [elsewhere c' same] at is_alone
      exact inv.idle c' is_alone
  · have unchanged (pc : OpPc) (before : s.checked ci pc) : t.checked ci pc := by
      unfold Session.checked at before ⊢
      rw [bus, socket]
      exact before
    by_cases same : c' = c
    · subst same
      rw [here]
      exact unchanged pc checked
    · rw [elsewhere c' same]
      exact unchanged _ (inv.checked c')
  · rw [bus, udata]
    by_cases same : c' = c
    · subst same
      rw [here] at sending
      exact absurd sending (notSending op b)
    · rw [elsewhere c' same] at sending
      exact inv.sends c' op b sending
  · rw [bus] at held
    rw [udata] at ours
    by_cases same : c' = c
    · subst same
      have sending := inv.owned c' b op held ours
      rw [left op b sending] at held
      cases held
    · rw [elsewhere c' same]
      exact inv.owned c' b op held ours

/-- The end of `box_msg` in the session is the request of the bus. -/
theorem BusState.boxed_step {bus : BusState} {c ci : Nat} (msg : UserMsg) (idle : bus.clients c = .idle)
    (present : msg.fd ≠ -1) (nonzero : msg.fd ≠ 0) (registered : bus.fdSet msg.fd = some ci)
    (monotonic : (bus.conns.info ci).nonMonotonic msg.seqId = false) :
    busStep bus (.client c (.request msg)) = some (bus.boxed c ci (bus.conns.info ci).ssl msg) := by
  simp only [ConnectionInfo.nonMonotonic, decide_eq_false_iff_not] at monotonic
  simp only [busStep, clientStep, idle, sendRequest, present, nonzero, if_false, boxMsg, registered, Option.bind_eq_bind,
    Option.bind_some, if_neg monotonic]
  rfl

theorem Walk.locked {c : Nat} {pc pc' : OpPc} (walk : Walk pk s c pc pc') : pc'.locked = true → pc.locked = true := by
  cases walk <;> simp [OpPc.locked]

theorem Walk.notSending {c : Nat} {pc pc' : OpPc} (walk : Walk pk s c pc pc') (op : Operation) (b : Nat) :
    pc' ≠ .send op b := by
  cases walk <;> simp

theorem SessionInv.walk {c : Nat} {pc : OpPc} (inv : SessionInv n ci s) (walk : Walk pk s c (s.threads c) pc) :
    SessionInv n ci (s.setThread c pc) := by
  have sent (op : Operation) (b : Nat) (sending : s.threads c = .send op b) : s.bus.clients c = .idle := by
    rw [sending] at walk
    cases walk <;> assumption
  refine inv.moves pc rfl rfl rfl rfl (fun c' _ locked => inv.mutex c' locked) (fun locked => inv.mutex c (walk.locked locked))
    ?_ ?_ walk.notSending fun op b sending => by rw [sent op b sending]; rfl
  · intro alone
    cases before : s.threads c with
    | outside =>
      rw [before] at walk
      cases walk
    | send op b => exact sent op b before
    | _ => exact inv.idle c (by rw [before]; rfl)
  · cases before : s.threads c with
    | box op msg =>
      rw [before] at walk
      cases walk with
      | finds op msg found present nonzero registered =>
        rw [inv.registered] at registered
        cases registered
        exact ⟨rfl, rfl, present, nonzero⟩
      | noBox => trivial
    | check op msg found ssl =>
      have looked := inv.checked c
      rw [before] at walk looked
      obtain ⟨rfl, sameSsl, present, nonzero⟩ := looked
      cases walk with
      | passes op msg found ssl monotonic => exact ⟨rfl, sameSsl, present, nonzero, monotonic⟩
      | turnedAway => trivial
    | _ =>
      rw [before] at walk
      cases walk <;> trivial

/-- A thread ends `box_msg` and hands the box to `Send_DoBlockingSend`. -/
theorem SessionInv.box {c found : Nat} {op : Operation} {msg : List UInt8} {ssl : Bool} (inv : SessionInv n ci s)
    (updating : s.threads c = .update op msg found ssl) :
    SessionInv n ci { s.setThread c (.send op s.bus.nextBox) with
      bus := s.bus.boxed c found ssl ⟨s.socket, op.sequence, op.timeoutSeconds, msg⟩
      udata := update s.udata s.bus.nextBox (some op) } := by
  have looked := inv.checked c
  rw [updating] at looked
  obtain ⟨rfl, rfl, present, nonzero, monotonic⟩ := looked
  have idle := inv.idle c (by rw [updating]; rfl)
  have stepped := BusState.boxed_step ⟨s.socket, op.sequence, op.timeoutSeconds, msg⟩ idle present nonzero
    inv.registered monotonic
  have owners := (bus_invariant inv.bus).2
  have old (b : Nat) (op : Operation) (ours : s.udata b = some op) : b ≠ s.bus.nextBox := Nat.ne_of_lt (inv.boxes b op ours).1
  have elsewhere (c' : Nat) (other : c' ≠ c) :
      update s.bus.clients c (.send s.bus.nextBox .timestampStart) c' = s.bus.clients c' :=
    Function.update_of_ne other ..
  refine ⟨.next inv.bus trivial stepped, fun c' locked => ?_, fun c' alone => ?_, inv.registered, fun c' => ?_, fun c' => ?_,
    fun c' op' b sending => ?_, fun c' b op' held ours => ?_, fun b op' ours => ?_⟩
  · by_cases same : c' = c
    · subst same
      exact inv.mutex c' (by rw [updating]; rfl)
    · simp only [Session.setThread, Function.update_of_ne same] at locked
      exact inv.mutex c' locked
  · by_cases same : c' = c
    · subst same
      simp only [Session.setThread, Function.update_self] at alone
      cases alone
    · simp only [Session.setThread, Function.update_of_ne same] at alone
      exact (elsewhere c' same).trans (inv.idle c' alone)
  · by_cases same : c' = c
    · subst same
      simp [BusState.boxed, BusState.setClient, ClientPc.removes]
    · exact (congrArg (ClientPc.removes s.socket) (elsewhere c' same)).trans (inv.kept c')
  · by_cases same : c' = c
    · subst same
      simp only [Session.setThread, Function.update_self]
      trivial
    · simp only [Session.setThread, Function.update_of_ne same]
      have alone : (s.threads c').locked = false := by
        by_contra locked
        exact same (inv.same_thread (by simpa using locked) (by rw [updating]; rfl))
      cases before : s.threads c' with
      | check => rw [before] at alone; cases alone
      | update => rw [before] at alone; cases alone
      | _ => trivial
  · by_cases same : c' = c
    · subst same
      simp only [Session.setThread, Function.update_self, OpPc.send.injEq] at sending
      obtain ⟨rfl, rfl⟩ := sending
      refine ⟨Function.update_self .., fun _ => ?_⟩
      simp [BusState.boxed, BusState.setClient, ClientPc.box]
    · simp only [Session.setThread, Function.update_of_ne same] at sending
      obtain ⟨ours, unanswered⟩ := inv.sends c' op' b sending
      refine ⟨(Function.update_of_ne (old b op' ours) ..).trans ours, fun pending => ?_⟩
      exact (congrArg ClientPc.box (elsewhere c' same)).trans (unanswered pending)
  · by_cases same : c' = c
    · subst same
      simp only [BusState.boxed, BusState.setClient, Function.update_self, ClientPc.box, Option.some.injEq] at held
      subst held
      dsimp only at ours
      rw [Function.update_self] at ours
      cases ours
      simp [Session.setThread]
    · have before : (s.bus.clients c').box = some b := (congrArg ClientPc.box (elsewhere c' same)).symm.trans held
      have below := (owners.sound.alive (.client c') b before).1
      dsimp only at ours
      rw [Function.update_of_ne (Nat.ne_of_lt below)] at ours
      simp only [Session.setThread, Function.update_of_ne same]
      exact inv.owned c' b op' before ours
  · dsimp only at ours
    by_cases new : b = s.bus.nextBox
    · subst new
      refine ⟨Nat.lt_succ_self _, fun _ => ⟨c, ?_⟩⟩
      simp [BusState.boxed, BusState.setClient, ClientPc.box]
    · rw [Function.update_of_ne new] at ours
      obtain ⟨below, unanswered⟩ := inv.boxes b op' ours
      refine ⟨Nat.lt_succ_of_lt below, fun pending => ?_⟩
      obtain ⟨c', held⟩ := unanswered pending
      have other : c' ≠ c := by
        rintro rfl
        rw [idle] at held
        cases held
      exact ⟨c', (congrArg ClientPc.box (elsewhere c' other)).trans held⟩

theorem SessionInv.thread {c : Nat} (inv : SessionInv n ci s) (move : ThreadMove pk s t c) : SessionInv n ci t := by
  cases move with
  | walks pc walk same =>
    subst same
    exact inv.walk walk
  | locks op locking free same =>
    subst same
    refine inv.moves (.draw op) rfl rfl rfl rfl (fun c' _ locked => ?_) (fun _ => rfl)
      (fun _ => inv.idle c (by rw [locking]; rfl)) trivial (by simp) (by simp [locking])
    rw [inv.mutex c' locked] at free
    cases free
  | draws op drawing same =>
    subst same
    exact inv.moves (.bind op s.sequence) rfl rfl rfl rfl (fun c' _ locked => inv.mutex c' locked)
      (fun _ => inv.mutex c (by rw [drawing]; rfl)) (fun _ => inv.idle c (by rw [drawing]; rfl)) trivial (by simp)
      (by simp [drawing])
  | takes op msg pc pc' sem taking moved same =>
    subst same
    refine inv.moves (if pc' = .done then .box op msg else .take op msg pc') rfl rfl rfl rfl
      (fun c' _ locked => inv.mutex c' locked) (fun _ => inv.mutex c (by rw [taking]; rfl))
      (fun _ => inv.idle c (by rw [taking]; rfl)) ?_ ?_ (by simp [taking])
    · split <;> trivial
    · intro op' b
      split <;> simp
  | boxes op msg found ssl updating same =>
    subst same
    exact inv.box updating
  | gives op pc pc' sem giving moved same =>
    subst same
    refine inv.moves (if pc' = .done then .unlock else .give op pc') rfl rfl rfl rfl
      (fun c' _ locked => inv.mutex c' locked) (fun _ => inv.mutex c (by rw [giving]; rfl))
      (fun _ => inv.idle c (by rw [giving]; rfl)) ?_ ?_ (by simp [giving])
    · split <;> trivial
    · intro op' b
      split <;> simp
  | unlocks unlocking same =>
    subst same
    refine inv.moves .outside rfl rfl rfl rfl (fun c' other locked => ?_) (by simp [OpPc.locked])
      (by simp [OpPc.alone]) trivial (by simp) (by simp [unlocking])
    exact absurd (inv.same_thread locked (by rw [unlocking]; rfl)) other

/-- The rest of the program leaves the connection of the session registered, and its largest sequence id alone. -/
theorem SessionInv.connection {label : BusLabel} {bus : BusState} (inv : SessionInv n ci s) (allowed : s.leaves label = true)
    (taken : busStep s.bus label = some bus) :
    bus.fdSet s.socket = some ci ∧ (s.bus.conns.info ci).Same (bus.conns.info ci) := by
  have own := registered_of_reach inv.bus s.socket ci inv.registered
  cases busStep_sockets taken with
  | keeps _ fdSet _ same => exact ⟨by rw [fdSet]; exact inv.registered, same ci⟩
  | accepts c msg found idle registered fdSet _ info =>
    simp only [Session.leaves, idle, Bool.and_eq_true, decide_eq_true_eq] at allowed
    have theirs := registered_of_reach inv.bus msg.fd found registered
    have other : ci ≠ found := by
      rintro rfl
      exact allowed.2 (theirs.2.symm.trans own.2)
    rw [fdSet, info, Function.update_of_ne other]
    exact ⟨inv.registered, .refl _⟩
  | registers c fd ssl free fdSet _ info =>
    have other : s.socket ≠ fd := by
      rintro same
      rw [← same, inv.registered] at free
      cases free
    rw [fdSet, info, Function.update_of_ne other, Function.update_of_ne (Nat.ne_of_lt own.1)]
    exact ⟨inv.registered, .refl _⟩
  | removes c fd l slot serial ok waiting fdSet _ info =>
    have kept := inv.kept c
    rw [waiting] at kept
    have other : s.socket ≠ fd := by
      rintro same
      simp [ClientPc.removes, Purpose.removes, same] at kept
    rw [fdSet, info, Function.update_of_ne other]
    exact ⟨inv.registered, .refl _⟩

/-- The clients after a step that the rest of the program makes. -/
theorem SessionInv.others_clients {label : BusLabel} {bus : BusState} (inv : SessionInv n ci s)
    (allowed : s.leaves label = true) (taken : busStep s.bus label = some bus) {c : Nat}
    (alone : (s.threads c).alone = true) : bus.clients c = s.bus.clients c := by
  cases busStep_move taken with
  | client c' a next clients =>
    have other : c ≠ c' := by
      rintro rfl
      simp only [Session.leaves, inv.idle c alone, Bool.and_eq_true] at allowed
      have outside := allowed.1
      split at outside
      · rename_i atPc
        rw [atPc] at alone
        cases alone
      · cases outside
    rw [clients, Function.update_of_ne other]
  | listener l a listener clients => rw [clients]
  | run k clients => rw [clients]

theorem SessionInv.rest {label : BusLabel} {bus : BusState} (inv : SessionInv n ci s) (allowed : s.leaves label = true)
    (taken : busStep s.bus label = some bus) : SessionInv n ci { s with bus := bus } := by
  obtain ⟨registered, same⟩ := inv.connection allowed taken
  have answered (b : Nat) (unanswered : bus.results b = none) : s.bus.results b = none := by
    cases busStep_answers taken with
    | none results _ => rwa [results] at unanswered
    | one c x res box results _ =>
      rw [results, Function.update_apply] at unanswered
      split at unanswered
      · cases unanswered
      · exact unanswered
  have grown : s.bus.nextBox ≤ bus.nextBox := by
    cases busStep_answers taken <;> assumption
  refine ⟨.next inv.bus trivial taken, inv.mutex, fun c alone => ?_, registered, fun c => ?_, fun c => ?_,
    fun c op b sending => ?_, fun c b op held ours => ?_, fun b op ours => ?_⟩
  · exact (inv.others_clients allowed taken alone).trans (inv.idle c alone)
  · dsimp only
    by_contra removes
    have removes : (bus.clients c).removes s.socket = true := by simpa using removes
    have before := inv.kept c
    cases busStep_move taken with
    | client c' a next clients =>
      by_cases here : c = c'
      · subst here
        rcases clientStep_removes taken removes with old | ⟨idle, rfl⟩
        · rw [before] at old
          cases old
        · simp [Session.leaves, idle] at allowed
      · rw [clients, Function.update_of_ne here, before] at removes
        cases removes
    | listener l a listener clients =>
      rw [clients, before] at removes
      cases removes
    | run k clients =>
      rw [clients, before] at removes
      cases removes
  · have looked := inv.checked c
    unfold Session.checked at looked ⊢
    dsimp only
    unfold ConnectionInfo.nonMonotonic at looked ⊢
    rw [same.ssl, same.largest]
    exact looked
  · obtain ⟨ours, held⟩ := inv.sends c op b sending
    exact ⟨ours, fun unanswered => busStep_keeps_box taken (held (answered b unanswered)) unanswered⟩
  · have below := (inv.boxes b op ours).1
    refine inv.owned c b op ?_ ours
    cases busStep_move taken with
    | client c' a next clients =>
      rcases clientStep_box taken held with before | ⟨_, _, _, new, _⟩
      · exact before
      · omega
    | listener l a listener clients => rw [← clients]; exact held
    | run k clients => rw [← clients]; exact held
  · obtain ⟨below, held⟩ := inv.boxes b op ours
    refine ⟨Nat.lt_of_lt_of_le below grown, fun unanswered => ?_⟩
    obtain ⟨c, before⟩ := held (answered b unanswered)
    exact ⟨c, busStep_keeps_box taken before unanswered⟩

theorem SessionInv.step {label : SessionLabel} (inv : SessionInv n ci s) (taken : sessionStep pk s label = some t) :
    SessionInv n ci t := by
  cases sessionStep_move taken with
  | calls c op outside idle same =>
    subst same
    exact inv.moves (.lock { op with serial := s.nextOp }) rfl rfl rfl rfl (fun c' _ locked => inv.mutex c' locked)
      (by simp [OpPc.locked]) (fun _ => idle) trivial (by simp) (by simp [outside])
  | thread c ok move => exact inv.thread move
  | handles k b op atK ours stepped waiting same =>
    subst same
    exact ⟨.next inv.bus trivial stepped, inv.mutex, inv.idle, inv.registered, inv.kept, inv.checked, inv.sends, inv.owned,
      inv.boxes⟩
  | completes k op pc pc' sem completing moved same =>
    subst same
    exact ⟨inv.bus, inv.mutex, inv.idle, inv.registered, inv.kept, inv.checked, inv.sends, inv.owned, inv.boxes⟩
  | rest label bus allowed stepped same =>
    subst same
    exact inv.rest allowed stepped

end Invariant

/-- A bus on which a socket has been registered, by a run in which it is not released. -/
theorem connected_of_exec {n ci : Nat} {bus : BusState} {fd : Int} {labels : List BusLabel}
    (ended : exec busStep (fun _ label => decide (label.releases fd = false)) (.new n) labels = some bus)
    (registered : bus.fdSet fd = some ci) (unused : (bus.conns.info ci).largestWrSeqIdSeen = -1) :
    Reach busStep (.new n) (fun _ _ => True) bus ∧ bus.Connected fd ci := by
  have reach : Reach busStep (.new n) (fun _ label => label.releases fd = false) bus :=
    Reach.start.exec (fun _ _ => of_decide_eq_true) ended
  exact ⟨reach.weaken fun _ _ _ => trivial, registered, unused, kept_of_reach reach⟩

/-- A command of which only the sequence is set, and a message of which only the command bytes are, as the protobuf library
packs them. -/
def bareCommands : Packer :=
  { commandPack := fun sequence _ => [10, 2, 32, UInt8.ofNat sequence.toNat]
    messagePack := fun _ commandBytes => 58 :: UInt8.ofNat commandBytes.length :: commandBytes }

/-- A thread calls `KineticOperation_SendRequest` and comes to the end of `KineticRequest_PackCommand`. -/
def drawSteps (c : Nat) (ok : Bool) : List SessionLabel :=
  .call c ⟨0, kineticSequenceNotYetBound, 0, [], 1⟩ :: (List.replicate 3 (.thread c true) ++ [.thread c ok])

/-- A thread with its packed command comes to `box_msg`. -/
def packSteps (c : Nat) : List SessionLabel := List.replicate 6 (.thread c true)

end Kinetic
