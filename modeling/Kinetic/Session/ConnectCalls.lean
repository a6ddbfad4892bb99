import Kinetic.Session.ConnectSteps

namespace Kinetic
open Function (update)

/-- The session is being connected or is connected. -/
def SessionPhase.live : SessionPhase → Bool
  | .connecting => true
  | .connected _ => true
  | _ => false

/-- The session has its socket: it is live, or is about to close it or to have it released. -/
inductive SessionBus.Holds (s : SessionBus) (i : Nat) : Prop
  | live : (s.sessions i).phase.live = true → Holds s i
  | shut (c : Nat) : s.threads c = .shut i → Holds s i
  | release (c : Nat) : s.threads c = .release i → Holds s i

/-- A number is handed out when nothing of it is left in the bus and no `KineticSession_Disconnect` is about to use it, and a
session is disconnected by one thread at a time. -/
def reusesCleanly (s : SessionBus) : ConnectLabel → Prop
  | .call _ (.connect _ (some fd)) =>
    ¬ s.bus.Engaged fd ∧ ∀ c i, s.threads c = .shut i ∨ s.threads c = .release i → (s.sessions i).socket ≠ fd
  | .call _ (.disconnect i) => (s.sessions i).phase ≠ .leaving
  | _ => True

/-- The calls under way: each session has one, of the kind its phase says, live sessions have their socket open, and no two
sessions have the same one. -/
structure CallInv (s : SessionBus) : Prop where
  connecting : ∀ c i, (s.threads c).connects = some i → (s.sessions i).phase = .connecting
  leaving : ∀ c i, (s.threads c).disconnects = some i → (s.sessions i).phase = .leaving
  connectsOnce : ∀ c d i, (s.threads c).connects = some i → (s.threads d).connects = some i → c = d
  leavesOnce : ∀ c d i, (s.threads c).disconnects = some i → (s.threads d).disconnects = some i → c = d
  closed : ∀ i, (s.sessions i).phase = .closed → (s.sessions i).connected = false
  opened : ∀ i, (s.sessions i).phase.live = true → s.openFds (s.sessions i).socket = true
  distinct : ∀ i j, s.Holds i → s.Holds j → (s.sessions i).socket = (s.sessions j).socket → i = j

theorem CallInv.new (n : Nat) : CallInv (.new n) := by
  have outside (i : Nat) : ¬ (SessionBus.new n).Holds i := by
    rintro (live | ⟨c, here⟩ | ⟨c, here⟩)
    · cases live
    · cases here
    · cases here
  refine ⟨?_, ?_, ?_, ?_, ?_, ?_, ?_⟩
  · intro c i here
    cases here
  · intro c i here
    cases here
  · intro c d i here
    cases here
  · intro c d i here
    cases here
  · intro i closed
    cases closed
  · intro i live
    cases live
  · intro i j holds
    exact absurd holds (outside i)

section Calls
variable {s t : SessionBus} {c i : Nat} {pc : CallPc} {fields : SessionFields}

/-- What a step of a thread on one session must respect. -/
structure CallMove (s t : SessionBus) (c i : Nat) (pc : CallPc) (fields : SessionFields) : Prop where
  threads : t.threads = update s.threads c pc
  sessions : t.sessions = update s.sessions i fields
  connects : ∀ k, pc.connects = some k → k = i ∧ fields.phase = .connecting
  disconnects : ∀ k, pc.disconnects = some k → k = i ∧ fields.phase = .leaving
  othersConnect : ∀ d, d ≠ c → (s.threads d).connects = some i → fields.phase = .connecting ∧ pc.connects = none
  othersLeave : ∀ d, d ≠ c → (s.threads d).disconnects = some i → fields.phase = .leaving ∧ pc.disconnects = none
  closed : fields.phase = .closed → fields.connected = false
  opened : fields.phase.live = true → t.openFds fields.socket = true
  kept : ∀ j, j ≠ i → (s.sessions j).phase.live = true → t.openFds (s.sessions j).socket = true
  apart : ∀ j, j ≠ i → s.Holds j → t.Holds i → (s.sessions j).socket ≠ fields.socket

theorem CallMove.thread_self (move : CallMove s t c i pc fields) : t.threads c = pc := by
  rw [move.threads, Function.update_self]

theorem CallMove.thread_of_ne (move : CallMove s t c i pc fields) {d : Nat} (other : d ≠ c) : t.threads d = s.threads d := by
  rw [move.threads, Function.update_of_ne other]

theorem CallMove.session_self (move : CallMove s t c i pc fields) : t.sessions i = fields := by
  rw [move.sessions, Function.update_self]

theorem CallMove.session_of_ne (move : CallMove s t c i pc fields) {j : Nat} (other : j ≠ i) : t.sessions j = s.sessions j := by
  rw [move.sessions, Function.update_of_ne other]

/-- Another session has its socket after the step only if it had it before. -/
theorem CallMove.holds (move : CallMove s t c i pc fields) {j : Nat} (other : j ≠ i) (holds : t.Holds j) : s.Holds j := by
  have before {d : Nat} {at' : CallPc} (here : t.threads d = at') (disconnects : at'.disconnects = some j) : s.threads d = at' := by
    by_cases own : d = c
    · subst own
      rw [move.thread_self] at here
      rw [← here] at disconnects
      exact absurd (move.disconnects j disconnects).1 other
    · rw [move.thread_of_ne own] at here
      exact here
  cases holds with
  | live live =>
    rw [move.session_of_ne other] at live
    exact .live live
  | shut d here => exact .shut d (before here rfl)
  | release d here => exact .release d (before here rfl)

/-- No two threads are at the same session in one kind of call, if none is beside the thread that moves. -/
theorem CallMove.once (move : CallMove s t c i pc fields) {kind : CallPc → Option Nat}
    (before : ∀ d d' k, kind (s.threads d) = some k → kind (s.threads d') = some k → d = d')
    (own : ∀ k, kind pc = some k → k = i) (others : ∀ d, d ≠ c → kind (s.threads d) = some i → kind pc = none) :
    ∀ d d' k, kind (t.threads d) = some k → kind (t.threads d') = some k → d = d' := by
  have clash {d k : Nat} (here : kind pc = some k) (other : d ≠ c) (theirs : kind (s.threads d) = some k) : False := by
    have same := own k here
    rw [same] at theirs
    rw [others d other theirs] at here
    cases here
  intro d d' k first second
  by_cases mine : d = c
  · by_cases mine' : d' = c
    · rw [mine, mine']
    · rw [mine, move.thread_self] at first
      rw [move.thread_of_ne mine'] at second
      exact (clash first mine' second).elim
  · by_cases mine' : d' = c
    · rw [move.thread_of_ne mine] at first
      rw [mine', move.thread_self] at second
      exact (clash second mine first).elim
    · rw [move.thread_of_ne mine] at first
      rw [move.thread_of_ne mine'] at second
      exact before d d' k first second

theorem CallInv.move (inv : CallInv s) (move : CallMove s t c i pc fields) : CallInv t := by
  refine ⟨?_, ?_, ?_, ?_, ?_, ?_, ?_⟩
  · intro d k connects
    by_cases own : d = c
    · subst own
      rw [move.thread_self] at connects
      obtain ⟨rfl, phase⟩ := move.connects k connects
      rw [move.session_self]
      exact phase
    · rw [move.thread_of_ne own] at connects
      by_cases same : k = i
      · subst same
        rw [move.session_self]
        exact (move.othersConnect d own connects).1
      · rw [move.session_of_ne same]
        exact inv.connecting d k connects
  · intro d k disconnects
    by_cases own : d = c
    · subst own
      rw [move.thread_self] at disconnects
      obtain ⟨rfl, phase⟩ := move.disconnects k disconnects
      rw [move.session_self]
      exact phase
    · rw [move.thread_of_ne own] at disconnects
      by_cases same : k = i
      · subst same
        rw [move.session_self]
        exact (move.othersLeave d own disconnects).1
      · rw [move.session_of_ne same]
        exact inv.leaving d k disconnects
  · exact move.once inv.connectsOnce (fun k own => (move.connects k own).1) fun d other theirs => (move.othersConnect d other theirs).2
  · exact move.once inv.leavesOnce (fun k own => (move.disconnects k own).1) fun d other theirs => (move.othersLeave d other theirs).2
  · intro j phase
    by_cases same : j = i
    · subst same
      rw [move.session_self] at phase ⊢
      exact move.closed phase
    · rw [move.session_of_ne same] at phase ⊢
      exact inv.closed j phase
  · intro j live
    by_cases same : j = i
    · subst same
      rw [move.session_self] at live ⊢
      exact move.opened live
    · rw [move.session_of_ne same] at live ⊢
      exact move.kept j same live
  · intro j k first second socket
    by_cases same : j = i
    · by_cases same' : k = i
      · rw [same, same']
      · rw [same] at first socket
        rw [move.session_self, move.session_of_ne same'] at socket
        exact absurd socket.symm (move.apart k same' (move.holds same' second) first)
    · by_cases same' : k = i
      · rw [same'] at second socket
        rw [move.session_of_ne same, move.session_self] at socket
        exact absurd socket (move.apart j same (move.holds same first) second)
      · rw [move.session_of_ne same, move.session_of_ne same'] at socket
        exact inv.distinct j k (move.holds same first) (move.holds same' second) socket

/-- No thread disconnects a session that is not leaving. -/
theorem CallInv.not_leaving (inv : CallInv s) (phase : (s.sessions i).phase ≠ .leaving) (d : Nat) :
    (s.threads d).disconnects ≠ some i := fun leaving => phase (inv.leaving d i leaving)

theorem CallInv.not_connecting (inv : CallInv s) (phase : (s.sessions i).phase ≠ .connecting) (d : Nat) :
    (s.threads d).connects ≠ some i := fun connecting => phase (inv.connecting d i connecting)

/-- A session that is not live after a step of the only thread that is at it has no socket left. -/
theorem not_holds (live : (t.sessions i).phase.live = false) (none : ∀ d, (t.threads d).disconnects ≠ some i) : ¬ t.Holds i := by
  intro holds
  cases holds with
  | live now => rw [live] at now; cases now
  | shut d here => exact none d (by rw [here]; rfl)
  | release d here => exact none d (by rw [here]; rfl)

/-- A thread goes on in its `KineticSession_Connect`, or returns from it with the socket open. -/
theorem CallInv.connects (inv : CallInv s) (own : (s.threads c).connects = some i) (threads : t.threads = update s.threads c pc)
    (sessions : t.sessions = update s.sessions i fields) (openFds : t.openFds = s.openFds)
    (socket : fields.socket = (s.sessions i).socket) (notClosed : fields.phase ≠ .closed) (notLeaving : pc.disconnects = none)
    (stays : ∀ k, pc.connects = some k → k = i ∧ fields.phase = .connecting) : CallInv t := by
  have phase := inv.connecting c i own
  have live : (s.sessions i).phase.live = true := by
    rw [phase]
    rfl
  refine inv.move (c := c) (i := i) ⟨threads, sessions, stays, ?_, ?_, ?_, ?_, ?_, ?_, ?_⟩
  · intro k leaving
    rw [notLeaving] at leaving
    cases leaving
  · intro d other connects
    exact absurd (inv.connectsOnce d c i connects own) other
  · intro d _ leaving
    have leaves := inv.leaving d i leaving
    rw [phase] at leaves
    cases leaves
  · intro closed
    exact absurd closed notClosed
  · intro _
    rw [openFds, socket]
    exact inv.opened i live
  · intro j _ alive
    rw [openFds]
    exact inv.opened j alive
  · intro j other holds _ same
    rw [socket] at same
    exact other (inv.distinct j i holds (.live live) same)

theorem CallInv.goesOn (inv : CallInv s) (own : (s.threads c).connects = some i) (threads : t.threads = update s.threads c pc)
    (sessions : t.sessions = update s.sessions i fields) (openFds : t.openFds = s.openFds)
    (socket : fields.socket = (s.sessions i).socket) (same : fields.phase = (s.sessions i).phase)
    (notLeaving : pc.disconnects = none) (stays : pc.connects = some i) : CallInv t := by
  have phase := same.trans (inv.connecting c i own)
  refine inv.connects own threads sessions openFds socket (by rw [phase]; exact nofun) notLeaving fun k connects => ?_
  rw [stays] at connects
  cases connects
  exact ⟨rfl, phase⟩

/-- A `KineticSession_Connect` or `KineticSession_Disconnect` that ends gives the socket up. -/
theorem CallInv.ends (inv : CallInv s) (threads : t.threads = update s.threads c .outside)
    (sessions : t.sessions = update s.sessions i fields) (dead : fields.phase.live = false)
    (closed : fields.phase = .closed → fields.connected = false)
    (alone : ∀ d, d ≠ c → (s.threads d).connects ≠ some i ∧ (s.threads d).disconnects ≠ some i)
    (kept : ∀ j, j ≠ i → (s.sessions j).phase.live = true → t.openFds (s.sessions j).socket = true) : CallInv t := by
  have released : ¬ t.Holds i := by
    refine not_holds ?_ fun d => ?_
    · rw [sessions, Function.update_self]
      exact dead
    · rw [threads, Function.update_apply]
      split
      · exact nofun
      · rename_i other
        exact (alone d other).2
  refine inv.move (c := c) (i := i) ⟨threads, sessions, nofun, nofun, ?_, ?_, closed, ?_, kept, ?_⟩
  · intro d other connects
    exact absurd connects (alone d other).1
  · intro d other leaves
    exact absurd leaves (alone d other).2
  · intro live
    rw [dead] at live
    cases live
  · intro j _ _ holds
    exact absurd holds released

/-- The system hands out a socket to a session that is being connected. -/
theorem CallInv.handed (inv : CallInv s) {fd : Int} (new : (s.sessions i).phase = .new)
    (fresh : s.openFds fd = false)
    (clean : ∀ c i, s.threads c = .shut i ∨ s.threads c = .release i → (s.sessions i).socket ≠ fd)
    (threads : t.threads = update s.threads c (.alloc i)) (sessions : t.sessions = update s.sessions i fields)
    (openFds : t.openFds = update s.openFds fd true) (socket : fields.socket = fd) (phase : fields.phase = .connecting) :
    CallInv t := by
  have idle (d : Nat) : (s.threads d).connects ≠ some i ∧ (s.threads d).disconnects ≠ some i :=
    ⟨inv.not_connecting (by rw [new]; exact nofun) d, inv.not_leaving (by rw [new]; exact nofun) d⟩
  refine inv.move (c := c) (i := i) ⟨threads, sessions, ?_, nofun, ?_, ?_, ?_, ?_, ?_, ?_⟩
  · intro k connects
    cases connects
    exact ⟨rfl, phase⟩
  · intro d _ connects
    exact absurd connects (idle d).1
  · intro d _ leaves
    exact absurd leaves (idle d).2
  · intro closed
    rw [phase] at closed
    cases closed
  · intro _
    rw [openFds, socket, Function.update_self]
  · intro j _ live
    rw [openFds, Function.update_apply]
    split
    · rfl
    · exact inv.opened j live
  · intro j _ holds _ same
    rw [socket] at same
    cases holds with
    | live live =>
      have opened := inv.opened j live
      rw [same, fresh] at opened
      cases opened
    | shut d here => exact clean d j (.inl here) same
    | release d here => exact clean d j (.inr here) same

/-- A connected session is let into `KineticSession_Disconnect`. -/
theorem CallInv.admitted (inv : CallInv s) {ci : Nat} (phase : (s.sessions i).phase = .connected ci)
    (threads : t.threads = update s.threads c (.shut i))
    (sessions : t.sessions = update s.sessions i { s.sessions i with phase := .leaving }) (openFds : t.openFds = s.openFds) :
    CallInv t := by
  have idle (d : Nat) : (s.threads d).connects ≠ some i ∧ (s.threads d).disconnects ≠ some i :=
    ⟨inv.not_connecting (by rw [phase]; exact nofun) d, inv.not_leaving (by rw [phase]; exact nofun) d⟩
  have live : (s.sessions i).phase.live = true := by
    rw [phase]
    rfl
  refine inv.move (c := c) (i := i) ⟨threads, sessions, nofun, ?_, ?_, ?_, nofun, nofun, ?_, ?_⟩
  · intro k leaves
    cases leaves
    exact ⟨rfl, rfl⟩
  · intro d _ connects
    exact absurd connects (idle d).1
  · intro d _ leaves
    exact absurd leaves (idle d).2
  · intro j _ alive
    rw [openFds]
    exact inv.opened j alive
  · intro j other holds _ same
    exact other (inv.distinct j i holds (.live live) same)

/-- A thread goes on in its `KineticSession_Disconnect`. -/
theorem CallInv.leaves (inv : CallInv s) (own : s.threads c = .shut i ∨ s.threads c = .release i)
    (threads : t.threads = update s.threads c pc) (sessions : t.sessions = s.sessions) (stays : pc.disconnects = some i)
    (notConnecting : pc.connects = none)
    (openFds : ∀ fd, fd ≠ (s.sessions i).socket → t.openFds fd = s.openFds fd) : CallInv t := by
  have leaving : (s.threads c).disconnects = some i := by
    rcases own with here | here
    · rw [here]
      rfl
    · rw [here]
      rfl
  have holds : s.Holds i := by
    rcases own with here | here
    · exact .shut c here
    · exact .release c here
  have phase := inv.leaving c i leaving
  have others (d : Nat) (other : d ≠ c) : (s.threads d).disconnects ≠ some i :=
    fun leaves => other (inv.leavesOnce d c i leaves leaving)
  refine inv.move (c := c) (i := i) ⟨threads, sessions.trans (Function.update_eq_self i s.sessions).symm, ?_, ?_, ?_, ?_, ?_,
    ?_, ?_, ?_⟩
  · intro k connects
    rw [notConnecting] at connects
    cases connects
  · intro k leaves
    rw [stays] at leaves
    cases leaves
    exact ⟨rfl, phase⟩
  · intro d _ connects
    exact absurd connects (inv.not_connecting (by rw [phase]; exact nofun) d)
  · intro d other leaves
    exact absurd leaves (others d other)
  · intro closed
    rw [phase] at closed
    cases closed
  · intro live
    rw [phase] at live
    cases live
  · intro j other live
    rw [openFds]
    · exact inv.opened j live
    · intro same
      exact other (inv.distinct j i (.live live) holds same)
  · intro j other theirs _ same
    exact other (inv.distinct j i theirs holds same)

theorem CallPc.resume_connects (pc : CallPc) (client : ClientPc) (a : ClientAction) : (pc.resume client a).connects = pc.connects := by
  unfold CallPc.resume
  split <;> rfl

theorem CallPc.resume_disconnects (pc : CallPc) (client : ClientPc) (a : ClientAction) :
    (pc.resume client a).disconnects = pc.disconnects := by
  unfold CallPc.resume
  split <;> rfl

/-- A thread that is not in the bus is not taken further by the bus. -/
theorem CallPc.of_resume {pc at' : CallPc} {client : ClientPc} {a : ClientAction} (resumed : pc.resume client a = at')
    (apart : at'.connects = none → (∃ i, at' = .shut i) ∨ ∃ i, at' = .release i)
    (early : ∀ i, at'.connects = some i → at' = .alloc i ∨ at' = .register i) : pc = at' := by
  unfold CallPc.resume at resumed
  split at resumed
  · subst resumed
    rcases early _ rfl with here | here <;> cases here
  · subst resumed
    rcases early _ rfl with here | here <;> cases here
  · subst resumed
    rcases apart rfl with ⟨_, here⟩ | ⟨_, here⟩ <;> cases here
  · exact resumed

/-- A session that has its socket after a step of the bus had it before. -/
theorem SessionBus.holds_of_resumed
    (threads : ∀ d, t.threads d = s.threads d ∨ ∃ client a, t.threads d = (s.threads d).resume client a)
    (sessions : t.sessions = s.sessions) (held : t.Holds i) : s.Holds i := by
  have same {d : Nat} {at' : CallPc} (here : t.threads d = at') (apart : (∃ i, at' = .shut i) ∨ ∃ i, at' = .release i) :
      s.threads d = at' := by
    rcases threads d with same | ⟨client, a, resumed⟩
    · rw [same] at here
      exact here
    · refine CallPc.of_resume (resumed.symm.trans here) (fun _ => apart) fun i connecting => ?_
      rcases apart with ⟨_, rfl⟩ | ⟨_, rfl⟩ <;> cases connecting
  cases held with
  | live live =>
    rw [sessions] at live
    exact .live live
  | shut d here => exact .shut d (same here (.inl ⟨i, rfl⟩))
  | release d here => exact .release d (same here (.inr ⟨i, rfl⟩))

/-- A step of the bus leaves the calls as they are, but for their return. -/
theorem CallInv.resumed (inv : CallInv s)
    (threads : ∀ d, t.threads d = s.threads d ∨ ∃ client a, t.threads d = (s.threads d).resume client a)
    (sessions : t.sessions = s.sessions) (openFds : t.openFds = s.openFds) : CallInv t := by
  have connects (d : Nat) : (t.threads d).connects = (s.threads d).connects := by
    rcases threads d with same | ⟨client, a, resumed⟩
    · rw [same]
    · rw [resumed, CallPc.resume_connects]
  have disconnects (d : Nat) : (t.threads d).disconnects = (s.threads d).disconnects := by
    rcases threads d with same | ⟨client, a, resumed⟩
    · rw [same]
    · rw [resumed, CallPc.resume_disconnects]
  refine ⟨?_, ?_, ?_, ?_, ?_, ?_, ?_⟩
  · intro d i own
    rw [connects] at own
    rw [sessions]
    exact inv.connecting d i own
  · intro d i own
    rw [disconnects] at own
    rw [sessions]
    exact inv.leaving d i own
  · intro d d' i own other
    rw [connects] at own other
    exact inv.connectsOnce d d' i own other
  · intro d d' i own other
    rw [disconnects] at own other
    exact inv.leavesOnce d d' i own other
  · rw [sessions]
    exact inv.closed
  · rw [sessions, openFds]
    exact inv.opened
  · intro i j first second socket
    rw [sessions] at socket
    exact inv.distinct i j (SessionBus.holds_of_resumed threads sessions first) (SessionBus.holds_of_resumed threads sessions second)
      socket

theorem CallInv.step (inv : CallInv s) {label : ConnectLabel} (clean : reusesCleanly s label)
    (move : ConnectMove s label t) : CallInv t := by
  have same (i : Nat) : s.sessions = update s.sessions i (s.sessions i) := (Function.update_eq_self i s.sessions).symm
  cases move with
  | notConnected c i outside new =>
    have idle (d : Nat) : (s.threads d).connects ≠ some i ∧ (s.threads d).disconnects ≠ some i :=
      ⟨inv.not_connecting (by rw [new]; exact nofun) d, inv.not_leaving (by rw [new]; exact nofun) d⟩
    refine inv.ends (c := c) (i := i) ?_ rfl rfl nofun (fun d _ => idle d) fun j _ live => inv.opened j live
    rw [← outside, Function.update_eq_self]
    rfl
  | connects c i fd outside new nonneg fresh => exact inv.handed new fresh clean.2 rfl rfl rfl rfl rfl
  | allocates c i here =>
    exact inv.goesOn (by rw [here]; rfl) rfl rfl rfl rfl rfl rfl rfl
  | noMemory c i here => exact inv.connects (by rw [here]; rfl) rfl rfl rfl rfl nofun rfl nofun
  | notMade c i ssl outcome bus here =>
    exact inv.goesOn (by rw [here]; rfl) rfl (same i) rfl rfl rfl rfl rfl
  | aborts c i ssl ci here present => exact inv.resumed (fun _ => .inl rfl) rfl rfl
  | publishes c i ssl bus here free run =>
    exact inv.goesOn (by rw [here]; rfl) rfl (same i) rfl rfl rfl rfl rfl
  | available c i ci here => exact inv.connects (by rw [here]; rfl) rfl rfl rfl rfl nofun rfl nofun
  | timesOut c i ci here =>
    exact inv.goesOn (by rw [here]; rfl) rfl (same i) rfl rfl rfl rfl rfl
  | frees c i here =>
    exact inv.goesOn (by rw [here]; rfl) rfl rfl rfl rfl rfl rfl rfl
  | fails c i here =>
    have own : (s.threads c).connects = some i := by rw [here]; rfl
    have phase := inv.connecting c i own
    have live : (s.sessions i).phase.live = true := by rw [phase]; rfl
    refine inv.ends (c := c) (i := i) rfl rfl rfl nofun (fun d other => ⟨?_, ?_⟩) fun j other alive => ?_
    · exact fun connects => other (inv.connectsOnce d c i connects own)
    · exact inv.not_leaving (by rw [phase]; exact nofun) d
    · show update s.openFds (s.sessions i).socket false (s.sessions j).socket = true
      rw [Function.update_of_ne]
      · exact inv.opened j alive
      · exact fun socket => other (inv.distinct j i (.live alive) (.live live) socket)
  | refused c i outside => exact inv
  | admitted c i outside phase connected nonneg =>
    rcases phase with ⟨ci, phase⟩ | leaving | closed
    · exact inv.admitted phase rfl rfl rfl
    · exact absurd leaving clean
    · rw [inv.closed i closed] at connected
      cases connected
  | shuts c i here => exact inv.leaves (.inl here) rfl rfl rfl rfl fun fd other => Function.update_of_ne other ..
  | releases c i bus here run => exact inv.leaves (.inr here) rfl rfl rfl rfl fun fd _ => rfl
  | finishes c i here =>
    have own : (s.threads c).disconnects = some i := by rw [here]; rfl
    have phase := inv.leaving c i own
    refine inv.ends (c := c) (i := i) rfl rfl rfl (fun _ => rfl) (fun d other => ⟨?_, ?_⟩) fun j _ alive => inv.opened j alive
    · exact inv.not_connecting (by rw [phase]; exact nofun) d
    · exact fun leaves => other (inv.leavesOnce d c i leaves own)
  | client c a bus others run =>
    refine inv.resumed (fun d => ?_) rfl rfl
    show update s.threads c ((s.threads c).resume (bus.clients c) a) d = s.threads d ∨ _
    by_cases own : d = c
    · subst own
      exact .inr ⟨bus.clients d, a, Function.update_self ..⟩
    · exact .inl (Function.update_of_ne own ..)
  | other label bus others notClient run => exact inv.resumed (fun _ => .inl rfl) rfl rfl

end Calls

end Kinetic
