import Kinetic.Session.Reuse

namespace Kinetic
open Function (update)
open Transition (Reach exec)

/-- The sessions of a client over a bus with its hash table itself. -/
structure HashedSessions where
  sessions : SessionBus
  table : Yacht Nat

def HashedSessions.new (listenerCount : Nat) : HashedSessions :=
  { sessions := .new listenerCount, table := yachtInit Nat defFdSetSize2 }

/-- `Bus_RegisterSocket` of a session up to its message for the listener, or another step. -/
inductive SessionsLabel
  | registerSocket (c : Nat) (env : RegisterEnv) (ssl : Bool)
  | other (label : ConnectLabel)

/-- A session goes on with its connection in the table, or to its cleanup, or the assertion fails. -/
def HashedSessions.registerSocket (s : HashedSessions) (c i : Nat) (env : RegisterEnv) (ssl : Bool) : HashedSessions :=
  match registerStart env s.sessions.bus s.table c (Int32.ofInt (s.sessions.sessions i).socket) ssl with
  | some (true, bus, table) =>
    { sessions := { s.sessions.setThread c (.registering i s.sessions.bus.nextConn) with
        bus := bus, udata := update s.sessions.udata s.sessions.bus.nextConn (some i) }
      table := table }
  | some (false, bus, table) => { sessions := { s.sessions.setThread c (.cleanup i) with bus := bus }, table := table }
  | none => { s with sessions := { s.sessions with aborted := true } }

def ConnectLabel.isRegister : ConnectLabel → Bool
  | .call _ (.registerSocket _ _) => true
  | _ => false

/-- The table after a step in which no session registers its socket. -/
def HashedSessions.tableAfter (s : HashedSessions) : ConnectLabel → Yacht Nat
  | .bus label => removeEntry s.sessions.bus s.table label
  | .call _ _ => s.table

def HashedSessions.turnsAway (s : HashedSessions) : ConnectLabel → Prop
  | .bus label => Kinetic.turnsAway s.sessions.bus s.table label
  | .call _ _ => False

instance (s : HashedSessions) (label : ConnectLabel) : Decidable (s.turnsAway label) := by
  unfold HashedSessions.turnsAway
  split <;> infer_instance

def sessionsStep (s : HashedSessions) : SessionsLabel → Option HashedSessions
  | .registerSocket c env ssl =>
    match s.sessions.threads c with
    | .register i =>
      if s.sessions.aborted = false ∧ s.sessions.bus.clients c = .idle then
        some (s.registerSocket c i env ssl)
      else none
    | _ => none
  | .other label =>
    if label.isRegister then none
    else if s.turnsAway label then some s
    else (connectStep s.sessions label).map fun sessions => { sessions := sessions, table := s.tableAfter label }

/-- The steps of sessions over the map that a step over the table stands for. -/
inductive SessionsLabel.Covers : SessionsLabel → ConnectLabel → Prop
  | registerSocket (c : Nat) (env : RegisterEnv) (ssl : Bool) (outcome : RegisterOutcome) :
      Covers (.registerSocket c env ssl) (.call c (.registerSocket ssl outcome))
  | other (label : ConnectLabel) : Covers (.other label) label

/-- The sessions connect cleanly, and the system hands out socket numbers. -/
def sessionsCleanly (s : HashedSessions) : SessionsLabel → Prop
  | .registerSocket _ _ _ => True
  | .other label => connectsCleanly s.sessions label ∧ ∀ c i fd, label = .call c (.connect i (some fd)) → IsSocket fd

/-- The table stands for the map of the bus, and the sockets of sessions and of removals are sockets. -/
structure SessionsInv (s : HashedSessions) : Prop where
  sockets : ∀ i, s.sessions.Holds i → IsSocket (s.sessions.sessions i).socket
  removes : ∀ fd, s.sessions.bus.Underway (.remove fd) → IsSocket fd
  stands : ∃ k, Stands k s.table s.sessions.bus.fdMap

theorem SessionsInv.new (n : Nat) : SessionsInv (.new n) := by
  refine ⟨?_, ?_, 4, stands_init 4⟩
  · rintro i (live | ⟨c, here⟩ | ⟨c, here⟩)
    · cases live
    · cases here
    · cases here
  · exact fun fd underway => absurd underway (not_underway_new n (.remove fd))

section Sockets
variable {s t : SessionBus} {c i j : Nat} {pc : CallPc} {fields : SessionFields} {label : ConnectLabel}

/-- A session that has its socket is live or is leaving. -/
theorem CallInv.phase_of_holds (inv : CallInv s) (holds : s.Holds i) :
    (s.sessions i).phase.live = true ∨ (s.sessions i).phase = .leaving := by
  cases holds with
  | live live => exact .inl live
  | shut c here => exact .inr (inv.leaving c i (by rw [here]; rfl))
  | release c here => exact .inr (inv.leaving c i (by rw [here]; rfl))

/-- A thread moves on at one session. -/
theorem SessionBus.holds_of_move (threads : t.threads = update s.threads c pc) (sessions : t.sessions = update s.sessions i fields)
    (leaves : pc.disconnects = none ∨ pc.disconnects = some i) (own : j = i → s.Holds i ∧ fields.socket = (s.sessions i).socket)
    (holds : t.Holds j) : s.Holds j ∧ (t.sessions j).socket = (s.sessions j).socket := by
  by_cases here : j = i
  · subst here
    rw [sessions, Function.update_self]
    exact own rfl
  · have before {d : Nat} {at' : CallPc} (atPc : t.threads d = at') (disconnects : at'.disconnects = some j) :
        s.threads d = at' := by
      rw [threads, Function.update_apply] at atPc
      split at atPc
      · rw [← atPc] at disconnects
        rcases leaves with none | own
        · rw [none] at disconnects
          cases disconnects
        · exact absurd (Option.some.inj (disconnects.symm.trans own)) here
      · exact atPc
    rw [sessions, Function.update_of_ne here]
    refine ⟨?_, rfl⟩
    cases holds with
    | live live =>
      rw [sessions, Function.update_of_ne here] at live
      exact .live live
    | shut d atPc => exact .shut d (before atPc rfl)
    | release d atPc => exact .release d (before atPc rfl)

/-- A session that has its socket after a step had it before, unless the system has just handed it out. -/
theorem ConnectMove.holds (inv : CallInv s) (clean : reusesCleanly s label) (move : ConnectMove s label t) (holds : t.Holds j) :
    s.Holds j ∧ (t.sessions j).socket = (s.sessions j).socket ∨
      ∃ c fd, label = .call c (.connect j (some fd)) ∧ (t.sessions j).socket = fd := by
  have held := (inv.step clean move).phase_of_holds holds
  have same (i : Nat) : s.sessions = update s.sessions i (s.sessions i) := (Function.update_eq_self i s.sessions).symm
  have connecting {c i : Nat} (own : (s.threads c).connects = some i) : s.Holds i := .live (inv.live_of_connects own)
  -- a session that has just been given up has no socket
  have gone {i : Nat} {dead : SessionFields} (sessions : t.sessions = update s.sessions i dead) (notLive : dead.phase.live = false)
      (notLeaving : dead.phase ≠ .leaving) (here : j = i) : False := by
    rw [here, sessions, Function.update_self, notLive] at held
    exact held.elim Bool.false_ne_true notLeaving
  have resumed (threads : ∀ d, t.threads d = s.threads d ∨ ∃ client a, t.threads d = (s.threads d).resume client a)
      (sessions : t.sessions = s.sessions) : s.Holds j := SessionBus.holds_of_resumed threads sessions holds
  cases move with
  | notConnected c i outside new =>
    have stays : s.threads = update s.threads c .outside := by rw [← outside, Function.update_eq_self]
    exact .inl (SessionBus.holds_of_move stays rfl (.inl rfl) (fun here => (gone rfl rfl (by rintro ⟨⟩) here).elim) holds)
  | connects c i fd outside new nonneg fresh =>
    by_cases here : j = i
    · subst here
      exact .inr ⟨c, fd, rfl, by simp [SessionBus.setSession, SessionBus.setThread]⟩
    · exact .inl (SessionBus.holds_of_move (c := c) (i := i) rfl rfl (.inl rfl) (fun same => absurd same here) holds)
  | allocates c i here =>
    exact .inl (SessionBus.holds_of_move rfl rfl (.inl rfl) (fun _ => ⟨connecting (by rw [here]; rfl), rfl⟩) holds)
  | noMemory c i here =>
    exact .inl (SessionBus.holds_of_move rfl rfl (.inl rfl) (fun here => (gone rfl rfl (by rintro ⟨⟩) here).elim) holds)
  | notMade c i ssl outcome bus here =>
    exact .inl (SessionBus.holds_of_move rfl (same i) (.inl rfl) (fun _ => ⟨connecting (by rw [here]; rfl), rfl⟩) holds)
  | aborts c i ssl ci here present => exact .inl ⟨resumed (fun _ => .inl rfl) rfl, rfl⟩
  | publishes c i ssl bus here free run =>
    exact .inl (SessionBus.holds_of_move rfl (same i) (.inl rfl) (fun _ => ⟨connecting (by rw [here]; rfl), rfl⟩) holds)
  | available c i ci here =>
    exact .inl (SessionBus.holds_of_move rfl rfl (.inl rfl) (fun _ => ⟨connecting (by rw [here]; rfl), rfl⟩) holds)
  | timesOut c i ci here =>
    exact .inl (SessionBus.holds_of_move rfl (same i) (.inl rfl) (fun _ => ⟨connecting (by rw [here]; rfl), rfl⟩) holds)
  | frees c i here =>
    exact .inl (SessionBus.holds_of_move rfl rfl (.inl rfl) (fun _ => ⟨connecting (by rw [here]; rfl), rfl⟩) holds)
  | fails c i here =>
    exact .inl (SessionBus.holds_of_move rfl rfl (.inl rfl) (fun here => (gone rfl rfl (by rintro ⟨⟩) here).elim) holds)
  | refused c i outside => exact .inl ⟨holds, rfl⟩
  | admitted c i outside phase connected nonneg =>
    have live : (s.sessions i).phase.live = true := by
      rcases phase with ⟨ci, phase⟩ | leaving | closed
      · rw [phase]
        rfl
      · exact absurd leaving clean
      · rw [inv.closed i closed] at connected
        cases connected
    exact .inl (SessionBus.holds_of_move rfl rfl (.inr rfl) (fun _ => ⟨.live live, rfl⟩) holds)
  | shuts c i here =>
    exact .inl (SessionBus.holds_of_move rfl (same i) (.inr rfl) (fun _ => ⟨.shut c here, rfl⟩) holds)
  | releases c i bus here run =>
    exact .inl (SessionBus.holds_of_move rfl (same i) (.inr rfl) (fun _ => ⟨.release c here, rfl⟩) holds)
  | finishes c i here =>
    exact .inl (SessionBus.holds_of_move rfl rfl (.inl rfl) (fun here => (gone rfl rfl (by rintro ⟨⟩) here).elim) holds)
  | client c a bus others run =>
    refine .inl ⟨resumed (fun d => ?_) rfl, rfl⟩
    show update s.threads c ((s.threads c).resume (bus.clients c) a) d = s.threads d ∨ _
    by_cases own : d = c
    · subst own
      exact .inr ⟨bus.clients d, a, Function.update_self ..⟩
    · exact .inl (Function.update_of_ne own ..)
  | other label bus others notClient run => exact .inl ⟨resumed (fun _ => .inl rfl) rfl, rfl⟩

/-- The socket of a session at which a thread is about to register it. -/
theorem CallInv.holds_of_register (inv : CallInv s) (here : s.threads c = .register i) : s.Holds i :=
  .live (inv.live_of_connects (by rw [here]; rfl))

end Sockets

section Steps
variable {s : HashedSessions} {t : SessionBus} {label : ConnectLabel}

theorem BusLabel.not_register_of_others {label : BusLabel} (others : label.others = true) : label.isRegister = false := by
  cases label with
  | client c a => cases a <;> first | rfl | cases others
  | _ => rfl

/-- A socket that is being removed after a step was so before, or is that of a session that is being released. -/
theorem ConnectMove.removes {s : SessionBus} (base : ConnectInv s) (move : ConnectMove s label t) {fd : Int}
    (underway : t.bus.Underway (.remove fd)) :
    s.bus.Underway (.remove fd) ∨ ∃ c i, s.threads c = .release i ∧ (s.sessions i).socket = fd := by
  have stepped {label : BusLabel} (run : busStep s.bus label = some t.bus) (notRelease : ∀ c fd, label ≠ .client c (.release fd)) :
      s.bus.Underway (.remove fd) := by
    rcases busStep_underway base.slots base.pushes run underway with before | ⟨_, _, _, _, new, _⟩ | ⟨c, fd', begun, _⟩
    · exact before
    · cases new
    · exact absurd begun (notRelease c fd')
  cases move with
  | notMade c i ssl outcome bus here fate =>
    rcases fate with rfl | ⟨info, rfl⟩
    · exact .inl underway
    · exact .inl (BusState.discarded_underway underway)
  | publishes c i ssl bus here free run => exact .inl (stepped run nofun)
  | releases c i bus here run =>
    rcases busStep_underway base.slots base.pushes run underway with before | ⟨_, _, _, _, new, _⟩ | ⟨c', fd', begun, same⟩
    · exact .inl before
    · cases new
    · cases begun
      cases same
      exact .inr ⟨c, i, here, rfl⟩
  | client c a bus others run =>
    refine .inl (stepped run ?_)
    rintro c' fd' same
    rw [same] at others
    cases others
  | other label bus others notClient run => exact .inl (stepped run fun c fd' => notClient c _)
  | _ => exact .inl underway

/-- What a step of the sessions keeps beside the table after it. -/
theorem SessionsInv.move (inv : SessionsInv s) (base : ConnectInv s.sessions) (clean : reusesCleanly s.sessions label)
    (handed : ∀ c i fd, label = .call c (.connect i (some fd)) → IsSocket fd) (move : ConnectMove s.sessions label t)
    {table : Yacht Nat} (stands : ∃ k, Stands k table t.bus.fdMap) : SessionsInv { sessions := t, table := table } := by
  refine ⟨fun i holds => ?_, fun fd underway => ?_, stands⟩
  · rcases move.holds base.calls clean holds with ⟨before, same⟩ | ⟨c, fd, begun, same⟩
    · rw [same]
      exact inv.sockets i before
    · rw [same]
      exact handed c i fd begun
  · rcases move.removes base underway with before | ⟨c, i, here, rfl⟩
    · exact inv.removes fd before
    · exact inv.sockets i (.release c here)

/-- The table stands for the map after a step that registers no socket. -/
theorem SessionsInv.tableAfter (inv : SessionsInv s) (others : label.isRegister = false) (move : ConnectMove s.sessions label t) :
    ∃ k, Stands k (s.tableAfter label) t.bus.fdMap := by
  obtain ⟨k, stands⟩ := inv.stands
  cases move with
  | notMade => cases others
  | aborts => cases others
  | publishes => cases others
  | releases c i bus here run => exact stands.bus rfl inv.removes run
  | client c a bus notRegister run => exact stands.bus (BusLabel.not_register_of_others notRegister) inv.removes run
  | other label bus notRegister _ run => exact stands.bus (BusLabel.not_register_of_others notRegister) inv.removes run
  | _ => exact ⟨k, stands⟩

/-- The start of a registration does over the table what it does over the map. -/
theorem SessionsInv.registers (inv : SessionsInv s) (base : ConnectInv s.sessions) {c i : Nat} (env : RegisterEnv) (ssl : Bool)
    (here : s.sessions.threads c = .register i) (idle : s.sessions.bus.clients c = .idle) (running : s.sessions.aborted = false) :
    (∃ outcome, connectStep s.sessions (.call c (.registerSocket ssl outcome)) = some (s.registerSocket c i env ssl).sessions) ∧
      ∃ k, Stands k (s.registerSocket c i env ssl).table (s.registerSocket c i env ssl).sessions.bus.fdMap := by
  have socket := inv.sockets i (base.calls.holds_of_register here)
  have free : s.sessions.bus.fdSet (s.sessions.sessions i).socket = none := by
    cases present : s.sessions.bus.fdSet (s.sessions.sessions i).socket with
    | none => rfl
    | some ci => exact absurd (.listed ci present) (base.unengaged c i (by rw [here]; rfl) (base.early c i (.inr here)))
  obtain ⟨k, stands⟩ := inv.stands
  have clear : ¬ Hidden s.table (setWindow s.table.size) (Int32.ofInt (s.sessions.sessions i).socket) :=
    stands.clear_of_none socket free
  obtain ⟨⟨ok, bus, table⟩, run⟩ := registerStart_returns stands socket.live clear
    ((BusState.fdMap_ofInt socket).trans free) env c ssl
  simp only [HashedSessions.registerSocket, run, connectStep, running, callStep, here]
  cases ok with
  | true =>
    obtain ⟨taken, next⟩ := registerStart_refines stands socket.live clear idle run
    rw [socket.toInt_ofInt] at taken
    refine ⟨⟨.made, ?_⟩, next⟩
    simp only [sessionRegister, free, taken]
    rfl
  | false =>
    cases registerStart_cases run with
    | noMemory => exact ⟨⟨.noMemory, rfl⟩, k, stands⟩
    | notConnected => exact ⟨⟨.notMade ⟨0, false, 0, .none, 0⟩, rfl⟩, k, stands⟩
    | notSet r set failed => exact ⟨⟨.notMade ⟨_, ssl, -1, .none, 0⟩, rfl⟩, stands.setLoop_failed set failed⟩

/-- A step over the table is a step over the map, or turns a request away. -/
theorem SessionsInv.step {t : HashedSessions} {label : SessionsLabel} (inv : SessionsInv s) (base : ConnectInv s.sessions)
    (clean : sessionsCleanly s label) (taken : sessionsStep s label = some t) :
    SessionsInv t ∧ (t.sessions = s.sessions ∨
      ∃ label', label.Covers label' ∧ connectsCleanly s.sessions label' ∧ connectStep s.sessions label' = some t.sessions) := by
  cases label with
  | registerSocket c env ssl =>
    simp only [sessionsStep] at taken
    split at taken
    · rename_i i here
      split at taken
      · rename_i ready
        cases taken
        obtain ⟨⟨outcome, run⟩, stands⟩ := inv.registers base env ssl here ready.2 ready.1
        refine ⟨inv.move base ?_ (by rintro _ _ _ ⟨⟩) (connectStep_move run).2 stands, .inr ⟨_, .registerSocket c env ssl outcome, ?_, run⟩⟩
        · trivial
        · trivial
      · cases taken
    · cases taken
  | other label =>
    obtain ⟨connects, handed⟩ := clean
    simp only [sessionsStep] at taken
    split at taken
    · cases taken
    · rename_i others
      split at taken
      · cases taken
        exact ⟨inv, .inl rfl⟩
      · obtain ⟨sessions, run, same⟩ := Option.map_eq_some_iff.mp taken
        cases same
        have move := (connectStep_move run).2
        exact ⟨inv.move base connects.reuses handed move (inv.tableAfter (Bool.eq_false_iff.mpr others) move),
          .inr ⟨label, .other label, connects, run⟩⟩

end Steps

/-- Runs of sessions over the table are runs over the map. -/
theorem sessions_refine {n : Nat} {P : ConnectLabel → Prop} {s : HashedSessions}
    (reach : Reach sessionsStep (.new n) (fun s label => sessionsCleanly s label ∧ ∀ label', label.Covers label' → P label') s) :
    Reach connectStep (.new n) (fun s label => connectsCleanly s label ∧ P label) s.sessions ∧ SessionsInv s := by
  induction reach with
  | start => exact ⟨.start, .new n⟩
  | next _ clean taken ih =>
    obtain ⟨before, inv⟩ := ih
    obtain ⟨base, _, _⟩ := reuse_invariant (before.weaken fun _ _ => And.left)
    obtain ⟨after, same | ⟨label', covers, connects, run⟩⟩ := inv.step base clean.1 taken
    · rw [same]
      exact ⟨before, after⟩
    · exact ⟨before.next ⟨connects, clean.2 label' covers⟩ run, after⟩

/-- The assertion of `Bus_RegisterSocket` does not fail, and a connected session has its socket in the hash table, where
`Yacht_Get` finds it unless a tombstone hides it, and at its listener until it is disconnected. -/
theorem connects_do_not_collide {n : Nat} {s : HashedSessions} (reach : Reach sessionsStep (.new n) sessionsCleanly s) :
    s.sessions.aborted = false ∧ ∀ i ci, (s.sessions.sessions i).phase = .connected ci →
      Tracked s.sessions.bus (s.sessions.sessions i).socket ci ∧ s.sessions.udata ci = some i ∧
        (¬ Hidden s.table s.table.size (Int32.ofInt (s.sessions.sessions i).socket) →
          yachtGet s.table (Int32.ofInt (s.sessions.sessions i).socket) = some ci) := by
  obtain ⟨run, sessions⟩ := sessions_refine (P := fun _ => True) (reach.weaken fun _ _ clean => ⟨clean, fun _ _ => trivial⟩)
  obtain ⟨base, _, inv⟩ := reuse_invariant (run.weaken fun _ _ => And.left)
  refine ⟨inv.running, fun i ci phase => ?_⟩
  have placed := inv.connected i ci phase
  have tracked := base.track.tracked_entry placed.settled.published placed.settled.tracked
  rw [placed.socket] at tracked
  refine ⟨tracked, placed.made, fun found => ?_⟩
  obtain ⟨k, stands⟩ := sessions.stands
  exact stands.finds (sessions.sockets i (.live (by rw [phase]; rfl))) tracked.present found

/-- A step of a thread below `m`, of the first listener or of the pool. -/
def ConnectLabel.confined (m : Nat) : ConnectLabel → Bool
  | .call c _ => c < m
  | .bus label => label.confined m

/-- The bus has one listener, and the threads from `m` on have never been used. -/
structure SessionBus.Confined (s : SessionBus) (m : Nat) : Prop where
  bus : s.bus.Confined m
  threads : ∀ c, m ≤ c → s.threads c = .outside

section Confined
variable {s t : SessionBus} {m : Nat} {label : ConnectLabel}

theorem SessionBus.Confined.step (confined : s.Confined m) (base : ConnectInv s) (within : label.confined m = true)
    (move : ConnectMove s label t) : t.Confined m := by
  have moved {c : Nat} {pc : CallPc} (low : c < m) (d : Nat) (high : m ≤ d) : update s.threads c pc d = .outside := by
    rw [Function.update_of_ne (by omega)]
    exact confined.threads d high
  have stepped {c : Nat} {a : ClientAction} {bus : BusState} (low : c < m) (run : busStep s.bus (.client c a) = some bus) :
      bus.Confined m := confined.bus.client base.slots base.pushes low run
  cases move with
  | notConnected | aborts | refused => exact ⟨confined.bus, confined.threads⟩
  | connects | allocates | noMemory | available | timesOut | frees | fails | admitted | shuts | finishes =>
    exact ⟨confined.bus, moved (of_decide_eq_true within)⟩
  | notMade c i ssl outcome bus here fate =>
    refine ⟨?_, moved (of_decide_eq_true within)⟩
    rcases fate with rfl | ⟨info, rfl⟩
    · exact confined.bus
    · exact ⟨confined.bus.count, confined.bus.idle, confined.bus.asks, confined.bus.queues, confined.bus.tracks⟩
  | publishes c i ssl bus here free run => exact ⟨stepped (of_decide_eq_true within) run, moved (of_decide_eq_true within)⟩
  | releases c i bus here run => exact ⟨stepped (of_decide_eq_true within) run, moved (of_decide_eq_true within)⟩
  | client c a bus others run => exact ⟨stepped (of_decide_eq_true within) run, moved (of_decide_eq_true within)⟩
  | other label bus others notClient run =>
    have here : label.confined m = true := within
    exact ⟨confined.bus.step base.slots base.pushes here run, confined.threads⟩

theorem confined_of_reach (reach : Reach connectStep (.new 1) (fun s label => connectsCleanly s label ∧ label.confined m = true) s) :
    s.Confined m := by
  induction reach with
  | start => exact ⟨.new m, fun _ _ => rfl⟩
  | next before clean taken ih =>
    obtain ⟨base, _, _⟩ := reuse_invariant (before.weaken fun _ _ => And.left)
    exact ih.step base clean.2 (connectStep_move taken).2

end Confined

/-- A test that a step of the sessions is clean; it passes no step that hands out a socket. -/
def sessionsCleanlyTest (s : HashedSessions) : SessionsLabel → Bool
  | .registerSocket _ _ _ => true
  | .other (.bus label) => addsCleanlyTest s.sessions.bus label
  | .other (.call _ (.connect _ (some _))) => false
  | .other (.call _ (.disconnect i)) => (s.sessions.sessions i).phase ≠ .leaving
  | .other _ => true

theorem sessionsCleanly_of_test (s : HashedSessions) (label : SessionsLabel) (passes : sessionsCleanlyTest s label = true) :
    sessionsCleanly s label := by
  cases label with
  | registerSocket c env ssl => trivial
  | other label =>
    cases label with
    | bus label => exact ⟨addsCleanly_of_test _ _ passes, by rintro _ _ _ ⟨⟩⟩
    | call c a =>
      cases a with
      | connect i fd =>
        cases fd with
        | none => exact ⟨trivial, by rintro _ _ _ ⟨⟩⟩
        | some fd => cases passes
      | disconnect i =>
        have stays : (s.sessions.sessions i).phase ≠ .leaving := of_decide_eq_true passes
        exact ⟨stays, by rintro _ _ _ ⟨⟩⟩
      | _ => exact ⟨trivial, by rintro _ _ _ ⟨⟩⟩

def SessionsLabel.confined (m : Nat) : SessionsLabel → Bool
  | .registerSocket c _ _ => c < m
  | .other label => label.confined m

theorem SessionsLabel.Covers.confined {label : SessionsLabel} {label' : ConnectLabel} {m : Nat} (covers : label.Covers label')
    (within : label.confined m = true) : label'.confined m = true := by
  cases covers <;> exact within

/-- `KineticSession_Connect` after its socket, and `KineticSession_Disconnect`. -/
def connectingSteps (c : Nat) : List SessionsLabel :=
  [.other (.call c (.calloc true)), .registerSocket c ⟨true, true, fun _ => true⟩ false] ++
    (commandSteps c 0 ++ [BusLabel.client c (.onCompletion true)]).map (fun label => .other (.bus label)) ++
    [.other (.call c (.waitTilAvailable true))]

def disconnectingSteps (c i : Nat) : List SessionsLabel :=
  [.other (.call c (.disconnect i)), .other (.call c .close), .other (.call c .releaseSocket)] ++
    (commandSteps c 0 ++ [BusLabel.client c (.onCompletion true)]).map (fun label => .other (.bus label)) ++
    [.other (.call c .finish)]

/-- The system hands out a socket of which nothing is left when all is quiet. -/
theorem sessionsCleanly_connect {s : HashedSessions} {c i : Nat} {fd : Int} (socket : IsSocket fd)
    (unengaged : ¬ s.sessions.bus.Engaged fd) (outside : ∀ c, s.sessions.threads c = .outside) :
    sessionsCleanly s (.other (.call c (.connect i (some fd)))) := by
  refine ⟨⟨unengaged, fun d j here => ?_⟩, fun c' i' fd' same => ?_⟩
  · rw [outside d] at here
    rcases here with clash | clash <;> cases clash
  · cases same
    exact socket

/-- The first thread is outside of every call, and the socket is neither in the hash table nor at the first listener. -/
def HashedSessions.quietAt (s : HashedSessions) (fd : Int) : Prop :=
  s.sessions.bus.fdSet fd = none ∧ s.sessions.bus.clients 0 = .idle ∧ s.sessions.threads 0 = .outside ∧
    (s.sessions.bus.listeners 0).msgs.commitPipe = [] ∧ (s.sessions.bus.listeners 0).sockets.trackedFds = 0

instance (s : HashedSessions) (fd : Int) : Decidable (s.quietAt fd) := by
  unfold HashedSessions.quietAt
  infer_instance

/-- A session is connected and disconnected, and another one is connected with the same socket. -/
theorem connects_do_not_collide_reused :
    ∃ s, Reach sessionsStep (.new 1) sessionsCleanly s ∧ (s.sessions.sessions 0).phase = .closed ∧
      (s.sessions.sessions 1).phase = .connected 1 ∧ (s.sessions.sessions 1).socket = 5 ∧ s.sessions.aborted = false ∧
      Tracked s.sessions.bus 5 1 ∧ s.sessions.udata 1 = some 1 ∧ yachtGet s.table 5 = some 1 := by
  have trace : ((sessionsStep (.new 1) (.other (.call 0 (.connect 0 (some 5))))).bind fun s₁ =>
      (exec sessionsStep (fun s label => sessionsCleanlyTest s label && label.confined 1) s₁
        (connectingSteps 0 ++ disconnectingSteps 0 0)).bind fun s₂ =>
        (sessionsStep s₂ (.other (.call 1 (.connect 1 (some 5))))).bind fun s₃ =>
          (exec sessionsStep sessionsCleanlyTest s₃ (connectingSteps 1)).map fun s =>
            (decide (s₂.quietAt 5 ∧ ¬ Hidden s.table s.table.size 5),
              (s.sessions.sessions 0).phase, (s.sessions.sessions 1).phase, (s.sessions.sessions 1).socket)) =
      some (true, .closed, .connected 1, 5) := by decide +kernel
  obtain ⟨s₁, handed, later⟩ := Option.bind_eq_some_iff.mp trace
  obtain ⟨s₂, first, later⟩ := Option.bind_eq_some_iff.mp later
  obtain ⟨s₃, again, later⟩ := Option.bind_eq_some_iff.mp later
  obtain ⟨s, second, seen⟩ := Option.map_eq_some_iff.mp later
  simp only [Prod.mk.injEq, decide_eq_true_eq] at seen
  obtain ⟨⟨⟨unlisted, idle, outside, empty, untracked⟩, found⟩, closed, phase, socket⟩ := seen
  have toFive : sessionsCleanly (.new 1) (.other (.call 0 (.connect 0 (some 5)))) :=
    sessionsCleanly_connect (by decide) (unengaged_new 1 5) fun _ => rfl
  have released : Reach sessionsStep (.new 1)
      (fun s label => sessionsCleanly s label ∧ ∀ label', label.Covers label' → label'.confined 1 = true) s₂ := by
    refine (Reach.next .start ⟨toFive, fun _ covers => covers.confined rfl⟩ handed).exec (fun s label passes => ?_) first
    rw [Bool.and_eq_true] at passes
    exact ⟨sessionsCleanly_of_test s label passes.1, fun _ covers => covers.confined passes.2⟩
  have confined := confined_of_reach (sessions_refine released).1
  have quiet : ¬ s₂.sessions.bus.Engaged 5 := by
    refine confined.bus.unengaged unlisted (fun c low => ?_) empty untracked
    rw [show c = 0 by omega]
    exact idle
  have away (c : Nat) : s₂.sessions.threads c = .outside := by
    rcases Nat.eq_zero_or_pos c with rfl | high
    · exact outside
    · exact confined.threads c high
  have reach : Reach sessionsStep (.new 1) sessionsCleanly s :=
    ((released.weaken fun _ _ => And.left).next (sessionsCleanly_connect (by decide) quiet away) again).exec
      sessionsCleanly_of_test second
  obtain ⟨running, connected⟩ := connects_do_not_collide reach
  obtain ⟨tracked, made, finds⟩ := connected 1 1 phase
  rw [socket] at tracked finds
  exact ⟨s, reach, closed, phase, socket, running, tracked, made, finds found⟩

/-- A session is disconnected. Its socket is closed, and handed out to another session before it is released. And where the
disconnected session's number lay before that of another one in the hash table, `Yacht_Get` does not find that one any more. -/
theorem connects_collide :
    (∃ s, Reach sessionsStep (.new 1) (fun _ _ => True) s ∧ s.sessions.aborted = true) ∧
    ∃ s, Reach sessionsStep (.new 1) (fun _ _ => True) s ∧ (s.sessions.sessions 1).phase = .connected 1 ∧
      (s.sessions.sessions 1).socket = 21 ∧ yachtGet s.table 21 = none := by
  have collides : ((exec sessionsStep (fun _ _ => true) (.new 1) (.other (.call 0 (.connect 0 (some 5))) :: connectingSteps 0 ++
      [.other (.call 0 (.disconnect 0)), .other (.call 0 .close), .other (.call 1 (.connect 1 (some 5))),
        .other (.call 1 (.calloc true)), .registerSocket 1 ⟨true, true, fun _ => true⟩ false])).map
      fun s => s.sessions.aborted) = some true := by decide +kernel
  have hides : ((exec sessionsStep (fun _ _ => true) (.new 1) (.other (.call 0 (.connect 0 (some 5))) :: connectingSteps 0 ++
      .other (.call 1 (.connect 1 (some 21))) :: connectingSteps 1 ++ disconnectingSteps 0 0)).map
      fun s => ((s.sessions.sessions 1).phase, (s.sessions.sessions 1).socket, yachtGet s.table 21)) =
      some (.connected 1, 21, none) := by decide +kernel
  constructor
  · obtain ⟨s, run, aborted⟩ := Option.map_eq_some_iff.mp collides
    exact ⟨s, Reach.start.exec (fun _ _ _ => trivial) run, aborted⟩
  · obtain ⟨s, run, seen⟩ := Option.map_eq_some_iff.mp hides
    simp only [Prod.mk.injEq] at seen
    exact ⟨s, Reach.start.exec (fun _ _ _ => trivial) run, seen⟩

end Kinetic
