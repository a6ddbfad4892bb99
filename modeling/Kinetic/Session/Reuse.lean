import Kinetic.Session.Registering

namespace Kinetic
open Function (update)
open Transition (Reach exec)

/-- No reply is waiting in the slot that a registration takes, and `add_socket` keeps the connection of a client that waits for
it. -/
def addsCleanly (s : BusState) : BusLabel → Prop
  | .client c .getFreeMsg => ∀ ci slot, s.clients c = .acquire (.addSocket ci) →
      (s.listeners (s.listenerIdOfSocket (s.conns.info ci).fd)).msgs.msgFreelist.head? = some slot →
      Silent (s.listeners (s.listenerIdOfSocket (s.conns.info ci).fd)) slot
  | .listener l (.handle env) =>
    match (s.listeners l).nextMsg with
    | some ⟨.addSocket ci, _⟩ => (∃ c slot serial, s.clients c = .wait (.addSocket ci) l slot serial) →
        env.add.fits (s.listeners l).sockets (s.conns.info ci).fd
    | _ => True
  | _ => True

/-- Numbers are handed out and sessions disconnected as in `reusesCleanly`, and the listeners add sockets cleanly. -/
def connectsCleanly (s : SessionBus) : ConnectLabel → Prop
  | .bus label => addsCleanly s.bus label
  | label => reusesCleanly s label

theorem connectsCleanly.reuses {s : SessionBus} {label : ConnectLabel} (clean : connectsCleanly s label) : reusesCleanly s label := by
  cases label with
  | call c a => exact clean
  | bus label => trivial

/-- The connection of the session is in place: in the hash table, tracked, and under the number of the session. -/
structure SessionBus.Placed (s : SessionBus) (i ci : Nat) : Prop where
  settled : s.bus.Settled ci
  socket : (s.bus.conns.info ci).fd = (s.sessions i).socket
  made : s.udata ci = some i

/-- Registrations stand as they should, and every session that has been registered has its connection in place. -/
structure ReuseInv (s : SessionBus) : Prop where
  register : RegisterInv s.bus
  waiting : ∀ c i ci, s.threads c = .waitTilAvailable i ci → s.Placed i ci
  connected : ∀ i ci, (s.sessions i).phase = .connected ci → s.Placed i ci
  running : s.aborted = false

theorem ReuseInv.new (n : Nat) : ReuseInv (.new n) := by
  refine ⟨.new n, ?_, ?_, rfl⟩
  · intro c i ci here
    cases here
  · intro i ci phase
    cases phase

section Steps
variable {s t : SessionBus} {c i ci : Nat} {pc : CallPc} {fields : SessionFields} {label : ConnectLabel}

/-- A socket that a client is registering is that of a live session, so nobody is removing it. -/
theorem ClientsInv.unreleased (clients : ClientsInv s) (base : ConnectInv s) {fd : Int} (registering : s.bus.registering fd) :
    ¬ s.bus.Underway (.remove fd) := by
  obtain ⟨c, ci, own, rfl⟩ := registering
  obtain ⟨i, here⟩ := clients.adding c ci own
  obtain ⟨_, socket, _⟩ := clients.registering c i ci here
  rw [socket]
  exact base.unreleased i (base.calls.live_of_connects (by rw [here]; rfl))

/-- The registrations of sessions are clean. -/
theorem ClientsInv.registersCleanly (clients : ClientsInv s) (base : ConnectInv s) {label : BusLabel}
    (clean : addsCleanly s.bus label) : Kinetic.registersCleanly s.bus label := by
  cases label with
  | client c a =>
    cases a with
    | getFreeMsg => exact clean
    | onCompletion ok =>
      cases ok with
      | true =>
        intro fd l slot serial waiting registering
        exact clients.unreleased base registering (.client c (by rw [waiting]; rfl))
      | false => trivial
    | _ => trivial
  | listener l a =>
    cases a with
    | handle env =>
      simp only [addsCleanly] at clean
      simp only [Kinetic.registersCleanly]
      split
      · rename_i ci serial next
        simp only [next] at clean
        exact clean
      · rename_i fd serial next
        intro registering
        refine clients.unreleased base registering ?_
        simp only [Listener.nextMsg, Option.bind_eq_some_iff] at next
        obtain ⟨slot, head, written⟩ := next
        obtain ⟨rest, pipe⟩ := List.head?_eq_some_iff.mp head
        exact underway_of_head pipe written rfl
      · trivial
    | _ => trivial
  | run k => trivial

/-- A connection that is in place stays so while the bus takes a step. -/
theorem SessionBus.Placed.bus (placed : s.Placed i ci) (base : ConnectInv s) (live : (s.sessions i).phase.live = true)
    {label : BusLabel} (run : busStep s.bus label = some t.bus) (socket : (t.sessions i).socket = (s.sessions i).socket)
    (udata : t.udata ci = s.udata ci) : t.Placed i ci := by
  have old := (base.track.registered _ ci placed.settled.published.1).1
  refine ⟨placed.settled.step base.slots base.track base.pushes ?_ run, ?_, udata.trans placed.made⟩
  · rw [placed.socket]
    exact base.unreleased i live
  · rw [(busStep_fd run old).1, socket]
    exact placed.socket

/-- When `Bus_RegisterSocket` returns true, the connection is in place. -/
theorem RegisterInv.settled {s t : BusState} (inv : RegisterInv s) (slots : SlotInv s) {l slot serial : Nat}
    (waiting : s.clients c = .wait (.addSocket ci) l slot serial) (run : busStep s (.client c (.onCompletion true)) = some t) :
    t.Settled ci := by
  have registers := inv.registers c
  rw [waiting] at registers
  obtain ⟨published, absent, tracked, same⟩ := registers.completed waiting run
  refine ⟨published, ?_, tracked⟩
  rintro (⟨d, operates⟩ | ⟨l', slot', msg, queued, operates⟩)
  · have registering := ClientPc.conn_of_socketOp operates
    by_cases mine : d = c
    · rw [mine, same] at registering
      simp [BusState.setClient, ClientPc.conn] at registering
    · rw [clientStep_others run mine] at registering
      exact mine (inv.single d c ci registering (by rw [waiting]; rfl))
  · cases clientStep_queue slots run with
    | keeps _ kept =>
      rw [kept] at queued
      obtain ⟨command, number⟩ := msg
      cases command with
      | addSocket ci' =>
        cases operates
        exact absent l' slot' number queued
      | _ => cases operates

/-- The bus is as it was, and a thread has moved on at one session. -/
theorem ReuseInv.thread (inv : ReuseInv s) (bus : t.bus = s.bus) (udata : t.udata = s.udata) (aborted : t.aborted = s.aborted)
    (threads : t.threads = update s.threads c pc) (sessions : t.sessions = update s.sessions i fields)
    (waiting : ∀ k ci, pc ≠ .waitTilAvailable k ci)
    (connected : ∀ ci, fields.phase = .connected ci → fields.socket = (s.sessions i).socket ∧ s.Placed i ci)
    (others : ∀ d, d ≠ c → (s.threads d).connects ≠ some i) : ReuseInv t := by
  have placed {j ci : Nat} (before : s.Placed j ci) (socket : (t.sessions j).socket = (s.sessions j).socket) : t.Placed j ci := by
    refine ⟨by rw [bus]; exact before.settled, ?_, by rw [udata]; exact before.made⟩
    rw [bus, socket]
    exact before.socket
  refine ⟨by rw [bus]; exact inv.register, ?_, ?_, aborted.trans inv.running⟩
  · intro d k ci here
    rw [threads, Function.update_apply] at here
    split at here
    · exact absurd here (waiting k ci)
    · rename_i other
      have distinct : k ≠ i := by
        rintro rfl
        exact others d other (by rw [here]; rfl)
      refine placed (inv.waiting d k ci here) ?_
      rw [sessions, Function.update_of_ne distinct]
  · intro j ci phase
    by_cases same : j = i
    · subst same
      rw [sessions, Function.update_self] at phase
      obtain ⟨socket, before⟩ := connected ci phase
      refine placed before ?_
      rw [sessions, Function.update_self]
      exact socket
    · rw [sessions, Function.update_of_ne same] at phase
      refine placed (inv.connected j ci phase) ?_
      rw [sessions, Function.update_of_ne same]

/-- The bus takes a step. -/
theorem ReuseInv.bus (inv : ReuseInv s) (base : ConnectInv s) {label : BusLabel} (clean : registersCleanly s.bus label)
    (run : busStep s.bus label = some t.bus) (sessions : t.sessions = s.sessions)
    (udata : ∀ ci, ci < s.bus.nextConn → t.udata ci = s.udata ci) (aborted : t.aborted = s.aborted)
    (waiting : ∀ d k ci, t.threads d = .waitTilAvailable k ci → s.threads d = .waitTilAvailable k ci ∨ t.Placed k ci) :
    ReuseInv t := by
  have placed {j ci : Nat} (before : s.Placed j ci) (live : (s.sessions j).phase.live = true) : t.Placed j ci := by
    have old := (base.track.registered _ ci before.settled.published.1).1
    exact before.bus base live run (by rw [sessions]) (udata ci old)
  refine ⟨inv.register.step base.track base.slots clean run, ?_, ?_, aborted.trans inv.running⟩
  · intro d k ci here
    rcases waiting d k ci here with before | now
    · exact placed (inv.waiting d k ci before) (base.calls.live_of_connects (by rw [before]; rfl))
    · exact now
  · intro j ci phase
    rw [sessions] at phase
    refine placed (inv.connected j ci phase) ?_
    rw [phase]
    rfl

/-- The end of a `Bus_RegisterSocket` that has published nothing. -/
theorem ReuseInv.discarded (inv : ReuseInv s) (base : ConnectInv s) (info : ConnectionInfo) :
    ReuseInv { s.setThread c (.cleanup i) with bus := s.bus.discarded info } := by
  have placed {j ci : Nat} (before : s.Placed j ci) :
      SessionBus.Placed { s.setThread c (.cleanup i) with bus := s.bus.discarded info } j ci := by
    have old := (base.track.registered _ ci before.settled.published.1).1
    refine ⟨before.settled.discarded base.track info, ?_, before.made⟩
    show ((s.bus.discarded info).conns.info ci).fd = (s.sessions j).socket
    rw [s.bus.discarded_info info old]
    exact before.socket
  refine ⟨inv.register.discarded base.track info, ?_, fun j ci phase => placed (inv.connected j ci phase), inv.running⟩
  intro d k ci waiting
  simp only [SessionBus.setThread, Function.update_apply] at waiting
  split at waiting
  · cases waiting
  · exact placed (inv.waiting d k ci waiting)

/-- A thread that the bus takes to its wait has had its registration succeed. -/
theorem CallPc.of_resume_waiting {pc : CallPc} {client : ClientPc} {a : ClientAction} {k ci : Nat}
    (here : pc.resume client a = .waitTilAvailable k ci) :
    pc = .waitTilAvailable k ci ∨ client = .idle ∧ a = .onCompletion true ∧ pc = .registering k ci := by
  unfold CallPc.resume at here
  split at here
  · cases here
    exact .inr ⟨rfl, rfl, rfl⟩
  · cases here
  · cases here
  · exact .inl here

/-- A client that reads a reply in a registration was waiting for it. -/
theorem clientStep_waiting {s t : BusState} {ci : Nat} (own : (s.clients c).conn = some ci)
    (run : clientStep s c (.onCompletion true) = some t) : ∃ l slot serial, s.clients c = .wait (.addSocket ci) l slot serial := by
  cases pc : s.clients c with
  | wait p l slot serial =>
    rw [pc] at own
    cases p <;> cases own
    exact ⟨l, slot, serial, rfl⟩
  | _ => simp [clientStep, pc] at run

theorem ReuseInv.client (inv : ReuseInv s) (base : ConnectInv s) (clients : ClientsInv s) {a : ClientAction} {bus : BusState}
    (clean : registersCleanly s.bus (.client c a)) (run : busStep s.bus (.client c a) = some bus) :
    ReuseInv { s.setThread c ((s.threads c).resume (bus.clients c) a) with bus := bus } := by
  refine inv.bus base clean run rfl (fun _ _ => rfl) rfl fun d k ci here => ?_
  by_cases mine : d = c
  · subst mine
    simp only [SessionBus.setThread, Function.update_self] at here
    rcases CallPc.of_resume_waiting here with before | ⟨_, rfl, registering⟩
    · exact .inl before
    · obtain ⟨own, socket, made⟩ := clients.registering d k ci registering
      obtain ⟨l, slot, serial, waiting⟩ := clientStep_waiting own run
      refine .inr ⟨inv.register.settled base.slots waiting run, ?_, made⟩
      show (bus.conns.info ci).fd = (s.sessions k).socket
      rw [(busStep_fd run (base.track.clients d ci own)).1]
      exact socket
  · simp only [SessionBus.setThread, Function.update_of_ne mine] at here
    exact .inl here

theorem ReuseInv.step (inv : ReuseInv s) (base : ConnectInv s) (clients : ClientsInv s) (clean : connectsCleanly s label)
    (move : ConnectMove s label t) : ReuseInv t := by
  have same (i : Nat) : s.sessions = update s.sessions i (s.sessions i) := (Function.update_eq_self i s.sessions).symm
  have alone {c i : Nat} (own : (s.threads c).connects = some i) := base.calls.alone own
  have unconnected {c i : Nat} (own : (s.threads c).connects = some i) (ci : Nat) (phase : (s.sessions i).phase = .connected ci) :
      (s.sessions i).socket = (s.sessions i).socket ∧ s.Placed i ci := by
    rw [base.calls.connecting c i own] at phase
    cases phase
  cases move with
  | notConnected c i outside new =>
    have stays : s.threads = update s.threads c .outside := by rw [← outside, Function.update_eq_self]
    refine inv.thread (c := c) (i := i) rfl rfl rfl stays rfl (by rintro _ _ ⟨⟩) (by rintro _ ⟨⟩) fun d _ => ?_
    exact base.calls.not_connecting (by rw [new]; rintro ⟨⟩) d
  | connects c i fd outside new nonneg fresh =>
    refine inv.thread rfl rfl rfl rfl rfl (by rintro _ _ ⟨⟩) (by rintro _ ⟨⟩) fun d _ => ?_
    exact base.calls.not_connecting (by rw [new]; rintro ⟨⟩) d
  | allocates c i here =>
    have own : (s.threads c).connects = some i := by rw [here]; rfl
    exact inv.thread rfl rfl rfl rfl rfl (by rintro _ _ ⟨⟩) (unconnected own) (alone own)
  | noMemory c i here => exact inv.thread rfl rfl rfl rfl rfl (by rintro _ _ ⟨⟩) (by rintro _ ⟨⟩) (alone (by rw [here]; rfl))
  | notMade c i ssl outcome bus here fate =>
    have own : (s.threads c).connects = some i := by rw [here]; rfl
    rcases fate with rfl | ⟨info, rfl⟩
    · exact inv.thread rfl rfl rfl rfl (same i) (by rintro _ _ ⟨⟩) (unconnected own) (alone own)
    · exact inv.discarded base info
  | aborts c i ssl ci here present =>
    have free := base.unengaged c i (by rw [here]; rfl) (base.early c i (.inr here))
    exact absurd (.listed ci present) free
  | publishes c i ssl bus here free run =>
    have clean : registersCleanly s.bus (.client c (.register (s.sessions i).socket ssl)) := trivial
    refine inv.bus base clean run rfl (fun ci old => ?_) rfl fun d k ci waiting => ?_
    · exact Function.update_of_ne (Nat.ne_of_lt old) ..
    · simp only [SessionBus.setThread, Function.update_apply] at waiting
      split at waiting
      · cases waiting
      · exact .inl waiting
  | available c i ci here =>
    refine inv.thread rfl rfl rfl rfl rfl (by rintro _ _ ⟨⟩) (fun ci' phase => ?_) (alone (by rw [here]; rfl))
    cases phase
    exact ⟨rfl, inv.waiting c i ci here⟩
  | timesOut c i ci here =>
    have own : (s.threads c).connects = some i := by rw [here]; rfl
    exact inv.thread rfl rfl rfl rfl (same i) (by rintro _ _ ⟨⟩) (unconnected own) (alone own)
  | frees c i here =>
    have own : (s.threads c).connects = some i := by rw [here]; rfl
    exact inv.thread rfl rfl rfl rfl rfl (by rintro _ _ ⟨⟩) (unconnected own) (alone own)
  | fails c i here => exact inv.thread rfl rfl rfl rfl rfl (by rintro _ _ ⟨⟩) (by rintro _ ⟨⟩) (alone (by rw [here]; rfl))
  | refused c i outside => exact inv
  | admitted c i outside phase connected nonneg =>
    refine inv.thread rfl rfl rfl rfl rfl (by rintro _ _ ⟨⟩) (by rintro _ ⟨⟩) fun d _ => ?_
    refine base.calls.not_connecting ?_ d
    rcases phase with ⟨ci, phase⟩ | phase | phase
    · rw [phase]
      rintro ⟨⟩
    · rw [phase]
      rintro ⟨⟩
    · rw [phase]
      rintro ⟨⟩
  | shuts c i here =>
    have leaving := base.calls.leaving c i (by rw [here]; rfl)
    refine inv.thread rfl rfl rfl rfl (same i) (by rintro _ _ ⟨⟩) (fun ci phase => ?_) fun d _ => ?_
    · rw [leaving] at phase
      cases phase
    · exact base.calls.not_connecting (by rw [leaving]; rintro ⟨⟩) d
  | releases c i bus here run =>
    have clean : registersCleanly s.bus (.client c (.release (s.sessions i).socket)) := trivial
    refine inv.bus base clean run rfl (fun _ _ => rfl) rfl fun d k ci waiting => ?_
    simp only [SessionBus.setThread, Function.update_apply] at waiting
    split at waiting
    · cases waiting
    · exact .inl waiting
  | finishes c i here =>
    have leaving := base.calls.leaving c i (by rw [here]; rfl)
    refine inv.thread rfl rfl rfl rfl rfl (by rintro _ _ ⟨⟩) (by rintro _ ⟨⟩) fun d _ => ?_
    exact base.calls.not_connecting (by rw [leaving]; rintro ⟨⟩) d
  | client c a bus others run => exact inv.client base clients (clients.registersCleanly base clean) run
  | other label bus others notClient run =>
    exact inv.bus base (clients.registersCleanly base clean) run rfl (fun _ _ => rfl) rfl fun d k ci waiting => .inl waiting

theorem reuse_invariant {n : Nat} (reach : Reach connectStep (.new n) connectsCleanly s) :
    ConnectInv s ∧ ClientsInv s ∧ ReuseInv s := by
  induction reach with
  | start => exact ⟨.init n, .new n, .new n⟩
  | next _ clean taken ih =>
    obtain ⟨base, clients, inv⟩ := ih
    have move := (connectStep_move taken).2
    exact ⟨base.step clean.reuses move, clients.step base move, inv.step base clients clean move⟩

end Steps

/-- A test that a step of the bus adds cleanly. -/
def addsCleanlyTest (s : BusState) : BusLabel → Bool
  | .client c .getFreeMsg => registersCleanlyTest s (.client c .getFreeMsg)
  | .listener l (.handle env) =>
    match (s.listeners l).nextMsg with
    | some ⟨.addSocket ci, _⟩ => env.add.fits (s.listeners l).sockets (s.conns.info ci).fd
    | _ => true
  | _ => true

theorem addsCleanly_of_test (s : BusState) (label : BusLabel) (passes : addsCleanlyTest s label = true) : addsCleanly s label := by
  cases label with
  | client c a =>
    cases a with
    | getFreeMsg => exact registersCleanly_of_test s (.client c .getFreeMsg) passes
    | _ => trivial
  | listener l a =>
    cases a with
    | handle env =>
      simp only [addsCleanlyTest] at passes
      simp only [addsCleanly]
      split
      · rename_i ci serial next
        simp only [next, decide_eq_true_eq] at passes
        exact fun _ => passes
      · trivial
    | _ => trivial
  | run k => trivial

end Kinetic
