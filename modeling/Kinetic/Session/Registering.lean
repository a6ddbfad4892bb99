import Kinetic.Session.ConnectInvariant

namespace Kinetic
open Function (update)
open Transition (Reach)

/-- A client that is in the middle of a registration stays in it until it returns. -/
theorem clientStep_conn {s t : BusState} {c ci : Nat} {a : ClientAction} (run : clientStep s c a = some t)
    (own : (s.clients c).conn = some ci) : t.clients c = .idle ∨ (t.clients c).conn = some ci := by
  have clash {pc : ClientPc} (here : s.clients c = pc) (none : pc.conn = none) : False := by
    rw [here, none] at own
    cases own
  cases clientStep_cases run with
  | refused msg idle => exact (clash idle rfl).elim
  | requests msg ci idle registered => exact (clash idle rfl).elim
  | registers fd ssl idle free => exact (clash idle rfl).elim
  | releases fd idle => exact (clash idle rfl).elim
  | stops l idle => exact (clash idle rfl).elim
  | sends b pc pc' e sent sending => exact (clash sending rfl).elim
  | delivers b status sending => exact (clash sending rfl).elim
  | poolFull b status sending => exact (clash sending rfl).elim
  | noSlot p acquiring =>
    rw [acquiring] at own
    cases p <;> cases own
    exact .inl (by simp [BusState.notSent, BusState.setClient])
  | takes p slot next acquiring =>
    rw [acquiring] at own
    exact .inr (by simpa [BusState.setClient, ClientPc.conn] using own)
  | commits p l slot serial writing =>
    rw [writing] at own
    cases p <;> cases own
    exact .inr (by simp [BusState.pushed, BusState.setClient, ClientPc.conn, Purpose.conn])
  | fails p l slot serial writing =>
    rw [writing] at own
    cases p <;> cases own
    exact .inl (by simp [BusState.notSent, BusState.setClient])
  | held b start tries l slot serial waiting => exact (clash waiting rfl).elim
  | removed fd ci l slot serial waiting => exact (clash waiting rfl).elim
  | answered p l slot serial waiting => exact .inl (by simp [BusState.setClient])
  | notHeld b start tries l slot serial waiting => exact (clash waiting rfl).elim
  | notAdded ci l slot serial waiting => exact .inl (by simp [BusState.setClient])
  | notAnswered p l slot serial waiting => exact .inl (by simp [BusState.setClient])

/-- The threads inside `Bus_RegisterSocket` are the clients of the bus that register, each the connection of its session. -/
structure ClientsInv (s : SessionBus) : Prop where
  registering : ∀ c i ci, s.threads c = .registering i ci →
    (s.bus.clients c).conn = some ci ∧ (s.bus.conns.info ci).fd = (s.sessions i).socket ∧ s.udata ci = some i
  adding : ∀ c ci, (s.bus.clients c).conn = some ci → ∃ i, s.threads c = .registering i ci

theorem ClientsInv.new (n : Nat) : ClientsInv (.new n) := by
  refine ⟨?_, ?_⟩
  · intro c i ci here
    cases here
  · intro c ci here
    cases here

section Steps
variable {s t : SessionBus} {c i : Nat} {pc : CallPc} {fields : SessionFields} {label : ConnectLabel}

/-- The bus is as it was, and a thread that is not inside it has moved on at one session. -/
theorem ClientsInv.thread (inv : ClientsInv s) (bus : t.bus.clients = s.bus.clients)
    (info : ∀ ci, ci < s.bus.nextConn → (t.bus.conns.info ci).fd = (s.bus.conns.info ci).fd) (track : TrackInv s.bus)
    (udata : t.udata = s.udata) (threads : t.threads = update s.threads c pc) (sessions : t.sessions = update s.sessions i fields)
    (before : ∀ k ci, s.threads c ≠ .registering k ci) (after : ∀ k ci, pc ≠ .registering k ci)
    (others : ∀ d, d ≠ c → (s.threads d).connects ≠ some i) : ClientsInv t := by
  refine ⟨?_, ?_⟩
  · intro d k ci here
    rw [threads, Function.update_apply] at here
    split at here
    · exact absurd here (after k ci)
    · rename_i other
      have distinct : k ≠ i := by
        rintro rfl
        exact others d other (by rw [here]; rfl)
      obtain ⟨own, socket, made⟩ := inv.registering d k ci here
      rw [bus, udata, sessions, Function.update_of_ne distinct, info ci (track.clients d ci own)]
      exact ⟨own, socket, made⟩
  · intro d ci own
    rw [bus] at own
    obtain ⟨k, here⟩ := inv.adding d ci own
    refine ⟨k, ?_⟩
    rw [threads, Function.update_of_ne]
    · exact here
    · rintro rfl
      exact before k ci here

theorem CallPc.resume_busy {pc : CallPc} {client : ClientPc} {a : ClientAction} (busy : client ≠ .idle) : pc.resume client a = pc := by
  unfold CallPc.resume
  split
  · exact absurd rfl busy
  · exact absurd rfl busy
  · exact absurd rfl busy
  · rfl

theorem CallPc.of_resume_registering {pc : CallPc} {client : ClientPc} {a : ClientAction} {k ci : Nat}
    (here : pc.resume client a = .registering k ci) : pc = .registering k ci ∧ client ≠ .idle := by
  unfold CallPc.resume at here
  split at here
  · cases here
  · cases here
  · cases here
  · rename_i outside _ _
    subst here
    refine ⟨rfl, ?_⟩
    rintro rfl
    exact outside k ci rfl rfl

theorem ClientsInv.client (inv : ClientsInv s) (track : TrackInv s.bus) {a : ClientAction} {bus : BusState}
    (others : (BusLabel.client c a).others = true) (run : busStep s.bus (.client c a) = some bus) :
    ClientsInv { s.setThread c ((s.threads c).resume (bus.clients c) a) with bus := bus } := by
  refine ⟨?_, ?_⟩
  · intro d k ci here
    have before : s.threads d = .registering k ci ∧ (d = c → bus.clients d ≠ .idle) := by
      by_cases mine : d = c
      · subst mine
        simp only [SessionBus.setThread, Function.update_self] at here
        obtain ⟨same, busy⟩ := CallPc.of_resume_registering here
        exact ⟨same, fun _ => busy⟩
      · simp only [SessionBus.setThread, Function.update_of_ne mine] at here
        exact ⟨here, fun own => absurd own mine⟩
    obtain ⟨own, socket, made⟩ := inv.registering d k ci before.1
    refine ⟨?_, (busStep_fd run (track.clients d ci own)).1.trans socket, made⟩
    by_cases mine : d = c
    · subst mine
      rcases clientStep_conn run own with idle | still
      · exact absurd idle (before.2 rfl)
      · exact still
    · show (bus.clients d).conn = some ci
      rw [clientStep_others run mine]
      exact own
  · intro d ci own
    have conn : (s.bus.clients d).conn = some ci := by
      by_cases mine : d = c
      · subst mine
        cases clientStep_conns run with
        | keeps _ _ before => exact before ci own
        | registers fd ssl => cases others
        | givesUp _ ci' _ after =>
          have none : (bus.clients d).conn = some ci := own
          rw [after] at none
          cases none
        | removes fd ci' l slot serial waiting present after =>
          have none : (bus.clients d).conn = some ci := own
          rw [after] at none
          cases none
      · have still : (bus.clients d).conn = some ci := own
        rw [clientStep_others run mine] at still
        exact still
    obtain ⟨k, here⟩ := inv.adding d ci conn
    refine ⟨k, ?_⟩
    by_cases mine : d = c
    · subst mine
      simp only [SessionBus.setThread, Function.update_self]
      rw [CallPc.resume_busy, here]
      intro idle
      have busy : (bus.clients d).conn = some ci := own
      rw [idle] at busy
      cases busy
    · simp only [SessionBus.setThread, Function.update_of_ne mine]
      exact here

theorem ClientsInv.publishes (inv : ClientsInv s) (track : TrackInv s.bus) {ssl : Bool} {bus : BusState}
    (run : busStep s.bus (.client c (.register (s.sessions i).socket ssl)) = some bus) :
    ClientsInv { s.setThread c (.registering i s.bus.nextConn) with bus := bus, udata := update s.udata s.bus.nextConn (some i) } := by
  obtain ⟨_, _, next, info, client⟩ := registered_start run
  refine ⟨?_, ?_⟩
  · intro d k ci here
    by_cases mine : d = c
    · subst mine
      simp only [SessionBus.setThread, Function.update_self, CallPc.registering.injEq] at here
      obtain ⟨rfl, rfl⟩ := here
      refine ⟨?_, info, Function.update_self ..⟩
      show (bus.clients d).conn = _
      rw [client]
      rfl
    · simp only [SessionBus.setThread, Function.update_of_ne mine] at here
      obtain ⟨own, socket, made⟩ := inv.registering d k ci here
      have old := track.clients d ci own
      refine ⟨?_, (busStep_fd run old).1.trans socket, ?_⟩
      · show (bus.clients d).conn = some ci
        rw [clientStep_others run mine]
        exact own
      · show update s.udata s.bus.nextConn (some i) ci = some k
        rw [Function.update_of_ne (Nat.ne_of_lt old)]
        exact made
  · intro d ci own
    by_cases mine : d = c
    · subst mine
      have registering : (bus.clients d).conn = some ci := own
      rw [client] at registering
      cases registering
      exact ⟨i, Function.update_self ..⟩
    · have registering : (bus.clients d).conn = some ci := own
      rw [clientStep_others run mine] at registering
      obtain ⟨k, here⟩ := inv.adding d ci registering
      exact ⟨k, (Function.update_of_ne mine ..).trans here⟩

theorem ClientsInv.releases (inv : ClientsInv s) (track : TrackInv s.bus) {bus : BusState} (here : s.threads c = .release i)
    (run : busStep s.bus (.client c (.release (s.sessions i).socket)) = some bus) :
    ClientsInv { s.setThread c (.releasing i (s.sessions i).socket) with bus := bus } := by
  refine ⟨?_, ?_⟩
  · intro d k ci inside
    by_cases mine : d = c
    · subst mine
      simp only [SessionBus.setThread, Function.update_self] at inside
      cases inside
    · simp only [SessionBus.setThread, Function.update_of_ne mine] at inside
      obtain ⟨own, socket, made⟩ := inv.registering d k ci inside
      refine ⟨?_, (busStep_fd run (track.clients d ci own)).1.trans socket, made⟩
      show (bus.clients d).conn = some ci
      rw [clientStep_others run mine]
      exact own
  · intro d ci own
    have before : (s.bus.clients d).conn = some ci := by
      have still : (bus.clients d).conn = some ci := own
      by_cases mine : d = c
      · subst mine
        cases clientStep_conns run with
        | keeps _ _ before => exact before ci still
        | givesUp _ ci' _ after =>
          rw [after] at still
          cases still
      · rw [clientStep_others run mine] at still
        exact still
    obtain ⟨k, inside⟩ := inv.adding d ci before
    refine ⟨k, ?_⟩
    have other : d ≠ c := by
      rintro rfl
      rw [here] at inside
      cases inside
    exact (Function.update_of_ne other ..).trans inside

/-- A step of a listener or of the pool leaves the clients as they are. -/
theorem ClientsInv.other (inv : ClientsInv s) (track : TrackInv s.bus) {label : BusLabel} {bus : BusState}
    (notClient : ∀ c a, label ≠ .client c a) (run : busStep s.bus label = some bus) : ClientsInv { s with bus := bus } := by
  have clients : bus.clients = s.bus.clients := by
    cases label with
    | client c a => exact absurd rfl (notClient c a)
    | listener l a =>
      obtain ⟨_, _, same⟩ := Option.bind_eq_some_iff.mp run
      cases same
      rfl
    | run k =>
      obtain ⟨_, _, rfl⟩ := busStep_run run
      rfl
  refine ⟨?_, ?_⟩
  · intro d k ci here
    obtain ⟨own, socket, made⟩ := inv.registering d k ci here
    refine ⟨?_, (busStep_fd run (track.clients d ci own)).1.trans socket, made⟩
    show (bus.clients d).conn = some ci
    rw [clients]
    exact own
  · intro d ci own
    have before : (bus.clients d).conn = some ci := own
    rw [clients] at before
    exact inv.adding d ci before

theorem ClientsInv.step (inv : ClientsInv s) (base : ConnectInv s) (move : ConnectMove s label t) : ClientsInv t := by
  have same (i : Nat) : s.sessions = update s.sessions i (s.sessions i) := (Function.update_eq_self i s.sessions).symm
  have kept (ci : Nat) (_ : ci < s.bus.nextConn) : (s.bus.conns.info ci).fd = (s.bus.conns.info ci).fd := rfl
  have inside {c : Nat} {pc : CallPc} (here : s.threads c = pc) (outside : ∀ k ci, pc ≠ .registering k ci) (k ci : Nat) :
      s.threads c ≠ .registering k ci := by
    rw [here]
    exact outside k ci
  have alone {c i : Nat} (own : (s.threads c).connects = some i) := base.calls.alone own
  cases move with
  | notConnected c i outside new =>
    have stays : s.threads = update s.threads c .outside := by rw [← outside, Function.update_eq_self]
    refine inv.thread (c := c) (i := i) rfl kept base.track rfl stays rfl (inside outside nofun) nofun fun d _ => ?_
    exact base.calls.not_connecting (by rw [new]; exact nofun) d
  | connects c i fd outside new nonneg fresh =>
    refine inv.thread rfl kept base.track rfl rfl rfl (inside outside nofun) nofun fun d _ => ?_
    exact base.calls.not_connecting (by rw [new]; exact nofun) d
  | allocates c i here =>
    exact inv.thread rfl kept base.track rfl rfl rfl (inside here nofun) nofun (alone (by rw [here]; rfl))
  | noMemory c i here =>
    exact inv.thread rfl kept base.track rfl rfl rfl (inside here nofun) nofun (alone (by rw [here]; rfl))
  | notMade c i ssl outcome bus here fate =>
    have own : (s.threads c).connects = some i := by rw [here]; rfl
    rcases fate with rfl | ⟨info, rfl⟩
    · exact inv.thread rfl kept base.track rfl rfl (same i) (inside here nofun) nofun (alone own)
    · refine inv.thread rfl (fun ci old => ?_) base.track rfl rfl (same i) (inside here nofun) nofun (alone own)
      show ((s.bus.discarded info).conns.info ci).fd = _
      rw [s.bus.discarded_info info old]
  | aborts c i ssl ci here present => exact ⟨inv.registering, inv.adding⟩
  | publishes c i ssl bus here free run => exact inv.publishes base.track run
  | available c i ci here =>
    exact inv.thread rfl kept base.track rfl rfl rfl (inside here nofun) nofun (alone (by rw [here]; rfl))
  | timesOut c i ci here =>
    exact inv.thread rfl kept base.track rfl rfl (same i) (inside here nofun) nofun (alone (by rw [here]; rfl))
  | frees c i here =>
    exact inv.thread rfl kept base.track rfl rfl rfl (inside here nofun) nofun (alone (by rw [here]; rfl))
  | fails c i here =>
    exact inv.thread rfl kept base.track rfl rfl rfl (inside here nofun) nofun (alone (by rw [here]; rfl))
  | refused c i outside => exact inv
  | admitted c i outside phase connected nonneg =>
    refine inv.thread rfl kept base.track rfl rfl rfl (inside outside nofun) nofun fun d _ => ?_
    refine base.calls.not_connecting ?_ d
    rcases phase with ⟨ci, phase⟩ | phase | phase
    · rw [phase]
      exact nofun
    · rw [phase]
      exact nofun
    · rw [phase]
      exact nofun
  | shuts c i here =>
    have leaving := base.calls.leaving c i (by rw [here]; rfl)
    refine inv.thread rfl kept base.track rfl rfl (same i) (inside here nofun) nofun fun d _ => ?_
    exact base.calls.not_connecting (by rw [leaving]; exact nofun) d
  | releases c i bus here run => exact inv.releases base.track here run
  | finishes c i here =>
    have leaving := base.calls.leaving c i (by rw [here]; rfl)
    refine inv.thread rfl kept base.track rfl rfl rfl (inside here nofun) nofun fun d _ => ?_
    exact base.calls.not_connecting (by rw [leaving]; exact nofun) d
  | client c a bus others run => exact inv.client base.track others run
  | other label bus others notClient run => exact inv.other base.track notClient run

end Steps

end Kinetic
