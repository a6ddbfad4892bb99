import Kinetic.Session.Registering

namespace Kinetic
open Function (update)
open Transition (Reach exec)

/-- No `KineticSession_Connect` waits in vain for its connection ID, and no `Bus_RegisterSocket` fails once its connection is in
the hash table. -/
def connectsThrough (s : SessionBus) : ConnectLabel → Prop
  | .call _ (.waitTilAvailable ready) => ready = true
  | .bus (.client c a) => ∀ i ci, s.threads c = .registering i ci → a ≠ .pushMessage false ∧ a ≠ .onCompletion false ∧
      (a = .getFreeMsg → (s.bus.listeners (s.bus.listenerIdOfSocket (s.bus.conns.info ci).fd)).msgs.msgFreelist ≠ [])
  | _ => True

/-- The conditions under which a failed connect leaves nothing behind. -/
def undoesCleanly (s : SessionBus) (label : ConnectLabel) : Prop := reusesCleanly s label ∧ connectsThrough s label

/-- The number is neither in the hash table nor in the table of a listener. -/
def BusState.forgets (s : BusState) (fd : Int) : Prop :=
  s.fdSet fd = none ∧ ∀ l k, k < (s.listeners l).sockets.trackedFds → ((s.listeners l).sockets.fds k).fd ≠ fd

/-- A listener may call `sink_cb` for the connection: it tracks it, or it is to add it. -/
def BusState.sinks (s : BusState) (ci : Nat) : Prop := (∃ l, (s.listeners l).sockets.tracks ci) ∨ s.Underway (.add ci)

/-- Sessions that are given up have no connection, and those that are new have no socket. -/
structure UndoneInv (s : SessionBus) : Prop where
  failed : ∀ i, (s.sessions i).phase = .connectionError → s.unmade i
  failing : ∀ c i, s.threads c = .cleanup i ∨ s.threads c = .close i → s.unmade i
  new : ∀ i, (s.sessions i).phase = .new → (s.sessions i).socket < 0

theorem UndoneInv.init (n : Nat) : UndoneInv (.new n) := by
  refine ⟨?_, ?_, ?_⟩
  · intro i _ ci made
    cases made
  · intro c i _ ci made
    cases made
  · intro i _
    show kineticSocketInvalid < 0
    decide

section Steps
variable {s t : SessionBus} {c i : Nat} {pc : CallPc} {fields : SessionFields} {label : ConnectLabel}

/-- A client that finds a free slot goes on with it. -/
theorem clientStep_takes {s t : BusState} {p : Purpose} (acquiring : s.clients c = .acquire p)
    (free : (s.listeners (p.listener s)).msgs.msgFreelist ≠ []) (run : clientStep s c .getFreeMsg = some t) :
    t.clients c ≠ .idle := by
  simp only [clientStep, acquiring, acquireMsg] at run
  obtain ⟨⟨slot, msgs⟩, got, later⟩ := Option.bind_eq_some_iff.mp run
  unfold getFreeMsg at got
  split at got
  · rename_i empty
    exact absurd empty free
  · split at got
    · cases got
      simp only at later
      split at later
      · cases later
        simp [BusState.setClient]
      · cases later
    · cases got

/-- A registration whose client has a slot and whose pipes work returns true. -/
theorem returns_true {s t : BusState} {ci : Nat} {a : ClientAction} (own : (s.clients c).conn = some ci)
    (through : a ≠ .pushMessage false ∧ a ≠ .onCompletion false ∧
      (a = .getFreeMsg → (s.listeners (s.listenerIdOfSocket (s.conns.info ci).fd)).msgs.msgFreelist ≠ []))
    (run : clientStep s c a = some t) (idle : t.clients c = .idle) : a = .onCompletion true := by
  cases pc : s.clients c with
  | idle => rw [pc] at own; cases own
  | send b pc' => rw [pc] at own; cases own
  | acquire p =>
    rw [pc] at own
    cases p <;> cases own
    cases a with
    | getFreeMsg => exact absurd idle (clientStep_takes pc (through.2.2 rfl) run)
    | _ => simp [clientStep, pc] at run
  | push p l slot serial =>
    rw [pc] at own
    cases p <;> cases own
    cases a with
    | pushMessage ok =>
      cases ok with
      | true =>
        simp only [clientStep, pc, BusState.pushed] at run
        cases run
        simp [BusState.setClient] at idle
      | false => exact absurd rfl through.1
    | _ => simp [clientStep, pc] at run
  | wait p l slot serial =>
    rw [pc] at own
    cases p <;> cases own
    cases a with
    | onCompletion ok =>
      cases ok with
      | true => rfl
      | false => exact absurd rfl through.2.1
    | _ => simp [clientStep, pc] at run

/-- A thread has moved on at one session, and no connection was made. -/
theorem UndoneInv.thread (inv : UndoneInv s) (udata : t.udata = s.udata) (threads : t.threads = update s.threads c pc)
    (sessions : t.sessions = update s.sessions i fields) (notNew : fields.phase ≠ .new)
    (failed : fields.phase = .connectionError → s.unmade i)
    (failing : ∀ k, pc = .cleanup k ∨ pc = .close k → s.unmade k) : UndoneInv t := by
  have unmade {j : Nat} (none : s.unmade j) : t.unmade j := (SessionBus.unmade_of_same udata).mpr none
  refine ⟨?_, ?_, ?_⟩
  · intro j phase
    rw [sessions, Function.update_apply] at phase
    split at phase
    · rename_i same
      rw [same]
      exact unmade (failed phase)
    · exact unmade (inv.failed j phase)
  · intro d j here
    rw [threads, Function.update_apply] at here
    split at here
    · exact unmade (failing j here)
    · exact unmade (inv.failing d j here)
  · intro j new
    rw [sessions, Function.update_apply] at new ⊢
    split at new
    · exact absurd new notNew
    · rename_i other
      rw [if_neg other]
      exact inv.new j new

theorem UndoneInv.publishes (inv : UndoneInv s) (base : ConnectInv s) {bus : BusState} (here : s.threads c = .register i) :
    UndoneInv { s.setThread c (.registering i s.bus.nextConn) with bus := bus, udata := update s.udata s.bus.nextConn (some i) } := by
  have own : (s.threads c).connects = some i := by rw [here]; rfl
  have phase := base.calls.connecting c i own
  have unmade {j : Nat} (distinct : j ≠ i) (none : s.unmade j) (ci : Nat) :
      update s.udata s.bus.nextConn (some i) ci ≠ some j := by
    rw [Function.update_apply]
    split
    · exact fun same => distinct (Option.some.inj same).symm
    · exact none ci
  refine ⟨?_, ?_, inv.new⟩
  · intro j failed
    refine unmade ?_ (inv.failed j failed)
    rintro rfl
    have clash : (s.sessions j).phase = .connectionError := failed
    rw [phase] at clash
    cases clash
  · intro d j there
    simp only [SessionBus.setThread, Function.update_apply] at there
    split at there
    · rcases there with clash | clash <;> cases clash
    · rename_i other
      refine unmade ?_ (inv.failing d j there)
      rintro rfl
      refine base.calls.alone own d other ?_
      rcases there with at' | at' <;> rw [at'] <;> rfl

/-- A thread that is taken to the clean-up by the bus has had its registration fail. -/
theorem CallPc.of_resume_cleanup {pc : CallPc} {client : ClientPc} {a : ClientAction} {k : Nat}
    (here : pc.resume client a = .cleanup k ∨ pc.resume client a = .close k) :
    pc = .cleanup k ∨ pc = .close k ∨ client = .idle ∧ a ≠ .onCompletion true ∧ ∃ ci, pc = .registering k ci := by
  unfold CallPc.resume at here
  split at here
  · rcases here with clash | clash <;> cases clash
  · rename_i i ci notCompleted
    rcases here with same | clash
    · cases same
      refine .inr (.inr ⟨rfl, ?_, ci, rfl⟩)
      rintro rfl
      exact notCompleted rfl
    · cases clash
  · rcases here with clash | clash <;> cases clash
  · rcases here with same | same
    · exact .inl same
    · exact .inr (.inl same)

theorem UndoneInv.step (inv : UndoneInv s) (base : ConnectInv s) (clients : ClientsInv s) (clean : undoesCleanly s label)
    (move : ConnectMove s label t) : UndoneInv t := by
  have same (i : Nat) : s.sessions = update s.sessions i (s.sessions i) := (Function.update_eq_self i s.sessions).symm
  have connecting {c i : Nat} (own : (s.threads c).connects = some i) :
      (s.sessions i).phase ≠ .new ∧ (s.sessions i).phase ≠ .connectionError := by
    rw [base.calls.connecting c i own]
    exact ⟨nofun, nofun⟩
  have leaving {c i : Nat} (own : (s.threads c).disconnects = some i) :
      (s.sessions i).phase ≠ .new ∧ (s.sessions i).phase ≠ .connectionError := by
    rw [base.calls.leaving c i own]
    exact ⟨nofun, nofun⟩
  have elsewhere {pc : CallPc} (other : ∀ k, pc ≠ .cleanup k ∧ pc ≠ .close k) (k : Nat) (here : pc = .cleanup k ∨ pc = .close k) :
      s.unmade k := by
    rcases here with at' | at'
    · exact absurd at' (other k).1
    · exact absurd at' (other k).2
  cases move with
  | notConnected c i outside new =>
    have stays : s.threads = update s.threads c .outside := by rw [← outside, Function.update_eq_self]
    exact inv.thread (c := c) (i := i) rfl stays rfl nofun (fun _ => base.new i new) (elsewhere fun k => ⟨nofun, nofun⟩)
  | connects c i fd outside new nonneg fresh =>
    exact inv.thread rfl rfl rfl nofun nofun (elsewhere fun k => ⟨nofun, nofun⟩)
  | allocates c i here =>
    have own := connecting (c := c) (i := i) (by rw [here]; rfl)
    exact inv.thread rfl rfl rfl own.1 (fun failed => absurd failed own.2) (elsewhere fun k => ⟨nofun, nofun⟩)
  | noMemory c i here => exact inv.thread rfl rfl rfl nofun nofun (elsewhere fun k => ⟨nofun, nofun⟩)
  | notMade c i ssl outcome bus here fate =>
    have own := connecting (c := c) (i := i) (by rw [here]; rfl)
    refine inv.thread rfl rfl (same i) own.1 (fun failed => absurd failed own.2) ?_
    rintro k (at' | at')
    · cases at'
      exact base.early c i (.inr here)
    · cases at'
  | aborts c i ssl ci here present => exact ⟨inv.failed, inv.failing, inv.new⟩
  | publishes c i ssl bus here free run => exact inv.publishes base here
  | available c i ci here => exact inv.thread rfl rfl rfl nofun nofun (elsewhere fun k => ⟨nofun, nofun⟩)
  | timesOut c i ci here => cases clean.2
  | frees c i here =>
    have own := connecting (c := c) (i := i) (by rw [here]; rfl)
    refine inv.thread rfl rfl rfl own.1 (fun failed => absurd failed own.2) ?_
    rintro k (at' | at')
    · cases at'
    · cases at'
      exact inv.failing c i (.inl here)
  | fails c i here =>
    exact inv.thread rfl rfl rfl nofun (fun _ => inv.failing c i (.inr here)) (elsewhere fun k => ⟨nofun, nofun⟩)
  | refused c i outside => exact inv
  | admitted c i outside phase connected nonneg =>
    exact inv.thread rfl rfl rfl nofun nofun (elsewhere fun k => ⟨nofun, nofun⟩)
  | shuts c i here =>
    obtain ⟨notNew, notFailed⟩ := leaving (c := c) (i := i) (by rw [here]; rfl)
    exact inv.thread rfl rfl (same i) notNew (fun failed => absurd failed notFailed) (elsewhere fun k => ⟨nofun, nofun⟩)
  | releases c i bus here run =>
    obtain ⟨notNew, notFailed⟩ := leaving (c := c) (i := i) (by rw [here]; rfl)
    exact inv.thread rfl rfl (same i) notNew (fun failed => absurd failed notFailed) (elsewhere fun k => ⟨nofun, nofun⟩)
  | finishes c i here => exact inv.thread rfl rfl rfl nofun nofun (elsewhere fun k => ⟨nofun, nofun⟩)
  | client c a bus others run =>
    refine ⟨inv.failed, ?_, inv.new⟩
    intro d j there
    by_cases mine : d = c
    · subst mine
      simp only [SessionBus.setThread, Function.update_self] at there
      rcases CallPc.of_resume_cleanup there with before | before | ⟨idle, notCompleted, ci, registering⟩
      · exact inv.failing d j (.inl before)
      · exact inv.failing d j (.inr before)
      · obtain ⟨own, _⟩ := clients.registering d j ci registering
        exact absurd (returns_true own (clean.2 j ci registering) run idle) notCompleted
    · simp only [SessionBus.setThread, Function.update_of_ne mine] at there
      exact inv.failing d j there
  | other label bus others notClient run => exact ⟨inv.failed, inv.failing, inv.new⟩

theorem undone_invariant {n : Nat} (reach : Reach connectStep (.new n) undoesCleanly s) :
    ConnectInv s ∧ ClientsInv s ∧ UndoneInv s := by
  induction reach with
  | start => exact ⟨.init n, .new n, .init n⟩
  | next _ clean taken ih =>
    obtain ⟨base, clients, inv⟩ := ih
    have move := (connectStep_move taken).2
    exact ⟨base.step clean.1 move, clients.step base move, inv.step base clients clean move⟩

/-- A bus that is not engaged with a socket has forgotten it. -/
theorem TrackInv.forgets {s : BusState} (track : TrackInv s) {fd : Int} (free : ¬ s.Engaged fd) : s.forgets fd := by
  refine ⟨?_, ?_⟩
  · cases present : s.fdSet fd with
    | none => rfl
    | some ci => exact absurd (.listed ci present) free
  · intro l k below socket
    rw [(track.sockets l).fd k below] at socket
    exact free (.tracked l _ ⟨k, below, rfl⟩ socket)

/-- What a step does to the phase of a session that it does not make fail. -/
theorem phase_cases (base : ConnectInv s) (move : ConnectMove s label t) (i : Nat) :
    (t.sessions i).phase = (s.sessions i).phase ∨
      ((s.sessions i).phase ≠ .connectionError ∧ (t.sessions i).phase ≠ .connectionError) ∨
      (s.sessions i).phase ≠ .connectionError ∧ t.bus = s.bus ∧
        ((s.sessions i).phase = .new ∨ ∃ c, s.threads c = .close i) := by
  have at' {j : Nat} {fields : SessionFields} (sessions : t.sessions = update s.sessions j fields)
      (old : (s.sessions j).phase ≠ .connectionError) (new : fields.phase ≠ .connectionError) :
      (t.sessions i).phase = (s.sessions i).phase ∨
        ((s.sessions i).phase ≠ .connectionError ∧ (t.sessions i).phase ≠ .connectionError) ∨
        (s.sessions i).phase ≠ .connectionError ∧ t.bus = s.bus ∧
          ((s.sessions i).phase = .new ∨ ∃ c, s.threads c = .close i) := by
    by_cases same : i = j
    · subst same
      rw [sessions, Function.update_self]
      exact .inr (.inl ⟨old, new⟩)
    · rw [sessions, Function.update_of_ne same]
      exact .inl rfl
  have connecting {c i : Nat} (own : (s.threads c).connects = some i) : (s.sessions i).phase ≠ .connectionError := by
    rw [base.calls.connecting c i own]
    exact nofun
  have leaving {c i : Nat} (own : (s.threads c).disconnects = some i) : (s.sessions i).phase ≠ .connectionError := by
    rw [base.calls.leaving c i own]
    exact nofun
  cases move with
  | notConnected c j outside new =>
    by_cases same : i = j
    · subst same
      refine .inr (.inr ⟨?_, rfl, .inl new⟩)
      rw [new]
      exact nofun
    · exact .inl (congrArg SessionFields.phase (Function.update_of_ne same ..))
  | connects c j fd outside new => exact at' rfl (by rw [new]; exact nofun) nofun
  | allocates c j here =>
    have old := connecting (c := c) (i := j) (by rw [here]; rfl)
    exact at' rfl old old
  | noMemory c j here => exact at' rfl (connecting (c := c) (by rw [here]; rfl)) nofun
  | available c j ci here => exact at' rfl (connecting (c := c) (by rw [here]; rfl)) nofun
  | frees c j here =>
    have old := connecting (c := c) (i := j) (by rw [here]; rfl)
    exact at' rfl old old
  | fails c j here =>
    by_cases same : i = j
    · subst same
      exact .inr (.inr ⟨connecting (c := c) (by rw [here]; rfl), rfl, .inr ⟨c, here⟩⟩)
    · exact .inl (congrArg SessionFields.phase (Function.update_of_ne same ..))
  | admitted c j outside phase =>
    refine at' rfl ?_ nofun
    rcases phase with ⟨ci, phase⟩ | phase | phase
    · rw [phase]
      exact nofun
    · rw [phase]
      exact nofun
    · rw [phase]
      exact nofun
  | finishes c j here => exact at' rfl (leaving (c := c) (by rw [here]; rfl)) nofun
  | _ => exact .inl rfl

/-- A session that has failed stays so. -/
theorem connectionError_stays {n : Nat} {u : SessionBus} (reach : Reach connectStep (.new n) undoesCleanly t)
    (later : Reach connectStep t undoesCleanly u) (failed : (t.sessions i).phase = .connectionError) :
    (u.sessions i).phase = .connectionError := by
  induction later with
  | start => exact failed
  | next before _ taken ih =>
    obtain ⟨base, _⟩ := undone_invariant (reach.trans before)
    rcases phase_cases base (connectStep_move taken).2 i with same | ⟨other, _⟩ | ⟨other, _⟩
    · rw [same]
      exact ih
    · exact absurd ih other
    · exact absurd ih other

/-- When `KineticSession_Connect` returns `KINETIC_STATUS_CONNECTION_ERROR`, the bus has forgotten the socket, and no `sink_cb`
will ever be called for the session. -/
theorem failed_connect_undone {n : Nat} (reach : Reach connectStep (.new n) undoesCleanly s) (clean : undoesCleanly s label)
    (taken : connectStep s label = some t) (before : (s.sessions i).phase ≠ .connectionError)
    (after : (t.sessions i).phase = .connectionError) :
    (0 ≤ (s.sessions i).socket → t.bus.forgets (s.sessions i).socket) ∧
      ∀ u, Reach connectStep t undoesCleanly u → ∀ ci, u.udata ci = some i → ¬ u.bus.sinks ci := by
  obtain ⟨base, clients, inv⟩ := undone_invariant reach
  have here : Reach connectStep (.new n) undoesCleanly t := .next reach clean taken
  constructor
  · intro nonneg
    rcases phase_cases base (connectStep_move taken).2 i with same | ⟨_, other⟩ | ⟨_, bus, fresh | ⟨c, closing⟩⟩
    · rw [same] at after
      exact absurd after before
    · exact absurd after other
    · exact absurd nonneg (Int.not_le.mpr (inv.new i fresh))
    · rw [bus]
      refine base.track.forgets (base.unengaged c i ?_ (inv.failing c i (.inr closing)))
      rw [closing]
      rfl
  · intro u later ci made
    obtain ⟨_, _, undone⟩ := undone_invariant (here.trans later)
    exact absurd made (undone.failed i (connectionError_stays here later after) ci)

end Steps

/-- The SSL handshake of the first session fails, and its `KineticSession_Connect` with it. -/
theorem failed_connect_undone_handshake :
    ∃ s t, Reach connectStep (.new 1) undoesCleanly s ∧ undoesCleanly s (.call 0 .close) ∧
      connectStep s (.call 0 .close) = some t ∧ (s.sessions 0).phase ≠ .connectionError ∧
      (t.sessions 0).phase = .connectionError ∧ (s.sessions 0).socket = 5 ∧ t.bus.forgets 5 ∧
      ∀ u, Reach connectStep t undoesCleanly u → ∀ ci, u.udata ci = some 0 → ¬ u.bus.sinks ci := by
  have handed : undoesCleanly (.new 1) (.call 0 (.connect 0 (some 5))) := by
    refine ⟨⟨unengaged_new 1 5, ?_⟩, trivial⟩
    rintro c i (here | here)
    · cases here
    · cases here
  have trace : ((connectStep (.new 1) (.call 0 (.connect 0 (some 5)))).bind fun s₁ =>
        (connectStep s₁ (.call 0 (.calloc true))).bind fun s₂ =>
      (connectStep s₂ (.call 0 (.registerSocket true (.notMade ⟨0, false, 0, .none, 0⟩)))).bind fun s₃ =>
        (connectStep s₃ (.call 0 .free)).bind fun s => (connectStep s (.call 0 .close)).map fun t =>
          ((s.sessions 0).phase, (t.sessions 0).phase, (s.sessions 0).socket)) =
      some (.connecting, .connectionError, 5) := by decide +kernel
  obtain ⟨s₁, first, later⟩ := Option.bind_eq_some_iff.mp trace
  obtain ⟨s₂, second, later⟩ := Option.bind_eq_some_iff.mp later
  obtain ⟨s₃, third, later⟩ := Option.bind_eq_some_iff.mp later
  obtain ⟨s, fourth, later⟩ := Option.bind_eq_some_iff.mp later
  obtain ⟨t, closes, seen⟩ := Option.map_eq_some_iff.mp later
  simp only [Prod.mk.injEq] at seen
  obtain ⟨before, after, socket⟩ := seen
  have allocates : undoesCleanly s₁ (.call 0 (.calloc true)) := ⟨trivial, trivial⟩
  have fails : undoesCleanly s₂ (.call 0 (.registerSocket true (.notMade ⟨0, false, 0, .none, 0⟩))) := ⟨trivial, trivial⟩
  have frees : undoesCleanly s₃ (.call 0 .free) := ⟨trivial, trivial⟩
  have reach : Reach connectStep (.new 1) undoesCleanly s :=
    .next (.next (.next (.next .start handed first) allocates second) fails third) frees fourth
  have trying : (s.sessions 0).phase ≠ .connectionError := by
    rw [before]
    exact nofun
  have clean : undoesCleanly s (.call 0 .close) := ⟨trivial, trivial⟩
  obtain ⟨forgets, silent⟩ := failed_connect_undone reach clean closes trying after
  rw [socket] at forgets
  exact ⟨s, t, reach, clean, closes, trying, after, socket, forgets (by decide), silent⟩

/-- The connection ID does not come in time. The socket stays registered, and `sink_cb` may be called for the session. -/
theorem failed_connect_leaves_socket :
    ∃ s t, Reach connectStep (.new 1) (fun _ _ => True) s ∧ connectStep s (.call 0 .close) = some t ∧
      (s.sessions 0).phase ≠ .connectionError ∧ (t.sessions 0).phase = .connectionError ∧ (s.sessions 0).socket = 5 ∧
      ¬ t.bus.forgets 5 ∧ t.udata 0 = some 0 ∧ t.bus.sinks 0 := by
  have trace : ((exec connectStep (fun _ _ => true) (.new 1)
      [.call 0 (.connect 0 (some 5)), .call 0 (.calloc true), .call 0 (.registerSocket false .made), .bus (.client 0 .getFreeMsg),
        .bus (.client 0 (.pushMessage true)), .bus (.listener 0 (.handle ⟨true, ⟨false, 9, true⟩⟩)), .bus (.listener 0 .release),
        .bus (.client 0 (.onCompletion true)), .call 0 (.waitTilAvailable false), .call 0 .free]).bind fun s =>
      (connectStep s (.call 0 .close)).map fun t =>
        (((s.sessions 0).phase, (t.sessions 0).phase, (s.sessions 0).socket), (t.bus.fdSet 5, t.udata 0),
          decide (0 < (t.bus.listeners 0).sockets.trackedFds), (t.bus.listeners 0).sockets.fdInfo 0)) =
      some ((.connecting, .connectionError, 5), (some 0, some 0), true, 0) := by decide +kernel
  obtain ⟨s, run, later⟩ := Option.bind_eq_some_iff.mp trace
  obtain ⟨t, closes, seen⟩ := Option.map_eq_some_iff.mp later
  simp only [Prod.mk.injEq, decide_eq_true_eq] at seen
  obtain ⟨⟨before, after, socket⟩, ⟨present, made⟩, below, tracked⟩ := seen
  refine ⟨s, t, Reach.start.exec (fun _ _ _ => trivial) run, closes, ?_, after, socket, ?_, made, .inl ⟨0, 0, below, tracked⟩⟩
  · rw [before]
    exact nofun
  · intro forgets
    rw [forgets.1] at present
    cases present

end Kinetic
