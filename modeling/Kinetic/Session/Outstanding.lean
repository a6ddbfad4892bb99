import Kinetic.Bus.Completions
import Kinetic.Session.Units

namespace Kinetic
open Function (update)
open Ownership
open Transition (Reach exec)

section Invariant
variable {pk : Packer} {n ci : Nat} {s t : Session} {books : Finset Nat}

/-- A step of `KineticOperation_Complete` in the semaphore. -/
theorem UnitsInv.complete {k : Nat} {op : Operation} {pc pc' : SemPc} {sem : CountingSemaphore Agent} (inv : UnitsInv s books)
    (completing : s.tasks k = some (op, pc)) (moved : semStep s.outstandingOperations (.task k) pc = some (sem, pc')) :
    ∃ books, UnitsInv { s with outstandingOperations := sem, tasks := update s.tasks k (some (op, pc')) } books := by
  obtain ⟨ran, inside⟩ := inv.tasks k op pc completing
  have atPc : s.semPc (.task k) = pc := by simp only [Session.semPc, completing]
  have own : pc.giving = true := by
    rcases inside with giving | ended
    · exact giving
    · subst ended
      cases moved
  have before : s.opAt (.task k) = if pc.hasUnit then some (op.serial, true) else none := by
    simp only [Session.opAt, completing]
  refine inv.semaphore (a := .task k) (p := .task k) (x := op.serial) (by rw [atPc]; exact moved) rfl
    (Session.semPc_task rfl rfl) rfl (fun r other => ?_) ?_ ?_ ?_ inv.threads ?_
  · cases r with
    | task k' =>
      have distinct : k' ≠ k := by
        rintro rfl
        exact other rfl
      simp only [Session.opAt, Function.update_of_ne distinct]
    | thread c => rfl
    | box b => rfl
  · rw [atPc, before]
    intro notTake notGive
    simp only [Session.opAt, Function.update_self]
    cases semStep_move moved with
    | keeps _ same _ _ => rw [same]
    | returns unlocking _ _ =>
      subst unlocking
      cases own
    | takes counting _ _ => exact absurd counting notTake
    | gives counting _ _ => exact absurd counting notGive
  · rw [atPc]
    intro counting
    subst counting
    cases own
  · rw [atPc, before]
    intro counting
    subst counting
    cases moved
    refine ⟨rfl, ?_⟩
    simp only [Session.opAt, Function.update_self]
    rfl
  · intro k' op' pc'' atK
    dsimp only at atK
    rw [Function.update_apply] at atK
    split at atK
    · rename_i here
      cases atK
      rw [here]
      exact ⟨ran, semStep_giving moved own⟩
    · exact inv.tasks k' op' pc'' atK

/-- A task of the pool is the only place of its box. -/
theorem SessionInv.scheduled {b k : Nat} {op : Operation} (session : SessionInv n ci s)
    (atK : s.bus.heap.scheduled[k]? = some b) (ours : s.udata b = some op) (waiting : k ∉ s.bus.ran) :
    s.bus.results b = some true ∧ ¬ s.bus.callbackRan b := by
  have owners := (bus_invariant session.bus).2
  refine ⟨?_, ?_⟩
  · cases answered : s.bus.results b with
    | none =>
      obtain ⟨c, held⟩ := (session.boxes b op ours).2 answered
      cases owners.sound.exclusive (.client c) (.task k) b held atK
    | some res =>
      cases res with
      | true => rfl
      | false => exact absurd answered (owners.sound.alive (.task k) b atK).2
  · rintro ⟨k', ran, also⟩
    cases owners.sound.exclusive (.task k') (.task k) b also atK
    exact waiting ran

/-- The pool runs the callback of a box, and its operation goes from the box to the task. -/
theorem UnitsInv.handle {k b : Nat} {op : Operation} (inv : UnitsInv s books) (session : SessionInv n ci s)
    (atK : s.bus.heap.scheduled[k]? = some b) (ours : s.udata b = some op)
    (stepped : busStep s.bus (.run k) = some { s.bus with ran := k :: s.bus.ran }) (waiting : k ∉ s.bus.ran) :
    UnitsInv { s with
      bus := { s.bus with ran := k :: s.bus.ran }
      tasks := update s.tasks k (some (op, .giveLock)) } books := by
  have ran := (busStep_schedules stepped).callbackRan_iff (ranScheduled_of_reach session.bus)
  obtain ⟨accepted, pending⟩ := session.scheduled atK ours waiting
  have empty : s.tasks k = none := by
    cases before : s.tasks k with
    | none => rfl
    | some task => exact absurd (inv.tasks k task.1 task.2 before).1 waiting
  refine ⟨?_, ?_, inv.total, inv.most, inv.threads, ?_⟩
  · refine inv.booked.move (p := .box b) (q := .task k) (x := op.serial) (u := true) ?_ ?_ ?_ ?_ fun r notBox notTask => ?_
    · simp [Session.opAt, accepted, pending, ours]
    · simp [Session.opAt, empty]
    · have done := (ran b).mpr (.inr ⟨k, rfl, atK⟩)
      simp only [Session.opAt, done, not_true_eq_false, and_false, if_false]
    · simp [Session.opAt, SemPc.hasUnit]
    · cases r with
      | thread c => rfl
      | box b' =>
        have other : b' ≠ b := by
          rintro rfl
          exact notBox rfl
        have same : BusState.callbackRan { s.bus with ran := k :: s.bus.ran } b' ↔ s.bus.callbackRan b' := by
          rw [ran b']
          refine or_iff_left ?_
          rintro ⟨k', running, also⟩
          cases running
          rw [atK] at also
          exact other (Option.some.inj also).symm
        simp only [Session.opAt, same]
      | task k' =>
        have other : k' ≠ k := by
          rintro rfl
          exact notTask rfl
        simp only [Session.opAt, Function.update_of_ne other]
  · have moved : ({ s with
        bus := { s.bus with ran := k :: s.bus.ran }
        tasks := update s.tasks k (some (op, .giveLock)) } : Session).semPc = update s.semPc (.task k) .giveLock :=
      Session.semPc_task rfl rfl
    rw [moved]
    exact inv.sem.enter (.inr (.inl rfl))
  · intro k' op' pc atK'
    dsimp only at atK'
    rw [Function.update_apply] at atK'
    split at atK'
    · rename_i here
      cases atK'
      exact ⟨by rw [here]; exact List.mem_cons_self, .inl rfl⟩
    · obtain ⟨member, inside⟩ := inv.tasks k' op' pc atK'
      exact ⟨List.mem_cons_of_mem _ member, inside⟩

section Rest
variable {label : BusLabel} {bus : BusState}

/-- The rest of the program runs no callback of the session's boxes. -/
theorem SessionInv.pending_iff (session : SessionInv n ci s) (allowed : s.leaves label = true)
    (taken : busStep s.bus label = some bus) {b : Nat} {op : Operation} (ours : s.udata b = some op) :
    bus.callbackRan b ↔ s.bus.callbackRan b := by
  rw [(busStep_schedules taken).callbackRan_iff (ranScheduled_of_reach session.bus) b]
  refine or_iff_left ?_
  rintro ⟨k, rfl, atK⟩
  simp [Session.leaves, atK, ours] at allowed

/-- A place keeps its operation if the answers it looks at stay. -/
theorem Session.opAt_answered (c : Nat)
    (same : ∀ op b, s.threads c = .send op b → (bus.results b = some true ↔ s.bus.results b = some true)) :
    ({ s with bus := bus } : Session).opAt (.thread c) = s.opAt (.thread c) := by
  simp only [Session.opAt]
  cases atPc : s.threads c with
  | send op b => simp only [OpPc.operation, same op b atPc]
  | _ => rfl

theorem SessionInv.opAt_box (session : SessionInv n ci s) (allowed : s.leaves label = true)
    (taken : busStep s.bus label = some bus) (b : Nat)
    (same : ∀ op, s.udata b = some op → (bus.results b = some true ↔ s.bus.results b = some true)) :
    ({ s with bus := bus } : Session).opAt (.box b) = s.opAt (.box b) := by
  simp only [Session.opAt]
  cases ours : s.udata b with
  | none => simp only [Option.map_none, ite_self]
  | some op => simp only [same op ours, session.pending_iff allowed taken ours]

/-- `Bus_SendRequest` returns true for a box of the session, and the operation goes from the thread to the box. -/
theorem UnitsInv.accepted {c b : Nat} {op : Operation} (inv : UnitsInv s books) (session : SessionInv n ci s)
    (allowed : s.leaves label = true) (taken : busStep s.bus label = some bus) (held : (s.bus.clients c).box = some b)
    (results : bus.results = update s.bus.results b (some true)) (ours : s.udata b = some op) :
    Booked ({ s with bus := bus } : Session).opAt (· < s.nextOp) books := by
  have owners := (bus_invariant session.bus).2
  have sending := session.owned c b op held ours
  have unanswered := unanswered_of_reach session.bus held
  have pending : ¬ bus.callbackRan b := by
    rw [session.pending_iff allowed taken ours]
    rintro ⟨k, _, atK⟩
    cases owners.sound.exclusive (.client c) (.task k) b held atK
  have other (b' : Nat) (distinct : b' ≠ b) : bus.results b' = some true ↔ s.bus.results b' = some true := by
    rw [results, Function.update_of_ne distinct]
  refine inv.booked.move (p := .thread c) (q := .box b) (x := op.serial) (u := true) ?_ ?_ ?_ ?_ fun r notThread notBox => ?_
  · simp [Session.opAt, sending, OpPc.operation, unanswered]
  · simp [Session.opAt, unanswered]
  · simp [Session.opAt, sending, OpPc.operation, results]
  · simp [Session.opAt, results, pending, ours]
  · cases r with
    | thread c' =>
      refine Session.opAt_answered c' fun op' b' also => other b' ?_
      rintro rfl
      cases owners.sound.exclusive (.client c') (.client c) b' ((session.sends c' op' b' also).2 unanswered) held
      exact notThread rfl
    | box b' =>
      refine session.opAt_box allowed taken b' fun _ _ => other b' ?_
      rintro rfl
      exact notBox rfl
    | task k => rfl

/-- A step of the rest of the program. -/
theorem UnitsInv.rest (inv : UnitsInv s books) (session : SessionInv n ci s) (allowed : s.leaves label = true)
    (taken : busStep s.bus label = some bus) : UnitsInv { s with bus := bus } books := by
  have ran (k : Nat) (member : k ∈ s.bus.ran) : k ∈ bus.ran := by
    cases busStep_schedules taken with
    | keeps label _ same _ => rw [same]; exact member
    | adds label b _ same _ => rw [same]; exact member
    | runs k' _ _ same =>
      subst same
      exact List.mem_cons_of_mem _ member
  have kept (same : ∀ b op, s.udata b = some op → (bus.results b = some true ↔ s.bus.results b = some true)) :
      Booked ({ s with bus := bus } : Session).opAt (· < s.nextOp) books := by
    refine inv.booked.keep fun r => ?_
    cases r with
    | thread c => exact Session.opAt_answered c fun op b sending => same b op (session.sends c op b sending).1
    | box b => exact session.opAt_box allowed taken b (same b)
    | task k => rfl
  refine ⟨?_, inv.sem, inv.total, inv.most, inv.threads, fun k op pc atK => ?_⟩
  · cases busStep_answers taken with
    | none results _ => exact kept fun b op _ => by rw [results]
    | one c b res held results _ =>
      cases ours : s.udata b with
      | none =>
        refine kept fun b' op theirs => ?_
        have distinct : b' ≠ b := by
          rintro rfl
          rw [ours] at theirs
          cases theirs
        rw [results, Function.update_of_ne distinct]
      | some op =>
        cases res with
        | true => exact inv.accepted session allowed taken held results ours
        | false =>
          refine kept fun b' op _ => ?_
          have unanswered := unanswered_of_reach session.bus held
          rw [results, Function.update_apply]
          split
          · rename_i here
            simp [here, unanswered]
          · rfl
  · obtain ⟨member, inside⟩ := inv.tasks k op pc atK
    exact ⟨ran k member, inside⟩

end Rest

theorem UnitsInv.step {label : SessionLabel} (inv : UnitsInv s books) (session : SessionInv n ci s)
    (taken : sessionStep pk s label = some t) : ∃ books, UnitsInv t books := by
  cases sessionStep_move taken with
  | calls c op outside idle same =>
    subst same
    refine ⟨books, inv.goes (.lock { op with serial := s.nextOp }) rfl rfl rfl rfl (.inr (.inr rfl)) trivial ?_⟩
    refine inv.booked.enter (p := .thread c) (x := s.nextOp) (Nat.lt_irrefl _) ?_ ?_
      (Session.opAt_others rfl rfl rfl rfl) fun y => ?_
    · simp [Session.opAt, outside, OpPc.operation]
    · simp [Session.opAt, Session.setThread, OpPc.operation]
    · exact Nat.lt_succ_iff_lt_or_eq
  | thread c ok move => exact inv.thread session move
  | handles k b op atK ours stepped waiting same =>
    subst same
    exact ⟨books, inv.handle session atK ours stepped waiting⟩
  | completes k op pc pc' sem completing moved same =>
    subst same
    exact inv.complete completing moved
  | rest label bus allowed stepped same =>
    subst same
    exact ⟨books, inv.rest session allowed stepped⟩

theorem UnitsInv.connected (bus : BusState) (fd : Int) : UnitsInv (.connected bus fd) ∅ := by
  have empty (r : OpPlace) : (Session.connected bus fd).opAt r = none := by
    cases r with
    | thread c => rfl
    | box b => exact ite_self _
    | task k => rfl
  have done (a : Agent) : (Session.connected bus fd).semPc a = .done := by cases a <;> rfl
  have width : kineticMaxOutstandingOperationsPerSession < 2 ^ 32 := by decide
  refine ⟨⟨⟨?_, ?_⟩, fun x => ?_⟩, ⟨?_, ?_, ?_, width⟩, rfl, rfl, fun _ => trivial, ?_⟩
  · intro p q x held
    rw [tokens_of_none (empty p)] at held
    cases held
  · intro p x held
    rw [tokens_of_none (empty p)] at held
    cases held
  · simp [empty]
  · intro a inside
    rw [done] at inside
    cases inside
  · intro a behind
    rw [done] at behind
    cases behind
  · intro a after seen
    rw [done] at seen
    cases seen
  · intro k op pc completing
    cases completing

end Invariant

section Runs
variable {pk : Packer} {n ci : Nat} {bus : BusState} {fd : Int} {s : Session} {books : Finset Nat}

/-- The operation of a request in flight has its unit, and is with the box or with the thread that sends it. -/
theorem SessionInv.inFlight (session : SessionInv n ci s) {b : Nat} (flying : s.inFlight b) :
    ∃ op, s.udata b = some op ∧ (s.opAt (.box b) = some (op.serial, true) ∨
      ∃ c, s.threads c = .send op b ∧ s.opAt (.thread c) = some (op.serial, true)) := by
  obtain ⟨present, notRejected, pending⟩ := flying
  obtain ⟨op, ours⟩ := Option.isSome_iff_exists.mp present
  refine ⟨op, ours, ?_⟩
  cases answered : s.bus.results b with
  | none =>
    obtain ⟨c, held⟩ := (session.boxes b op ours).2 answered
    have sending := session.owned c b op held ours
    exact .inr ⟨c, sending, by simp [Session.opAt, sending, OpPc.operation, answered]⟩
  | some res =>
    cases res with
    | true => exact .inl (by simp [Session.opAt, answered, pending, ours])
    | false => exact absurd answered notRejected

/-- There are at most as many requests in flight as there are operations on the books. -/
theorem UnitsInv.few_in_flight (inv : UnitsInv s books) (session : SessionInv n ci s) (boxes : Finset Nat)
    (flying : ∀ b ∈ boxes, s.inFlight b) : boxes.card ≤ books.card := by
  refine Finset.card_le_card_of_injOn (fun b => ((s.udata b).map Operation.serial).getD 0) ?_ ?_
  · intro b member
    obtain ⟨op, ours, place⟩ := session.inFlight (flying b member)
    simp only [ours, Option.map_some, Option.getD_some]
    refine (inv.booked.booked op.serial).mpr ?_
    rcases place with boxed | ⟨c, _, sending⟩
    · exact ⟨.box b, boxed⟩
    · exact ⟨.thread c, sending⟩
  · intro b member b' member' same
    obtain ⟨op, ours, place⟩ := session.inFlight (flying b member)
    obtain ⟨op', ours', place'⟩ := session.inFlight (flying b' member')
    simp only [ours, ours', Option.map_some, Option.getD_some] at same
    rw [← same] at place'
    rcases place with boxed | ⟨c, atSend, sending⟩ <;> rcases place' with boxed' | ⟨c', atSend', sending'⟩
    · cases inv.booked.exclusive boxed boxed'
      rfl
    · cases inv.booked.exclusive boxed sending'
    · cases inv.booked.exclusive sending boxed'
    · cases inv.booked.exclusive sending sending'
      rw [atSend] at atSend'
      cases atSend'
      rfl

/-- Whatever the order of the steps of threads that send on one session, of the bus and of completions, the count of the
semaphore and the operations that have taken a unit and neither been rejected nor completed make up the maximum, at most
`KINETIC_MAX_OUTSTANDING_OPERATIONS_PER_SESSION` requests are in flight, and the assertion of
`KineticCountingSemaphore_Give` holds. -/
theorem outstanding_operations_accounted (before : Reach busStep (.new n) (fun _ _ => True) bus)
    (connected : bus.Connected fd ci) (reach : Reach (sessionStep pk) (.connected bus fd) (fun _ _ => True) s) :
    (∃ units : Finset Nat, (∀ x, x ∈ units ↔ s.outstanding x) ∧
      s.outstandingOperations.count + units.card = s.outstandingOperations.max) ∧
    s.outstandingOperations.max = kineticMaxOutstandingOperationsPerSession ∧
    (∀ boxes : Finset Nat, (∀ b ∈ boxes, s.inFlight b) → boxes.card ≤ kineticMaxOutstandingOperationsPerSession) ∧
    (∀ a after, s.semPc a = .giveAssert after → after ≤ s.outstandingOperations.max) := by
  have inv : SessionInv n ci s ∧ ∃ books, UnitsInv s books := by
    induction reach with
    | start => exact ⟨.connected before connected, ∅, .connected bus fd⟩
    | next _ _ taken ih =>
      obtain ⟨session, books, units⟩ := ih
      exact ⟨session.step taken, units.step session taken⟩
  obtain ⟨session, books, units⟩ := inv
  refine ⟨⟨books, units.booked.booked, units.total⟩, units.most, fun boxes flying => ?_, fun a after asserting => ?_⟩
  · have few := units.few_in_flight session boxes flying
    have total := units.total
    have most := units.most
    omega
  · exact units.sem.bounded a after (by rw [asserting]; rfl)

/-- The task of an accepted request is about to test what it has counted, and a request of a second thread has been
turned away. -/
theorem outstanding_operations_accounted_two_threads :
    ∃ bus s, Reach busStep (.new 1) (fun _ _ => True) bus ∧ bus.Connected 5 0 ∧
      Reach (sessionStep bareCommands) (.connected bus 5) (fun _ _ => True) s ∧
      s.outstandingOperations.count = 9 ∧ s.semPc (.task 0) = .giveAssert 10 ∧ s.semPc (.thread 1) = .giveLock ∧
      (∃ units : Finset Nat, (∀ x, x ∈ units ↔ s.outstanding x) ∧
        s.outstandingOperations.count + units.card = s.outstandingOperations.max) ∧
      s.outstandingOperations.max = kineticMaxOutstandingOperationsPerSession ∧
      (∀ boxes : Finset Nat, (∀ b ∈ boxes, s.inFlight b) → boxes.card ≤ kineticMaxOutstandingOperationsPerSession) ∧
      (∀ a after, s.semPc a = .giveAssert after → after ≤ s.outstandingOperations.max) := by
  have trace : ((exec busStep (fun _ label => decide (label.releases 5 = false)) (.new 1) (registerSteps 0 5)).bind
      fun bus => (exec (sessionStep bareCommands) (fun _ _ => decide True) (.connected bus 5)
        (drawSteps 0 true ++ packSteps 0 ++ List.replicate 3 (SessionLabel.thread 0 true) ++
          (sendSteps 0 ⟨5, 0, 1, List.replicate 15 0⟩).tail.map .bus ++
          [SessionLabel.bus (.listener 0 (.recv 0 ⟨true, 7, 0⟩ true)), .handleResult 0, .complete 0, .complete 0, .complete 0] ++
          List.replicate 2 (SessionLabel.thread 0 true) ++ drawSteps 1 true ++ packSteps 1 ++ [SessionLabel.thread 1 false])).map
        fun s => (bus.fdSet 5, (bus.conns.info 0).largestWrSeqIdSeen, s.outstandingOperations.count, s.semPc (.task 0),
          s.semPc (.thread 1))) =
      some (some 0, -1, 9, .giveAssert 10, .giveLock) := by decide +kernel
  obtain ⟨bus, ended, trace⟩ := Option.bind_eq_some_iff.mp trace
  obtain ⟨s, executed, seen⟩ := Option.map_eq_some_iff.mp trace
  simp only [Prod.mk.injEq] at seen
  obtain ⟨registered, unused, count, completing, rejected⟩ := seen
  obtain ⟨before, connected⟩ := connected_of_exec ended registered unused
  have session : Reach (sessionStep bareCommands) (.connected bus 5) (fun _ _ => True) s :=
    Reach.start.exec (fun _ _ => of_decide_eq_true) executed
  exact ⟨bus, s, before, connected, session, count, completing, rejected,
    outstanding_operations_accounted before connected session⟩

end Runs

end Kinetic
