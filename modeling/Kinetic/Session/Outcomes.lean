import Kinetic.Bus.Statuses
import Kinetic.Session.Model

namespace Kinetic
open Function (update)
open Transition (Reach exec exists_reach_of_exec)

inductive KineticStatus
  | invalid
  | notAttempted
  | success
  | sessionEmpty
  | sessionInvalid
  | hostEmpty
  | hmacRequired
  | noPdusAvailable
  | deviceBusy
  | connectionError
  | invalidRequest
  | operationInvalid
  | operationFailed
  | operationTimedout
  | clusterMismatch
  | versionMismatch
  | dataError
  | notFound
  | bufferOverrun
  | memoryError
  | socketTimeout
  | socketError
  | missingKey
  | missingValueBuffer
  | missingPin
  | sslRequired
  | deviceLocked
  | aclError
  | notAuthorized
  | invalidFile
  | requestRejected
  | deviceNameRequired
  | invalidLogType
  | hmacFailure
  | sessionTerminated
  deriving DecidableEq

/-- `bus_to_kinetic_status`; `none` is the failing assertion of its default case. -/
def busToKineticStatus : BusSendStatus → Option KineticStatus
  | .success => some .success
  | .txTimeout => some .socketTimeout
  | .txFailure => some .socketError
  | .rxTimeout => some .operationTimedout
  | .rxFailure => some .socketError
  | .badResponse => some .socketError
  | .unregisteredSocket => some .socketError
  | .rxTimeoutExpect => some .operationTimedout
  | _ => none

theorem busToKineticStatus_isSome (status : BusSendStatus) : (busToKineticStatus status).isSome = status.mapped := by
  cases status <;> rfl

/-- The status that `KineticController_HandleResult` gives to `KineticOperation_Complete`. `getStatus` is
`KineticResponse_GetStatus`, and `opCallback` the callback of the operation, if it has one. -/
def kineticControllerHandleResult (getStatus : Nat → KineticStatus) (opCallback : Option (KineticStatus → KineticStatus))
    (res : BoxedMsg) : Option KineticStatus := do
  let status ← busToKineticStatus res.status
  let status := if status = .success then getStatus res.responseMsg else status
  match opCallback with
  | some callback => some (callback status)
  | none => some status

/-- The clock can be read once a message is written, and the last try to tell the listener about it gets through. -/
def BusState.tellsListener (s : BusState) : BusLabel → Bool
  | .client c (.event (.timestamp none)) =>
    match s.clients c with
    | .send _ .timestampDone => false
    | _ => true
  | .client c .getFreeMsg =>
    match s.clients c with
    | .acquire (.expect b tries) => tries + 1 < sendNotifyListenerRetries ∨
        (s.listeners (s.listenerIdOfSocket (s.heap.boxes b).fd)).msgs.msgFreelist ≠ []
    | _ => true
  | .client c (.pushMessage false) =>
    match s.clients c with
    | .push (.expect _ tries) _ _ _ => tries + 1 < sendNotifyListenerRetries
    | _ => true
  | _ => true

/-- The statuses of a box in a cell. -/
def BusSendStatus.waiting : BusSendStatus → Bool
  | .requestComplete => true
  | .success => true
  | .rxTimeout => true
  | .rxFailure => true
  | _ => false

theorem deliveredStatus_mapped {status : BusSendStatus} (waiting : status.waiting = true) :
    (deliveredStatus status).mapped = true := by
  cases status <;> first | rfl | cases waiting

theorem deliveredStatus_waiting {status : BusSendStatus} (waiting : status.waiting = true) :
    (deliveredStatus status).waiting = true := by
  cases status <;> first | rfl | cases waiting

structure OutcomeInv (s : BusState) : Prop where
  client : ∀ c b status, (s.clients c).stage = .failed b status → status.mapped = true
  cell : ∀ l i b, (s.listeners l).rx.box i = some b → (s.heap.boxes b).status.waiting = true
  task : ∀ b ∈ s.heap.scheduled, (s.heap.boxes b).status.mapped = true

theorem OutcomeInv.new (n : Nat) : OutcomeInv (.new n) := by
  refine ⟨fun _ _ _ failed => ?_, fun _ _ _ held => ?_, fun _ member => ?_⟩
  · cases failed
  · cases held
  · cases member

section Sender
variable {s t : BusState} {c : Nat}

/-- The statuses of a failure that the sending thread meets by itself, if its clock does not fail at the end. -/
theorem sendStep_failure {ssl : Bool} {box sent : SendBox} {pc : SendPc} {e : SendEvent} {status : BusSendStatus}
    (run : sendStep ssl box pc e = some (sent, .failure status)) :
    status.mapped = true ∨ pc = .timestampDone ∧ e = .timestamp none ∧ status = .timestampError := by
  generalize next : SendPc.failure status = pc' at run
  cases sendStep_move run with
  | fails _ _ failed here among =>
    cases next
    refine .inl ?_
    cases status with
    | txTimeout => rfl
    | txFailure => rfl
    | unregisteredSocket => rfl
    | _ => cases among
  | notStamped =>
    cases next
    exact .inr ⟨rfl, rfl, rfl⟩
  | _ => cases next

/-- A client that gets a slot for its `EXPECT` goes on with it. -/
theorem acquireMsg_slot {b tries : Nat} (run : acquireMsg s c (.expect b tries) = some t)
    (free : (s.listeners (s.listenerIdOfSocket (s.heap.boxes b).fd)).msgs.msgFreelist ≠ []) :
    (t.clients c).stage = .expecting b := by
  unfold acquireMsg at run
  obtain ⟨⟨slot, msgs⟩, got, rest⟩ := Option.bind_eq_some_iff.mp run
  unfold getFreeMsg at got
  split at got
  · rename_i empty
    exact absurd empty free
  · split at got <;> cases got
    dsimp only at rest
    split at rest <;> cases rest
    simp [BusState.setClient, ClientPc.stage, Purpose.stage]

/-- Of the messages that do not get through to the listener, only the last try of an `EXPECT` is a failure. -/
theorem notSent_failed {p : Purpose} {b : Nat} {status : BusSendStatus}
    (failed : ((s.notSent c p).clients c).stage = .failed b status) :
    ∃ tries, p = .expect b tries ∧ ¬ tries + 1 < sendNotifyListenerRetries ∧ status = .txTimeoutNotifyingListener := by
  cases p with
  | hold b' start tries =>
    unfold BusState.notSent at failed
    dsimp only at failed
    split at failed
    · simp [BusState.setClient, ClientPc.stage, Purpose.stage] at failed
    · simp [BusState.sendOn, BusState.returned, BusState.setClient, ClientPc.stage] at failed
  | expect b' tries =>
    unfold BusState.notSent at failed
    dsimp only at failed
    split at failed
    · simp [BusState.setClient, ClientPc.stage, Purpose.stage] at failed
    · rename_i last
      simp only [BusState.sendOn, BusState.setClient, Function.update_self, ClientPc.stage, SendPc.stage,
        Stage.failed.injEq] at failed
      exact ⟨tries, by rw [failed.1], last, failed.2.symm⟩
  | _ => simp [BusState.notSent, BusState.setClient, ClientPc.stage] at failed

theorem sendOn_failed {b b' : Nat} {pc : SendPc} {status : BusSendStatus}
    (failed : ((s.sendOn c b pc).clients c).stage = .failed b' status) : pc = .failure status := by
  obtain ⟨next, placed, stage⟩ := s.sendOn_client c b pc
  rw [placed, Function.update_self, stage] at failed
  cases pc <;> cases failed
  rfl

/-- A client that has been given a failure for the pool has one that is mapped. -/
theorem clientStep_failed {a : ClientAction} (run : clientStep s c a = some t) (tells : s.tellsListener (.client c a) = true)
    {b : Nat} {status : BusSendStatus} (failed : (t.clients c).stage = .failed b status) :
    (s.clients c).stage = .failed b status ∨ status.mapped = true := by
  cases clientStep_cases run with
  | refused => exact Or.inl failed
  | poolFull => exact Or.inl failed
  | sends b' pc pc' e sent sending moved =>
    have last := sendOn_failed failed
    subst last
    rcases sendStep_failure moved with mapped | ⟨rfl, rfl, rfl⟩
    · exact Or.inr mapped
    · simp only [BusState.tellsListener, sending] at tells
      cases tells
  | noSlot p acquiring =>
    obtain ⟨tries, rfl, last, rfl⟩ := notSent_failed failed
    simp only [BusState.tellsListener, acquiring, last, false_or, decide_eq_true_eq] at tells
    have gone : (acquireMsg s c (.expect b tries)) = some (s.notSent c (.expect b tries)) := by
      unfold clientStep at run
      rw [acquiring] at run
      exact run
    rw [acquireMsg_slot gone tells] at failed
    cases failed
  | fails p l slot serial writing =>
    obtain ⟨tries, rfl, last, rfl⟩ := notSent_failed failed
    simp only [BusState.tellsListener, writing, last, decide_false] at tells
    cases tells
  | held b' start tries l slot serial waiting =>
    have last := sendOn_failed failed
    unfold sendLoop at last
    split at last <;> cases last
    exact Or.inr rfl
  | commits p l slot serial writing =>
    cases p <;> simp [BusState.pushed, BusState.returned, BusState.setClient, ClientPc.stage, Purpose.stage] at failed
  | takes p slot next acquiring =>
    cases p <;> simp [BusState.setClient, ClientPc.stage, Purpose.stage] at failed
  | notHeld b' start tries l slot serial waiting => cases sendOn_failed failed
  | _ => simp [BusState.setClient, BusState.returned, ClientPc.stage, SendPc.stage, Purpose.stage] at failed

/-- What a client hands to the pool is its failed box. -/
theorem clientStep_task {a : ClientAction} (run : clientStep s c a = some t) {b : Nat} (member : b ∈ t.heap.scheduled) :
    b ∈ s.heap.scheduled ∨ ∃ status, (s.clients c).stage = .failed b status ∧ t.heap.boxes = s.heap.boxes := by
  have sendOn (u : BusState) (b' : Nat) (pc : SendPc) : (u.sendOn c b' pc).heap.scheduled = u.heap.scheduled := by
    cases pc <;> rfl
  have notSent (u : BusState) (p : Purpose) : (u.notSent c p).heap.scheduled = u.heap.scheduled := by
    cases p with
    | hold b' start tries =>
      unfold BusState.notSent
      dsimp only
      split
      · rfl
      · exact sendOn ..
    | expect b' tries =>
      unfold BusState.notSent
      dsimp only
      split
      · rfl
      · exact sendOn ..
    | _ => rfl
  cases clientStep_cases run with
  | delivers b' status failing =>
    rcases List.mem_append.mp member with old | new
    · exact Or.inl old
    · cases List.mem_singleton.mp new
      exact Or.inr ⟨status, by rw [failing]; rfl, rfl⟩
  | sends b' pc pc' e sent =>
    rw [sendOn] at member
    exact Or.inl member
  | noSlot p =>
    rw [notSent] at member
    exact Or.inl member
  | fails p l slot =>
    rw [notSent] at member
    exact Or.inl member
  | held b' start =>
    rw [sendOn] at member
    exact Or.inl member
  | notHeld b' =>
    rw [sendOn] at member
    exact Or.inl member
  | commits p l slot serial => cases p <;> exact Or.inl member
  | _ => exact Or.inl member

end Sender

section Receiver
variable {t t' : RxTable} {h h' : Heap} {e : RxEvent}

/-- The status of an offered box is mapped, if that of the box was one of a box in a cell. -/
theorem Offer.outcome {i b : Nat} {box : BoxedMsg} {after : RxInfoState} (offer : Offer t h i b e box after)
    (before : (h.boxes b).status.waiting = true) : box.status.mapped = true ∧ box.status.waiting = true := by
  cases offer with
  | retries error hasResult result _ _ success =>
    rw [success]
    exact ⟨rfl, rfl⟩
  | expires => exact ⟨rfl, rfl⟩
  | fails => exact ⟨rfl, rfl⟩
  | receives => exact ⟨deliveredStatus_mapped before, deliveredStatus_waiting before⟩
  | pairsResult => exact ⟨deliveredStatus_mapped before, deliveredStatus_waiting before⟩
  | pairsError => exact ⟨rfl, rfl⟩

/-- The box that is offered comes from a cell, or from the command that is read. -/
theorem Offer.source {i b : Nat} {box : BoxedMsg} {after : RxInfoState} (offer : Offer t h i b e box after) :
    t.box i = some b ∨ e = .expect b := by
  cases offer with
  | retries error hasResult result state => exact Or.inl (RxTable.box_eq state)
  | expires hasResult result state => exact Or.inl (RxTable.box_eq state)
  | fails error hasResult result state => exact Or.inl (RxTable.box_eq state)
  | receives error hasResult old result state => exact Or.inl (RxTable.box_eq state)
  | pairsResult => exact Or.inr rfl
  | pairsError => exact Or.inr rfl

theorem RxMove.outcomes (move : RxMove t h t' h' e) (cells : ∀ i b, t.box i = some b → (h.boxes b).status.waiting = true)
    (expected : ∀ b, e = .expect b → (h.boxes b).status.waiting = true) :
    (∀ i b, t'.box i = some b → (h'.boxes b).status.waiting = true) ∧
      ∀ b ∈ h'.scheduled, b ∈ h.scheduled ∨ (h'.boxes b).status.mapped = true := by
  have kept (same : h' = h) : (∀ i b, t'.box i = some b → (h'.boxes b).status.waiting = true) ∧
      ∀ b ∈ h'.scheduled, b ∈ h.scheduled ∨ (h'.boxes b).status.mapped = true := by
    subst same
    refine ⟨fun i b held => ?_, fun b member => Or.inl member⟩
    rcases move.box_origin held with before | event
    · exact cells i b before
    · exact expected b event
  cases move with
  | keeps e _ same => exact kept same
  | frees i _ _ _ same => exact kept same
  | holds i fd seqId _ _ _ same => exact kept same
  | saves i fd seqId old result error _ _ _ _ _ same => exact kept same
  | errs fd err _ _ same => exact kept same
  | pairs i b result _ _ _ same => exact kept same
  | offers e i b box after accepted offer offered =>
    have before : (h.boxes b).status.waiting = true := by
      rcases offer.source with held | event
      · exact cells i b held
      · exact expected b event
    obtain ⟨mapped, waiting⟩ := offer.outcome before
    refine ⟨fun j x held => ?_, fun x member => ?_⟩
    · rw [offered.boxes, Function.update_apply]
      split
      · exact waiting
      · rcases (RxMove.offers e i b box after accepted offer offered).box_origin held with old | event
        · exact cells j x old
        · exact expected x event
    · rw [offered.scheduled] at member
      split at member
      · rcases List.mem_append.mp member with old | new
        · exact Or.inl old
        · cases List.mem_singleton.mp new
          rw [offered.boxes, Function.update_self]
          exact Or.inr mapped
      · exact Or.inl member

end Receiver

section Runs
variable {n : Nat} {s t : BusState}

theorem OutcomeInv.step {label : BusLabel} (inv : OutcomeInv s) (owners : OwnerInv s) (status : StatusInv s)
    (tells : s.tellsListener label = true) (taken : busStep s label = some t) : OutcomeInv t := by
  have placed {b : Nat} (member : b ∈ s.heap.scheduled) : ∃ k, s.holding (.task k) = some b := List.mem_iff_getElem?.mp member
  cases busStep_move taken with
  | client c a next clients stage rx _ =>
    refine ⟨fun c' b state failed => ?_, fun l i b held => ?_, fun b member => ?_⟩
    · by_cases here : c' = c
      · subst here
        rcases clientStep_failed taken tells failed with before | mapped
        · exact inv.client c' b state before
        · exact mapped
      · rw [clients, Function.update_of_ne here] at failed
        exact inv.client c' b state failed
    · rw [rx] at held
      rw [owners.boxes_of_client stage (p := .cell l i) held (by simp)]
      exact inv.cell l i b held
    · rcases clientStep_task taken member with old | ⟨state, failing, same⟩
      · obtain ⟨k, held⟩ := placed old
        rw [owners.boxes_of_client stage (p := .task k) held (by simp)]
        exact inv.task b old
      · have written := status.client c
        rw [failing] at written
        rw [same, written.1]
        exact inv.client c b state failing
  | listener l a listener clients _ listeners move =>
    have expected (b : Nat) (event : (s.listeners l).rxEvent s.conns a = .expect b) :
        (s.heap.boxes b).status.waiting = true := by
      obtain ⟨env, slot, rest, serial, _, pipe, written⟩ := Listener.rxEvent_expect event
      rw [status.command l slot b (MsgTable.box_of_head pipe written)]
      rfl
    obtain ⟨cells, tasks⟩ := move.outcomes (inv.cell l) expected
    refine ⟨fun c b state failed => ?_, fun l' i b held => ?_, fun b member => ?_⟩
    · rw [clients] at failed
      exact inv.client c b state failed
    · rw [listeners] at held
      by_cases here : l' = l
      · subst here
        rw [Function.update_self] at held
        exact cells i b held
      · rw [Function.update_of_ne here] at held
        rw [owners.boxes_of_place move (p := .cell l' i) held (by simp [here]) (by simp)]
        exact inv.cell l' i b held
    · rcases tasks b member with old | mapped
      · obtain ⟨k, held⟩ := placed old
        rw [owners.boxes_of_place move (p := .task k) held (by simp) (by simp)]
        exact inv.task b old
      · exact mapped
  | run k clients listeners heap =>
    refine ⟨?_, ?_, ?_⟩
    · rw [clients]
      exact inv.client
    · rw [listeners, heap]
      exact inv.cell
    · rw [heap]
      exact inv.task

theorem outcome_invariant (reach : Reach busStep (.new n) (fun s label => s.tellsListener label = true) s) : OutcomeInv s := by
  induction reach with
  | start => exact .new n
  | next before tells taken ih =>
    exact ih.step (bus_invariant before).2 (status_invariant before) tells taken

theorem handleResult_completes {box : BoxedMsg} (mapped : box.status.mapped = true) (getStatus : Nat → KineticStatus)
    (opCallback : Option (KineticStatus → KineticStatus)) :
    ∃ status, kineticControllerHandleResult getStatus opCallback box = some status := by
  rw [← busToKineticStatus_isSome] at mapped
  obtain ⟨status, found⟩ := Option.isSome_iff_exists.mp mapped
  unfold kineticControllerHandleResult
  rw [found]
  cases opCallback with
  | none => exact ⟨_, rfl⟩
  | some callback => exact ⟨_, rfl⟩

/-- A client with a failure that the switch does not know. -/
def BusState.unmappedFailure (s : BusState) : Prop :=
  ∃ c b status, s.clients c = .send b (.failure status) ∧ (s.heap.boxes b).status = status ∧ busToKineticStatus status = none

theorem sendOn_failure {c b : Nat} {status : BusSendStatus} (unmapped : busToKineticStatus status = none) :
    (s.sendOn c b (.failure status)).unmappedFailure := by
  refine ⟨c, b, status, ?_, ?_, unmapped⟩
  · simp [BusState.sendOn, BusState.setClient]
  · simp [BusState.sendOn, BusState.setClient, BusState.setBox, Heap.setBox]

theorem notSent_last {c b tries : Nat} (last : ¬ tries + 1 < sendNotifyListenerRetries) :
    (s.notSent c (.expect b tries)).unmappedFailure := by
  unfold BusState.notSent
  dsimp only
  rw [if_neg last]
  exact sendOn_failure rfl

/-- A step without a clock, or after the last try, leaves its client with such a failure. -/
theorem unmapped_of_not_tells {label : BusLabel} (silent : s.tellsListener label = false) (taken : busStep s label = some t) :
    t.unmappedFailure := by
  unfold BusState.tellsListener at silent
  split at silent
  · rename_i c
    split at silent
    · rename_i b sending
      change clientStep s c _ = _ at taken
      unfold clientStep at taken
      rw [sending] at taken
      cases taken
      exact sendOn_failure rfl
    · cases silent
  · rename_i c
    split at silent
    · rename_i b tries acquiring
      obtain ⟨last, empty⟩ := not_or.mp (of_decide_eq_false silent)
      change clientStep s c _ = _ at taken
      unfold clientStep at taken
      rw [acquiring] at taken
      have none : getFreeMsg (s.listeners (s.listenerIdOfSocket (s.heap.boxes b).fd)).msgs =
          some (none, (s.listeners (s.listenerIdOfSocket (s.heap.boxes b).fd)).msgs) := by
        unfold getFreeMsg
        rw [not_not.mp empty]
      simp only [acquireMsg, Purpose.listener, none] at taken
      cases taken
      exact notSent_last last
    · cases silent
  · rename_i c
    split at silent
    · rename_i b tries l slot serial writing
      change clientStep s c _ = _ at taken
      unfold clientStep at taken
      rw [writing] at taken
      cases taken
      exact notSent_last (of_decide_eq_false silent)
    · cases silent
  · cases silent

/-- In every run in which the clock is there at the end of a write and no `EXPECT` is given up, every callback completes
its operation; any step without that puts a status that is not mapped on the way to the pool. -/
theorem outcomes_mapped (reach : Reach busStep (.new n) (fun s label => s.tellsListener label = true) s) :
    (∀ b ∈ s.heap.scheduled, (busToKineticStatus (s.heap.boxes b).status).isSome = true ∧
      ∀ getStatus opCallback, ∃ status, kineticControllerHandleResult getStatus opCallback (s.heap.boxes b) = some status) ∧
    ∀ label t, s.tellsListener label = false → busStep s label = some t → ∃ c b status,
      t.clients c = .send b (.failure status) ∧ (t.heap.boxes b).status = status ∧ busToKineticStatus status = none := by
  refine ⟨fun b member => ?_, fun label t silent taken => unmapped_of_not_tells silent taken⟩
  have mapped := (outcome_invariant reach).task b member
  exact ⟨(busToKineticStatus_isSome _).trans mapped, handleResult_completes mapped⟩

/-- A request that is answered, and one whose write fails. -/
theorem outcomes_mapped_sent : ∃ s, Reach busStep (.new 1) (fun s label => s.tellsListener label = true) s ∧
    s.heap.scheduled = [0, 1] ∧ (s.heap.boxes 1).status = .txFailure ∧
    (busToKineticStatus (s.heap.boxes 0).status).isSome = true ∧
    (busToKineticStatus (s.heap.boxes 1).status).isSome = true := by
  have trace : (exec busStep (fun s label => decide (s.tellsListener label = true)) (.new 1)
      (registerSteps 0 5 ++ sendSteps 0 ⟨5, 0, 1, [1, 2]⟩ ++ BusLabel.listener 0 (.recv 0 ⟨true, 7, 0⟩ true) ::
        holdSteps 0 ⟨5, 1, 1, [3]⟩ ++ [BusLabel.client 0 (.event (.timestamp (some ⟨0, 0⟩))), .client 0 (.event (.poll .error)),
        .client 0 (.pool true)])).map (fun s => (s.heap.scheduled, (s.heap.boxes 1).status)) =
      some ([0, 1], .txFailure) := by decide +kernel
  obtain ⟨s, reach, seen⟩ := exists_reach_of_exec trace
  obtain ⟨scheduled, failed⟩ := Prod.mk.inj seen
  have outcomes := (outcomes_mapped reach).1
  exact ⟨s, reach, scheduled, failed, (outcomes 0 (by rw [scheduled]; decide)).1, (outcomes 1 (by rw [scheduled]; decide)).1⟩

/-- The clock fails after the last byte of a message, and its callback is run with a status that is not mapped. -/
theorem outcomes_unmapped : ∃ s, Reach busStep (.new 1) (fun _ _ => True) s ∧ s.heap.scheduled = [0] ∧ s.ran = [0] ∧
    (s.heap.boxes 0).status = .timestampError ∧
    ∀ getStatus opCallback, kineticControllerHandleResult getStatus opCallback (s.heap.boxes 0) = none := by
  have trace : (exec busStep (fun _ _ => decide True) (.new 1)
      (registerSteps 0 5 ++ holdSteps 0 ⟨5, 0, 1, [1, 2]⟩ ++ writeSteps 0 2 ++
        [BusLabel.client 0 (.event (.timestamp none)), .client 0 (.pool true), .run 0])).map
      (fun s => (s.heap.scheduled, s.ran, (s.heap.boxes 0).status)) = some ([0], [0], .timestampError) := by decide +kernel
  obtain ⟨s, reach, seen⟩ := exists_reach_of_exec trace
  obtain ⟨scheduled, rest⟩ := Prod.mk.inj seen
  obtain ⟨ran, status⟩ := Prod.mk.inj rest
  refine ⟨s, reach, scheduled, ran, status, fun getStatus opCallback => ?_⟩
  unfold kineticControllerHandleResult
  rw [status]
  rfl

end Runs

end Kinetic
