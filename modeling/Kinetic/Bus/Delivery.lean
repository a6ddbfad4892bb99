import Kinetic.Bus.Responses
import Kinetic.Bus.Statuses

namespace Kinetic
open Function (update)
open Transition (Reach watch exec exists_reach_of_exec)

/-- The statuses that `ListenerTask_AttemptDelivery` turns into success. -/
def BusSendStatus.deliverable : BusSendStatus → Bool
  | .requestComplete => true
  | .success => true
  | _ => false

/-- The box has success and the response. -/
structure BoxedMsg.Carries (box : BoxedMsg) (result : UnpackRes) : Prop where
  status : box.status = .success
  seqId : box.responseSeqId = result.seqId
  msg : box.responseMsg = result.msg

theorem BoxedMsg.delivered_carries {box : BoxedMsg} (result : UnpackRes) (deliverable : box.status.deliverable = true) :
    (box.delivered result).Carries result := by
  refine ⟨?_, rfl, rfl⟩
  rw [BoxedMsg.delivered]
  cases status : box.status <;> rw [status] at deliverable <;> first | rfl | cases deliverable

/-- The state of the cell that `FindInfoBySequenceID` comes upon. -/
def BusState.matched (s : BusState) (l : Nat) (fd seqId : Int) : RxInfoState :=
  match findInfoBySequenceId (s.listeners l).rx s.heap.boxes fd seqId with
  | some i => (s.listeners l).rx.state i
  | none => .inactive

theorem BusState.matched_eq {s : BusState} {l i : Nat} {fd seqId : Int}
    (found : findInfoBySequenceId (s.listeners l).rx s.heap.boxes fd seqId = some i) :
    s.matched l fd seqId = (s.listeners l).rx.state i := by
  rw [BusState.matched, found]

theorem BusState.matched_cell {s : BusState} {l : Nat} {fd seqId : Int} {state : RxInfoState}
    (matched : s.matched l fd seqId = state) (active : state ≠ .inactive) :
    ∃ i, findInfoBySequenceId (s.listeners l).rx s.heap.boxes fd seqId = some i ∧ (s.listeners l).rx.state i = state := by
  unfold BusState.matched at matched
  split at matched
  · rename_i i found
    exact ⟨i, found, matched⟩
  · exact absurd matched.symm active

/-- A cell that is ready for delivery has a box that carries the response of the cell. -/
def RxInfoState.readyWith (boxes : Nat → BoxedMsg) : RxInfoState → Prop
  | .expect box .readyForDelivery hasResult result =>
    ∃ b, box = some b ∧ hasResult = true ∧ result.ok = true ∧ (boxes b).Carries result
  | _ => True

theorem RxInfoState.readyWith_of_ne {box : Option Nat} {error : RxError} {hasResult : Bool} {result : UnpackRes}
    (boxes : Nat → BoxedMsg) (notReady : error ≠ .readyForDelivery) :
    (RxInfoState.expect box error hasResult result).readyWith boxes := by
  cases error with
  | readyForDelivery => exact absurd rfl notReady
  | _ => trivial

theorem RxInfoState.readyWith_congr {state : RxInfoState} {boxes boxes' : Nat → BoxedMsg} (before : state.readyWith boxes)
    (same : ∀ b, state.box = some b → boxes' b = boxes b) : state.readyWith boxes' := by
  cases state with
  | expect box error hasResult result =>
    cases error with
    | readyForDelivery =>
      obtain ⟨b, rfl, has, unpacked, carries⟩ := before
      exact ⟨b, rfl, has, unpacked, by rw [same b rfl]; exact carries⟩
    | _ => trivial
  | _ => trivial

theorem RxInfoState.readyWith_setError {info : RxInfo} {boxes : Nat → BoxedMsg} (before : info.state.readyWith boxes)
    (fd : Int) {err : RxError} (negative : err.negative = true) : (info.setError boxes fd err).state.readyWith boxes := by
  unfold RxInfo.setError
  split
  · exact before
  · trivial
  · exact before
  · rename_i b error hasResult result state
    rw [state] at before
    dsimp only
    split
    · refine RxInfoState.readyWith_of_ne boxes ?_
      rintro rfl
      cases negative
    · exact before

section Table
variable {t t' : RxTable} {h h' : Heap} {e : RxEvent}

/-- A box that is offered to the pool is in no other cell. -/
theorem Offer.others {i b : Nat} {box : BoxedMsg} {after : RxInfoState} (offer : Offer t h i b e box after)
    (apart : ∀ i j b, t.box i = some b → t.box j = some b → i = j) (expected : ∀ b, e = .expect b → ∀ i, t.box i ≠ some b)
    {j : Nat} (held : t.box j = some b) : j = i := by
  cases offer with
  | retries error hasResult result state => exact apart j i b held (RxTable.box_eq state)
  | expires hasResult result state => exact apart j i b held (RxTable.box_eq state)
  | fails error hasResult result state => exact apart j i b held (RxTable.box_eq state)
  | receives error hasResult old result state => exact apart j i b held (RxTable.box_eq state)
  | pairsResult => exact absurd held (expected b rfl j)
  | pairsError => exact absurd held (expected b rfl j)

theorem RxMove.ready (move : RxMove t h t' h' e) (formed : ∀ i, (t.state i).wellFormed)
    (cells : ∀ i, (t.state i).readyWith h.boxes) (apart : ∀ i j b, t.box i = some b → t.box j = some b → i = j)
    (expected : ∀ b, e = .expect b → (∀ i, t.box i ≠ some b) ∧ (h.boxes b).status = .requestComplete)
    (late : ∀ fd result i b error hasResult old, e = .recv fd result →
      findInfoBySequenceId t h.boxes fd result.seqId = some i → t.state i = .expect (some b) error hasResult old →
      result.ok = true → t'.state i ≠ .inactive → (h.boxes b).status.deliverable = true) :
    ∀ i, (t'.state i).readyWith h'.boxes := by
  cases move with
  | keeps e state same _ => exact fun i => by rw [state, same]; exact cells i
  | frees i _ _ state same =>
    subst same
    exact update_state state cells trivial
  | holds i fd seqId _ _ state same =>
    subst same
    exact update_state state cells trivial
  | saves i fd seqId old result error _ _ _ _ state same =>
    subst same
    exact update_state state cells trivial
  | errs fd err negative state same =>
    subst same
    intro i
    rw [state, RxTable.setErrorForSocket_state]
    split
    · exact RxInfoState.readyWith_setError (cells i) fd negative
    · exact cells i
  | pairs i b result _ _ state same =>
    subst same
    exact update_state state cells trivial
  | offers e i b box after accepted offer offered =>
    intro j
    by_cases here : j = i
    · subst here
      rw [offered.cells, Function.update_self]
      cases accepted with
      | true => trivial
      | false =>
        have contents : h'.boxes b = box := by rw [offered.boxes, Function.update_self]
        have kept : t'.state j = after := by rw [offered.cells, Function.update_self]; rfl
        show after.readyWith h'.boxes
        cases offer with
        | retries error hasResult result state _ _ =>
          refine RxInfoState.readyWith_congr (cells j) fun x held => ?_
          rw [state] at held
          cases held
          exact contents
        | expires hasResult result state =>
          rw [state]
          exact RxInfoState.readyWith_of_ne _ (by simp)
        | fails error hasResult result state negative =>
          rw [state]
          refine RxInfoState.readyWith_of_ne _ ?_
          rintro rfl
          cases negative
        | receives error hasResult old result state _ unpacked _ found =>
          refine ⟨b, rfl, rfl, unpacked, ?_⟩
          rw [contents]
          refine BoxedMsg.delivered_carries result (late _ result j b error hasResult old rfl found state unpacked ?_)
          rw [kept]
          simp
        | pairsResult result state unpacked =>
          refine ⟨b, rfl, rfl, unpacked, ?_⟩
          rw [contents]
          refine BoxedMsg.delivered_carries result ?_
          rw [(expected b rfl).2]
          rfl
        | pairsError hasResult result error state errored =>
          have negative := formed j
          rw [state] at negative
          refine RxInfoState.readyWith_of_ne _ ?_
          rintro rfl
          cases negative.2 errored
    · rw [offered.cells, Function.update_of_ne here]
      refine RxInfoState.readyWith_congr (cells j) fun x held => ?_
      rw [offered.boxes, Function.update_of_ne]
      rintro rfl
      exact here (offer.others apart (fun b event => (expected b event).1) held)

end Table

section Facts
variable {s : BusState}

theorem OwnerInv.cells_apart (owners : OwnerInv s) (l : Nat) :
    ∀ i j b, (s.listeners l).rx.box i = some b → (s.listeners l).rx.box j = some b → i = j := by
  intro i j b first second
  have same : Place.cell l i = .cell l j := owners.sound.exclusive (.cell l i) (.cell l j) b first second
  cases same
  rfl

/-- The box of the `EXPECT` that a listener executes is in no cell, and nobody has answered it. -/
theorem StatusInv.expected (status : StatusInv s) (owners : OwnerInv s) {l : Nat} {a : ListenerAction} {b : Nat}
    (event : (s.listeners l).rxEvent s.conns a = .expect b) :
    (∀ i, (s.listeners l).rx.box i ≠ some b) ∧ (s.heap.boxes b).status = .requestComplete := by
  obtain ⟨env, slot, rest, serial, _, pipe, written⟩ := Listener.rxEvent_expect event
  have inCommand : s.holding (.command l slot) = some b := MsgTable.box_of_head pipe written
  refine ⟨fun i inCell => ?_, status.command l slot b inCommand⟩
  cases owners.sound.exclusive (.cell l i) (.command l slot) b inCell inCommand

end Facts

/-- Whether a response that the thread pool turns away finds its request neither timed out nor failed. -/
def BusState.rejectedInTime (s : BusState) : BusLabel → Bool
  | .listener l (.recv i result false) =>
    match s.matched l (s.conns.info ((s.listeners l).sockets.fdInfo i)).fd result.seqId with
    | .expect (some b) _ _ _ => result.ok = false ∨ (s.heap.boxes b).status.deliverable = true
    | _ => true
  | _ => true

def BusState.readyCells (s : BusState) : Prop := ∀ l i, ((s.listeners l).rx.state i).readyWith s.heap.boxes

theorem readyCells_step {s t : BusState} {label : BusLabel} (ready : s.readyCells) (status : StatusInv s) (owners : OwnerInv s)
    (inTime : s.rejectedInTime label = true) (taken : busStep s label = some t) : t.readyCells := by
  cases busStep_move taken with
  | client c a next _ stage rx _ =>
    intro l i
    rw [rx]
    exact RxInfoState.readyWith_congr (ready l i) fun b held =>
      owners.boxes_of_client stage (p := .cell l i) held (by simp)
  | listener l a listener _ _ listeners move =>
    have moved := listenerStep_of_busStep taken listeners
    have own := move.ready (status.formed l) (ready l) (owners.cells_apart l) (fun b => status.expected owners) ?_
    · intro l' i
      by_cases here : l' = l
      · subst here
        rw [listeners, Function.update_self]
        exact own i
      · rw [listeners, Function.update_of_ne here]
        exact RxInfoState.readyWith_congr (ready l' i) fun b held =>
          owners.boxes_of_place move (p := .cell l' i) held (by simp [here]) (by simp)
    · intro fd result i b error hasResult old event found state unpacked kept
      cases a with
      | recv socket received accepted =>
        cases event
        cases accepted with
        | false =>
          simp only [BusState.rejectedInTime, BusState.matched_eq found, state, unpacked] at inTime
          simpa using inTime
        | true =>
          refine absurd ?_ kept
          generalize t.heap = heap, t.conns = conns at moved
          cases listenerStep_cases moved with
          | receives _ _ _ rx heap atLoop tracked processed =>
            exact processUnpackedMessage_accepted processed found state unpacked
      | handle env =>
        simp only [Listener.rxEvent] at event
        split at event <;> cases event
      | _ => cases event
  | run k _ listeners heap =>
    intro l i
    rw [listeners, heap]
    exact ready l i

/-- The assertions of `retry_delivery` hold of such a cell. -/
theorem retryDelivery_ready {t : RxTable} {h : Heap} {i : Nat} {box : Option Nat} {hasResult : Bool} {result : UnpackRes}
    (state : t.state i = .expect box .readyForDelivery hasResult result) (ready : (t.state i).readyWith h.boxes)
    (accepted : Bool) : retryDelivery accepted t h i ≠ none := by
  rw [state] at ready
  obtain ⟨b, rfl, _, _, carries⟩ := ready
  have success := carries.status
  cases accepted <;>
    simp [retryDelivery, show (t.rxInfo i).state = _ from state, success, processBoxedMessage, releaseRxInfo_done]

section Ready
variable {n : Nat} {s : BusState}

theorem readyCells_of_reach (reach : Reach busStep (.new n) (fun s label => s.rejectedInTime label = true) s) :
    s.readyCells := by
  induction reach with
  | start => exact fun _ _ => trivial
  | next before inTime taken ih =>
    exact readyCells_step ih (status_invariant before) (bus_invariant before).2 inTime taken

/-- In every run in which no response comes after a timeout or a failure and is turned away by the thread pool, each cell
that is ready for delivery has a box with success and the response of the cell, and `retry_delivery` can go on. -/
theorem ready_cell_carries_response
    (reach : Reach busStep (.new n) (fun s label => s.rejectedInTime label = true) s) (l i : Nat) (box : Option Nat)
    (hasResult : Bool) (result : UnpackRes)
    (ready : (s.listeners l).rx.state i = .expect box .readyForDelivery hasResult result) :
    (∃ b, box = some b ∧ (s.heap.boxes b).status = .success ∧ (s.heap.boxes b).responseSeqId = result.seqId ∧
      (s.heap.boxes b).responseMsg = result.msg) ∧
      ∀ accepted, retryDelivery accepted (s.listeners l).rx s.heap i ≠ none := by
  have cells := readyCells_of_reach reach l i
  refine ⟨?_, retryDelivery_ready ready cells⟩
  rw [ready] at cells
  obtain ⟨b, held, _, _, carries⟩ := cells
  exact ⟨b, held, carries.status, carries.seqId, carries.msg⟩

/-- A response is turned away by the thread pool, in time. -/
theorem ready_cell_carries_response_rejected :
    ∃ s, Reach busStep (.new 1) (fun s label => s.rejectedInTime label = true) s ∧
      (s.listeners 0).rx.state 0 = .expect (some 0) .readyForDelivery true ⟨true, 7, 0⟩ ∧
      (∃ b, some 0 = some b ∧ (s.heap.boxes b).status = .success ∧ (s.heap.boxes b).responseSeqId = 0 ∧
        (s.heap.boxes b).responseMsg = 7) ∧
      ∀ accepted, retryDelivery accepted (s.listeners 0).rx s.heap 0 ≠ none := by
  have trace : (exec busStep (fun s label => decide (s.rejectedInTime label = true)) (.new 1)
      (registerSteps 0 5 ++ sendSteps 0 ⟨5, 0, 1, [1, 2]⟩ ++ [BusLabel.listener 0 (.recv 0 ⟨true, 7, 0⟩ false)])).map
      (fun s => (s.listeners 0).rx.state 0) = some (.expect (some 0) .readyForDelivery true ⟨true, 7, 0⟩) := by
    decide +kernel
  obtain ⟨s, reach, ready⟩ := exists_reach_of_exec trace
  exact ⟨s, reach, ready, ready_cell_carries_response reach 0 0 _ _ _ ready⟩

/-- The pool turns away the timeout of a request, and then its late response. The cell is ready for delivery with a box
that has timed out, and the assertion of `retry_delivery` fails in the next tick. -/
theorem ready_cell_timed_out :
    ∃ s, Reach busStep (.new 1) (fun _ _ => True) s ∧
      (s.listeners 0).rx.state 0 = .expect (some 0) .readyForDelivery true ⟨true, 7, 0⟩ ∧
      (s.heap.boxes 0).status = .rxTimeout ∧ retryDelivery true (s.listeners 0).rx s.heap 0 = none := by
  have trace : (exec busStep (fun _ _ => decide True) (.new 1)
      (registerSteps 0 5 ++ sendSteps 0 ⟨5, 0, 1, [1, 2]⟩ ++
        [BusLabel.listener 0 .tick, .listener 0 (.tickCell true false), .listener 0 (.tickCell true false),
          .listener 0 (.recv 0 ⟨true, 7, 0⟩ false)])).map
      (fun s => ((s.listeners 0).rx.state 0, (s.heap.boxes 0).status,
        (retryDelivery true (s.listeners 0).rx s.heap 0).isNone)) =
      some (.expect (some 0) .readyForDelivery true ⟨true, 7, 0⟩, .rxTimeout, true) := by decide +kernel
  obtain ⟨s, reach, seen⟩ := exists_reach_of_exec trace
  simp only [Prod.mk.injEq] at seen
  obtain ⟨state, status, stuck⟩ := seen
  exact ⟨s, reach, state, status, Option.isNone_iff_eq_none.mp stuck⟩

end Ready

end Kinetic
