import Kinetic.Listener.Boxes

namespace Kinetic
open Function (update)

def RxTable.state (t : RxTable) (i : Nat) : RxInfoState := (t.rxInfo i).state

/-- What the listener is about when it works on its table. -/
inductive RxEvent
  | quiet
  | tick
  | hold (fd seqId : Int)
  | expect (b : Nat)
  | recv (fd : Int) (result : UnpackRes)
  | error (fd : Int) (err : RxError)
  deriving DecidableEq

/-- The box as `ListenerTask_AttemptDelivery` leaves it. -/
def BoxedMsg.delivered (box : BoxedMsg) (result : UnpackRes) : BoxedMsg :=
  { box with status := deliveredStatus box.status, responseSeqId := result.seqId, responseMsg := result.msg }

theorem deliveredStatus_of_ne {status : BusSendStatus} (other : deliveredStatus status ≠ .success) :
    deliveredStatus status = status := by
  unfold deliveredStatus at other ⊢
  split
  · exact absurd rfl other
  · rfl

/-- A box is offered to the thread pool with these contents, from a cell that is left in this state if the pool is full. -/
inductive Offer (t : RxTable) (h : Heap) (i b : Nat) : RxEvent → BoxedMsg → RxInfoState → Prop
  | retries (error : RxError) (hasResult : Bool) (result : UnpackRes) :
      t.state i = .expect (some b) error hasResult result → error = .readyForDelivery ∨ error = .done →
      (h.boxes b).status = .success → Offer t h i b .tick (h.boxes b) (t.state i)
  | expires (hasResult : Bool) (result : UnpackRes) : t.state i = .expect (some b) .none hasResult result →
      Offer t h i b .tick { h.boxes b with status := .rxTimeout } (t.state i)
  | fails (error : RxError) (hasResult : Bool) (result : UnpackRes) :
      t.state i = .expect (some b) error hasResult result → error.negative = true →
      Offer t h i b .tick { h.boxes b with status := .rxFailure } (t.state i)
  | receives (error : RxError) (hasResult : Bool) (old result : UnpackRes) :
      t.state i = .expect (some b) error hasResult old → old.ok = false → result.ok = true →
      (h.boxes b).outSeqId = result.seqId → findInfoBySequenceId t h.boxes (h.boxes b).fd result.seqId = some i →
      Offer t h i b (.recv (h.boxes b).fd result) ((h.boxes b).delivered result)
        (.expect (some b) .readyForDelivery true result)
  | pairsResult (result : UnpackRes) : t.state i = .hold (h.boxes b).fd (h.boxes b).outSeqId true result .none →
      result.ok = true → findInfoBySequenceId t h.boxes (h.boxes b).fd (h.boxes b).outSeqId = some i →
      Offer t h i b (.expect b) ((h.boxes b).delivered result)
        (.expect (some b) .readyForDelivery true result)
  | pairsError (hasResult : Bool) (result : UnpackRes) (error : RxError) :
      t.state i = .hold (h.boxes b).fd (h.boxes b).outSeqId hasResult result error → error ≠ .none →
      findInfoBySequenceId t h.boxes (h.boxes b).fd (h.boxes b).outSeqId = some i →
      Offer t h i b (.expect b) { h.boxes b with status := .rxFailure }
        (.expect (some b) error (staleHasResult (h.boxes b).outSeqId) result)

/-- The pool takes the box, and its cell is free, or it does not. -/
structure Offered (accepted : Bool) (t : RxTable) (h : Heap) (i b : Nat) (box : BoxedMsg) (after : RxInfoState)
    (t' : RxTable) (h' : Heap) : Prop where
  boxes : h'.boxes = update h.boxes b box
  scheduled : h'.scheduled = if accepted then h.scheduled ++ [b] else h.scheduled
  cells : t'.state = update t.state i (if accepted then .inactive else after)

/-- There is nothing in the table for the listener to work on. -/
def RxEvent.misses (t : RxTable) (boxes : Nat → BoxedMsg) : RxEvent → Prop
  | .hold _ _ => t.rxInfoFreelist = []
  | .expect b => findInfoBySequenceId t boxes (boxes b).fd (boxes b).outSeqId = none
  | .recv fd result => result.ok = true → findInfoBySequenceId t boxes fd result.seqId = none
  | .error _ _ => False
  | _ => True

/-- Everything the listener can do to its cells and to the boxes in them. -/
inductive RxMove (t : RxTable) (h : Heap) (t' : RxTable) (h' : Heap) : RxEvent → Prop
  | keeps (e : RxEvent) : t'.state = t.state → h' = h → e.misses t h.boxes → RxMove t h t' h' e
  | frees (i : Nat) : t.state i ≠ .inactive → t.box i = none → t'.state = update t.state i .inactive → h' = h →
      RxMove t h t' h' .tick
  | holds (i : Nat) (fd seqId : Int) : t.rxInfoFreelist.head? = some i → t.state i = .inactive →
      t'.state = update t.state i (.hold fd seqId false .zero .none) → h' = h → RxMove t h t' h' (.hold fd seqId)
  | saves (i : Nat) (fd seqId : Int) (old result : UnpackRes) (error : RxError) :
      t.state i = .hold fd seqId false old error → result.ok = true → seqId = result.seqId →
      findInfoBySequenceId t h.boxes fd result.seqId = some i →
      t'.state = update t.state i (.hold fd seqId true result error) → h' = h → RxMove t h t' h' (.recv fd result)
  | errs (fd : Int) (err : RxError) : err.negative = true → t' = t.setErrorForSocket h.boxes fd err → h' = h →
      RxMove t h t' h' (.error fd err)
  | pairs (i b : Nat) (result : UnpackRes) :
      t.state i = .hold (h.boxes b).fd (h.boxes b).outSeqId false result .none →
      findInfoBySequenceId t h.boxes (h.boxes b).fd (h.boxes b).outSeqId = some i →
      t'.state = update t.state i (.expect (some b) .none false .zero) → h' = h → RxMove t h t' h' (.expect b)
  | offers (e : RxEvent) (i b : Nat) (box : BoxedMsg) (after : RxInfoState) (accepted : Bool) : Offer t h i b e box after →
      Offered accepted t h i b box after t' h' → RxMove t h t' h' e

@[simp] theorem RxTable.state_set (t : RxTable) (i : Nat) (info : RxInfo) :
    (t.set i info).state = update t.state i info.state := by
  funext j
  by_cases same : j = i
  · subst same
    simp [RxTable.state, RxTable.set]
  · simp [RxTable.state, RxTable.set, same]

@[simp] theorem RxTable.state_setState (t : RxTable) (i : Nat) (state : RxInfoState) :
    (t.setState i state).state = update t.state i state := by
  simp [RxTable.setState]

theorem freeRxInfo_state (t : RxTable) (i : Nat) : (freeRxInfo t i).state = update t.state i .inactive :=
  RxTable.state_setState t i .inactive

theorem RxTable.box_state (t : RxTable) (i : Nat) : t.box i = (t.state i).box := rfl

theorem releaseRxInfo_done (t : RxTable) (i : Nat) (hasResult : Bool) (result : UnpackRes) :
    releaseRxInfo (t.setState i (.expect none .done hasResult result)) i =
      some (freeRxInfo (t.setState i (.expect none .done hasResult result)) i) := by
  have state : ((t.setState i (.expect none .done hasResult result)).rxInfo i).state = .expect none .done hasResult result := by
    simp [RxTable.setState, RxTable.set]
  simp [releaseRxInfo, state]

/-- Handing a box to the pool and then releasing its cell, or leaving the cell as it is if the pool is full. -/
theorem Offered.of_process {accepted : Bool} {t filled t' : RxTable} {h h' : Heap} {i b : Nat} {box : BoxedMsg}
    {hasResult : Bool} {result : UnpackRes} {after : RxInfoState} (cells : filled.state = update t.state i after)
    (run : (do
      let h ← processBoxedMessage accepted (h.setBox b box) b
      if accepted then
        let t ← releaseRxInfo (filled.setState i (.expect none .done hasResult result)) i
        some (t, h)
      else some (filled, h)) = some (t', h')) : Offered accepted t h i b box after t' h' := by
  obtain ⟨offered, scheduled, run⟩ := Option.bind_eq_some_iff.mp run
  have log := processBoxedMessage_scheduled scheduled
  have boxes : offered.boxes = update h.boxes b box := by
    unfold processBoxedMessage at scheduled
    split at scheduled
    · cases scheduled
    · split at scheduled <;> cases scheduled <;> rfl
  cases accepted with
  | false =>
    cases run
    exact ⟨boxes, log, cells⟩
  | true =>
    rw [releaseRxInfo_done] at run
    cases run
    refine ⟨boxes, log, ?_⟩
    rw [freeRxInfo_state, RxTable.state_setState, cells, Function.update_idem, Function.update_idem]
    rfl

theorem Heap.setBox_self (h : Heap) (b : Nat) : h.setBox b (h.boxes b) = h := by
  rw [Heap.setBox, Function.update_eq_self]

theorem retryDelivery_move {accepted : Bool} {t t' : RxTable} {h h' : Heap} {i : Nat}
    (run : retryDelivery accepted t h i = some (t', h')) : RxMove t h t' h' .tick := by
  unfold retryDelivery at run
  split at run
  · rename_i b hasResult result state
    split at run
    · rename_i success
      rw [← h.setBox_self b] at run
      exact .offers _ i b _ _ accepted (.retries _ hasResult result state (.inl rfl) success)
        (.of_process (Function.update_eq_self i t.state).symm run)
    · cases run
  · cases run

theorem cleanUpCompletedInfo_move {accepted : Bool} {t t' : RxTable} {h h' : Heap} {i : Nat}
    (run : cleanUpCompletedInfo accepted t h i = some (t', h')) : RxMove t h t' h' .tick := by
  unfold cleanUpCompletedInfo at run
  split at run
  · rename_i b hasResult result state
    split at run
    · rename_i success
      rw [← h.setBox_self b] at run
      exact .offers _ i b _ _ accepted (.retries _ hasResult result state (.inr rfl) success)
        (.of_process (Function.update_eq_self i t.state).symm run)
    · cases run
  · rename_i hasResult result state
    obtain ⟨released, freed, run⟩ := Option.bind_eq_some_iff.mp run
    cases run
    rw [releaseRxInfo, state] at freed
    cases freed
    refine .frees i (by rw [RxTable.state, state]; simp) (RxTable.box_eq state) (freeRxInfo_state t i) rfl
  · cases run

theorem notifyMessageFailure_offered {accepted : Bool} {t filled t' : RxTable} {h h' : Heap} {i b : Nat} {error : RxError}
    {hasResult : Bool} {result : UnpackRes} {status : BusSendStatus}
    (cells : filled.state = update t.state i (.expect (some b) error hasResult result))
    (run : notifyMessageFailure accepted filled h i status = some (t', h')) :
    Offered accepted t h i b { h.boxes b with status := status } (.expect (some b) error hasResult result) t' h' := by
  have state : (filled.rxInfo i).state = .expect (some b) error hasResult result := by
    have here := congrFun cells i
    rwa [Function.update_self] at here
  rw [notifyMessageFailure, state] at run
  dsimp only at run
  split at run
  · cases run
  · exact .of_process cells run

theorem attemptDelivery_offered {accepted : Bool} {t filled t' : RxTable} {h h' : Heap} {i b : Nat} {error : RxError}
    {hasResult : Bool} {result : UnpackRes}
    (cells : filled.state = update t.state i (.expect (some b) error hasResult result))
    (run : attemptDelivery accepted filled h i = some (t', h')) :
    result.ok = true ∧
      Offered accepted t h i b ((h.boxes b).delivered result) (.expect (some b) error hasResult result) t' h' := by
  have state : (filled.rxInfo i).state = .expect (some b) error hasResult result := by
    have here := congrFun cells i
    rwa [Function.update_self] at here
  rw [attemptDelivery, state] at run
  dsimp only at run
  split at run
  · rename_i unpacked
    simp only [cleanUpCompletedInfo_done] at run
    exact ⟨unpacked.2, .of_process cells run⟩
  · cases run

theorem RxError.negative_of_ne {error : RxError} (errored : error ≠ .none) (notReady : error ≠ .readyForDelivery)
    (notDone : error ≠ .done) : error.negative = true := by
  cases error with
  | none => exact absurd rfl errored
  | readyForDelivery => exact absurd rfl notReady
  | done => exact absurd rfl notDone
  | _ => rfl

theorem tickCell_move {clock accepted : Bool} {t t' : RxTable} {h h' : Heap} {i : Nat}
    (run : tickCell clock accepted t h i = some (t', h')) : RxMove t h t' h' .tick := by
  have counted (timeoutSec : Int) : (t.set i { t.rxInfo i with timeoutSec := timeoutSec }).state = t.state := by
    rw [RxTable.state_set]
    exact Function.update_eq_self i t.state
  have same : t.state = update t.state i (t.state i) := (Function.update_eq_self i t.state).symm
  simp only [tickCell] at run
  split at run
  · cases run
    exact .keeps _ rfl rfl trivial
  · rename_i state
    split at run
    · split at run
      · obtain ⟨released, freed, run⟩ := Option.bind_eq_some_iff.mp run
        cases run
        rw [releaseRxInfo, state] at freed
        cases freed
        exact .frees i (by rw [RxTable.state, state]; simp) (RxTable.box_eq state) (freeRxInfo_state t i) rfl
      · cases run
        exact .keeps _ rfl rfl trivial
    · cases run
      exact .keeps _ (counted _) rfl trivial
  · rename_i box error hasResult result state
    split at run
    · exact retryDelivery_move run
    rename_i notReady
    split at run
    · exact cleanUpCompletedInfo_move run
    rename_i notDone
    cases box with
    | none =>
      have noBox : notifyMessageFailure accepted t h i .rxFailure = none ∧
          notifyMessageFailure accepted t h i .rxTimeout = none := by
        simp [notifyMessageFailure, state]
      split at run
      · rw [noBox.1] at run
        cases run
      split at run
      · split at run
        · rw [noBox.2] at run
          cases run
        · cases run
          exact .keeps _ rfl rfl trivial
      · cases run
        exact .keeps _ (counted _) rfl trivial
    | some b =>
      have cells : t.state = update t.state i (.expect (some b) error hasResult result) := by
        rw [← state]
        exact same
      split at run
      · rename_i errored
        have negative := RxError.negative_of_ne errored notReady notDone
        have offered := notifyMessageFailure_offered cells run
        rw [← state] at offered
        exact .offers _ i b _ _ accepted (.fails error hasResult result state negative) offered
      rename_i noError
      have clear : error = .none := not_not.mp noError
      subst clear
      split at run
      · split at run
        · have offered := notifyMessageFailure_offered cells run
          rw [← state] at offered
          exact .offers _ i b _ _ accepted (.expires hasResult result state) offered
        · cases run
          exact .keeps _ rfl rfl trivial
      · cases run
        exact .keeps _ (counted _) rfl trivial

theorem getFreeRxInfo_head {t t' : RxTable} {cell : Option Nat} (run : getFreeRxInfo t = some (cell, t')) :
    t.rxInfoFreelist.head? = cell := by
  unfold getFreeRxInfo at run
  split at run
  · rename_i empty
    cases run
    rw [empty]
    rfl
  · rename_i head next free
    rw [free]
    simp only at run
    split at run
    · cases run
    · split at run
      · split at run
        · cases run
          rfl
        · cases run
      · cases run
        rfl

theorem holdResponse_move {t t' : RxTable} {h : Heap} {fd seqId timeoutSec : Int}
    (run : holdResponse t fd seqId timeoutSec = some t') : RxMove t h t' h (.hold fd seqId) := by
  obtain ⟨⟨cell, reserved⟩, got, run⟩ := Option.bind_eq_some_iff.mp run
  obtain ⟨cells, inactive⟩ := getFreeRxInfo_cells got
  have head := getFreeRxInfo_head got
  have same : reserved.state = t.state := by
    funext i
    rw [RxTable.state, cells, RxTable.state]
  cases cell with
  | none =>
    cases run
    exact .keeps _ same rfl (List.head?_eq_none_iff.mp head)
  | some i =>
    cases run
    refine .holds i fd seqId head (inactive i rfl) ?_ rfl
    rw [RxTable.state_set, same]

/-- The cell that `FindInfoBySequenceID` comes upon. -/
theorem findInfoBySequenceId_isFor {t : RxTable} {boxes : Nat → BoxedMsg} {fd seqId : Int} {i : Nat}
    (found : findInfoBySequenceId t boxes fd seqId = some i) : (t.rxInfo i).isFor boxes fd seqId = true :=
  List.find?_some (p := fun i => (t.rxInfo i).isFor boxes fd seqId) found

theorem expectResponse_move {accepted : Bool} {t t' : RxTable} {h h' : Heap} {b : Nat}
    (run : expectResponse accepted t h b = some (t', h')) : RxMove t h t' h' (.expect b) := by
  unfold expectResponse at run
  split at run
  · rename_i missing
    cases run
    exact .keeps _ rfl rfl missing
  · rename_i i found
    have isFor := findInfoBySequenceId_isFor found
    split at run
    · rename_i state
      simp [RxInfo.isFor, state] at isFor
    · cases run
    · rename_i fd seqId hasResult result error state
      simp only [RxInfo.isFor, state, decide_eq_true_eq] at isFor
      obtain ⟨rfl, rfl⟩ := isFor
      split at run
      · rename_i held
        obtain ⟨rfl, rfl⟩ := held
        split at run
        · cases run
        · obtain ⟨unpacked, offered⟩ := attemptDelivery_offered (RxTable.state_setState t i _) run
          exact .offers _ i b _ _ accepted (.pairsResult result state unpacked found) offered
      · rename_i notHeld
        split at run
        · rename_i errored
          have offered := notifyMessageFailure_offered (RxTable.state_setState t i _) run
          exact .offers _ i b _ _ accepted (.pairsError hasResult result error state errored found) offered
        · rename_i noError
          have clear : error = .none := not_not.mp noError
          subst clear
          have empty : hasResult = false := by
            cases hasResult with
            | false => rfl
            | true => exact absurd ⟨rfl, rfl⟩ notHeld
          subst empty
          cases run
          exact .pairs i b result state found (RxTable.state_set t i _) rfl

theorem processUnpackedMessage_move {accepted : Bool} {t t' : RxTable} {h h' : Heap} {fd : Int} {result : UnpackRes}
    (run : processUnpackedMessage accepted t h fd result = some (t', h')) : RxMove t h t' h' (.recv fd result) := by
  unfold processUnpackedMessage at run
  split at run
  · rename_i unpacked
    split at run
    · rename_i missing
      cases run
      exact .keeps _ rfl rfl fun _ => missing
    · rename_i i found
      have isFor := findInfoBySequenceId_isFor found
      simp only at run
      split at run
      · cases run
      · rename_i heldFd seqId hasResult old error state
        simp only [RxInfo.isFor, state, decide_eq_true_eq] at isFor
        obtain ⟨rfl, same⟩ := isFor
        split at run
        · cases run
        · rename_i empty
          have noResult : hasResult = false := by
            simpa [RxInfoState.holdHasResult, state] using empty
          subst noResult
          cases run
          exact .saves i heldFd seqId old result error state unpacked same found (RxTable.state_setState t i _) rfl
      · rename_i box error hasResult old state
        split at run
        · cases run
        · rename_i empty
          have noResult : old.ok = false := by
            simpa [RxInfoState.holdHasResult, state] using empty
          cases box with
          | none => simp [RxInfo.isFor, state] at isFor
          | some b =>
            simp only [RxInfo.isFor, state, decide_eq_true_eq] at isFor
            obtain ⟨seq, rfl⟩ := isFor
            have offered := (attemptDelivery_offered (RxTable.state_setState t i _) run).2
            exact .offers _ i b _ _ accepted (.receives error hasResult old result state noResult unpacked seq found) offered
  · rename_i failed
    cases run
    exact .keeps _ rfl rfl fun unpacked => absurd unpacked failed

/-- A response to an `EXPECT` that the pool takes frees the cell. -/
theorem processUnpackedMessage_accepted {t t' : RxTable} {h h' : Heap} {fd : Int} {result old : UnpackRes} {i b : Nat}
    {error : RxError} {hasResult : Bool} (run : processUnpackedMessage true t h fd result = some (t', h'))
    (found : findInfoBySequenceId t h.boxes fd result.seqId = some i)
    (state : t.state i = .expect (some b) error hasResult old) (unpacked : result.ok = true) : t'.state i = .inactive := by
  simp only [processUnpackedMessage, unpacked, if_true, found, show (t.rxInfo i).state = _ from state] at run
  split at run
  · cases run
  · have offered := (attemptDelivery_offered (RxTable.state_setState t i _) run).2
    rw [offered.cells, Function.update_self]
    rfl

/-- A listener works on the boxes in its cells, and on that of the `EXPECT` it executes. -/
theorem RxMove.boxes_of_ne {t t' : RxTable} {h h' : Heap} {e : RxEvent} (move : RxMove t h t' h' e) {x : Nat}
    (absent : ∀ i, t.box i ≠ some x) (notExpected : e ≠ .expect x) : h'.boxes x = h.boxes x := by
  cases move with
  | offers e i b box after accepted offer offered =>
    have distinct : x ≠ b := by
      rintro rfl
      cases offer with
      | pairsResult => exact notExpected rfl
      | pairsError => exact notExpected rfl
      | retries _ _ _ state => exact absent i (RxTable.box_eq state)
      | expires _ _ state => exact absent i (RxTable.box_eq state)
      | fails _ _ _ state => exact absent i (RxTable.box_eq state)
      | receives _ _ _ _ state => exact absent i (RxTable.box_eq state)
    rw [offered.boxes, Function.update_of_ne distinct]
  | keeps e _ same => rw [same]
  | frees i _ _ _ same => rw [same]
  | holds i fd seqId _ _ _ same => rw [same]
  | saves i fd seqId old result error _ _ _ _ _ same => rw [same]
  | errs fd err _ _ same => rw [same]
  | pairs i b result _ _ _ same => rw [same]

/-- No step of a listener changes which request a box is for. -/
theorem RxMove.identity {t t' : RxTable} {h h' : Heap} {e : RxEvent} (move : RxMove t h t' h' e) (x : Nat) :
    (h'.boxes x).fd = (h.boxes x).fd ∧ (h'.boxes x).outSeqId = (h.boxes x).outSeqId := by
  cases move with
  | offers e i b box after accepted offer offered =>
    have same : box.fd = (h.boxes b).fd ∧ box.outSeqId = (h.boxes b).outSeqId := by
      cases offer <;> exact ⟨rfl, rfl⟩
    rw [offered.boxes, Function.update_apply]
    split
    · rename_i here
      rw [here]
      exact same
    · exact ⟨rfl, rfl⟩
  | keeps e _ same => rw [same]; exact ⟨rfl, rfl⟩
  | frees i _ _ _ same => rw [same]; exact ⟨rfl, rfl⟩
  | holds i fd seqId _ _ _ same => rw [same]; exact ⟨rfl, rfl⟩
  | saves i fd seqId old result error _ _ _ _ _ same => rw [same]; exact ⟨rfl, rfl⟩
  | errs fd err _ _ same => rw [same]; exact ⟨rfl, rfl⟩
  | pairs i b result _ _ _ same => rw [same]; exact ⟨rfl, rfl⟩

/-- What every cell is like. -/
def RxInfoState.wellFormed : RxInfoState → Prop
  | .inactive => True
  | .hold _ _ hasResult result error => (hasResult = true → result.ok = true) ∧ (error ≠ .none → error.negative = true)
  | .expect box error _ _ => box ≠ none ∧ error ≠ .done

theorem RxInfo.setError_wellFormed {info : RxInfo} (formed : info.state.wellFormed) (boxes : Nat → BoxedMsg) (fd : Int)
    {err : RxError} (negative : err.negative = true) : (info.setError boxes fd err).state.wellFormed := by
  have notDone : err ≠ .done := by
    rintro rfl
    cases negative
  unfold RxInfo.setError
  split
  · rw [‹info.state = _›]
    trivial
  · rename_i state
    rw [state] at formed
    exact ⟨formed.1, fun _ => negative⟩
  · exact formed
  · rename_i b error hasResult result state
    rw [state] at formed
    refine ⟨by simp, ?_⟩
    split
    · exact notDone
    · exact formed.2

theorem RxTable.setErrorForSocket_state (t : RxTable) (boxes : Nat → BoxedMsg) (fd : Int) (err : RxError) (i : Nat) :
    (t.setErrorForSocket boxes fd err).state i =
      if i ≤ t.rxInfoMaxUsed then ((t.rxInfo i).setError boxes fd err).state else t.state i := by
  simp only [RxTable.state, RxTable.setErrorForSocket]
  split <;> rfl

/-- What holds of every cell holds after a change of one cell to a state of which it holds. -/
theorem update_state {state state' : Nat → RxInfoState} {i : Nat} {new : RxInfoState} {P : RxInfoState → Prop}
    (changed : state' = update state i new) (before : ∀ j, P (state j)) (here : P new) (j : Nat) : P (state' j) := by
  rw [changed, Function.update_apply]
  split
  · exact here
  · exact before j

theorem RxMove.wellFormed {t t' : RxTable} {h h' : Heap} {e : RxEvent} (move : RxMove t h t' h' e)
    (formed : ∀ i, (t.state i).wellFormed) (i : Nat) : (t'.state i).wellFormed := by
  cases move with
  | keeps e same => rw [same]; exact formed i
  | frees j _ _ cells => exact update_state cells formed trivial i
  | holds j fd seqId _ _ cells => exact update_state cells formed ⟨by simp, by simp⟩ i
  | saves j fd seqId old result error held unpacked _ _ cells =>
    have kept := formed j
    rw [held] at kept
    exact update_state cells formed ⟨fun _ => unpacked, kept.2⟩ i
  | errs fd err negative same =>
    rw [same, RxTable.setErrorForSocket_state]
    split
    · exact RxInfo.setError_wellFormed (formed i) h.boxes fd negative
    · exact formed i
  | pairs j b result _ _ cells => exact update_state cells formed ⟨by simp, by simp⟩ i
  | offers e j b box after accepted offer offered =>
    refine update_state offered.cells formed ?_ i
    split
    · trivial
    · cases offer with
      | retries => exact formed j
      | expires => exact formed j
      | fails => exact formed j
      | receives => exact ⟨by simp, by simp⟩
      | pairsResult => exact ⟨by simp, by simp⟩
      | pairsError hasResult result error state errored =>
        have kept := formed j
        rw [state] at kept
        refine ⟨by simp, fun done => ?_⟩
        have negative := kept.2 errored
        rw [done] at negative
        cases negative

/-- A cell in use was in use before, or has just been filled for a `HOLD`. -/
theorem RxMove.active_origin {t t' : RxTable} {h h' : Heap} {e : RxEvent} (move : RxMove t h t' h' e) {i : Nat}
    (active : t'.state i ≠ .inactive) :
    t.state i ≠ .inactive ∨
      ∃ fd seqId, e = .hold fd seqId ∧ t.rxInfoFreelist.head? = some i ∧
        t'.state = update t.state i (.hold fd seqId false .zero .none) := by
  have changed {j : Nat} {new : RxInfoState} (state : t'.state = update t.state j new)
      (before : t.state j ≠ .inactive) : t.state i ≠ .inactive := by
    by_cases here : i = j
    · rw [here]
      exact before
    · rwa [state, Function.update_of_ne here] at active
  cases move with
  | keeps e state => rw [state] at active; exact .inl active
  | frees j before _ state => exact .inl (changed state before)
  | holds j fd seqId head _ state =>
    by_cases here : i = j
    · subst here
      exact .inr ⟨fd, seqId, rfl, head, state⟩
    · rw [state, Function.update_of_ne here] at active
      exact .inl active
  | saves j fd seqId old result error held _ _ _ state => exact .inl (changed state (by rw [held]; simp))
  | errs fd err _ same =>
    refine .inl fun inactive => active ?_
    rw [same, RxTable.setErrorForSocket_state]
    split
    · rw [RxInfo.setError, show (t.rxInfo i).state = _ from inactive]
      exact inactive
    · exact inactive
  | pairs j b result held _ state => exact .inl (changed state (by rw [held]; simp))
  | offers e j b box after accepted offer offered =>
    refine .inl (changed offered.cells ?_)
    cases offer with
    | retries error hasResult result state => rw [state]; simp
    | expires hasResult result state => rw [state]; simp
    | fails error hasResult result state => rw [state]; simp
    | receives error hasResult old result state => rw [state]; simp
    | pairsResult result state => rw [state]; simp
    | pairsError hasResult result error state => rw [state]; simp

end Kinetic
