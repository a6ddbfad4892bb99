import Kinetic.Listener.Commands

namespace Kinetic
open Function (update)

def RxInfoState.box : RxInfoState → Option Nat
  | .expect box _ _ _ => box
  | _ => none

/-- The box in each cell. -/
def RxTable.box (t : RxTable) (i : Nat) : Option Nat := (t.rxInfo i).state.box

/-- Whether `FindInfoBySequenceID` comes upon a `HOLD` cell for the box. -/
def RxTable.holdsFor (t : RxTable) (boxes : Nat → BoxedMsg) (b : Nat) : Bool :=
  match findInfoBySequenceId t boxes (boxes b).fd (boxes b).outSeqId with
  | some i =>
    match (t.rxInfo i).state with
    | .hold .. => true
    | _ => false
  | none => false

/-- The listener leaves every box in its cell, or hands the box of the cell `i` to the thread pool. -/
inductive Delivers (i : Nat) (t : RxTable) (h : Heap) (t' : RxTable) (h' : Heap) : Prop
  | kept : t'.box = t.box → h'.scheduled = h.scheduled → Delivers i t h t' h'
  | delivered (b : Nat) : t.box i = some b → t'.box = update t.box i none →
      h'.scheduled = h.scheduled ++ [b] → Delivers i t h t' h'

/-- The listener takes a box from a client: it puts it in an empty cell or hands it to the thread pool at once. -/
inductive Takes (b : Nat) (t : RxTable) (h : Heap) (t' : RxTable) (h' : Heap) : Prop
  | stored (i : Nat) : t.box i = none → t'.box = update t.box i (some b) → h'.scheduled = h.scheduled →
      Takes b t h t' h'
  | delivered : t'.box = t.box → h'.scheduled = h.scheduled ++ [b] → Takes b t h t' h'

@[simp] theorem RxTable.box_set (t : RxTable) (i : Nat) (info : RxInfo) :
    (t.set i info).box = update t.box i info.state.box := by
  funext j
  by_cases same : j = i
  · subst same
    simp [RxTable.box, RxTable.set]
  · simp [RxTable.box, RxTable.set, same]

@[simp] theorem RxTable.box_setState (t : RxTable) (i : Nat) (state : RxInfoState) :
    (t.setState i state).box = update t.box i state.box := by
  simp [RxTable.setState]

theorem freeRxInfo_box (t : RxTable) (i : Nat) : (freeRxInfo t i).box = update t.box i none :=
  RxTable.box_setState t i .inactive

/-- A cell is released only without a box. -/
theorem releaseRxInfo_box {t t' : RxTable} {i : Nat} (run : releaseRxInfo t i = some t') :
    t.box i = none ∧ t'.box = t.box := by
  unfold releaseRxInfo at run
  have empty : t.box i = none ∧ t' = freeRxInfo t i := by
    split at run
    · cases run
    · rename_i state
      cases run
      simp [RxTable.box, state, RxInfoState.box]
    · rename_i state
      split at run
      · rename_i finished
        cases run
        simp [RxTable.box, state, RxInfoState.box, finished.2]
      · cases run
  refine ⟨empty.1, ?_⟩
  rw [empty.2, freeRxInfo_box, ← empty.1, Function.update_eq_self]

theorem processBoxedMessage_scheduled {accepted : Bool} {h h' : Heap} {b : Nat}
    (run : processBoxedMessage accepted h b = some h') :
    h'.scheduled = if accepted then h.scheduled ++ [b] else h.scheduled := by
  unfold processBoxedMessage at run
  split at run
  · cases run
  · cases accepted with
    | true => cases run; rfl
    | false => cases run; rfl

/-- Handing the box of a cell to the pool and then releasing the cell, or leaving it with its box if the pool is full. -/
theorem Delivers.of_process {accepted : Bool} {t t' : RxTable} {h h' before : Heap} {i b : Nat} {hasResult : Bool}
    {result : UnpackRes} (held : t.box i = some b)
    (run : (do
      let h ← processBoxedMessage accepted before b
      if accepted then
        let t ← releaseRxInfo (t.setState i (.expect none .done hasResult result)) i
        some (t, h)
      else some (t, h)) = some (t', h')) (same : before.scheduled = h.scheduled) : Delivers i t h t' h' := by
  obtain ⟨after, scheduled, run⟩ := Option.bind_eq_some_iff.mp run
  have log := processBoxedMessage_scheduled scheduled
  rw [same] at log
  cases accepted with
  | false =>
    cases run
    exact .kept rfl log
  | true =>
    obtain ⟨released, freed, run⟩ := Option.bind_eq_some_iff.mp run
    cases run
    refine .delivered b held ?_ log
    rw [(releaseRxInfo_box freed).2]
    exact RxTable.box_setState t i _

theorem RxTable.box_eq {t : RxTable} {i : Nat} {state : RxInfoState} (atCell : (t.rxInfo i).state = state) :
    t.box i = state.box := by
  rw [RxTable.box, atCell]

theorem retryDelivery_delivers {accepted : Bool} {t t' : RxTable} {h h' : Heap} {i : Nat}
    (run : retryDelivery accepted t h i = some (t', h')) : Delivers i t h t' h' := by
  unfold retryDelivery at run
  split at run
  · rename_i b hasResult result state
    split at run
    · exact .of_process (RxTable.box_eq state) run rfl
    · cases run
  · cases run

theorem cleanUpCompletedInfo_delivers {accepted : Bool} {t t' : RxTable} {h h' : Heap} {i : Nat}
    (run : cleanUpCompletedInfo accepted t h i = some (t', h')) : Delivers i t h t' h' := by
  unfold cleanUpCompletedInfo at run
  split at run
  · rename_i b hasResult result state
    split at run
    · exact .of_process (RxTable.box_eq state) run rfl
    · cases run
  · obtain ⟨released, freed, run⟩ := Option.bind_eq_some_iff.mp run
    cases run
    exact .kept (releaseRxInfo_box freed).2 rfl
  · cases run

theorem notifyMessageFailure_delivers {accepted : Bool} {t t' : RxTable} {h h' : Heap} {i : Nat} {status : BusSendStatus}
    (run : notifyMessageFailure accepted t h i status = some (t', h')) : Delivers i t h t' h' := by
  unfold notifyMessageFailure at run
  split at run
  · rename_i b error hasResult result state
    split at run
    · cases run
    · exact .of_process (RxTable.box_eq state) run rfl
  · cases run

/-- A delivery that the pool takes leaves nothing for the clean-up but the release of the cell. -/
theorem cleanUpCompletedInfo_done (accepted : Bool) (t : RxTable) (h : Heap) (i : Nat) (hasResult : Bool)
    (result : UnpackRes) :
    cleanUpCompletedInfo accepted (t.setState i (.expect none .done hasResult result)) h i =
      (do
        let t ← releaseRxInfo (t.setState i (.expect none .done hasResult result)) i
        some (t, h)) := by
  have state : ((t.setState i (.expect none .done hasResult result)).rxInfo i).state =
      .expect none .done hasResult result := by
    simp [RxTable.setState, RxTable.set]
  rw [cleanUpCompletedInfo, state]

theorem attemptDelivery_delivers {accepted : Bool} {t t' : RxTable} {h h' : Heap} {i : Nat}
    (run : attemptDelivery accepted t h i = some (t', h')) : Delivers i t h t' h' := by
  unfold attemptDelivery at run
  split at run
  · rename_i b error hasResult result state
    split at run
    · simp only [cleanUpCompletedInfo_done] at run
      exact .of_process (RxTable.box_eq state) run rfl
    · cases run
  · cases run

theorem tickCell_delivers {clock accepted : Bool} {t t' : RxTable} {h h' : Heap} {i : Nat}
    (run : tickCell clock accepted t h i = some (t', h')) : Delivers i t h t' h' := by
  have counted (timeoutSec : Int) : (t.set i { t.rxInfo i with timeoutSec := timeoutSec }).box = t.box := by
    rw [RxTable.box_set]
    exact Function.update_eq_self i t.box
  simp only [tickCell] at run
  split at run
  · cases run
    exact .kept rfl rfl
  · split at run
    · split at run
      · obtain ⟨released, freed, run⟩ := Option.bind_eq_some_iff.mp run
        cases run
        exact .kept (releaseRxInfo_box freed).2 rfl
      · cases run
        exact .kept rfl rfl
    · cases run
      exact .kept (counted _) rfl
  · split at run
    · exact retryDelivery_delivers run
    split at run
    · exact cleanUpCompletedInfo_delivers run
    split at run
    · exact notifyMessageFailure_delivers run
    split at run
    · split at run
      · exact notifyMessageFailure_delivers run
      · cases run
        exact .kept rfl rfl
    · cases run
      exact .kept (counted _) rfl

theorem getFreeRxInfo_cells {t t' : RxTable} {cell : Option Nat} (run : getFreeRxInfo t = some (cell, t')) :
    t'.rxInfo = t.rxInfo ∧ ∀ i, cell = some i → (t.rxInfo i).state = .inactive := by
  unfold getFreeRxInfo at run
  split at run
  · cases run
    exact ⟨rfl, by simp⟩
  · simp only at run
    split at run
    · cases run
    · rename_i inactive
      have free := not_not.mp inactive
      split at run
      · split at run
        · cases run
          exact ⟨rfl, fun i found => by cases found; exact free⟩
        · cases run
      · cases run
        exact ⟨rfl, fun i found => by cases found; exact free⟩

theorem RxTable.update_none {t : RxTable} {i : Nat} (empty : t.box i = none) : update t.box i none = t.box := by
  rw [← empty, Function.update_eq_self]

theorem holdResponse_box {t t' : RxTable} {fd seqId timeoutSec : Int}
    (run : holdResponse t fd seqId timeoutSec = some t') : t'.box = t.box := by
  obtain ⟨⟨cell, reserved⟩, got, run⟩ := Option.bind_eq_some_iff.mp run
  obtain ⟨cells, inactive⟩ := getFreeRxInfo_cells got
  have same : reserved.box = t.box := by
    funext i
    rw [RxTable.box, cells, RxTable.box]
  cases cell with
  | none =>
    cases run
    exact same
  | some i =>
    cases run
    rw [RxTable.box_set, same]
    exact RxTable.update_none (RxTable.box_eq (inactive i rfl))

theorem RxInfo.setError_box (info : RxInfo) (boxes : Nat → BoxedMsg) (fd : Int) (err : RxError) :
    (info.setError boxes fd err).state.box = info.state.box := by
  unfold RxInfo.setError
  split <;> simp_all [RxInfoState.box]

theorem RxTable.setErrorForSocket_box (t : RxTable) (boxes : Nat → BoxedMsg) (fd : Int) (err : RxError) :
    (t.setErrorForSocket boxes fd err).box = t.box := by
  funext i
  simp only [RxTable.box, RxTable.setErrorForSocket]
  split
  · exact RxInfo.setError_box _ _ _ _
  · rfl

/-- Changing anything in a cell but its box, and then delivering. -/
theorem Delivers.after_set {t t' : RxTable} {h h' : Heap} {i : Nat} {state : RxInfoState} (same : state.box = t.box i)
    (delivers : Delivers i (t.setState i state) h t' h') : Delivers i t h t' h' := by
  have box : (t.setState i state).box = t.box := by
    rw [RxTable.box_setState, same, Function.update_eq_self]
  cases delivers with
  | kept boxes log => exact .kept (boxes.trans box) log
  | delivered b held boxes log =>
    rw [box] at held boxes
    exact .delivered b held boxes log

theorem processUnpackedMessage_delivers {accepted : Bool} {t t' : RxTable} {h h' : Heap} {fd : Int} {result : UnpackRes}
    (run : processUnpackedMessage accepted t h fd result = some (t', h')) : ∃ i, Delivers i t h t' h' := by
  unfold processUnpackedMessage at run
  split at run
  · split at run
    · cases run
      exact ⟨0, .kept rfl rfl⟩
    · rename_i i found
      simp only at run
      split at run
      · cases run
      · rename_i heldFd seqId hasResult old error state
        split at run
        · cases run
        · cases run
          refine ⟨i, .kept ?_ rfl⟩
          rw [RxTable.box_setState]
          exact RxTable.update_none (RxTable.box_eq state)
      · rename_i box error hasResult old state
        split at run
        · cases run
        · have filled : (RxInfoState.expect box .readyForDelivery true result).box = t.box i := (RxTable.box_eq state).symm
          exact ⟨i, (attemptDelivery_delivers run).after_set filled⟩
  · cases run
    exact ⟨0, .kept rfl rfl⟩

/-- Filling an empty cell with a box and delivering from it leaves the box there or hands it to the pool. -/
theorem Takes.of_delivers {t t' : RxTable} {h h' : Heap} {i b : Nat} {state : RxInfoState} (empty : t.box i = none)
    (delivers : Delivers i (t.setState i state) h t' h') (filled : state.box = some b) : Takes b t h t' h' := by
  have box := RxTable.box_setState t i state
  rw [filled] at box
  cases delivers with
  | kept boxes log => exact .stored i empty (boxes.trans box) log
  | delivered x held boxes log =>
    rw [box, Function.update_self] at held
    cases held
    refine .delivered ?_ log
    rw [boxes, box, Function.update_idem]
    exact RxTable.update_none empty

/-- An `EXPECT` that finds its `HOLD` puts its box in that cell or hands it to the pool at once. -/
theorem expectResponse_held {accepted : Bool} {t t' : RxTable} {h h' : Heap} {b : Nat}
    (run : expectResponse accepted t h b = some (t', h')) (held : t.holdsFor h.boxes b = true) :
    Takes b t h t' h' := by
  unfold RxTable.holdsFor at held
  unfold expectResponse at run
  split at held
  · rename_i i found
    rw [found] at run
    simp only at run
    split at held
    · rename_i fd seqId hasResult result error state
      have empty : t.box i = none := RxTable.box_eq state
      rw [state] at run
      simp only at run
      split at run
      · split at run
        · cases run
        · exact .of_delivers empty (attemptDelivery_delivers run) rfl
      · split at run
        · exact .of_delivers empty (notifyMessageFailure_delivers run) rfl
        · cases run
          exact .stored i empty (RxTable.box_set t i _) rfl
    · cases held
  · cases held

/-- An `EXPECT` that finds no `HOLD` is dropped, if no assertion fails. -/
theorem expectResponse_not_held {accepted : Bool} {t t' : RxTable} {h h' : Heap} {b : Nat}
    (run : expectResponse accepted t h b = some (t', h')) (held : t.holdsFor h.boxes b = false) : t' = t ∧ h' = h := by
  unfold RxTable.holdsFor at held
  unfold expectResponse at run
  split at run
  · cases run
    exact ⟨rfl, rfl⟩
  · rename_i i found
    rw [found] at held
    simp only at held
    split at run
    · cases run
      exact ⟨rfl, rfl⟩
    · cases run
    · rename_i state
      rw [state] at held
      cases held

end Kinetic
