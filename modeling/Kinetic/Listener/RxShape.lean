import Kinetic.Lib.FreeCells
import Kinetic.Listener.Cells

namespace Kinetic
open Function (update)

/-- The freelist has the inactive cells, `rx_info_in_use` counts the others, and `rx_info_max_used` is the last of them. -/
def RxTable.Shaped (t : RxTable) : Prop :=
  FreeCells.Valid maxPendingMessages (fun i => t.state i ≠ .inactive) t.rxInfoFreelist t.rxInfoInUse t.rxInfoMaxUsed

/-- What the listener can do to a cell in use: leave it, write to it or release it. -/
inductive RxChange (t : RxTable) (i : Nat) (t' : RxTable) : Prop
  | kept : t' = t → RxChange t i t'
  | written (info : RxInfo) : t.state i ≠ .inactive → info.state ≠ .inactive → t' = t.set i info → RxChange t i t'
  | freed : t.state i ≠ .inactive → t' = freeRxInfo t i → RxChange t i t'

section Inversion
variable {t t' filled : RxTable} {h h' : Heap} {i : Nat} {accepted : Bool}

theorem freeRxInfo_setState (t : RxTable) (i : Nat) (state : RxInfoState) :
    freeRxInfo (t.setState i state) i = freeRxInfo t i := by
  simp [freeRxInfo, RxTable.setState, RxTable.set]

theorem releaseRxInfo_eq (run : releaseRxInfo t i = some t') : t.state i ≠ .inactive ∧ t' = freeRxInfo t i := by
  unfold releaseRxInfo at run
  split at run
  · cases run
  · rename_i state
    cases run
    exact ⟨by rw [RxTable.state, state]; simp, rfl⟩
  · rename_i state
    split at run
    · cases run
      exact ⟨by rw [RxTable.state, state]; simp, rfl⟩
    · cases run

/-- Handing the box of a cell to the pool releases the cell or leaves it as it is. -/
theorem process_change {b : Nat} {hasResult : Bool} {result : UnpackRes} (change : t.state i ≠ .inactive)
    (same : filled = t ∨ ∃ state, state ≠ .inactive ∧ filled = t.setState i state)
    (run : (do
      let h ← processBoxedMessage accepted h b
      if accepted then
        let t ← releaseRxInfo (filled.setState i (.expect none .done hasResult result)) i
        some (t, h)
      else some (filled, h)) = some (t', h')) : RxChange t i t' := by
  obtain ⟨offered, _, run⟩ := Option.bind_eq_some_iff.mp run
  cases accepted with
  | false =>
    cases run
    rcases same with rfl | ⟨state, active, rfl⟩
    · exact .kept rfl
    · exact .written _ change active rfl
  | true =>
    rw [releaseRxInfo_done] at run
    cases run
    refine .freed change ?_
    rw [freeRxInfo_setState]
    rcases same with rfl | ⟨state, _, rfl⟩
    · rfl
    · exact freeRxInfo_setState t i state

theorem notifyMessageFailure_change {status : BusSendStatus} (active : t.state i ≠ .inactive)
    (same : filled = t ∨ ∃ state, state ≠ .inactive ∧ filled = t.setState i state)
    (run : notifyMessageFailure accepted filled h i status = some (t', h')) : RxChange t i t' := by
  unfold notifyMessageFailure at run
  split at run
  · split at run
    · cases run
    · exact process_change active same run
  · cases run

theorem attemptDelivery_change (active : t.state i ≠ .inactive)
    (same : filled = t ∨ ∃ state, state ≠ .inactive ∧ filled = t.setState i state)
    (run : attemptDelivery accepted filled h i = some (t', h')) : RxChange t i t' := by
  unfold attemptDelivery at run
  split at run
  · split at run
    · simp only [cleanUpCompletedInfo_done] at run
      exact process_change active same run
    · cases run
  · cases run

theorem retryDelivery_change (run : retryDelivery accepted t h i = some (t', h')) : RxChange t i t' := by
  unfold retryDelivery at run
  split at run
  · rename_i state
    split at run
    · exact process_change (by rw [RxTable.state, state]; simp) (.inl rfl) run
    · cases run
  · cases run

theorem cleanUpCompletedInfo_change (run : cleanUpCompletedInfo accepted t h i = some (t', h')) : RxChange t i t' := by
  unfold cleanUpCompletedInfo at run
  split at run
  · rename_i state
    split at run
    · exact process_change (by rw [RxTable.state, state]; simp) (.inl rfl) run
    · cases run
  · obtain ⟨released, release, run⟩ := Option.bind_eq_some_iff.mp run
    cases run
    obtain ⟨active, equal⟩ := releaseRxInfo_eq release
    exact .freed active equal
  · cases run

theorem tickCell_change {clock : Bool} (run : tickCell clock accepted t h i = some (t', h')) : RxChange t i t' := by
  simp only [tickCell] at run
  split at run
  · cases run
    exact .kept rfl
  · rename_i state
    have active : t.state i ≠ .inactive := by
      rw [RxTable.state, state]
      simp
    split at run
    · split at run
      · obtain ⟨released, release, run⟩ := Option.bind_eq_some_iff.mp run
        cases run
        exact .freed active (releaseRxInfo_eq release).2
      · cases run
        exact .kept rfl
    · cases run
      exact .written _ active (by rw [state]; simp) rfl
  · rename_i state
    have active : t.state i ≠ .inactive := by
      rw [RxTable.state, state]
      simp
    split at run
    · exact retryDelivery_change run
    split at run
    · exact cleanUpCompletedInfo_change run
    split at run
    · exact notifyMessageFailure_change active (.inl rfl) run
    split at run
    · split at run
      · exact notifyMessageFailure_change active (.inl rfl) run
      · cases run
        exact .kept rfl
    · cases run
      exact .written _ active (by rw [state]; simp) rfl

/-- An `EXPECT` changes the cell that it finds. -/
theorem expectResponse_change {b : Nat} (run : expectResponse accepted t h b = some (t', h')) :
    t' = t ∨ ∃ i, findInfoBySequenceId t h.boxes (h.boxes b).fd (h.boxes b).outSeqId = some i ∧ RxChange t i t' := by
  unfold expectResponse at run
  split at run
  · cases run
    exact .inl rfl
  · rename_i i found
    split at run
    · cases run
      exact .inl rfl
    · cases run
    · rename_i state
      have active : t.state i ≠ .inactive := by
        rw [RxTable.state, state]
        simp
      refine .inr ⟨i, found, ?_⟩
      split at run
      · split at run
        · cases run
        · exact attemptDelivery_change active (.inr ⟨_, by simp, rfl⟩) run
      · split at run
        · exact notifyMessageFailure_change active (.inr ⟨_, by simp, rfl⟩) run
        · cases run
          exact .written _ active (by simp) rfl

/-- A response changes the cell that it finds. -/
theorem processUnpackedMessage_change {fd : Int} {result : UnpackRes}
    (run : processUnpackedMessage accepted t h fd result = some (t', h')) :
    t' = t ∨ ∃ i, result.ok = true ∧ findInfoBySequenceId t h.boxes fd result.seqId = some i ∧ RxChange t i t' := by
  unfold processUnpackedMessage at run
  split at run
  · rename_i unpacked
    split at run
    · cases run
      exact .inl rfl
    · rename_i i found
      refine .inr ⟨i, unpacked, found, ?_⟩
      simp only at run
      split at run
      · cases run
      · rename_i state
        split at run
        · cases run
        · cases run
          exact .written _ (by rw [RxTable.state, state]; simp) (by simp) rfl
      · rename_i state
        split at run
        · cases run
        · exact attemptDelivery_change (by rw [RxTable.state, state]; simp) (.inr ⟨_, by simp, rfl⟩) run
  · cases run
    exact .inl rfl

/-- Where a cell is taken from the freelist, it is the first of it. -/
theorem getFreeRxInfo_cases {cell : Option Nat} (run : getFreeRxInfo t = some (cell, t')) :
    (cell = none ∧ t' = t) ∨ ∃ head next, cell = some head ∧ t.rxInfoFreelist = head :: next ∧
      t' = { t with
        rxInfoFreelist := next, rxInfoInUse := t.rxInfoInUse + 1,
        rxInfoMaxUsed := if t.rxInfoMaxUsed < head then head else t.rxInfoMaxUsed } := by
  unfold getFreeRxInfo at run
  split at run
  · cases run
    exact .inl ⟨rfl, rfl⟩
  · rename_i head next free
    refine .inr ⟨head, next, ?_⟩
    simp only at run
    split at run
    · cases run
    · split at run
      · rename_i higher
        split at run
        · cases run
          exact ⟨rfl, free, by rw [if_pos higher]⟩
        · cases run
      · rename_i lower
        cases run
        exact ⟨rfl, free, by rw [if_neg lower]⟩

end Inversion

section Shape
variable {t t' : RxTable} {h : Heap} {i : Nat}

theorem RxTable.new_shaped : RxTable.new.Shaped := by
  have initial := FreeCells.Valid.initial maxPendingMessages
  simpa [RxTable.Shaped, RxTable.state, RxTable.new] using initial

theorem lowerMaxUsed_eq (rxInfo : Nat → RxInfo) (n : Nat) :
    lowerMaxUsed rxInfo n = Nat.findGreatest (fun i => (rxInfo i).state ≠ .inactive) n := by
  induction n with
  | zero => rfl
  | succ n ih =>
    rw [lowerMaxUsed, Nat.findGreatest_succ, ih]
    by_cases inactive : (rxInfo (n + 1)).state = .inactive
    · simp [inactive]
    · simp [inactive]

theorem freeRxInfo_shaped (shaped : t.Shaped) (active : t.state i ≠ .inactive) : (freeRxInfo t i).Shaped := by
  have cells (j : Nat) : (freeRxInfo t i).state j ≠ .inactive ↔ t.state j ≠ .inactive ∧ j ≠ i := by
    rw [freeRxInfo_state, Function.update_apply]
    by_cases here : j = i
    · simp [here]
    · simp [here]
  have given := shaped.giveBack active cells
  have mark : (freeRxInfo t i).rxInfoMaxUsed =
      if t.rxInfoMaxUsed = i then Nat.findGreatest (fun j => (freeRxInfo t i).state j ≠ .inactive) i else t.rxInfoMaxUsed := by
    have lowered := lowerMaxUsed_eq (t.setState i .inactive).rxInfo i
    by_cases atTop : t.rxInfoMaxUsed = i
    · rcases Nat.eq_zero_or_pos i with rfl | positive
      · simp [freeRxInfo, atTop]
      · simp only [freeRxInfo, atTop, positive, and_self, if_true]
        exact lowered
    · simp [freeRxInfo, atTop]
  unfold RxTable.Shaped
  rw [mark]
  exact given

theorem RxTable.set_shaped (shaped : t.Shaped) {info : RxInfo} (before : t.state i ≠ .inactive)
    (after : info.state ≠ .inactive) : (t.set i info).Shaped := by
  refine shaped.congr fun j => ?_
  rw [RxTable.state_set, Function.update_apply]
  by_cases here : j = i
  · subst here
    simp [before, after]
  · simp [here]

theorem RxChange.shaped (change : RxChange t i t') (shaped : t.Shaped) : t'.Shaped := by
  cases change with
  | kept same => rw [same]; exact shaped
  | written info before after same => rw [same]; exact RxTable.set_shaped shaped before after
  | freed active same => rw [same]; exact freeRxInfo_shaped shaped active

theorem expectResponse_shaped {accepted : Bool} {h' : Heap} {b : Nat} (run : expectResponse accepted t h b = some (t', h'))
    (shaped : t.Shaped) : t'.Shaped := by
  rcases expectResponse_change run with rfl | ⟨i, _, change⟩
  · exact shaped
  · exact change.shaped shaped

theorem processUnpackedMessage_shaped {accepted : Bool} {h' : Heap} {fd : Int} {result : UnpackRes}
    (run : processUnpackedMessage accepted t h fd result = some (t', h')) (shaped : t.Shaped) : t'.Shaped := by
  rcases processUnpackedMessage_change run with rfl | ⟨i, _, _, change⟩
  · exact shaped
  · exact change.shaped shaped

/-- The assertions of `GetFreeRXInfo` hold. -/
theorem getFreeRxInfo_shaped (shaped : t.Shaped) : getFreeRxInfo t ≠ none := by
  unfold getFreeRxInfo
  split
  · simp
  · rename_i head next free
    have member : head ∈ t.rxInfoFreelist := by
      rw [free]
      exact List.mem_cons_self
    obtain ⟨low, unused⟩ := (shaped.free_iff head).mp member
    have inactive : (t.rxInfo head).state = .inactive := not_not.mp unused
    simp only [inactive, ne_eq, not_true_eq_false, if_false, low, if_true]
    split <;> simp

theorem holdResponse_shaped {fd seqId timeoutSec : Int} (run : holdResponse t fd seqId timeoutSec = some t')
    (shaped : t.Shaped) : t'.Shaped := by
  obtain ⟨⟨cell, reserved⟩, got, run⟩ := Option.bind_eq_some_iff.mp run
  rcases getFreeRxInfo_cases got with ⟨rfl, same⟩ | ⟨head, next, rfl, free, rfl⟩
  · cases run
    rw [same]
    exact shaped
  · cases run
    unfold RxTable.Shaped at shaped
    rw [free] at shaped
    refine shaped.take fun j => ?_
    rw [RxTable.state_set, Function.update_apply]
    by_cases here : j = head
    · simp [here]
    · simp only [here, if_false, or_false]
      rfl

theorem RxInfo.setError_inactive (info : RxInfo) (boxes : Nat → BoxedMsg) (fd : Int) (err : RxError) :
    (info.setError boxes fd err).state = .inactive ↔ info.state = .inactive := by
  unfold RxInfo.setError
  split <;> simp_all

theorem RxTable.setErrorForSocket_inactive (t : RxTable) (boxes : Nat → BoxedMsg) (fd : Int) (err : RxError) (i : Nat) :
    (t.setErrorForSocket boxes fd err).state i = .inactive ↔ t.state i = .inactive := by
  rw [RxTable.setErrorForSocket_state]
  split
  · exact RxInfo.setError_inactive _ _ _ _
  · exact Iff.rfl

theorem RxTable.setErrorForSocket_shaped (shaped : t.Shaped) (boxes : Nat → BoxedMsg) (fd : Int) (err : RxError) :
    (t.setErrorForSocket boxes fd err).Shaped :=
  shaped.congr fun i => not_congr (t.setErrorForSocket_inactive boxes fd err i)

end Shape

/-- No change to a cell in use raises `rx_info_max_used`. -/
theorem RxChange.maxUsed_le {t t' : RxTable} {i : Nat} (change : RxChange t i t') : t'.rxInfoMaxUsed ≤ t.rxInfoMaxUsed := by
  cases change with
  | kept same => rw [same]
  | written info _ _ same =>
    rw [same]
    exact Nat.le_refl _
  | freed _ same =>
    rw [same, freeRxInfo]
    dsimp only
    split
    · rename_i atTop
      have lowered := Nat.findGreatest_le (P := fun j => ((t.setState i .inactive).rxInfo j).state ≠ .inactive) i
      rw [lowerMaxUsed_eq]
      omega
    · exact Nat.le_refl _

/-- The other cells stay as they are. -/
theorem RxChange.others {t t' : RxTable} {i j : Nat} (change : RxChange t i t') (other : j ≠ i) :
    t'.rxInfo j = t.rxInfo j := by
  cases change with
  | kept same => rw [same]
  | written info _ _ same =>
    rw [same]
    exact Function.update_of_ne other _ _
  | freed _ same =>
    rw [same]
    exact Function.update_of_ne other _ _

end Kinetic
