import Kinetic.Listener.RxShape

namespace Kinetic

section Table
variable {t : RxTable} {h : Heap} {i b : Nat} {error : RxError} {hasResult : Bool} {result : UnpackRes}

theorem processBoxedMessage_enabled (accepted : Bool) (set : (h.boxes b).status ≠ .undefined) :
    ∃ h', processBoxedMessage accepted h b = some h' := by
  cases accepted with
  | true => exact ⟨{ h with scheduled := h.scheduled ++ [b] }, by simp [processBoxedMessage, set]⟩
  | false => exact ⟨h, by simp [processBoxedMessage, set]⟩

/-- The assertions of `ListenerTask_NotifyMessageFailure` and of the release of the cell hold. -/
theorem notifyMessageFailure_enabled {status : BusSendStatus} (accepted : Bool)
    (state : t.state i = .expect (some b) error hasResult result) (set : status ≠ .undefined) :
    notifyMessageFailure accepted t h i status ≠ none := by
  have written : ((h.setBox b { h.boxes b with status := status }).boxes b).status ≠ .undefined := by
    simpa [Heap.setBox] using set
  obtain ⟨h', scheduled⟩ := processBoxedMessage_enabled accepted written
  cases accepted <;>
    simp [notifyMessageFailure, show (t.rxInfo i).state = _ from state, set, scheduled, releaseRxInfo_done]

/-- The assertions of `ListenerTask_AttemptDelivery`, and of the release of the cell, hold of a cell with a result. -/
theorem attemptDelivery_enabled (accepted : Bool) (state : t.state i = .expect (some b) error true result)
    (unpacked : result.ok = true) (set : (h.boxes b).status ≠ .undefined) : attemptDelivery accepted t h i ≠ none := by
  have written : ((h.setBox b ((h.boxes b).delivered result)).boxes b).status ≠ .undefined := by
    have stays : deliveredStatus (h.boxes b).status ≠ .undefined := by
      cases status : (h.boxes b).status <;> simp_all [deliveredStatus]
    simpa [Heap.setBox, BoxedMsg.delivered] using stays
  obtain ⟨h', scheduled⟩ := processBoxedMessage_enabled accepted written
  unfold BoxedMsg.delivered at scheduled
  cases accepted <;>
    simp [attemptDelivery, show (t.rxInfo i).state = _ from state, unpacked, scheduled, cleanUpCompletedInfo_done,
      releaseRxInfo_done]

/-- The assertions of `process_unpacked_message` hold exactly when the response finds no other one in its cell. -/
theorem processUnpackedMessage_enabled (accepted : Bool) (fd : Int) (result : UnpackRes)
    (set : ∀ i b, findInfoBySequenceId t h.boxes fd result.seqId = some i → t.box i = some b →
      (h.boxes b).status ≠ .undefined) :
    processUnpackedMessage accepted t h fd result ≠ none ↔
      (result.ok = true → ∀ i, findInfoBySequenceId t h.boxes fd result.seqId = some i → (t.state i).holdHasResult = false) := by
  cases unpacked : result.ok with
  | false => simp [processUnpackedMessage, unpacked]
  | true =>
    cases found : findInfoBySequenceId t h.boxes fd result.seqId with
    | none => simp [processUnpackedMessage, unpacked, found]
    | some i =>
      have isFor := findInfoBySequenceId_isFor found
      simp only [processUnpackedMessage, unpacked, if_true, found, forall_const, Option.some.injEq, forall_eq']
      cases state : t.state i with
      | inactive =>
        rw [RxInfo.isFor, show (t.rxInfo i).state = _ from state] at isFor
        cases isFor
      | hold heldFd seqId hasResult old error =>
        simp only [show (t.rxInfo i).state = _ from state]
        cases hasResult <;> simp [RxInfoState.holdHasResult]
      | expect box error hasResult old =>
        simp only [show (t.rxInfo i).state = _ from state]
        cases box with
        | none =>
          rw [RxInfo.isFor, show (t.rxInfo i).state = _ from state] at isFor
          cases isFor
        | some b =>
          have enabled := attemptDelivery_enabled (h := h) accepted
            (show (t.setState i (.expect (some b) .readyForDelivery true result)).state i = _ by
              rw [RxTable.state_setState, Function.update_self]) unpacked (set i b found (RxTable.box_eq state))
          cases ok : old.ok <;> simp [RxInfoState.holdHasResult, ok, enabled]

/-- The assertions of `expect_response` hold of a box that finds its `HOLD` or nothing. -/
theorem expectResponse_enabled (accepted : Bool) (set : (h.boxes b).status ≠ .undefined)
    (formed : ∀ i, (t.state i).wellFormed)
    (held : ∀ i, findInfoBySequenceId t h.boxes (h.boxes b).fd (h.boxes b).outSeqId = some i →
      ∃ hasResult result error, t.state i = .hold (h.boxes b).fd (h.boxes b).outSeqId hasResult result error) :
    expectResponse accepted t h b ≠ none := by
  unfold expectResponse
  cases found : findInfoBySequenceId t h.boxes (h.boxes b).fd (h.boxes b).outSeqId with
  | none => simp
  | some i =>
    obtain ⟨hasResult, result, error, state⟩ := held i found
    have whole := formed i
    rw [state] at whole
    simp only [show (t.rxInfo i).state = _ from state]
    split
    · rename_i ready
      exact attemptDelivery_enabled accepted (by rw [RxTable.state_setState, Function.update_self]) (whole.1 ready.2) set
    · split
      · exact notifyMessageFailure_enabled accepted (by rw [RxTable.state_setState, Function.update_self]) (by simp)
      · simp

/-- In a tick, the one assertion that can fail is that of `retry_delivery` on the status of the box. -/
theorem tickCell_enabled {clock accepted : Bool} (formed : (t.state i).wellFormed)
    (stuck : tickCell clock accepted t h i = none) :
    ∃ b hasResult result, t.state i = .expect (some b) .readyForDelivery hasResult result ∧
      (h.boxes b).status ≠ .success := by
  cases state : t.state i with
  | inactive => simp [tickCell, show (t.rxInfo i).state = _ from state] at stuck
  | hold fd seqId hasResult result error =>
    simp only [tickCell, show (t.rxInfo i).state = _ from state, releaseRxInfo] at stuck
    split at stuck
    · split at stuck <;> cases stuck
    · cases stuck
  | expect box error hasResult result =>
    rw [state] at formed
    obtain ⟨some_box, notDone⟩ := formed
    obtain ⟨b, rfl⟩ := Option.ne_none_iff_exists'.mp some_box
    simp only [tickCell, show (t.rxInfo i).state = _ from state] at stuck
    split at stuck
    · rename_i ready
      subst ready
      refine ⟨b, hasResult, result, rfl, fun success => ?_⟩
      cases accepted <;>
        simp [retryDelivery, show (t.rxInfo i).state = _ from state, success, processBoxedMessage,
          releaseRxInfo_done] at stuck
    · split at stuck
      · exact absurd stuck (notifyMessageFailure_enabled accepted state (by simp))
      · split at stuck
        · split at stuck
          · exact absurd stuck (notifyMessageFailure_enabled accepted state (by simp))
          · cases stuck
        · cases stuck

end Table

end Kinetic
