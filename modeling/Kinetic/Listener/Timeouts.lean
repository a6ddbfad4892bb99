import Kinetic.Lib.History
import Kinetic.Listener.RxInvariant

namespace Kinetic
open Function (update)
open Transition (Reach watch exec exists_reach_of_exec)

/-- What a step does not do to a box: change it, or hand it to the pool. -/
def Untouched (x : Nat) (h h' : Heap) : Prop :=
  h'.boxes x = h.boxes x ∧ h'.scheduled.count x = h.scheduled.count x

theorem Untouched.refl (x : Nat) (h : Heap) : Untouched x h h := ⟨rfl, rfl⟩

theorem Untouched.trans {x : Nat} {h h' h'' : Heap} (first : Untouched x h h') (second : Untouched x h' h'') :
    Untouched x h h'' :=
  ⟨second.1.trans first.1, second.2.trans first.2⟩

section Frame
variable {t t' : RxTable} {h h' : Heap} {i b x : Nat} {accepted : Bool}

theorem Heap.setBox_untouched (h : Heap) (box : BoxedMsg) (other : x ≠ b) : Untouched x h (h.setBox b box) :=
  ⟨Function.update_of_ne other _ _, rfl⟩

/-- Handing another box to the pool. -/
theorem processBoxedMessage_untouched (run : processBoxedMessage accepted h b = some h') (other : x ≠ b) :
    Untouched x h h' := by
  unfold processBoxedMessage at run
  split at run
  · cases run
  · split at run
    · cases run
      refine ⟨rfl, ?_⟩
      rw [List.count_append, List.count_singleton]
      simp [Ne.symm other]
    · cases run
      exact .refl x h

theorem process_untouched {kept released : RxTable} {before : Heap} (same : Untouched x h before)
    (run : (do
      let h ← processBoxedMessage accepted before b
      if accepted then
        let t ← releaseRxInfo released i
        some (t, h)
      else some (kept, h)) = some (t', h')) (other : x ≠ b) : Untouched x h h' := by
  obtain ⟨offered, scheduled, run⟩ := Option.bind_eq_some_iff.mp run
  have handed := same.trans (processBoxedMessage_untouched scheduled other)
  split at run
  · obtain ⟨_, _, run⟩ := Option.bind_eq_some_iff.mp run
    cases run
    exact handed
  · cases run
    exact handed

theorem notifyMessageFailure_untouched {status : BusSendStatus}
    (run : notifyMessageFailure accepted t h i status = some (t', h')) (other : t.box i ≠ some x) : Untouched x h h' := by
  unfold notifyMessageFailure at run
  split at run
  · rename_i b error hasResult result state
    have distinct : x ≠ b := by
      rintro rfl
      exact other (RxTable.box_eq state)
    split at run
    · cases run
    · exact process_untouched (h.setBox_untouched _ distinct) run distinct
  · cases run

/-- A round of a tick leaves the boxes of the other cells alone. -/
theorem tickCell_untouched {clock : Bool} (run : tickCell clock accepted t h i = some (t', h')) (other : t.box i ≠ some x) :
    Untouched x h h' := by
  have distinct {b : Nat} {error : RxError} {hasResult : Bool} {result : UnpackRes}
      (state : (t.rxInfo i).state = .expect (some b) error hasResult result) : x ≠ b := by
    rintro rfl
    exact other (RxTable.box_eq state)
  simp only [tickCell] at run
  split at run
  · cases run
    exact .refl x _
  · split at run
    · split at run
      · obtain ⟨_, _, run⟩ := Option.bind_eq_some_iff.mp run
        cases run
        exact .refl x _
      · cases run
        exact .refl x _
    · cases run
      exact .refl x _
  · split at run
    · unfold retryDelivery at run
      split at run
      · rename_i state
        split at run
        · exact process_untouched (.refl x h) run (distinct state)
        · cases run
      · cases run
    split at run
    · unfold cleanUpCompletedInfo at run
      split at run
      · rename_i state
        split at run
        · exact process_untouched (.refl x h) run (distinct state)
        · cases run
      · obtain ⟨_, _, run⟩ := Option.bind_eq_some_iff.mp run
        cases run
        exact .refl x _
      · cases run
    split at run
    · exact notifyMessageFailure_untouched run other
    split at run
    · split at run
      · exact notifyMessageFailure_untouched run other
      · cases run
        exact .refl x _
    · cases run
      exact .refl x _

theorem Offered.untouched {box : BoxedMsg} {after : RxInfoState} (offered : Offered accepted t h i b box after t' h')
    (other : x ≠ b) : Untouched x h h' := by
  refine ⟨?_, ?_⟩
  · rw [offered.boxes, Function.update_of_ne other]
  · rw [offered.scheduled]
    split
    · rw [List.count_append, List.count_singleton]
      simp [Ne.symm other]
    · rfl

/-- An `EXPECT` is about its own box. -/
theorem expectResponse_untouched (run : expectResponse accepted t h b = some (t', h')) (other : x ≠ b) :
    Untouched x h h' := by
  cases expectResponse_move run with
  | keeps _ _ same => rw [same]; exact .refl x h
  | pairs _ _ _ _ _ _ same => rw [same]; exact .refl x h
  | offers _ i _ box after accepted offer offered =>
    cases offer with
    | pairsResult => exact offered.untouched other
    | pairsError => exact offered.untouched other

/-- A response is about the box of the cell that it finds. -/
theorem processUnpackedMessage_untouched {fd : Int} {result : UnpackRes}
    (run : processUnpackedMessage accepted t h fd result = some (t', h'))
    (other : result.ok = true → ∀ i, findInfoBySequenceId t h.boxes fd result.seqId = some i → t.box i ≠ some x) :
    Untouched x h h' := by
  cases processUnpackedMessage_move run with
  | keeps _ _ same => rw [same]; exact .refl x h
  | saves _ _ _ _ _ _ _ _ _ _ _ same => rw [same]; exact .refl x h
  | offers _ i b box after accepted offer offered =>
    cases offer with
    | receives error hasResult old result state _ unpacked _ found =>
      refine offered.untouched ?_
      rintro rfl
      exact other unpacked i found (RxTable.box_eq state)

/-- A `HOLD` leaves the cells in use as they are. -/
theorem holdResponse_others {fd seqId timeoutSec : Int} (run : holdResponse t fd seqId timeoutSec = some t')
    (active : t.state i ≠ .inactive) : t'.rxInfo i = t.rxInfo i := by
  obtain ⟨⟨cell, reserved⟩, got, run⟩ := Option.bind_eq_some_iff.mp run
  obtain ⟨cells, inactive⟩ := getFreeRxInfo_cells got
  cases cell with
  | none =>
    cases run
    rw [cells]
  | some j =>
    cases run
    have distinct : i ≠ j := by
      rintro rfl
      exact active (inactive i rfl)
    rw [← cells]
    exact Function.update_of_ne distinct _ _

end Frame

section Visits
variable {env : TickEnv} {k k' : Tick} {i j n m : Nat}

/-- The cells that the loop has yet to come to, and those it has passed, stay as they are. -/
theorem tickFrom_others (run : tickFrom env n i k = some k') (outside : j < i ∨ i + n ≤ j) :
    k'.rx.rxInfo j = k.rx.rxInfo j := by
  induction n generalizing i k with
  | zero => cases run; rfl
  | succ n ih =>
    unfold tickFrom at run
    split at run
    · obtain ⟨next, visited, run⟩ := Option.bind_eq_some_iff.mp run
      have change := tickCell_change (Tick.visit_cases visited).1
      rw [ih run (by omega), change.others (by omega : j ≠ i)]
    · cases run
      rfl

/-- A box that is in none of the cells the loop comes to. -/
theorem tickFrom_untouched {x : Nat} (run : tickFrom env n i k = some k')
    (absent : ∀ j, i ≤ j → j < i + n → k.rx.box j ≠ some x) : Untouched x k.heap k'.heap := by
  induction n generalizing i k with
  | zero =>
    cases run
    exact .refl x _
  | succ n ih =>
    unfold tickFrom at run
    split at run
    · obtain ⟨next, visited, run⟩ := Option.bind_eq_some_iff.mp run
      have ticked := (Tick.visit_cases visited).1
      have here := tickCell_untouched ticked (absent i (Nat.le_refl i) (by omega))
      refine here.trans (ih run fun j low high => ?_)
      rw [RxTable.box, (tickCell_change ticked).others (by omega : j ≠ i)]
      exact absent j (by omega) (by omega)
    · cases run
      exact .refl x _

theorem tickFrom_beyond (beyond : k.rx.rxInfoMaxUsed < i) : tickFrom env n i k = some k := by
  cases n with
  | zero => rfl
  | succ n => rw [tickFrom, if_neg (by omega)]

theorem tickFrom_add (run : tickFrom env (m + n) i k = some k') :
    ∃ mid, tickFrom env m i k = some mid ∧ tickFrom env n (i + m) mid = some k' := by
  induction m generalizing i k with
  | zero =>
    rw [Nat.zero_add] at run
    exact ⟨k, rfl, run⟩
  | succ m ih =>
    rw [show m + 1 + n = m + n + 1 by omega, tickFrom] at run
    split at run
    · rename_i inside
      obtain ⟨next, visited, run⟩ := Option.bind_eq_some_iff.mp run
      obtain ⟨mid, first, second⟩ := ih run
      refine ⟨mid, ?_, ?_⟩
      · rw [tickFrom, if_pos inside, visited]
        exact first
      · rwa [show i + (m + 1) = i + 1 + m by omega]
    · rename_i outside
      cases run
      exact ⟨k', tickFrom_beyond (by omega), tickFrom_beyond (by omega)⟩

/-- The visit of a tick to a cell: the loop before and after it. -/
structure TickVisit (env : TickEnv) (t : RxTable) (h : Heap) (i : Nat) (before after last : Tick) : Prop where
  reached : tickFrom env i 0 ⟨t, h, [], []⟩ = some before
  visited : before.visit env i = some after
  rest : tickFrom env (t.rxInfoMaxUsed - i) (i + 1) after = some last

theorem TickVisit.ticked {t : RxTable} {h : Heap} {before after last : Tick} (visit : TickVisit env t h i before after last) :
    tickCell (env.clock i) (env.accepted i) before.rx before.heap i = some (after.rx, after.heap) :=
  (Tick.visit_cases visit.visited).1

/-- A tick gets to each cell in use. -/
theorem tickHandler_visit {t : RxTable} {h : Heap} {expected : List Nat} (run : tickHandler env t h = some k)
    (sound : t.Sound expected) (active : t.state i ≠ .inactive) : ∃ before after, TickVisit env t h i before after k := by
  have below := sound.shaped.covered i active
  rw [tickHandler, show t.rxInfoMaxUsed + 1 = i + (t.rxInfoMaxUsed - i + 1) by omega] at run
  obtain ⟨before, reached, run⟩ := tickFrom_add run
  rw [Nat.zero_add, tickFrom] at run
  have same := tickFrom_others (j := i) reached (.inr (by omega))
  have still : before.rx.state i ≠ .inactive := by
    rw [RxTable.state, same]
    exact active
  have inside := ((sound.tickFrom reached).shaped).covered i still
  rw [if_pos inside] at run
  obtain ⟨after, visited, rest⟩ := Option.bind_eq_some_iff.mp run
  exact ⟨before, after, reached, visited, rest⟩

section Visit
variable {t : RxTable} {h : Heap} {before after last : Tick}

theorem TickVisit.cell_before (visit : TickVisit env t h i before after last) : before.rx.rxInfo i = t.rxInfo i :=
  tickFrom_others visit.reached (.inr (by omega))

theorem TickVisit.cell_after (visit : TickVisit env t h i before after last) : last.rx.rxInfo i = after.rx.rxInfo i :=
  tickFrom_others visit.rest (.inl (by omega))

/-- The rest of the tick is not about the box of the cell. -/
theorem TickVisit.untouched {expected : List Nat} {x : Nat} (visit : TickVisit env t h i before after last)
    (sound : t.Sound expected) (held : t.box i = some x) :
    Untouched x h before.heap ∧ Untouched x after.heap last.heap := by
  refine ⟨tickFrom_untouched visit.reached fun j _ low other => ?_, tickFrom_untouched visit.rest fun j high _ other => ?_⟩
  · have same := sound.owned.exclusive j i x other held
    omega
  · have unchanged : after.rx.rxInfo j = t.rxInfo j := by
      rw [(tickCell_change visit.ticked).others (by omega : j ≠ i)]
      exact tickFrom_others visit.reached (.inr (by omega))
    rw [RxTable.box, unchanged] at other
    have same := sound.owned.exclusive j i x other held
    omega

end Visit

end Visits

/-- The number of ticks in a run. -/
def countTicks (_ : RxListener) : RxAction → Nat → Nat
  | .tick _, n => n + 1
  | _, n => n

theorem countTicks_between {s : RxListener} {a : RxAction} {n : Nat} (between : ∀ env, a ≠ .tick env) :
    countTicks s a n = n := by
  cases a with
  | tick env => exact absurd rfl (between env)
  | _ => rfl

/-- The cell has a box without an error, and this countdown. -/
def RxTable.Expects (t : RxTable) (i b n : Nat) : Prop :=
  ∃ hasResult result, t.rxInfo i = ⟨n, .expect (some b) .none hasResult result⟩

/-- The cell is held for a request, with this countdown. -/
def RxTable.Holds (t : RxTable) (i : Nat) (fd seqId timeoutSec : Int) : Prop :=
  ∃ hasResult result error, t.rxInfo i = ⟨timeoutSec, .hold fd seqId hasResult result error⟩

/-- The `EXPECT` in the cell gets neither a response nor a socket error, and the clock and the pool work for it. -/
def RxAction.LeavesExpect (i : Nat) (s : RxListener) : RxAction → Prop
  | .recv fd result _ _ => result.ok = true → findInfoBySequenceId s.rx s.heap.boxes fd result.seqId ≠ some i
  | .error fd _ => ∀ b, s.rx.box i = some b → (s.heap.boxes b).fd ≠ fd
  | .tick env => env.clock i = true ∧ env.accepted i = true
  | _ => True

/-- The `HOLD` in the cell gets no `EXPECT`, and the clock works for it. -/
def RxAction.LeavesHold (i : Nat) (s : RxListener) : RxAction → Prop
  | .expect b box _ => findInfoBySequenceId s.rx (s.heap.setBox b box).boxes box.fd box.outSeqId ≠ some i
  | .tick env => env.clock i = true
  | _ => True

section Waiting
variable {s s' : RxListener} {a : RxAction} {i b n : Nat} {fd seqId timeoutSec : Int}

theorem RxTable.Expects.state {t : RxTable} (expects : t.Expects i b n) :
    ∃ hasResult result, t.state i = .expect (some b) .none hasResult result := by
  obtain ⟨hasResult, result, cell⟩ := expects
  exact ⟨hasResult, result, by rw [RxTable.state, cell]⟩

theorem RxTable.Expects.box {t : RxTable} (expects : t.Expects i b n) : t.box i = some b := by
  obtain ⟨hasResult, result, state⟩ := expects.state
  exact RxTable.box_eq state

theorem RxTable.Expects.congr {t t' : RxTable} (expects : t.Expects i b n) (same : t'.rxInfo i = t.rxInfo i) :
    t'.Expects i b n := by
  unfold RxTable.Expects
  rw [same]
  exact expects

theorem RxTable.Holds.congr {t t' : RxTable} (holds : t.Holds i fd seqId timeoutSec) (same : t'.rxInfo i = t.rxInfo i) :
    t'.Holds i fd seqId timeoutSec := by
  unfold RxTable.Holds
  rw [same]
  exact holds

/-- Between two ticks a cell that waits for a response goes on waiting. -/
theorem rxStep_expects (inv : s.Inv) (run : rxStep s a = some s') (proper : a.Proper s) (leaves : a.LeavesExpect i s)
    (between : ∀ env, a ≠ .tick env) (expects : s.rx.Expects i b n) :
    s'.rx.Expects i b n ∧ Untouched b s.heap s'.heap := by
  obtain ⟨hasResult, result, state⟩ := expects.state
  have active : s.rx.state i ≠ .inactive := by
    rw [state]
    simp
  cases a with
  | hold fd seqId timeoutSec =>
    obtain ⟨rx, held, run⟩ := Option.bind_eq_some_iff.mp run
    cases run
    exact ⟨expects.congr (holdResponse_others held active), .refl b _⟩
  | expect x box accepted =>
    obtain ⟨⟨rx, heap⟩, expected, run⟩ := Option.bind_eq_some_iff.mp run
    cases run
    have distinct : b ≠ x := by
      rintro rfl
      exact proper (inv.sound.owned.alive i b expects.box)
    refine ⟨?_, (s.heap.setBox_untouched box distinct).trans (expectResponse_untouched expected distinct)⟩
    rcases expectResponse_change expected with same | ⟨j, found, change⟩
    · rw [same]
      exact expects
    · refine expects.congr (change.others ?_)
      rintro rfl
      simp [expectResponse, found, show (s.rx.rxInfo i).state = _ from state] at expected
  | command =>
    cases run
    exact ⟨expects, .refl b _⟩
  | tick env => exact absurd rfl (between env)
  | recv fd response accepted handled =>
    obtain ⟨⟨rx, heap⟩, processed, run⟩ := Option.bind_eq_some_iff.mp run
    cases run
    refine ⟨?_, processUnpackedMessage_untouched processed fun unpacked j found held => ?_⟩
    · rcases processUnpackedMessage_change processed with same | ⟨j, unpacked, found, change⟩
      · rw [same]
        exact expects
      · refine expects.congr (change.others ?_)
        rintro rfl
        exact leaves unpacked found
    · have same := inv.sound.owned.exclusive j i b held expects.box
      subst same
      exact leaves unpacked found
  | error fd err =>
    cases run
    refine ⟨?_, .refl b _⟩
    obtain ⟨hasResult, result, cell⟩ := expects
    refine ⟨hasResult, result, ?_⟩
    have other := leaves b (RxTable.box_eq state)
    simp only [RxTable.setErrorForSocket]
    split
    · simp [RxInfo.setError, cell, other]
    · exact cell

/-- Between two ticks a cell that is held goes on being held. -/
theorem rxStep_holds (run : rxStep s a = some s') (leaves : a.LeavesHold i s) (between : ∀ env, a ≠ .tick env)
    (holds : s.rx.Holds i fd seqId timeoutSec) : s'.rx.Holds i fd seqId timeoutSec := by
  obtain ⟨hasResult, result, error, cell⟩ := holds
  have state : (s.rx.rxInfo i).state = .hold fd seqId hasResult result error := by rw [cell]
  have active : s.rx.state i ≠ .inactive := by
    rw [RxTable.state, state]
    simp
  cases a with
  | hold fd seqId timeoutSec =>
    obtain ⟨rx, held, run⟩ := Option.bind_eq_some_iff.mp run
    cases run
    exact ⟨hasResult, result, error, (holdResponse_others held active).trans cell⟩
  | expect x box accepted =>
    obtain ⟨⟨rx, heap⟩, expected, run⟩ := Option.bind_eq_some_iff.mp run
    cases run
    refine ⟨hasResult, result, error, ?_⟩
    rcases expectResponse_change expected with same | ⟨j, found, change⟩
    · rw [same]
      exact cell
    · refine (change.others ?_).trans cell
      rintro rfl
      have same : (s.heap.setBox x box).boxes x = box := by simp [Heap.setBox]
      rw [same] at found
      exact leaves found
  | command =>
    cases run
    exact ⟨hasResult, result, error, cell⟩
  | tick env => exact absurd rfl (between env)
  | recv other response accepted handled =>
    obtain ⟨⟨rx, heap⟩, processed, run⟩ := Option.bind_eq_some_iff.mp run
    cases run
    cases unpacked : response.ok with
    | false =>
      simp only [processUnpackedMessage, unpacked] at processed
      cases processed
      exact ⟨hasResult, result, error, cell⟩
    | true =>
      by_cases here : findInfoBySequenceId s.rx s.heap.boxes other response.seqId = some i
      · simp only [processUnpackedMessage, unpacked, if_true, here, state] at processed
        split at processed
        · cases processed
        · cases processed
          exact ⟨true, response, error, by simp [RxTable.setState, RxTable.set, cell]⟩
      · refine ⟨hasResult, result, error, ?_⟩
        rcases processUnpackedMessage_change processed with same | ⟨j, _, found, change⟩
        · rw [same]
          exact cell
        · refine (change.others ?_).trans cell
          rintro rfl
          exact here found
  | error other err =>
    cases run
    simp only [RxTable.Holds, RxTable.setErrorForSocket]
    split
    · exact ⟨hasResult, result, err, by simp [RxInfo.setError, cell]⟩
    · exact ⟨hasResult, result, error, cell⟩

end Waiting

section Ticking
variable {t t' : RxTable} {h h' : Heap} {i b n : Nat} {fd seqId timeoutSec : Int}

/-- A cell that waits for a response with more than a second left. -/
theorem tickCell_counts_expect {clock accepted : Bool} (expects : t.Expects i b (n + 2))
    (run : tickCell clock accepted t h i = some (t', h')) : t'.Expects i b (n + 1) ∧ h' = h := by
  obtain ⟨hasResult, result, cell⟩ := expects
  have more : ((n + 2 : Nat) : Int) ≠ 1 := by omega
  simp only [tickCell, cell, more, if_false, ne_eq, not_true_eq_false, reduceCtorEq] at run
  cases run
  refine ⟨⟨hasResult, result, ?_⟩, rfl⟩
  simp only [RxTable.set, Function.update_self, RxInfo.mk.injEq, and_true]
  omega

/-- In its last second it is released, and its box goes to the pool with a timeout. -/
theorem tickCell_expires_expect (expects : t.Expects i b 1) (run : tickCell true true t h i = some (t', h')) :
    t' = freeRxInfo t i ∧ (h'.boxes b).status = .rxTimeout ∧ h'.scheduled = h.scheduled ++ [b] := by
  obtain ⟨hasResult, result, cell⟩ := expects
  have notified : notifyMessageFailure true t h i .rxTimeout = some (t', h') := by
    simpa [tickCell, cell] using run
  simp only [notifyMessageFailure, cell, processBoxedMessage, releaseRxInfo_done] at notified
  simp only [Heap.setBox, Function.update_self, reduceCtorEq, if_false, if_true, Option.bind_eq_bind, Option.bind_some]
    at notified
  cases notified
  exact ⟨freeRxInfo_setState t i _, by simp, rfl⟩

theorem tickCell_counts_hold {clock accepted : Bool} (holds : t.Holds i fd seqId timeoutSec) (more : timeoutSec ≠ 1)
    (run : tickCell clock accepted t h i = some (t', h')) : t'.Holds i fd seqId (timeoutSec - 1) := by
  obtain ⟨hasResult, result, error, cell⟩ := holds
  simp only [tickCell, cell, more, if_false] at run
  cases run
  exact ⟨hasResult, result, error, by simp [RxTable.set]⟩

theorem tickCell_expires_hold {accepted : Bool} (holds : t.Holds i fd seqId 1)
    (run : tickCell true accepted t h i = some (t', h')) : t' = freeRxInfo t i ∧ h' = h := by
  obtain ⟨hasResult, result, error, cell⟩ := holds
  simp only [tickCell, cell, releaseRxInfo, if_true, Option.bind_eq_bind, Option.bind_some] at run
  cases run
  exact ⟨rfl, rfl⟩

end Ticking

section Law
variable {s s' : RxListener} {i b n k : Nat} {fd seqId timeoutSec : Int}

theorem rxStep_tick {env : TickEnv} (run : rxStep s (.tick env) = some s') :
    ∃ tick, tickHandler env s.rx s.heap = some tick ∧ s'.rx = tick.rx ∧ s'.heap = tick.heap ∧
      s'.unexpected = s.unexpected ++ tick.unexpected := by
  obtain ⟨tick, ticked, run⟩ := Option.bind_eq_some_iff.mp run
  cases run
  exact ⟨tick, ticked, rfl, rfl, rfl⟩

theorem freeRxInfo_inactive {t t' : RxTable} (freed : t' = freeRxInfo t i) : t'.state i = .inactive := by
  rw [freed, freeRxInfo_state, Function.update_self]

/-- A tick with more than a second left for the response. -/
theorem tick_counts_expect {env : TickEnv} (inv : s.Inv) (run : rxStep s (.tick env) = some s')
    (expects : s.rx.Expects i b (n + 2)) : s'.rx.Expects i b (n + 1) ∧ Untouched b s.heap s'.heap := by
  obtain ⟨hasResult, result, state⟩ := expects.state
  obtain ⟨tick, ticked, rx, heap, _⟩ := rxStep_tick run
  obtain ⟨before, after, visit⟩ := tickHandler_visit ticked inv.sound (i := i) (by rw [state]; simp)
  obtain ⟨counted, same⟩ := tickCell_counts_expect (expects.congr visit.cell_before) visit.ticked
  obtain ⟨first, second⟩ := visit.untouched inv.sound expects.box
  rw [rx, heap]
  rw [same] at second
  exact ⟨counted.congr visit.cell_after, first.trans second⟩

/-- The tick in its last second. -/
theorem tick_expires_expect {env : TickEnv} (inv : s.Inv) (run : rxStep s (.tick env) = some s')
    (clock : env.clock i = true) (accepted : env.accepted i = true) (expects : s.rx.Expects i b 1) :
    s'.rx.state i = .inactive ∧ (s'.heap.boxes b).status = .rxTimeout ∧
      s'.heap.scheduled.count b = s.heap.scheduled.count b + 1 := by
  obtain ⟨hasResult, result, state⟩ := expects.state
  obtain ⟨tick, ticked, rx, heap, _⟩ := rxStep_tick run
  obtain ⟨before, after, visit⟩ := tickHandler_visit ticked inv.sound (i := i) (by rw [state]; simp)
  have visited := visit.ticked
  rw [clock, accepted] at visited
  obtain ⟨freed, status, scheduled⟩ := tickCell_expires_expect (expects.congr visit.cell_before) visited
  obtain ⟨first, second⟩ := visit.untouched inv.sound expects.box
  rw [rx, heap]
  refine ⟨?_, by rw [second.1, status], ?_⟩
  · rw [RxTable.state, visit.cell_after]
    exact freeRxInfo_inactive freed
  · rw [second.2, scheduled, List.count_append, first.2, List.count_singleton_self]

theorem RxTable.Holds.active {t : RxTable} (holds : t.Holds i fd seqId timeoutSec) : t.state i ≠ .inactive := by
  obtain ⟨hasResult, result, error, cell⟩ := holds
  simp [RxTable.state, cell]

theorem tick_counts_hold {env : TickEnv} (inv : s.Inv) (run : rxStep s (.tick env) = some s')
    (holds : s.rx.Holds i fd seqId timeoutSec) (more : timeoutSec ≠ 1) : s'.rx.Holds i fd seqId (timeoutSec - 1) := by
  obtain ⟨tick, ticked, rx, _, _⟩ := rxStep_tick run
  obtain ⟨before, after, visit⟩ := tickHandler_visit ticked inv.sound holds.active
  have counted := tickCell_counts_hold (holds.congr visit.cell_before) more visit.ticked
  rw [rx]
  exact counted.congr visit.cell_after

/-- A held cell is released without a look at any box; what it holds goes to `unexpected_msg_cb`. -/
theorem tick_expires_hold {env : TickEnv} (inv : s.Inv) (run : rxStep s (.tick env) = some s')
    (clock : env.clock i = true) (holds : s.rx.Holds i fd seqId 1) :
    s'.rx.state i = .inactive ∧ ∃ before after last, TickVisit env s.rx s.heap i before after last ∧ s'.heap = last.heap ∧
      after.heap = before.heap ∧ after.unexpected = before.unexpected ++ (s.rx.state i).unexpected env.handled := by
  obtain ⟨tick, ticked, rx, heap, _⟩ := rxStep_tick run
  obtain ⟨before, after, visit⟩ := tickHandler_visit ticked inv.sound holds.active
  have visited := visit.ticked
  rw [clock] at visited
  have here := holds.congr visit.cell_before
  obtain ⟨freed, same⟩ := tickCell_expires_hold here visited
  refine ⟨?_, before, after, tick, visit, heap, same, ?_⟩
  · rw [rx, RxTable.state, visit.cell_after]
    exact freeRxInfo_inactive freed
  · have passed := (Tick.visit_cases visit.visited).2.2
    obtain ⟨hasResult, result, error, cell⟩ := holds
    rw [visit.cell_before, clock, RxTable.state, visit.cell_before, ← RxTable.state] at passed
    rw [passed, if_pos ⟨by rw [cell], rfl⟩]

/-- After `k` of its `n` ticks a cell waits for the response, and its box has not gone to the pool. -/
def RxListener.Waits (start : RxListener) (i b n : Nat) (s : RxListener) (k : Nat) : Prop :=
  k < n → s.rx.Expects i b (n - k) ∧ s.heap.scheduled.count b = start.heap.scheduled.count b

/-- After `k` of its `n` ticks a cell is held. -/
def RxListener.Keeps (i : Nat) (fd seqId : Int) (n : Nat) (s : RxListener) (k : Nat) : Prop :=
  k < n → s.rx.Holds i fd seqId (n - k : Nat)

/-- Until its time has passed, a cell that is left alone waits for the response. -/
theorem expects_of_reach (reach : Reach rxStep .new (fun s a => a.Proper s) s) (expects : s.rx.Expects i b n)
    (later : Reach (watch rxStep countTicks) (s, 0) (fun s a => a.Proper s.1 ∧ a.LeavesExpect i s.1) (s', k)) :
    s'.Inv ∧ RxListener.Waits s i b n s' k := by
  have inv (r : RxListener) (onward : Reach rxStep s (fun s a => a.Proper s ∧ a.LeavesExpect i s) r) : r.Inv :=
    RxListener.inv_of_reach (reach.trans (onward.weaken fun _ _ both => both.1))
  refine ⟨inv s' (later.unwatch fun (s : RxListener) (a : RxAction) => a.Proper s ∧ a.LeavesExpect i s), ?_⟩
  refine later.watched_invariant (fun (s : RxListener) (a : RxAction) => a.Proper s ∧ a.LeavesExpect i s) ?_ ?_
  · exact fun _ => ⟨expects, rfl⟩
  intro r k a r' onward ih ok run early
  by_cases ticking : ∃ env, a = .tick env
  · obtain ⟨env, rfl⟩ := ticking
    simp only [countTicks] at early
    obtain ⟨waits, count⟩ := ih (by omega)
    rw [show n - k = (n - k - 2) + 2 by omega] at waits
    obtain ⟨counted, same⟩ := tick_counts_expect (inv r onward) run waits
    refine ⟨?_, same.2.trans count⟩
    rwa [show n - countTicks r (.tick env) k = n - k - 2 + 1 by simp only [countTicks]; omega]
  · have between : ∀ env, a ≠ .tick env := fun env same => ticking ⟨env, same⟩
    rw [countTicks_between between] at early ⊢
    obtain ⟨waits, count⟩ := ih early
    obtain ⟨still, same⟩ := rxStep_expects (inv r onward) run ok.1 ok.2 between waits
    exact ⟨still, same.2.trans count⟩

/-- Until its time has passed, a cell that is left alone is held. -/
theorem holds_of_reach (reach : Reach rxStep .new (fun s a => a.Proper s) s) (holds : s.rx.Holds i fd seqId n)
    (later : Reach (watch rxStep countTicks) (s, 0) (fun s a => a.Proper s.1 ∧ a.LeavesHold i s.1) (s', k)) :
    s'.Inv ∧ RxListener.Keeps i fd seqId n s' k := by
  have inv (r : RxListener) (onward : Reach rxStep s (fun s a => a.Proper s ∧ a.LeavesHold i s) r) : r.Inv :=
    RxListener.inv_of_reach (reach.trans (onward.weaken fun _ _ both => both.1))
  refine ⟨inv s' (later.unwatch fun (s : RxListener) (a : RxAction) => a.Proper s ∧ a.LeavesHold i s), ?_⟩
  refine later.watched_invariant (fun (s : RxListener) (a : RxAction) => a.Proper s ∧ a.LeavesHold i s) ?_ ?_
  · exact fun _ => holds
  intro r k a r' onward ih ok run early
  by_cases ticking : ∃ env, a = .tick env
  · obtain ⟨env, rfl⟩ := ticking
    simp only [countTicks] at early
    have counted := tick_counts_hold (inv r onward) run (ih (by omega)) (by omega)
    rwa [show ((n - k : Nat) : Int) - 1 = (n - countTicks r (.tick env) k : Nat) by simp only [countTicks]; omega] at counted
  · have between : ∀ env, a ≠ .tick env := fun env same => ticking ⟨env, same⟩
    rw [countTicks_between between] at early ⊢
    exact rxStep_holds run ok.2 between (ih early)

end Law

/-- An `EXPECT` that is left alone goes to the pool with a timeout, and its cell is released, in the tick its countdown says,
and a `HOLD` that is left alone is released in the tick its countdown says, with nothing handed to the pool and only a response
that it holds passed on. A tick works on each cell in use once. -/
theorem response_timeout_law {s : RxListener} (reach : Reach rxStep .new (fun s a => a.Proper s) s) :
    (∀ i b n s' k, s.rx.Expects i b n →
      Reach (watch rxStep countTicks) (s, 0) (fun s a => a.Proper s.1 ∧ a.LeavesExpect i s.1) (s', k) →
      (k < n → s'.rx.Expects i b (n - k) ∧ s'.heap.scheduled.count b = s.heap.scheduled.count b) ∧
      (k + 1 = n → ∀ env s'', env.clock i = true → env.accepted i = true → rxStep s' (.tick env) = some s'' →
        s''.rx.state i = .inactive ∧ (s''.heap.boxes b).status = .rxTimeout ∧
          s''.heap.scheduled.count b = s.heap.scheduled.count b + 1)) ∧
    (∀ i fd seqId (n : Nat) s' k, s.rx.Holds i fd seqId n →
      Reach (watch rxStep countTicks) (s, 0) (fun s a => a.Proper s.1 ∧ a.LeavesHold i s.1) (s', k) →
      (k < n → s'.rx.Holds i fd seqId (n - k : Nat)) ∧
      (k + 1 = n → ∀ env s'', env.clock i = true → rxStep s' (.tick env) = some s'' →
        s''.rx.state i = .inactive ∧ ∃ before after last, TickVisit env s'.rx s'.heap i before after last ∧
          s''.heap = last.heap ∧ after.heap = before.heap ∧
          after.unexpected = before.unexpected ++ (s'.rx.state i).unexpected env.handled)) ∧
    ∀ env k, tickHandler env s.rx s.heap = some k → k.worked.Nodup ∧ ∀ i, i ∈ k.worked ↔ s.rx.state i ≠ .inactive := by
  refine ⟨fun i b n s' k expects later => ?_, fun i fd seqId n s' k holds later => ?_, fun env k ticked => ?_⟩
  · obtain ⟨inv, waits⟩ := expects_of_reach reach expects later
    refine ⟨waits, fun last env s'' clock accepted run => ?_⟩
    obtain ⟨still, count⟩ := waits (by omega)
    rw [show n - k = 1 by omega] at still
    rw [← count]
    exact tick_expires_expect inv run clock accepted still
  · obtain ⟨inv, keeps⟩ := holds_of_reach reach holds later
    refine ⟨keeps, fun last env s'' clock run => ?_⟩
    have still := keeps (by omega)
    rw [show n - k = 1 by omega] at still
    exact tick_expires_hold inv run clock still
  · have shaped := (RxListener.inv_of_reach reach).sound.shaped
    refine ⟨?_, tickHandler_worked_iff ticked shaped⟩
    rw [tickHandler_worked ticked shaped]
    exact List.nodup_range.filter _

/-- Two cells with a second left, one of each kind. -/
theorem response_timeout_law_two : ∃ s s', Reach rxStep .new (fun s a => a.Proper s) s ∧ s.rx.Expects 0 7 1 ∧
    s.rx.Holds 1 5 2 1 ∧ rxStep s (.tick ⟨fun _ => true, fun _ => true, fun _ => true⟩) = some s' ∧
    s'.rx.state 0 = .inactive ∧ s'.rx.state 1 = .inactive ∧ (s'.heap.boxes 7).status = .rxTimeout ∧
    s'.heap.scheduled.count 7 = s.heap.scheduled.count 7 + 1 := by
  have trace : (exec rxStep (fun s a => decide (a.Proper s)) .new
      [.hold 5 1 6, .hold 5 2 1, .expect 7 ⟨⟨[1], 1, 1⟩, .requestComplete, 0, 0, 5, false, 1⟩ true]).map
      (fun s => (s.rx.rxInfo 0, s.rx.rxInfo 1,
        (rxStep s (.tick ⟨fun _ => true, fun _ => true, fun _ => true⟩)).isSome)) =
      some (⟨1, .expect (some 7) .none false .zero⟩, ⟨1, .hold 5 2 false .zero .none⟩, true) := by decide +kernel
  obtain ⟨s, reach, seen⟩ := exists_reach_of_exec trace
  simp only [Prod.mk.injEq] at seen
  obtain ⟨first, second, ticks⟩ := seen
  obtain ⟨s', run⟩ := Option.isSome_iff_exists.mp ticks
  have expects : s.rx.Expects 0 7 1 := ⟨false, .zero, first⟩
  have holds : s.rx.Holds 1 5 2 1 := ⟨false, .zero, .none, second⟩
  obtain ⟨expected, held, _⟩ := response_timeout_law reach
  obtain ⟨freed, status, count⟩ := (expected 0 7 1 s 0 expects .start).2 rfl _ s' rfl rfl run
  exact ⟨s, s', reach, expects, holds, run, freed, ((held 1 5 2 1 s 0 holds .start).2 rfl _ s' rfl run).1, status, count⟩

/-- A `HOLD` that has its response and gets no `EXPECT` is not released without a callback. -/
theorem hold_release_calls_back : ∃ s env s', Reach rxStep .new (fun s a => a.Proper s) s ∧ s.rx.Holds 0 5 1 1 ∧
    env.clock 0 = true ∧ rxStep s (.tick env) = some s' ∧ s'.rx.state 0 = .inactive ∧ s.unexpected = [] ∧
    s'.unexpected = [⟨true, 3, 1⟩] := by
  let env : TickEnv := ⟨fun _ => true, fun _ => true, fun _ => true⟩
  have trace : (exec rxStep (fun s a => decide (a.Proper s)) .new [.hold 5 1 1, .recv 5 ⟨true, 3, 1⟩ true true]).map
      (fun s => (s.rx.rxInfo 0, s.unexpected, (rxStep s (.tick env)).map fun s' => (s'.rx.state 0, s'.unexpected))) =
      some (⟨1, .hold 5 1 true ⟨true, 3, 1⟩ .none⟩, [], some (.inactive, [⟨true, 3, 1⟩])) := by decide +kernel
  obtain ⟨s, reach, seen⟩ := exists_reach_of_exec trace
  simp only [Prod.mk.injEq] at seen
  obtain ⟨cell, quiet, ticks⟩ := seen
  obtain ⟨s', run, after⟩ := Option.map_eq_some_iff.mp ticks
  simp only [Prod.mk.injEq] at after
  exact ⟨s, env, s', reach, ⟨true, ⟨true, 3, 1⟩, .none, cell⟩, rfl, run, after.1, quiet, after.2⟩

end Kinetic
