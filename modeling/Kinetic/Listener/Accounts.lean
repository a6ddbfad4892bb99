import Kinetic.Lib.History
import Kinetic.Listener.RxInvariant
import Mathlib.Algebra.BigOperators.Group.Finset.Basic
import Mathlib.Algebra.Order.Group.Multiset
import Mathlib.Tactic.Abel

namespace Kinetic
open Function (update)
open Transition (Reach watch exec exists_reach_of_exec)

/-- The response in a cell. -/
def RxInfoState.response : RxInfoState → Multiset UnpackRes
  | .hold _ _ true result _ => {result}
  | .expect (some _) _ _ result => if result.ok then {result} else 0
  | _ => 0

/-- The responses that wait in the table. -/
def RxTable.responses (t : RxTable) : Multiset UnpackRes := ∑ i ∈ Finset.range maxPendingMessages, (t.state i).response

/-- What a callback gets with the box. -/
def BoxedMsg.answer (box : BoxedMsg) : Multiset UnpackRes :=
  if box.status = .success then {⟨true, box.responseMsg, box.responseSeqId⟩} else 0

/-- What the callbacks get that the pool has accepted. -/
def Heap.answers (h : Heap) : Multiset UnpackRes := (h.scheduled.map fun b => (h.boxes b).answer).sum

/-- The response that a round of `tick_handler` loses with a cell: that of a `HOLD` that expires when nobody takes it, and that
of a request whose socket has failed since. -/
def RxInfo.lost (info : RxInfo) (clock accepted : Bool) (handled : Int → Bool) : List UnpackRes :=
  match info.state with
  | .hold fd _ true result _ => if info.timeoutSec = 1 ∧ clock ∧ handled fd = false then [result] else []
  | .expect (some _) error _ result => if error.negative ∧ accepted ∧ result.ok then [result] else []
  | _ => []

/-- The response that an `EXPECT` loses: its `HOLD` has an error, or the box was marked as failed before. -/
def RxTable.lostToExpect (t : RxTable) (h : Heap) (accepted : Bool) (b : Nat) : List UnpackRes :=
  match findInfoBySequenceId t h.boxes (h.boxes b).fd (h.boxes b).outSeqId with
  | none => []
  | some i =>
    match t.state i with
    | .hold _ _ true result error =>
      if accepted ∧ (error ≠ .none ∨ deliveredStatus (h.boxes b).status ≠ .success) then [result] else []
    | _ => []

/-- A response gets lost as it comes in when nobody takes it, or when its box was marked as failed before. -/
def RxTable.lostOnArrival (t : RxTable) (h : Heap) (fd : Int) (result : UnpackRes) (accepted handled : Bool) : List UnpackRes :=
  if result.ok then
    match findInfoBySequenceId t h.boxes fd result.seqId with
    | none => if handled then [] else [result]
    | some i =>
      match t.state i with
      | .expect (some b) _ _ _ => if accepted ∧ deliveredStatus (h.boxes b).status ≠ .success then [result] else []
      | _ => []
  else []

/-- The responses that a step loses. -/
def RxListener.lost (s : RxListener) : RxAction → List UnpackRes
  | .expect b box accepted => s.rx.lostToExpect (s.heap.setBox b box) accepted b
  | .tick env =>
    (List.range' 0 (s.rx.rxInfoMaxUsed + 1)).flatMap fun i => (s.rx.rxInfo i).lost (env.clock i) (env.accepted i) env.handled
  | .recv fd result accepted handled => s.rx.lostOnArrival s.heap fd result accepted handled
  | _ => []

/-- The responses that came in, and those that got lost. -/
structure ResponseRecord where
  received : Multiset UnpackRes
  lost : Multiset UnpackRes

/-- The response that comes in with a step. A message that did not unpack is none. -/
def RxAction.response : RxAction → Multiset UnpackRes
  | .recv _ result _ _ => if result.ok then {result} else 0
  | _ => 0

def noteResponses (s : RxListener) (a : RxAction) (record : ResponseRecord) : ResponseRecord where
  received := record.received + a.response
  lost := record.lost + (s.lost a : Multiset UnpackRes)

/-- What is so of every cell, with its box. -/
def RxInfoState.Accounted (boxes : Nat → BoxedMsg) : RxInfoState → Prop
  | .hold _ _ hasResult result _ => hasResult = result.ok
  | .expect (some b) error _ result => (error = .none → result.ok = false) ∧
      (error = .readyForDelivery → result.ok = true ∧
        ((boxes b).status = .success → (⟨true, (boxes b).responseMsg, (boxes b).responseSeqId⟩ : UnpackRes) = result))
  | _ => True

structure ResponseAccounts (t : RxTable) (h : Heap) (expected : List Nat) : Prop where
  sound : t.Sound expected
  cells : ∀ i, (t.state i).Accounted h.boxes
  apart : ∀ i b, t.box i = some b → b ∉ h.scheduled
  sent : ∀ b ∈ h.scheduled, b ∈ expected

section Cells
variable {t t' : RxTable} {h h' : Heap} {expected expected' : List Nat} {e : RxEvent} {i b : Nat}

/-- The box of an offer is that of the cell, or comes with the `EXPECT`. -/
theorem Offer.origin {box : BoxedMsg} {after : RxInfoState} (offer : Offer t h i b e box after) :
    (t.box i = some b ∨ e = .expect b ∧ t.box i = none) ∧ after.box = some b := by
  cases offer with
  | retries _ _ _ state => exact ⟨.inl (RxTable.box_eq state), RxTable.box_eq state⟩
  | expires _ _ state => exact ⟨.inl (RxTable.box_eq state), RxTable.box_eq state⟩
  | fails _ _ _ state => exact ⟨.inl (RxTable.box_eq state), RxTable.box_eq state⟩
  | receives _ _ _ _ state => exact ⟨.inl (RxTable.box_eq state), rfl⟩
  | pairsResult _ state => exact ⟨.inr ⟨rfl, RxTable.box_eq state⟩, rfl⟩
  | pairsError _ _ _ state => exact ⟨.inr ⟨rfl, RxTable.box_eq state⟩, rfl⟩

theorem Offer.accounted {box : BoxedMsg} {after : RxInfoState} (offer : Offer t h i b e box after)
    (accounts : ResponseAccounts t h expected) : after.Accounted (update h.boxes b box) := by
  have here := accounts.cells i
  cases offer with
  | retries _ _ _ state => rwa [Function.update_eq_self]
  | expires hasResult result state =>
    rw [state] at here ⊢
    exact ⟨here.1, by rintro ⟨⟩⟩
  | fails error hasResult result state negative =>
    rw [state] at here ⊢
    refine ⟨here.1, ?_⟩
    rintro rfl
    cases negative
  | receives error hasResult old result _ _ unpacked =>
    refine ⟨by rintro ⟨⟩, fun _ => ⟨unpacked, fun _ => ?_⟩⟩
    rw [Function.update_self, ← unpacked]
    rfl
  | pairsResult result _ unpacked =>
    refine ⟨by rintro ⟨⟩, fun _ => ⟨unpacked, fun _ => ?_⟩⟩
    rw [Function.update_self, ← unpacked]
    rfl
  | pairsError hasResult result error state errored =>
    have formed := accounts.sound.formed i
    rw [state] at formed
    refine ⟨fun clear => absurd clear errored, ?_⟩
    rintro rfl
    cases formed.2 errored

theorem RxInfoState.Accounted.of_same {boxes boxes' : Nat → BoxedMsg} {state : RxInfoState} (accounted : state.Accounted boxes)
    (same : ∀ b, state.box = some b → boxes' b = boxes b) : state.Accounted boxes' := by
  cases state with
  | inactive => trivial
  | hold => exact accounted
  | expect box error hasResult result =>
    cases box with
    | none => trivial
    | some b =>
      have here := same b rfl
      refine ⟨accounted.1, fun ready => ?_⟩
      rw [here]
      exact accounted.2 ready

/-- The box of an `EXPECT` is new to the listener. -/
def RxEvent.Fresh (t : RxTable) (h : Heap) (expected' : List Nat) : RxEvent → Prop
  | .expect b => b ∈ expected' ∧ b ∉ h.scheduled ∧ ∀ i, t.box i ≠ some b
  | _ => True

/-- A box that is offered to the pool is in no other cell, and has not been offered before. -/
theorem Offer.alone {box : BoxedMsg} {after : RxInfoState} (offer : Offer t h i b e box after)
    (accounts : ResponseAccounts t h expected) (fresh : e.Fresh t h expected') :
    b ∉ h.scheduled ∧ ∀ j, j ≠ i → t.box j ≠ some b := by
  rcases offer.origin.1 with held | ⟨rfl, _⟩
  · exact ⟨accounts.apart i b held, fun j other there => other (accounts.sound.owned.exclusive j i b there held)⟩
  · exact ⟨fresh.2.1, fun j _ => fresh.2.2 j⟩

theorem RxInfo.setError_accounted {info : RxInfo} {boxes : Nat → BoxedMsg} (accounted : info.state.Accounted boxes) (fd : Int)
    {err : RxError} (negative : err.negative = true) : (info.setError boxes fd err).state.Accounted boxes := by
  unfold RxInfo.setError
  split
  · exact accounted
  · rename_i state
    rw [state] at accounted
    exact accounted
  · exact accounted
  · rename_i b error hasResult result state
    rw [state] at accounted
    dsimp only
    split
    · refine ⟨?_, ?_⟩ <;>
      · rintro rfl
        cases negative
    · exact accounted

theorem ResponseAccounts.move (accounts : ResponseAccounts t h expected) (sound : t'.Sound expected')
    (grown : ∀ b ∈ expected, b ∈ expected') (fresh : e.Fresh t h expected') (move : RxMove t h t' h' e) : ResponseAccounts t' h' expected' := by
  have keep (same : h' = h) (boxes : t'.box = t.box) (cells : ∀ j, (t'.state j).Accounted h.boxes) :
      ResponseAccounts t' h' expected' := by
    subst same
    exact ⟨sound, cells, fun j b held => accounts.apart j b (boxes ▸ held), fun b member => grown b (accounts.sent b member)⟩
  have boxOf (i : Nat) (new : RxInfoState) (cells : t'.state = update t.state i new) (j c : Nat) (held : t'.box j = some c) :
      (j = i ∧ new.box = some c) ∨ (j ≠ i ∧ t.box j = some c) := by
    rw [RxTable.box_state, cells, Function.update_apply] at held
    split at held <;> rename_i place
    · exact .inl ⟨place, held⟩
    · exact .inr ⟨place, held⟩
  have unboxed (i : Nat) (new : RxInfoState) (cells : t'.state = update t.state i new) (before : t.box i = none)
      (after : new.box = none) : t'.box = t.box := by
    funext j
    rw [RxTable.box_state, cells, Function.update_apply]
    split <;> rename_i place
    · rw [place, before, after]
    · rfl
  cases move with
  | keeps e state same => exact keep same (by funext j; rw [RxTable.box_state, state]; rfl) fun j => state ▸ accounts.cells j
  | frees i _ empty state same =>
    exact keep same (unboxed i _ state empty rfl) fun j => update_state state accounts.cells trivial j
  | holds i fd seqId _ inactive state same =>
    exact keep same (unboxed i _ state (by rw [RxTable.box_state, inactive]; rfl) rfl)
      fun j => update_state state accounts.cells rfl j
  | saves i fd seqId old result error held unpacked _ _ state same =>
    exact keep same (unboxed i _ state (by rw [RxTable.box_state, held]; rfl) rfl)
      fun j => update_state state accounts.cells unpacked.symm j
  | errs fd err negative state same =>
    refine keep same (by rw [state, RxTable.setErrorForSocket_box]) fun j => ?_
    rw [state, RxTable.setErrorForSocket_state]
    split
    · exact RxInfo.setError_accounted (accounts.cells j) fd negative
    · exact accounts.cells j
  | pairs i b result held found state same =>
    subst same
    obtain ⟨member, unscheduled, _⟩ := fresh
    refine ⟨sound, update_state state accounts.cells ⟨fun _ => rfl, by rintro ⟨⟩⟩, fun j c there => ?_,
      fun c member => grown c (accounts.sent c member)⟩
    rcases boxOf i _ state j c there with ⟨_, here⟩ | ⟨_, there⟩
    · cases here
      exact unscheduled
    · exact accounts.apart j c there
  | offers e i b box after accepted offer offered =>
    obtain ⟨unscheduled, elsewhere⟩ := offer.alone accounts fresh
    have filled := offer.accounted accounts
    obtain ⟨source, holds⟩ := offer.origin
    have owned : b ∈ expected' := by
      rcases source with held | ⟨rfl, _⟩
      · exact grown b (accounts.sound.owned.alive i b held)
      · exact fresh.1
    refine ⟨sound, fun j => ?_, fun j c there => ?_, fun c member => ?_⟩
    · rw [offered.cells, offered.boxes, Function.update_apply]
      split <;> rename_i place
      · split
        · trivial
        · exact filled
      · refine (accounts.cells j).of_same fun c held => Function.update_of_ne ?_ _ _
        rintro rfl
        exact elsewhere j place held
    · rw [offered.scheduled]
      rcases boxOf i _ offered.cells j c there with ⟨_, here⟩ | ⟨place, there⟩
      · cases accepted with
        | true => cases here
        | false =>
          cases Option.some.inj (holds.symm.trans here)
          exact unscheduled
      · have other : c ≠ b := by
          rintro rfl
          exact elsewhere j place there
        cases accepted with
        | true => simp [accounts.apart j c there, other]
        | false => exact accounts.apart j c there
    · rw [offered.scheduled] at member
      cases accepted with
      | true =>
        rcases List.mem_append.mp member with old | new
        · exact grown c (accounts.sent c old)
        · rw [List.mem_singleton.mp new]
          exact owned
      | false => exact grown c (accounts.sent c member)

end Cells

section Balance
variable {t t' : RxTable} {h h' : Heap} {expected : List Nat} {i b : Nat}

/-- One cell changes. -/
theorem RxTable.responses_update (low : i < maxPendingMessages) {new : RxInfoState} (cells : t'.state = update t.state i new) :
    t'.responses + (t.state i).response = t.responses + new.response := by
  have inside : i ∈ Finset.range maxPendingMessages := Finset.mem_range.mpr low
  have rest : ∑ j ∈ (Finset.range maxPendingMessages).erase i, (t'.state j).response =
      ∑ j ∈ (Finset.range maxPendingMessages).erase i, (t.state j).response := by
    refine Finset.sum_congr rfl fun j member => ?_
    rw [cells, Function.update_of_ne (Finset.ne_of_mem_erase member)]
  unfold RxTable.responses
  rw [← Finset.add_sum_erase _ _ inside, ← Finset.add_sum_erase _ _ inside, rest, cells, Function.update_self]
  abel

/-- Cells that change without their responses. -/
theorem RxTable.responses_congr (same : ∀ i, (t'.state i).response = (t.state i).response) : t'.responses = t.responses :=
  Finset.sum_congr rfl fun i _ => same i

theorem RxTable.responses_set {info : RxInfo} (same : info.state = t.state i) : (t.set i info).responses = t.responses := by
  refine RxTable.responses_congr fun j => ?_
  rw [RxTable.state_set, same, Function.update_eq_self]

theorem Heap.answers_congr (scheduled : h'.scheduled = h.scheduled) (same : ∀ b ∈ h.scheduled, h'.boxes b = h.boxes b) :
    h'.answers = h.answers := by
  unfold Heap.answers
  rw [scheduled]
  congr 1
  exact List.map_congr_left fun b member => by rw [same b member]

/-- A box that the pool takes carries the response on, and otherwise the cell keeps it. -/
theorem Offered.balance {accepted : Bool} {box : BoxedMsg} {after : RxInfoState}
    (offered : Offered accepted t h i b box after t' h') (low : i < maxPendingMessages) (apart : b ∉ h.scheduled) :
    t'.responses + h'.answers + (t.state i).response =
      t.responses + h.answers + if accepted then box.answer else after.response := by
  have cells := RxTable.responses_update low offered.cells
  have old : ∀ c ∈ h.scheduled, h'.boxes c = h.boxes c := fun c member => by
    have other : c ≠ b := fun same => apart (same ▸ member)
    rw [offered.boxes, Function.update_of_ne other]
  have answers : h'.answers = h.answers + if accepted then box.answer else 0 := by
    cases accepted with
    | false =>
      rw [Heap.answers_congr offered.scheduled old]
      exact (Multiset.add_zero _).symm
    | true =>
      have before : (h.scheduled.map fun c => (h'.boxes c).answer) = h.scheduled.map fun c => (h.boxes c).answer :=
        List.map_congr_left fun c member => by rw [old c member]
      have here : h'.boxes b = box := by rw [offered.boxes, Function.update_self]
      unfold Heap.answers
      rw [offered.scheduled, if_pos rfl, List.map_append, List.sum_append, before, List.map_singleton, List.sum_singleton, here]
      rfl
  rw [answers]
  generalize t'.responses = total at cells ⊢
  generalize t.responses = total' at cells ⊢
  cases accepted with
  | true =>
    have empty : RxInfoState.inactive.response = 0 := rfl
    simp only [if_true, empty, Multiset.add_zero] at cells ⊢
    rw [← cells]
    abel
  | false =>
    simp only [Bool.false_eq_true, if_false, Multiset.add_zero] at cells ⊢
    calc total + h.answers + (t.state i).response = total + (t.state i).response + h.answers := by abel
      _ = total' + h.answers + after.response := by
        rw [cells]
        abel

theorem delivered_answer {box : BoxedMsg} {result : UnpackRes} (unpacked : result.ok = true) :
    (box.delivered result).answer = if deliveredStatus box.status = .success then {result} else 0 := by
  obtain ⟨ok, msg, seqId⟩ := result
  cases unpacked
  rfl

theorem failed_answer {box : BoxedMsg} {status : BusSendStatus} (failed : status ≠ .success) :
    ({ box with status := status } : BoxedMsg).answer = 0 :=
  if_neg failed

theorem retryDelivery_offered {accepted hasResult : Bool} {result : UnpackRes}
    (state : t.state i = .expect (some b) .readyForDelivery hasResult result)
    (run : retryDelivery accepted t h i = some (t', h')) :
    (h.boxes b).status = .success ∧ Offered accepted t h i b (h.boxes b) (t.state i) t' h' := by
  simp only [retryDelivery, show (t.rxInfo i).state = _ from state] at run
  split at run
  · rename_i success
    rw [← h.setBox_self b] at run
    exact ⟨success, .of_process (Function.update_eq_self i t.state).symm run⟩
  · cases run

/-- A round of `tick_handler` with a `HOLD`. -/
theorem tickCell_balance_hold {clock accepted hasResult : Bool} {fd seqId : Int} {result : UnpackRes} {error : RxError}
    (accounts : ResponseAccounts t h expected) (state : t.state i = .hold fd seqId hasResult result error)
    (run : tickCell clock accepted t h i = some (t', h')) (handled : Int → Bool) :
    t'.responses + h'.answers +
        (if (t.rxInfo i).timeoutSec = 1 ∧ clock then ((t.state i).unexpected handled : Multiset UnpackRes) else 0) +
        ((t.rxInfo i).lost clock accepted handled : Multiset UnpackRes) = t.responses + h.answers := by
  have whole := accounts.cells i
  have low := accounts.sound.shaped.used_lt i (by rw [state]; rintro ⟨⟩)
  have cell : (t.rxInfo i).state = .hold fd seqId hasResult result error := state
  rw [state] at whole
  have whole : hasResult = result.ok := whole
  simp only [tickCell, cell] at run
  by_cases due : (t.rxInfo i).timeoutSec = 1
  · cases clock with
    | false =>
      rw [if_pos due] at run
      cases run
      cases hasResult <;> simp [RxInfo.lost, cell]
    | true =>
      rw [if_pos due, if_pos rfl, releaseRxInfo, cell] at run
      cases run
      have released := RxTable.responses_update low (freeRxInfo_state t i)
      rw [state] at released ⊢
      simp only [due, RxInfo.lost, cell, true_and, if_true]
      cases hasResult with
      | false =>
        simp only [RxInfoState.response, RxInfoState.unexpected, Multiset.add_zero] at released ⊢
        rw [released]
        simp
      | true =>
        simp only [RxInfoState.response, RxInfoState.unexpected, Multiset.add_zero] at released ⊢
        rw [← released, ← whole]
        cases handled fd <;> simp <;> abel
  · rw [if_neg due] at run
    cases run
    rw [RxTable.responses_set state.symm]
    cases hasResult <;> simp [RxInfo.lost, cell, due]

/-- A round of `tick_handler` with an `EXPECT`. -/
theorem tickCell_balance_expect {clock accepted hasResult : Bool} {result : UnpackRes} {error : RxError}
    (accounts : ResponseAccounts t h expected) (state : t.state i = .expect (some b) error hasResult result)
    (run : tickCell clock accepted t h i = some (t', h')) (handled : Int → Bool) :
    t'.responses + h'.answers + ((t.rxInfo i).lost clock accepted handled : Multiset UnpackRes) =
      t.responses + h.answers := by
  have whole := accounts.cells i
  have low := accounts.sound.shaped.used_lt i (by rw [state]; rintro ⟨⟩)
  have apart := accounts.apart i b (RxTable.box_eq state)
  have notDone := (state ▸ accounts.sound.formed i : (RxInfoState.expect (some b) error hasResult result).wellFormed).2
  have cell : (t.rxInfo i).state = .expect (some b) error hasResult result := state
  have kept : t.state = update t.state i (.expect (some b) error hasResult result) := by
    rw [← state, Function.update_eq_self]
  rw [state] at whole
  obtain ⟨unanswered, ready⟩ := whole
  simp only [tickCell, cell] at run
  by_cases isReady : error = .readyForDelivery
  · subst isReady
    rw [if_pos rfl] at run
    obtain ⟨success, offered⟩ := retryDelivery_offered state run
    obtain ⟨unpacked, same⟩ := ready rfl
    have balance := offered.balance low apart
    have carried : (h.boxes b).answer = (t.state i).response := by
      rw [BoxedMsg.answer, if_pos success, same success, state]
      exact (if_pos unpacked).symm
    rw [carried, ite_self] at balance
    simp only [RxInfo.lost, cell, RxError.negative, Bool.false_eq_true, false_and, if_false]
    rw [Multiset.coe_nil, Multiset.add_zero]
    exact add_right_cancel balance
  rw [if_neg isReady, if_neg notDone] at run
  by_cases clear : error = .none
  · subst clear
    have nothing : (t.state i).response = 0 := by
      rw [state]
      exact if_neg (by rw [unanswered rfl]; decide)
    have noLoss : (t.rxInfo i).lost clock accepted handled = [] := by simp [RxInfo.lost, cell, RxError.negative]
    rw [noLoss, Multiset.coe_nil, Multiset.add_zero]
    rw [if_neg (by simp)] at run
    by_cases due : (t.rxInfo i).timeoutSec = 1
    · rw [if_pos due] at run
      cases clock with
      | false =>
        cases run
        rfl
      | true =>
        have balance := (notifyMessageFailure_offered kept run).balance low apart
        rw [nothing, ← state, nothing, failed_answer (by rintro ⟨⟩), ite_self] at balance
        exact add_right_cancel balance
    · rw [if_neg due] at run
      cases run
      rw [RxTable.responses_set state.symm]
  · have negative := RxError.negative_of_ne clear isReady notDone
    rw [if_pos clear] at run
    have balance := (notifyMessageFailure_offered kept run).balance low apart
    rw [failed_answer (by rintro ⟨⟩), ← state] at balance
    have response : (t.state i).response = if result.ok then {result} else 0 := by rw [state]; rfl
    cases accepted with
    | false =>
      simp only [RxInfo.lost, cell, Bool.false_eq_true, false_and, and_false, if_false] at balance ⊢
      rw [Multiset.coe_nil, Multiset.add_zero]
      exact add_right_cancel balance
    | true =>
      rw [if_pos rfl, Multiset.add_zero, response] at balance
      rw [← balance]
      simp only [RxInfo.lost, cell, negative, true_and]
      cases result.ok <;> rfl

theorem tickCell_balance {clock accepted : Bool} (accounts : ResponseAccounts t h expected)
    (run : tickCell clock accepted t h i = some (t', h')) (handled : Int → Bool) :
    t'.responses + h'.answers +
        (if (t.rxInfo i).timeoutSec = 1 ∧ clock then ((t.state i).unexpected handled : Multiset UnpackRes) else 0) +
        ((t.rxInfo i).lost clock accepted handled : Multiset UnpackRes) = t.responses + h.answers := by
  cases state : t.state i with
  | inactive =>
    have cell : (t.rxInfo i).state = .inactive := state
    simp only [tickCell, cell] at run
    cases run
    simp [RxInfo.lost, cell, RxInfoState.unexpected]
  | hold fd seqId hasResult result error => exact state ▸ tickCell_balance_hold accounts state run handled
  | expect box error hasResult result =>
    have formed := accounts.sound.formed i
    rw [state] at formed
    obtain ⟨b, rfl⟩ := Option.ne_none_iff_exists'.mp formed.1
    rw [← tickCell_balance_expect accounts state run handled]
    simp [RxInfoState.unexpected]

theorem ResponseAccounts.tickCell {clock accepted : Bool} (accounts : ResponseAccounts t h expected)
    (run : tickCell clock accepted t h i = some (t', h')) : ResponseAccounts t' h' expected := by
  refine accounts.move (accounts.sound.tickCell run) (fun _ member => member) ?_ (tickCell_move run)
  trivial

end Balance

/-- The responses that a tick has to do with. -/
def Tick.balance (k : Tick) : Multiset UnpackRes := k.rx.responses + k.heap.answers + (k.unexpected : Multiset UnpackRes)

section Ticks
variable {env : TickEnv} {k k' : Tick} {expected : List Nat} {n i : Nat}

theorem Tick.visit_balance (accounts : ResponseAccounts k.rx k.heap expected) (run : k.visit env i = some k') :
    k'.balance + ((k.rx.rxInfo i).lost (env.clock i) (env.accepted i) env.handled : Multiset UnpackRes) = k.balance := by
  obtain ⟨ticked, _, unexpected⟩ := Tick.visit_cases run
  have cell := tickCell_balance accounts ticked env.handled
  unfold Tick.balance
  rw [unexpected, ← cell]
  split
  · rw [← Multiset.coe_add]
    abel
  · abel

/-- The loop of `tick_handler`. The cells that it has not come to yet are as they were. -/
theorem tickFrom_balance (accounts : ResponseAccounts k.rx k.heap expected) (run : tickFrom env n i k = some k') :
    k'.balance + ((List.range' i n).flatMap fun j =>
      (k.rx.rxInfo j).lost (env.clock j) (env.accepted j) env.handled : List UnpackRes) = k.balance ∧
      ResponseAccounts k'.rx k'.heap expected := by
  induction n generalizing i k with
  | zero =>
    cases run
    simpa using accounts
  | succ n ih =>
    unfold tickFrom at run
    split at run
    · obtain ⟨next, visited, run⟩ := Option.bind_eq_some_iff.mp run
      have ticked := (Tick.visit_cases visited).1
      obtain ⟨later, after⟩ := ih (accounts.tickCell ticked) run
      refine ⟨?_, after⟩
      have ahead : ((List.range' (i + 1) n).flatMap fun j =>
            (next.rx.rxInfo j).lost (env.clock j) (env.accepted j) env.handled) =
          (List.range' (i + 1) n).flatMap fun j =>
            (k.rx.rxInfo j).lost (env.clock j) (env.accepted j) env.handled := by
        refine List.flatMap_congr fun j member => ?_
        have above := (List.mem_range'_1.mp member).1
        rw [(tickCell_change ticked).others (by omega : j ≠ i)]
      rw [ahead] at later
      rw [List.range'_succ, List.flatMap_cons, ← Multiset.coe_add, ← Tick.visit_balance accounts visited, ← later]
      abel
    · rename_i beyond
      have nothing : ((List.range' i (n + 1)).flatMap fun j =>
          (k.rx.rxInfo j).lost (env.clock j) (env.accepted j) env.handled) = [] := by
        refine List.flatMap_eq_nil_iff.mpr fun j member => ?_
        have above := (List.mem_range'_1.mp member).1
        have inactive : (k.rx.rxInfo j).state = .inactive := by
          by_contra active
          have below := accounts.sound.shaped.covered j active
          omega
        simp [RxInfo.lost, inactive]
      rw [nothing]
      cases run
      exact ⟨Multiset.add_zero _, accounts⟩

end Ticks

section Commands
variable {t t' : RxTable} {h h' : Heap} {expected expected' : List Nat} {b : Nat} {accepted : Bool}

theorem expectResponse_balance (accounts : ResponseAccounts t h expected) (fresh : (RxEvent.expect b).Fresh t h expected')
    (run : expectResponse accepted t h b = some (t', h')) :
    t'.responses + h'.answers + (t.lostToExpect h accepted b : Multiset UnpackRes) = t.responses + h.answers := by
  unfold expectResponse at run
  unfold RxTable.lostToExpect
  cases found : findInfoBySequenceId t h.boxes (h.boxes b).fd (h.boxes b).outSeqId with
  | none =>
    simp only [found] at run ⊢
    cases run
    exact Multiset.add_zero _
  | some i =>
    simp only [found] at run ⊢
    cases state : t.state i with
    | inactive =>
      simp only [show (t.rxInfo i).state = _ from state] at run
      cases run
      exact Multiset.add_zero _
    | expect =>
      simp only [show (t.rxInfo i).state = _ from state] at run
      cases run
    | hold fd seqId hasResult result error =>
      have low := accounts.sound.shaped.used_lt i (by rw [state]; rintro ⟨⟩)
      have whole := accounts.cells i
      rw [state] at whole
      have whole : hasResult = result.ok := whole
      simp only [show (t.rxInfo i).state = _ from state] at run
      split at run
      · rename_i held
        obtain ⟨rfl, rfl⟩ := held
        split at run
        · cases run
        · obtain ⟨unpacked, offered⟩ := attemptDelivery_offered (RxTable.state_setState t i _) run
          have balance := offered.balance low fresh.2.1
          rw [delivered_answer unpacked, state] at balance
          simp only [RxInfoState.response, unpacked, if_true] at balance
          refine add_right_cancel (b := {result}) ?_
          rw [Multiset.add_assoc, Multiset.add_comm _ {result}, ← Multiset.add_assoc, balance]
          cases accepted with
          | false => simp
          | true => by_cases good : deliveredStatus (h.boxes b).status = .success <;> simp [good]
      · rename_i notHeld
        split at run
        · rename_i errored
          have offered := notifyMessageFailure_offered (RxTable.state_setState t i _) run
          have balance := offered.balance low fresh.2.1
          rw [failed_answer (by rintro ⟨⟩), state] at balance
          cases hasResult with
          | false =>
            simpa [RxInfoState.response, ← whole] using balance
          | true =>
            simp only [RxInfoState.response, ← whole, if_true] at balance
            refine add_right_cancel (b := {result}) ?_
            rw [Multiset.add_assoc, Multiset.add_comm _ {result}, ← Multiset.add_assoc, balance]
            cases accepted <;> simp [errored]
        · rename_i noError
          have clear : error = .none := not_not.mp noError
          have empty : hasResult = false := by
            cases hasResult with
            | false => rfl
            | true => exact absurd ⟨clear, rfl⟩ notHeld
          subst empty
          cases run
          have same := RxTable.responses_update low
            (RxTable.state_set t i ⟨(h.boxes b).timeoutSec, .expect (some b) .none false .zero⟩)
          have blank : (RxInfoState.expect (some b) .none false .zero).response = 0 := rfl
          rw [state, blank] at same
          have rest : (RxInfoState.hold fd seqId false result error).response = 0 := rfl
          rw [rest, Multiset.add_zero, Multiset.add_zero] at same
          rw [same]
          exact Multiset.add_zero _

theorem processUnpackedMessage_balance {fd : Int} {result : UnpackRes} (accounts : ResponseAccounts t h expected)
    (run : processUnpackedMessage accepted t h fd result = some (t', h')) (handled : Bool) :
    t'.responses + h'.answers + (t.lostOnArrival h fd result accepted handled : Multiset UnpackRes) +
        (if (result.ok ∧ findInfoBySequenceId t h.boxes fd result.seqId = none) ∧ handled then {result} else 0) =
      t.responses + h.answers + if result.ok then {result} else 0 := by
  unfold processUnpackedMessage at run
  unfold RxTable.lostOnArrival
  cases unpacked : result.ok with
  | false =>
    simp only [unpacked, Bool.false_eq_true, if_false] at run
    cases run
    simp
  | true =>
    simp only [unpacked, if_true] at run
    cases found : findInfoBySequenceId t h.boxes fd result.seqId with
    | none =>
      simp only [found] at run
      cases run
      cases handled <;> simp
    | some i =>
      simp only [found] at run
      simp only [if_true, reduceCtorEq, and_false, false_and, if_false, Multiset.add_zero]
      have isFor := findInfoBySequenceId_isFor found
      cases state : t.state i with
      | inactive =>
        simp only [show (t.rxInfo i).state = _ from state] at run
        cases run
      | hold heldFd seqId hasResult old error =>
        have low := accounts.sound.shaped.used_lt i (by rw [state]; rintro ⟨⟩)
        simp only [show (t.rxInfo i).state = _ from state] at run
        split at run
        · cases run
        · rename_i empty
          have noResult : hasResult = false := by simpa [RxInfoState.holdHasResult] using empty
          subst noResult
          cases run
          have saved := RxTable.responses_update low (RxTable.state_setState t i (.hold heldFd seqId true result error))
          rw [state] at saved
          simp only [RxInfoState.response, Multiset.add_zero] at saved
          rw [saved, Multiset.coe_nil, Multiset.add_zero]
          abel
      | expect box error hasResult old =>
        have low := accounts.sound.shaped.used_lt i (by rw [state]; rintro ⟨⟩)
        simp only [show (t.rxInfo i).state = _ from state] at run
        split at run
        · cases run
        · rename_i empty
          have noResult : old.ok = false := by simpa [RxInfoState.holdHasResult] using empty
          cases box with
          | none => simp [RxInfo.isFor, show (t.rxInfo i).state = _ from state] at isFor
          | some b =>
            have offered := (attemptDelivery_offered (RxTable.state_setState t i _) run).2
            have balance := offered.balance low (accounts.apart i b (RxTable.box_eq state))
            rw [delivered_answer unpacked, state] at balance
            simp only [RxInfoState.response, noResult, unpacked, Bool.false_eq_true, if_false, if_true,
              Multiset.add_zero] at balance
            rw [balance]
            cases accepted with
            | false => simp
            | true => by_cases good : deliveredStatus (h.boxes b).status = .success <;> simp [good]

theorem setErrorForSocket_response (t : RxTable) (boxes : Nat → BoxedMsg) (fd : Int) (err : RxError) (i : Nat) :
    ((t.setErrorForSocket boxes fd err).state i).response = (t.state i).response := by
  rw [RxTable.setErrorForSocket_state, RxTable.state]
  split
  · unfold RxInfo.setError
    split
    · rfl
    · rename_i heldFd seqId hasResult result error state
      rw [state]
      cases hasResult <;> rfl
    · rfl
    · rename_i state
      rw [state]
      rfl
  · rfl

theorem holdResponse_balance (h : Heap) {fd seqId timeoutSec : Int} (run : holdResponse t fd seqId timeoutSec = some t') :
    t'.responses = t.responses := by
  refine RxTable.responses_congr fun j => ?_
  cases holdResponse_move (h := h) run with
  | keeps _ state => rw [state]
  | holds i _ _ _ inactive state =>
    rw [state, Function.update_apply]
    split <;> rename_i place
    · rw [place, inactive]
      rfl
    · rfl
  | offers _ i b box after accepted offer => cases offer

end Commands

/-- What has become of the responses that came in. -/
def RxListener.balance (s : RxListener) : Multiset UnpackRes :=
  s.rx.responses + s.heap.answers + (s.unexpected : Multiset UnpackRes)

section Runs
variable {s s' : RxListener} {a : RxAction}

theorem ResponseAccounts.setBox {t : RxTable} {h : Heap} {expected : List Nat} {b : Nat}
    (accounts : ResponseAccounts t h expected) (fresh : b ∉ expected) (box : BoxedMsg) : ResponseAccounts t (h.setBox b box) expected := by
  refine ⟨accounts.sound, fun i => (accounts.cells i).of_same fun c held => Function.update_of_ne ?_ _ _, accounts.apart,
    accounts.sent⟩
  rintro rfl
  exact fresh (accounts.sound.owned.alive i c held)

/-- What a step does to the responses: those that come in are added, and those that are lost are gone. -/
theorem rxStep_balance (accounts : ResponseAccounts s.rx s.heap s.expected) (proper : a.Proper s) (run : rxStep s a = some s') :
    ResponseAccounts s'.rx s'.heap s'.expected ∧ s'.balance + (s.lost a : Multiset UnpackRes) = s.balance + a.response := by
  have same (b : Nat) (member : b ∈ s.expected) : b ∈ s.expected := member
  unfold RxListener.balance
  cases a with
  | hold fd seqId timeoutSec =>
    obtain ⟨rx, held, run⟩ := Option.bind_eq_some_iff.mp run
    cases run
    refine ⟨accounts.move (e := .hold fd seqId) (accounts.sound.holdResponse held) same trivial (holdResponse_move held), ?_⟩
    rw [holdResponse_balance s.heap held]
    rfl
  | expect b box accepted =>
    obtain ⟨⟨rx, heap⟩, expected, run⟩ := Option.bind_eq_some_iff.mp run
    cases run
    have written := accounts.setBox proper box
    have unheld (i : Nat) : s.rx.box i ≠ some b := fun held => proper (accounts.sound.owned.alive i b held)
    have unsent : b ∉ s.heap.scheduled := fun member => proper (accounts.sent b member)
    have fresh : (RxEvent.expect b).Fresh s.rx (s.heap.setBox b box) (b :: s.expected) :=
      ⟨List.mem_cons_self, unsent, unheld⟩
    have balance := expectResponse_balance written fresh expected
    have answers : (s.heap.setBox b box).answers = s.heap.answers := by
      refine Heap.answers_congr rfl fun c member => Function.update_of_ne ?_ _ _
      rintro rfl
      exact unsent member
    refine ⟨written.move (accounts.sound.expectResponse proper expected) (fun c old => List.mem_cons_of_mem b old) fresh
      (expectResponse_move expected), ?_⟩
    rw [answers] at balance
    simp only [RxListener.lost, RxAction.response, Multiset.add_zero, ← balance]
    abel
  | command =>
    cases run
    exact ⟨accounts, rfl⟩
  | tick env =>
    obtain ⟨k, ticked, run⟩ := Option.bind_eq_some_iff.mp run
    cases run
    obtain ⟨balance, after⟩ := tickFrom_balance (k := ⟨s.rx, s.heap, [], []⟩) accounts ticked
    refine ⟨after, ?_⟩
    unfold Tick.balance at balance
    rw [Multiset.coe_nil, Multiset.add_zero] at balance
    simp only [RxListener.lost, RxAction.response, Multiset.add_zero, ← balance, ← Multiset.coe_add]
    abel
  | recv fd result accepted handled =>
    obtain ⟨⟨rx, heap⟩, processed, run⟩ := Option.bind_eq_some_iff.mp run
    cases run
    refine ⟨accounts.move (e := .recv fd result) (accounts.sound.processUnpackedMessage processed) same trivial
      (processUnpackedMessage_move processed), ?_⟩
    have balance := processUnpackedMessage_balance accounts processed handled
    simp only [RxListener.lost, RxAction.response]
    rw [add_right_comm (s.rx.responses + s.heap.answers), ← balance]
    split
    · rw [← Multiset.coe_add, Multiset.coe_singleton]
      abel
    · abel
  | error fd err =>
    cases run
    refine ⟨accounts.move (e := .error fd err) (accounts.sound.setErrorForSocket _ fd proper) same trivial
      (.errs fd err proper rfl rfl), ?_⟩
    rw [RxTable.responses_congr (setErrorForSocket_response s.rx s.heap.boxes fd err)]
    rfl

end Runs

structure ResponsesInv (s : RxListener) (record : ResponseRecord) : Prop where
  accounts : ResponseAccounts s.rx s.heap s.expected
  balance : s.balance + record.lost = record.received

theorem ResponsesInv.new : ResponsesInv .new ⟨0, 0⟩ where
  accounts := ⟨RxListener.new_inv.sound, fun _ => trivial, by rintro _ _ ⟨⟩, by rintro _ ⟨⟩⟩
  balance := by
    have empty : RxListener.new.rx.responses = 0 := Finset.sum_eq_zero fun _ _ => rfl
    rw [RxListener.balance, empty]
    simp [Heap.answers, RxListener.new]

theorem ResponsesInv.step {s s' : RxListener} {a : RxAction} {record : ResponseRecord} (inv : ResponsesInv s record)
    (proper : a.Proper s) (run : rxStep s a = some s') : ResponsesInv s' (noteResponses s a record) := by
  obtain ⟨after, balance⟩ := rxStep_balance inv.accounts proper run
  refine ⟨after, ?_⟩
  simp only [noteResponses]
  rw [← inv.balance, add_right_comm, ← balance]
  abel

/-- Each response that came in waits in a cell, or is in a box of which the pool has taken the callback, or was passed to
`unexpected_msg_cb`, or was lost by a step that loses it; and it is only one of these. -/
theorem responses_accounted {s : RxListener} {record : ResponseRecord}
    (reach : Reach (watch rxStep noteResponses) (.new, ⟨0, 0⟩) (fun s a => a.Proper s.1) (s, record)) :
    s.rx.responses + s.heap.answers + (s.unexpected : Multiset UnpackRes) + record.lost = record.received := by
  have inv : ResponsesInv s record := reach.watched_invariant (fun s a => RxAction.Proper s a) .new
    fun _ _ _ _ _ inv proper run => inv.step proper run
  exact inv.balance

/-- One response waits in its `HOLD`, one is on its way to the client, nobody asked for the third, and that of the `HOLD`
which expires is lost. -/
theorem responses_accounted_four : ∃ s record,
    Reach (watch rxStep noteResponses) (.new, ⟨0, 0⟩) (fun s a => a.Proper s.1) (s, record) ∧
      s.rx.state 1 = .hold 5 2 true ⟨true, 4, 2⟩ .none ∧ s.heap.scheduled = [7] ∧ s.unexpected = [⟨true, 6, 9⟩] ∧
        record.lost = {⟨true, 5, 3⟩} ∧
        s.rx.responses + s.heap.answers + (s.unexpected : Multiset UnpackRes) + record.lost = record.received := by
  have trace : (exec (watch rxStep noteResponses) (fun s a => decide (RxAction.Proper s.1 a)) (.new, ⟨0, 0⟩)
      [.hold 5 1 15, .hold 5 2 15, .hold 6 3 1, .expect 7 ⟨⟨[1], 1, 10⟩, .requestComplete, 0, 0, 5, false, 1⟩ true,
        .recv 5 ⟨true, 3, 1⟩ true true, .recv 5 ⟨true, 4, 2⟩ true true, .recv 6 ⟨true, 5, 3⟩ true true,
        .recv 5 ⟨true, 6, 9⟩ true true, .tick ⟨fun _ => true, fun _ => true, fun _ => false⟩]).map
      (fun s => (s.1.rx.state 1, s.1.heap.scheduled, s.1.unexpected, s.2.lost)) =
      some (.hold 5 2 true ⟨true, 4, 2⟩ .none, [7], [⟨true, 6, 9⟩], {⟨true, 5, 3⟩}) := by decide +kernel
  obtain ⟨⟨s, record⟩, reach, seen⟩ := exists_reach_of_exec trace
  simp only [Prod.mk.injEq] at seen
  exact ⟨s, record, reach, seen.1, seen.2.1, seen.2.2.1, seen.2.2.2, responses_accounted reach⟩

end Kinetic
