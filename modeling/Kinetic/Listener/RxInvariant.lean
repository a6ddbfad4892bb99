import Kinetic.Lib.Ownership
import Kinetic.Listener.Ticks

namespace Kinetic
open Function (update)
open Transition (Reach exec exists_reach_of_exec)

/-- The cells and the freelist of a listener that was sent these boxes. -/
structure RxTable.Sound (t : RxTable) (expected : List Nat) : Prop where
  shaped : t.Shaped
  formed : ∀ i, (t.state i).wellFormed
  owned : Ownership.Sound t.box (· ∈ expected)

section Steps
variable {t t' : RxTable} {h h' : Heap} {expected : List Nat}

theorem Delivers.owned {i : Nat} (delivers : Delivers i t h t' h') (owned : Ownership.Sound t.box (· ∈ expected)) :
    Ownership.Sound t'.box (· ∈ expected) := by
  cases delivers with
  | kept boxes _ => rw [boxes]; exact owned
  | delivered b held boxes _ =>
    rw [boxes]
    exact (owned.clear held).weaken fun x old => old.1

theorem Takes.owned {b : Nat} (takes : Takes b t h t' h') (fresh : b ∉ expected)
    (owned : Ownership.Sound t.box (· ∈ expected)) : Ownership.Sound t'.box (· ∈ b :: expected) := by
  have grown (x : Nat) (old : x ∈ expected) : x ∈ b :: expected := List.mem_cons_of_mem b old
  cases takes with
  | stored i empty boxes _ =>
    rw [boxes]
    exact owned.update (fun j held => absurd (owned.alive j b held) fresh) grown List.mem_cons_self
  | delivered boxes _ =>
    rw [boxes]
    exact owned.weaken grown

theorem RxTable.Sound.tickCell {clock accepted : Bool} {i : Nat} (sound : t.Sound expected)
    (run : tickCell clock accepted t h i = some (t', h')) : t'.Sound expected where
  shaped := (tickCell_change run).shaped sound.shaped
  formed := (tickCell_move run).wellFormed sound.formed
  owned := (tickCell_delivers run).owned sound.owned

theorem RxTable.Sound.tickFrom {env : TickEnv} {k k' : Tick} {n i : Nat} (sound : k.rx.Sound expected)
    (run : tickFrom env n i k = some k') : k'.rx.Sound expected :=
  tickFrom_keeps (P := fun k => k.rx.Sound expected) run sound fun _ _ _ before visited =>
    before.tickCell (Tick.visit_cases visited).1

theorem RxTable.Sound.holdResponse {fd seqId timeoutSec : Int} (sound : t.Sound expected)
    (run : holdResponse t fd seqId timeoutSec = some t') : t'.Sound expected where
  shaped := holdResponse_shaped run sound.shaped
  formed := (holdResponse_move (h := ⟨fun _ => ⟨⟨[], 0, 0⟩, .undefined, 0, 0, 0, false, 0⟩, []⟩) run).wellFormed sound.formed
  owned := by
    rw [holdResponse_box run]
    exact sound.owned

theorem RxTable.Sound.expectResponse {accepted : Bool} {b : Nat} (sound : t.Sound expected) (fresh : b ∉ expected)
    (run : expectResponse accepted t h b = some (t', h')) : t'.Sound (b :: expected) where
  shaped := expectResponse_shaped run sound.shaped
  formed := (expectResponse_move run).wellFormed sound.formed
  owned := by
    cases held : t.holdsFor h.boxes b with
    | true => exact (expectResponse_held run held).owned fresh sound.owned
    | false =>
      rw [(expectResponse_not_held run held).1]
      exact sound.owned.weaken fun x old => List.mem_cons_of_mem b old

theorem RxTable.Sound.processUnpackedMessage {accepted : Bool} {fd : Int} {result : UnpackRes} (sound : t.Sound expected)
    (run : processUnpackedMessage accepted t h fd result = some (t', h')) : t'.Sound expected where
  shaped := processUnpackedMessage_shaped run sound.shaped
  formed := (processUnpackedMessage_move run).wellFormed sound.formed
  owned := by
    obtain ⟨i, delivers⟩ := processUnpackedMessage_delivers run
    exact delivers.owned sound.owned

theorem RxTable.Sound.setErrorForSocket (sound : t.Sound expected) (boxes : Nat → BoxedMsg) (fd : Int) {err : RxError}
    (negative : err.negative = true) : (t.setErrorForSocket boxes fd err).Sound expected where
  shaped := RxTable.setErrorForSocket_shaped sound.shaped boxes fd err
  formed i := by
    rw [RxTable.setErrorForSocket_state]
    split
    · exact RxInfo.setError_wellFormed (sound.formed i) boxes fd negative
    · exact sound.formed i
  owned := by
    rw [RxTable.setErrorForSocket_box]
    exact sound.owned

/-- Only a `HOLD` puts a cell to use. -/
theorem RxChange.inactive {i j : Nat} (change : RxChange t i t') (inactive : t.state j = .inactive) :
    t'.state j = .inactive := by
  by_cases here : j = i
  · subst here
    cases change with
    | kept same => rw [same]; exact inactive
    | written info active => exact absurd inactive active
    | freed active => exact absurd inactive active
  · rw [RxTable.state, change.others here]
    exact inactive

end Steps

structure RxListener.Inv (s : RxListener) : Prop where
  sound : s.rx.Sound s.expected
  idle : s.isIdle = true → ∀ i, s.rx.state i = .inactive

theorem RxListener.new_inv : RxListener.new.Inv where
  sound := ⟨RxTable.new_shaped, fun _ => trivial, ⟨by simp [RxTable.box, new, RxTable.new, RxInfoState.box],
    by simp [RxTable.box, new, RxTable.new, RxInfoState.box]⟩⟩
  idle := by simp [new]

theorem RxListener.Inv.step {s s' : RxListener} {a : RxAction} (inv : s.Inv) (proper : a.Proper s)
    (run : rxStep s a = some s') : s'.Inv := by
  cases a with
  | hold fd seqId timeoutSec =>
    obtain ⟨rx, held, run⟩ := Option.bind_eq_some_iff.mp run
    cases run
    exact ⟨inv.sound.holdResponse held, by simp⟩
  | expect b box accepted =>
    obtain ⟨⟨rx, heap⟩, expected, run⟩ := Option.bind_eq_some_iff.mp run
    cases run
    exact ⟨inv.sound.expectResponse proper expected, by simp⟩
  | command =>
    cases run
    exact ⟨inv.sound, by simp⟩
  | tick env =>
    obtain ⟨k, ticked, run⟩ := Option.bind_eq_some_iff.mp run
    cases run
    refine ⟨inv.sound.tickFrom ticked, fun idle i => ?_⟩
    have before : s.rx.state i = .inactive := by
      by_contra active
      have worked := (tickHandler_worked_iff ticked inv.sound.shaped i).mpr active
      have some_work : k.worked ≠ [] := List.ne_nil_of_mem worked
      simp only [some_work, if_false] at idle
      exact active (inv.idle idle i)
    exact tickFrom_keeps (P := fun k => k.rx.state i = .inactive) ticked before fun _ _ _ inactive visited =>
      (tickCell_change (Tick.visit_cases visited).1).inactive inactive
  | recv fd result accepted handled =>
    obtain ⟨⟨rx, heap⟩, processed, run⟩ := Option.bind_eq_some_iff.mp run
    cases run
    refine ⟨inv.sound.processUnpackedMessage processed, fun idle i => ?_⟩
    have before := inv.idle idle i
    rcases processUnpackedMessage_change processed with same | ⟨j, _, _, change⟩
    · rw [same]
      exact before
    · exact change.inactive before
  | error fd err =>
    cases run
    refine ⟨inv.sound.setErrorForSocket _ fd proper, fun idle i => ?_⟩
    exact (RxTable.setErrorForSocket_inactive _ _ _ _ i).mpr (inv.idle idle i)

/-- The assertions on the cells that are not those of `GetFreeRXInfo` and `ReleaseRXInfo`: that an `EXPECT` finds no other
`EXPECT`, that a response finds no other response, and those on the status of a box. -/
inductive RxListener.FailsElsewhere (s : RxListener) : RxAction → Prop
  | expectsUndefined (b : Nat) (box : BoxedMsg) (accepted : Bool) : box.status = .undefined →
      FailsElsewhere s (.expect b box accepted)
  | expectsTwice (b : Nat) (box : BoxedMsg) (accepted : Bool) (i : Nat) (other : Option Nat) (error : RxError)
      (hasResult : Bool) (result : UnpackRes) :
      findInfoBySequenceId s.rx (s.heap.setBox b box).boxes box.fd box.outSeqId = some i →
      s.rx.state i = .expect other error hasResult result → FailsElsewhere s (.expect b box accepted)
  | receivesUndefined (fd : Int) (result : UnpackRes) (accepted handled : Bool) (i b : Nat) :
      findInfoBySequenceId s.rx s.heap.boxes fd result.seqId = some i → s.rx.box i = some b →
      (s.heap.boxes b).status = .undefined → FailsElsewhere s (.recv fd result accepted handled)
  | receivesTwice (fd : Int) (result : UnpackRes) (accepted handled : Bool) (i : Nat) :
      findInfoBySequenceId s.rx s.heap.boxes fd result.seqId = some i → (s.rx.state i).holdHasResult = true →
      FailsElsewhere s (.recv fd result accepted handled)
  | retries (env : TickEnv) (n : Nat) (k : Tick) (b : Nat) (hasResult : Bool) (result : UnpackRes) :
      tickFrom env n 0 ⟨s.rx, s.heap, [], []⟩ = some k →
      k.rx.state n = .expect (some b) .readyForDelivery hasResult result → (k.heap.boxes b).status ≠ .success →
      FailsElsewhere s (.tick env)

/-- A loop that does not get through gets to a cell that it does not get past. -/
theorem tickFrom_stuck {env : TickEnv} {m i : Nat} {k : Tick} (stuck : tickFrom env m i k = none) :
    ∃ n k', tickFrom env n i k = some k' ∧ k'.visit env (i + n) = none := by
  induction m generalizing i k with
  | zero => cases stuck
  | succ m ih =>
    unfold tickFrom at stuck
    split at stuck
    · rename_i inside
      cases visited : k.visit env i with
      | none => exact ⟨0, k, rfl, visited⟩
      | some next =>
        rw [visited] at stuck
        obtain ⟨n, k', run, last⟩ := ih stuck
        refine ⟨n + 1, k', ?_, ?_⟩
        · rw [tickFrom, if_pos inside, visited]
          exact run
        · rw [← last]
          congr 1
          omega
    · cases stuck

/-- Whatever stops a listener, it is not an assertion of `GetFreeRXInfo` or `ReleaseRXInfo`. -/
theorem RxListener.Inv.failsElsewhere {s : RxListener} {a : RxAction} (inv : s.Inv) (stuck : rxStep s a = none) :
    s.FailsElsewhere a := by
  cases a with
  | hold fd seqId timeoutSec =>
    exfalso
    cases got : getFreeRxInfo s.rx with
    | none => exact getFreeRxInfo_shaped inv.sound.shaped got
    | some found =>
      obtain ⟨cell, reserved⟩ := found
      cases cell <;> simp [rxStep, holdResponse, got] at stuck
  | expect b box accepted =>
    by_contra fine
    have same : (s.heap.setBox b box).boxes b = box := by simp [Heap.setBox]
    have unexpected : expectResponse accepted s.rx (s.heap.setBox b box) b = none := by
      cases expected : expectResponse accepted s.rx (s.heap.setBox b box) b with
      | none => rfl
      | some found => simp [rxStep, expected] at stuck
    refine expectResponse_enabled accepted ?_ inv.sound.formed ?_ unexpected
    · rw [same]
      exact fun undefined => fine (.expectsUndefined b box accepted undefined)
    · intro i found
      have isFor := findInfoBySequenceId_isFor found
      rw [same] at found isFor ⊢
      cases state : s.rx.state i with
      | inactive => simp [RxInfo.isFor, show (s.rx.rxInfo i).state = _ from state] at isFor
      | expect other error hasResult result =>
        exact absurd (.expectsTwice b box accepted i other error hasResult result found state) fine
      | hold fd seqId hasResult result error =>
        simp only [RxInfo.isFor, show (s.rx.rxInfo i).state = _ from state, decide_eq_true_eq] at isFor
        rw [isFor.1, isFor.2]
        exact ⟨hasResult, result, error, rfl⟩
  | command => cases stuck
  | tick env =>
    have unfinished : tickHandler env s.rx s.heap = none := by
      cases ticked : tickHandler env s.rx s.heap with
      | none => rfl
      | some k => simp [rxStep, ticked] at stuck
    obtain ⟨n, k, run, last⟩ := tickFrom_stuck unfinished
    have sound := inv.sound.tickFrom run
    have failed : tickCell (env.clock n) (env.accepted n) k.rx k.heap n = none := by
      rw [Nat.zero_add] at last
      cases ticked : tickCell (env.clock n) (env.accepted n) k.rx k.heap n with
      | none => rfl
      | some found => simp [Tick.visit, ticked] at last
    obtain ⟨b, hasResult, result, state, status⟩ := tickCell_enabled (sound.formed n) failed
    exact .retries env n k b hasResult result run state status
  | recv fd result accepted handled =>
    by_contra fine
    have failed : processUnpackedMessage accepted s.rx s.heap fd result = none := by
      cases processed : processUnpackedMessage accepted s.rx s.heap fd result with
      | none => rfl
      | some found => simp [rxStep, processed] at stuck
    refine (processUnpackedMessage_enabled accepted fd result ?_).mpr ?_ failed
    · exact fun i b found held undefined => fine (.receivesUndefined fd result accepted handled i b found held undefined)
    · intro _ i found
      cases answered : (s.rx.state i).holdHasResult with
      | false => rfl
      | true => exact absurd (.receivesTwice fd result accepted handled i found answered) fine
  | error fd err => cases stuck

theorem RxListener.inv_of_reach {s : RxListener} (reach : Reach rxStep .new (fun s a => a.Proper s) s) : s.Inv :=
  reach.invariant RxListener.new_inv fun _ _ _ inv proper run => inv.step proper run

/-- The assertions of `ListenerTask_ReleaseRXInfo` for a cell. -/
def ReleaseAsserts (t : RxTable) (i : Nat) : Prop :=
  i < maxPendingMessages ∧ ∃ t', releaseRxInfo t i = some t' ∧ t'.rxInfoMaxUsed < maxPendingMessages

/-- A cell in use can be released as a `HOLD`, and as an `EXPECT` once its box has been taken out. -/
theorem RxTable.Sound.releases {t : RxTable} {expected : List Nat} (sound : t.Sound expected) {i : Nat}
    (active : t.state i ≠ .inactive) :
    (∀ fd seqId hasResult result error, t.state i = .hold fd seqId hasResult result error → ReleaseAsserts t i) ∧
      ∀ hasResult result, ReleaseAsserts (t.setState i (.expect none .done hasResult result)) i := by
  have low := sound.shaped.used_lt i active
  have bounded := (freeRxInfo_shaped sound.shaped active).top_lt (by decide)
  refine ⟨fun fd seqId hasResult result error state => ⟨low, freeRxInfo t i, ?_, bounded⟩, fun hasResult result => ?_⟩
  · rw [releaseRxInfo, show (t.rxInfo i).state = _ from state]
  · refine ⟨low, freeRxInfo t i, ?_, bounded⟩
    rw [releaseRxInfo_done, freeRxInfo_setState]

/-- What is promised of the `rx_info` table of a listener between two steps. The tables that a tick goes through are covered
where it releases cells. -/
structure RxListener.Consistent (s : RxListener) : Prop where
  freelist_nodup : s.rx.rxInfoFreelist.Nodup
  freelist_iff : ∀ i, i ∈ s.rx.rxInfoFreelist ↔ i < maxPendingMessages ∧ s.rx.state i = .inactive
  in_use : s.rx.rxInfoInUse + s.rx.rxInfoFreelist.length = maxPendingMessages
  active_le : ∀ i, s.rx.state i ≠ .inactive → i < maxPendingMessages ∧ i ≤ s.rx.rxInfoMaxUsed
  max_used : s.rx.rxInfoMaxUsed = 0 ∨ s.rx.state s.rx.rxInfoMaxUsed ≠ .inactive
  expect_box : ∀ i box error hasResult result, s.rx.state i = .expect box error hasResult result →
    box ≠ none ∧ error ≠ .done
  box_distinct : ∀ i j b, s.rx.box i = some b → s.rx.box j = some b → i = j
  reserves : getFreeRxInfo s.rx ≠ none
  releases : ∀ env n k, tickFrom env n 0 ⟨s.rx, s.heap, [], []⟩ = some k → ∀ i, k.rx.state i ≠ .inactive →
    (∀ fd seqId hasResult result error, k.rx.state i = .hold fd seqId hasResult result error → ReleaseAsserts k.rx i) ∧
      ∀ hasResult result, ReleaseAsserts (k.rx.setState i (.expect none .done hasResult result)) i
  elsewhere : ∀ a, rxStep s a = none → s.FailsElsewhere a
  idle : s.isIdle = true → ∀ i, s.rx.state i = .inactive

/-- The table of a listener is consistent after any sequence of commands, ticks, responses and socket errors. -/
theorem rxInfo_consistent {s : RxListener} (reach : Reach rxStep .new (fun s a => a.Proper s) s) : s.Consistent := by
  have inv := RxListener.inv_of_reach reach
  have shaped := inv.sound.shaped
  refine
    { freelist_nodup := shaped.nodup
      freelist_iff := fun i => ?_
      in_use := shaped.count
      active_le := fun i active => ⟨shaped.used_lt i active, shaped.covered i active⟩
      max_used := shaped.tight
      expect_box := fun i box error hasResult result state => ?_
      box_distinct := inv.sound.owned.exclusive
      reserves := getFreeRxInfo_shaped shaped
      releases := fun env n k run i active => (inv.sound.tickFrom run).releases active
      elsewhere := fun a stuck => inv.failsElsewhere stuck
      idle := inv.idle }
  · rw [shaped.free_iff, not_not]
  · have formed := inv.sound.formed i
    rw [state] at formed
    exact formed

/-- Two requests are held, the first one is expected and gets its response, and a tick passes. -/
theorem rxInfo_consistent_two : ∃ s, Reach rxStep .new (fun s a => a.Proper s) s ∧
    s.rx.state 0 = .inactive ∧ s.rx.state 1 = .hold 5 2 false .zero .none ∧ s.heap.scheduled = [7] ∧ s.Consistent := by
  have trace : (exec rxStep (fun s a => decide (a.Proper s)) .new
      [.hold 5 1 15, .hold 5 2 15, .expect 7 ⟨⟨[1], 1, 10⟩, .requestComplete, 0, 0, 5, false, 1⟩ true,
        .recv 5 ⟨true, 3, 1⟩ true true, .tick ⟨fun _ => true, fun _ => true, fun _ => true⟩]).map
      (fun s => (s.rx.state 0, s.rx.state 1, s.heap.scheduled)) =
      some (.inactive, .hold 5 2 false .zero .none, [7]) := by decide +kernel
  obtain ⟨s, reach, seen⟩ := exists_reach_of_exec trace
  simp only [Prod.mk.injEq] at seen
  exact ⟨s, reach, seen.1, seen.2.1, seen.2.2, rxInfo_consistent reach⟩

end Kinetic
