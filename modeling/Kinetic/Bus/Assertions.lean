import Kinetic.Bus.Identities
import Kinetic.Listener.RxAssertions

namespace Kinetic
open Function (update)
open Transition (Reach watch exec exists_reach_of_exec)

theorem listenerStep_shaped {l l' : Listener} {h h' : Heap} {conns conns' : Connections} {a : ListenerAction}
    (run : listenerStep l h conns a = some (l', h', conns')) (shaped : l.rx.Shaped) : l'.rx.Shaped := by
  cases listenerStep_cases run with
  | holds env slot rest fd seqId timeoutSec serial rx atLoop pipe written held => exact holdResponse_shaped held shaped
  | expects env slot rest b serial rx h' atLoop pipe written expected => exact expectResponse_shaped expected shaped
  | ticksCell clock accepted i rx h' ticking inside ticked => exact (tickCell_change ticked).shaped shaped
  | receives i result accepted rx h' atLoop tracked processed => exact processUnpackedMessage_shaped processed shaped
  | errs i err atLoop tracked negative => exact RxTable.setErrorForSocket_shaped shaped _ _ _
  | _ => exact shaped

theorem shaped_of_reach {n : Nat} {s : BusState} {ok : BusState → BusLabel → Prop} (reach : Reach busStep (.new n) ok s)
    (l : Nat) : (s.listeners l).rx.Shaped := by
  induction reach generalizing l with
  | start => exact RxTable.new_shaped
  | @next s t label _ _ taken shaped =>
    cases label with
    | client c a => rw [clientStep_rx taken]; exact shaped l
    | listener l' a =>
      obtain ⟨⟨listener, heap, conns⟩, moved, run⟩ := Option.bind_eq_some_iff.mp taken
      cases run
      exact update_listener (P := fun listener => listener.rx.Shaped) (shaped l)
        fun _ _ => listenerStep_shaped moved (shaped l')
    | run k =>
      obtain ⟨_, _, rfl⟩ := busStep_run taken
      exact shaped l

/-- The index of every cell that a listener works on is below `MAX_PENDING_MESSAGES`. -/
theorem maxUsed_of_reach {n : Nat} {s : BusState} {ok : BusState → BusLabel → Prop} (reach : Reach busStep (.new n) ok s)
    (l : Nat) : (s.listeners l).rx.rxInfoMaxUsed < maxPendingMessages :=
  (shaped_of_reach reach l).top_lt (by decide)

/-- Whether a response finds no other one in the cell of its request. -/
def BusState.unanswered (s : BusState) : BusLabel → Bool
  | .listener l (.recv i result _) =>
    result.ok = false ∨
      (s.matched l (s.conns.info ((s.listeners l).sockets.fdInfo i)).fd result.seqId).holdHasResult = false
  | _ => true

theorem BusState.matched_holdHasResult (s : BusState) (l : Nat) (fd seqId : Int) :
    (s.matched l fd seqId).holdHasResult = false ↔
      ∀ i, findInfoBySequenceId (s.listeners l).rx s.heap.boxes fd seqId = some i →
        ((s.listeners l).rx.state i).holdHasResult = false := by
  cases found : findInfoBySequenceId (s.listeners l).rx s.heap.boxes fd seqId with
  | none => simp [BusState.matched, found, RxInfoState.holdHasResult]
  | some i => simp [BusState.matched, found]

section Runs
variable {n : Nat} {s : BusState}

/-- In every run in which a request is accepted only when nothing is left of an earlier one with its numbers, and no
response comes to a cell that has one, no assertion fails when a command is executed or, but for that of `retry_delivery`,
in a tick; for every message of the device, whatever its numbers, the assertions hold if and only if it finds no other
response in its cell; and the cells that the listener works on are within its table. -/
theorem listener_assertions_hold
    (reach : Reach busStep (.new n) (fun s label => s.freshRequest label ∧ s.unanswered label = true) s) (l : Nat)
    (accepted : Bool) :
    (∀ fd result, processUnpackedMessage accepted (s.listeners l).rx s.heap fd result ≠ none ↔
      (result.ok = true → (s.matched l fd result.seqId).holdHasResult = false)) ∧
    (∀ b, (s.listeners l).nextCommand = some (.expectResponse b) →
      expectResponse accepted (s.listeners l).rx s.heap b ≠ none) ∧
    (∀ clock i, tickCell clock accepted (s.listeners l).rx s.heap i = none →
      ∃ b hasResult result, (s.listeners l).rx.state i = .expect (some b) .readyForDelivery hasResult result ∧
        (s.heap.boxes b).status ≠ .success) ∧
    (s.listeners l).rx.rxInfoMaxUsed < maxPendingMessages := by
  have status := status_invariant reach
  have owners := (bus_invariant reach).2
  obtain ⟨g, watched⟩ := (reach.weaken fun _ _ met => met.1).watch noteAuthors .none
  have inv := author_invariant watched
  refine ⟨fun fd result => ?_, fun b next => ?_, fun clock i stuck => tickCell_enabled (status.formed l i) stuck,
    maxUsed_of_reach reach l⟩
  · rw [processUnpackedMessage_enabled accepted fd result fun i b _ held => status.cell l i b held, s.matched_holdHasResult]
  · refine expectResponse_enabled accepted ?_ (status.formed l) fun i found => (inv.own_hold owners next found).2
    obtain ⟨slot, inCommand⟩ := Listener.box_of_nextCommand next
    rw [status.command l slot b inCommand]
    simp

/-- The response to the first request is turned away by the pool, and the second request has its `EXPECT` at the head of
the commit pipe. -/
theorem listener_assertions_hold_rejected :
    ∃ s, Reach busStep (.new 1) (fun s label => s.freshRequest label ∧ s.unanswered label = true) s ∧
      (s.listeners 0).nextCommand = some (.expectResponse 1) ∧ (s.matched 0 5 1).holdHasResult = false ∧
      (s.matched 0 5 0).holdHasResult = true ∧
      (∀ fd result, processUnpackedMessage true (s.listeners 0).rx s.heap fd result ≠ none ↔
        (result.ok = true → (s.matched 0 fd result.seqId).holdHasResult = false)) ∧
      (∀ b, (s.listeners 0).nextCommand = some (.expectResponse b) →
        expectResponse true (s.listeners 0).rx s.heap b ≠ none) ∧
      (∀ clock i, tickCell clock true (s.listeners 0).rx s.heap i = none →
        ∃ b hasResult result, (s.listeners 0).rx.state i = .expect (some b) .readyForDelivery hasResult result ∧
          (s.heap.boxes b).status ≠ .success) ∧
      (s.listeners 0).rx.rxInfoMaxUsed < maxPendingMessages := by
  have trace : (exec busStep (fun s label => decide (s.increasing label = true ∧ s.unanswered label = true)) (.new 1)
      (registerSteps 0 5 ++ sendSteps 0 ⟨5, 0, 1, [3]⟩ ++ [BusLabel.listener 0 (.recv 0 ⟨true, 7, 0⟩ false)] ++
        holdSteps 0 ⟨5, 1, 1, [1, 2]⟩ ++ writeSteps 0 2 ++
        [BusLabel.client 0 (.event (.timestamp (some ⟨0, 0⟩))), .client 0 .getFreeMsg, .client 0 (.pushMessage true)])).map
      (fun s => ((s.listeners 0).nextCommand, (s.matched 0 5 1).holdHasResult, (s.matched 0 5 0).holdHasResult)) =
      some (some (.expectResponse 1), false, true) := by decide +kernel
  obtain ⟨s, run, seen⟩ := exists_reach_of_exec trace
  simp only [Prod.mk.injEq] at seen
  have reach := freshRequest_of_reach (fun s label => s.unanswered label = true) run
  exact ⟨s, reach, seen.1, seen.2.1, seen.2.2, listener_assertions_hold reach 0 true⟩

/-- The device answers a request twice before its `EXPECT`, or twice while the pool is full. The second response fails an
assertion of `process_unpacked_message` in a run with increasing sequence ids. -/
theorem repeated_response_aborts :
    (∃ s, Reach busStep (.new 1) (fun s label => s.increasing label = true) s ∧
      (s.listeners 0).rx.state 0 = .hold 5 0 true ⟨true, 7, 0⟩ .none ∧
      ∀ accepted, processUnpackedMessage accepted (s.listeners 0).rx s.heap 5 ⟨true, 8, 0⟩ = none) ∧
    (∃ s, Reach busStep (.new 1) (fun s label => s.increasing label = true) s ∧
      (s.listeners 0).rx.state 0 = .expect (some 0) .readyForDelivery true ⟨true, 7, 0⟩ ∧
      ∀ accepted, processUnpackedMessage accepted (s.listeners 0).rx s.heap 5 ⟨true, 8, 0⟩ = none) := by
  constructor
  · have trace : (exec busStep (fun s label => decide (s.increasing label = true)) (.new 1)
        (registerSteps 0 5 ++ holdSteps 0 ⟨5, 0, 1, [1, 2]⟩ ++ writeSteps 0 2 ++
          [BusLabel.listener 0 (.recv 0 ⟨true, 7, 0⟩ true)])).map
        (fun s => ((s.listeners 0).rx.state 0,
          (processUnpackedMessage true (s.listeners 0).rx s.heap 5 ⟨true, 8, 0⟩).isNone,
          (processUnpackedMessage false (s.listeners 0).rx s.heap 5 ⟨true, 8, 0⟩).isNone)) =
        some (.hold 5 0 true ⟨true, 7, 0⟩ .none, true, true) := by decide +kernel
    obtain ⟨s, reach, seen⟩ := exists_reach_of_exec trace
    simp only [Prod.mk.injEq, Option.isNone_iff_eq_none] at seen
    refine ⟨s, reach, seen.1, fun accepted => ?_⟩
    cases accepted with
    | true => exact seen.2.1
    | false => exact seen.2.2
  · have trace : (exec busStep (fun s label => decide (s.increasing label = true)) (.new 1)
        (registerSteps 0 5 ++ sendSteps 0 ⟨5, 0, 1, [1, 2]⟩ ++ [BusLabel.listener 0 (.recv 0 ⟨true, 7, 0⟩ false)])).map
        (fun s => ((s.listeners 0).rx.state 0,
          (processUnpackedMessage true (s.listeners 0).rx s.heap 5 ⟨true, 8, 0⟩).isNone,
          (processUnpackedMessage false (s.listeners 0).rx s.heap 5 ⟨true, 8, 0⟩).isNone)) =
        some (.expect (some 0) .readyForDelivery true ⟨true, 7, 0⟩, true, true) := by decide +kernel
    obtain ⟨s, reach, seen⟩ := exists_reach_of_exec trace
    simp only [Prod.mk.injEq, Option.isNone_iff_eq_none] at seen
    refine ⟨s, reach, seen.1, fun accepted => ?_⟩
    cases accepted with
    | true => exact seen.2.1
    | false => exact seen.2.2

end Runs

end Kinetic
