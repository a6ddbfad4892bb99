import Kinetic.Bus.Steps
import Kinetic.Listener.Timeouts

namespace Kinetic
open Transition (Reach watch exec exists_reach_of_exec)

/-- The countdown that `Send_DoBlockingSend` asks for in the `HOLD` of a request, as it comes out of the `int16_t` of
`attempt_to_enqueue_HOLD_message_to_listener`, `Listener_HoldResponse` and `hold_response`. -/
def holdTimeoutSec (timeoutSec : Nat) : Int := (effectiveTimeoutSec timeoutSec + 5 : Int).bmod (2 ^ 16)

theorem command_hold {s : BusState} {msg : UserMsg} {box : BoxedMsg} {conns : Connections} {b tries : Nat} {start : Timeval}
    (boxed : boxMsg s msg = some (box, conns)) {s' : BusState} (here : s'.heap.boxes b = box) :
    Purpose.command s' (.hold b start tries) = .holdResponse msg.fd msg.seqId (holdTimeoutSec msg.timeoutSec) := by
  obtain ⟨ci, _, filled, _⟩ := boxMsg_eq_some boxed
  unfold Purpose.command holdTimeoutSec
  dsimp only
  rw [here, filled]

/-- The `HOLD` of a request with this timeout, whatever the listener has been through, starts five seconds above the timeout,
and if it gets no `EXPECT` its cell is released in the tick this countdown says and not before. -/
def HoldLasts (timeoutSec : Nat) : Prop :=
  ∀ s fd seqId i, Reach rxStep .new (fun s a => a.Proper s) s → s.rx.rxInfoFreelist.head? = some i →
    ∃ held, rxStep s (.hold fd seqId (holdTimeoutSec timeoutSec)) = some held ∧
      held.rx.Holds i fd seqId (effectiveTimeoutSec timeoutSec + 5 : Nat) ∧
      ∀ s' k, Reach (watch rxStep countTicks) (held, 0) (fun s a => a.Proper s.1 ∧ a.LeavesHold i s.1) (s', k) →
        (k < effectiveTimeoutSec timeoutSec + 5 → s'.rx.Holds i fd seqId (effectiveTimeoutSec timeoutSec + 5 - k : Nat)) ∧
        (k + 1 = effectiveTimeoutSec timeoutSec + 5 → ∀ env s'', env.clock i = true →
          rxStep s' (.tick env) = some s'' → s''.rx.state i = .inactive)

theorem holdTimeoutSec_eq_iff {timeoutSec : Nat} :
    holdTimeoutSec timeoutSec = ((effectiveTimeoutSec timeoutSec + 5 : Nat) : Int) ↔ effectiveTimeoutSec timeoutSec ≤ 32762 := by
  unfold holdTimeoutSec
  constructor
  · intro same
    have below := Int.bmod_lt (x := effectiveTimeoutSec timeoutSec + 5) (m := 2 ^ 16) (by decide)
    omega
  · intro low
    rw [Int.bmod_eq_of_le (by omega) (by omega)]
    omega

/-- A `HOLD` takes the first free cell. -/
theorem rxStep_hold {s : RxListener} {i : Nat} (inv : s.Inv) (free : s.rx.rxInfoFreelist.head? = some i)
    (fd seqId timeoutSec : Int) :
    ∃ held, rxStep s (.hold fd seqId timeoutSec) = some held ∧
      held.rx.rxInfo i = ⟨timeoutSec, .hold fd seqId false .zero .none⟩ := by
  obtain ⟨⟨cell, reserved⟩, got⟩ := Option.ne_none_iff_exists'.mp (getFreeRxInfo_shaped inv.sound.shaped)
  have found : cell = some i := by
    rw [← free]
    exact (getFreeRxInfo_head got).symm
  subst found
  refine ⟨_, by simp [rxStep, holdResponse, got]; rfl, ?_⟩
  simp [RxTable.set]

theorem new_freelist : RxListener.new.rx.rxInfoFreelist.head? = some 0 := by
  simp [RxListener.new, RxTable.new, maxPendingMessages, List.head?_range]

theorem HoldLasts.low {timeoutSec : Nat} (lasts : HoldLasts timeoutSec) : effectiveTimeoutSec timeoutSec ≤ 32762 := by
  obtain ⟨held, run, ⟨hasResult, result, error, cell⟩, _⟩ := lasts .new 5 1 0 .start new_freelist
  obtain ⟨other, same, here⟩ := rxStep_hold RxListener.new_inv new_freelist 5 1 (holdTimeoutSec timeoutSec)
  have equal : held = other := Option.some.inj (run.symm.trans same)
  rw [← equal, cell, RxInfo.mk.injEq] at here
  exact holdTimeoutSec_eq_iff.mp here.1.symm

/-- A `HOLD` lasts as long as it should for the timeouts that the `int16_t` has room for with its five seconds. -/
theorem holdLasts_iff (timeoutSec : Nat) : HoldLasts timeoutSec ↔ effectiveTimeoutSec timeoutSec ≤ 32762 := by
  constructor
  · exact HoldLasts.low
  · intro low s fd seqId i reach free
    have inv := RxListener.inv_of_reach reach
    obtain ⟨held, run, cell⟩ := rxStep_hold inv free fd seqId (holdTimeoutSec timeoutSec)
    rw [holdTimeoutSec_eq_iff.mpr low] at cell
    have holds : held.rx.Holds i fd seqId (effectiveTimeoutSec timeoutSec + 5 : Nat) := ⟨false, .zero, .none, cell⟩
    refine ⟨held, run, holds, fun s' k later => ?_⟩
    have proper : RxAction.Proper s (.hold fd seqId (holdTimeoutSec timeoutSec)) := trivial
    obtain ⟨after, keeps⟩ := holds_of_reach (reach.next proper run) holds later
    refine ⟨keeps, fun last env s'' clock ticked => ?_⟩
    have still := keeps (by omega)
    rw [show effectiveTimeoutSec timeoutSec + 5 - k = 1 by omega] at still
    exact (tick_expires_hold after ticked clock still).1

/-- The countdown of a `HOLD` for nine hours and six minutes is below zero. -/
theorem holdLasts_fails : ¬ HoldLasts 32763 ∧ ∃ held, rxStep .new (.hold 5 1 (holdTimeoutSec 32763)) = some held ∧
    held.rx.rxInfo 0 = ⟨-32768, .hold 5 1 false .zero .none⟩ := by
  obtain ⟨held, run, cell⟩ := rxStep_hold RxListener.new_inv new_freelist 5 1 (holdTimeoutSec 32763)
  refine ⟨fun lasts => ?_, held, run, cell⟩
  exact absurd lasts.low (by decide)

/-- A countdown that is not above zero does not end. -/
theorem hold_immortal {s s' : RxListener} {i : Nat} {fd seqId timeoutSec : Int}
    (reach : Reach rxStep .new (fun s a => a.Proper s) s) (holds : s.rx.Holds i fd seqId timeoutSec) (ended : timeoutSec ≤ 0)
    (later : Reach rxStep s (fun s a => a.Proper s ∧ a.LeavesHold i s) s') : s'.rx.state i ≠ .inactive := by
  have stays : ∃ timeoutSec ≤ 0, s'.rx.Holds i fd seqId timeoutSec := by
    induction later with
    | start => exact ⟨timeoutSec, ended, holds⟩
    | @next r t a onward ok run ih =>
      obtain ⟨left, below, held⟩ := ih
      by_cases ticking : ∃ env, a = .tick env
      · obtain ⟨env, rfl⟩ := ticking
        have inv := RxListener.inv_of_reach (reach.trans (onward.weaken fun _ _ both => both.1))
        exact ⟨left - 1, by omega, tick_counts_hold inv run held (by omega)⟩
      · exact ⟨left, below, rxStep_holds run ok.2 (fun env same => ticking ⟨env, same⟩) held⟩
  obtain ⟨_, _, held⟩ := stays
  exact held.active

end Kinetic
