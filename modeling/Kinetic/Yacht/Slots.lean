import Kinetic.Yacht.Table
import Mathlib.Data.Int.ModEq

namespace Kinetic
open Probe

/-- A key the table can hold: any `int` but the two sentinels. -/
def Live (key : Int32) : Prop := key ≠ yachtNoKey ∧ key ≠ yachtDeleted

instance (key : Int32) : Decidable (Live key) := inferInstanceAs (Decidable (_ ∧ _))

/-- The bucket examined at offset `o` of the probe sequence of `key`. -/
def slot (size : Nat) (key : Int32) (o : Nat) : Nat := ring size (hash key) o

theorem slot_lt {size : Nat} (positive : 0 < size) (key : Int32) (o : Nat) : slot size key o < size :=
  ring_lt positive _ _

theorem masked_eq_slot {n : Nat} (key : Int32) (o : Nat) :
    ((hash key &&& (2 ^ n - 1)) + o) &&& (2 ^ n - 1) = slot (2 ^ n) key o := by
  simp only [Nat.and_two_pow_sub_one_eq_mod, slot, ring, Nat.mod_add_mod]

theorem masked_next {n : Nat} (key : Int32) (o : Nat) :
    (slot (2 ^ n) key o + 1) &&& (2 ^ n - 1) = slot (2 ^ n) key (o + 1) := by
  rw [Nat.and_two_pow_sub_one_eq_mod, slot, slot, ring_succ]

theorem slot_zero_emod {n : Nat} (large : 32 ≤ n) (key : Int32) :
    ((slot (2 ^ n) key 0 : Nat) : Int) % 2 ^ 32 = key.toInt * largePrime % 2 ^ 32 := by
  have positive : (0 : Int) ≤ key.toInt * largePrime % 2 ^ 64 := Int.emod_nonneg _ (by decide)
  have divides : (2 ^ 32 : Int) ∣ 2 ^ n := pow_dvd_pow 2 large
  simp only [slot, ring, hash, Nat.add_zero]
  rw [Int.natCast_emod, Int.natCast_pow, Nat.cast_ofNat, Int.toNat_of_nonneg positive, Int.emod_emod_of_dvd _ divides,
    Int.emod_emod_of_dvd _ (by decide : (2 ^ 32 : Int) ∣ 2 ^ 64)]

/-- Multiplication by the odd constant is injective modulo `2 ^ 32`, so from
`2 ^ 32` buckets on no two keys share their first bucket. -/
theorem slot_zero_injective {n : Nat} (large : 32 ≤ n) {key other : Int32}
    (same : slot (2 ^ n) key 0 = slot (2 ^ n) other 0) : key = other := by
  have product : key.toInt * largePrime ≡ other.toInt * largePrime [ZMOD 2 ^ 32] := by
    rw [Int.ModEq, ← slot_zero_emod large, ← slot_zero_emod large, same]
  have inverse : largePrime * 858993459 = 1 + 2 ^ 32 * 858993458 := by decide
  have cancel (x : Int) : x * largePrime * 858993459 ≡ x [ZMOD 2 ^ 32] := by
    rw [Int.mul_assoc, inverse, Int.mul_add, Int.mul_one, Int.mul_left_comm]
    exact Int.modEq_add_fac_self
  have congruent : key.toInt ≡ other.toInt [ZMOD 2 ^ 32] :=
    (cancel _).symm.trans ((product.mul_right _).trans (cancel _))
  have keyLower := key.le_toInt
  have keyUpper := key.toInt_lt
  have otherLower := other.le_toInt
  have otherUpper := other.toInt_lt
  rw [Int.ModEq] at congruent
  exact Int32.toInt_inj.mp (by omega)

end Kinetic
