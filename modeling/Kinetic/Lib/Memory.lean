import Mathlib.Tactic.Common

namespace Memory
variable {α : Type}

/-- `memcpy (dst + off, src, n)`. -/
def copy (dst : Nat → α) (off : Nat) (src : Nat → α) (n : Nat) : Nat → α :=
  fun i => if off ≤ i ∧ i < off + n then src (i - off) else dst i

/-- The `n` cells from `off` on, as a list. -/
def load (m : Nat → α) (off n : Nat) : List α := (List.range n).map fun i => m (off + i)

/-- A memory whose first cells hold the list, over the contents it had. -/
def store (m : Nat → α) (bytes : List α) : Nat → α := fun i => bytes.getD i (m i)

@[simp] theorem load_length (m : Nat → α) (off n : Nat) : (load m off n).length = n := by
  simp [load]

theorem load_getElem? (m : Nat → α) (off n i : Nat) (within : i < n) : (load m off n)[i]? = some (m (off + i)) := by
  simp [load, within]

theorem load_add (m : Nat → α) (off n k : Nat) : load m off (n + k) = load m off n ++ load m (off + n) k := by
  simp only [load, List.range_add, List.map_append, List.map_map, Nat.add_assoc]
  rfl

theorem load_congr {m m' : Nat → α} {off n : Nat} (same : ∀ i, off ≤ i → i < off + n → m i = m' i) :
    load m off n = load m' off n := by
  refine List.map_congr_left fun i member => same _ (by omega) ?_
  have := List.mem_range.mp member
  omega

theorem load_store (m : Nat → α) (bytes : List α) : load (store m bytes) 0 bytes.length = bytes := by
  refine List.ext_getElem? fun i => ?_
  by_cases within : i < bytes.length
  · rw [load_getElem? _ _ _ _ within]
    simp [store, within]
  · simp [load, within]

/-- Copying behind the bytes already there appends to them. -/
theorem load_copy_append (dst : Nat → α) (off : Nat) (src : Nat → α) (n : Nat) :
    load (copy dst off src n) 0 (off + n) = load dst 0 off ++ load src 0 n := by
  rw [load_add]
  congr 1
  · refine load_congr fun i _ upper => ?_
    simp only [copy]
    rw [if_neg (by omega)]
  · refine List.map_congr_left fun i member => ?_
    have within := List.mem_range.mp member
    simp only [copy, Nat.zero_add]
    rw [if_pos (by omega), Nat.add_sub_cancel_left]

/-- The bytes of a list are copied to `off`. -/
def write (m : Nat → α) (off : Nat) (bytes : List α) : Nat → α := copy m off (store m bytes) bytes.length

/-- Writing behind the first `off` cells appends to them. -/
theorem load_write (m : Nat → α) (off : Nat) (bytes : List α) :
    load (write m off bytes) 0 (off + bytes.length) = load m 0 off ++ bytes := by
  unfold write
  rw [load_copy_append, load_store]

/-- Any window of a loaded block. -/
theorem load_window {m : Nat → α} {n a b : Nat} {bytes : List α} (whole : load m 0 n = bytes) (inside : a + b ≤ n) :
    load m a b = (bytes.drop a).take b := by
  subst whole
  refine List.ext_getElem? fun i => ?_
  by_cases within : i < b
  · rw [load_getElem? _ _ _ _ within, List.getElem?_take_of_lt within, List.getElem?_drop,
      load_getElem? _ _ _ _ (by omega), Nat.zero_add]
  · rw [List.getElem?_eq_none (by rw [load_length]; omega),
      List.getElem?_eq_none (by rw [List.length_take]; omega)]

end Memory
