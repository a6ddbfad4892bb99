import Kinetic.Lib.Probe
import Mathlib.Logic.Function.Basic

namespace Kinetic

/-- `YACHT_NO_KEY` marks an empty bucket, `YACHT_DELETED` a bucket whose key was removed. -/
def yachtNoKey : Int32 := -1
def yachtDeleted : Int32 := -2

def defSz2 : Nat := 4
def maxProbes : Nat := 16
def largePrime : Int := 4294967291

/-- `struct yacht`. An array is a function of its index: every access is
masked, so no index from `size` on is ever read or written. `default : V`
is the `NULL` pointer. -/
structure Yacht (V : Type) where
  size : Nat
  mask : Nat
  buckets : Nat → Int32
  values : Nat → V

/-- `Yacht_Init` with all three allocations succeeding. `1 << sz2` is a shift of
an `int`, defined in C for `sz2 < 31` only; the model takes its arithmetic value for every `sz2`. -/
def yachtInit (V : Type) [Inhabited V] (sz2 : Nat) : Yacht V :=
  let size := 2 ^ (if sz2 = 0 then defSz2 else sz2)
  { size := size, mask := size - 1, buckets := fun _ => yachtNoKey, values := fun _ => default }

/-- `key * LARGE_PRIME` as a 64-bit `long`, converted to `size_t`. -/
def hash (key : Int32) : Nat := (key.toInt * largePrime % 2 ^ 64).toNat

section Operations
variable {V : Type}

/-- The `for` loop of `Yacht_Get` from offset `o` on, with `n` offsets left. -/
def yachtGetLoop (y : Yacht V) (key : Int32) (b : Nat) : Nat → Nat → Option V
  | _, 0 => none
  | o, n + 1 =>
    let i := (b + o) &&& y.mask
    let bv := y.buckets i
    if bv = key then some (y.values i)
    else if bv = yachtNoKey ∨ bv = yachtDeleted then none
    else yachtGetLoop y key b (o + 1) n

/-- `Yacht_Get`: the value read, or `none` when the function returns false. -/
def yachtGet (y : Yacht V) (key : Int32) : Option V :=
  yachtGetLoop y key (hash key &&& y.mask) 0 y.size

def yachtMember (y : Yacht V) (key : Int32) : Bool := (yachtGet y key).isSome

/-- What a successful `insert` leaves: the two arrays, and the value it
writes to `*old_value` when the key was present. -/
structure Inserted (V : Type) where
  buckets : Nat → Int32
  values : Nat → V
  old : Option V

/-- The loop of `insert`; `none` is its `return false`, "too full". -/
def insertLoop (buckets : Nat → Int32) (values : Nat → V) (mask : Nat) (key : Int32) (value : V) (b : Nat) :
    Nat → Nat → Option (Inserted V)
  | _, 0 => none
  | o, n + 1 =>
    let i := (b + o) &&& mask
    let bv := buckets i
    if bv = key then
      some ⟨buckets, Function.update values i value, some (values i)⟩
    else if bv = yachtNoKey ∨ bv = yachtDeleted then
      some ⟨Function.update buckets i key, Function.update values i value, none⟩
    else insertLoop buckets values mask key value b (o + 1) n

def insert (buckets : Nat → Int32) (values : Nat → V) (mask maxFill : Nat) (key : Int32) (value : V) :
    Option (Inserted V) :=
  insertLoop buckets values mask key value (hash key &&& mask) 0 maxFill

/-- The copying loop of `grow` from bucket `i` of the old table on, with `n`
buckets left; `none` is the jump to `cleanup`. -/
def growLoop (y : Yacht V) (nsize nmask : Nat) :
    Nat → Nat → (Nat → Int32) → (Nat → V) → Option ((Nat → Int32) × (Nat → V))
  | _, 0, nbuckets, nvalues => some (nbuckets, nvalues)
  | i, n + 1, nbuckets, nvalues =>
    let key := y.buckets i
    if key ≠ yachtNoKey ∧ key ≠ yachtDeleted then
      match insert nbuckets nvalues nmask nsize key (y.values i) with
      | some r => growLoop y nsize nmask (i + 1) n r.buckets r.values
      | none => none
    else growLoop y nsize nmask (i + 1) n nbuckets nvalues

/-- `grow`, where `alloc` says whether both of its allocations succeed. -/
def grow [Inhabited V] (alloc : Bool) (y : Yacht V) : Option (Yacht V) :=
  let nsize := 2 * y.size
  let nmask := nsize - 1
  if alloc then
    match growLoop y nsize nmask 0 y.size (fun _ => yachtNoKey) (fun _ => default) with
    | some (nbuckets, nvalues) => some { size := nsize, mask := nmask, buckets := nbuckets, values := nvalues }
    | none => none
  else none

/-- The table, return value and `*old_value` of one `Yacht_Set`. -/
structure SetResult (V : Type) where
  table : Yacht V
  ok : Bool
  old : Option V

/-- The number of probes `Yacht_Set` allows itself in a table of the given size. -/
def setWindow (size : Nat) : Nat := if size / 2 > 16 then maxProbes else size / 2

/-- The `for (;;)` of `Yacht_Set`, cut off after `fuel` rounds; `allocs j`
says whether the allocations of the `j`-th following growth succeed. -/
def yachtSetLoop [Inhabited V] (key : Int32) (value : V) : Nat → (Nat → Bool) → Yacht V → Option (SetResult V)
  | 0, _, _ => none
  | fuel + 1, allocs, y =>
    match insert y.buckets y.values y.mask (setWindow y.size) key value with
    | some r => some ⟨{ y with buckets := r.buckets, values := r.values }, true, r.old⟩
    | none =>
      match grow (allocs 0) y with
      | some y' => yachtSetLoop key value fuel (fun j => allocs (j + 1)) y'
      | none => some ⟨y, false, none⟩

/-- Rounds that suffice: `2 ^ 32` buckets are reached after 32 growths at most. -/
def setRounds : Nat := 34

/-- `Yacht_Set`. -/
def yachtSet [Inhabited V] (allocs : Nat → Bool) (y : Yacht V) (key : Int32) (value : V) : Option (SetResult V) :=
  yachtSetLoop key value setRounds allocs y

/-- The loop of `Yacht_Remove`, whose caller may pass no `old_value`
pointer, in which case the value array is left as it is. -/
def yachtRemoveLoop [Inhabited V] (y : Yacht V) (key : Int32) (wantOld : Bool) (b : Nat) :
    Nat → Nat → Option (Yacht V × V)
  | _, 0 => none
  | o, n + 1 =>
    let i := (b + o) &&& y.mask
    let bv := y.buckets i
    if bv = key then
      let freed := if y.buckets ((i + 1) &&& y.mask) = yachtNoKey then yachtNoKey else yachtDeleted
      let values := if wantOld then Function.update y.values i default else y.values
      some ({ y with buckets := Function.update y.buckets i freed, values := values }, y.values i)
    else if bv = yachtNoKey then none
    else yachtRemoveLoop y key wantOld b (o + 1) n

/-- `Yacht_Remove`: the new table and the removed value, or `none` when the key is not found. -/
def yachtRemove [Inhabited V] (y : Yacht V) (key : Int32) (wantOld : Bool) : Option (Yacht V × V) :=
  yachtRemoveLoop y key wantOld (hash key &&& y.mask) 0 y.size

end Operations

end Kinetic
