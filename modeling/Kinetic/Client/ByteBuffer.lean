import Kinetic.Lib.Memory
import Mathlib.Data.UInt

namespace Kinetic

/-- A pointer with a length, as in `ByteArray` and `ProtobufCBinaryData`. The
memory behind the pointer is `none` when that is `NULL`. -/
structure BinaryData where
  data : Option (Nat → UInt8)
  len : UInt64

def BinaryData.bytes (array : BinaryData) : List UInt8 :=
  match array.data with
  | none => []
  | some mem => Memory.load mem 0 array.len.toNat

/-- `ByteBuffer`. `len` is the capacity of its array. -/
structure ByteBuffer extends BinaryData where
  bytesUsed : UInt64

namespace ByteBuffer

/-- `BYTE_BUFFER_NONE`. -/
def none : ByteBuffer := { data := Option.none, len := 0, bytesUsed := 0 }

/-- `ByteBuffer_IsNull`. -/
def isNull (b : ByteBuffer) : Bool := b.data.isNone

/-- `ByteBuffer_Reset`. -/
def reset (b : ByteBuffer) : ByteBuffer := { b with bytesUsed := 0 }

/-- `ByteBuffer_Append`, which returns `NULL`, here false, when there is no room. `none` is a failing assertion. -/
def append (b : ByteBuffer) (data : Option (Nat → UInt8)) (len : UInt64) : Option (Bool × ByteBuffer) :=
  match b.data, data with
  | some mem, some src =>
    if b.bytesUsed + len > b.len then some (false, b)
    else some (true, { b with data := some (Memory.copy mem b.bytesUsed.toNat src len.toNat), bytesUsed := b.bytesUsed + len })
  | _, _ => Option.none

/-- `ByteBuffer_AppendArray`. -/
def appendArray (b : ByteBuffer) (array : BinaryData) : Option (Bool × ByteBuffer) := b.append array.data array.len

/-- The used bytes. -/
def used (b : ByteBuffer) : List UInt8 := BinaryData.bytes ⟨b.data, b.bytesUsed⟩

/-- The buffer holds these bytes and no others. -/
def Holds (b : ByteBuffer) (bytes : List UInt8) : Prop := b.used = bytes ∧ b.bytesUsed.toNat = bytes.length

/-- An array fits into a buffer of which nothing is used. -/
def Fits (b : ByteBuffer) (array : BinaryData) : Prop := array.len = 0 ∨ b.isNull = false ∧ array.len ≤ b.len

instance instDecidableFits (b : ByteBuffer) (array : BinaryData) : Decidable (b.Fits array) :=
  inferInstanceAs (Decidable (_ ∨ _ ∧ _))

end ByteBuffer

/-- A buffer with these bytes at the front of an array of `len` bytes. -/
def bufferOf (bytes : List UInt8) (len bytesUsed : UInt64) : ByteBuffer :=
  { data := some (Memory.store (fun _ => 0) bytes), len := len, bytesUsed := bytesUsed }

section Buffers
variable {b : ByteBuffer} {array : BinaryData}

theorem BinaryData.bytes_eq {src : Nat → UInt8} (found : array.data = some src) : array.bytes = Memory.load src 0 array.len.toNat := by
  unfold BinaryData.bytes
  rw [found]

theorem BinaryData.bytes_nil (empty : array.len = 0) : array.bytes = [] := by
  unfold BinaryData.bytes
  rw [empty]
  cases array.data <;> rfl

theorem ByteBuffer.holds_nil_iff : b.Holds [] ↔ b.bytesUsed = 0 := by
  constructor
  · intro holds
    exact UInt64.toNat_inj.mp holds.2
  · intro empty
    exact ⟨BinaryData.bytes_nil empty, by rw [empty]; rfl⟩

theorem ByteBuffer.reset_holds (b : ByteBuffer) : b.reset.Holds [] := ByteBuffer.holds_nil_iff.mpr rfl

theorem ByteBuffer.used_eq {mem : Nat → UInt8} (target : b.data = some mem) :
    b.used = Memory.load mem 0 b.bytesUsed.toNat := by
  unfold ByteBuffer.used BinaryData.bytes
  rw [target]

/-- A buffer with memory behind it holds what is used of it. -/
theorem ByteBuffer.holds_used {mem : Nat → UInt8} (target : b.data = some mem) : b.Holds b.used := by
  refine ⟨rfl, ?_⟩
  rw [ByteBuffer.used_eq target, Memory.load_length]

theorem ByteBuffer.data_of_present (present : b.isNull = false) : ∃ mem, b.data = some mem := by
  refine Option.isSome_iff_exists.mp ?_
  simpa [ByteBuffer.isNull] using present

/-- What is appended to a buffer of which nothing is used is afterwards all that it holds. -/
theorem ByteBuffer.append_holds {mem : Nat → UInt8} {len : UInt64} (src : Nat → UInt8) (target : b.data = some mem)
    (unused : b.bytesUsed = 0) (room : len ≤ b.len) : ∃ b', b.append (some src) len = some (true, b') ∧ b'.Holds (Memory.load src 0 len.toNat) ∧
      b'.len = b.len ∧ b'.isNull = b.isNull := by
  have within : ¬ b.bytesUsed + len > b.len := by
    rw [unused, UInt64.zero_add]
    exact UInt64.not_lt.mpr room
  refine ⟨{ b with data := some (Memory.copy mem b.bytesUsed.toNat src len.toNat), bytesUsed := b.bytesUsed + len }, ?_, ⟨?_, ?_⟩,
    rfl, ?_⟩
  · unfold ByteBuffer.append
    rw [target]
    exact if_neg within
  · change Memory.load (Memory.copy mem b.bytesUsed.toNat src len.toNat) 0 (b.bytesUsed + len).toNat = _
    rw [unused, UInt64.zero_add]
    have copied := Memory.load_copy_append mem 0 src len.toNat
    rw [Nat.zero_add] at copied
    exact copied
  · rw [Memory.load_length]
    change (b.bytesUsed + len).toNat = len.toNat
    rw [unused, UInt64.zero_add]
  · unfold ByteBuffer.isNull
    rw [target]
    rfl

/-- What has no room is not appended at all. -/
theorem ByteBuffer.append_refused {mem : Nat → UInt8} {len : UInt64} (src : Nat → UInt8) (target : b.data = some mem)
    (unused : b.bytesUsed = 0) (full : ¬ len ≤ b.len) : b.append (some src) len = some (false, b) := by
  have beyond : b.bytesUsed + len > b.len := by
    rw [unused, UInt64.zero_add]
    exact UInt64.not_le.mp full
  unfold ByteBuffer.append
  rw [target]
  exact if_pos beyond

end Buffers

end Kinetic
