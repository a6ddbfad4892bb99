import Kinetic.Client.ByteBuffer

namespace Kinetic

namespace ByteBuffer

/-- `ByteBuffer_AppendBuffer`. -/
def appendBuffer (b other : ByteBuffer) : Option (Bool × ByteBuffer) :=
  if other.bytesUsed ≤ other.len then b.append other.data other.bytesUsed else Option.none

/-- A length that goes through an `int`, and is converted back to `size_t` where it is added. -/
def intLength (n : Nat) : UInt64 :=
  if n % 2 ^ 32 < 2 ^ 31 then UInt64.ofNat (n % 2 ^ 32) else UInt64.ofNat (n % 2 ^ 32) - UInt64.ofNat (2 ^ 32)

/-- `ByteBuffer_AppendCString`, with the bytes of the string before its end. -/
def appendCString (b : ByteBuffer) (str : Option (List UInt8)) : Option (Bool × ByteBuffer) :=
  match b.data, str with
  | some mem, some str =>
    let len := intLength str.length
    if len = 0 ∨ b.bytesUsed + len > b.len then some (false, b)
    else
      some (true, { b with
        data := some (Memory.copy mem b.bytesUsed.toNat (Memory.store (fun _ => 0) str) len.toNat)
        bytesUsed := b.bytesUsed + len })
  | _, _ => Option.none

/-- `ByteBuffer_AppendDummyData`. -/
def appendDummyData (b : ByteBuffer) (len : UInt64) : Option (Bool × ByteBuffer) :=
  match b.data with
  | some mem =>
    if len = 0 ∨ b.bytesUsed + len > b.len then some (false, b)
    else
      some (true, { b with
        data := some (Memory.copy mem b.bytesUsed.toNat UInt8.ofNat len.toNat), bytesUsed := b.bytesUsed + len })
  | Option.none => Option.none

/-- `ByteBuffer_AppendFormattedCString`, with the text that `vsnprintf` formats. That writes as much of it as there is room for
before a final zero, also when the text is refused. -/
def appendFormattedCString (b : ByteBuffer) (text : List UInt8) : Option (Bool × ByteBuffer) :=
  match b.data with
  | some mem =>
    let remainingLen := (b.len - b.bytesUsed).toNat
    let written := if remainingLen = 0 then mem else Memory.write mem b.bytesUsed.toNat (text.take (remainingLen - 1) ++ [0])
    if b.bytesUsed.toNat + text.length ≥ b.len.toNat then some (false, { b with data := some written })
    else some (true, { b with data := some written, bytesUsed := b.bytesUsed + UInt64.ofNat text.length })
  | Option.none => Option.none

/-- `ByteBuffer_Consume`, which returns `BYTE_ARRAY_NONE` when everything is used. -/
def consume (b : ByteBuffer) (maxLen : UInt64) : Option (BinaryData × ByteBuffer) :=
  match b.data with
  | some mem =>
    if b.bytesUsed ≥ b.len then some (⟨Option.none, 0⟩, b)
    else
      let remaining := b.len - b.bytesUsed
      let len := if maxLen < remaining then maxLen else remaining
      some (⟨some fun i => mem (b.bytesUsed.toNat + i), len⟩, { b with bytesUsed := b.bytesUsed + len })
  | Option.none => Option.none

end ByteBuffer

/-- A call for a buffer. -/
inductive BufferCall
  | reset
  | append (data : Nat → UInt8) (len : UInt64)
  | appendBuffer (other : ByteBuffer)
  | appendCString (str : List UInt8)
  | appendDummyData (len : UInt64)
  | appendFormattedCString (text : List UInt8)
  | consume (maxLen : UInt64)

/-- What a call returns: nothing, whether the buffer has taken the bytes, or the bytes of the slice, if there is one. -/
inductive BufferReply
  | done
  | appended (ok : Bool)
  | slice (bytes : Option (List UInt8))
  deriving DecidableEq

/-- What a buffer is for: a string of fixed length with a mark in it. -/
structure ByteWindow where
  front : List UInt8
  back : List UInt8
  deriving DecidableEq

namespace ByteWindow

/-- Bytes are written at the mark, which goes behind them. -/
def put (w : ByteWindow) (bytes : List UInt8) : ByteWindow := ⟨w.front ++ bytes, w.back.drop bytes.length⟩

def append (w : ByteWindow) (bytes : List UInt8) : BufferReply × ByteWindow :=
  if bytes.length ≤ w.back.length then (.appended true, w.put bytes) else (.appended false, w)

/-- A text is followed by a zero, which is not counted. Where both have no room, the text is cut. -/
def print (w : ByteWindow) (text : List UInt8) : BufferReply × ByteWindow :=
  if text.length < w.back.length then (.appended true, ⟨w.front ++ text, 0 :: w.back.drop (text.length + 1)⟩)
  else (.appended false, ⟨w.front, if w.back.isEmpty then [] else text.take (w.back.length - 1) ++ [0]⟩)

def consume (w : ByteWindow) (maxLen : Nat) : BufferReply × ByteWindow :=
  if w.back.isEmpty then (.slice none, w)
  else (.slice (some (w.back.take maxLen)), w.put (w.back.take maxLen))

def step (w : ByteWindow) : BufferCall → BufferReply × ByteWindow
  | .reset => (.done, ⟨[], w.front ++ w.back⟩)
  | .append data len => w.append (Memory.load data 0 len.toNat)
  | .appendBuffer other => w.append other.used
  | .appendCString str => if str.isEmpty then (.appended false, w) else w.append str
  | .appendDummyData len => if len = 0 then (.appended false, w) else w.append (Memory.load UInt8.ofNat 0 len.toNat)
  | .appendFormattedCString text => w.print text
  | .consume maxLen => w.consume maxLen.toNat

def run : ByteWindow → List BufferCall → List BufferReply × ByteWindow
  | w, [] => ([], w)
  | w, call :: rest =>
    let first := w.step call
    let later := run first.2 rest
    (first.1 :: later.1, later.2)

end ByteWindow

/-- The objects of a call have the sizes that objects have, and a string or a text has the length of an `int`. -/
def BufferCall.Sized : BufferCall → Prop
  | .reset | .consume _ => True
  | .append _ len | .appendDummyData len => len.toNat < 2 ^ 63
  | .appendBuffer other => other.isNull = false ∧ other.bytesUsed ≤ other.len ∧ other.len.toNat < 2 ^ 63
  | .appendCString str => str.length < 2 ^ 31
  | .appendFormattedCString text => text.length < 2 ^ 31

/-- The buffer stands for the window, and the memory behind its array is as it was. -/
structure Shows (beyond : Nat → UInt8) (b : ByteBuffer) (w : ByteWindow) : Prop where
  sized : b.len.toNat < 2 ^ 63
  mark : b.bytesUsed.toNat = w.front.length
  length : b.len.toNat = w.front.length + w.back.length
  contents : ∃ mem, b.data = some mem ∧ Memory.load mem 0 b.len.toNat = w.front ++ w.back ∧
    ∀ i, b.len.toNat ≤ i → mem i = beyond i

section Simulation
variable {beyond : Nat → UInt8} {b b' : ByteBuffer} {w : ByteWindow} {mem : Nat → UInt8}

/-- Copying into the middle of what is loaded. -/
theorem load_copy_window {front back : List UInt8} {len : Nat} (whole : Memory.load mem 0 len = front ++ back)
    (src : Nat → UInt8) {n : Nat} (room : n ≤ back.length) :
    Memory.load (Memory.copy mem front.length src n) 0 len = front ++ Memory.load src 0 n ++ back.drop n := by
  have total : len = front.length + n + (back.length - n) := by
    have size := congrArg List.length whole
    rw [Memory.load_length, List.length_append] at size
    omega
  have first : Memory.load mem 0 front.length = front := by
    have window := Memory.load_window (a := 0) (b := front.length) whole (by omega)
    rw [window, List.drop_zero, List.take_left]
  have last : Memory.load mem (0 + (front.length + n)) (back.length - n) = back.drop n := by
    have window := Memory.load_window (a := front.length + n) (b := back.length - n) whole (by omega)
    rw [Nat.zero_add, window, ← List.drop_drop, List.drop_left, List.take_of_length_le (by rw [List.length_drop])]
  rw [total, Memory.load_add, Memory.load_copy_append, first]
  congr 1
  rw [← last]
  refine Memory.load_congr fun i lower _ => ?_
  simp only [Memory.copy]
  rw [if_neg (by omega)]

theorem toNat_add_of_lt {x y : UInt64} (first : x.toNat < 2 ^ 63) (second : y.toNat < 2 ^ 63) :
    (x + y).toNat = x.toNat + y.toNat := by
  rw [UInt64.toNat_add]
  omega

/-- The buffer after a copy to its mark. -/
theorem Shows.put (shows : Shows beyond b w) (found : b.data = some mem) (src : Nat → UInt8) {len : UInt64}
    (room : len.toNat ≤ w.back.length) :
    Shows beyond { b with data := some (Memory.copy mem b.bytesUsed.toNat src len.toNat), bytesUsed := b.bytesUsed + len }
      (w.put (Memory.load src 0 len.toNat)) := by
  have sized := shows.sized
  have mark := shows.mark
  have length := shows.length
  obtain ⟨other, same, whole, outside⟩ := shows.contents
  rw [found] at same
  cases same
  refine ⟨sized, ?_, ?_, _, rfl, ?_, fun i behind => ?_⟩
  · simp only [ByteWindow.put, List.length_append, Memory.load_length]
    rw [toNat_add_of_lt (by omega) (by omega), mark]
  · simp only [ByteWindow.put, List.length_append, List.length_drop, Memory.load_length]
    omega
  · simp only [ByteWindow.put, Memory.load_length]
    rw [mark]
    exact load_copy_window whole src room
  · rw [← outside i behind]
    simp only [Memory.copy]
    exact if_neg fun inside => by
      have upper := inside.2
      change b.len.toNat ≤ i at behind
      omega

/-- The number of bytes behind the mark. -/
theorem Shows.remaining (shows : Shows beyond b w) : (b.len - b.bytesUsed).toNat = w.back.length := by
  have mark := shows.mark
  have length := shows.length
  rw [UInt64.toNat_sub_of_le _ _ (UInt64.le_iff_toNat_le.mpr (by omega))]
  omega

end Simulation

end Kinetic
