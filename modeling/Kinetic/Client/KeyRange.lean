import Kinetic.Client.Entries

namespace Kinetic

/-- `ByteBufferArray`, whose `count` is the number of its buffers. -/
structure ByteBufferArray where
  buffers : List ByteBuffer
  used : Nat

/-- The loop of `Copy_Com__Seagate__Kinetic__Proto__Command__Range_to_ByteBufferArray`, over as many buffers as there are
keys and as many keys as there are buffers. The result is true when a key did not fit. -/
def copyKeys : List ByteBuffer → List ProtoBytes → Option (Bool × List ByteBuffer)
  | [], _ => some (false, [])
  | buffer :: buffers, [] => some (false, buffer :: buffers)
  | buffer :: buffers, key :: keys => do
    let (copied, buffer) ← buffer.reset.append key.data key.len
    let (overflow, buffers) ← copyKeys buffers keys
    some (!copied || overflow, buffer :: buffers)

/-- `Copy_Com__Seagate__Kinetic__Proto__Command__Range_to_ByteBufferArray`. -/
def copyRangeToByteBufferArray (range : ProtoRange) (keys : ByteBufferArray) : Option (Bool × ByteBufferArray) :=
  if keys.buffers.length > 0 then do
    let (overflow, buffers) ← copyKeys keys.buffers range.keys
    some (!overflow, ⟨buffers, range.keys.length⟩)
  else some (true, keys)

/-- `KineticCallbacks_GetKeyRange`, which asserts that there are buffers. -/
def kineticCallbacksGetKeyRange (response : KineticResponse) (keys : ByteBufferArray) (status : KineticStatus) :
    Option (KineticStatus × ByteBufferArray) :=
  if keys.buffers.length > 0 then
    if status = .success then
      match response.getKeyRange with
      | some range => do
        let (copied, keys) ← copyRangeToByteBufferArray range keys
        if copied then some (status, keys) else some (.bufferOverrun, keys)
      | none => some (status, keys)
    else some (status, keys)
  else none

/-- The callback returns with as many used buffers as it was given keys, each with its key,
or reports an overrun; in both cases it claims no more buffers than there are. -/
def KeysSound (response : KineticResponse) (range : ProtoRange) (keys : ByteBufferArray) : Prop :=
  ∃ status keys', kineticCallbacksGetKeyRange response keys .success = some (status, keys') ∧
    keys'.buffers.length = keys.buffers.length ∧
    ((status = .success ∧ keys'.used ≤ keys.buffers.length ∧ keys'.used = range.keys.length ∧
        ∀ i < keys'.used, ∃ key buffer, range.keys[i]? = some key ∧ keys'.buffers[i]? = some buffer ∧ buffer.Holds key.bytes) ∨
      status = .bufferOverrun ∧ keys'.used ≤ keys.buffers.length)

section Keys
variable {response : KineticResponse} {range : ProtoRange} {keys : ByteBufferArray}

/-- One turn of the loop: the key is copied if it fits, and the buffer holds it then. -/
theorem append_key {buffer : ByteBuffer} {key : ProtoBytes} (present : buffer.isNull = false) (given : key.data ≠ none) :
    ∃ copied buffer', buffer.reset.append key.data key.len = some (copied, buffer') ∧
      (copied = true → buffer'.Holds key.bytes) := by
  obtain ⟨mem, target⟩ := ByteBuffer.data_of_present present
  obtain ⟨src, source⟩ := Option.ne_none_iff_exists'.mp given
  rw [source]
  by_cases room : key.len ≤ buffer.len
  · obtain ⟨buffer', appended, holds, _⟩ := ByteBuffer.append_holds (b := buffer.reset) src target rfl room
    refine ⟨true, buffer', appended, fun _ => ?_⟩
    rw [BinaryData.bytes_eq source]
    exact holds
  · exact ⟨false, buffer.reset, ByteBuffer.append_refused (b := buffer.reset) src target rfl room, by rintro ⟨⟩⟩

theorem copyKeys_spec (buffers : List ByteBuffer) (keys : List ProtoBytes) (present : ∀ buffer ∈ buffers, buffer.isNull = false)
    (room : keys.length ≤ buffers.length) (given : ∀ key ∈ keys, key.data ≠ none) :
    ∃ overflow buffers', copyKeys buffers keys = some (overflow, buffers') ∧
      (overflow = false → ∀ (i : Nat) (key : ProtoBytes), keys[i]? = some key → ∃ buffer : ByteBuffer, buffers'[i]? = some buffer ∧
        buffer.Holds key.bytes) := by
  induction buffers, keys using copyKeys.induct with
  | case1 keys =>
    refine ⟨false, [], by unfold copyKeys; rfl, fun _ i key found => ?_⟩
    rw [List.length_eq_zero_iff.mp (Nat.le_zero.mp room)] at found
    cases found
  | case2 buffer buffers => exact ⟨false, buffer :: buffers, rfl, by rintro _ i key ⟨⟩⟩
  | case3 buffer buffers key keys ih =>
    obtain ⟨copied, first, appended, holds⟩ := append_key (present buffer List.mem_cons_self) (given key List.mem_cons_self)
    obtain ⟨overflow, rest, later, ih⟩ := ih (fun b member => present b (List.mem_cons_of_mem _ member))
      (Nat.le_of_succ_le_succ room) fun k member => given k (List.mem_cons_of_mem _ member)
    refine ⟨!copied || overflow, first :: rest, by simp [copyKeys, appended, later], fun fine i k found => ?_⟩
    have all : copied = true ∧ overflow = false := by simpa using fine
    cases i with
    | zero =>
      cases found
      exact ⟨first, rfl, holds all.1⟩
    | succ i => exact ih all.2 i k found

/-- If the loop comes to its end, no key that it copied was a `NULL` pointer. -/
theorem copyKeys_given (buffers : List ByteBuffer) (keys : List ProtoBytes) {overflow : Bool} {buffers' : List ByteBuffer}
    (run : copyKeys buffers keys = some (overflow, buffers')) :
    buffers'.length = buffers.length ∧ (keys.length ≤ buffers.length → ∀ key ∈ keys, key.data ≠ none) := by
  induction buffers, keys using copyKeys.induct generalizing overflow buffers' with
  | case1 keys =>
    unfold copyKeys at run
    cases run
    refine ⟨rfl, fun room => ?_⟩
    rw [List.length_eq_zero_iff.mp (Nat.le_zero.mp room)]
    rintro key ⟨⟩
  | case2 buffer buffers =>
    cases run
    exact ⟨rfl, by rintro _ key ⟨⟩⟩
  | case3 buffer buffers key keys ih =>
    unfold copyKeys at run
    obtain ⟨⟨copied, first⟩, appended, run⟩ := Option.bind_eq_some_iff.mp run
    obtain ⟨⟨later, rest⟩, copies, run⟩ := Option.bind_eq_some_iff.mp run
    obtain ⟨length, given⟩ := ih copies
    cases run
    refine ⟨congrArg Nat.succ length, fun room k member => ?_⟩
    rcases List.mem_cons.mp member with rfl | member
    · intro missing
      unfold ByteBuffer.append at appended
      rw [missing] at appended
      split at appended
      · rename_i found
        cases found
      · cases appended
    · exact given (Nat.le_of_succ_le_succ room) k member

theorem getKeyRange_run (some_ : keys.buffers.length > 0) (found : response.getKeyRange = some range) :
    kineticCallbacksGetKeyRange response keys .success = (copyKeys keys.buffers range.keys).map fun res =>
      (if res.1 then .bufferOverrun else .success, ⟨res.2, range.keys.length⟩) := by
  unfold kineticCallbacksGetKeyRange copyRangeToByteBufferArray
  rw [if_pos some_, if_pos rfl, found]
  dsimp only
  rw [if_pos some_]
  cases copyKeys keys.buffers range.keys with
  | none => rfl
  | some res => cases overflow : res.1 <;> simp [overflow]

/-- For every array of buffers and every range in a response: the result of `KineticCallbacks_GetKeyRange` is sound if and only if
there are no more keys than buffers, and no key is a `NULL` pointer. -/
theorem key_range_sound_iff (response : KineticResponse) (range : ProtoRange) (keys : ByteBufferArray)
    (count : keys.buffers.length > 0) (present : ∀ buffer ∈ keys.buffers, buffer.isNull = false)
    (found : response.getKeyRange = some range) :
    KeysSound response range keys ↔
      range.keys.length ≤ keys.buffers.length ∧ ∀ key ∈ range.keys, key.data ≠ none := by
  unfold KeysSound
  rw [getKeyRange_run count found]
  constructor
  · rintro ⟨status, keys', run, _, outcome⟩
    obtain ⟨⟨overflow, buffers⟩, copies, same⟩ := Option.map_eq_some_iff.mp run
    cases same
    have room : range.keys.length ≤ keys.buffers.length := by
      rcases outcome with ⟨_, room, _⟩ | ⟨_, room⟩ <;> exact room
    exact ⟨room, (copyKeys_given _ _ copies).2 room⟩
  · rintro ⟨room, given⟩
    obtain ⟨overflow, buffers, copies, holds⟩ := copyKeys_spec _ _ present room given
    rw [copies]
    refine ⟨_, _, rfl, (copyKeys_given _ _ copies).1, ?_⟩
    cases overflow with
    | true => exact Or.inr ⟨rfl, room⟩
    | false =>
      refine Or.inl ⟨rfl, room, rfl, fun i below => ?_⟩
      have key : range.keys[i]? = some range.keys[i] := List.getElem?_eq_getElem below
      obtain ⟨buffer, there, held⟩ := holds rfl i _ key
      exact ⟨_, buffer, key, there, held⟩

/-- A response with these keys. -/
def rangeOf (keys : List (List UInt8)) : ProtoRange := ⟨keys.map protoBytesOf⟩

def twoBuffers : ByteBufferArray := ⟨[bufferOf [] 4 0, bufferOf [9, 9] 4 2], 0⟩

theorem key_range_sound_two : KeysSound (objectResponse ⟨none, some (rangeOf [[1, 2], [3]])⟩) (rangeOf [[1, 2], [3]]) twoBuffers := by
  refine (key_range_sound_iff _ _ twoBuffers (by decide) ?_ rfl).mpr ⟨by decide, ?_⟩
  · intro buffer member
    rcases List.mem_cons.mp member with rfl | member
    · rfl
    · cases List.mem_singleton.mp member
      rfl
  · intro key member
    obtain ⟨bytes, _, rfl⟩ := List.mem_map.mp member
    rintro ⟨⟩

def threeKeys : ProtoRange := rangeOf [[1, 2], [3], [4]]

/-- Of three keys two are copied, and three of two buffers are used. -/
theorem key_range_overrun : (∃ keys', kineticCallbacksGetKeyRange (objectResponse ⟨none, some threeKeys⟩) twoBuffers .success =
    some (.success, keys') ∧ keys'.used = 3 ∧ keys'.buffers.length = 2) ∧
    ¬ KeysSound (objectResponse ⟨none, some threeKeys⟩) threeKeys twoBuffers := by
  have counted : (kineticCallbacksGetKeyRange (objectResponse ⟨none, some threeKeys⟩) twoBuffers .success).map
      (fun res => res.2.used) = some 3 := rfl
  refine ⟨⟨_, rfl, rfl, rfl⟩, ?_⟩
  rintro ⟨status, keys', run, _, outcome⟩
  rw [run] at counted
  have three : keys'.used = 3 := Option.some.inj counted
  rcases outcome with ⟨_, room, _⟩ | ⟨_, room⟩
  · exact absurd (three ▸ room) (by decide)
  · exact absurd (three ▸ room) (by decide)

end Keys

end Kinetic
