import Kinetic.Session.Model
import Kinetic.Sink.Framing

namespace Kinetic
open Memory

/-- The order of the bytes of an integer in the memory of the host. -/
inductive ByteOrder
  | little
  | big
  deriving DecidableEq

/-- The bytes of a `uint32_t` in memory. -/
def uint32Bytes (n : Nat) : ByteOrder → List UInt8
  | .little => [UInt8.ofNat n, UInt8.ofNat (n / 2 ^ 8), UInt8.ofNat (n / 2 ^ 16), UInt8.ofNat (n / 2 ^ 24)]
  | .big => [UInt8.ofNat (n / 2 ^ 24), UInt8.ofNat (n / 2 ^ 16), UInt8.ofNat (n / 2 ^ 8), UInt8.ofNat n]

/-- `KineticNBO_FromHostU32`, which puts the bytes of its argument together in the order they have in memory. -/
def kineticNBOFromHostU32 (order : ByteOrder) (valueHost : Nat) : Nat :=
  nboSwapByteOrder (store (fun _ => 0) (uint32Bytes valueHost order)) 0 4 % 2 ^ 32

/-- The functions of the protobuf library for a type of messages: `get_packed_size`, and the bytes written by `pack`. -/
structure MessageCodec (Message : Type) where
  getPackedSize : Message → Nat
  pack : Message → List UInt8

/-- What `KineticRequest_PackMessage` reads of an operation. -/
structure OutgoingRequest (Message : Type) where
  message : Message
  value : List UInt8

inductive PackError
  | memoryError
  | assertFailed
  deriving DecidableEq

/-- `KineticRequest_PackMessage`: the message and its size. `msg` is what `malloc` returns, with whatever that memory holds. -/
def kineticRequestPackMessage {Message : Type} (order : ByteOrder) (codec : MessageCodec Message)
    (msg : Option (Nat → UInt8)) (operation : OutgoingRequest Message) : Except PackError ((Nat → UInt8) × Nat) :=
  let header : KineticPDUHeader :=
    { versionPrefix := 70, protobufLength := codec.getPackedSize operation.message % 2 ^ 32,
      valueLength := operation.value.length % 2 ^ 32 }
  let nboProtoLength := kineticNBOFromHostU32 order header.protobufLength
  let nboValueLength := kineticNBOFromHostU32 order header.valueLength
  match msg with
  | none => .error .memoryError
  | some msg =>
    let msg := write msg 0 [header.versionPrefix]
    let msg := write msg 1 (uint32Bytes nboProtoLength order)
    let msg := write msg 5 (uint32Bytes nboValueLength order)
    let packed := codec.pack operation.message
    let msg := write msg pduHeaderLen packed
    if packed.length ≠ header.protobufLength then .error .assertFailed
    else
      let offset := pduHeaderLen + header.protobufLength
      let (msg, offset) :=
        if header.valueLength > 0 then (write msg offset operation.value, offset + operation.value.length) else (msg, offset)
      if pduHeaderLen + header.protobufLength + header.valueLength ≠ offset then .error .assertFailed else .ok (msg, offset)

/-- The chunks are sunk one after the other, each from a read buffer that holds it. What comes out is
the list of events, the state of the parser and the size it asks for. -/
def feed (readBuf : Nat → UInt8) : SocketInfo → Nat → List (List UInt8) → Option (List SinkEvent × SocketInfo × Nat)
  | si, nextRead, [] => some ([], si, nextRead)
  | si, _, chunk :: rest => do
    let (si, res) ← sinkCb si (store readBuf chunk) chunk.length
    let (events, last) ← feed readBuf si res.nextRead rest
    return (if res.fullMsgBuffer then si.event :: events else events, last)

/-- No chunk is longer than the size that the parser asks for when it arrives. -/
def Requested (readBuf : Nat → UInt8) : SocketInfo → Nat → List (List UInt8) → Prop
  | _, _, [] => True
  | si, nextRead, chunk :: rest => chunk.length ≤ nextRead ∧
      ∀ si' res, sinkCb si (store readBuf chunk) chunk.length = some (si', res) → Requested readBuf si' res.nextRead rest

instance decidableRequested (readBuf : Nat → UInt8) :
    (si : SocketInfo) → (nextRead : Nat) → (chunks : List (List UInt8)) → Decidable (Requested readBuf si nextRead chunks)
  | _, _, [] => isTrue trivial
  | si, nextRead, chunk :: rest =>
    match sunk : sinkCb si (store readBuf chunk) chunk.length with
    | none => decidable_of_iff (chunk.length ≤ nextRead) ⟨fun fits => ⟨fits, by rw [sunk]; nofun⟩, And.left⟩
    | some (si', res) =>
      have := decidableRequested readBuf si' res.nextRead rest
      decidable_of_iff (chunk.length ≤ nextRead ∧ Requested readBuf si' res.nextRead rest)
        ⟨fun both => ⟨both.1, fun _ _ again => by cases sunk.symm.trans again; exact both.2⟩,
          fun both => ⟨both.1, both.2 si' res sunk⟩⟩

/-- A PDU with the right lengths in its header. -/
def pdu (proto value : List UInt8) : List UInt8 := frame proto.length value.length proto value

section Encoding
variable {Message : Type} {codec : MessageCodec Message} {operation : OutgoingRequest Message}

theorem uint8_ofNat_congr {a b : Nat} (same : a % 256 = b % 256) : UInt8.ofNat a = UInt8.ofNat b := by
  apply UInt8.toNat_inj.mp
  simpa using same

theorem word_digits {a b c d : Nat} (ha : a < 256) (hb : b < 256) (hc : c < 256) (hd : d < 256) :
    (((a * 256 + b) * 256 + c) * 256 + d) % 256 = d ∧ (((a * 256 + b) * 256 + c) * 256 + d) / 2 ^ 8 % 256 = c ∧
      (((a * 256 + b) * 256 + c) * 256 + d) / 2 ^ 16 % 256 = b ∧ (((a * 256 + b) * 256 + c) * 256 + d) / 2 ^ 24 % 256 = a ∧
      ((a * 256 + b) * 256 + c) * 256 + d < 2 ^ 32 := by omega

/-- In the order of the host's own bytes, the swapped value is the original in network byte order. -/
theorem uint32Bytes_fromHost (order : ByteOrder) (n : Nat) :
    uint32Bytes (kineticNBOFromHostU32 order n) order = nboFromHostU32 n := by
  have loaded : load (store (fun _ => 0) (uint32Bytes n order)) 0 4 = uint32Bytes n order := by
    have length : (uint32Bytes n order).length = 4 := by cases order <;> rfl
    exact length ▸ load_store (fun _ => 0) (uint32Bytes n order)
  have swapped : kineticNBOFromHostU32 order n = bigEndian (uint32Bytes n order) % 2 ^ 32 := by
    unfold kineticNBOFromHostU32
    rw [nboSwapByteOrder_eq, loaded]
  have byte (k : Nat) : k % 2 ^ 8 < 256 := Nat.mod_lt _ (by decide)
  rw [swapped]
  cases order with
  | little =>
    obtain ⟨first, second, third, fourth, small⟩ :=
      word_digits (byte n) (byte (n / 2 ^ 8)) (byte (n / 2 ^ 16)) (byte (n / 2 ^ 24))
    have word : bigEndian (uint32Bytes n .little) % 2 ^ 32 =
        ((n % 2 ^ 8 * 256 + n / 2 ^ 8 % 2 ^ 8) * 256 + n / 2 ^ 16 % 2 ^ 8) * 256 + n / 2 ^ 24 % 2 ^ 8 := by
      simp only [uint32Bytes, bigEndian, List.foldl_cons, List.foldl_nil, UInt8.toNat_ofNat', Nat.zero_mul, Nat.zero_add]
      exact Nat.mod_eq_of_lt small
    rw [word]
    simp only [uint32Bytes, nboFromHostU32, List.cons.injEq, and_true]
    exact ⟨uint8_ofNat_congr first, uint8_ofNat_congr second, uint8_ofNat_congr third, uint8_ofNat_congr fourth⟩
  | big =>
    obtain ⟨first, second, third, fourth, small⟩ :=
      word_digits (byte (n / 2 ^ 24)) (byte (n / 2 ^ 16)) (byte (n / 2 ^ 8)) (byte n)
    have word : bigEndian (uint32Bytes n .big) % 2 ^ 32 =
        ((n / 2 ^ 24 % 2 ^ 8 * 256 + n / 2 ^ 16 % 2 ^ 8) * 256 + n / 2 ^ 8 % 2 ^ 8) * 256 + n % 2 ^ 8 := by
      simp only [uint32Bytes, bigEndian, List.foldl_cons, List.foldl_nil, UInt8.toNat_ofNat', Nat.zero_mul, Nat.zero_add]
      exact Nat.mod_eq_of_lt small
    rw [word]
    simp only [uint32Bytes, nboFromHostU32, List.cons.injEq, and_true]
    exact ⟨uint8_ofNat_congr fourth, uint8_ofNat_congr third, uint8_ofNat_congr second, uint8_ofNat_congr first⟩

theorem bigEndian_nboFromHostU32 {n : Nat} (small : n < 2 ^ 32) : bigEndian (nboFromHostU32 n) = n := by
  simp only [nboFromHostU32, bigEndian, List.foldl_cons, List.foldl_nil, UInt8.toNat_ofNat']
  omega

theorem nboFromHostU32_length (n : Nat) : (nboFromHostU32 n).length = 4 := rfl

theorem frame_length (protobufLength valueLength : Nat) (proto value : List UInt8) :
    (frame protobufLength valueLength proto value).length = pduHeaderLen + proto.length + value.length := by
  simp only [frame, List.length_append, List.length_cons, nboFromHostU32_length, pduHeaderLen]

/-- The header and the protobuf, as they are written to the memory of the message. -/
theorem load_header (memory : Nat → UInt8) (protobufLength valueLength : Nat) (proto : List UInt8) :
    load (write (write (write (write memory 0 [70]) 1 (nboFromHostU32 protobufLength)) 5 (nboFromHostU32 valueLength))
      pduHeaderLen proto) 0 (pduHeaderLen + proto.length) = frame protobufLength valueLength proto [] := by
  have first := load_write memory 0 [(70 : UInt8)]
  have second := load_write (write memory 0 [70]) 1 (nboFromHostU32 protobufLength)
  have third := load_write (write (write memory 0 [70]) 1 (nboFromHostU32 protobufLength)) 5 (nboFromHostU32 valueLength)
  have fourth := load_write
    (write (write (write memory 0 [70]) 1 (nboFromHostU32 protobufLength)) 5 (nboFromHostU32 valueLength)) pduHeaderLen proto
  rw [show 0 + [(70 : UInt8)].length = 1 from rfl] at first
  rw [show 1 + (nboFromHostU32 protobufLength).length = 5 from rfl, first] at second
  rw [show 5 + (nboFromHostU32 valueLength).length = pduHeaderLen from rfl, second] at third
  rw [third] at fourth
  rw [fourth]
  simp [frame, load]

/-- The bytes of the message are those of a PDU, whose lengths have 32 bits and whose value is left out if its length is 0. -/
theorem packMessage_ok (order : ByteOrder) (memory : Nat → UInt8) {value : List UInt8}
    (packs : (codec.pack operation.message).length = codec.getPackedSize operation.message)
    (protobuf : codec.getPackedSize operation.message < 2 ^ 32)
    (copied : value = if operation.value.length % 2 ^ 32 > 0 then operation.value else [])
    (payload : value.length = operation.value.length % 2 ^ 32) :
    ∃ msg size, kineticRequestPackMessage order codec (some memory) operation = .ok (msg, size) ∧
      load msg 0 size = frame (codec.pack operation.message).length value.length (codec.pack operation.message) value := by
  have length : codec.getPackedSize operation.message % 2 ^ 32 = (codec.pack operation.message).length := by
    rw [packs]
    exact Nat.mod_eq_of_lt protobuf
  have header := load_header memory (codec.pack operation.message).length value.length (codec.pack operation.message)
  unfold kineticRequestPackMessage
  simp only [length, ← payload, uint32Bytes_fromHost, ne_eq, not_true_eq_false, if_false]
  by_cases some : value.length > 0
  · rw [payload] at some
    rw [if_pos some] at copied
    subst copied
    have positive : operation.value.length > 0 := by omega
    simp only [positive, if_true, not_true_eq_false, if_false]
    refine ⟨_, _, rfl, ?_⟩
    rw [load_write, header]
    simp [frame]
  · have none : value = [] := List.eq_nil_of_length_eq_zero (by omega)
    rw [if_neg some]
    dsimp only
    rw [none, List.length_nil, Nat.add_zero, if_neg (by simp)]
    refine ⟨_, _, rfl, ?_⟩
    rw [none] at header
    exact header

/-- Both parts of the message are within the limit, and the protobuf is not empty. -/
structure Sized (codec : MessageCodec Message) (operation : OutgoingRequest Message) : Prop where
  nonempty : 0 < codec.getPackedSize operation.message
  protobuf : codec.getPackedSize operation.message ≤ pduProtoMaxLen
  value : operation.value.length ≤ pduProtoMaxLen

theorem packMessage_pdu (order : ByteOrder) (memory : Nat → UInt8)
    (packs : (codec.pack operation.message).length = codec.getPackedSize operation.message) (sized : Sized codec operation) :
    ∃ msg size, kineticRequestPackMessage order codec (some memory) operation = .ok (msg, size) ∧
      load msg 0 size = pdu (codec.pack operation.message) operation.value := by
  have limit : pduProtoMaxLen < 2 ^ 32 := by decide
  have payload : operation.value.length % 2 ^ 32 = operation.value.length :=
    Nat.mod_eq_of_lt (Nat.lt_of_le_of_lt sized.value limit)
  have copied : operation.value = if operation.value.length % 2 ^ 32 > 0 then operation.value else [] := by
    rw [payload]
    split
    · rfl
    · exact List.eq_nil_of_length_eq_zero (by omega)
  exact packMessage_ok order memory packs (Nat.lt_of_le_of_lt sized.protobuf limit) copied payload.symm

/-- The packing in memory is what the model of the session computes as a list. -/
theorem packMessage_refines (order : ByteOrder) (memory : Nat → UInt8) (pk : Packer) (op : Operation)
    (commandBytes : List UInt8) :
    match kineticRequestPackMessage order ⟨fun _ => (pk.messagePack op commandBytes).length,
        fun _ => pk.messagePack op commandBytes⟩ (some memory) ⟨(), op.value⟩ with
    | .ok (msg, size) => packMessage pk op commandBytes = some (load msg 0 size)
    | .error _ => packMessage pk op commandBytes = none := by
  by_cases fits : (pk.messagePack op commandBytes).length < 2 ^ 32 ∧
      (if op.value.length % 2 ^ 32 > 0 then op.value else []).length = op.value.length % 2 ^ 32
  · obtain ⟨msg, size, packed, loaded⟩ := @packMessage_ok Unit
      ⟨fun _ => (pk.messagePack op commandBytes).length, fun _ => pk.messagePack op commandBytes⟩ ⟨(), op.value⟩
      order memory _ rfl fits.1 rfl fits.2
    rw [packed]
    unfold packMessage
    dsimp only
    rw [if_pos fits, loaded, fits.2]
  · have refused : kineticRequestPackMessage order ⟨fun _ => (pk.messagePack op commandBytes).length,
        fun _ => pk.messagePack op commandBytes⟩ (some memory) ⟨(), op.value⟩ = .error .assertFailed := by
      unfold kineticRequestPackMessage
      dsimp only
      by_cases small : (pk.messagePack op commandBytes).length < 2 ^ 32
      · by_cases copied : op.value.length % 2 ^ 32 > 0
        · have longer : op.value.length ≠ op.value.length % 2 ^ 32 := by
            intro same
            rw [if_pos copied] at fits
            exact fits ⟨small, same⟩
          rw [if_neg (by rw [Nat.mod_eq_of_lt small]; simp)]
          simp only [copied, if_true]
          rw [if_pos (by omega)]
        · rw [if_neg copied] at fits
          exact absurd ⟨small, by rw [List.length_nil]; omega⟩ fits
      · rw [if_pos (by omega)]
    rw [refused]
    unfold packMessage
    exact if_neg fits

end Encoding

section Parsing
variable {proto value : List UInt8}

theorem pdu_length (proto value : List UInt8) : (pdu proto value).length = 9 + proto.length + value.length :=
  frame_length ..

theorem pdu_body (proto value : List UInt8) : (pdu proto value).drop 9 = proto ++ value := by
  unfold pdu frame
  rw [List.append_assoc]
  rfl

theorem pdu_lengths (protobuf : proto.length ≤ pduProtoMaxLen) (payload : value.length ≤ pduProtoMaxLen) :
    headerLengths (pdu proto value) = (proto.length, value.length) := by
  have limit : pduProtoMaxLen < 2 ^ 32 := by decide
  have first := bigEndian_nboFromHostU32 (Nat.lt_of_le_of_lt protobuf limit)
  have second := bigEndian_nboFromHostU32 (Nat.lt_of_le_of_lt payload limit)
  exact Prod.ext first second

/-- One PDU is parsed off the front of a stream. -/
theorem parse_pdu (protobuf : proto.length ≤ pduProtoMaxLen) (payload : value.length ≤ pduProtoMaxLen) (more : List UInt8) :
    parse (pdu proto value ++ more) =
      (.message proto.length value.length proto value :: (parse more).1, (parse more).2) := by
  have size := pdu_length proto value
  have long : 9 ≤ (pdu proto value).length := by omega
  have lengths : headerLengths (pdu proto value ++ more) = (proto.length, value.length) := by
    rw [headerLengths_append long, pdu_lengths protobuf payload]
  have body : (pdu proto value ++ more).drop 9 = proto ++ (value ++ more) := by
    rw [List.drop_append_of_le_length long, pdu_body, List.append_assoc]
  rw [parse_unfold (by rw [List.length_append]; omega), lengths, body]
  have complete : ¬ (proto ++ (value ++ more)).length < proto.length + value.length := by
    simp only [List.length_append]
    omega
  have behind : (proto ++ (value ++ more)).drop (proto.length + value.length) = more := by
    rw [← List.drop_drop, List.drop_left, List.drop_left]
  rw [if_pos ⟨protobuf, payload⟩, if_neg complete, behind, List.take_left, List.drop_left, List.take_left]

/-- A part of a PDU that is not the whole of it gives nothing yet. -/
theorem parse_part (protobuf : proto.length ≤ pduProtoMaxLen) (payload : value.length ≤ pduProtoMaxLen)
    {part rest : List UInt8} (cut : part ++ rest = pdu proto value) (unfinished : rest ≠ []) : parse part = ([], part) := by
  have size := pdu_length proto value
  have left := List.length_pos_iff.mpr unfinished
  have parts := congrArg List.length cut
  rw [List.length_append] at parts
  by_cases short : part.length < 9
  · exact parse_short short
  · have long : 9 ≤ part.length := by omega
    have lengths : headerLengths part = (proto.length, value.length) := by
      rw [← headerLengths_append long rest, cut, pdu_lengths protobuf payload]
    rw [parse_unfold long, lengths, if_pos ⟨protobuf, payload⟩, if_pos (by rw [List.length_drop]; dsimp only; omega)]

end Parsing

section Feeding
variable {readBuf : Nat → UInt8} {chunks : List (List UInt8)}

/-- Chunks that fit the requests keep the parser in step with the reference parser, if no PDU is empty. -/
theorem Tracks.feed {c : Connection} (tracks : Tracks c) (requested : Requested readBuf c.si c.toReadSize chunks)
    (nonempty : emptyMessage ∉ (parse (c.consumed ++ chunks.flatten)).1) :
    ∃ events si nextRead, feed readBuf c.si c.toReadSize chunks = some (events, si, nextRead) ∧
      Tracks ⟨si, nextRead, c.consumed ++ chunks.flatten, c.events ++ events⟩ := by
  induction chunks generalizing c with
  | nil => exact ⟨[], c.si, c.toReadSize, rfl, by simpa using tracks⟩
  | cons chunk rest ih =>
    obtain ⟨fits, later⟩ := requested
    obtain ⟨c', run, next⟩ := tracks.read (load_store readBuf chunk) fits
    unfold sinkSocketRead at run
    split at run
    · rename_i si res sunk
      cases run
      have onward : c.consumed ++ (chunk :: rest).flatten = c.consumed ++ chunk ++ rest.flatten := by
        rw [List.flatten_cons, List.append_assoc]
      rw [onward] at nonempty ⊢
      have stays : Tracks ⟨si, res.nextRead, c.consumed ++ chunk,
          if res.fullMsgBuffer = true then c.events ++ [si.event] else c.events⟩ := by
        refine next.resolve_right fun starved => nonempty ?_
        rw [parse_append]
        exact List.mem_append_left _ starved.events.2
      obtain ⟨events, last, nextRead, fed, end_⟩ := ih stays (later si res sunk) nonempty
      refine ⟨if res.fullMsgBuffer then si.event :: events else events, last, nextRead, ?_, ?_⟩
      · unfold Kinetic.feed
        rw [sunk]
        simp [fed]
      · split at end_ <;> rename_i full
        · rw [if_pos full]
          simpa using end_
        · rw [if_neg full]
          exact end_
    · cases run

end Feeding

section Inverse
variable {Message : Type} {codec : MessageCodec Message} {si : SocketInfo}

/-- What comes out of the parser for a packed operation. -/
def OutgoingRequest.sunk (codec : MessageCodec Message) (operation : OutgoingRequest Message) : SinkEvent :=
  .message (codec.getPackedSize operation.message) operation.value.length (codec.pack operation.message) operation.value

/-- The operations are packed one after the other, each in the memory it gets, and sent. -/
def packedStream (order : ByteOrder) (codec : MessageCodec Message) :
    List ((Nat → UInt8) × OutgoingRequest Message) → Except PackError (List UInt8)
  | [] => .ok []
  | (memory, operation) :: rest => do
    let (msg, size) ← kineticRequestPackMessage order codec (some memory) operation
    let later ← packedStream order codec rest
    return load msg 0 size ++ later

theorem packedStream_eq (order : ByteOrder) (packs : ∀ m, (codec.pack m).length = codec.getPackedSize m)
    {operations : List ((Nat → UInt8) × OutgoingRequest Message)} (sized : ∀ o ∈ operations, Sized codec o.2) :
    packedStream order codec operations =
      .ok (operations.flatMap fun o => pdu (codec.pack o.2.message) o.2.value) := by
  induction operations with
  | nil => rfl
  | cons first rest ih =>
    obtain ⟨msg, size, packed, loaded⟩ := packMessage_pdu order first.1 (packs _) (sized first (List.mem_cons_self ..))
    have later := ih fun o member => sized o (List.mem_cons_of_mem _ member)
    unfold packedStream
    dsimp only
    rw [packed, later]
    change Except.ok (load msg 0 size ++ _) = _
    rw [loaded, List.flatMap_cons]

theorem parse_stream (packs : ∀ m, (codec.pack m).length = codec.getPackedSize m)
    {operations : List ((Nat → UInt8) × OutgoingRequest Message)} (sized : ∀ o ∈ operations, Sized codec o.2)
    {part : List UInt8} (nothing : parse part = ([], part)) :
    parse ((operations.flatMap fun o => pdu (codec.pack o.2.message) o.2.value) ++ part) =
      (operations.map fun o => o.2.sunk codec, part) := by
  induction operations with
  | nil => exact nothing
  | cons first rest ih =>
    have later := ih fun o member => sized o (List.mem_cons_of_mem _ member)
    have fits := sized first (List.mem_cons_self ..)
    have head := parse_pdu (packs first.2.message ▸ fits.protobuf) fits.value
      ((rest.flatMap fun o => pdu (codec.pack o.2.message) o.2.value) ++ part)
    rw [later, packs] at head
    rw [List.flatMap_cons, List.append_assoc, head]
    rfl

theorem sunk_nonempty {operations : List ((Nat → UInt8) × OutgoingRequest Message)}
    (sized : ∀ o ∈ operations, Sized codec o.2) : emptyMessage ∉ operations.map fun o => o.2.sunk codec := by
  intro member
  obtain ⟨o, among, same⟩ := List.mem_map.mp member
  have positive := (sized o among).nonempty
  simp only [OutgoingRequest.sunk, emptyMessage, SinkEvent.message.injEq] at same
  omega

/-- A parser that waits for a header is fed with a stream of packed operations and a part of a PDU. -/
theorem feed_stream (packs : ∀ m, (codec.pack m).length = codec.getPackedSize m)
    {operations : List ((Nat → UInt8) × OutgoingRequest Message)} (sized : ∀ o ∈ operations, Sized codec o.2)
    (ready : si.state = .awaitingHeader) (fresh : si.accumulated = 0) {readBuf : Nat → UInt8} {part : List UInt8}
    (nothing : parse part = ([], part)) {chunks : List (List UInt8)}
    (bytes : chunks.flatten = (operations.flatMap fun o => pdu (codec.pack o.2.message) o.2.value) ++ part)
    (requested : Requested readBuf si pduHeaderLen chunks) :
    ∃ si' nextRead, feed readBuf si pduHeaderLen chunks = some (operations.map fun o => o.2.sunk codec, si', nextRead) ∧
      (InHeader si' part ∧ nextRead = 9 - part.length ∨ InBody si' part) := by
  have start : Tracks ⟨si, pduHeaderLen, [], []⟩ :=
    ⟨[], rfl, List.not_mem_nil, Or.inl ⟨⟨ready, by decide, fresh, rfl⟩, rfl⟩⟩
  have parsed := parse_stream packs sized nothing
  obtain ⟨events, si', nextRead, fed, rest, later, _, place⟩ := start.feed requested (by
    rw [List.nil_append, bytes, parsed]
    exact sunk_nonempty sized)
  rw [List.nil_append, bytes, parsed, List.nil_append] at later
  obtain ⟨same, left⟩ := Prod.mk.inj later
  subst same left
  refine ⟨si', nextRead, fed, ?_⟩
  rcases place with ⟨header, size⟩ | ⟨body, _⟩
  · exact Or.inl ⟨header, size⟩
  · exact Or.inr body

/-- The parser inverts the packing: operations within the limits are packed without an error, their bytes give their
messages however they are cut, with the last byte of each, and the parser is then where it was before the first. -/
theorem sink_inverts_pack (packs : ∀ m, (codec.pack m).length = codec.getPackedSize m) (order : ByteOrder)
    {operations : List ((Nat → UInt8) × OutgoingRequest Message)} (sized : ∀ o ∈ operations, Sized codec o.2)
    (ready : si.state = .awaitingHeader) (fresh : si.accumulated = 0) :
    ∃ stream, packedStream order codec operations = .ok stream ∧
      (∀ readBuf chunks, chunks.flatten = stream → Requested readBuf si pduHeaderLen chunks →
        ∃ si', feed readBuf si pduHeaderLen chunks = some (operations.map fun o => o.2.sunk codec, si', pduHeaderLen) ∧
          si'.state = .awaitingHeader ∧ si'.accumulated = 0) ∧
      ∀ memory operation msg size, Sized codec operation →
        kineticRequestPackMessage order codec (some memory) operation = .ok (msg, size) →
        ∀ part rest, part ++ rest = load msg 0 size → rest ≠ [] →
        ∀ readBuf chunks, chunks.flatten = stream ++ part → Requested readBuf si pduHeaderLen chunks →
          ∃ si' nextRead, feed readBuf si pduHeaderLen chunks = some (operations.map fun o => o.2.sunk codec, si', nextRead) := by
  refine ⟨_, packedStream_eq order packs sized, fun readBuf chunks bytes requested => ?_,
    fun memory operation msg size fits packed part rest cut unfinished readBuf chunks bytes requested => ?_⟩
  · obtain ⟨si', nextRead, fed, ⟨header, next⟩ | body⟩ :=
      feed_stream packs sized ready fresh parse_nil (bytes.trans (List.append_nil _).symm) requested
    · rw [next] at fed
      exact ⟨si', fed, header.state, header.accumulated⟩
    · exact absurd body.long (by decide)
  · obtain ⟨msg', size', packed', loaded⟩ := packMessage_pdu order memory (packs _) fits
    rw [packed] at packed'
    obtain ⟨same, length⟩ := Prod.mk.inj (Except.ok.inj packed')
    rw [same, length, loaded] at cut
    have nothing := parse_part (packs operation.message ▸ fits.protobuf) fits.value cut unfinished
    obtain ⟨si', nextRead, fed, _⟩ := feed_stream packs sized ready fresh nothing bytes requested
    exact ⟨si', nextRead, fed⟩

/-- Messages that are their own bytes. -/
def rawCodec : MessageCodec (List UInt8) := ⟨List.length, id⟩

/-- Two operations, one without a value, whose bytes are cut inside a header and inside a body. -/
theorem sink_inverts_pack_two : ∃ stream si', packedStream .little rawCodec [(fun _ => 0, ⟨[7], [8, 9]⟩), (fun _ => 1, ⟨[5], []⟩)] =
      .ok stream ∧ stream = [70, 0, 0, 0, 1, 0, 0, 0, 2, 7, 8, 9, 70, 0, 0, 0, 1, 0, 0, 0, 0, 5] ∧
    feed (fun _ => 0) (resetTransfer .calloc).1 9
      [[70, 0, 0, 0], [1, 0, 0, 0, 2], [7, 8], [9], [70, 0, 0, 0, 1, 0, 0, 0, 0], [5]] =
        some ([.message 1 2 [7] [8, 9], .message 1 0 [5] []], si', 9) ∧ si'.state = .awaitingHeader := by
  have sized : ∀ o ∈ [((fun _ => 0 : Nat → UInt8), (⟨[7], [8, 9]⟩ : OutgoingRequest (List UInt8))), (fun _ => 1, ⟨[5], []⟩)],
      Sized rawCodec o.2 := by
    intro o member
    simp only [List.mem_cons, List.not_mem_nil, or_false] at member
    rcases member with rfl | rfl
    · exact ⟨by decide, by decide, by decide⟩
    · exact ⟨by decide, by decide, by decide⟩
  obtain ⟨stream, packed, whole, _⟩ := sink_inverts_pack (fun _ => rfl) .little sized
    (rfl : (resetTransfer .calloc).1.state = .awaitingHeader) rfl
  have bytes : packedStream .little rawCodec [(fun _ => 0, ⟨[7], [8, 9]⟩), (fun _ => 1, ⟨[5], []⟩)] =
      .ok [70, 0, 0, 0, 1, 0, 0, 0, 2, 7, 8, 9, 70, 0, 0, 0, 1, 0, 0, 0, 0, 5] := rfl
  cases packed.symm.trans bytes
  obtain ⟨si', fed, state, _⟩ := whole (fun _ => 0)
    [[70, 0, 0, 0], [1, 0, 0, 0, 2], [7, 8], [9], [70, 0, 0, 0, 1, 0, 0, 0, 0], [5]] rfl (by decide +kernel)
  exact ⟨_, si', packed, rfl, fed, state⟩

end Inverse

end Kinetic
