import Kinetic.Sink.Parser

namespace Kinetic
open Memory

theorem foldl_bigEndian_lt (bytes : List UInt8) (acc : Nat) :
    bytes.foldl (fun acc b => acc * 256 + b.toNat) acc < (acc + 1) * 256 ^ bytes.length := by
  induction bytes generalizing acc with
  | nil => simp
  | cons b rest ih =>
    have byte := b.toNat_lt
    calc (b :: rest).foldl (fun acc b => acc * 256 + b.toNat) acc
        < (acc * 256 + b.toNat + 1) * 256 ^ rest.length := ih _
      _ ≤ ((acc + 1) * 256) * 256 ^ rest.length := Nat.mul_le_mul_right _ (by omega)
      _ = (acc + 1) * 256 ^ (b :: rest).length := by rw [List.length_cons, Nat.pow_succ', Nat.mul_assoc]

/-- `KineticNBO_SwapByteOrder` takes the bytes in memory order, whatever the host's own order is. -/
theorem nboSwapByteOrder_eq (p : Nat → UInt8) (off len : Nat) :
    nboSwapByteOrder p off len = bigEndian (load p off len) := by
  unfold nboSwapByteOrder bigEndian
  congr 1
  funext acc b
  have byte := b.toNat_lt
  rw [← Nat.shiftLeft_add_eq_or_of_lt (by omega : b.toNat < 2 ^ 8), Nat.shiftLeft_eq]

theorem headerLengths_lt {bytes : List UInt8} (long : 9 ≤ bytes.length) :
    (headerLengths bytes).1 < 2 ^ 32 ∧ (headerLengths bytes).2 < 2 ^ 32 := by
  have first := foldl_bigEndian_lt ((bytes.drop 1).take 4) 0
  have second := foldl_bigEndian_lt ((bytes.drop 5).take 4) 0
  rw [List.length_take_of_le (by rw [List.length_drop]; omega)] at first second
  exact ⟨first, second⟩

theorem unpackHeader_eq {buf : Nat → UInt8} {bytes : List UInt8} (loaded : load buf 0 9 = bytes) :
    unpackHeader buf pduHeaderLen =
      if validLengths (headerLengths bytes) then some ⟨buf 0, (headerLengths bytes).1, (headerLengths bytes).2⟩
      else none := by
  have length : bytes.length = 9 := by rw [← loaded, load_length]
  have bounds := headerLengths_lt (show 9 ≤ bytes.length by omega)
  have first : nboSwapByteOrder buf 1 4 % 2 ^ 32 = (headerLengths bytes).1 := by
    rw [nboSwapByteOrder_eq, load_window loaded (by omega), ← Nat.mod_eq_of_lt bounds.1]
    rfl
  have second : nboSwapByteOrder buf 5 4 % 2 ^ 32 = (headerLengths bytes).2 := by
    rw [nboSwapByteOrder_eq, load_window loaded (by omega), ← Nat.mod_eq_of_lt bounds.2]
    rfl
  unfold unpackHeader
  simp only [first, second, ne_eq, not_true_eq_false, if_false]
  rfl

theorem remaining_eq {whole accumulated : Nat} (within : accumulated ≤ whole) (small : whole < 2 ^ 32) :
    remaining whole accumulated = whole - accumulated := by
  unfold remaining
  omega

/-- The parser waits for the rest of a header, of which `rest` has arrived. -/
structure InHeader (si : SocketInfo) (rest : List UInt8) : Prop where
  state : si.state = .awaitingHeader
  short : rest.length < 9
  accumulated : si.accumulated = rest.length
  loaded : load si.buf 0 rest.length = rest

/-- The parser waits for the rest of a body; `rest` is the header and the part of the body that has arrived. -/
structure InBody (si : SocketInfo) (rest : List UInt8) : Prop where
  state : si.state = .awaitingBody
  long : 9 ≤ rest.length
  valid : validLengths (headerLengths rest)
  protobufLength : si.header.protobufLength = (headerLengths rest).1
  valueLength : si.header.valueLength = (headerLengths rest).2
  unpackStatus : si.unpackStatus = .success
  accumulated : si.accumulated = (rest.drop 9).length
  loaded : load si.buf 0 (rest.drop 9).length = rest.drop 9
  unfinished : (rest.drop 9).length < (headerLengths rest).1 + (headerLengths rest).2

/-- A PDU with nothing behind its header: both lengths are 0. -/
def emptyMessage : SinkEvent := .message 0 0 [] []

/-- The connection is where the reference parser is, and asks for what that one still needs. -/
def Tracks (c : Connection) : Prop :=
  ∃ rest, parse c.consumed = (c.events, rest) ∧ emptyMessage ∉ c.events ∧
    (InHeader c.si rest ∧ c.toReadSize = 9 - rest.length ∨
      InBody c.si rest ∧ c.toReadSize = (headerLengths rest).1 + (headerLengths rest).2 - (rest.drop 9).length)

/-- The connection has met the header of an empty PDU: it asks for nothing and has not emitted the PDU. -/
def Starved (c : Connection) : Prop :=
  c.toReadSize = 0 ∧ (parse c.consumed).1 = c.events ++ [emptyMessage]

theorem Tracks.toReadSize_pos {c : Connection} (tracks : Tracks c) : 0 < c.toReadSize := by
  obtain ⟨rest, _, _, ⟨header, size⟩ | ⟨body, size⟩⟩ := tracks
  · have := header.short
    omega
  · have := body.unfinished
    omega

section Sinking
variable {si : SocketInfo} {readBuf : Nat → UInt8} {rest chunk : List UInt8}

theorem appended {n : Nat} {old : List UInt8} (accumulated : si.accumulated = n) (loaded : load si.buf 0 n = old)
    (arrived : load readBuf 0 chunk.length = chunk) :
    load (copy si.buf si.accumulated readBuf chunk.length) 0 (n + chunk.length) = old ++ chunk := by
  rw [accumulated, load_copy_append, loaded, arrived]

theorem InHeader.sink_part (header : InHeader si rest) (arrived : load readBuf 0 chunk.length = chunk)
    (part : (rest ++ chunk).length < 9) :
    ∃ si', sinkCb si readBuf chunk.length = some (si', ⟨9 - (rest ++ chunk).length, false⟩) ∧
      InHeader si' (rest ++ chunk) := by
  have buffer := appended header.accumulated header.loaded arrived
  rw [← List.length_append] at buffer
  have length : si.accumulated + chunk.length = (rest ++ chunk).length := by
    rw [header.accumulated, List.length_append]
  have left : remaining pduHeaderLen (si.accumulated + chunk.length) = 9 - (rest ++ chunk).length := by
    rw [length]
    exact remaining_eq (by unfold pduHeaderLen; omega) (by decide)
  have more : 9 - (rest ++ chunk).length ≠ 0 := by omega
  refine ⟨{ si with accumulated := si.accumulated + chunk.length,
                    buf := copy si.buf si.accumulated readBuf chunk.length }, ?_, header.state, part, length, buffer⟩
  simp only [sinkCb, header.state, left, more, if_false]

/-- The last byte of a header arrives. -/
theorem InHeader.sink_end (header : InHeader si rest) (arrived : load readBuf 0 chunk.length = chunk)
    (full : (rest ++ chunk).length = 9) :
    (validLengths (headerLengths (rest ++ chunk)) ∧ ∃ si', sinkCb si readBuf chunk.length =
        some (si', ⟨(headerLengths (rest ++ chunk)).1 + (headerLengths (rest ++ chunk)).2, false⟩) ∧
      (0 < (headerLengths (rest ++ chunk)).1 + (headerLengths (rest ++ chunk)).2 → InBody si' (rest ++ chunk))) ∨
    (¬ validLengths (headerLengths (rest ++ chunk)) ∧ ∃ si', sinkCb si readBuf chunk.length = some (si', ⟨9, true⟩) ∧
      InHeader si' [] ∧ si'.event = .invalidHeader) := by
  have buffer := appended header.accumulated header.loaded arrived
  rw [← List.length_append, full] at buffer
  have left : remaining pduHeaderLen (si.accumulated + chunk.length) = 0 := by
    rw [header.accumulated, ← List.length_append, full]
    decide
  have nothing : (rest ++ chunk).drop 9 = [] := List.drop_of_length_le (by omega)
  have unpacked := unpackHeader_eq buffer
  by_cases valid : validLengths (headerLengths (rest ++ chunk))
  · have bounds := valid
    unfold validLengths pduProtoMaxLen at bounds
    rw [if_pos valid] at unpacked
    refine Or.inl ⟨valid, { state := .awaitingBody, unpackStatus := .success, accumulated := 0,
                            header := ⟨copy si.buf si.accumulated readBuf chunk.length 0,
                              (headerLengths (rest ++ chunk)).1, (headerLengths (rest ++ chunk)).2⟩,
                            buf := copy si.buf si.accumulated readBuf chunk.length }, ?_,
      fun positive => ⟨rfl, Nat.le_of_eq full.symm, valid, rfl, rfl, rfl, ?_, ?_, ?_⟩⟩
    · have body : ((headerLengths (rest ++ chunk)).1 + (headerLengths (rest ++ chunk)).2) % 2 ^ 32 =
          (headerLengths (rest ++ chunk)).1 + (headerLengths (rest ++ chunk)).2 := Nat.mod_eq_of_lt (by omega)
      simp only [sinkCb, header.state, left, if_true, unpacked, KineticPDUHeader.bodyLength, body]
    · rw [nothing]; rfl
    · rw [nothing]; rfl
    · rw [nothing]; exact positive
  · rw [if_neg valid] at unpacked
    refine Or.inr ⟨valid, { si with state := .awaitingHeader, unpackStatus := .invalidHeader, accumulated := 0,
                                    buf := copy si.buf si.accumulated readBuf chunk.length }, ?_, ⟨rfl, ?_, rfl, rfl⟩, rfl⟩
    · simp only [sinkCb, header.state, left, if_true, unpacked]
      rfl
    · decide

theorem InBody.bodyLength (body : InBody si rest) :
    si.header.bodyLength = (headerLengths rest).1 + (headerLengths rest).2 ∧
      (headerLengths rest).1 + (headerLengths rest).2 < 2 ^ 32 := by
  have bounds := body.valid
  unfold validLengths pduProtoMaxLen at bounds
  unfold KineticPDUHeader.bodyLength
  rw [body.protobufLength, body.valueLength]
  exact ⟨Nat.mod_eq_of_lt (by omega), by omega⟩

/-- More of a body arrives, which completes it when nothing is left to ask for. -/
theorem InBody.sink (body : InBody si rest) (arrived : load readBuf 0 chunk.length = chunk)
    (within : (rest.drop 9 ++ chunk).length ≤ (headerLengths rest).1 + (headerLengths rest).2) :
    ((rest.drop 9 ++ chunk).length < (headerLengths rest).1 + (headerLengths rest).2 ∧
      ∃ si', sinkCb si readBuf chunk.length = some (si',
          ⟨(headerLengths rest).1 + (headerLengths rest).2 - (rest.drop 9 ++ chunk).length, false⟩) ∧
        InBody si' (rest ++ chunk)) ∨
    ((rest.drop 9 ++ chunk).length = (headerLengths rest).1 + (headerLengths rest).2 ∧
      ∃ si', sinkCb si readBuf chunk.length = some (si', ⟨9, true⟩) ∧ InHeader si' [] ∧
        si'.event = .message (headerLengths rest).1 (headerLengths rest).2 ((rest.drop 9 ++ chunk).take (headerLengths rest).1)
          (((rest.drop 9 ++ chunk).drop (headerLengths rest).1).take (headerLengths rest).2)) := by
  have buffer := appended body.accumulated body.loaded arrived
  rw [← List.length_append] at buffer
  have length : si.accumulated + chunk.length = (rest.drop 9 ++ chunk).length := by
    rw [body.accumulated, List.length_append]
  obtain ⟨whole, small⟩ := body.bodyLength
  have left : remaining si.header.bodyLength (si.accumulated + chunk.length) =
      (headerLengths rest).1 + (headerLengths rest).2 - (rest.drop 9 ++ chunk).length := by
    rw [whole, length]
    exact remaining_eq within small
  have behind : (rest ++ chunk).drop 9 = rest.drop 9 ++ chunk := List.drop_append_of_le_length body.long
  have lengths : headerLengths (rest ++ chunk) = headerLengths rest := headerLengths_append body.long chunk
  rcases Nat.lt_or_eq_of_le within with part | full
  · have more : (headerLengths rest).1 + (headerLengths rest).2 - (rest.drop 9 ++ chunk).length ≠ 0 := by omega
    refine Or.inl ⟨part, { si with accumulated := si.accumulated + chunk.length,
                                   buf := copy si.buf si.accumulated readBuf chunk.length }, ?_,
      ⟨body.state, ?_, lengths ▸ body.valid, lengths ▸ body.protobufLength, lengths ▸ body.valueLength,
        body.unpackStatus, behind ▸ length, ?_, ?_⟩⟩
    · simp only [sinkCb, body.state, left, more, if_false]
    · rw [List.length_append]; exact Nat.le_trans body.long (Nat.le_add_right _ _)
    · rw [behind]; exact buffer
    · rw [behind, lengths]; exact part
  · have done : (headerLengths rest).1 + (headerLengths rest).2 - (rest.drop 9 ++ chunk).length = 0 := by omega
    refine Or.inr ⟨full, { si with state := .awaitingHeader, accumulated := 0,
                                   buf := copy si.buf si.accumulated readBuf chunk.length }, ?_, ⟨rfl, ?_, rfl, rfl⟩, ?_⟩
    · simp only [sinkCb, body.state, left, done, if_true]
      rfl
    · decide
    · have value := load_window buffer (Nat.le_of_eq full.symm)
      have protobuf := load_window buffer (show 0 + (headerLengths rest).1 ≤ _ by omega)
      simp only [SocketInfo.event, body.unpackStatus, body.protobufLength, body.valueLength, value, protobuf,
        List.drop_zero, ne_eq, not_true_eq_false, if_false]

end Sinking

end Kinetic
