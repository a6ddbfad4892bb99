import Kinetic.Listener.Reading
import Kinetic.Sink.Tracks

namespace Kinetic
open Transition (Reach exec exists_reach_of_exec)

/-- The size of the buffer of a socket, which `KineticSession_Connect` allocates behind its `socket_info`. -/
def socketBufSize : Nat := 2 * pduProtoMaxLen

/-- The `read_buf_size` after `ListenerTask_GrowReadBuf`, when the reallocation succeeds. -/
def growReadBuf (readBufSize nsize : Nat) : Nat := if nsize < readBufSize then readBufSize else nsize

/-- The part of the buffer of the socket that `sink_cb` writes: from where, and how many bytes. -/
def SocketInfo.sinks (si : SocketInfo) (readSize : Nat) : List (Nat × Nat) :=
  if si.state = .uninit then [] else [(si.accumulated, readSize)]

/-- The parts of the buffer that `unpack_cb` reads: the message for `KineticPDU_unpack_message`, and the value that it copies. -/
def SocketInfo.unpacks (si : SocketInfo) : List (Nat × Nat) :=
  if si.unpackStatus = .success then
    [(0, si.header.protobufLength), (si.header.protobufLength, si.header.valueLength)]
  else []

/-- The reading side of a listener with the size of its buffer, what `read` was asked for and the size of the buffer then, and
the parts of the buffers of the sockets that were written and read. -/
structure Buffers where
  side : ReadSide
  readBufSize : Nat
  requests : List (Nat × Nat)
  copies : List (Nat × Nat)

/-- After `Listener_Init`: `calloc` leaves `read_buf` NULL and its size 0, and the first socket makes it grow. -/
def Buffers.new (readBuf : Nat → UInt8) : Buffers :=
  { side := .empty readBuf, readBufSize := 0, requests := [], copies := [] }

inductive BufferLabel
  | add (fd : Nat)
  | remove (fd : Nat)
  | read (fd : Nat) (chunk : List UInt8)

/-- `add_socket` with the end of it, a socket that is removed, and one `read` or `SSL_read` of a chunk with `sink_socket_read` of
it. -/
def bufferStep (l : Buffers) : BufferLabel → Option Buffers
  | .add fd => do
    let side ← readStep l.side (.add fd)
    let c ← side.conns fd
    some { l with side := side, readBufSize := growReadBuf l.readBufSize c.toReadSize }
  | .remove fd => some { l with side := { l.side with conns := Function.update l.side.conns fd none } }
  | .read fd chunk => do
    let c ← l.side.conns fd
    let side ← readStep l.side (.read fd chunk)
    let c' ← side.conns fd
    let (_, res) ← sinkCb c.si side.readBuf chunk.length
    some {
      side := side
      readBufSize := if l.readBufSize < c'.toReadSize then growReadBuf l.readBufSize c'.toReadSize else l.readBufSize
      requests := l.requests ++ [(c.toReadSize, l.readBufSize)]
      copies := l.copies ++ c.si.sinks chunk.length ++ if res.fullMsgBuffer then c'.si.unpacks else [] }

/-- What the parser asks for next is the rest of what it is waiting for, and the lengths of a header that it has taken are
within their bounds. -/
structure SocketInfo.Sized (si : SocketInfo) (toReadSize : Nat) : Prop where
  primed : si.state ≠ .uninit
  header : si.state = .awaitingHeader → si.accumulated + toReadSize = pduHeaderLen
  body : si.state = .awaitingBody → si.accumulated + toReadSize = si.header.protobufLength + si.header.valueLength
  success : si.state = .awaitingBody → si.unpackStatus = .success
  lengths : si.unpackStatus = .success → si.header.protobufLength ≤ pduProtoMaxLen ∧ si.header.valueLength ≤ pduProtoMaxLen

section Sink
variable {si si' : SocketInfo} {readBuf : Nat → UInt8} {readSize toReadSize : Nat} {res : SinkRes}

theorem unpackHeader_lengths {header : KineticPDUHeader} (unpacked : unpackHeader readBuf readSize = some header) :
    header.protobufLength ≤ pduProtoMaxLen ∧ header.valueLength ≤ pduProtoMaxLen := by
  unfold unpackHeader at unpacked
  split at unpacked
  · cases unpacked
  · dsimp only at unpacked
    split at unpacked
    · rename_i bounds
      cases unpacked
      exact bounds
    · cases unpacked

/-- The sum of the lengths does not wrap around. -/
theorem KineticPDUHeader.bodyLength_eq {h : KineticPDUHeader}
    (lengths : h.protobufLength ≤ pduProtoMaxLen ∧ h.valueLength ≤ pduProtoMaxLen) :
    h.bodyLength = h.protobufLength + h.valueLength := by
  have small : pduProtoMaxLen = 2 ^ 20 := by decide
  unfold KineticPDUHeader.bodyLength
  omega

theorem SocketInfo.Sized.inHeader (state : si.state = .awaitingHeader) (sum : si.accumulated + toReadSize = pduHeaderLen)
    (lengths : si.unpackStatus = .success →
      si.header.protobufLength ≤ pduProtoMaxLen ∧ si.header.valueLength ≤ pduProtoMaxLen) : si.Sized toReadSize := by
  have other : si.state ≠ .awaitingBody := by simp [state]
  exact ⟨by simp [state], fun _ => sum, fun body => absurd body other, fun body => absurd body other, lengths⟩

theorem SocketInfo.Sized.inBody (state : si.state = .awaitingBody)
    (sum : si.accumulated + toReadSize = si.header.protobufLength + si.header.valueLength) (success : si.unpackStatus = .success)
    (lengths : si.header.protobufLength ≤ pduProtoMaxLen ∧ si.header.valueLength ≤ pduProtoMaxLen) : si.Sized toReadSize := by
  have other : si.state ≠ .awaitingHeader := by simp [state]
  exact ⟨by simp [state], fun header => absurd header other, fun _ => sum, fun _ => success, fun _ => lengths⟩

/-- All that the parser waits for fits in the buffer of the socket. -/
theorem SocketInfo.Sized.within (sized : si.Sized toReadSize) : si.accumulated + toReadSize ≤ socketBufSize := by
  have size : socketBufSize = 2 * pduProtoMaxLen := rfl
  have small : pduHeaderLen ≤ socketBufSize := by decide
  cases state : si.state with
  | uninit => exact absurd state sized.primed
  | awaitingHeader =>
    have header := sized.header state
    omega
  | awaitingBody =>
    have body := sized.body state
    have lengths := sized.lengths (sized.success state)
    omega

theorem SocketInfo.Sized.sink (sized : si.Sized toReadSize) (room : readSize ≤ toReadSize)
    (run : sinkCb si readBuf readSize = some (si', res)) : si'.Sized res.nextRead := by
  unfold sinkCb at run
  split at run
  · rename_i state
    exact absurd state sized.primed
  · rename_i state
    have header := sized.header state
    have left := remaining_eq (show si.accumulated + readSize ≤ pduHeaderLen by omega) (by decide)
    dsimp only at run
    rw [left] at run
    split at run
    · split at run
      · rename_i taken
        cases run
        have lengths := unpackHeader_lengths taken
        refine .inBody rfl ?_ rfl lengths
        rw [KineticPDUHeader.bodyLength_eq lengths, Nat.zero_add]
      · cases run
        refine .inHeader rfl rfl fun success => ?_
        cases success
    · cases run
      refine .inHeader state ?_ sized.lengths
      show si.accumulated + readSize + (pduHeaderLen - (si.accumulated + readSize)) = pduHeaderLen
      omega
  · rename_i state
    have body := sized.body state
    have success := sized.success state
    have lengths := sized.lengths success
    have size := KineticPDUHeader.bodyLength_eq lengths
    have small : pduProtoMaxLen = 2 ^ 20 := by decide
    have left := remaining_eq (show si.accumulated + readSize ≤ si.header.bodyLength by omega) (by omega)
    dsimp only at run
    rw [left] at run
    split at run
    · cases run
      exact .inHeader rfl rfl fun _ => lengths
    · cases run
      refine .inBody state ?_ success lengths
      show si.accumulated + readSize + (si.header.bodyLength - (si.accumulated + readSize)) =
        si.header.protobufLength + si.header.valueLength
      omega

/-- What `unpack_cb` reads is within the buffer of the socket. -/
theorem SocketInfo.Sized.unpacks_within (sized : si.Sized toReadSize) :
    ∀ part ∈ si.unpacks, part.1 + part.2 ≤ socketBufSize := by
  intro part member
  have size : socketBufSize = 2 * pduProtoMaxLen := rfl
  unfold SocketInfo.unpacks at member
  split at member
  · rename_i success
    have lengths := sized.lengths success
    rcases List.mem_cons.mp member with rfl | member
    · show 0 + si.header.protobufLength ≤ socketBufSize
      omega
    · rw [List.mem_singleton.mp member]
      show si.header.protobufLength + si.header.valueLength ≤ socketBufSize
      omega
  · cases member

theorem SocketInfo.Sized.sinks_within (sized : si.Sized toReadSize) (room : readSize ≤ toReadSize) :
    ∀ part ∈ si.sinks readSize, part.1 + part.2 ≤ socketBufSize := by
  intro part member
  have within := sized.within
  unfold SocketInfo.sinks at member
  split at member
  · cases member
  · rw [List.mem_singleton.mp member]
    show si.accumulated + readSize ≤ socketBufSize
    omega

end Sink

theorem le_growReadBuf (readBufSize nsize : Nat) :
    readBufSize ≤ growReadBuf readBufSize nsize ∧ nsize ≤ growReadBuf readBufSize nsize := by
  unfold growReadBuf
  split
  · omega
  · omega

/-- Every socket of a listener. The buffer for reading only grows, so what it was grown for stays within it. -/
structure Buffers.Inv (l : Buffers) : Prop where
  sized : ∀ fd c, l.side.conns fd = some c → c.si.Sized c.toReadSize
  fits : ∀ fd c, l.side.conns fd = some c → c.toReadSize ≤ l.readBufSize
  requests : ∀ request ∈ l.requests, request.1 ≤ request.2
  copies : ∀ part ∈ l.copies, part.1 + part.2 ≤ socketBufSize

section Steps
variable {l l' : Buffers} {fd : Nat} {chunk : List UInt8}

theorem readStep_read {side side' : ReadSide} (run : readStep side (.read fd chunk) = some side') :
    ∃ c c' res, side.conns fd = some c ∧ 0 < c.toReadSize ∧ chunk.length ≤ c.toReadSize ∧
      sinkCb c.si side'.readBuf chunk.length = some (c'.si, res) ∧ c'.toReadSize = res.nextRead ∧
      side'.conns = Function.update side.conns fd (some c') := by
  simp only [readStep] at run
  split at run
  · cases run
  · rename_i c found
    split at run
    · rename_i request
      obtain ⟨c', sunk, made⟩ := Option.map_eq_some_iff.mp run
      cases made
      unfold sinkSocketRead at sunk
      split at sunk
      · rename_i si res parsed
        cases sunk
        exact ⟨c, _, res, found, request.1, request.2.2, parsed, rfl, rfl⟩
      · cases sunk
    · cases run

/-- One socket is as it should be, and the buffer for reading has not become smaller. -/
theorem Buffers.Inv.update (inv : l.Inv) (fd : Nat) {c : Connection} {size : Nat} (sized : c.si.Sized c.toReadSize)
    (fits : c.toReadSize ≤ size) (grows : l.readBufSize ≤ size) (other : Nat) (d : Connection)
    (there : Function.update l.side.conns fd (some c) other = some d) : d.si.Sized d.toReadSize ∧ d.toReadSize ≤ size := by
  by_cases same : other = fd
  · rw [same, Function.update_self] at there
    cases there
    exact ⟨sized, fits⟩
  · rw [Function.update_of_ne same] at there
    have old := inv.fits other d there
    exact ⟨inv.sized other d there, by omega⟩

theorem Buffers.Inv.add (inv : l.Inv) (run : bufferStep l (.add fd) = some l') : l'.Inv := by
  obtain ⟨side, added, run⟩ := Option.bind_eq_some_iff.mp run
  obtain ⟨c, found, run⟩ := Option.bind_eq_some_iff.mp run
  cases run
  have grown := le_growReadBuf l.readBufSize c.toReadSize
  simp only [readStep] at added
  split at added
  · cases added
  · cases added
    simp only [Function.update_self, Option.some.injEq] at found
    subst found
    have primed : SocketInfo.Sized { SocketInfo.calloc with state := .awaitingHeader } pduHeaderLen :=
      .inHeader rfl rfl fun success => by cases success
    have new := inv.update fd primed grown.2 grown.1
    exact ⟨fun other d there => (new other d there).1, fun other d there => (new other d there).2, inv.requests, inv.copies⟩

theorem Buffers.Inv.remove (inv : l.Inv) (run : bufferStep l (.remove fd) = some l') : l'.Inv := by
  cases run
  have old (other : Nat) (d : Connection) (there : Function.update l.side.conns fd none other = some d) :
      l.side.conns other = some d := by
    by_cases same : other = fd
    · rw [same, Function.update_self] at there
      cases there
    · rwa [Function.update_of_ne same] at there
  exact ⟨fun other d there => inv.sized other d (old other d there), fun other d there => inv.fits other d (old other d there),
    inv.requests, inv.copies⟩

theorem Buffers.Inv.read (inv : l.Inv) (run : bufferStep l (.read fd chunk) = some l') : l'.Inv := by
  obtain ⟨c, found, run⟩ := Option.bind_eq_some_iff.mp run
  obtain ⟨side, taken, run⟩ := Option.bind_eq_some_iff.mp run
  obtain ⟨c', found', run⟩ := Option.bind_eq_some_iff.mp run
  obtain ⟨⟨si, res⟩, parsed, run⟩ := Option.bind_eq_some_iff.mp run
  cases run
  obtain ⟨d, d', res', atFd, _, room, sunk, next, conns⟩ := readStep_read taken
  rw [found] at atFd
  cases atFd
  rw [conns, Function.update_self] at found'
  cases found'
  rw [sunk] at parsed
  cases parsed
  have sized := inv.sized fd c found
  have after : c'.si.Sized c'.toReadSize := by
    rw [next]
    exact sized.sink room sunk
  have grows : l.readBufSize ≤ (if l.readBufSize < c'.toReadSize then growReadBuf l.readBufSize c'.toReadSize else l.readBufSize) ∧
      c'.toReadSize ≤ if l.readBufSize < c'.toReadSize then growReadBuf l.readBufSize c'.toReadSize else l.readBufSize := by
    split
    · exact le_growReadBuf _ _
    · omega
  have all := inv.update fd after grows.2 grows.1
  rw [← conns] at all
  refine ⟨fun other e there => (all other e there).1, fun other e there => (all other e there).2, fun request member => ?_,
    fun part member => ?_⟩
  · rcases List.mem_append.mp member with old | new
    · exact inv.requests request old
    · rw [List.mem_singleton.mp new]
      exact inv.fits fd c found
  · rcases List.mem_append.mp member with before | unpacked
    · rcases List.mem_append.mp before with old | sinks
      · exact inv.copies part old
      · exact sized.sinks_within room part sinks
    · split at unpacked
      · exact after.unpacks_within part unpacked
      · cases unpacked

/-- A read of a piece that is not longer than it was asked to be goes through. -/
theorem Buffers.Inv.read_enabled (inv : l.Inv) {c : Connection} (found : l.side.conns fd = some c) (some_wanted : 0 < c.toReadSize)
    (some_read : 0 < chunk.length) (room : chunk.length ≤ c.toReadSize) : bufferStep l (.read fd chunk) ≠ none := by
  have primed := (inv.sized fd c found).primed
  obtain ⟨si, res, sunk⟩ := sinkCb_of_primed primed (Memory.store l.side.readBuf chunk) chunk.length
  simp [bufferStep, readStep, found, some_wanted, some_read, room, sinkSocketRead, sunk]

end Steps

/-- Whatever sockets share a listener and whatever arrives on them, each `read` is asked for no more than fits in the listener's
buffer, and each copy to or from the buffer of a socket is within it. -/
theorem buffers_suffice {readBuf : Nat → UInt8} {l : Buffers} (reach : Reach bufferStep (.new readBuf) (fun _ _ => True) l) :
    (∀ request ∈ l.requests, request.1 ≤ request.2) ∧ (∀ part ∈ l.copies, part.1 + part.2 ≤ 2 * pduProtoMaxLen) ∧
      ∀ fd c, l.side.conns fd = some c → c.toReadSize ≤ l.readBufSize ∧
        ∀ chunk : List UInt8, 0 < c.toReadSize → 0 < chunk.length → chunk.length ≤ c.toReadSize →
          c.si.accumulated + chunk.length ≤ 2 * pduProtoMaxLen ∧ bufferStep l (.read fd chunk) ≠ none := by
  have inv : l.Inv := by
    refine reach.invariant ⟨?_, ?_, ?_, ?_⟩ fun _ label _ inv _ run => ?_
    · intro fd c found
      cases found
    · intro fd c found
      cases found
    · intro request member
      cases member
    · intro part member
      cases member
    · cases label with
      | add fd => exact inv.add run
      | remove fd => exact inv.remove run
      | read fd chunk => exact inv.read run
  refine ⟨inv.requests, inv.copies, fun fd c found => ⟨inv.fits fd c found, fun chunk some_wanted some_read room => ⟨?_, ?_⟩⟩⟩
  · have within : c.si.accumulated + c.toReadSize ≤ 2 * pduProtoMaxLen := (inv.sized fd c found).within
    omega
  · exact inv.read_enabled found some_wanted some_read room

/-- The first socket makes the buffer, a header on it makes the buffer grow, and the second socket is read with the larger
one. -/
theorem buffers_suffice_shared : ∃ l, Reach bufferStep (.new fun _ => 0) (fun _ _ => True) l ∧ l.readBufSize = 2097152 ∧
    l.requests = [(9, 9), (9, 2097152), (3, 2097152)] ∧ l.copies = [(0, 9), (0, 9), (0, 3), (0, 2), (2, 1)] ∧
    ∀ request ∈ l.requests, request.1 ≤ request.2 := by
  have trace : (exec bufferStep (fun _ _ => decide True) (.new fun _ => 0)
      [.add 5, .add 6, .read 5 [70, 0, 16, 0, 0, 0, 16, 0, 0], .read 6 [70, 0, 0, 0, 2, 0, 0, 0, 1], .read 6 [8, 1, 7]]).map
      (fun l => (l.readBufSize, l.requests, l.copies)) =
        some (2097152, [(9, 9), (9, 2097152), (3, 2097152)], [(0, 9), (0, 9), (0, 3), (0, 2), (2, 1)]) := by
    decide +kernel
  obtain ⟨l, reach, seen⟩ := exists_reach_of_exec trace
  simp only [Prod.mk.injEq] at seen
  exact ⟨l, reach, seen.1, seen.2.1, seen.2.2, (buffers_suffice reach).1⟩

end Kinetic
