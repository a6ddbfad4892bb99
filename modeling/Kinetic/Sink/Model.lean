import Kinetic.Lib.Memory
import Kinetic.Lib.Transition
import Mathlib.Algebra.Group.Nat.Defs
import Mathlib.Logic.Function.Basic

namespace Kinetic

/-- `PDU_HEADER_LEN`, which is also `sizeof(KineticPDUHeader)`. -/
def pduHeaderLen : Nat := 9
def pduProtoMaxLen : Nat := 1024 * 1024

inductive SocketState
  | uninit
  | awaitingHeader
  | awaitingBody
  deriving DecidableEq

inductive UnpackError
  | undefined
  | success
  | invalidHeader
  | payloadMallocFail
  deriving DecidableEq

structure KineticPDUHeader where
  versionPrefix : UInt8
  protobufLength : Nat
  valueLength : Nat
  deriving DecidableEq

/-- `socket_info`, the parser state of one session, with its buffer as a memory. -/
structure SocketInfo where
  state : SocketState
  header : KineticPDUHeader
  unpackStatus : UnpackError
  accumulated : Nat
  buf : Nat → UInt8

/-- The zeroed block that `KineticSession_Connect` allocates; `STATE_UNINIT` and
`UNPACK_ERROR_UNDEFINED` are 0. -/
def SocketInfo.calloc : SocketInfo :=
  { state := .uninit, header := ⟨0, 0, 0⟩, unpackStatus := .undefined, accumulated := 0, buf := fun _ => 0 }

/-- `bus_sink_cb_res_t`; its `full_msg_buffer` is either `NULL` or the `socket_info` itself. -/
structure SinkRes where
  nextRead : Nat
  fullMsgBuffer : Bool
  deriving DecidableEq

/-- `KineticNBO_SwapByteOrder` of the bytes at `p`. -/
def nboSwapByteOrder (p : Nat → UInt8) (off len : Nat) : Nat :=
  (Memory.load p off len).foldl (fun swapped b => swapped <<< 8 ||| b.toNat) 0

def resetTransfer (si : SocketInfo) : SocketInfo × SinkRes :=
  ({ si with state := .awaitingHeader, accumulated := 0, unpackStatus := .undefined, header := ⟨0, 0, 0⟩ },
    { nextRead := pduHeaderLen, fullMsgBuffer := false })

/-- `unpack_header`: the two lengths are in network byte order at offsets 1 and 5. -/
def unpackHeader (readBuf : Nat → UInt8) (readSize : Nat) : Option KineticPDUHeader :=
  if readSize ≠ pduHeaderLen then none
  else
    let protobufLength := nboSwapByteOrder readBuf 1 4 % 2 ^ 32
    let valueLength := nboSwapByteOrder readBuf 5 4 % 2 ^ 32
    if protobufLength ≤ pduProtoMaxLen ∧ valueLength ≤ pduProtoMaxLen then
      some { versionPrefix := readBuf 0, protobufLength := protobufLength, valueLength := valueLength }
    else none

/-- The sum of two `uint32_t` lengths. -/
def KineticPDUHeader.bodyLength (h : KineticPDUHeader) : Nat := (h.protobufLength + h.valueLength) % 2 ^ 32

/-- `(uint32_t)(whole - accumulated)`, the subtraction being made in `size_t`. -/
def remaining (whole accumulated : Nat) : Nat := (whole + 2 ^ 64 - accumulated) % 2 ^ 64 % 2 ^ 32

/-- `sink_cb`; `none` is the failing assertion of the uninitialised state. -/
def sinkCb (si : SocketInfo) (readBuf : Nat → UInt8) (readSize : Nat) : Option (SocketInfo × SinkRes) :=
  match si.state with
  | .uninit => if readSize = 0 then some (resetTransfer si) else none
  | .awaitingHeader =>
    let buf := Memory.copy si.buf si.accumulated readBuf readSize
    let accumulated := si.accumulated + readSize
    let left := remaining pduHeaderLen accumulated
    if left = 0 then
      match unpackHeader buf pduHeaderLen with
      | some header =>
        some ({ state := .awaitingBody, header := header, unpackStatus := .success, accumulated := 0, buf := buf },
          { nextRead := header.bodyLength, fullMsgBuffer := false })
      | none =>
        some ({ si with state := .awaitingHeader, unpackStatus := .invalidHeader, accumulated := 0, buf := buf },
          { nextRead := pduHeaderLen, fullMsgBuffer := true })
    else some ({ si with accumulated := accumulated, buf := buf }, { nextRead := left, fullMsgBuffer := false })
  | .awaitingBody =>
    let buf := Memory.copy si.buf si.accumulated readBuf readSize
    let accumulated := si.accumulated + readSize
    let left := remaining si.header.bodyLength accumulated
    if left = 0 then
      some ({ si with state := .awaitingHeader, accumulated := 0, buf := buf },
        { nextRead := pduHeaderLen, fullMsgBuffer := true })
    else some ({ si with accumulated := accumulated, buf := buf }, { nextRead := left, fullMsgBuffer := false })

/-- One thing the parser hands over: a complete PDU, or an unusable header. -/
inductive SinkEvent
  | message (protobufLength valueLength : Nat) (protobuf value : List UInt8)
  | invalidHeader
  deriving DecidableEq

/-- What `unpack_cb` finds in the `socket_info` it is given. -/
def SocketInfo.event (si : SocketInfo) : SinkEvent :=
  if si.unpackStatus ≠ .success then .invalidHeader
  else .message si.header.protobufLength si.header.valueLength (Memory.load si.buf 0 si.header.protobufLength)
    (Memory.load si.buf si.header.protobufLength si.header.valueLength)

/-- A registered socket: its parser state and `to_read_size`, with the bytes
read from it and the events emitted for it so far. -/
structure Connection where
  si : SocketInfo
  toReadSize : Nat
  consumed : List UInt8
  events : List SinkEvent

/-- The reading side of a listener: one buffer shared by all its sockets. -/
structure ReadSide where
  readBuf : Nat → UInt8
  conns : Nat → Option Connection

/-- `add_socket` primes a new socket by sinking 0 bytes, and asserts that no message comes out. -/
def addSocketSink (readBuf : Nat → UInt8) (si : SocketInfo) : Option Connection :=
  match sinkCb si readBuf 0 with
  | some (si', res) =>
    if res.fullMsgBuffer then none else some { si := si', toReadSize := res.nextRead, consumed := [], events := [] }
  | none => none

/-- `sink_socket_read` of `chunk.length` bytes lying in the read buffer. -/
def sinkSocketRead (readBuf : Nat → UInt8) (c : Connection) (chunk : List UInt8) : Option Connection :=
  match sinkCb c.si readBuf chunk.length with
  | some (si', res) =>
    some { si := si', toReadSize := res.nextRead, consumed := c.consumed ++ chunk,
           events := if res.fullMsgBuffer then c.events ++ [si'.event] else c.events }
  | none => none

inductive ReadLabel
  | add (fd : Nat)
  | read (fd : Nat) (chunk : List UInt8)

/-- One step of the reading side: a socket is added, or one turn of the read
loop of `socket_read_plain` or `socket_read_ssl` gets a chunk of at most the requested size. -/
def readStep (l : ReadSide) : ReadLabel → Option ReadSide
  | .add fd =>
    match l.conns fd with
    | some _ => none
    | none => (addSocketSink l.readBuf .calloc).map fun c => { l with conns := Function.update l.conns fd (some c) }
  | .read fd chunk =>
    match l.conns fd with
    | none => none
    | some c =>
      if 0 < c.toReadSize ∧ 0 < chunk.length ∧ chunk.length ≤ c.toReadSize then
        let readBuf := Memory.store l.readBuf chunk
        (sinkSocketRead readBuf c chunk).map fun c' =>
          { readBuf := readBuf, conns := Function.update l.conns fd (some c') }
      else none

/-- A listener with nothing registered; its buffer may hold anything. -/
def ReadSide.empty (readBuf : Nat → UInt8) : ReadSide := { readBuf := readBuf, conns := fun _ => none }

end Kinetic
