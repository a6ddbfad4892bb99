import Kinetic.Bus.Model
import Kinetic.Session.Semaphore

namespace Kinetic
open Function (update)

/-- `KINETIC_MAX_OUTSTANDING_OPERATIONS_PER_SESSION`. -/
def kineticMaxOutstandingOperationsPerSession : Nat := 10

/-- `KINETIC_SEQUENCE_NOT_YET_BOUND`. -/
def kineticSequenceNotYetBound : Int := -2

/-- A `KineticOperation` with its request: the sequence in the header of its command, the rest of that command, the value
and the timeout. The operations are numbered in the order in which they are given to `KineticOperation_SendRequest`. -/
structure Operation where
  serial : Nat
  sequence : Int
  command : Nat
  value : List UInt8
  timeoutSeconds : Nat

/-- The functions of the protobuf library that pack a command with a sequence in its header, and the message of an
operation around the bytes of its command. -/
structure Packer where
  commandPack : Int → Nat → List UInt8
  messagePack : Operation → List UInt8 → List UInt8

/-- The bytes of a `uint32_t` after `KineticNBO_FromHostU32`. -/
def nboFromHostU32 (n : Nat) : List UInt8 :=
  [UInt8.ofNat (n / 2 ^ 24), UInt8.ofNat (n / 2 ^ 16), UInt8.ofNat (n / 2 ^ 8), UInt8.ofNat n]

/-- `KineticRequest_PackCommand`. -/
def packCommand (pk : Packer) (op : Operation) : List UInt8 := pk.commandPack op.sequence op.command

/-- The bytes of a PDU whose header has the two lengths. -/
def frame (protobufLength valueLength : Nat) (proto value : List UInt8) : List UInt8 :=
  70 :: nboFromHostU32 protobufLength ++ nboFromHostU32 valueLength ++ proto ++ value

/-- `KineticRequest_PackMessage`, when it gets its memory. Its assertions compare the lengths with those in the header,
which are `uint32_t`; no value is copied if that length is 0. -/
def packMessage (pk : Packer) (op : Operation) (commandBytes : List UInt8) : Option (List UInt8) :=
  let proto := pk.messagePack op commandBytes
  let valueLength := op.value.length % 2 ^ 32
  let value := if valueLength > 0 then op.value else []
  if proto.length < 2 ^ 32 ∧ value.length = valueLength then some (frame proto.length valueLength proto value) else none

/-- Where a thread stands in `KineticOperation_SendRequest`: before the send mutex, before each of the steps of
`send_request_in_lock`, in `box_msg` before the look at the hash table, the test of the sequence id and its update, in
`Send_DoBlockingSend` with its box, in the `Give` after a rejection, or before the unlock. -/
inductive OpPc
  | outside
  | lock (op : Operation)
  | draw (op : Operation)
  | bind (op : Operation) (seqId : Int)
  | packCommand (op : Operation)
  | authenticate (op : Operation) (commandBytes : List UInt8)
  | packMessage (op : Operation) (commandBytes : List UInt8)
  | take (op : Operation) (msg : List UInt8) (pc : SemPc)
  | box (op : Operation) (msg : List UInt8)
  | check (op : Operation) (msg : List UInt8) (ci : Nat) (ssl : Bool)
  | update (op : Operation) (msg : List UInt8) (ci : Nat) (ssl : Bool)
  | send (op : Operation) (b : Nat)
  | give (op : Operation) (pc : SemPc)
  | unlock

/-- Who uses the semaphore: a thread that sends, or the pool with one of its tasks. -/
inductive Agent
  | thread (c : Nat)
  | task (k : Nat)
  deriving DecidableEq

/-- A session over its bus: the fields of `KineticSession` that sending uses, the threads in `KineticOperation_SendRequest`,
which are clients of the bus, the operation that each box of the session has as `udata`, and the tasks of the pool that
are in `KineticController_HandleResult`. -/
structure Session where
  bus : BusState
  socket : Int
  sequence : Int
  sendMutex : Option Nat
  outstandingOperations : CountingSemaphore Agent
  threads : Nat → OpPc
  udata : Nat → Option Operation
  tasks : Nat → Option (Operation × SemPc)
  nextOp : Nat

/-- A session that has just been connected. -/
def Session.connected (bus : BusState) (fd : Int) : Session :=
  { bus := bus
    socket := fd
    sequence := 0
    sendMutex := none
    outstandingOperations := .create kineticMaxOutstandingOperationsPerSession
    threads := fun _ => .outside
    udata := fun _ => none
    tasks := fun _ => none
    nextOp := 0 }

def Session.setThread (s : Session) (c : Nat) (pc : OpPc) : Session := { s with threads := update s.threads c pc }

/-- The end of `box_msg`: the sequence id is written, and the box is with the client. -/
def BusState.boxed (s : BusState) (c ci : Nat) (ssl : Bool) (msg : UserMsg) : BusState :=
  let box : BoxedMsg := { BoxedMsg.calloc with
    outMsg := msg.msg
    timeoutSec := effectiveTimeoutSec msg.timeoutSec
    fd := msg.fd
    ssl := ssl
    outSeqId := msg.seqId }
  { (s.setBox s.nextBox box).setClient c (.send s.nextBox .timestampStart) with
    nextBox := s.nextBox + 1
    conns := s.conns.set ci { s.conns.info ci with largestWrSeqIdSeen := msg.seqId } }

/-- The test of `box_msg` for a sequence id that is not above the largest so far. -/
def ConnectionInfo.nonMonotonic (info : ConnectionInfo) (seqId : Int) : Bool :=
  seqId ≤ info.largestWrSeqIdSeen ∧ info.largestWrSeqIdSeen ≠ -1

/-- `bus_to_kinetic_status` has no assertion for the status. -/
def BusSendStatus.mapped : BusSendStatus → Bool
  | .success => true
  | .txTimeout => true
  | .txFailure => true
  | .rxTimeout => true
  | .rxFailure => true
  | .badResponse => true
  | .unregisteredSocket => true
  | .rxTimeoutExpect => true
  | _ => false

/-- A step of a thread in the semaphore. -/
def Session.semThread (s : Session) (c : Nat) (pc : SemPc) (next : SemPc → OpPc) : Option Session := do
  let (sem, pc) ← semStep s.outstandingOperations (.thread c) pc
  some { s.setThread c (next pc) with outstandingOperations := sem }

/-- The next step of a thread in `KineticOperation_SendRequest`; `ok` is whether the lock, an allocation or the
authentication that it asks for succeeds. -/
def threadStep (pk : Packer) (s : Session) (c : Nat) (ok : Bool) : Option Session :=
  match s.threads c with
  | .outside => none
  | .lock op =>
    if ok then
      match s.sendMutex with
      | none => some { s.setThread c (.draw op) with sendMutex := some c }
      | some _ => none
    else some (s.setThread c .outside)
  | .draw op => some { s.setThread c (.bind op s.sequence) with sequence := (s.sequence + 1).bmod (2 ^ 64) }
  | .bind op seqId =>
    if op.sequence = kineticSequenceNotYetBound then some (s.setThread c (.packCommand { op with sequence := seqId }))
    else none
  | .packCommand op => some (s.setThread c (if ok then .authenticate op (packCommand pk op) else .unlock))
  | .authenticate op commandBytes => some (s.setThread c (if ok then .packMessage op commandBytes else .unlock))
  | .packMessage op commandBytes =>
    if ok then do
      let msg ← packMessage pk op commandBytes
      some (s.setThread c (.take op msg .takeLock))
    else some (s.setThread c .unlock)
  | .take op msg pc =>
    s.semThread c pc fun pc => if pc = .done then .box op msg else .take op msg pc
  | .box op msg =>
    if s.socket = -1 ∨ ok = false then some (s.setThread c (.give op .giveLock))
    else if s.socket = 0 then none
    else
      match s.bus.fdSet s.socket with
      | none => some (s.setThread c (.give op .giveLock))
      | some ci => some (s.setThread c (.check op msg ci (s.bus.conns.info ci).ssl))
  | .check op msg ci ssl =>
    some (s.setThread c (if (s.bus.conns.info ci).nonMonotonic op.sequence then .give op .giveLock else .update op msg ci ssl))
  | .update op msg ci ssl =>
    some { s.setThread c (.send op s.bus.nextBox) with
      bus := s.bus.boxed c ci ssl ⟨s.socket, op.sequence, op.timeoutSeconds, msg⟩
      udata := update s.udata s.bus.nextBox (some op) }
  | .send op b =>
    match s.bus.clients c, s.bus.results b with
    | .idle, some res => some (s.setThread c (if res then .unlock else .give op .giveLock))
    | _, _ => none
  | .give op pc => s.semThread c pc fun pc => if pc = .done then .unlock else .give op pc
  | .unlock => some { s.setThread c .outside with sendMutex := none }

/-- `KineticController_HandleResult`, run by the pool for a box of the session, up to `KineticOperation_Complete`. -/
def handleResult (s : Session) (k : Nat) : Option Session := do
  let b ← s.bus.heap.scheduled[k]?
  let op ← s.udata b
  let bus ← busStep s.bus (.run k)
  if (s.bus.heap.boxes b).status.mapped then
    some { s with bus := bus, tasks := update s.tasks k (some (op, .giveLock)) }
  else none

/-- A step of `KineticOperation_Complete` in the semaphore. -/
def completeStep (s : Session) (k : Nat) : Option Session := do
  let (op, pc) ← s.tasks k
  let (sem, pc) ← semStep s.outstandingOperations (.task k) pc
  some { s with outstandingOperations := sem, tasks := update s.tasks k (some (op, pc)) }

/-- What the rest of the program does on the bus: everything but requests and releases on the socket of the session,
calls by threads that are in `KineticOperation_SendRequest`, and the callbacks of the session's boxes. -/
def Session.leaves (s : Session) : BusLabel → Bool
  | .client c a =>
    match s.bus.clients c with
    | .idle =>
      (match s.threads c with
      | .outside => true
      | _ => false) &&
      (match a with
      | .request msg => msg.fd ≠ s.socket
      | .release fd => fd ≠ s.socket
      | _ => true)
    | _ => true
  | .listener _ _ => true
  | .run k => ((s.bus.heap.scheduled[k]?).bind s.udata).isNone

inductive SessionLabel
  | call (c : Nat) (op : Operation)
  | thread (c : Nat) (ok : Bool)
  | handleResult (k : Nat)
  | complete (k : Nat)
  | bus (label : BusLabel)

def sessionStep (pk : Packer) (s : Session) : SessionLabel → Option Session
  | .call c op =>
    match s.threads c, s.bus.clients c with
    | .outside, .idle =>
      some { s.setThread c (.lock { op with serial := s.nextOp }) with nextOp := s.nextOp + 1 }
    | _, _ => none
  | .thread c ok => threadStep pk s c ok
  | .handleResult k => handleResult s k
  | .complete k => completeStep s k
  | .bus label => if s.leaves label then (busStep s.bus label).map fun bus => { s with bus := bus } else none

end Kinetic
