import Kinetic.Listener.Commands

namespace Kinetic

/-- `bus_user_msg`, without its callback. -/
structure UserMsg where
  fd : Int
  seqId : Int
  timeoutSec : Nat
  msg : List UInt8
  deriving DecidableEq

/-- What a client thread wants a listener to do. The two messages of a send carry the box and the tries made so far. -/
inductive Purpose
  | hold (box : Nat) (start : Timeval) (tries : Nat)
  | expect (box : Nat) (tries : Nat)
  | addSocket (ci : Nat)
  | removeSocket (fd : Int)
  | shutdown (l : Nat)
  deriving DecidableEq

/-- Where a client thread stands: outside of the bus, in a send by itself, before `ListenerHelper_GetFreeMsg`, between it
and the write to the commit pipe, or in `BusPoll_OnCompletion`. A slot comes with its listener and the number of its
command. -/
inductive ClientPc
  | idle
  | send (box : Nat) (pc : SendPc)
  | acquire (p : Purpose)
  | push (p : Purpose) (l slot serial : Nat)
  | wait (p : Purpose) (l slot serial : Nat)
  deriving DecidableEq

/-- The bus. `results` has what `Bus_SendRequest` returned for each box, and `ran` the accepted tasks whose callback
has been run, by their position in `heap.scheduled`. `fdSet` is the map that the hash table of the bus stands for: all that
the table contains, also behind a tombstone, where `Yacht_Get` does not find it. `HashedBus` has the table itself. -/
structure BusState where
  listenerCount : Nat
  listeners : Nat → Listener
  heap : Heap
  nextBox : Nat
  conns : Connections
  nextConn : Nat
  fdSet : Int → Option Nat
  clients : Nat → ClientPc
  results : Nat → Option Bool
  ran : List Nat
  nextSerial : Nat

def BoxedMsg.calloc : BoxedMsg :=
  { outMsg := [], outSentSize := 0, timeoutSec := 0, status := .undefined, responseSeqId := 0, responseMsg := 0, fd := 0,
    ssl := false, outSeqId := 0 }

def BusState.new (listenerCount : Nat) : BusState :=
  { listenerCount := listenerCount
    listeners := fun _ => .new
    heap := { boxes := fun _ => .calloc, scheduled := [] }
    nextBox := 0
    conns := { info := fun _ => ⟨0, false, 0, .none, 0⟩, freed := [] }
    nextConn := 0
    fdSet := fun _ => none
    clients := fun _ => .idle
    results := fun _ => none
    ran := []
    nextSerial := 0 }

def BusState.setClient (s : BusState) (c : Nat) (pc : ClientPc) : BusState :=
  { s with clients := Function.update s.clients c pc }

def BusState.setMsgs (s : BusState) (l : Nat) (msgs : MsgTable) : BusState :=
  { s with listeners := Function.update s.listeners l { s.listeners l with msgs := msgs } }

def BusState.setBox (s : BusState) (b : Nat) (box : BoxedMsg) : BusState := { s with heap := s.heap.setBox b box }

/-- `listener_id_of_socket`. -/
def BusState.listenerIdOfSocket (s : BusState) (fd : Int) : Nat := fd.toNat % s.listenerCount

/-- `BUS_DEFAULT_TIMEOUT_SEC` in place of no timeout. -/
def effectiveTimeoutSec (timeoutSec : Nat) : Nat := if timeoutSec = 0 then 10 else timeoutSec

/-- `box_msg`, after its assertion: no box for a socket that is not registered, or for a sequence id that is not above the
largest so far. -/
def boxMsg (s : BusState) (msg : UserMsg) : Option (BoxedMsg × Connections) := do
  let ci ← s.fdSet msg.fd
  let info := s.conns.info ci
  if msg.seqId ≤ info.largestWrSeqIdSeen ∧ info.largestWrSeqIdSeen ≠ -1 then none
  else
    let box : BoxedMsg := { BoxedMsg.calloc with
      outMsg := msg.msg
      timeoutSec := effectiveTimeoutSec msg.timeoutSec
      fd := msg.fd
      ssl := info.ssl
      outSeqId := msg.seqId }
    some (box, s.conns.set ci { info with largestWrSeqIdSeen := msg.seqId })

/-- The end of `Bus_SendRequest` for a box. -/
def BusState.returned (s : BusState) (c b : Nat) (res : Bool) : BusState :=
  { s.setClient c .idle with results := Function.update s.results b (some res) }

/-- A client goes on in its send at `pc`. On the way to the listener, or to the thread pool with a failure, it first sets
the status of the box. -/
def BusState.sendOn (s : BusState) (c b : Nat) : SendPc → BusState
  | .hold start => s.setClient c (.acquire (.hold b start 0))
  | .expect =>
    let box := s.heap.boxes b
    let status := if box.status = .undefined then .requestComplete else box.status
    (s.setBox b { box with status := status }).setClient c (.acquire (.expect b 0))
  | .failure status =>
    (s.setBox b { s.heap.boxes b with status := status, responseSeqId := 0, responseMsg := 0 }).setClient c
      (.send b (.failure status))
  | .returned res => s.returned c b res
  | pc => s.setClient c (.send b pc)

/-- The listener that a command goes to. -/
def Purpose.listener (s : BusState) : Purpose → Nat
  | .hold b _ _ => s.listenerIdOfSocket (s.heap.boxes b).fd
  | .expect b _ => s.listenerIdOfSocket (s.heap.boxes b).fd
  | .addSocket ci => s.listenerIdOfSocket (s.conns.info ci).fd
  | .removeSocket fd => s.listenerIdOfSocket fd
  | .shutdown l => l

/-- The message for the listener. The timeout of a hold, five seconds above that of the box, goes through an `int16_t`. -/
def Purpose.command (s : BusState) : Purpose → Command
  | .hold b _ _ =>
    let box := s.heap.boxes b
    .holdResponse box.fd box.outSeqId ((box.timeoutSec + 5 : Int).bmod (2 ^ 16))
  | .expect b _ => .expectResponse b
  | .addSocket ci => .addSocket ci
  | .removeSocket fd => .removeSocket fd
  | .shutdown _ => .shutdown

/-- `SEND_NOTIFY_LISTENER_RETRIES`. -/
def sendNotifyListenerRetries : Nat := 10

/-- What a client does when it could not get a message through to the listener. -/
def BusState.notSent (s : BusState) (c : Nat) : Purpose → BusState
  | .hold b start tries =>
    if tries + 1 < sendNotifyListenerRetries then s.setClient c (.acquire (.hold b start (tries + 1)))
    else s.sendOn c b (.returned false)
  | .expect b tries =>
    if tries + 1 < sendNotifyListenerRetries then s.setClient c (.acquire (.expect b (tries + 1)))
    else s.sendOn c b (.failure .txTimeoutNotifyingListener)
  | .addSocket ci => { s.setClient c .idle with conns := s.conns.free ci }
  | .removeSocket _ => s.setClient c .idle
  | .shutdown _ => s.setClient c .idle

/-- What a client does after `BusPoll_OnCompletion` has returned true. -/
def BusState.completed (s : BusState) (c : Nat) : Purpose → Option BusState
  | .hold b start _ =>
    let box := s.heap.boxes b
    if box.outSentSize = 0 then some (s.sendOn c b (sendLoop start (box.timeoutSec * 1000))) else none
  | .expect _ _ => none
  | .addSocket _ => some (s.setClient c .idle)
  | .removeSocket fd =>
    match s.fdSet fd with
    | some ci =>
      some { s.setClient c .idle with fdSet := Function.update s.fdSet fd none, conns := s.conns.free ci }
    | none => some (s.setClient c .idle)
  | .shutdown _ => some (s.setClient c .idle)

/-- What a client does after `BusPoll_OnCompletion` has returned false. -/
def BusState.notCompleted (s : BusState) (c : Nat) : Purpose → Option BusState
  | .hold b _ _ => some (s.sendOn c b (.returned false))
  | .expect _ _ => none
  | .addSocket ci => some { s.setClient c .idle with conns := s.conns.free ci }
  | .removeSocket _ => some (s.setClient c .idle)
  | .shutdown _ => some (s.setClient c .idle)

inductive ClientAction
  | request (msg : UserMsg)
  | register (fd : Int) (ssl : Bool)
  | release (fd : Int)
  | shutdown (l : Nat)
  | event (e : SendEvent)
  | pool (accepted : Bool)
  | getFreeMsg
  | pushMessage (ok : Bool)
  | onCompletion (ok : Bool)

/-- `Bus_SendRequest` up to `Send_DoBlockingSend`. A request without a box is turned away. -/
def sendRequest (s : BusState) (c : Nat) (msg : UserMsg) : Option BusState :=
  if msg.fd = -1 then some s
  else if msg.fd = 0 then none
  else
    match boxMsg s msg with
    | none => some s
    | some (box, conns) =>
      some { (s.setBox s.nextBox box).setClient c (.send s.nextBox .timestampStart) with
        nextBox := s.nextBox + 1, conns := conns }

/-- `Bus_RegisterSocket` up to its message for the listener. -/
def registerSocket (s : BusState) (c : Nat) (fd : Int) (ssl : Bool) : Option BusState :=
  match s.fdSet fd with
  | some _ => none
  | none =>
    some { s.setClient c (.acquire (.addSocket s.nextConn)) with
      conns := s.conns.set s.nextConn ⟨fd, ssl, -1, .none, 0⟩
      nextConn := s.nextConn + 1
      fdSet := Function.update s.fdSet fd (some s.nextConn) }

/-- The assertion of `Listener_ExpectResponse`. -/
def Purpose.statusSet (s : BusState) : Purpose → Bool
  | .expect b _ => (s.heap.boxes b).status ≠ .undefined
  | _ => true

/-- A client asks for a slot and writes its command in it. -/
def acquireMsg (s : BusState) (c : Nat) (p : Purpose) : Option BusState := do
  let l := p.listener s
  let (slot, msgs) ← getFreeMsg (s.listeners l).msgs
  match slot with
  | none => some (s.notSent c p)
  | some slot =>
    let filled := msgs.fill slot ⟨p.command s, s.nextSerial⟩
    if p.statusSet s then
      some { (s.setMsgs l filled).setClient c (.push p l slot s.nextSerial) with nextSerial := s.nextSerial + 1 }
    else none

/-- A client that has committed its command. The box of an `EXPECT` is the listener's from here on. -/
def BusState.pushed (s : BusState) (c : Nat) (l slot serial : Nat) : Purpose → BusState
  | .expect b _ => s.returned c b true
  | p => s.setClient c (.wait p l slot serial)

def clientStep (s : BusState) (c : Nat) (a : ClientAction) : Option BusState :=
  match s.clients c, a with
  | .idle, .request msg => sendRequest s c msg
  | .idle, .register fd ssl => registerSocket s c fd ssl
  | .idle, .release fd => some (s.setClient c (.acquire (.removeSocket fd)))
  | .idle, .shutdown l => if l < s.listenerCount then some (s.setClient c (.acquire (.shutdown l))) else none
  | .send b pc, .event e => do
    let box := s.heap.boxes b
    let (sent, pc) ← sendStep box.ssl box.toSendBox pc e
    some ((s.setBox b { box with toSendBox := sent }).sendOn c b pc)
  | .send b (.failure _), .pool accepted => do
    let heap ← processBoxedMessage accepted s.heap b
    some (if accepted then { s with heap := heap }.returned c b true else s)
  | .acquire p, .getFreeMsg => acquireMsg s c p
  | .push p l slot serial, .pushMessage true =>
    some ((s.setMsgs l ((s.listeners l).msgs.pushMessage slot)).pushed c l slot serial p)
  | .push p l slot _, .pushMessage false =>
    some ((s.setMsgs l ((s.listeners l).msgs.releaseMsg slot)).notSent c p)
  | .wait p l slot _, .onCompletion true =>
    if (s.listeners l).msgs.pipes slot = [] then none
    else (s.setMsgs l ((s.listeners l).msgs.readReply slot)).completed c p
  | .wait p _ _ _, .onCompletion false => s.notCompleted c p
  | _, _ => none

inductive BusLabel
  | client (c : Nat) (a : ClientAction)
  | listener (l : Nat) (a : ListenerAction)
  | run (k : Nat)

/-- One step of a client thread, of a listener thread, or of the pool, which runs the callback of a task it has accepted. -/
def busStep (s : BusState) : BusLabel → Option BusState
  | .client c a => clientStep s c a
  | .listener l a => do
    let (listener, heap, conns) ← listenerStep (s.listeners l) s.heap s.conns a
    some { s with listeners := Function.update s.listeners l listener, heap := heap, conns := conns }
  | .run k => if k < s.heap.scheduled.length ∧ k ∉ s.ran then some { s with ran := k :: s.ran } else none

end Kinetic
