import Kinetic.Listener.SocketTable

namespace Kinetic

/-- `MAX_QUEUE_MESSAGES`. -/
def maxQueueMessages : Nat := 32

/-- The type of a `listener_msg` with the member of its union. The reply, where there is one, goes to the pipe of
the message itself. -/
inductive Command
  | addSocket (ci : Nat)
  | removeSocket (fd : Int)
  | holdResponse (fd seqId timeoutSec : Int)
  | expectResponse (box : Nat)
  | shutdown
  deriving DecidableEq

/-- The box a command hands to the listener. The command that does gets no reply, and the others get one. -/
def Command.box : Command → Option Nat
  | .expectResponse b => some b
  | _ => none

/-- A command with its number in the order in which the clients wrote theirs. -/
structure Msg where
  command : Command
  serial : Nat
  deriving DecidableEq

/-- The message slots of a listener. A slot without a message is `MSG_NONE`. The commit pipe holds the ids of
slots, and the pipe of a slot the replies nobody has read, each as the number of the command it answers. -/
structure MsgTable where
  msgs : Nat → Option Msg
  msgFreelist : List Nat
  commitPipe : List Nat
  pipes : Nat → List Nat

def MsgTable.new : MsgTable :=
  { msgs := fun _ => none, msgFreelist := (List.range maxQueueMessages).reverse, commitPipe := [], pipes := fun _ => [] }

/-- `ListenerHelper_GetFreeMsg`: the slot, if one is left. -/
def getFreeMsg (t : MsgTable) : Option (Option Nat × MsgTable) :=
  match t.msgFreelist with
  | [] => some (none, t)
  | head :: next => if t.msgs head = none then some (some head, { t with msgFreelist := next }) else none

/-- What a client writes in the slot it was given. -/
def MsgTable.fill (t : MsgTable) (slot : Nat) (msg : Msg) : MsgTable :=
  { t with msgs := Function.update t.msgs slot (some msg) }

/-- `ListenerTask_ReleaseMsg`. -/
def MsgTable.releaseMsg (t : MsgTable) (slot : Nat) : MsgTable :=
  { t with msgs := Function.update t.msgs slot none, msgFreelist := slot :: t.msgFreelist }

/-- The write of `ListenerHelper_PushMessage`. -/
def MsgTable.pushMessage (t : MsgTable) (slot : Nat) : MsgTable := { t with commitPipe := t.commitPipe ++ [slot] }

/-- `ListenerCmd_NotifyCaller`. -/
def MsgTable.notifyCaller (t : MsgTable) (slot serial : Nat) : MsgTable :=
  { t with pipes := Function.update t.pipes slot (t.pipes slot ++ [serial]) }

/-- The read of `BusPoll_OnCompletion`, which leaves the rest of the pipe. -/
def MsgTable.readReply (t : MsgTable) (slot : Nat) : MsgTable :=
  { t with pipes := Function.update t.pipes slot (t.pipes slot).tail }

/-- `shutdown_notify_fd`: the sentinels, or the slot whose command asked for the shutdown. -/
inductive ShutdownNotify
  | noFd
  | fd (slot serial : Nat)
  | complete
  deriving DecidableEq

/-- Where the listener thread stands: in its main loop, between the execution of a command and the release of
its slot, in the loop of `tick_handler`, or at its end. -/
inductive ListenerPc
  | loop
  | release (slot : Nat)
  | tick (i : Nat)
  | stopped
  deriving DecidableEq

/-- A listener, with the numbers of the commands it has executed. -/
structure Listener where
  rx : RxTable
  sockets : SocketTable
  msgs : MsgTable
  shutdownNotify : ShutdownNotify
  pc : ListenerPc
  executed : List Nat

def Listener.new : Listener :=
  { rx := .new, sockets := .new, msgs := .new, shutdownNotify := .noFd, pc := .loop, executed := [] }

/-- What a command meets outside of the listener. -/
structure CommandEnv where
  accepted : Bool
  add : AddEnv

/-- `msg_handler`, up to the release of the slot. -/
def msgHandler (env : CommandEnv) (l : Listener) (h : Heap) (conns : Connections) (slot : Nat) (msg : Msg) :
    Option (Listener × Heap × Connections) :=
  let notified := l.msgs.notifyCaller slot msg.serial
  match msg.command with
  | .addSocket ci => do
    let (sockets, conns) ← addSocket env.add l.sockets conns ci
    some ({ l with sockets := sockets, msgs := notified }, h, conns)
  | .removeSocket fd => do
    let sockets ← removeSocket l.sockets fd
    some ({ l with sockets := sockets, msgs := notified }, h, conns)
  | .holdResponse fd seqId timeoutSec => do
    let rx ← holdResponse l.rx fd seqId timeoutSec
    some ({ l with rx := rx, msgs := notified }, h, conns)
  | .expectResponse b => do
    let (rx, h) ← expectResponse env.accepted l.rx h b
    some ({ l with rx := rx }, h, conns)
  | .shutdown => some ({ l with shutdownNotify := .fd slot msg.serial }, h, conns)

inductive ListenerAction
  | handle (env : CommandEnv)
  | release
  | tick
  | tickCell (clock accepted : Bool)
  | recv (i : Nat) (result : UnpackRes) (accepted : Bool)
  | socketError (i : Nat) (err : RxError)
  | moveErrored
  | finish

/-- One step of the listener thread: the command at the head of the commit pipe, the release of its slot, the start of a
tick or its next cell, a message or an error on a tracked socket, and the end of the main loop. -/
def listenerStep (l : Listener) (h : Heap) (conns : Connections) :
    ListenerAction → Option (Listener × Heap × Connections)
  | .handle env =>
    match l.pc, l.msgs.commitPipe with
    | .loop, slot :: rest =>
      match l.msgs.msgs slot with
      | some msg => do
        let read := { l with msgs := { l.msgs with commitPipe := rest } }
        let (l, h, conns) ← msgHandler env read h conns slot msg
        some ({ l with pc := .release slot, executed := msg.serial :: l.executed }, h, conns)
      | none => none
    | _, _ => none
  | .release =>
    match l.pc with
    | .release slot => some ({ l with msgs := l.msgs.releaseMsg slot, pc := .loop }, h, conns)
    | _ => none
  | .tick =>
    if l.pc = .loop ∧ l.shutdownNotify = .noFd then some ({ l with pc := .tick 0 }, h, conns) else none
  | .tickCell clock accepted =>
    match l.pc with
    | .tick i =>
      if i ≤ l.rx.rxInfoMaxUsed then do
        let (rx, h) ← tickCell clock accepted l.rx h i
        some ({ l with rx := rx, pc := .tick (i + 1) }, h, conns)
      else some ({ l with pc := .loop }, h, conns)
    | _ => none
  | .recv i result accepted =>
    if l.pc = .loop ∧ i < l.sockets.trackedFds then do
      let (rx, h) ← processUnpackedMessage accepted l.rx h (conns.info (l.sockets.fdInfo i)).fd result
      some ({ l with rx := rx }, h, conns)
    else none
  | .socketError i err =>
    if l.pc = .loop ∧ i < l.sockets.trackedFds ∧ err.negative then
      let ci := l.sockets.fdInfo i
      let info := conns.info ci
      some ({ l with
        rx := l.rx.setErrorForSocket h.boxes info.fd err
        sockets := { l.sockets with errorOccured := true } }, h, conns.set ci { info with error := err })
    else none
  | .moveErrored =>
    if l.pc = .loop then do
      let sockets ← moveErroredActiveSocketsToEnd l.sockets conns
      some ({ l with sockets := sockets }, h, conns)
    else none
  | .finish =>
    match l.pc, l.shutdownNotify with
    | .loop, .fd slot serial =>
      some ({ l with msgs := l.msgs.notifyCaller slot serial, shutdownNotify := .complete, pc := .stopped }, h, conns)
    | _, _ => none

end Kinetic
