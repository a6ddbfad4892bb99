import Kinetic.Listener.RxTable

namespace Kinetic

/-- `MAX_FDS`. -/
def maxFds : Nat := 1000

/-- `connection_info`; `ssl` is whether the connection has an SSL handle. -/
structure ConnectionInfo where
  fd : Int
  ssl : Bool
  largestWrSeqIdSeen : Int
  error : RxError
  toReadSize : Nat
  deriving DecidableEq

/-- The connections by address, with those that were freed. -/
structure Connections where
  info : Nat → ConnectionInfo
  freed : List Nat

def Connections.set (conns : Connections) (ci : Nat) (info : ConnectionInfo) : Connections :=
  { conns with info := Function.update conns.info ci info }

def Connections.free (conns : Connections) (ci : Nat) : Connections := { conns with freed := ci :: conns.freed }

/-- A `struct pollfd` of a socket; `pollin` is whether `events` has `POLLIN`. -/
structure PollFd where
  fd : Int
  pollin : Bool
  deriving DecidableEq

/-- The sockets of a listener; `fds` leaves out the command pipe at index 0. -/
structure SocketTable where
  fds : Nat → PollFd
  fdInfo : Nat → Nat
  trackedFds : Nat
  inactiveFds : Nat
  errorOccured : Bool
  readBufSize : Nat

def SocketTable.new : SocketTable :=
  { fds := fun _ => ⟨0, false⟩, fdInfo := fun _ => 0, trackedFds := 0, inactiveFds := 0, errorOccured := false,
    readBufSize := 0 }

/-- Swap poll and connection info for tracked sockets, by array offset. -/
def SocketTable.swap (t : SocketTable) (a b : Nat) : SocketTable :=
  { t with
    fds := Function.update (Function.update t.fds b (t.fds a)) a (t.fds b)
    fdInfo := Function.update (Function.update t.fdInfo a (t.fdInfo b)) b (t.fdInfo a) }

/-- What `add_socket` gets from outside: what the sink callback answers to no bytes, and whether `realloc` succeeds. -/
structure AddEnv where
  fullMsg : Bool
  nextRead : Nat
  grown : Bool

/-- The table after `add_socket` has taken the connection in. -/
def SocketTable.track (t : SocketTable) (ci : Nat) (fd : Int) : SocketTable :=
  let id := t.trackedFds
  let added := { t with fds := Function.update t.fds id ⟨fd, true⟩, fdInfo := Function.update t.fdInfo id ci }
  let swapped := if 0 < t.inactiveFds then added.swap id (t.trackedFds - t.inactiveFds) else added
  { swapped with trackedFds := t.trackedFds + 1 }

/-- The assertion of `add_socket` that the active sockets come first. -/
def SocketTable.contiguous (t : SocketTable) : Bool :=
  (List.range t.trackedFds).all fun i => (t.fds i).pollin = decide (i < t.trackedFds - t.inactiveFds)

/-- `add_socket`, up to its reply. -/
def addSocket (env : AddEnv) (t : SocketTable) (conns : Connections) (ci : Nat) : Option (SocketTable × Connections) :=
  let fd := (conns.info ci).fd
  if t.trackedFds = maxFds then some (t, conns)
  else if (List.range t.trackedFds).any fun i => (t.fds i).fd = fd then some (t, conns.free ci)
  else
    let added := t.track ci fd
    if added.contiguous ∧ env.fullMsg = false then
      let primed := conns.set ci { conns.info ci with toReadSize := env.nextRead }
      if env.nextRead < t.readBufSize then some (added, primed)
      else if env.grown then some ({ added with readBufSize := env.nextRead }, primed)
      else some (added, primed.free ci)
    else none

/-- The body of the loop of `remove_socket` for the socket it looks for. -/
def SocketTable.removeAt (t : SocketTable) (id : Nat) : Option SocketTable :=
  let active := (t.fds id).pollin
  let lastActive := t.trackedFds - t.inactiveFds - 1
  let last := t.trackedFds - 1
  let forget (t : SocketTable) : SocketTable :=
    { t with trackedFds := t.trackedFds - 1, inactiveFds := if active then t.inactiveFds else t.inactiveFds - 1 }
  if t.trackedFds ≤ 1 then some (forget t)
  else if active ∧ id ≠ lastActive then
    if id < lastActive then
      let t := t.swap id lastActive
      some (forget (if lastActive < last then t.swap lastActive last else t))
    else none
  else some (forget (if id < last then t.swap id last else t))

/-- `remove_socket`, up to its reply. A socket that is found ends up behind the table, which ends the loop. -/
def removeSocket (t : SocketTable) (fd : Int) : Option SocketTable :=
  match (List.range t.trackedFds).find? fun id => (t.fds id).fd = fd with
  | none => some t
  | some id => t.removeAt id

/-- Whether an error is below zero, which those of sockets are. -/
def RxError.negative : RxError → Bool
  | .none => false
  | .readyForDelivery => false
  | .done => false
  | _ => true

/-- The body of the loop of `move_errored_active_sockets_to_end`. -/
def SocketTable.moveErrored (t : SocketTable) (conns : Connections) (id : Nat) : Option SocketTable :=
  let pfd := t.fds id
  if (conns.info (t.fdInfo id)).error.negative ∧ pfd.pollin then
    let cleared := { t with fds := Function.update t.fds id { pfd with pollin := false } }
    let lastActive := t.trackedFds - t.inactiveFds - 1
    if id ≠ lastActive ∧ (cleared.fds lastActive).fd = pfd.fd then none
    else
      let moved := if id ≠ lastActive then cleared.swap id lastActive else cleared
      if t.inactiveFds + 1 ≤ t.trackedFds then some { moved with inactiveFds := t.inactiveFds + 1 } else none
  else some t

/-- The loop of `move_errored_active_sockets_to_end` from `id` on, for at most `n` rounds. -/
def moveErroredFrom (conns : Connections) : Nat → Nat → SocketTable → Option SocketTable
  | 0, _, t => some t
  | n + 1, id, t =>
    if id < t.trackedFds - t.inactiveFds then do
      let t ← t.moveErrored conns id
      moveErroredFrom conns n (id + 1) t
    else some t

/-- The end of `ListenerIO_AttemptRecv`. -/
def moveErroredActiveSocketsToEnd (t : SocketTable) (conns : Connections) : Option SocketTable :=
  if t.errorOccured then
    (moveErroredFrom conns t.trackedFds 0 t).map fun t => { t with errorOccured := false }
  else some t

end Kinetic
