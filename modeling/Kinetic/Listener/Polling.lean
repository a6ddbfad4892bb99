import Kinetic.Listener.SocketInvariant

namespace Kinetic
open Function (update)

/-- The bits of `revents` that are looked at. -/
structure Revents where
  pollin : Bool
  pollerr : Bool
  pollhup : Bool
  pollnval : Bool
  deriving DecidableEq

def Revents.clear : Revents := ⟨false, false, false, false⟩

/-- The error that `ListenerIO_AttemptRecv` sets for a socket because of its `revents`. -/
def Revents.error (r : Revents) : Option RxError :=
  if r.pollerr ∨ r.pollnval then some .pollerr else if r.pollhup then some .pollhup else none

/-- What the socket adds to `read_from`: one for a read and one for an error. -/
def Revents.weight (r : Revents) : Nat := (if r.pollin then 1 else 0) + if r.error = none then 0 else 1

/-- The rest of a poll entry. `registration` numbers the sockets in the order in which they were added, and `origin` is the
registration that `revents` was reported for; nothing reads these two. -/
structure PollSlot where
  revents : Revents
  origin : Nat
  registration : Nat
  deriving DecidableEq

/-- The part of `swap` that is about the rest of the poll entries. -/
def swapSlots (slots : Nat → PollSlot) (a b : Nat) : Nat → PollSlot := update (update slots b (slots a)) a (slots b)

/-- The poll entries after `add_socket` has taken a connection in. It sets `fd` and `events`, and not `revents`. -/
def trackSlots (t : SocketTable) (slots : Nat → PollSlot) (registration : Nat) : Nat → PollSlot :=
  let id := t.trackedFds
  let added := update slots id { slots id with registration := registration }
  if 0 < t.inactiveFds then swapSlots added id (t.trackedFds - t.inactiveFds) else added

/-- The poll entries after the body of the loop of `remove_socket`. -/
def removeSlots (t : SocketTable) (slots : Nat → PollSlot) (id : Nat) : Nat → PollSlot :=
  let active := (t.fds id).pollin
  let lastActive := t.trackedFds - t.inactiveFds - 1
  let last := t.trackedFds - 1
  if t.trackedFds ≤ 1 then slots
  else if active ∧ id ≠ lastActive then
    let slots := swapSlots slots id lastActive
    if lastActive < last then swapSlots slots lastActive last else slots
  else if id < last then swapSlots slots id last else slots

/-- The poll entries after `remove_socket`. -/
def removedSlots (t : SocketTable) (slots : Nat → PollSlot) (fd : Int) : Nat → PollSlot :=
  match (List.range t.trackedFds).find? fun id => (t.fds id).fd = fd with
  | some id => removeSlots t slots id
  | none => slots

/-- The poll entries after the body of the loop of `move_errored_active_sockets_to_end`. -/
def moveErroredSlots (t : SocketTable) (conns : Connections) (slots : Nat → PollSlot) (id : Nat) : Nat → PollSlot :=
  let lastActive := t.trackedFds - t.inactiveFds - 1
  if (conns.info (t.fdInfo id)).error.negative ∧ (t.fds id).pollin ∧ id ≠ lastActive then swapSlots slots id lastActive
  else slots

/-- The loop of `move_errored_active_sockets_to_end`, with the rest of the poll entries. -/
def moveErroredSlotsFrom (conns : Connections) : Nat → Nat → SocketTable → (Nat → PollSlot) → Option (SocketTable × (Nat → PollSlot))
  | 0, _, t, slots => some (t, slots)
  | n + 1, id, t, slots =>
    if id < t.trackedFds - t.inactiveFds then do
      let moved ← t.moveErrored conns id
      moveErroredSlotsFrom conns n (id + 1) moved (moveErroredSlots t conns slots id)
    else some (t, slots)

/-- The loop of `ListenerIO_AttemptRecv`. `acts` has, for each read from a socket and each error set for one, the
registration of the socket and that which the `revents` were reported for. -/
structure Recv where
  sockets : SocketTable
  conns : Connections
  readFrom : Nat
  acts : List (Nat × Nat)

/-- `set_error_for_socket`, without the pending requests. -/
def Recv.setError (r : Recv) (i : Nat) (err : RxError) : Recv :=
  let ci := r.sockets.fdInfo i
  { r with
    sockets := { r.sockets with errorOccured := true }
    conns := r.conns.set ci { r.conns.info ci with error := err } }

/-- How `socket_read_plain` or `socket_read_ssl` ends: it returns what it has read, or it marks the socket. Only the end of an
SSL stream is a hangup. -/
inductive ReadEnd
  | returned
  | failed
  | hungUp
  deriving DecidableEq

def ReadEnd.error : ReadEnd → Option RxError
  | .returned => none
  | .failed => some .readFailure
  | .hungUp => some .pollhup

/-- One round of the loop of `ListenerIO_AttemptRecv`. -/
def Recv.visit (slots : Nat → PollSlot) (read : ReadEnd) (r : Recv) (i : Nat) : Option Recv :=
  let slot := slots i
  let act := (slot.registration, slot.origin)
  if (r.conns.info (r.sockets.fdInfo i)).fd = (r.sockets.fds i).fd then
    let r :=
      if slot.revents.pollin then
        let r := { r with readFrom := r.readFrom + 1, acts := r.acts ++ [act] }
        match read.error with
        | some err => r.setError i err
        | none => r
      else r
    match slot.revents.error with
    | some err => some { r.setError i err with readFrom := r.readFrom + 1, acts := r.acts ++ [act] }
    | none => some r
  else none

/-- The loop of `ListenerIO_AttemptRecv` from the entry `i` on, for at most `n` rounds. -/
def recvFrom (slots : Nat → PollSlot) (reads : Nat → ReadEnd) (available : Nat) : Nat → Nat → Recv → Option Recv
  | 0, _, r => some r
  | n + 1, i, r =>
    if i < r.sockets.trackedFds ∧ r.readFrom ≠ available then do
      let r ← r.visit slots (reads i) i
      recvFrom slots reads available n (i + 1) r
    else some r

/-- Where the main loop of a listener stands: before `poll`, or behind it with what is left of its result for the sockets,
and whether `ListenerCmd_CheckIncomingMessages` has commands to handle. -/
inductive PollPhase
  | polling
  | commands (available : Nat) (batch : Bool)
  deriving DecidableEq

structure PollState where
  sockets : SocketTable
  conns : Connections
  slots : Nat → PollSlot
  nextRegistration : Nat
  phase : PollPhase
  acts : List (Nat × Nat)

/-- A listener before its first iteration. The connections are any memory. -/
def PollState.new (conns : Connections) : PollState :=
  { sockets := .new, conns := conns, slots := fun _ => ⟨.clear, 0, 0⟩, nextRegistration := 1, phase := .polling, acts := [] }

/-- What `ListenerCmd_CheckIncomingMessages` finds in its pipe: nothing, commands, or an error or a failing read, after which
it leaves the result of `poll` as it is. -/
inductive PipeEvent
  | quiet
  | commands
  | stuck
  deriving DecidableEq

inductive PollAction
  | poll (results : Nat → Revents) (pipe : PipeEvent)
  | add (ci : Nat) (info : ConnectionInfo) (readBuf : Nat → UInt8)
  | remove (fd : Int)
  | recv (reads : Nat → ReadEnd)

/-- The number of sockets that are polled. -/
def SocketTable.activeFds (t : SocketTable) : Nat := t.trackedFds - t.inactiveFds

/-- `ListenerIO_AttemptRecv`. -/
def attemptRecv (s : PollState) (available : Nat) (reads : Nat → ReadEnd) : Option PollState := do
  let r ← recvFrom s.slots reads available s.sockets.trackedFds 0 ⟨s.sockets, s.conns, 0, []⟩
  let received := { s with sockets := r.sockets, conns := r.conns, acts := s.acts ++ r.acts }
  if r.sockets.errorOccured then
    let (sockets, slots) ← moveErroredSlotsFrom r.conns r.sockets.trackedFds 0 r.sockets s.slots
    some { received with sockets := { sockets with errorOccured := false }, slots := slots }
  else some received

/-- One step of `ListenerTask_MainLoop` as far as it is about sockets: `poll`, which reports on the active sockets, a command
of the batch that is handled behind it, and `ListenerIO_AttemptRecv`, which is called only if there is something left. -/
def pollStep (s : PollState) : PollAction → Option PollState
  | .poll results pipe =>
    if s.phase = .polling then
      let reported := (List.range s.sockets.activeFds).filter fun i => results i ≠ .clear
      let available := reported.length + if pipe = .stuck then 1 else 0
      some { s with
        slots := fun i =>
          if i < s.sockets.activeFds then
            { s.slots i with revents := results i, origin := (s.slots i).registration } else s.slots i
        phase := .commands available (pipe = .commands) }
    else none
  | .add ci info readBuf =>
    match s.phase with
    | .commands _ true => do
      let (_, res) ← sinkCb .calloc readBuf 0
      let (sockets, conns) ← addSocket ⟨res.fullMsgBuffer, res.nextRead, true⟩ s.sockets (s.conns.set ci info) ci
      if s.sockets.trackedFds < sockets.trackedFds then
        some { s with
          sockets := sockets
          conns := conns
          slots := trackSlots s.sockets s.slots s.nextRegistration
          nextRegistration := s.nextRegistration + 1 }
      else some { s with sockets := sockets, conns := conns }
    | _ => none
  | .remove fd =>
    match s.phase with
    | .commands _ true => do
      let sockets ← removeSocket s.sockets fd
      some { s with sockets := sockets, slots := removedSlots s.sockets s.slots fd }
    | _ => none
  | .recv reads =>
    match s.phase with
    | .commands available _ => do
      let s ← if 0 < available then attemptRecv s available reads else some s
      some { s with phase := .polling }
    | _ => none

/-- A connection that is added is a new one, without an error. -/
def PollAction.Proper (s : PollState) : PollAction → Prop
  | .add ci info _ => (∀ i, i < s.sockets.trackedFds → s.sockets.fdInfo i ≠ ci) ∧ info.error = .none
  | _ => True

instance PollAction.decidableProper (s : PollState) : (a : PollAction) → Decidable (a.Proper s)
  | .add ci info _ =>
    inferInstanceAs (Decidable ((∀ i, i < s.sockets.trackedFds → s.sockets.fdInfo i ≠ ci) ∧ info.error = .none))
  | .poll .. => .isTrue trivial
  | .remove _ => .isTrue trivial
  | .recv _ => .isTrue trivial

end Kinetic
