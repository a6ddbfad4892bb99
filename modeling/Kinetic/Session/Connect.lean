import Kinetic.Bus.FdSet

namespace Kinetic
open Function (update)

/-- What has become of a session: `KineticSession_Connect` is under way, has returned a status, or a
`KineticSession_Disconnect` has been let in or has ended. -/
inductive SessionPhase
  | new
  | connecting
  | connected (ci : Nat)
  | connectionError
  | memoryError
  | leaving
  | closed
  deriving DecidableEq

/-- `session->si`, which is set to `NULL` where it is freed. -/
inductive SiPointer
  | null
  | allocated
  deriving DecidableEq

/-- The fields of a `KineticSession` that connecting and disconnecting use. -/
structure SessionFields where
  socket : Int
  connected : Bool
  si : SiPointer
  phase : SessionPhase

/-- `KINETIC_SOCKET_INVALID`, which is also `KINETIC_SOCKET_DESCRIPTOR_INVALID`. -/
def kineticSocketInvalid : Int := -1

/-- The session after `KineticSession_Create`. -/
def SessionFields.create : SessionFields := { socket := kineticSocketInvalid, connected := false, si := .null, phase := .new }

/-- Where a thread stands with a session: in `KineticSession_Connect` before `calloc`, before and inside `Bus_RegisterSocket`,
in `KineticResourceWaiter_WaitTilAvailable`, at `connection_error_cleanup` before the `free` and before the `close`; or in
`KineticSession_Disconnect` before the `close`, before and inside `Bus_ReleaseSocket`, and after it. -/
inductive CallPc
  | outside
  | alloc (i : Nat)
  | register (i : Nat)
  | registering (i ci : Nat)
  | waitTilAvailable (i ci : Nat)
  | cleanup (i : Nat)
  | close (i : Nat)
  | shut (i : Nat)
  | release (i : Nat)
  | releasing (i : Nat) (fd : Int)
  | finish (i : Nat)
  deriving DecidableEq

/-- The sessions of a client over its bus, the sockets that the system has open, and the session in the `udata` of each
connection. Threads are clients of the bus. `aborted` is that the assertion of `Bus_RegisterSocket` has failed. -/
structure SessionBus where
  bus : BusState
  sessions : Nat → SessionFields
  threads : Nat → CallPc
  udata : Nat → Option Nat
  openFds : Int → Bool
  aborted : Bool

def SessionBus.new (listenerCount : Nat) : SessionBus :=
  { bus := .new listenerCount
    sessions := fun _ => .create
    threads := fun _ => .outside
    udata := fun _ => none
    openFds := fun _ => false
    aborted := false }

def SessionBus.setThread (s : SessionBus) (c : Nat) (pc : CallPc) : SessionBus := { s with threads := update s.threads c pc }

def SessionBus.setSession (s : SessionBus) (i : Nat) (fields : SessionFields) : SessionBus :=
  { s with sessions := update s.sessions i fields }

/-- How `Bus_RegisterSocket` fares before its message for the listener: it has no memory, it fails in the SSL handshake or in
the hash table, or it puts its connection in the table. -/
inductive RegisterOutcome
  | noMemory
  | notMade (info : ConnectionInfo)
  | made

inductive CallAction
  | connect (i : Nat) (fd : Option Int)
  | calloc (ok : Bool)
  | registerSocket (ssl : Bool) (outcome : RegisterOutcome)
  | waitTilAvailable (ready : Bool)
  | free
  | close
  | disconnect (i : Nat)
  | releaseSocket
  | finish

inductive ConnectLabel
  | call (c : Nat) (a : CallAction)
  | bus (label : BusLabel)

/-- `KineticSocket_Connect` and what follows it. The system hands out a number that is not open. -/
def sessionConnect (s : SessionBus) (c i : Nat) : Option Int → Option SessionBus
  | none =>
    some (s.setSession i { s.sessions i with socket := kineticSocketInvalid, connected := false, phase := .connectionError })
  | some fd =>
    if 0 ≤ fd ∧ s.openFds fd = false then
      some { (s.setSession i { s.sessions i with socket := fd, connected := true, phase := .connecting }).setThread c (.alloc i) with
        openFds := update s.openFds fd true }
    else none

/-- `Bus_RegisterSocket` up to its message for the listener. -/
def sessionRegister (s : SessionBus) (c i : Nat) (ssl : Bool) : RegisterOutcome → Option SessionBus
  | .noMemory => some (s.setThread c (.cleanup i))
  | .notMade info => some { s.setThread c (.cleanup i) with bus := s.bus.discarded info }
  | .made =>
    match s.bus.fdSet (s.sessions i).socket with
    | some _ => some { s with aborted := true }
    | none => do
      let bus ← busStep s.bus (.client c (.register (s.sessions i).socket ssl))
      some { s.setThread c (.registering i s.bus.nextConn) with
        bus := bus, udata := update s.udata s.bus.nextConn (some i) }

/-- The test of `KineticSession_Disconnect`. The session is the user's once `KineticSession_Connect` has succeeded. -/
def sessionDisconnect (s : SessionBus) (c i : Nat) : Option SessionBus :=
  let refused := (s.sessions i).connected = false ∨ (s.sessions i).socket < 0
  let admitted := (s.setSession i { s.sessions i with phase := .leaving }).setThread c (.shut i)
  match (s.sessions i).phase with
  | .connected _ => some (if refused then s else admitted)
  | .leaving => some (if refused then s else admitted)
  | .closed => some (if refused then s else admitted)
  | _ => none

def callStep (s : SessionBus) (c : Nat) (a : CallAction) : Option SessionBus :=
  match s.threads c, a with
  | .outside, .connect i fd => if (s.sessions i).phase = .new then sessionConnect s c i fd else none
  | .alloc i, .calloc true => some ((s.setSession i { s.sessions i with si := .allocated }).setThread c (.register i))
  | .alloc i, .calloc false => some ((s.setSession i { s.sessions i with phase := .memoryError }).setThread c .outside)
  | .register i, .registerSocket ssl outcome => sessionRegister s c i ssl outcome
  | .waitTilAvailable i ci, .waitTilAvailable true =>
    some ((s.setSession i { s.sessions i with phase := .connected ci }).setThread c .outside)
  | .waitTilAvailable i _, .waitTilAvailable false => some (s.setThread c (.cleanup i))
  | .cleanup i, .free => some ((s.setSession i { s.sessions i with si := .null }).setThread c (.close i))
  | .close i, .close =>
    let fields := s.sessions i
    some { (s.setSession i { fields with socket := kineticSocketInvalid, connected := false, phase := .connectionError }).setThread c
        .outside with openFds := update s.openFds fields.socket false }
  | .outside, .disconnect i => sessionDisconnect s c i
  | .shut i, .close =>
    some { s.setThread c (.release i) with openFds := update s.openFds (s.sessions i).socket false }
  | .release i, .releaseSocket => do
    let bus ← busStep s.bus (.client c (.release (s.sessions i).socket))
    some { s.setThread c (.releasing i (s.sessions i).socket) with bus := bus }
  | .finish i, .finish =>
    some ((s.setSession i { socket := kineticSocketInvalid, connected := false, si := .null, phase := .closed }).setThread c .outside)
  | _, _ => none

/-- Only sessions register and release sockets. -/
def BusLabel.others : BusLabel → Bool
  | .client _ (.register _ _) => false
  | .client _ (.release _) => false
  | _ => true

/-- Where a thread goes on after a step of its own in the bus, which has returned if the client is idle again. -/
def CallPc.resume (pc : CallPc) (client : ClientPc) (a : ClientAction) : CallPc :=
  match pc, client, a with
  | .registering i ci, .idle, .onCompletion true => .waitTilAvailable i ci
  | .registering i _, .idle, _ => .cleanup i
  | .releasing i _, .idle, _ => .finish i
  | pc, _, _ => pc

/-- One step of a thread with a session, or of the bus by itself. -/
def connectStep (s : SessionBus) (label : ConnectLabel) : Option SessionBus :=
  if s.aborted then none
  else
    match label with
    | .call c a => callStep s c a
    | .bus label =>
      if label.others then do
        let bus ← busStep s.bus label
        match label with
        | .client c a => some { s.setThread c ((s.threads c).resume (bus.clients c) a) with bus := bus }
        | _ => some { s with bus := bus }
      else none

end Kinetic
