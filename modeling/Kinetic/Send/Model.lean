import Kinetic.Lib.Transition
import Mathlib.Algebra.Group.Int.Defs
import Mathlib.Algebra.Group.Nat.Defs

namespace Kinetic

inductive BusSendStatus
  | undefined
  | requestComplete
  | success
  | txTimeout
  | txFailure
  | rxTimeout
  | rxFailure
  | badResponse
  | unregisteredSocket
  | rxTimeoutExpect
  | txTimeoutNotifyingListener
  | timestampError
  deriving DecidableEq

structure Timeval where
  sec : Int
  usec : Int
  deriving DecidableEq

/-- The fields of `struct boxed_msg` that sending reads or writes. -/
structure SendBox where
  outMsg : List UInt8
  outSentSize : Nat
  timeoutSec : Nat
  deriving DecidableEq

/-- Where a client thread stands in `Send_DoBlockingSend` and `SendHelper_HandleWrite`: before a clock reading, a
`poll`, a `write`, one of the two messages to the listener, or in the loop of `Send_HandleFailure`. -/
inductive SendPc
  | timestampStart
  | hold (start : Timeval)
  | timestampNow (start : Timeval)
  | poll (start : Timeval) (remMsec : Int)
  | write (start : Timeval) (remMsec : Int)
  | timestampDone
  | expect
  | failure (status : BusSendStatus)
  | returned (res : Bool)
  deriving DecidableEq

/-- What `poll` on the socket reports; `interrupted` is `EINTR` or `EAGAIN`. -/
inductive PollRes
  | interrupted
  | error
  | ready (nval err hup out : Bool)
  | timeout
  deriving DecidableEq

/-- What one `write` or `SSL_write` reports; `resumable` is what `Util_IsResumableIOError` accepts. -/
inductive WriteRes
  | wrote (n : Nat)
  | zero
  | resumable
  | wantWrite
  | wantRead
  | error
  deriving DecidableEq

inductive SendEvent
  | timestamp (tv : Option Timeval)
  | poll (res : PollRes)
  | write (res : WriteRes)
  deriving DecidableEq

/-- What `write_plain` or `write_ssl` does with one result: call again, or return a size or -1. -/
inductive WriteOutcome
  | again
  | returned (wrsz : Option Nat)

def writePlain (rem : Nat) : WriteRes → Option WriteOutcome
  | .wrote n => if 0 < n ∧ n ≤ rem then some (.returned (some n)) else none
  | .zero => some (.returned (some 0))
  | .resumable => some .again
  | .error => some (.returned none)
  | .wantWrite => none
  | .wantRead => none

/-- `write_ssl`. With nothing left it returns 0 at once; `SSL_ERROR_WANT_READ` fails its assertion. -/
def writeSsl (rem : Nat) (res : WriteRes) : Option WriteOutcome :=
  if rem = 0 then some (.returned (some 0))
  else
    match res with
    | .wrote n => if 0 < n ∧ n ≤ rem then some (.returned (some n)) else none
    | .zero => some .again
    | .resumable => some .again
    | .wantWrite => some (.returned (some 0))
    | .wantRead => none
    | .error => some (.returned none)

/-- `timeout_msec - msec_elapsed`, computed in `size_t` and converted to `int`. -/
def remMsec (timeoutSec : Nat) (start now : Timeval) : Int :=
  let usecElapsed : Int := ((now.sec - start.sec) * 1000000 + (now.usec - start.usec)) % 2 ^ 64
  ((timeoutSec * 1000 : Int) - usecElapsed / 1000).bmod (2 ^ 32)

/-- The test of the loop of `Send_DoBlockingSend`. -/
def sendLoop (start : Timeval) (remMsec : Int) : SendPc :=
  if 0 < remMsec then .timestampNow start else .failure .txTimeout

/-- The end of `SendHelper_HandleWrite` after a write that did not fail. -/
def afterWrite (box : SendBox) (start : Timeval) (remMsec : Int) : SendPc :=
  if box.outMsg.length - box.outSentSize = 0 then .timestampDone else sendLoop start remMsec

/-- What `Send_DoBlockingSend` does with the result of its `poll`. Other `revents` fail its assertion. -/
def handlePoll (start : Timeval) (rem : Int) : PollRes → Option SendPc
  | .interrupted => some (sendLoop start rem)
  | .error => some (.failure .txFailure)
  | .timeout => some (.failure .txTimeout)
  | .ready nval err hup out =>
    if nval then some (.failure .unregisteredSocket)
    else if err ∨ hup then some (.failure .txFailure)
    else if out then some (.write start rem)
    else none

/-- `SendHelper_HandleWrite`, for one result of its system call. -/
def handleWrite (ssl : Bool) (box : SendBox) (start : Timeval) (rem : Int) (res : WriteRes) : Option (SendBox × SendPc) :=
  let left := box.outMsg.length - box.outSentSize
  match if ssl then writeSsl left res else writePlain left res with
  | none => none
  | some .again => some (box, .write start rem)
  | some (.returned none) => some (box, .failure .txFailure)
  | some (.returned (some n)) =>
    let sent := { box with outSentSize := box.outSentSize + n }
    some (sent, afterWrite sent start rem)

/-- One step of the sending thread by itself, on what a system call reports. It stops for good when an assertion fails. -/
def sendStep (ssl : Bool) (box : SendBox) : SendPc → SendEvent → Option (SendBox × SendPc)
  | .timestampStart, .timestamp (some start) => some (box, .hold start)
  | .timestampStart, .timestamp none => some (box, .returned false)
  | .timestampNow start, .timestamp (some now) => some (box, .poll start (remMsec box.timeoutSec start now))
  | .timestampNow _, .timestamp none => some (box, .failure .txFailure)
  | .poll start rem, .poll res => (handlePoll start rem res).map fun pc => (box, pc)
  | .write start rem, .write res => handleWrite ssl box start rem res
  | .timestampDone, .timestamp (some _) => some (box, .expect)
  | .timestampDone, .timestamp none => some (box, .failure .timestampError)
  | _, _ => none

/-- One registration of a socket: the requests sent on it so far, the bytes the socket has accepted, each with
the number of its request, and the last call. -/
structure Registration where
  ssl : Bool
  requests : List (List UInt8)
  stream : List (Nat × UInt8)
  box : SendBox
  pc : SendPc

def Registration.new (ssl : Bool) : Registration :=
  { ssl := ssl, requests := [], stream := [], box := ⟨[], 0, 0⟩, pc := .returned true }

/-- A request, what a system call reports, the outcome of telling the listener
to hold or expect a response, or an answer of the thread pool to `Send_HandleFailure`. -/
inductive RegistrationLabel
  | call (msg : List UInt8) (timeoutSec : Nat)
  | event (e : SendEvent)
  | hold (ok : Bool)
  | expect (ok : Bool)
  | pool (accepted : Bool)

/-- One step on the registration. The send mutex admits a request only after the last one has returned. -/
def registrationStep (r : Registration) (label : RegistrationLabel) : Option Registration :=
  match r.pc, label with
  | .returned _, .call msg timeoutSec =>
    some { r with requests := r.requests ++ [msg], box := ⟨msg, 0, timeoutSec⟩, pc := .timestampStart }
  | .hold start, .hold true => some { r with pc := sendLoop start (r.box.timeoutSec * 1000) }
  | .hold _, .hold false => some { r with pc := .returned false }
  | .expect, .expect true => some { r with pc := .returned true }
  | .expect, .expect false => some { r with pc := .failure .txTimeoutNotifyingListener }
  | .failure _, .pool true => some { r with pc := .returned true }
  | .failure _, .pool false => some r
  | pc, .event e =>
    match sendStep r.ssl r.box pc e with
    | some (box, pc) =>
      let accepted := (box.outMsg.take box.outSentSize).drop r.box.outSentSize
      some { r with box := box, pc := pc, stream := r.stream ++ accepted.map (Prod.mk (r.requests.length - 1)) }
    | none => none
  | _, _ => none

end Kinetic
