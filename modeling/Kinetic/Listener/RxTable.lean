import Kinetic.Send.Model
import Mathlib.Logic.Function.Basic

namespace Kinetic

/-- `MAX_PENDING_MESSAGES`. -/
def maxPendingMessages : Nat := 1024

inductive RxError
  | none
  | readyForDelivery
  | done
  | pollhup
  | pollerr
  | readFailure
  | timeout
  deriving DecidableEq

/-- `bus_unpack_cb_res_t`; the error id of a failed result is left out. -/
structure UnpackRes where
  ok : Bool
  msg : Nat
  seqId : Int
  deriving DecidableEq

def UnpackRes.zero : UnpackRes := ⟨false, 0, 0⟩

/-- `boxed_msg`, without the timestamps that only the log reads and the callback itself. -/
structure BoxedMsg extends SendBox where
  status : BusSendStatus
  responseSeqId : Int
  responseMsg : Nat
  fd : Int
  ssl : Bool
  outSeqId : Int
  deriving DecidableEq

/-- The boxes by address, and the tasks the thread pool has accepted, in the order it accepted them. -/
structure Heap where
  boxes : Nat → BoxedMsg
  scheduled : List Nat

def Heap.setBox (h : Heap) (b : Nat) (box : BoxedMsg) : Heap := { h with boxes := Function.update h.boxes b box }

/-- `Bus_ProcessBoxedMessage`, when the pool takes the task or turns it away. -/
def processBoxedMessage (accepted : Bool) (h : Heap) (b : Nat) : Option Heap :=
  if (h.boxes b).status = .undefined then none
  else if accepted then some { h with scheduled := h.scheduled ++ [b] }
  else some h

/-- The state of an `rx_info_t` with the member of its union. -/
inductive RxInfoState
  | inactive
  | hold (fd : Int) (seqId : Int) (hasResult : Bool) (result : UnpackRes) (error : RxError)
  | expect (box : Option Nat) (error : RxError) (hasResult : Bool) (result : UnpackRes)
  deriving DecidableEq

structure RxInfo where
  timeoutSec : Int
  state : RxInfoState
  deriving DecidableEq

structure RxTable where
  rxInfo : Nat → RxInfo
  rxInfoFreelist : List Nat
  rxInfoInUse : Nat
  rxInfoMaxUsed : Nat

def RxTable.new : RxTable :=
  { rxInfo := fun _ => ⟨0, .inactive⟩
    rxInfoFreelist := List.range maxPendingMessages
    rxInfoInUse := 0
    rxInfoMaxUsed := 0 }

def RxTable.set (t : RxTable) (i : Nat) (info : RxInfo) : RxTable :=
  { t with rxInfo := Function.update t.rxInfo i info }

def RxTable.setState (t : RxTable) (i : Nat) (state : RxInfoState) : RxTable :=
  t.set i { t.rxInfo i with state := state }

/-- `u.hold.has_result` of an active cell. In the layout of the union it is the byte of `u.expect.result.ok`. -/
def RxInfoState.holdHasResult : RxInfoState → Bool
  | .inactive => false
  | .hold _ _ hasResult _ _ => hasResult
  | .expect _ _ _ result => result.ok

/-- `ListenerHelper_GetFreeRXInfo`: the cell, if one is left. -/
def getFreeRxInfo (t : RxTable) : Option (Option Nat × RxTable) :=
  match t.rxInfoFreelist with
  | [] => some (none, t)
  | head :: next =>
    let reserved := { t with rxInfoFreelist := next, rxInfoInUse := t.rxInfoInUse + 1 }
    if (t.rxInfo head).state ≠ .inactive then none
    else if t.rxInfoMaxUsed < head then
      if head < maxPendingMessages then some (some head, { reserved with rxInfoMaxUsed := head }) else none
    else some (some head, reserved)

/-- The test of one cell in `ListenerHelper_FindInfoBySequenceID`. -/
def RxInfo.isFor (info : RxInfo) (boxes : Nat → BoxedMsg) (fd seqId : Int) : Bool :=
  match info.state with
  | .inactive => false
  | .hold heldFd heldSeqId _ _ _ => heldFd = fd ∧ heldSeqId = seqId
  | .expect none _ _ _ => false
  | .expect (some b) _ _ _ => (boxes b).outSeqId = seqId ∧ (boxes b).fd = fd

def findInfoBySequenceId (t : RxTable) (boxes : Nat → BoxedMsg) (fd seqId : Int) : Option Nat :=
  (List.range (t.rxInfoMaxUsed + 1)).find? fun i => (t.rxInfo i).isFor boxes fd seqId

/-- The loop of `ListenerTask_ReleaseRXInfo` that lowers `rx_info_max_used`. -/
def lowerMaxUsed (rxInfo : Nat → RxInfo) : Nat → Nat
  | 0 => 0
  | n + 1 => if (rxInfo (n + 1)).state = .inactive then lowerMaxUsed rxInfo n else n + 1

/-- The last part of `ListenerTask_ReleaseRXInfo`, after its checks. -/
def freeRxInfo (t : RxTable) (i : Nat) : RxTable :=
  let freed := t.setState i .inactive
  { freed with
    rxInfoFreelist := i :: t.rxInfoFreelist
    rxInfoInUse := t.rxInfoInUse - 1
    rxInfoMaxUsed := if t.rxInfoMaxUsed = i ∧ 0 < i then lowerMaxUsed freed.rxInfo i else t.rxInfoMaxUsed }

/-- `ListenerTask_ReleaseRXInfo`. A `HOLD` cell may hold a response, which goes to the user's handler for
unexpected messages; an `EXPECT` cell must be done and without its box. -/
def releaseRxInfo (t : RxTable) (i : Nat) : Option RxTable :=
  match (t.rxInfo i).state with
  | .inactive => none
  | .hold .. => some (freeRxInfo t i)
  | .expect box error _ _ => if error = .done ∧ box = none then some (freeRxInfo t i) else none

def retryDelivery (accepted : Bool) (t : RxTable) (h : Heap) (i : Nat) : Option (RxTable × Heap) :=
  match (t.rxInfo i).state with
  | .expect (some b) .readyForDelivery hasResult result =>
    if (h.boxes b).status = .success then do
      let h ← processBoxedMessage accepted h b
      if accepted then
        let t ← releaseRxInfo (t.setState i (.expect none .done hasResult result)) i
        some (t, h)
      else some (t, h)
    else none
  | _ => none

def cleanUpCompletedInfo (accepted : Bool) (t : RxTable) (h : Heap) (i : Nat) : Option (RxTable × Heap) :=
  match (t.rxInfo i).state with
  | .expect (some b) .done hasResult result =>
    if (h.boxes b).status = .success then do
      let h ← processBoxedMessage accepted h b
      if accepted then
        let t ← releaseRxInfo (t.setState i (.expect none .done hasResult result)) i
        some (t, h)
      else some (t, h)
    else none
  | .expect none .done _ _ => do
    let t ← releaseRxInfo t i
    some (t, h)
  | _ => none

/-- `ListenerTask_NotifyMessageFailure`. -/
def notifyMessageFailure (accepted : Bool) (t : RxTable) (h : Heap) (i : Nat) (status : BusSendStatus) :
    Option (RxTable × Heap) :=
  match (t.rxInfo i).state with
  | .expect (some b) _ hasResult result =>
    if status = .undefined then none
    else do
      let h ← processBoxedMessage accepted (h.setBox b { h.boxes b with status := status }) b
      if accepted then
        let t ← releaseRxInfo (t.setState i (.expect none .done hasResult result)) i
        some (t, h)
      else some (t, h)
  | _ => none

/-- The status `ListenerTask_AttemptDelivery` leaves in the box. -/
def deliveredStatus : BusSendStatus → BusSendStatus
  | .requestComplete => .success
  | status => status

/-- `ListenerTask_AttemptDelivery`. -/
def attemptDelivery (accepted : Bool) (t : RxTable) (h : Heap) (i : Nat) : Option (RxTable × Heap) :=
  match (t.rxInfo i).state with
  | .expect (some b) _ hasResult result =>
    if hasResult ∧ result.ok then do
      let box := h.boxes b
      let delivered := { box with
        status := deliveredStatus box.status, responseSeqId := result.seqId, responseMsg := result.msg }
      let h ← processBoxedMessage accepted (h.setBox b delivered) b
      if accepted then cleanUpCompletedInfo accepted (t.setState i (.expect none .done hasResult result)) h i
      else some (t, h)
    else none
  | _ => none

/-- The body of the loop of `tick_handler`; `clock` is whether its clock can be read. -/
def tickCell (clock accepted : Bool) (t : RxTable) (h : Heap) (i : Nat) : Option (RxTable × Heap) :=
  let info := t.rxInfo i
  match info.state with
  | .inactive => some (t, h)
  | .hold .. =>
    if info.timeoutSec = 1 then
      if clock then do
        let t ← releaseRxInfo t i
        some (t, h)
      else some (t, h)
    else some (t.set i { info with timeoutSec := info.timeoutSec - 1 }, h)
  | .expect _ error _ _ =>
    if error = .readyForDelivery then retryDelivery accepted t h i
    else if error = .done then cleanUpCompletedInfo accepted t h i
    else if error ≠ .none then notifyMessageFailure accepted t h i .rxFailure
    else if info.timeoutSec = 1 then
      if clock then notifyMessageFailure accepted t h i .rxTimeout else some (t, h)
    else some (t.set i { info with timeoutSec := info.timeoutSec - 1 }, h)

/-- `hold_response`, up to its reply. With no free cell it does nothing. -/
def holdResponse (t : RxTable) (fd seqId timeoutSec : Int) : Option RxTable := do
  let (cell, t) ← getFreeRxInfo t
  match cell with
  | none => some t
  | some i => some (t.set i ⟨timeoutSec, .hold fd seqId false .zero .none⟩)

/-- The byte of `u.hold.seq_id` under `u.expect.has_result`. -/
def staleHasResult (seqId : Int) : Bool := seqId / 2 ^ 32 % 256 ≠ 0

/-- `expect_response`. With no cell for the box it does nothing. -/
def expectResponse (accepted : Bool) (t : RxTable) (h : Heap) (b : Nat) : Option (RxTable × Heap) :=
  match findInfoBySequenceId t h.boxes (h.boxes b).fd (h.boxes b).outSeqId with
  | none => some (t, h)
  | some i =>
    match (t.rxInfo i).state with
    | .inactive => some (t, h)
    | .expect .. => none
    | .hold _ seqId hasResult result error =>
      if error = .none ∧ hasResult then
        if (h.boxes b).status = .undefined then none
        else attemptDelivery accepted (t.setState i (.expect (some b) .readyForDelivery true result)) h i
      else if error ≠ .none then
        notifyMessageFailure accepted (t.setState i (.expect (some b) error (staleHasResult seqId) result)) h i .rxFailure
      else some (t.set i ⟨(h.boxes b).timeoutSec, .expect (some b) .none false .zero⟩, h)

/-- What `set_error_for_socket` does to one cell. The error of a `HOLD` cell is set whatever its socket. -/
def RxInfo.setError (info : RxInfo) (boxes : Nat → BoxedMsg) (fd : Int) (err : RxError) : RxInfo :=
  match info.state with
  | .inactive => info
  | .hold heldFd seqId hasResult result _ => { info with state := .hold heldFd seqId hasResult result err }
  | .expect none _ _ _ => info
  | .expect (some b) error hasResult result =>
    { info with state := .expect (some b) (if (boxes b).fd = fd then err else error) hasResult result }

/-- The loop of `set_error_for_socket`. -/
def RxTable.setErrorForSocket (t : RxTable) (boxes : Nat → BoxedMsg) (fd : Int) (err : RxError) : RxTable :=
  { t with rxInfo := fun i => if i ≤ t.rxInfoMaxUsed then (t.rxInfo i).setError boxes fd err else t.rxInfo i }

/-- `process_unpacked_message`. What matches no cell, or failed to unpack, goes to a handler of the user's. -/
def processUnpackedMessage (accepted : Bool) (t : RxTable) (h : Heap) (fd : Int) (result : UnpackRes) :
    Option (RxTable × Heap) :=
  if result.ok then
    match findInfoBySequenceId t h.boxes fd result.seqId with
    | none => some (t, h)
    | some i =>
      let state := (t.rxInfo i).state
      match state with
      | .inactive => none
      | .hold heldFd seqId _ _ error =>
        if state.holdHasResult then none else some (t.setState i (.hold heldFd seqId true result error), h)
      | .expect box _ _ _ =>
        if state.holdHasResult then none
        else attemptDelivery accepted (t.setState i (.expect box .readyForDelivery true result)) h i
  else some (t, h)

end Kinetic
