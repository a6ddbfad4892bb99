import Kinetic.Bus.Assertions
import Kinetic.Sink.Model

namespace Kinetic
open Transition (Reach exec exists_reach_of_exec)

inductive AuthType
  | invalidAuthType
  | hmacAuth
  | pinAuth
  | unsolicitedStatus
  deriving DecidableEq

/-- What `unpack_cb` reads of a `Message`. A field that is not there is `none`. -/
structure ProtoMessage where
  authType : Option AuthType
  commandBytes : Option (List UInt8)
  deriving DecidableEq

structure ProtoHeader where
  ackSequence : Option Int
  deriving DecidableEq

/-- What it reads of a `Command`. -/
structure ProtoCommand where
  header : Option ProtoHeader
  deriving DecidableEq

/-- The two functions of the protobuf library that `KineticPDU_unpack_message` and `KineticPDU_unpack_command` call.
They return no message for bytes that encode none. -/
structure Protobuf where
  messageUnpack : List UInt8 → Option ProtoMessage
  commandUnpack : List UInt8 → Option ProtoCommand

/-- `BUS_NO_SEQ_ID`. -/
def busNoSeqId : Int := -1

/-- `response->proto`. -/
def SocketInfo.proto (si : SocketInfo) (p : Protobuf) : Option ProtoMessage :=
  p.messageUnpack (Memory.load si.buf 0 si.header.protobufLength)

/-- `response->command`. -/
def ProtoMessage.command (proto : ProtoMessage) (p : Protobuf) : Option ProtoCommand :=
  match proto.commandBytes with
  | some bytes => if bytes = [] then none else p.commandUnpack bytes
  | none => none

/-- The field `acksequence`, which is 0 when it is not there. -/
def ProtoHeader.ack (header : ProtoHeader) : Int := header.ackSequence.getD 0

/-- `unpack_cb`, for a session with the connection ID and the response that `KineticAllocator_NewKineticResponse` has
returned. It goes through the pointer to a message without looking. -/
def unpackCb (p : Protobuf) (response : Option Nat) (connectionId : Int) (si : SocketInfo) : Option UnpackRes :=
  if si.unpackStatus ≠ .success then some .zero
  else
    match response with
    | none => some .zero
    | some msg => do
      let proto ← si.proto p
      let seqId :=
        match (proto.command p).bind ProtoCommand.header with
        | some header =>
          if proto.authType = some .unsolicitedStatus ∧ connectionId = 0 then busNoSeqId else header.ack
        | none => busNoSeqId
      some ⟨true, msg, seqId⟩

/-- Where `process_unpacked_message` takes a result: to the user's handler for errors, to that for unexpected messages,
or to the cell of a request. -/
inductive Route
  | error
  | unexpected
  | request (i : Nat)
  deriving DecidableEq

def RxTable.route (t : RxTable) (boxes : Nat → BoxedMsg) (fd : Int) (result : UnpackRes) : Route :=
  if result.ok then
    match findInfoBySequenceId t boxes fd result.seqId with
    | none => .unexpected
    | some i => .request i
  else .error

/-- The sequence id that a request in the table waits for. -/
def RxTable.pending (t : RxTable) (boxes : Nat → BoxedMsg) (fd seqId : Int) : Prop :=
  ∃ i, i ≤ t.rxInfoMaxUsed ∧ (t.rxInfo i).isFor boxes fd seqId = true

section Routes
variable {t t' : RxTable} {h h' : Heap} {fd : Int} {result : UnpackRes} {accepted : Bool}

/-- A result that goes to a handler of the user's leaves every cell and every box alone. -/
theorem processUnpackedMessage_not_request (elsewhere : ∀ i, t.route h.boxes fd result ≠ .request i) (accepted : Bool) :
    processUnpackedMessage accepted t h fd result = some (t, h) := by
  unfold RxTable.route at elsewhere
  unfold processUnpackedMessage
  split
  · rename_i unpacked
    rw [if_pos unpacked] at elsewhere
    cases found : findInfoBySequenceId t h.boxes fd result.seqId with
    | none => rfl
    | some i =>
      rw [found] at elsewhere
      exact absurd rfl (elsewhere i)
  · rfl

/-- A result that goes to a request is saved in its cell, or written in its box. -/
theorem processUnpackedMessage_request {i : Nat} (matched : t.route h.boxes fd result = .request i)
    (run : processUnpackedMessage accepted t h fd result = some (t', h')) :
    (∃ seqId error, t'.state i = .hold fd seqId true result error) ∨
      ∃ b, t.box i = some b ∧ h'.boxes b = (h.boxes b).delivered result := by
  unfold RxTable.route at matched
  split at matched
  · rename_i unpacked
    split at matched
    · cases matched
    · rename_i j found
      cases matched
      cases processUnpackedMessage_move run with
      | keeps _ _ _ missed =>
        rw [missed unpacked] at found
        cases found
      | saves j fd seqId old result error _ _ _ found' cells =>
        rw [found] at found'
        cases found'
        exact .inl ⟨seqId, error, by rw [cells, Function.update_self]⟩
      | offers _ j b box after accepted offer offered =>
        cases offer with
        | receives error hasResult old result state _ _ _ found' =>
          rw [found] at found'
          cases found'
          exact .inr ⟨b, RxTable.box_eq state, by rw [offered.boxes, Function.update_self]⟩
  · cases matched

theorem findInfoBySequenceId_eq_none {boxes : Nat → BoxedMsg} {seqId : Int} :
    findInfoBySequenceId t boxes fd seqId = none ↔ ¬ t.pending boxes fd seqId := by
  unfold findInfoBySequenceId RxTable.pending
  rw [List.find?_eq_none]
  constructor
  · rintro missed ⟨i, within, isFor⟩
    exact missed i (List.mem_range.mpr (by omega)) isFor
  · intro absent i member isFor
    have below := List.mem_range.mp member
    exact absent ⟨i, by omega, isFor⟩

/-- What `unpack_cb` makes of a whole message of that type, once there is room for the response. -/
theorem unpackCb_unsolicited {p : Protobuf} {si : SocketInfo} {proto : ProtoMessage} (msg : Nat) (connectionId : Int)
    (whole : si.unpackStatus = .success) (unpacked : si.proto p = some proto)
    (status : proto.authType = some .unsolicitedStatus) :
    unpackCb p (some msg) connectionId si = some ⟨true, msg,
      match (proto.command p).bind ProtoCommand.header with
      | some header => if connectionId = 0 then busNoSeqId else header.ack
      | none => busNoSeqId⟩ := by
  simp [unpackCb, whole, unpacked, status]

/-- For every session and every set of requests that wait for sequence ids from 0 upward, an unsolicited status is passed
to the handler for unexpected messages if and only if there was memory for the response, and the session has no connection
ID yet, or the message has no command header, or no request on its socket waits for its acknowledged sequence. -/
theorem unsolicited_status_unexpected_iff (p : Protobuf) (response : Option Nat) (connectionId : Int) (si : SocketInfo)
    (proto : ProtoMessage) (t : RxTable) (boxes : Nat → BoxedMsg) (fd : Int) (whole : si.unpackStatus = .success)
    (unpacked : si.proto p = some proto) (status : proto.authType = some .unsolicitedStatus)
    (upward : ∀ seqId, t.pending boxes fd seqId → 0 ≤ seqId) :
    ∃ result, unpackCb p response connectionId si = some result ∧
      (t.route boxes fd result = .unexpected ↔
        response ≠ none ∧ (connectionId = 0 ∨
          ∀ header, (proto.command p).bind ProtoCommand.header = some header → ¬ t.pending boxes fd header.ack)) := by
  cases response with
  | none =>
    refine ⟨.zero, by simp [unpackCb, whole], ?_⟩
    simp [RxTable.route, UnpackRes.zero]
  | some msg =>
    refine ⟨_, unpackCb_unsolicited msg connectionId whole unpacked status, ?_⟩
    have noSeqId : findInfoBySequenceId t boxes fd busNoSeqId = none := by
      rw [findInfoBySequenceId_eq_none]
      intro pending
      have nonneg := upward _ pending
      simp only [busNoSeqId] at nonneg
      omega
    have routed (seqId : Int) : t.route boxes fd ⟨true, msg, seqId⟩ = .unexpected ↔ ¬ t.pending boxes fd seqId := by
      rw [← findInfoBySequenceId_eq_none]
      cases found : findInfoBySequenceId t boxes fd seqId with
      | none => simp [RxTable.route, found]
      | some i => simp [RxTable.route, found]
    rw [routed]
    have absent := findInfoBySequenceId_eq_none.mp noSeqId
    cases (proto.command p).bind ProtoCommand.header with
    | none => simp [absent]
    | some header =>
      by_cases unset : connectionId = 0
      · simp [unset, absent]
      · simp [unset]

/-- A status with the code `CONNECTION_TERMINATED` and an empty header, and the library as it reads it. -/
def terminationCommand : List UInt8 := [0x0a, 0, 0x1a, 2, 0x08, 20]

def terminationMessage : List UInt8 := [0x20, 3, 0x3a, 6] ++ terminationCommand

def terminationProtobuf : Protobuf :=
  { messageUnpack := fun bytes =>
      if bytes = terminationMessage then some ⟨some .unsolicitedStatus, some terminationCommand⟩ else none
    commandUnpack := fun bytes => if bytes = terminationCommand then some ⟨some ⟨none⟩⟩ else none }

/-- The parser state in which `unpack_cb` gets the message. -/
def terminationInfo : SocketInfo :=
  { state := .awaitingHeader, header := ⟨70, 10, 0⟩, unpackStatus := .success, accumulated := 0
    buf := Memory.store (fun _ => 0) terminationMessage }

/-- The connection is up, and the request with the sequence id 1 waits for its answer. -/
theorem unsolicited_status_unexpected_waiting :
    ∃ s, Reach busStep (.new 1) (fun s label => s.increasing label = true) s ∧
      (s.listeners 0).rx.pending s.heap.boxes 5 1 ∧
      ∃ result, unpackCb terminationProtobuf (some 7) 42 terminationInfo = some result ∧
        ((s.listeners 0).rx.route s.heap.boxes 5 result = .unexpected ↔
          some 7 ≠ none ∧ ((42 : Int) = 0 ∨
            ∀ header, (ProtoMessage.command ⟨some .unsolicitedStatus, some terminationCommand⟩ terminationProtobuf).bind
              ProtoCommand.header = some header → ¬ (s.listeners 0).rx.pending s.heap.boxes 5 header.ack)) ∧
        (s.listeners 0).rx.route s.heap.boxes 5 result = .unexpected := by
  have trace : (exec busStep (fun s label => decide (s.increasing label = true)) (.new 1)
      (registerSteps 0 5 ++ holdSteps 0 ⟨5, 1, 1, [1, 2]⟩)).map
      (fun s => ((s.listeners 0).rx.state 0, (s.listeners 0).rx.rxInfoMaxUsed)) =
      some (.hold 5 1 false .zero .none, 0) := by decide +kernel
  obtain ⟨s, reach, seen⟩ := exists_reach_of_exec trace
  obtain ⟨state, last⟩ := Prod.mk.inj seen
  have waits (seqId : Int) : (s.listeners 0).rx.pending s.heap.boxes 5 seqId ↔ seqId = 1 := by
    have here : ((s.listeners 0).rx.rxInfo 0).state = .hold 5 1 false .zero .none := state
    rw [RxTable.pending, last]
    constructor
    · rintro ⟨i, low, isFor⟩
      cases Nat.le_zero.mp low
      simp only [RxInfo.isFor, here, true_and, decide_eq_true_eq] at isFor
      exact isFor.symm
    · intro same
      exact ⟨0, Nat.le_refl 0, by simp [RxInfo.isFor, here, same]⟩
  obtain ⟨result, unpacked, routed⟩ := unsolicited_status_unexpected_iff terminationProtobuf (some 7) 42 terminationInfo
    ⟨some .unsolicitedStatus, some terminationCommand⟩ (s.listeners 0).rx s.heap.boxes 5 rfl (by decide +kernel) rfl
    fun seqId pending => by rw [(waits seqId).mp pending]; decide
  refine ⟨s, reach, (waits 1).mpr rfl, result, unpacked, routed, routed.mpr ⟨Option.some_ne_none 7, .inr fun header read => ?_⟩⟩
  have first : header = ⟨none⟩ := by
    have same : (ProtoMessage.command ⟨some .unsolicitedStatus, some terminationCommand⟩ terminationProtobuf).bind
        ProtoCommand.header = some ⟨none⟩ := by decide +kernel
    exact (Option.some.inj (same.symm.trans read)).symm
  rw [first, waits]
  decide

/-- On a connection that is up, with the first request in the table, a notice that the device is closing the connection
becomes the answer to that request. -/
theorem unsolicited_status_answers_request :
    ∃ s, Reach busStep (.new 1) (fun s label => s.increasing label = true) s ∧
      (s.listeners 0).rx.state 0 = .hold 5 0 false .zero .none ∧
      ∃ result, unpackCb terminationProtobuf (some 7) 42 terminationInfo = some result ∧
        (s.listeners 0).rx.route s.heap.boxes 5 result = .request 0 ∧
        ∃ t, busStep s (.listener 0 (.recv 0 result true)) = some t ∧
          (t.listeners 0).rx.state 0 = .hold 5 0 true result .none := by
  have trace : (exec busStep (fun s label => decide (s.increasing label = true)) (.new 1)
      (registerSteps 0 5 ++ holdSteps 0 ⟨5, 0, 1, [1, 2]⟩)).map
      (fun s => ((s.listeners 0).rx.state 0, (s.listeners 0).rx.route s.heap.boxes 5 ⟨true, 7, 0⟩,
        (busStep s (.listener 0 (.recv 0 ⟨true, 7, 0⟩ true))).map fun t => (t.listeners 0).rx.state 0)) =
      some (.hold 5 0 false .zero .none, .request 0, some (.hold 5 0 true ⟨true, 7, 0⟩ .none)) := by decide +kernel
  obtain ⟨s, reach, seen⟩ := exists_reach_of_exec trace
  simp only [Prod.mk.injEq] at seen
  obtain ⟨state, route, after⟩ := seen
  obtain ⟨t, taken, saved⟩ := Option.map_eq_some_iff.mp after
  exact ⟨s, reach, state, ⟨true, 7, 0⟩, by decide +kernel, route, t, taken, saved⟩

end Routes

end Kinetic
