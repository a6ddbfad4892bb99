import Kinetic.Client.Response

namespace Kinetic

/-- The two functions of the protobuf library, with the whole of a command. -/
structure ResponseProtobuf where
  messageUnpack : List UInt8 → Option ProtoMessage
  commandUnpack : List UInt8 → Option ResponseCommand

/-- The part of a command that `unpack_cb` looks at. -/
def ResponseCommand.proto (command : ResponseCommand) : ProtoCommand := ⟨command.header.map ResponseHeader.toProtoHeader⟩

def ResponseProtobuf.base (p : ResponseProtobuf) : Protobuf :=
  { messageUnpack := p.messageUnpack, commandUnpack := fun bytes => (p.commandUnpack bytes).map ResponseCommand.proto }

def ProtoMessage.responseCommand (proto : ProtoMessage) (p : ResponseProtobuf) : Option ResponseCommand :=
  match proto.commandBytes with
  | some bytes => if bytes = [] then none else p.commandUnpack bytes
  | none => none

/-- The response that `unpack_cb` fills. -/
def SocketInfo.response (si : SocketInfo) (p : ResponseProtobuf) (small : si.header.valueLength < 2 ^ 32) : KineticResponse :=
  { header := si.header, proto := si.proto p.base, command := (si.proto p.base).bind (ProtoMessage.responseCommand · p),
    value := fun i => si.buf (si.header.protobufLength + i), small := small }

/-- `is_level_enabled`, for the level that the logger was started with. -/
def isLevelEnabled (logLevel level : Int) : Bool := level ≤ logLevel ∧ 0 ≤ logLevel

/-- `KineticLogger_LogProtobuf`, as to the pointers it goes through. It unpacks the command in the message once more, prints
it, and frees it by `com__seagate__kinetic__proto__command__free_unpacked`, which looks into it. -/
def kineticLoggerLogProtobuf (p : ResponseProtobuf) (logLevel level : Int) (msg : Option ProtoMessage) : Option Unit :=
  match msg with
  | none => some ()
  | some proto =>
    if isLevelEnabled logLevel level then
      match proto.commandBytes with
      | some bytes => if bytes = [] then some () else (p.commandUnpack bytes).map fun _ => ()
      | none => some ()
    else some ()

/-- What `KineticController_HandleUnexpectedResponse` changes of a session. -/
structure ResponseSession where
  connectionId : Int
  terminationStatus : KineticStatus
  connectionReady : Bool
  deriving DecidableEq

/-- `KineticController_HandleUnexpectedResponse`. `none` is a `NULL` pointer that it goes through, or a failing assertion. -/
def kineticControllerHandleUnexpectedResponse (p : ResponseProtobuf) (logLevel : Int) (response : KineticResponse)
    (session : ResponseSession) : Option ResponseSession := do
  let proto ← response.proto
  if proto.authType = some .unsolicitedStatus then
    let connectionId ← response.getConnectionId
    if connectionId ≠ 0 then
      kineticLoggerLogProtobuf p logLevel 3 response.proto
      some { session with connectionId := connectionId, connectionReady := true }
    else
      kineticLoggerLogProtobuf p logLevel 0 response.proto
      some { session with terminationStatus := response.getStatus }
  else
    kineticLoggerLogProtobuf p logLevel 0 response.proto
    some session

/-- `KineticController_HandleResult` with what it logs of the response. The arguments of `LOGF2` are computed
whatever the level. -/
def kineticControllerHandleResultLogged (p : ResponseProtobuf) (logLevel : Int)
    (opCallback : Option (KineticStatus → KineticStatus)) (response : KineticResponse) (res : BoxedMsg) :
    Option KineticStatus := do
  let status ← busToKineticStatus res.status
  if status = .success then
    let command ← response.command
    let _ ← command.header
    kineticLoggerLogProtobuf p logLevel 3 response.proto
  kineticControllerHandleResult (fun _ => response.getStatus) opCallback res

/-- `unpack_cb` returns, and not with a message if it has none, and both handlers
can be given the response that it has filled. -/
def RejectsMalformed (p : ResponseProtobuf) (response : Option Nat) (connectionId logLevel : Int) (si : SocketInfo)
    (small : si.header.valueLength < 2 ^ 32) : Prop :=
  ∃ result, unpackCb p.base response connectionId si = some result ∧ (si.proto p.base = none → result.ok = false) ∧
    (result.ok = true →
      (∀ session, (kineticControllerHandleUnexpectedResponse p logLevel (si.response p small) session).isSome = true) ∧
      ∀ opCallback res, res.status.mapped = true →
        (kineticControllerHandleResultLogged p logLevel opCallback (si.response p small) res).isSome = true)

section Unpacked
variable {p : ResponseProtobuf} {si : SocketInfo} {proto : ProtoMessage} {logLevel level : Int} {response : KineticResponse}

theorem ProtoMessage.command_base (proto : ProtoMessage) (p : ResponseProtobuf) :
    proto.command p.base = (proto.responseCommand p).map ResponseCommand.proto := by
  unfold ProtoMessage.command ProtoMessage.responseCommand
  cases proto.commandBytes with
  | none => rfl
  | some bytes =>
    dsimp only
    split <;> rfl

theorem header_base (proto : ProtoMessage) (p : ResponseProtobuf) :
    (proto.command p.base).bind ProtoCommand.header =
      ((proto.responseCommand p).bind ResponseCommand.header).map ResponseHeader.toProtoHeader := by
  rw [ProtoMessage.command_base]
  cases proto.responseCommand p <;> rfl

/-- A message whose command can be unpacked is logged without harm. -/
theorem logProtobuf_of_command {command : ResponseCommand} (found : proto.responseCommand p = some command) :
    kineticLoggerLogProtobuf p logLevel level (some proto) = some () := by
  unfold ProtoMessage.responseCommand at found
  unfold kineticLoggerLogProtobuf
  dsimp only
  split
  · cases bytes : proto.commandBytes with
    | none => rfl
    | some command' =>
      rw [bytes] at found
      dsimp only at found ⊢
      split at found
      · cases found
      · rename_i nonempty
        rw [if_neg nonempty, found]
        rfl
  · rfl

/-- A response with a message and a command can be handled as an unexpected one. -/
theorem handleUnexpected_of_command {command : ResponseCommand} (message : response.proto = some proto)
    (found : proto.responseCommand p = some command) (session : ResponseSession) :
    (kineticControllerHandleUnexpectedResponse p logLevel response session).isSome = true := by
  have logged (level : Int) : kineticLoggerLogProtobuf p logLevel level (some proto) = some () := logProtobuf_of_command found
  unfold kineticControllerHandleUnexpectedResponse KineticResponse.getConnectionId
  rw [message]
  simp only [Option.bind_eq_bind, Option.bind_some, logged]
  split
  · split <;> dsimp only [Option.bind_some] <;> split <;> rfl
  · rfl

/-- With a command and its header there, the logged result is the result. -/
theorem handleResultLogged_of_header {command : ResponseCommand} {header : ResponseHeader}
    (message : response.proto = some proto) (found : proto.responseCommand p = some command)
    (atCommand : response.command = some command) (atHeader : command.header = some header)
    (opCallback : Option (KineticStatus → KineticStatus)) (res : BoxedMsg) :
    kineticControllerHandleResultLogged p logLevel opCallback response res =
      kineticControllerHandleResult (fun _ => response.getStatus) opCallback res := by
  unfold kineticControllerHandleResultLogged
  rw [message, atCommand]
  cases mapped : busToKineticStatus res.status with
  | none => simp [kineticControllerHandleResult, mapped]
  | some status => by_cases success : status = .success <;> simp [success, atHeader, logProtobuf_of_command found]

theorem handleResultLogged_header (opCallback : Option (KineticStatus → KineticStatus)) (res : BoxedMsg)
    (success : res.status = .success)
    (returns : (kineticControllerHandleResultLogged p logLevel opCallback response res).isSome = true) :
    ∃ header, response.command.bind ResponseCommand.header = some header := by
  unfold kineticControllerHandleResultLogged at returns
  cases atCommand : response.command with
  | none => simp [success, busToKineticStatus, atCommand] at returns
  | some command =>
    cases atHeader : command.header with
    | none => simp [success, busToKineticStatus, atCommand, atHeader] at returns
    | some header => exact ⟨header, atHeader⟩

/-- `unpack_cb` gives a sequence id only to a response with a header: what is matched to a request can be handled as a result. -/
theorem unpackCb_header {msg : Option Nat} {connectionId : Int} {result : UnpackRes} {small : si.header.valueLength < 2 ^ 32}
    (unpacked : unpackCb p.base msg connectionId si = some result) (ok : result.ok = true) (matched : result.seqId ≠ busNoSeqId) :
    ∃ header, (si.response p small).command.bind ResponseCommand.header = some header := by
  unfold unpackCb at unpacked
  split at unpacked
  · cases unpacked
    cases ok
  · split at unpacked
    · cases unpacked
      cases ok
    · obtain ⟨proto, found, filled⟩ := Option.bind_eq_some_iff.mp unpacked
      rw [header_base] at filled
      change ∃ header, ((si.proto p.base).bind (ProtoMessage.responseCommand · p)).bind ResponseCommand.header = some header
      rw [found, Option.bind_some]
      cases atHeader : (proto.responseCommand p).bind ResponseCommand.header with
      | none =>
        rw [atHeader] at filled
        cases filled
        exact absurd rfl matched
      | some header => exact ⟨header, rfl⟩

/-- For every message, session and log level: malformed messages are rejected and the rest can be handled if and only if the
message was given up before, or it can be unpacked and has a command that can be unpacked and has a header. -/
theorem malformed_rejected_iff (p : ResponseProtobuf) (response : Option Nat) (connectionId logLevel : Int) (si : SocketInfo)
    (small : si.header.valueLength < 2 ^ 32) :
    RejectsMalformed p response connectionId logLevel si small ↔
      si.unpackStatus ≠ .success ∨ response = none ∨
        ∃ proto command header, p.messageUnpack (Memory.load si.buf 0 si.header.protobufLength) = some proto ∧
          proto.responseCommand p = some command ∧ command.header = some header := by
  by_cases whole : si.unpackStatus = .success
  · cases response with
    | none =>
      refine iff_of_true ⟨.zero, by simp [unpackCb, whole], fun _ => rfl, by rintro ⟨⟩⟩ (Or.inr (Or.inl rfl))
    | some msg =>
      constructor
      · rintro ⟨result, unpacked, _, handled⟩
        refine Or.inr (Or.inr ?_)
        unfold unpackCb at unpacked
        rw [if_neg (by simpa using whole)] at unpacked
        obtain ⟨proto, found, filled⟩ := Option.bind_eq_some_iff.mp unpacked
        have ok : result.ok = true := by cases filled; rfl
        obtain ⟨header, atHeader⟩ := handleResultLogged_header none { BoxedMsg.calloc with status := .success } rfl
          ((handled ok).2 none _ rfl)
        change ((si.proto p.base).bind (ProtoMessage.responseCommand · p)).bind ResponseCommand.header = some header at atHeader
        rw [found, Option.bind_some] at atHeader
        obtain ⟨command, atCommand, atHeader⟩ := Option.bind_eq_some_iff.mp atHeader
        exact ⟨proto, command, header, found, atCommand, atHeader⟩
      · rintro (partly | lacking | ⟨proto, command, header, found, atCommand, atHeader⟩)
        · exact absurd whole partly
        · cases lacking
        · have message : si.proto p.base = some proto := found
          have filled : (si.response p small).command = some command := by
            change (si.proto p.base).bind (ProtoMessage.responseCommand · p) = some command
            rw [message]
            exact atCommand
          refine ⟨_, by simp [unpackCb, whole, message]; rfl, fun missing => ?_, fun _ => ⟨fun session => ?_, ?_⟩⟩
          · rw [message] at missing
            cases missing
          · exact handleUnexpected_of_command message atCommand session
          · intro opCallback res mapped
            rw [handleResultLogged_of_header message atCommand filled atHeader]
            obtain ⟨status, completes⟩ := handleResult_completes mapped (fun _ => (si.response p small).getStatus) opCallback
            rw [completes]
            rfl
  · exact iff_of_true ⟨.zero, by simp [unpackCb, whole], fun _ => rfl, by rintro ⟨⟩⟩ (Or.inl whole)

/-- The message with a `CONNECTION_TERMINATED` status, one with the same authentication but with a byte for a command that
is no command, and one with no command, as the library reads them; it reads no others here. -/
def strictProtobuf : ResponseProtobuf :=
  { messageUnpack := fun bytes =>
      if bytes = terminationMessage then some ⟨some .unsolicitedStatus, some terminationCommand⟩
      else if bytes = [0x20, 3, 0x3a, 1, 0xff] then some ⟨some .unsolicitedStatus, some [0xff]⟩
      else if bytes = [0x20, 3] then some ⟨some .unsolicitedStatus, none⟩
      else none
    commandUnpack := fun bytes =>
      if bytes = terminationCommand then some ⟨some ⟨⟨none⟩, none⟩, some ⟨some .connectionTerminated⟩, none⟩ else none }

/-- The parser state in which `unpack_cb` gets a message. -/
def messageInfo (message : List UInt8) : SocketInfo :=
  { state := .awaitingHeader, header := ⟨70, message.length, 0⟩, unpackStatus := .success, accumulated := 0
    buf := Memory.store (fun _ => 0) message }

theorem malformed_rejected_termination :
    RejectsMalformed strictProtobuf (some 7) 42 0 (messageInfo terminationMessage) (by decide) := by
  refine (malformed_rejected_iff strictProtobuf (some 7) 42 0 (messageInfo terminationMessage) (by decide)).mpr ?_
  refine Or.inr (Or.inr ⟨⟨some .unsolicitedStatus, some terminationCommand⟩,
    ⟨some ⟨⟨none⟩, none⟩, some ⟨some .connectionTerminated⟩, none⟩, ⟨⟨none⟩, none⟩, ?_, rfl, rfl⟩)
  have loaded : Memory.load (messageInfo terminationMessage).buf 0 (messageInfo terminationMessage).header.protobufLength =
      terminationMessage := Memory.load_store _ _
  rw [loaded]
  rfl

/-- `unpack_cb` goes through the message that a truncated field does not give; a byte that is no command, once logged, is
gone through by the handler for unexpected responses; and a response without a command by the handler for results. -/
theorem malformed_dereferenced :
    (unpackCb strictProtobuf.base (some 7) 42 (messageInfo [0x0a]) = none ∧
      ¬ RejectsMalformed strictProtobuf (some 7) 42 0 (messageInfo [0x0a]) (by decide)) ∧
    (unpackCb strictProtobuf.base (some 7) 42 (messageInfo [0x20, 3, 0x3a, 1, 0xff]) = some ⟨true, 7, busNoSeqId⟩ ∧
      kineticControllerHandleUnexpectedResponse strictProtobuf 0
        ((messageInfo [0x20, 3, 0x3a, 1, 0xff]).response strictProtobuf (by decide)) ⟨42, .success, true⟩ = none) ∧
    unpackCb strictProtobuf.base (some 7) 42 (messageInfo [0x20, 3]) = some ⟨true, 7, busNoSeqId⟩ ∧
      kineticControllerHandleResultLogged strictProtobuf 0 none ((messageInfo [0x20, 3]).response strictProtobuf (by decide))
        { BoxedMsg.calloc with status := .success } = none := by
  have truncated : unpackCb strictProtobuf.base (some 7) 42 (messageInfo [0x0a]) = none := by decide +kernel
  refine ⟨⟨truncated, ?_⟩, ⟨by decide +kernel, by decide +kernel⟩, by decide +kernel, by decide +kernel⟩
  rintro ⟨result, unpacked, _⟩
  rw [truncated] at unpacked
  cases unpacked

end Unpacked

end Kinetic
