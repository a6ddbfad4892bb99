import Kinetic.Lib.Blocks
import Kinetic.Session.Authentication
import Mathlib.Data.Countable.Basic
import Mathlib.Data.List.Forall2
import Mathlib.Logic.Equiv.List

namespace Kinetic
open Blocks (Prog Owns Attempts Held)
open Memory

/-- A field of a protobuf message that may be missing. -/
def optionalField {α : Type} (has : Bool) (value : α) : Option α := if has then some value else none

/-- What is encoded of a `Message`: the fields that are there, with their bytes. -/
structure WireMessage where
  authtype : Option AuthType
  hmacauth : Option (Option Int × Option (List UInt8))
  pinauth : Option (Option (List UInt8))
  commandbytes : Option (List UInt8)
  deriving DecidableEq

def MessageFields.wire (msg : MessageFields) : WireMessage where
  authtype := optionalField msg.hasAuthtype msg.authtype
  hmacauth := msg.hmacauth.map fun auth =>
    (optionalField auth.hasIdentity auth.identity, optionalField auth.hasHmac auth.hmac.bytes)
  pinauth := msg.pinauth.map fun auth => optionalField auth.hasPin auth.pin.bytes
  commandbytes := optionalField msg.hasCommandbytes msg.commandbytes.bytes

/-- The functions of the protobuf library for a `Message`. It decodes what it encodes, and a field that is there takes bytes. -/
structure MessageLibrary where
  encode : WireMessage → List UInt8
  decode : List UInt8 → Option WireMessage
  decode_encode : ∀ w, decode (encode w) = some w
  encode_ne_nil : ∀ w, w.authtype.isSome → encode w ≠ []

def MessageLibrary.codec (library : MessageLibrary) : MessageCodec MessageFields where
  getPackedSize msg := (library.encode msg.wire).length
  pack msg := library.encode msg.wire

/-- The libraries that `send_request_in_lock` uses. A command is packed together with the sequence in its header, and the size
of what is packed is a `size_t`. -/
structure SendLibraries (Command : Type) where
  mac : HmacSha1
  order : ByteOrder
  commands : MessageCodec (Int × Command)
  messages : MessageLibrary
  size_t : ∀ command, (commands.pack command).length < 2 ^ 64

/-- What `send_request_in_lock` reads of an operation: the sequence in the header of the command, the command, the value, the
PIN, and the message of the request with the array for its tag. -/
structure LockedOperation (Command : Type) where
  sequence : Int
  command : Command
  value : List UInt8
  pin : Option BinaryData
  message : MessageFields
  hmacData : Nat → UInt8

/-- The message that points to the bytes of a command. -/
def MessageFields.withCommand (msg : MessageFields) (cmdBuf : Nat → UInt8) (packed : List UInt8) : MessageFields :=
  { msg with commandbytes := ⟨some (write cmdBuf 0 packed), UInt64.ofNat packed.length⟩, hasCommandbytes := true }

section Sending
variable {Command : Type}

/-- `KineticRequest_PackCommand`. `cmdBuf` is what the memory holds that `malloc` gives. -/
def kineticRequestPackCommand (codec : MessageCodec (Int × Command)) (cmdBuf : Nat → UInt8) (seqId : Int)
    (op : LockedOperation Command) : Prog (Option (Held MessageFields)) := do
  match ← Blocks.calloc with
  | none => return none
  | some b =>
    let packed := codec.pack (seqId, op.command)
    if packed.length = codec.getPackedSize (seqId, op.command) then return some ⟨b, op.message.withCommand cmdBuf packed⟩
    else throw .assertion

/-- The rest of `send_request_in_lock` with an authenticated message, and the answer of `Bus_SendRequest`: the status, and
the bytes that the bus has been given. -/
def sendPacked (lib : SendLibraries Command) (memory : Nat → UInt8) (busSendRequest : List UInt8 → Bool)
    (op : LockedOperation Command) (commandData : Nat) (message : MessageFields) :
    Prog (KineticStatus × Option (List UInt8)) := do
  let block ← Blocks.calloc
  match kineticRequestPackMessage lib.order lib.messages.codec (block.map fun _ => memory) ⟨message, op.value⟩ with
  | .error .assertFailed => throw .assertion
  | .error .memoryError =>
    Blocks.free commandData
    return (.memoryError, none)
  | .ok (msg, msgSize) =>
    Blocks.free commandData
    let sent := busSendRequest (load msg 0 msgSize)
    Blocks.freePtr block
    return (if sent then .success else .requestRejected, some (load msg 0 msgSize))

/-- `send_request_in_lock`. -/
def sendRequestInLock (lib : SendLibraries Command) (config : AuthConfig) (memory : Nat → UInt8)
    (busSendRequest : List UInt8 → Bool) (seqId : Int) (op : LockedOperation Command) :
    Prog (KineticStatus × Option (List UInt8)) := do
  if op.sequence = kineticSequenceNotYetBound then
    match ← kineticRequestPackCommand lib.commands memory seqId op with
    | none => return (.memoryError, none)
    | some commandData =>
      match kineticRequestPopulateAuthentication lib.mac lib.order config op.hmacData commandData.value op.pin with
      | none => throw .assertion
      | some (.success, message) => sendPacked lib memory busSendRequest op commandData.block message
      | some (status, _) =>
        Blocks.free commandData.block
        return (status, none)
  else throw .assertion

end Sending

/-- The bytes of a message and its value, if they pass the assertions of `KineticRequest_PackMessage`. -/
def framedMessage (proto value : List UInt8) : Option (List UInt8) :=
  let valueLength := value.length % 2 ^ 32
  let copied := if valueLength > 0 then value else []
  if proto.length < 2 ^ 32 ∧ copied.length = valueLength then some (frame proto.length valueLength proto copied) else none

/-- Where the length of the value fits its field in the header, a message whose length does so is framed whole. -/
theorem framedMessage_eq (proto : List UInt8) {value : List UInt8} (fits : value.length < 2 ^ 32) :
    framedMessage proto value = if proto.length < 2 ^ 32 then some (pdu proto value) else none := by
  have small : value.length % 2 ^ 32 = value.length := Nat.mod_eq_of_lt fits
  have copied : (if value.length > 0 then value else []) = value := by
    split
    · rfl
    · exact (List.eq_nil_of_length_eq_zero (by omega)).symm
  unfold framedMessage
  simp only [small, copied, and_true]
  rfl

theorem framedMessage_pdu {proto value bytes : List UInt8} (framed : framedMessage proto value = some bytes)
    (fits : value.length < 2 ^ 32) : bytes = pdu proto value := by
  rw [framedMessage_eq proto fits] at framed
  split at framed
  · exact (Option.some.inj framed).symm
  · cases framed

section Served
variable {Command : Type} {lib : SendLibraries Command} {config : AuthConfig} {memory : Nat → UInt8}
  {busSendRequest : List UInt8 → Bool} {seqId : Int} {op : LockedOperation Command} {grants : Nat → Bool}

/-- The message with its command. -/
def LockedOperation.commanded (op : LockedOperation Command) (lib : SendLibraries Command) (memory : Nat → UInt8)
    (seqId : Int) : MessageFields :=
  op.message.withCommand memory (lib.commands.pack (seqId, op.command))

/-- An assertion of `send_request_in_lock` fails. -/
inductive SendFails (lib : SendLibraries Command) (config : AuthConfig) (memory : Nat → UInt8) (seqId : Int)
    (op : LockedOperation Command) : Prop
  | bound : op.sequence ≠ kineticSequenceNotYetBound → SendFails lib config memory seqId op
  | misses : (lib.commands.pack (seqId, op.command)).length ≠ lib.commands.getPackedSize (seqId, op.command) →
      SendFails lib config memory seqId op
  | unauthenticated : AuthFails config (op.commanded lib memory seqId) op.pin → SendFails lib config memory seqId op
  | oversized (message : MessageFields) :
      Authenticated lib.mac lib.order config op.pin (op.commanded lib memory seqId) message →
      framedMessage (lib.messages.encode message.wire) op.value = none → SendFails lib config memory seqId op

/-- How `send_request_in_lock` ends. -/
inductive SendEnds (grants : Nat → Bool) (lib : SendLibraries Command) (config : AuthConfig) (memory : Nat → UInt8)
    (busSendRequest : List UInt8 → Bool) (seqId : Int) (op : LockedOperation Command) :
    KineticStatus × Option (List UInt8) → Prop
  | memoryError (n : Nat) : grants n = false → SendEnds grants lib config memory busSendRequest seqId op (.memoryError, none)
  | sslRequired : op.pin.isSome → config.useSsl = false →
      SendEnds grants lib config memory busSendRequest seqId op (.sslRequired, none)
  | hmacRequired : op.pin = none → config.hmacKey.data = none →
      SendEnds grants lib config memory busSendRequest seqId op (.hmacRequired, none)
  | sends (message : MessageFields) (msg : List UInt8) :
      Authenticated lib.mac lib.order config op.pin (op.commanded lib memory seqId) message →
      framedMessage (lib.messages.encode message.wire) op.value = some msg →
      SendEnds grants lib config memory busSendRequest seqId op
        (if busSendRequest msg then .success else .requestRejected, some msg)

theorem kineticRequestPackMessage_framed (order : ByteOrder) (messages : MessageLibrary) (memory : Nat → UInt8)
    (message : MessageFields) (value : List UInt8) :
    (∃ msg size, kineticRequestPackMessage order messages.codec (some memory) ⟨message, value⟩ = .ok (msg, size) ∧
        framedMessage (messages.encode message.wire) value = some (load msg 0 size)) ∨
      kineticRequestPackMessage order messages.codec (some memory) ⟨message, value⟩ = .error .assertFailed ∧
        framedMessage (messages.encode message.wire) value = none := by
  have refined := packMessage_refines order memory ⟨fun _ _ => [], fun _ _ => messages.encode message.wire⟩
    ⟨0, 0, 0, value, 0⟩ []
  have same : kineticRequestPackMessage order ⟨fun _ => (messages.encode message.wire).length,
      fun _ => messages.encode message.wire⟩ (some memory) ⟨(), value⟩ =
      kineticRequestPackMessage order messages.codec (some memory) ⟨message, value⟩ := rfl
  dsimp only at refined
  rw [same] at refined
  cases packed : kineticRequestPackMessage order messages.codec (some memory) ⟨message, value⟩ with
  | ok result =>
    rw [packed] at refined
    exact .inl ⟨result.1, result.2, rfl, refined⟩
  | error e =>
    rw [packed] at refined
    cases e with
    | assertFailed => exact .inr ⟨rfl, refined⟩
    | memoryError =>
      unfold kineticRequestPackMessage at packed
      dsimp only at packed
      split at packed
      · cases packed
      · split at packed <;>
        · split at packed <;> cases packed

theorem kineticRequestPackCommand_attempts : Attempts .assertion grants 0 (kineticRequestPackCommand lib.commands memory seqId op)
    (SendFails lib config memory seqId op) fun r own =>
      (∃ b, r = some ⟨b, op.commanded lib memory seqId⟩ ∧ own = {b}) ∨ r = none ∧ own = 0 ∧ ∃ n, grants n = false := by
  unfold kineticRequestPackCommand
  refine Owns.calloc.before fun r own held => ?_
  rcases held with ⟨b, rfl, rfl⟩ | ⟨rfl, rfl, refused⟩
  · by_cases sized : (lib.commands.pack (seqId, op.command)).length = lib.commands.getPackedSize (seqId, op.command)
    · simp only [sized, if_true]
      exact (Owns.pure (.inl ⟨b, rfl, rfl⟩)).attempts
    · simp only [sized, if_false]
      exact .fails (.misses sized)
  · exact (Owns.pure (.inr ⟨rfl, rfl, refused⟩)).attempts

/-- The last block is given back. -/
theorem SendEnds.released {own : Multiset Nat} {x : Prog Unit} {r : KineticStatus × Option (List UInt8)}
    (ends : SendEnds grants lib config memory busSendRequest seqId op r) (frees : Owns grants own x fun _ own => own = 0) :
    Owns grants own (do x; return r) fun r own => own = 0 ∧ SendEnds grants lib config memory busSendRequest seqId op r :=
  frees.bind fun _ _ gone => .pure ⟨gone, ends⟩

theorem sendPacked_attempts (commandData : Nat) {message : MessageFields}
    (authenticated : Authenticated lib.mac lib.order config op.pin (op.commanded lib memory seqId) message) :
    Attempts .assertion grants {commandData} (sendPacked lib memory busSendRequest op commandData message)
      (SendFails lib config memory seqId op) fun r own =>
        own = 0 ∧ SendEnds grants lib config memory busSendRequest seqId op r := by
  unfold sendPacked
  refine Owns.calloc.beforeBeside fun block own held => ?_
  rcases held with ⟨b, rfl, rfl⟩ | ⟨rfl, rfl, n, refused⟩
  · rw [Option.map_some]
    rcases kineticRequestPackMessage_framed lib.order lib.messages memory message op.value with
      ⟨msg, size, packed, framed⟩ | ⟨failed, oversized⟩
    · simp only [packed]
      rw [Multiset.add_comm]
      refine (Owns.free commandData).releaseBefore ?_
      have sent : SendEnds grants lib config memory busSendRequest seqId op
          (if busSendRequest (load msg 0 size) then .success else .requestRejected, some (load msg 0 size)) :=
        .sends message _ authenticated framed
      exact (sent.released (Owns.freePtr (some b))).attempts
    · simp only [failed]
      exact .fails (.oversized message authenticated oversized)
  · rw [Multiset.zero_add]
    have ended : SendEnds grants lib config memory busSendRequest seqId op (.memoryError, none) := .memoryError n refused
    exact (ended.released (Owns.free commandData)).attempts

theorem sendRequestInLock_attempts : Attempts .assertion grants 0
    (sendRequestInLock lib config memory busSendRequest seqId op) (SendFails lib config memory seqId op) fun r own =>
      own = 0 ∧ SendEnds grants lib config memory busSendRequest seqId op r := by
  unfold sendRequestInLock
  by_cases unbound : op.sequence = kineticSequenceNotYetBound
  · rw [if_pos unbound]
    refine kineticRequestPackCommand_attempts.bind fun r own held => ?_
    rcases held with ⟨b, rfl, rfl⟩ | ⟨rfl, rfl, n, refused⟩
    · rcases populateAuthentication_sound lib.mac lib.order config op.hmacData (op.commanded lib memory seqId) op.pin with
        ⟨fails, failed⟩ | ⟨_, ⟨pinned, plain, refused⟩ | ⟨unpinned, keyless, refused⟩ | ⟨message, populated, authenticated⟩⟩
      · simp only [failed]
        exact .fails (.unauthenticated fails)
      · simp only [refused]
        have ended : SendEnds grants lib config memory busSendRequest seqId op (.sslRequired, none) := .sslRequired pinned plain
        exact (ended.released (Owns.free b)).attempts
      · simp only [refused]
        have ended : SendEnds grants lib config memory busSendRequest seqId op (.hmacRequired, none) :=
          .hmacRequired unpinned keyless
        exact (ended.released (Owns.free b)).attempts
      · simp only [populated]
        exact sendPacked_attempts b authenticated
    · have ended : SendEnds grants lib config memory busSendRequest seqId op (.memoryError, none) := .memoryError n refused
      exact (Owns.pure ⟨rfl, ended⟩).attempts
  · rw [if_neg unbound]
    exact .fails (.bound unbound)

/-- A run of `send_request_in_lock`, from a heap with any blocks in it. -/
theorem sendRequestInLock_cases (lib : SendLibraries Command) (config : AuthConfig) (memory : Nat → UInt8)
    (busSendRequest : List UInt8 → Bool) (seqId : Int) (op : LockedOperation Command) (h : Blocks.Heap) :
    (∃ r h', sendRequestInLock lib config memory busSendRequest seqId op h = .ok (r, h') ∧ h'.live = h.live ∧
        SendEnds h.grants lib config memory busSendRequest seqId op r) ∨
      sendRequestInLock lib config memory busSendRequest seqId op h = .error .assertion ∧
        SendFails lib config memory seqId op := by
  rcases sendRequestInLock_attempts h h.live rfl (Multiset.zero_add _).symm with
    ⟨r, h', own, run, _, live, rfl, ended⟩ | failed
  · exact .inl ⟨r, h', run, by rw [live, Multiset.zero_add], ended⟩
  · exact .inr failed

end Served

/-- `send_request_in_lock` gives back the memory it gets on every path and sends nothing that is not authenticated as the session
and the operation ask for. What it gives the bus is the whole message with its value, whose lengths must fit their fields in the
header. -/
theorem sendRequestInLock_served {Command : Type} (lib : SendLibraries Command) (config : AuthConfig) (memory : Nat → UInt8)
    (busSendRequest : List UInt8 → Bool) (seqId : Int) (op : LockedOperation Command) (value : op.value.length < 2 ^ 32)
    (messages : ∀ message, Authenticated lib.mac lib.order config op.pin (op.commanded lib memory seqId) message →
      (lib.messages.encode message.wire).length < 2 ^ 32) (h : Blocks.Heap) :
    match sendRequestInLock lib config memory busSendRequest seqId op h with
    | .ok (r, h') => h'.live = h.live ∧ SendEnds h.grants lib config memory busSendRequest seqId op r ∧
        ∀ msg, r.2 = some msg → ∃ message,
          Authenticated lib.mac lib.order config op.pin (op.commanded lib memory seqId) message ∧
            msg = pdu (lib.messages.encode message.wire) op.value
    | .error fault => fault = .assertion ∧ (op.sequence ≠ kineticSequenceNotYetBound ∨
        (lib.commands.pack (seqId, op.command)).length ≠ lib.commands.getPackedSize (seqId, op.command) ∨
          AuthFails config (op.commanded lib memory seqId) op.pin) := by
  rcases sendRequestInLock_cases lib config memory busSendRequest seqId op h with ⟨r, h', run, live, ended⟩ | ⟨run, failed⟩
  · rw [run]
    refine ⟨live, ended, fun msg given => ?_⟩
    cases ended with
    | sends message msg authenticated framed =>
      cases given
      exact ⟨message, authenticated, framedMessage_pdu framed value⟩
    | _ => cases given
  · rw [run]
    refine ⟨rfl, ?_⟩
    cases failed with
    | bound bound => exact .inl bound
    | misses misses => exact .inr (.inl misses)
    | unauthenticated fails => exact .inr (.inr fails)
    | oversized message authenticated oversized =>
      rw [framedMessage_eq _ value, if_pos (messages message authenticated)] at oversized
      cases oversized

/-- In a session whose packer does what the libraries do, the steps of a thread from the packing of its command on come to the
semaphore with these bytes, or to the unlock without any. -/
theorem sendRequestInLock_steps {Command : Type} {lib : SendLibraries Command} {config : AuthConfig} {memory : Nat → UInt8}
    {busSendRequest : List UInt8 → Bool} {op : LockedOperation Command} {h h' : Blocks.Heap} {status : KineticStatus}
    {sent : Option (List UInt8)} {pk : Packer} {s : Session} {c : Nat} {sending : Operation}
    (here : s.threads c = .packCommand sending) (value : sending.value = op.value)
    (commands : pk.commandPack sending.sequence sending.command = lib.commands.pack (sending.sequence, op.command))
    (messages : ∀ message, Authenticated lib.mac lib.order config op.pin (op.commanded lib memory sending.sequence) message →
      pk.messagePack sending (lib.commands.pack (sending.sequence, op.command)) = lib.messages.encode message.wire)
    (run : sendRequestInLock lib config memory busSendRequest sending.sequence op h = .ok ((status, sent), h')) :
    ∃ oks : List Bool, Transition.exec (sessionStep pk) (fun _ _ => true) s (oks.map (SessionLabel.thread c)) =
      some (s.setThread c (match sent with
        | some msg => .take sending msg .takeLock
        | none => .unlock)) := by
  have fails : Transition.exec (sessionStep pk) (fun _ _ => true) s [SessionLabel.thread c false] =
      some (s.setThread c .unlock) := by
    simp [Transition.exec, sessionStep, threadStep, here]
  rcases sendRequestInLock_cases lib config memory busSendRequest sending.sequence op h with
    ⟨result, _, ended, _, ends⟩ | ⟨failed, _⟩
  · rw [run] at ended
    cases ended
    generalize same : (status, sent) = result at ends
    cases ends with
    | memoryError => cases same; exact ⟨[false], fails⟩
    | sslRequired => cases same; exact ⟨[false], fails⟩
    | hmacRequired => cases same; exact ⟨[false], fails⟩
    | sends message msg authenticated framed =>
      cases same
      refine ⟨[true, true, true], ?_⟩
      have packed : packMessage pk sending (packCommand pk sending) = some msg := by
        rw [← framed, ← messages message authenticated, ← value, ← commands]
        rfl
      simp [Transition.exec, sessionStep, threadStep, here, Session.setThread, packed]
  · rw [run] at failed
    cases failed

/-- The tag in an encoded message. -/
def WireMessage.tag (wire : WireMessage) : Option (List UInt8) :=
  match wire.authtype, wire.hmacauth with
  | some .hmacAuth, some (_, some tag) => if tag = [] then none else some tag
  | _, _ => none

/-- A request that `send_request_in_lock` has given to the bus, with its sequence id and its bytes. -/
structure SentRequest (Command : Type) where
  op : LockedOperation Command
  seqId : Int
  msg : List UInt8

/-- A request comes out of the parser of the other side with its command and its value, and whoever decodes it finds it valid
if and only if it was sent without a PIN and the tags of the two keys are the same. -/
def SentRequest.Arrives {Command : Type} (lib : SendLibraries Command) (config : AuthConfig) (request : SentRequest Command)
    (event : SinkEvent) : Prop :=
  ∃ proto wire, event = .message proto.length request.op.value.length proto request.op.value ∧
    lib.messages.decode proto = some wire ∧
    wire.commandbytes = some (lib.commands.pack (request.seqId, request.op.command)) ∧
    ∀ (order : ByteOrder) (received : MessageFields) (key : BinaryData), received.wire = wire → key.Given →
      kineticHMACValidate lib.mac order received key = some (decide (request.op.pin = none ∧
        lib.mac.digest config.hmacKey.bytes (hashedCommand (lib.commands.pack (request.seqId, request.op.command))) =
          lib.mac.digest key.bytes (hashedCommand (lib.commands.pack (request.seqId, request.op.command)))))

section Arriving
variable {Command : Type} {lib : SendLibraries Command} {config : AuthConfig} {msg : MessageFields}

theorem optionalField_eq_some {α : Type} {has : Bool} {value seen : α} :
    optionalField has value = some seen ↔ has = true ∧ value = seen := by
  cases has <;> simp [optionalField]

theorem BinaryData.given_iff (array : BinaryData) : array.Given ↔ array.bytes ≠ [] := by
  obtain ⟨data, len⟩ := array
  cases data with
  | none => simp [BinaryData.Given, BinaryData.bytes]
  | some mem =>
    have length := BinaryData.bytes_length ⟨some mem, len⟩ rfl
    rw [← List.length_pos_iff, length, Nat.pos_iff_ne_zero]
    simp [BinaryData.Given, ← UInt64.toNat_inj]

theorem MessageFields.tag_wire : msg.wire.tag = msg.tag := by
  obtain ⟨has, authtype, hmacauth, pinauth, _, commandbytes⟩ := msg
  cases has with
  | false => simp [MessageFields.wire, WireMessage.tag, MessageFields.tag, optionalField]
  | true =>
    cases hmacauth with
    | none => cases authtype <;> rfl
    | some auth =>
      obtain ⟨_, _, hasHmac, hmac⟩ := auth
      cases authtype with
      | hmacAuth =>
        cases hasHmac with
        | false => rfl
        | true =>
          have given := BinaryData.given_iff hmac
          by_cases empty : hmac.bytes = []
          · have absent : ¬ hmac.Given := fun present => given.mp present empty
            simp only [MessageFields.wire, WireMessage.tag, MessageFields.tag, optionalField, if_true, Option.map_some, empty,
              Option.bind_some, true_and, and_self]
            exact (if_neg absent).symm
          · have present := given.mpr empty
            simp only [MessageFields.wire, WireMessage.tag, MessageFields.tag, optionalField, if_true, Option.map_some, empty,
              if_false, Option.bind_some, true_and, and_self]
            exact (if_pos present).symm
      | _ => rfl

theorem MessageFields.withCommand_bytes (cmdBuf : Nat → UInt8) {packed : List UInt8} (small : packed.length < 2 ^ 64) :
    (msg.withCommand cmdBuf packed).commandbytes.bytes = packed := by
  have written := load_write cmdBuf 0 packed
  rw [Nat.zero_add] at written
  change load (write cmdBuf 0 packed) 0 (UInt64.ofNat packed.length).toNat = packed
  rw [UInt64.toNat_ofNat_of_lt' small, written]
  rfl

/-- What is encoded of a message that is authenticated by a key. -/
theorem Authenticated.wire {mac : HmacSha1} {order : ByteOrder} {config : AuthConfig} {before after : MessageFields}
    (authenticated : Authenticated mac order config none before after) :
    after.wire = ⟨some .hmacAuth, some (some config.identity,
      some (mac.digest config.hmacKey.bytes (hashedCommand before.commandbytes.bytes))), none, before.wire.commandbytes⟩ := by
  obtain ⟨_, typed, noPin, auth, hmac, identified, identity, tag⟩ := authenticated.keyed rfl
  have typing : after.wire.authtype = some .hmacAuth := optionalField_eq_some.mpr ⟨authenticated.typed, typed⟩
  have pinning : after.wire.pinauth = none := by simp only [MessageFields.wire, noPin, Option.map_none]
  have command : after.wire.commandbytes = before.wire.commandbytes := by
    simp only [MessageFields.wire, authenticated.command.1, authenticated.command.2]
  have hmacs : after.wire.hmacauth = some (some config.identity, optionalField auth.hasHmac auth.hmac.bytes) := by
    simp only [MessageFields.wire, hmac, Option.map_some, optionalField, identified, identity, if_true]
  rw [← MessageFields.tag_wire] at tag
  cases wire : after.wire with
  | mk authtype hmacauth pinauth commandbytes =>
    rw [wire] at typing pinning command hmacs tag
    cases typing
    cases pinning
    cases hmacs
    rw [← command]
    cases present : optionalField auth.hasHmac auth.hmac.bytes with
    | none => simp [WireMessage.tag, present] at tag
    | some bytes =>
      simp only [WireMessage.tag, present] at tag
      split at tag
      · cases tag
      · cases tag
        rfl

/-- What an authenticated message is to those who receive it. -/
theorem Authenticated.arrives {request : SentRequest Command} {memory : Nat → UInt8}
    (authenticated : Authenticated lib.mac lib.order config request.op.pin
      (request.op.commanded lib memory request.seqId) msg) :
    request.Arrives lib config (.message (lib.messages.encode msg.wire).length request.op.value.length
      (lib.messages.encode msg.wire) request.op.value) := by
  have packed := request.op.message.withCommand_bytes memory (lib.size_t (request.seqId, request.op.command))
  have command : msg.wire.commandbytes = some (lib.commands.pack (request.seqId, request.op.command)) := by
    refine optionalField_eq_some.mpr ⟨authenticated.command.1, ?_⟩
    rw [authenticated.command.2]
    exact packed
  refine ⟨_, msg.wire, rfl, lib.messages.decode_encode msg.wire, command, fun order received key same given => ?_⟩
  have typed : received.wire.authtype = some msg.authtype := by
    rw [same]
    exact optionalField_eq_some.mpr ⟨authenticated.typed, rfl⟩
  cases pin : request.op.pin with
  | some p =>
    obtain ⟨_, other, _⟩ := authenticated.pinned p pin
    rw [kineticHMACValidate_other given]
    · rfl
    · rw [(optionalField_eq_some.mp typed).2, other]
      rintro ⟨⟩
  | none =>
    obtain ⟨⟨_, commanded⟩, _, _, _, _, _, _, tag⟩ := authenticated.keyed pin
    obtain ⟨has, bytes⟩ := optionalField_eq_some.mp ((congrArg WireMessage.commandbytes same).trans command)
    have present : received.commandbytes.Given := by
      rw [BinaryData.given_iff, bytes, ← packed]
      exact (BinaryData.given_iff _).mp commanded
    rw [kineticHMACValidate_eq given ⟨has, present⟩, bytes, ← MessageFields.tag_wire, same, MessageFields.tag_wire, tag]
    refine congrArg some (decide_eq_decide.mpr ?_)
    rw [Option.some.injEq, show (request.op.commanded lib memory request.seqId).commandbytes.bytes = _ from packed]
    exact (and_iff_right rfl).symm

end Arriving

/-- The requests that a session has sent, one behind the other and cut in any way, come out of the parser of the other side in
their order, each with its command and its value, and as valid as the key of the session makes it. -/
theorem requests_arrive {Command : Type} {lib : SendLibraries Command} {config : AuthConfig}
    {sent : List (SentRequest Command)}
    (runs : ∀ r ∈ sent, ∃ memory busSendRequest h status h',
      sendRequestInLock lib config memory busSendRequest r.seqId r.op h = .ok ((status, some r.msg), h'))
    (sized : ∀ r ∈ sent, r.op.value.length ≤ pduProtoMaxLen ∧
      r.msg.length ≤ pduHeaderLen + pduProtoMaxLen + r.op.value.length)
    {si : SocketInfo} (ready : si.state = .awaitingHeader) (fresh : si.accumulated = 0) {readBuf : Nat → UInt8}
    {chunks : List (List UInt8)} (bytes : chunks.flatten = sent.flatMap SentRequest.msg)
    (requested : Requested readBuf si pduHeaderLen chunks) :
    ∃ events si', feed readBuf si pduHeaderLen chunks = some (events, si', pduHeaderLen) ∧
      List.Forall₂ (SentRequest.Arrives lib config) sent events := by
  have framed (r : SentRequest Command) (member : r ∈ sent) : ∃ proto : List UInt8, r.msg = pdu proto r.op.value ∧
      proto ≠ [] ∧ r.Arrives lib config (.message proto.length r.op.value.length proto r.op.value) := by
    obtain ⟨memory, busSendRequest, h, status, h', run⟩ := runs r member
    rcases sendRequestInLock_cases lib config memory busSendRequest r.seqId r.op h with
      ⟨result, _, ended, _, ends⟩ | ⟨failed, _⟩
    · rw [run] at ended
      cases ended
      generalize same : (status, some r.msg) = result at ends
      cases ends with
      | memoryError => cases same
      | sslRequired => cases same
      | hmacRequired => cases same
      | sends message msg authenticated framed =>
        cases same
        have fits : r.op.value.length < 2 ^ 32 := Nat.lt_of_le_of_lt (sized r member).1 (by decide)
        refine ⟨_, framedMessage_pdu framed fits, lib.messages.encode_ne_nil _ ?_, authenticated.arrives⟩
        rw [Option.isSome_iff_exists]
        exact ⟨_, optionalField_eq_some.mpr ⟨authenticated.typed, rfl⟩⟩
    · rw [run] at failed
      cases failed
  choose! proto framed using framed
  let operations := sent.map fun r => ((fun _ => 0 : Nat → UInt8), (⟨proto r, r.op.value⟩ : OutgoingRequest (List UInt8)))
  have fits : ∀ o ∈ operations, Sized rawCodec o.2 := by
    intro o member
    obtain ⟨r, among, rfl⟩ := List.mem_map.mp member
    obtain ⟨whole, some, _⟩ := framed r among
    obtain ⟨payload, total⟩ := sized r among
    have length := pdu_length (proto r) r.op.value
    rw [whole, length] at total
    exact ⟨List.length_pos_iff.mpr some, by simp only [rawCodec, pduHeaderLen] at total ⊢; omega, payload⟩
  have stream : chunks.flatten =
      (operations.flatMap fun o => pdu (rawCodec.pack o.2.message) o.2.value) ++ [] := by
    rw [bytes, List.append_nil, List.flatMap_map]
    exact List.flatMap_congr fun r member => (framed r member).1
  have packs (proto : List UInt8) : (rawCodec.pack proto).length = rawCodec.getPackedSize proto := rfl
  obtain ⟨si', nextRead, fed, ⟨_, next⟩ | body⟩ := feed_stream packs fits ready fresh parse_nil stream requested
  · rw [next] at fed
    refine ⟨_, si', fed, ?_⟩
    rw [List.map_map, List.forall₂_map_right_iff, List.forall₂_same]
    exact fun r member => (framed r member).2.2
  · exact absurd body.long (by decide)

section Requests

/-- The commands of the two requests below. -/
inductive SampleCommand
  | noop
  | put

/-- The bytes of a `NOOP` for the connection 1, with the sequence 0. -/
def noopCommand : List UInt8 := [10, 8, 8, 0, 24, 1, 32, 0, 56, 30]

/-- The bytes of a `PUT` of the key `k` for that connection, with the sequence 1. -/
def putCommand : List UInt8 := [10, 8, 8, 0, 24, 1, 32, 1, 56, 4, 18, 5, 10, 3, 26, 1, 107]

/-- The key `asdfasdf`. -/
def sampleKey : BinaryData := ⟨some (store (fun _ => 0) [97, 115, 100, 102, 97, 115, 100, 102]), 8⟩

/-- The tags of these commands under that key. -/
def noopTag : List UInt8 := [40, 23, 62, 143, 150, 43, 145, 15, 25, 178, 237, 142, 2, 109, 121, 202, 10, 163, 118, 33]
def putTag : List UInt8 := [31, 119, 226, 243, 216, 131, 203, 124, 79, 4, 68, 113, 6, 226, 66, 27, 7, 128, 68, 151]

/-- HMAC as far as it is needed for these commands. -/
def sampleMac : HmacSha1 where
  digest key hashed :=
    if key = sampleKey.bytes ∧ hashed = hashedCommand noopCommand then noopTag
    else if key = sampleKey.bytes ∧ hashed = hashedCommand putCommand then putTag
    else List.replicate 20 0
  length key hashed := by
    split
    · rfl
    · split <;> rfl

/-- A message with a command and its tag, and its encoding. -/
def keyedWire (tag command : List UInt8) : WireMessage := ⟨some .hmacAuth, some (some 1, some tag), none, some command⟩
def keyedProto (tag command : List UInt8) : List UInt8 :=
  [32, 1, 42, 24, 8, 1, 18, 20] ++ tag ++ [58, UInt8.ofNat command.length] ++ command

instance AuthType.countable : Countable AuthType :=
  Function.Injective.countable (f := fun (t : AuthType) => match t with
    | .invalidAuthType => 0
    | .hmacAuth => 1
    | .pinAuth => 2
    | .unsolicitedStatus => 3) (by intro a b same; cases a <;> cases b <;> first | rfl | cases same)

instance WireMessage.countable : Countable WireMessage := by
  have bytes : Countable UInt8 := Function.Injective.countable (f := UInt8.toNat) fun _ _ => UInt8.toNat_inj.mp
  refine Function.Injective.countable (f := fun (w : WireMessage) => (w.authtype, w.hmacauth, w.pinauth, w.commandbytes)) ?_
  rintro ⟨_, _, _, _⟩ ⟨_, _, _, _⟩ same
  simpa using same

/-- The encoding as far as it is needed for these messages, and any other one for the others. -/
noncomputable def sampleMessages : MessageLibrary where
  encode w :=
    if w = keyedWire noopTag noopCommand then keyedProto noopTag noopCommand
    else if w = keyedWire putTag putCommand then keyedProto putTag putCommand
    else List.replicate ((exists_injective_nat WireMessage).choose w + 1) 255
  decode bytes :=
    if bytes = keyedProto noopTag noopCommand then some (keyedWire noopTag noopCommand)
    else if bytes = keyedProto putTag putCommand then some (keyedWire putTag putCommand)
    else Function.partialInv (exists_injective_nat WireMessage).choose (bytes.length - 1)
  decode_encode w := by
    have injective := (exists_injective_nat WireMessage).choose_spec
    by_cases noop : w = keyedWire noopTag noopCommand
    · rw [if_pos noop, if_pos rfl, noop]
    · by_cases put : w = keyedWire putTag putCommand
      · rw [if_neg noop, if_pos put, if_neg (by decide), if_pos rfl, put]
      · rw [if_neg noop, if_neg put, if_neg, if_neg]
        · rw [List.length_replicate, Nat.add_sub_cancel, Function.partialInv_left injective]
        · rw [List.replicate_succ]
          rintro ⟨⟩
        · rw [List.replicate_succ]
          rintro ⟨⟩
  encode_ne_nil w _ := by
    split
    · rintro ⟨⟩
    · split
      · rintro ⟨⟩
      · rw [List.replicate_succ]
        rintro ⟨⟩

noncomputable def sampleLibraries : SendLibraries SampleCommand where
  mac := sampleMac
  order := .little
  commands :=
    { getPackedSize := fun c => match c.2 with
        | .noop => 10
        | .put => 17
      pack := fun c => match c.2 with
        | .noop => noopCommand
        | .put => putCommand }
  messages := sampleMessages
  size_t c := by
    obtain ⟨_, command⟩ := c
    cases command with
    | noop => exact show 10 < 2 ^ 64 by decide
    | put => exact show 17 < 2 ^ 64 by decide

def sampleConfig : AuthConfig := ⟨false, 1, sampleKey⟩

def sampleOperation (command : SampleCommand) (value : List UInt8) : LockedOperation SampleCommand :=
  { sequence := kineticSequenceNotYetBound
    command := command
    value := value
    pin := none
    message := ⟨false, .hmacAuth, none, none, false, ⟨none, 0⟩⟩
    hmacData := fun _ => 0 }

/-- A `PUT` of three bytes is sent under a key. Its command and its buffer are freed. -/
theorem sendRequestInLock_served_put :
    ∃ msg h', sendRequestInLock sampleLibraries sampleConfig (fun _ => 0) (fun _ => true) 1 (sampleOperation .put [7, 8, 9])
        (.empty fun _ => true) = .ok ((.success, some msg), h') ∧
      h'.live = 0 ∧ msg = pdu (keyedProto putTag putCommand) [7, 8, 9] := by
  have encoded (message : MessageFields) (authenticated : Authenticated sampleLibraries.mac sampleLibraries.order sampleConfig
      (sampleOperation .put [7, 8, 9]).pin ((sampleOperation .put [7, 8, 9]).commanded sampleLibraries (fun _ => 0) 1) message) :
      sampleLibraries.messages.encode message.wire = keyedProto putTag putCommand := by
    rw [authenticated.wire]
    rfl
  obtain ⟨r, h', run⟩ : ∃ r h', sendRequestInLock sampleLibraries sampleConfig (fun _ => 0) (fun _ => true) 1
      (sampleOperation .put [7, 8, 9]) (.empty fun _ => true) = .ok ((.success, some r), h') := ⟨_, _, rfl⟩
  have served := sendRequestInLock_served sampleLibraries sampleConfig (fun _ => 0) (fun _ => true) 1
    (sampleOperation .put [7, 8, 9]) (by decide) (fun message authenticated => by rw [encoded message authenticated]; decide)
    (.empty fun _ => true)
  rw [run] at served
  obtain ⟨live, _, sent⟩ := served
  obtain ⟨message, authenticated, whole⟩ := sent r rfl
  exact ⟨r, h', run, live, by rw [whole, encoded message authenticated]; rfl⟩

/-- A `NOOP` and a `PUT` of three bytes are sent. The value arrives in a chunk of its own. -/
theorem requests_arrive_two :
    ∃ events si', feed (fun _ => 0) (resetTransfer .calloc).1 pduHeaderLen
        [[70, 0, 0, 0, 40, 0, 0, 0, 0], keyedProto noopTag noopCommand, [70, 0, 0, 0, 47, 0, 0, 0, 3],
          keyedProto putTag putCommand, [7, 8, 9]] = some (events, si', pduHeaderLen) ∧
      List.Forall₂ (SentRequest.Arrives sampleLibraries sampleConfig)
        [⟨sampleOperation .noop [], 0, [70, 0, 0, 0, 40, 0, 0, 0, 0] ++ keyedProto noopTag noopCommand⟩,
          ⟨sampleOperation .put [7, 8, 9], 1, [70, 0, 0, 0, 47, 0, 0, 0, 3] ++ keyedProto putTag putCommand ++ [7, 8, 9]⟩]
        events := by
  refine requests_arrive (fun r member => ?_) (fun r member => ?_) rfl rfl rfl (by decide +kernel)
  · rcases List.mem_cons.mp member with rfl | later
    · exact ⟨fun _ => 0, fun _ => true, .empty fun _ => true, .success, _, rfl⟩
    · cases List.mem_singleton.mp later
      exact ⟨fun _ => 0, fun _ => true, .empty fun _ => true, .success, _, rfl⟩
  · rcases List.mem_cons.mp member with rfl | later
    · decide +kernel
    · cases List.mem_singleton.mp later
      decide +kernel

end Requests

end Kinetic
