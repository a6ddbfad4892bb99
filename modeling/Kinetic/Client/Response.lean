import Kinetic.Client.ByteBuffer
import Kinetic.Session.Outcomes
import Kinetic.Session.Unpack

namespace Kinetic

inductive ProtoStatusCode
  | invalidStatusCode
  | notAttempted
  | success
  | hmacFailure
  | notAuthorized
  | versionFailure
  | internalError
  | headerRequired
  | notFound
  | versionMismatch
  | serviceBusy
  | expired
  | dataError
  | permDataError
  | remoteConnectionError
  | noSpace
  | noSuchHmacAlgorithm
  | invalidRequest
  | nestedOperationErrors
  | deviceLocked
  | deviceAlreadyUnlocked
  | connectionTerminated
  deriving DecidableEq

def kineticProtoStatusCodeToKineticStatus : ProtoStatusCode → KineticStatus
  | .success => .success
  | .remoteConnectionError => .connectionError
  | .serviceBusy => .deviceBusy
  | .versionFailure => .clusterMismatch
  | .versionMismatch => .versionMismatch
  | .notFound => .notFound
  | .hmacFailure => .hmacFailure
  | .invalidRequest => .invalidRequest
  | .notAttempted => .invalidRequest
  | .headerRequired => .invalidRequest
  | .noSuchHmacAlgorithm => .invalidRequest
  | .dataError => .dataError
  | .permDataError => .dataError
  | .internalError => .operationFailed
  | .expired => .operationFailed
  | .noSpace => .operationFailed
  | .nestedOperationErrors => .operationFailed
  | .notAuthorized => .notAuthorized
  | .deviceLocked => .deviceLocked
  | _ => .invalid

/-- `KineticAlgorithm`. A zeroed entry has `unset`, which is none of the enumerators. -/
inductive KineticAlgorithm
  | invalid
  | unset
  | sha1
  | sha2
  | sha3
  | crc32
  | crc64
  deriving DecidableEq

inductive ProtoAlgorithm
  | invalidAlgorithm
  | sha1
  | sha2
  | sha3
  | crc32
  | crc64
  deriving DecidableEq

def kineticAlgorithmFromProto : ProtoAlgorithm → KineticAlgorithm
  | .sha1 => .sha1
  | .sha2 => .sha2
  | .sha3 => .sha3
  | .crc32 => .crc32
  | .crc64 => .crc64
  | .invalidAlgorithm => .invalid

/-- A field of type `bytes` that the protobuf library has read. Only for an empty one may it leave the pointer `NULL`. -/
structure ProtoBytes extends BinaryData where
  filled : data = none → len = 0

/-- What the client reads of a `KeyValue`. A field that is not there is `none`. -/
structure ProtoKeyValue where
  key : Option ProtoBytes
  dbVersion : Option ProtoBytes
  tag : Option ProtoBytes
  algorithm : Option ProtoAlgorithm

/-- What it reads of a `Range` in a response. -/
structure ProtoRange where
  keys : List ProtoBytes

structure ProtoBody where
  keyValue : Option ProtoKeyValue
  range : Option ProtoRange

structure ProtoStatus where
  code : Option ProtoStatusCode

structure ResponseHeader extends ProtoHeader where
  connectionId : Option Int

/-- A `Command` as far as the client reads it. -/
structure ResponseCommand where
  header : Option ResponseHeader
  status : Option ProtoStatus
  body : Option ProtoBody

/-- `KineticResponse`, whose `value` has room for `valueLength` bytes, a `uint32_t`. -/
structure KineticResponse where
  header : KineticPDUHeader
  proto : Option ProtoMessage
  command : Option ResponseCommand
  value : Nat → UInt8
  small : header.valueLength < 2 ^ 32

namespace KineticResponse

/-- The value bytes, as `KineticCallbacks_Get` passes them on. -/
def valueArray (response : KineticResponse) : BinaryData := ⟨some response.value, UInt64.ofNat response.header.valueLength⟩

/-- `KineticResponse_GetStatus`. -/
def getStatus (response : KineticResponse) : KineticStatus :=
  match (response.command.bind ResponseCommand.status).bind ProtoStatus.code with
  | some code => kineticProtoStatusCodeToKineticStatus code
  | none => .invalid

/-- `KineticResponse_GetConnectionID`, which asserts that there is a message. -/
def getConnectionId (response : KineticResponse) : Option Int := do
  let proto ← response.proto
  if proto.authType = some .unsolicitedStatus then
    match (response.command.bind ResponseCommand.header).bind ResponseHeader.connectionId with
    | some id => some id
    | none => some 0
  else some 0

/-- `KineticResponse_GetKeyValue`. -/
def getKeyValue (response : KineticResponse) : Option ProtoKeyValue :=
  (response.command.bind ResponseCommand.body).bind ProtoBody.keyValue

/-- `KineticResponse_GetKeyRange`, which also looks for the message. -/
def getKeyRange (response : KineticResponse) : Option ProtoRange := do
  let _ ← response.proto
  (response.command.bind ResponseCommand.body).bind ProtoBody.range

theorem valueArray_len (response : KineticResponse) : response.valueArray.len.toNat = response.header.valueLength := by
  exact UInt64.toNat_ofNat_of_lt' (Nat.lt_trans response.small (by decide))

end KineticResponse

end Kinetic
