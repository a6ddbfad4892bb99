import Kinetic.Lib.Blocks
import Mathlib.Logic.Function.Basic

namespace Kinetic
open Blocks (Prog Held calloc free freeHeld Fault)

/-- `Command__GetLog__Utilization`. Of a `float` there are the bits. -/
structure ProtoUtilization where
  name : Option (List UInt8)
  value : UInt32

/-- `Command__GetLog__Temperature`. -/
structure ProtoTemperature where
  name : Option (List UInt8)
  current : UInt32
  minimum : UInt32
  maximum : UInt32
  target : UInt32

/-- `Command__GetLog__Capacity`. -/
structure ProtoCapacity where
  nominalcapacityinbytes : UInt64
  portionfull : UInt32

/-- `Command__GetLog__Configuration__Interface`. -/
structure ProtoInterface where
  name : Option (List UInt8)
  hasMac : Bool
  mac : List UInt8
  hasIpv4address : Bool
  ipv4address : List UInt8
  hasIpv6address : Bool
  ipv6address : List UInt8

/-- The strings of a configuration, in the order in which they are copied. -/
inductive ConfigurationString
  | vendor
  | model
  | version
  | compilationDate
  | sourceHash
  | protocolVersion
  | protocolCompilationDate
  | protocolSourceHash
  deriving DecidableEq

def configurationStrings : List ConfigurationString :=
  [.vendor, .model, .version, .compilationDate, .sourceHash, .protocolVersion, .protocolCompilationDate, .protocolSourceHash]

/-- `Command__GetLog__Configuration`. -/
structure ProtoConfiguration where
  string : ConfigurationString → Option (List UInt8)
  hasSerialnumber : Bool
  serialnumber : List UInt8
  hasWorldwidename : Bool
  worldwidename : List UInt8
  interface : List ProtoInterface
  hasPort : Bool
  port : Int32
  hasTlsport : Bool
  tlsport : Int32

/-- `Command__GetLog__Statistics`. -/
structure ProtoStatistics where
  messagetype : Int32
  hasCount : Bool
  count : UInt64
  hasBytes : Bool
  bytes : UInt64

/-- `Command__GetLog__Limits`. -/
structure ProtoLimits where
  maxkeysize : UInt32
  maxvaluesize : UInt32
  maxversionsize : UInt32
  maxtagsize : UInt32
  maxconnections : UInt32
  maxoutstandingreadrequests : UInt32
  maxoutstandingwriterequests : UInt32
  maxmessagesize : UInt32
  maxkeyrangecount : UInt32
  maxidentitycount : UInt32
  maxpinsize : UInt32

/-- `Command__GetLog__Device`. -/
structure ProtoDevice where
  hasName : Bool
  name : List UInt8

/-- `Command__GetLog`. -/
structure ProtoGetLog where
  utilizations : List ProtoUtilization
  temperatures : List ProtoTemperature
  capacity : Option ProtoCapacity
  configuration : Option ProtoConfiguration
  statistics : List ProtoStatistics
  messages : List UInt8
  limits : Option ProtoLimits
  device : Option ProtoDevice

/-- A string in memory, or `NULL`. -/
abbrev LogString := Option (Held (List UInt8))

/-- A `ByteArray` whose data are a block of their own. -/
structure LogBytes where
  data : Option (Held (List UInt8))
  len : Nat

structure KineticLogInfoUtilization where
  name : LogString
  value : UInt32

structure KineticLogInfoTemperature where
  name : LogString
  current : UInt32
  minimum : UInt32
  maximum : UInt32
  target : UInt32

structure KineticLogInfoCapacity where
  nominalCapacityInBytes : UInt64
  portionFull : UInt32

structure KineticLogInfoInterface where
  name : LogString
  MAC : LogBytes
  ipv4Address : LogBytes
  ipv6Address : LogBytes

structure KineticLogInfoConfiguration where
  string : ConfigurationString → LogString
  serialNumber : LogBytes
  worldWideName : LogBytes
  interfaces : Option (Held (List KineticLogInfoInterface))
  port : Int32
  tlsPort : Int32

structure KineticLogInfoStatistics where
  messageType : Int32
  count : UInt64
  bytes : UInt64

structure KineticLogInfoLimits where
  maxKeySize : UInt32
  maxValueSize : UInt32
  maxVersionSize : UInt32
  maxTagSize : UInt32
  maxConnections : UInt32
  maxOutstandingReadRequests : UInt32
  maxOutstandingWriteRequests : UInt32
  maxMessageSize : UInt32
  maxKeyRangeCount : UInt32
  maxIdentityCount : UInt32
  maxPinSize : UInt32

structure KineticLogInfoDevice where
  name : LogBytes

/-- `KineticLogInfo`, whose numbers are the lengths of its lists. -/
structure KineticLogInfo where
  utilizations : Option (Held (List KineticLogInfoUtilization))
  temperatures : Option (Held (List KineticLogInfoTemperature))
  capacity : Option (Held KineticLogInfoCapacity)
  configuration : Option (Held KineticLogInfoConfiguration)
  statistics : Option (Held (List KineticLogInfoStatistics))
  messages : LogBytes
  limits : Option (Held KineticLogInfoLimits)
  device : Option (Held KineticLogInfoDevice)

/-- A block with a value that is filled in once it is there. -/
def callocWith (value : α) : Prog (Option (Held α)) := do
  match ← calloc with
  | none => return none
  | some block => return some ⟨block, value⟩

/-- `copy_str`. -/
def copyStr : Option (List UInt8) → Prog LogString
  | none => return none
  | some s => callocWith s

/-- `copy_to_byte_array`. -/
def copyToByteArray (bytes : List UInt8) : Prog LogBytes := do
  let data ← callocWith bytes
  return ⟨data, bytes.length⟩

/-- The copy of a field that a message need not have, and whether there was memory for it. -/
def copyOptionalBytes (has : Bool) (bytes : List UInt8) : Prog (LogBytes × Bool) :=
  if has then do
    let copy ← copyToByteArray bytes
    return (copy, copy.data.isSome)
  else return (⟨none, 0⟩, true)

/-- The loop of `KineticLogInfo_GetUtilizations`: the entries that have a name, and whether these are all. -/
def copyUtilizations : List ProtoUtilization → Prog (List KineticLogInfoUtilization × Bool)
  | [] => return ([], true)
  | utilization :: rest => do
    match ← copyStr utilization.name with
    | none => return ([], false)
    | some name =>
      let (entries, complete) ← copyUtilizations rest
      return (⟨some name, utilization.value⟩ :: entries, complete)

def freeNames : List LogString → Prog Unit
  | [] => return ()
  | name :: rest => do
    freeHeld name
    freeNames rest

def kineticLogInfoGetUtilizations (getLog : ProtoGetLog) : Prog (Option (Held (List KineticLogInfoUtilization))) := do
  match ← calloc with
  | none => return none
  | some block =>
    let (entries, complete) ← copyUtilizations getLog.utilizations
    if complete then return some ⟨block, entries⟩
    else
      freeNames (entries.map (·.name))
      free block
      return none

/-- The loop of `KineticLogInfo_GetTemperatures`, which does not look whether a name is copied. -/
def copyTemperatures : List ProtoTemperature → Prog (List KineticLogInfoTemperature)
  | [] => return []
  | temperature :: rest => do
    let name ← copyStr temperature.name
    let entries ← copyTemperatures rest
    return ⟨name, temperature.current, temperature.minimum, temperature.maximum, temperature.target⟩ :: entries

def kineticLogInfoGetTemperatures (getLog : ProtoGetLog) : Prog (Option (Held (List KineticLogInfoTemperature))) := do
  match ← calloc with
  | none => return none
  | some block =>
    let entries ← copyTemperatures getLog.temperatures
    return some ⟨block, entries⟩

def kineticLogInfoGetCapacity (getLog : ProtoGetLog) : Prog (Option (Held KineticLogInfoCapacity)) :=
  callocWith (match getLog.capacity with
    | none => ⟨0, 0⟩
    | some capacity => ⟨capacity.nominalcapacityinbytes, capacity.portionfull⟩)

/-- The copies of the strings that are still to do, as far as they go. -/
def copyStrings (gcfg : ProtoConfiguration) : List ConfigurationString → (ConfigurationString → LogString) →
    Prog ((ConfigurationString → LogString) × Bool)
  | [], string => return (string, true)
  | s :: rest, string => do
    match ← copyStr (gcfg.string s) with
    | none => return (string, false)
    | some copy => copyStrings gcfg rest (Function.update string s (some copy))

/-- The body of the loop over the interfaces. -/
def copyInterface (inf : ProtoInterface) : Prog (KineticLogInfoInterface × Bool) := do
  match ← copyStr inf.name with
  | none => return (⟨none, ⟨none, 0⟩, ⟨none, 0⟩, ⟨none, 0⟩⟩, false)
  | some name =>
    let (mac, ok) ← copyOptionalBytes inf.hasMac inf.mac
    if !ok then return (⟨some name, mac, ⟨none, 0⟩, ⟨none, 0⟩⟩, false)
    else
      let (ipv4, ok) ← copyOptionalBytes inf.hasIpv4address inf.ipv4address
      if !ok then return (⟨some name, mac, ipv4, ⟨none, 0⟩⟩, false)
      else
        let (ipv6, ok) ← copyOptionalBytes inf.hasIpv6address inf.ipv6address
        return (⟨some name, mac, ipv4, ipv6⟩, ok)

/-- The loop over the interfaces. Those after one that fails stay empty. -/
def copyInterfaces : List ProtoInterface → Prog (List KineticLogInfoInterface × Bool)
  | [] => return ([], true)
  | inf :: rest => do
    let (entry, ok) ← copyInterface inf
    if ok then
      let (entries, complete) ← copyInterfaces rest
      return (entry :: entries, complete)
    else return ([entry], false)

/-- What `KineticLogInfo_GetConfiguration` writes into its block, up to the end or to the first failure. -/
def fillConfiguration (gcfg : ProtoConfiguration) : Prog (KineticLogInfoConfiguration × Bool) := do
  let (serialNumber, ok) ← copyOptionalBytes gcfg.hasSerialnumber gcfg.serialnumber
  if !ok then return (⟨fun _ => none, serialNumber, ⟨none, 0⟩, none, 0, 0⟩, false)
  else
    let (worldWideName, ok) ← copyOptionalBytes gcfg.hasWorldwidename gcfg.worldwidename
    if !ok then return (⟨fun _ => none, serialNumber, worldWideName, none, 0, 0⟩, false)
    else
      let (string, ok) ← copyStrings gcfg configurationStrings fun _ => none
      if !ok then return (⟨string, serialNumber, worldWideName, none, 0, 0⟩, false)
      else
        let port := if gcfg.hasPort then gcfg.port else 0
        let tlsPort := if gcfg.hasTlsport then gcfg.tlsport else 0
        match ← calloc with
        | none => return (⟨string, serialNumber, worldWideName, none, port, tlsPort⟩, false)
        | some block =>
          let (entries, ok) ← copyInterfaces gcfg.interface
          return (⟨string, serialNumber, worldWideName, some ⟨block, entries⟩, port, tlsPort⟩, ok)

def freeInterfaces : List KineticLogInfoInterface → Prog Unit
  | [] => return ()
  | inf :: rest => do
    freeHeld inf.name
    freeHeld inf.MAC.data
    freeHeld inf.ipv4Address.data
    freeHeld inf.ipv6Address.data
    freeInterfaces rest

/-- The interfaces of a configuration, and their array. -/
def freeInterfaceArray : Option (Held (List KineticLogInfoInterface)) → Prog Unit
  | none => return ()
  | some interfaces => do
    freeInterfaces interfaces.value
    free interfaces.block

def kineticLogInfoGetConfiguration (gcfg : ProtoConfiguration) : Prog (Option (Held KineticLogInfoConfiguration)) := do
  match ← calloc with
  | none => return none
  | some block =>
    let (cfg, ok) ← fillConfiguration gcfg
    if ok then return some ⟨block, cfg⟩
    else
      freeHeld cfg.serialNumber.data
      freeHeld cfg.worldWideName.data
      freeNames (configurationStrings.map cfg.string)
      freeInterfaceArray cfg.interfaces
      free block
      return none

def kineticLogInfoGetStatistics (getLog : ProtoGetLog) : Prog (Option (Held (List KineticLogInfoStatistics))) :=
  callocWith (getLog.statistics.map fun statistics =>
    ⟨statistics.messagetype, if statistics.hasCount then statistics.count else 0,
      if statistics.hasBytes then statistics.bytes else 0⟩)

def kineticLogInfoGetMessages (getLog : ProtoGetLog) : Prog LogBytes := copyToByteArray getLog.messages

def kineticLogInfoGetLimits (limits : ProtoLimits) : Prog (Option (Held KineticLogInfoLimits)) :=
  callocWith
    { maxKeySize := limits.maxkeysize
      maxValueSize := limits.maxvaluesize
      maxVersionSize := limits.maxversionsize
      maxTagSize := limits.maxtagsize
      maxConnections := limits.maxconnections
      maxOutstandingReadRequests := limits.maxoutstandingreadrequests
      maxOutstandingWriteRequests := limits.maxoutstandingwriterequests
      maxMessageSize := limits.maxmessagesize
      maxKeyRangeCount := limits.maxkeyrangecount
      maxIdentityCount := limits.maxidentitycount
      maxPinSize := limits.maxpinsize }

/-- Whether the name of the device is copied is not looked at. -/
def kineticLogInfoGetDevice (getLog : ProtoGetLog) : Prog (Option (Held KineticLogInfoDevice)) := do
  match ← calloc with
  | none => return none
  | some block =>
    match getLog.device with
    | none => return some ⟨block, ⟨none, 0⟩⟩
    | some device =>
      let (name, _) ← copyOptionalBytes device.hasName device.name
      return some ⟨block, ⟨name⟩⟩

/-- A part that is read only where the message has it, and whether nothing failed. -/
def ifPresent (part : Option α) (get : α → Prog (Option (Held β))) : Prog (Option (Held β) × Bool) :=
  match part with
  | none => return (none, true)
  | some part => do
    let r ← get part
    return (r, r.isSome)

/-- The local variables of `KineticLogInfo_Create`. `messages` has no value before it is assigned. -/
structure LogInfoLocals where
  info : Nat
  utilizations : Option (Held (List KineticLogInfoUtilization)) := none
  temperatures : Option (Held (List KineticLogInfoTemperature)) := none
  capacity : Option (Held KineticLogInfoCapacity) := none
  configuration : Option (Held KineticLogInfoConfiguration) := none
  statistics : Option (Held (List KineticLogInfoStatistics)) := none
  limits : Option (Held KineticLogInfoLimits) := none
  device : Option (Held KineticLogInfoDevice) := none
  messages : Option LogBytes := none

/-- The end of `KineticLogInfo_Create` at `cleanup`. -/
def LogInfoLocals.cleanup (locals : LogInfoLocals) : Prog (Option (Held KineticLogInfo)) := do
  free locals.info
  freeHeld locals.utilizations
  freeHeld locals.temperatures
  freeHeld locals.capacity
  freeHeld locals.configuration
  freeHeld locals.statistics
  freeHeld locals.limits
  freeHeld locals.device
  match locals.messages with
  | none => throw Fault.undefined
  | some messages =>
    freeHeld messages.data
    return none

def kineticLogInfoCreate (getLog : ProtoGetLog) : Prog (Option (Held KineticLogInfo)) := do
  match ← calloc with
  | none => return none
  | some info =>
    match ← kineticLogInfoGetUtilizations getLog with
    | none => LogInfoLocals.cleanup { info }
    | some utilizations =>
      match ← kineticLogInfoGetCapacity getLog with
      | none => LogInfoLocals.cleanup { info, utilizations }
      | some capacity =>
        match ← kineticLogInfoGetTemperatures getLog with
        | none => LogInfoLocals.cleanup { info, utilizations, capacity }
        | some temperatures =>
          let (configuration, ok) ← ifPresent getLog.configuration kineticLogInfoGetConfiguration
          if !ok then LogInfoLocals.cleanup { info, utilizations, capacity, temperatures }
          else
            match ← kineticLogInfoGetStatistics getLog with
            | none => LogInfoLocals.cleanup { info, utilizations, capacity, temperatures, configuration }
            | some statistics =>
              let messages ← kineticLogInfoGetMessages getLog
              if messages.data.isNone then
                LogInfoLocals.cleanup { info, utilizations, capacity, temperatures, configuration, statistics, messages }
              else
                let (limits, ok) ← ifPresent getLog.limits kineticLogInfoGetLimits
                if !ok then
                  LogInfoLocals.cleanup { info, utilizations, capacity, temperatures, configuration, statistics, messages }
                else
                  match ← kineticLogInfoGetDevice getLog with
                  | none =>
                    LogInfoLocals.cleanup
                      { info, utilizations, capacity, temperatures, configuration, statistics, messages, limits }
                  | some device =>
                    return some ⟨info,
                      { utilizations, temperatures, capacity, configuration, statistics, messages, limits, device }⟩

/-- The branches of `KineticLogInfo_Free`. -/
def freeUtilizations : Option (Held (List KineticLogInfoUtilization)) → Prog Unit
  | none => return ()
  | some utilizations => do
    freeNames (utilizations.value.map (·.name))
    free utilizations.block

def freeTemperatures : Option (Held (List KineticLogInfoTemperature)) → Prog Unit
  | none => return ()
  | some temperatures => do
    freeNames (temperatures.value.map (·.name))
    free temperatures.block

def freeConfiguration : Option (Held KineticLogInfoConfiguration) → Prog Unit
  | none => return ()
  | some cfg => do
    freeNames (configurationStrings.map cfg.value.string)
    freeHeld cfg.value.serialNumber.data
    freeHeld cfg.value.worldWideName.data
    freeInterfaceArray cfg.value.interfaces
    free cfg.block

def freeDevice : Option (Held KineticLogInfoDevice) → Prog Unit
  | none => return ()
  | some device => do
    freeHeld device.value.name.data
    free device.block

/-- `KineticLogInfo_Free`. -/
def kineticLogInfoFree : Option (Held KineticLogInfo) → Prog Unit
  | none => return ()
  | some kdi => do
    freeUtilizations kdi.value.utilizations
    freeTemperatures kdi.value.temperatures
    freeHeld kdi.value.capacity
    freeConfiguration kdi.value.configuration
    freeHeld kdi.value.statistics
    freeHeld kdi.value.limits
    freeDevice kdi.value.device
    freeHeld kdi.value.messages.data
    free kdi.block

end Kinetic
