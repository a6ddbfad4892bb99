import Kinetic.Client.LogInfo
import Mathlib.Algebra.Order.Group.Multiset
import Mathlib.Tactic.Abel

namespace Kinetic
open Blocks (Held Owns Attempts freeHeld heldBlocks)

/-- The blocks of the strings of an array. -/
def nameBlocks : List LogString → Multiset Nat
  | [] => 0
  | name :: rest => heldBlocks name + nameBlocks rest

def interfaceBlocks : List KineticLogInfoInterface → Multiset Nat
  | [] => 0
  | inf :: rest =>
    heldBlocks inf.name + (heldBlocks inf.MAC.data +
      (heldBlocks inf.ipv4Address.data + (heldBlocks inf.ipv6Address.data + interfaceBlocks rest)))

def interfaceArrayBlocks : Option (Held (List KineticLogInfoInterface)) → Multiset Nat
  | none => 0
  | some interfaces => interfaceBlocks interfaces.value + {interfaces.block}

/-- The blocks that a configuration points to. -/
def KineticLogInfoConfiguration.inner (cfg : KineticLogInfoConfiguration) : Multiset Nat :=
  nameBlocks (configurationStrings.map cfg.string) +
    (heldBlocks cfg.serialNumber.data + (heldBlocks cfg.worldWideName.data + interfaceArrayBlocks cfg.interfaces))

/-- What an info points to, by its parts. -/
def utilizationNames : Option (Held (List KineticLogInfoUtilization)) → Multiset Nat
  | none => 0
  | some utilizations => nameBlocks (utilizations.value.map (·.name))

def temperatureNames : Option (Held (List KineticLogInfoTemperature)) → Multiset Nat
  | none => 0
  | some temperatures => nameBlocks (temperatures.value.map (·.name))

def configurationInner : Option (Held KineticLogInfoConfiguration) → Multiset Nat
  | none => 0
  | some cfg => cfg.value.inner

def deviceName : Option (Held KineticLogInfoDevice) → Multiset Nat
  | none => 0
  | some device => heldBlocks device.value.name.data

def KineticLogInfo.inner (kdi : KineticLogInfo) : Multiset Nat :=
  utilizationNames kdi.utilizations + heldBlocks kdi.utilizations +
    (temperatureNames kdi.temperatures + heldBlocks kdi.temperatures +
      (heldBlocks kdi.capacity + (configurationInner kdi.configuration + heldBlocks kdi.configuration +
        (heldBlocks kdi.statistics + (heldBlocks kdi.limits +
          (deviceName kdi.device + heldBlocks kdi.device + heldBlocks kdi.messages.data))))))

section Free
variable {grants : Nat → Bool}

theorem freeNames_owns (names : List LogString) : Owns grants (nameBlocks names) (freeNames names) fun _ own => own = 0 := by
  induction names with
  | nil => exact .pure rfl
  | cons name rest ih => exact (Owns.freeHeld name).release ih

theorem freeInterfaces_owns (interfaces : List KineticLogInfoInterface) :
    Owns grants (interfaceBlocks interfaces) (freeInterfaces interfaces) fun _ own => own = 0 := by
  induction interfaces with
  | nil => exact .pure rfl
  | cons inf rest ih =>
    refine (Owns.freeHeld inf.name).release ((Owns.freeHeld inf.MAC.data).release ?_)
    exact (Owns.freeHeld inf.ipv4Address.data).release ((Owns.freeHeld inf.ipv6Address.data).release ih)

theorem freeInterfaceArray_owns (interfaces : Option (Held (List KineticLogInfoInterface))) :
    Owns grants (interfaceArrayBlocks interfaces) (freeInterfaceArray interfaces) fun _ own => own = 0 := by
  cases interfaces with
  | none => exact .pure rfl
  | some interfaces => exact (freeInterfaces_owns interfaces.value).release (Owns.free interfaces.block)

theorem freeUtilizations_owns (utilizations : Option (Held (List KineticLogInfoUtilization))) :
    Owns grants (utilizationNames utilizations + heldBlocks utilizations) (freeUtilizations utilizations)
      fun _ own => own = 0 := by
  cases utilizations with
  | none => exact .pure rfl
  | some utilizations => exact (freeNames_owns _).release (Owns.free utilizations.block)

theorem freeTemperatures_owns (temperatures : Option (Held (List KineticLogInfoTemperature))) :
    Owns grants (temperatureNames temperatures + heldBlocks temperatures) (freeTemperatures temperatures)
      fun _ own => own = 0 := by
  cases temperatures with
  | none => exact .pure rfl
  | some temperatures => exact (freeNames_owns _).release (Owns.free temperatures.block)

theorem freeConfiguration_owns (configuration : Option (Held KineticLogInfoConfiguration)) :
    Owns grants (configurationInner configuration + heldBlocks configuration) (freeConfiguration configuration)
      fun _ own => own = 0 := by
  cases configuration with
  | none => exact .pure rfl
  | some cfg =>
    simp only [configurationInner, KineticLogInfoConfiguration.inner, heldBlocks, Multiset.add_assoc]
    refine (freeNames_owns _).release ((Owns.freeHeld _).release ((Owns.freeHeld _).release ?_))
    exact (freeInterfaceArray_owns _).release (Owns.free cfg.block)

theorem freeDevice_owns (device : Option (Held KineticLogInfoDevice)) :
    Owns grants (deviceName device + heldBlocks device) (freeDevice device) fun _ own => own = 0 := by
  cases device with
  | none => exact .pure rfl
  | some device => exact (Owns.freeHeld _).release (Owns.free device.block)

theorem logInfoFree_owns (kdi : Held KineticLogInfo) :
    Owns grants (kdi.value.inner + {kdi.block}) (kineticLogInfoFree (some kdi)) fun _ own => own = 0 := by
  simp only [KineticLogInfo.inner, Multiset.add_assoc]
  rw [← Multiset.add_assoc (utilizationNames _), ← Multiset.add_assoc (temperatureNames _),
    ← Multiset.add_assoc (configurationInner _), ← Multiset.add_assoc (deviceName _)]
  refine (freeUtilizations_owns _).release ((freeTemperatures_owns _).release ((Owns.freeHeld _).release ?_))
  refine (freeConfiguration_owns _).release ((Owns.freeHeld _).release ((Owns.freeHeld _).release ?_))
  exact (freeDevice_owns _).release ((Owns.freeHeld _).release (Owns.free kdi.block))

end Free

/-- A copy of bytes that a message may have. -/
structure LogBytes.Copies (b : LogBytes) (has : Bool) (bytes : List UInt8) : Prop where
  data : b.data.map Held.value = if has then some bytes else none
  len : b.len = if has then bytes.length else 0

structure KineticLogInfoInterface.Mirrors (inf : KineticLogInfoInterface) (proto : ProtoInterface) : Prop where
  named : proto.name.isSome
  name : inf.name.map Held.value = proto.name
  MAC : inf.MAC.Copies proto.hasMac proto.mac
  ipv4Address : inf.ipv4Address.Copies proto.hasIpv4address proto.ipv4address
  ipv6Address : inf.ipv6Address.Copies proto.hasIpv6address proto.ipv6address

structure KineticLogInfoConfiguration.Mirrors (cfg : KineticLogInfoConfiguration) (proto : ProtoConfiguration) : Prop where
  named : ∀ s, (proto.string s).isSome
  string : ∀ s, (cfg.string s).map Held.value = proto.string s
  serialNumber : cfg.serialNumber.Copies proto.hasSerialnumber proto.serialnumber
  worldWideName : cfg.worldWideName.Copies proto.hasWorldwidename proto.worldwidename
  interfaces : ∃ entries, cfg.interfaces = some entries ∧
    List.Forall₂ KineticLogInfoInterface.Mirrors entries.value proto.interface
  port : cfg.port = if proto.hasPort then proto.port else 0
  tlsPort : cfg.tlsPort = if proto.hasTlsport then proto.tlsport else 0

structure KineticLogInfoUtilization.Mirrors (entry : KineticLogInfoUtilization) (proto : ProtoUtilization) : Prop where
  named : proto.name.isSome
  name : entry.name.map Held.value = proto.name
  value : entry.value = proto.value

/-- A request for memory is refused. -/
def Refused (grants : Nat → Bool) : Prop := ∃ n, grants n = false

/-- The name may be missing when memory was refused. -/
structure KineticLogInfoTemperature.Mirrors (grants : Nat → Bool) (entry : KineticLogInfoTemperature)
    (proto : ProtoTemperature) : Prop where
  name : entry.name.map Held.value = proto.name ∨ entry.name = none ∧ Refused grants
  current : entry.current = proto.current
  minimum : entry.minimum = proto.minimum
  maximum : entry.maximum = proto.maximum
  target : entry.target = proto.target

structure KineticLogInfoCapacity.Mirrors (capacity : KineticLogInfoCapacity) (proto : Option ProtoCapacity) : Prop where
  nominalCapacityInBytes : capacity.nominalCapacityInBytes = proto.elim 0 (·.nominalcapacityinbytes)
  portionFull : capacity.portionFull = proto.elim 0 (·.portionfull)

structure KineticLogInfoStatistics.Mirrors (entry : KineticLogInfoStatistics) (proto : ProtoStatistics) : Prop where
  messageType : entry.messageType = proto.messagetype
  count : entry.count = if proto.hasCount then proto.count else 0
  bytes : entry.bytes = if proto.hasBytes then proto.bytes else 0

structure KineticLogInfoLimits.Mirrors (limits : KineticLogInfoLimits) (proto : ProtoLimits) : Prop where
  maxKeySize : limits.maxKeySize = proto.maxkeysize
  maxValueSize : limits.maxValueSize = proto.maxvaluesize
  maxVersionSize : limits.maxVersionSize = proto.maxversionsize
  maxTagSize : limits.maxTagSize = proto.maxtagsize
  maxConnections : limits.maxConnections = proto.maxconnections
  maxOutstandingReadRequests : limits.maxOutstandingReadRequests = proto.maxoutstandingreadrequests
  maxOutstandingWriteRequests : limits.maxOutstandingWriteRequests = proto.maxoutstandingwriterequests
  maxMessageSize : limits.maxMessageSize = proto.maxmessagesize
  maxKeyRangeCount : limits.maxKeyRangeCount = proto.maxkeyrangecount
  maxIdentityCount : limits.maxIdentityCount = proto.maxidentitycount
  maxPinSize : limits.maxPinSize = proto.maxpinsize

/-- The length of the name is there also when the name itself is not. -/
structure KineticLogInfoDevice.Mirrors (grants : Nat → Bool) (device : KineticLogInfoDevice) (has : Bool)
    (name : List UInt8) : Prop where
  len : device.name.len = if has then name.length else 0
  data : device.name.Copies has name ∨ device.name.data = none ∧ Refused grants

structure KineticLogInfo.Mirrors (grants : Nat → Bool) (info : KineticLogInfo) (getLog : ProtoGetLog) : Prop where
  utilizations : ∃ p, info.utilizations = some p ∧
    List.Forall₂ KineticLogInfoUtilization.Mirrors p.value getLog.utilizations
  temperatures : ∃ p, info.temperatures = some p ∧
    List.Forall₂ (KineticLogInfoTemperature.Mirrors grants) p.value getLog.temperatures
  capacity : ∃ p, info.capacity = some p ∧ p.value.Mirrors getLog.capacity
  configuration : Option.Rel (fun p proto => p.value.Mirrors proto) info.configuration getLog.configuration
  statistics : ∃ p, info.statistics = some p ∧ List.Forall₂ KineticLogInfoStatistics.Mirrors p.value getLog.statistics
  messages : info.messages.Copies true getLog.messages
  limits : Option.Rel (fun p proto => p.value.Mirrors proto) info.limits getLog.limits
  device : ∃ p, info.device = some p ∧
    p.value.Mirrors grants (getLog.device.elim false (·.hasName)) (getLog.device.elim [] (·.name))

/-- The message has all the strings that must be there. -/
structure ProtoConfiguration.Named (proto : ProtoConfiguration) : Prop where
  string : ∀ s, (proto.string s).isSome
  interface : ∀ inf ∈ proto.interface, inf.name.isSome

structure ProtoGetLog.Named (getLog : ProtoGetLog) : Prop where
  utilizations : ∀ utilization ∈ getLog.utilizations, utilization.name.isSome
  configuration : ∀ proto, getLog.configuration = some proto → proto.Named

/-- What a part holds when there is memory for it, and what follows when the attempt to get it fails. -/
def Filled {β : Type} (good : β → Prop) (bad : Prop) : Option (Held β) → Prop
  | some p => good p.value
  | none => bad

section Copies
variable {grants : Nat → Bool} {α : Type}

theorem callocWith_fills (good : α → Prop) {value : α} (holds : good value) :
    Owns grants 0 (callocWith value) fun r own => own = heldBlocks r ∧
      Filled good (Refused grants) r := by
  unfold callocWith
  refine Owns.calloc.bind fun r own given => ?_
  rcases given with ⟨block, rfl, rfl⟩ | ⟨rfl, rfl, refused⟩
  · exact .pure ⟨rfl, holds⟩
  · exact .pure ⟨rfl, refused⟩

theorem copyStr_owns (s : Option (List UInt8)) :
    Owns grants 0 (copyStr s) fun r own => own = heldBlocks r ∧
      match r with
      | some p => s = some p.value
      | none => Refused grants ∨ s = none := by
  cases s with
  | none => exact .pure ⟨rfl, .inr rfl⟩
  | some s =>
    refine (callocWith_fills (fun t => some s = some t) rfl).mono fun r own ⟨same, copied⟩ => ⟨same, ?_⟩
    cases r with
    | some p => exact copied
    | none => exact .inl copied

theorem copyToByteArray_owns (bytes : List UInt8) :
    Owns grants 0 (copyToByteArray bytes) fun r own => own = heldBlocks r.data ∧
      match r.data with
      | some _ => r.Copies true bytes
      | none => r = ⟨none, bytes.length⟩ ∧ Refused grants := by
  unfold copyToByteArray
  refine (callocWith_fills (fun t => some t = some bytes) rfl).bind fun r own ⟨same, copied⟩ => ?_
  cases r with
  | some p => exact .pure ⟨same, copied, rfl⟩
  | none => exact .pure ⟨same, rfl, copied⟩

theorem copyOptionalBytes_owns (has : Bool) (bytes : List UInt8) :
    Owns grants 0 (copyOptionalBytes has bytes) fun r own => own = heldBlocks r.1.data ∧
      match r.2 with
      | true => r.1.Copies has bytes
      | false => (has = true ∧ r.1 = ⟨none, bytes.length⟩) ∧ Refused grants := by
  cases has with
  | false => exact .pure ⟨rfl, rfl, rfl⟩
  | true =>
    unfold copyOptionalBytes
    refine (copyToByteArray_owns bytes).bind fun r own ⟨same, copied⟩ => ?_
    obtain ⟨data, len⟩ := r
    cases data with
    | some p => exact .pure ⟨same, copied⟩
    | none => exact .pure ⟨same, ⟨rfl, copied.1⟩, copied.2⟩

theorem copyUtilizations_owns (utilizations : List ProtoUtilization) :
    Owns grants 0 (copyUtilizations utilizations) fun r own => own = nameBlocks (r.1.map (·.name)) ∧
      match r.2 with
      | true => List.Forall₂ KineticLogInfoUtilization.Mirrors r.1 utilizations
      | false => Refused grants ∨ ∃ utilization ∈ utilizations, utilization.name = none := by
  induction utilizations with
  | nil => exact .pure ⟨rfl, .nil⟩
  | cons utilization rest ih =>
    unfold copyUtilizations
    refine (copyStr_owns utilization.name).bind fun r own ⟨same, copied⟩ => ?_
    subst same
    cases r with
    | none => exact .pure ⟨rfl, copied.imp_right fun absent => ⟨_, List.mem_cons_self, absent⟩⟩
    | some name =>
      refine ih.beside fun r own ⟨same, shown⟩ => ?_
      subst same
      obtain ⟨entries, complete⟩ := r
      refine .pure ⟨Multiset.add_comm _ _, ?_⟩
      cases complete with
      | true => exact .cons ⟨by rw [copied]; rfl, copied.symm, rfl⟩ shown
      | false => exact shown.imp_right fun ⟨one, member, absent⟩ => ⟨one, List.mem_cons_of_mem _ member, absent⟩

theorem getUtilizations_owns (getLog : ProtoGetLog) :
    Owns grants 0 (kineticLogInfoGetUtilizations getLog) fun r own => own = utilizationNames r + heldBlocks r ∧
      Filled (fun entries => List.Forall₂ KineticLogInfoUtilization.Mirrors entries getLog.utilizations)
        (Refused grants ∨ ∃ utilization ∈ getLog.utilizations, utilization.name = none) r := by
  unfold kineticLogInfoGetUtilizations
  refine Owns.calloc.bind fun r own given => ?_
  rcases given with ⟨block, rfl, rfl⟩ | ⟨rfl, rfl, refused⟩
  · refine (copyUtilizations_owns getLog.utilizations).beside fun r own ⟨same, shown⟩ => ?_
    subst same
    obtain ⟨entries, complete⟩ := r
    cases complete with
    | true => exact .pure ⟨rfl, shown⟩
    | false => exact (freeNames_owns _).release ((Owns.free block).bind fun _ own gone => .pure ⟨gone, shown⟩)
  · exact .pure ⟨rfl, .inl refused⟩

theorem copyTemperatures_owns (temperatures : List ProtoTemperature) :
    Owns grants 0 (copyTemperatures temperatures) fun r own => own = nameBlocks (r.map (·.name)) ∧
      List.Forall₂ (KineticLogInfoTemperature.Mirrors grants) r temperatures := by
  induction temperatures with
  | nil => exact .pure ⟨rfl, .nil⟩
  | cons temperature rest ih =>
    unfold copyTemperatures
    refine (copyStr_owns temperature.name).bind fun name own ⟨same, copied⟩ => ?_
    subst same
    refine ih.beside fun entries own ⟨same, shown⟩ => ?_
    subst same
    refine .pure ⟨Multiset.add_comm _ _, .cons ⟨?_, rfl, rfl, rfl, rfl⟩ shown⟩
    cases name with
    | some p => exact .inl copied.symm
    | none => exact copied.symm.imp Eq.symm fun refused => ⟨rfl, refused⟩

theorem getTemperatures_owns (getLog : ProtoGetLog) :
    Owns grants 0 (kineticLogInfoGetTemperatures getLog) fun r own => own = temperatureNames r + heldBlocks r ∧
      Filled (fun entries => List.Forall₂ (KineticLogInfoTemperature.Mirrors grants) entries getLog.temperatures)
        (Refused grants) r := by
  unfold kineticLogInfoGetTemperatures
  refine Owns.calloc.bind fun r own given => ?_
  rcases given with ⟨block, rfl, rfl⟩ | ⟨rfl, rfl, refused⟩
  · refine (copyTemperatures_owns getLog.temperatures).beside fun entries own ⟨same, shown⟩ => ?_
    subst same
    exact .pure ⟨rfl, shown⟩
  · exact .pure ⟨rfl, refused⟩

/-- The blocks of the strings of a configuration. -/
theorem stringBlocks_update {string : ConfigurationString → LogString} {s : ConfigurationString} (pending : string s = none)
    (p : LogString) :
    nameBlocks (configurationStrings.map (Function.update string s p)) =
      heldBlocks p + nameBlocks (configurationStrings.map string) := by
  cases s <;> simp [configurationStrings, nameBlocks, Function.update, pending, heldBlocks] <;> abel

theorem copyStrings_owns (gcfg : ProtoConfiguration) {todo : List ConfigurationString} (once : todo.Nodup)
    (string : ConfigurationString → LogString) (pending : ∀ s ∈ todo, string s = none) :
    Owns grants (nameBlocks (configurationStrings.map string)) (copyStrings gcfg todo string)
      fun r own => own = nameBlocks (configurationStrings.map r.1) ∧
        match r.2 with
        | true => (∀ s ∉ todo, r.1 s = string s) ∧
            ∀ s ∈ todo, (gcfg.string s).isSome ∧ (r.1 s).map Held.value = gcfg.string s
        | false => Refused grants ∨ ∃ s, gcfg.string s = none := by
  induction todo generalizing string with
  | nil =>
    refine .pure ⟨rfl, fun _ _ => rfl, fun s member => ?_⟩
    cases member
  | cons s rest ih =>
    obtain ⟨fresh, once⟩ := List.nodup_cons.mp once
    unfold copyStrings
    refine (copyStr_owns (gcfg.string s)).beside fun r own ⟨same, copied⟩ => ?_
    subst same
    cases r with
    | none =>
      rw [heldBlocks, Multiset.zero_add]
      exact .pure ⟨rfl, copied.imp_right fun absent => ⟨s, absent⟩⟩
    | some p =>
      rw [← stringBlocks_update (pending s List.mem_cons_self) (some p)]
      have later : ∀ t ∈ rest, Function.update string s (some p) t = none := fun t member => by
        have other : t ≠ s := fun same => fresh (same ▸ member)
        rw [Function.update_of_ne other]
        exact pending t (List.mem_cons_of_mem _ member)
      refine (ih once _ later).mono fun r own ⟨same, shown⟩ => ⟨same, ?_⟩
      obtain ⟨after, complete⟩ := r
      cases complete with
      | false => exact shown
      | true =>
        obtain ⟨kept, filled⟩ := shown
        refine ⟨fun t outside => ?_, fun t member => ?_⟩
        · have other : t ≠ s := fun same => outside (same ▸ List.mem_cons_self)
          rw [kept t fun inside => outside (List.mem_cons_of_mem _ inside), Function.update_of_ne other]
        · rcases List.mem_cons.mp member with rfl | member
          · rw [kept t fresh, Function.update_self, copied]
            exact ⟨rfl, rfl⟩
          · exact filled t member

theorem configurationStrings_complete : configurationStrings.Nodup ∧ ∀ s, s ∈ configurationStrings := by
  refine ⟨by decide, fun s => ?_⟩
  cases s <;> decide

theorem copyInterface_owns (inf : ProtoInterface) :
    Owns grants 0 (copyInterface inf) fun r own => own = interfaceBlocks [r.1] ∧
      match r.2 with
      | true => r.1.Mirrors inf
      | false => Refused grants ∨ inf.name = none := by
  unfold copyInterface
  refine (copyStr_owns inf.name).bind fun r own ⟨same, name⟩ => ?_
  subst same
  cases r with
  | none => exact .pure ⟨rfl, name⟩
  | some p =>
    refine (copyOptionalBytes_owns inf.hasMac inf.mac).beside fun r own ⟨same, mac⟩ => ?_
    subst same
    obtain ⟨MAC, ok⟩ := r
    cases ok with
    | false => exact .pure ⟨by simp only [interfaceBlocks, heldBlocks]; abel, .inl mac.2⟩
    | true =>
      refine (copyOptionalBytes_owns inf.hasIpv4address inf.ipv4address).beside fun r own ⟨same, ipv4⟩ => ?_
      subst same
      obtain ⟨ipv4Address, ok⟩ := r
      cases ok with
      | false => exact .pure ⟨by simp only [interfaceBlocks, heldBlocks]; abel, .inl ipv4.2⟩
      | true =>
        refine (copyOptionalBytes_owns inf.hasIpv6address inf.ipv6address).beside fun r own ⟨same, ipv6⟩ => ?_
        subst same
        obtain ⟨ipv6Address, ok⟩ := r
        refine .pure ⟨by simp only [interfaceBlocks]; abel, ?_⟩
        cases ok with
        | false => exact .inl ipv6.2
        | true => exact ⟨by rw [name]; rfl, name.symm, mac, ipv4, ipv6⟩

theorem copyInterfaces_owns (interface : List ProtoInterface) :
    Owns grants 0 (copyInterfaces interface) fun r own => own = interfaceBlocks r.1 ∧
      match r.2 with
      | true => List.Forall₂ KineticLogInfoInterface.Mirrors r.1 interface
      | false => Refused grants ∨ ∃ inf ∈ interface, inf.name = none := by
  induction interface with
  | nil => exact .pure ⟨rfl, .nil⟩
  | cons inf rest ih =>
    unfold copyInterfaces
    refine (copyInterface_owns inf).bind fun r own ⟨same, first⟩ => ?_
    subst same
    obtain ⟨entry, ok⟩ := r
    cases ok with
    | false => exact .pure ⟨rfl, first.imp_right fun absent => ⟨inf, List.mem_cons_self, absent⟩⟩
    | true =>
      refine ih.beside fun r own ⟨same, later⟩ => ?_
      subst same
      obtain ⟨entries, complete⟩ := r
      refine .pure ⟨by simp only [interfaceBlocks]; abel, ?_⟩
      cases complete with
      | false => exact later.imp_right fun ⟨one, member, absent⟩ => ⟨one, List.mem_cons_of_mem _ member, absent⟩
      | true => exact .cons first later

theorem fillConfiguration_owns (gcfg : ProtoConfiguration) :
    Owns grants 0 (fillConfiguration gcfg) fun r own => own = r.1.inner ∧
      match r.2 with
      | true => r.1.Mirrors gcfg
      | false => Refused grants ∨ ¬gcfg.Named := by
  have none_blocks : nameBlocks (configurationStrings.map fun _ => none) = 0 := rfl
  obtain ⟨once, complete⟩ := configurationStrings_complete
  unfold fillConfiguration
  refine (copyOptionalBytes_owns gcfg.hasSerialnumber gcfg.serialnumber).bind fun r own ⟨same, serial⟩ => ?_
  subst same
  obtain ⟨serialNumber, ok⟩ := r
  cases ok with
  | false =>
    refine .pure ⟨?_, .inl serial.2⟩
    simp only [KineticLogInfoConfiguration.inner, none_blocks, heldBlocks, interfaceArrayBlocks]
    abel
  | true =>
    refine (copyOptionalBytes_owns gcfg.hasWorldwidename gcfg.worldwidename).beside fun r own ⟨same, world⟩ => ?_
    subst same
    obtain ⟨worldWideName, ok⟩ := r
    cases ok with
    | false =>
      refine .pure ⟨?_, .inl world.2⟩
      simp only [KineticLogInfoConfiguration.inner, none_blocks, interfaceArrayBlocks]
      abel
    | true =>
      have strings := @copyStrings_owns grants gcfg _ once (fun _ => none) fun _ _ => rfl
      rw [none_blocks] at strings
      refine strings.beside fun r own ⟨same, copied⟩ => ?_
      subst same
      obtain ⟨string, ok⟩ := r
      cases ok with
      | false =>
        refine .pure ⟨?_, copied.imp_right fun ⟨s, absent⟩ named => ?_⟩
        · simp only [KineticLogInfoConfiguration.inner, interfaceArrayBlocks]
          abel
        · have present := named.string s
          rw [absent] at present
          cases present
      | true =>
        refine Owns.calloc.beside fun r own given => ?_
        rcases given with ⟨block, rfl, rfl⟩ | ⟨rfl, rfl, refused⟩
        · refine (copyInterfaces_owns gcfg.interface).beside fun r own ⟨same, interfaces⟩ => ?_
          subst same
          obtain ⟨entries, ok⟩ := r
          refine .pure ⟨?_, ?_⟩
          · simp only [KineticLogInfoConfiguration.inner, interfaceArrayBlocks]
            abel
          · cases ok with
            | false =>
              refine interfaces.imp_right fun ⟨inf, member, absent⟩ named => ?_
              have present := named.interface inf member
              rw [absent] at present
              cases present
            | true =>
              exact
                { named := fun s => (copied.2 s (complete s)).1
                  string := fun s => (copied.2 s (complete s)).2
                  serialNumber := serial
                  worldWideName := world
                  interfaces := ⟨_, rfl, interfaces⟩
                  port := rfl
                  tlsPort := rfl }
        · refine .pure ⟨?_, .inl refused⟩
          simp only [KineticLogInfoConfiguration.inner, interfaceArrayBlocks]
          abel

theorem getConfiguration_owns (gcfg : ProtoConfiguration) :
    Owns grants 0 (kineticLogInfoGetConfiguration gcfg) fun r own => own = configurationInner r + heldBlocks r ∧
      Filled (fun cfg => cfg.Mirrors gcfg) (Refused grants ∨ ¬gcfg.Named) r := by
  unfold kineticLogInfoGetConfiguration
  refine Owns.calloc.bind fun r own given => ?_
  rcases given with ⟨block, rfl, rfl⟩ | ⟨rfl, rfl, refused⟩
  · refine (fillConfiguration_owns gcfg).beside fun r own ⟨same, shown⟩ => ?_
    subst same
    obtain ⟨cfg, ok⟩ := r
    cases ok with
    | true => exact .pure ⟨rfl, shown⟩
    | false =>
      have order : cfg.inner + {block} = heldBlocks cfg.serialNumber.data + (heldBlocks cfg.worldWideName.data +
          (nameBlocks (configurationStrings.map cfg.string) + (interfaceArrayBlocks cfg.interfaces + {block}))) := by
        simp only [KineticLogInfoConfiguration.inner]
        abel
      rw [order]
      refine (Owns.freeHeld _).release ((Owns.freeHeld _).release ((freeNames_owns _).release ?_))
      exact (freeInterfaceArray_owns _).release ((Owns.free block).bind fun _ own gone => .pure ⟨gone, shown⟩)
  · exact .pure ⟨rfl, .inl refused⟩

theorem getCapacity_owns (getLog : ProtoGetLog) :
    Owns grants 0 (kineticLogInfoGetCapacity getLog) fun r own => own = heldBlocks r ∧
      Filled (fun capacity => capacity.Mirrors getLog.capacity) (Refused grants) r := by
  refine callocWith_fills _ ?_
  cases getLog.capacity with
  | none => exact ⟨rfl, rfl⟩
  | some capacity => exact ⟨rfl, rfl⟩

theorem getStatistics_owns (getLog : ProtoGetLog) :
    Owns grants 0 (kineticLogInfoGetStatistics getLog) fun r own => own = heldBlocks r ∧
      Filled (fun entries => List.Forall₂ KineticLogInfoStatistics.Mirrors entries getLog.statistics) (Refused grants) r := by
  refine callocWith_fills _ ?_
  rw [List.forall₂_map_left_iff, List.forall₂_same]
  exact fun _ _ => ⟨rfl, rfl, rfl⟩

theorem getLimits_owns (proto : ProtoLimits) :
    Owns grants 0 (kineticLogInfoGetLimits proto) fun r own => own = heldBlocks r ∧
      Filled (fun limits => limits.Mirrors proto) (Refused grants) r :=
  callocWith_fills _ ⟨rfl, rfl, rfl, rfl, rfl, rfl, rfl, rfl, rfl, rfl, rfl⟩

theorem getDevice_owns (getLog : ProtoGetLog) :
    Owns grants 0 (kineticLogInfoGetDevice getLog) fun r own => own = deviceName r + heldBlocks r ∧
      Filled (fun device => device.Mirrors grants (getLog.device.elim false (·.hasName)) (getLog.device.elim [] (·.name)))
        (Refused grants) r := by
  unfold kineticLogInfoGetDevice
  refine Owns.calloc.bind fun r own given => ?_
  rcases given with ⟨block, rfl, rfl⟩ | ⟨rfl, rfl, refused⟩
  · cases getLog.device with
    | none => exact .pure ⟨rfl, rfl, .inl ⟨rfl, rfl⟩⟩
    | some device =>
      refine (copyOptionalBytes_owns device.hasName device.name).beside fun r own ⟨same, copied⟩ => ?_
      subst same
      obtain ⟨name, ok⟩ := r
      refine .pure ⟨rfl, ?_⟩
      cases ok with
      | true => exact ⟨copied.len, .inl copied⟩
      | false =>
        obtain ⟨⟨present, rest⟩, refused⟩ := copied
        cases rest
        exact ⟨(if_pos present).symm, .inr ⟨rfl, refused⟩⟩
  · exact .pure ⟨rfl, refused⟩

/-- A part that the message need not have, with the blocks that `inner` says it points to. -/
theorem ifPresent_owns {β γ : Type} {part : Option β} {get : β → Blocks.Prog (Option (Held γ))}
    (inner : Option (Held γ) → Multiset Nat) (good : γ → β → Prop) (bad : β → Prop) (empty : inner none = 0)
    (gets : ∀ p, Owns grants 0 (get p) fun r own => own = inner r + heldBlocks r ∧ Filled (good · p) (bad p) r) :
    Owns grants 0 (ifPresent part get) fun r own => own = inner r.1 + heldBlocks r.1 ∧
      match r.2 with
      | true => Option.Rel (fun q p => good q.value p) r.1 part
      | false => r.1 = none ∧ ∃ p, part = some p ∧ bad p := by
  cases part with
  | none => exact .pure ⟨by rw [empty]; rfl, .none⟩
  | some p =>
    refine (gets p).bind fun r own ⟨same, shown⟩ => ?_
    cases r with
    | none => exact .pure ⟨same, rfl, p, rfl, shown⟩
    | some q => exact .pure ⟨same, .some shown⟩

end Copies

/-- The blocks that are freed at `cleanup`. -/
def LogInfoLocals.blocks (locals : LogInfoLocals) : Multiset Nat :=
  {locals.info} + (heldBlocks locals.utilizations + (heldBlocks locals.temperatures + (heldBlocks locals.capacity +
    (heldBlocks locals.configuration + (heldBlocks locals.statistics + (heldBlocks locals.limits +
      (heldBlocks locals.device + locals.messages.elim 0 fun messages => heldBlocks messages.data)))))))

section Create
variable {grants : Nat → Bool}

theorem cleanup_attempts (locals : LogInfoLocals) (lost : Multiset Nat) {faulty : Prop}
    {post : Option (Held KineticLogInfo) → Multiset Nat → Prop} (early : locals.messages = none → faulty)
    (late : locals.messages ≠ none → post none lost) :
    Attempts .undefined grants (locals.blocks + lost) locals.cleanup faulty post := by
  simp only [LogInfoLocals.blocks, Multiset.add_assoc]
  unfold LogInfoLocals.cleanup
  refine (Owns.free _).releaseBefore ((Owns.freeHeld _).releaseBefore ((Owns.freeHeld _).releaseBefore ?_))
  refine (Owns.freeHeld _).releaseBefore ((Owns.freeHeld _).releaseBefore ((Owns.freeHeld _).releaseBefore ?_))
  refine (Owns.freeHeld _).releaseBefore ((Owns.freeHeld _).releaseBefore ?_)
  cases found : locals.messages with
  | none => exact .fails (early found)
  | some messages =>
    refine (Owns.freeHeld _).releaseBefore ?_
    refine Owns.attempts (.pure (late ?_))
    rw [found]
    exact Option.some_ne_none messages

/-- Before `messages` is assigned the end at `cleanup` is undefined. -/
theorem cleanup_early (locals : LogInfoLocals) (lost : Multiset Nat) {own : Multiset Nat} {faulty : Prop}
    {post : Option (Held KineticLogInfo) → Multiset Nat → Prop} (split : own = locals.blocks + lost)
    (early : locals.messages = none) (fault : faulty) : Attempts .undefined grants own locals.cleanup faulty post := by
  rw [split]
  exact cleanup_attempts locals lost (fun _ => fault) fun late => absurd early late

/-- After that it leaves the blocks that `cleanup` does not free. -/
theorem cleanup_late (locals : LogInfoLocals) (lost : Multiset Nat) {own : Multiset Nat} {faulty : Prop}
    {post : Option (Held KineticLogInfo) → Multiset Nat → Prop} (split : own = locals.blocks + lost)
    (late : locals.messages ≠ none) (leaves : post none lost) : Attempts .undefined grants own locals.cleanup faulty post := by
  rw [split]
  exact cleanup_attempts locals lost (fun early => absurd early late) fun _ => leaves

/-- What the parts of an info point to, and what is lost when the attempt to build it fails behind them: the names of the
utilizations and temperatures, and the strings, byte arrays and interfaces of the configuration. -/
def LostStrings (grants : Nat → Bool) (getLog : ProtoGetLog) (own : Multiset Nat) : Prop :=
  ∃ utilizations temperatures configuration,
    List.Forall₂ KineticLogInfoUtilization.Mirrors utilizations.value getLog.utilizations ∧
    List.Forall₂ (KineticLogInfoTemperature.Mirrors grants) temperatures.value getLog.temperatures ∧
    Option.Rel (fun p proto => p.value.Mirrors proto) configuration getLog.configuration ∧
    own = utilizationNames (some utilizations) + (temperatureNames (some temperatures) + configurationInner configuration)

/-- What a call of `KineticLogInfo_Create` leaves. -/
def Created (grants : Nat → Bool) (getLog : ProtoGetLog) : Option (Held KineticLogInfo) → Multiset Nat → Prop
  | some info, own => own = info.value.inner + {info.block} ∧ info.value.Mirrors grants getLog
  | none, own => Refused grants ∧ (own = 0 ∨ LostStrings grants getLog own)

theorem create_attempts (getLog : ProtoGetLog) :
    Attempts .undefined grants 0 (kineticLogInfoCreate getLog) (Refused grants ∨ ¬getLog.Named) (Created grants getLog) := by
  unfold kineticLogInfoCreate
  refine Owns.calloc.before fun r own given => ?_
  rcases given with ⟨info, rfl, rfl⟩ | ⟨rfl, rfl, refused⟩
  swap
  · exact Owns.attempts (.pure ⟨refused, .inl rfl⟩)
  refine (getUtilizations_owns getLog).beforeBeside fun r own ⟨same, utilizationsShown⟩ => ?_
  subst same
  cases r with
  | none =>
    refine cleanup_early _ 0 ?_ rfl (utilizationsShown.imp_right fun ⟨utilization, member, absent⟩ named => ?_)
    · simp only [LogInfoLocals.blocks, utilizationNames, heldBlocks, Option.elim]
      abel
    · have present := named.utilizations utilization member
      rw [absent] at present
      cases present
  | some utilizations =>
  refine (getCapacity_owns getLog).beforeBeside fun r own ⟨same, capacityShown⟩ => ?_
  subst same
  cases r with
  | none =>
    refine cleanup_early _ (utilizationNames (some utilizations)) ?_ rfl (.inl capacityShown)
    simp only [LogInfoLocals.blocks, heldBlocks, Option.elim]
    abel
  | some capacity =>
  refine (getTemperatures_owns getLog).beforeBeside fun r own ⟨same, temperaturesShown⟩ => ?_
  subst same
  cases r with
  | none =>
    refine cleanup_early _ (utilizationNames (some utilizations)) ?_ rfl (.inl temperaturesShown)
    simp only [LogInfoLocals.blocks, temperatureNames, heldBlocks, Option.elim]
    abel
  | some temperatures =>
  refine (ifPresent_owns configurationInner (fun cfg proto => cfg.Mirrors proto) (fun gcfg => Refused grants ∨ ¬gcfg.Named)
    rfl getConfiguration_owns).beforeBeside fun r own ⟨same, configurationShown⟩ => ?_
  subst same
  obtain ⟨configuration, ok⟩ := r
  cases ok with
  | false =>
    obtain ⟨absent, gcfg, found, failed⟩ := configurationShown
    cases absent
    refine cleanup_early _ (utilizationNames (some utilizations) + temperatureNames (some temperatures)) ?_ rfl
      (failed.imp_right fun unnamed named => unnamed (named.configuration gcfg found))
    simp only [LogInfoLocals.blocks, configurationInner, heldBlocks, Option.elim]
    abel
  | true =>
  refine (getStatistics_owns getLog).beforeBeside fun r own ⟨same, statisticsShown⟩ => ?_
  subst same
  have strings (lost : Multiset Nat) (split : lost = utilizationNames (some utilizations) +
      (temperatureNames (some temperatures) + configurationInner configuration)) : LostStrings grants getLog lost :=
    ⟨utilizations, temperatures, configuration, utilizationsShown, temperaturesShown, configurationShown, split⟩
  cases r with
  | none =>
    refine cleanup_early _ (utilizationNames (some utilizations) +
      (temperatureNames (some temperatures) + configurationInner configuration)) ?_ rfl (.inl statisticsShown)
    simp only [LogInfoLocals.blocks, heldBlocks, Option.elim]
    abel
  | some statistics =>
  refine (copyToByteArray_owns getLog.messages).beforeBeside fun messages own ⟨same, messagesShown⟩ => ?_
  subst same
  obtain ⟨data, len⟩ := messages
  cases data with
  | none =>
    refine cleanup_late _ _ ?_ (Option.some_ne_none _) ⟨messagesShown.2, .inr (strings _ rfl)⟩
    simp only [LogInfoLocals.blocks, heldBlocks, Option.elim]
    abel
  | some messages =>
  refine (ifPresent_owns (fun _ => 0) (fun limits proto => limits.Mirrors proto) (fun _ => Refused grants) rfl
    fun proto => ?_).beforeBeside fun r own ⟨same, limitsShown⟩ => ?_
  · exact (getLimits_owns proto).mono fun r own ⟨same, shown⟩ => ⟨by rw [same, Multiset.zero_add], shown⟩
  subst same
  obtain ⟨limits, ok⟩ := r
  cases ok with
  | false =>
    obtain ⟨absent, _, _, refused⟩ := limitsShown
    cases absent
    refine cleanup_late _ _ ?_ (Option.some_ne_none _) ⟨refused, .inr (strings _ rfl)⟩
    simp only [LogInfoLocals.blocks, heldBlocks, Option.elim]
    abel
  | true =>
  refine (getDevice_owns getLog).beforeBeside fun r own ⟨same, deviceShown⟩ => ?_
  subst same
  cases r with
  | none =>
    refine cleanup_late _ _ ?_ (Option.some_ne_none _) ⟨deviceShown, .inr (strings _ rfl)⟩
    simp only [LogInfoLocals.blocks, deviceName, heldBlocks, Option.elim]
    abel
  | some device =>
    refine Owns.attempts (.pure ⟨?_, ?_⟩)
    · simp only [KineticLogInfo.inner, heldBlocks]
      abel
    · exact
        { utilizations := ⟨_, rfl, utilizationsShown⟩
          temperatures := ⟨_, rfl, temperaturesShown⟩
          capacity := ⟨_, rfl, capacityShown⟩
          configuration := configurationShown
          statistics := ⟨_, rfl, statisticsShown⟩
          messages := messagesShown
          limits := limitsShown
          device := ⟨_, rfl, deviceShown⟩ }

theorem mirrored_of_mem {β γ : Type} {R : β → γ → Prop} {entries : List β} {protos : List γ}
    (shown : List.Forall₂ R entries protos) {proto : γ} (member : proto ∈ protos) : ∃ entry, R entry proto := by
  induction shown with
  | nil => cases member
  | cons first rest ih =>
    rcases List.mem_cons.mp member with rfl | member
    · exact ⟨_, first⟩
    · exact ih member

/-- What an info is built from has all its strings. -/
theorem KineticLogInfo.Mirrors.named {info : KineticLogInfo} {getLog : ProtoGetLog} (mirrors : info.Mirrors grants getLog) :
    getLog.Named := by
  refine ⟨fun utilization member => ?_, fun proto found => ?_⟩
  · obtain ⟨_, _, shown⟩ := mirrors.utilizations
    obtain ⟨_, entry⟩ := mirrored_of_mem shown member
    exact entry.named
  · have shown := mirrors.configuration
    generalize info.configuration = configuration at shown
    rw [found] at shown
    cases shown with
    | some cfg =>
      refine ⟨cfg.named, fun inf member => ?_⟩
      obtain ⟨_, _, interfaces⟩ := cfg.interfaces
      obtain ⟨_, entry⟩ := mirrored_of_mem interfaces member
      exact entry.named

/-- A call of `KineticLogInfo_Create` ends in one of three ways. An info that it returns shows the whole message and is given
back by `KineticLogInfo_Free` block by block. It returns `NULL` only when memory was refused, and has then lost nothing or all
the names, strings, byte arrays and interfaces that it had copied. Otherwise it has read `messages` before that was assigned,
which happens whenever a string is missing that must be there. -/
theorem kineticLogInfoCreate_memory (getLog : ProtoGetLog) (h : Blocks.Heap) :
    match kineticLogInfoCreate getLog h with
    | .ok (some info, h') => h'.live = info.value.inner + {info.block} + h.live ∧ info.value.Mirrors h.grants getLog ∧
        getLog.Named ∧ ∃ h'', kineticLogInfoFree (some info) h' = .ok ((), h'') ∧ h''.live = h.live
    | .ok (none, h') => Refused h.grants ∧ ∃ lost, h'.live = lost + h.live ∧ (lost = 0 ∨ LostStrings h.grants getLog lost)
    | .error fault => fault = .undefined ∧ (Refused h.grants ∨ ¬getLog.Named) := by
  rcases create_attempts getLog h h.live rfl (by rw [Multiset.zero_add]) with
    ⟨r, h', own, run, same, live, created⟩ | ⟨run, faulty⟩
  · rw [run]
    cases r with
    | none => exact ⟨created.1, own, live, created.2⟩
    | some info =>
      obtain ⟨split, mirrors⟩ := created
      subst split
      obtain ⟨_, h'', _, freed, _, left, gone⟩ := logInfoFree_owns info h' h.live same live
      rw [gone, Multiset.zero_add] at left
      exact ⟨live, mirrors, mirrors.named, h'', freed, left⟩
  · rw [run]
    exact ⟨rfl, faulty⟩

end Create

end Kinetic
