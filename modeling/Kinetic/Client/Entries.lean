import Kinetic.Client.Response

namespace Kinetic

/-- `KineticSynchronization`, with the `unset` of a zeroed entry. -/
inductive KineticSynchronization
  | invalid
  | unset
  | writeThrough
  | writeBack
  | flush
  deriving DecidableEq

structure KineticEntry where
  key : ByteBuffer
  value : ByteBuffer
  dbVersion : ByteBuffer
  tag : ByteBuffer
  algorithm : KineticAlgorithm
  newVersion : ByteBuffer
  metadataOnly : Bool
  force : Bool
  computeTag : Bool
  synchronization : KineticSynchronization

/-- What `build_get_command` does to the entry. -/
def buildGetCommand (entry : KineticEntry) : KineticEntry :=
  if entry.value.isNull then entry else { entry with value := entry.value.reset }

/-- One of the three parts of `Copy_Com__Seagate__Kinetic__Proto__Command__KeyValue_to_KineticEntry` that are alike, for a
buffer of the entry and the field it gets. The result is true when the field does not fit. -/
def copyField (buffer : ByteBuffer) (field : Option ProtoBytes) : Option (Bool × ByteBuffer) :=
  let buffer := buffer.reset
  match field with
  | none => some (false, buffer)
  | some bytes =>
    if bytes.len > 0 then
      if buffer.isNull || buffer.len < bytes.len then some (true, { buffer with bytesUsed := bytes.len })
      else (buffer.append bytes.data bytes.len).map fun res => (false, res.2)
    else some (false, buffer)

/-- `Copy_Com__Seagate__Kinetic__Proto__Command__KeyValue_to_KineticEntry`. -/
def copyKeyValueToEntry (keyValue : ProtoKeyValue) (entry : KineticEntry) : Option (Bool × KineticEntry) := do
  let (dbOverflow, dbVersion) ← copyField entry.dbVersion keyValue.dbVersion
  let (keyOverflow, key) ← copyField entry.key keyValue.key
  let (tagOverflow, tag) ← copyField entry.tag keyValue.tag
  let algorithm := (keyValue.algorithm.map kineticAlgorithmFromProto).getD entry.algorithm
  some (!(dbOverflow || keyOverflow || tagOverflow),
    { entry with dbVersion := dbVersion, key := key, tag := tag, algorithm := algorithm })

/-- The last part of `KineticCallbacks_Get`, which does not look at what `ByteBuffer_AppendArray` returns. -/
def copyValue (response : KineticResponse) (entry : KineticEntry) : Option (KineticStatus × KineticEntry) :=
  if !entry.metadataOnly && !entry.value.isNull then
    (entry.value.appendArray response.valueArray).map fun res => (.success, { entry with value := res.2 })
  else some (.success, entry)

/-- `KineticCallbacks_Get`, with the status it returns and the entry as it leaves it. -/
def kineticCallbacksGet (response : KineticResponse) (entry : KineticEntry) (status : KineticStatus) :
    Option (KineticStatus × KineticEntry) :=
  if status = .success then
    match response.getKeyValue with
    | some keyValue => do
      let (copied, entry) ← copyKeyValueToEntry keyValue entry
      if copied then copyValue response entry else some (.bufferOverrun, entry)
    | none => copyValue response entry
  else some (status, entry)

/-- `KineticCallbacks_Put`, which does not look at what `ByteBuffer_Append` returns. -/
def kineticCallbacksPut (entry : KineticEntry) (status : KineticStatus) : Option (KineticStatus × KineticEntry) :=
  if status = .success then
    if !entry.newVersion.isNull && entry.newVersion.len > 0 then
      if !entry.dbVersion.isNull && entry.dbVersion.len > 0 then
        (entry.dbVersion.reset.append entry.newVersion.data entry.newVersion.bytesUsed).map fun res =>
          (status, { entry with dbVersion := res.2, newVersion := entry.newVersion.reset })
      else some (status, { entry with dbVersion := entry.newVersion, newVersion := .none })
    else some (status, entry)
  else some (status, entry)

/-- The bytes of a field, none if it is not there. -/
def fieldBytes (field : Option ProtoBytes) : List UInt8 :=
  match field with
  | none => []
  | some bytes => bytes.bytes

def FieldFits (buffer : ByteBuffer) (field : Option ProtoBytes) : Prop := ∀ bytes ∈ field, buffer.Fits bytes.toBinaryData

instance instDecidableFieldFits (buffer : ByteBuffer) (field : Option ProtoBytes) : Decidable (FieldFits buffer field) :=
  inferInstanceAs (Decidable (∀ bytes ∈ field, _))

namespace KineticResponse

def dbVersion (response : KineticResponse) : Option ProtoBytes := response.getKeyValue.bind ProtoKeyValue.dbVersion
def key (response : KineticResponse) : Option ProtoBytes := response.getKeyValue.bind ProtoKeyValue.key
def tag (response : KineticResponse) : Option ProtoBytes := response.getKeyValue.bind ProtoKeyValue.tag

/-- The three fields of the response fit into their buffers. -/
def MetadataFits (response : KineticResponse) (entry : KineticEntry) : Prop :=
  FieldFits entry.dbVersion response.dbVersion ∧ FieldFits entry.key response.key ∧ FieldFits entry.tag response.tag

/-- The value of the response fits into its buffer, or is not asked for. -/
def ValueFits (response : KineticResponse) (entry : KineticEntry) : Prop :=
  entry.metadataOnly = true ∨ entry.value.isNull = true ∨ response.header.valueLength ≤ entry.value.len.toNat

end KineticResponse

/-- The entry has all of the response, under `KINETIC_STATUS_SUCCESS`, or some of it does not fit and the status says so. -/
def GetsAll (response : KineticResponse) (entry : KineticEntry) : Prop :=
  ∃ status entry', kineticCallbacksGet response entry .success = some (status, entry') ∧
    ((status = .success ∧ entry'.dbVersion.Holds (fieldBytes response.dbVersion) ∧
        entry'.key.Holds (fieldBytes response.key) ∧ entry'.tag.Holds (fieldBytes response.tag) ∧
        (entry.metadataOnly = false → entry.value.isNull = false →
          entry'.value.Holds (Memory.load response.value 0 response.header.valueLength))) ∨
      status = .bufferOverrun ∧ ¬ (response.MetadataFits entry ∧ response.ValueFits entry))

/-- The new version is recorded as the version of the entry, and nothing else has changed. -/
def RecordsVersion (entry : KineticEntry) : Prop :=
  ∃ entry', kineticCallbacksPut entry .success = some (.success, entry') ∧ entry'.dbVersion.Holds entry.newVersion.used ∧
    entry'.newVersion.Holds [] ∧
    entry' = { entry with dbVersion := entry'.dbVersion, newVersion := entry'.newVersion }

section Get
variable {response : KineticResponse} {entry : KineticEntry} {buffer : ByteBuffer} {field : Option ProtoBytes}

/-- A field is copied if it fits, and its buffer then holds it. -/
theorem copyField_spec (buffer : ByteBuffer) (field : Option ProtoBytes) :
    ∃ buffer', copyField buffer field = some (decide (¬ FieldFits buffer field), buffer') ∧
      (FieldFits buffer field → buffer'.Holds (fieldBytes field)) := by
  cases field with
  | none =>
    have fits : FieldFits buffer none := by rintro bytes ⟨⟩
    exact ⟨buffer.reset, by simp [copyField, fits], fun _ => buffer.reset_holds⟩
  | some bytes =>
    have fits_iff : FieldFits buffer (some bytes) ↔ buffer.Fits bytes.toBinaryData := by simp [FieldFits]
    unfold copyField
    dsimp only
    by_cases empty : bytes.len = 0
    · have fits : FieldFits buffer (some bytes) := fits_iff.mpr (Or.inl empty)
      refine ⟨buffer.reset, by simp [empty, fits], fun _ => ?_⟩
      rw [show fieldBytes (some bytes) = [] from BinaryData.bytes_nil empty]
      exact buffer.reset_holds
    · have positive : bytes.len > 0 := UInt64.pos_iff_ne_zero.mpr empty
      rw [if_pos positive]
      by_cases room : buffer.isNull = false ∧ bytes.len ≤ buffer.len
      · have fits : FieldFits buffer (some bytes) := fits_iff.mpr (Or.inr room)
        obtain ⟨src, source⟩ := Option.ne_none_iff_exists'.mp fun missing => empty (bytes.filled missing)
        obtain ⟨mem, target⟩ := ByteBuffer.data_of_present room.1
        obtain ⟨buffer', appended, holds, _⟩ := ByteBuffer.append_holds (b := buffer.reset) src target rfl room.2
        refine ⟨buffer', ?_, fun _ => ?_⟩
        · rw [if_neg, source, appended]
          · simp [fits]
          · rw [show buffer.reset.isNull = false from room.1, Bool.false_or, decide_eq_true_eq]
            exact UInt64.not_lt.mpr room.2
        · rw [show fieldBytes (some bytes) = _ from BinaryData.bytes_eq source]
          exact holds
      · have unfit : ¬ FieldFits buffer (some bytes) := by
          rw [fits_iff]
          rintro (none | fits)
          · exact empty none
          · exact room fits
        refine ⟨{ buffer.reset with bytesUsed := bytes.len }, ?_, fun fits => absurd fits unfit⟩
        rw [if_pos]
        · simp [unfit]
        · by_cases null : buffer.isNull = true
          · simp [ByteBuffer.reset, ByteBuffer.isNull, show buffer.data = none by simpa [ByteBuffer.isNull] using null]
          · have narrow : buffer.len < bytes.len := UInt64.not_le.mp fun wide => room ⟨by simpa using null, wide⟩
            simp [ByteBuffer.reset, narrow]

/-- All three fields are copied, or the copy says that not all of them fit. The value and what is asked for stay. -/
theorem copyKeyValueToEntry_spec {keyValue : ProtoKeyValue} (entry : KineticEntry) (found : response.getKeyValue = some keyValue) :
    ∃ copied entry', copyKeyValueToEntry keyValue entry = some (copied, entry') ∧
      (copied = true ↔ response.MetadataFits entry) ∧
      (copied = true → entry'.dbVersion.Holds (fieldBytes response.dbVersion) ∧
        entry'.key.Holds (fieldBytes response.key) ∧ entry'.tag.Holds (fieldBytes response.tag)) ∧
      entry'.value = entry.value ∧ entry'.metadataOnly = entry.metadataOnly := by
  obtain ⟨dbVersion, dbCopied, dbHolds⟩ := copyField_spec entry.dbVersion keyValue.dbVersion
  obtain ⟨key, keyCopied, keyHolds⟩ := copyField_spec entry.key keyValue.key
  obtain ⟨tag, tagCopied, tagHolds⟩ := copyField_spec entry.tag keyValue.tag
  have fields : response.dbVersion = keyValue.dbVersion ∧ response.key = keyValue.key ∧ response.tag = keyValue.tag := by
    unfold KineticResponse.dbVersion KineticResponse.key KineticResponse.tag
    rw [found]
    exact ⟨rfl, rfl, rfl⟩
  unfold KineticResponse.MetadataFits
  rw [fields.1, fields.2.1, fields.2.2]
  have all (copied : (!(decide (¬ FieldFits entry.dbVersion keyValue.dbVersion) || decide (¬ FieldFits entry.key keyValue.key) ||
      decide (¬ FieldFits entry.tag keyValue.tag))) = true) : FieldFits entry.dbVersion keyValue.dbVersion ∧
        FieldFits entry.key keyValue.key ∧ FieldFits entry.tag keyValue.tag := by
    simpa [and_assoc] using copied
  refine ⟨_, { entry with dbVersion := dbVersion, key := key, tag := tag,
                          algorithm := (keyValue.algorithm.map kineticAlgorithmFromProto).getD entry.algorithm },
    by unfold copyKeyValueToEntry; rw [dbCopied, keyCopied, tagCopied]; rfl,
    ⟨all, fun fits => by simp [fits.1, fits.2.1, fits.2.2]⟩, fun copied => ?_, rfl, rfl⟩
  obtain ⟨dbFits, keyFits, tagFits⟩ := all copied
  exact ⟨dbHolds dbFits, keyHolds keyFits, tagHolds tagFits⟩

/-- Of a value that is asked for, all is copied into a buffer in which it fits, and nothing into any other. -/
theorem copyValue_spec (response : KineticResponse) (unused : entry.value.isNull = false → entry.value.bytesUsed = 0) :
    ∃ value, copyValue response entry = some (.success, { entry with value := value }) ∧
      (response.ValueFits entry ↔ (entry.metadataOnly = false → entry.value.isNull = false →
        value.Holds (Memory.load response.value 0 response.header.valueLength))) := by
  by_cases asked : entry.metadataOnly = false ∧ entry.value.isNull = false
  · obtain ⟨mem, target⟩ := ByteBuffer.data_of_present asked.2
    have fits_iff : response.ValueFits entry ↔ response.valueArray.len ≤ entry.value.len := by
      rw [UInt64.le_iff_toNat_le, response.valueArray_len]
      simp [KineticResponse.ValueFits, asked.1, asked.2]
    unfold copyValue ByteBuffer.appendArray
    rw [if_pos (by simp [asked.1, asked.2])]
    by_cases room : response.valueArray.len ≤ entry.value.len
    · obtain ⟨value, appended, holds, _⟩ := ByteBuffer.append_holds response.value target (unused asked.2) room
      refine ⟨value, by rw [show response.valueArray.data = some response.value from rfl, appended]; rfl, ?_⟩
      rw [response.valueArray_len] at holds
      exact iff_of_true (fits_iff.mpr room) fun _ _ => holds
    · have refused := ByteBuffer.append_refused response.value target (unused asked.2) room
      refine ⟨entry.value, by rw [show response.valueArray.data = some response.value from rfl, refused]; rfl, ?_⟩
      refine iff_of_false (fun fits => room (fits_iff.mp fits)) fun holds => ?_
      have length := (holds asked.1 asked.2).2
      rw [unused asked.2, Memory.load_length, ← response.valueArray_len] at length
      exact room (UInt64.le_iff_toNat_le.mpr (by rw [← length]; exact Nat.zero_le _))
  · unfold copyValue
    rw [if_neg (by simpa using asked)]
    refine ⟨entry.value, rfl, iff_of_true ?_ fun wanted present => absurd ⟨wanted, present⟩ asked⟩
    unfold KineticResponse.ValueFits
    by_cases wanted : entry.metadataOnly = false
    · exact Or.inr (Or.inl (by simpa [wanted] using asked))
    · exact Or.inl (by simpa using wanted)

theorem KineticResponse.ValueFits.congr {entry' : KineticEntry} (null : entry'.value.isNull = entry.value.isNull)
    (len : entry'.value.len = entry.value.len) (asked : entry'.metadataOnly = entry.metadataOnly) :
    response.ValueFits entry' ↔ response.ValueFits entry := by
  unfold KineticResponse.ValueFits
  rw [null, len, asked]

/-- A response without a `KeyValue` has none of the three fields. -/
theorem KineticResponse.fields_none (missing : response.getKeyValue = none) :
    response.dbVersion = none ∧ response.key = none ∧ response.tag = none := by
  unfold KineticResponse.dbVersion KineticResponse.key KineticResponse.tag
  rw [missing]
  exact ⟨rfl, rfl, rfl⟩

/-- A value that does not fit is dropped under `KINETIC_STATUS_SUCCESS`, unless one of the other fields does not fit either; and
a response without a `KeyValue` leaves what was in their buffers. -/
theorem getsAll_iff (unused : entry.value.isNull = false → entry.value.bytesUsed = 0) :
    GetsAll response entry ↔
      (response.getKeyValue = none → entry.dbVersion.bytesUsed = 0 ∧ entry.key.bytesUsed = 0 ∧ entry.tag.bytesUsed = 0) ∧
      (response.MetadataFits entry → response.ValueFits entry) := by
  cases found : response.getKeyValue with
  | none =>
    obtain ⟨value, run, fits_iff⟩ := copyValue_spec response unused
    obtain ⟨dbVersion, key, tag⟩ := KineticResponse.fields_none found
    have whole : response.MetadataFits entry := by
      unfold KineticResponse.MetadataFits FieldFits
      rw [dbVersion, key, tag]
      exact ⟨by rintro bytes ⟨⟩, by rintro bytes ⟨⟩, by rintro bytes ⟨⟩⟩
    have get : kineticCallbacksGet response entry .success = some (.success, { entry with value := value }) := by
      unfold kineticCallbacksGet
      rw [if_pos rfl, found]
      exact run
    unfold GetsAll
    simp only [get, dbVersion, key, tag, fieldBytes, ByteBuffer.holds_nil_iff]
    constructor
    · rintro ⟨status, entry', same, ⟨_, dbUnused, keyUnused, tagUnused, holds⟩ | ⟨failed, _⟩⟩
      · cases same
        exact ⟨fun _ => ⟨dbUnused, keyUnused, tagUnused⟩, fun _ => fits_iff.mpr holds⟩
      · cases same
        cases failed
    · rintro ⟨empty, fits⟩
      obtain ⟨dbUnused, keyUnused, tagUnused⟩ := empty trivial
      exact ⟨_, _, rfl, Or.inl ⟨rfl, dbUnused, keyUnused, tagUnused, fits_iff.mp (fits whole)⟩⟩
  | some keyValue =>
    obtain ⟨copied, entry', copies, copied_iff, holds, value, asked⟩ := copyKeyValueToEntry_spec entry found
    have get : kineticCallbacksGet response entry .success =
        if copied then copyValue response entry' else some (.bufferOverrun, entry') := by
      unfold kineticCallbacksGet
      rw [if_pos rfl, found]
      change (copyKeyValueToEntry keyValue entry).bind _ = _
      rw [copies]
      rfl
    unfold GetsAll
    rw [get]
    by_cases whole : response.MetadataFits entry
    · obtain ⟨filled, run, fits_iff⟩ := copyValue_spec response (show entry'.value.isNull = false → _ by rw [value]; exact unused)
      rw [KineticResponse.ValueFits.congr (by rw [value]) (by rw [value]) asked, value, asked] at fits_iff
      obtain ⟨dbHolds, keyHolds, tagHolds⟩ := holds (copied_iff.mpr whole)
      rw [if_pos (copied_iff.mpr whole), run]
      constructor
      · rintro ⟨status, last, same, ⟨_, _, _, _, complete⟩ | ⟨failed, _⟩⟩
        · cases same
          exact ⟨by rintro ⟨⟩, fun _ => fits_iff.mpr complete⟩
        · cases same
          cases failed
      · rintro ⟨_, fits⟩
        exact ⟨_, _, rfl, Or.inl ⟨rfl, dbHolds, keyHolds, tagHolds, fits_iff.mp (fits whole)⟩⟩
    · have refused : copied ≠ true := fun all => whole (copied_iff.mp all)
      rw [if_neg refused]
      exact iff_of_true ⟨_, _, rfl, Or.inr ⟨rfl, fun both => whole both.1⟩⟩
        ⟨by rintro ⟨⟩, fun all => absurd all whole⟩

/-- For every entry given to `build_get_command` and every response: `KineticCallbacks_Get` is complete or reports an overrun if
and only if there is a `KeyValue`, or nothing is used of the buffers for its fields, and the value fits where the fields do. -/
theorem get_complete_iff (response : KineticResponse) (entry : KineticEntry) :
    GetsAll response (buildGetCommand entry) ↔
      (response.getKeyValue = none → entry.dbVersion.bytesUsed = 0 ∧ entry.key.bytesUsed = 0 ∧ entry.tag.bytesUsed = 0) ∧
      (response.MetadataFits entry → response.ValueFits entry) := by
  unfold buildGetCommand
  split
  · rename_i null
    exact getsAll_iff fun present => absurd (null.symm.trans present) (by decide)
  · rw [getsAll_iff fun _ => rfl]
    exact Iff.and Iff.rfl (imp_congr Iff.rfl (KineticResponse.ValueFits.congr rfl rfl rfl))

def protoBytesOf (bytes : List UInt8) : ProtoBytes :=
  { data := some (Memory.store (fun _ => 0) bytes), len := UInt64.ofNat bytes.length, filled := by rintro ⟨⟩ }

/-- An entry that asks for the object with key `key`, with room for two bytes of its value. -/
def smallEntry : KineticEntry :=
  { key := bufferOf [107, 101, 121] 8 3, value := bufferOf [] 2 0, dbVersion := bufferOf [] 4 0, tag := bufferOf [] 4 0,
    algorithm := .unset, newVersion := .none, metadataOnly := false, force := false, computeTag := false,
    synchronization := .unset }

/-- The object has the value 1 2 3. -/
def objectResponse (body : ProtoBody) : KineticResponse :=
  { header := ⟨70, 20, 3⟩, proto := some ⟨some .hmacAuth, none⟩, value := Memory.store (fun _ => 0) [1, 2, 3], small := by decide,
    command := some ⟨some ⟨⟨some 1⟩, some 42⟩, some ⟨some .success⟩, some body⟩ }

/-- The response for the object, with its key. -/
def keyedResponse : KineticResponse :=
  objectResponse ⟨some ⟨some (protoBytesOf [107, 101, 121]), none, none, none⟩, none⟩

/-- A value of three bytes is dropped where there is room for two; and where the
response has no `KeyValue`, the key of the request stays in its buffer. -/
theorem get_drops_value :
    ((∃ entry', kineticCallbacksGet keyedResponse (buildGetCommand smallEntry) .success = some (.success, entry') ∧
        entry'.value.used = [] ∧ entry'.key.used = [107, 101, 121]) ∧ ¬ GetsAll keyedResponse (buildGetCommand smallEntry)) ∧
    (∃ entry', kineticCallbacksGet (objectResponse ⟨none, none⟩) (buildGetCommand { smallEntry with metadataOnly := true }) .success =
        some (.success, entry') ∧ entry'.key.used = [107, 101, 121]) ∧
      ¬ GetsAll (objectResponse ⟨none, none⟩) (buildGetCommand { smallEntry with metadataOnly := true }) := by
  refine ⟨⟨⟨_, rfl, by decide +kernel, by decide +kernel⟩, fun complete => ?_⟩, ⟨_, rfl, by decide +kernel⟩, fun complete => ?_⟩
  · have fits : keyedResponse.MetadataFits (buildGetCommand smallEntry) := by
      refine ⟨?_, ?_, ?_⟩ <;> decide +kernel
    rcases ((getsAll_iff fun _ => rfl).mp complete).2 fits with asked | null | room
    · cases asked
    · cases null
    · exact absurd room (by decide)
  · have unused := ((getsAll_iff fun _ => rfl).mp complete).1 rfl
    exact absurd unused.2.1 (by decide)

end Get

section Put

/-- For every entry with a new version: `KineticCallbacks_Put` records it if and only if the entry has no
buffer for its version, or one in which the new version fits. -/
theorem put_records_version_iff (entry : KineticEntry) (present : entry.newVersion.isNull = false) (sized : entry.newVersion.len > 0) :
    RecordsVersion entry ↔ entry.dbVersion.isNull = true ∨ entry.dbVersion.len = 0 ∨
      entry.newVersion.bytesUsed ≤ entry.dbVersion.len := by
  obtain ⟨src, source⟩ := ByteBuffer.data_of_present present
  have given : (!entry.newVersion.isNull && decide (entry.newVersion.len > 0)) = true := by simp [present, sized]
  by_cases both : entry.dbVersion.isNull = false ∧ entry.dbVersion.len > 0
  · obtain ⟨mem, target⟩ := ByteBuffer.data_of_present both.1
    have put : kineticCallbacksPut entry .success =
        (entry.dbVersion.reset.append (some src) entry.newVersion.bytesUsed).map fun res =>
          (.success, { entry with dbVersion := res.2, newVersion := entry.newVersion.reset }) := by
      unfold kineticCallbacksPut
      rw [if_pos rfl, if_pos given, if_pos (by simp [both.1, both.2]), source]
    have used : entry.newVersion.used = Memory.load src 0 entry.newVersion.bytesUsed.toNat :=
      ByteBuffer.used_eq source
    unfold RecordsVersion
    rw [put]
    by_cases room : entry.newVersion.bytesUsed ≤ entry.dbVersion.len
    · obtain ⟨dbVersion, appended, holds, _⟩ := ByteBuffer.append_holds (b := entry.dbVersion.reset) src target rfl room
      refine iff_of_true ⟨{ entry with dbVersion := dbVersion, newVersion := entry.newVersion.reset }, ?_, ?_,
        entry.newVersion.reset_holds, rfl⟩ (Or.inr (Or.inr room))
      · rw [appended]
        rfl
      · rw [used]
        exact holds
    · have refused := ByteBuffer.append_refused (b := entry.dbVersion.reset) src target rfl room
      refine iff_of_false ?_ ?_
      · rw [refused]
        rintro ⟨entry', same, holds, _⟩
        cases same
        have length := holds.2
        rw [used, Memory.load_length] at length
        exact room (UInt64.le_iff_toNat_le.mpr (by rw [← length]; exact Nat.zero_le _))
      · rintro (null | empty | fits)
        · rw [both.1] at null
          cases null
        · exact absurd both.2 (by rw [empty]; decide)
        · exact room fits
  · have put : kineticCallbacksPut entry .success =
        some (.success, { entry with dbVersion := entry.newVersion, newVersion := .none }) := by
      unfold kineticCallbacksPut
      rw [if_pos rfl, if_pos given, if_neg (by simpa using both)]
    refine iff_of_true ⟨_, put, ByteBuffer.holds_used source, ByteBuffer.holds_nil_iff.mpr rfl, rfl⟩ ?_
    by_cases null : entry.dbVersion.isNull = false
    · refine Or.inr (Or.inl ?_)
      by_contra positive
      exact both ⟨null, UInt64.pos_iff_ne_zero.mpr positive⟩
    · exact Or.inl (by simpa using null)

/-- A version of two bytes in a buffer of four, for a buffer of the given size. -/
def versionedEntry (len : UInt64) : KineticEntry :=
  { smallEntry with newVersion := bufferOf [7, 8] 4 2, dbVersion := bufferOf [5, 6, 9] len 1 }

theorem put_records_version_room : RecordsVersion (versionedEntry 3) :=
  (put_records_version_iff (versionedEntry 3) rfl (by decide)).mpr (Or.inr (Or.inr (by decide)))

/-- The buffer for the version has room for one byte, and afterwards it has no version at all. -/
theorem put_loses_version : (∃ entry', kineticCallbacksPut (versionedEntry 1) .success = some (.success, entry') ∧
    entry'.dbVersion.used = [] ∧ (versionedEntry 1).newVersion.used = [7, 8]) ∧ ¬ RecordsVersion (versionedEntry 1) := by
  have lost : (kineticCallbacksPut (versionedEntry 1) .success).map (fun res => res.2.dbVersion.bytesUsed) = some 0 := rfl
  refine ⟨⟨_, rfl, rfl, by decide +kernel⟩, ?_⟩
  rintro ⟨entry', put, holds, _⟩
  rw [put] at lost
  have empty : entry'.dbVersion.bytesUsed = 0 := Option.some.inj lost
  have length := holds.2
  rw [empty] at length
  revert length
  decide +kernel

end Put

end Kinetic
