import Kinetic.Acl.Model
import Mathlib.Data.List.Basic

namespace Kinetic
open Attempt Load
variable {c : JsonConversions}

/-- The permission that an entry of a permission array names, `INVALID_PERMISSION` if it names none. -/
def permissionOf (c : JsonConversions) (entry : Json) : AclPermission :=
  match c.getString entry with
  | some str => permissionOfStr str
  | none => .invalidPermission

def Named (c : JsonConversions) (entry : Json) : Prop := permissionOf c entry ≠ .invalidPermission

instance decidableNamed (c : JsonConversions) (entry : Json) : Decidable (Named c entry) :=
  inferInstanceAs (Decidable (_ ≠ _))

theorem getString_eq_none {value : Json} : c.getString value = none ↔ value = .null := by
  cases value <;> simp [JsonConversions.getString]

theorem Named.exists_string {entry : Json} (named : Named c entry) :
    ∃ str, c.getString entry = some str ∧ permissionOfStr str = permissionOf c entry := by
  unfold Named permissionOf at named
  cases found : c.getString entry with
  | none =>
    rw [found] at named
    exact absurd rfl named
  | some str => exact ⟨str, rfl, by simp only [permissionOf, found]⟩

section Permissions
variable {entry : Json} {before rest names : List Json} {n i j : Nat} {permission : Nat → AclPermission}

theorem writePermission_granted (room : n < aclMaxPermissions) : (writePermission n).granted = .ok () := by
  simp only [writePermission, granted, if_pos room]

theorem writePermission_notes (n : Nat) : (writePermission n).notes = [n] := by
  unfold writePermission
  split <;> rfl

theorem unpackPermissions_named (named : Named c entry) :
    unpackPermissions c (entry :: rest) n permission = (do
      writePermission n
      unpackPermissions c rest (n + 1) (Function.update permission n (permissionOf c entry))) := by
  obtain ⟨str, found, same⟩ := named.exists_string
  have valid : permissionOfStr str ≠ .invalidPermission := same ▸ named
  rw [unpackPermissions, found, ← same]
  exact if_neg valid

theorem unpackPermissions_null : unpackPermissions c (.null :: rest) n permission = .fail .undefined := rfl

theorem unpackPermissions_other (present : entry ≠ .null) (other : ¬ Named c entry) :
    unpackPermissions c (entry :: rest) n permission = .fail (.result .errorInvalidField) := by
  obtain ⟨str, found⟩ := Option.ne_none_iff_exists'.mp (mt getString_eq_none.mp present)
  have invalid : permissionOfStr str = .invalidPermission := by
    have unnamed : permissionOf c entry = .invalidPermission := not_not.mp other
    rwa [permissionOf, found] at unnamed
  rw [unpackPermissions, found]
  exact if_pos invalid

/-- The permission array after the entries were written to it from index `n` on. -/
def written (c : JsonConversions) : List Json → Nat → (Nat → AclPermission) → Nat → AclPermission
  | [], _, permission => permission
  | entry :: rest, n, permission => written c rest (n + 1) (Function.update permission n (permissionOf c entry))

theorem written_below (below : i < n) : written c names n permission i = permission i := by
  induction names generalizing n permission with
  | nil => rfl
  | cons entry rest ih =>
    rw [written, ih (by omega)]
    exact Function.update_of_ne (by omega) ..

theorem written_at (n : Nat) (permission : Nat → AclPermission) (found : names[j]? = some entry) :
    written c names n permission (n + j) = permissionOf c entry := by
  induction names generalizing n j permission with
  | nil => cases found
  | cons first rest ih =>
    cases j with
    | zero =>
      cases found
      rw [written, written_below (by omega)]
      exact Function.update_self ..
    | succ j =>
      rw [written, show n + (j + 1) = n + 1 + j by omega]
      exact ih _ _ found

/-- The loop takes all names as long as there is room for them, one after the other. -/
theorem unpackPermissions_append (rest : List Json) (permission : Nat → AclPermission) (n : Nat)
    (named : ∀ entry ∈ before, Named c entry) (room : n + before.length ≤ aclMaxPermissions) :
    (unpackPermissions c (before ++ rest) n permission).granted =
        (unpackPermissions c rest (n + before.length) (written c before n permission)).granted ∧
      (unpackPermissions c (before ++ rest) n permission).notes = List.range' n before.length ++
        (unpackPermissions c rest (n + before.length) (written c before n permission)).notes := by
  induction before generalizing n permission with
  | nil => exact ⟨rfl, rfl⟩
  | cons entry before ih =>
    rw [List.length_cons] at room
    have fits := writePermission_granted (by omega : n < aclMaxPermissions)
    obtain ⟨later, noted⟩ := ih (Function.update permission n (permissionOf c entry)) (n + 1)
      (fun other member => named other (List.mem_cons_of_mem _ member)) (by omega)
    rw [List.cons_append, unpackPermissions_named (named entry List.mem_cons_self), granted_bind_of_ok fits,
      notes_bind_of_ok fits, writePermission_notes, later, noted, List.length_cons, List.range'_succ,
      show n + (before.length + 1) = n + 1 + before.length by omega]
    exact ⟨rfl, rfl⟩

/-- An array of permissions that the loop takes. -/
def Fits (c : JsonConversions) (names : List Json) : Prop :=
  (∀ entry ∈ names, Named c entry) ∧ names.length ≤ aclMaxPermissions

/-- An array whose first nine entries, one too many, all name a permission. -/
def TooMany (c : JsonConversions) (names : List Json) : Prop :=
  ∃ before entry rest, names = before ++ entry :: rest ∧ before.length = aclMaxPermissions ∧
    (∀ other ∈ before, Named c other) ∧ Named c entry

/-- An array in which `null` is the first entry that names no permission, with no more than eight before it. -/
def NullEntry (c : JsonConversions) (names : List Json) : Prop :=
  ∃ before rest, names = before ++ .null :: rest ∧ before.length ≤ aclMaxPermissions ∧ ∀ other ∈ before, Named c other

/-- An array in which some other entry is the first one that names no permission, with no more than eight before it. -/
def WrongEntry (c : JsonConversions) (names : List Json) : Prop :=
  ∃ before entry rest, names = before ++ entry :: rest ∧ before.length ≤ aclMaxPermissions ∧
    (∀ other ∈ before, Named c other) ∧ entry ≠ .null ∧ ¬ Named c entry

/-- A list is all names that fit in the room there is, or has a name too many, or an entry that is no name before that. -/
theorem names_split (c : JsonConversions) (names : List Json) (room : Nat) :
    ((∀ entry ∈ names, Named c entry) ∧ names.length ≤ room) ∨
    ∃ before entry rest, names = before ++ entry :: rest ∧ (∀ other ∈ before, Named c other) ∧
      (before.length = room ∧ Named c entry ∨ before.length ≤ room ∧ ¬ Named c entry) := by
  induction names generalizing room with
  | nil => exact .inl ⟨by rintro entry ⟨⟩, room.zero_le⟩
  | cons first names ih =>
    have none : ∀ other ∈ ([] : List Json), Named c other := by rintro other ⟨⟩
    by_cases named : Named c first
    · cases room with
      | zero => exact .inr ⟨[], first, names, rfl, none, .inl ⟨rfl, named⟩⟩
      | succ room =>
        rcases ih room with ⟨all, short⟩ | ⟨before, entry, rest, rfl, all, last⟩
        · exact .inl ⟨List.forall_mem_cons.mpr ⟨named, all⟩, Nat.succ_le_succ short⟩
        · refine .inr ⟨first :: before, entry, rest, rfl, List.forall_mem_cons.mpr ⟨named, all⟩, ?_⟩
          rw [List.length_cons]
          exact last.imp (And.imp_left (congrArg Nat.succ)) (And.imp_left Nat.succ_le_succ)
    · exact .inr ⟨[], first, names, rfl, none, .inr ⟨room.zero_le, named⟩⟩

/-- Every array is of one of these four kinds. -/
theorem names_cases (c : JsonConversions) (names : List Json) :
    Fits c names ∨ TooMany c names ∨ NullEntry c names ∨ WrongEntry c names := by
  rcases names_split c names aclMaxPermissions with fits | ⟨before, entry, rest, split, all, ⟨full, named⟩ | ⟨short, other⟩⟩
  · exact .inl fits
  · exact .inr (.inl ⟨before, entry, rest, split, full, all, named⟩)
  · by_cases null : entry = .null
    · subst null
      exact .inr (.inr (.inl ⟨before, rest, split, short, all⟩))
    · exact .inr (.inr (.inr ⟨before, entry, rest, split, short, all, null, other⟩))

theorem Fits.unpack (fits : Fits c names) (permission : Nat → AclPermission) :
    (unpackPermissions c names 0 permission).granted = .ok (names.length, written c names 0 permission) ∧
      (unpackPermissions c names 0 permission).notes = List.range names.length := by
  have room : 0 + names.length ≤ aclMaxPermissions := by
    rw [Nat.zero_add]
    exact fits.2
  have taken := unpackPermissions_append [] permission 0 fits.1 room
  rw [List.append_nil, Nat.zero_add] at taken
  refine ⟨taken.1, taken.2.trans ?_⟩
  rw [List.range_eq_range']
  exact List.append_nil _

/-- With a name too many the loop writes past the end of the array. -/
theorem TooMany.unpack (many : TooMany c names) (permission : Nat → AclPermission) :
    (unpackPermissions c names 0 permission).granted = .error .undefined ∧
      aclMaxPermissions ∈ (unpackPermissions c names 0 permission).notes := by
  obtain ⟨before, entry, rest, rfl, full, all, named⟩ := many
  have taken := unpackPermissions_append (entry :: rest) permission 0 all (by omega)
  have overrun : (writePermission (0 + before.length)).granted = .error .undefined := by
    simp only [writePermission, granted, if_neg (show ¬ 0 + before.length < aclMaxPermissions by omega)]
  rw [unpackPermissions_named named, granted_bind_of_error overrun, notes_bind_of_error overrun, writePermission_notes] at taken
  refine ⟨taken.1, ?_⟩
  rw [taken.2, Nat.zero_add, full]
  exact List.mem_append_right _ List.mem_cons_self

/-- Up to an entry that is no name the loop stays within the array. -/
theorem unpackPermissions_stop {failure : LoadFailure} (short : before.length ≤ aclMaxPermissions)
    (all : ∀ other ∈ before, Named c other) (permission : Nat → AclPermission)
    (stop : ∀ n permission, unpackPermissions c (entry :: rest) n permission = .fail failure) :
    (unpackPermissions c (before ++ entry :: rest) 0 permission).granted = .error failure ∧
      ∀ i ∈ (unpackPermissions c (before ++ entry :: rest) 0 permission).notes, i < aclMaxPermissions := by
  have taken := unpackPermissions_append (entry :: rest) permission 0 all (by omega)
  rw [stop] at taken
  refine ⟨taken.1, fun i member => ?_⟩
  rw [taken.2, notes, List.append_nil, List.mem_range'_1] at member
  omega

theorem NullEntry.unpack (null : NullEntry c names) (permission : Nat → AclPermission) :
    (unpackPermissions c names 0 permission).granted = .error .undefined ∧
      ∀ i ∈ (unpackPermissions c names 0 permission).notes, i < aclMaxPermissions := by
  obtain ⟨before, rest, rfl, short, all⟩ := null
  exact unpackPermissions_stop short all permission fun _ _ => unpackPermissions_null

theorem WrongEntry.unpack (wrong : WrongEntry c names) (permission : Nat → AclPermission) :
    (unpackPermissions c names 0 permission).granted = .error (.result .errorInvalidField) ∧
      ∀ i ∈ (unpackPermissions c names 0 permission).notes, i < aclMaxPermissions := by
  obtain ⟨before, entry, rest, rfl, short, all, present, other⟩ := wrong
  exact unpackPermissions_stop short all permission fun _ _ => unpackPermissions_other present other

end Permissions

/-- The entries of the field `permission`, where a single name stands for an array of one. -/
def permissionEntries : Option Json → List Json
  | some (.string s) => [.string s]
  | some (.array names) => names
  | _ => []

/-- The field is missing, a name, or an array of names that fits. -/
def FieldAccepted (c : JsonConversions) : Option Json → Prop
  | none => True
  | some (.string s) => Named c (.string s)
  | some (.array names) => Fits c names
  | some _ => False

/-- The field is an array that starts with a name too many. -/
def FieldOverruns (c : JsonConversions) (field : Option Json) : Prop := ∃ names, field = some (.array names) ∧ TooMany c names

/-- The field is an array in which the loop comes to a `null`. -/
def FieldNull (c : JsonConversions) (field : Option Json) : Prop := ∃ names, field = some (.array names) ∧ NullEntry c names

/-- The scope has the permissions that the entries name, in their order. -/
def AclScope.Permits (c : JsonConversions) (entries : List Json) (scope : AclScope) : Prop :=
  scope.nPermission = entries.length ∧
    ∀ (j : Nat) (entry : Json), entries[j]? = some entry → ∃ array, scope.permission = some array ∧ array j = permissionOf c entry

section Fields
variable {field : Option Json} {scope : AclScope}

theorem granted_allocate_bind {α : Type} (next : Unit → Load α) : (allocate >>= next).granted = (next ()).granted := rfl

theorem notes_allocate_bind {α : Type} (next : Unit → Load α) : (allocate >>= next).notes = (next ()).notes := rfl

theorem unpackPermission_string (s : List UInt8) : unpackPermission c scope (some (.string s)) = (do
    allocate
    writePermission 0
    if permissionOfStr s = .invalidPermission then error .errorInvalidField
    else pure { scope with permission := some (Function.update (fun _ => .read) 0 (permissionOfStr s)), nPermission := 1 }) := rfl

theorem unpackPermission_array (names : List Json) : unpackPermission c scope (some (.array names)) = (do
    allocate
    let read ← unpackPermissions c names 0 fun _ => .read
    pure { scope with permission := some read.2, nPermission := read.1 }) := rfl

/-- A field that is accepted adds its permissions to the scope and nothing else, and stays within the array. -/
theorem FieldAccepted.unpack (accepted : FieldAccepted c field) (scope : AclScope) (fresh : scope.nPermission = 0) :
    ∃ n permission, (unpackPermission c scope field).granted = .ok { scope with nPermission := n, permission := permission } ∧
      AclScope.Permits c (permissionEntries field) { scope with nPermission := n, permission := permission } ∧
      ∀ i ∈ (unpackPermission c scope field).notes, i < aclMaxPermissions := by
  have room : 0 < aclMaxPermissions := by decide
  cases field with
  | none => exact ⟨_, scope.permission, rfl, ⟨fresh, by rintro j entry ⟨⟩⟩, by rintro i ⟨⟩⟩
  | some val =>
    cases val with
    | string s =>
      have valid : permissionOfStr s ≠ .invalidPermission := accepted
      have fits := writePermission_granted room
      rw [unpackPermission_string, granted_allocate_bind, notes_allocate_bind, granted_bind_of_ok fits, notes_bind_of_ok fits,
        writePermission_notes, if_neg valid]
      refine ⟨_, _, rfl, ⟨rfl, fun j entry found => ?_⟩, fun i member => ?_⟩
      · cases j with
        | zero =>
          cases found
          exact ⟨_, rfl, Function.update_self ..⟩
        | succ j => cases found
      · cases List.mem_singleton.mp member
        exact room
    | array names =>
      obtain ⟨read, noted⟩ := Fits.unpack accepted fun _ => .read
      rw [unpackPermission_array, granted_allocate_bind, notes_allocate_bind, granted_bind_of_ok read, notes_bind_of_ok read, noted]
      refine ⟨_, _, rfl, ⟨rfl, fun j entry found => ⟨_, rfl, ?_⟩⟩, fun i member => ?_⟩
      · have here := written_at (c := c) 0 (fun _ => .read) found
        rwa [Nat.zero_add] at here
      · rw [notes_pure, List.append_nil, List.mem_range] at member
        exact Nat.lt_of_lt_of_le member accepted.2
    | _ => exact accepted.elim

theorem FieldAccepted.entries (accepted : FieldAccepted c field) :
    (permissionEntries field).length ≤ aclMaxPermissions ∧ ∀ entry ∈ permissionEntries field, Named c entry := by
  cases field with
  | none => exact ⟨Nat.zero_le _, by rintro entry ⟨⟩⟩
  | some val =>
    cases val with
    | string s => exact ⟨(by decide : 1 ≤ aclMaxPermissions), fun entry member => List.mem_singleton.mp member ▸ accepted⟩
    | array names => exact ⟨accepted.2, accepted.1⟩
    | _ => exact accepted.elim

theorem FieldOverruns.unpack (overruns : FieldOverruns c field) (scope : AclScope) :
    (unpackPermission c scope field).granted = .error .undefined ∧ aclMaxPermissions ∈ (unpackPermission c scope field).notes := by
  obtain ⟨names, rfl, many⟩ := overruns
  obtain ⟨failed, noted⟩ := many.unpack fun _ => .read
  rw [unpackPermission_array, granted_allocate_bind, notes_allocate_bind, granted_bind_of_error failed, notes_bind_of_error failed]
  exact ⟨rfl, noted⟩

theorem FieldNull.unpack (null : FieldNull c field) (scope : AclScope) :
    (unpackPermission c scope field).granted = .error .undefined ∧
      ∀ i ∈ (unpackPermission c scope field).notes, i < aclMaxPermissions := by
  obtain ⟨names, rfl, null⟩ := null
  obtain ⟨failed, noted⟩ := null.unpack fun _ => .read
  rw [unpackPermission_array, granted_allocate_bind, notes_allocate_bind, granted_bind_of_error failed, notes_bind_of_error failed]
  exact ⟨rfl, noted⟩

/-- Every other field is rejected. -/
theorem unpackPermission_rejects (refused : ¬ FieldAccepted c field) (within : ¬ FieldOverruns c field)
    (present : ¬ FieldNull c field) (scope : AclScope) :
    (unpackPermission c scope field).granted = .error (.result .errorInvalidField) ∧
      ∀ i ∈ (unpackPermission c scope field).notes, i < aclMaxPermissions := by
  have room : 0 < aclMaxPermissions := by decide
  cases field with
  | none => exact absurd trivial refused
  | some val =>
    cases val with
    | string s =>
      have invalid : permissionOfStr s = .invalidPermission := not_not.mp refused
      have fits := writePermission_granted room
      rw [unpackPermission_string, granted_allocate_bind, notes_allocate_bind, granted_bind_of_ok fits, notes_bind_of_ok fits,
        writePermission_notes, if_pos invalid]
      refine ⟨rfl, fun i member => ?_⟩
      cases List.mem_singleton.mp member
      exact room
    | array names =>
      rcases names_cases c names with fits | many | null | wrong
      · exact absurd fits refused
      · exact absurd ⟨names, rfl, many⟩ within
      · exact absurd ⟨names, rfl, null⟩ present
      · obtain ⟨failed, noted⟩ := wrong.unpack fun _ => .read
        rw [unpackPermission_array, granted_allocate_bind, notes_allocate_bind, granted_bind_of_error failed,
          notes_bind_of_error failed]
        exact ⟨rfl, noted⟩
    | _ => exact ⟨rfl, by rintro i ⟨⟩⟩

end Fields

/-- The text of the field `value`, if there is one. -/
def valueText (c : JsonConversions) (element : Json) : Option (List UInt8) := (element.get "value").bind c.getString

/-- The scope before its permissions are read. -/
def scopeHead (c : JsonConversions) (element : Json) : AclScope :=
  match valueText c element with
  | some str => { readOffset c aclScopeInit (element.get "offset") with value := cString str, hasValue := true }
  | none => readOffset c aclScopeInit (element.get "offset")

section Elements
variable {element : Json} {elements : List Json}

theorem readOffset_fresh (field : Option Json) : (readOffset c aclScopeInit field).hasValue = false ∧
    (readOffset c aclScopeInit field).nPermission = 0 := by
  cases field <;> exact ⟨rfl, rfl⟩

theorem unpackValue_granted (c : JsonConversions) (element : Json) :
    (unpackValue c (readOffset c aclScopeInit (element.get "offset")) (element.get "value")).granted = .ok (scopeHead c element) ∧
      (unpackValue c (readOffset c aclScopeInit (element.get "offset")) (element.get "value")).notes = [] := by
  have fresh := (readOffset_fresh (c := c) (element.get "offset")).1
  unfold scopeHead valueText
  cases element.get "value" with
  | none =>
    have same : { readOffset c aclScopeInit (element.get "offset") with hasValue := false } =
        readOffset c aclScopeInit (element.get "offset") := by rw [← fresh]
    exact ⟨congrArg Except.ok same, rfl⟩
  | some val =>
    simp only [unpackValue, Option.bind_some]
    cases c.getString val with
    | none => exact ⟨rfl, rfl⟩
    | some str => exact ⟨rfl, rfl⟩

theorem scopeHead_fresh (c : JsonConversions) (element : Json) : (scopeHead c element).nPermission = 0 := by
  unfold scopeHead
  split <;> exact (readOffset_fresh _).2

/-- Only the permissions of an element can make its loading fail, or write to an array. -/
theorem unpackScope_eq (c : JsonConversions) (element : Json) :
    (unpackScope c element).granted = ((unpackPermission c (scopeHead c element) (element.get "permission")).granted.map
        fun scope => readTlsRequired c scope (element.get "TlsRequired")) ∧
      (unpackScope c element).notes = (unpackPermission c (scopeHead c element) (element.get "permission")).notes := by
  obtain ⟨head, quiet⟩ := unpackValue_granted c element
  have fresh : { scopeHead c element with nPermission := 0 } = scopeHead c element := by rw [← scopeHead_fresh c element]
  unfold unpackScope
  rw [granted_allocate_bind, notes_allocate_bind, granted_bind_of_ok head, notes_bind_of_ok head, quiet, fresh, List.nil_append]
  cases read : (unpackPermission c (scopeHead c element) (element.get "permission")).granted with
  | error failure => exact ⟨granted_bind_of_error read, notes_bind_of_error read⟩
  | ok scope => exact ⟨granted_bind_of_ok read, (notes_bind_of_ok read).trans (List.append_nil _)⟩

end Elements

end Kinetic
