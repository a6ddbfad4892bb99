import Kinetic.Acl.Objects
import Mathlib.Data.List.TakeWhile

namespace Kinetic
open Attempt Load
variable {c : JsonConversions}

/-- The scope has every field as the element gives it. A field is given if its key is there, a number or a Boolean is what
`json-c` converts it to, and a text is all of its bytes. -/
structure AclScope.Given (c : JsonConversions) (element : Json) (scope : AclScope) : Prop where
  offset : match element.get "offset" with
    | some val => scope.hasOffset = true ∧ scope.offset = c.getInt64 val
    | none => scope.hasOffset = false
  value : match valueText c element with
    | some text => scope.hasValue = true ∧ scope.value = text
    | none => scope.hasValue = false
  count : scope.nPermission = (permissionEntries (element.get "permission")).length
  permission : ∀ (j : Nat) (entry : Json), (permissionEntries (element.get "permission"))[j]? = some entry →
    ∃ array, scope.permission = some array ∧ c.getString entry = some (ascii (strOfPermission (array j)))
  tlsRequired : match element.get "TlsRequired" with
    | some val => scope.hasTlsrequired = true ∧ scope.tlsrequired = c.getBoolean val
    | none => scope.hasTlsrequired = false

/-- No text that the loader copies or compares has a zero byte in it. -/
def ZeroFree (c : JsonConversions) (element : Json) : Prop :=
  (∀ text, valueText c element = some text → 0 ∉ text) ∧
    ∀ entry ∈ permissionEntries (element.get "permission"), ∀ text, c.getString entry = some text → 0 ∉ text

/-- The ACL has one scope for each element that is not `null`, in their order and as the elements give them, and
`KineticACL_Free` finds each of them. -/
structure ScopesFaithful (c : JsonConversions) (scopes : List Json) (acl : Acl) : Prop where
  count : acl.nScope = (present scopes).length
  nonnull : ∀ i < acl.nScope, acl.scope i ≠ none
  given : ∀ (i : Nat) (element : Json), (present scopes)[i]? = some element →
    ∃ scope, acl.scope i = some scope ∧ scope.Given c element
  visited : kineticACLFreeScopes acl ≠ none

theorem cString_eq_self_iff {text : List UInt8} : cString text = text ↔ 0 ∉ text := by
  unfold cString
  rw [List.takeWhile_eq_self_iff]
  simp only [decide_eq_true_eq, ne_eq]
  exact ⟨fun nonzero zero => nonzero 0 zero rfl, fun zero byte member same => zero (same ▸ member)⟩

/-- A name that is found in the table is the text of the permission, up to its first zero. -/
theorem ascii_strOfPermission {str : List UInt8} (valid : permissionOfStr str ≠ .invalidPermission) :
    ascii (strOfPermission (permissionOfStr str)) = cString str := by
  have texts : ∀ pair ∈ permissionTable, strOfPermission pair.1 = pair.2 := by decide
  unfold permissionOfStr at valid ⊢
  cases search : permissionTable.find? fun pair => cString str = ascii pair.2 with
  | none =>
    rw [search] at valid
    exact absurd rfl valid
  | some pair =>
    have found : cString str = ascii pair.2 := by simpa using List.find?_some search
    exact (congrArg ascii (texts pair (List.mem_of_find?_eq_some search))).trans found.symm

section Elements
variable {element : Json} {scope : AclScope}

theorem readTlsRequired_frame (c : JsonConversions) (scope : AclScope) (field : Option Json) :
    ∃ given value, readTlsRequired c scope field = { scope with hasTlsrequired := given, tlsrequired := value } := by
  cases field with
  | none => exact ⟨scope.hasTlsrequired, scope.tlsrequired, rfl⟩
  | some val => exact ⟨true, c.getBoolean val, rfl⟩

theorem readTlsRequired_given (c : JsonConversions) (scope : AclScope) (fresh : scope.hasTlsrequired = false)
    (field : Option Json) :
    match field with
    | some val => (readTlsRequired c scope field).hasTlsrequired = true ∧
        (readTlsRequired c scope field).tlsrequired = c.getBoolean val
    | none => (readTlsRequired c scope field).hasTlsrequired = false := by
  cases field with
  | none => exact fresh
  | some val => exact ⟨rfl, rfl⟩

theorem scopeHead_offset (c : JsonConversions) (element : Json) :
    match element.get "offset" with
    | some val => (scopeHead c element).hasOffset = true ∧ (scopeHead c element).offset = c.getInt64 val
    | none => (scopeHead c element).hasOffset = false := by
  unfold scopeHead
  cases element.get "offset" <;> cases valueText c element <;> first | exact ⟨rfl, rfl⟩ | rfl

theorem scopeHead_tls (c : JsonConversions) (element : Json) : (scopeHead c element).hasTlsrequired = false := by
  unfold scopeHead
  cases element.get "offset" <;> cases valueText c element <;> rfl

theorem scopeHead_value (c : JsonConversions) (element : Json) :
    match valueText c element with
    | some text => (scopeHead c element).hasValue = true ∧ (scopeHead c element).value = cString text
    | none => (scopeHead c element).hasValue = false := by
  unfold scopeHead
  cases valueText c element with
  | none => exact (readOffset_fresh _).1
  | some text => exact ⟨rfl, rfl⟩

/-- An element that is loaded is loaded as it is, unless one of its texts has a zero byte. -/
theorem given_iff_zeroFree (loaded : (unpackScope c element).granted = .ok scope) : scope.Given c element ↔ ZeroFree c element := by
  have accepted := accepted_of_unpack loaded
  obtain ⟨n, permission, granted, permits, _⟩ := accepted.unpack
  have names := (FieldAccepted.entries accepted).2
  have text (entry : Json) (member : entry ∈ permissionEntries (element.get "permission")) :
      ∃ str, c.getString entry = some str ∧ ascii (strOfPermission (permissionOf c entry)) = cString str := by
    obtain ⟨str, found, same⟩ := (names entry member).exists_string
    refine ⟨str, found, ?_⟩
    rw [← same]
    exact ascii_strOfPermission (same ▸ names entry member)
  rw [granted] at loaded
  cases loaded
  have tls := readTlsRequired_given c { scopeHead c element with nPermission := n, permission := permission }
    (scopeHead_tls c element) (element.get "TlsRequired")
  obtain ⟨hasTls, tlsValue, frame⟩ := readTlsRequired_frame c
    { scopeHead c element with nPermission := n, permission := permission } (element.get "TlsRequired")
  rw [frame] at tls ⊢
  have value := scopeHead_value c element
  constructor
  · intro given
    refine ⟨fun str found => ?_, fun entry member str found => ?_⟩
    · have copied := given.value
      rw [found] at copied value
      exact cString_eq_self_iff.mp (value.2.symm.trans copied.2)
    · obtain ⟨j, here⟩ := List.mem_iff_getElem?.mp member
      obtain ⟨array, atArray, named⟩ := given.permission j entry here
      obtain ⟨array', atArray', same⟩ := permits.2 j entry here
      obtain ⟨str', found', cut⟩ := text entry member
      cases atArray.symm.trans atArray'
      cases found.symm.trans found'
      rw [same, cut, found] at named
      exact cString_eq_self_iff.mp (Option.some.inj named).symm
  · rintro ⟨wholeValue, wholeNames⟩
    refine ⟨scopeHead_offset c element, ?_, permits.1, fun j entry here => ?_, tls⟩
    · cases found : valueText c element with
      | none =>
        rw [found] at value
        exact value
      | some str =>
        rw [found] at value
        exact ⟨value.1, value.2.trans (cString_eq_self_iff.mpr (wholeValue str found))⟩
    · have member := List.mem_of_getElem? here
      obtain ⟨array, atArray, same⟩ := permits.2 j entry here
      obtain ⟨str, found, cut⟩ := text entry member
      refine ⟨array, atArray, ?_⟩
      rw [found, same, cut, cString_eq_self_iff.mpr (wholeNames entry member str found)]

end Elements

section Lists
variable {acl acl' : Acl} {scopes : List Json}

theorem freeScopesLoop_ne_none_iff {si n : Nat} :
    freeScopesLoop acl si n ≠ none ↔ ∀ i, si ≤ i → i < si + n → acl.scope i ≠ none := by
  induction n generalizing si with
  | zero => exact iff_of_true (by rintro ⟨⟩) fun i lower upper => absurd upper (Nat.not_lt.mpr lower)
  | succ n ih =>
    unfold freeScopesLoop
    cases here : acl.scope si with
    | none => exact iff_of_false (fun some => some rfl) fun all => all si le_rfl (by omega) here
    | some scope =>
      rw [ne_eq, Option.map_eq_none_iff, ← ne_eq, ih]
      refine ⟨fun later i lower upper => ?_, fun all i lower upper => all i (by omega) (by omega)⟩
      rcases Nat.eq_or_lt_of_le lower with rfl | above
      · rw [here]
        rintro ⟨⟩
      · exact later i above (by omega)

theorem present_eq_self_iff : (present scopes).length = scopes.length ↔ ∀ element ∈ scopes, element.isNull = false := by
  simp only [present, List.length_filter_eq_length_iff, Bool.not_eq_true']

theorem present_of_all (given : ∀ element ∈ scopes, element.isNull = false) : present scopes = scopes := by
  refine List.filter_eq_self.mpr fun element member => ?_
  rw [given element member]
  rfl

/-- When `unpack_scopes` returns `ACL_OK`, whatever the allocations did, its scopes are those of the array if and only if no
element of the array is `null` and no text in it that is copied or compared has a zero byte. -/
theorem acl_scopes_faithful_iff (c : JsonConversions) (acl acl' : Acl) (fresh : acl.nScope = 0) (scopes : List Json)
    (grants : Nat → Bool) (loaded : ((unpackScopes c acl scopes).outcome grants).result = .ok acl') :
    ScopesFaithful c scopes acl' ↔ ∀ element ∈ scopes, element.isNull = false ∧ ZeroFree c element := by
  obtain ⟨_, filled, appended, rfl⟩ := unpackScopes_ok (granted_of_run_ok loaded).1
  have added (i : Nat) (element : Json) (found : (present scopes)[i]? = some element) :
      ∃ scope, filled.scope i = some scope ∧ (unpackScope c element).granted = .ok scope := by
    have here := appended.added i element found
    simpa only [fresh, Nat.zero_add] using here
  constructor
  · intro faithful element member
    have all := present_eq_self_iff.mp faithful.count.symm
    obtain ⟨i, found⟩ := List.mem_iff_getElem?.mp ((present_of_all all).symm ▸ member)
    obtain ⟨scope, here, given⟩ := faithful.given i element found
    obtain ⟨scope', here', read⟩ := added i element found
    cases here.symm.trans here'
    exact ⟨all element member, (given_iff_zeroFree read).mp given⟩
  · intro clean
    have all := present_of_all fun element member => (clean element member).1
    have nonnull (i : Nat) (below : i < scopes.length) : filled.scope i ≠ none := by
      obtain ⟨scope, here, _⟩ := added i _ (by rw [all]; exact List.getElem?_eq_getElem below)
      rw [here]
      rintro ⟨⟩
    refine ⟨by rw [all], nonnull, fun i element found => ?_, freeScopesLoop_ne_none_iff.mpr fun i _ below => ?_⟩
    · obtain ⟨scope, here, read⟩ := added i element found
      exact ⟨scope, here, (given_iff_zeroFree read).mpr (clean element (List.mem_of_getElem? (all ▸ found))).2⟩
    · rw [Nat.zero_add] at below
      exact nonnull i below

/-- `json-c` with conversions that give nothing: the inputs below need none. -/
def plainConversions : JsonConversions where
  int64 _ := 0
  boolean _ := false
  text _ := []

/-- A scope that grants one permission from an offset on. -/
def readScope : Json :=
  .object [(ascii "offset", .int 5), (ascii "value", .string (ascii "foo")), (ascii "permission", .string (ascii "READ"))]

/-- A scope that grants two permissions over TLS. -/
def tlsScope : Json :=
  .object [(ascii "permission", .array [.string (ascii "READ"), .string (ascii "WRITE")]), (ascii "TlsRequired", .boolean true)]

theorem acl_scopes_faithful_two : ∃ acl',
    ((unpackScopes plainConversions aclInit [readScope, tlsScope]).outcome fun _ => true).result = .ok acl' ∧
    ScopesFaithful plainConversions [readScope, tlsScope] acl' := by
  refine ⟨_, rfl, (acl_scopes_faithful_iff plainConversions aclInit _ rfl [readScope, tlsScope] (fun _ => true) rfl).mpr ?_⟩
  have zeroFree {w : List UInt8} (clear : 0 ∉ w) {text : List UInt8} (found : some w = some text) : 0 ∉ text := by
    cases found
    exact clear
  intro element member
  rcases List.mem_cons.mp member with rfl | member
  · refine ⟨rfl, fun text found => zeroFree (w := ascii "foo") (by decide) found, fun entry member text found => ?_⟩
    cases List.mem_singleton.mp (show entry ∈ [.string (ascii "READ")] from member)
    exact zeroFree (w := ascii "READ") (by decide) found
  · cases List.mem_singleton.mp member
    refine ⟨rfl, by rintro text ⟨⟩, fun entry member text found => ?_⟩
    rcases List.mem_cons.mp (show entry ∈ [.string (ascii "READ"), .string (ascii "WRITE")] from member) with rfl | last
    · exact zeroFree (w := ascii "READ") (by decide) found
    · cases List.mem_singleton.mp last
      exact zeroFree (w := ascii "WRITE") (by decide) found

/-- After a `null` the ACL counts a scope it does not have, and `KineticACL_Free` comes to a `NULL` pointer. -/
theorem acl_scopes_counted_null : ∃ acl',
    ((unpackScopes plainConversions aclInit [.null, readScope]).outcome fun _ => true).result = .ok acl' ∧
    acl'.nScope = 2 ∧ acl'.scope 1 = none ∧ kineticACLFreeScopes acl' = none ∧
    ¬ ScopesFaithful plainConversions [.null, readScope] acl' := by
  refine ⟨_, rfl, rfl, rfl, rfl, fun faithful => ?_⟩
  exact faithful.nonnull 1 (by decide) rfl

end Lists

end Kinetic
