import Kinetic.Acl.Faithful

namespace Kinetic
open Attempt Load
variable {c : JsonConversions}

/-- Some permission array of the document has more entries than `scope->permission` has room for. -/
def LongArray (obj : Json) : Prop :=
  ∃ scopes element names, obj.get "scope" = some (.array scopes) ∧ element ∈ scopes ∧
    element.get "permission" = some (.array names) ∧ aclMaxPermissions < names.length

/-- The permissions of the scope are within its array, and each of them is a permission. -/
def AclScope.Bounded (scope : AclScope) : Prop :=
  scope.nPermission ≤ aclMaxPermissions ∧
    ∀ j < scope.nPermission, ∃ array, scope.permission = some array ∧ array j ≠ .invalidPermission

/-- Whatever the allocations do, all writes to permissions are within their array, so are the permissions of an ACL that is
accepted, and a document with a longer array is rejected with an error. -/
def PermissionsBounded (c : JsonConversions) (obj : Json) : Prop :=
  ∀ grants : Nat → Bool,
    (∀ i ∈ ((readNextACL c obj).outcome grants).notes, i < aclMaxPermissions) ∧
    (∀ acl, ((readNextACL c obj).outcome grants).result = .ok acl →
      ∀ i < acl.nScope, ∀ scope, acl.scope i = some scope → scope.Bounded) ∧
    (LongArray obj → ∃ res, ((readNextACL c obj).outcome grants).result = .error (.result res) ∧ res ≠ .ok ∧ res ≠ .endOfStream)

section Objects
variable {obj element : Json} {scope : AclScope}

theorem unpackScope_bounded (loaded : (unpackScope c element).granted = .ok scope) : scope.Bounded := by
  have accepted := accepted_of_unpack loaded
  obtain ⟨n, permission, granted, ⟨count, named⟩, _⟩ := accepted.unpack
  obtain ⟨short, names⟩ := FieldAccepted.entries accepted
  rw [granted] at loaded
  cases loaded
  obtain ⟨given, value, frame⟩ := readTlsRequired_frame c
    { scopeHead c element with nPermission := n, permission := permission } (element.get "TlsRequired")
  have size : n = (permissionEntries (element.get "permission")).length := count
  rw [frame]
  refine ⟨size ▸ short, fun j below => ?_⟩
  have inside : j < (permissionEntries (element.get "permission")).length := size ▸ below
  obtain ⟨array, atArray, same⟩ := named j _ (List.getElem?_eq_getElem inside)
  exact ⟨array, atArray, same ▸ names _ (List.getElem_mem inside)⟩

/-- The scopes of an ACL that is returned were each unpacked from one of the elements. -/
theorem readNextACL_bounded {acl : Acl} (loaded : (readNextACL c obj).granted = .ok acl) {i : Nat}
    (here : acl.scope i = some scope) : scope.Bounded := by
  obtain ⟨scopes, opens, _⟩ := acceptable_iff.mpr ⟨acl, loaded⟩
  obtain ⟨acl', fresh, granted, _⟩ := opens.read
  obtain ⟨_, filled, appended, rfl⟩ := unpackScopes_ok (granted.symm.trans loaded)
  have start : ({ acl' with scope := fun _ => none } : Acl).nScope = 0 := fresh
  have size := appended.beyond i
  rw [start, Nat.zero_add] at size
  by_cases inside : i < (present scopes).length
  · obtain ⟨scope', atScope, read⟩ := appended.added i _ (List.getElem?_eq_getElem inside)
    rw [start, Nat.zero_add] at atScope
    cases here.symm.trans atScope
    exact unpackScope_bounded read
  · rw [size (Nat.not_lt.mp inside)] at here
    cases here

theorem Acceptable.not_long (acceptable : Acceptable c obj) : ¬ LongArray obj := by
  rintro ⟨scopes, element, names, found, member, field, long⟩
  obtain ⟨scopes', opens, all⟩ := acceptable
  cases opens.scopes.symm.trans found
  have fits := all element member
  rw [Accepted, field] at fits
  exact Nat.not_lt.mpr fits.2 long

/-- The permissions of a document stay in bounds if and only if the loading comes to no array that starts with nine
permission names, and passes no `NULL` if the document has an array of more than eight entries. -/
theorem acl_permissions_bounded_iff (c : JsonConversions) (obj : Json) :
    PermissionsBounded c obj ↔ ¬ WritesPast c obj ∧ (LongArray obj → ¬ PassesNull c obj) := by
  constructor
  · intro bounded
    obtain ⟨result, notes⟩ := run_all (.result .errorMemory) (readNextACL c obj)
    obtain ⟨within, _, rejected⟩ := bounded fun _ => true
    refine ⟨fun past => ?_, fun long null => ?_⟩
    · exact Nat.lt_irrefl _ (within aclMaxPermissions (notes.symm ▸ past.read.2))
    · obtain ⟨res, failed, _⟩ := rejected long
      have undefined := result.symm.trans failed
      rw [null.read.1] at undefined
      cases undefined
  · rintro ⟨inside, named⟩ grants
    have within : ∀ i ∈ (readNextACL c obj).notes, i < aclMaxPermissions := by
      by_cases acceptable : Acceptable c obj
      · exact acceptable.read.2
      by_cases null : PassesNull c obj
      · exact null.read.2
      · exact (readNextACL_rejects acceptable inside null).2
    refine ⟨fun i member => within i ((run_notes_initial _ _ grants).subset member), fun acl loaded i _ scope here => ?_,
      fun long => ?_⟩
    · exact readNextACL_bounded (granted_of_run_ok loaded).1 here
    · rcases run_cases (.result .errorMemory) (readNextACL c obj) grants with ⟨_, result, _⟩ | ⟨_, result, _⟩
      · obtain ⟨res, failed, error⟩ := (readNextACL_rejects (fun acceptable => acceptable.not_long long) inside (named long)).1
        exact ⟨res, result.trans failed, error⟩
      · exact ⟨.errorMemory, result, by decide, by decide⟩

/-- One scope with the same permission nine times. -/
def nineReads : Json :=
  .object [(ascii "scope", .array [.object [(ascii "permission", .array (List.replicate 9 (.string (ascii "READ"))))]])]

/-- The ninth name is written past the end of the array. -/
theorem acl_permission_overrun : 8 ∈ ((readNextACL plainConversions nineReads).outcome fun _ => true).notes ∧
    ¬ PermissionsBounded plainConversions nineReads := by
  have past : 8 ∈ ((readNextACL plainConversions nineReads).outcome fun _ => true).notes := by decide
  exact ⟨past, fun bounded => Nat.lt_irrefl _ ((bounded fun _ => true).1 8 past)⟩

end Objects

end Kinetic
