import Kinetic.Acl.Reading

namespace Kinetic
open Attempt Load
variable {c : JsonConversions}

/-- The element is skipped, or its permissions are accepted: a `null` has no fields. -/
def Accepted (c : JsonConversions) (element : Json) : Prop := FieldAccepted c (element.get "permission")

def Overruns (c : JsonConversions) (element : Json) : Prop := FieldOverruns c (element.get "permission")

def HitsNull (c : JsonConversions) (element : Json) : Prop := FieldNull c (element.get "permission")

/-- The elements that are not `null`. -/
def present (scopes : List Json) : List Json := scopes.filter fun element => !element.isNull

section Elements
variable {element : Json} {scope : AclScope}

theorem Accepted.of_null (null : element.isNull = true) : Accepted c element := by
  cases element with
  | null => exact trivial
  | _ => cases null

theorem Accepted.unpack (accepted : Accepted c element) :
    ∃ n permission, (unpackScope c element).granted = .ok (readTlsRequired c
        { scopeHead c element with nPermission := n, permission := permission } (element.get "TlsRequired")) ∧
      AclScope.Permits c (permissionEntries (element.get "permission"))
        { scopeHead c element with nPermission := n, permission := permission } ∧
      ∀ i ∈ (unpackScope c element).notes, i < aclMaxPermissions := by
  obtain ⟨n, permission, read, permits, within⟩ := FieldAccepted.unpack accepted (scopeHead c element) (scopeHead_fresh c element)
  obtain ⟨granted, notes⟩ := unpackScope_eq c element
  rw [read] at granted
  exact ⟨n, permission, granted, permits, notes ▸ within⟩

theorem Overruns.unpack (overruns : Overruns c element) :
    (unpackScope c element).granted = .error .undefined ∧ aclMaxPermissions ∈ (unpackScope c element).notes := by
  obtain ⟨failed, noted⟩ := FieldOverruns.unpack overruns (scopeHead c element)
  obtain ⟨granted, notes⟩ := unpackScope_eq c element
  rw [failed] at granted
  exact ⟨granted, notes ▸ noted⟩

theorem HitsNull.unpack (null : HitsNull c element) :
    (unpackScope c element).granted = .error .undefined ∧ ∀ i ∈ (unpackScope c element).notes, i < aclMaxPermissions := by
  obtain ⟨failed, noted⟩ := FieldNull.unpack null (scopeHead c element)
  obtain ⟨granted, notes⟩ := unpackScope_eq c element
  rw [failed] at granted
  exact ⟨granted, notes ▸ noted⟩

theorem unpackScope_rejects (refused : ¬ Accepted c element) (within : ¬ Overruns c element) (named : ¬ HitsNull c element) :
    (unpackScope c element).granted = .error (.result .errorInvalidField) ∧
      ∀ i ∈ (unpackScope c element).notes, i < aclMaxPermissions := by
  obtain ⟨failed, noted⟩ := unpackPermission_rejects refused within named (scopeHead c element)
  obtain ⟨granted, notes⟩ := unpackScope_eq c element
  rw [failed] at granted
  exact ⟨granted, notes ▸ noted⟩

/-- Only what is accepted is loaded. -/
theorem accepted_of_unpack (loaded : (unpackScope c element).granted = .ok scope) : Accepted c element := by
  by_contra refused
  have failed : ∃ failure, (unpackScope c element).granted = .error failure := by
    by_cases overruns : Overruns c element
    · exact ⟨_, overruns.unpack.1⟩
    by_cases null : HitsNull c element
    · exact ⟨_, null.unpack.1⟩
    · exact ⟨_, (unpackScope_rejects refused overruns null).1⟩
  obtain ⟨failure, failed⟩ := failed
  rw [failed] at loaded
  cases loaded

end Elements

/-- What the loop of `unpack_scopes` makes of an ACL: it appends one scope for each element that is not `null`. -/
structure Appended (c : JsonConversions) (elements : List Json) (acl acl' : Acl) : Prop where
  rest : acl' = { acl with scope := acl'.scope, nScope := acl.nScope + (present elements).length }
  kept : ∀ i < acl.nScope, acl'.scope i = acl.scope i
  added : ∀ (i : Nat) (element : Json), (present elements)[i]? = some element →
    ∃ scope, acl'.scope (acl.nScope + i) = some scope ∧ (unpackScope c element).granted = .ok scope
  beyond : ∀ i, acl.nScope + (present elements).length ≤ i → acl'.scope i = acl.scope i

section Lists
variable {element : Json} {elements before rest : List Json} {acl acl' : Acl}

theorem present_cons_null (null : element.isNull = true) (rest : List Json) : present (element :: rest) = present rest := by
  simp only [present, List.filter_cons, null, Bool.not_true, Bool.false_eq_true, if_false]

theorem present_cons_some (given : ¬ element.isNull = true) (rest : List Json) :
    present (element :: rest) = element :: present rest := by
  simp only [present, List.filter_cons, given, Bool.not_false, if_true]

theorem Appended.nil (acl : Acl) : Appended c [] acl acl where
  rest := rfl
  kept _ _ := rfl
  added _ _ := by rintro ⟨⟩
  beyond _ _ := rfl

theorem Appended.cons_null (null : element.isNull = true) (later : Appended c elements acl acl') :
    Appended c (element :: elements) acl acl' := by
  have same := present_cons_null null elements
  exact ⟨same ▸ later.rest, later.kept, same ▸ later.added, same ▸ later.beyond⟩

theorem Appended.cons_some {scope : AclScope} (given : ¬ element.isNull = true)
    (loaded : (unpackScope c element).granted = .ok scope)
    (later : Appended c elements
      { acl with scope := Function.update acl.scope acl.nScope (some scope), nScope := acl.nScope + 1 } acl') :
    Appended c (element :: elements) acl acl' := by
  have size : acl.nScope + (present (element :: elements)).length = acl.nScope + 1 + (present elements).length := by
    rw [present_cons_some given, List.length_cons]
    omega
  refine ⟨?_, fun i below => ?_, fun i other found => ?_, fun i above => ?_⟩
  · rw [size]
    exact later.rest
  · exact (later.kept i (Nat.lt_succ_of_lt below)).trans (Function.update_of_ne (Nat.ne_of_lt below) ..)
  · rw [present_cons_some given] at found
    cases i with
    | zero =>
      cases found
      exact ⟨scope, (later.kept acl.nScope (Nat.lt_succ_self _)).trans (Function.update_self ..), loaded⟩
    | succ i =>
      obtain ⟨scope', here, read⟩ := later.added i other found
      exact ⟨scope', (congrArg acl'.scope (by simp only; omega)).trans here, read⟩
  · rw [size] at above
    exact (later.beyond i above).trans (Function.update_of_ne (by omega) ..)

/-- The loop gets through the elements that are accepted. -/
theorem unpackScopeLoop_append (accepted : ∀ element ∈ before, Accepted c element) (rest : List Json) (acl : Acl) :
    ∃ acl' noted, Appended c before acl acl' ∧
      (unpackScopeLoop c (before ++ rest) acl).granted = (unpackScopeLoop c rest acl').granted ∧
      (unpackScopeLoop c (before ++ rest) acl).notes = noted ++ (unpackScopeLoop c rest acl').notes ∧
      ∀ i ∈ noted, i < aclMaxPermissions := by
  induction before generalizing acl with
  | nil => exact ⟨acl, [], .nil acl, rfl, rfl, by rintro i ⟨⟩⟩
  | cons element before ih =>
    obtain ⟨first, others⟩ := List.forall_mem_cons.mp accepted
    rw [List.cons_append, unpackScopeLoop]
    by_cases null : element.isNull = true
    · rw [if_pos null]
      obtain ⟨acl', noted, appended, granted, notes, within⟩ := ih others acl
      exact ⟨acl', noted, appended.cons_null null, granted, notes, within⟩
    · obtain ⟨n, permission, loaded, _, inside⟩ := first.unpack
      obtain ⟨acl', noted, appended, granted, notes, within⟩ := ih others _
      rw [if_neg null, granted_bind_of_ok loaded, notes_bind_of_ok loaded, granted, notes, ← List.append_assoc]
      exact ⟨acl', _, appended.cons_some null loaded, rfl, rfl, List.forall_mem_append.mpr ⟨inside, within⟩⟩

/-- It stops at the first one that is not. -/
theorem unpackScopeLoop_stop {failure : LoadFailure} (refused : ¬ Accepted c element)
    (failed : (unpackScope c element).granted = .error failure) (rest : List Json) (acl : Acl) :
    (unpackScopeLoop c (element :: rest) acl).granted = .error failure ∧
      (unpackScopeLoop c (element :: rest) acl).notes = (unpackScope c element).notes := by
  rw [unpackScopeLoop, if_neg (mt Accepted.of_null refused)]
  exact ⟨granted_bind_of_error failed, notes_bind_of_error failed⟩

/-- Either all elements are accepted, or there is a first one that is not. -/
theorem elements_cases (c : JsonConversions) (elements : List Json) : (∀ element ∈ elements, Accepted c element) ∨
    ∃ before element rest, elements = before ++ element :: rest ∧ (∀ other ∈ before, Accepted c other) ∧
      ¬ Accepted c element := by
  induction elements with
  | nil => exact .inl (by rintro element ⟨⟩)
  | cons first elements ih =>
    by_cases accepted : Accepted c first
    · rcases ih with all | ⟨before, element, rest, rfl, all, refused⟩
      · exact .inl (List.forall_mem_cons.mpr ⟨accepted, all⟩)
      · exact .inr ⟨first :: before, element, rest, rfl, List.forall_mem_cons.mpr ⟨accepted, all⟩, refused⟩
    · exact .inr ⟨[], first, elements, rfl, by rintro other ⟨⟩, accepted⟩

end Lists

end Kinetic
