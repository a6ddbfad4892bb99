import Kinetic.Acl.Scopes

namespace Kinetic
open Attempt Load
variable {c : JsonConversions}

/-- The object has an array of scopes, and nothing before it stops the loading. -/
structure Opens (c : JsonConversions) (obj : Json) (scopes : List Json) : Prop where
  scopes : obj.get "scope" = some (.array scopes)
  key : obj.get "key" ≠ some .null
  hmac : ∀ val, obj.get "HMACAlgorithm" = some val → ∃ str, c.getString val = some str ∧ cString str = ascii "HmacSHA1"

/-- An object of which `read_next_ACL` makes an ACL, if it gets the memory. -/
def Acceptable (c : JsonConversions) (obj : Json) : Prop :=
  ∃ scopes, Opens c obj scopes ∧ ∀ element ∈ scopes, Accepted c element

/-- The loading comes to this element of the scopes. -/
def ComesTo (c : JsonConversions) (obj element : Json) : Prop :=
  ∃ before rest, Opens c obj (before ++ element :: rest) ∧ ∀ other ∈ before, Accepted c other

/-- It comes to permissions with a name too many. -/
def WritesPast (c : JsonConversions) (obj : Json) : Prop := ∃ element, ComesTo c obj element ∧ Overruns c element

/-- It passes `NULL` to a function that takes a string or an array: the scopes are something else than an array, the key or
the algorithm is `null`, or a permission is. -/
def PassesNull (c : JsonConversions) (obj : Json) : Prop :=
  (∃ val, obj.get "scope" = some val ∧ ∀ scopes, val ≠ .array scopes) ∨
  (∃ scopes, obj.get "scope" = some (.array scopes)) ∧ (obj.get "key" = some .null ∨ obj.get "HMACAlgorithm" = some .null) ∨
  ∃ element, ComesTo c obj element ∧ HitsNull c element

section Scopes
variable {acl acl' : Acl} {scopes before rest : List Json} {element : Json}

theorem unpackScopes_accepts (all : ∀ element ∈ scopes, Accepted c element) (acl : Acl) :
    ∃ filled, Appended c scopes { acl with scope := fun _ => none } filled ∧
      (unpackScopes c acl scopes).granted = .ok { filled with nScope := scopes.length } ∧
      ∀ i ∈ (unpackScopes c acl scopes).notes, i < aclMaxPermissions := by
  obtain ⟨filled, noted, appended, granted, notes, within⟩ :=
    unpackScopeLoop_append all [] { acl with scope := fun _ => none }
  rw [List.append_nil] at granted notes
  have read : (unpackScopeLoop c scopes { acl with scope := fun _ => none }).granted = .ok filled := granted
  refine ⟨filled, appended, ?_, ?_⟩
  · rw [unpackScopes, granted_allocate_bind, granted_bind_of_ok read]
    rfl
  · rw [unpackScopes, notes_allocate_bind, notes_bind_of_ok read, notes]
    simpa only [unpackScopeLoop, notes_pure, List.append_nil] using within

/-- The first element that is not accepted decides. -/
theorem unpackScopes_stop {failure : LoadFailure} (all : ∀ other ∈ before, Accepted c other) (refused : ¬ Accepted c element)
    (failed : (unpackScope c element).granted = .error failure) (rest : List Json) (acl : Acl) :
    (unpackScopes c acl (before ++ element :: rest)).granted = .error failure ∧
      ∃ noted, (unpackScopes c acl (before ++ element :: rest)).notes = noted ++ (unpackScope c element).notes ∧
        ∀ i ∈ noted, i < aclMaxPermissions := by
  obtain ⟨filled, noted, _, granted, notes, within⟩ :=
    unpackScopeLoop_append all (element :: rest) { acl with scope := fun _ => none }
  obtain ⟨stopped, last⟩ := unpackScopeLoop_stop refused failed rest filled
  rw [stopped] at granted
  rw [last] at notes
  rw [unpackScopes, granted_allocate_bind, notes_allocate_bind, granted_bind_of_error granted, notes_bind_of_error granted]
  exact ⟨rfl, noted, notes, within⟩

theorem unpackScopes_ok (loaded : (unpackScopes c acl scopes).granted = .ok acl') :
    (∀ element ∈ scopes, Accepted c element) ∧
      ∃ filled, Appended c scopes { acl with scope := fun _ => none } filled ∧ acl' = { filled with nScope := scopes.length } := by
  rcases elements_cases c scopes with all | ⟨before, element, rest, rfl, all, refused⟩
  · obtain ⟨filled, appended, granted, _⟩ := unpackScopes_accepts all acl
    rw [granted] at loaded
    cases loaded
    exact ⟨all, filled, appended, rfl⟩
  · cases stopped : (unpackScope c element).granted with
    | ok scope => exact absurd (accepted_of_unpack stopped) refused
    | error failure =>
      rw [(unpackScopes_stop all refused stopped rest acl).1] at loaded
      cases loaded

end Scopes

section Objects
variable {obj element : Json} {scopes : List Json} {acl : Acl}

theorem readKey_granted (field : Option Json) (present : field ≠ some .null) (acl : Acl) :
    ∃ acl', (readKey c acl field).granted = .ok acl' ∧ (readKey c acl field).notes = [] ∧ acl'.nScope = acl.nScope := by
  cases field with
  | none => exact ⟨acl, rfl, rfl, rfl⟩
  | some val =>
    obtain ⟨str, found⟩ := Option.ne_none_iff_exists'.mp
      (mt getString_eq_none.mp fun null => present (congrArg some null) : c.getString val ≠ none)
    refine ⟨{ acl with hasHmacalgorithm := true, hmacalgorithm := .hmacSHA1, key := cString str, hasKey := true }, ?_, ?_, rfl⟩
    · rw [readKey, found]
      rfl
    · rw [readKey, found]
      rfl

theorem readIdentity_nScope (acl : Acl) (field : Option Json) : (readIdentity c acl field).nScope = acl.nScope := by
  cases field <;> rfl

theorem readNextACL_array (found : obj.get "scope" = some (.array scopes)) : readNextACL c obj = (do
    allocate
    let acl ← readKey c (readIdentity c aclInit (obj.get "identity")) (obj.get "key")
    readHmac c (obj.get "HMACAlgorithm")
    unpackScopes c acl scopes) := by
  rw [readNextACL, found]

/-- Once the fields before them are read, all depends on the scopes. -/
theorem Opens.read (opens : Opens c obj scopes) : ∃ acl, acl.nScope = 0 ∧
    (readNextACL c obj).granted = (unpackScopes c acl scopes).granted ∧
    (readNextACL c obj).notes = (unpackScopes c acl scopes).notes := by
  obtain ⟨acl, key, quiet, fresh⟩ := readKey_granted (c := c) _ opens.key (readIdentity c aclInit (obj.get "identity"))
  have hmac : (readHmac c (obj.get "HMACAlgorithm")).granted = .ok () ∧ (readHmac c (obj.get "HMACAlgorithm")).notes = [] := by
    cases field : obj.get "HMACAlgorithm" with
    | none => exact ⟨rfl, rfl⟩
    | some val =>
      obtain ⟨str, found, same⟩ := opens.hmac val field
      have passed : readHmac c (some val) = .done () := by
        rw [readHmac, found]
        exact if_pos same
      rw [passed]
      exact ⟨rfl, rfl⟩
  refine ⟨acl, fresh.trans (readIdentity_nScope _ _), ?_, ?_⟩
  · rw [readNextACL_array opens.scopes, granted_allocate_bind, granted_bind_of_ok key, granted_bind_of_ok hmac.1]
  · rw [readNextACL_array opens.scopes, notes_allocate_bind, notes_bind_of_ok key, notes_bind_of_ok hmac.1, quiet, hmac.2]
    rfl

theorem Acceptable.read (acceptable : Acceptable c obj) :
    (∃ acl, (readNextACL c obj).granted = .ok acl) ∧ ∀ i ∈ (readNextACL c obj).notes, i < aclMaxPermissions := by
  obtain ⟨scopes, opens, all⟩ := acceptable
  obtain ⟨acl, _, granted, notes⟩ := opens.read
  obtain ⟨filled, _, loaded, within⟩ := unpackScopes_accepts all acl
  exact ⟨⟨_, granted.trans loaded⟩, notes ▸ within⟩

theorem not_accepted_of_overruns (overruns : Overruns c element) : ¬ Accepted c element := by
  intro accepted
  obtain ⟨_, _, granted, _⟩ := accepted.unpack
  rw [overruns.unpack.1] at granted
  cases granted

theorem not_accepted_of_null (null : HitsNull c element) : ¬ Accepted c element := by
  intro accepted
  obtain ⟨_, _, granted, _⟩ := accepted.unpack
  rw [null.unpack.1] at granted
  cases granted

theorem WritesPast.read (past : WritesPast c obj) :
    (readNextACL c obj).granted = .error .undefined ∧ aclMaxPermissions ∈ (readNextACL c obj).notes := by
  obtain ⟨element, ⟨before, rest, opens, all⟩, overruns⟩ := past
  obtain ⟨acl, _, granted, notes⟩ := opens.read
  obtain ⟨failed, noted, last, _⟩ := unpackScopes_stop all (not_accepted_of_overruns overruns) overruns.unpack.1 rest acl
  exact ⟨granted.trans failed, notes.trans last ▸ List.mem_append_right _ overruns.unpack.2⟩

theorem PassesNull.read (null : PassesNull c obj) :
    (readNextACL c obj).granted = .error .undefined ∧ ∀ i ∈ (readNextACL c obj).notes, i < aclMaxPermissions := by
  have quiet : ∀ i ∈ ([] : List Nat), i < aclMaxPermissions := by rintro i ⟨⟩
  rcases null with ⟨val, found, other⟩ | ⟨⟨scopes, found⟩, field⟩ | ⟨element, ⟨before, rest, opens, all⟩, null⟩
  · rw [readNextACL, found]
    cases val with
    | array scopes => exact absurd rfl (other scopes)
    | _ => exact ⟨rfl, quiet⟩
  · rw [readNextACL_array found, granted_allocate_bind, notes_allocate_bind]
    by_cases keyless : obj.get "key" = some .null
    · have failed : (readKey c (readIdentity c aclInit (obj.get "identity")) (some .null)).granted = .error .undefined := rfl
      rw [keyless, granted_bind_of_error failed, notes_bind_of_error failed]
      exact ⟨rfl, quiet⟩
    · obtain ⟨acl, key, silent, _⟩ := readKey_granted (c := c) _ keyless (readIdentity c aclInit (obj.get "identity"))
      have failed : (readHmac c (some .null)).granted = .error .undefined := rfl
      rw [granted_bind_of_ok key, notes_bind_of_ok key, silent, field.resolve_left keyless, granted_bind_of_error failed,
        notes_bind_of_error failed]
      exact ⟨rfl, quiet⟩
  · obtain ⟨acl, _, granted, notes⟩ := opens.read
    obtain ⟨failed, noted, last, within⟩ := unpackScopes_stop all (not_accepted_of_null null) null.unpack.1 rest acl
    exact ⟨granted.trans failed, notes.trans last ▸ List.forall_mem_append.mpr ⟨within, null.unpack.2⟩⟩

/-- Every other object is rejected with an error. -/
theorem readNextACL_rejects (refused : ¬ Acceptable c obj) (within : ¬ WritesPast c obj) (named : ¬ PassesNull c obj) :
    (∃ res, (readNextACL c obj).granted = .error (.result res) ∧ res ≠ .ok ∧ res ≠ .endOfStream) ∧
      ∀ i ∈ (readNextACL c obj).notes, i < aclMaxPermissions := by
  have quiet : ∀ i ∈ ([] : List Nat), i < aclMaxPermissions := by rintro i ⟨⟩
  have closed (scopes : List Json) (opens : Opens c obj scopes) :
      (∃ res, (readNextACL c obj).granted = .error (.result res) ∧ res ≠ .ok ∧ res ≠ .endOfStream) ∧
        ∀ i ∈ (readNextACL c obj).notes, i < aclMaxPermissions := by
    rcases elements_cases c scopes with all | ⟨before, element, rest, rfl, all, wrong⟩
    · exact absurd ⟨scopes, opens, all⟩ refused
    · have comes : ComesTo c obj element := ⟨before, rest, opens, all⟩
      obtain ⟨invalid, inside⟩ := unpackScope_rejects wrong (fun overruns => within ⟨element, comes, overruns⟩)
        fun null => named (.inr (.inr ⟨element, comes, null⟩))
      obtain ⟨acl, _, granted, notes⟩ := opens.read
      obtain ⟨failed, noted, last, earlier⟩ := unpackScopes_stop all wrong invalid rest acl
      exact ⟨⟨_, granted.trans failed, by decide, by decide⟩,
        notes.trans last ▸ List.forall_mem_append.mpr ⟨earlier, inside⟩⟩
  cases found : obj.get "scope" with
  | none =>
    rw [readNextACL, found]
    exact ⟨⟨_, rfl, by decide, by decide⟩, quiet⟩
  | some val =>
    have array : ∃ scopes, val = .array scopes := by
      by_contra other
      exact named (.inl ⟨val, found, fun scopes same => other ⟨scopes, same⟩⟩)
    obtain ⟨scopes, rfl⟩ := array
    have keyed : obj.get "key" ≠ some .null := fun null => named (.inr (.inl ⟨⟨scopes, found⟩, .inl null⟩))
    cases field : obj.get "HMACAlgorithm" with
    | none => exact closed scopes ⟨found, keyed, by rw [field]; rintro val ⟨⟩⟩
    | some val =>
      have given : val ≠ .null := fun null => named (.inr (.inl ⟨⟨scopes, found⟩, .inr (null ▸ field)⟩))
      obtain ⟨str, text⟩ := Option.ne_none_iff_exists'.mp (mt getString_eq_none.mp given : c.getString val ≠ none)
      by_cases known : cString str = ascii "HmacSHA1"
      · refine closed scopes ⟨found, keyed, fun other same => ?_⟩
        rw [field] at same
        cases same
        exact ⟨str, text, known⟩
      · obtain ⟨acl, key, silent, _⟩ := readKey_granted (c := c) _ keyed (readIdentity c aclInit (obj.get "identity"))
        have invalid : readHmac c (some val) = .fail (.result .errorInvalidField) := by
          rw [readHmac, text]
          exact if_neg known
        have failed : (Attempt.fail (.result .errorInvalidField) : Load Unit).granted = .error (.result .errorInvalidField) := rfl
        rw [readNextACL_array found, granted_allocate_bind, notes_allocate_bind, granted_bind_of_ok key, notes_bind_of_ok key,
          silent, field, invalid, granted_bind_of_error failed, notes_bind_of_error failed]
        exact ⟨⟨_, rfl, by decide, by decide⟩, quiet⟩

/-- An ACL is made of what is acceptable, and of nothing else. -/
theorem acceptable_iff : Acceptable c obj ↔ ∃ acl, (readNextACL c obj).granted = .ok acl := by
  refine ⟨fun acceptable => acceptable.read.1, ?_⟩
  rintro ⟨acl, granted⟩
  by_contra refused
  by_cases past : WritesPast c obj
  · rw [past.read.1] at granted
    cases granted
  by_cases null : PassesNull c obj
  · rw [null.read.1] at granted
    cases granted
  · obtain ⟨⟨res, failed, _⟩, _⟩ := readNextACL_rejects refused past null
    rw [failed] at granted
    cases granted

/-- The behaviour is undefined exactly for these two kinds of objects. -/
theorem undefined_iff : (readNextACL c obj).granted = .error .undefined ↔ WritesPast c obj ∨ PassesNull c obj := by
  constructor
  · intro failed
    by_contra neither
    by_cases acceptable : Acceptable c obj
    · obtain ⟨acl, granted⟩ := acceptable.read.1
      rw [granted] at failed
      cases failed
    · obtain ⟨⟨res, other, _⟩, _⟩ := readNextACL_rejects acceptable (fun past => neither (.inl past))
        fun null => neither (.inr null)
      rw [other] at failed
      cases failed
  · rintro (past | null)
    · exact past.read.1
    · exact null.read.1

end Objects

end Kinetic
