import Kinetic.Acl.Loader
import Kinetic.Acl.Faithful

namespace Kinetic
open Attempt Load

/-- An error is returned, and `*instance` is not set. -/
def Loaded.IsError (loaded : Loaded) : Prop := loaded.res ≠ .ok ∧ loaded.res ≠ .endOfStream ∧ loaded.group = none

/-- The loop keeps within its array and ends; with `ACL_OK` there is one ACL for every object of the buffer, in their order;
and if an object is not acceptable, or the tokener rejects the text, or an allocation fails, the result is an error. -/
structure LoadsWhole (tok : Tokener) (c : JsonConversions) (buf : List UInt8) (allocs : Allocations) : Prop where
  bounded : ∀ s, Transition.Reach (loadStep tok c buf allocs) loadStart (fun _ _ => True) s →
    s.group.acls.length ≤ s.group.ceil
  returns : ∃ loaded, (∀ fuel, buf.length < fuel → aclOfString tok c buf allocs fuel = some (.returned loaded)) ∧
    (loaded.res = .ok → ∃ objs rest group, Parses tok buf objs rest ∧ tok.parse rest = .parseEof ∧
      loaded.group = some group ∧ MadeOf c objs group.acls) ∧
    ((∃ objs obj rest, Parses tok buf (objs ++ [obj]) rest ∧ ¬ Acceptable c obj) ∨
      (∃ objs rest, Parses tok buf objs rest ∧ tok.parse rest = .error) → loaded.IsError) ∧
    ((∃ j < loaded.asked, allocs.grants j = false) ∨ (∃ j < loaded.grown, allocs.grows j = false) → loaded.IsError)

/-- Every doubling of the array gets its memory that the acceptable objects at the start of the buffer ask for. -/
def GrowthsGranted (tok : Tokener) (c : JsonConversions) (buf : List UInt8) (grows : Nat → Bool) : Prop :=
  ∀ objs rest m, Parses tok buf objs rest → (∀ obj ∈ objs, Acceptable c obj) → 2 ^ m < objs.length → grows m = true

/-- After the acceptable objects at the start of the buffer comes none that leads to undefined behaviour. -/
def LoadsDefined (tok : Tokener) (c : JsonConversions) (buf : List UInt8) : Prop :=
  ∀ objs obj rest, Parses tok buf (objs ++ [obj]) rest → (∀ other ∈ objs, Acceptable c other) →
    ¬ WritesPast c obj ∧ ¬ PassesNull c obj

/-- The ACLs fit in the array of the group. -/
def AclGroup.Fits (group : AclGroup) : Prop := 0 < group.ceil ∧ group.acls.length ≤ group.ceil

/-- What holds at the head of the loop after the given objects. -/
structure LoadInv (tok : Tokener) (c : JsonConversions) (buf : List UInt8) (allocs : Allocations) (objs : List Json)
    (s : LoadState) : Prop where
  parsed : Parses tok buf objs (buf.drop s.offset)
  within : s.offset ≤ buf.length
  made : MadeOf c objs s.group.acls
  room : s.group.acls.length ≤ s.group.ceil
  power : s.group.ceil = 2 ^ s.grown
  granted : ∀ j < s.asked, allocs.grants j = true
  grew : ∀ j < s.grown, allocs.grows j = true
  res : objs = [] ∧ s.res = .errorMemory ∨ objs ≠ [] ∧ s.res = .ok

section Loader
variable {tok : Tokener} {c : JsonConversions} {buf : List UInt8} {allocs : Allocations} {objs : List Json} {s t : LoadState}
variable {obj : Json} {n : Nat}

theorem MadeOf.acceptable {acls : List Acl} (made : MadeOf c objs acls) : ∀ obj ∈ objs, Acceptable c obj := by
  intro obj member
  obtain ⟨i, inside, rfl⟩ := List.getElem_of_mem member
  have inside' : i < acls.length := made.length_eq ▸ inside
  exact acceptable_iff.mpr ⟨_, List.Forall₂.get made inside inside'⟩

theorem MadeOf.snoc {acls : List Acl} {acl : Acl} (made : MadeOf c objs acls) (read : (readNextACL c obj).granted = .ok acl) :
    MadeOf c (objs ++ [obj]) (acls ++ [acl]) := List.rel_append made (.cons read .nil)

/-- Everything `addACL` can do. -/
theorem addACL_cases (allocs : Allocations) (s : LoadState) (acl : Acl) :
    (s.group.acls.length = s.group.ceil ∧ allocs.grows s.grown = false ∧
      addACL allocs s acl = .leave { s with grown := s.grown + 1 }) ∨
    (s.group.acls.length = s.group.ceil ∧ allocs.grows s.grown = true ∧
      addACL allocs s acl = .next { s with group := ⟨2 * s.group.ceil, s.group.acls ++ [acl]⟩, grown := s.grown + 1 }) ∨
    (s.group.acls.length ≠ s.group.ceil ∧
      addACL allocs s acl = .next { s with group := { s.group with acls := s.group.acls ++ [acl] } }) := by
  unfold addACL
  by_cases full : s.group.acls.length = s.group.ceil
  · rw [if_pos full]
    cases grows : allocs.grows s.grown with
    | false => exact .inl ⟨full, rfl, rfl⟩
    | true => exact .inr (.inl ⟨full, rfl, rfl⟩)
  · rw [if_neg full]
    exact .inr (.inr ⟨full, rfl⟩)

/-- A turn that goes on to the next one has added an ACL to the group. -/
theorem loadStep_adds (step : loadStep tok c buf allocs s () = some t) :
    ∃ s' acl, s'.group = s.group ∧ addACL allocs s' acl = .next t := by
  unfold loadStep at step
  cases turn : loadTurn tok c buf allocs s with
  | leave t => simp [turn] at step
  | undefined => simp [turn] at step
  | next u =>
    simp only [turn, Option.some.injEq] at step
    subst step
    unfold loadTurn at turn
    split at turn
    · cases turn
    · split at turn
      · cases turn
      · cases turn
      · split at turn
        · cases turn
        · unfold readTurn at turn
          dsimp only at turn
          split at turn
          · refine ⟨_, _, ?_, turn⟩
            rfl
          · cases turn
          · cases turn

theorem addACL_fits {acl : Acl} (fits : s.group.Fits) (added : addACL allocs s acl = .next t) : t.group.Fits := by
  obtain ⟨positive, room⟩ := fits
  rcases addACL_cases allocs s acl with ⟨_, _, left⟩ | ⟨full, _, next⟩ | ⟨free, next⟩
  · rw [left] at added
    cases added
  · rw [next] at added
    cases added
    simp only [AclGroup.Fits, List.length_append, List.length_singleton]
    omega
  · rw [next] at added
    cases added
    simp only [AclGroup.Fits, List.length_append, List.length_singleton]
    omega

theorem group_fits (reach : Transition.Reach (loadStep tok c buf allocs) loadStart (fun _ _ => True) s) : s.group.Fits := by
  have start : loadStart.group.Fits := ⟨Nat.one_pos, Nat.zero_le _⟩
  have keep (s : LoadState) (l : Unit) (t : LoadState) (fits : s.group.Fits) (_ : True)
      (step : loadStep tok c buf allocs s l = some t) : t.group.Fits := by
    obtain ⟨s', acl, same, added⟩ := loadStep_adds step
    exact addACL_fits (same.symm ▸ fits) added
  exact reach.invariant start keep

theorem errorMemory_isError :
    KineticACLLoadResult.errorMemory ≠ .ok ∧ KineticACLLoadResult.errorMemory ≠ .endOfStream := by
  decide

theorem errorBadJson_isError :
    KineticACLLoadResult.errorBadJson ≠ .ok ∧ KineticACLLoadResult.errorBadJson ≠ .endOfStream := by
  decide

theorem not_acceptable_null : ¬ Acceptable c .null := by
  rintro ⟨scopes, opens, _⟩
  cases opens.scopes

theorem defined_null : ¬ WritesPast c .null ∧ ¬ PassesNull c .null := by
  constructor
  · rintro ⟨element, ⟨before, rest, opens, _⟩, _⟩
    cases opens.scopes
  · rintro (⟨val, found, _⟩ | ⟨⟨scopes, found⟩, _⟩ | ⟨element, ⟨before, rest, opens, _⟩, _⟩)
    · cases found
    · cases found
    · cases opens.scopes

/-- The state in which `read_next_ACL` has returned. -/
def afterRead (c : JsonConversions) (allocs : Allocations) (s : LoadState) (obj : Json) (n : Nat)
    (res : KineticACLLoadResult) : LoadState :=
  { s with offset := s.offset + n, res := res, asked := s.asked +
      ((readNextACL c obj).outcome fun j => allocs.grants (s.asked + j)).asked }

theorem readTurn_ok {acl : Acl} (read : ((readNextACL c obj).outcome fun j => allocs.grants (s.asked + j)).result = .ok acl) :
    readTurn c allocs s obj n = addACL allocs (afterRead c allocs s obj n .ok) acl := by
  unfold readTurn
  dsimp only
  rw [read]
  rfl

theorem readTurn_error {res : KineticACLLoadResult}
    (read : ((readNextACL c obj).outcome fun j => allocs.grants (s.asked + j)).result = .error (.result res)) :
    readTurn c allocs s obj n = .leave (afterRead c allocs s obj n res) := by
  unfold readTurn
  dsimp only
  rw [read]
  rfl

theorem readTurn_undefined
    (read : ((readNextACL c obj).outcome fun j => allocs.grants (s.asked + j)).result = .error .undefined) :
    readTurn c allocs s obj n = .undefined := by
  unfold readTurn
  dsimp only
  rw [read]

/-- What the loop does with an ACL that has been read. -/
theorem LoadInv.add {acl : Acl} (inv : LoadInv tok c buf allocs objs s) (taken : tok.parse (buf.drop s.offset) = .value obj n)
    (read : (readNextACL c obj).granted = .ok acl)
    (all : ∀ j < ((readNextACL c obj).outcome fun j => allocs.grants (s.asked + j)).asked, allocs.grants (s.asked + j) = true) :
    (∃ t, addACL allocs (afterRead c allocs s obj n .ok) acl = .next t ∧ LoadInv tok c buf allocs (objs ++ [obj]) t ∧
      t.offset = s.offset + n) ∨
    allocs.grows s.grown = false ∧ s.group.acls.length = s.group.ceil ∧
      ∃ t, addACL allocs (afterRead c allocs s obj n .ok) acl = .leave t ∧ t.res = .ok ∧ t.group = s.group ∧
        t.grown = s.grown + 1 := by
  have parsed : Parses tok buf (objs ++ [obj]) (buf.drop (s.offset + n)) := by
    rw [← List.drop_drop]
    exact inv.parsed.snoc taken
  have within : s.offset + n ≤ buf.length := by
    have consumed := (tok.consumes taken).2
    rw [List.length_drop] at consumed
    have before := inv.within
    omega
  have granted (j : Nat) (below : j < (afterRead c allocs s obj n .ok).asked) : allocs.grants j = true := by
    by_cases earlier : j < s.asked
    · exact inv.granted j earlier
    · have later := all (j - s.asked) (by simp only [afterRead] at below; omega)
      rwa [Nat.add_sub_cancel' (Nat.not_lt.mp earlier)] at later
  have made := inv.made.snoc read
  have res : objs ++ [obj] = [] ∧ KineticACLLoadResult.ok = .errorMemory ∨ objs ++ [obj] ≠ [] ∧ KineticACLLoadResult.ok = .ok :=
    .inr ⟨List.append_ne_nil_of_right_ne_nil _ (List.cons_ne_nil _ _), rfl⟩
  have room := inv.room
  have power := inv.power
  have positive := Nat.two_pow_pos s.grown
  rcases addACL_cases allocs (afterRead c allocs s obj n .ok) acl with ⟨full, refused, left⟩ | ⟨full, grew, next⟩ | ⟨free, next⟩
  · exact .inr ⟨refused, full, _, left, rfl, rfl, rfl⟩
  · refine .inl ⟨_, next, ⟨parsed, within, made, ?_, ?_, granted, fun j below => ?_, res⟩, rfl⟩
    · simp only [afterRead, List.length_append, List.length_singleton] at full ⊢
      omega
    · simp only [afterRead, power, Nat.pow_succ, Nat.mul_comm]
    · rcases Nat.lt_succ_iff_lt_or_eq.mp below with earlier | rfl
      · exact inv.grew j earlier
      · exact grew
  · refine .inl ⟨_, next, ⟨parsed, within, made, ?_, power, granted, inv.grew, res⟩, rfl⟩
    simp only [afterRead, List.length_append, List.length_singleton] at free ⊢
    omega

/-- The turn with an object: it goes on with one more ACL, or the array cannot grow, or the object leads to undefined
behaviour, or it leaves with an error. -/
theorem LoadInv.readTurn (inv : LoadInv tok c buf allocs objs s) (taken : tok.parse (buf.drop s.offset) = .value obj n) :
    (Acceptable c obj ∧
      ((∃ t, Kinetic.readTurn c allocs s obj n = .next t ∧ LoadInv tok c buf allocs (objs ++ [obj]) t ∧ t.offset = s.offset + n) ∨
        allocs.grows s.grown = false ∧ s.group.acls.length = s.group.ceil ∧
          ∃ t, Kinetic.readTurn c allocs s obj n = .leave t ∧ t.res = .ok ∧ t.group = s.group ∧ t.grown = s.grown + 1)) ∨
    ((WritesPast c obj ∨ PassesNull c obj) ∧ Kinetic.readTurn c allocs s obj n = .undefined) ∨
    (∃ t, Kinetic.readTurn c allocs s obj n = .leave t ∧ t.res ≠ .ok ∧ t.res ≠ .endOfStream) ∧
      ((∃ j, allocs.grants j = false) ∨ ¬ Acceptable c obj ∧ ¬ (WritesPast c obj ∨ PassesNull c obj)) := by
  rcases run_cases (.result .errorMemory) (readNextACL c obj) fun j => allocs.grants (s.asked + j) with
    ⟨all, result, _⟩ | ⟨⟨j, _, refused⟩, result, _⟩
  · by_cases acceptable : Acceptable c obj
    · obtain ⟨acl, read⟩ := acceptable_iff.mp acceptable
      rw [readTurn_ok (result.trans read)]
      exact .inl ⟨acceptable, inv.add taken read all⟩
    · by_cases undefined : WritesPast c obj ∨ PassesNull c obj
      · exact .inr (.inl ⟨undefined, readTurn_undefined (result.trans (undefined_iff.mpr undefined))⟩)
      · obtain ⟨⟨res, failed, error⟩, _⟩ := readNextACL_rejects acceptable (fun past => undefined (.inl past))
          fun null => undefined (.inr null)
        exact .inr (.inr ⟨⟨_, readTurn_error (result.trans failed), error⟩, .inr ⟨acceptable, undefined⟩⟩)
  · exact .inr (.inr ⟨⟨_, readTurn_error result, errorMemory_isError⟩, .inl ⟨_, refused⟩⟩)

/-- A turn: the objects are at their end, or it leaves with an error, or it is a turn with an object. -/
theorem loadTurn_cases (tok : Tokener) (c : JsonConversions) (buf : List UInt8) (allocs : Allocations) (s : LoadState) :
    (tok.parse (buf.drop s.offset) = .parseEof ∧ ∃ res, loadTurn tok c buf allocs s = .leave { s with res := res } ∧
      (res = s.res ∨ res = .endOfStream)) ∨
    ((∀ obj n, tok.parse (buf.drop s.offset) = .value obj n → obj = .null) ∧
      ∃ t, loadTurn tok c buf allocs s = .leave t ∧ t.res ≠ .ok ∧ t.res ≠ .endOfStream) ∨
    ∃ obj n, tok.parse (buf.drop s.offset) = .value obj n ∧
      loadTurn tok c buf allocs s = Kinetic.readTurn c allocs s obj n := by
  unfold loadTurn
  by_cases done : s.offset = buf.length
  · rw [if_pos done]
    refine .inl ⟨tok.parseEof ?_, s.res, rfl, .inl rfl⟩
    rw [done, List.drop_length]
    rintro byte ⟨⟩
  rw [if_neg done]
  cases parse : tok.parse (buf.drop s.offset) with
  | parseEof => exact .inl ⟨rfl, _, rfl, .inr rfl⟩
  | error => exact .inr (.inl ⟨by rintro obj n ⟨⟩, _, rfl, errorBadJson_isError⟩)
  | value obj n =>
    cases null : obj.isNull with
    | false => exact .inr (.inr ⟨obj, n, rfl, if_neg (by rw [null]; rintro ⟨⟩)⟩)
    | true =>
      have same : obj = .null := by
        cases obj with
        | null => rfl
        | _ => cases null
      refine .inr (.inl ⟨?_, _, if_pos null, errorBadJson_isError⟩)
      rintro other m ⟨⟩
      exact same

/-- The turn with an object that the tokener has taken. -/
theorem loadTurn_of_taken (allocs : Allocations) (taken : tok.parse (buf.drop s.offset) = .value obj n) (given : obj ≠ .null) :
    loadTurn tok c buf allocs s = Kinetic.readTurn c allocs s obj n := by
  rcases loadTurn_cases tok c buf allocs s with ⟨finished, _⟩ | ⟨null, _⟩ | ⟨obj', n', taken', same⟩
  · rw [finished] at taken
    cases taken
  · exact absurd (null _ _ taken) given
  · cases taken.symm.trans taken'
    exact same

/-- What is returned is an error, or all of the ACLs, no allocation having failed. -/
def Whole (tok : Tokener) (c : JsonConversions) (buf : List UInt8) (allocs : Allocations) (loaded : Loaded) : Prop :=
  loaded.IsError ∨
    (∃ objs rest group, Parses tok buf objs rest ∧ tok.parse rest = .parseEof ∧ loaded.group = some group ∧
      MadeOf c objs group.acls) ∧
    (∀ j < loaded.asked, allocs.grants j = true) ∧ ∀ j < loaded.grown, allocs.grows j = true

theorem loadCleanup_error (failed : s.res ≠ .ok) (more : s.res ≠ .endOfStream) : (loadCleanup s).IsError := by
  have neither : ¬ (s.res = .endOfStream ∨ s.res = .ok) := by
    rintro (same | same)
    · exact more same
    · exact failed same
  rw [loadCleanup, if_neg neither]
  exact ⟨failed, more, rfl⟩

theorem loadCleanup_ok (ended : s.res = .endOfStream ∨ s.res = .ok) (some : s.group.acls ≠ []) :
    loadCleanup s = ⟨.ok, .some s.group, s.asked, s.grown⟩ := by
  rw [loadCleanup, if_pos ended, if_neg (mt List.length_eq_zero_iff.mp some)]

theorem loadCleanup_empty (ended : s.res = .endOfStream ∨ s.res = .ok) (none : s.group.acls = []) : (loadCleanup s).IsError := by
  rw [loadCleanup, if_pos ended, if_pos (by rw [none]; rfl)]
  exact ⟨errorBadJson_isError.1, errorBadJson_isError.2, rfl⟩

/-- When the objects are at their end, the cleanup returns all of the ACLs if there are any. -/
theorem LoadInv.cleanup {res : KineticACLLoadResult} (inv : LoadInv tok c buf allocs objs s)
    (finished : tok.parse (buf.drop s.offset) = .parseEof) (ended : res = s.res ∨ res = .endOfStream) :
    Whole tok c buf allocs (loadCleanup { s with res := res }) := by
  by_cases none : s.group.acls = []
  · refine .inl ?_
    by_cases good : res = .endOfStream ∨ res = .ok
    · exact loadCleanup_empty (s := { s with res := res }) good none
    · exact loadCleanup_error (s := { s with res := res }) (fun same => good (.inr same)) fun same => good (.inl same)
  · have objects : objs ≠ [] := by
      rintro rfl
      cases made : s.group.acls with
      | nil => exact none made
      | cons acl acls =>
        have impossible := inv.made
        rw [made] at impossible
        cases impossible
    have good : res = .endOfStream ∨ res = .ok := by
      rcases ended with same | same
      · exact .inr (same.trans (inv.res.resolve_left fun empty => objects empty.1).2)
      · exact .inl same
    rw [loadCleanup_ok (s := { s with res := res }) good none]
    exact .inr ⟨⟨objs, _, s.group, inv.parsed, finished, rfl, inv.made⟩, inv.granted, inv.grew⟩

/-- With the growths it asks for, and without undefined behaviour, the loop ends with an error or with all of the ACLs. -/
theorem LoadInv.loop (inv : LoadInv tok c buf allocs objs s) (growths : GrowthsGranted tok c buf allocs.grows)
    (defined : LoadsDefined tok c buf) {fuel : Nat} (enough : buf.length - s.offset < fuel) :
    ∃ loaded, loadLoop tok c buf allocs fuel s = some (.returned loaded) ∧ Whole tok c buf allocs loaded := by
  induction fuel generalizing objs s with
  | zero => exact absurd enough (Nat.not_lt_zero _)
  | succ fuel ih =>
    unfold loadLoop
    rcases loadTurn_cases tok c buf allocs s with ⟨finished, res, left, ended⟩ | ⟨_, t, left, failed, more⟩ | ⟨obj, n, taken, same⟩
    · rw [left]
      exact ⟨_, rfl, inv.cleanup finished ended⟩
    · rw [left]
      exact ⟨_, rfl, .inl (loadCleanup_error failed more)⟩
    rw [same]
    have parsed := inv.parsed.snoc taken
    rcases inv.readTurn taken with
      ⟨acceptable, ⟨t, next, later, offset⟩ | ⟨refused, full, _⟩⟩ | ⟨undefined, _⟩ | ⟨⟨t, left, failed, more⟩, _⟩
    · rw [next]
      have consumed := tok.consumes taken
      rw [List.length_drop] at consumed
      exact ih later (by omega)
    · have all : ∀ other ∈ objs ++ [obj], Acceptable c other :=
        List.forall_mem_append.mpr ⟨inv.made.acceptable, List.forall_mem_singleton.mpr acceptable⟩
      have count := List.Forall₂.length_eq inv.made
      have power := inv.power
      have grows := growths _ _ s.grown parsed all (by rw [List.length_append, List.length_singleton]; omega)
      rw [refused] at grows
      cases grows
    · obtain ⟨past, null⟩ := defined objs obj _ parsed inv.made.acceptable
      exact absurd undefined (not_or.mpr ⟨past, null⟩)
    · rw [left]
      exact ⟨_, rfl, .inl (loadCleanup_error failed more)⟩

/-- What ends badly: undefined behaviour, or `ACL_OK` after a growth that failed. -/
def EndsBadly (allocs : Allocations) (done : Option LoadEnd) : Prop :=
  done = some .undefined ∨ ∃ loaded, done = some (.returned loaded) ∧ loaded.res = .ok ∧ ∃ j < loaded.grown, allocs.grows j = false

/-- With all other allocations succeeding, the loop gets through acceptable objects unless a growth fails. -/
theorem LoadInv.advance (inv : LoadInv tok c buf allocs objs s) (granted : ∀ j, allocs.grants j = true) {more : List Json}
    {rest : List UInt8} (parses : Parses tok (buf.drop s.offset) more rest) (all : ∀ obj ∈ more, Acceptable c obj) (fuel : Nat) :
    EndsBadly allocs (loadLoop tok c buf allocs (fuel + more.length) s) ∨
    ∃ t, LoadInv tok c buf allocs (objs ++ more) t ∧ buf.drop t.offset = rest ∧
      loadLoop tok c buf allocs (fuel + more.length) s = loadLoop tok c buf allocs fuel t := by
  induction more generalizing objs s with
  | nil =>
    cases parses with
    | nil => exact .inr ⟨s, by rwa [List.append_nil], rfl, rfl⟩
  | cons obj more ih =>
    obtain ⟨acceptable, others⟩ := List.forall_mem_cons.mp all
    cases parses with
    | cons taken onward =>
      rw [List.length_cons, ← Nat.add_assoc, loadLoop]
      have given : obj ≠ .null := by
        rintro rfl
        exact not_acceptable_null acceptable
      rw [loadTurn_of_taken allocs taken given]
      rcases inv.readTurn taken with
        ⟨_, ⟨t, next, later, offset⟩ | ⟨refused, full, t, left, res, group, grown⟩⟩ | ⟨_, undefined⟩ | ⟨_, ⟨j, refused⟩ | ⟨wrong, _⟩⟩
      · rw [next]
        rw [List.drop_drop, ← offset] at onward
        rcases ih later onward others with bad | ⟨u, at_u, rest, run⟩
        · exact .inl bad
        · exact .inr ⟨u, by rwa [List.append_assoc] at at_u, rest, run⟩
      · have power := inv.power
        have positive := Nat.two_pow_pos s.grown
        have some : t.group.acls ≠ [] := by
          rw [group]
          intro none
          rw [none, List.length_nil] at full
          omega
        rw [left]
        refine .inl (.inr ⟨_, rfl, ?_⟩)
        rw [loadCleanup_ok (.inr res) some]
        exact ⟨rfl, s.grown, grown ▸ Nat.lt_succ_self _, refused⟩
      · rw [undefined]
        exact .inl (.inl rfl)
      · rw [granted j] at refused
        cases refused
      · exact absurd acceptable wrong

theorem loadInv_start (first : allocs.grants 0 = true) (second : allocs.grants 1 = true) (third : allocs.grants 2 = true) :
    LoadInv tok c buf allocs [] loadStart where
  parsed := .nil buf
  within := Nat.zero_le _
  made := .nil
  room := Nat.zero_le _
  power := rfl
  granted j below := by
    have start : j < 3 := below
    rcases (by omega : j = 0 ∨ j = 1 ∨ j = 2) with rfl | rfl | rfl
    · exact first
    · exact second
    · exact third
  grew j below := absurd below j.not_lt_zero
  res := .inl ⟨rfl, rfl⟩

/-- If a growth that the objects ask for fails, the loop ends badly. -/
theorem loop_without_growth (allocs : Allocations) (granted : ∀ j, allocs.grants j = true)
    (refused : ¬ GrowthsGranted tok c buf allocs.grows) :
    ∃ fuel, buf.length < fuel ∧ EndsBadly allocs (loadLoop tok c buf allocs fuel loadStart) := by
  simp only [GrowthsGranted, not_forall] at refused
  obtain ⟨objs, rest, m, parses, all, long, failed⟩ := refused
  have inv : LoadInv tok c buf allocs [] loadStart := loadInv_start (granted 0) (granted 1) (granted 2)
  rcases inv.advance granted parses all (buf.length + 1) with bad | ⟨t, at_t, _, _⟩
  · exact ⟨_, by omega, bad⟩
  · have count := List.Forall₂.length_eq at_t.made
    rw [List.nil_append] at count
    have room := at_t.room
    rw [← count, at_t.power] at room
    have within : m < t.grown := (Nat.pow_lt_pow_iff_right Nat.one_lt_two).mp (Nat.lt_of_lt_of_le long room)
    exact absurd (at_t.grew m within) failed

/-- If an object behind acceptable ones leads to undefined behaviour, so does the loop, unless it ends badly before. -/
theorem loop_undefined (allocs : Allocations) (granted : ∀ j, allocs.grants j = true) (undefined : ¬ LoadsDefined tok c buf) :
    ∃ fuel, buf.length < fuel ∧ EndsBadly allocs (loadLoop tok c buf allocs fuel loadStart) := by
  simp only [LoadsDefined, not_forall] at undefined
  obtain ⟨objs, obj, rest, parses, all, undefined⟩ := undefined
  have either : WritesPast c obj ∨ PassesNull c obj := by
    by_contra neither
    exact undefined (not_or.mp neither)
  obtain ⟨before, n, onward, taken⟩ := parses.last
  have inv : LoadInv tok c buf allocs [] loadStart := loadInv_start (granted 0) (granted 1) (granted 2)
  refine ⟨buf.length + 1 + objs.length, by omega, ?_⟩
  rcases inv.advance granted onward all (buf.length + 1) with bad | ⟨t, at_t, here, run⟩
  · exact bad
  rw [run, loadLoop]
  rw [← here] at taken
  have given : obj ≠ .null := by
    rintro rfl
    exact not_or.mpr defined_null either
  rw [loadTurn_of_taken allocs taken given]
  rcases at_t.readTurn taken with ⟨acceptable, _⟩ | ⟨_, met⟩ | ⟨_, ⟨j, refused⟩ | ⟨_, defined⟩⟩
  · obtain ⟨acl, read⟩ := acceptable_iff.mp acceptable
    rw [undefined_iff.mpr either] at read
    cases read
  · rw [met]
    exact .inl rfl
  · rw [granted j] at refused
    cases refused
  · exact absurd either defined

theorem aclOfString_started (fuel : Nat) (first : allocs.grants 0 = true) (second : allocs.grants 1 = true)
    (third : allocs.grants 2 = true) : aclOfString tok c buf allocs fuel = loadLoop tok c buf allocs fuel loadStart := by
  simp only [aclOfString, first, second, third, Bool.true_eq_false, if_false]

/-- The function returns an error, or all of the ACLs, if the growths that are asked for succeed and no object leads to
undefined behaviour. -/
theorem aclOfString_whole (allocs : Allocations) (growths : GrowthsGranted tok c buf allocs.grows) (defined : LoadsDefined tok c buf)
    (fuel : Nat) (enough : buf.length < fuel) :
    ∃ loaded, aclOfString tok c buf allocs fuel = some (.returned loaded) ∧ Whole tok c buf allocs loaded := by
  have memory (asked : Nat) : Whole tok c buf allocs ⟨.errorMemory, none, asked, 0⟩ :=
    .inl ⟨errorMemory_isError.1, errorMemory_isError.2, rfl⟩
  cases first : allocs.grants 0 with
  | false => exact ⟨_, if_pos first, memory 1⟩
  | true =>
    cases second : allocs.grants 1 with
    | false => exact ⟨_, by rw [aclOfString, first, if_neg (by decide), if_pos second], memory 2⟩
    | true =>
      cases third : allocs.grants 2 with
      | false => exact ⟨_, by rw [aclOfString, first, second, if_neg (by decide), if_neg (by decide), if_pos third], memory 3⟩
      | true =>
        rw [aclOfString_started fuel first second third]
        have inv : LoadInv tok c buf allocs [] loadStart := loadInv_start first second third
        exact inv.loop growths defined enough

/-- An end that the loop has come to does not depend on where it would have been cut off. -/
theorem loadLoop_longer {fuel more : Nat} {done : LoadEnd} (longer : fuel ≤ more)
    (ended : loadLoop tok c buf allocs fuel s = some done) : loadLoop tok c buf allocs more s = some done := by
  induction fuel generalizing more s with
  | zero => cases ended
  | succ fuel ih =>
    obtain ⟨more, rfl⟩ := Nat.exists_eq_succ_of_ne_zero (by omega : more ≠ 0)
    unfold loadLoop at ended ⊢
    cases turn : loadTurn tok c buf allocs s with
    | next t =>
      rw [turn] at ended
      exact ih (Nat.le_of_succ_le_succ longer) ended
    | leave t => rwa [turn] at ended
    | undefined => rwa [turn] at ended

theorem aclOfString_longer {fuel more : Nat} {done : LoadEnd} (longer : fuel ≤ more)
    (ended : aclOfString tok c buf allocs fuel = some done) : aclOfString tok c buf allocs more = some done := by
  unfold aclOfString at ended ⊢
  by_cases first : allocs.grants 0 = false
  · rwa [if_pos first] at ended ⊢
  by_cases second : allocs.grants 1 = false
  · rwa [if_neg first, if_pos second] at ended ⊢
  by_cases third : allocs.grants 2 = false
  · rwa [if_neg first, if_neg second, if_pos third] at ended ⊢
  rw [if_neg first, if_neg second, if_neg third] at ended ⊢
  exact loadLoop_longer longer ended

theorem LoadsWhole.of_whole {loaded : Loaded} (whole : Whole tok c buf allocs loaded)
    (returned : aclOfString tok c buf allocs (buf.length + 1) = some (.returned loaded)) : LoadsWhole tok c buf allocs where
  bounded s reach := (group_fits reach).2
  returns := by
    refine ⟨loaded, fun fuel enough => aclOfString_longer enough returned, fun ok => ?_, ?_, ?_⟩
    · exact whole.elim (fun error => absurd ok error.1) And.left
    · intro rejected
      rcases whole with error | ⟨⟨all, last, group, parsed, finished, _, made⟩, _⟩
      · exact error
      rcases rejected with ⟨objs, obj, rest, parses, wrong⟩ | ⟨objs, rest, parses, wrong⟩
      · obtain ⟨more, rfl, _⟩ := parsed.at_end finished parses
        exact absurd (made.acceptable obj (by simp)) wrong
      · exact absurd wrong (parsed.not_error finished parses)
    · intro refused
      rcases whole with error | ⟨_, granted, grew⟩
      · exact error
      · rcases refused with ⟨j, below, refused⟩ | ⟨j, below, refused⟩
        · rw [granted j below] at refused
          cases refused
        · rw [grew j below] at refused
          cases refused

/-- Under every pattern of the other allocations a buffer is loaded completely or not at all if and only if every growth of
the array succeeds that the acceptable objects at the start of the buffer ask for, and the first object that is not
acceptable, if there is one, does not lead to undefined behaviour. -/
theorem acl_loads_whole_iff (tok : Tokener) (c : JsonConversions) (buf : List UInt8) (grows : Nat → Bool) :
    (∀ grants, LoadsWhole tok c buf ⟨grants, grows⟩) ↔ GrowthsGranted tok c buf grows ∧ LoadsDefined tok c buf := by
  constructor
  · intro whole
    obtain ⟨_, loaded, returned, _, _, refused⟩ := whole fun _ => true
    have good (fuel : Nat) (enough : buf.length < fuel) :
        ¬ EndsBadly ⟨fun _ => true, grows⟩ (loadLoop tok c buf ⟨fun _ => true, grows⟩ fuel loadStart) := by
      rw [← aclOfString_started fuel rfl rfl rfl, returned fuel enough]
      rintro (undefined | ⟨loaded', same, ok, j, below, failed⟩)
      · cases undefined
      · cases same
        exact (refused (.inr ⟨j, below, failed⟩)).1 ok
    constructor
    · by_contra failed
      obtain ⟨fuel, enough, bad⟩ := loop_without_growth ⟨fun _ => true, grows⟩ (fun _ => rfl) failed
      exact good fuel enough bad
    · by_contra undefined
      obtain ⟨fuel, enough, bad⟩ := loop_undefined ⟨fun _ => true, grows⟩ (fun _ => rfl) undefined
      exact good fuel enough bad
  · rintro ⟨growths, defined⟩ grants
    obtain ⟨loaded, returned, whole⟩ := aclOfString_whole ⟨grants, grows⟩ growths defined _ (Nat.lt_succ_self _)
    exact .of_whole whole returned

/-- The text of an ACL without scopes, and the object that it stands for. -/
def emptyAclText : List UInt8 := ascii "\x7b\"scope\":[]\x7d"

def emptyAclObject : Json := .object [(ascii "scope", .array [])]

/-- A tokener that knows this text only. -/
def emptyAclTokener : Tokener where
  parse text :=
    if text.all isSpace then .parseEof
    else if emptyAclText.isPrefixOf text then .value emptyAclObject emptyAclText.length else .error
  consumes := by
    intro text obj n taken
    split at taken
    · cases taken
    · split at taken
      · rename_i starts
        cases taken
        exact ⟨by decide, (List.isPrefixOf_iff_prefix.mp starts).length_le⟩
      · cases taken
  parseEof := by
    intro text blank
    exact if_pos (List.all_eq_true.mpr blank)

/-- Two ACLs in a file, and no memory for the second one: the first one alone is returned, with `ACL_OK`. -/
theorem acl_load_drops_object : ∃ loaded,
    aclOfString emptyAclTokener plainConversions (emptyAclText ++ emptyAclText) ⟨fun _ => true, fun _ => false⟩ 25 =
      some (.returned loaded) ∧ loaded.res = .ok ∧ (loaded.group.map fun group => group.acls.length) = some 1 ∧
    ¬ LoadsWhole emptyAclTokener plainConversions (emptyAclText ++ emptyAclText) ⟨fun _ => true, fun _ => false⟩ := by
  refine ⟨_, rfl, rfl, rfl, ?_⟩
  rintro ⟨_, loaded, returned, _, _, refused⟩
  cases returned 25 (by decide)
  exact (refused (.inr ⟨0, by decide, rfl⟩)).1 rfl

end Loader

end Kinetic
