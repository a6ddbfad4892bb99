import Kinetic.Acl.Objects
import Kinetic.Lib.Transition
import Mathlib.Data.List.Forall2
import Mathlib.Algebra.Group.Nat.Defs

namespace Kinetic
open Attempt Load

/-- White space between JSON values. -/
def isSpace (byte : UInt8) : Bool := byte = 32 ∨ 9 ≤ byte ∧ byte ≤ 13

def Blank (text : List UInt8) : Prop := ∀ byte ∈ text, isSpace byte = true

/-- What `json_tokener_parse_ex` makes of a text: a value, with the `char_offset` after it, or `NULL` with the error
`json_tokener_error_parse_eof` or another one. -/
inductive Parsed
  | value (obj : Json) (charOffset : Nat)
  | parseEof
  | error

/-- The tokener takes one value with each call, at least one byte of it, and reports the end of the text when nothing but
white space is left. It may report it elsewhere, for a value that is cut off. -/
structure Tokener where
  parse : List UInt8 → Parsed
  consumes : ∀ {text obj n}, parse text = .value obj n → 0 < n ∧ n ≤ text.length
  parseEof : ∀ {text}, Blank text → parse text = .parseEof

/-- `struct ACL`. `ACL_count` is the number of its ACLs. -/
structure AclGroup where
  ceil : Nat
  acls : List Acl

/-- Which allocations succeed: those of memory and of the tokener in their order, and the calls of `realloc` in theirs. -/
structure Allocations where
  grants : Nat → Bool
  grows : Nat → Bool

/-- The variables of `acl_of_string` at the head of its loop, and how many allocations of both kinds it has asked for. -/
structure LoadState where
  offset : Nat
  res : KineticACLLoadResult
  group : AclGroup
  asked : Nat
  grown : Nat

/-- A turn of the loop goes on to the next one, leaves the loop, or leads to undefined behaviour. -/
inductive Turn
  | next (s : LoadState)
  | leave (s : LoadState)
  | undefined

/-- What `acl_of_string` returns, and what it sets `*instance` to, if it does. -/
structure Loaded where
  res : KineticACLLoadResult
  group : Option AclGroup
  asked : Nat
  grown : Nat

inductive LoadEnd
  | returned (loaded : Loaded)
  | undefined

section Loader
variable (tok : Tokener) (c : JsonConversions) (buf : List UInt8) (allocs : Allocations)

/-- The ACL is added to the array, which doubles when it is full. If it cannot, the loop is left with the `ACL_OK` that
`read_next_ACL` has returned. -/
def addACL (s : LoadState) (acl : Acl) : Turn :=
  if s.group.acls.length = s.group.ceil then
    if allocs.grows s.grown then
      .next { s with group := ⟨2 * s.group.ceil, s.group.acls ++ [acl]⟩, grown := s.grown + 1 }
    else .leave { s with grown := s.grown + 1 }
  else .next { s with group := { s.group with acls := s.group.acls ++ [acl] } }

/-- A turn with the object that the tokener has returned. -/
def readTurn (s : LoadState) (obj : Json) (charOffset : Nat) : Turn :=
  let read := (readNextACL c obj).outcome fun j => allocs.grants (s.asked + j)
  let s := { s with offset := s.offset + charOffset, asked := s.asked + read.asked }
  match read.result with
  | .ok acl => addACL allocs { s with res := .ok } acl
  | .error (.result res) => .leave { s with res := res }
  | .error .undefined => .undefined

/-- One turn of the loop. The difference of the two unsigned numbers is zero only when they are equal. A `null` is
the `NULL` pointer without `json_tokener_error_parse_eof`. -/
def loadTurn (s : LoadState) : Turn :=
  if s.offset = buf.length then .leave s
  else
    match tok.parse (buf.drop s.offset) with
    | .parseEof => .leave { s with res := .endOfStream }
    | .error => .leave { s with res := .errorBadJson }
    | .value obj charOffset =>
      if obj.isNull then .leave { s with res := .errorBadJson } else readTurn c allocs s obj charOffset

/-- The code after the label `cleanup`. -/
def loadCleanup (s : LoadState) : Loaded :=
  if s.res = .endOfStream ∨ s.res = .ok then
    if s.group.acls.length = 0 then ⟨.errorBadJson, none, s.asked, s.grown⟩ else ⟨.ok, some s.group, s.asked, s.grown⟩
  else ⟨s.res, none, s.asked, s.grown⟩

/-- The loop, cut off after some turns. -/
def loadLoop : Nat → LoadState → Option LoadEnd
  | 0, _ => none
  | fuel + 1, s =>
    match loadTurn tok c buf allocs s with
    | .next t => loadLoop fuel t
    | .leave t => some (.returned (loadCleanup t))
    | .undefined => some .undefined

/-- The state in which the loop begins: the group, its array for one ACL and the tokener are there. -/
def loadStart : LoadState := ⟨0, .errorMemory, ⟨1, []⟩, 3, 0⟩

/-- `acl_of_string`. -/
def aclOfString (fuel : Nat) : Option LoadEnd :=
  if allocs.grants 0 = false then some (.returned ⟨.errorMemory, none, 1, 0⟩)
  else if allocs.grants 1 = false then some (.returned ⟨.errorMemory, none, 2, 0⟩)
  else if allocs.grants 2 = false then some (.returned ⟨.errorMemory, none, 3, 0⟩)
  else loadLoop tok c buf allocs fuel loadStart

/-- The turns as steps from one head of the loop to the next. -/
def loadStep (s : LoadState) (_ : Unit) : Option LoadState :=
  match loadTurn tok c buf allocs s with
  | .next t => some t
  | _ => none

end Loader

/-- The tokener takes the values one after the other, and comes to the rest of the text. -/
inductive Parses (tok : Tokener) : List UInt8 → List Json → List UInt8 → Prop
  | nil (text : List UInt8) : Parses tok text [] text
  | cons {text rest : List UInt8} {obj : Json} {objs : List Json} {n : Nat} :
      tok.parse text = .value obj n → Parses tok (text.drop n) objs rest → Parses tok text (obj :: objs) rest

/-- An array of one ACL for each object, made of that object. -/
def MadeOf (c : JsonConversions) (objs : List Json) (acls : List Acl) : Prop :=
  List.Forall₂ (fun obj acl => (readNextACL c obj).granted = .ok acl) objs acls

section Parses
variable {tok : Tokener} {c : JsonConversions} {text rest rest' : List UInt8} {objs objs' : List Json} {obj : Json} {n : Nat}

theorem Parses.snoc (parses : Parses tok text objs rest) (taken : tok.parse rest = .value obj n) :
    Parses tok text (objs ++ [obj]) (rest.drop n) := by
  induction parses with
  | nil text => exact .cons taken (.nil _)
  | cons first _ ih => exact .cons first (ih taken)

/-- The last value is taken where the ones before it end. -/
theorem Parses.last (parses : Parses tok text (objs ++ [obj]) rest) :
    ∃ before n, Parses tok text objs before ∧ tok.parse before = .value obj n := by
  induction objs generalizing text with
  | nil =>
    cases parses with
    | cons first _ => exact ⟨text, _, .nil text, first⟩
  | cons other objs ih =>
    cases parses with
    | cons first later =>
      obtain ⟨before, n, onward, taken⟩ := ih later
      exact ⟨before, n, .cons first onward, taken⟩

/-- Of two ways through the same text one goes on from the other. -/
theorem Parses.compare (parses : Parses tok text objs rest) (parses' : Parses tok text objs' rest') :
    (∃ more, objs' = objs ++ more ∧ Parses tok rest more rest') ∨ ∃ more, objs = objs' ++ more ∧ Parses tok rest' more rest := by
  induction parses generalizing objs' with
  | nil text => exact .inl ⟨objs', rfl, parses'⟩
  | @cons text rest obj objs n first later ih =>
    cases parses' with
    | nil => exact .inr ⟨obj :: objs, rfl, .cons first later⟩
    | cons first' later' =>
      cases first.symm.trans first'
      rcases ih later' with ⟨more, rfl, onward⟩ | ⟨more, rfl, onward⟩
      · exact .inl ⟨more, rfl, onward⟩
      · exact .inr ⟨more, rfl, onward⟩

/-- Every way through the text goes on to the end that the tokener reports. -/
theorem Parses.at_end (parses : Parses tok text objs rest) (ended : tok.parse rest = .parseEof)
    (parses' : Parses tok text objs' rest') : ∃ more, objs = objs' ++ more ∧ Parses tok rest' more rest := by
  rcases parses.compare parses' with ⟨more, rfl, onward⟩ | onward
  · cases onward with
    | nil => exact ⟨[], by rw [List.append_nil, List.append_nil], .nil rest⟩
    | cons first _ =>
      rw [ended] at first
      cases first
  · exact onward

/-- So none comes to a text that the tokener rejects. -/
theorem Parses.not_error (parses : Parses tok text objs rest) (ended : tok.parse rest = .parseEof)
    (parses' : Parses tok text objs' rest') : tok.parse rest' ≠ .error := by
  intro error
  obtain ⟨more, _, onward⟩ := parses.at_end ended parses'
  cases onward with
  | nil =>
    rw [ended] at error
    cases error
  | cons first _ =>
    rw [error] at first
    cases first

end Parses

end Kinetic
