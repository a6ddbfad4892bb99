import Mathlib.Data.Multiset.AddSub
import Mathlib.Data.Multiset.Range
import Mathlib.Tactic.Common

namespace Blocks
variable {α β : Type}

/-- The blocks that are allocated. `grants n` says whether the `n`-th request for memory is granted, and its block is `n`. -/
structure Heap where
  grants : Nat → Bool
  asked : Nat
  live : Multiset Nat
  once : live.Nodup
  old : ∀ b ∈ live, b < asked

def Heap.empty (grants : Nat → Bool) : Heap :=
  { grants := grants, asked := 0, live := 0, once := Multiset.nodup_zero, old := fun _ member => absurd member (Multiset.notMem_zero _) }

/-- The behaviour is undefined, or an assertion has failed. -/
inductive Fault
  | undefined
  | assertion
  deriving DecidableEq

/-- A program over the heap. -/
abbrev Prog (α : Type) := StateT Heap (Except Fault) α

theorem Heap.old_of_asked (h : Heap) {b : Nat} (member : b ∈ h.live) : b < h.asked + 1 := Nat.lt_succ_of_lt (h.old b member)

def Heap.refuse (h : Heap) : Heap := { h with asked := h.asked + 1, old := fun _ member => h.old_of_asked member }

def Heap.grant (h : Heap) : Heap where
  grants := h.grants
  asked := h.asked + 1
  live := h.asked ::ₘ h.live
  once := Multiset.nodup_cons.mpr ⟨fun member => absurd (h.old h.asked member) (Nat.lt_irrefl _), h.once⟩
  old _ member := (Multiset.mem_cons.mp member).elim (fun same => same ▸ Nat.lt_succ_self _) h.old_of_asked

def Heap.remove (h : Heap) (b : Nat) : Heap where
  grants := h.grants
  asked := h.asked
  live := h.live.erase b
  once := h.once.erase b
  old c member := h.old c (Multiset.mem_of_mem_erase member)

/-- `calloc`, or any other way to get one block. -/
def calloc : Prog (Option Nat) := fun h => .ok (if h.grants h.asked then (some h.asked, h.grant) else (none, h.refuse))

/-- `free` of a pointer that is not `NULL`. -/
def free (b : Nat) : Prog Unit := fun h => if b ∈ h.live then .ok ((), h.remove b) else .error .undefined

/-- `free`. -/
def freePtr : Option Nat → Prog Unit
  | none => pure ()
  | some b => free b

/-- A pointer to a block, with what the block holds. -/
structure Held (α : Type) where
  block : Nat
  value : α

/-- The block of a pointer, if it is not `NULL`. -/
def heldBlocks : Option (Held α) → Multiset Nat
  | none => 0
  | some p => {p.block}

def freeHeld : Option (Held α) → Prog Unit
  | none => pure ()
  | some p => free p.block

/-- Started with the blocks `own`, the program ends without a fault, whatever else is allocated, and leaves that alone. The
blocks it has then are as `post` says. -/
def Owns (grants : Nat → Bool) (own : Multiset Nat) (x : Prog α) (post : α → Multiset Nat → Prop) : Prop :=
  ∀ (h : Heap) (frame : Multiset Nat), h.grants = grants → h.live = own + frame →
    ∃ a h' own', x h = .ok (a, h') ∧ h'.grants = grants ∧ h'.live = own' + frame ∧ post a own'

section Rules
variable {grants : Nat → Bool} {own : Multiset Nat} {x : Prog α} {post post' : α → Multiset Nat → Prop}

theorem Owns.pure {a : α} (holds : post a own) : Owns grants own (Pure.pure a : Prog α) post := fun h _ same live =>
  ⟨a, h, own, rfl, same, live, holds⟩

theorem Owns.mono (owns : Owns grants own x post) (weaker : ∀ a own', post a own' → post' a own') : Owns grants own x post' := by
  intro h frame same live
  obtain ⟨a, h', own', run, same', live', holds⟩ := owns h frame same live
  exact ⟨a, h', own', run, same', live', weaker a own' holds⟩

theorem Owns.bind {f : α → Prog β} {final : β → Multiset Nat → Prop} (first : Owns grants own x post)
    (second : ∀ a own', post a own' → Owns grants own' (f a) final) : Owns grants own (x >>= f) final := by
  intro h frame same live
  obtain ⟨a, h', own', run, same', live', holds⟩ := first h frame same live
  obtain ⟨b, h'', own'', run', same'', live'', ends⟩ := second a own' holds h' frame same' live'
  refine ⟨b, h'', own'', ?_, same'', live'', ends⟩
  change (x h).bind (fun p => f p.1 p.2) = _
  rw [run]
  exact run'

/-- Blocks that a program does not know of stay. -/
theorem Owns.frame (owns : Owns grants own x post) (extra : Multiset Nat) :
    Owns grants (own + extra) x fun a own' => ∃ rest, own' = rest + extra ∧ post a rest := by
  intro h frame same live
  obtain ⟨a, h', own', run, same', live', holds⟩ := owns h (extra + frame) same (by rw [live, Multiset.add_assoc])
  exact ⟨a, h', own' + extra, run, same', by rw [live', Multiset.add_assoc], own', rfl, holds⟩

/-- A program that starts from nothing runs beside the blocks there are. -/
theorem Owns.beside {extra : Multiset Nat} {f : α → Prog β} {final : β → Multiset Nat → Prop} (first : Owns grants 0 x post)
    (second : ∀ a own', post a own' → Owns grants (own' + extra) (f a) final) : Owns grants extra (x >>= f) final := by
  have framed := first.frame extra
  rw [Multiset.zero_add] at framed
  refine framed.bind fun a own' ⟨rest, split, holds⟩ => ?_
  rw [split]
  exact second a rest holds

theorem Owns.calloc : Owns grants 0 calloc fun r own =>
    (∃ b, r = some b ∧ own = {b}) ∨ r = none ∧ own = 0 ∧ ∃ n, grants n = false := by
  intro h frame same live
  rw [Multiset.zero_add] at live
  cases granted : h.grants h.asked with
  | true =>
    refine ⟨some h.asked, h.grant, {h.asked}, by simp [Blocks.calloc, granted], same, ?_, .inl ⟨_, rfl, rfl⟩⟩
    rw [Multiset.singleton_add, ← live]
    rfl
  | false =>
    refine ⟨none, h.refuse, 0, by simp [Blocks.calloc, granted], same, ?_, .inr ⟨rfl, rfl, h.asked, same ▸ granted⟩⟩
    rw [Multiset.zero_add, ← live]
    rfl

theorem Owns.free (b : Nat) : Owns grants {b} (free b) fun _ own => own = 0 := by
  intro h frame same live
  have member : b ∈ h.live := by
    rw [live]
    exact Multiset.mem_add.mpr (.inl (Multiset.mem_singleton_self b))
  refine ⟨(), h.remove b, 0, by simp [Blocks.free, member], same, ?_, rfl⟩
  simp [Heap.remove, live]

theorem Owns.freePtr (p : Option Nat) : Owns grants (p.elim 0 singleton) (freePtr p) fun _ own => own = 0 := by
  cases p with
  | none => exact .pure rfl
  | some b => exact .free b

theorem Owns.freeHeld (p : Option (Held β)) : Owns grants (heldBlocks p) (freeHeld p) fun _ own => own = 0 := by
  cases p with
  | none => exact .pure rfl
  | some p => exact .free p.block

/-- A program that gives back part of what there is, and then the rest. -/
theorem Owns.release {extra : Multiset Nat} {y : Unit → Prog β} {final : β → Multiset Nat → Prop} {x : Prog Unit}
    (first : Owns grants own x fun _ own => own = 0) (second : Owns grants extra (y ()) final) :
    Owns grants (own + extra) (x >>= y) final := by
  refine (first.frame extra).bind fun _ own' ⟨rest, split, gone⟩ => ?_
  rw [split, gone, Multiset.zero_add]
  exact second

end Rules

/-- As `Owns`, for a program that may end with the fault. `faulty` says what follows then. -/
def Attempts (fault : Fault) (grants : Nat → Bool) (own : Multiset Nat) (x : Prog α) (faulty : Prop)
    (post : α → Multiset Nat → Prop) : Prop :=
  ∀ (h : Heap) (frame : Multiset Nat), h.grants = grants → h.live = own + frame →
    (∃ a h' own', x h = .ok (a, h') ∧ h'.grants = grants ∧ h'.live = own' + frame ∧ post a own') ∨
      x h = .error fault ∧ faulty

section Faults
variable {fault : Fault} {grants : Nat → Bool} {own : Multiset Nat} {x : Prog α} {faulty : Prop} {post : α → Multiset Nat → Prop}

theorem Attempts.fails (fails : faulty) : Attempts fault grants own (throw fault : Prog α) faulty post :=
  fun _ _ _ _ => .inr ⟨rfl, fails⟩

theorem Owns.attempts (owns : Owns grants own x post) : Attempts fault grants own x faulty post := fun h frame same live =>
  .inl (owns h frame same live)

theorem Attempts.mono {post' : α → Multiset Nat → Prop} {faulty' : Prop} (attempts : Attempts fault grants own x faulty post)
    (weaker : ∀ a own', post a own' → post' a own') (fails : faulty → faulty') : Attempts fault grants own x faulty' post' := by
  intro h frame same live
  rcases attempts h frame same live with ⟨a, h', own', run, same', live', holds⟩ | ⟨run, faults⟩
  · exact .inl ⟨a, h', own', run, same', live', weaker a own' holds⟩
  · exact .inr ⟨run, fails faults⟩

theorem Attempts.bind {f : α → Prog β} {final : β → Multiset Nat → Prop} (first : Attempts fault grants own x faulty post)
    (second : ∀ a own', post a own' → Attempts fault grants own' (f a) faulty final) :
    Attempts fault grants own (x >>= f) faulty final := by
  intro h frame same live
  rcases first h frame same live with ⟨a, h', own', run, same', live', holds⟩ | ⟨run, fails⟩
  · have unfolded : (x >>= f) h = f a h' := by
      change (x h).bind (fun p => f p.1 p.2) = _
      rw [run]
      rfl
    rw [unfolded]
    exact second a own' holds h' frame same' live'
  · refine .inr ⟨?_, fails⟩
    change (x h).bind (fun p => f p.1 p.2) = _
    rw [run]
    rfl

/-- A program that cannot fault goes before one that can. -/
theorem Owns.before {f : α → Prog β} {final : β → Multiset Nat → Prop} (first : Owns grants own x post)
    (second : ∀ a own', post a own' → Attempts fault grants own' (f a) faulty final) :
    Attempts fault grants own (x >>= f) faulty final :=
  first.attempts.bind second

/-- As `Owns.beside`. -/
theorem Owns.beforeBeside {extra : Multiset Nat} {f : α → Prog β} {final : β → Multiset Nat → Prop} (first : Owns grants 0 x post)
    (second : ∀ a own', post a own' → Attempts fault grants (own' + extra) (f a) faulty final) :
    Attempts fault grants extra (x >>= f) faulty final := by
  have framed := first.frame extra
  rw [Multiset.zero_add] at framed
  refine framed.before fun a own' ⟨rest, split, holds⟩ => ?_
  rw [split]
  exact second a rest holds

/-- As `Owns.release`. -/
theorem Owns.releaseBefore {extra : Multiset Nat} {y : Unit → Prog β} {final : β → Multiset Nat → Prop} {x : Prog Unit}
    (first : Owns grants own x fun _ own => own = 0) (second : Attempts fault grants extra (y ()) faulty final) :
    Attempts fault grants (own + extra) (x >>= y) faulty final := by
  refine (first.frame extra).before fun _ own' ⟨rest, split, gone⟩ => ?_
  rw [split, gone, Multiset.zero_add]
  exact second

end Faults

end Blocks
