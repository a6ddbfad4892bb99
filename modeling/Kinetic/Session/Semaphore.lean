import Mathlib.Algebra.Group.Nat.Defs
import Mathlib.Logic.Function.Basic
import Mathlib.Tactic.Common

namespace Kinetic
open Function (update)

/-- `KineticCountingSemaphore`, with the thread that has its mutex. -/
structure CountingSemaphore (α : Type) where
  mutex : Option α
  count : Nat
  max : Nat
  numWaiting : Nat

def CountingSemaphore.create {α : Type} (counts : Nat) : CountingSemaphore α :=
  { mutex := none, count := counts, max := counts, numWaiting := 0 }

/-- Where a thread stands in `KineticCountingSemaphore_Take`, before the lock, at the test of the loop, in
`pthread_cond_wait`, behind the loop and before the unlock; or in `KineticCountingSemaphore_Give`, before the lock, the
count, the unlock and the assertion, with the count it has seen. -/
inductive SemPc
  | takeLock
  | takeTest
  | takeWait
  | takeCount
  | takeUnlock
  | giveLock
  | giveCount
  | giveUnlock (after : Nat)
  | giveAssert (after : Nat)
  | done
  deriving DecidableEq

/-- One step of a thread in one of the two functions. A wait may end at any time the mutex is free, so the signal has no
effect of its own. -/
def semStep {α : Type} (sem : CountingSemaphore α) (a : α) : SemPc → Option (CountingSemaphore α × SemPc)
  | .takeLock =>
    match sem.mutex with
    | none => some ({ sem with mutex := some a, numWaiting := (sem.numWaiting + 1) % 2 ^ 32 }, .takeTest)
    | some _ => none
  | .takeTest => if sem.count = 0 then some ({ sem with mutex := none }, .takeWait) else some (sem, .takeCount)
  | .takeWait =>
    match sem.mutex with
    | none => some ({ sem with mutex := some a }, .takeTest)
    | some _ => none
  | .takeCount =>
    some ({ sem with numWaiting := (sem.numWaiting + (2 ^ 32 - 1)) % 2 ^ 32, count := (sem.count + (2 ^ 32 - 1)) % 2 ^ 32 },
      .takeUnlock)
  | .takeUnlock => some ({ sem with mutex := none }, .done)
  | .giveLock =>
    match sem.mutex with
    | none => some ({ sem with mutex := some a }, .giveCount)
    | some _ => none
  | .giveCount =>
    let after := (sem.count + 1) % 2 ^ 32
    some ({ sem with count := after }, .giveUnlock after)
  | .giveUnlock after => some ({ sem with mutex := none }, .giveAssert after)
  | .giveAssert after => if after ≤ sem.max then some (sem, .done) else none
  | .done => none

/-- Whether the thread has the mutex. -/
def SemPc.inside : SemPc → Bool
  | .takeTest => true
  | .takeCount => true
  | .takeUnlock => true
  | .giveCount => true
  | .giveUnlock _ => true
  | _ => false

/-- Whether the thread has taken its unit, or not given it back yet. -/
def SemPc.hasUnit : SemPc → Bool
  | .takeUnlock => true
  | .giveLock => true
  | .giveCount => true
  | _ => false

/-- The count that a giving thread has seen. -/
def SemPc.seen : SemPc → Option Nat
  | .giveUnlock after => some after
  | .giveAssert after => some after
  | _ => none

/-- The mutex is with the thread that is inside, a thread behind the loop finds a unit, and no thread has seen a count
above the maximum. -/
structure SemInv {α : Type} (sem : CountingSemaphore α) (pcs : α → SemPc) : Prop where
  held : ∀ a, (pcs a).inside = true → sem.mutex = some a
  ready : ∀ a, pcs a = .takeCount → 0 < sem.count
  bounded : ∀ a after, (pcs a).seen = some after → after ≤ sem.max
  width : sem.max < 2 ^ 32

/-- The steps of the two functions, one by one. -/
inductive SemStep {α : Type} (sem : CountingSemaphore α) (a : α) : CountingSemaphore α → SemPc → SemPc → Prop
  | locks : sem.mutex = none →
      SemStep sem a { sem with mutex := some a, numWaiting := (sem.numWaiting + 1) % 2 ^ 32 } .takeLock .takeTest
  | blocks : sem.count = 0 → SemStep sem a { sem with mutex := none } .takeTest .takeWait
  | passes : sem.count ≠ 0 → SemStep sem a sem .takeTest .takeCount
  | wakes : sem.mutex = none → SemStep sem a { sem with mutex := some a } .takeWait .takeTest
  | takes : SemStep sem a
      { sem with numWaiting := (sem.numWaiting + (2 ^ 32 - 1)) % 2 ^ 32, count := (sem.count + (2 ^ 32 - 1)) % 2 ^ 32 }
      .takeCount .takeUnlock
  | unlocks : SemStep sem a { sem with mutex := none } .takeUnlock .done
  | relocks : sem.mutex = none → SemStep sem a { sem with mutex := some a } .giveLock .giveCount
  | gives : SemStep sem a { sem with count := (sem.count + 1) % 2 ^ 32 } .giveCount (.giveUnlock ((sem.count + 1) % 2 ^ 32))
  | leaves (after : Nat) : SemStep sem a { sem with mutex := none } (.giveUnlock after) (.giveAssert after)
  | asserts (after : Nat) : after ≤ sem.max → SemStep sem a sem (.giveAssert after) .done

/-- What a step does to the count. -/
inductive SemMove {α : Type} (sem sem' : CountingSemaphore α) (pc pc' : SemPc) : Prop
  | keeps : sem'.count = sem.count → pc'.hasUnit = pc.hasUnit → pc ≠ .takeCount → pc ≠ .giveCount → SemMove sem sem' pc pc'
  | takes : pc = .takeCount → pc' = .takeUnlock → sem'.count = (sem.count + (2 ^ 32 - 1)) % 2 ^ 32 → SemMove sem sem' pc pc'
  | returns : pc = .takeUnlock → pc' = .done → sem'.count = sem.count → SemMove sem sem' pc pc'
  | gives : pc = .giveCount → pc' = .giveUnlock sem'.count → sem'.count = (sem.count + 1) % 2 ^ 32 → SemMove sem sem' pc pc'

section Steps
variable {α : Type} {sem sem' : CountingSemaphore α} {a : α} {pc pc' : SemPc}

theorem semStep_cases (run : semStep sem a pc = some (sem', pc')) : SemStep sem a sem' pc pc' := by
  cases pc with
  | takeLock =>
    simp only [semStep] at run
    split at run
    · cases run
      exact .locks ‹_›
    · cases run
  | takeTest =>
    simp only [semStep] at run
    split at run
    · cases run
      exact .blocks ‹_›
    · cases run
      exact .passes ‹_›
  | takeWait =>
    simp only [semStep] at run
    split at run
    · cases run
      exact .wakes ‹_›
    · cases run
  | takeCount =>
    cases run
    exact .takes
  | takeUnlock =>
    cases run
    exact .unlocks
  | giveLock =>
    simp only [semStep] at run
    split at run
    · cases run
      exact .relocks ‹_›
    · cases run
  | giveCount =>
    cases run
    exact .gives
  | giveUnlock after =>
    cases run
    exact .leaves after
  | giveAssert after =>
    simp only [semStep] at run
    split at run
    · cases run
      exact .asserts after ‹_›
    · cases run
  | done => cases run

theorem semStep_move (run : semStep sem a pc = some (sem', pc')) : SemMove sem sem' pc pc' := by
  cases semStep_cases run with
  | takes => exact .takes rfl rfl rfl
  | unlocks => exact .returns rfl rfl rfl
  | gives => exact .gives rfl rfl rfl
  | _ => exact .keeps rfl rfl (by simp) (by simp)

theorem semStep_max (run : semStep sem a pc = some (sem', pc')) : sem'.max = sem.max := by
  cases semStep_cases run <;> rfl

variable [DecidableEq α] {pcs : α → SemPc}

/-- A thread enters one of the functions, or has left it. -/
theorem SemInv.enter (inv : SemInv sem pcs) (next : pc' = .takeLock ∨ pc' = .giveLock ∨ pc' = .done) :
    SemInv sem (update pcs a pc') := by
  have quiet : pc'.inside = false ∧ pc' ≠ .takeCount ∧ pc'.seen = none := by
    rcases next with rfl | rfl | rfl <;> exact ⟨rfl, by simp, rfl⟩
  refine ⟨fun x inside => ?_, fun x behind => ?_, fun x after seen => ?_, inv.width⟩
  · by_cases here : x = a
    · subst here
      rw [Function.update_self, quiet.1] at inside
      cases inside
    · rw [Function.update_of_ne here] at inside
      exact inv.held x inside
  · by_cases here : x = a
    · subst here
      rw [Function.update_self] at behind
      exact absurd behind quiet.2.1
    · rw [Function.update_of_ne here] at behind
      exact inv.ready x behind
  · by_cases here : x = a
    · subst here
      rw [Function.update_self, quiet.2.2] at seen
      cases seen
    · rw [Function.update_of_ne here] at seen
      exact inv.bounded x after seen

omit [DecidableEq α] in
/-- A step is taken with the mutex, or when nobody has it, or touches neither the mutex nor the count. -/
theorem semStep_others (run : semStep sem a pc = some (sem', pc')) :
    sem.mutex = none ∨ pc.inside = true ∨ sem'.mutex = sem.mutex ∧ sem'.count = sem.count := by
  cases semStep_cases run with
  | locks free => exact .inl free
  | wakes free => exact .inl free
  | relocks free => exact .inl free
  | asserts => exact .inr (.inr ⟨rfl, rfl⟩)
  | _ => exact .inr (.inl rfl)

omit [DecidableEq α] in
/-- The thread that makes the step has the mutex when it is inside, and finds a unit when it is behind the loop. -/
theorem semStep_own (run : semStep sem a pc = some (sem', pc')) (held : pc.inside = true → sem.mutex = some a) :
    (pc'.inside = true → sem'.mutex = some a) ∧ (pc' = .takeCount → 0 < sem'.count) := by
  cases semStep_cases run with
  | locks => exact ⟨fun _ => rfl, by simp⟩
  | wakes => exact ⟨fun _ => rfl, by simp⟩
  | relocks => exact ⟨fun _ => rfl, by simp⟩
  | passes positive => exact ⟨fun _ => held rfl, fun _ => Nat.pos_of_ne_zero positive⟩
  | takes => exact ⟨fun _ => held rfl, by simp⟩
  | gives => exact ⟨fun _ => held rfl, by simp⟩
  | _ => exact ⟨fun inside => Bool.noConfusion inside, by simp⟩

omit [DecidableEq α] in
/-- A count that a thread has just seen is that of the semaphore, and another one it had seen before. -/
theorem semStep_seen (run : semStep sem a pc = some (sem', pc')) {after : Nat} (seen : pc'.seen = some after) :
    pc.seen = some after ∨ pc = .giveCount ∧ after = (sem.count + 1) % 2 ^ 32 := by
  cases semStep_cases run with
  | gives =>
    cases seen
    exact .inr ⟨rfl, rfl⟩
  | leaves => exact .inl seen
  | _ => cases seen

/-- Every step of a thread keeps the invariant, if a thread that gives finds room. -/
theorem SemInv.step (inv : SemInv sem pcs) (run : semStep sem a (pcs a) = some (sem', pc'))
    (room : pcs a = .giveCount → sem.count < sem.max) : SemInv sem' (update pcs a pc') := by
  have most := semStep_max run
  have width := inv.width
  have alone (x : α) (other : x ≠ a) (inside : (pcs x).inside = true) :
      sem'.mutex = sem.mutex ∧ sem'.count = sem.count := by
    have theirs := inv.held x inside
    rcases semStep_others run with free | own | same
    · rw [free] at theirs
      cases theirs
    · rw [inv.held a own] at theirs
      exact absurd (Option.some.inj theirs).symm other
    · exact same
  obtain ⟨ownHeld, ownReady⟩ := semStep_own run (inv.held a)
  refine ⟨fun x inside => ?_, fun x behind => ?_, fun x after seen => ?_, by omega⟩
  · by_cases here : x = a
    · subst here
      rw [Function.update_self] at inside
      exact ownHeld inside
    · rw [Function.update_of_ne here] at inside
      rw [(alone x here inside).1]
      exact inv.held x inside
  · by_cases here : x = a
    · subst here
      rw [Function.update_self] at behind
      exact ownReady behind
    · rw [Function.update_of_ne here] at behind
      rw [(alone x here (by rw [behind]; rfl)).2]
      exact inv.ready x behind
  · rw [most]
    by_cases here : x = a
    · subst here
      rw [Function.update_self] at seen
      rcases semStep_seen run seen with before | ⟨giving, counted⟩
      · exact inv.bounded x after before
      · have free := room giving
        rw [counted, Nat.mod_eq_of_lt (by omega)]
        omega
    · rw [Function.update_of_ne here] at seen
      exact inv.bounded x after seen

end Steps

end Kinetic
