import Kinetic.Lib.Transition
import Kinetic.Session.Semaphore

namespace Kinetic
open Function (update)
open Transition (Reach exec exists_reach_of_exec)

inductive SemCall
  | take
  | give
  deriving DecidableEq

def SemCall.start : SemCall → SemPc
  | .take => .takeLock
  | .give => .giveLock

section Sections
variable {α : Type}

/-- A thread runs until it has given the mutex back, or until it is done without it. -/
def semSection (sem : CountingSemaphore α) (a : α) : Nat → SemPc → Option (CountingSemaphore α × SemPc)
  | 0, _ => none
  | fuel + 1, pc =>
    match semStep sem a pc with
    | none => none
    | some (sem', pc') => if sem'.mutex.isNone then some (sem', pc') else semSection sem' a fuel pc'

/-- The longest way through the mutex: the lock, the test, the count and the unlock of a `Take`. -/
def sectionSteps : Nat := 4

/-- A semaphore with its condition variable: `waiting` are the threads in `pthread_cond_wait` that no signal has woken,
`signalled` those that one has woken and that have not got the mutex back. -/
structure SemWorld (α : Type) where
  sem : CountingSemaphore α
  pcs : α → SemPc
  waiting : List α
  signalled : List α

def SemWorld.new (counts : Nat) : SemWorld α :=
  { sem := .create counts, pcs := fun _ => .done, waiting := [], signalled := [] }

/-- A call of one of the two functions by a thread that is in neither, or what it does next with the mutex. A signal wakes
the thread `woken`. -/
inductive SemLabel (α : Type)
  | call (a : α) (c : SemCall)
  | run (a : α) (woken : Option α)

namespace SemWorld
variable [DecidableEq α]

/-- The `if` of `KineticCountingSemaphore_Give`. The condition variable picks one of the waiting threads. -/
def signal (s : SemWorld α) (woken : Option α) : Option (SemWorld α) :=
  if s.sem.count = 0 ∧ s.sem.numWaiting > 0 ∧ s.waiting ≠ [] then
    match woken with
    | none => none
    | some w =>
      if w ∈ s.waiting then some { s with waiting := s.waiting.erase w, signalled := s.signalled ++ [w] } else none
  else some s

/-- The thread runs until the mutex is free again, which it also gives back in `pthread_cond_wait`. -/
def leave (s : SemWorld α) (a : α) : Option (SemWorld α) :=
  match semSection s.sem a sectionSteps (s.pcs a) with
  | none => none
  | some (sem, pc) =>
    some { s with sem := sem, pcs := update s.pcs a pc, waiting := if pc = .takeWait then s.waiting ++ [a] else s.waiting }

/-- One step of the threads. A thread that waits goes on only when it has been signalled. -/
def step (s : SemWorld α) : SemLabel α → Option (SemWorld α)
  | .call a c => if s.pcs a = .done then some { s with pcs := update s.pcs a c.start } else none
  | .run a woken =>
    match s.pcs a with
    | .takeWait => if a ∈ s.signalled then leave { s with signalled := s.signalled.erase a } a else none
    | .giveLock => (s.signal woken).bind fun s' => s'.leave a
    | _ => s.leave a

end SemWorld

/-- No more than `2 ^ 32 - 1` threads wait in `KineticCountingSemaphore_Take`. -/
def SemWorld.Few (s : SemWorld α) : SemLabel α → Prop
  | .run a _ => s.pcs a = .takeLock → s.waiting.length + s.signalled.length + 1 < 2 ^ 32
  | _ => True

/-- A `KineticCountingSemaphore_Give` finds the count at 0, or no thread that waits for a signal, or a signalled thread for
every unit that is free and for the one it gives. -/
def SemWorld.Served (s : SemWorld α) : SemLabel α → Prop
  | .run a _ => s.pcs a = .giveLock → s.sem.count = 0 ∨ s.waiting = [] ∨ s.sem.count < s.signalled.length
  | _ => True

instance instDecidableFew (s : SemWorld α) (label : SemLabel α) : Decidable (s.Few label) :=
  match label with
  | .call _ _ => instDecidableTrue
  | .run a _ => inferInstanceAs (Decidable (s.pcs a = .takeLock → _))

instance instDecidableServed [DecidableEq α] (s : SemWorld α) (label : SemLabel α) : Decidable (s.Served label) :=
  match label with
  | .call _ _ => instDecidableTrue
  | .run a _ => inferInstanceAs (Decidable (s.pcs a = .giveLock → _ ∨ s.waiting = [] ∨ _))

/-- If there is a unit and a thread in `pthread_cond_wait`, then a thread there has been signalled. -/
def SemWorld.Woken (s : SemWorld α) : Prop :=
  0 < s.sem.count → (∃ a, s.pcs a = .takeWait) → ∃ w, s.pcs w = .takeWait ∧ w ∈ s.signalled

/-- What a thread can do with the mutex. -/
inductive SectionMove (sem : CountingSemaphore α) : CountingSemaphore α → SemPc → SemPc → Prop
  | blocks : sem.count = 0 → SectionMove sem { sem with numWaiting := (sem.numWaiting + 1) % 2 ^ 32 } .takeLock .takeWait
  | takes : sem.count ≠ 0 → SectionMove sem
      { sem with numWaiting := ((sem.numWaiting + 1) % 2 ^ 32 + (2 ^ 32 - 1)) % 2 ^ 32,
                 count := (sem.count + (2 ^ 32 - 1)) % 2 ^ 32 } .takeLock .done
  | blocksAgain : sem.count = 0 → SectionMove sem sem .takeWait .takeWait
  | resumes : sem.count ≠ 0 → SectionMove sem
      { sem with numWaiting := (sem.numWaiting + (2 ^ 32 - 1)) % 2 ^ 32, count := (sem.count + (2 ^ 32 - 1)) % 2 ^ 32 }
      .takeWait .done
  | gives : SectionMove sem { sem with count := (sem.count + 1) % 2 ^ 32 } .giveLock (.giveAssert ((sem.count + 1) % 2 ^ 32))
  | asserts (after : Nat) : after ≤ sem.max → SectionMove sem sem (.giveAssert after) .done

theorem semSection_move {sem sem' : CountingSemaphore α} {a : α} {pc pc' : SemPc} (free : sem.mutex = none)
    (outside : pc.inside = false) (run : semSection sem a sectionSteps pc = some (sem', pc')) :
    SectionMove sem sem' pc pc' := by
  obtain ⟨mutex, count, max, numWaiting⟩ := sem
  subst free
  cases pc with
  | takeLock =>
    by_cases empty : count = 0
    · simp only [sectionSteps, semSection, semStep, empty, if_true, Option.isNone_some, Option.isNone_none] at run
      cases run
      subst empty
      exact .blocks rfl
    · simp only [sectionSteps, semSection, semStep, empty, if_false, Option.isNone_some, Option.isNone_none] at run
      cases run
      exact .takes empty
  | takeWait =>
    by_cases empty : count = 0
    · simp only [sectionSteps, semSection, semStep, empty, if_true, Option.isNone_some, Option.isNone_none] at run
      cases run
      subst empty
      exact .blocksAgain rfl
    · simp only [sectionSteps, semSection, semStep, empty, if_false, Option.isNone_some, Option.isNone_none] at run
      cases run
      exact .resumes empty
  | giveLock =>
    simp only [sectionSteps, semSection, semStep, Option.isNone_some, Option.isNone_none] at run
    cases run
    exact .gives
  | giveAssert after =>
    by_cases passes : after ≤ max
    · simp only [sectionSteps, semSection, semStep, passes, if_true, Option.isNone_none] at run
      cases run
      exact .asserts after passes
    · simp only [sectionSteps, semSection, semStep, passes, if_false] at run
      cases run
  | done => cases run
  | _ => cases outside

/-- Nobody else changes the semaphore while a thread has the mutex. -/
theorem semStep_locked_out {sem sem' : CountingSemaphore α} {a b : α} {pc pc' : SemPc} (locked : sem.mutex = some a)
    (outside : pc.inside = false) (run : semStep sem b pc = some (sem', pc')) : sem' = sem := by
  cases semStep_cases run with
  | locks free => rw [locked] at free; cases free
  | wakes free => rw [locked] at free; cases free
  | relocks free => rw [locked] at free; cases free
  | asserts => rfl
  | _ => cases outside

end Sections

/-- Who waits in the condition variable, and that there is a signalled thread for each unit while others wait. -/
structure WaitInv {α : Type} (s : SemWorld α) : Prop where
  free : s.sem.mutex = none
  outside : ∀ a, (s.pcs a).inside = false
  once : (s.waiting ++ s.signalled).Nodup
  listed : ∀ a, s.pcs a = .takeWait ↔ a ∈ s.waiting ++ s.signalled
  counted : s.sem.numWaiting = s.waiting.length + s.signalled.length
  width : s.waiting.length + s.signalled.length < 2 ^ 32
  served : s.waiting ≠ [] → s.sem.count ≤ s.signalled.length

section Runs
variable {α : Type} {s t : SemWorld α} {a : α}

theorem WaitInv.new (counts : Nat) : WaitInv (SemWorld.new counts : SemWorld α) :=
  ⟨rfl, fun _ => rfl, .nil, fun _ => by simp [SemWorld.new], rfl, by simp [SemWorld.new], fun some => absurd rfl some⟩

theorem WaitInv.woken (inv : WaitInv s) : s.Woken := by
  intro unit ⟨a, blocked⟩
  have member := (inv.listed a).mp blocked
  rcases List.mem_append.mp member with waits | signalled
  · have enough := inv.served (List.ne_nil_of_mem waits)
    have some : 0 < s.signalled.length := by omega
    obtain ⟨w, first⟩ := List.exists_mem_of_length_pos some
    exact ⟨w, (inv.listed w).mpr (List.mem_append_right _ first), first⟩
  · exact ⟨a, blocked, signalled⟩

variable [DecidableEq α]

/-- A thread goes on, and neither starts nor stops to wait. -/
theorem WaitInv.moves {pc : SemPc} {sem : CountingSemaphore α} (inv : WaitInv s) (apart : s.pcs a ≠ .takeWait)
    (outside : pc.inside = false) (next : pc ≠ .takeWait) (free : sem.mutex = none)
    (counted : sem.numWaiting = s.sem.numWaiting) (served : s.waiting ≠ [] → sem.count ≤ s.signalled.length) :
    WaitInv { s with sem := sem, pcs := update s.pcs a pc } := by
  refine ⟨free, fun b => ?_, inv.once, fun b => ?_, counted.trans inv.counted, inv.width, served⟩
  · dsimp only
    rw [Function.update_apply]
    split
    · exact outside
    · exact inv.outside b
  · dsimp only
    rw [Function.update_apply]
    split
    · rename_i same
      subst same
      refine iff_of_false next fun member => ?_
      exact apart ((inv.listed b).mpr member)
    · exact inv.listed b

/-- A thread that was not waiting starts to. -/
theorem WaitInv.blocks {sem : CountingSemaphore α} (inv : WaitInv s) (apart : s.pcs a ≠ .takeWait) (free : sem.mutex = none)
    (empty : sem.count = 0) (counted : sem.numWaiting = s.sem.numWaiting + 1)
    (few : s.waiting.length + s.signalled.length + 1 < 2 ^ 32) :
    WaitInv { s with sem := sem, pcs := update s.pcs a .takeWait, waiting := s.waiting ++ [a] } := by
  have absent : a ∉ s.waiting ++ s.signalled := fun member => apart ((inv.listed a).mpr member)
  have moved : (s.waiting ++ [a] ++ s.signalled).Perm (a :: (s.waiting ++ s.signalled)) := by
    rw [List.append_assoc]
    exact List.perm_middle
  have before := inv.counted
  refine ⟨free, fun b => ?_, ?_, fun b => ?_, ?_, ?_, fun _ => ?_⟩
  · dsimp only
    rw [Function.update_apply]
    split
    · rfl
    · exact inv.outside b
  · exact moved.nodup_iff.mpr (List.nodup_cons.mpr ⟨absent, inv.once⟩)
  · dsimp only
    rw [moved.mem_iff, List.mem_cons, Function.update_apply]
    split
    · rename_i same
      exact iff_of_true rfl (.inl same)
    · rename_i other
      rw [inv.listed b]
      exact ⟨.inr, fun member => member.resolve_left other⟩
  · simp only [List.length_append, List.length_singleton]
    omega
  · simp only [List.length_append, List.length_singleton]
    omega
  · dsimp only
    omega

omit [DecidableEq α] in
/-- Threads go from one list of the condition variable to the other. -/
theorem WaitInv.rearrange {waiting signalled : List α} (inv : WaitInv s)
    (same : (waiting ++ signalled).Perm (s.waiting ++ s.signalled))
    (served : waiting ≠ [] → s.sem.count ≤ signalled.length) :
    WaitInv { s with waiting := waiting, signalled := signalled } := by
  have length := same.length_eq
  rw [List.length_append, List.length_append] at length
  have counted := inv.counted
  have width := inv.width
  refine ⟨inv.free, inv.outside, same.nodup_iff.mpr inv.once, fun a => (inv.listed a).trans same.mem_iff.symm, ?_, ?_, served⟩
  · dsimp only
    omega
  · dsimp only
    omega

/-- A signal takes a thread from those that wait. -/
theorem WaitInv.signal {woken : Option α} (inv : WaitInv s) (run : s.signal woken = some t) :
    WaitInv t ∧ t.sem = s.sem ∧ t.pcs = s.pcs ∧ (s.sem.count = 0 → t.waiting ≠ [] → 0 < t.signalled.length) ∧
      (s.sem.count ≠ 0 → t = s) := by
  unfold SemWorld.signal at run
  split at run
  · rename_i test
    cases woken with
    | none => cases run
    | some w =>
      dsimp only at run
      split at run
      · rename_i member
        cases run
        have first : (s.waiting.erase w ++ (s.signalled ++ [w])).Perm (w :: (s.waiting.erase w ++ s.signalled)) := by
          rw [← List.append_assoc]
          exact List.perm_append_singleton w _
        have moved := first.trans ((List.perm_cons_erase member).symm.append_right s.signalled)
        refine ⟨inv.rearrange moved fun _ => by omega, rfl, rfl, ?_, fun units => absurd test.1 units⟩
        intro _ _
        simp
      · cases run
  · rename_i test
    cases run
    refine ⟨inv, rfl, rfl, fun empty waits => ?_, fun _ => rfl⟩
    -- The test has failed at an empty semaphore, so that nobody waits.
    have some := List.length_pos_iff.mpr waits
    have counted := inv.counted
    exact absurd ⟨empty, by omega, waits⟩ test

theorem SemWorld.leave_move (free : s.sem.mutex = none) (outside : (s.pcs a).inside = false) (run : s.leave a = some t) :
    ∃ sem pc, SectionMove s.sem sem (s.pcs a) pc ∧ t = { s with
      sem := sem, pcs := update s.pcs a pc, waiting := if pc = .takeWait then s.waiting ++ [a] else s.waiting } := by
  unfold SemWorld.leave at run
  split at run
  · cases run
  · rename_i sem pc through
    cases run
    exact ⟨sem, pc, semSection_move free outside through, rfl⟩

/-- A signalled thread is done. -/
theorem WaitInv.leaves {sem : CountingSemaphore α} (inv : WaitInv s) (signalled : a ∈ s.signalled) (free : sem.mutex = none)
    (counted : sem.numWaiting + 1 = s.sem.numWaiting) (served : s.waiting ≠ [] → sem.count < s.signalled.length) :
    WaitInv { s with sem := sem, pcs := update s.pcs a .done, signalled := s.signalled.erase a } := by
  have length := List.length_erase_of_mem signalled
  have some := List.length_pos_of_mem signalled
  have before := inv.counted
  have width := inv.width
  have moved : (s.waiting ++ s.signalled).Perm (a :: (s.waiting ++ s.signalled.erase a)) :=
    ((List.perm_cons_erase signalled).append_left s.waiting).trans List.perm_middle
  have once := moved.nodup_iff.mp inv.once
  rw [List.nodup_cons] at once
  refine ⟨free, fun b => ?_, once.2, fun b => ?_, ?_, ?_, fun waits => ?_⟩
  · dsimp only
    rw [Function.update_apply]
    split
    · rfl
    · exact inv.outside b
  · dsimp only
    rw [Function.update_apply]
    split
    · rename_i same
      rw [same]
      exact iff_of_false (by decide) once.1
    · rename_i other
      rw [inv.listed b, moved.mem_iff, List.mem_cons]
      exact ⟨fun member => member.resolve_left other, .inr⟩
  · dsimp only
    omega
  · dsimp only
    omega
  · have enough := served waits
    dsimp only
    omega

/-- A signalled thread leaves `pthread_cond_wait`, and takes a unit or waits again. -/
theorem WaitInv.resumes (inv : WaitInv s) (signalled : a ∈ s.signalled)
    (run : SemWorld.leave { s with signalled := s.signalled.erase a } a = some t) : WaitInv t := by
  have blocked := (inv.listed a).mpr (List.mem_append_right _ signalled)
  obtain ⟨sem, pc, move, rfl⟩ :=
    SemWorld.leave_move (s := { s with signalled := s.signalled.erase a }) inv.free (inv.outside a) run
  have some := List.length_pos_of_mem signalled
  have counted := inv.counted
  have width := inv.width
  dsimp only at move ⊢
  rw [blocked] at move
  cases move with
  | blocksAgain empty =>
    have unchanged : update s.pcs a .takeWait = s.pcs := by rw [← blocked, Function.update_eq_self]
    have moved : (s.waiting ++ [a] ++ s.signalled.erase a).Perm (s.waiting ++ s.signalled) := by
      rw [List.append_assoc]
      exact (List.perm_cons_erase signalled).symm.append_left s.waiting
    rw [unchanged, if_pos rfl]
    exact inv.rearrange moved fun _ => by omega
  | resumes units =>
    rw [if_neg (by decide)]
    refine inv.leaves signalled inv.free ?_ fun waits => ?_
    · dsimp only
      omega
    · have enough := inv.served waits
      dsimp only
      omega

/-- A thread gives a unit. -/
theorem WaitInv.gives {woken : Option α} (inv : WaitInv s) (giving : s.pcs a = .giveLock)
    (served : s.sem.count = 0 ∨ s.waiting = [] ∨ s.sem.count < s.signalled.length)
    (run : ((s.signal woken).bind fun s' => s'.leave a) = some t) : WaitInv t := by
  obtain ⟨s', signal, leave⟩ := Option.bind_eq_some_iff.mp run
  obtain ⟨inv', sem, pcs, woke, unchanged⟩ := inv.signal signal
  obtain ⟨sem', pc, move, rfl⟩ := SemWorld.leave_move inv'.free (inv'.outside a) leave
  rw [pcs, giving, sem] at move
  cases move with
  | gives =>
    rw [if_neg (by simp)]
    refine inv'.moves (by rw [pcs, giving]; simp) rfl (by simp) inv.free (by rw [sem]) fun waits => ?_
    dsimp only
    rcases served with empty | nobody | enough
    · have some := woke empty waits
      omega
    · by_cases empty : s.sem.count = 0
      · have some := woke empty waits
        omega
      · rw [unchanged empty] at waits
        exact absurd nobody waits
    · by_cases empty : s.sem.count = 0
      · have some := woke empty waits
        omega
      · rw [unchanged empty]
        omega

theorem WaitInv.step {label : SemLabel α} (inv : WaitInv s) (few : s.Few label) (served : s.Served label)
    (run : s.step label = some t) : WaitInv t := by
  have counted := inv.counted
  have width := inv.width
  cases label with
  | call a c =>
    simp only [SemWorld.step] at run
    split at run
    · rename_i done
      cases run
      refine inv.moves (by rw [done]; simp) ?_ ?_ inv.free rfl inv.served
      · cases c <;> rfl
      · cases c <;> simp [SemCall.start]
    · cases run
  | run a woken =>
    simp only [SemWorld.step] at run
    split at run
    · rename_i blocked
      split at run
      · rename_i signalled
        exact inv.resumes signalled run
      · cases run
    · rename_i giving
      exact inv.gives giving (served giving) run
    · rename_i notWaiting notGiving
      obtain ⟨sem, pc, move, rfl⟩ := SemWorld.leave_move inv.free (inv.outside a) run
      generalize here : s.pcs a = before at move
      cases move with
      | blocks empty =>
        have small := few here
        rw [if_pos rfl]
        refine inv.blocks notWaiting inv.free empty ?_ small
        dsimp only
        omega
      | takes units =>
        rw [if_neg (by decide)]
        refine inv.moves notWaiting rfl (by decide) inv.free ?_ fun waits => ?_
        · dsimp only
          omega
        · have enough := inv.served waits
          dsimp only
          omega
      | blocksAgain => exact absurd here notWaiting
      | resumes => exact absurd here notWaiting
      | gives => exact absurd here notGiving
      | asserts after passes =>
        rw [if_neg (by decide)]
        exact inv.moves notWaiting rfl (by decide) inv.free rfl inv.served

theorem WaitInv.of_reach {counts : Nat}
    (reach : Reach SemWorld.step (.new counts) (fun s label => s.Few label ∧ s.Served label) s) : WaitInv s :=
  reach.invariant (WaitInv.new counts) fun _ _ _ inv ok run => inv.step ok.1 ok.2 run

omit [DecidableEq α] in
theorem semSection_resumes {sem : CountingSemaphore α} (free : sem.mutex = none) (units : sem.count ≠ 0)
    (width : sem.count < 2 ^ 32) : ∃ sem', semSection sem a sectionSteps .takeWait = some (sem', .done) ∧
      sem'.mutex = none ∧ sem'.count + 1 = sem.count := by
  obtain ⟨mutex, count, max, numWaiting⟩ := sem
  subst free
  dsimp only at units width
  simp only [sectionSteps, semSection, semStep, units, if_false, Option.isNone_some, Option.isNone_none]
  refine ⟨_, rfl, rfl, ?_⟩
  dsimp only
  omega

/-- When the signalled threads have taken their units one after the other, a unit is left for which nobody is woken. -/
theorem SemWorld.left_asleep {signalled : List α} (list : s.signalled = signalled) (free : s.sem.mutex = none)
    (once : s.signalled.Nodup) (there : ∀ w ∈ s.signalled, s.pcs w = .takeWait) {b : α} (blocked : s.pcs b = .takeWait)
    (apart : b ∉ s.signalled) (more : s.signalled.length < s.sem.count) (width : s.sem.count < 2 ^ 32) :
    ∃ u, Reach SemWorld.step s (fun _ _ => True) u ∧ ¬ u.Woken := by
  induction signalled generalizing s with
  | nil =>
    rw [list] at more
    refine ⟨s, .start, fun woken => ?_⟩
    obtain ⟨w, _, member⟩ := woken (by simpa using more) ⟨b, blocked⟩
    rw [list] at member
    cases member
  | cons a rest ih =>
    rw [list] at once apart more there
    have distinct : b ≠ a := fun same => apart (same ▸ List.mem_cons_self)
    simp only [List.length_cons] at more
    have units : s.sem.count ≠ 0 := by omega
    obtain ⟨t, run, list', free', pcs, count⟩ : ∃ t, s.step (.run a none) = some t ∧ t.signalled = rest ∧
        t.sem.mutex = none ∧ t.pcs = update s.pcs a .done ∧ t.sem.count + 1 = s.sem.count := by
      obtain ⟨sem, through, unlocked, taken⟩ := semSection_resumes (a := a) free units width
      simp only [SemWorld.step, there a List.mem_cons_self, list, List.mem_cons_self, if_true, List.erase_cons_head,
        SemWorld.leave, through]
      exact ⟨_, rfl, rfl, unlocked, rfl, taken⟩
    have rest' : ∀ w ∈ t.signalled, t.pcs w = .takeWait := by
      intro w member
      rw [list'] at member
      have other : w ≠ a := fun same => (List.nodup_cons.mp once).1 (same ▸ member)
      rw [pcs, Function.update_of_ne other]
      exact there w (List.mem_cons_of_mem _ member)
    have blocked' : t.pcs b = .takeWait := by
      rw [pcs, Function.update_of_ne distinct]
      exact blocked
    have apart' : b ∉ t.signalled := by
      rw [list']
      exact fun member => apart (List.mem_cons_of_mem _ member)
    have once' : t.signalled.Nodup := by
      rw [list']
      exact (List.nodup_cons.mp once).2
    have more' : t.signalled.length < t.sem.count := by
      rw [list']
      omega
    obtain ⟨u, reach, asleep⟩ := ih list' free' once' rest' blocked' apart' more' (by omega)
    exact ⟨u, (Reach.start.next trivial run).trans reach, asleep⟩

/-- A `Give` that is not served leads to such a state. -/
theorem WaitInv.gives_unserved {woken : Option α} (inv : WaitInv s) (run : s.step (.run a woken) = some t)
    (width : s.sem.count + 1 < 2 ^ 32) (unserved : ¬ s.Served (.run a woken)) :
    ∃ u, Reach SemWorld.step t (fun _ _ => True) u ∧ ¬ u.Woken := by
  simp only [SemWorld.Served, Classical.not_imp, not_or, Nat.not_lt] at unserved
  obtain ⟨giving, units, waits, more⟩ := unserved
  simp only [SemWorld.step, giving] at run
  obtain ⟨s', signal, leave⟩ := Option.bind_eq_some_iff.mp run
  obtain ⟨_, _, _, _, unchanged⟩ := inv.signal signal
  cases unchanged units
  obtain ⟨sem, pc, move, rfl⟩ := SemWorld.leave_move inv.free (inv.outside a) leave
  rw [giving] at move
  obtain ⟨b, waiting⟩ := List.exists_mem_of_ne_nil _ waits
  have others {w : α} (blocked : s.pcs w = .takeWait) : w ≠ a := by
    rintro rfl
    rw [giving] at blocked
    cases blocked
  have onceMore := List.nodup_append.mp inv.once
  cases move with
  | gives =>
    have blockedB := (inv.listed b).mpr (List.mem_append_left _ waiting)
    refine SemWorld.left_asleep rfl inv.free onceMore.2.1 ?_ (b := b) ?_ ?_ ?_ ?_
    · intro w member
      have blocked := (inv.listed w).mpr (List.mem_append_right _ member)
      dsimp only
      rw [Function.update_of_ne (others blocked)]
      exact blocked
    · dsimp only
      rw [Function.update_of_ne (others blockedB)]
      exact blockedB
    · exact fun member => onceMore.2.2 b waiting b member rfl
    · dsimp only
      omega
    · dsimp only
      omega

end Runs

/-- In every run in which each `Give` finds the count at 0, or no thread that waits for a signal, or more signalled threads
than units, a unit that somebody waits for is one that somebody has been woken for. A `Give` that finds otherwise
leads to a state in which nobody has. -/
theorem semaphore_wakes {α : Type} [DecidableEq α] (counts : Nat) {s : SemWorld α}
    (reach : Reach SemWorld.step (.new counts) (fun s label => s.Few label ∧ s.Served label) s) :
    s.Woken ∧ ∀ a woken t, s.step (.run a woken) = some t → s.sem.count + 1 < 2 ^ 32 → ¬ s.Served (.run a woken) →
      ∃ u, Reach SemWorld.step t (fun _ _ => True) u ∧ ¬ u.Woken := by
  have inv := WaitInv.of_reach reach
  exact ⟨inv.woken, fun a woken t run width unserved => inv.gives_unserved run width unserved⟩

/-- A call of a function to its end, or to the wait in it. -/
def semCall (a : Nat) (c : SemCall) (woken : Option Nat) : List (SemLabel Nat) := [.call a c, .run a woken]

/-- Of two threads at a semaphore with one unit, one waits and is woken by the other. -/
theorem semaphore_wakes_one :
    ∃ s : SemWorld Nat, Reach SemWorld.step (.new 1) (fun s label => s.Few label ∧ s.Served label) s ∧
      s.sem.count = 1 ∧ s.pcs 1 = .takeWait ∧ s.Woken := by
  have trace : (exec SemWorld.step (fun s label => decide (s.Few label ∧ s.Served label)) (.new 1)
      (semCall 0 .take none ++ semCall 1 .take none ++ semCall 0 .give (some 1))).map
      (fun s => (s.sem.count, s.pcs 1)) = some (1, .takeWait) := by decide
  obtain ⟨s, reach, seen⟩ := exists_reach_of_exec trace
  simp only [Prod.mk.injEq] at seen
  exact ⟨s, reach, seen.1, seen.2, (semaphore_wakes 1 reach).1⟩

/-- Two threads wait. The first `Give` wakes one of them, the second one signals nobody since the count is not 0; when the
first thread has taken its unit, one is left and the other thread sleeps. -/
theorem semaphore_loses_wakeup :
    ∃ s : SemWorld Nat, Reach SemWorld.step (.new 2) (fun _ _ => True) s ∧
      s.sem.count = 1 ∧ s.pcs 3 = .takeWait ∧ s.signalled = [] ∧ ¬ s.Woken := by
  have trace : (exec SemWorld.step (fun _ _ => decide True) (.new 2)
      (semCall 0 .take none ++ semCall 1 .take none ++ semCall 2 .take none ++ semCall 3 .take none ++
        semCall 0 .give (some 2) ++ semCall 1 .give none ++ [.run 0 none, .run 1 none, .run 2 none])).map
      (fun s => (s.sem.count, s.pcs 3, s.signalled)) = some (1, .takeWait, []) := by decide
  obtain ⟨s, reach, seen⟩ := exists_reach_of_exec trace
  simp only [Prod.mk.injEq] at seen
  obtain ⟨count, blocked, nobody⟩ := seen
  refine ⟨s, reach, count, blocked, nobody, fun woken => ?_⟩
  obtain ⟨w, _, member⟩ := woken (by omega) ⟨3, blocked⟩
  rw [nobody] at member
  cases member

end Kinetic
