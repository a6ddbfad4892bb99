import Mathlib.Data.List.Nodup
import Mathlib.Tactic.Common

namespace CondVar
variable {α β : Type}

/-- A mutex with a condition variable: the thread that has the mutex, the threads that wait on the variable, and those that
have been woken and wait for the mutex. -/
structure Monitor (α : Type) where
  owner : Option α
  asleep : List α
  woken : List α

def Monitor.free : Monitor α := ⟨none, [], []⟩

namespace Monitor
variable [DecidableEq α]

def lock (m : Monitor α) (a : α) : Option (Monitor α) :=
  match m.owner with
  | none => some { m with owner := some a }
  | some _ => none

def unlock (m : Monitor α) : Monitor α := { m with owner := none }

/-- The first half of a wait: the mutex is given back, and the thread sleeps. -/
def wait (m : Monitor α) (a : α) : Monitor α := { m with owner := none, asleep := m.asleep ++ [a] }

/-- A thread wakes up, for whatever reason. -/
def wake (m : Monitor α) (a : α) : Option (Monitor α) :=
  if a ∈ m.asleep then some { m with asleep := m.asleep.erase a, woken := a :: m.woken } else none

/-- A signal wakes one of the threads that sleep, if there is one. -/
def signal (m : Monitor α) : Option α → Option (Monitor α)
  | some a => m.wake a
  | none => if m.asleep.isEmpty then some m else none

/-- The second half of a wait. -/
def relock (m : Monitor α) (a : α) : Option (Monitor α) :=
  if a ∈ m.woken then Monitor.lock { m with woken := m.woken.erase a } a else none

end Monitor

/-- Where a thread stands towards a monitor. -/
inductive Place
  | outside
  | inside
  | queue
  deriving DecidableEq

/-- The mutex is with the thread that is inside, and in the two queues are the threads that wait, each once. -/
structure Sound (place : β → Place) (pcs : α → β) (m : Monitor α) : Prop where
  owner : ∀ a, place (pcs a) = .inside ↔ m.owner = some a
  queue : ∀ a, place (pcs a) = .queue ↔ a ∈ m.asleep ++ m.woken
  once : (m.asleep ++ m.woken).Nodup

variable {place : β → Place} {pcs : α → β} {m m' : Monitor α} {a : α} {pc : β}

theorem Sound.free (outside : ∀ a, place (pcs a) = .outside) : Sound place pcs (.free : Monitor α) where
  owner a := by simp [outside a, Monitor.free]
  queue a := by simp [outside a, Monitor.free]
  once := List.nodup_nil

/-- No two threads are inside. -/
theorem Sound.alone (sound : Sound place pcs m) {b : α} (first : place (pcs a) = .inside) (second : place (pcs b) = .inside) :
    a = b := by
  have owner := (sound.owner a).mp first
  rw [(sound.owner b).mp second] at owner
  exact (Option.some.inj owner).symm

theorem Sound.asleep_or_woken (sound : Sound place pcs m) (queued : place (pcs a) = .queue) : a ∈ m.asleep ∨ a ∈ m.woken :=
  List.mem_append.mp ((sound.queue a).mp queued)

theorem Sound.queue_of_asleep (sound : Sound place pcs m) (asleep : a ∈ m.asleep) : place (pcs a) = .queue :=
  (sound.queue a).mpr (List.mem_append_left _ asleep)

theorem Sound.not_asleep_of_woken (sound : Sound place pcs m) (woken : a ∈ m.woken) : a ∉ m.asleep := fun asleep =>
  List.disjoint_of_nodup_append sound.once asleep woken

/-- With all threads outside, nobody has the mutex and nobody waits. -/
theorem Sound.eq_free (sound : Sound place pcs m) (outside : ∀ a, place (pcs a) = .outside) : m = .free := by
  have owner : m.owner = none := by
    cases held : m.owner with
    | none => rfl
    | some a => have inside := (sound.owner a).mpr held; rw [outside a] at inside; cases inside
  have queue : m.asleep ++ m.woken = [] := by
    refine List.eq_nil_iff_forall_not_mem.mpr fun a member => ?_
    have queued := (sound.queue a).mpr member
    rw [outside a] at queued
    cases queued
  obtain ⟨asleep, woken⟩ := List.append_eq_nil_iff.mp queue
  cases m
  cases owner
  cases asleep
  cases woken
  rfl

section Operations
variable [DecidableEq α]

omit [DecidableEq α] in
theorem lock_eq_some (locked : m.lock a = some m') : m.owner = none ∧ m' = { m with owner := some a } := by
  unfold Monitor.lock at locked
  split at locked
  · exact ⟨‹_›, (Option.some.inj locked).symm⟩
  · cases locked

theorem wake_eq_some (woke : m.wake a = some m') :
    a ∈ m.asleep ∧ m' = { m with asleep := m.asleep.erase a, woken := a :: m.woken } := by
  unfold Monitor.wake at woke
  split at woke
  · exact ⟨‹_›, (Option.some.inj woke).symm⟩
  · cases woke

theorem signal_cases {w : Option α} (signalled : m.signal w = some m') :
    (∃ b, m.wake b = some m') ∨ m.asleep = [] ∧ m' = m := by
  cases w with
  | some b => exact .inl ⟨b, signalled⟩
  | none =>
    simp only [Monitor.signal] at signalled
    split at signalled
    · rename_i empty
      exact .inr ⟨List.isEmpty_iff.mp empty, (Option.some.inj signalled).symm⟩
    · cases signalled

theorem relock_eq_some (relocked : m.relock a = some m') :
    a ∈ m.woken ∧ m.owner = none ∧ m' = { m with owner := some a, woken := m.woken.erase a } := by
  unfold Monitor.relock at relocked
  split at relocked
  · obtain ⟨free, same⟩ := lock_eq_some relocked
    exact ⟨‹_›, free, same⟩
  · cases relocked

/-- A thread goes on to another place of the same kind. -/
theorem Sound.stay (sound : Sound place pcs m) (same : place pc = place (pcs a)) :
    Sound place (Function.update pcs a pc) m := by
  have equal (b : α) : place (Function.update pcs a pc b) = place (pcs b) := by
    by_cases here : b = a
    · rw [here, Function.update_self, same]
    · rw [Function.update_of_ne here]
  exact ⟨fun b => by rw [equal]; exact sound.owner b, fun b => by rw [equal]; exact sound.queue b, sound.once⟩

theorem Sound.lock (sound : Sound place pcs m) (locked : m.lock a = some m') (outside : place (pcs a) = .outside)
    (inside : place pc = .inside) : Sound place (Function.update pcs a pc) m' := by
  obtain ⟨free, rfl⟩ := lock_eq_some locked
  refine ⟨fun b => ?_, fun b => ?_, sound.once⟩
  · by_cases here : b = a
    · rw [here, Function.update_self, inside]
      simp
    · rw [Function.update_of_ne here, sound.owner, free]
      simp [Ne.symm here]
  · by_cases here : b = a
    · rw [here, Function.update_self, inside, ← sound.queue, outside]
      simp
    · rw [Function.update_of_ne here]
      exact sound.queue b

theorem Sound.unlock (sound : Sound place pcs m) (inside : place (pcs a) = .inside) (outside : place pc = .outside) :
    Sound place (Function.update pcs a pc) m.unlock := by
  refine ⟨fun b => ?_, fun b => ?_, sound.once⟩
  · by_cases here : b = a
    · rw [here, Function.update_self, outside]
      simp [Monitor.unlock]
    · rw [Function.update_of_ne here]
      refine iff_of_false (fun there => here (sound.alone there inside)) ?_
      simp [Monitor.unlock]
  · by_cases here : b = a
    · have apart := sound.queue a
      rw [here, Function.update_self, outside]
      rw [inside] at apart
      exact iff_of_false (by simp) fun member => absurd (apart.mpr member) (by simp)
    · rw [Function.update_of_ne here]
      exact sound.queue b

theorem Sound.wait (sound : Sound place pcs m) (inside : place (pcs a) = .inside) (queued : place pc = .queue) :
    Sound place (Function.update pcs a pc) (m.wait a) := by
  have absent : a ∉ m.asleep ++ m.woken := by
    rw [← sound.queue, inside]
    simp
  refine ⟨fun b => ?_, fun b => ?_, ?_⟩
  · by_cases here : b = a
    · rw [here, Function.update_self, queued]
      simp [Monitor.wait]
    · rw [Function.update_of_ne here]
      refine iff_of_false (fun there => here (sound.alone there inside)) ?_
      simp [Monitor.wait]
  · have members : b ∈ (m.wait a).asleep ++ (m.wait a).woken ↔ b = a ∨ b ∈ m.asleep ++ m.woken := by
      simp only [Monitor.wait, List.mem_append, List.mem_singleton]
      exact ⟨fun member => by tauto, fun member => by tauto⟩
    rw [members]
    by_cases here : b = a
    · rw [here, Function.update_self, queued]
      simp
    · rw [Function.update_of_ne here, or_iff_right here]
      exact sound.queue b
  · have perm : ((m.wait a).asleep ++ (m.wait a).woken).Perm (a :: (m.asleep ++ m.woken)) := by
      simp only [Monitor.wait, List.append_assoc, List.singleton_append]
      exact List.perm_middle
    exact perm.nodup_iff.mpr (List.nodup_cons.mpr ⟨absent, sound.once⟩)

theorem Sound.wake (sound : Sound place pcs m) (woke : m.wake a = some m') : Sound place pcs m' := by
  obtain ⟨asleep, rfl⟩ := wake_eq_some woke
  have perm : (m.asleep.erase a ++ a :: m.woken).Perm (m.asleep ++ m.woken) :=
    List.perm_middle.trans ((List.perm_cons_erase asleep).symm.append_right m.woken)
  exact ⟨sound.owner, fun b => (sound.queue b).trans perm.mem_iff.symm, perm.nodup_iff.mpr sound.once⟩

theorem Sound.signal (sound : Sound place pcs m) {w : Option α} (signalled : m.signal w = some m') : Sound place pcs m' := by
  rcases signal_cases signalled with ⟨b, woke⟩ | ⟨_, rfl⟩
  · exact sound.wake woke
  · exact sound

theorem Sound.relock (sound : Sound place pcs m) (relocked : m.relock a = some m') (inside : place pc = .inside) :
    Sound place (Function.update pcs a pc) m' := by
  obtain ⟨woken, free, rfl⟩ := relock_eq_some relocked
  have apart := List.nodup_append.mp sound.once
  have left : a ∉ m.asleep ++ m.woken.erase a := by
    rw [List.mem_append, not_or]
    exact ⟨sound.not_asleep_of_woken woken, apart.2.1.not_mem_erase⟩
  refine ⟨fun b => ?_, fun b => ?_, ?_⟩
  · by_cases here : b = a
    · rw [here, Function.update_self, inside]
      simp
    · rw [Function.update_of_ne here, sound.owner, free]
      simp [Ne.symm here]
  · by_cases here : b = a
    · rw [here, Function.update_self, inside]
      exact iff_of_false (by simp) left
    · rw [Function.update_of_ne here, sound.queue, List.mem_append, List.mem_append, List.mem_erase_of_ne here]
  · exact sound.once.sublist (List.Sublist.append_left List.erase_sublist m.asleep)

end Operations

end CondVar
