import Kinetic.Lib.Custody
import Kinetic.Listener.SlotPool

namespace Kinetic
open Chain
open Custody
open Function (update)
open Transition

/-- The slot that a thread has taken and not yet put back or handed over. -/
def SlotPc.slot : SlotPc → Option Nat
  | .countLoad slot => some slot
  | .countCas slot _ => some slot
  | .testType slot => some slot
  | .fill slot => some slot
  | .commit slot => some slot
  | .handle slot => some slot
  | .releaseType slot => some slot
  | .releaseHead slot => some slot
  | .releaseNext slot _ => some slot
  | .releaseCas slot _ => some slot
  | _ => none

def SlotPool.held {F : Type} (s : SlotPool F) (u : SlotUser) : Option Nat := (s.pcs u).slot

/-- The owners of slots outside of the freelist. What is in the commit pipe waits for the listener. -/
inductive SlotOwner
  | user (u : SlotUser)
  | commitPipe
  deriving DecidableEq

def SlotPool.owns {F : Type} (s : SlotPool F) (x : Nat) : SlotOwner → Prop
  | .user u => s.held u = some x
  | .commitPipe => x ∈ s.commitPipe

/-- A slot is on the freelist when it is met from its head on. -/
def SlotPool.onFreelist (s : SlotPool FreelistCells) (x : Nat) : Prop := Meets s.freelist.next s.freelist.head x

/-- Every slot has one owner or is on the freelist. -/
structure OneOwner (s : SlotPool FreelistCells) : Prop where
  exclusive : ∀ x o o', s.owns x o → s.owns x o' → o = o'
  queuedOnce : s.commitPipe.Nodup
  notFree : ∀ x o, s.owns x o → ¬ s.onFreelist x
  owned : ∀ x, x < maxQueueMessages → s.onFreelist x ∨ ∃ o, s.owns x o

/-- The compare-and-swap that takes a slot from the freelist, if it succeeds, puts at the head what follows the slot now. -/
def popFresh (s : SlotPool FreelistCells) : SlotLabel → Prop
  | .access u =>
    match s.pcs u with
    | .getCas head next => s.freelist.head = some head → s.freelist.next head = next
    | _ => True
  | _ => True

instance (s : SlotPool FreelistCells) (l : SlotLabel) : Decidable (popFresh s l) := by
  cases l with
  | access u =>
    show Decidable (match s.pcs u with
      | .getCas head next => s.freelist.head = some head → s.freelist.next head = next
      | _ => True)
    cases s.pcs u <;> exact inferInstance
  | _ => exact instDecidableTrue

/-- Where a slot is. -/
inductive SlotPlace
  | free
  | owner (o : SlotOwner)
  deriving DecidableEq

/-- The slots in each place, for a freelist with these slots. -/
def SlotPool.slotsAt {F : Type} (s : SlotPool F) (free : List Nat) : SlotPlace → Nat → Prop
  | .free, x => x ∈ free
  | .owner o, x => s.owns x o

/-- Each slot is in one place, and once in a list. -/
structure Placed {F : Type} (s : SlotPool F) (free : List Nat) : Prop where
  kept : Kept (s.slotsAt free) (· < maxQueueMessages)
  freeOnce : free.Nodup
  queuedOnce : s.commitPipe.Nodup

section Placed
variable {F : Type} {s t : SlotPool F} {free : List Nat} {u : SlotUser} {pc : SlotPc} {x : Nat}

/-- A thread that goes on with the slot it has, if it has one. -/
theorem Placed.stay (placed : Placed s free) (queue : t.commitPipe = s.commitPipe) (held : t.held = s.held) :
    Placed t free := by
  refine ⟨placed.kept.same ?_, placed.freeOnce, queue ▸ placed.queuedOnce⟩
  intro p y
  match p with
  | .free => exact Iff.rfl
  | .owner (.user u) => simp only [SlotPool.slotsAt, SlotPool.owns, held]
  | .owner .commitPipe => simp only [SlotPool.slotsAt, SlotPool.owns, queue]

/-- A step that changes what one thread has leaves all other places that have the same list as they were. -/
theorem SlotPool.slotsAt_others {after : List Nat} {own : Option Nat} (held : t.held = update s.held u own) {p : SlotPlace}
    (notOwn : p ≠ .owner (.user u)) (freelist : p = .free → after = free)
    (queue : p = .owner .commitPipe → t.commitPipe = s.commitPipe) (y : Nat) : t.slotsAt after p y ↔ s.slotsAt free p y := by
  match p with
  | .free => simp only [SlotPool.slotsAt, freelist rfl]
  | .owner .commitPipe => simp only [SlotPool.slotsAt, SlotPool.owns, queue rfl]
  | .owner (.user v) =>
    have other : v ≠ u := fun same => notOwn (by rw [same])
    simp only [SlotPool.slotsAt, SlotPool.owns, held, Function.update_of_ne other]

theorem mem_tail_iff {rest : List Nat} (absent : x ∉ rest) (y : Nat) : y ∈ rest ↔ y ∈ x :: rest ∧ y ≠ x := by
  rw [List.mem_cons]
  constructor
  · intro member
    exact ⟨.inr member, fun same => absent (same ▸ member)⟩
  · rintro ⟨same | member, other⟩
    · exact absurd same other
    · exact member

/-- A thread without a slot takes the first one of the freelist. -/
theorem Placed.pop (placed : Placed s (x :: free)) (none : s.held u = none) (queue : t.commitPipe = s.commitPipe)
    (held : t.held = update s.held u (some x)) : Placed t free := by
  obtain ⟨absent, freeOnce⟩ := List.nodup_cons.mp placed.freeOnce
  have moved : Moved (s.slotsAt (x :: free)) (t.slotsAt free) .free (.owner (.user u)) x := by
    refine ⟨List.mem_cons_self, ?_, ?_, ?_⟩
    · exact mem_tail_iff absent
    · intro y
      simp [SlotPool.slotsAt, SlotPool.owns, held, none, eq_comm]
    · intro p notFree notOwn
      exact SlotPool.slotsAt_others held notOwn (fun same => absurd same notFree) fun _ => queue
  exact ⟨placed.kept.move moved, freeOnce, queue ▸ placed.queuedOnce⟩

/-- A thread puts its slot in front of the freelist. -/
theorem Placed.push (placed : Placed s free) (own : s.held u = some x) (queue : t.commitPipe = s.commitPipe)
    (held : t.held = update s.held u none) : Placed t (x :: free) := by
  have absent : x ∉ free := by
    intro member
    cases placed.kept.exclusive (.owner (.user u)) .free x own member
  have moved : Moved (s.slotsAt free) (t.slotsAt (x :: free)) (.owner (.user u)) .free x := by
    refine ⟨own, ?_, ?_, ?_⟩
    · intro y
      simp [SlotPool.slotsAt, SlotPool.owns, held, own, eq_comm]
    · intro y
      simp [SlotPool.slotsAt, or_comm]
    · intro p notOwn notFree
      exact SlotPool.slotsAt_others held notOwn (fun same => absurd same notFree) fun _ => queue
  exact ⟨placed.kept.move moved, List.nodup_cons.mpr ⟨absent, placed.freeOnce⟩, queue ▸ placed.queuedOnce⟩

/-- A client writes its slot to the commit pipe. -/
theorem Placed.commit (placed : Placed s free) (own : s.held u = some x) (queue : t.commitPipe = s.commitPipe ++ [x])
    (held : t.held = update s.held u none) : Placed t free := by
  have absent : x ∉ s.commitPipe := by
    intro member
    cases placed.kept.exclusive (.owner (.user u)) (.owner .commitPipe) x own member
  have moved : Moved (s.slotsAt free) (t.slotsAt free) (.owner (.user u)) (.owner .commitPipe) x := by
    refine ⟨own, ?_, ?_, ?_⟩
    · intro y
      simp [SlotPool.slotsAt, SlotPool.owns, held, own, eq_comm]
    · intro y
      simp [SlotPool.slotsAt, SlotPool.owns, queue]
    · intro p notOwn notQueue
      exact SlotPool.slotsAt_others held notOwn (fun _ => rfl) fun same => absurd same notQueue
  refine ⟨placed.kept.move moved, placed.freeOnce, ?_⟩
  rw [queue, ← List.concat_eq_append]
  exact placed.queuedOnce.concat absent

/-- The listener reads a slot from the commit pipe. -/
theorem Placed.receive {rest : List Nat} (placed : Placed s free) (none : s.held u = none) (before : s.commitPipe = x :: rest)
    (queue : t.commitPipe = rest) (held : t.held = update s.held u (some x)) : Placed t free := by
  have once := placed.queuedOnce
  rw [before] at once
  obtain ⟨absent, restOnce⟩ := List.nodup_cons.mp once
  have moved : Moved (s.slotsAt free) (t.slotsAt free) (.owner .commitPipe) (.owner (.user u)) x := by
    refine ⟨?_, ?_, ?_, ?_⟩
    · simp [SlotPool.slotsAt, SlotPool.owns, before]
    · intro y
      simp only [SlotPool.slotsAt, SlotPool.owns, before, queue]
      exact mem_tail_iff absent y
    · intro y
      simp [SlotPool.slotsAt, SlotPool.owns, held, none, eq_comm]
    · intro p notQueue notOwn
      exact SlotPool.slotsAt_others held notOwn (fun _ => rfl) fun same => absurd same notQueue
  exact ⟨placed.kept.move moved, placed.freeOnce, queue ▸ restOnce⟩

/-- A pool in which no thread has a slot, and all slots are on the freelist. -/
theorem placed_init (freelist : F) : Placed (SlotPool.init freelist) (List.range maxQueueMessages).reverse := by
  refine ⟨⟨?_, ?_, ?_⟩, List.nodup_reverse.mpr List.nodup_range, List.nodup_nil⟩
  · intro p q x atP atQ
    match p, q with
    | .free, .free => rfl
    | .owner (.user u), _ => cases atP
    | .owner .commitPipe, _ => cases atP
    | .free, .owner (.user u) => cases atQ
    | .free, .owner .commitPipe => cases atQ
  · intro p x atP
    match p with
    | .free => exact List.mem_range.mp (List.mem_reverse.mp atP)
    | .owner (.user u) => cases atP
    | .owner .commitPipe => cases atP
  · intro x inRange
    exact ⟨.free, List.mem_reverse.mpr (List.mem_range.mpr inRange)⟩

end Placed

section Steps
variable {F : Type} {access : F → SlotPc → Option (F × SlotPc)} {s t : SlotPool F} {l : SlotLabel} {u : SlotUser}

/-- Everything that a step of the threads can be. -/
inductive SlotStep (access : F → SlotPc → Option (F × SlotPc)) (s : SlotPool F) : SlotLabel → SlotPool F → Prop
  | call (c : Nat) : s.pcs (.client c) = .idle → SlotStep access s (.getFreeMsg c) (s.goto (.client c) .getHead)
  | free (u : SlotUser) (freelist : F) (pc : SlotPc) : access s.freelist (s.pcs u) = some (freelist, pc) →
      SlotStep access s (.access u) ({ s with freelist := freelist }.goto u pc)
  | slot (u : SlotUser) (t : SlotPool F) : access s.freelist (s.pcs u) = none → s.slotAccess u (s.pcs u) = some t →
      SlotStep access s (.access u) t
  | commit (c slot : Nat) : s.pcs (.client c) = .commit slot →
      SlotStep access s (.pushMessage c true) ({ s with commitPipe := s.commitPipe ++ [slot] }.goto (.client c) .idle)
  | notCommitted (c slot : Nat) : s.pcs (.client c) = .commit slot →
      SlotStep access s (.pushMessage c false) (s.goto (.client c) (.releaseType slot))
  | receive (slot : Nat) (rest : List Nat) : s.pcs .listener = .idle → s.commitPipe = slot :: rest →
      SlotStep access s .receive ({ s with commitPipe := rest }.goto .listener (.handle slot))
  | release (slot : Nat) : s.pcs .listener = .handle slot →
      SlotStep access s .release (s.goto .listener (.releaseType slot))

theorem slotStep_cases (step : slotStep access s l = some t) : SlotStep access s l t ∧ s.failed = false := by
  have running : s.failed = false := by
    by_contra failed
    rw [Bool.not_eq_false] at failed
    cases l <;> simp [slotStep, failed] at step
  have notFailed : ¬ s.failed = true := by simp [running]
  refine ⟨?_, running⟩
  cases l with
  | getFreeMsg c =>
    simp only [slotStep] at step
    split at step
    · rename_i idle
      cases Option.some.inj step
      exact .call c idle.2
    · cases step
  | access u =>
    simp only [slotStep, if_neg notFailed] at step
    split at step
    · rename_i freelist pc taken
      cases Option.some.inj step
      exact .free u freelist pc taken
    · rename_i none
      exact .slot u t none step
  | pushMessage c ok =>
    simp only [slotStep, if_neg notFailed] at step
    split at step
    · rename_i slot atCommit
      cases ok <;> cases Option.some.inj step
      · exact .notCommitted c slot atCommit
      · exact .commit c slot atCommit
    · cases step
  | receive =>
    simp only [slotStep, if_neg notFailed] at step
    split at step
    · rename_i slot rest idle queue
      cases Option.some.inj step
      exact .receive slot rest idle queue
    · cases step
  | release =>
    simp only [slotStep, if_neg notFailed] at step
    split at step
    · rename_i slot atHandle
      cases Option.some.inj step
      exact .release slot atHandle
    · cases step

/-- Between two accesses to the freelist. -/
def SlotPc.reading : SlotPc → Bool
  | .getNext _ => true
  | .getCas _ _ => true
  | .releaseNext _ _ => true
  | .releaseCas _ _ => true
  | _ => false

/-- An access to the counter or to the type of a slot leaves the thread where it is, if an assertion fails, or brings it to a
place with the same slot. -/
theorem slotAccess_goto {pc : SlotPc} (step : s.slotAccess u pc = some t) :
    t.freelist = s.freelist ∧ t.commitPipe = s.commitPipe ∧
      (t.pcs = s.pcs ∨ ∃ pc', t.pcs = update s.pcs u pc' ∧ pc'.slot = pc.slot ∧ pc'.reading = false) := by
  cases pc with
  | countLoad slot =>
    simp only [SlotPool.slotAccess] at step
    split at step <;> cases Option.some.inj step
    · exact ⟨rfl, rfl, .inr ⟨_, rfl, rfl, rfl⟩⟩
    · exact ⟨rfl, rfl, .inl rfl⟩
  | countCas slot miu =>
    simp only [SlotPool.slotAccess] at step
    split at step <;> cases Option.some.inj step <;> exact ⟨rfl, rfl, .inr ⟨_, rfl, rfl, rfl⟩⟩
  | testType slot =>
    simp only [SlotPool.slotAccess] at step
    split at step <;> cases Option.some.inj step
    · exact ⟨rfl, rfl, .inl rfl⟩
    · exact ⟨rfl, rfl, .inr ⟨_, rfl, rfl, rfl⟩⟩
  | fill slot =>
    cases Option.some.inj step
    exact ⟨rfl, rfl, .inr ⟨_, rfl, rfl, rfl⟩⟩
  | releaseType slot =>
    simp only [SlotPool.slotAccess] at step
    split at step <;> cases Option.some.inj step
    · exact ⟨rfl, rfl, .inr ⟨_, rfl, rfl, rfl⟩⟩
    · exact ⟨rfl, rfl, .inl rfl⟩
  | uncountLoad =>
    cases Option.some.inj step
    exact ⟨rfl, rfl, .inr ⟨_, rfl, rfl, rfl⟩⟩
  | uncountCas miu =>
    simp only [SlotPool.slotAccess] at step
    split at step
    · split at step <;> cases Option.some.inj step
      · exact ⟨rfl, rfl, .inr ⟨_, rfl, rfl, rfl⟩⟩
      · exact ⟨rfl, rfl, .inl rfl⟩
    · cases Option.some.inj step
      exact ⟨rfl, rfl, .inr ⟨_, rfl, rfl, rfl⟩⟩
  | _ => cases step

theorem SlotPool.held_of_goto {pc : SlotPc} (pcs : t.pcs = update s.pcs u pc) : t.held = update s.held u pc.slot := by
  funext v
  by_cases same : v = u
  · simp [SlotPool.held, pcs, same]
  · simp [SlotPool.held, pcs, same]

/-- A thread that goes to a place with the same slot holds what it held. -/
theorem SlotPool.held_same {pc : SlotPc} (pcs : t.pcs = update s.pcs u pc) (same : pc.slot = (s.pcs u).slot) : t.held = s.held := by
  rw [SlotPool.held_of_goto pcs, same]
  exact Function.update_eq_self u s.held

/-- What an access to the freelist does to the slots on it and to the slot of the thread. -/
inductive FreeMove (free : List Nat) (pc : SlotPc) (free' : List Nat) (pc' : SlotPc) : Prop
  | keep : pc'.slot = pc.slot → free' = free → FreeMove free pc free' pc'
  | pop (x : Nat) : pc.slot = none → free = x :: free' → pc'.slot = some x → FreeMove free pc free' pc'
  | push (x : Nat) : pc.slot = some x → free' = x :: free → pc'.slot = none → FreeMove free pc free' pc'

theorem Placed.freeMove {free free' : List Nat} {pc : SlotPc} {freelist : F} (placed : Placed s free)
    (move : FreeMove free (s.pcs u) free' pc) : Placed ({ s with freelist := freelist }.goto u pc) free' := by
  have goes : ({ s with freelist := freelist }.goto u pc).held = update s.held u pc.slot := SlotPool.held_of_goto rfl
  cases move with
  | keep same list =>
    rw [list]
    exact placed.stay rfl (SlotPool.held_same rfl same)
  | pop x none list taken =>
    rw [list] at placed
    rw [taken] at goes
    exact placed.pop none rfl goes
  | push x own list left =>
    rw [list]
    rw [left] at goes
    exact placed.push own rfl goes

/-- A step that does not touch the freelist keeps each slot in one place. -/
theorem Placed.other {free : List Nat} (placed : Placed s free) (step : SlotStep access s l t)
    (untouched : ∀ u freelist pc, l = .access u → access s.freelist (s.pcs u) ≠ some (freelist, pc)) : Placed t free := by
  cases step with
  | call c idle => exact placed.stay rfl (SlotPool.held_same rfl (by rw [idle]; rfl))
  | free u freelist pc taken => exact absurd taken (untouched u freelist pc rfl)
  | slot u t _ taken =>
    obtain ⟨_, queue, same | ⟨pc, pcs, same, _⟩⟩ := slotAccess_goto taken
    · exact placed.stay queue (by funext v; simp only [SlotPool.held, same])
    · exact placed.stay queue (SlotPool.held_same pcs same)
  | commit c slot atCommit =>
    have own : s.held (.client c) = some slot := by rw [SlotPool.held, atCommit]; rfl
    have goes := SlotPool.held_of_goto (s := s) (u := .client c) (t := { s with commitPipe := s.commitPipe ++ [slot] }.goto (.client c) .idle) rfl
    exact placed.commit own rfl goes
  | notCommitted c slot atCommit => exact placed.stay rfl (SlotPool.held_same rfl (by rw [atCommit]; rfl))
  | receive slot rest idle queue =>
    have none : s.held .listener = none := by rw [SlotPool.held, idle]; rfl
    have goes := SlotPool.held_of_goto (s := s) (u := .listener) (t := { s with commitPipe := rest }.goto .listener (.handle slot)) rfl
    exact placed.receive none queue rfl goes
  | release slot atHandle => exact placed.stay rfl (SlotPool.held_same rfl (by rw [atHandle]; rfl))

end Steps

end Kinetic
