import Kinetic.Listener.SlotOwners

namespace Kinetic
open Chain
open Function (update)
open Transition

/-- What a thread between two accesses knows: the pointers it has read are slots, and a slot to be put back has the next
pointer that its thread has written. -/
def SlotPc.current (f : FreelistCells) : SlotPc → Prop
  | .getNext head => head < maxQueueMessages
  | .getCas _ next => ∀ y, next = some y → y < maxQueueMessages
  | .releaseNext _ fl => ∀ y, fl = some y → y < maxQueueMessages
  | .releaseCas slot fl => f.next slot = fl
  | _ => True

/-- The pointers from the head on lead through the free slots. -/
structure FreelistInv (s : SlotPool FreelistCells) (free : List Nat) : Prop where
  linked : Linked s.freelist.next s.freelist.head free
  placed : Placed s free
  inRange : ∀ x y, x < maxQueueMessages → s.freelist.next x = some y → y < maxQueueMessages
  current : ∀ u, (s.pcs u).current s.freelist

variable {s t : SlotPool FreelistCells} {free : List Nat} {l : SlotLabel}

theorem current_of_not_reading {pc : SlotPc} (notReading : pc.reading = false) (f : FreelistCells) : pc.current f := by
  cases pc with
  | getNext _ => cases notReading
  | getCas _ _ => cases notReading
  | releaseNext _ _ => cases notReading
  | releaseCas _ _ => cases notReading
  | _ => exact trivial

/-- What a thread knows does not depend on the head, or on the next pointers of slots it does not hold. -/
theorem SlotPc.current.change {f f' : FreelistCells} {pc : SlotPc} (current : pc.current f)
    (same : ∀ x, pc.slot = some x → f'.next x = f.next x) : pc.current f' := by
  cases pc with
  | releaseCas slot fl => exact (same slot rfl).trans current
  | _ => exact current

/-- A change of the freelist that leaves the pointers of the slots of other threads. -/
theorem current_goto {f' : FreelistCells} {u : SlotUser} {pc : SlotPc} (current : ∀ v, (s.pcs v).current s.freelist)
    (same : ∀ v x, v ≠ u → s.held v = some x → f'.next x = s.freelist.next x) (here : pc.current f') :
    ∀ v, (update s.pcs u pc v).current f' := by
  intro v
  by_cases own : v = u
  · rw [own, Function.update_self]
    exact here
  · rw [Function.update_of_ne own]
    exact (current v).change fun x held => same v x own held

theorem FreelistInv.head_lt (inv : FreelistInv s free) {head : Nat} (atHead : s.freelist.head = some head) :
    ∃ rest, free = head :: rest ∧ head < maxQueueMessages := by
  have linked := inv.linked
  rw [atHead] at linked
  cases free with
  | nil => cases linked
  | cons x rest =>
    cases Option.some.inj linked.1
    exact ⟨rest, rfl, inv.placed.kept.alive .free head List.mem_cons_self⟩

/-- The freelist after a step that does not touch it. -/
theorem FreelistInv.untouched (inv : FreelistInv s free) (placed : Placed t free) (freelist : t.freelist = s.freelist)
    (pcs : ∀ u, t.pcs u = s.pcs u ∨ (t.pcs u).reading = false) : FreelistInv t free := by
  refine ⟨freelist ▸ inv.linked, placed, freelist ▸ inv.inRange, ?_⟩
  intro u
  rw [freelist]
  rcases pcs u with same | notReading
  · rw [same]
    exact inv.current u
  · exact current_of_not_reading notReading s.freelist

theorem goto_reading {pcs pcs' : SlotUser → SlotPc} {u : SlotUser} {pc : SlotPc} (goes : pcs' = update pcs u pc)
    (notReading : pc.reading = false) (v : SlotUser) : pcs' v = pcs v ∨ (pcs' v).reading = false := by
  by_cases own : v = u
  · rw [goes, own, Function.update_self]
    exact .inr notReading
  · rw [goes, Function.update_of_ne own]
    exact .inl rfl

/-- An access to the freelist by a pop that puts the right slot at the head, or by a push. -/
theorem FreelistInv.access (inv : FreelistInv s free) {u : SlotUser} {f : FreelistCells} {pc : SlotPc}
    (fresh : popFresh s (.access u)) (taken : s.freelist.access (s.pcs u) = some (f, pc)) :
    ∃ free', FreelistInv ({ s with freelist := f }.goto u pc) free' := by
  have current := inv.current u
  cases at_ : s.pcs u with
  | getHead =>
    simp only [at_, FreelistCells.access] at taken
    split at taken <;> cases Option.some.inj taken
    · refine ⟨free, inv.linked, inv.placed.freeMove (.keep (by rw [at_]; rfl) rfl), inv.inRange, ?_⟩
      exact current_goto inv.current (fun _ _ _ _ => rfl) trivial
    · rename_i head atHead
      obtain ⟨_, _, inRange⟩ := inv.head_lt atHead
      refine ⟨free, inv.linked, inv.placed.freeMove (.keep (by rw [at_]; rfl) rfl), inv.inRange, ?_⟩
      exact current_goto inv.current (fun _ _ _ _ => rfl) inRange
  | getNext head =>
    simp only [at_, FreelistCells.access] at taken
    cases Option.some.inj taken
    rw [at_] at current
    refine ⟨free, inv.linked, inv.placed.freeMove (.keep (by rw [at_]; rfl) rfl), inv.inRange, ?_⟩
    exact current_goto inv.current (fun _ _ _ _ => rfl) fun y follows => inv.inRange head y current follows
  | getCas head next =>
    simp only [at_, FreelistCells.access] at taken
    split at taken <;> cases Option.some.inj taken
    · rename_i atHead
      simp only [popFresh, at_] at fresh
      obtain ⟨rest, rfl, _⟩ := inv.head_lt atHead
      have linked := inv.linked.2
      rw [fresh atHead] at linked
      refine ⟨rest, linked, inv.placed.freeMove (.pop head (by rw [at_]; rfl) rfl rfl), inv.inRange, ?_⟩
      exact current_goto inv.current (fun _ _ _ _ => rfl) trivial
    · refine ⟨free, inv.linked, inv.placed.freeMove (.keep (by rw [at_]; rfl) rfl), inv.inRange, ?_⟩
      exact current_goto inv.current (fun _ _ _ _ => rfl) trivial
  | releaseHead slot =>
    simp only [at_, FreelistCells.access] at taken
    cases Option.some.inj taken
    refine ⟨free, inv.linked, inv.placed.freeMove (.keep (by rw [at_]; rfl) rfl), inv.inRange, ?_⟩
    refine current_goto inv.current (fun _ _ _ _ => rfl) fun y atHead => ?_
    obtain ⟨_, _, inRange⟩ := inv.head_lt atHead
    exact inRange
  | releaseNext slot fl =>
    simp only [at_, FreelistCells.access] at taken
    cases Option.some.inj taken
    have own : s.held u = some slot := by rw [SlotPool.held, at_]; rfl
    have absent : slot ∉ free := by
      intro member
      cases inv.placed.kept.exclusive (.owner (.user u)) .free slot own member
    rw [at_] at current
    refine ⟨free, inv.linked.update absent fl, inv.placed.freeMove (.keep (by rw [at_]; rfl) rfl), ?_, ?_⟩
    · intro x y inRange (follows : update s.freelist.next slot fl x = some y)
      by_cases same : x = slot
      · rw [same, Function.update_self] at follows
        exact current y follows
      · rw [Function.update_of_ne same] at follows
        exact inv.inRange x y inRange follows
    · have written : (SlotPc.releaseCas slot fl).current { s.freelist with next := update s.freelist.next slot fl } := by
        simp [SlotPc.current]
      refine current_goto (s := s) inv.current (fun v x other held => ?_) written
      have apart : x ≠ slot := by
        rintro rfl
        cases inv.placed.kept.exclusive (.owner (.user v)) (.owner (.user u)) x held own
        exact other rfl
      exact Function.update_of_ne apart fl s.freelist.next
  | releaseCas slot fl =>
    simp only [at_, FreelistCells.access] at taken
    split at taken <;> cases Option.some.inj taken
    · rename_i atHead
      rw [at_] at current
      have linked : Linked s.freelist.next (some slot) (slot :: free) := by
        refine ⟨rfl, ?_⟩
        rw [show s.freelist.next slot = fl from current, ← atHead]
        exact inv.linked
      refine ⟨slot :: free, linked, inv.placed.freeMove (.push slot (by rw [at_]; rfl) rfl rfl), inv.inRange, ?_⟩
      exact current_goto inv.current (fun _ _ _ _ => rfl) trivial
    · refine ⟨free, inv.linked, inv.placed.freeMove (.keep (by rw [at_]; rfl) rfl), inv.inRange, ?_⟩
      exact current_goto inv.current (fun _ _ _ _ => rfl) trivial
  | _ => simp only [at_, FreelistCells.access] at taken; cases taken

theorem FreelistInv.step (inv : FreelistInv s free) (fresh : popFresh s l)
    (step : slotStep FreelistCells.access s l = some t) : ∃ free', FreelistInv t free' := by
  obtain ⟨taken, _⟩ := slotStep_cases step
  have placed := inv.placed.other taken
  cases taken with
  | free u f pc taken => exact inv.access fresh taken
  | call c idle =>
    have placed : Placed _ free := placed nofun
    exact ⟨free, inv.untouched placed rfl (goto_reading rfl rfl)⟩
  | slot u t none taken =>
    have placed : Placed t free := placed fun v f pc same => by cases same; rw [none]; exact nofun
    obtain ⟨freelist, _, same | ⟨pc, pcs, _, notReading⟩⟩ := slotAccess_goto taken
    · exact ⟨free, inv.untouched placed freelist fun v => .inl (by rw [same])⟩
    · exact ⟨free, inv.untouched placed freelist (goto_reading pcs notReading)⟩
  | commit c slot atCommit =>
    have placed : Placed _ free := placed nofun
    exact ⟨free, inv.untouched placed rfl (goto_reading rfl rfl)⟩
  | notCommitted c slot atCommit =>
    have placed : Placed _ free := placed nofun
    exact ⟨free, inv.untouched placed rfl (goto_reading rfl rfl)⟩
  | receive slot rest idle queue =>
    have placed : Placed _ free := placed nofun
    exact ⟨free, inv.untouched placed rfl (goto_reading rfl rfl)⟩
  | release slot atHandle =>
    have placed : Placed _ free := placed nofun
    exact ⟨free, inv.untouched placed rfl (goto_reading rfl rfl)⟩

theorem linked_init (n : Nat) :
    Linked FreelistCells.init.next (if n = 0 then none else some (n - 1)) (List.range n).reverse := by
  induction n with
  | zero => rfl
  | succ n ih =>
    rw [List.range_succ, List.reverse_append]
    exact ⟨rfl, ih⟩

theorem freelistInv_init : FreelistInv (SlotPool.init FreelistCells.init) (List.range maxQueueMessages).reverse := by
  refine ⟨linked_init maxQueueMessages, placed_init _, ?_, fun _ => trivial⟩
  intro x y inRange follows
  change (if x = 0 then none else some (x - 1)) = some y at follows
  split at follows
  · cases follows
  · cases Option.some.inj follows
    omega

theorem FreelistInv.oneOwner (inv : FreelistInv s free) : OneOwner s := by
  refine ⟨?_, inv.placed.queuedOnce, ?_, ?_⟩
  · intro x o o' first second
    cases inv.placed.kept.exclusive (.owner o) (.owner o') x first second
    rfl
  · intro x o own met
    have member : x ∈ free := inv.linked.meets_iff.mp met
    cases inv.placed.kept.exclusive (.owner o) .free x own member
  · intro x inRange
    obtain ⟨p, atP⟩ := inv.placed.kept.complete x inRange
    match p with
    | .free => exact .inl (inv.linked.meets_iff.mpr atP)
    | .owner o => exact .inr ⟨o, atP⟩

/-- A slot taken by a compare-and-swap with a next pointer that is no longer its own leaves the freelist broken: the slot that
follows has no owner and is not met, or one that has an owner is. -/
theorem FreelistInv.broken (inv : FreelistInv s free) {u : SlotUser} {head : Nat} {next : Option Nat}
    (at_ : s.pcs u = .getCas head next) (atHead : s.freelist.head = some head) (stale : s.freelist.next head ≠ next) :
    ¬ OneOwner ({ s with freelist := { s.freelist with head := next } }.goto u (.countLoad head)) := by
  intro one
  obtain ⟨rest, rfl, _⟩ := inv.head_lt atHead
  have linked := inv.linked.2
  have empty : (s.pcs u).slot = none := by rw [at_]; rfl
  have placed : Placed ({ s with freelist := { s.freelist with head := next } }.goto u (.countLoad head)) rest :=
    inv.placed.freeMove (.pop head empty rfl rfl)
  have lost (x : Nat) (free : x ∈ rest) (unmet : ¬ Meets s.freelist.next next x) : False := by
    have inRange := placed.kept.alive .free x free
    rcases one.owned x inRange with met | ⟨o, own⟩
    · exact unmet met
    · cases placed.kept.exclusive .free (.owner o) x free own
  cases rest with
  | nil =>
    cases next with
    | none => exact stale linked
    | some y =>
      have current := inv.current u
      rw [at_] at current
      obtain ⟨p, atP⟩ := placed.kept.complete y (current y rfl)
      match p with
      | .free => cases atP
      | .owner o => exact one.notFree y o atP (.here y)
  | cons second rest =>
    cases next with
    | none => exact lost second List.mem_cons_self not_meets_none
    | some y =>
      have current := inv.current u
      rw [at_] at current
      have other : y ≠ second := by
        rintro rfl
        exact stale linked.1
      obtain ⟨p, atP⟩ := placed.kept.complete y (current y rfl)
      match p with
      | .free =>
        have behind : y ∈ rest := (List.mem_cons.mp atP).resolve_left other
        have fromSecond : Linked s.freelist.next (some second) (second :: rest) := ⟨rfl, linked.2⟩
        exact lost second List.mem_cons_self (fromSecond.not_meets_first placed.freeOnce behind)
      | .owner o => exact one.notFree y o atP (.here y)

/-- After a step from a good state, each slot has one owner just when a slot was not taken with a stale next pointer. -/
theorem FreelistInv.oneOwner_iff (inv : FreelistInv s free) (step : slotStep FreelistCells.access s l = some t) :
    OneOwner t ↔ popFresh s l := by
  constructor
  · intro one
    by_contra notFresh
    obtain ⟨taken, _⟩ := slotStep_cases step
    cases taken with
    | free u f pc taken =>
      simp only [popFresh] at notFresh
      split at notFresh
      · rename_i head next at_
        obtain ⟨atHead, stale⟩ := Classical.not_imp.mp notFresh
        simp only [at_, FreelistCells.access, if_pos atHead] at taken
        cases Option.some.inj taken
        exact inv.broken at_ atHead stale one
      · exact notFresh trivial
    | slot u t none taken =>
      simp only [popFresh] at notFresh
      split at notFresh
      · rename_i head next at_
        rw [at_] at taken
        cases taken
      · exact notFresh trivial
    | _ => exact notFresh trivial
  · intro fresh
    obtain ⟨free', inv'⟩ := inv.step fresh step
    exact inv'.oneOwner

/-- The threads of a listener that has just been set up, with the freelist in memory. -/
def slotRun (ok : SlotPool FreelistCells → SlotLabel → Prop) : SlotPool FreelistCells → Prop :=
  Reach (slotStep FreelistCells.access) (SlotPool.init FreelistCells.init) ok

theorem freelist_invariant (reach : slotRun popFresh s) : ∃ free, FreelistInv s free := by
  induction reach with
  | start => exact ⟨_, freelistInv_init⟩
  | next _ fresh step ih =>
    obtain ⟨free, inv⟩ := ih
    exact inv.step fresh step

/-- While no slot is taken with a next pointer that has been changed since it was read, every slot has one owner, and the first
slot taken otherwise ends that. -/
theorem slots_have_one_owner (reach : slotRun popFresh s) :
    OneOwner s ∧ ∀ l t, slotStep FreelistCells.access s l = some t → (OneOwner t ↔ popFresh s l) := by
  obtain ⟨free, inv⟩ := freelist_invariant reach
  exact ⟨inv.oneOwner, fun l t step => inv.oneOwner_iff step⟩

/-- The steps of a whole call of `ListenerHelper_GetFreeMsg`, up to the write to the commit pipe, when no one interferes. -/
def getSteps (c : Nat) : List SlotLabel := .getFreeMsg c :: List.replicate 7 (.access (.client c))

/-- The steps of `ListenerTask_ReleaseMsg` for a client whose write to the commit pipe fails. -/
def giveBackSteps (c : Nat) : List SlotLabel := .pushMessage c false :: List.replicate 6 (.access (.client c))

theorem slots_have_one_owner_two_threads :
    ∃ s, slotRun popFresh s ∧ OneOwner s ∧ (s.held (.client 0), s.held (.client 1)) = (some 30, some 29) := by
  have run : ((exec (slotStep FreelistCells.access) (fun s l => decide (popFresh s l)) (SlotPool.init FreelistCells.init)
      (getSteps 2 ++ getSteps 0 ++ getSteps 1 ++ giveBackSteps 2)).map
        fun s => (s.held (.client 0), s.held (.client 1))) = some (some 30, some 29) := by decide +kernel
  obtain ⟨s, reach, seen⟩ := exists_reach_of_exec run
  exact ⟨s, reach, (slots_have_one_owner reach).1, seen⟩

/-- Client 0 has read slot 31 at the head and slot 30 behind it. Clients 1 and 2 take the two slots, and client 1 puts slot 31
back. Then client 0 finds slot 31 at the head again, and makes slot 30 the head, which client 2 holds. -/
theorem slot_held_and_free :
    ∃ s, slotRun (fun _ _ => True) s ∧ s.held (.client 2) = some 30 ∧ s.onFreelist 30 ∧ ¬ OneOwner s := by
  have run : ((exec (slotStep FreelistCells.access) (fun _ _ => decide True) (SlotPool.init FreelistCells.init)
      (.getFreeMsg 0 :: List.replicate 2 (.access (.client 0)) ++ getSteps 1 ++ getSteps 2 ++ giveBackSteps 1 ++
        [.access (.client 0)])).map fun s => (s.held (.client 2), s.freelist.head)) = some (some 30, some 30) := by
    decide +kernel
  obtain ⟨s, reach, seen⟩ := exists_reach_of_exec run
  obtain ⟨held, head⟩ := Prod.mk.inj seen
  have onFreelist : s.onFreelist 30 := by
    rw [SlotPool.onFreelist, head]
    exact .here 30
  exact ⟨s, reach, held, onFreelist, fun one => one.notFree 30 (.user (.client 2)) held onFreelist⟩

end Kinetic
