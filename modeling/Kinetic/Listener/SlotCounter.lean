import Kinetic.Lib.Crowd
import Kinetic.Listener.SlotOwners

namespace Kinetic
open Crowd
open Function (update)
open Transition

/-- In `ListenerHelper_GetFreeMsg`, between taking a slot and counting it. -/
def SlotPc.counting : SlotPc → Bool
  | .countLoad _ => true
  | .countCas _ _ => true
  | _ => false

/-- In `ListenerTask_ReleaseMsg`, between putting a slot back and counting that. -/
def SlotPc.uncounting : SlotPc → Bool
  | .uncountLoad => true
  | .uncountCas _ => true
  | _ => false

/-- When `ListenerHelper_GetFreeMsg` loads the counter, the slots put back and not yet counted are fewer than the free ones and
those taken and not yet counted. -/
def counterTimely (s : SlotPool (List Nat)) : SlotLabel → Prop
  | .access u =>
    match s.pcs u with
    | .countLoad _ =>
      (crowd SlotPc.uncounting s.pcs).ncard < s.freelist.length + (crowd SlotPc.counting s.pcs).ncard
    | _ => True
  | _ => True

/-- The values of the counter that a thread has read. -/
def SlotPc.bounded : SlotPc → Prop
  | .countCas _ miu => miu < maxQueueMessages
  | .uncountCas miu => 0 < miu
  | _ => True

/-- The places of a thread at which its slot has the type `MSG_NONE`. -/
def SlotPc.blank : SlotPc → Bool
  | .countLoad _ => true
  | .countCas _ _ => true
  | .testType _ => true
  | .releaseHead _ => true
  | _ => false

/-- The slots on the freelist, just taken from it or about to be put on it have the type `MSG_NONE`. -/
structure BlankSlots (s : SlotPool (List Nat)) : Prop where
  free : ∀ x ∈ s.freelist, s.typed x = false
  held : ∀ u x, (s.pcs u).blank = true → s.held u = some x → s.typed x = false

/-- The counter is off from the number of slots in use by what is not counted yet. -/
structure CounterInv (s : SlotPool (List Nat)) (gets puts : Nat) : Prop where
  placed : Placed s s.freelist
  getters : Counts SlotPc.counting s.pcs gets
  putters : Counts SlotPc.uncounting s.pcs puts
  total : s.msgsInUse + s.freelist.length + gets = maxQueueMessages + puts
  most : s.msgsInUse ≤ maxQueueMessages
  bounded : ∀ u, (s.pcs u).bounded

variable {s t : SlotPool (List Nat)} {gets puts : Nat} {l : SlotLabel} {u : SlotUser}

/-- The slots taken and not yet counted are not free. -/
theorem CounterInv.capacity (inv : CounterInv s gets puts) : s.freelist.length + gets ≤ maxQueueMessages := by
  have taken (u : SlotUser) (here : (s.pcs u).counting = true) : ∃ x, s.held u = some x := by
    cases at_ : s.pcs u with
    | countLoad x => exact ⟨x, by rw [SlotPool.held, at_]; rfl⟩
    | countCas x miu => exact ⟨x, by rw [SlotPool.held, at_]; rfl⟩
    | _ => rw [at_] at here; cases here
  let outside : Finset Nat := Finset.range maxQueueMessages \ s.freelist.toFinset
  have among (u : SlotUser) (here : (s.pcs u).counting = true) : (s.held u).getD 0 ∈ outside := by
    obtain ⟨x, own⟩ := taken u here
    have inRange := inv.placed.kept.alive (.owner (.user u)) x own
    have notFree : x ∉ s.freelist := fun free => by cases inv.placed.kept.exclusive .free (.owner (.user u)) x free own
    simp only [outside, own, Option.getD_some, Finset.mem_sdiff, Finset.mem_range, List.mem_toFinset]
    exact ⟨inRange, notFree⟩
  have apart (u v : SlotUser) (atU : (s.pcs u).counting = true) (atV : (s.pcs v).counting = true)
      (same : (s.held u).getD 0 = (s.held v).getD 0) : u = v := by
    obtain ⟨x, ownU⟩ := taken u atU
    obtain ⟨y, ownV⟩ := taken v atV
    rw [ownU, ownV, Option.getD_some, Option.getD_some] at same
    subst same
    cases inv.placed.kept.exclusive (.owner (.user u)) (.owner (.user v)) x ownU ownV
    rfl
  have few := inv.getters.le_card outside (fun u => (s.held u).getD 0) among apart
  have subset : s.freelist.toFinset ⊆ Finset.range maxQueueMessages := by
    intro x free
    exact Finset.mem_range.mpr (inv.placed.kept.alive .free x (List.mem_toFinset.mp free))
  have split := Finset.card_sdiff_add_card_eq_card subset
  rw [List.toFinset_card_of_nodup inv.placed.freeOnce, Finset.card_range] at split
  have : outside.card + s.freelist.length = maxQueueMessages := split
  omega

/-- The counter is at least the number of slots that were put back and not yet counted. -/
theorem CounterInv.puts_le (inv : CounterInv s gets puts) : (puts : Int) ≤ s.msgsInUse := by
  have capacity := inv.capacity
  have total := inv.total
  omega

/-- The counter is below the number of slots just when few slots put back have not been counted. -/
theorem CounterInv.lt_iff (inv : CounterInv s gets puts) :
    s.msgsInUse < maxQueueMessages ↔
      (crowd SlotPc.uncounting s.pcs).ncard < s.freelist.length + (crowd SlotPc.counting s.pcs).ncard := by
  have total := inv.total
  rw [inv.getters.card, inv.putters.card]
  omega

theorem toInt16_of_small {value : Int} (low : -1 ≤ value) (high : value ≤ 33) : toInt16 value = value := by
  rw [toInt16, Int.bmod_def]
  omega

theorem bounded_goto {pcs : SlotUser → SlotPc} {pc : SlotPc} (all : ∀ v, (pcs v).bounded) (bounded : pc.bounded) (v : SlotUser) :
    (update pcs u pc v).bounded := by
  by_cases own : v = u
  · rw [own, Function.update_self]
    exact bounded
  · rw [Function.update_of_ne own]
    exact all v

/-- A thread goes on while the freelist and the counter stay as they are. -/
theorem CounterInv.goto (inv : CounterInv s gets puts) {pc : SlotPc} (placed : Placed t t.freelist)
    (freelist : t.freelist = s.freelist) (counter : t.msgsInUse = s.msgsInUse) (pcs : t.pcs = update s.pcs u pc)
    (counting : pc.counting = (s.pcs u).counting) (uncounting : pc.uncounting = (s.pcs u).uncounting)
    (bounded : pc.bounded) : CounterInv t gets puts := by
  refine ⟨placed, pcs ▸ inv.getters.stay counting, pcs ▸ inv.putters.stay uncounting, ?_, counter ▸ inv.most,
    pcs ▸ bounded_goto inv.bounded bounded⟩
  rw [freelist, counter]
  exact inv.total

/-- A pop or a push. -/
theorem CounterInv.access (inv : CounterInv s gets puts) {f : List Nat} {pc : SlotPc}
    (taken : freelistAccess s.freelist (s.pcs u) = some (f, pc)) :
    ∃ gets' puts', CounterInv ({ s with freelist := f }.goto u pc) gets' puts' := by
  have total := inv.total
  cases at_ : s.pcs u with
  | getHead =>
    rw [at_] at taken
    cases list : s.freelist with
    | nil =>
      rw [list] at taken
      cases Option.some.inj taken
      have placed : Placed ({ s with freelist := [] }.goto u .idle) [] :=
        (list ▸ inv.placed).freeMove (.keep (by rw [at_]; rfl) rfl)
      exact ⟨gets, puts, inv.goto placed list.symm rfl rfl (by rw [at_]; rfl) (by rw [at_]; rfl) trivial⟩
    | cons head next =>
      rw [list] at taken
      cases Option.some.inj taken
      rw [list, List.length_cons] at total
      refine ⟨gets + 1, puts, (list ▸ inv.placed).freeMove (.pop head (by rw [at_]; rfl) rfl rfl),
        inv.getters.enter (by rw [at_]; rfl) rfl, inv.putters.stay (by rw [at_]; rfl), ?_, inv.most,
        bounded_goto inv.bounded trivial⟩
      show s.msgsInUse + (f.length : Int) + ((gets + 1 : Nat) : Int) = maxQueueMessages + puts
      omega
  | releaseHead slot =>
    rw [at_] at taken
    cases Option.some.inj taken
    refine ⟨gets, puts + 1, inv.placed.freeMove (.push slot (by rw [at_]; rfl) rfl rfl), inv.getters.stay (by rw [at_]; rfl),
      inv.putters.enter (by rw [at_]; rfl) rfl, ?_, inv.most, bounded_goto inv.bounded trivial⟩
    show s.msgsInUse + ((slot :: s.freelist).length : Int) + (gets : Int) = maxQueueMessages + ((puts + 1 : Nat) : Int)
    rw [List.length_cons]
    omega
  | _ => rw [at_] at taken; cases taken

/-- A slot stays blank while its thread goes on with it. -/
theorem BlankSlots.goto (blank : BlankSlots s) {pc : SlotPc} (freelist : t.freelist = s.freelist) (typed : t.typed = s.typed)
    (pcs : t.pcs = update s.pcs u pc) (stays : pc.blank = true → (s.pcs u).blank = true ∧ pc.slot = (s.pcs u).slot) :
    BlankSlots t := by
  refine ⟨freelist ▸ typed ▸ blank.free, ?_⟩
  intro v x here own
  rw [typed]
  rw [SlotPool.held, pcs] at own
  rw [pcs] at here
  by_cases same : v = u
  · rw [same, Function.update_self] at here own
    obtain ⟨before, slot⟩ := stays here
    exact blank.held u x before (slot.symm.trans own)
  · rw [Function.update_of_ne same] at here own
    exact blank.held v x here own

/-- A thread writes the type of its own slot. -/
theorem BlankSlots.write (blank : BlankSlots s) (placed : Placed s s.freelist) {pc : SlotPc} {slot : Nat} {value : Bool}
    (own : s.held u = some slot) (freelist : t.freelist = s.freelist) (typed : t.typed = update s.typed slot value)
    (pcs : t.pcs = update s.pcs u pc) (here : pc.slot = some slot ∧ (pc.blank = true → value = false)) : BlankSlots t := by
  have other {x : Nat} (apart : x ≠ slot) : t.typed x = s.typed x := by rw [typed, Function.update_of_ne apart]
  refine ⟨?_, ?_⟩
  · intro x free
    rw [freelist] at free
    have apart : x ≠ slot := by
      rintro rfl
      cases placed.kept.exclusive .free (.owner (.user u)) x free own
    rw [other apart]
    exact blank.free x free
  · intro v x atV ownV
    rw [SlotPool.held, pcs] at ownV
    rw [pcs] at atV
    by_cases same : v = u
    · rw [same, Function.update_self] at atV ownV
      cases Option.some.inj (here.1.symm.trans ownV)
      rw [typed, Function.update_self]
      exact here.2 atV
    · rw [Function.update_of_ne same] at atV ownV
      have apart : x ≠ slot := by
        rintro rfl
        cases placed.kept.exclusive (.owner (.user v)) (.owner (.user u)) x ownV own
        exact same rfl
      rw [other apart]
      exact blank.held v x atV ownV

theorem BlankSlots.access (blank : BlankSlots s) {f : List Nat} {pc : SlotPc}
    (taken : freelistAccess s.freelist (s.pcs u) = some (f, pc)) : BlankSlots ({ s with freelist := f }.goto u pc) := by
  have others (v : SlotUser) (other : v ≠ u) (x : Nat) (atV : (update s.pcs u pc v).blank = true)
      (own : (update s.pcs u pc v).slot = some x) : s.typed x = false := by
    rw [Function.update_of_ne other] at atV own
    exact blank.held v x atV own
  cases at_ : s.pcs u with
  | getHead =>
    rw [at_] at taken
    cases list : s.freelist with
    | nil =>
      rw [list] at taken
      cases Option.some.inj taken
      exact blank.goto (u := u) list.symm rfl rfl nofun
    | cons head next =>
      rw [list] at taken
      obtain ⟨rfl, rfl⟩ := Prod.mk.inj (Option.some.inj taken)
      refine ⟨fun x free => blank.free x (list ▸ List.mem_cons_of_mem head free), ?_⟩
      intro v x (atV : (update s.pcs u (.countLoad head) v).blank = true)
        (own : (update s.pcs u (.countLoad head) v).slot = some x)
      by_cases same : v = u
      · rw [same, Function.update_self] at own
        cases Option.some.inj own
        exact blank.free head (list ▸ List.mem_cons_self)
      · exact others v same x atV own
  | releaseHead slot =>
    rw [at_] at taken
    cases Option.some.inj taken
    refine ⟨?_, ?_⟩
    · intro x free
      rcases List.mem_cons.mp free with rfl | free
      · exact blank.held u x (by rw [at_]; rfl) (by rw [SlotPool.held, at_]; rfl)
      · exact blank.free x free
    · intro v x (atV : (update s.pcs u .uncountLoad v).blank = true) (own : (update s.pcs u .uncountLoad v).slot = some x)
      by_cases same : v = u
      · rw [same, Function.update_self] at own
        cases own
      · exact others v same x atV own
  | _ => rw [at_] at taken; cases taken

/-- The counter is right up to what is not counted yet, and no assertion has failed. -/
structure SlotsSound (s : SlotPool (List Nat)) : Prop where
  counter : ∃ gets puts, CounterInv s gets puts
  blank : BlankSlots s
  running : s.failed = false

/-- An access to the counter or to the type of a slot, if the counter is loaded in time. -/
theorem SlotsSound.slotAccess (sound : SlotsSound s) (timely : counterTimely s (.access u))
    (taken : s.slotAccess u (s.pcs u) = some t) (placed : Placed t t.freelist) : SlotsSound t := by
  obtain ⟨gets, puts, inv⟩ := sound.counter
  have total := inv.total
  have most := inv.most
  have putsLe := inv.puts_le
  cases at_ : s.pcs u with
  | countLoad slot =>
    simp only [counterTimely, at_] at timely
    simp only [at_, SlotPool.slotAccess, if_pos (inv.lt_iff.mpr timely)] at taken
    cases Option.some.inj taken
    exact ⟨⟨gets, puts, inv.goto placed rfl rfl rfl (by rw [at_]; rfl) (by rw [at_]; rfl) (inv.lt_iff.mpr timely)⟩,
      sound.blank.goto rfl rfl rfl (by rw [at_]; exact fun _ => ⟨rfl, rfl⟩), sound.running⟩
  | countCas slot miu =>
    simp only [at_, SlotPool.slotAccess] at taken
    split at taken
    · rename_i same
      cases Option.some.inj taken
      have below : miu < maxQueueMessages := by
        have bounded := inv.bounded u
        rw [at_] at bounded
        exact bounded
      have waiting : 0 < gets := inv.getters.pos (u := u) (by rw [at_]; rfl)
      have stored : toInt16 (miu + 1) = miu + 1 := by
        have : (maxQueueMessages : Int) = 32 := rfl
        exact toInt16_of_small (by omega) (by omega)
      refine ⟨⟨gets - 1, puts, placed, inv.getters.leave (by rw [at_]; rfl) rfl, inv.putters.stay (by rw [at_]; rfl), ?_, ?_,
        bounded_goto inv.bounded trivial⟩, sound.blank.goto rfl rfl rfl (by rw [at_]; exact fun _ => ⟨rfl, rfl⟩), sound.running⟩
      · show toInt16 (miu + 1) + (s.freelist.length : Int) + ((gets - 1 : Nat) : Int) = maxQueueMessages + puts
        omega
      · show toInt16 (miu + 1) ≤ maxQueueMessages
        omega
    · cases Option.some.inj taken
      exact ⟨⟨gets, puts, inv.goto placed rfl rfl rfl (by rw [at_]; rfl) (by rw [at_]; rfl) trivial⟩,
        sound.blank.goto rfl rfl rfl (by rw [at_]; exact fun _ => ⟨rfl, rfl⟩), sound.running⟩
  | testType slot =>
    have untyped : s.typed slot = false := sound.blank.held u slot (by rw [at_]; rfl) (by rw [SlotPool.held, at_]; rfl)
    simp only [at_, SlotPool.slotAccess, untyped, Bool.false_eq_true, if_false] at taken
    cases Option.some.inj taken
    exact ⟨⟨gets, puts, inv.goto placed rfl rfl rfl (by rw [at_]; rfl) (by rw [at_]; rfl) trivial⟩,
      sound.blank.goto rfl rfl rfl (by rintro ⟨⟩), sound.running⟩
  | fill slot =>
    rw [at_] at taken
    cases Option.some.inj taken
    exact ⟨⟨gets, puts, inv.goto placed rfl rfl rfl (by rw [at_]; rfl) (by rw [at_]; rfl) trivial⟩,
      sound.blank.write inv.placed (by rw [SlotPool.held, at_]; rfl) rfl rfl rfl ⟨rfl, (by rintro ⟨⟩)⟩, sound.running⟩
  | releaseType slot =>
    have own : s.held u = some slot := by rw [SlotPool.held, at_]; rfl
    have inRange : slot < maxQueueMessages := inv.placed.kept.alive (.owner (.user u)) slot own
    simp only [at_, SlotPool.slotAccess, if_pos inRange] at taken
    cases Option.some.inj taken
    exact ⟨⟨gets, puts, inv.goto placed rfl rfl rfl (by rw [at_]; rfl) (by rw [at_]; rfl) trivial⟩,
      sound.blank.write inv.placed own rfl rfl rfl ⟨rfl, fun _ => rfl⟩, sound.running⟩
  | uncountLoad =>
    rw [at_] at taken
    cases Option.some.inj taken
    have waiting : 0 < puts := inv.putters.pos (u := u) (by rw [at_]; rfl)
    have positive : 0 < s.msgsInUse := by omega
    exact ⟨⟨gets, puts, inv.goto placed rfl rfl rfl (by rw [at_]; rfl) (by rw [at_]; rfl) positive⟩,
      sound.blank.goto rfl rfl rfl (by rintro ⟨⟩), sound.running⟩
  | uncountCas miu =>
    simp only [at_, SlotPool.slotAccess] at taken
    split at taken
    · rename_i same
      have waiting : 0 < puts := inv.putters.pos (u := u) (by rw [at_]; rfl)
      have positive : 0 < miu := by omega
      rw [if_pos (by omega)] at taken
      cases Option.some.inj taken
      have stored : toInt16 (miu - 1) = miu - 1 := by
        have : (maxQueueMessages : Int) = 32 := rfl
        exact toInt16_of_small (by omega) (by omega)
      refine ⟨⟨gets, puts - 1, placed, inv.getters.stay (by rw [at_]; rfl), inv.putters.leave (by rw [at_]; rfl) rfl, ?_, ?_,
        bounded_goto inv.bounded trivial⟩, sound.blank.goto rfl rfl rfl (by rintro ⟨⟩), sound.running⟩
      · show toInt16 (miu - 1) + (s.freelist.length : Int) + (gets : Int) = maxQueueMessages + ((puts - 1 : Nat) : Int)
        omega
      · show toInt16 (miu - 1) ≤ maxQueueMessages
        omega
    · cases Option.some.inj taken
      exact ⟨⟨gets, puts, inv.goto placed rfl rfl rfl (by rw [at_]; rfl) (by rw [at_]; rfl) trivial⟩,
        sound.blank.goto rfl rfl rfl (by rintro ⟨⟩), sound.running⟩
  | _ => rw [at_] at taken; cases taken

/-- A step of a thread that touches neither the freelist nor the counter nor a type. -/
theorem SlotsSound.goto (sound : SlotsSound s) {pc : SlotPc} (placed : Placed t t.freelist) (freelist : t.freelist = s.freelist)
    (counter : t.msgsInUse = s.msgsInUse) (typed : t.typed = s.typed) (failed : t.failed = s.failed)
    (pcs : t.pcs = update s.pcs u pc) (counting : pc.counting = (s.pcs u).counting)
    (uncounting : pc.uncounting = (s.pcs u).uncounting) (bounded : pc.bounded) (notBlank : pc.blank = false) :
    SlotsSound t := by
  obtain ⟨gets, puts, inv⟩ := sound.counter
  exact ⟨⟨gets, puts, inv.goto placed freelist counter pcs counting uncounting bounded⟩,
    sound.blank.goto freelist typed pcs (by rw [notBlank]; nofun), failed.trans sound.running⟩

theorem SlotsSound.step (sound : SlotsSound s) (timely : counterTimely s l) (step : slotStep freelistAccess s l = some t) :
    SlotsSound t := by
  obtain ⟨gets, puts, inv⟩ := sound.counter
  obtain ⟨taken, _⟩ := slotStep_cases step
  have placed := inv.placed.other taken
  cases taken with
  | free u f pc taken => exact ⟨inv.access taken, sound.blank.access taken, sound.running⟩
  | slot u t none taken =>
    obtain ⟨freelist, _⟩ := slotAccess_goto taken
    have placed : Placed t s.freelist := placed fun v f pc same => by cases same; rw [none]; exact nofun
    exact sound.slotAccess timely taken (freelist ▸ placed)
  | call c idle =>
    exact sound.goto (placed nofun) rfl rfl rfl rfl rfl (by rw [idle]; rfl) (by rw [idle]; rfl) trivial rfl
  | commit c slot atCommit =>
    exact sound.goto (placed nofun) rfl rfl rfl rfl rfl (by rw [atCommit]; rfl) (by rw [atCommit]; rfl) trivial rfl
  | notCommitted c slot atCommit =>
    exact sound.goto (placed nofun) rfl rfl rfl rfl rfl (by rw [atCommit]; rfl) (by rw [atCommit]; rfl) trivial rfl
  | receive slot rest idle queue =>
    exact sound.goto (placed nofun) rfl rfl rfl rfl rfl (by rw [idle]; rfl) (by rw [idle]; rfl) trivial rfl
  | release slot atHandle =>
    exact sound.goto (placed nofun) rfl rfl rfl rfl rfl (by rw [atHandle]; rfl) (by rw [atHandle]; rfl) trivial rfl

/-- The threads of a listener that has just been set up, with a freelist whose pops and pushes are single steps. -/
def counterRun (ok : SlotPool (List Nat) → SlotLabel → Prop) : SlotPool (List Nat) → Prop :=
  Reach (slotStep freelistAccess) (SlotPool.init (List.range maxQueueMessages).reverse) ok

theorem slotsSound_init : SlotsSound (SlotPool.init (List.range maxQueueMessages).reverse) := by
  have counter : CounterInv (SlotPool.init (List.range maxQueueMessages).reverse) 0 0 :=
    ⟨placed_init _, .zero fun _ => rfl, .zero fun _ => rfl, by decide, by decide, fun _ => trivial⟩
  exact ⟨⟨0, 0, counter⟩, ⟨fun _ _ => rfl, fun _ _ here => by cases here⟩, rfl⟩

theorem slots_sound (reach : counterRun counterTimely s) : SlotsSound s :=
  reach.invariant slotsSound_init fun _ _ _ sound timely step => sound.step timely step

/-- While few slots put back are not counted when `ListenerHelper_GetFreeMsg` loads the counter, each value it has read is
below the number of slots, each value that `ListenerTask_ReleaseMsg` has read or will read is positive, and no assertion fails.
The next value for `ListenerHelper_GetFreeMsg` is below the number of slots just when that is still so. -/
theorem slot_counter_bounds (reach : counterRun counterTimely s) :
    s.failed = false ∧
      (∀ u slot miu, s.pcs u = .countCas slot miu → miu < maxQueueMessages) ∧
      (∀ u slot, s.pcs u = .countLoad slot → (s.msgsInUse < maxQueueMessages ↔ counterTimely s (.access u))) ∧
      (∀ u miu, s.pcs u = .uncountCas miu → 0 < miu) ∧
      (∀ u, s.pcs u = .uncountLoad → 0 < s.msgsInUse) := by
  have sound := slots_sound reach
  obtain ⟨gets, puts, inv⟩ := sound.counter
  refine ⟨sound.running, ?_, ?_, ?_, ?_⟩
  · intro u slot miu at_
    have bounded := inv.bounded u
    rw [at_] at bounded
    exact bounded
  · intro u slot at_
    simp only [counterTimely, at_]
    exact inv.lt_iff
  · intro u miu at_
    have bounded := inv.bounded u
    rw [at_] at bounded
    exact bounded
  · intro u at_
    have waiting : 0 < puts := inv.putters.pos (u := u) (by rw [at_]; rfl)
    have putsLe := inv.puts_le
    omega

/-- The counter is below the number of slots when it is loaded. -/
def counterBelow (s : SlotPool (List Nat)) : SlotLabel → Prop
  | .access u =>
    match s.pcs u with
    | .countLoad _ => s.msgsInUse < maxQueueMessages
    | _ => True
  | _ => True

/-- The step loads the counter. -/
def loadsCounter (s : SlotPool (List Nat)) : SlotLabel → Bool
  | .access u =>
    match s.pcs u with
    | .countLoad _ => true
    | _ => false
  | _ => false

theorem counterBelow_iff : counterBelow s l ↔ loadsCounter s l = false ∨ s.msgsInUse < maxQueueMessages := by
  cases l with
  | access u =>
    cases at_ : s.pcs u with
    | countLoad slot => simp only [counterBelow, loadsCounter, at_, Bool.true_eq_false, false_or]
    | _ => simp only [counterBelow, loadsCounter, at_, true_or]
  | _ => simp only [counterBelow, loadsCounter, true_or]

instance decidableCounterBelow (s : SlotPool (List Nat)) (l : SlotLabel) : Decidable (counterBelow s l) :=
  @decidable_of_iff' _ _ counterBelow_iff (@instDecidableOr _ _ (instDecidableEqBool _ _) (Int.decLt _ _))

theorem timely_of_below (reach : counterRun counterTimely s) (below : counterBelow s l) : counterTimely s l := by
  obtain ⟨gets, puts, inv⟩ := (slots_sound reach).counter
  cases l with
  | access u =>
    cases at_ : s.pcs u with
    | countLoad slot =>
      simp only [counterBelow, at_] at below
      simp only [counterTimely, at_]
      exact inv.lt_iff.mp below
    | _ => simp only [counterTimely, at_]
  | _ => exact trivial

/-- A client takes a slot and hands it to the listener. -/
def slotSteps (c : Nat) : List SlotLabel := .getFreeMsg c :: List.replicate 5 (.access (.client c)) ++ [.pushMessage c true]

/-- The listener puts the slot of its next command back on the freelist, and has not yet counted it. -/
def putBackSteps : List SlotLabel := [.receive, .release, .access .listener, .access .listener]

/-- All but one of the slots are in use, and the listener has put one more back without counting it. -/
theorem slot_counter_bounds_busy :
    ∃ s, counterRun counterTimely s ∧ s.failed = false ∧ s.freelist.length = 2 ∧ s.msgsInUse = 31 ∧
      s.pcs .listener = .uncountLoad ∧ 0 < s.msgsInUse := by
  have run : ((exec (slotStep freelistAccess) (fun s l => decide (counterBelow s l))
      (SlotPool.init (List.range maxQueueMessages).reverse)
      ((List.replicate 31 (slotSteps 0)).flatten ++ putBackSteps)).map
        fun s => ((s.freelist.length, s.msgsInUse), s.pcs .listener)) = some ((2, 31), .uncountLoad) := by decide +kernel
  obtain ⟨s, reach, seen⟩ := exists_reach_of_exec run
  have timely : counterRun counterTimely s := reach.refine fun _ _ => timely_of_below
  obtain ⟨counts, at_⟩ := Prod.mk.inj seen
  obtain ⟨free, counter⟩ := Prod.mk.inj counts
  obtain ⟨running, _, _, _, positive⟩ := slot_counter_bounds timely
  exact ⟨s, timely, running, free, counter, at_, positive .listener at_⟩

/-- With all slots in use the listener puts one back, and a client takes it before the listener counts that: it loads 32 from
the counter, and its assertion fails. -/
theorem slot_counter_full :
    ∃ s, counterRun (fun _ _ => True) s ∧ s.pcs (.client 0) = .countLoad 31 ∧ s.msgsInUse = maxQueueMessages ∧
      (slotStep freelistAccess s (.access (.client 0))).map (·.failed) = some true := by
  have run : ((exec (slotStep freelistAccess) (fun _ _ => decide True) (SlotPool.init (List.range maxQueueMessages).reverse)
      ((List.replicate 32 (slotSteps 0)).flatten ++ putBackSteps ++ [.getFreeMsg 0, .access (.client 0)])).map
        fun s => ((s.pcs (.client 0), s.msgsInUse), (slotStep freelistAccess s (.access (.client 0))).map (·.failed))) =
      some ((SlotPc.countLoad 31, (maxQueueMessages : Int)), some true) := by decide +kernel
  obtain ⟨s, reach, seen⟩ := exists_reach_of_exec run
  obtain ⟨counts, failing⟩ := Prod.mk.inj seen
  obtain ⟨at_, counter⟩ := Prod.mk.inj counts
  exact ⟨s, reach, at_, counter, failing⟩

end Kinetic
