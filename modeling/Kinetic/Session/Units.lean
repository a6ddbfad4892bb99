import Kinetic.Bus.Callbacks
import Kinetic.Lib.Units
import Kinetic.Session.Lock

namespace Kinetic
open Function (update)
open Ownership

/-- Where an operation can be: with the thread that sends it, in an accepted box, or with the task that completes it. -/
inductive OpPlace
  | thread (c : Nat)
  | box (b : Nat)
  | task (k : Nat)
  deriving DecidableEq

instance (s : BusState) (b : Nat) : Decidable (s.callbackRan b) :=
  inferInstanceAs (Decidable (∃ k ∈ s.ran, s.heap.scheduled[k]? = some b))

/-- The operation of a thread, and whether it has taken its unit. A thread whose request has been accepted has none, and
neither has one that has given the unit back. -/
def OpPc.operation (results : Nat → Option Bool) : OpPc → Option (Nat × Bool)
  | .outside => none
  | .lock op => some (op.serial, false)
  | .draw op => some (op.serial, false)
  | .bind op _ => some (op.serial, false)
  | .packCommand op => some (op.serial, false)
  | .authenticate op _ => some (op.serial, false)
  | .packMessage op _ => some (op.serial, false)
  | .take op _ pc => some (op.serial, pc.hasUnit)
  | .box op _ => some (op.serial, true)
  | .check op _ _ _ => some (op.serial, true)
  | .update op _ _ _ => some (op.serial, true)
  | .send op b => if results b = some true then none else some (op.serial, true)
  | .give op pc => if pc.hasUnit then some (op.serial, true) else none
  | .unlock => none

/-- The operations in their places, each with whether it has taken its unit. An accepted request keeps its unit until its
callback gives it back. -/
def Session.opAt (s : Session) : OpPlace → Option (Nat × Bool)
  | .thread c => (s.threads c).operation s.bus.results
  | .box b =>
    if s.bus.results b = some true ∧ ¬ s.bus.callbackRan b then (s.udata b).map fun op => (op.serial, true) else none
  | .task k =>
    match s.tasks k with
    | some (op, pc) => if pc.hasUnit then some (op.serial, true) else none
    | none => none

/-- The operation has taken a unit, and has neither been rejected nor completed: its unit has not been given back. -/
def Session.outstanding (s : Session) (x : Nat) : Prop := ∃ p, s.opAt p = some (x, true)

/-- The box of a request that has not been rejected, and whose callback has not been run. -/
def Session.inFlight (s : Session) (b : Nat) : Prop :=
  (s.udata b).isSome ∧ s.bus.results b ≠ some false ∧ ¬ s.bus.callbackRan b

/-- Where a thread stands in the semaphore. -/
def OpPc.sem : OpPc → SemPc
  | .take _ _ pc => pc
  | .give _ pc => pc
  | _ => .done

def Session.semPc (s : Session) : Agent → SemPc
  | .thread c => (s.threads c).sem
  | .task k =>
    match s.tasks k with
    | some (_, pc) => pc
    | none => .done

/-- Inside `KineticCountingSemaphore_Take`. -/
def SemPc.taking : SemPc → Bool
  | .takeLock => true
  | .takeTest => true
  | .takeWait => true
  | .takeCount => true
  | .takeUnlock => true
  | _ => false

/-- Inside `KineticCountingSemaphore_Give`. -/
def SemPc.giving : SemPc → Bool
  | .giveLock => true
  | .giveCount => true
  | .giveUnlock _ => true
  | .giveAssert _ => true
  | _ => false

def OpPc.inSemaphore : OpPc → Prop
  | .take _ _ pc => pc.taking = true
  | .give _ pc => pc.giving = true
  | _ => True

/-- The operations that have taken a unit are on the books, and with them the count makes up the maximum. -/
structure UnitsInv (s : Session) (books : Finset Nat) : Prop where
  booked : Booked s.opAt (· < s.nextOp) books
  sem : SemInv s.outstandingOperations s.semPc
  total : s.outstandingOperations.count + books.card = s.outstandingOperations.max
  most : s.outstandingOperations.max = kineticMaxOutstandingOperationsPerSession
  threads : ∀ c, (s.threads c).inSemaphore
  tasks : ∀ k op pc, s.tasks k = some (op, pc) → k ∈ s.bus.ran ∧ (pc.giving = true ∨ pc = .done)

section Semaphore
variable {α : Type} {sem sem' : CountingSemaphore α} {a : α} {pc pc' : SemPc}

/-- `KineticCountingSemaphore_Take` goes on, or returns after its unlock. -/
theorem semStep_taking (run : semStep sem a pc = some (sem', pc')) (taking : pc.taking = true) :
    pc'.taking = true ∨ pc = .takeUnlock ∧ pc' = .done := by
  cases semStep_cases run with
  | unlocks => exact .inr ⟨rfl, rfl⟩
  | relocks => cases taking
  | gives => cases taking
  | leaves => cases taking
  | asserts => cases taking
  | _ => exact .inl rfl

/-- `KineticCountingSemaphore_Give` goes on, or returns after its assertion. -/
theorem semStep_giving (run : semStep sem a pc = some (sem', pc')) (giving : pc.giving = true) :
    pc'.giving = true ∨ pc' = .done := by
  cases semStep_cases run with
  | relocks => exact .inl rfl
  | gives => exact .inl rfl
  | leaves => exact .inl rfl
  | asserts => exact .inr rfl
  | _ => cases giving

end Semaphore

section Places
variable {s t : Session} {c : Nat} {pc : OpPc}

/-- A thread that moves on changes nothing in the other places. -/
theorem Session.opAt_others (bus : t.bus = s.bus) (udata : t.udata = s.udata) (tasks : t.tasks = s.tasks)
    (threads : t.threads = update s.threads c pc) (r : OpPlace) (other : r ≠ .thread c) : t.opAt r = s.opAt r := by
  cases r with
  | thread c' =>
    have distinct : c' ≠ c := by
      rintro rfl
      exact other rfl
    simp only [Session.opAt, bus, threads, Function.update_of_ne distinct]
  | box b => simp only [Session.opAt, bus, udata]
  | task k => simp only [Session.opAt, tasks]

theorem Session.opAt_thread (bus : t.bus = s.bus) (threads : t.threads = update s.threads c pc) :
    t.opAt (.thread c) = pc.operation s.bus.results := by
  simp only [Session.opAt, bus, threads, Function.update_self]

theorem Session.semPc_thread (tasks : t.tasks = s.tasks) (threads : t.threads = update s.threads c pc) :
    t.semPc = update s.semPc (.thread c) pc.sem := by
  funext a
  cases a with
  | thread c' =>
    by_cases here : c' = c
    · subst here
      simp only [Session.semPc, threads, Function.update_self]
    · have distinct : Agent.thread c' ≠ .thread c := by simpa using here
      simp only [Session.semPc, threads, Function.update_of_ne here, Function.update_of_ne distinct]
  | task k =>
    have distinct : Agent.task k ≠ .thread c := Agent.noConfusion
    rw [Function.update_of_ne distinct]
    simp only [Session.semPc, tasks]

theorem Session.semPc_task {k : Nat} {op : Operation} {pc : SemPc} (threads : t.threads = s.threads)
    (tasks : t.tasks = update s.tasks k (some (op, pc))) : t.semPc = update s.semPc (.task k) pc := by
  funext a
  cases a with
  | thread c' =>
    have distinct : Agent.thread c' ≠ .task k := Agent.noConfusion
    rw [Function.update_of_ne distinct]
    simp only [Session.semPc, threads]
  | task k' =>
    by_cases here : k' = k
    · subst here
      simp only [Session.semPc, tasks, Function.update_self]
    · have distinct : Agent.task k' ≠ .task k := by simpa using here
      simp only [Session.semPc, tasks, Function.update_of_ne here, Function.update_of_ne distinct]

end Places

section Invariant
variable {pk : Packer} {n ci : Nat} {s t : Session} {books : Finset Nat} {c : Nat}

/-- A thread goes on outside of the semaphore. -/
theorem UnitsInv.goes (inv : UnitsInv s books) (pc : OpPc) (ran : t.bus.ran = s.bus.ran) (tasks : t.tasks = s.tasks)
    (operations : t.outstandingOperations = s.outstandingOperations) (threads : t.threads = update s.threads c pc)
    (next : pc.sem = .takeLock ∨ pc.sem = .giveLock ∨ pc.sem = .done) (proper : pc.inSemaphore)
    (booked : Booked t.opAt (· < t.nextOp) books) : UnitsInv t books := by
  refine ⟨booked, ?_, ?_, ?_, fun c' => ?_, ?_⟩
  · rw [operations, Session.semPc_thread tasks threads]
    exact inv.sem.enter next
  · rw [operations]
    exact inv.total
  · rw [operations]
    exact inv.most
  · rw [threads, Function.update_apply]
    split
    · exact proper
    · exact inv.threads c'
  · rw [tasks, ran]
    exact inv.tasks

/-- What a thread that goes on has: the same operation as before, or no longer one that had no unit. -/
def OpPc.keepsUnit (results : Nat → Option Bool) (pc pc' : OpPc) : Prop :=
  pc'.operation results = pc.operation results ∨ pc'.operation results = none ∧ ∃ x, pc.operation results = some (x, false)

theorem UnitsInv.moves (inv : UnitsInv s books) (pc : OpPc) (bus : t.bus = s.bus) (udata : t.udata = s.udata)
    (tasks : t.tasks = s.tasks) (operations : t.outstandingOperations = s.outstandingOperations) (nextOp : t.nextOp = s.nextOp)
    (threads : t.threads = update s.threads c pc) (next : pc.sem = .takeLock ∨ pc.sem = .giveLock ∨ pc.sem = .done)
    (proper : pc.inSemaphore) (kept : (s.threads c).keepsUnit s.bus.results pc) : UnitsInv t books := by
  have others := Session.opAt_others bus udata tasks threads
  have here := Session.opAt_thread bus threads
  refine inv.goes pc (by rw [bus]) tasks operations threads next proper ?_
  rw [nextOp]
  rcases kept with same | ⟨gone, x, held⟩
  · refine inv.booked.keep fun r => ?_
    by_cases own : r = .thread c
    · rw [own, here, same]
      rfl
    · exact others r own
  · exact inv.booked.leave (p := .thread c) held (here.trans gone) others

theorem Walk.keepsUnit {pc pc' : OpPc} (walk : Walk pk s c pc pc') : pc.keepsUnit s.bus.results pc' := by
  cases walk with
  | accepted op b idle answered => exact .inl (by simp [OpPc.operation, answered])
  | rejected op b idle answered => exact .inl (by simp [OpPc.operation, answered, SemPc.hasUnit])
  | fails op => exact .inr ⟨rfl, op.serial, rfl⟩
  | noCommand op => exact .inr ⟨rfl, op.serial, rfl⟩
  | noAuthentication op => exact .inr ⟨rfl, op.serial, rfl⟩
  | noMessage op => exact .inr ⟨rfl, op.serial, rfl⟩
  | _ => exact .inl rfl

theorem Walk.sem {pc pc' : OpPc} (walk : Walk pk s c pc pc') :
    (pc'.sem = .takeLock ∨ pc'.sem = .giveLock ∨ pc'.sem = .done) ∧ pc'.inSemaphore := by
  cases walk with
  | composes => exact ⟨.inl rfl, rfl⟩
  | noBox => exact ⟨.inr (.inl rfl), rfl⟩
  | turnedAway => exact ⟨.inr (.inl rfl), rfl⟩
  | rejected => exact ⟨.inr (.inl rfl), rfl⟩
  | _ => exact ⟨.inr (.inr rfl), trivial⟩

/-- A step in the semaphore takes or gives the unit of one operation, and the count follows. -/
theorem UnitsInv.semaphore {a : Agent} {p : OpPlace} {x : Nat} {pc : SemPc} {sem : CountingSemaphore Agent}
    (inv : UnitsInv s books) (run : semStep s.outstandingOperations a (s.semPc a) = some (sem, pc))
    (operations : t.outstandingOperations = sem) (sems : t.semPc = update s.semPc a pc) (nextOp : t.nextOp = s.nextOp)
    (others : ∀ r, r ≠ p → t.opAt r = s.opAt r)
    (keeps : s.semPc a ≠ .takeCount → s.semPc a ≠ .giveCount → t.opAt p = s.opAt p)
    (takes : s.semPc a = .takeCount → s.opAt p = some (x, false) ∧ t.opAt p = some (x, true))
    (gives : s.semPc a = .giveCount → s.opAt p = some (x, true) ∧ t.opAt p = none)
    (threads : ∀ c, (t.threads c).inSemaphore)
    (tasks : ∀ k op pc, t.tasks k = some (op, pc) → k ∈ t.bus.ran ∧ (pc.giving = true ∨ pc = .done)) :
    ∃ books, UnitsInv t books := by
  have total := inv.total
  have width := inv.sem.width
  have most := semStep_max run
  have room (giving : s.semPc a = .giveCount) : s.outstandingOperations.count < s.outstandingOperations.max := by
    have member := (inv.booked.booked x).mpr ⟨p, (gives giving).1⟩
    have positive := Finset.card_pos.mpr ⟨x, member⟩
    omega
  have settled (books' : Finset Nat) (booked : Booked t.opAt (· < s.nextOp) books')
      (counted : sem.count + books'.card = s.outstandingOperations.max) : ∃ books, UnitsInv t books := by
    refine ⟨books', by rw [nextOp]; exact booked, ?_, ?_, ?_, threads, tasks⟩
    · rw [operations, sems]
      exact inv.sem.step run room
    · rw [operations, most]
      exact counted
    · rw [operations, most]
      exact inv.most
  have unchanged (same : t.opAt p = s.opAt p) : Booked t.opAt (· < s.nextOp) books := by
    refine inv.booked.keep fun r => ?_
    by_cases here : r = p
    · rw [here, same]
    · exact others r here
  cases semStep_move run with
  | keeps count _ notTake notGive => exact settled books (unchanged (keeps notTake notGive)) (by rw [count]; exact total)
  | returns atUnlock _ count =>
    exact settled books (unchanged (keeps (by simp [atUnlock]) (by simp [atUnlock]))) (by rw [count]; exact total)
  | takes taking _ count =>
    obtain ⟨waiting, taken⟩ := takes taking
    obtain ⟨absent, booked⟩ := inv.booked.take waiting taken others
    have positive := inv.sem.ready a taking
    refine settled (insert x books) booked ?_
    rw [count, Finset.card_insert_of_notMem absent]
    omega
  | gives giving _ count =>
    obtain ⟨held, left⟩ := gives giving
    obtain ⟨member, booked⟩ := inv.booked.give held left others
    have positive := Finset.card_pos.mpr ⟨x, member⟩
    have free := room giving
    refine settled (books.erase x) booked ?_
    rw [count, Finset.card_erase_of_mem member]
    omega

/-- A thread makes a step in `KineticCountingSemaphore_Take` or `KineticCountingSemaphore_Give`. -/
theorem UnitsInv.throttle {pc : SemPc} {next : OpPc} {sem : CountingSemaphore Agent} (inv : UnitsInv s books) (op : Operation)
    (run : semStep s.outstandingOperations (.thread c) (s.threads c).sem = some (sem, pc)) (sems : next.sem = pc)
    (proper : next.inSemaphore)
    (keeps : (s.threads c).sem ≠ .takeCount → (s.threads c).sem ≠ .giveCount →
      next.operation s.bus.results = (s.threads c).operation s.bus.results)
    (takes : (s.threads c).sem = .takeCount → (s.threads c).operation s.bus.results = some (op.serial, false) ∧
      next.operation s.bus.results = some (op.serial, true))
    (gives : (s.threads c).sem = .giveCount → (s.threads c).operation s.bus.results = some (op.serial, true) ∧
      next.operation s.bus.results = none) :
    ∃ books, UnitsInv { s.setThread c next with outstandingOperations := sem } books := by
  have here : ({ s.setThread c next with outstandingOperations := sem } : Session).opAt (.thread c) =
      next.operation s.bus.results := Session.opAt_thread rfl rfl
  refine inv.semaphore (a := .thread c) (p := .thread c) (x := op.serial) run rfl ?_ rfl
    (Session.opAt_others rfl rfl rfl rfl) ?_ ?_ ?_ (fun c' => ?_) inv.tasks
  · rw [← sems]
    exact Session.semPc_thread rfl rfl
  · intro notTake notGive
    rw [here]
    exact keeps notTake notGive
  · intro taking
    rw [here]
    exact takes taking
  · intro giving
    rw [here]
    exact gives giving
  · simp only [Session.setThread, Function.update_apply]
    split
    · exact proper
    · exact inv.threads c'

theorem UnitsInv.takes {op : Operation} {msg : List UInt8} {pc pc' : SemPc} {sem : CountingSemaphore Agent}
    (inv : UnitsInv s books) (taking : s.threads c = .take op msg pc)
    (run : semStep s.outstandingOperations (.thread c) pc = some (sem, pc')) :
    ∃ books, UnitsInv { s.setThread c (if pc' = .done then .box op msg else .take op msg pc') with
      outstandingOperations := sem } books := by
  have own : pc.taking = true := by
    have inside := inv.threads c
    rw [taking] at inside
    exact inside
  have after := semStep_taking run own
  refine inv.throttle op (by rw [taking]; exact run) ?_ ?_ ?_ ?_ ?_
  · split
    · rename_i ended
      exact ended.symm
    · rfl
  · split
    · trivial
    · rename_i inside
      rcases after with still | ⟨_, ended⟩
      · exact still
      · exact absurd ended inside
  · rw [taking]
    intro notTake notGive
    cases semStep_move run with
    | keeps _ same _ _ =>
      split
      · rename_i ended
        subst ended
        rcases after with still | ⟨unlocking, _⟩
        · cases still
        · rw [unlocking] at same
          cases same
      · simp only [OpPc.operation, same]
    | returns unlocking ended _ =>
      subst unlocking ended
      rfl
    | takes counting _ _ => exact absurd counting notTake
    | gives counting _ _ => exact absurd counting notGive
  · rw [taking]
    intro counting
    have counting : pc = .takeCount := counting
    subst counting
    cases run
    exact ⟨rfl, rfl⟩
  · rw [taking]
    intro counting
    have counting : pc = .giveCount := counting
    subst counting
    cases own

theorem UnitsInv.gives {op : Operation} {pc pc' : SemPc} {sem : CountingSemaphore Agent} (inv : UnitsInv s books)
    (giving : s.threads c = .give op pc) (run : semStep s.outstandingOperations (.thread c) pc = some (sem, pc')) :
    ∃ books, UnitsInv { s.setThread c (if pc' = .done then .unlock else .give op pc') with
      outstandingOperations := sem } books := by
  have own : pc.giving = true := by
    have inside := inv.threads c
    rw [giving] at inside
    exact inside
  refine inv.throttle op (by rw [giving]; exact run) ?_ ?_ ?_ ?_ ?_
  · split
    · rename_i ended
      exact ended.symm
    · rfl
  · split
    · trivial
    · rename_i inside
      rcases semStep_giving run own with still | ended
      · exact still
      · exact absurd ended inside
  · rw [giving]
    intro notTake notGive
    cases semStep_move run with
    | keeps _ same _ _ =>
      split
      · rename_i ended
        subst ended
        have without : pc.hasUnit = false := same.symm
        simp [OpPc.operation, without]
      · simp only [OpPc.operation, same]
    | returns unlocking _ _ =>
      subst unlocking
      cases own
    | takes counting _ _ => exact absurd counting notTake
    | gives counting _ _ => exact absurd counting notGive
  · rw [giving]
    intro counting
    have counting : pc = .takeCount := counting
    subst counting
    cases own
  · rw [giving]
    intro counting
    have counting : pc = .giveCount := counting
    subst counting
    cases run
    exact ⟨rfl, rfl⟩

/-- The end of `box_msg`: the thread still has the operation, as the box has not been accepted. -/
theorem UnitsInv.box {found : Nat} {op : Operation} {msg : List UInt8} {ssl : Bool} (inv : UnitsInv s books)
    (session : SessionInv n ci s) (updating : s.threads c = .update op msg found ssl) :
    UnitsInv { s.setThread c (.send op s.bus.nextBox) with
      bus := s.bus.boxed c found ssl ⟨s.socket, op.sequence, op.timeoutSeconds, msg⟩
      udata := update s.udata s.bus.nextBox (some op) } books := by
  have new : s.bus.results s.bus.nextBox = none := (bus_invariant session.bus).2.unanswered _ (Nat.le_refl _)
  refine inv.goes (.send op s.bus.nextBox) rfl rfl rfl rfl (.inr (.inr rfl)) trivial (inv.booked.keep fun r => ?_)
  cases r with
  | thread c' =>
    by_cases here : c' = c
    · subst here
      simp [Session.opAt, Session.setThread, OpPc.operation, BusState.boxed, BusState.setClient, BusState.setBox, new, updating]
    · simp only [Session.opAt, Session.setThread, Function.update_of_ne here]
      rfl
  | box b =>
    by_cases here : b = s.bus.nextBox
    · subst here
      simp [Session.opAt, BusState.boxed, BusState.setClient, BusState.setBox, new]
    · simp only [Session.opAt, Function.update_of_ne here]
      rfl
  | task k => rfl

theorem UnitsInv.thread (inv : UnitsInv s books) (session : SessionInv n ci s) (move : ThreadMove pk s t c) :
    ∃ books, UnitsInv t books := by
  cases move with
  | walks pc walk same =>
    subst same
    exact ⟨books, inv.moves pc rfl rfl rfl rfl rfl rfl walk.sem.1 walk.sem.2 walk.keepsUnit⟩
  | locks op locking free same =>
    subst same
    exact ⟨books, inv.moves (.draw op) rfl rfl rfl rfl rfl rfl (.inr (.inr rfl)) trivial (.inl (by rw [locking]; rfl))⟩
  | draws op drawing same =>
    subst same
    exact ⟨books, inv.moves (.bind op s.sequence) rfl rfl rfl rfl rfl rfl (.inr (.inr rfl)) trivial
      (.inl (by rw [drawing]; rfl))⟩
  | takes op msg pc pc' sem taking moved same =>
    subst same
    exact inv.takes taking moved
  | boxes op msg found ssl updating same =>
    subst same
    exact ⟨books, inv.box session updating⟩
  | gives op pc pc' sem giving moved same =>
    subst same
    exact inv.gives giving moved
  | unlocks unlocking same =>
    subst same
    exact ⟨books, inv.moves .outside rfl rfl rfl rfl rfl rfl (.inr (.inr rfl)) trivial (.inl (by rw [unlocking]; rfl))⟩

end Invariant

end Kinetic
