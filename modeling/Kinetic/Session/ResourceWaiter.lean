import Kinetic.Lib.Crowd
import Kinetic.Lib.Monitor
import Kinetic.Lib.Transition
import Mathlib.Algebra.Group.Nat.Defs

namespace Kinetic
open CondVar (Monitor Sound)
open Crowd (Counts)
open Transition (Reach exec exists_reach_of_exec)

/-- Where a thread stands in `KineticResourceWaiter_WaitTilAvailable`, with whether its `rc` is that of a timeout, or in
`KineticResourceWaiter_SetAvailable`. -/
inductive WaiterPc
  | outside
  | locking
  | counting
  | testing (timedOut : Bool)
  | sleeping (timedOut : Bool)
  | leaving (timedOut : Bool)
  | unlocking (timedOut : Bool)
  | returned (available : Bool)
  | setLocking
  | setting
  | choosing
  | signalling
  | setUnlocking
  deriving DecidableEq

/-- `KineticResourceWaiter` with the threads that use it. `announced` counts the calls of
`KineticResourceWaiter_SetAvailable` that are past their signal. -/
structure ResourceWaiter where
  monitor : Monitor Nat
  ready : Bool
  numWaiting : Nat
  pcs : Nat → WaiterPc
  announced : Nat

/-- `KineticResourceWaiter_Init` in memory from `calloc`. -/
def ResourceWaiter.init : ResourceWaiter :=
  { monitor := .free, ready := false, numWaiting := 0, pcs := fun _ => .outside, announced := 0 }

/-- A thread calls one of the two functions, goes on, with the thread that its signal wakes, or has its wait ended by the time
or for no reason. -/
inductive WaiterAction
  | waitTilAvailable
  | setAvailable
  | go (woken : Option Nat)
  | timeout
  | spurious

def ResourceWaiter.at (s : ResourceWaiter) (u : Nat) (pc : WaiterPc) : ResourceWaiter :=
  { s with pcs := Function.update s.pcs u pc }

/-- The next statement of a thread. -/
def ResourceWaiter.go (s : ResourceWaiter) (u : Nat) (woken : Option Nat) : Option ResourceWaiter :=
  match s.pcs u with
  | .outside => none
  | .locking => (s.monitor.lock u).map fun m => { s.at u .counting with monitor := m }
  | .counting => some { s.at u (.testing false) with numWaiting := (s.numWaiting + 1) % 2 ^ 32 }
  | .testing timedOut =>
    if s.ready = false ∧ timedOut = false then some { s.at u (.sleeping false) with monitor := s.monitor.wait u }
    else some (s.at u (.leaving timedOut))
  | .sleeping timedOut => (s.monitor.relock u).map fun m => { s.at u (.testing timedOut) with monitor := m }
  | .leaving timedOut => some { s.at u (.unlocking timedOut) with numWaiting := (s.numWaiting + (2 ^ 32 - 1)) % 2 ^ 32 }
  | .unlocking timedOut => some { s.at u (.returned !timedOut) with monitor := s.monitor.unlock }
  | .returned _ => some (s.at u .outside)
  | .setLocking => (s.monitor.lock u).map fun m => { s.at u .setting with monitor := m }
  | .setting => some { s.at u .choosing with ready := true }
  | .choosing =>
    if s.numWaiting > 0 then some (s.at u .signalling)
    else some { s.at u .setUnlocking with announced := s.announced + 1 }
  | .signalling =>
    (s.monitor.signal woken).map fun m => { s.at u .setUnlocking with monitor := m, announced := s.announced + 1 }
  | .setUnlocking => some { s.at u .outside with monitor := s.monitor.unlock }

def waiterStep (s : ResourceWaiter) : Nat × WaiterAction → Option ResourceWaiter
  | (u, .waitTilAvailable) => if s.pcs u = .outside then some (s.at u .locking) else none
  | (u, .setAvailable) => if s.pcs u = .outside then some (s.at u .setLocking) else none
  | (u, .go woken) => s.go u woken
  | (u, .timeout) => (s.monitor.wake u).map fun m => { s.at u (.sleeping true) with monitor := m }
  | (u, .spurious) => (s.monitor.wake u).map fun m => { s with monitor := m }

/-- No more than `most` threads are inside `KineticResourceWaiter_WaitTilAvailable` at a time. -/
def AtMost (most : Nat) (s : ResourceWaiter) (l : Nat × WaiterAction) : Prop :=
  s.pcs l.1 = .counting → s.numWaiting < most

instance AtMost.decidable (most : Nat) (s : ResourceWaiter) (l : Nat × WaiterAction) : Decidable (AtMost most s l) :=
  inferInstanceAs (Decidable (s.pcs l.1 = .counting → s.numWaiting < most))

section Waiting
variable {s t : ResourceWaiter} {most : Nat} {u : Nat}

def WaiterPc.place : WaiterPc → CondVar.Place
  | .counting | .testing _ | .leaving _ | .unlocking _ | .setting | .choosing | .signalling | .setUnlocking => .inside
  | .sleeping _ => .queue
  | _ => .outside

/-- The thread is counted in `num_waiting`. -/
def WaiterPc.waits : WaiterPc → Bool
  | .testing _ | .sleeping _ | .leaving _ => true
  | _ => false

/-- What a thread knows by where it stands. -/
def WaiterPc.Knows (ready : Bool) : WaiterPc → Prop
  | .leaving timedOut | .unlocking timedOut => timedOut = false → ready = true
  | .returned available => available = true → ready = true
  | .choosing | .signalling | .setUnlocking => ready = true
  | _ => True

structure WaiterInv (most : Nat) (s : ResourceWaiter) : Prop where
  monitor : Sound WaiterPc.place s.pcs s.monitor
  counts : Counts WaiterPc.waits s.pcs s.numWaiting
  bounded : s.numWaiting ≤ most
  knows : ∀ u, (s.pcs u).Knows s.ready
  unannounced : s.ready = false → s.announced = 0
  asleep : s.monitor.asleep = [] ∨ s.monitor.asleep.length + s.announced ≤ most

theorem WaiterPc.Knows.later {pc : WaiterPc} {ready : Bool} (knows : pc.Knows ready) : pc.Knows true := by
  cases pc <;> simp [WaiterPc.Knows]

theorem WaiterInv.init : WaiterInv most .init where
  monitor := Sound.free fun _ => rfl
  counts := Counts.zero fun _ => rfl
  bounded := Nat.zero_le _
  knows _ := trivial
  unannounced _ := rfl
  asleep := .inl rfl

/-- What has to be shown of a step that takes a thread to `pc`. -/
theorem WaiterInv.move (inv : WaiterInv most s) {pc : WaiterPc} {m : Monitor Nat} {ready : Bool} {n announced : Nat}
    (monitor : Sound WaiterPc.place (Function.update s.pcs u pc) m) (counts : Counts WaiterPc.waits (Function.update s.pcs u pc) n)
    (bounded : n ≤ most) (kept : ready = s.ready ∨ ready = true) (knows : pc.Knows ready)
    (unannounced : ready = false → announced = 0) (asleep : m.asleep = [] ∨ m.asleep.length + announced ≤ most) :
    WaiterInv most { monitor := m, ready := ready, numWaiting := n, pcs := Function.update s.pcs u pc, announced := announced } where
  monitor := monitor
  counts := counts
  bounded := bounded
  knows v := by
    by_cases own : v = u
    · rw [own]
      simpa using knows
    · simp only [Function.update_of_ne own]
      rcases kept with rfl | rfl
      · exact inv.knows v
      · exact (inv.knows v).later
  unannounced := unannounced
  asleep := asleep

/-- A step of a thread that neither enters nor leaves the mutex or the count. -/
theorem WaiterInv.stay (inv : WaiterInv most s) {pc : WaiterPc} (place : pc.place = (s.pcs u).place)
    (waits : pc.waits = (s.pcs u).waits) (knows : pc.Knows s.ready) : WaiterInv most (s.at u pc) :=
  inv.move (inv.monitor.stay place) (inv.counts.stay waits) inv.bounded (.inl rfl) knows inv.unannounced inv.asleep

/-- Nobody sleeps whom the count does not have. -/
theorem asleep_le {m : Monitor Nat} {pcs : Nat → WaiterPc} {n : Nat} (sound : Sound WaiterPc.place pcs m)
    (counts : Counts WaiterPc.waits pcs n) : m.asleep.length ≤ n := by
  refine counts.length_le (List.nodup_append.mp sound.once).1 fun v asleep => ?_
  have queued := sound.queue_of_asleep asleep
  cases at_ : pcs v with
  | sleeping => rfl
  | _ => rw [at_] at queued; cases queued

theorem WaiterInv.go_step (small : most < 2 ^ 32) (inv : WaiterInv most s) {woken : Option Nat}
    (room : AtMost most s (u, .go woken)) (taken : s.go u woken = some t) : WaiterInv most t := by
  have knows := inv.knows u
  have bounded := inv.bounded
  unfold ResourceWaiter.go at taken
  cases here : s.pcs u with
  | outside => simp only [here] at taken; cases taken
  | locking | setLocking =>
    simp only [here] at taken
    obtain ⟨m, locked, rfl⟩ := Option.map_eq_some_iff.mp taken
    refine inv.move (inv.monitor.lock locked (by rw [here]; rfl) rfl) (inv.counts.stay (by rw [here]; rfl)) bounded (.inl rfl)
      trivial inv.unannounced ?_
    rw [(CondVar.lock_eq_some locked).2]
    exact inv.asleep
  | counting =>
    have below : s.numWaiting < most := room here
    have whole : (s.numWaiting + 1) % 2 ^ 32 = s.numWaiting + 1 := Nat.mod_eq_of_lt (by omega)
    simp only [here, whole] at taken
    cases taken
    exact inv.move (inv.monitor.stay (by rw [here]; rfl)) (inv.counts.enter (by rw [here]; rfl) rfl) below (.inl rfl) trivial
      inv.unannounced inv.asleep
  | testing timedOut =>
    simp only [here] at taken
    split at taken
    · rename_i unready
      cases taken
      have monitor : Sound WaiterPc.place (Function.update s.pcs u (.sleeping false)) (s.monitor.wait u) :=
        inv.monitor.wait (by rw [here]; rfl) rfl
      have counts : Counts WaiterPc.waits (Function.update s.pcs u (.sleeping false)) s.numWaiting :=
        inv.counts.stay (by rw [here]; rfl)
      refine inv.move monitor counts bounded (.inl rfl) trivial inv.unannounced (.inr ?_)
      have sleepers := asleep_le monitor counts
      have first := inv.unannounced unready.1
      simp only [ResourceWaiter.at]
      omega
    · rename_i stop
      cases taken
      exact inv.stay (by rw [here]; rfl) (by rw [here]; rfl) fun timely => by simpa [timely] using stop
  | sleeping timedOut =>
    simp only [here] at taken
    obtain ⟨m, relocked, rfl⟩ := Option.map_eq_some_iff.mp taken
    refine inv.move (inv.monitor.relock relocked rfl) (inv.counts.stay (by rw [here]; rfl)) bounded (.inl rfl) trivial
      inv.unannounced ?_
    rw [(CondVar.relock_eq_some relocked).2.2]
    exact inv.asleep
  | leaving timedOut =>
    have counted := inv.counts.pos (u := u) (by rw [here]; rfl)
    have fewer : (s.numWaiting + (2 ^ 32 - 1)) % 2 ^ 32 = s.numWaiting - 1 := by omega
    simp only [here, fewer] at taken
    cases taken
    rw [here] at knows
    exact inv.move (inv.monitor.stay (by rw [here]; rfl)) (inv.counts.leave (by rw [here]; rfl) rfl) (by omega) (.inl rfl) knows
      inv.unannounced inv.asleep
  | unlocking timedOut =>
    simp only [here] at taken
    cases taken
    rw [here] at knows
    exact inv.move (inv.monitor.unlock (by rw [here]; rfl) rfl) (inv.counts.stay (by rw [here]; rfl)) bounded (.inl rfl)
      (fun available => knows (by simpa using available)) inv.unannounced inv.asleep
  | returned available =>
    simp only [here] at taken
    cases taken
    exact inv.stay (by rw [here]; rfl) (by rw [here]; rfl) trivial
  | setting =>
    simp only [here] at taken
    cases taken
    exact inv.move (inv.monitor.stay (by rw [here]; rfl)) (inv.counts.stay (by rw [here]; rfl)) bounded (.inr rfl) rfl
      (by rintro ⟨⟩) inv.asleep
  | choosing =>
    rw [here] at knows
    simp only [here] at taken
    split at taken
    · cases taken
      exact inv.stay (by rw [here]; rfl) (by rw [here]; rfl) knows
    · cases taken
      have sleepers := asleep_le inv.monitor inv.counts
      refine inv.move (inv.monitor.stay (by rw [here]; rfl)) (inv.counts.stay (by rw [here]; rfl)) bounded (.inl rfl) knows
        (fun unready => absurd (knows.symm.trans unready) (by simp)) (.inl ?_)
      have nobody : s.monitor.asleep.length = 0 := by omega
      exact List.length_eq_zero_iff.mp nobody
  | signalling =>
    rw [here] at knows
    simp only [here] at taken
    obtain ⟨m, signalled, rfl⟩ := Option.map_eq_some_iff.mp taken
    refine inv.move ((inv.monitor.signal signalled).stay (by rw [here]; rfl)) (inv.counts.stay (by rw [here]; rfl)) bounded
      (.inl rfl) knows (fun unready => absurd (knows.symm.trans unready) (by simp)) ?_
    rcases CondVar.signal_cases signalled with ⟨v, woke⟩ | ⟨nobody, rfl⟩
    · obtain ⟨asleep, rfl⟩ := CondVar.wake_eq_some woke
      have length := List.length_erase_of_mem asleep
      have some := List.length_pos_of_mem asleep
      rcases inv.asleep with nobody | bound
      · rw [nobody] at asleep
        cases asleep
      · right
        dsimp only
        omega
    · exact .inl nobody
  | setUnlocking =>
    simp only [here] at taken
    cases taken
    exact inv.move (inv.monitor.unlock (by rw [here]; rfl) rfl) (inv.counts.stay (by rw [here]; rfl)) bounded (.inl rfl) trivial
      inv.unannounced inv.asleep

/-- A wait that ends leaves fewer asleep. -/
theorem WaiterInv.wake (inv : WaiterInv most s) {m : Monitor Nat} (woke : s.monitor.wake u = some m) :
    m.asleep = [] ∨ m.asleep.length + s.announced ≤ most := by
  obtain ⟨asleep, rfl⟩ := CondVar.wake_eq_some woke
  have length := List.length_erase_of_mem asleep
  rcases inv.asleep with nobody | bound
  · rw [nobody] at asleep
    cases asleep
  · right
    dsimp only
    omega

theorem WaiterInv.step (small : most < 2 ^ 32) (inv : WaiterInv most s) {l : Nat × WaiterAction} (room : AtMost most s l)
    (taken : waiterStep s l = some t) : WaiterInv most t := by
  obtain ⟨u, action⟩ := l
  cases action with
  | waitTilAvailable | setAvailable =>
    simp only [waiterStep] at taken
    split at taken
    · rename_i here
      cases taken
      exact inv.stay (by rw [here]; rfl) (by rw [here]; rfl) trivial
    · cases taken
  | go woken => exact inv.go_step small room taken
  | timeout =>
    obtain ⟨m, woke, rfl⟩ := Option.map_eq_some_iff.mp taken
    have queued := inv.monitor.queue_of_asleep (CondVar.wake_eq_some woke).1
    cases here : s.pcs u with
    | sleeping timedOut =>
      exact inv.move ((inv.monitor.wake woke).stay (by rw [here]; rfl)) (inv.counts.stay (by rw [here]; rfl)) inv.bounded (.inl rfl)
        trivial inv.unannounced (inv.wake woke)
    | _ => rw [here] at queued; cases queued
  | spurious =>
    obtain ⟨m, woke, rfl⟩ := Option.map_eq_some_iff.mp taken
    exact ⟨inv.monitor.wake woke, inv.counts, inv.bounded, inv.knows, inv.unannounced, inv.wake woke⟩

/-- A thread that can go on with its call, given the wake-up that it picks. -/
def ResourceWaiter.CanGo (s : ResourceWaiter) (u : Nat) : Prop := ∃ woken, (s.go u woken).isSome = true

/-- The thread that has the mutex is never stuck. -/
theorem ResourceWaiter.canGo_of_inside (inside : (s.pcs u).place = .inside) : s.CanGo u := by
  unfold ResourceWaiter.CanGo ResourceWaiter.go
  cases here : s.pcs u with
  | outside | locking | sleeping | returned | setLocking => rw [here] at inside; cases inside
  | counting | leaving | unlocking | setting | setUnlocking => exact ⟨none, rfl⟩
  | testing timedOut => exact ⟨none, by dsimp only; split <;> rfl⟩
  | choosing => exact ⟨none, by dsimp only; split <;> rfl⟩
  | signalling =>
    cases asleep : s.monitor.asleep with
    | nil => exact ⟨none, by simp [Monitor.signal, asleep]⟩
    | cons first rest => exact ⟨some first, by simp [Monitor.signal, Monitor.wake, asleep]⟩

/-- A thread in one of the calls goes on, or sleeps, or another has the mutex and goes on. -/
theorem WaiterInv.canGo (inv : WaiterInv most s) (calls : s.pcs u ≠ .outside) (awake : u ∉ s.monitor.asleep) : ∃ v, s.CanGo v := by
  cases held : s.monitor.owner with
  | some v => exact ⟨v, ResourceWaiter.canGo_of_inside ((inv.monitor.owner v).mpr held)⟩
  | none =>
    refine ⟨u, ?_⟩
    cases here : s.pcs u with
    | outside => exact absurd here calls
    | locking | setLocking => exact ⟨none, by simp [ResourceWaiter.go, here, Monitor.lock, held]⟩
    | sleeping timedOut =>
      have woken := (inv.monitor.asleep_or_woken (a := u) (by rw [here]; rfl)).resolve_left awake
      exact ⟨none, by simp [ResourceWaiter.go, here, Monitor.relock, Monitor.lock, woken, held]⟩
    | returned available => exact ⟨none, by simp [ResourceWaiter.go, here]⟩
    | counting | testing | leaving | unlocking | setting | choosing | signalling | setUnlocking =>
      exact ResourceWaiter.canGo_of_inside (by rw [here]; rfl)

/-- A call that has found the resource available from its start on. -/
def WaiterPc.Served : WaiterPc → Prop
  | .testing timedOut | .leaving timedOut | .unlocking timedOut => timedOut = false
  | .sleeping _ => False
  | .returned available => available = true
  | _ => True

theorem served_go (ready : s.ready = true) {v : Nat} (served : (s.pcs v).Served) {woken : Option Nat}
    (taken : s.go u woken = some t) : t.ready = true ∧ (t.pcs v).Served := by
  unfold ResourceWaiter.go at taken
  have others (pc : WaiterPc) (own : u = v → pc.Served) : (Function.update s.pcs u pc v).Served := by
    by_cases same : v = u
    · rw [same, Function.update_self]
      exact own same.symm
    · rw [Function.update_of_ne same]
      exact served
  have mine (own : u = v) : (s.pcs u).Served := own ▸ served
  cases here : s.pcs u with
  | outside => simp only [here] at taken; cases taken
  | locking | setLocking | signalling =>
    simp only [here] at taken
    obtain ⟨m, _, rfl⟩ := Option.map_eq_some_iff.mp taken
    exact ⟨ready, others _ fun _ => trivial⟩
  | sleeping timedOut =>
    rw [here] at mine
    simp only [here] at taken
    obtain ⟨m, _, rfl⟩ := Option.map_eq_some_iff.mp taken
    exact ⟨ready, others _ fun own => (mine own).elim⟩
  | counting =>
    simp only [here] at taken
    cases taken
    exact ⟨ready, others _ fun _ => rfl⟩
  | testing timedOut =>
    rw [here] at mine
    simp only [here, ready] at taken
    cases taken
    exact ⟨ready, others _ mine⟩
  | leaving timedOut =>
    rw [here] at mine
    simp only [here] at taken
    cases taken
    exact ⟨ready, others _ mine⟩
  | unlocking timedOut =>
    rw [here] at mine
    simp only [here] at taken
    cases taken
    exact ⟨ready, others _ fun own => by simp [WaiterPc.Served, show timedOut = false from mine own]⟩
  | setting =>
    simp only [here] at taken
    cases taken
    exact ⟨rfl, others _ fun _ => trivial⟩
  | returned | setUnlocking =>
    simp only [here] at taken
    cases taken
    exact ⟨ready, others _ fun _ => trivial⟩
  | choosing =>
    simp only [here] at taken
    split at taken <;> cases taken <;> exact ⟨ready, others _ fun _ => trivial⟩

theorem served_step (inv : WaiterInv most s) (ready : s.ready = true) {v : Nat} (served : (s.pcs v).Served)
    {l : Nat × WaiterAction} (taken : waiterStep s l = some t) : t.ready = true ∧ (t.pcs v).Served := by
  obtain ⟨u, action⟩ := l
  cases action with
  | waitTilAvailable | setAvailable =>
    simp only [waiterStep] at taken
    split at taken
    · cases taken
      refine ⟨ready, ?_⟩
      by_cases same : v = u
      · simp [ResourceWaiter.at, same, WaiterPc.Served]
      · simpa [ResourceWaiter.at, same] using served
    · cases taken
  | go woken => exact served_go ready served taken
  | timeout =>
    obtain ⟨m, woke, rfl⟩ := Option.map_eq_some_iff.mp taken
    have queued := inv.monitor.queue_of_asleep (CondVar.wake_eq_some woke).1
    refine ⟨ready, ?_⟩
    by_cases same : v = u
    · rw [← same] at queued
      cases at_ : s.pcs v with
      | sleeping => rw [at_] at served; exact served.elim
      | _ => rw [at_] at queued; cases queued
    · simpa [ResourceWaiter.at, same] using served
  | spurious =>
    obtain ⟨m, _, rfl⟩ := Option.map_eq_some_iff.mp taken
    exact ⟨ready, served⟩

/-- What a user of a waiter can rely on. The count is that of the threads inside; a call that returns `true` has found the
resource available; after `k` calls of `KineticResourceWaiter_SetAvailable`, of which each wakes one thread, at most
`most - k` threads sleep, or none; and while anybody is in a call and does not sleep, the calls go on. -/
structure WaiterFacts (most : Nat) (s : ResourceWaiter) : Prop where
  counts : Counts WaiterPc.waits s.pcs s.numWaiting
  available : ∀ u, s.pcs u = .returned true → s.ready = true
  sleepers : s.monitor.asleep = [] ∨ s.monitor.asleep.length + s.announced ≤ most
  going : ∀ u, s.pcs u ≠ .outside → u ∉ s.monitor.asleep → ∃ v, s.CanGo v

theorem WaiterInv.reach (small : most < 2 ^ 32) (inv : WaiterInv most s) (reach : Reach waiterStep s (AtMost most) t) :
    WaiterInv most t :=
  reach.invariant inv fun _ _ _ inv room taken => inv.step small room taken

/-- In all runs with at most `most` threads inside, and once the resource is available, a call that begins then neither sleeps
nor fails, however the run goes on. -/
theorem resourceWaiter_served (small : most < 2 ^ 32) (reach : Reach waiterStep .init (AtMost most) s) :
    WaiterFacts most s ∧ (s.ready = true → ∀ u, s.pcs u = .outside → ∀ t, Reach waiterStep s (AtMost most) t →
      (∀ timedOut, t.pcs u ≠ .sleeping timedOut) ∧ t.pcs u ≠ .returned false) := by
  have inv := WaiterInv.init.reach small reach
  refine ⟨⟨inv.counts, fun u returned => ?_, inv.asleep, fun u calls awake => inv.canGo calls awake⟩,
    fun ready u outside t later => ?_⟩
  · have knows := inv.knows u
    rw [returned] at knows
    exact knows rfl
  · have start : WaiterInv most s ∧ s.ready = true ∧ (s.pcs u).Served := ⟨inv, ready, by rw [outside]; trivial⟩
    have keep (s t : ResourceWaiter) (l : Nat × WaiterAction) (known : WaiterInv most s ∧ s.ready = true ∧ (s.pcs u).Served)
        (room : AtMost most s l) (taken : waiterStep s l = some t) : WaiterInv most t ∧ t.ready = true ∧ (t.pcs u).Served :=
      ⟨known.1.step small room taken, served_step known.1 known.2.1 known.2.2 taken⟩
    obtain ⟨_, _, served⟩ := later.invariant start fun s l t => keep s t l
    refine ⟨fun timedOut sleeping => ?_, fun failed => ?_⟩
    · rw [sleeping] at served
      exact served
    · rw [failed] at served
      cases served

/-- Two threads wait, and one call wakes one of them. The other sleeps on. -/
def twoWaiters : List (Nat × WaiterAction) :=
  [(0, .waitTilAvailable), (0, .go none), (0, .go none), (0, .go none), (1, .waitTilAvailable), (1, .go none), (1, .go none),
    (1, .go none), (2, .setAvailable), (2, .go none), (2, .go none), (2, .go none), (2, .go (some 0)), (2, .go none)]

theorem resourceWaiter_served_two :
    ∃ s, (s.monitor.asleep, s.announced, s.ready) = ([1], 1, true) ∧ WaiterFacts 2 s := by
  have trace : (exec waiterStep (fun s l => decide (AtMost 2 s l)) .init twoWaiters).map
      (fun s => (s.monitor.asleep, s.announced, s.ready)) = some ([1], 1, true) := by decide
  obtain ⟨s, reach, last⟩ := exists_reach_of_exec trace
  exact ⟨s, last, (resourceWaiter_served (by decide) reach).1⟩

end Waiting

end Kinetic
