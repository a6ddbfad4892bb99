import Kinetic.Bus.Owners

namespace Kinetic
open Function (update)
open Ownership
open Transition (Reach exec exists_reach_of_exec)

/-- A step of the bus loses no box, if it does not read an `EXPECT` without its `HOLD`. -/
theorem busStep_change {s t : BusState} {label : BusLabel} (inv : OwnerInv s) (slots : SlotInv s)
    (found : s.holdFound label = true) (taken : busStep s label = some t) :
    Change s.holding s.live t.holding t.live := by
  cases label with
  | client c a => exact (clientStep_move taken).change inv slots
  | listener l a =>
    obtain ⟨⟨listener, heap, conns⟩, moved, run⟩ := Option.bind_eq_some_iff.mp taken
    cases run
    exact (listenerStep_move moved).change slots found
  | run k =>
    obtain ⟨_, _, rfl⟩ := busStep_run taken
    refine .keep (fun r => ?_) (live_same rfl rfl)
    cases r <;> rfl

theorem busStep_drop {s t : BusState} {label : BusLabel} (slots : SlotInv s) (missing : s.holdFound label = false)
    (taken : busStep s label = some t) : ∃ p b, Drop s.holding s.live t.holding t.live p b := by
  cases label with
  | client c a => cases missing
  | listener l a =>
    obtain ⟨⟨listener, heap, conns⟩, moved, run⟩ := Option.bind_eq_some_iff.mp taken
    cases run
    exact (listenerStep_move moved).drop slots missing
  | run k => cases missing

/-- Only the request of a client that has its box gets an answer. -/
inductive Answers (s t : BusState) : Prop
  | none : t.results = s.results → s.nextBox ≤ t.nextBox → Answers s t
  | one (c b : Nat) (res : Bool) : (s.clients c).box = some b → t.results = update s.results b (some res) →
      s.nextBox ≤ t.nextBox → Answers s t

theorem Continues.answers {s base t : BusState} {c : Nat} {box : Option Nat} (continues : Continues base t c box)
    (results : base.results = s.results) (nextBox : base.nextBox = s.nextBox) (client : (s.clients c).box = box) :
    Answers s t := by
  have later : s.nextBox ≤ t.nextBox := Nat.le_of_eq (by rw [continues.nextBox, nextBox])
  obtain ⟨pc, _, _, outcome⟩ := continues.client
  rcases outcome with ⟨_, same⟩ | ⟨_, b, had, answered⟩
  · exact .none (same.trans results) later
  · exact .one c b false (client.trans had) (answered.trans (by rw [results])) later

theorem busStep_answers {s t : BusState} {label : BusLabel} (taken : busStep s label = some t) : Answers s t := by
  cases label with
  | client c a =>
    cases clientStep_move taken with
    | requests msg idle clients listeners scheduled nextBox results => exact .none results (by omega)
    | goesOn a _ alone continues => exact continues.answers rfl rfl rfl
    | delivers b alone box clients listeners scheduled nextBox results => exact .one c b true box results (by omega)
    | takes p l slot next acquiring _ free empty same =>
      subst same
      exact .none rfl (Nat.le_refl _)
    | commits p l slot serial writing same =>
      subst same
      cases p with
      | expect b tries => exact .one c b true (by rw [writing]; rfl) rfl (Nat.le_refl _)
      | _ => exact .none rfl (Nat.le_refl _)
    | fails p l slot serial writing continues => exact continues.answers rfl rfl (by rw [writing]; rfl)
    | reads p l slot serial reply rest waiting pipe continues => exact continues.answers rfl rfl (by rw [waiting]; rfl)
    | givesUp p l slot serial waiting continues => exact continues.answers rfl rfl (by rw [waiting]; rfl)
  | listener l a =>
    obtain ⟨_, _, run⟩ := Option.bind_eq_some_iff.mp taken
    cases run
    exact .none rfl (Nat.le_refl _)
  | run k =>
    obtain ⟨_, _, rfl⟩ := busStep_run taken
    exact .none rfl (Nat.le_refl _)

theorem OwnerInv.step {s t : BusState} {label : BusLabel} (inv : OwnerInv s) (slots : SlotInv s)
    (taken : busStep s label = some t) : OwnerInv t := by
  refine ⟨?_, ?_⟩
  · cases found : s.holdFound label with
    | true => exact inv.sound.change (busStep_change inv slots found taken)
    | false =>
      obtain ⟨p, b, drop⟩ := busStep_drop slots found taken
      exact inv.sound.drop drop
  · intro b future
    cases busStep_answers taken with
    | none results later =>
      rw [results]
      exact inv.unanswered b (Nat.le_trans later future)
    | one c answered res box results later =>
      have below := (inv.sound.alive (.client c) answered box).1
      rw [results, Function.update_of_ne (by omega)]
      exact inv.unanswered b (Nat.le_trans later future)

/-- An answer of `Bus_SendRequest` is final. -/
theorem OwnerInv.rejected {s t : BusState} {label : BusLabel} {b : Nat} (inv : OwnerInv s)
    (taken : busStep s label = some t) (rejected : s.results b = some false) : t.results b = some false := by
  cases busStep_answers taken with
  | none results _ => rw [results, rejected]
  | one c answered res box results _ =>
    have alive := (inv.sound.alive (.client c) answered box).2
    have distinct : b ≠ answered := by
      rintro rfl
      exact alive rejected
    rw [results, Function.update_of_ne distinct, rejected]

section Runs
variable {n : Nat} {s t : BusState} {ok : BusState → BusLabel → Prop}

theorem bus_invariant (reach : Reach busStep (.new n) ok s) : SlotInv s ∧ OwnerInv s := by
  induction reach with
  | start => exact ⟨.new n, .new n⟩
  | next _ _ taken ih => exact ⟨ih.1.step taken, ih.2.step ih.1 taken⟩

theorem rejected_stays {b : Nat} (reach : Reach busStep (.new n) ok s) (rejected : s.results b = some false)
    (later : Reach busStep s ok t) : t.results b = some false := by
  induction later with
  | start => exact rejected
  | next before _ taken ih => exact (bus_invariant (reach.trans before)).2.rejected taken ih

/-- A rejected request has nothing scheduled. -/
theorem OwnerInv.not_scheduled {b : Nat} (inv : OwnerInv s) (rejected : s.results b = some false) :
    b ∉ s.heap.scheduled := by
  intro member
  obtain ⟨k, atK⟩ := List.getElem?_of_mem member
  exact (inv.sound.alive (.task k) b atK).2 rejected

theorem OwnerInv.scheduled_nodup (inv : OwnerInv s) : s.heap.scheduled.Nodup := by
  rw [List.nodup_iff_getElem?_ne_getElem?]
  intro i j before inside same
  have atI : s.holding (.task i) = some s.heap.scheduled[i] := List.getElem?_eq_getElem (Nat.lt_trans before inside)
  have atJ : s.holding (.task j) = some s.heap.scheduled[i] := same.symm.trans atI
  cases inv.sound.exclusive _ _ _ atI atJ
  exact Nat.lt_irrefl _ before

/-- In every state of every run each callback has been scheduled at most once, and that of a request for which
`Bus_SendRequest` has returned false neither has been nor ever will be. -/
theorem callback_scheduled_at_most_once (reach : Reach busStep (.new n) (fun _ _ => True) s) :
    s.heap.scheduled.Nodup ∧
      ∀ b t, s.results b = some false → Reach busStep s (fun _ _ => True) t → b ∉ t.heap.scheduled := by
  refine ⟨(bus_invariant reach).2.scheduled_nodup, fun b t rejected later => ?_⟩
  exact (bus_invariant (reach.trans later)).2.not_scheduled (rejected_stays reach rejected later)

end Runs

/-- A client gets a command through to the listener, which executes it and releases its slot. -/
def commandSteps (c l : Nat) : List BusLabel :=
  [.client c .getFreeMsg, .client c (.pushMessage true), .listener l (.handle ⟨true, ⟨false, 9, true⟩⟩),
    .listener l .release]

def registerSteps (c : Nat) (fd : Int) : List BusLabel :=
  .client c (.register fd false) :: commandSteps c 0 ++ [.client c (.onCompletion true)]

/-- `Bus_SendRequest` up to the end of its `HOLD`. -/
def holdSteps (c : Nat) (msg : UserMsg) : List BusLabel :=
  .client c (.request msg) :: .client c (.event (.timestamp (some ⟨0, 0⟩))) :: commandSteps c 0 ++
    [.client c (.onCompletion true)]

/-- The message is written at once. -/
def writeSteps (c size : Nat) : List BusLabel :=
  [.client c (.event (.timestamp (some ⟨0, 0⟩))), .client c (.event (.poll (.ready false false false true))),
    .client c (.event (.write (.wrote size)))]

def sendSteps (c : Nat) (msg : UserMsg) : List BusLabel :=
  holdSteps c msg ++ writeSteps c msg.msg.length ++ .client c (.event (.timestamp (some ⟨0, 0⟩))) :: commandSteps c 0

theorem callback_scheduled_at_most_once_sent :
    ∃ s, Reach busStep (.new 1) (fun _ _ => True) s ∧ s.heap.scheduled = [0] ∧ s.results 1 = some false ∧
      s.heap.scheduled.Nodup ∧ 1 ∉ s.heap.scheduled := by
  have trace : (exec busStep (fun _ _ => decide True) (.new 1)
      (registerSteps 0 5 ++ sendSteps 0 ⟨5, 0, 1, [1, 2]⟩ ++ [BusLabel.listener 0 (.recv 0 ⟨true, 7, 0⟩ true),
        .client 0 (.request ⟨5, 1, 1, [3]⟩), .client 0 (.event (.timestamp none))])).map
      (fun s => (s.heap.scheduled, s.results 1)) = some ([0], some false) := by decide +kernel
  obtain ⟨s, reach, seen⟩ := exists_reach_of_exec trace
  obtain ⟨scheduled, rejected⟩ := Prod.mk.inj seen
  have once := callback_scheduled_at_most_once reach
  exact ⟨s, reach, scheduled, rejected, once.1, once.2 1 s rejected .start⟩

section Lost
variable {n : Nat} {s : BusState}

/-- Whether the callback of a box has been run. -/
def BusState.callbackRan (s : BusState) (b : Nat) : Prop := ∃ k ∈ s.ran, s.heap.scheduled[k]? = some b

/-- The place has the box, and is not a task that has been run. -/
def BusState.owns (s : BusState) (p : Place) (b : Nat) : Prop := s.holding p = some b ∧ ∀ k ∈ s.ran, p ≠ .task k

theorem bus_complete (reach : Reach busStep (.new n) (fun s label => s.holdFound label = true) s) :
    Complete s.holding s.live := by
  induction reach with
  | start => exact fun b alive => absurd alive.1 (Nat.not_lt_zero b)
  | next before found taken ih =>
    obtain ⟨slots, inv⟩ := bus_invariant before
    exact ih.change (busStep_change inv slots found taken)

/-- In every state of a run in which each `EXPECT` finds its `HOLD`, the box of a request that is not rejected and whose
callback has not been run is in exactly one place: with a client, in a queued command, in a cell or with the pool. -/
theorem request_has_one_owner (reach : Reach busStep (.new n) (fun s label => s.holdFound label = true) s) (b : Nat)
    (requested : b < s.nextBox) (accepted : s.results b ≠ some false) (pending : ¬ s.callbackRan b) :
    ∃! p, s.owns p b := by
  obtain ⟨p, held, only⟩ := (bus_invariant reach).2.sound.unique (bus_complete reach) ⟨requested, accepted⟩
  refine ⟨p, ⟨held, ?_⟩, fun q owns => only q owns.1⟩
  rintro k ran rfl
  exact pending ⟨k, ran, held⟩

theorem request_has_one_owner_sent :
    ∃ s, Reach busStep (.new 1) (fun s label => s.holdFound label = true) s ∧ s.results 0 = some true ∧
      ∃! p, s.owns p 0 := by
  have trace : (exec busStep (fun s label => decide (s.holdFound label = true)) (.new 1)
      (registerSteps 0 5 ++ sendSteps 0 ⟨5, 0, 1, [1, 2]⟩)).map
      (fun s => (s.results 0, s.nextBox, s.ran)) = some (some true, 1, []) := by decide +kernel
  obtain ⟨s, reach, seen⟩ := exists_reach_of_exec trace
  simp only [Prod.mk.injEq] at seen
  obtain ⟨returned, requested, ran⟩ := seen
  refine ⟨s, reach, returned, request_has_one_owner reach 0 (by omega) (by rw [returned]; simp) ?_⟩
  rintro ⟨k, run, _⟩
  rw [ran] at run
  cases run

def BusLabel.isShutdown : BusLabel → Bool
  | .client _ (.shutdown _) => true
  | _ => false

def tickSteps (l cells : Nat) : List BusLabel :=
  .listener l .tick :: List.replicate (cells + 1) (.listener l (.tickCell true true))

/-- The `HOLD` of a request with a timeout of one second expires after six ticks. If they come between the last write
and the `EXPECT`, the request is accepted and its box is nowhere. -/
theorem request_lost :
    ∃ s, Reach busStep (.new 1) (fun _ label => label.isShutdown = false) s ∧ s.results 0 = some true ∧
      ¬ s.callbackRan 0 ∧ ∀ p, ¬ s.owns p 0 := by
  have trace : (exec busStep (fun _ label => decide (label.isShutdown = false)) (.new 1)
      (registerSteps 0 5 ++ holdSteps 0 ⟨5, 0, 1, [1, 2]⟩ ++ writeSteps 0 2 ++
        (List.replicate 6 (tickSteps 0 1)).flatten ++
        [BusLabel.client 0 (.event (.timestamp (some ⟨6, 0⟩))), .client 0 .getFreeMsg, .client 0 (.pushMessage true)])).map
      (fun s => (s.nextBox, s.holdFound (.listener 0 (.handle ⟨true, ⟨false, 9, true⟩⟩)),
        (busStep s (.listener 0 (.handle ⟨true, ⟨false, 9, true⟩⟩))).map fun t => (t.results 0, t.ran))) =
      some (1, false, some (some true, [])) := by decide +kernel
  obtain ⟨s, reach, seen⟩ := exists_reach_of_exec trace
  simp only [Prod.mk.injEq] at seen
  obtain ⟨requested, missing, last⟩ := seen
  obtain ⟨t, taken, atEnd⟩ := Option.map_eq_some_iff.mp last
  obtain ⟨returned, ran⟩ := Prod.mk.inj atEnd
  obtain ⟨slots, inv⟩ := bus_invariant reach
  obtain ⟨p, b, drop⟩ := busStep_drop slots missing taken
  have below := (inv.sound.alive p b drop.held).1
  have only : b = 0 := by omega
  subst only
  refine ⟨t, .next reach rfl taken, returned, ?_, fun q owns => drop.nowhere inv.sound q owns.1⟩
  rintro ⟨k, run, _⟩
  rw [ran] at run
  cases run

end Lost

end Kinetic
