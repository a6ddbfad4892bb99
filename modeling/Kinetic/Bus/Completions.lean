import Kinetic.Bus.Authors
import Kinetic.Bus.Callbacks

namespace Kinetic
open Function (update)
open Ownership
open Transition (Reach)

/-- What a step does to the tasks of the pool. -/
inductive Schedules (s t : BusState) : BusLabel → Prop
  | keeps (label : BusLabel) : (∀ k, label ≠ .run k) → t.ran = s.ran → t.heap.scheduled = s.heap.scheduled → Schedules s t label
  | adds (label : BusLabel) (b : Nat) : (∀ k, label ≠ .run k) → t.ran = s.ran →
      t.heap.scheduled = s.heap.scheduled ++ [b] → Schedules s t label
  | runs (k : Nat) : k < s.heap.scheduled.length → k ∉ s.ran → t = { s with ran := k :: s.ran } → Schedules s t (.run k)

section Steps
variable {s t : BusState} {label : BusLabel}

theorem clientStep_schedules {c : Nat} {a : ClientAction} (run : clientStep s c a = some t) :
    Schedules s t (.client c a) := by
  have distinct (k : Nat) : BusLabel.client c a ≠ .run k := BusLabel.noConfusion
  cases clientStep_move run with
  | requests msg idle clients listeners scheduled nextBox results ran => exact .keeps _ distinct ran scheduled
  | goesOn a _ alone continues => exact .keeps _ distinct continues.ran continues.scheduled
  | delivers b alone box clients listeners scheduled nextBox results ran => exact .adds _ b distinct ran scheduled
  | takes p l slot next acquiring _ free empty same =>
    subst same
    exact .keeps _ distinct rfl rfl
  | commits p l slot serial writing same =>
    subst same
    cases p <;> exact .keeps _ distinct rfl rfl
  | fails p l slot serial writing continues => exact .keeps _ distinct continues.ran continues.scheduled
  | reads p l slot serial reply rest waiting pipe continues => exact .keeps _ distinct continues.ran continues.scheduled
  | givesUp p l slot serial waiting continues => exact .keeps _ distinct continues.ran continues.scheduled

/-- A listener schedules one task at a time. -/
theorem ListenerMove.scheduled {l l' : Listener} {h h' : Heap} {a : ListenerAction} (move : ListenerMove l h l' h' a) :
    h'.scheduled = h.scheduled ∨ ∃ b, h'.scheduled = h.scheduled ++ [b] := by
  cases move with
  | answers env slot rest msg reads empty _ msgs rx scheduled => exact .inl scheduled
  | expects env slot rest b serial reads _ msgs run =>
    cases found : l.rx.holdsFor h.boxes b with
    | true =>
      cases expectResponse_held run found with
      | stored i empty rx scheduled => exact .inl scheduled
      | delivered rx scheduled => exact .inr ⟨b, scheduled⟩
    | false =>
      obtain ⟨_, same⟩ := expectResponse_not_held run found
      exact .inl (by rw [same])
  | shutsDown env slot rest serial reads _ msgs rx scheduled => exact .inl scheduled
  | releases slot handling same heapSame => exact .inl (by rw [heapSame])
  | works a i _ _ _ _ _ msgs delivers =>
    cases delivers with
    | kept rx scheduled => exact .inl scheduled
    | delivered b held rx scheduled => exact .inr ⟨b, scheduled⟩
  | finishes slot serial atLoop asked same heapSame => exact .inl (by rw [heapSame])

theorem busStep_schedules (taken : busStep s label = some t) : Schedules s t label := by
  cases label with
  | client c a => exact clientStep_schedules taken
  | listener l a =>
    have distinct (k : Nat) : BusLabel.listener l a ≠ .run k := BusLabel.noConfusion
    obtain ⟨⟨listener, heap, conns⟩, moved, run⟩ := Option.bind_eq_some_iff.mp taken
    cases run
    rcases (listenerStep_move moved).scheduled with same | ⟨b, added⟩
    · exact .keeps _ distinct rfl same
    · exact .adds _ b distinct rfl added
  | run k =>
    obtain ⟨below, waiting, rfl⟩ := busStep_run taken
    exact .runs k below waiting rfl

/-- The tasks that have been run are tasks of the pool. -/
def BusState.ranScheduled (s : BusState) : Prop := ∀ k ∈ s.ran, k < s.heap.scheduled.length

theorem Schedules.ranScheduled (schedules : Schedules s t label) (inv : s.ranScheduled) : t.ranScheduled := by
  intro k member
  cases schedules with
  | keeps label _ ran scheduled =>
    rw [ran] at member
    rw [scheduled]
    exact inv k member
  | adds label b _ ran scheduled =>
    rw [ran] at member
    have below := inv k member
    rw [scheduled, List.length_append]
    omega
  | runs k' below _ same =>
    subst same
    rcases List.mem_cons.mp member with rfl | old
    · exact below
    · exact inv k old

/-- A callback has been run after a step if it had been before, or if it is the one that the step runs. -/
theorem Schedules.callbackRan_iff (schedules : Schedules s t label) (inv : s.ranScheduled) (b : Nat) :
    t.callbackRan b ↔ s.callbackRan b ∨ ∃ k, label = .run k ∧ s.heap.scheduled[k]? = some b := by
  cases schedules with
  | keeps label notRun ran scheduled =>
    unfold BusState.callbackRan
    rw [ran, scheduled]
    refine ⟨.inl, ?_⟩
    rintro (before | ⟨k, running, _⟩)
    · exact before
    · exact absurd running (notRun k)
  | adds label added notRun ran scheduled =>
    have same (k : Nat) (member : k ∈ s.ran) : t.heap.scheduled[k]? = s.heap.scheduled[k]? := by
      rw [scheduled, List.getElem?_append_left (inv k member)]
    constructor
    · rintro ⟨k, member, atK⟩
      rw [ran] at member
      rw [same k member] at atK
      exact .inl ⟨k, member, atK⟩
    · rintro (⟨k, member, atK⟩ | ⟨k, running, _⟩)
      · exact ⟨k, by rw [ran]; exact member, (same k member).trans atK⟩
      · exact absurd running (notRun k)
  | runs k below _ same =>
    subst same
    constructor
    · rintro ⟨k', member, atK⟩
      rcases List.mem_cons.mp member with rfl | old
      · exact .inr ⟨k', rfl, atK⟩
      · exact .inl ⟨k', old, atK⟩
    · rintro (⟨k', member, atK⟩ | ⟨k', running, atK⟩)
      · exact ⟨k', List.mem_cons_of_mem _ member, atK⟩
      · cases running
        exact ⟨k, List.mem_cons_self, atK⟩

/-- The box of a client after a step has not been answered in it. -/
theorem clientStep_unanswered {c c' b : Nat} {a : ClientAction} (owners : OwnerInv s) (run : clientStep s c a = some t)
    (held : (t.clients c').box = some b) : t.results b = s.results b := by
  have answered {pc : ClientPc} {x : Nat} {res : Bool} (own : (s.clients c).box = some x)
      (clients : t.clients = update s.clients c pc) (gone : pc.box = none)
      (results : t.results = update s.results x (some res)) : t.results b = s.results b := by
    rw [results]
    refine Function.update_of_ne ?_ ..
    rintro rfl
    rw [clients, Function.update_apply] at held
    split at held
    · rw [gone] at held
      cases held
    · rename_i other
      cases owners.sound.exclusive (.client c') (.client c) b held own
      exact other rfl
  have continued {base : BusState} {box : Option Nat} (continues : Continues base t c box)
      (same : base.clients = s.clients) (results : base.results = s.results) (own : (s.clients c).box = box) :
      t.results b = s.results b := by
    obtain ⟨pc, clients, _, outcome⟩ := continues.client
    rcases outcome with ⟨_, unchanged⟩ | ⟨gone, x, had, rejected⟩
    · rw [unchanged, results]
    · exact answered (own.trans had) (by rw [clients, same]) gone (by rw [rejected, results])
  cases clientStep_move run with
  | requests msg idle clients listeners scheduled nextBox results => rw [results]
  | goesOn a _ alone continues => exact continued continues rfl rfl rfl
  | delivers x alone box clients listeners scheduled nextBox results => exact answered box clients rfl results
  | takes p l slot next acquiring _ free empty same =>
    subst same
    rfl
  | commits p l slot serial writing same =>
    cases p with
    | expect x tries => exact answered (by rw [writing]; rfl) (by rw [same]; rfl) rfl (by rw [same]; rfl)
    | _ => subst same; rfl
  | fails p l slot serial writing continues => exact continued continues rfl rfl (by rw [writing]; rfl)
  | reads p l slot serial reply rest waiting pipe continues => exact continued continues rfl rfl (by rw [waiting]; rfl)
  | givesUp p l slot serial waiting continues => exact continued continues rfl rfl (by rw [waiting]; rfl)

end Steps

section Runs
variable {n : Nat} {s : BusState} {ok : BusState → BusLabel → Prop}

theorem ranScheduled_of_reach (reach : Reach busStep (.new n) ok s) : s.ranScheduled := by
  refine reach.invariant ?_ fun s label t inv _ taken => (busStep_schedules taken).ranScheduled inv
  intro k member
  cases member

/-- `Bus_SendRequest` has not returned while the client has the box. -/
theorem unanswered_of_reach (reach : Reach busStep (.new n) ok s) {c b : Nat} (held : (s.clients c).box = some b) :
    s.results b = none := by
  induction reach with
  | start => rfl
  | @next s t label before _ taken ih =>
    have owners := (bus_invariant before).2
    cases label with
    | client c' a =>
      rw [clientStep_unanswered owners taken held]
      rcases clientStep_box taken held with old | ⟨_, _, _, new, _⟩
      · exact ih old
      · exact owners.unanswered b (Nat.le_of_eq new.symm)
    | listener l a =>
      obtain ⟨_, _, run⟩ := Option.bind_eq_some_iff.mp taken
      cases run
      exact ih held
    | run k =>
      obtain ⟨_, _, rfl⟩ := busStep_run taken
      exact ih held

end Runs

end Kinetic
