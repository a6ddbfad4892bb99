import Kinetic.Lib.Transition
import Kinetic.Listener.Commands

namespace Kinetic
open Function (update update_self update_of_ne)
open Transition (Reach exec exists_reach_of_exec)

/-- `shutdown_state_t`. -/
inductive BusShutdownState
  | running
  | shuttingDown
  | halted
  deriving DecidableEq

/-- How far the thread of a listener is: in the loop of `ListenerTask_MainLoop`, at the slots of one read of its queue with the
slot whose pipe is in `shutdown_notify_fd`, behind its answer, behind the last write to `shutdown_notify_fd`, or gone. -/
inductive ListenerPhase
  | looping
  | handling (notify : Option Nat) (batch : List Nat)
  | notified
  | complete
  | ended
  deriving DecidableEq

/-- A listener with its free slots, the slots of the `MSG_SHUTDOWN` messages in its queue, and the number of answers in the pipe
of each slot that nobody has read. -/
structure HaltingListener where
  freelist : List Nat
  inbox : List Nat
  phase : ListenerPhase
  pipes : Nat → Nat

def HaltingListener.new : HaltingListener :=
  { freelist := (List.range maxQueueMessages).reverse, inbox := [], phase := .looping, pipes := fun _ => 0 }

/-- `b->fd_set`. -/
inductive FdSetPointer
  | null
  | allocated
  | freed
  deriving DecidableEq

/-- The next statement of `Bus_Shutdown`, or of `Bus_Free` around it up to its last `Listener_Free`. -/
inductive HaltingPc
  | outside
  | load
  | swap
  | yachtFree
  | clear
  | test (i : Nat)
  | take (i : Nat)
  | push (i slot : Nat)
  | poll (i slot : Nat)
  | join (i : Nat)
  | mark (i : Nat)
  | reset
  | halt
  | returned (ok : Bool)
  | freeTest
  | freeSleep
  | freeListener (i : Nat)
  | freed
  deriving DecidableEq

/-- What shutting a bus down uses of it, and its threads. `joins` counts the `pthread_join` calls that have succeeded for a
listener, `freer` is the thread that has called `Bus_Free`. `fault` is set when something is
freed or joined again, and when the assertion of `Listener_Free` fails. -/
structure HaltingBus where
  state : BusShutdownState
  fdSet : FdSetPointer
  joined : Nat → Bool
  joins : Nat → Nat
  listeners : Nat → HaltingListener
  freedListeners : Nat → Bool
  callers : Nat → HaltingPc
  freer : Option Nat
  fault : Bool

def HaltingBus.running : HaltingBus :=
  { state := .running, fdSet := .allocated, joined := fun _ => false, joins := fun _ => 0,
    listeners := fun _ => .new, freedListeners := fun _ => false, callers := fun _ => .outside, freer := none, fault := false }

/-- A thread calls one of the two functions or goes on. Its write to the queue, its poll or its join fails without `ok`. -/
inductive CallerAction
  | shutdown
  | free
  | go (ok : Bool)
  deriving DecidableEq

/-- The listener reads all that is in its queue, handles the next `MSG_SHUTDOWN` of it and gives its slot back, answers the last
one, makes its last write, ends. -/
inductive LoopAction
  | read
  | handle
  | notify
  | complete
  | exit
  deriving DecidableEq

inductive HaltingLabel
  | caller (u : Nat) (action : CallerAction)
  | listener (i : Nat) (action : LoopAction)
  deriving DecidableEq

def HaltingBus.at (s : HaltingBus) (u : Nat) (pc : HaltingPc) : HaltingBus := { s with callers := update s.callers u pc }

def HaltingBus.setListener (s : HaltingBus) (i : Nat) (l : HaltingListener) : HaltingBus :=
  { s with listeners := update s.listeners i l }

/-- The assertion of `Listener_Free`. -/
def ListenerPhase.isComplete : ListenerPhase → Bool
  | .complete | .ended => true
  | _ => false

/-- The next statement of a caller; `n` is `listener_count`. `Yacht_Free` is one step, with the callbacks for the connections
left out. -/
def HaltingBus.go (n : Nat) (s : HaltingBus) (u : Nat) (ok : Bool) : Option HaltingBus :=
  match s.callers u with
  | .outside => none
  | .load => some (s.at u (if s.state = .running then .swap else .returned false))
  | .swap => some (if s.state = .running then { s.at u .yachtFree with state := .shuttingDown } else s.at u .load)
  | .yachtFree =>
    match s.fdSet with
    | .null => some (s.at u (.test 0))
    | .allocated => some { s.at u .clear with fdSet := .freed }
    | .freed => some { s.at u .clear with fault := true }
  | .clear => some { s.at u (.test 0) with fdSet := .null }
  | .test i => some (s.at u (if i < n then if s.joined i then .test (i + 1) else .take i else .halt))
  | .take i =>
    let l := s.listeners i
    match l.freelist with
    | [] => some (s.at u .reset)
    | slot :: rest => some ((s.at u (.push i slot)).setListener i { l with freelist := rest })
  | .push i slot =>
    let l := s.listeners i
    if ok then some ((s.at u (.poll i slot)).setListener i { l with inbox := l.inbox ++ [slot] })
    else some ((s.at u .reset).setListener i { l with freelist := slot :: l.freelist })
  | .poll i slot =>
    let l := s.listeners i
    if ok then
      if 0 < l.pipes slot then
        some ((s.at u (.join i)).setListener i { l with pipes := update l.pipes slot (l.pipes slot - 1) })
      else none
    else some (s.at u .reset)
  | .join i =>
    if ok then
      if (s.listeners i).phase = .ended then
        some { s.at u (.mark i) with joins := update s.joins i (s.joins i + 1), fault := s.fault || decide (s.joins i ≠ 0) }
      else none
    else some (s.at u .reset)
  | .mark i => some { s.at u (.test (i + 1)) with joined := update s.joined i true }
  | .reset => some { s.at u (.returned false) with state := .running }
  | .halt => some { s.at u (.returned true) with state := .halted }
  | .returned done => some (s.at u (if s.freer = some u then if done then .freeListener 0 else .freeSleep else .outside))
  | .freeTest => some (s.at u (if s.state = .halted then .freeListener 0 else .load))
  | .freeSleep => some (s.at u .freeTest)
  | .freeListener i =>
    if i < n then
      some { s.at u (.freeListener (i + 1)) with
        freedListeners := update s.freedListeners i true
        fault := s.fault || s.freedListeners i || !(s.listeners i).phase.isComplete }
    else some (s.at u .freed)
  | .freed => none

/-- The rest of `ListenerTask_MainLoop`. What it reads of its queue at once is handled before the end of its loop. -/
def HaltingBus.listen (s : HaltingBus) (i : Nat) (action : LoopAction) : Option HaltingBus :=
  let l := s.listeners i
  match action, l.phase with
  | .read, .looping => if l.inbox = [] then none else some (s.setListener i { l with inbox := [], phase := .handling none l.inbox })
  | .handle, .handling _ (slot :: rest) =>
    some (s.setListener i { l with freelist := slot :: l.freelist, phase := .handling (some slot) rest })
  | .notify, .handling (some slot) [] =>
    some (s.setListener i { l with phase := .notified, pipes := update l.pipes slot (l.pipes slot + 1) })
  | .complete, .notified => some (s.setListener i { l with phase := .complete })
  | .exit, .complete => some (s.setListener i { l with phase := .ended })
  | _, _ => none

def haltingStep (n : Nat) (s : HaltingBus) : HaltingLabel → Option HaltingBus
  | .caller u .shutdown => if s.callers u = .outside then some (s.at u .load) else none
  | .caller u .free => if s.callers u = .outside then some { s.at u .freeTest with freer := some u } else none
  | .caller u (.go ok) => s.go n u ok
  | .listener i action => s.listen i action

/-- `Bus_Free` is called once. -/
def FreedOnce (s : HaltingBus) : HaltingLabel → Prop
  | .caller _ .free => s.freer = none
  | _ => True

instance FreedOnce.decidable (s : HaltingBus) : (label : HaltingLabel) → Decidable (FreedOnce s label)
  | .caller _ .free => inferInstanceAs (Decidable (s.freer = none))
  | .caller _ .shutdown => isTrue trivial
  | .caller _ (.go _) => isTrue trivial
  | .listener _ _ => isTrue trivial

/-- Besides, no write to a queue, no poll and no join fails. -/
def Unfailing (s : HaltingBus) (label : HaltingLabel) : Prop := FreedOnce s label ∧ ∀ u, label ≠ .caller u (.go false)

section Safety
variable {n : Nat} {s t : HaltingBus} {u v : Nat}

/-- The caller has won the right to shut the bus down, and not given it back. -/
def HaltingPc.wins : HaltingPc → Bool
  | .yachtFree | .clear | .test _ | .take _ | .push _ _ | .poll _ _ | .join _ | .mark _ | .reset | .halt => true
  | _ => false

/-- The caller is behind the loop of `Bus_Free`. -/
def HaltingPc.frees : HaltingPc → Bool
  | .freeListener _ | .freed => true
  | _ => false

/-- The caller is in the loop of `Bus_Free`, outside `Bus_Shutdown`. -/
def HaltingPc.inFree : HaltingPc → Bool
  | .freeTest | .freeSleep => true
  | _ => false

/-- What holds at a statement of a caller. -/
def HaltingPc.At (n : Nat) (s : HaltingBus) (u : Nat) : HaltingPc → Prop
  | .yachtFree => s.fdSet ≠ .freed
  | .clear => s.fdSet = .freed
  | .test i => s.fdSet = .null ∧ i ≤ n ∧ ∀ j < i, s.joined j = true
  | .take i | .push i _ | .poll i _ | .join i => s.fdSet = .null ∧ i < n ∧ s.joined i = false ∧ ∀ j < i, s.joined j = true
  | .mark i => s.fdSet = .null ∧ i < n ∧ s.joins i = 1 ∧ (s.listeners i).phase = .ended ∧ ∀ j < i, s.joined j = true
  | .reset => s.fdSet = .null
  | .halt => s.fdSet = .null ∧ ∀ j < n, s.joined j = true
  | .returned ok => ok = true → s.state = .halted
  | .freeListener i => s.state = .halted ∧ s.freer = some u ∧ ∀ j, s.freedListeners j = true → j < i
  | .freed => s.state = .halted ∧ s.freer = some u
  | _ => True

structure HaltingInv (n : Nat) (s : HaltingBus) : Prop where
  sound : s.fault = false
  alone : ∀ u v, (s.callers u).wins = true → (s.callers v).wins = true → u = v
  winner : s.state = .shuttingDown ↔ ∃ u, (s.callers u).wins = true
  places : ∀ u, (s.callers u).At n s u
  set : s.fdSet = .freed → ∃ u, s.callers u = .clear
  joined : ∀ i, s.joined i = true → s.joins i = 1 ∧ (s.listeners i).phase = .ended
  unjoined : ∀ i, s.joined i = false → s.joins i = 0 ∨ ∃ u, s.callers u = .mark i
  halted : s.state = .halted → ∀ j < n, s.joined j = true
  unfreed : (∀ u, (s.callers u).frees = false) → ∀ j, s.freedListeners j = false
  freer : ∀ u, (s.callers u).inFree = true → s.freer = some u

/-- The statements at which a caller has nothing to do with the bus. -/
def HaltingPc.idle : HaltingPc → Bool
  | .outside | .load | .swap | .returned false | .freeTest | .freeSleep => true
  | _ => false

theorem HaltingPc.at_of_idle {pc : HaltingPc} (idle : pc.idle = true) : pc.At n s u := by
  cases pc with
  | returned ok => cases ok with
    | true => cases idle
    | false => rintro ⟨⟩
  | outside | load | swap | freeTest | freeSleep => trivial
  | _ => cases idle

theorem HaltingPc.not_wins_of_idle {pc : HaltingPc} (idle : pc.idle = true) : pc.wins = false := by
  cases pc <;> first | rfl | cases idle

theorem HaltingPc.not_frees_of_idle {pc : HaltingPc} (idle : pc.idle = true) : pc.frees = false := by
  cases pc <;> first | rfl | cases idle

/-- Before the bus has halted, only the winner has anything to do with it. -/
theorem HaltingInv.idle (inv : HaltingInv n s) (going : s.state ≠ .halted) (loses : (s.callers v).wins = false) :
    (s.callers v).idle = true := by
  have place := inv.places v
  cases here : s.callers v with
  | returned ok =>
    cases ok with
    | true => rw [here] at place; exact absurd (place rfl) going
    | false => rfl
  | freeListener i => rw [here] at place; exact absurd place.1 going
  | freed => rw [here] at place; exact absurd place.1 going
  | outside | load | swap | freeTest | freeSleep => rfl
  | _ => rw [here] at loses; cases loses

/-- A step of the winner, or to become it. All others are idle. -/
theorem HaltingInv.lead (inv : HaltingInv n s) (pc : HaltingPc) (others : ∀ v ≠ u, (s.callers v).idle = true)
    (free : (s.callers u).frees = false) (callers : t.callers = update s.callers u pc)
    (freed : t.freedListeners = s.freedListeners) (sound : t.fault = false)
    (winner : t.state = .shuttingDown ↔ pc.wins = true) (place : pc.At n t u)
    (set : t.fdSet = .freed → pc = .clear)
    (joined : ∀ i, t.joined i = true → t.joins i = 1 ∧ (t.listeners i).phase = .ended)
    (unjoined : ∀ i, t.joined i = false → t.joins i = 0 ∨ pc = .mark i)
    (halted : t.state = .halted → ∀ j < n, t.joined j = true) (freer : t.freer = s.freer) (outFree : pc.inFree = false) :
    HaltingInv n t := by
  have own : t.callers u = pc := by rw [callers, Function.update_self]
  have other {v : Nat} (apart : v ≠ u) : t.callers v = s.callers v := by rw [callers, Function.update_of_ne apart]
  have leads {v : Nat} (wins : (t.callers v).wins = true) : v = u := by
    by_contra apart
    rw [other apart, HaltingPc.not_wins_of_idle (others v apart)] at wins
    cases wins
  refine ⟨sound, fun v w first second => (leads first).trans (leads second).symm, ?_, fun v => ?_, fun gone => ⟨u, ?_⟩, joined,
    fun i no => ?_, halted, fun _ => ?_, fun v inside => ?_⟩
  · refine winner.trans ⟨fun wins => ⟨u, by rw [own]; exact wins⟩, fun ⟨v, wins⟩ => ?_⟩
    rw [leads wins, own] at wins
    exact wins
  · by_cases apart : v = u
    · rw [apart, own]
      exact place
    · rw [other apart]
      exact HaltingPc.at_of_idle (others v apart)
  · rw [own]
    exact set gone
  · exact (unjoined i no).imp_right fun marks => ⟨u, by rw [own]; exact marks⟩
  · rw [freed]
    refine inv.unfreed fun v => ?_
    by_cases apart : v = u
    · rw [apart]
      exact free
    · exact HaltingPc.not_frees_of_idle (others v apart)
  · rw [freer]
    by_cases apart : v = u
    · rw [apart, own, outFree] at inside
      cases inside
    · rw [other apart] at inside
      exact inv.freer v inside

/-- A step of a caller that has not won, and changes nothing but its own place. -/
theorem HaltingInv.plain {pc : HaltingPc} (inv : HaltingInv n s) (loses : (s.callers u).wins = false) (still : pc.wins = false)
    (place : pc.At n s u) (free : (s.callers u).frees = true → pc.frees = true) (freer : pc.inFree = true → s.freer = some u) :
    HaltingInv n (s.at u pc) := by
  have other {v : Nat} (apart : v ≠ u) : (s.at u pc).callers v = s.callers v := Function.update_of_ne apart _ _
  have own : (s.at u pc).callers u = pc := Function.update_self ..
  have keeps {v : Nat} (wins : (s.callers v).wins = true) : (s.at u pc).callers v = s.callers v := by
    refine other fun same => ?_
    rw [same, loses] at wins
    cases wins
  have wins_iff (v : Nat) : ((s.at u pc).callers v).wins = true ↔ (s.callers v).wins = true := by
    by_cases apart : v = u
    · rw [apart, own, still, loses]
    · rw [other apart]
  refine ⟨inv.sound, fun v w first second => inv.alone v w ((wins_iff v).mp first) ((wins_iff w).mp second), ?_, fun v => ?_,
    fun gone => ?_, inv.joined, fun i no => ?_, inv.halted, fun none => ?_, fun v inside => ?_⟩
  · exact inv.winner.trans (exists_congr fun v => (wins_iff v).symm)
  · by_cases apart : v = u
    · rw [apart, own]
      exact place
    · rw [other apart]
      exact inv.places v
  · obtain ⟨v, clear⟩ := inv.set gone
    exact ⟨v, (keeps (by rw [clear]; rfl)).trans clear⟩
  · exact (inv.unjoined i no).imp_right fun ⟨v, mark⟩ => ⟨v, (keeps (by rw [mark]; rfl)).trans mark⟩
  · refine inv.unfreed fun v => ?_
    have after := none v
    by_cases apart : v = u
    · rw [apart] at after ⊢
      rw [own] at after
      by_contra frees
      rw [Bool.not_eq_false] at frees
      rw [free frees] at after
      cases after
    · rwa [other apart] at after
  · by_cases apart : v = u
    · rw [apart, own] at inside
      rw [apart]
      exact freer inside
    · rw [other apart] at inside
      exact inv.freer v inside

/-- While a thread shuts the bus down, the others are idle. -/
theorem HaltingInv.others_idle (inv : HaltingInv n s) (wins : (s.callers u).wins = true) (apart : v ≠ u) :
    (s.callers v).idle = true := by
  have state := inv.winner.mpr ⟨u, wins⟩
  refine inv.idle (by rw [state]; rintro ⟨⟩) ?_
  by_contra also
  rw [Bool.not_eq_false] at also
  exact apart (inv.alone v u also wins)

/-- What is not joined has not been joined in vain, if the winner is not about to mark it. -/
theorem HaltingInv.unmarked_of (inv : HaltingInv n s) (wins : (s.callers u).wins = true) (unmarked : ∀ i, s.callers u ≠ .mark i)
    (i : Nat) (no : s.joined i = false) : s.joins i = 0 := by
  refine (inv.unjoined i no).resolve_right fun ⟨v, marks⟩ => unmarked i ?_
  rw [← inv.alone v u (by rw [marks]; rfl) wins]
  exact marks

/-- A step of the winner that leaves the state and the joins alone. -/
theorem HaltingInv.goOn (inv : HaltingInv n s) (pc : HaltingPc) (wins : (s.callers u).wins = true)
    (unmarked : ∀ i, s.callers u ≠ .mark i) (still : pc.wins = true) (callers : t.callers = update s.callers u pc)
    (freed : t.freedListeners = s.freedListeners) (sound : t.fault = false) (state : t.state = s.state)
    (joins : t.joined = s.joined ∧ t.joins = s.joins) (freer : t.freer = s.freer) (phases : ∀ i, (t.listeners i).phase = (s.listeners i).phase)
    (place : pc.At n t u) (set : t.fdSet = .freed → pc = .clear) : HaltingInv n t := by
  refine inv.lead pc (fun v apart => inv.others_idle wins apart) ?_ callers freed sound ?_ place set ?_ ?_ ?_ freer ?_
  · cases here : s.callers u <;> first | rfl | (rw [here] at wins; cases wins)
  · rw [state]
    exact iff_of_true (inv.winner.mpr ⟨u, wins⟩) still
  · intro i
    rw [joins.1, joins.2, phases]
    exact inv.joined i
  · intro i
    rw [joins.1, joins.2]
    exact fun no => .inl (inv.unmarked_of wins unmarked i no)
  · rw [state, joins.1]
    exact inv.halted
  · cases pc <;> first | rfl | cases still

/-- A caller that works on the slots of a listener leaves its thread where it is. -/
theorem setListener_phase {pc : HaltingPc} {i : Nat} {l : HaltingListener} (same : l.phase = (s.listeners i).phase) (j : Nat) :
    (((s.at u pc).setListener i l).listeners j).phase = (s.listeners j).phase := by
  by_cases here : j = i
  · rw [here]
    simp only [HaltingBus.setListener, update_self]
    exact same
  · simp only [HaltingBus.setListener, update_of_ne here]
    rfl

/-- Only the thread in `Bus_Free` frees listeners. -/
theorem HaltingInv.none_freed (inv : HaltingInv n s) (mine : s.freer = some u) (unfree : (s.callers u).frees = false) (j : Nat)
    (gone : s.freedListeners j = true) : j < 0 := by
  have none : s.freedListeners j = false := by
    refine inv.unfreed (fun v => ?_) j
    by_contra frees
    have place := inv.places v
    have own : s.freer = some v := by
      cases here : s.callers v with
      | freeListener i => rw [here] at place; exact place.2.1
      | freed => rw [here] at place; exact place.2
      | _ => rw [here] at frees; exact absurd rfl frees
    rw [mine] at own
    rw [← Option.some.inj own] at frees
    exact frees unfree
  rw [none] at gone
  cases gone

/-- The winner has taken the bus over. -/
theorem HaltingInv.swaps (inv : HaltingInv n s) (here : s.callers u = .swap) (running : s.state = .running) :
    HaltingInv n { s.at u .yachtFree with state := .shuttingDown } := by
  have nobody (v : Nat) : (s.callers v).wins = false := by
    by_contra wins
    rw [Bool.not_eq_false] at wins
    have busy := inv.winner.mpr ⟨v, wins⟩
    rw [running] at busy
    cases busy
  have unfreed : s.fdSet ≠ .freed := fun gone => by
    obtain ⟨v, clear⟩ := inv.set gone
    have none := nobody v
    rw [clear] at none
    cases none
  refine inv.lead .yachtFree (fun v _ => inv.idle (by rw [running]; rintro ⟨⟩) (nobody v)) (by rw [here]; rfl) rfl
    rfl inv.sound (iff_of_true rfl rfl) unfreed (fun gone => absurd gone unfreed) inv.joined (fun i no => .inl ?_)
    (by rintro ⟨⟩) rfl rfl
  refine (inv.unjoined i no).resolve_right fun ⟨v, marks⟩ => ?_
  have none := nobody v
  rw [marks] at none
  cases none

/-- The winner looks for the next listener that is not joined. -/
theorem HaltingInv.tests (inv : HaltingInv n s) {i : Nat} (here : s.callers u = .test i) :
    HaltingInv n (s.at u (if i < n then if s.joined i then .test (i + 1) else .take i else .halt)) := by
  have place := inv.places u
  rw [here] at place
  obtain ⟨null, bound, before⟩ := place
  have wins : (s.callers u).wins = true := by rw [here]; rfl
  have unmarked (i : Nat) : s.callers u ≠ .mark i := by rw [here]; rintro ⟨⟩
  have unset : s.fdSet ≠ .freed := by rw [null]; rintro ⟨⟩
  split
  · rename_i below
    split
    · rename_i done
      refine inv.goOn (.test (i + 1)) wins unmarked rfl rfl rfl inv.sound rfl ⟨rfl, rfl⟩ rfl (fun _ => rfl)
        ⟨null, below, fun j less => ?_⟩ fun gone => absurd gone unset
      rcases Nat.lt_succ_iff_lt_or_eq.mp less with earlier | rfl
      · exact before j earlier
      · exact done
    · rename_i undone
      exact inv.goOn (.take i) wins unmarked rfl rfl rfl inv.sound rfl ⟨rfl, rfl⟩ rfl (fun _ => rfl)
        ⟨null, below, eq_false_of_ne_true undone, before⟩ fun gone => absurd gone unset
  · rename_i above
    exact inv.goOn .halt wins unmarked rfl rfl rfl inv.sound rfl ⟨rfl, rfl⟩ rfl (fun _ => rfl)
      ⟨null, fun j less => before j (by omega)⟩ fun gone => absurd gone unset

/-- A listener cannot be told, polled or joined. -/
theorem HaltingInv.givesUp (inv : HaltingInv n s) (wins : (s.callers u).wins = true) (unmarked : ∀ i, s.callers u ≠ .mark i)
    (null : s.fdSet = .null) : HaltingInv n (s.at u .reset) := by
  refine inv.goOn .reset wins unmarked rfl rfl rfl inv.sound rfl ⟨rfl, rfl⟩ rfl (fun _ => rfl) null fun gone => ?_
  rw [show s.fdSet = .freed from gone] at null
  cases null

/-- The thread of a listener has ended and is joined. -/
theorem HaltingInv.joins (inv : HaltingInv n s) {i : Nat} (here : s.callers u = .join i) (ended : (s.listeners i).phase = .ended) :
    HaltingInv n { s.at u (.mark i) with
      joins := update s.joins i (s.joins i + 1), fault := s.fault || decide (s.joins i ≠ 0) } := by
  have place := inv.places u
  rw [here] at place
  obtain ⟨null, below, undone, before⟩ := place
  have wins : (s.callers u).wins = true := by rw [here]; rfl
  have unset : s.fdSet ≠ .freed := by rw [null]; rintro ⟨⟩
  have unjoined := inv.unmarked_of wins (by rw [here]; rintro _ ⟨⟩)
  refine inv.lead (.mark i) (fun v apart => inv.others_idle wins apart) (by rw [here]; rfl) rfl rfl ?_
    (iff_of_true (inv.winner.mpr ⟨u, wins⟩) rfl) ⟨null, below, ?_, ended, before⟩ (fun gone => absurd gone unset)
    (fun j yes => ?_) (fun j no => ?_) inv.halted rfl rfl
  · simp [inv.sound, unjoined i undone]
  · simp [unjoined i undone]
  · have apart : j ≠ i := by
      rintro rfl
      rw [show s.joined j = true from yes] at undone
      cases undone
    simpa [HaltingBus.at, apart] using inv.joined j yes
  · by_cases same : j = i
    · exact .inr (by rw [same])
    · exact .inl (by simpa [same] using unjoined j no)

/-- The winner notes that it has joined a listener. -/
theorem HaltingInv.marks (inv : HaltingInv n s) {i : Nat} (here : s.callers u = .mark i) :
    HaltingInv n { s.at u (.test (i + 1)) with joined := update s.joined i true } := by
  have place := inv.places u
  rw [here] at place
  obtain ⟨null, below, one, ended, before⟩ := place
  have wins : (s.callers u).wins = true := by rw [here]; rfl
  refine inv.lead (.test (i + 1)) (fun v apart => inv.others_idle wins apart) (by rw [here]; rfl) rfl rfl inv.sound
    (iff_of_true (inv.winner.mpr ⟨u, wins⟩) rfl) ⟨null, below, fun j less => ?_⟩ (fun gone => ?_) (fun j yes => ?_)
    (fun j no => .inl ?_) (fun halted => ?_) rfl rfl
  · by_cases same : j = i
    · simp [same]
    · simpa [same] using before j (by omega)
  · rw [show s.fdSet = .freed from gone] at null
    cases null
  · by_cases same : j = i
    · rw [same]
      exact ⟨one, ended⟩
    · exact inv.joined j (by simpa [same] using yes)
  · have apart : j ≠ i := by
      rintro rfl
      simp at no
    refine (inv.unjoined j (by simpa [apart] using no)).resolve_right fun ⟨v, marks⟩ => ?_
    have same := inv.alone v u (by rw [marks]; rfl) wins
    rw [same, here] at marks
    cases marks
    exact apart rfl
  · have busy := inv.winner.mpr ⟨u, wins⟩
    rw [show s.state = .halted from halted] at busy
    cases busy

/-- `Bus_Free` frees the next listener, whose assertion holds. -/
theorem HaltingInv.freesListener (inv : HaltingInv n s) {i : Nat} (here : s.callers u = .freeListener i) (below : i < n) :
    HaltingInv n { s.at u (.freeListener (i + 1)) with
      freedListeners := update s.freedListeners i true
      fault := s.fault || s.freedListeners i || !(s.listeners i).phase.isComplete } := by
  have place := inv.places u
  rw [here] at place
  obtain ⟨halted, mine, before⟩ := place
  have ended := (inv.joined i (inv.halted halted i below)).2
  have unfreed : s.freedListeners i = false := eq_false_of_ne_true fun gone => absurd (before i gone) (Nat.lt_irrefl i)
  have moved : HaltingInv n (s.at u (.freeListener (i + 1))) :=
    inv.plain (by rw [here]; rfl) rfl ⟨halted, mine, fun j gone => Nat.lt_succ_of_lt (before j gone)⟩ (fun _ => rfl)
      (by rintro ⟨⟩)
  refine ⟨?_, moved.alone, moved.winner, fun v => ?_, moved.set, moved.joined, moved.unjoined, moved.halted, fun none => ?_,
    moved.freer⟩
  · have no : s.fault = false := inv.sound
    simp [no, unfreed, ended, ListenerPhase.isComplete]
  · have place := moved.places v
    by_cases apart : v = u
    · rw [apart] at place ⊢
      simp only [HaltingBus.at, update_self] at place ⊢
      refine ⟨halted, mine, fun j gone => ?_⟩
      by_cases same : j = i
      · rw [same]
        exact Nat.lt_succ_self i
      · exact Nat.lt_succ_of_lt (before j (by simpa [same] using gone))
    · simp only [HaltingBus.at, update_of_ne apart] at place ⊢
      cases at_ : s.callers v with
      | freeListener k =>
        rw [at_] at place
        exact absurd (Option.some.inj (place.2.1.symm.trans mine)) apart
      | _ => rw [at_] at place; exact place
  · have frees := none u
    simp [HaltingBus.at, HaltingPc.frees] at frees

theorem HaltingInv.go_step (inv : HaltingInv n s) {ok : Bool} (taken : s.go n u ok = some t) : HaltingInv n t := by
  have place := inv.places u
  unfold HaltingBus.go at taken
  cases here : s.callers u with
  | outside | freed => simp only [here] at taken; cases taken
  | load =>
    simp only [here] at taken
    cases taken
    split
    · exact inv.plain (by rw [here]; rfl) rfl trivial (by rw [here]; rintro ⟨⟩) (by rintro ⟨⟩)
    · exact inv.plain (by rw [here]; rfl) rfl (by rintro ⟨⟩) (by rw [here]; rintro ⟨⟩) (by rintro ⟨⟩)
  | swap =>
    simp only [here] at taken
    cases taken
    split
    · rename_i running
      exact inv.swaps here running
    · exact inv.plain (by rw [here]; rfl) rfl trivial (by rw [here]; rintro ⟨⟩) (by rintro ⟨⟩)
  | yachtFree =>
    rw [here] at place
    have wins : (s.callers u).wins = true := by rw [here]; rfl
    have unmarked (i : Nat) : s.callers u ≠ .mark i := by rw [here]; rintro ⟨⟩
    cases set : s.fdSet with
    | freed => exact absurd set place
    | null =>
      simp only [here, set] at taken
      cases taken
      exact inv.goOn (.test 0) wins unmarked rfl rfl rfl inv.sound rfl ⟨rfl, rfl⟩ rfl (fun _ => rfl)
        ⟨set, Nat.zero_le _, fun _ less => absurd less (Nat.not_lt_zero _)⟩ (fun gone => absurd gone place)
    | allocated =>
      simp only [here, set] at taken
      cases taken
      exact inv.goOn .clear wins unmarked rfl rfl rfl inv.sound rfl ⟨rfl, rfl⟩ rfl (fun _ => rfl) rfl fun _ => rfl
  | clear =>
    have wins : (s.callers u).wins = true := by rw [here]; rfl
    have unmarked (i : Nat) : s.callers u ≠ .mark i := by rw [here]; rintro ⟨⟩
    simp only [here] at taken
    cases taken
    exact inv.goOn (.test 0) wins unmarked rfl rfl rfl inv.sound rfl ⟨rfl, rfl⟩ rfl (fun _ => rfl)
      ⟨rfl, Nat.zero_le _, fun _ less => absurd less (Nat.not_lt_zero _)⟩ (by rintro ⟨⟩)
  | test i =>
    simp only [here] at taken
    cases taken
    exact inv.tests here
  | take i =>
    rw [here] at place
    have wins : (s.callers u).wins = true := by rw [here]; rfl
    have unmarked (i : Nat) : s.callers u ≠ .mark i := by rw [here]; rintro ⟨⟩
    have unset : s.fdSet ≠ .freed := by rw [place.1]; rintro ⟨⟩
    simp only [here] at taken
    split at taken
    · cases taken
      exact inv.givesUp wins unmarked place.1
    · rename_i slot rest _
      cases taken
      exact inv.goOn (.push i slot) wins unmarked rfl rfl rfl inv.sound rfl ⟨rfl, rfl⟩ rfl (setListener_phase rfl) place
        fun gone => absurd gone unset
  | push i slot =>
    rw [here] at place
    have wins : (s.callers u).wins = true := by rw [here]; rfl
    have unmarked (i : Nat) : s.callers u ≠ .mark i := by rw [here]; rintro ⟨⟩
    have unset : s.fdSet ≠ .freed := by rw [place.1]; rintro ⟨⟩
    simp only [here] at taken
    split at taken
    · cases taken
      exact inv.goOn (.poll i slot) wins unmarked rfl rfl rfl inv.sound rfl ⟨rfl, rfl⟩ rfl (setListener_phase rfl) place
        fun gone => absurd gone unset
    · cases taken
      exact inv.goOn .reset wins unmarked rfl rfl rfl inv.sound rfl ⟨rfl, rfl⟩ rfl (setListener_phase rfl) place.1
        fun gone => absurd gone unset
  | poll i slot =>
    rw [here] at place
    have wins : (s.callers u).wins = true := by rw [here]; rfl
    have unmarked (i : Nat) : s.callers u ≠ .mark i := by rw [here]; rintro ⟨⟩
    have unset : s.fdSet ≠ .freed := by rw [place.1]; rintro ⟨⟩
    simp only [here] at taken
    split at taken
    · split at taken
      · cases taken
        exact inv.goOn (.join i) wins unmarked rfl rfl rfl inv.sound rfl ⟨rfl, rfl⟩ rfl (setListener_phase rfl) place
          fun gone => absurd gone unset
      · cases taken
    · cases taken
      exact inv.givesUp wins unmarked place.1
  | join i =>
    rw [here] at place
    simp only [here] at taken
    split at taken
    · split at taken
      · rename_i ended
        cases taken
        exact inv.joins here ended
      · cases taken
    · cases taken
      exact inv.givesUp (by rw [here]; rfl) (by rw [here]; rintro _ ⟨⟩) place.1
  | mark i =>
    simp only [here] at taken
    cases taken
    exact inv.marks here
  | reset =>
    rw [here] at place
    have wins : (s.callers u).wins = true := by rw [here]; rfl
    have unset : s.fdSet ≠ .freed := by rw [show s.fdSet = .null from place]; rintro ⟨⟩
    simp only [here] at taken
    cases taken
    exact inv.lead (.returned false) (fun v apart => inv.others_idle wins apart) (by rw [here]; rfl) rfl rfl inv.sound
      (iff_of_false (by rintro ⟨⟩) (by rintro ⟨⟩)) (by rintro ⟨⟩) (fun gone => absurd gone unset) inv.joined
      (fun i no => .inl (inv.unmarked_of wins (by rw [here]; rintro _ ⟨⟩) i no)) (by rintro ⟨⟩) rfl rfl
  | halt =>
    rw [here] at place
    have wins : (s.callers u).wins = true := by rw [here]; rfl
    have unset : s.fdSet ≠ .freed := by rw [place.1]; rintro ⟨⟩
    simp only [here] at taken
    cases taken
    exact inv.lead (.returned true) (fun v apart => inv.others_idle wins apart) (by rw [here]; rfl) rfl rfl inv.sound
      (iff_of_false (by rintro ⟨⟩) (by rintro ⟨⟩)) (fun _ => rfl) (fun gone => absurd gone unset) inv.joined
      (fun i no => .inl (inv.unmarked_of wins (by rw [here]; rintro _ ⟨⟩) i no)) (fun _ => place.2) rfl rfl
  | returned done =>
    rw [here] at place
    simp only [here] at taken
    cases taken
    split
    · rename_i mine
      cases done with
      | true =>
        exact inv.plain (by rw [here]; rfl) rfl ⟨place rfl, mine, inv.none_freed mine (by rw [here]; rfl)⟩ (fun _ => rfl)
          (by rintro ⟨⟩)
      | false => exact inv.plain (by rw [here]; rfl) rfl trivial (by rw [here]; rintro ⟨⟩) fun _ => mine
    · exact inv.plain (by rw [here]; rfl) rfl trivial (by rw [here]; rintro ⟨⟩) (by rintro ⟨⟩)
  | freeTest =>
    have mine := inv.freer u (by rw [here]; rfl)
    simp only [here] at taken
    cases taken
    split
    · rename_i halted
      exact inv.plain (by rw [here]; rfl) rfl ⟨halted, mine, inv.none_freed mine (by rw [here]; rfl)⟩ (fun _ => rfl) (by rintro ⟨⟩)
    · exact inv.plain (by rw [here]; rfl) rfl trivial (by rw [here]; rintro ⟨⟩) (by rintro ⟨⟩)
  | freeSleep =>
    simp only [here] at taken
    cases taken
    exact inv.plain (by rw [here]; rfl) rfl trivial (by rw [here]; rintro ⟨⟩) fun _ => inv.freer u (by rw [here]; rfl)
  | freeListener i =>
    rw [here] at place
    simp only [here] at taken
    split at taken
    · rename_i below
      cases taken
      exact inv.freesListener here below
    · cases taken
      exact inv.plain (by rw [here]; rfl) rfl ⟨place.1, place.2.1⟩ (fun _ => rfl) (by rintro ⟨⟩)

/-- A step of a listener. -/
inductive Listens (l : HaltingListener) : LoopAction → HaltingListener → Prop
  | reads : l.phase = .looping → l.inbox ≠ [] → Listens l .read { l with inbox := [], phase := .handling none l.inbox }
  | handles (notify : Option Nat) (slot : Nat) (rest : List Nat) : l.phase = .handling notify (slot :: rest) →
      Listens l .handle { l with freelist := slot :: l.freelist, phase := .handling (some slot) rest }
  | notifies (slot : Nat) : l.phase = .handling (some slot) [] →
      Listens l .notify { l with phase := .notified, pipes := update l.pipes slot (l.pipes slot + 1) }
  | completes : l.phase = .notified → Listens l .complete { l with phase := .complete }
  | exits : l.phase = .complete → Listens l .exit { l with phase := .ended }

theorem listen_cases {i : Nat} {action : LoopAction} (taken : s.listen i action = some t) :
    ∃ l, t = s.setListener i l ∧ Listens (s.listeners i) action l := by
  unfold HaltingBus.listen at taken
  dsimp only at taken
  split at taken
  · rename_i looping
    split at taken
    · cases taken
    · rename_i some
      cases taken
      exact ⟨_, rfl, .reads looping some⟩
  · rename_i notify slot rest handling
    cases taken
    exact ⟨_, rfl, .handles notify slot rest handling⟩
  · rename_i slot handling
    cases taken
    exact ⟨_, rfl, .notifies slot handling⟩
  · rename_i notified
    cases taken
    exact ⟨_, rfl, .completes notified⟩
  · rename_i complete
    cases taken
    exact ⟨_, rfl, .exits complete⟩
  · cases taken

theorem Listens.alive {l l' : HaltingListener} {action : LoopAction} (listens : Listens l action l') : l.phase ≠ .ended := by
  cases listens with
  | reads looping => rw [looping]; rintro ⟨⟩
  | handles notify slot rest handling => rw [handling]; rintro ⟨⟩
  | notifies slot handling => rw [handling]; rintro ⟨⟩
  | completes notified => rw [notified]; rintro ⟨⟩
  | exits complete => rw [complete]; rintro ⟨⟩

/-- A listener goes on, and its thread has not ended before, so that nobody has joined it. -/
theorem HaltingInv.listen_step (inv : HaltingInv n s) {i : Nat} {action : LoopAction}
    (taken : s.listen i action = some t) : HaltingInv n t := by
  obtain ⟨l, rfl, listens⟩ := listen_cases taken
  have alive := listens.alive
  have ended {j : Nat} (gone : (s.listeners j).phase = .ended) : ((s.setListener i l).listeners j).phase = .ended := by
    have apart : j ≠ i := by
      rintro rfl
      exact alive gone
    simpa [HaltingBus.setListener, apart] using gone
  refine ⟨inv.sound, inv.alone, inv.winner, fun v => ?_, inv.set, fun j yes => ?_, inv.unjoined, inv.halted, inv.unfreed, inv.freer⟩
  · have place := inv.places v
    simp only [HaltingBus.setListener]
    cases here : s.callers v with
    | mark j =>
      rw [here] at place
      exact ⟨place.1, place.2.1, place.2.2.1, ended place.2.2.2.1, place.2.2.2.2⟩
    | _ => rw [here] at place; exact place
  · exact ⟨(inv.joined j yes).1, ended (inv.joined j yes).2⟩

theorem HaltingInv.step (inv : HaltingInv n s) {label : HaltingLabel} (once : FreedOnce s label)
    (taken : haltingStep n s label = some t) : HaltingInv n t := by
  cases label with
  | listener i action => exact inv.listen_step taken
  | caller u action =>
    cases action with
    | go ok => exact inv.go_step taken
    | shutdown =>
      simp only [haltingStep] at taken
      split at taken
      · rename_i here
        cases taken
        exact inv.plain (by rw [here]; rfl) rfl trivial (by rw [here]; rintro ⟨⟩) (by rintro ⟨⟩)
      · cases taken
    | free =>
      simp only [haltingStep] at taken
      split at taken
      · rename_i here
        cases taken
        have nobody : s.freer = none := once
        have entered : HaltingInv n { s with freer := some u } := by
          refine ⟨inv.sound, inv.alone, inv.winner, fun v => ?_, inv.set, inv.joined, inv.unjoined, inv.halted, inv.unfreed,
            fun v inside => ?_⟩
          · have place := inv.places v
            cases at_ : s.callers v with
            | freeListener i => rw [at_, HaltingPc.At, nobody] at place; cases place.2.1
            | freed => rw [at_, HaltingPc.At, nobody] at place; cases place.2
            | _ => rw [at_] at place; exact place
          · have mine := inv.freer v inside
            rw [nobody] at mine
            cases mine
        exact entered.plain (by rw [here]; rfl) rfl trivial (by rw [here]; rintro ⟨⟩) fun _ => rfl
      · cases taken

theorem HaltingInv.running : HaltingInv n .running where
  sound := rfl
  alone := by rintro u v ⟨⟩
  winner := iff_of_false (by rintro ⟨⟩) (by rintro ⟨u, ⟨⟩⟩)
  places _ := trivial
  set := by rintro ⟨⟩
  joined := by rintro i ⟨⟩
  unjoined _ _ := .inl rfl
  halted := by rintro ⟨⟩
  unfreed _ _ := rfl
  freer := by rintro u ⟨⟩

/-- The thread of the listener is behind its answer. -/
def ListenerPhase.past : ListenerPhase → Bool
  | .notified | .complete | .ended => true
  | _ => false

/-- The listener that the caller is about to ask, to poll or to join. -/
def HaltingPc.awaits : HaltingPc → Option Nat
  | .push i _ | .poll i _ | .join i | .mark i => some i
  | _ => none

/-- Nobody has asked the listener to end. -/
structure HaltingListener.Undisturbed (l : HaltingListener) : Prop where
  inbox : l.inbox = []
  phase : l.phase = .looping
  pipes : ∀ slot, l.pipes slot = 0

/-- The message in the slot is in the queue, or it is the one that will be answered, or its answer is in the pipe of the slot. -/
inductive HaltingListener.Answers (l : HaltingListener) (slot : Nat) : Prop
  | queued : l.inbox = [slot] → l.phase = .looping → (∀ slot, l.pipes slot = 0) → Answers l slot
  | handled (notify : Option Nat) (batch : List Nat) : l.phase = .handling notify batch →
      notify = none ∧ batch = [slot] ∨ notify = some slot ∧ batch = [] → (∀ slot, l.pipes slot = 0) → Answers l slot
  | answered : l.phase.past = true → 0 < l.pipes slot → Answers l slot

/-- What is known of the listener that a caller is about to ask, to poll or to join. -/
def HaltingPc.Sees (listeners : Nat → HaltingListener) : HaltingPc → Prop
  | .push i _ => (listeners i).Undisturbed
  | .poll i slot => (listeners i).Answers slot
  | .join i => (listeners i).phase.past = true
  | _ => True

/-- What holds besides as long as no call has failed: a listener that nobody waits for is undisturbed, or joined. -/
structure AnswerInv (s : HaltingBus) : Prop where
  undisturbed : ∀ i, s.joined i = false → (∀ u, (s.callers u).awaits ≠ some i) → (s.listeners i).Undisturbed
  sees : ∀ u, (s.callers u).Sees s.listeners

theorem HaltingPc.sees_of_awaits {pc : HaltingPc} {listeners : Nat → HaltingListener} (none : pc.awaits = none) :
    pc.Sees listeners := by
  cases pc with
  | push | poll | join => cases none
  | _ => trivial

theorem HaltingPc.awaits_of_idle {pc : HaltingPc} (idle : pc.idle = true) : pc.awaits = none := by
  cases pc <;> first | rfl | cases idle

/-- A step of a caller that waits for no listener before it or after it. -/
theorem AnswerInv.plain {pc : HaltingPc} (inv : AnswerInv s) (before : (s.callers u).awaits = none) (after : pc.awaits = none)
    (callers : t.callers = update s.callers u pc) (listeners : t.listeners = s.listeners) (joined : t.joined = s.joined) :
    AnswerInv t := by
  have own : t.callers u = pc := by rw [callers, update_self]
  have other {v : Nat} (apart : v ≠ u) : t.callers v = s.callers v := by rw [callers, update_of_ne apart]
  have awaits (v : Nat) : (t.callers v).awaits = (s.callers v).awaits := by
    by_cases apart : v = u
    · rw [apart, own, after, before]
    · rw [other apart]
  refine ⟨fun i no alone => ?_, fun v => ?_⟩
  · rw [listeners]
    exact inv.undisturbed i (joined ▸ no) fun v => awaits v ▸ alone v
  · by_cases apart : v = u
    · rw [apart, own]
      exact HaltingPc.sees_of_awaits after
    · rw [other apart, listeners]
      exact inv.sees v

/-- A step of the winner to a listener that it waits for. -/
theorem AnswerInv.wait {pc : HaltingPc} (inv : AnswerInv s) {i : Nat} (others : ∀ v ≠ u, (s.callers v).idle = true)
    (before : ∀ j, (s.callers u).awaits = some j → j = i ∨ t.joined j = true) (after : pc.awaits = some i ∨ t.joined i = true)
    (callers : t.callers = update s.callers u pc) (apart : ∀ j ≠ i, t.listeners j = s.listeners j)
    (joined : ∀ j ≠ i, t.joined j = s.joined j) (sees : pc.Sees t.listeners) : AnswerInv t := by
  have own : t.callers u = pc := by rw [callers, update_self]
  have other {v : Nat} (distinct : v ≠ u) : t.callers v = s.callers v := by rw [callers, update_of_ne distinct]
  refine ⟨fun j no alone => ?_, fun v => ?_⟩
  · have distinct : j ≠ i := by
      rintro rfl
      rcases after with waits | done
      · exact alone u (by rw [own]; exact waits)
      · rw [done] at no
        cases no
    rw [apart j distinct]
    refine inv.undisturbed j (joined j distinct ▸ no) fun v waits => ?_
    by_cases same : v = u
    · rw [same] at waits
      rcases before j waits with equal | done
      · exact distinct equal
      · rw [done] at no
        cases no
    · rw [HaltingPc.awaits_of_idle (others v same)] at waits
      cases waits
  · by_cases same : v = u
    · rw [same, own]
      exact sees
    · rw [other same]
      exact HaltingPc.sees_of_awaits (HaltingPc.awaits_of_idle (others v same))

/-- The listeners that a caller does not touch are as they were, and the one that it works on is as it leaves it. -/
theorem setListener_other {pc : HaltingPc} {i j : Nat} {l : HaltingListener} (apart : j ≠ i) :
    ((s.at u pc).setListener i l).listeners j = s.listeners j := update_of_ne apart _ _

theorem setListener_own {pc : HaltingPc} {i : Nat} {l : HaltingListener} :
    ((s.at u pc).setListener i l).listeners i = l := update_self ..

theorem AnswerInv.go_step (closing : HaltingInv n s) (inv : AnswerInv s) (taken : s.go n u true = some t) : AnswerInv t := by
  have place := closing.places u
  have sees := inv.sees u
  unfold HaltingBus.go at taken
  cases here : s.callers u with
  | outside | freed => simp only [here] at taken; cases taken
  | load | test | freeTest | returned =>
    simp only [here] at taken
    cases taken
    exact inv.plain (by rw [here]; rfl) (by split <;> first | rfl | (split <;> rfl)) rfl rfl rfl
  | swap | freeListener =>
    simp only [here] at taken
    split at taken <;> cases taken <;> exact inv.plain (by rw [here]; rfl) rfl rfl rfl rfl
  | clear | reset | halt | freeSleep =>
    simp only [here] at taken
    cases taken
    exact inv.plain (by rw [here]; rfl) rfl rfl rfl rfl
  | yachtFree =>
    cases set : s.fdSet <;> simp only [here, set] at taken <;> cases taken <;>
      exact inv.plain (by rw [here]; rfl) rfl rfl rfl rfl
  | take i =>
    rw [here] at place
    have others (v : Nat) (apart : v ≠ u) := closing.others_idle (by rw [here]; rfl) apart
    simp only [here] at taken
    split at taken
    · cases taken
      exact inv.plain (by rw [here]; rfl) rfl rfl rfl rfl
    · rename_i slot rest _
      cases taken
      have fresh : (s.listeners i).Undisturbed := by
        refine inv.undisturbed i place.2.2.1 fun v waits => ?_
        by_cases apart : v = u
        · rw [apart, here] at waits
          cases waits
        · rw [HaltingPc.awaits_of_idle (others v apart)] at waits
          cases waits
      refine inv.wait (i := i) others (by rw [here]; rintro j ⟨⟩) (.inl rfl) rfl (fun j => setListener_other) (fun _ _ => rfl) ?_
      rw [HaltingPc.Sees, setListener_own]
      exact ⟨fresh.inbox, fresh.phase, fresh.pipes⟩
  | push i slot =>
    rw [here] at sees
    have others (v : Nat) (apart : v ≠ u) := closing.others_idle (by rw [here]; rfl) apart
    simp only [here, if_true] at taken
    cases taken
    refine inv.wait (i := i) others (by rw [here]; rintro j ⟨⟩; exact .inl rfl) (.inl rfl) rfl (fun j => setListener_other)
      (fun _ _ => rfl) ?_
    rw [HaltingPc.Sees, setListener_own]
    exact .queued (by rw [sees.inbox]; rfl) sees.phase sees.pipes
  | poll i slot =>
    rw [here] at sees
    have others (v : Nat) (apart : v ≠ u) := closing.others_idle (by rw [here]; rfl) apart
    simp only [here, if_true] at taken
    split at taken
    · rename_i reply
      cases taken
      refine inv.wait (i := i) others (by rw [here]; rintro j ⟨⟩; exact .inl rfl) (.inl rfl) rfl (fun j => setListener_other)
        (fun _ _ => rfl) ?_
      rw [HaltingPc.Sees, setListener_own]
      cases sees with
      | queued _ _ empty => rw [empty] at reply; cases reply
      | handled _ _ _ _ empty => rw [empty] at reply; cases reply
      | answered past => exact past
    · cases taken
  | join i =>
    have others (v : Nat) (apart : v ≠ u) := closing.others_idle (by rw [here]; rfl) apart
    simp only [here, if_true] at taken
    split at taken
    · cases taken
      exact inv.wait (i := i) others (by rw [here]; rintro j ⟨⟩; exact .inl rfl) (.inl rfl) rfl (fun _ _ => rfl) (fun _ _ => rfl)
        trivial
    · cases taken
  | mark i =>
    have others (v : Nat) (apart : v ≠ u) := closing.others_idle (by rw [here]; rfl) apart
    simp only [here] at taken
    cases taken
    exact inv.wait (i := i) others (by rw [here]; rintro j ⟨⟩; exact .inl rfl) (.inr (by simp)) rfl (fun _ _ => rfl)
      (fun j apart => by simp [apart]) trivial

/-- A listener that nobody has asked does nothing. -/
theorem HaltingListener.Undisturbed.still {l l' : HaltingListener} {action : LoopAction} (fresh : l.Undisturbed)
    (listens : Listens l action l') : False := by
  have looping := fresh.phase
  cases listens with
  | reads _ some => exact some fresh.inbox
  | handles notify slot rest handling => rw [handling] at looping; cases looping
  | notifies slot handling => rw [handling] at looping; cases looping
  | completes notified => rw [notified] at looping; cases looping
  | exits complete => rw [complete] at looping; cases looping

/-- A listener that has answered goes on to its end, and answers nobody else. -/
theorem Listens.past {l l' : HaltingListener} {action : LoopAction} (listens : Listens l action l') (past : l.phase.past = true) :
    l'.phase.past = true ∧ l'.pipes = l.pipes := by
  cases listens with
  | reads looping => rw [looping] at past; cases past
  | handles notify slot rest handling => rw [handling] at past; cases past
  | notifies slot handling => rw [handling] at past; cases past
  | completes notified => exact ⟨rfl, rfl⟩
  | exits complete => exact ⟨rfl, rfl⟩

/-- A message goes from the queue to its answer. -/
theorem HaltingListener.Answers.step {l l' : HaltingListener} {action : LoopAction} {slot : Nat} (answers : l.Answers slot)
    (listens : Listens l action l') : l'.Answers slot := by
  cases answers with
  | queued inbox looping empty =>
    cases listens with
    | reads => exact .handled none l.inbox rfl (.inl ⟨rfl, inbox⟩) empty
    | handles notify slot' rest handling => rw [handling] at looping; cases looping
    | notifies slot' handling => rw [handling] at looping; cases looping
    | completes notified => rw [notified] at looping; cases looping
    | exits complete => rw [complete] at looping; cases looping
  | handled notify batch here which empty =>
    cases listens with
    | reads looping => rw [looping] at here; cases here
    | handles notify' slot' rest handling =>
      rw [handling] at here
      cases here
      rcases which with ⟨rfl, single⟩ | ⟨_, none⟩
      · cases single
        exact .handled (some slot) [] rfl (.inr ⟨rfl, rfl⟩) empty
      · cases none
    | notifies slot' handling =>
      rw [handling] at here
      cases here
      rcases which with ⟨none, _⟩ | ⟨same, _⟩
      · cases none
      · cases same
        exact .answered rfl (by simp)
    | completes notified => rw [notified] at here; cases here
    | exits complete => rw [complete] at here; cases here
  | answered past reply =>
    obtain ⟨still, same⟩ := listens.past past
    exact .answered still (by rw [same]; exact reply)

theorem AnswerInv.listen_step (inv : AnswerInv s) {i : Nat} {action : LoopAction} (taken : s.listen i action = some t) :
    AnswerInv t := by
  obtain ⟨l, rfl, listens⟩ := listen_cases taken
  have other {j : Nat} (apart : j ≠ i) : (s.setListener i l).listeners j = s.listeners j := update_of_ne apart _ _
  have own : (s.setListener i l).listeners i = l := update_self ..
  refine ⟨fun j no alone => ?_, fun v => ?_⟩
  · have still := inv.undisturbed j no alone
    by_cases same : j = i
    · rw [same] at still
      exact (still.still listens).elim
    · rw [other same]
      exact still
  · have sees := inv.sees v
    show (s.callers v).Sees (s.setListener i l).listeners
    cases here : s.callers v with
    | push j slot =>
      rw [here] at sees
      by_cases same : j = i
      · rw [same] at sees
        exact (sees.still listens).elim
      · rw [HaltingPc.Sees, other same]
        exact sees
    | poll j slot =>
      rw [here] at sees
      by_cases same : j = i
      · rw [same] at sees ⊢
        rw [HaltingPc.Sees, own]
        exact HaltingListener.Answers.step sees listens
      · rw [HaltingPc.Sees, other same]
        exact sees
    | join j =>
      rw [here] at sees
      by_cases same : j = i
      · rw [same] at sees ⊢
        rw [HaltingPc.Sees, own]
        exact (listens.past sees).1
      · rw [HaltingPc.Sees, other same]
        exact sees
    | _ => trivial

theorem AnswerInv.running : AnswerInv .running where
  undisturbed _ _ _ := ⟨rfl, rfl, fun _ => rfl⟩
  sees _ := trivial

theorem AnswerInv.step (closing : HaltingInv n s) (inv : AnswerInv s) {label : HaltingLabel} (unfailing : Unfailing s label)
    (taken : haltingStep n s label = some t) : AnswerInv t := by
  cases label with
  | listener i action => exact inv.listen_step taken
  | caller u action =>
    cases action with
    | go ok =>
      cases ok with
      | true => exact inv.go_step closing taken
      | false => exact absurd rfl (unfailing.2 u)
    | shutdown | free =>
      simp only [haltingStep] at taken
      split at taken
      · rename_i here
        cases taken
        exact inv.plain (by rw [here]; rfl) rfl rfl rfl rfl
      · cases taken

/-- The caller can go on without a failure, or some listener can. -/
def HaltingBus.Going (n : Nat) (s : HaltingBus) (u : Nat) : Prop :=
  (s.go n u true).isSome = true ∨ ∃ i action, (s.listen i action).isSome = true

theorem AnswerInv.going (inv : AnswerInv s) (inside : s.callers u ≠ .outside) (unfreed : s.callers u ≠ .freed) :
    s.Going n u := by
  have sees := inv.sees u
  unfold HaltingBus.Going HaltingBus.go
  cases here : s.callers u with
  | outside => exact absurd here inside
  | freed => exact absurd here unfreed
  | poll i slot =>
    rw [here] at sees
    cases sees with
    | queued inbox looping => exact .inr ⟨i, .read, by simp [HaltingBus.listen, looping, inbox]⟩
    | handled notify batch handling which =>
      rcases which with ⟨rfl, rfl⟩ | ⟨rfl, rfl⟩
      · exact .inr ⟨i, .handle, by simp [HaltingBus.listen, handling]⟩
      · exact .inr ⟨i, .notify, by simp [HaltingBus.listen, handling]⟩
    | answered _ reply => exact .inl (by simp [reply])
  | join i =>
    rw [here] at sees
    cases phase : (s.listeners i).phase with
    | looping | handling => rw [HaltingPc.Sees, phase] at sees; cases sees
    | notified => exact .inr ⟨i, .complete, by simp [HaltingBus.listen, phase]⟩
    | complete => exact .inr ⟨i, .exit, by simp [HaltingBus.listen, phase]⟩
    | ended => exact .inl (by simp [phase])
  | yachtFree => exact .inl (by cases s.fdSet <;> rfl)
  | take i => exact .inl (by dsimp only; split <;> rfl)
  | load | swap | clear | test | push | mark | reset | halt | returned | freeTest | freeSleep =>
    exact .inl (by simp)
  | freeListener i => exact .inl (by dsimp only; split <;> rfl)

/-- A caller that polls a pipe without an answer, of a listener that has left its loop. -/
def Abandoned (i slot u : Nat) (s : HaltingBus) : Prop :=
  s.callers u = .poll i slot ∧ (s.listeners i).phase.past = true ∧ (s.listeners i).pipes slot = 0

theorem Abandoned.listen {i slot j : Nat} {action : LoopAction} (lost : Abandoned i slot u s)
    (taken : s.listen j action = some t) : Abandoned i slot u t := by
  obtain ⟨polls, past, empty⟩ := lost
  obtain ⟨l, rfl, listens⟩ := listen_cases taken
  refine ⟨polls, ?_⟩
  by_cases same : i = j
  · subst same
    obtain ⟨still, pipes⟩ := listens.past past
    simp only [HaltingBus.setListener, update_self]
    exact ⟨still, by rw [pipes]; exact empty⟩
  · simp only [HaltingBus.setListener, update_of_ne same]
    exact ⟨past, empty⟩

/-- A caller goes on by itself. It leaves the threads of the listeners where they are, and puts no answer in a pipe. -/
theorem go_frame {ok : Bool} (taken : s.go n u ok = some t) :
    (∃ pc, t.callers = update s.callers u pc) ∧
      ∀ i, (t.listeners i).phase = (s.listeners i).phase ∧ ∀ slot, (t.listeners i).pipes slot ≤ (s.listeners i).pipes slot := by
  have works {pc : HaltingPc} {i : Nat} {l : HaltingListener} (phase : l.phase = (s.listeners i).phase)
      (fewer : ∀ slot, l.pipes slot ≤ (s.listeners i).pipes slot) (j : Nat) :
      (((s.at u pc).setListener i l).listeners j).phase = (s.listeners j).phase ∧
        ∀ slot, (((s.at u pc).setListener i l).listeners j).pipes slot ≤ (s.listeners j).pipes slot := by
    refine ⟨setListener_phase phase j, fun slot => ?_⟩
    by_cases same : j = i
    · rw [same, setListener_own]
      exact fewer slot
    · exact Nat.le_of_eq (by rw [setListener_other same])
  have same (i : Nat) : (s.listeners i).phase = (s.listeners i).phase ∧
      ∀ slot, (s.listeners i).pipes slot ≤ (s.listeners i).pipes slot := ⟨rfl, fun _ => Nat.le_refl _⟩
  unfold HaltingBus.go at taken
  cases here : s.callers u with
  | outside | freed => simp only [here] at taken; cases taken
  | load | clear | test | mark | reset | halt | returned | freeTest | freeSleep =>
    simp only [here] at taken
    cases taken
    exact ⟨⟨_, rfl⟩, same⟩
  | swap | freeListener =>
    simp only [here] at taken
    split at taken <;> cases taken <;> exact ⟨⟨_, rfl⟩, same⟩
  | yachtFree =>
    cases set : s.fdSet <;> simp only [here, set] at taken <;> cases taken <;> exact ⟨⟨_, rfl⟩, same⟩
  | take i =>
    simp only [here] at taken
    split at taken
    · cases taken
      exact ⟨⟨_, rfl⟩, same⟩
    · cases taken
      exact ⟨⟨_, rfl⟩, works rfl fun _ => Nat.le_refl _⟩
  | push i slot =>
    simp only [here] at taken
    split at taken <;> cases taken <;> exact ⟨⟨_, rfl⟩, works rfl fun _ => Nat.le_refl _⟩
  | poll i slot =>
    simp only [here] at taken
    split at taken
    · split at taken
      · cases taken
        refine ⟨⟨_, rfl⟩, works rfl fun slot' => ?_⟩
        simp only [Function.update_apply]
        split
        · rename_i at_
          rw [at_]
          exact Nat.sub_le _ _
        · exact Nat.le_refl _
      · cases taken
    · cases taken
      exact ⟨⟨_, rfl⟩, same⟩
  | join =>
    simp only [here] at taken
    split at taken
    · split at taken
      · cases taken
        exact ⟨⟨_, rfl⟩, same⟩
      · cases taken
    · cases taken
      exact ⟨⟨_, rfl⟩, same⟩

/-- Nothing that others do is of help, nor anything that the caller does without a failure. -/
theorem Abandoned.step {i slot : Nat} {label : HaltingLabel} (lost : Abandoned i slot u s)
    (unfailing : label ≠ .caller u (.go false)) (taken : haltingStep n s label = some t) : Abandoned i slot u t := by
  obtain ⟨polls, past, empty⟩ := lost
  have waits {v : Nat} (move : s.callers v = .outside ∨ v ≠ u) : v ≠ u := by
    rintro rfl
    rcases move with outside | apart
    · rw [polls] at outside
      cases outside
    · exact apart rfl
  cases label with
  | listener j action => exact .listen ⟨polls, past, empty⟩ taken
  | caller v action =>
    cases action with
    | shutdown | free =>
      simp only [haltingStep] at taken
      split at taken
      · rename_i outside
        cases taken
        refine ⟨?_, past, empty⟩
        simp only [HaltingBus.at, update_of_ne (waits (.inl outside)).symm]
        exact polls
      · cases taken
    | go ok =>
      by_cases same : v = u
      · subst same
        cases ok with
        | false => exact absurd rfl unfailing
        | true => simp [haltingStep, HaltingBus.go, polls, empty] at taken
      · obtain ⟨⟨pc, callers⟩, kept⟩ := go_frame taken
        refine ⟨?_, (kept i).1 ▸ past, Nat.le_zero.mp (empty ▸ (kept i).2 slot)⟩
        rw [callers, update_of_ne (Ne.symm same)]
        exact polls

/-- What holds of a bus that is shut down by any number of threads. Nothing is freed or joined again, one thread shuts it down
at a time, a call that returns `true` has halted the bus, and then the threads of all listeners have ended and been joined. -/
structure HaltingFacts (n : Nat) (s : HaltingBus) : Prop where
  safe : s.fault = false
  alone : ∀ u v, (s.callers u).wins = true → (s.callers v).wins = true → u = v
  once : ∀ i, s.joins i ≤ 1
  returned : ∀ u, s.callers u = .returned true → s.state = .halted
  halted : s.state = .halted → ∀ i < n, s.joins i = 1 ∧ (s.listeners i).phase = .ended

theorem HaltingInv.facts (inv : HaltingInv n s) : HaltingFacts n s where
  safe := inv.sound
  alone := inv.alone
  once i := by
    cases joined : s.joined i with
    | true => exact Nat.le_of_eq (inv.joined i joined).1
    | false =>
      rcases inv.unjoined i joined with none | ⟨u, marks⟩
      · omega
      · have place := inv.places u
        rw [marks] at place
        exact Nat.le_of_eq place.2.2.1
  returned u done := by
    have place := inv.places u
    rw [done] at place
    exact place rfl
  halted halted i below := inv.joined i (inv.halted halted i below)

/-- In all runs of any number of threads in `Bus_Shutdown` and one in `Bus_Free`: the facts hold, whatever fails. While nothing
fails, no caller is stuck. But once a listener has left its loop, a caller that has no answer in the pipe of its slot polls for
ever. -/
theorem busShutdown_safe (reach : Reach (haltingStep n) .running FreedOnce s) :
    HaltingFacts n s ∧
      (Reach (haltingStep n) .running Unfailing s →
        ∀ u, s.callers u ≠ .outside → s.callers u ≠ .freed → s.Going n u) ∧
      ∀ u i slot, Abandoned i slot u s → ∀ t, Reach (haltingStep n) s (fun _ label => label ≠ .caller u (.go false)) t →
        t.callers u = .poll i slot := by
  refine ⟨(reach.invariant .running fun _ _ _ inv once taken => inv.step once taken : HaltingInv n s).facts,
    fun unfailing u inside unfreed => ?_, fun u i slot lost t later => ?_⟩
  · have keep (s t : HaltingBus) (label : HaltingLabel) (inv : HaltingInv n s ∧ AnswerInv s) (ok : Unfailing s label)
        (taken : haltingStep n s label = some t) : HaltingInv n t ∧ AnswerInv t :=
      ⟨inv.1.step ok.1 taken, inv.2.step inv.1 ok taken⟩
    have inv := unfailing.invariant ⟨HaltingInv.running, AnswerInv.running⟩ fun s l t => keep s t l
    exact inv.2.going inside unfreed
  · have still : Abandoned i slot u t := later.invariant lost fun _ _ _ lost unfailing taken => lost.step unfailing taken
    exact still.1

/-- The poll of the first thread fails. The listener has read its message, but not given back its slot, when the thread in
`Bus_Free` asks again, so that the second message gets a slot of its own and is not read any more. -/
def secondAttempt : List HaltingLabel :=
  .caller 0 .shutdown :: List.replicate 7 (.caller 0 (.go true)) ++ [.caller 0 (.go false), .caller 0 (.go true),
    .listener 0 .read, .caller 1 .free] ++ List.replicate 7 (.caller 1 (.go true)) ++
    [.listener 0 .handle, .listener 0 .notify, .listener 0 .complete, .listener 0 .exit]

theorem busShutdown_safe_second : ∃ s, s.state = .shuttingDown ∧ HaltingFacts 1 s ∧
    ∀ t, Reach (haltingStep 1) s (fun _ label => label ≠ .caller 1 (.go false)) t → t.callers 1 = .poll 0 30 := by
  have trace : (exec (haltingStep 1) (fun s label => decide (FreedOnce s label)) .running secondAttempt).map
      (fun s => (s.state, s.callers 1, (s.listeners 0).phase, (s.listeners 0).pipes 30)) =
        some (.shuttingDown, .poll 0 30, .ended, 0) := by decide +kernel
  obtain ⟨s, reach, seen⟩ := exists_reach_of_exec trace
  simp only [Prod.mk.injEq] at seen
  obtain ⟨state, polls, ended, empty⟩ := seen
  have safe := busShutdown_safe reach
  exact ⟨s, state, safe.1, safe.2.2 1 0 30 ⟨polls, by rw [ended]; rfl, empty⟩⟩

end Safety

end Kinetic
