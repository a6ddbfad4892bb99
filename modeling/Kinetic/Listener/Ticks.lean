import Kinetic.Lib.Transition
import Kinetic.Listener.RxAssertions

namespace Kinetic

/-- What `tick_handler` meets outside of the listener: for each cell whether its clock can be read and whether the pool
takes its box, and for each socket whether it is tracked and there is an `unexpected_msg_cb` to call. -/
structure TickEnv where
  clock : Nat → Bool
  accepted : Nat → Bool
  handled : Int → Bool

/-- The loop of `tick_handler`: the table and the boxes, the cells it found in use, and what it passed to
`unexpected_msg_cb`. `any_work` is whether a cell was found in use. -/
structure Tick where
  rx : RxTable
  heap : Heap
  worked : List Nat
  unexpected : List UnpackRes

/-- What `ListenerTask_ReleaseRXInfo` passes to `unexpected_msg_cb`. -/
def RxInfoState.unexpected (handled : Int → Bool) : RxInfoState → List UnpackRes
  | .hold fd _ true result _ => if result.ok ∧ handled fd then [result] else []
  | _ => []

/-- One round of the loop of `tick_handler`. -/
def Tick.visit (env : TickEnv) (k : Tick) (i : Nat) : Option Tick := do
  let info := k.rx.rxInfo i
  let (rx, heap) ← tickCell (env.clock i) (env.accepted i) k.rx k.heap i
  some {
    rx := rx
    heap := heap
    worked := if info.state = .inactive then k.worked else k.worked ++ [i]
    unexpected :=
      if info.timeoutSec = 1 ∧ env.clock i then k.unexpected ++ info.state.unexpected env.handled else k.unexpected }

/-- The loop of `tick_handler` from the cell `i` on, for at most `n` rounds. -/
def tickFrom (env : TickEnv) : Nat → Nat → Tick → Option Tick
  | 0, _, k => some k
  | n + 1, i, k =>
    if i ≤ k.rx.rxInfoMaxUsed then do
      let k ← k.visit env i
      tickFrom env n (i + 1) k
    else some k

/-- `tick_handler`, up to its test of `any_work`. No round of its loop raises `rx_info_max_used`, so these are enough. -/
def tickHandler (env : TickEnv) (t : RxTable) (h : Heap) : Option Tick :=
  tickFrom env (t.rxInfoMaxUsed + 1) 0 ⟨t, h, [], []⟩

/-- The part of a listener that is about requests. `expected` has the boxes it was sent in `EXPECT` commands, and
`unexpected` what it passed to `unexpected_msg_cb`. -/
structure RxListener where
  rx : RxTable
  heap : Heap
  isIdle : Bool
  expected : List Nat
  unexpected : List UnpackRes

def RxListener.new : RxListener :=
  { rx := .new
    heap := { boxes := fun _ => ⟨⟨[], 0, 0⟩, .undefined, 0, 0, 0, false, 0⟩, scheduled := [] }
    isIdle := false
    expected := []
    unexpected := [] }

/-- What a listener is given to do. An `EXPECT` comes with the box as the client left it, and `command` is any command that
is not about a request. -/
inductive RxAction
  | hold (fd seqId timeoutSec : Int)
  | expect (b : Nat) (box : BoxedMsg) (accepted : Bool)
  | command
  | tick (env : TickEnv)
  | recv (fd : Int) (result : UnpackRes) (accepted handled : Bool)
  | error (fd : Int) (err : RxError)

/-- `msg_handler` for the command, `tick_handler`, `process_unpacked_message` or `set_error_for_socket`. -/
def rxStep (s : RxListener) : RxAction → Option RxListener
  | .hold fd seqId timeoutSec => do
    let rx ← holdResponse s.rx fd seqId timeoutSec
    some { s with rx := rx, isIdle := false }
  | .expect b box accepted => do
    let (rx, heap) ← expectResponse accepted s.rx (s.heap.setBox b box) b
    some { s with rx := rx, heap := heap, isIdle := false, expected := b :: s.expected }
  | .command => some { s with isIdle := false }
  | .tick env => do
    let k ← tickHandler env s.rx s.heap
    some { s with
      rx := k.rx
      heap := k.heap
      isIdle := if k.worked = [] then true else s.isIdle
      unexpected := s.unexpected ++ k.unexpected }
  | .recv fd result accepted handled => do
    let (rx, heap) ← processUnpackedMessage accepted s.rx s.heap fd result
    let unmatched := result.ok ∧ findInfoBySequenceId s.rx s.heap.boxes fd result.seqId = none
    some { s with
      rx := rx, heap := heap, unexpected := if unmatched ∧ handled then s.unexpected ++ [result] else s.unexpected }
  | .error fd err => some { s with rx := s.rx.setErrorForSocket s.heap.boxes fd err }

/-- A box is sent in one `EXPECT`, and the error of a socket is below zero. -/
def RxAction.Proper (s : RxListener) : RxAction → Prop
  | .expect b _ _ => b ∉ s.expected
  | .error _ err => err.negative = true
  | _ => True

instance RxAction.decidableProper (s : RxListener) : (a : RxAction) → Decidable (a.Proper s)
  | .expect b _ _ => inferInstanceAs (Decidable (b ∉ s.expected))
  | .error _ err => inferInstanceAs (Decidable (err.negative = true))
  | .hold .. => .isTrue trivial
  | .command => .isTrue trivial
  | .tick _ => .isTrue trivial
  | .recv .. => .isTrue trivial

section Loop
variable {env : TickEnv} {k k' : Tick} {i n : Nat}

theorem Tick.visit_cases (run : k.visit env i = some k') :
    tickCell (env.clock i) (env.accepted i) k.rx k.heap i = some (k'.rx, k'.heap) ∧
      k'.worked = (if k.rx.state i = .inactive then k.worked else k.worked ++ [i]) ∧
      k'.unexpected = if (k.rx.rxInfo i).timeoutSec = 1 ∧ env.clock i then
        k.unexpected ++ (k.rx.state i).unexpected env.handled else k.unexpected := by
  obtain ⟨⟨rx, heap⟩, ticked, run⟩ := Option.bind_eq_some_iff.mp run
  cases run
  exact ⟨ticked, rfl, rfl⟩

/-- What every round of the loop keeps is kept by the loop. -/
theorem tickFrom_keeps {P : Tick → Prop} (run : tickFrom env n i k = some k') (before : P k)
    (visit : ∀ k k' i, P k → k.visit env i = some k' → P k') : P k' := by
  induction n generalizing i k with
  | zero =>
    cases run
    exact before
  | succ n ih =>
    unfold tickFrom at run
    split at run
    · obtain ⟨next, visited, run⟩ := Option.bind_eq_some_iff.mp run
      exact ih run (visit k next i before visited)
    · cases run
      exact before

/-- The loop is at work on each cell in use once, in the order of the cells, whatever it releases on the way. -/
theorem tickFrom_worked (run : tickFrom env n i k = some k') (shaped : k.rx.Shaped) :
    k'.worked = k.worked ++ (List.range' i n).filter fun j => k.rx.state j ≠ .inactive := by
  induction n generalizing i k with
  | zero =>
    cases run
    simp
  | succ n ih =>
    unfold tickFrom at run
    split at run
    · obtain ⟨next, visited, run⟩ := Option.bind_eq_some_iff.mp run
      obtain ⟨ticked, worked, _⟩ := Tick.visit_cases visited
      have change := tickCell_change ticked
      have later := ih run (change.shaped shaped)
      have same : ((List.range' (i + 1) n).filter fun j => next.rx.state j ≠ .inactive) =
          (List.range' (i + 1) n).filter fun j => k.rx.state j ≠ .inactive := by
        refine List.filter_congr fun j member => ?_
        have above := (List.mem_range'_1.mp member).1
        rw [RxTable.state, change.others (by omega : j ≠ i), RxTable.state]
      rw [later, same, worked, List.range'_succ, List.filter_cons]
      by_cases inactive : k.rx.state i = .inactive
      · simp [inactive]
      · simp [inactive]
    · rename_i beyond
      have none_left : ((List.range' i (n + 1)).filter fun j => k.rx.state j ≠ .inactive) = [] := by
        refine List.filter_eq_nil_iff.mpr fun j member active => ?_
        have below := shaped.covered j (of_decide_eq_true active)
        have above := (List.mem_range'_1.mp member).1
        omega
      cases run
      rw [none_left, List.append_nil]

theorem tickHandler_worked {t : RxTable} {h : Heap} (run : tickHandler env t h = some k) (shaped : t.Shaped) :
    k.worked = (List.range (t.rxInfoMaxUsed + 1)).filter fun j => t.state j ≠ .inactive := by
  have worked := tickFrom_worked run shaped
  rwa [List.nil_append, ← List.range_eq_range'] at worked

theorem tickHandler_worked_iff {t : RxTable} {h : Heap} (run : tickHandler env t h = some k) (shaped : t.Shaped) (j : Nat) :
    j ∈ k.worked ↔ t.state j ≠ .inactive := by
  rw [tickHandler_worked run shaped, List.mem_filter, List.mem_range, decide_eq_true_eq]
  constructor
  · exact fun both => both.2
  · intro active
    have below := shaped.covered j active
    exact ⟨by omega, active⟩

/-- The loop goes through the steps of a listener that is in its tick, and ends by the test of its own. -/
theorem tickFrom_listener {l : Listener} (conns : Connections) (run : tickFrom env n i k = some k')
    (ticking : l.pc = .tick i) (same : l.rx = k.rx) (enough : k.rx.rxInfoMaxUsed < i + n) :
    ∃ labels, Transition.exec (fun (s : Listener × Heap × Connections) a => listenerStep s.1 s.2.1 s.2.2 a)
      (fun _ _ => true) (l, k.heap, conns) labels = some ({ l with rx := k'.rx, pc := .loop }, k'.heap, conns) := by
  have leaves {i : Nat} {l : Listener} (beyond : ¬ i ≤ k'.rx.rxInfoMaxUsed) (same : l.rx = k'.rx)
      (ticking : l.pc = .tick i) :
      Transition.exec (fun (s : Listener × Heap × Connections) a => listenerStep s.1 s.2.1 s.2.2 a)
        (fun _ _ => true) (l, k'.heap, conns) [.tickCell true true] =
          some ({ l with rx := k'.rx, pc := .loop }, k'.heap, conns) := by
    simp [Transition.exec, listenerStep, ticking, same, beyond]
  induction n generalizing i k l with
  | zero =>
    cases run
    exact ⟨_, leaves (by omega) same ticking⟩
  | succ n ih =>
    unfold tickFrom at run
    split at run
    · rename_i inside
      obtain ⟨next, visited, run⟩ := Option.bind_eq_some_iff.mp run
      have ticked := (Tick.visit_cases visited).1
      have lowered := (tickCell_change ticked).maxUsed_le
      rw [← same] at inside ticked
      obtain ⟨labels, later⟩ := ih (l := { l with rx := next.rx, pc := .tick (i + 1) }) run rfl rfl (by omega)
      refine ⟨.tickCell (env.clock i) (env.accepted i) :: labels, ?_⟩
      simpa [Transition.exec, listenerStep, ticking, inside, ticked] using later
    · rename_i beyond
      cases run
      exact ⟨_, leaves beyond same ticking⟩

/-- A tick is one of the ticks of a listener in its main loop. -/
theorem tickHandler_listener {l : Listener} {h : Heap} {conns : Connections} (run : tickHandler env l.rx h = some k)
    (atLoop : l.pc = .loop) (open_ : l.shutdownNotify = .noFd) :
    ∃ labels, Transition.exec (fun (s : Listener × Heap × Connections) a => listenerStep s.1 s.2.1 s.2.2 a)
      (fun _ _ => true) (l, h, conns) (.tick :: labels) = some ({ l with rx := k.rx }, k.heap, conns) := by
  obtain ⟨labels, later⟩ := tickFrom_listener (l := { l with pc := .tick 0 }) conns run rfl rfl
    (by simp)
  refine ⟨labels, ?_⟩
  simpa [Transition.exec, listenerStep, atLoop, open_] using later

end Loop

end Kinetic
