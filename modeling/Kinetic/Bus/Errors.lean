import Kinetic.Bus.Responses

namespace Kinetic
open Function (update)
open Transition (Reach watch exec exists_reach_of_exec)

/-- The record of the sockets that have had an error. -/
def noteErrors (s : BusState) (label : BusLabel) (errored : List Int) : List Int :=
  match s.rxEvent label with
  | .error fd _ => fd :: errored
  | _ => errored

theorem mem_noteErrors (s : BusState) (label : BusLabel) {errored : List Int} {fd : Int} (member : fd ∈ errored) :
    fd ∈ noteErrors s label errored := by
  unfold noteErrors
  split
  · exact List.mem_cons_of_mem _ member
  · exact member

/-- The error in a cell. -/
def RxInfoState.error : RxInfoState → Option RxError
  | .inactive => none
  | .hold _ _ _ _ error => some error
  | .expect _ error _ _ => some error

/-- The socket that the request of a cell was sent on. -/
def RxInfoState.fd (boxes : Nat → BoxedMsg) : RxInfoState → Option Int
  | .inactive => none
  | .hold fd _ _ _ _ => some fd
  | .expect box _ _ _ => box.map fun b => (boxes b).fd

/-- Every `HOLD` cell is one of the socket, or has the error already. -/
def RxTable.holdsOnly (t : RxTable) (fd : Int) (err : RxError) : Bool :=
  (List.range (t.rxInfoMaxUsed + 1)).all fun i =>
    match t.state i with
    | .hold heldFd _ _ _ error => heldFd = fd ∨ error = err
    | _ => true

/-- Whether an error on a socket finds no `HOLD` of another socket. -/
def BusState.errorIsolated (s : BusState) : BusLabel → Bool
  | .listener l (.socketError i err) =>
    (s.listeners l).rx.holdsOnly (s.conns.info ((s.listeners l).sockets.fdInfo i)).fd err
  | _ => true

/-- The error of a cell comes from its own socket. -/
def RxInfoState.errorFrom (boxes : Nat → BoxedMsg) (errored : List Int) : RxInfoState → Prop
  | .inactive => True
  | .hold fd _ _ _ error => error ≠ .none → fd ∈ errored
  | .expect none _ _ _ => True
  | .expect (some b) error _ _ => error.negative = true → (boxes b).fd ∈ errored

structure ErrorInv (s : BusState) (errored : List Int) : Prop where
  box : ∀ b, (s.heap.boxes b).status = .rxFailure → (s.heap.boxes b).fd ∈ errored
  cell : ∀ l i, ((s.listeners l).rx.state i).errorFrom s.heap.boxes errored

theorem ErrorInv.new (n : Nat) : ErrorInv (.new n) [] := by
  refine ⟨fun _ failed => ?_, fun _ _ => trivial⟩
  cases failed

theorem RxInfoState.errorFrom_mono {state : RxInfoState} {boxes boxes' : Nat → BoxedMsg} {errored errored' : List Int}
    (before : state.errorFrom boxes errored) (grown : ∀ fd ∈ errored, fd ∈ errored')
    (same : ∀ b, state.box = some b → (boxes' b).fd = (boxes b).fd) : state.errorFrom boxes' errored' := by
  cases state with
  | inactive => trivial
  | hold fd seqId hasResult result error => exact fun present => grown fd (before present)
  | expect box error hasResult result =>
    cases box with
    | none => trivial
    | some b =>
      intro negative
      rw [same b rfl]
      exact grown _ (before negative)

/-- `set_error_for_socket` in one cell, if it is not a `HOLD` of another socket. -/
theorem RxInfoState.errorFrom_setError {info : RxInfo} {boxes : Nat → BoxedMsg} {errored : List Int} {fd : Int} {err : RxError}
    (negative : err.negative = true) (before : info.state.errorFrom boxes errored) (member : fd ∈ errored)
    (isolated : ∀ heldFd seqId hasResult result error, info.state = .hold heldFd seqId hasResult result error →
      heldFd = fd ∨ error = err) : (info.setError boxes fd err).state.errorFrom boxes errored := by
  unfold RxInfo.setError
  split
  · exact before
  · rename_i heldFd seqId hasResult result error state
    rw [state] at before
    rcases isolated _ _ _ _ _ state with rfl | rfl
    · exact fun _ => member
    · exact before
  · exact before
  · rename_i b error hasResult result state
    rw [state] at before
    dsimp only [RxInfoState.errorFrom] at before ⊢
    split
    · rename_i here
      rw [here]
      exact fun _ => member
    · exact before

theorem RxTable.holdsOnly_state {t : RxTable} {fd : Int} {err : RxError} :
    t.holdsOnly fd err = true ↔ ∀ i, i ≤ t.rxInfoMaxUsed → ∀ heldFd seqId hasResult result error,
      t.state i = .hold heldFd seqId hasResult result error → heldFd = fd ∨ error = err := by
  rw [RxTable.holdsOnly, List.all_eq_true]
  constructor
  · intro all i inside heldFd seqId hasResult result error state
    have here := all i (List.mem_range.mpr (by omega))
    rw [state] at here
    exact of_decide_eq_true here
  · intro all i member
    have inside := List.mem_range.mp member
    split
    · rename_i state
      exact decide_eq_true (all i (by omega) _ _ _ _ _ state)
    · rfl

theorem ErrorInv.rx {t t' : RxTable} {h h' : Heap} {e : RxEvent} {errored : List Int} (move : RxMove t h t' h' e)
    (boxes : ∀ b, (h.boxes b).status = .rxFailure → (h.boxes b).fd ∈ errored)
    (cells : ∀ i, (t.state i).errorFrom h.boxes errored)
    (now : ∀ fd err, e = .error fd err → fd ∈ errored ∧ t.holdsOnly fd err = true) :
    (∀ b, (h'.boxes b).status = .rxFailure → (h'.boxes b).fd ∈ errored) ∧ ∀ i, (t'.state i).errorFrom h'.boxes errored := by
  cases move with
  | keeps e state same _ => exact ⟨by rw [same]; exact boxes, fun i => by rw [state, same]; exact cells i⟩
  | frees i _ _ state same =>
    subst same
    exact ⟨boxes, update_state state cells trivial⟩
  | holds i fd seqId _ _ state same =>
    subst same
    exact ⟨boxes, update_state state cells fun present => absurd rfl present⟩
  | saves i fd seqId old result error held _ _ _ state same =>
    subst same
    have before := cells i
    rw [held] at before
    exact ⟨boxes, update_state state cells before⟩
  | errs fd err negative state same =>
    subst same
    obtain ⟨member, isolated⟩ := now fd err rfl
    refine ⟨boxes, fun i => ?_⟩
    rw [state, RxTable.setErrorForSocket_state]
    split
    · rename_i inside
      exact RxInfoState.errorFrom_setError negative (cells i) member (RxTable.holdsOnly_state.mp isolated i inside)
    · exact cells i
  | pairs i b result held _ state same =>
    subst same
    exact ⟨boxes, update_state state cells fun negative => by cases negative⟩
  | offers e i b box after accepted offer offered =>
    have identity := (RxMove.offers e i b box after accepted offer offered).identity
    have moved (j : Nat) : (t.state j).errorFrom h'.boxes errored :=
      RxInfoState.errorFrom_mono (cells j) (fun _ member => member) fun b _ => (identity b).1
    have own : box.fd = (h.boxes b).fd := by
      have same := (identity b).1
      rwa [offered.boxes, Function.update_self] at same
    have undelivered (result : UnpackRes) (failed : ((h.boxes b).delivered result).status = .rxFailure) :
        (h.boxes b).status = .rxFailure := by
      have other : deliveredStatus (h.boxes b).status ≠ .success := fun success => by
        rw [BoxedMsg.delivered, success] at failed
        cases failed
      exact (deliveredStatus_of_ne other).symm.trans failed
    have filled : after.errorFrom h'.boxes errored ∧ (box.status = .rxFailure → (h.boxes b).fd ∈ errored) := by
      cases offer with
      | retries error hasResult result _ _ success => exact ⟨moved i, boxes b⟩
      | expires => exact ⟨moved i, fun failed => by cases failed⟩
      | fails error hasResult result state negative =>
        have before := cells i
        rw [state] at before
        exact ⟨moved i, fun _ => before negative⟩
      | receives => exact ⟨(fun negative => nomatch negative), fun failed => boxes b (undelivered _ failed)⟩
      | pairsResult => exact ⟨(fun negative => nomatch negative), fun failed => boxes b (undelivered _ failed)⟩
      | pairsError hasResult result error state errored =>
        have before := cells i
        rw [state] at before
        refine ⟨fun _ => ?_, fun _ => before errored⟩
        rw [(identity b).1]
        exact before errored
    refine ⟨fun x failed => ?_, update_state offered.cells moved ?_⟩
    · rw [offered.boxes, Function.update_apply] at failed ⊢
      split at failed <;> rename_i place
      · rw [if_pos place, own]
        exact filled.2 failed
      · rw [if_neg place]
        exact boxes x failed
    · split
      · trivial
      · exact filled.1

theorem ErrorInv.step {s t : BusState} {errored : List Int} {label : BusLabel} (inv : ErrorInv s errored) (owners : OwnerInv s)
    (isolated : s.errorIsolated label = true) (taken : busStep s label = some t) :
    ErrorInv t (noteErrors s label errored) := by
  have grown (b : Nat) (failed : (s.heap.boxes b).status = .rxFailure) :
      (s.heap.boxes b).fd ∈ noteErrors s label errored := mem_noteErrors s label (inv.box b failed)
  have kept (boxes : Nat → BoxedMsg) (l i : Nat)
      (same : ∀ b, (s.listeners l).rx.box i = some b → (boxes b).fd = (s.heap.boxes b).fd) :
      ((s.listeners l).rx.state i).errorFrom boxes (noteErrors s label errored) :=
    RxInfoState.errorFrom_mono (inv.cell l i) (fun _ member => mem_noteErrors s label member) same
  cases busStep_move taken with
  | client c a next _ stage rx _ =>
    refine ⟨fun b failed => ?_, fun l i => ?_⟩
    · obtain ⟨sent, same⟩ := stage.byListener (x := b) (by rw [failed]; rfl)
      rw [same] at failed ⊢
      exact grown b failed
    · rw [rx]
      refine kept t.heap.boxes l i fun b held => (stage.identity ?_).1
      have below := (owners.sound.alive (.cell l i) b held).1
      omega
  | listener l a listener _ _ listeners move =>
    have after := ErrorInv.rx move grown (fun i => kept s.heap.boxes l i fun _ _ => rfl) fun fd err event => by
      refine ⟨?_, ?_⟩
      · simp only [noteErrors, BusState.rxEvent, event]
        exact List.mem_cons_self
      · cases a with
        | socketError i err =>
          cases event
          exact isolated
        | handle env =>
          simp only [Listener.rxEvent] at event
          split at event <;> cases event
        | _ => cases event
    refine ⟨after.1, fun l' i => ?_⟩
    rw [listeners]
    exact update_listener (P := fun listener => (listener.rx.state i).errorFrom t.heap.boxes _)
      (kept t.heap.boxes l' i fun b _ => (move.identity b).1) fun _ _ => after.2 i
  | run k _ listeners heap =>
    refine ⟨?_, fun l i => ?_⟩
    · rw [heap]
      exact grown
    · rw [listeners, heap]
      exact kept _ l i fun _ _ => rfl

/-- What an error step does to the errors of one cell. -/
theorem RxInfo.setError_error (info : RxInfo) (boxes : Nat → BoxedMsg) (fd : Int) (err : RxError) :
    (info.setError boxes fd err).state.error = info.state.error ∨ info.state.fd boxes = some fd ∨
      ∃ heldFd seqId hasResult result error, info.state = .hold heldFd seqId hasResult result error ∧ error ≠ err := by
  unfold RxInfo.setError
  split
  · exact .inl rfl
  · rename_i heldFd seqId hasResult result error state
    by_cases same : error = err
    · refine .inl ?_
      rw [state, same]
    · exact .inr (.inr ⟨heldFd, seqId, hasResult, result, error, state, same⟩)
  · exact .inl rfl
  · rename_i b error hasResult result state
    by_cases here : (boxes b).fd = fd
    · refine .inr (.inl ?_)
      rw [state, ← here]
      rfl
    · refine .inl ?_
      rw [state, if_neg here]

/-- An error on a socket changes the errors of its own requests only, if and only if it finds no `HOLD` of another socket. -/
theorem RxTable.setErrorForSocket_isolated_iff (t : RxTable) (boxes : Nat → BoxedMsg) (fd : Int) (err : RxError) :
    t.holdsOnly fd err = true ↔
      ∀ i, ((t.setErrorForSocket boxes fd err).state i).error ≠ (t.state i).error → (t.state i).fd boxes = some fd := by
  rw [RxTable.holdsOnly_state]
  constructor
  · intro isolated i changed
    rw [RxTable.setErrorForSocket_state] at changed
    split at changed
    · rename_i inside
      rcases (t.rxInfo i).setError_error boxes fd err with same | own | ⟨heldFd, seqId, hasResult, result, error, state, other⟩
      · exact absurd same changed
      · exact own
      · rcases isolated i inside _ _ _ _ _ state with rfl | same
        · rw [RxTable.state, state]
          rfl
        · exact absurd same other
    · exact absurd rfl changed
  · intro only i inside heldFd seqId hasResult result error state
    by_cases same : error = err
    · exact .inr same
    · have own := only i (by
        rw [RxTable.setErrorForSocket_state, if_pos inside, RxInfo.setError, show (t.rxInfo i).state = _ from state, state]
        exact fun equal => same (Option.some.inj equal).symm)
      rw [state] at own
      exact .inl (Option.some.inj own)

section Runs
variable {n : Nat} {s : BusState} {errored : List Int}

/-- In every run in which each error finds no `HOLD` of another socket, a request completes with `BUS_SEND_RX_FAILURE`
only after an error on its own socket. An error changes the errors of requests on its own socket only, if and only if
it finds no `HOLD` of another socket. -/
theorem socket_errors_isolated
    (reach : Reach (watch busStep noteErrors) (.new n, []) (fun s label => s.1.errorIsolated label = true) (s, errored)) :
    (∀ b ∈ s.heap.scheduled, (s.heap.boxes b).status = .rxFailure → (s.heap.boxes b).fd ∈ errored) ∧
      ∀ l i err t, busStep s (.listener l (.socketError i err)) = some t →
        (s.errorIsolated (.listener l (.socketError i err)) = true ↔
          ∀ l' j, ((t.listeners l').rx.state j).error ≠ ((s.listeners l').rx.state j).error →
            ((s.listeners l').rx.state j).fd s.heap.boxes =
              some (s.conns.info ((s.listeners l).sockets.fdInfo i)).fd) := by
  have inv := Reach.watched_invariant (fun s label => s.errorIsolated label = true) reach (ErrorInv.new n)
    fun _ _ _ _ before inv isolated taken => inv.step (bus_invariant before).2 isolated taken
  refine ⟨fun b _ failed => inv.box b failed, fun l i err t taken => ?_⟩
  obtain ⟨⟨listener, heap, conns⟩, moved, run⟩ := Option.bind_eq_some_iff.mp taken
  cases run
  cases listenerStep_cases moved with
  | errs =>
    refine (RxTable.setErrorForSocket_isolated_iff _ s.heap.boxes _ err).trans ⟨fun only l' j changed => ?_, ?_⟩
    · by_cases here : l' = l
      · subst here
        dsimp only at changed
        rw [Function.update_self] at changed
        exact only j changed
      · dsimp only at changed
        rw [Function.update_of_ne here] at changed
        exact absurd rfl changed
    · intro only j changed
      refine only l j ?_
      dsimp only
      rw [Function.update_self]
      exact changed

/-- The device of socket 5 hangs up on its one request. A request on socket 6 goes on waiting for its response. -/
theorem socket_errors_isolated_hangup :
    ∃ s errored, Reach (watch busStep noteErrors) (.new 1, []) (fun s label => s.1.errorIsolated label = true) (s, errored) ∧
      s.heap.scheduled = [0] ∧ (s.heap.boxes 0).status = .rxFailure ∧ (s.listeners 0).rx.box 1 = some 1 ∧
      (s.heap.boxes 1).fd = 6 ∧ (s.heap.boxes 0).fd ∈ errored := by
  have trace : (exec (watch busStep noteErrors) (fun s label => decide (s.1.errorIsolated label = true)) (.new 1, [])
      (registerSteps 0 5 ++ registerSteps 0 6 ++ sendSteps 0 ⟨5, 0, 1, [1, 2]⟩ ++ sendSteps 1 ⟨6, 0, 3, [3]⟩ ++
        BusLabel.listener 0 (.socketError 0 .pollhup) :: tickSteps 0 1)).map
      (fun s => (s.1.heap.scheduled, (s.1.heap.boxes 0).status, (s.1.listeners 0).rx.box 1, (s.1.heap.boxes 1).fd)) =
      some ([0], .rxFailure, some 1, 6) := by decide +kernel
  obtain ⟨⟨s, errored⟩, reach, seen⟩ := exists_reach_of_exec trace
  simp only [Prod.mk.injEq] at seen
  obtain ⟨scheduled, failed, pending, other⟩ := seen
  have atEnd : 0 ∈ s.heap.scheduled := by rw [scheduled]; exact List.mem_singleton_self 0
  exact ⟨s, errored, reach, scheduled, failed, pending, other, (socket_errors_isolated reach).1 0 atEnd failed⟩

/-- A request on socket 6 has its `HOLD` in the table when socket 5 is hung up. It is sent, and fails when its `EXPECT`
comes, though socket 6 never had an error. -/
theorem socket_error_fails_other_socket :
    ∃ s errored, Reach (watch busStep noteErrors) (.new 1, []) (fun _ _ => True) (s, errored) ∧
      s.heap.scheduled = [0] ∧ (s.heap.boxes 0).status = .rxFailure ∧ (s.heap.boxes 0).fd = 6 ∧ errored = [5] := by
  have trace : (exec (watch busStep noteErrors) (fun _ _ => decide True) (.new 1, [])
      (registerSteps 0 5 ++ registerSteps 0 6 ++ holdSteps 0 ⟨6, 0, 1, [1, 2]⟩ ++
        BusLabel.listener 0 (.socketError 0 .pollhup) :: writeSteps 0 2 ++
        BusLabel.client 0 (.event (.timestamp (some ⟨0, 0⟩))) :: commandSteps 0 0)).map
      (fun s => (s.1.heap.scheduled, (s.1.heap.boxes 0).status, (s.1.heap.boxes 0).fd, s.2)) =
      some ([0], .rxFailure, 6, [5]) := by decide +kernel
  obtain ⟨⟨s, errored⟩, reach, seen⟩ := exists_reach_of_exec trace
  simp only [Prod.mk.injEq] at seen
  exact ⟨s, errored, reach, seen⟩

end Runs

end Kinetic
