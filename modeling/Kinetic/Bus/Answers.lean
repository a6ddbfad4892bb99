import Kinetic.Bus.Delivery

namespace Kinetic
open Function (update)
open Transition (Reach watch exec exists_reach_of_exec)

/-- The record of the responses that have been matched to a request whose `EXPECT` the listener has. A response may come
to an `EXPECT`, or be saved in the `HOLD` that an `EXPECT` finds. -/
def noteDue (s : BusState) (label : BusLabel) (due : Nat → Option UnpackRes) : Nat → Option UnpackRes :=
  match label with
  | .listener l a =>
    match (s.listeners l).rxEvent s.conns a with
    | .recv fd result =>
      match s.matched l fd result.seqId with
      | .expect (some b) _ _ _ => if result.ok then update due b (some result) else due
      | _ => due
    | .expect b =>
      match s.matched l (s.heap.boxes b).fd (s.heap.boxes b).outSeqId with
      | .hold _ _ true result _ => update due b (some result)
      | _ => due
    | _ => due
  | _ => due

/-- No response is waiting in the cells that `set_error_for_socket` marks. -/
def RxTable.noneWaiting (t : RxTable) (boxes : Nat → BoxedMsg) (fd : Int) : Bool :=
  (List.range (t.rxInfoMaxUsed + 1)).all fun i =>
    match t.state i with
    | .hold _ _ hasResult _ _ => hasResult = false
    | .expect (some b) .readyForDelivery _ _ => (boxes b).fd ≠ fd
    | _ => true

/-- Whether a response finds its request neither failed nor marked with an error, and an error finds no response waiting. -/
def BusState.answersKept (s : BusState) : BusLabel → Bool
  | .listener l (.recv i result _) =>
    match s.matched l (s.conns.info ((s.listeners l).sockets.fdInfo i)).fd result.seqId with
    | .expect (some b) _ _ _ => result.ok = false ∨ (s.heap.boxes b).status.deliverable = true
    | .hold _ _ _ _ error => result.ok = false ∨ error = .none
    | _ => true
  | .listener l (.socketError i _) =>
    (s.listeners l).rx.noneWaiting s.heap.boxes (s.conns.info ((s.listeners l).sockets.fdInfo i)).fd
  | _ => true

/-- A response saved in a `HOLD` is not shadowed by an error. -/
def RxInfoState.savedClear : RxInfoState → Prop
  | .hold _ _ true _ error => error = .none
  | _ => True

structure DueInv (s : BusState) (due : Nat → Option UnpackRes) : Prop where
  saved : ∀ l i, ((s.listeners l).rx.state i).savedClear
  due : ∀ b result, due b = some result → (s.heap.boxes b).Carries result ∧ result.ok = true ∧
    (b ∈ s.heap.scheduled ∨ ∃ l i, (s.listeners l).rx.state i = .expect (some b) .readyForDelivery true result)

theorem DueInv.new (n : Nat) : DueInv (.new n) fun _ => none := by
  refine ⟨fun _ _ => trivial, fun b result due => ?_⟩
  cases due

section Table
variable {t t' : RxTable} {h h' : Heap} {e : RxEvent}

theorem RxTable.noneWaiting_state {t : RxTable} {boxes : Nat → BoxedMsg} {fd : Int} (none : t.noneWaiting boxes fd = true)
    {i : Nat} (inside : i ≤ t.rxInfoMaxUsed) :
    (∀ heldFd seqId hasResult result error, t.state i = .hold heldFd seqId hasResult result error → hasResult = false) ∧
      ∀ b hasResult result, t.state i = .expect (some b) .readyForDelivery hasResult result → (boxes b).fd ≠ fd := by
  rw [RxTable.noneWaiting, List.all_eq_true] at none
  have here := none i (List.mem_range.mpr (by omega))
  constructor
  · intro heldFd seqId hasResult result error state
    rw [state] at here
    exact of_decide_eq_true here
  · intro b hasResult result state
    rw [state] at here
    exact of_decide_eq_true here

theorem RxMove.saved (move : RxMove t h t' h' e) (cells : ∀ i, (t.state i).savedClear)
    (clear : ∀ fd result i heldFd seqId hasResult old error, e = .recv fd result →
      findInfoBySequenceId t h.boxes fd result.seqId = some i → t.state i = .hold heldFd seqId hasResult old error →
      result.ok = true → error = .none)
    (waiting : ∀ fd err, e = .error fd err → t.noneWaiting h.boxes fd = true) : ∀ i, (t'.state i).savedClear := by
  cases move with
  | keeps e state _ _ => exact fun i => by rw [state]; exact cells i
  | frees i _ _ state => exact update_state state cells trivial
  | holds i fd seqId _ _ state => exact update_state state cells trivial
  | saves i fd seqId old result error held unpacked _ found state =>
    refine update_state state cells ?_
    exact clear fd result i fd seqId false old error rfl found held unpacked
  | errs fd err _ same =>
    intro i
    rw [same, RxTable.setErrorForSocket_state]
    split
    · rename_i inside
      have empty := (RxTable.noneWaiting_state (waiting fd err rfl) inside).1
      unfold RxInfo.setError
      split
      · exact cells i
      · rename_i heldFd seqId hasResult result error state
        cases empty _ _ _ _ _ state
        trivial
      · exact cells i
      · trivial
    · exact cells i
  | pairs i b result _ _ state => exact update_state state cells trivial
  | offers e i b box after accepted offer offered =>
    refine update_state offered.cells cells ?_
    split
    · trivial
    · cases offer with
      | retries => exact cells i
      | expires => exact cells i
      | fails => exact cells i
      | receives => trivial
      | pairsResult => trivial
      | pairsError => trivial

/-- A delivery leaves its box with the pool or in a cell that is ready. -/
theorem Offered.due {accepted : Bool} {i b : Nat} {box : BoxedMsg} {result : UnpackRes}
    (offered : Offered accepted t h i b box (.expect (some b) .readyForDelivery true result) t' h') :
    h'.boxes b = box ∧ (b ∈ h'.scheduled ∨ t'.state i = .expect (some b) .readyForDelivery true result) := by
  refine ⟨by rw [offered.boxes, Function.update_self], ?_⟩
  cases accepted with
  | true =>
    refine .inl ?_
    rw [offered.scheduled]
    exact List.mem_append_right _ (List.mem_singleton_self b)
  | false =>
    refine .inr ?_
    rw [offered.cells, Function.update_self]
    rfl

/-- A cell that is ready with a response stays so, or its box goes to the pool with the response. -/
theorem RxMove.ready_stays (move : RxMove t h t' h' e) (apart : ∀ i j b, t.box i = some b → t.box j = some b → i = j)
    (expected : ∀ b, e = .expect b → ∀ i, t.box i ≠ some b)
    (waiting : ∀ fd err, e = .error fd err → t.noneWaiting h.boxes fd = true) {i b : Nat} {result : UnpackRes}
    (unpacked : result.ok = true) (state : t.state i = .expect (some b) .readyForDelivery true result) :
    h'.boxes b = h.boxes b ∧ (b ∈ h'.scheduled ∨ t'.state i = .expect (some b) .readyForDelivery true result) := by
  have other {j : Nat} {new : RxInfoState} (cells : t'.state = update t.state j new) (distinct : j ≠ i) :
      t'.state i = .expect (some b) .readyForDelivery true result := by
    rw [cells, Function.update_of_ne distinct.symm]
    exact state
  have distinct {j : Nat} {found : RxInfoState} (there : t.state j = found)
      (differs : found ≠ .expect (some b) .readyForDelivery true result) : j ≠ i := by
    rintro rfl
    exact differs (there.symm.trans state)
  cases move with
  | keeps e cells same _ => exact ⟨by rw [same], .inr (by rw [cells]; exact state)⟩
  | frees j _ empty cells same =>
    refine ⟨by rw [same], .inr (other cells ?_)⟩
    rintro rfl
    rw [RxTable.box_eq state] at empty
    cases empty
  | holds j fd seqId _ free cells same => exact ⟨by rw [same], .inr (other cells (distinct free (by simp)))⟩
  | saves j fd seqId old new error held _ _ _ cells same =>
    exact ⟨by rw [same], .inr (other cells (distinct held (by simp)))⟩
  | errs fd err _ cells same =>
    refine ⟨by rw [same], .inr ?_⟩
    rw [cells, RxTable.setErrorForSocket_state]
    split
    · rename_i inside
      have elsewhere := (RxTable.noneWaiting_state (waiting fd err rfl) inside).2 b true result state
      rw [RxInfo.setError, show (t.rxInfo i).state = _ from state]
      dsimp only
      rw [if_neg elsewhere]
    · exact state
  | pairs j b' old held _ cells same => exact ⟨by rw [same], .inr (other cells (distinct held (by simp)))⟩
  | offers e j b' box after accepted offer offered =>
    by_cases here : j = i
    · subst here
      cases offer with
      | retries error hasResult old there _ success =>
        rw [state] at there
        cases there
        rw [state] at offered
        exact offered.due
      | expires hasResult old there => rw [state] at there; cases there
      | fails error hasResult old there negative =>
        rw [state] at there
        cases there
        cases negative
      | receives error hasResult old new there failed =>
        rw [state] at there
        cases there
        rw [unpacked] at failed
        cases failed
      | pairsResult old there => rw [state] at there; cases there
      | pairsError hasResult old error there => rw [state] at there; cases there
    · refine ⟨?_, .inr (other offered.cells here)⟩
      rw [offered.boxes, Function.update_of_ne]
      rintro rfl
      exact here (offer.others apart expected (RxTable.box_eq state)).symm

theorem RxMove.scheduled (move : RxMove t h t' h' e) {b : Nat} (member : b ∈ h.scheduled) : b ∈ h'.scheduled := by
  cases move with
  | offers e i b' box after accepted offer offered =>
    rw [offered.scheduled]
    split
    · exact List.mem_append_left _ member
    · exact member
  | keeps e _ same => rw [same]; exact member
  | frees i _ _ _ same => rw [same]; exact member
  | holds i fd seqId _ _ _ same => rw [same]; exact member
  | saves i fd seqId old result error _ _ _ _ _ same => rw [same]; exact member
  | errs fd err _ _ same => rw [same]; exact member
  | pairs i b' result _ _ _ same => rw [same]; exact member

/-- A response that comes to an `EXPECT`. -/
theorem RxMove.due_recv {fd : Int} {result old : UnpackRes} {i b : Nat} {error : RxError} {hasResult : Bool}
    (move : RxMove t h t' h' (.recv fd result)) (found : findInfoBySequenceId t h.boxes fd result.seqId = some i)
    (state : t.state i = .expect (some b) error hasResult old) (unpacked : result.ok = true)
    (deliverable : (h.boxes b).status.deliverable = true) :
    (h'.boxes b).Carries result ∧ (b ∈ h'.scheduled ∨ t'.state i = .expect (some b) .readyForDelivery true result) := by
  cases move with
  | keeps _ _ _ missed =>
    rw [missed unpacked] at found
    cases found
  | saves j fd seqId saved result error held _ _ found' =>
    rw [found] at found'
    cases found'
    rw [state] at held
    cases held
  | offers _ j b' box after accepted offer offered =>
    cases offer with
    | receives error' hasResult' old' result there _ _ _ found' =>
      rw [found] at found'
      cases found'
      rw [state] at there
      cases there
      obtain ⟨contents, place⟩ := offered.due
      rw [contents]
      exact ⟨BoxedMsg.delivered_carries result deliverable, place⟩

/-- An `EXPECT` that finds a response saved in its `HOLD`. -/
theorem RxMove.due_expect {heldFd seqId : Int} {result : UnpackRes} {i b : Nat} (move : RxMove t h t' h' (.expect b))
    (found : findInfoBySequenceId t h.boxes (h.boxes b).fd (h.boxes b).outSeqId = some i)
    (state : t.state i = .hold heldFd seqId true result .none) (deliverable : (h.boxes b).status.deliverable = true) :
    result.ok = true ∧ (h'.boxes b).Carries result ∧
      (b ∈ h'.scheduled ∨ t'.state i = .expect (some b) .readyForDelivery true result) := by
  cases move with
  | keeps _ _ _ missed =>
    rw [show findInfoBySequenceId _ _ _ _ = none from missed] at found
    cases found
  | pairs j _ old held found' =>
    rw [found] at found'
    cases found'
    rw [state] at held
    cases held
  | offers _ j b' box after accepted offer offered =>
    cases offer with
    | pairsResult saved there unpacked found' =>
      rw [found] at found'
      cases found'
      rw [state] at there
      cases there
      obtain ⟨contents, place⟩ := offered.due
      rw [contents]
      exact ⟨unpacked, BoxedMsg.delivered_carries result deliverable, place⟩
    | pairsError hasResult saved error there errored found' =>
      rw [found] at found'
      cases found'
      rw [state] at there
      cases there
      exact absurd rfl errored

end Table

/-- A response in the record was there before, or has just been matched. -/
theorem noteDue_cases {s : BusState} {l : Nat} {a : ListenerAction} {due : Nat → Option UnpackRes} {b : Nat}
    {result : UnpackRes} (noted : noteDue s (.listener l a) due b = some result) :
    due b = some result ∨
      (∃ fd i error hasResult old, (s.listeners l).rxEvent s.conns a = .recv fd result ∧ result.ok = true ∧
        findInfoBySequenceId (s.listeners l).rx s.heap.boxes fd result.seqId = some i ∧
        (s.listeners l).rx.state i = .expect (some b) error hasResult old) ∨
      ∃ i heldFd seqId error, (s.listeners l).rxEvent s.conns a = .expect b ∧
        findInfoBySequenceId (s.listeners l).rx s.heap.boxes (s.heap.boxes b).fd (s.heap.boxes b).outSeqId = some i ∧
        (s.listeners l).rx.state i = .hold heldFd seqId true result error := by
  have noted_at {b' : Nat} {new : UnpackRes} (changed : update due b' (some new) b = some result) :
      due b = some result ∨ (b' = b ∧ new = result) := by
    rw [Function.update_apply] at changed
    split at changed
    · rename_i here
      exact .inr ⟨here.symm, Option.some.inj changed⟩
    · exact .inl changed
  cases event : (s.listeners l).rxEvent s.conns a with
  | recv fd received =>
    simp only [noteDue, event] at noted
    cases matched : s.matched l fd received.seqId with
    | expect box error hasResult old =>
      rw [matched] at noted
      cases box with
      | none => exact .inl noted
      | some b' =>
        dsimp only at noted
        by_cases unpacked : received.ok = true
        · rw [if_pos unpacked] at noted
          rcases noted_at noted with before | ⟨rfl, rfl⟩
          · exact .inl before
          · obtain ⟨i, found, state⟩ := BusState.matched_cell matched (by simp)
            exact .inr (.inl ⟨fd, i, error, hasResult, old, rfl, unpacked, found, state⟩)
        · rw [if_neg unpacked] at noted
          exact .inl noted
    | _ =>
      rw [matched] at noted
      exact .inl noted
  | expect b' =>
    simp only [noteDue, event] at noted
    cases matched : s.matched l (s.heap.boxes b').fd (s.heap.boxes b').outSeqId with
    | hold heldFd seqId hasResult saved error =>
      rw [matched] at noted
      cases hasResult with
      | false => exact .inl noted
      | true =>
        rcases noted_at noted with before | ⟨rfl, rfl⟩
        · exact .inl before
        · obtain ⟨i, found, state⟩ := BusState.matched_cell matched (by simp)
          exact .inr (.inr ⟨i, heldFd, seqId, error, rfl, found, state⟩)
    | _ =>
      rw [matched] at noted
      exact .inl noted
  | _ =>
    simp only [noteDue, event] at noted
    exact .inl noted

/-- The action behind an event on a socket. -/
theorem Listener.rxEvent_recv {l : Listener} {conns : Connections} {a : ListenerAction} {fd : Int} {result : UnpackRes}
    (event : l.rxEvent conns a = .recv fd result) :
    ∃ i accepted, a = .recv i result accepted ∧ fd = (conns.info (l.sockets.fdInfo i)).fd := by
  cases a with
  | recv i received accepted =>
    cases event
    exact ⟨i, accepted, rfl, rfl⟩
  | handle env =>
    simp only [Listener.rxEvent] at event
    split at event <;> cases event
  | _ => cases event

theorem Listener.rxEvent_error {l : Listener} {conns : Connections} {a : ListenerAction} {fd : Int} {err : RxError}
    (event : l.rxEvent conns a = .error fd err) :
    ∃ i, a = .socketError i err ∧ fd = (conns.info (l.sockets.fdInfo i)).fd := by
  cases a with
  | socketError i err =>
    cases event
    exact ⟨i, rfl, rfl⟩
  | handle env =>
    simp only [Listener.rxEvent] at event
    split at event <;> cases event
  | _ => cases event

theorem DueInv.step {s t : BusState} {due : Nat → Option UnpackRes} {label : BusLabel} (inv : DueInv s due)
    (status : StatusInv s) (owners : OwnerInv s) (kept : s.answersKept label = true) (taken : busStep s label = some t) :
    DueInv t (noteDue s label due) := by
  cases busStep_move taken with
  | client c a next _ stage rx scheduled =>
    refine ⟨fun l i => by rw [rx]; exact inv.saved l i, fun b result noted => ?_⟩
    obtain ⟨carries, unpacked, place⟩ := inv.due b result noted
    rcases place with member | ⟨l, i, state⟩
    · obtain ⟨k, atK⟩ := List.getElem?_of_mem member
      rw [owners.boxes_of_client stage (p := .task k) atK (by simp)]
      exact ⟨carries, unpacked, .inl (scheduled b member)⟩
    · rw [owners.boxes_of_client stage (p := .cell l i) (RxTable.box_eq state) (by simp)]
      exact ⟨carries, unpacked, .inr ⟨l, i, by rw [rx]; exact state⟩⟩
  | listener l a listener _ _ listeners move =>
    have waiting (fd : Int) (err : RxError) (event : (s.listeners l).rxEvent s.conns a = .error fd err) :
        (s.listeners l).rx.noneWaiting s.heap.boxes fd = true := by
      obtain ⟨i, rfl, rfl⟩ := Listener.rxEvent_error event
      exact kept
    have deliverable {fd : Int} {result old : UnpackRes} {i b : Nat} {error : RxError} {hasResult : Bool}
        (event : (s.listeners l).rxEvent s.conns a = .recv fd result) (unpacked : result.ok = true)
        (found : findInfoBySequenceId (s.listeners l).rx s.heap.boxes fd result.seqId = some i)
        (state : (s.listeners l).rx.state i = .expect (some b) error hasResult old) :
        (s.heap.boxes b).status.deliverable = true := by
      obtain ⟨socket, accepted, rfl, rfl⟩ := Listener.rxEvent_recv event
      simp only [BusState.answersKept, BusState.matched_eq found, state, unpacked] at kept
      simpa using kept
    have clear (fd : Int) (result : UnpackRes) (i : Nat) (heldFd seqId : Int) (hasResult : Bool) (old : UnpackRes)
        (error : RxError) (event : (s.listeners l).rxEvent s.conns a = .recv fd result)
        (found : findInfoBySequenceId (s.listeners l).rx s.heap.boxes fd result.seqId = some i)
        (state : (s.listeners l).rx.state i = .hold heldFd seqId hasResult old error) (unpacked : result.ok = true) :
        error = .none := by
      obtain ⟨socket, accepted, rfl, rfl⟩ := Listener.rxEvent_recv event
      simp only [BusState.answersKept, BusState.matched_eq found, state, unpacked] at kept
      simpa using kept
    have at_listener (i : Nat) : (t.listeners l).rx.state i = listener.rx.state i := by
      rw [listeners, Function.update_self]
    refine ⟨fun l' i => ?_, fun b result noted => ?_⟩
    · rw [listeners]
      exact update_listener (P := fun listener => (listener.rx.state i).savedClear) (inv.saved l' i)
        fun _ _ => move.saved (inv.saved l) clear waiting i
    · rcases noteDue_cases noted with before | ⟨fd, i, error, hasResult, old, event, unpacked, found, state⟩ |
        ⟨i, heldFd, seqId, error, event, found, state⟩
      · obtain ⟨carries, unpacked, place⟩ := inv.due b result before
        rcases place with member | ⟨l', i, state⟩
        · obtain ⟨k, atK⟩ := List.getElem?_of_mem member
          rw [owners.boxes_of_place move (p := .task k) atK (by simp) (by simp)]
          exact ⟨carries, unpacked, .inl (move.scheduled member)⟩
        · by_cases here : l' = l
          · subst here
            obtain ⟨same, after⟩ := move.ready_stays (owners.cells_apart l') (fun b event => (status.expected owners event).1)
              waiting unpacked state
            rw [same]
            refine ⟨carries, unpacked, after.imp id fun stays => ⟨l', i, ?_⟩⟩
            rw [at_listener]
            exact stays
          · rw [owners.boxes_of_place move (p := .cell l' i) (RxTable.box_eq state) (by simp [here]) (by simp)]
            refine ⟨carries, unpacked, .inr ⟨l', i, ?_⟩⟩
            rw [listeners, Function.update_of_ne here]
            exact state
      · rw [event] at move
        obtain ⟨carries, place⟩ := move.due_recv found state unpacked (deliverable event unpacked found state)
        refine ⟨carries, unpacked, place.imp id fun stays => ⟨l, i, ?_⟩⟩
        rw [at_listener]
        exact stays
      · have none : error = .none := by
          have saved := inv.saved l i
          rw [state] at saved
          exact saved
        subst none
        have complete := (status.expected owners event).2
        rw [event] at move
        obtain ⟨unpacked, carries, place⟩ := move.due_expect found state (by rw [complete]; rfl)
        refine ⟨carries, unpacked, place.imp id fun stays => ⟨l, i, ?_⟩⟩
        rw [at_listener]
        exact stays
  | run k _ listeners heap =>
    refine ⟨fun l i => by rw [listeners]; exact inv.saved l i, fun b result noted => ?_⟩
    rw [heap, listeners]
    exact inv.due b result noted

section Runs
variable {n : Nat} {s : BusState} {due : Nat → Option UnpackRes}

end Runs

end Kinetic
