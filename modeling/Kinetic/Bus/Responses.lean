import Kinetic.Bus.Stages
import Kinetic.Lib.History

namespace Kinetic
open Function (update)
open Transition (Reach watch exec exists_reach_of_exec)

/-- What a step of the bus is for the table of a listener. -/
def BusState.rxEvent (s : BusState) : BusLabel → RxEvent
  | .listener l a => (s.listeners l).rxEvent s.conns a
  | _ => .quiet

/-- The record of what came in, each message with the number of its socket. -/
def noteReceived (s : BusState) (label : BusLabel) (received : List (Int × UnpackRes)) : List (Int × UnpackRes) :=
  match s.rxEvent label with
  | .recv fd result => (fd, result) :: received
  | _ => received

theorem mem_noteReceived (s : BusState) (label : BusLabel) {received : List (Int × UnpackRes)} {r : Int × UnpackRes}
    (member : r ∈ received) : r ∈ noteReceived s label received := by
  unfold noteReceived
  split
  · exact List.mem_cons_of_mem _ member
  · exact member

/-- The result in a box came in on its socket in answer to its sequence id. -/
def BoxedMsg.answered (box : BoxedMsg) (received : List (Int × UnpackRes)) : Prop :=
  ∃ result, (box.fd, result) ∈ received ∧ result.ok = true ∧ result.seqId = box.outSeqId ∧
    box.responseSeqId = result.seqId ∧ box.responseMsg = result.msg

/-- What a `HOLD` cell keeps for its request came in for it. -/
def RxInfoState.keptFrom (received : List (Int × UnpackRes)) : RxInfoState → Prop
  | .hold fd seqId true result _ => (fd, result) ∈ received ∧ result.ok = true ∧ result.seqId = seqId
  | _ => True

structure ReceivedInv (s : BusState) (received : List (Int × UnpackRes)) : Prop where
  box : ∀ b, (s.heap.boxes b).status = .success → (s.heap.boxes b).answered received
  cell : ∀ l i, ((s.listeners l).rx.state i).keptFrom received

theorem ReceivedInv.new (n : Nat) : ReceivedInv (.new n) [] := by
  refine ⟨fun _ success => ?_, fun _ _ => trivial⟩
  cases success

theorem RxInfoState.keptFrom_setError {info : RxInfo} {received : List (Int × UnpackRes)}
    (kept : info.state.keptFrom received) (boxes : Nat → BoxedMsg) (fd : Int) (err : RxError) :
    (info.setError boxes fd err).state.keptFrom received := by
  unfold RxInfo.setError
  split
  · exact kept
  · rename_i heldFd seqId hasResult result error state
    rw [state] at kept
    cases hasResult with
    | true => exact kept
    | false => trivial
  · exact kept
  · trivial

theorem ReceivedInv.rx {t t' : RxTable} {h h' : Heap} {e : RxEvent} {received : List (Int × UnpackRes)}
    (move : RxMove t h t' h' e) (boxes : ∀ b, (h.boxes b).status = .success → (h.boxes b).answered received)
    (cells : ∀ i, (t.state i).keptFrom received) (now : ∀ fd result, e = .recv fd result → (fd, result) ∈ received) :
    (∀ b, (h'.boxes b).status = .success → (h'.boxes b).answered received) ∧ ∀ i, (t'.state i).keptFrom received := by
  have keep (same : h' = h) : ∀ b, (h'.boxes b).status = .success → (h'.boxes b).answered received := by
    rw [same]
    exact boxes
  cases move with
  | keeps e state same _ => exact ⟨keep same, fun i => by rw [state]; exact cells i⟩
  | frees i _ _ state same => exact ⟨keep same, update_state state cells trivial⟩
  | holds i fd seqId _ _ state same => exact ⟨keep same, update_state state cells trivial⟩
  | saves i fd seqId old result error _ unpacked matched _ state same =>
    exact ⟨keep same, update_state state cells ⟨now fd result rfl, unpacked, matched.symm⟩⟩
  | errs fd err _ state same =>
    refine ⟨keep same, fun j => ?_⟩
    rw [state, RxTable.setErrorForSocket_state]
    split
    · exact RxInfoState.keptFrom_setError (cells j) h.boxes fd err
    · exact cells j
  | pairs i b result _ _ state same => exact ⟨keep same, update_state state cells trivial⟩
  | offers e i b box after accepted offer offered =>
    have filled : after.keptFrom received ∧ (box.status = .success → box.answered received) := by
      cases offer with
      | retries error hasResult result _ _ success => exact ⟨cells i, fun _ => boxes b success⟩
      | expires => exact ⟨cells i, fun success => by cases success⟩
      | fails => exact ⟨cells i, fun success => by cases success⟩
      | receives error hasResult old result _ _ unpacked matched _ =>
        exact ⟨trivial, fun _ => ⟨result, now _ result rfl, unpacked, matched.symm, rfl, rfl⟩⟩
      | pairsResult result state unpacked =>
        have kept := cells i
        rw [state] at kept
        exact ⟨trivial, fun _ => ⟨result, kept.1, unpacked, kept.2.2, rfl, rfl⟩⟩
      | pairsError => exact ⟨trivial, fun success => by cases success⟩
    refine ⟨fun x success => ?_, update_state offered.cells cells ?_⟩
    · rw [offered.boxes, Function.update_apply] at success ⊢
      split at success <;> rename_i place
      · rw [if_pos place]
        exact filled.2 success
      · rw [if_neg place]
        exact boxes x success
    · split
      · trivial
      · exact filled.1

theorem ReceivedInv.step {s t : BusState} {received : List (Int × UnpackRes)} {label : BusLabel}
    (inv : ReceivedInv s received) (taken : busStep s label = some t) : ReceivedInv t (noteReceived s label received) := by
  have grown (b : Nat) (success : (s.heap.boxes b).status = .success) :
      (s.heap.boxes b).answered (noteReceived s label received) := by
    obtain ⟨result, member, rest⟩ := inv.box b success
    exact ⟨result, mem_noteReceived s label member, rest⟩
  have kept (l i : Nat) : ((s.listeners l).rx.state i).keptFrom (noteReceived s label received) := by
    have before := inv.cell l i
    cases state : (s.listeners l).rx.state i with
    | hold fd seqId hasResult result error =>
      rw [state] at before
      cases hasResult with
      | true => exact ⟨mem_noteReceived s label before.1, before.2⟩
      | false => trivial
    | _ => trivial
  cases busStep_move taken with
  | client c a next _ stage rx _ =>
    refine ⟨fun b success => ?_, fun l i => by rw [rx]; exact kept l i⟩
    obtain ⟨sent, same⟩ := stage.byListener (x := b) (by rw [success]; rfl)
    rw [same] at success ⊢
    exact grown b success
  | listener l a listener _ _ listeners move =>
    have after := ReceivedInv.rx move grown (kept l) fun fd result event => by
      simp only [noteReceived, BusState.rxEvent, event]
      exact List.mem_cons_self
    refine ⟨after.1, fun l' i => ?_⟩
    rw [listeners]
    exact update_listener (P := fun listener => (listener.rx.state i).keptFrom _) (kept l' i) fun _ _ => after.2 i
  | run k _ listeners heap =>
    refine ⟨?_, fun l i => by rw [listeners]; exact kept l i⟩
    rw [heap]
    exact grown

section Runs
variable {n : Nat} {s : BusState} {received : List (Int × UnpackRes)}

/-- Whatever the order of commands, messages, ticks and errors, a box with success, scheduled or not, carries a message that came
in on the socket of its request and answers its sequence id. -/
theorem response_not_crossed (reach : Reach (watch busStep noteReceived) (.new n, []) (fun _ _ => True) (s, received))
    (b : Nat) (success : (s.heap.boxes b).status = .success) :
    ∃ result, ((s.heap.boxes b).fd, result) ∈ received ∧ result.ok = true ∧ result.seqId = (s.heap.boxes b).outSeqId ∧
      (s.heap.boxes b).responseSeqId = result.seqId ∧ (s.heap.boxes b).responseMsg = result.msg := by
  have inv := Reach.watched_invariant (fun _ _ => True) reach (ReceivedInv.new n)
    fun _ _ _ _ _ inv _ taken => inv.step taken
  exact inv.box b success

/-- Two sockets of one listener wait for the same sequence id. -/
theorem response_not_crossed_two_sockets :
    ∃ s received, Reach (watch busStep noteReceived) (.new 1, []) (fun _ _ => True) (s, received) ∧
      s.heap.scheduled = [1] ∧ (s.heap.boxes 1).status = .success ∧
      ∃ result, ((s.heap.boxes 1).fd, result) ∈ received ∧ result.ok = true ∧ result.seqId = (s.heap.boxes 1).outSeqId ∧
        (s.heap.boxes 1).responseSeqId = result.seqId ∧ (s.heap.boxes 1).responseMsg = result.msg := by
  have trace : (exec (watch busStep noteReceived) (fun _ _ => decide True) (.new 1, [])
      (registerSteps 0 5 ++ registerSteps 0 6 ++ sendSteps 0 ⟨5, 0, 1, [1, 2]⟩ ++ sendSteps 0 ⟨6, 0, 1, [3]⟩ ++
        [.listener 0 (.recv 1 ⟨true, 7, 0⟩ true)])).map
      (fun s => (s.1.heap.scheduled, (s.1.heap.boxes 1).status)) = some ([1], .success) := by decide +kernel
  obtain ⟨⟨s, received⟩, reach, seen⟩ := exists_reach_of_exec trace
  obtain ⟨scheduled, success⟩ := Prod.mk.inj seen
  exact ⟨s, received, reach, scheduled, success, response_not_crossed reach 1 success⟩

end Runs

end Kinetic
