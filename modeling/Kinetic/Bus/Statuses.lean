import Kinetic.Bus.Queues

namespace Kinetic
open Function (update)
open Transition (Reach)

/-- The status of a box in the hands of a client. -/
def Stage.statusIn (boxes : Nat → BoxedMsg) : Stage → Prop
  | .none => True
  | .fresh b => (boxes b).status = .undefined
  | .held b => (boxes b).status = .undefined
  | .expecting b => (boxes b).status = .requestComplete
  | .failed b status => (boxes b).status = status ∧ status.bySender = true

/-- The status of every box that is not with the thread pool yet. -/
structure StatusInv (s : BusState) : Prop where
  client : ∀ c, (s.clients c).stage.statusIn s.heap.boxes
  command : ∀ l slot b, (s.listeners l).msgs.box slot = some b → (s.heap.boxes b).status = .requestComplete
  cell : ∀ l i b, (s.listeners l).rx.box i = some b → (s.heap.boxes b).status ≠ .undefined
  formed : ∀ l i, ((s.listeners l).rx.state i).wellFormed

theorem StatusInv.new (n : Nat) : StatusInv (.new n) := by
  refine ⟨fun _ => trivial, fun l slot b held => ?_, fun l i b held => ?_, fun _ _ => trivial⟩
  · simp [BusState.new, Listener.new, MsgTable.new, MsgTable.box] at held
  · cases held

theorem ClientPc.stage_box {pc : ClientPc} {b : Nat} (held : pc.stage.box = some b) : pc.box = some b := by
  cases pc with
  | idle => cases held
  | send x pc => cases pc <;> first | exact held | cases held
  | acquire p => cases p <;> exact held
  | push p l slot serial => cases p <;> exact held
  | wait p l slot serial => cases p <;> exact held

theorem Stage.statusIn_congr {stage : Stage} {boxes boxes' : Nat → BoxedMsg} (before : stage.statusIn boxes)
    (same : ∀ b, stage.box = some b → boxes' b = boxes b) : stage.statusIn boxes' := by
  cases stage with
  | none => trivial
  | _ =>
    simp only [Stage.statusIn] at before ⊢
    rw [same _ rfl]
    exact before

theorem StageMove.statusIn {s t : BusState} {stage stage' : Stage} (move : StageMove s t stage stage')
    (before : stage.statusIn s.heap.boxes) : stage'.statusIn t.heap.boxes := by
  cases move with
  | keeps stage boxes => rw [boxes]; exact before
  | starts box boxes undefined => rw [Stage.statusIn, boxes, Function.update_self, undefined]
  | sends b sent stage place boxes =>
    rcases place with rfl | rfl <;> rw [Stage.statusIn, boxes, Function.update_self] <;> exact before
  | rejects => trivial
  | holds b boxes => rw [Stage.statusIn, boxes]; exact before
  | expects b sent boxes =>
    rw [Stage.statusIn, boxes, Function.update_self]
    exact if_pos before
  | fails b sent status stage _ sender boxes =>
    rw [Stage.statusIn, boxes, Function.update_self]
    exact ⟨rfl, sender⟩
  | leaves => trivial

/-- A command of a client carries the box it expects a response for. -/
theorem clientStep_command {s t : BusState} {c : Nat} {a : ClientAction} (slots : SlotInv s) (run : clientStep s c a = some t)
    {l slot b : Nat} (held : (t.listeners l).msgs.box slot = some b) :
    (s.listeners l).msgs.box slot = some b ∨ ((s.clients c).stage = .expecting b ∧ t.heap.boxes = s.heap.boxes) := by
  rw [MsgTable.box_eq_queued] at held ⊢
  cases clientStep_queue slots run with
  | keeps a same =>
    rw [same] at held
    exact .inl held
  | commits p l' pushed serial command writing handed queued written same =>
    rw [queued] at held
    split at held
    · rw [Option.bind_some, handed] at held
      cases p with
      | expect b' tries =>
        cases held
        subst same
        exact .inr ⟨by rw [writing]; rfl, rfl⟩
      | _ => cases held
    · exact .inl held

/-- The box that the listener is about to expect a response for is in the command at the head of the commit pipe. -/
theorem Listener.rxEvent_expect {l : Listener} {conns : Connections} {a : ListenerAction} {b : Nat}
    (event : l.rxEvent conns a = .expect b) :
    ∃ env slot rest serial, a = .handle env ∧ l.msgs.commitPipe = slot :: rest ∧
      l.msgs.msgs slot = some ⟨.expectResponse b, serial⟩ := by
  cases a with
  | handle env =>
    cases pipe : l.msgs.commitPipe with
    | nil => simp [Listener.rxEvent, Listener.nextCommand, pipe] at event
    | cons slot rest =>
      cases written : l.msgs.msgs slot with
      | none => simp [Listener.rxEvent, Listener.nextCommand, pipe, written] at event
      | some msg =>
        rw [Listener.rxEvent_handle pipe written] at event
        obtain ⟨command, serial⟩ := msg
        cases command with
        | expectResponse b' =>
          cases event
          exact ⟨env, slot, rest, serial, rfl, rfl, written⟩
        | _ => cases event
  | _ => cases event

/-- A listener takes no box into a command, and executes the command at the head of the commit pipe. -/
theorem listenerStep_command {l l' : Listener} {h h' : Heap} {conns conns' : Connections} {a : ListenerAction}
    (run : listenerStep l h conns a = some (l', h', conns')) (apart : l.slots.Nodup) {i b : Nat}
    (held : l'.msgs.box i = some b) :
    l.msgs.box i = some b ∧ ∀ env slot rest, a = .handle env → l.msgs.commitPipe = slot :: rest → i ≠ slot := by
  have nodup := apart.of_append_left.of_append_right
  have read {slot : Nat} {rest : List Nat} (pipe : l.msgs.commitPipe = slot :: rest)
      (held : ({ l.msgs with commitPipe := rest } : MsgTable).box i = some b) :
      l.msgs.box i = some b ∧ ∀ env slot rest, a = .handle env → l.msgs.commitPipe = slot :: rest → i ≠ slot := by
    rw [MsgTable.box_read pipe nodup] at held
    split at held
    · cases held
    · rename_i other
      refine ⟨held, fun _ slot' rest' _ pipe' => ?_⟩
      rw [pipe] at pipe'
      cases pipe'
      exact other
  cases listenerStep_move run with
  | answers env slot rest msg reads _ _ msgs =>
    rw [msgs] at held
    exact read reads.pipe held
  | expects env slot rest b' serial reads _ msgs =>
    rw [msgs] at held
    exact read reads.pipe held
  | shutsDown env slot rest serial reads _ msgs =>
    rw [msgs] at held
    exact read reads.pipe held
  | releases slot handling same =>
    have absent : slot ∉ l.msgs.commitPipe := fun committed =>
      List.disjoint_of_nodup_append apart (List.mem_append_right _ committed)
        (by rw [handling]; exact List.mem_singleton_self slot)
    rw [same] at held
    refine ⟨by rwa [← MsgTable.box_releaseMsg absent], fun env _ _ handle => ?_⟩
    cases handle
  | works a j notHandle _ _ _ _ msgs =>
    rw [msgs] at held
    exact ⟨held, fun env _ _ handle => absurd handle (notHandle env)⟩
  | finishes slot serial _ _ same =>
    rw [same] at held
    refine ⟨held, fun env _ _ handle => ?_⟩
    cases handle

/-- What a listener has written once stays written. -/
theorem RxMove.defined {t t' : RxTable} {h h' : Heap} {e : RxEvent} (move : RxMove t h t' h' e) {x : Nat}
    (before : (h.boxes x).status ≠ .undefined) : (h'.boxes x).status ≠ .undefined := by
  cases move with
  | offers e i b box after accepted offer offered =>
    rw [offered.boxes, Function.update_apply]
    split
    · rename_i here
      subst here
      have delivered (result : UnpackRes) : ((h.boxes x).delivered result).status ≠ .undefined := by
        intro undefined
        have other : deliveredStatus (h.boxes x).status ≠ .success := by
          rw [show deliveredStatus (h.boxes x).status = _ from undefined]
          simp
        exact before ((deliveredStatus_of_ne other).symm.trans undefined)
      cases offer with
      | retries => exact before
      | receives => exact delivered _
      | pairsResult => exact delivered _
      | _ => simp
    · exact before
  | keeps e _ same => rw [same]; exact before
  | frees i _ _ _ same => rw [same]; exact before
  | holds i fd seqId _ _ _ same => rw [same]; exact before
  | saves i fd seqId old result error _ _ _ _ _ same => rw [same]; exact before
  | errs fd err _ _ same => rw [same]; exact before
  | pairs i b result _ _ _ same => rw [same]; exact before

/-- Where the box of a cell was before. -/
theorem RxMove.box_origin {t t' : RxTable} {h h' : Heap} {e : RxEvent} (move : RxMove t h t' h' e) {i b : Nat}
    (held : t'.box i = some b) : t.box i = some b ∨ e = .expect b := by
  have changed {j : Nat} {new : RxInfoState} (state : t'.state = update t.state j new)
      (origin : new.box = some b → t.box j = some b ∨ e = .expect b) : t.box i = some b ∨ e = .expect b := by
    rw [RxTable.box_state, state, Function.update_apply] at held
    split at held
    · rename_i here
      rw [here]
      exact origin held
    · exact .inl held
  cases move with
  | keeps e state => rw [RxTable.box_state, state] at held; exact .inl held
  | frees j _ _ state => exact changed state fun new => by cases new
  | holds j fd seqId _ _ state => exact changed state fun new => by cases new
  | saves j fd seqId old result error _ _ _ _ state => exact changed state fun new => by cases new
  | errs fd err _ same =>
    rw [same, RxTable.setErrorForSocket_box] at held
    exact .inl held
  | pairs j b' result _ _ state =>
    refine changed state fun new => ?_
    cases new
    exact .inr rfl
  | offers e j b' box after accepted offer offered =>
    refine changed offered.cells fun new => ?_
    split at new
    · cases new
    · cases offer with
      | retries => exact .inl new
      | expires => exact .inl new
      | fails => exact .inl new
      | receives error hasResult old result state =>
        cases new
        exact .inl (RxTable.box_eq state)
      | pairsResult => cases new; exact .inr rfl
      | pairsError => cases new; exact .inr rfl

/-- No listener works on a box that is with a client, in another command, in a cell of another listener, or with the
thread pool. -/
theorem OwnerInv.boxes_of_place {s : BusState} {l : Nat} {a : ListenerAction} {rx : RxTable} {heap : Heap}
    (owners : OwnerInv s) (move : RxMove (s.listeners l).rx s.heap rx heap ((s.listeners l).rxEvent s.conns a)) {p : Place}
    {x : Nat} (held : s.holding p = some x) (notCell : ∀ i, p ≠ .cell l i)
    (notHead : ∀ env slot rest, a = .handle env → (s.listeners l).msgs.commitPipe = slot :: rest → p ≠ .command l slot) :
    heap.boxes x = s.heap.boxes x := by
  refine move.boxes_of_ne (fun i inCell => ?_) fun event => ?_
  · exact notCell i (owners.sound.exclusive p (.cell l i) x held inCell)
  · obtain ⟨env, slot, rest, serial, handles, pipe, written⟩ := Listener.rxEvent_expect event
    have inCommand : s.holding (.command l slot) = some x := MsgTable.box_of_head pipe written
    exact notHead env slot rest handles pipe (owners.sound.exclusive p (.command l slot) x held inCommand)

/-- No client works on a box that it does not have. -/
theorem OwnerInv.boxes_of_client {s t : BusState} {c : Nat} {stage : Stage} (owners : OwnerInv s)
    (move : StageMove s t (s.clients c).stage stage) {p : Place} {x : Nat} (held : s.holding p = some x)
    (other : p ≠ .client c) : t.heap.boxes x = s.heap.boxes x := by
  have below := (owners.sound.alive p x held).1
  refine move.boxes_of_ne (fun own => ?_) (by omega)
  exact other (owners.sound.exclusive p (.client c) x held (ClientPc.stage_box own))

theorem StatusInv.step {s t : BusState} {label : BusLabel} (inv : StatusInv s) (slots : SlotInv s) (owners : OwnerInv s)
    (taken : busStep s label = some t) : StatusInv t := by
  cases busStep_move taken with
  | client c a next clients stage rx _ =>
    refine ⟨fun c' => ?_, fun l slot b held => ?_, fun l i b held => ?_, fun l i => by rw [rx]; exact inv.formed l i⟩
    · rw [clients, Function.update_apply]
      split
      · exact stage.statusIn (inv.client c)
      · rename_i other
        refine Stage.statusIn_congr (inv.client c') fun b own => ?_
        exact owners.boxes_of_client stage (p := .client c') (ClientPc.stage_box own) (by simpa using other)
    · rcases clientStep_command slots taken held with before | ⟨expecting, same⟩
      · rw [owners.boxes_of_client stage (p := .command l slot) before (by simp)]
        exact inv.command l slot b before
      · have status := inv.client c
        rw [expecting] at status
        rw [same]
        exact status
    · rw [rx] at held
      rw [owners.boxes_of_client stage (p := .cell l i) held (by simp)]
      exact inv.cell l i b held
  | listener l a listener clients _ listeners move =>
    have moved := listenerStep_of_busStep taken listeners
    refine ⟨fun c => ?_, fun l' slot b held => ?_, fun l' i b held => ?_, fun l' i => ?_⟩
    · rw [clients]
      refine Stage.statusIn_congr (inv.client c) fun b own => ?_
      exact owners.boxes_of_place move (p := .client c) (ClientPc.stage_box own) (by simp) (by simp)
    · rw [listeners] at held
      by_cases here : l' = l
      · subst here
        rw [Function.update_self] at held
        obtain ⟨before, notHead⟩ := listenerStep_command moved (slots.apart l') held
        rw [owners.boxes_of_place move (p := .command l' slot) before (by simp)
          (fun env slot' rest handles pipe => by simpa using notHead env slot' rest handles pipe)]
        exact inv.command l' slot b before
      · rw [Function.update_of_ne here] at held
        rw [owners.boxes_of_place move (p := .command l' slot) held (by simp) (fun _ _ _ _ _ => by simp [here])]
        exact inv.command l' slot b held
    · rw [listeners] at held
      by_cases here : l' = l
      · subst here
        rw [Function.update_self] at held
        refine move.defined ?_
        rcases move.box_origin held with before | event
        · exact inv.cell l' i b before
        · obtain ⟨env, slot, rest, serial, _, pipe, written⟩ := Listener.rxEvent_expect event
          rw [inv.command l' slot b (MsgTable.box_of_head pipe written)]
          simp
      · rw [Function.update_of_ne here] at held
        rw [owners.boxes_of_place move (p := .cell l' i) held (by simp [here]) (by simp)]
        exact inv.cell l' i b held
    · rw [listeners]
      exact update_listener (P := fun listener => (listener.rx.state i).wellFormed) (inv.formed l' i)
        fun here _ => move.wellFormed (inv.formed l) i
  | run k clients listeners heap =>
    refine ⟨?_, ?_, ?_, ?_⟩
    · rw [clients, heap]
      exact inv.client
    · rw [listeners, heap]
      exact inv.command
    · rw [listeners, heap]
      exact inv.cell
    · rw [listeners]
      exact inv.formed

theorem status_invariant {n : Nat} {s : BusState} {ok : BusState → BusLabel → Prop} (reach : Reach busStep (.new n) ok s) :
    StatusInv s := by
  induction reach with
  | start => exact .new n
  | next before _ taken ih =>
    obtain ⟨slots, owners⟩ := bus_invariant before
    exact ih.step slots owners taken

end Kinetic
