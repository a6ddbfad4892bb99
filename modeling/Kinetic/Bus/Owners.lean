import Kinetic.Bus.Places

namespace Kinetic
open Function (update)
open Ownership

/-- The command that the listener will read next. -/
def Listener.nextCommand (l : Listener) : Option Command :=
  l.msgs.commitPipe.head?.bind fun slot => (l.msgs.msgs slot).map Msg.command

/-- Whether a step does not read an `EXPECT` for which the listener has no `HOLD`. -/
def BusState.holdFound (s : BusState) : BusLabel → Bool
  | .listener l (.handle _) =>
    match (s.listeners l).nextCommand with
    | some (.expectResponse b) => (s.listeners l).rx.holdsFor s.heap.boxes b
    | _ => true
  | _ => true

theorem BusState.holdFound_expect {s : BusState} {l slot b serial : Nat} {rest : List Nat} (env : CommandEnv)
    (pipe : (s.listeners l).msgs.commitPipe = slot :: rest)
    (written : (s.listeners l).msgs.msgs slot = some ⟨.expectResponse b, serial⟩) :
    s.holdFound (.listener l (.handle env)) = (s.listeners l).rx.holdsFor s.heap.boxes b := by
  simp [BusState.holdFound, Listener.nextCommand, pipe, written]

theorem BusState.holdFound_none {s : BusState} {l slot : Nat} {rest : List Nat} {msg : Msg} (env : CommandEnv)
    (pipe : (s.listeners l).msgs.commitPipe = slot :: rest) (written : (s.listeners l).msgs.msgs slot = some msg)
    (empty : msg.command.box = none) : s.holdFound (.listener l (.handle env)) = true := by
  obtain ⟨command, serial⟩ := msg
  cases command <;> simp_all [BusState.holdFound, Listener.nextCommand, Command.box]

section Listeners
variable {s : BusState} {l : Nat} {listener : Listener} {heap : Heap} {conns : Connections}

theorem change_listener_keep (msgs : ∀ i, listener.msgs.box i = (s.listeners l).msgs.box i)
    (rx : listener.rx.box = (s.listeners l).rx.box) (scheduled : heap.scheduled = s.heap.scheduled) :
    Change s.holding s.live (s.setListener l listener heap conns).holding (s.setListener l listener heap conns).live :=
  .keep (fun r => setListener_others r (fun i _ => msgs i) (fun i _ => congrFun rx i) (fun _ _ => by rw [scheduled]))
    (live_same rfl rfl)

/-- The listener hands a box that was in one of its places to the pool. -/
theorem change_listener_schedule {p : Place} {b : Nat} (held : s.holding p = some b)
    (left : (s.setListener l listener heap conns).holding p = none) (scheduled : heap.scheduled = s.heap.scheduled ++ [b])
    (command : ∀ i, p ≠ .command l i → listener.msgs.box i = (s.listeners l).msgs.box i)
    (cell : ∀ i, p ≠ .cell l i → listener.rx.box i = (s.listeners l).rx.box i) :
    Change s.holding s.live (s.setListener l listener heap conns).holding (s.setListener l listener heap conns).live := by
  refine .move p (.task s.heap.scheduled.length) b held (List.getElem?_eq_none (Nat.le_refl _)) left ?_ ?_
    (live_same rfl rfl)
  · rw [setListener_task, scheduled, scheduled_append, if_pos rfl]
  · intro r other notTask
    refine setListener_others r ?_ ?_ ?_
    · rintro i rfl
      exact command i other.symm
    · rintro i rfl
      exact cell i other.symm
    · rintro k rfl
      rw [scheduled, scheduled_append, if_neg fun last => notTask (congrArg Place.task last)]

/-- Work of the listener on its cells. -/
theorem Delivers.change {i : Nat} (delivers : Delivers i (s.listeners l).rx s.heap listener.rx heap)
    (msgs : ∀ i, listener.msgs.box i = (s.listeners l).msgs.box i) :
    Change s.holding s.live (s.setListener l listener heap conns).holding (s.setListener l listener heap conns).live := by
  cases delivers with
  | kept rx scheduled => exact change_listener_keep msgs rx scheduled
  | delivered b held rx scheduled =>
    have left : (s.setListener l listener heap conns).holding (.cell l i) = none := by
      rw [setListener_cell, if_pos rfl, rx, Function.update_self]
    refine change_listener_schedule (p := .cell l i) held left scheduled (fun j _ => msgs j) fun j other => ?_
    have distinct : j ≠ i := by
      rintro rfl
      exact other rfl
    rw [rx, Function.update_of_ne distinct]

/-- An `EXPECT` that the listener takes moves its box from the command to a cell or to the pool. -/
theorem Takes.change {slot b : Nat} (takes : Takes b (s.listeners l).rx s.heap listener.rx heap)
    (held : (s.listeners l).msgs.box slot = some b)
    (msgs : ∀ i, listener.msgs.box i = if i = slot then none else (s.listeners l).msgs.box i) :
    Change s.holding s.live (s.setListener l listener heap conns).holding (s.setListener l listener heap conns).live := by
  have left : (s.setListener l listener heap conns).holding (.command l slot) = none := by
    rw [setListener_command, if_pos rfl, msgs, if_pos rfl]
  have command (i : Nat) (other : Place.command l slot ≠ .command l i) :
      listener.msgs.box i = (s.listeners l).msgs.box i := by
    have distinct : i ≠ slot := by
      rintro rfl
      exact other rfl
    rw [msgs, if_neg distinct]
  cases takes with
  | stored i empty rx scheduled =>
    refine .move (.command l slot) (.cell l i) b held empty left ?_ ?_ (live_same rfl rfl)
    · rw [setListener_cell, if_pos rfl, rx, Function.update_self]
    · intro r notCommand notCell
      refine setListener_others r ?_ ?_ fun _ _ => by rw [scheduled]
      · rintro j rfl
        exact command j notCommand.symm
      · rintro j rfl
        have distinct : j ≠ i := by
          rintro rfl
          exact notCell rfl
        rw [rx, Function.update_of_ne distinct]
  | delivered rx scheduled =>
    exact change_listener_schedule (p := .command l slot) held left scheduled command fun j _ => congrFun rx j

/-- Reading a command without a box takes no box out of the commit pipe. -/
theorem SlotInv.box_read_none {slot : Nat} {rest : List Nat} {msg : Msg} (slots : SlotInv s)
    (pipe : (s.listeners l).msgs.commitPipe = slot :: rest) (written : (s.listeners l).msgs.msgs slot = some msg)
    (empty : msg.command.box = none) (i : Nat) :
    ({ (s.listeners l).msgs with commitPipe := rest } : MsgTable).box i = (s.listeners l).msgs.box i := by
  rw [MsgTable.box_read pipe (slots.pipe_nodup l)]
  split
  · rename_i here
    rw [here, MsgTable.box_of_head pipe written, empty]
  · rfl

/-- A step of a listener loses no box, if it does not read an `EXPECT` without its `HOLD`. -/
theorem ListenerMove.change {a : ListenerAction} (move : ListenerMove (s.listeners l) s.heap listener heap a)
    (slots : SlotInv s) (found : s.holdFound (.listener l a) = true) :
    Change s.holding s.live (s.setListener l listener heap conns).holding (s.setListener l listener heap conns).live := by
  cases move with
  | answers env slot rest msg reads empty _ msgs rx scheduled =>
    refine change_listener_keep (fun i => ?_) rx scheduled
    rw [msgs]
    exact slots.box_read_none reads.pipe reads.written empty i
  | expects env slot rest b serial reads _ msgs run =>
    rw [s.holdFound_expect env reads.pipe reads.written] at found
    refine (expectResponse_held run found).change (MsgTable.box_of_head reads.pipe reads.written) fun i => ?_
    rw [msgs]
    exact MsgTable.box_read reads.pipe (slots.pipe_nodup l) i
  | shutsDown env slot rest serial reads _ msgs rx scheduled =>
    refine change_listener_keep (fun i => ?_) rx scheduled
    rw [msgs]
    exact slots.box_read_none reads.pipe reads.written rfl i
  | releases slot handling same heapSame =>
    subst same heapSame
    have absent : slot ∉ (s.listeners l).msgs.commitPipe := fun committed =>
      List.disjoint_of_nodup_append (slots.apart l) (List.mem_append_right _ committed)
        (by rw [handling]; exact List.mem_singleton_self slot)
    exact change_listener_keep (MsgTable.box_releaseMsg absent) rfl rfl
  | works a i _ _ _ _ _ msgs delivers => exact delivers.change fun j => by rw [msgs]
  | finishes slot serial atLoop asked same heapSame =>
    subst same heapSame
    exact change_listener_keep (fun _ => rfl) rfl rfl

/-- An `EXPECT` without its `HOLD` is the end of its box. -/
theorem ListenerMove.drop {a : ListenerAction} (move : ListenerMove (s.listeners l) s.heap listener heap a)
    (slots : SlotInv s) (missing : s.holdFound (.listener l a) = false) :
    ∃ p b, Drop s.holding s.live (s.setListener l listener heap conns).holding
      (s.setListener l listener heap conns).live p b := by
  cases move with
  | expects env slot rest b serial reads _ msgs run =>
    rw [s.holdFound_expect env reads.pipe reads.written] at missing
    obtain ⟨rx, same⟩ := expectResponse_not_held run missing
    have after (i : Nat) : listener.msgs.box i = if i = slot then none else (s.listeners l).msgs.box i := by
      rw [msgs]
      exact MsgTable.box_read reads.pipe (slots.pipe_nodup l) i
    refine ⟨.command l slot, b, MsgTable.box_of_head reads.pipe reads.written, ?_, ?_, live_same rfl rfl⟩
    · rw [setListener_command, if_pos rfl, after, if_pos rfl]
    · intro r other
      refine setListener_others r ?_ (fun i _ => by rw [rx]) fun _ _ => by rw [same]
      rintro i rfl
      have distinct : i ≠ slot := by
        rintro rfl
        exact other rfl
      rw [after, if_neg distinct]
  | answers env slot rest msg reads empty =>
    rw [s.holdFound_none env reads.pipe reads.written empty] at missing
    cases missing
  | shutsDown env slot rest serial reads =>
    rw [s.holdFound_none env reads.pipe reads.written rfl] at missing
    cases missing
  | releases => cases missing
  | finishes => cases missing
  | works a i notHandle =>
    cases a with
    | handle env => exact absurd rfl (notHandle env)
    | _ => cases missing

end Listeners

end Kinetic
