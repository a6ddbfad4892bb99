import Kinetic.Bus.Stages

namespace Kinetic
open Function (update)

/-- The message in a committed slot. -/
def MsgTable.queued (t : MsgTable) (slot : Nat) : Option Msg := if slot ∈ t.commitPipe then t.msgs slot else none

section Messages
variable {t : MsgTable} {slot : Nat}

theorem MsgTable.written_of_queued {msg : Msg} (queued : t.queued slot = some msg) : t.msgs slot = some msg := by
  unfold MsgTable.queued at queued
  split at queued
  · exact queued
  · cases queued

theorem MsgTable.queued_of_not_mem (absent : slot ∉ t.commitPipe) : t.queued slot = none := if_neg absent

theorem MsgTable.box_eq_queued (t : MsgTable) (slot : Nat) :
    t.box slot = (t.queued slot).bind fun msg => msg.command.box := by
  unfold MsgTable.box MsgTable.queued
  split
  · rfl
  · rfl

theorem MsgTable.queued_fill (absent : slot ∉ t.commitPipe) (msg : Msg) (i : Nat) :
    (t.fill slot msg).queued i = t.queued i := by
  by_cases here : i = slot
  · subst here
    rw [queued_of_not_mem absent]
    exact if_neg absent
  · simp [MsgTable.queued, MsgTable.fill, here]

theorem MsgTable.queued_releaseMsg (absent : slot ∉ t.commitPipe) (i : Nat) :
    (t.releaseMsg slot).queued i = t.queued i := by
  by_cases here : i = slot
  · subst here
    rw [queued_of_not_mem absent]
    exact if_neg absent
  · simp [MsgTable.queued, MsgTable.releaseMsg, here]

theorem MsgTable.queued_pushMessage (i : Nat) :
    (t.pushMessage slot).queued i = if i = slot then t.msgs slot else t.queued i := by
  by_cases here : i = slot
  · subst here
    rw [if_pos rfl]
    exact if_pos (List.mem_append_right _ (List.mem_singleton_self i))
  · rw [if_neg here]
    simp [MsgTable.queued, MsgTable.pushMessage, here]

theorem MsgTable.queued_read {rest : List Nat} (pipe : t.commitPipe = slot :: rest) (nodup : t.commitPipe.Nodup) (i : Nat) :
    ({ t with commitPipe := rest } : MsgTable).queued i = if i = slot then none else t.queued i := by
  rw [pipe, List.nodup_cons] at nodup
  split
  · rename_i here
    subst here
    exact if_neg nodup.1
  · rename_i distinct
    simp [MsgTable.queued, pipe, distinct]

end Messages

/-- What a client step does to the committed commands. -/
inductive QueueMove (s t : BusState) (c : Nat) : ClientAction → Prop
  | keeps (a : ClientAction) : (∀ l i, (t.listeners l).msgs.queued i = (s.listeners l).msgs.queued i) → QueueMove s t c a
  | commits (p : Purpose) (l slot serial : Nat) (command : Command) : s.clients c = .push p l slot serial →
      command.box = p.handsOver →
      (∀ l' i, (t.listeners l').msgs.queued i =
        if l' = l ∧ i = slot then some ⟨command, serial⟩ else (s.listeners l').msgs.queued i) →
      (s.listeners l).msgs.msgs slot = some ⟨command, serial⟩ →
      t = (s.setMsgs l ((s.listeners l).msgs.pushMessage slot)).pushed c l slot serial p →
      QueueMove s t c (.pushMessage true)

theorem clientStep_queue {s t : BusState} {c : Nat} {a : ClientAction} (slots : SlotInv s) (run : clientStep s c a = some t) :
    QueueMove s t c a := by
  have kept {l' : Nat} {msgs : MsgTable} (listeners : t.listeners = (s.setMsgs l' msgs).listeners)
      (same : ∀ i, msgs.queued i = (s.listeners l').msgs.queued i) : QueueMove s t c a := by
    refine .keeps a fun l i => ?_
    rw [listeners]
    simp only [BusState.setMsgs, Function.update_apply]
    split
    · rename_i here
      rw [here]
      exact same i
    · rfl
  cases clientStep_move run with
  | requests msg idle clients listeners => exact .keeps _ fun l i => by rw [listeners]
  | goesOn a _ alone continues => exact .keeps _ fun l i => by rw [continues.listeners]
  | delivers b alone box clients listeners => exact .keeps _ fun l i => by rw [listeners]
  | takes p l' free next _ _ freelist _ same =>
    have absent : free ∉ (s.listeners l').msgs.commitPipe := by
      have nodup := (slots.apart l').of_append_left
      rw [freelist] at nodup
      exact fun committed => (List.nodup_cons.mp nodup).1 (List.mem_append_right _ committed)
    subst same
    exact kept rfl (MsgTable.queued_fill (t := { (s.listeners l').msgs with msgFreelist := next }) absent _)
  | commits p l' pushed serial writing same =>
    obtain ⟨command, written, handed⟩ := slots.written c p l' pushed serial writing
    refine .commits p l' pushed serial command writing handed (fun l i => ?_) written same
    rw [same, BusState.pushed_listeners]
    simp only [BusState.setMsgs, Function.update_apply]
    split
    · rename_i here
      subst here
      dsimp only
      rw [MsgTable.queued_pushMessage, written]
      simp
    · rename_i other
      rw [if_neg fun both => other both.1]
  | fails p l' released serial writing continues =>
    have absent := not_committed (slots.held c p l' released serial writing)
    exact kept continues.listeners (MsgTable.queued_releaseMsg absent)
  | reads p l' read serial reply rest waiting pipe continues => exact kept continues.listeners fun _ => rfl
  | givesUp p l' given serial waiting continues => exact .keeps _ fun l i => by rw [continues.listeners]

/-- A listener reads the command at the head of the commit pipe, and leaves the others there. -/
theorem listenerStep_queue {l l' : Listener} {h h' : Heap} {conns conns' : Connections} {a : ListenerAction}
    (run : listenerStep l h conns a = some (l', h', conns')) (apart : l.slots.Nodup) :
    (∀ i, l'.msgs.queued i = l.msgs.queued i) ∧ (∀ env, a ≠ .handle env) ∨
      ∃ env slot rest msg, a = .handle env ∧ l.msgs.commitPipe = slot :: rest ∧ l.msgs.msgs slot = some msg ∧
        ∀ i, l'.msgs.queued i = if i = slot then none else l.msgs.queued i := by
  have nodup := apart.of_append_left.of_append_right
  cases listenerStep_move run with
  | answers env slot rest msg reads _ _ msgs =>
    refine .inr ⟨env, slot, rest, msg, rfl, reads.pipe, reads.written, fun i => ?_⟩
    rw [msgs]
    exact MsgTable.queued_read reads.pipe nodup i
  | expects env slot rest b serial reads _ msgs =>
    refine .inr ⟨env, slot, rest, _, rfl, reads.pipe, reads.written, fun i => ?_⟩
    rw [msgs]
    exact MsgTable.queued_read reads.pipe nodup i
  | shutsDown env slot rest serial reads _ msgs =>
    refine .inr ⟨env, slot, rest, _, rfl, reads.pipe, reads.written, fun i => ?_⟩
    rw [msgs]
    exact MsgTable.queued_read reads.pipe nodup i
  | releases slot handling same =>
    have absent : slot ∉ l.msgs.commitPipe := fun committed =>
      List.disjoint_of_nodup_append apart (List.mem_append_right _ committed)
        (by rw [handling]; exact List.mem_singleton_self slot)
    rw [same]
    exact .inl ⟨MsgTable.queued_releaseMsg absent, by simp⟩
  | works a j notHandle _ _ _ _ msgs => exact .inl ⟨fun i => by rw [msgs], notHandle⟩
  | finishes slot serial _ _ same =>
    rw [same]
    exact .inl ⟨fun _ => rfl, by simp⟩

/-- A message in a slot after a client step was there before, or is the one that the client has just written. -/
theorem clientStep_written {s t : BusState} {c : Nat} {a : ClientAction} (run : clientStep s c a = some t) {l i : Nat}
    {msg : Msg} (present : (t.listeners l).msgs.msgs i = some msg) :
    (s.listeners l).msgs.msgs i = some msg ∨
      ∃ p, a = .getFreeMsg ∧ s.clients c = .acquire p ∧ msg = ⟨p.command s, s.nextSerial⟩ ∧
        t.nextSerial = s.nextSerial + 1 := by
  have kept {l' : Nat} {msgs : MsgTable} (listeners : t.listeners = (s.setMsgs l' msgs).listeners)
      (before : ∀ i msg, msgs.msgs i = some msg → (s.listeners l').msgs.msgs i = some msg) :
      (s.listeners l).msgs.msgs i = some msg := by
    rw [listeners] at present
    simp only [BusState.setMsgs, Function.update_apply] at present
    split at present
    · rename_i here
      rw [here]
      exact before i msg present
    · exact present
  cases clientStep_move run with
  | requests msg idle clients listeners => rw [listeners] at present; exact .inl present
  | goesOn a _ alone continues => rw [continues.listeners] at present; exact .inl present
  | delivers b alone box clients listeners => rw [listeners] at present; exact .inl present
  | takes p l' slot next acquiring _ freelist empty same =>
    subst same
    by_cases here : l = l' ∧ i = slot
    · obtain ⟨rfl, rfl⟩ := here
      refine .inr ⟨p, rfl, acquiring, ?_, rfl⟩
      simp only [BusState.setClient, BusState.setMsgs, Function.update_self, MsgTable.fill] at present
      exact (Option.some.inj present).symm
    · refine .inl ?_
      simp only [BusState.setClient, BusState.setMsgs, Function.update_apply] at present
      split at present
      · rename_i atListener
        subst atListener
        simp only [MsgTable.fill] at present
        rwa [Function.update_of_ne fun same => here ⟨rfl, same⟩] at present
      · exact present
  | commits p l' pushed serial writing same =>
    have listeners : t.listeners = (s.setMsgs l' ((s.listeners l').msgs.pushMessage pushed)).listeners := by
      rw [same, BusState.pushed_listeners]
    exact .inl (kept listeners fun _ _ before => before)
  | fails p l' released serial writing continues =>
    refine .inl (kept continues.listeners fun j message before => ?_)
    simp only [MsgTable.releaseMsg, Function.update_apply] at before
    split at before
    · cases before
    · exact before
  | reads p l' read serial reply rest waiting pipe continues => exact .inl (kept continues.listeners fun _ _ before => before)
  | givesUp p l' given serial waiting continues => rw [continues.listeners] at present; exact .inl present

theorem listenerStep_written {l l' : Listener} {h h' : Heap} {conns conns' : Connections} {a : ListenerAction}
    (run : listenerStep l h conns a = some (l', h', conns')) {i : Nat} {msg : Msg} (present : l'.msgs.msgs i = some msg) :
    l.msgs.msgs i = some msg := by
  cases listenerStep_move run with
  | answers env slot rest msg reads _ _ msgs => rw [msgs] at present; exact present
  | expects env slot rest b serial reads _ msgs => rw [msgs] at present; exact present
  | shutsDown env slot rest serial reads _ msgs => rw [msgs] at present; exact present
  | releases slot handling same =>
    rw [same] at present
    simp only [MsgTable.releaseMsg, Function.update_apply] at present
    split at present
    · cases present
    · exact present
  | works a j notHandle _ _ _ _ msgs => rw [msgs] at present; exact present
  | finishes slot serial _ _ same => rw [same] at present; exact present

end Kinetic
