import Kinetic.Bus.Steps
import Kinetic.Listener.Moves
import Mathlib.Data.List.Nodup
import Mathlib.Data.List.Perm.Basic

namespace Kinetic
open Function (update)

/-- Every slot is in one place only, and a slot that a client is writing holds its command. -/
structure SlotInv (s : BusState) : Prop where
  apart : ∀ l, (s.listeners l).slots.Nodup
  held : ∀ c p l slot serial, s.clients c = .push p l slot serial → slot ∉ (s.listeners l).slots
  single : ∀ c c' p p' l slot serial serial', s.clients c = .push p l slot serial →
    s.clients c' = .push p' l slot serial' → c = c'
  written : ∀ c p l slot serial, s.clients c = .push p l slot serial →
    ∃ command, (s.listeners l).msgs.msgs slot = some ⟨command, serial⟩ ∧ command.box = p.handsOver

theorem SlotInv.new (listenerCount : Nat) : SlotInv (.new listenerCount) := by
  refine ⟨fun l => ?_, ?_, ?_, ?_⟩
  · have free : (List.range maxQueueMessages).reverse.Nodup := List.nodup_reverse.mpr List.nodup_range
    simpa [BusState.new, Listener.new, Listener.slots, MsgTable.new, ListenerPc.slots] using free
  · intro c p l slot serial writing
    cases writing
  · intro c c' p p' l slot serial serial' writing
    cases writing
  · intro c p l slot serial writing
    cases writing

/-- What holds of a listener holds after a change to one listener that keeps it there. -/
theorem update_listener {listeners : Nat → Listener} {l l' : Nat} {next : Listener} {P : Listener → Prop}
    (before : P (listeners l')) (changed : l' = l → P (listeners l) → P next) : P (update listeners l next l') := by
  by_cases here : l' = l
  · subst here
    rw [Function.update_self]
    exact changed rfl before
  · rw [Function.update_of_ne here]
    exact before

section Steps
variable {s t : BusState} {c : Nat}

/-- A step in which the client `c` ends up without a slot, and which leaves the slots of the other clients alone. -/
theorem SlotInv.leave (inv : SlotInv s) {pc : ClientPc} (clients : t.clients = update s.clients c pc)
    (alone : ∀ p l slot serial, pc ≠ .push p l slot serial) (apart : ∀ l, (t.listeners l).slots.Nodup)
    (kept : ∀ c' p l slot serial, c' ≠ c → s.clients c' = .push p l slot serial →
      slot ∉ (t.listeners l).slots ∧ (t.listeners l).msgs.msgs slot = (s.listeners l).msgs.msgs slot) : SlotInv t := by
  have before : ∀ c' p l slot serial, t.clients c' = .push p l slot serial →
      c' ≠ c ∧ s.clients c' = .push p l slot serial := by
    intro c' p l slot serial writing
    rw [clients, Function.update_apply] at writing
    split at writing
    · exact absurd writing (alone p l slot serial)
    · rename_i other
      exact ⟨other, writing⟩
  refine ⟨apart, ?_, ?_, ?_⟩
  · intro c' p l slot serial writing
    obtain ⟨other, writing⟩ := before _ _ _ _ _ writing
    exact (kept _ _ _ _ _ other writing).1
  · intro c' c'' p p' l slot serial serial' first second
    exact inv.single _ _ _ _ _ _ _ _ (before _ _ _ _ _ first).2 (before _ _ _ _ _ second).2
  · intro c' p l slot serial writing
    obtain ⟨other, writing⟩ := before _ _ _ _ _ writing
    rw [(kept _ _ _ _ _ other writing).2]
    exact inv.written _ _ _ _ _ writing

theorem ClientPc.alone_not_push {pc : ClientPc} (alone : pc.alone = true) (p : Purpose) (l slot serial : Nat) :
    pc ≠ .push p l slot serial := by
  rintro rfl
  cases alone

/-- A step of the client `c` that leaves the listeners alone. -/
theorem SlotInv.leave_alone (inv : SlotInv s) {pc : ClientPc} (clients : t.clients = update s.clients c pc)
    (alone : ∀ p l slot serial, pc ≠ .push p l slot serial) (listeners : t.listeners = s.listeners) : SlotInv t := by
  refine inv.leave clients alone ?_ ?_
  · rw [listeners]
    exact inv.apart
  · intro c' p l slot serial _ writing
    rw [listeners]
    exact ⟨inv.held _ _ _ _ _ writing, rfl⟩

/-- A client that goes on without a slot leaves the slots as it found them. -/
theorem SlotInv.continues {box : Option Nat} (inv : SlotInv s) (continues : Continues s t c box) : SlotInv t := by
  obtain ⟨pc, clients, alone, _⟩ := continues.client
  exact inv.leave_alone clients (ClientPc.alone_not_push alone) continues.listeners

/-- The client `c` puts its slot back, free or committed. -/
theorem SlotInv.put {p : Purpose} {l slot serial : Nat} {msgs : MsgTable} {pc : ClientPc} (inv : SlotInv s)
    (writing : s.clients c = .push p l slot serial) (clients : t.clients = update s.clients c pc)
    (alone : ∀ p l slot serial, pc ≠ .push p l slot serial) (listeners : t.listeners = (s.setMsgs l msgs).listeners)
    (added : ({ s.listeners l with msgs := msgs } : Listener).slots.Perm (slot :: (s.listeners l).slots))
    (same : ∀ i, i ≠ slot → msgs.msgs i = (s.listeners l).msgs.msgs i) : SlotInv t := by
  refine inv.leave clients alone ?_ ?_
  · intro l'
    rw [listeners]
    refine update_listener (P := fun listener => listener.slots.Nodup) (inv.apart l') fun _ nodup => ?_
    rw [added.nodup_iff, List.nodup_cons]
    exact ⟨inv.held _ _ _ _ _ writing, nodup⟩
  · intro c' p' l' slot' serial' other writing'
    have absent := inv.held _ _ _ _ _ writing'
    rw [listeners]
    refine update_listener (P := fun listener =>
      slot' ∉ listener.slots ∧ listener.msgs.msgs slot' = (s.listeners l').msgs.msgs slot') ⟨absent, rfl⟩ fun here _ => ?_
    subst here
    have distinct : slot' ≠ slot := by
      rintro rfl
      exact other (inv.single _ _ _ _ _ _ _ _ writing' writing)
    rw [added.mem_iff, List.mem_cons, not_or]
    exact ⟨⟨distinct, absent⟩, same slot' distinct⟩

/-- The client `c` takes the first free slot and writes its command in it. -/
theorem SlotInv.take {p : Purpose} {l slot serial : Nat} {next : List Nat} {command : Command} (inv : SlotInv s)
    (free : (s.listeners l).msgs.msgFreelist = slot :: next)
    (clients : t.clients = update s.clients c (.push p l slot serial))
    (listeners : t.listeners =
      (s.setMsgs l ({ (s.listeners l).msgs with msgFreelist := next }.fill slot ⟨command, serial⟩)).listeners)
    (handed : command.box = p.handsOver) : SlotInv t := by
  have atListener : t.listeners l =
      { s.listeners l with msgs := { (s.listeners l).msgs with msgFreelist := next }.fill slot ⟨command, serial⟩ } := by
    rw [listeners]
    exact Function.update_self ..
  have split : (s.listeners l).slots = slot :: (t.listeners l).slots := by
    rw [atListener]
    simp [Listener.slots, free, MsgTable.fill]
  have nodup := inv.apart l
  rw [split, List.nodup_cons] at nodup
  have before : ∀ c' p' l' slot' serial', t.clients c' = .push p' l' slot' serial' →
      (c' = c ∧ p' = p ∧ l' = l ∧ slot' = slot ∧ serial' = serial) ∨ s.clients c' = .push p' l' slot' serial' := by
    intro c' p' l' slot' serial' writing
    rw [clients, Function.update_apply] at writing
    split at writing
    · rename_i same
      cases writing
      exact .inl ⟨same, rfl, rfl, rfl, rfl⟩
    · exact .inr writing
  have others : ∀ c' p' slot' serial', s.clients c' = .push p' l slot' serial' →
      slot' ≠ slot ∧ slot' ∉ (t.listeners l).slots := by
    intro c' p' slot' serial' writing
    have absent := inv.held _ _ _ _ _ writing
    rw [split, List.mem_cons, not_or] at absent
    exact absent
  rw [atListener] at nodup others
  refine ⟨?_, ?_, ?_, ?_⟩
  · intro l'
    rw [listeners]
    exact update_listener (P := fun listener => listener.slots.Nodup) (inv.apart l') fun _ _ => nodup.2
  · intro c' p' l' slot' serial' writing
    rcases before _ _ _ _ _ writing with ⟨rfl, rfl, rfl, rfl, rfl⟩ | writing
    · rw [atListener]
      exact nodup.1
    · rw [listeners]
      refine update_listener (P := fun listener => slot' ∉ listener.slots) (inv.held _ _ _ _ _ writing) fun here _ => ?_
      subst here
      exact (others _ _ _ _ writing).2
  · intro c' c'' p' p'' l' slot' serial' serial'' first second
    rcases before _ _ _ _ _ first with ⟨rfl, rfl, rfl, rfl, rfl⟩ | first
    · rcases before _ _ _ _ _ second with ⟨rfl, _⟩ | second
      · rfl
      · exact absurd rfl (others _ _ _ _ second).1
    · rcases before _ _ _ _ _ second with ⟨rfl, rfl, rfl, rfl, rfl⟩ | second
      · exact absurd rfl (others _ _ _ _ first).1
      · exact inv.single _ _ _ _ _ _ _ _ first second
  · intro c' p' l' slot' serial' writing
    rcases before _ _ _ _ _ writing with ⟨rfl, rfl, rfl, rfl, rfl⟩ | writing
    · refine ⟨command, ?_, handed⟩
      rw [atListener]
      exact Function.update_self ..
    · obtain ⟨stored, atSlot, box⟩ := inv.written _ _ _ _ _ writing
      refine ⟨stored, ?_, box⟩
      rw [listeners]
      refine update_listener (P := fun listener => listener.msgs.msgs slot' = some ⟨stored, serial'⟩) atSlot fun here old => ?_
      subst here
      rw [← old]
      exact Function.update_of_ne (others _ _ _ _ writing).1 ..

/-- A listener that moves slots among its own places. -/
theorem SlotInv.rearrange {l : Nat} {listener : Listener} (inv : SlotInv s) (clients : t.clients = s.clients)
    (listeners : t.listeners = update s.listeners l listener) (slots : listener.slots.Perm (s.listeners l).slots)
    (same : ∀ slot, slot ∉ (s.listeners l).slots → listener.msgs.msgs slot = (s.listeners l).msgs.msgs slot) :
    SlotInv t := by
  refine ⟨?_, ?_, ?_, ?_⟩
  · intro l'
    rw [listeners]
    exact update_listener (P := fun listener => listener.slots.Nodup) (inv.apart l') fun _ nodup => slots.nodup_iff.mpr nodup
  · intro c p l' slot serial writing
    rw [clients] at writing
    rw [listeners]
    refine update_listener (P := fun listener => slot ∉ listener.slots) (inv.held _ _ _ _ _ writing) fun _ absent => ?_
    rw [slots.mem_iff]
    exact absent
  · intro c c' p p' l' slot serial serial' first second
    rw [clients] at first second
    exact inv.single _ _ _ _ _ _ _ _ first second
  · intro c p l' slot serial writing
    rw [clients] at writing
    have absent := inv.held _ _ _ _ _ writing
    obtain ⟨command, atSlot, box⟩ := inv.written _ _ _ _ _ writing
    refine ⟨command, ?_, box⟩
    rw [listeners]
    refine update_listener (P := fun listener => listener.msgs.msgs slot = some ⟨command, serial⟩) atSlot fun here old => ?_
    subst here
    rw [same slot absent, old]

end Steps

theorem Purpose.command_box (s : BusState) (p : Purpose) : (p.command s).box = p.handsOver := by
  cases p <;> rfl

theorem BusState.pushed_client (s : BusState) (c l slot serial : Nat) (p : Purpose) :
    ∃ pc, (s.pushed c l slot serial p).clients = update s.clients c pc ∧
      ∀ p' l' slot' serial', pc ≠ .push p' l' slot' serial' := by
  cases p with
  | expect b tries => exact ⟨.idle, rfl, by simp⟩
  | _ => exact ⟨.wait _ l slot serial, rfl, by simp⟩

theorem BusState.pushed_listeners (s : BusState) (c l slot serial : Nat) (p : Purpose) :
    (s.pushed c l slot serial p).listeners = s.listeners := by
  cases p <;> rfl

theorem SlotInv.client {s t : BusState} {c : Nat} {a : ClientAction} (inv : SlotInv s) (move : ClientMove s t c a) :
    SlotInv t := by
  cases move with
  | requests msg idle clients listeners =>
    exact inv.leave_alone clients (by simp) listeners
  | goesOn a _ alone continues => exact inv.continues continues
  | delivers b alone box clients listeners =>
    exact inv.leave_alone clients (by simp) listeners
  | takes p l slot next _ _ free _ same =>
    subst same
    exact inv.take free rfl rfl (p.command_box s)
  | commits p l slot serial writing same =>
    subst same
    obtain ⟨pc, clients, alone⟩ :=
      BusState.pushed_client (s.setMsgs l ((s.listeners l).msgs.pushMessage slot)) c l slot serial p
    refine inv.put writing clients alone (BusState.pushed_listeners _ _ _ _ _ _) ?_ fun _ _ => rfl
    rw [Listener.slots, Listener.slots, MsgTable.pushMessage, ← List.append_assoc, List.append_assoc _ [slot]]
    exact List.perm_middle
  | fails p l slot serial writing continues =>
    obtain ⟨pc, clients, alone, _⟩ := continues.client
    refine inv.put writing clients (ClientPc.alone_not_push alone) continues.listeners (List.Perm.refl _) ?_
    intro i distinct
    exact Function.update_of_ne distinct ..
  | reads p l slot serial reply rest waiting pipe continues =>
    have read : SlotInv (s.setMsgs l ((s.listeners l).msgs.readReply slot)) :=
      inv.rearrange rfl rfl (List.Perm.refl _) fun _ _ => rfl
    exact read.continues continues
  | givesUp p l slot serial waiting continues => exact inv.continues continues

/-- Every slot keeps to one place in each step of the bus. -/
theorem SlotInv.step {s t : BusState} {label : BusLabel} (inv : SlotInv s) (taken : busStep s label = some t) :
    SlotInv t := by
  cases label with
  | client c a => exact inv.client (clientStep_move taken)
  | listener l a =>
    obtain ⟨⟨listener, heap, conns⟩, moved, run⟩ := Option.bind_eq_some_iff.mp taken
    cases run
    obtain ⟨slots, same⟩ := (listenerStep_move moved).slots
    exact inv.rearrange rfl rfl slots same
  | run k =>
    obtain ⟨_, _, rfl⟩ := busStep_run taken
    exact ⟨inv.apart, inv.held, inv.single, inv.written⟩

end Kinetic
