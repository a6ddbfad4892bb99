import Kinetic.Bus.Assertions
import Kinetic.Bus.Queues
import Kinetic.Bus.Registration

namespace Kinetic
open Function (update)
open Transition (Reach exec exists_reach_of_exec)

/-- The box of a message that the listener frees with its slot, wherever the slot is. -/
def MsgTable.leftBox (t : MsgTable) (slot : Nat) : Option Nat := (t.msgs slot).bind fun msg => msg.command.box

/-- What `Listener_Free` does with a slot: a caller that waits for its socket gets a last reply. -/
def MsgTable.freeMsg (t : MsgTable) (slot : Nat) : MsgTable :=
  match t.msgs slot with
  | some ⟨.addSocket _, serial⟩ => t.notifyCaller slot serial
  | some ⟨.removeSocket _, serial⟩ => t.notifyCaller slot serial
  | _ => t

/-- `Listener_Free` with its assertion: the boxes that it frees, in the cells and then in the slots, and the replies. -/
def listenerFree (l : Listener) : Option (List Nat × MsgTable) :=
  if l.shutdownNotify = .complete then
    some ((List.range maxPendingMessages).filterMap l.rx.box ++ (List.range maxQueueMessages).filterMap l.msgs.leftBox,
      (List.range maxQueueMessages).foldl MsgTable.freeMsg l.msgs)
  else none

/-- The boxes that `Bus_Free` frees with its first listeners. -/
def freeListeners (s : BusState) : Nat → Option (List Nat)
  | 0 => some []
  | count + 1 => do
    let before ← freeListeners s count
    let (boxes, _) ← listenerFree (s.listeners count)
    some (before ++ boxes)

def BusState.pushes (s : BusState) (l slot : Nat) : Prop := ∃ c p serial, s.clients c = .push p l slot serial

/-- The slot is free, committed, or in the hands of the listener or of a client. -/
def BusState.occupies (s : BusState) (l slot : Nat) : Prop := slot ∈ (s.listeners l).slots ∨ s.pushes l slot

section Slots
variable {s t : BusState} {c l slot serial : Nat}

theorem pushes_of_update {pc : ClientPc} (clients : t.clients = update s.clients c pc)
    (alone : ∀ p l slot serial, pc ≠ .push p l slot serial) (pushed : t.pushes l slot) : s.pushes l slot := by
  obtain ⟨c', p, serial, writing⟩ := pushed
  rw [clients, Function.update_apply] at writing
  split at writing
  · exact absurd writing (alone p l slot serial)
  · exact ⟨c', p, serial, writing⟩

/-- A client without a slot goes on without one. -/
theorem pushes_same {pc : ClientPc} (clients : t.clients = update s.clients c pc)
    (before : ∀ p l slot serial, s.clients c ≠ .push p l slot serial)
    (after : ∀ p l slot serial, pc ≠ .push p l slot serial) (l slot : Nat) : t.pushes l slot ↔ s.pushes l slot := by
  refine ⟨pushes_of_update clients after, ?_⟩
  rintro ⟨c', p, serial, writing⟩
  have other : c' ≠ c := by
    rintro rfl
    exact before p l slot serial writing
  exact ⟨c', p, serial, by rw [clients, Function.update_of_ne other, writing]⟩

theorem occupies_quiet {pc : ClientPc} (clients : t.clients = update s.clients c pc)
    (before : ∀ p l slot serial, s.clients c ≠ .push p l slot serial)
    (after : ∀ p l slot serial, pc ≠ .push p l slot serial)
    (listeners : ∀ l, (t.listeners l).slots = (s.listeners l).slots) (l slot : Nat) :
    t.occupies l slot ↔ s.occupies l slot := by
  rw [BusState.occupies, BusState.occupies, listeners, pushes_same clients before after]

/-- A client puts its slot back, free or committed. -/
theorem occupies_put {p : Purpose} {msgs : MsgTable} {pc : ClientPc} (writing : s.clients c = .push p l slot serial)
    (clients : t.clients = update s.clients c pc) (alone : ∀ p l slot serial, pc ≠ .push p l slot serial)
    (listeners : t.listeners = (s.setMsgs l msgs).listeners)
    (added : ({ s.listeners l with msgs := msgs } : Listener).slots.Perm (slot :: (s.listeners l).slots)) (l' i : Nat) :
    t.occupies l' i ↔ s.occupies l' i := by
  have here : (t.listeners l).slots.Perm (slot :: (s.listeners l).slots) := by
    rw [listeners]
    simpa only [BusState.setMsgs, Function.update_self] using added
  have there (other : l' ≠ l) : t.listeners l' = s.listeners l' := by
    rw [listeners]
    exact Function.update_of_ne other ..
  constructor
  · rintro (mem | pushed)
    · by_cases same : l' = l
      · subst same
        rcases List.mem_cons.mp (here.mem_iff.mp mem) with same | kept
        · subst same
          exact .inr ⟨c, p, serial, writing⟩
        · exact .inl kept
      · rw [there same] at mem
        exact .inl mem
    · exact .inr (pushes_of_update clients alone pushed)
  · rintro (mem | ⟨c', p', serial', writing'⟩)
    · left
      by_cases same : l' = l
      · subst same
        exact here.mem_iff.mpr (List.mem_cons_of_mem _ mem)
      · rwa [there same]
    · by_cases same : c' = c
      · subst same
        cases writing'.symm.trans writing
        exact .inl (here.mem_iff.mpr List.mem_cons_self)
      · exact .inr ⟨c', p', serial', by rw [clients, Function.update_of_ne same, writing']⟩

/-- A client takes the first free slot. -/
theorem occupies_take {p : Purpose} {next : List Nat} {msgs : MsgTable}
    (before : ∀ p l slot serial, s.clients c ≠ .push p l slot serial)
    (free : (s.listeners l).msgs.msgFreelist = slot :: next) (clients : t.clients = update s.clients c (.push p l slot serial))
    (listeners : t.listeners = (s.setMsgs l msgs).listeners) (left : msgs.msgFreelist = next)
    (pipe : msgs.commitPipe = (s.listeners l).msgs.commitPipe) (l' i : Nat) : t.occupies l' i ↔ s.occupies l' i := by
  have here : (s.listeners l).slots = slot :: (t.listeners l).slots := by
    rw [listeners]
    simp [BusState.setMsgs, Listener.slots, free, left, pipe]
  have there (other : l' ≠ l) : t.listeners l' = s.listeners l' := by
    rw [listeners]
    exact Function.update_of_ne other ..
  constructor
  · rintro (mem | ⟨c', p', serial', writing⟩)
    · left
      by_cases same : l' = l
      · subst same
        rw [here]
        exact List.mem_cons_of_mem _ mem
      · rwa [there same] at mem
    · rw [clients, Function.update_apply] at writing
      split at writing
      · cases writing
        left
        rw [here]
        exact List.mem_cons_self
      · exact .inr ⟨c', p', serial', writing⟩
  · rintro (mem | ⟨c', p', serial', writing⟩)
    · by_cases same : l' = l
      · subst same
        rw [here, List.mem_cons] at mem
        rcases mem with same | kept
        · subst same
          exact .inr ⟨c, p, serial, by rw [clients, Function.update_self]⟩
        · exact .inl kept
      · left
        rwa [there same]
    · have other : c' ≠ c := by
        rintro rfl
        exact before p' l' i serial' writing
      exact .inr ⟨c', p', serial', by rw [clients, Function.update_of_ne other, writing]⟩

theorem ClientPc.idle_not_push {pc : ClientPc} (same : pc = .idle) (p : Purpose) (l slot serial : Nat) :
    pc ≠ .push p l slot serial := by
  rw [same]
  simp

theorem ClientPc.wait_not_push {pc : ClientPc} {p : Purpose} {l slot serial : Nat} (same : pc = .wait p l slot serial)
    (p' : Purpose) (l' slot' serial' : Nat) : pc ≠ .push p' l' slot' serial' := by
  rw [same]
  simp

theorem clientStep_occupies {a : ClientAction} (run : clientStep s c a = some t) (l slot : Nat) :
    t.occupies l slot ↔ s.occupies l slot := by
  cases clientStep_move run with
  | requests msg idle clients listeners =>
    exact occupies_quiet clients (ClientPc.idle_not_push idle) (by simp) (fun _ => by rw [listeners]) l slot
  | goesOn a _ alone continues =>
    obtain ⟨pc, clients, after, _⟩ := continues.client
    exact occupies_quiet clients (ClientPc.alone_not_push alone) (ClientPc.alone_not_push after)
      (fun _ => by rw [continues.listeners]) l slot
  | delivers b alone box clients listeners =>
    exact occupies_quiet clients (ClientPc.alone_not_push alone) (by simp) (fun _ => by rw [listeners]) l slot
  | takes p l' taken next acquiring _ free empty same =>
    have clients : t.clients = update s.clients c (.push p l' taken s.nextSerial) := by rw [same]; rfl
    have listeners : t.listeners = (s.setMsgs l' ({ (s.listeners l').msgs with msgFreelist := next }.fill taken
        ⟨p.command s, s.nextSerial⟩)).listeners := by rw [same]; rfl
    refine occupies_take (fun p' l'' i serial pushing => ?_) free clients listeners rfl rfl l slot
    cases acquiring.symm.trans pushing
  | commits p l' pushed serial writing same =>
    subst same
    obtain ⟨pc, clients, alone⟩ :=
      BusState.pushed_client (s.setMsgs l' ((s.listeners l').msgs.pushMessage pushed)) c l' pushed serial p
    refine occupies_put writing clients alone (BusState.pushed_listeners _ _ _ _ _ _) ?_ l slot
    rw [Listener.slots, Listener.slots, MsgTable.pushMessage, ← List.append_assoc, List.append_assoc _ [pushed]]
    exact List.perm_middle
  | fails p l' released serial writing continues =>
    obtain ⟨pc, clients, alone, _⟩ := continues.client
    exact occupies_put writing clients (ClientPc.alone_not_push alone) continues.listeners (List.Perm.refl _) l slot
  | reads p l' read serial reply rest waiting pipe continues =>
    obtain ⟨pc, clients, after, _⟩ := continues.client
    refine occupies_quiet (s := s) clients (ClientPc.wait_not_push waiting) (ClientPc.alone_not_push after) (fun i => ?_)
      l slot
    rw [continues.listeners]
    exact update_listener (P := fun listener => listener.slots = (s.listeners i).slots) rfl fun here _ => by rw [here]; rfl
  | givesUp p l' given serial waiting continues =>
    obtain ⟨pc, clients, after, _⟩ := continues.client
    exact occupies_quiet clients (ClientPc.wait_not_push waiting) (ClientPc.alone_not_push after)
      (fun _ => by rw [continues.listeners]) l slot

/-- No step loses a slot or makes one. -/
theorem busStep_occupies {label : BusLabel} (taken : busStep s label = some t) (l slot : Nat) :
    t.occupies l slot ↔ s.occupies l slot := by
  cases label with
  | client c a => exact clientStep_occupies taken l slot
  | listener l' a =>
    obtain ⟨⟨listener, heap, conns⟩, moved, run⟩ := Option.bind_eq_some_iff.mp taken
    cases run
    have same (i : Nat) : slot ∈ (update s.listeners l' listener i).slots ↔ slot ∈ (s.listeners i).slots := by
      by_cases here : i = l'
      · subst here
        rw [Function.update_self]
        exact (listenerStep_move moved).slots.1.mem_iff
      · rw [Function.update_of_ne here]
    exact or_congr (same l) Iff.rfl
  | run k =>
    obtain ⟨_, _, rfl⟩ := busStep_run taken
    exact Iff.rfl

/-- A free slot has no message, only slots of the table have one, and a listener has said that it is done just when it has
ended. -/
structure Listener.Kept (l : Listener) : Prop where
  blank : ∀ slot ∈ l.msgs.msgFreelist, l.msgs.msgs slot = none
  inTable : ∀ slot msg, l.msgs.msgs slot = some msg → slot < maxQueueMessages
  ended : l.shutdownNotify = .complete ↔ l.pc = .stopped

theorem MsgTable.releaseMsg_blank {msgs : MsgTable} {released : Nat} (blank : ∀ i ∈ msgs.msgFreelist, msgs.msgs i = none) :
    ∀ i ∈ (msgs.releaseMsg released).msgFreelist, (msgs.releaseMsg released).msgs i = none := by
  intro i mem
  simp only [MsgTable.releaseMsg, Function.update_apply]
  split
  · rfl
  · rename_i other
    exact blank i ((List.mem_cons.mp mem).resolve_left other)

theorem Listener.Kept.step {l l' : Listener} {h h' : Heap} {conns conns' : Connections} {a : ListenerAction} (kept : l.Kept)
    (run : listenerStep l h conns a = some (l', h', conns')) : l'.Kept := by
  have inTable (i : Nat) (msg : Msg) (present : l'.msgs.msgs i = some msg) : i < maxQueueMessages :=
    kept.inTable i msg (listenerStep_written run present)
  -- a listener that goes on has not said so
  have running {pc : ListenerPc} {l'' : Listener} (here : l.pc = pc) (going : pc ≠ .stopped)
      (same : l''.shutdownNotify = l.shutdownNotify) (still : l''.pc ≠ .stopped) :
      l''.shutdownNotify = .complete ↔ l''.pc = .stopped :=
    ⟨fun complete => absurd (here.symm.trans (kept.ended.mp (same.symm.trans complete))) going, fun stopped => absurd stopped still⟩
  cases listenerStep_cases run with
  | shutsDown env slot rest serial atLoop => exact ⟨kept.blank, inTable, by simp [Listener.afterRead]⟩
  | releases slot handling =>
    exact ⟨MsgTable.releaseMsg_blank kept.blank, inTable, running handling (by simp) rfl (by simp)⟩
  | finishes slot serial atLoop asked => exact ⟨kept.blank, inTable, by simp⟩
  | ticks atLoop => exact ⟨kept.blank, inTable, running atLoop (by simp) rfl (by simp)⟩
  | ticksCell clock accepted i rx h' ticking => exact ⟨kept.blank, inTable, running ticking (by simp) rfl (by simp)⟩
  | ticked clock accepted i ticking => exact ⟨kept.blank, inTable, running ticking (by simp) rfl (by simp)⟩
  | receives i result accepted rx h' atLoop => exact ⟨kept.blank, inTable, running atLoop (by simp) rfl (by simp [atLoop])⟩
  | errs i err atLoop => exact ⟨kept.blank, inTable, running atLoop (by simp) rfl (by simp [atLoop])⟩
  | movesErrored sockets atLoop => exact ⟨kept.blank, inTable, running atLoop (by simp) rfl (by simp [atLoop])⟩
  | adds env slot rest ci serial sockets conns' atLoop =>
    exact ⟨kept.blank, inTable, running atLoop (by simp) rfl (by simp [Listener.afterRead])⟩
  | removes env slot rest fd serial sockets atLoop =>
    exact ⟨kept.blank, inTable, running atLoop (by simp) rfl (by simp [Listener.afterRead])⟩
  | holds env slot rest fd seqId timeoutSec serial rx atLoop =>
    exact ⟨kept.blank, inTable, running atLoop (by simp) rfl (by simp [Listener.afterRead])⟩
  | expects env slot rest b serial rx h' atLoop =>
    exact ⟨kept.blank, inTable, running atLoop (by simp) rfl (by simp [Listener.afterRead])⟩

/-- A client works on the slots of a listener. -/
theorem Listener.Kept.setMsgs {l' : Nat} {msgs : MsgTable} (kept : ∀ l, (s.listeners l).Kept)
    (blank : ∀ i ∈ msgs.msgFreelist, msgs.msgs i = none) (inTable : ∀ i msg, msgs.msgs i = some msg → i < maxQueueMessages)
    (listeners : t.listeners = (s.setMsgs l' msgs).listeners) (l : Nat) : (t.listeners l).Kept := by
  rw [listeners]
  exact update_listener (P := Listener.Kept) (kept l) fun _ _ => ⟨blank, inTable, (kept l').ended⟩

theorem clientStep_listeners {a : ClientAction} (slots : SlotInv s)
    (inTable : ∀ l slot, s.occupies l slot → slot < maxQueueMessages) (kept : ∀ l, (s.listeners l).Kept)
    (run : clientStep s c a = some t) (l : Nat) : (t.listeners l).Kept := by
  cases clientStep_move run with
  | requests msg idle clients listeners => rw [listeners]; exact kept l
  | goesOn a _ alone continues => rw [continues.listeners]; exact kept l
  | delivers b alone box clients listeners => rw [listeners]; exact kept l
  | takes p l' taken next acquiring _ free empty same =>
    have nodup := (slots.apart l').of_append_left.of_append_left
    rw [free, List.nodup_cons] at nodup
    refine Listener.Kept.setMsgs kept ?_ ?_ (by rw [same]; rfl) l
    · intro i mem
      have other : i ≠ taken := by
        rintro rfl
        exact nodup.1 mem
      refine (Function.update_of_ne other ..).trans ((kept l').blank i ?_)
      rw [free]
      exact List.mem_cons_of_mem _ mem
    · intro i msg present
      by_cases here : i = taken
      · subst here
        refine inTable l' i (.inl (List.mem_append_left _ (List.mem_append_left _ ?_)))
        rw [free]
        exact List.mem_cons_self
      · exact (kept l').inTable i msg ((Function.update_of_ne here ..).symm.trans present)
  | commits p l' pushed serial writing same =>
    have listeners : t.listeners = (s.setMsgs l' ((s.listeners l').msgs.pushMessage pushed)).listeners := by
      rw [same, BusState.pushed_listeners]
    refine Listener.Kept.setMsgs kept ?_ ?_ listeners l
    · exact (kept l').blank
    · exact (kept l').inTable
  | fails p l' released serial writing continues =>
    refine Listener.Kept.setMsgs kept (MsgTable.releaseMsg_blank (kept l').blank) ?_ continues.listeners l
    intro i msg present
    simp only [MsgTable.releaseMsg, Function.update_apply] at present
    split at present
    · cases present
    · exact (kept l').inTable i msg present
  | reads p l' read serial reply rest waiting pipe continues =>
    refine Listener.Kept.setMsgs kept ?_ ?_ continues.listeners l
    · exact (kept l').blank
    · exact (kept l').inTable
  | givesUp p l' given serial waiting continues => rw [continues.listeners]; exact kept l

end Slots

section Invariant
variable {n : Nat} {s t : BusState} {c : Nat}

/-- What a client step does to the requests: the client keeps what it has, begins one, or is given an answer. -/
inductive Pending (s t : BusState) (c : Nat) : Prop
  | keeps (pc : ClientPc) : t.clients = update s.clients c pc → pc.box = (s.clients c).box → t.results = s.results →
      t.nextBox = s.nextBox → Pending s t c
  | begins (pc : ClientPc) : t.clients = update s.clients c pc → (s.clients c).box = none → pc.box = some s.nextBox →
      t.results = s.results → t.nextBox = s.nextBox + 1 → Pending s t c
  | answers (pc : ClientPc) (b : Nat) (res : Bool) : t.clients = update s.clients c pc → (s.clients c).box = some b →
      pc.box = none → t.results = update s.results b (some res) → t.nextBox = s.nextBox → Pending s t c

theorem Continues.pending {before : BusState} {box : Option Nat} (continues : Continues before t c box)
    (clients : before.clients = s.clients) (results : before.results = s.results) (nextBox : before.nextBox = s.nextBox)
    (had : box = (s.clients c).box) : Pending s t c := by
  obtain ⟨pc, after, _, ⟨kept, same⟩ | ⟨none, b, own, answered⟩⟩ := continues.client
  · exact .keeps pc (by rw [after, clients]) (kept.trans had) (same.trans results) (continues.nextBox.trans nextBox)
  · exact .answers pc b false (by rw [after, clients]) (had.symm.trans own) none (by rw [answered, results])
      (continues.nextBox.trans nextBox)

theorem clientStep_pending {a : ClientAction} (run : clientStep s c a = some t) : Pending s t c := by
  cases clientStep_move run with
  | requests msg idle clients listeners scheduled nextBox results =>
    exact .begins _ clients (by rw [idle]; rfl) rfl results nextBox
  | goesOn a _ alone continues => exact continues.pending rfl rfl rfl rfl
  | delivers b alone box clients listeners scheduled nextBox results =>
    exact .answers _ b true clients box rfl results nextBox
  | takes p l slot next acquiring _ free empty same =>
    exact .keeps (.push p l slot s.nextSerial) (by rw [same]; rfl) (by rw [acquiring]; rfl) (by rw [same]; rfl)
      (by rw [same]; rfl)
  | commits p l slot serial writing same =>
    cases p with
    | expect b tries =>
      exact .answers .idle b true (by rw [same]; rfl) (by rw [writing]; rfl) rfl (by rw [same]; rfl) (by rw [same]; rfl)
    | _ =>
      exact .keeps (.wait _ l slot serial) (by rw [same]; rfl) (by rw [writing]; rfl) (by rw [same]; rfl) (by rw [same]; rfl)
  | fails p l slot serial writing continues => exact continues.pending rfl rfl rfl (by rw [writing]; rfl)
  | reads p l slot serial reply rest waiting pipe continues => exact continues.pending rfl rfl rfl (by rw [waiting]; rfl)
  | givesUp p l slot serial waiting continues => exact continues.pending rfl rfl rfl (by rw [waiting]; rfl)

/-- A request is open exactly while a client has it. -/
def OpenInv (s : BusState) : Prop := ∀ b, (∃ c, (s.clients c).box = some b) ↔ b < s.nextBox ∧ s.results b = none

theorem OpenInv.client (inv : OpenInv s) (owners : OwnerInv s) (pending : Pending s t c) : OpenInv t := by
  intro b
  cases pending with
  | keeps pc clients box results nextBox =>
    have same (c' : Nat) : (t.clients c').box = (s.clients c').box := by
      rw [clients, Function.update_apply]
      split
      · rename_i here
        rw [box, here]
      · rfl
    simp only [same, results, nextBox, inv b]
  | begins pc clients none box results nextBox =>
    by_cases new : b = s.nextBox
    · have open' := owners.unanswered b (Nat.le_of_eq new.symm)
      refine ⟨fun _ => ⟨by omega, by rw [results, open']⟩, fun _ => ⟨c, ?_⟩⟩
      rw [clients, Function.update_self, box, new]
    · have same (c' : Nat) : (t.clients c').box = some b ↔ (s.clients c').box = some b := by
        rw [clients, Function.update_apply]
        split
        · rename_i here
          rw [here, none, box]
          simp [eq_comm, new]
        · rfl
      have begun : b < t.nextBox ↔ b < s.nextBox := by omega
      simp only [same, results, begun, inv b]
  | answers pc x res clients had box results nextBox =>
    have same (c' : Nat) : (t.clients c').box = some b ↔ (s.clients c').box = some b ∧ b ≠ x := by
      rw [clients, Function.update_apply]
      split
      · rename_i here
        rw [here, had, box]
        simp [eq_comm]
      · rename_i other
        refine ⟨fun held => ⟨held, ?_⟩, And.left⟩
        rintro rfl
        cases owners.sound.exclusive (.client c') (.client c) b held had
        exact other rfl
    have answered : t.results b = none ↔ s.results b = none ∧ b ≠ x := by
      rw [results, Function.update_apply]
      split
      · rename_i here
        simp [here]
      · rename_i other
        simp [other]
    have before := inv b
    simp only [same, answered, nextBox, ← and_assoc, exists_and_right, before]

/-- The slots of every listener are those of its table, each in one place, the open requests are with their clients, and no box
comes to a listener that the bus does not have. -/
structure FreeInv (n : Nat) (s : BusState) : Prop where
  count : s.listenerCount = n
  table : ∀ l slot, s.occupies l slot ↔ slot < maxQueueMessages
  kept : ∀ l, (s.listeners l).Kept
  pending : OpenInv s
  inside : ∀ c b tries l slot serial, s.clients c = .push (.expect b tries) l slot serial → l < n
  unused : ∀ l, n ≤ l → (∀ slot, (s.listeners l).msgs.box slot = none) ∧ ∀ i, (s.listeners l).rx.box i = none

theorem FreeInv.new (n : Nat) : FreeInv n (.new n) := by
  refine ⟨rfl, fun l slot => ?_, fun l => ⟨fun _ _ => rfl, ?_, ?_⟩, fun b => ?_, ?_, fun l _ => ⟨fun slot => ?_, fun i => rfl⟩⟩
  · constructor
    · rintro (free | ⟨c, p, serial, writing⟩)
      · simpa [BusState.new, Listener.slots, Listener.new, MsgTable.new, ListenerPc.slots] using free
      · cases writing
    · intro low
      left
      simpa [BusState.new, Listener.slots, Listener.new, MsgTable.new, ListenerPc.slots] using low
  · rintro slot msg ⟨⟩
  · simp [BusState.new, Listener.new]
  · simp [BusState.new, ClientPc.box]
  · rintro c b tries l slot serial ⟨⟩
  · exact MsgTable.box_of_not_mem (by simp [BusState.new, Listener.new, MsgTable.new])

/-- A client that comes to write an `EXPECT` was given the slot by a listener of the bus. -/
theorem clientStep_inside {a : ClientAction} (positive : 0 < n) (inv : FreeInv n s) (run : clientStep s c a = some t)
    {c' b tries l slot serial : Nat} (writing : t.clients c' = .push (.expect b tries) l slot serial) : l < n := by
  have quiet {pc : ClientPc} (clients : t.clients = update s.clients c pc)
      (alone : ∀ p l slot serial, pc ≠ .push p l slot serial) : l < n := by
    rw [clients, Function.update_apply] at writing
    split at writing
    · exact absurd writing (alone _ _ _ _)
    · exact inv.inside _ _ _ _ _ _ writing
  have continues {before : BusState} {box : Option Nat} (continues : Continues before t c box)
      (same : before.clients = s.clients) : l < n := by
    obtain ⟨pc, clients, alone, _⟩ := continues.client
    exact quiet (by rw [clients, same]) (ClientPc.alone_not_push alone)
  cases clientStep_move run with
  | requests msg idle clients => exact quiet clients (by simp)
  | goesOn a _ alone goes => exact continues goes rfl
  | delivers x alone box clients => exact quiet clients (by simp)
  | takes p l' slot' next acquiring chosen free empty same =>
    have clients : t.clients = update s.clients c (.push p l' slot' s.nextSerial) := by rw [same]; rfl
    rw [clients, Function.update_apply] at writing
    split at writing
    · cases writing
      rw [chosen, Purpose.listener, BusState.listenerIdOfSocket, inv.count]
      exact Nat.mod_lt _ positive
    · exact inv.inside _ _ _ _ _ _ writing
  | commits p l' slot' serial' pushing same =>
    obtain ⟨pc, clients, alone⟩ :=
      BusState.pushed_client (s.setMsgs l' ((s.listeners l').msgs.pushMessage slot')) c l' slot' serial' p
    exact quiet (by rw [same, clients]; rfl) alone
  | fails p l' slot' serial' pushing goes => exact continues goes rfl
  | reads p l' slot' serial' reply rest waiting pipe goes => exact continues goes rfl
  | givesUp p l' slot' serial' waiting goes => exact continues goes rfl

theorem clientStep_unused {a : ClientAction} (inv : FreeInv n s) (slots : SlotInv s) (run : clientStep s c a = some t) (l : Nat)
    (high : n ≤ l) : (∀ slot, (t.listeners l).msgs.box slot = none) ∧ ∀ i, (t.listeners l).rx.box i = none := by
  obtain ⟨commands, cells⟩ := inv.unused l high
  refine ⟨fun slot => ?_, by rw [clientStep_rx run]; exact cells⟩
  simp only [MsgTable.box_eq_queued] at commands ⊢
  cases clientStep_queue slots run with
  | keeps a same => rw [same]; exact commands slot
  | commits p l' pushed serial command writing handed queued =>
    rw [queued]
    split
    · rename_i here
      cases p with
      | expect b tries =>
        have low := inv.inside _ _ _ _ _ _ writing
        omega
      | _ => exact handed
    · exact commands slot

theorem listenerStep_unused {l l' : Listener} {h h' : Heap} {conns conns' : Connections} {a : ListenerAction}
    (run : listenerStep l h conns a = some (l', h', conns')) (apart : l.slots.Nodup) (commands : ∀ slot, l.msgs.box slot = none)
    (cells : ∀ i, l.rx.box i = none) : (∀ slot, l'.msgs.box slot = none) ∧ ∀ i, l'.rx.box i = none := by
  constructor
  · intro slot
    simp only [MsgTable.box_eq_queued] at commands ⊢
    rcases listenerStep_queue run apart with ⟨same, _⟩ | ⟨env, read, rest, msg, _, _, _, same⟩
    · rw [same]
      exact commands slot
    · rw [same]
      split
      · rfl
      · exact commands slot
  · cases listenerStep_move run with
    | answers env slot rest msg reads empty _ msgs rx => rw [rx]; exact cells
    | expects env slot rest b serial reads =>
      have none := commands slot
      rw [MsgTable.box_of_head reads.pipe reads.written] at none
      cases none
    | shutsDown env slot rest serial reads _ msgs rx => rw [rx]; exact cells
    | releases slot handling same => rw [same]; exact cells
    | works a i notHandle _ _ _ _ msgs delivers =>
      cases delivers with
      | kept rx => rw [rx]; exact cells
      | delivered b held =>
        rw [cells i] at held
        cases held
    | finishes slot serial atLoop asked same => rw [same]; exact cells

theorem FreeInv.step {label : BusLabel} (positive : 0 < n) (inv : FreeInv n s) (slots : SlotInv s)
    (owners : OwnerInv s) (taken : busStep s label = some t) : FreeInv n t := by
  have table (l slot : Nat) : t.occupies l slot ↔ slot < maxQueueMessages :=
    (busStep_occupies taken l slot).trans (inv.table l slot)
  cases label with
  | client c a =>
    exact ⟨(clientStep_listenerCount taken).trans inv.count, table,
      clientStep_listeners slots (fun l slot => (inv.table l slot).mp) inv.kept taken,
      inv.pending.client owners (clientStep_pending taken),
      fun c' b tries l slot serial writing => clientStep_inside positive inv taken writing,
      clientStep_unused inv slots taken⟩
  | listener l' a =>
    obtain ⟨⟨listener, heap, conns⟩, moved, run⟩ := Option.bind_eq_some_iff.mp taken
    cases run
    refine ⟨inv.count, table, fun l => ?_, inv.pending, inv.inside, fun l high => ?_⟩
    · exact update_listener (P := Listener.Kept) (inv.kept l) fun _ _ => (inv.kept l').step moved
    · exact update_listener
        (P := fun listener => (∀ slot, listener.msgs.box slot = none) ∧ ∀ i, listener.rx.box i = none)
        (inv.unused l high) fun _ unused => listenerStep_unused moved (slots.apart l') unused.1 unused.2
  | run k =>
    obtain ⟨_, _, rfl⟩ := busStep_run taken
    exact ⟨inv.count, table, inv.kept, inv.pending, inv.inside, inv.unused⟩

theorem free_invariant {ok : BusState → BusLabel → Prop} (positive : 0 < n) (reach : Reach busStep (.new n) ok s) :
    FreeInv n s := by
  induction reach with
  | start => exact .new n
  | next before _ taken ih =>
    obtain ⟨slots, owners⟩ := bus_invariant before
    exact ih.step positive slots owners taken

/-- The places from which `Listener_Free` takes boxes. -/
def listenerPlaces (l : Nat) : List Place :=
  (List.range maxPendingMessages).map (.cell l) ++ (List.range maxQueueMessages).map (.command l)

def busPlaces (n : Nat) : List Place := (List.range n).flatMap listenerPlaces

theorem mem_busPlaces {p : Place} : p ∈ busPlaces n ↔ ∃ l < n,
    (∃ i < maxPendingMessages, p = .cell l i) ∨ ∃ slot < maxQueueMessages, p = .command l slot := by
  simp [busPlaces, listenerPlaces, eq_comm]

theorem client_not_mem_busPlaces (n c : Nat) : Place.client c ∉ busPlaces n := by
  simp [mem_busPlaces]

theorem task_not_mem_busPlaces (n k : Nat) : Place.task k ∉ busPlaces n := by
  simp [mem_busPlaces]

theorem listenerPlaces_nodup (l : Nat) : (listenerPlaces l).Nodup := by
  refine List.Nodup.append ?_ ?_ ?_
  · exact List.nodup_range.map fun i j same => by cases same; rfl
  · exact List.nodup_range.map fun i j same => by cases same; rfl
  · intro p cell command
    obtain ⟨i, _, rfl⟩ := List.mem_map.mp cell
    obtain ⟨slot, _, other⟩ := List.mem_map.mp command
    cases other

theorem busPlaces_nodup (n : Nat) : (busPlaces n).Nodup := by
  refine List.nodup_flatMap.mpr ⟨fun l _ => listenerPlaces_nodup l, ?_⟩
  refine List.nodup_range.imp fun {l l'} distinct => ?_
  intro p here there
  simp only [listenerPlaces, List.mem_append, List.mem_map] at here there
  rcases here with ⟨i, _, rfl⟩ | ⟨i, _, rfl⟩ <;> rcases there with ⟨j, _, same⟩ | ⟨j, _, same⟩ <;> cases same <;>
    exact distinct rfl

/-- When the slots are all with a listener that has ended, what it frees is what the bus has in its places. -/
theorem listenerFree_ended {l : Nat} (inv : FreeInv n s) (stopped : (s.listeners l).pc = .stopped)
    (still : ∀ slot, ¬ s.pushes l slot) :
    ∃ msgs, listenerFree (s.listeners l) = some ((listenerPlaces l).filterMap s.holding, msgs) := by
  have ended := (inv.kept l).ended.mpr stopped
  have left (slot : Nat) : (s.listeners l).msgs.leftBox slot = s.holding (.command l slot) := by
    cases written : (s.listeners l).msgs.msgs slot with
    | none => simp [MsgTable.leftBox, BusState.holding, MsgTable.box, written]
    | some msg =>
      have committed : slot ∈ (s.listeners l).msgs.commitPipe := by
        have placed := (inv.table l slot).mpr ((inv.kept l).inTable slot msg written)
        have mem := placed.resolve_right (still slot)
        simp only [Listener.slots, stopped, ListenerPc.slots, List.append_nil, List.mem_append] at mem
        refine mem.resolve_left fun free => ?_
        rw [(inv.kept l).blank slot free] at written
        cases written
      rw [BusState.holding, MsgTable.box_of_mem committed written, MsgTable.leftBox, written]
      rfl
  have slots : (List.range maxQueueMessages).filterMap (s.listeners l).msgs.leftBox =
      ((List.range maxQueueMessages).map (.command l)).filterMap s.holding := by
    rw [List.filterMap_map]
    exact List.filterMap_congr fun slot _ => left slot
  have cells : (List.range maxPendingMessages).filterMap (s.listeners l).rx.box =
      ((List.range maxPendingMessages).map (.cell l)).filterMap s.holding := by
    rw [List.filterMap_map]
    exact List.filterMap_congr fun i _ => rfl
  exact ⟨_, by rw [listenerFree, if_pos ended, slots, cells, listenerPlaces, List.filterMap_append]⟩

theorem freeListeners_ended (inv : FreeInv n s) {count : Nat} (still : ∀ l < count, ∀ slot, ¬ s.pushes l slot)
    (stopped : ∀ l < count, (s.listeners l).pc = .stopped) :
    freeListeners s count = some ((busPlaces count).filterMap s.holding) := by
  induction count with
  | zero => rfl
  | succ count ih =>
    obtain ⟨msgs, freed⟩ := listenerFree_ended inv (stopped count (Nat.lt_succ_self count))
      (still count (Nat.lt_succ_self count))
    rw [freeListeners, ih (fun l low => still l (Nat.lt_succ_of_lt low)) fun l low => stopped l (Nat.lt_succ_of_lt low)]
    simp [freed, busPlaces, List.range_succ, List.flatMap_append, List.filterMap_append]

end Invariant

section Runs
variable {n : Nat} {s : BusState}

/-- In every run at whose end every listener has ended and no client is about to commit a command, `Bus_Free` gets through
`Listener_Free` for every listener and frees each box at most once, none of them a client's or the pool's. The boxes are those
of accepted requests whose callback has not been scheduled; if each `EXPECT` has found its `HOLD`, they are all of these. -/
theorem busFree_frees_once (positive : 0 < n) (reach : Reach busStep (.new n) (fun _ _ => True) s)
    (stopped : ∀ l < n, (s.listeners l).pc = .stopped) (still : ∀ l < n, ∀ slot, ¬ s.pushes l slot) :
    ∃ freed, freeListeners s n = some freed ∧ (freed ++ s.heap.scheduled).Nodup ∧
      (∀ b ∈ freed, b < s.nextBox ∧ s.results b = some true ∧ ∀ c, (s.clients c).box ≠ some b) ∧
      (Reach busStep (.new n) (fun s label => s.holdFound label = true) s →
        ∀ b, b < s.nextBox → s.results b = some true → b ∈ freed ∨ b ∈ s.heap.scheduled) := by
  have inv := free_invariant positive reach
  have owners := (bus_invariant reach).2
  -- no other place has a box that one of these has
  have only {b : Nat} {q : Place} (freed : b ∈ (busPlaces n).filterMap s.holding) (held : s.holding q = some b) :
      q ∈ busPlaces n := by
    obtain ⟨p, place, atPlace⟩ := List.mem_filterMap.mp freed
    rwa [owners.sound.exclusive q p b held atPlace]
  refine ⟨_, freeListeners_ended inv still stopped, ?_, fun b freed => ?_, fun found b begun accepted => ?_⟩
  · refine List.Nodup.append ?_ owners.scheduled_nodup fun b freed scheduled => ?_
    · exact (busPlaces_nodup n).filterMap fun p q b atP atQ => owners.sound.exclusive p q b atP atQ
    · obtain ⟨k, task⟩ := List.getElem?_of_mem scheduled
      exact task_not_mem_busPlaces n k (only freed task)
  · have absent (c : Nat) : (s.clients c).box ≠ some b :=
      fun held => client_not_mem_busPlaces n c (only freed held)
    obtain ⟨p, _, held⟩ := List.mem_filterMap.mp freed
    obtain ⟨begun, live⟩ := owners.sound.alive p b held
    refine ⟨begun, ?_, absent⟩
    cases answer : s.results b with
    | none =>
      obtain ⟨c, held⟩ := (inv.pending b).mpr ⟨begun, answer⟩
      exact absurd held (absent c)
    | some res =>
      cases res with
      | true => rfl
      | false => exact absurd answer live
  · obtain ⟨p, held⟩ := bus_complete found b ⟨begun, by rw [accepted]; simp⟩
    have freed {l : Nat} (used : l < n → p ∈ busPlaces n) (unused : n ≤ l → s.holding p = none) :
        b ∈ (busPlaces n).filterMap s.holding := by
      refine List.mem_filterMap.mpr ⟨p, used (Nat.lt_of_not_le fun high => ?_), held⟩
      cases held.symm.trans (unused high)
    cases p with
    | client c =>
      have pending := ((inv.pending b).mp ⟨c, held⟩).2
      rw [accepted] at pending
      cases pending
    | command l slot =>
      have committed : slot ∈ (s.listeners l).msgs.commitPipe := by
        by_contra absent
        cases held.symm.trans (MsgTable.box_of_not_mem absent)
      have low : slot < maxQueueMessages :=
        (inv.table l slot).mp (.inl (List.mem_append_left _ (List.mem_append_right _ committed)))
      exact .inl (freed (fun inside => mem_busPlaces.mpr ⟨l, inside, .inr ⟨slot, low, rfl⟩⟩)
        fun high => (inv.unused l high).1 slot)
    | cell l i =>
      have low : i < maxPendingMessages := by
        refine (shaped_of_reach reach l).used_lt i fun inactive => ?_
        cases held.symm.trans (RxTable.box_eq inactive)
      exact .inl (freed (fun inside => mem_busPlaces.mpr ⟨l, inside, .inl ⟨i, low, rfl⟩⟩)
        fun high => (inv.unused l high).2 i)
    | task k => exact .inr (List.mem_of_getElem? held)

/-- The first request has been answered, the second one waits for its response, and the `EXPECT` of the third one has come
behind the command that ends the listener. -/
def lastSteps : List BusLabel :=
  registerSteps 0 5 ++ sendSteps 0 ⟨5, 0, 1, [1, 2]⟩ ++ [.listener 0 (.recv 0 ⟨true, 7, 0⟩ true)] ++
    sendSteps 0 ⟨5, 1, 1, [3]⟩ ++ holdSteps 1 ⟨5, 2, 1, [4]⟩ ++ writeSteps 1 1 ++
    [.client 1 (.event (.timestamp (some ⟨0, 0⟩))), .client 0 (.shutdown 0), .client 0 .getFreeMsg,
      .client 0 (.pushMessage true), .client 1 .getFreeMsg, .client 1 (.pushMessage true),
      .listener 0 (.handle ⟨true, ⟨false, 9, true⟩⟩), .listener 0 .release, .listener 0 .finish,
      .client 0 (.onCompletion true)]

theorem busFree_frees_once_three :
    ∃ s, Reach busStep (.new 1) (fun s label => s.holdFound label = true) s ∧ s.heap.scheduled = [0] ∧
      freeListeners s 1 = some [1, 2] ∧
      ∃ freed, freeListeners s 1 = some freed ∧ (freed ++ s.heap.scheduled).Nodup ∧
        (∀ b ∈ freed, b < s.nextBox ∧ s.results b = some true ∧ ∀ c, (s.clients c).box ≠ some b) ∧
        (Reach busStep (.new 1) (fun s label => s.holdFound label = true) s →
          ∀ b, b < s.nextBox → s.results b = some true → b ∈ freed ∨ b ∈ s.heap.scheduled) := by
  have trace : (exec busStep (fun s label => decide (s.holdFound label = true)) (.new 1) lastSteps).map
      (fun s => (s.heap.scheduled, freeListeners s 1, (s.listeners 0).pc,
        (List.range maxQueueMessages).all fun slot => (s.listeners 0).slots.contains slot)) =
      some ([0], some [1, 2], .stopped, true) := by decide +kernel
  obtain ⟨s, reach, seen⟩ := exists_reach_of_exec trace
  simp only [Prod.mk.injEq, List.all_eq_true, List.mem_range, List.contains_iff_mem] at seen
  obtain ⟨scheduled, freed, stopped, here⟩ := seen
  have any := reach.weaken fun _ _ _ => trivial
  refine ⟨s, reach, scheduled, freed, busFree_frees_once Nat.one_pos any (fun l low => ?_) fun l low slot pushed => ?_⟩
  · cases Nat.lt_one_iff.mp low
    exact stopped
  · cases Nat.lt_one_iff.mp low
    have slots := (bus_invariant reach).1
    have inTable := ((free_invariant Nat.one_pos reach).table 0 slot).mp (.inr pushed)
    obtain ⟨c, p, serial, writing⟩ := pushed
    exact slots.held c p 0 slot serial writing (here slot inTable)

end Runs

end Kinetic
