import Kinetic.Bus.Slots
import Kinetic.Lib.Ownership

namespace Kinetic
open Function (update)
open Ownership

/-- Where a box may be: with a client thread, in a committed command, in a cell of a listener, or in a task that the
thread pool has accepted. -/
inductive Place
  | client (c : Nat)
  | command (l slot : Nat)
  | cell (l i : Nat)
  | task (k : Nat)
  deriving DecidableEq

/-- The box in the command of a committed slot. -/
def MsgTable.box (t : MsgTable) (slot : Nat) : Option Nat :=
  if slot ∈ t.commitPipe then (t.msgs slot).bind fun msg => msg.command.box else none

def BusState.holding (s : BusState) : Place → Option Nat
  | .client c => (s.clients c).box
  | .command l slot => (s.listeners l).msgs.box slot
  | .cell l i => (s.listeners l).rx.box i
  | .task k => s.heap.scheduled[k]?

/-- The boxes of requests that were not rejected. -/
def BusState.live (s : BusState) (b : Nat) : Prop := b < s.nextBox ∧ s.results b ≠ some false

/-- The boxes are apart, and nothing is said about requests still to come. -/
structure OwnerInv (s : BusState) : Prop where
  sound : Sound s.holding s.live
  unanswered : ∀ b, s.nextBox ≤ b → s.results b = none

theorem OwnerInv.new (listenerCount : Nat) : OwnerInv (.new listenerCount) := by
  have empty : ∀ p, (BusState.new listenerCount).holding p = none := by
    intro p
    cases p <;> simp [BusState.holding, BusState.new, ClientPc.box, Listener.new, MsgTable.new, MsgTable.box, RxTable.new,
      RxTable.box, RxInfoState.box]
  refine ⟨⟨?_, ?_⟩, fun _ _ => rfl⟩
  · intro p q b held
    rw [empty] at held
    cases held
  · intro p b held
    rw [empty] at held
    cases held

section Messages
variable {t : MsgTable} {slot : Nat}

theorem MsgTable.box_of_not_mem (absent : slot ∉ t.commitPipe) : t.box slot = none := if_neg absent

theorem MsgTable.box_of_mem {msg : Msg} (committed : slot ∈ t.commitPipe) (written : t.msgs slot = some msg) :
    t.box slot = msg.command.box := by
  rw [MsgTable.box, if_pos committed, written]
  rfl

theorem MsgTable.box_of_head {rest : List Nat} {msg : Msg} (pipe : t.commitPipe = slot :: rest)
    (written : t.msgs slot = some msg) : t.box slot = msg.command.box :=
  box_of_mem (by rw [pipe]; exact List.mem_cons_self) written

theorem MsgTable.box_fill (absent : slot ∉ t.commitPipe) (msg : Msg) (i : Nat) : (t.fill slot msg).box i = t.box i := by
  by_cases here : i = slot
  · subst here
    rw [box_of_not_mem absent]
    exact if_neg absent
  · simp [MsgTable.box, MsgTable.fill, here]

theorem MsgTable.box_releaseMsg (absent : slot ∉ t.commitPipe) (i : Nat) : (t.releaseMsg slot).box i = t.box i := by
  by_cases here : i = slot
  · subst here
    rw [box_of_not_mem absent]
    exact if_neg absent
  · simp [MsgTable.box, MsgTable.releaseMsg, here]

theorem MsgTable.box_pushMessage_of_ne {i : Nat} (distinct : i ≠ slot) : (t.pushMessage slot).box i = t.box i := by
  simp [MsgTable.box, MsgTable.pushMessage, distinct]

theorem MsgTable.box_pushMessage_self {msg : Msg} (written : t.msgs slot = some msg) :
    (t.pushMessage slot).box slot = msg.command.box :=
  box_of_mem (List.mem_append_right _ (List.mem_singleton_self slot)) written

/-- Reading the head of the commit pipe takes the box of that slot out. -/
theorem MsgTable.box_read {rest : List Nat} (pipe : t.commitPipe = slot :: rest) (nodup : t.commitPipe.Nodup) (i : Nat) :
    ({ t with commitPipe := rest } : MsgTable).box i = if i = slot then none else t.box i := by
  rw [pipe, List.nodup_cons] at nodup
  split
  · rename_i here
    subst here
    exact if_neg nodup.1
  · rename_i distinct
    simp [MsgTable.box, pipe, distinct]

end Messages

/-- The bus after a step of a listener. -/
def BusState.setListener (s : BusState) (l : Nat) (listener : Listener) (heap : Heap) (conns : Connections) : BusState :=
  { s with listeners := update s.listeners l listener, heap := heap, conns := conns }

section Listeners
variable {s : BusState} {l : Nat} {listener : Listener} {heap : Heap} {conns : Connections}

theorem setListener_command (l' i : Nat) : (s.setListener l listener heap conns).holding (.command l' i) =
    if l' = l then listener.msgs.box i else s.holding (.command l' i) := by
  simp only [BusState.holding, BusState.setListener, Function.update_apply]
  split <;> rfl

theorem setListener_cell (l' i : Nat) : (s.setListener l listener heap conns).holding (.cell l' i) =
    if l' = l then listener.rx.box i else s.holding (.cell l' i) := by
  simp only [BusState.holding, BusState.setListener, Function.update_apply]
  split <;> rfl

theorem setListener_task (k : Nat) : (s.setListener l listener heap conns).holding (.task k) = heap.scheduled[k]? := rfl

/-- A place holds what it held if the listener has not changed it. -/
theorem setListener_others (r : Place) (command : ∀ i, r = .command l i → listener.msgs.box i = (s.listeners l).msgs.box i)
    (cell : ∀ i, r = .cell l i → listener.rx.box i = (s.listeners l).rx.box i)
    (task : ∀ k, r = .task k → heap.scheduled[k]? = s.heap.scheduled[k]?) :
    (s.setListener l listener heap conns).holding r = s.holding r := by
  cases r with
  | client c => rfl
  | command l' i =>
    rw [setListener_command]
    split
    · rename_i here
      rw [here, command i (by rw [here])]
      rfl
    · rfl
  | cell l' i =>
    rw [setListener_cell]
    split
    · rename_i here
      rw [here, cell i (by rw [here])]
      rfl
    · rfl
  | task k => exact task k rfl

theorem setMsgs_holding (s : BusState) {l : Nat} {msgs : MsgTable} (r : Place)
    (same : ∀ i, r = .command l i → msgs.box i = (s.listeners l).msgs.box i) :
    (s.setMsgs l msgs).holding r = s.holding r := by
  have others : (s.setListener l { s.listeners l with msgs := msgs } s.heap s.conns).holding r = s.holding r :=
    setListener_others r same (fun _ _ => rfl) fun _ _ => rfl
  exact others

end Listeners

section Clients
variable {s t : BusState} {c : Nat}

theorem live_same (nextBox : t.nextBox = s.nextBox) (results : t.results = s.results) (x : Nat) : t.live x ↔ s.live x := by
  rw [BusState.live, BusState.live, nextBox, results]

/-- A request that returns true was live and stays so. -/
theorem live_returned {b : Nat} (nextBox : t.nextBox = s.nextBox) (results : t.results = update s.results b (some true))
    (alive : s.live b) (x : Nat) : t.live x ↔ s.live x := by
  rw [BusState.live, nextBox, results, Function.update_apply]
  split
  · rename_i same
    rw [same]
    exact ⟨fun _ => alive, fun _ => ⟨alive.1, by simp⟩⟩
  · exact Iff.rfl

theorem live_rejected {b : Nat} (nextBox : t.nextBox = s.nextBox) (results : t.results = update s.results b (some false))
    (x : Nat) : t.live x ↔ s.live x ∧ x ≠ b := by
  rw [BusState.live, nextBox, results, Function.update_apply]
  split
  · rename_i same
    exact ⟨fun alive => absurd rfl alive.2, fun alive => absurd same alive.2⟩
  · rename_i other
    exact ⟨fun alive => ⟨alive, other⟩, fun alive => alive.1⟩

theorem scheduled_append (log : List Nat) (b k : Nat) : (log ++ [b])[k]? = if k = log.length then some b else log[k]? := by
  rcases Nat.lt_trichotomy k log.length with before | here | after
  · rw [List.getElem?_append_left before, if_neg (Nat.ne_of_lt before)]
  · rw [here, List.getElem?_concat_length, if_pos rfl]
  · rw [List.getElem?_append_right (Nat.le_of_lt after), if_neg (Nat.ne_of_gt after),
      List.getElem?_eq_none (Nat.le_of_lt after)]
    exact List.getElem?_eq_none (by simp; omega)

/-- A step of the client `c` on its own leaves every other place alone. -/
theorem holding_others {pc : ClientPc} (clients : t.clients = update s.clients c pc) (listeners : t.listeners = s.listeners)
    (scheduled : t.heap.scheduled = s.heap.scheduled) (r : Place) (other : r ≠ .client c) : t.holding r = s.holding r := by
  cases r with
  | client c' =>
    have distinct : c' ≠ c := by
      rintro rfl
      exact other rfl
    rw [BusState.holding, clients, Function.update_of_ne distinct]
    rfl
  | command l slot => rw [BusState.holding, BusState.holding, listeners]
  | cell l i => rw [BusState.holding, BusState.holding, listeners]
  | task k => rw [BusState.holding, BusState.holding, scheduled]

theorem holding_client {pc : ClientPc} (clients : t.clients = update s.clients c pc) : t.holding (.client c) = pc.box := by
  rw [BusState.holding, clients, Function.update_self]

theorem BusState.setClient_holding (s : BusState) (c : Nat) (pc : ClientPc) (r : Place) (other : r ≠ .client c) :
    (s.setClient c pc).holding r = s.holding r :=
  holding_others (t := s.setClient c pc) (s := s) rfl rfl rfl r other

theorem Continues.change {box : Option Nat} (continues : Continues s t c box) (client : (s.clients c).box = box) :
    Change s.holding s.live t.holding t.live := by
  obtain ⟨pc, clients, _, outcome⟩ := continues.client
  have others := holding_others clients continues.listeners continues.scheduled
  rcases outcome with ⟨kept, results⟩ | ⟨gone, b, had, results⟩
  · refine .keep (fun r => ?_) (live_same continues.nextBox results)
    by_cases here : r = .client c
    · rw [here, holding_client clients, kept, ← client]
      rfl
    · exact others r here
  · exact .retire (.client c) b (client.trans had) ((holding_client clients).trans gone) others
      (live_rejected continues.nextBox results)

/-- A client hands its box to the thread pool. -/
theorem change_deliver {b : Nat} (inv : OwnerInv s) (box : (s.clients c).box = some b)
    (clients : t.clients = update s.clients c .idle) (listeners : t.listeners = s.listeners)
    (scheduled : t.heap.scheduled = s.heap.scheduled ++ [b])
    (nextBox : t.nextBox = s.nextBox) (results : t.results = update s.results b (some true)) :
    Change s.holding s.live t.holding t.live := by
  have task (k : Nat) : t.holding (.task k) = if k = s.heap.scheduled.length then some b else s.holding (.task k) := by
    rw [BusState.holding, scheduled]
    exact scheduled_append _ b k
  refine .move (.client c) (.task s.heap.scheduled.length) b box (List.getElem?_eq_none (Nat.le_refl _))
    (holding_client clients) ((task _).trans (if_pos rfl)) ?_
    (live_returned nextBox results (inv.sound.alive (.client c) b box))
  intro r notClient notTask
  cases r with
  | task k =>
    have distinct : k ≠ s.heap.scheduled.length := by
      rintro rfl
      exact notTask rfl
    exact (task k).trans (if_neg distinct)
  | client c' =>
    have distinct : c' ≠ c := by
      rintro rfl
      exact notClient rfl
    rw [BusState.holding, clients, Function.update_of_ne distinct]
    rfl
  | command l slot => rw [BusState.holding, BusState.holding, listeners]
  | cell l i => rw [BusState.holding, BusState.holding, listeners]

theorem not_committed {l : Listener} {slot : Nat} (absent : slot ∉ l.slots) : slot ∉ l.msgs.commitPipe := fun committed =>
  absent (List.mem_append_left _ (List.mem_append_right _ committed))

theorem SlotInv.pipe_nodup (slots : SlotInv s) (l : Nat) : (s.listeners l).msgs.commitPipe.Nodup :=
  (slots.apart l).of_append_left.of_append_right

/-- Pushing an `EXPECT` moves the box from the client to the command; the other commands move none. -/
theorem change_commit {p : Purpose} {l slot serial : Nat} (inv : OwnerInv s) (slots : SlotInv s)
    (writing : s.clients c = .push p l slot serial)
    (same : t = (s.setMsgs l ((s.listeners l).msgs.pushMessage slot)).pushed c l slot serial p) :
    Change s.holding s.live t.holding t.live := by
  obtain ⟨command, written, handed⟩ := slots.written c p l slot serial writing
  have absent := not_committed (slots.held c p l slot serial writing)
  have pushedBox : ((s.listeners l).msgs.pushMessage slot).box slot = p.handsOver := by
    rw [MsgTable.box_pushMessage_self written, handed]
  have keeps (none_handed : p.handsOver = none)
      (kept : t = (s.setMsgs l ((s.listeners l).msgs.pushMessage slot)).setClient c (.wait p l slot serial)) :
      Change s.holding s.live t.holding t.live := by
    have stays (r : Place) : (s.setMsgs l ((s.listeners l).msgs.pushMessage slot)).holding r = s.holding r := by
      refine setMsgs_holding s r fun i _ => ?_
      by_cases here : i = slot
      · rw [here, pushedBox, MsgTable.box_of_not_mem absent, none_handed]
      · exact MsgTable.box_pushMessage_of_ne here
    subst kept
    refine .keep (fun r => ?_) (live_same rfl rfl)
    by_cases here : r = .client c
    · rw [here, holding_client rfl, BusState.holding, writing]
      rfl
    · exact (BusState.setClient_holding _ c _ r here).trans (stays r)
  cases p with
  | expect b tries =>
    subst same
    have left : ((s.setMsgs l ((s.listeners l).msgs.pushMessage slot)).returned c b true).holding (.client c) = none := by
      simp only [BusState.holding, BusState.returned, BusState.setClient, Function.update_self, ClientPc.box]
    have box : s.holding (.client c) = some b := by
      rw [BusState.holding, writing]
      rfl
    have arrived : ((s.setMsgs l ((s.listeners l).msgs.pushMessage slot)).returned c b true).holding (.command l slot) =
        some b := by
      simp only [BusState.holding, BusState.returned, BusState.setClient, BusState.setMsgs, Function.update_self]
      exact pushedBox
    refine .move (.client c) (.command l slot) b box (MsgTable.box_of_not_mem absent) left arrived ?_
      (live_returned rfl rfl (inv.sound.alive _ b box))
    intro r notClient notCommand
    refine (BusState.setClient_holding (s.setMsgs l _) c .idle r notClient).trans ?_
    refine setMsgs_holding s r ?_
    rintro i rfl
    have distinct : i ≠ slot := by
      rintro rfl
      exact notCommand rfl
    exact MsgTable.box_pushMessage_of_ne distinct
  | _ => exact keeps rfl same

/-- No step of a client loses a box. -/
theorem ClientMove.change {a : ClientAction} (move : ClientMove s t c a) (inv : OwnerInv s) (slots : SlotInv s) :
    Change s.holding s.live t.holding t.live := by
  cases move with
  | requests msg idle clients listeners scheduled nextBox results =>
    refine .put (.client c) s.nextBox (fun alive => absurd alive.1 (Nat.lt_irrefl _)) (by rw [BusState.holding, idle]; rfl)
      (holding_client clients) (holding_others clients listeners scheduled) fun x => ?_
    rw [BusState.live, nextBox, results]
    constructor
    · rintro ⟨below, accepted⟩
      rcases Nat.lt_succ_iff_lt_or_eq.mp below with old | new
      · exact .inl ⟨old, accepted⟩
      · exact .inr new
    · rintro (old | new)
      · exact ⟨Nat.lt_succ_of_lt old.1, old.2⟩
      · subst new
        exact ⟨Nat.lt_succ_self _, by rw [inv.unanswered _ (Nat.le_refl _)]; simp⟩
  | goesOn a _ alone continues => exact continues.change rfl
  | delivers b alone box clients listeners scheduled nextBox results =>
    exact change_deliver inv box clients listeners scheduled nextBox results
  | takes p l slot next acquiring _ free empty same =>
    have absent : slot ∉ (s.listeners l).msgs.commitPipe := by
      have nodup := (slots.apart l).of_append_left
      rw [free] at nodup
      exact fun committed => (List.nodup_cons.mp nodup).1 (List.mem_append_right _ committed)
    subst same
    refine .keep (fun r => ?_) (live_same rfl rfl)
    by_cases here : r = .client c
    · rw [here, holding_client rfl, BusState.holding, acquiring]
      rfl
    · exact (BusState.setClient_holding (s.setMsgs l _) c (.push p l slot s.nextSerial) r here).trans
        (setMsgs_holding s r fun i _ =>
          MsgTable.box_fill (t := { (s.listeners l).msgs with msgFreelist := next }) absent _ i)
  | commits p l slot serial writing same => exact change_commit inv slots writing same
  | fails p l slot serial writing continues =>
    have absent := not_committed (slots.held c p l slot serial writing)
    have stays : (s.setMsgs l ((s.listeners l).msgs.releaseMsg slot)).holding = s.holding :=
      funext fun r => setMsgs_holding s r fun i _ => MsgTable.box_releaseMsg absent i
    have change := continues.change (by rw [← show (s.clients c).box = p.box by rw [writing]; rfl]; rfl)
    rwa [stays] at change
  | reads p l slot serial reply rest waiting pipe continues =>
    have stays : (s.setMsgs l ((s.listeners l).msgs.readReply slot)).holding = s.holding :=
      funext fun r => setMsgs_holding s r fun _ _ => rfl
    have change := continues.change (by rw [← show (s.clients c).box = p.box by rw [waiting]; rfl]; rfl)
    rwa [stays] at change
  | givesUp p l slot serial waiting continues => exact continues.change (by rw [waiting]; rfl)

end Clients

end Kinetic
