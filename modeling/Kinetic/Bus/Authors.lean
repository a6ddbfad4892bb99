import Kinetic.Bus.Statuses
import Kinetic.Bus.Responses

namespace Kinetic
open Function (update)
open Ownership
open Transition (Reach watch exec exists_reach_of_exec)

def Purpose.holdBox : Purpose → Option Nat
  | .hold b _ _ => some b
  | _ => none

def Msg.holdSerial : Msg → Option Nat
  | ⟨.holdResponse _ _ _, serial⟩ => some serial
  | _ => none

/-- The message that the listener will read next. -/
def Listener.nextMsg (l : Listener) : Option Msg := l.msgs.commitPipe.head?.bind l.msgs.msgs

/-- The record of the requests behind the `HOLD` commands, by the numbers of these, and behind the cells, by listener and
index. A request is known by its box. -/
structure Authors where
  command : Nat → Option Nat
  cell : Nat × Nat → Option Nat

def Authors.none : Authors := ⟨fun _ => Option.none, fun _ => Option.none⟩

/-- A client writes a command, or a listener executes a `HOLD` and fills a cell. -/
def noteAuthors (s : BusState) (label : BusLabel) (g : Authors) : Authors :=
  match label with
  | .client c .getFreeMsg =>
    match s.clients c with
    | .acquire p => { g with command := update g.command s.nextSerial p.holdBox }
    | _ => g
  | .listener l (.handle _) =>
    match (s.listeners l).nextMsg.bind Msg.holdSerial, (s.listeners l).rx.rxInfoFreelist.head? with
    | some serial, some i => { g with cell := update g.cell (l, i) (g.command serial) }
    | _, _ => g
  | _ => g

/-- Where the `HOLD` of a request may be: in a committed command, or in a cell that is in use. -/
inductive HoldPlace
  | command (l slot : Nat)
  | cell (l i : Nat)
  deriving DecidableEq

def BusState.author (s : BusState) (g : Authors) : HoldPlace → Option Nat
  | .command l slot => (((s.listeners l).msgs.queued slot).bind Msg.holdSerial).bind g.command
  | .cell l i => if (s.listeners l).rx.state i = .inactive then none else g.cell (l, i)

/-- There is something left of the request with the box. -/
inductive BusState.Present (s : BusState) (g : Authors) (b : Nat) : Prop
  | client (c : Nat) : (s.clients c).box = some b → Present s g b
  | command (l slot : Nat) : (s.listeners l).msgs.box slot = some b → Present s g b
  | hold (p : HoldPlace) : s.author g p = some b → Present s g b

/-- The two boxes have the same socket number and sequence id. -/
def sameRequest (boxes : Nat → BoxedMsg) (a b : Nat) : Prop :=
  (boxes a).fd = (boxes b).fd ∧ (boxes a).outSeqId = (boxes b).outSeqId

/-- A cell belongs to the request it was made for. -/
def RxInfoState.authored (s : BusState) (author : Option Nat) : RxInfoState → Prop
  | .inactive => True
  | .hold fd seqId _ _ _ =>
    ∃ b, author = some b ∧ b < s.nextBox ∧ (s.heap.boxes b).fd = fd ∧ (s.heap.boxes b).outSeqId = seqId
  | .expect box _ _ _ => author = box

/-- The requests whose `HOLD` has been committed, or that have ended. -/
def BusState.heldOnce (s : BusState) (b : Nat) : Prop := b < s.nextBox ∧ ∀ c, (s.clients c).stage ≠ .fresh b

structure AuthorInv (s : BusState) (g : Authors) : Prop where
  serials : ∀ l i msg, (s.listeners l).msgs.msgs i = some msg → msg.serial < s.nextSerial
  commands : ∀ l i fd seqId timeoutSec serial,
    (s.listeners l).msgs.msgs i = some ⟨.holdResponse fd seqId timeoutSec, serial⟩ →
      ∃ b, g.command serial = some b ∧ b < s.nextBox ∧ (s.heap.boxes b).fd = fd ∧ (s.heap.boxes b).outSeqId = seqId
  pushes : ∀ c p l slot serial, s.clients c = .push p l slot serial → g.command serial = p.holdBox
  cells : ∀ l i, ((s.listeners l).rx.state i).authored s (g.cell (l, i))
  sound : Sound (s.author g) s.heldOnce
  unique : ∀ a b, s.Present g a → s.Present g b → sameRequest s.heap.boxes a b → a = b

/-- There is something left of a request with the socket number and the sequence id. -/
inductive BusState.Pending (s : BusState) (fd seqId : Int) : Prop
  | client (c b : Nat) : (s.clients c).box = some b → (s.heap.boxes b).fd = fd → (s.heap.boxes b).outSeqId = seqId →
      Pending s fd seqId
  | hold (l slot : Nat) (timeoutSec : Int) (serial : Nat) :
      (s.listeners l).msgs.queued slot = some ⟨.holdResponse fd seqId timeoutSec, serial⟩ → Pending s fd seqId
  | expect (l slot b : Nat) : (s.listeners l).msgs.box slot = some b → (s.heap.boxes b).fd = fd →
      (s.heap.boxes b).outSeqId = seqId → Pending s fd seqId
  | cell (l i : Nat) : ((s.listeners l).rx.rxInfo i).isFor s.heap.boxes fd seqId = true → Pending s fd seqId

/-- When `box_msg` accepts a request, nothing is left of an earlier one with its socket number and sequence id. -/
def BusState.freshRequest (s : BusState) : BusLabel → Prop
  | .client _ (.request msg) => (boxMsg s msg).isSome → ¬ s.Pending msg.fd msg.seqId
  | _ => True

theorem AuthorInv.new (n : Nat) : AuthorInv (.new n) .none := by
  have none_held (p : HoldPlace) : (BusState.new n).author .none p = none := by
    cases p with
    | command l slot => simp [BusState.author, BusState.new, Listener.new, MsgTable.new, MsgTable.queued]
    | cell l i => simp [BusState.author, BusState.new, Listener.new, RxTable.new, RxTable.state]
  refine ⟨?_, ?_, ?_, fun _ _ => trivial, ⟨?_, ?_⟩, ?_⟩
  · intro l i msg present
    cases present
  · intro l i fd seqId timeoutSec serial present
    cases present
  · intro c p l slot serial writing
    cases writing
  · intro p q b held
    rw [none_held] at held
    cases held
  · intro p b held
    rw [none_held] at held
    cases held
  · intro a b first
    cases first with
    | client c held => cases held
    | command l slot held => simp [BusState.new, Listener.new, MsgTable.new, MsgTable.box] at held
    | hold p held =>
      rw [none_held] at held
      cases held

section Facts
variable {s : BusState} {g : Authors}

theorem AuthorInv.present_old (inv : AuthorInv s g) (owners : OwnerInv s) {b : Nat} (present : s.Present g b) :
    b < s.nextBox := by
  cases present with
  | client c held => exact (owners.sound.alive (.client c) b held).1
  | command l slot held => exact (owners.sound.alive (.command l slot) b held).1
  | hold p held => exact (inv.sound.alive p b held).1

/-- What is left of a request with the same numbers is pending. -/
theorem AuthorInv.pending (inv : AuthorInv s g) {b : Nat} (present : s.Present g b) :
    s.Pending (s.heap.boxes b).fd (s.heap.boxes b).outSeqId := by
  cases present with
  | client c held => exact .client c b held rfl rfl
  | command l slot held => exact .expect l slot b held rfl rfl
  | hold p held =>
    cases p with
    | command l slot =>
      obtain ⟨serial, fromQueue, known⟩ := Option.bind_eq_some_iff.mp held
      obtain ⟨msg, queued, isHold⟩ := Option.bind_eq_some_iff.mp fromQueue
      obtain ⟨command, number⟩ := msg
      cases command with
      | holdResponse fd seqId timeoutSec =>
        cases isHold
        have written := MsgTable.written_of_queued queued
        obtain ⟨a, author, _, rfl, rfl⟩ := inv.commands l slot fd seqId timeoutSec serial written
        rw [known] at author
        cases author
        exact .hold l slot timeoutSec serial queued
      | _ => cases isHold
    | cell l i =>
      have authored := inv.cells l i
      simp only [BusState.author] at held
      split at held
      · cases held
      · rename_i active
        refine .cell l i ?_
        cases state : (s.listeners l).rx.state i with
        | inactive => exact absurd state active
        | hold fd seqId hasResult result error =>
          rw [state] at authored
          obtain ⟨a, author, _, rfl, rfl⟩ := authored
          rw [held] at author
          cases author
          simp [RxInfo.isFor, show ((s.listeners l).rx.rxInfo i).state = _ from state]
        | expect box error hasResult result =>
          rw [state] at authored
          have author : g.cell (l, i) = box := authored
          rw [held] at author
          subst author
          simp [RxInfo.isFor, show ((s.listeners l).rx.rxInfo i).state = _ from state]

end Facts

section Frames
variable {s t : BusState} {g g' : Authors}

theorem sameRequest_congr {boxes boxes' : Nat → BoxedMsg} {a b : Nat} (same : sameRequest boxes' a b)
    (first : (boxes' a).fd = (boxes a).fd ∧ (boxes' a).outSeqId = (boxes a).outSeqId)
    (second : (boxes' b).fd = (boxes b).fd ∧ (boxes' b).outSeqId = (boxes b).outSeqId) : sameRequest boxes a b := by
  unfold sameRequest at same ⊢
  rwa [first.1, first.2, second.1, second.2] at same

theorem RxInfoState.authored_mono {state : RxInfoState} {author : Option Nat} (before : state.authored s author)
    (grown : s.nextBox ≤ t.nextBox)
    (identity : ∀ b, b < s.nextBox → (t.heap.boxes b).fd = (s.heap.boxes b).fd ∧
      (t.heap.boxes b).outSeqId = (s.heap.boxes b).outSeqId) : state.authored t author := by
  cases state with
  | hold fd seqId hasResult result error =>
    obtain ⟨b, known, below, rfl, rfl⟩ := before
    exact ⟨b, known, by omega, (identity b below).1, (identity b below).2⟩
  | _ => exact before

end Frames

section Clients
variable {s t : BusState} {c : Nat} {a : ClientAction}

theorem BusState.sendOn_nextSerial (s : BusState) (c b : Nat) (pc : SendPc) :
    (s.sendOn c b pc).nextSerial = s.nextSerial := by
  cases pc <;> rfl

theorem BusState.notSent_nextSerial (s : BusState) (c : Nat) (p : Purpose) : (s.notSent c p).nextSerial = s.nextSerial := by
  cases p with
  | hold b start tries =>
    simp only [BusState.notSent]
    split <;> rfl
  | expect b tries =>
    simp only [BusState.notSent]
    split <;> rfl
  | _ => rfl

theorem clientStep_nextSerial (run : clientStep s c a = some t) : s.nextSerial ≤ t.nextSerial := by
  cases clientStep_cases run with
  | sends b pc pc' e sent => exact Nat.le_of_eq (by rw [BusState.sendOn_nextSerial]; rfl)
  | noSlot p acquiring => exact Nat.le_of_eq (by rw [BusState.notSent_nextSerial])
  | takes p slot next acquiring => exact Nat.le_succ _
  | commits p l slot serial writing => cases p <;> exact Nat.le_refl _
  | fails p l slot serial writing => exact Nat.le_of_eq (by rw [BusState.notSent_nextSerial]; rfl)
  | held b start tries l slot serial waiting => exact Nat.le_of_eq (by rw [BusState.sendOn_nextSerial]; rfl)
  | _ => exact Nat.le_refl _

/-- A client is fresh with a new box only, or was so before. -/
theorem StageMove.fresh_origin {stage stage' : Stage} (move : StageMove s t stage stage') {b : Nat}
    (fresh : stage' = .fresh b) : stage = .fresh b ∨ b = s.nextBox := by
  cases move with
  | keeps => exact .inl fresh
  | starts => cases fresh; exact .inr rfl
  | sends => exact .inl fresh
  | _ => cases fresh

/-- A client that is writing a command has just taken its slot. -/
theorem clientStep_push (run : clientStep s c a = some t) {p : Purpose} {l slot serial : Nat}
    (writing : t.clients c = .push p l slot serial) : a = .getFreeMsg ∧ s.clients c = .acquire p ∧ serial = s.nextSerial := by
  have stands {pc : ClientPc} (clients : t.clients = update s.clients c pc) : pc = .push p l slot serial := by
    rw [clients, Function.update_self] at writing
    exact writing
  cases clientStep_move run with
  | requests msg idle clients => cases stands clients
  | goesOn a _ alone continues =>
    obtain ⟨pc, clients, alone', _⟩ := continues.client
    exact absurd (stands clients) (ClientPc.alone_not_push alone' p l slot serial)
  | delivers b alone box clients => cases stands clients
  | takes p' l' slot' next acquiring _ free empty same =>
    subst same
    cases stands rfl
    exact ⟨rfl, acquiring, rfl⟩
  | commits p' l' slot' serial' writing' same =>
    subst same
    obtain ⟨pc, clients, alone⟩ :=
      BusState.pushed_client (s.setMsgs l' ((s.listeners l').msgs.pushMessage slot')) c l' slot' serial' p'
    exact absurd (stands clients) (alone p l slot serial)
  | fails p' l' slot' serial' writing' continues =>
    obtain ⟨pc, clients, alone, _⟩ := continues.client
    exact absurd (stands clients) (ClientPc.alone_not_push alone p l slot serial)
  | reads p' l' slot' serial' reply rest waiting pipe continues =>
    obtain ⟨pc, clients, alone, _⟩ := continues.client
    exact absurd (stands clients) (ClientPc.alone_not_push alone p l slot serial)
  | givesUp p' l' slot' serial' waiting continues =>
    obtain ⟨pc, clients, alone, _⟩ := continues.client
    exact absurd (stands clients) (ClientPc.alone_not_push alone p l slot serial)

/-- A box in the hands of a client was there before, or is that of a request that `box_msg` has just accepted. -/
theorem clientStep_box (run : clientStep s c a = some t) {c' b : Nat} (held : (t.clients c').box = some b) :
    (s.clients c').box = some b ∨
      ∃ msg, a = .request msg ∧ (boxMsg s msg).isSome ∧ b = s.nextBox ∧ (t.heap.boxes b).fd = msg.fd ∧
        (t.heap.boxes b).outSeqId = msg.seqId := by
  have kept {pc : ClientPc} (clients : t.clients = update s.clients c pc)
      (same : pc.box = some b → (s.clients c).box = some b) : (s.clients c').box = some b := by
    rw [clients, Function.update_apply] at held
    split at held
    · rename_i here
      rw [here]
      exact same held
    · exact held
  have continued {base : BusState} {box : Option Nat} (continues : Continues base t c box)
      (clients : base.clients = s.clients) (own : (s.clients c).box = box) : (s.clients c').box = some b := by
    obtain ⟨pc, moved, _, outcome⟩ := continues.client
    rw [clients] at moved
    refine kept moved fun here => ?_
    rcases outcome with ⟨same, _⟩ | ⟨gone, _⟩
    · rw [own, ← same]
      exact here
    · rw [gone] at here
      cases here
  cases clientStep_move run with
  | requests msg idle clients _ _ nextBox =>
    rw [clients, Function.update_apply] at held
    split at held
    · cases held
      cases clientStep_cases run with
      | refused => omega
      | requests msg ci idle registered boxed =>
        exact .inr ⟨msg, rfl, boxed, rfl, by simp [BusState.setClient, BusState.setBox, Heap.setBox],
          by simp [BusState.setClient, BusState.setBox, Heap.setBox]⟩
    · exact .inl held
  | goesOn a _ alone continues => exact .inl (continued continues rfl rfl)
  | delivers b' alone box clients =>
    refine .inl (kept clients fun here => ?_)
    cases here
  | takes p' l' slot' next acquiring _ free empty same =>
    subst same
    refine .inl (kept rfl fun here => ?_)
    rw [acquiring]
    exact here
  | commits p' l' slot' serial' writing' same =>
    subst same
    cases p' with
    | expect b' tries =>
      refine .inl (kept rfl fun here => ?_)
      cases here
    | _ =>
      refine .inl (kept rfl fun here => ?_)
      rw [writing']
      exact here
  | fails p' l' slot' serial' writing' continues => exact .inl (continued continues rfl (by rw [writing']; rfl))
  | reads p' l' slot' serial' reply rest waiting pipe continues =>
    exact .inl (continued continues rfl (by rw [waiting]; rfl))
  | givesUp p' l' slot' serial' waiting continues => exact .inl (continued continues rfl (by rw [waiting]; rfl))

variable {g : Authors}

/-- A client writes no author over that of a command that is in a slot. -/
theorem noteAuthors_client {serial : Nat} (old : serial < s.nextSerial) :
    (noteAuthors s (.client c a) g).command serial = g.command serial ∧ (noteAuthors s (.client c a) g).cell = g.cell := by
  unfold noteAuthors
  split
  · split
    · exact ⟨Function.update_of_ne (Nat.ne_of_lt old) .., rfl⟩
    · exact ⟨rfl, rfl⟩
  · rename_i impossible
    cases impossible
  · exact ⟨rfl, rfl⟩

theorem noteAuthors_acquire {p : Purpose} (acquiring : s.clients c = .acquire p) :
    (noteAuthors s (.client c .getFreeMsg) g).command s.nextSerial = p.holdBox := by
  simp only [noteAuthors, acquiring, Function.update_self]

theorem noteAuthors_client_cell : (noteAuthors s (.client c a) g).cell = g.cell := by
  unfold noteAuthors
  split
  · split <;> rfl
  · rename_i impossible
    cases impossible
  · rfl

/-- The requests behind what is in the queues and the cells stay the same. -/
theorem AuthorInv.author_keeps (inv : AuthorInv s g) (run : clientStep s c a = some t) {p : HoldPlace}
    (queued : ∀ l slot, p = .command l slot → (t.listeners l).msgs.queued slot = (s.listeners l).msgs.queued slot) :
    t.author (noteAuthors s (.client c a) g) p = s.author g p := by
  cases p with
  | command l slot =>
    simp only [BusState.author, queued l slot rfl]
    cases message : (s.listeners l).msgs.queued slot with
    | none => rfl
    | some msg =>
      have old := inv.serials l slot msg (MsgTable.written_of_queued message)
      obtain ⟨command, serial⟩ := msg
      cases command with
      | holdResponse fd seqId timeoutSec => exact (noteAuthors_client old).1
      | _ => rfl
  | cell l i => simp only [BusState.author, clientStep_rx run, noteAuthors_client_cell]

/-- What a client step does to the places of the `HOLD` commands and cells. -/
inductive AuthorChange (s : BusState) (g : Authors) (t : BusState) (g' : Authors) (c : Nat) : Prop
  | keeps : (∀ p, t.author g' p = s.author g p) → AuthorChange s g t g' c
  | puts (p : HoldPlace) (b : Nat) : (s.clients c).stage = .fresh b → (t.clients c).stage ≠ .fresh b →
      t.author g' p = some b → (∀ q, q ≠ p → t.author g' q = s.author g q) → AuthorChange s g t g' c

theorem AuthorInv.author_client (inv : AuthorInv s g) (slots : SlotInv s) (run : clientStep s c a = some t) :
    AuthorChange s g t (noteAuthors s (.client c a) g) c := by
  cases clientStep_queue slots run with
  | keeps a queued => exact .keeps fun p => inv.author_keeps run fun l slot _ => queued l slot
  | commits p l slot serial command writing handed queued written pushed =>
    have others (q : HoldPlace) (distinct : q ≠ .command l slot) :
        t.author (noteAuthors s (.client c (.pushMessage true)) g) q = s.author g q := by
      refine inv.author_keeps run fun l' slot' here => ?_
      rw [queued, if_neg]
      rintro ⟨rfl, rfl⟩
      exact distinct here
    have old := inv.serials l slot _ written
    have absent := not_committed (slots.held c p l slot serial writing)
    have before : s.author g (.command l slot) = none := by
      simp only [BusState.author, MsgTable.queued_of_not_mem absent, Option.bind_none]
    have here : t.author (noteAuthors s (.client c (.pushMessage true)) g) (.command l slot) =
        (Msg.holdSerial ⟨command, serial⟩).bind g.command := by
      simp only [BusState.author, queued, and_self, if_true, Option.bind_some]
      cases command with
      | holdResponse fd seqId timeoutSec => exact (noteAuthors_client old).1
      | _ => rfl
    cases isHold : (Msg.holdSerial ⟨command, serial⟩).bind g.command with
    | none =>
      refine .keeps fun q => ?_
      by_cases same : q = .command l slot
      · rw [same, here, isHold, before]
      · exact others q same
    | some b =>
      have purpose : p.holdBox = some b := by
        rw [← inv.pushes c p l slot serial writing]
        cases command with
        | holdResponse fd seqId timeoutSec => exact isHold
        | _ => cases isHold
      rw [isHold] at here
      cases p with
      | hold b' start tries =>
        cases purpose
        refine .puts (.command l slot) b (by rw [writing]; rfl) ?_ here others
        subst pushed
        simp [BusState.pushed, BusState.setClient, ClientPc.stage]
      | _ => cases purpose

theorem AuthorInv.sound_client (inv : AuthorInv s g) (slots : SlotInv s) (owners : OwnerInv s)
    (run : clientStep s c a = some t) : Sound (t.author (noteAuthors s (.client c a) g)) t.heldOnce := by
  obtain ⟨next, clients, stage⟩ := clientStep_stage run
  have stepped : busStep s (.client c a) = some t := run
  have grown : s.nextBox ≤ t.nextBox := by
    cases busStep_answers stepped <;> assumption
  have live (b : Nat) (before : s.heldOnce b) : t.heldOnce b := by
    have below := before.1
    refine ⟨by omega, fun c' fresh => ?_⟩
    rw [clients, Function.update_apply] at fresh
    split at fresh
    · rcases stage.fresh_origin fresh with old | new
      · exact before.2 c old
      · omega
    · exact before.2 c' fresh
  cases inv.author_client slots run with
  | keeps same =>
    rw [funext same]
    exact inv.sound.weaken live
  | puts p b fresh moved here others =>
    rw [eq_update here others]
    have own : s.holding (.client c) = some b := ClientPc.stage_box (by rw [fresh]; rfl)
    have below := (owners.sound.alive (.client c) b own).1
    refine inv.sound.update (fun q held => absurd fresh ((inv.sound.alive q b held).2 c)) live ⟨by omega, ?_⟩
    intro c' still
    by_cases same : c' = c
    · exact moved (same ▸ still)
    · rw [clients, Function.update_of_ne same] at still
      have theirs : s.holding (.client c') = some b := ClientPc.stage_box (by rw [still]; rfl)
      cases owners.sound.exclusive _ _ b theirs own
      exact same rfl

/-- What is left of a request after a client step was there before, unless the request has just been accepted. -/
theorem AuthorInv.present_client (inv : AuthorInv s g) (slots : SlotInv s) (run : clientStep s c a = some t) {b : Nat}
    (present : t.Present (noteAuthors s (.client c a) g) b) :
    s.Present g b ∨ ∃ msg, a = .request msg ∧ (boxMsg s msg).isSome ∧ b = s.nextBox ∧ (t.heap.boxes b).fd = msg.fd ∧
      (t.heap.boxes b).outSeqId = msg.seqId := by
  cases present with
  | client c' held =>
    rcases clientStep_box run held with before | accepted
    · exact .inl (.client c' before)
    · exact .inr accepted
  | command l slot held =>
    rcases clientStep_command slots run held with before | ⟨expecting, _⟩
    · exact .inl (.command l slot before)
    · exact .inl (.client c (ClientPc.stage_box (by rw [expecting]; rfl)))
  | hold p held =>
    cases inv.author_client slots run with
    | keeps same =>
      rw [same] at held
      exact .inl (.hold p held)
    | puts q b' fresh _ here others =>
      by_cases same : p = q
      · subst same
        rw [here] at held
        cases held
        exact .inl (.client c (ClientPc.stage_box (by rw [fresh]; rfl)))
      · rw [others p same] at held
        exact .inl (.hold p held)

theorem AuthorInv.client (inv : AuthorInv s g) (slots : SlotInv s) (owners : OwnerInv s)
    (fresh : s.freshRequest (.client c a)) (run : clientStep s c a = some t) :
    AuthorInv t (noteAuthors s (.client c a) g) := by
  obtain ⟨next, clients, stage⟩ := clientStep_stage run
  have stepped : busStep s (.client c a) = some t := run
  have grown : s.nextBox ≤ t.nextBox := by
    cases busStep_answers stepped <;> assumption
  have counted := clientStep_nextSerial run
  have identity (b : Nat) (below : b < s.nextBox) : (t.heap.boxes b).fd = (s.heap.boxes b).fd ∧
      (t.heap.boxes b).outSeqId = (s.heap.boxes b).outSeqId := stage.identity (Nat.ne_of_lt below)
  refine ⟨?_, ?_, ?_, ?_, inv.sound_client slots owners run, ?_⟩
  · intro l i msg written
    rcases clientStep_written run written with before | ⟨p, _, _, rfl, next⟩
    · have old := inv.serials l i msg before
      omega
    · dsimp only
      omega
  · intro l i fd seqId timeoutSec serial written
    rcases clientStep_written run written with before | ⟨p, rfl, acquiring, same, _⟩
    · obtain ⟨b, known, below, rfl, rfl⟩ := inv.commands l i fd seqId timeoutSec serial before
      have old := inv.serials l i _ before
      exact ⟨b, (noteAuthors_client old).1.trans known, by omega, identity b below⟩
    · cases p with
      | hold b start tries =>
        cases same
        have own : s.holding (.client c) = some b := by
          rw [BusState.holding, acquiring]
          rfl
        have below := (owners.sound.alive (.client c) b own).1
        exact ⟨b, noteAuthors_acquire acquiring, by omega, identity b below⟩
      | _ => cases same
  · intro c' p l slot serial writing
    by_cases here : c' = c
    · subst here
      obtain ⟨rfl, acquiring, rfl⟩ := clientStep_push run writing
      exact noteAuthors_acquire acquiring
    · rw [clients, Function.update_of_ne here] at writing
      obtain ⟨command, written, _⟩ := slots.written c' p l slot serial writing
      have old := inv.serials l slot _ written
      rw [(noteAuthors_client old).1]
      exact inv.pushes c' p l slot serial writing
  · intro l i
    rw [clientStep_rx run, noteAuthors_client_cell]
    exact RxInfoState.authored_mono (inv.cells l i) grown identity
  · intro x y first second same
    rcases inv.present_client slots run first with old | ⟨msg, rfl, boxed, rfl, fd, seqId⟩
    · have below := inv.present_old owners old
      rcases inv.present_client slots run second with old' | ⟨msg, rfl, boxed, rfl, fd, seqId⟩
      · exact inv.unique x y old old' (sameRequest_congr same (identity x below) (identity y (inv.present_old owners old')))
      · exfalso
        refine fresh boxed ?_
        have pending := inv.pending old
        rwa [← (identity x below).1, ← (identity x below).2, same.1, same.2, fd, seqId] at pending
    · rcases inv.present_client slots run second with old' | ⟨_, _, _, rfl, _⟩
      · exfalso
        have below := inv.present_old owners old'
        refine fresh boxed ?_
        have pending := inv.pending old'
        rwa [← (identity y below).1, ← (identity y below).2, ← same.1, ← same.2, fd, seqId] at pending
      · rfl

end Clients

end Kinetic
