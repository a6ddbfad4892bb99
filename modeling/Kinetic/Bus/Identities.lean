import Kinetic.Bus.Authors
import Kinetic.Bus.Delivery

namespace Kinetic
open Function (update)
open Ownership
open Transition (Reach watch exec exists_reach_of_exec)

section Listeners
variable {s : BusState} {g : Authors} {l : Nat} {listener : Listener} {heap : Heap} {conns : Connections} {a : ListenerAction}

theorem Listener.nextMsg_head {listener : Listener} {slot : Nat} {rest : List Nat} {msg : Msg}
    (pipe : listener.msgs.commitPipe = slot :: rest) (written : listener.msgs.msgs slot = some msg) :
    listener.nextMsg = some msg := by
  simp [Listener.nextMsg, pipe, written]

theorem noteAuthors_listener_command : (noteAuthors s (.listener l a) g).command = g.command := by
  unfold noteAuthors
  split
  · rename_i impossible
    cases impossible
  · split <;> rfl
  · rfl

/-- A listener writes the author of the cell that it fills for a `HOLD`, and of no other. -/
theorem noteAuthors_listener_cell (event : ∀ fd seqId, (s.listeners l).rxEvent s.conns a ≠ .hold fd seqId) :
    noteAuthors s (.listener l a) g = g := by
  unfold noteAuthors
  split
  · rename_i impossible
    cases impossible
  · rename_i l' env same
    cases same
    split
    · rename_i serial i isHold head
      obtain ⟨msg, next, held⟩ := Option.bind_eq_some_iff.mp isHold
      obtain ⟨slot, pipe, written⟩ := Option.bind_eq_some_iff.mp next
      obtain ⟨command, number⟩ := msg
      cases command with
      | holdResponse fd seqId timeoutSec =>
        refine absurd ?_ (event fd seqId)
        simp [Listener.rxEvent, Listener.nextCommand, pipe, written]
      | _ => cases held
    · rfl
  · rfl

theorem noteAuthors_hold {env : CommandEnv} {slot serial i : Nat} {rest : List Nat} {fd seqId timeoutSec : Int}
    (pipe : (s.listeners l).msgs.commitPipe = slot :: rest)
    (written : (s.listeners l).msgs.msgs slot = some ⟨.holdResponse fd seqId timeoutSec, serial⟩)
    (head : (s.listeners l).rx.rxInfoFreelist.head? = some i) :
    (noteAuthors s (.listener l (.handle env)) g).cell = update g.cell (l, i) (g.command serial) := by
  simp only [noteAuthors, Listener.nextMsg_head pipe written, Option.bind_some, Msg.holdSerial, head]

/-- The event of a `HOLD` is the command at the head of the commit pipe. -/
theorem Listener.rxEvent_hold {listener : Listener} {fd seqId : Int} (event : listener.rxEvent conns a = .hold fd seqId) :
    ∃ env slot rest timeoutSec serial, a = .handle env ∧ listener.msgs.commitPipe = slot :: rest ∧
      listener.msgs.msgs slot = some ⟨.holdResponse fd seqId timeoutSec, serial⟩ := by
  cases a with
  | handle env =>
    cases pipe : listener.msgs.commitPipe with
    | nil => simp [Listener.rxEvent, Listener.nextCommand, pipe] at event
    | cons slot rest =>
      cases written : listener.msgs.msgs slot with
      | none => simp [Listener.rxEvent, Listener.nextCommand, pipe, written] at event
      | some msg =>
        rw [Listener.rxEvent_handle pipe written] at event
        obtain ⟨command, serial⟩ := msg
        cases command with
        | holdResponse fd' seqId' timeoutSec =>
          cases event
          exact ⟨env, slot, rest, timeoutSec, serial, rfl, rfl, written⟩
        | _ => cases event
  | _ => cases event

/-- A box that belongs to the request of a cell is that of the cell's own author. -/
theorem AuthorInv.author_of_hold (inv : AuthorInv s g) {i b : Nat} {hasResult : Bool} {result : UnpackRes} {error : RxError}
    (state : (s.listeners l).rx.state i = .hold (s.heap.boxes b).fd (s.heap.boxes b).outSeqId hasResult result error)
    (present : s.Present g b) : g.cell (l, i) = some b := by
  have authored := inv.cells l i
  rw [state] at authored
  obtain ⟨x, known, _, fd, seqId⟩ := authored
  have held : s.author g (.cell l i) = some x := by
    simp only [BusState.author, state]
    exact known
  rw [known, inv.unique x b (.hold _ held) present ⟨fd, seqId⟩]

/-- The box of the `EXPECT` that is executed. -/
theorem present_of_expect {b : Nat} (event : (s.listeners l).rxEvent s.conns a = .expect b) : s.Present g b := by
  obtain ⟨env, slot, rest, serial, _, pipe, written⟩ := Listener.rxEvent_expect event
  exact .command l slot (MsgTable.box_of_head pipe written)

theorem RxInfoState.authored_setError {info : RxInfo} {author : Option Nat} (before : info.state.authored s author)
    (boxes : Nat → BoxedMsg) (fd : Int) (err : RxError) : (info.setError boxes fd err).state.authored s author := by
  unfold RxInfo.setError
  split
  · exact before
  · rename_i state
    rw [state] at before
    exact before
  · exact before
  · rename_i state
    rw [state] at before
    exact before

/-- Each cell of the listener still belongs to the request it was made for. -/
theorem AuthorInv.cells_listener (inv : AuthorInv s g)
    (move : RxMove (s.listeners l).rx s.heap listener.rx heap ((s.listeners l).rxEvent s.conns a)) (i : Nat) :
    (listener.rx.state i).authored s ((noteAuthors s (.listener l a) g).cell (l, i)) := by
  generalize event : (s.listeners l).rxEvent s.conns a = e at move
  have quiet (other : ∀ fd seqId, e ≠ .hold fd seqId) : noteAuthors s (.listener l a) g = g :=
    noteAuthors_listener_cell (by rw [event]; exact other)
  have same (other : ∀ fd seqId, e ≠ .hold fd seqId) {j : Nat} {new : RxInfoState}
      (cells : listener.rx.state = update (s.listeners l).rx.state j new) (here : new.authored s (g.cell (l, j))) :
      (listener.rx.state i).authored s ((noteAuthors s (.listener l a) g).cell (l, i)) := by
    rw [quiet other, cells, Function.update_apply]
    split
    · rename_i at_j
      rw [at_j]
      exact here
    · exact inv.cells l i
  cases move with
  | keeps _ cells _ missed =>
    rw [cells]
    cases e with
    | hold fd seqId =>
      have empty : noteAuthors s (.listener l a) g = g := by
        obtain ⟨env, slot, rest, timeoutSec, serial, rfl, pipe, written⟩ := Listener.rxEvent_hold event
        simp only [noteAuthors, show (s.listeners l).rx.rxInfoFreelist = [] from missed, List.head?_nil]
        cases (s.listeners l).nextMsg.bind Msg.holdSerial <;> rfl
      rw [empty]
      exact inv.cells l i
    | _ =>
      rw [quiet (by simp)]
      exact inv.cells l i
  | frees j _ _ cells => exact same (by simp) cells trivial
  | holds j fd seqId head free cells =>
    obtain ⟨env, slot, rest, timeoutSec, serial, rfl, pipe, written⟩ := Listener.rxEvent_hold event
    rw [noteAuthors_hold pipe written head, cells]
    by_cases here : i = j
    · subst here
      rw [Function.update_self, Function.update_self]
      exact inv.commands l slot fd seqId timeoutSec serial written
    · rw [Function.update_of_ne here, Function.update_of_ne (by simpa using here)]
      exact inv.cells l i
  | saves j fd seqId old result error held _ _ _ cells =>
    have before := inv.cells l j
    rw [held] at before
    exact same (by simp) cells before
  | errs fd err _ cells =>
    rw [quiet (by simp), cells, RxTable.setErrorForSocket_state]
    split
    · exact RxInfoState.authored_setError (inv.cells l i) _ fd err
    · exact inv.cells l i
  | pairs j b result held _ cells =>
    exact same (by simp) cells (inv.author_of_hold held (present_of_expect event))
  | offers _ j b box after accepted offer offered =>
    have other : ∀ fd seqId, e ≠ .hold fd seqId := by
      rintro fd seqId rfl
      cases offer
    refine same other offered.cells ?_
    split
    · trivial
    · have before := inv.cells l j
      cases offer with
      | retries => exact before
      | expires => exact before
      | fails => exact before
      | receives error hasResult old result state =>
        rw [state] at before
        exact before
      | pairsResult result state => exact inv.author_of_hold state (present_of_expect event)
      | pairsError hasResult result error state => exact inv.author_of_hold state (present_of_expect event)

/-- The cells of the other listeners keep their authors. -/
theorem noteAuthors_other_listener {l' i : Nat} (other : l' ≠ l) :
    (noteAuthors s (.listener l a) g).cell (l', i) = g.cell (l', i) := by
  unfold noteAuthors
  split
  · rename_i impossible
    cases impossible
  · rename_i l'' env same
    cases same
    split
    · exact Function.update_of_ne (fun same => other (congrArg Prod.fst same)) ..
    · rfl
  · rfl

/-- A `HOLD` that is committed after a step of a listener was committed before it. -/
theorem author_command {l' slot b : Nat} (slots : SlotInv s)
    (moved : listenerStep (s.listeners l) s.heap s.conns a = some (listener, heap, conns))
    (held : (s.setListener l listener heap conns).author (noteAuthors s (.listener l a) g) (.command l' slot) = some b) :
    s.author g (.command l' slot) = some b := by
  simp only [BusState.author, noteAuthors_listener_command, BusState.setListener, Function.update_apply] at held ⊢
  by_cases here : l' = l
  · subst here
    rw [if_pos rfl] at held
    rcases listenerStep_queue moved (slots.apart l') with ⟨same, _⟩ | ⟨env, head, rest, msg, _, _, _, read⟩
    · rwa [same] at held
    · rw [read] at held
      split at held
      · cases held
      · exact held
  · rwa [if_neg here] at held

/-- A cell that a step of a listener does not fill. -/
theorem author_cell {l' i b : Nat}
    (moved : listenerStep (s.listeners l) s.heap s.conns a = some (listener, heap, conns))
    (held : (s.setListener l listener heap conns).author (noteAuthors s (.listener l a) g) (.cell l' i) = some b)
    (unfilled : l' = l → ∀ fd seqId, (s.listeners l).rxEvent s.conns a = .hold fd seqId →
      (s.listeners l).rx.rxInfoFreelist.head? ≠ some i) :
    s.author g (.cell l' i) = some b := by
  simp only [BusState.author, BusState.setListener, Function.update_apply] at held ⊢
  by_cases here : l' = l
  · subst here
    rw [if_pos rfl] at held
    split at held
    · cases held
    · rename_i active
      rcases (listenerStep_rx moved).active_origin active with before | ⟨fd, seqId, event, head, _⟩
      · rw [if_neg before]
        rw [← held]
        by_cases isHold : ∃ fd seqId, (s.listeners l').rxEvent s.conns a = .hold fd seqId
        · obtain ⟨fd, seqId, event⟩ := isHold
          obtain ⟨env, slot, rest, timeoutSec, serial, rfl, pipe, written⟩ := Listener.rxEvent_hold event
          cases head : (s.listeners l').rx.rxInfoFreelist.head? with
          | none => simp only [noteAuthors, head, Listener.nextMsg_head pipe written, Option.bind_some, Msg.holdSerial]
          | some j =>
            rw [noteAuthors_hold pipe written head, Function.update_of_ne]
            rintro same
            cases same
            exact unfilled rfl fd seqId event head
        · rw [noteAuthors_listener_cell fun fd seqId event => isHold ⟨fd, seqId, event⟩]
      · exact absurd head (unfilled rfl fd seqId event)
  · rw [if_neg here] at held
    rwa [noteAuthors_other_listener here] at held

/-- A listener takes the `HOLD` at the head of its commit pipe into a cell, and forgets requests otherwise. -/
theorem AuthorInv.author_listener (inv : AuthorInv s g) (slots : SlotInv s)
    (moved : listenerStep (s.listeners l) s.heap s.conns a = some (listener, heap, conns)) :
    (∀ p b, (s.setListener l listener heap conns).author (noteAuthors s (.listener l a) g) p = some b →
      s.author g p = some b) ∨
    ∃ slot i b, s.author g (.command l slot) = some b ∧
      ∀ p x, (s.setListener l listener heap conns).author (noteAuthors s (.listener l a) g) p = some x →
        p = .cell l i ∧ x = b ∨ s.author g p = some x ∧ p ≠ .command l slot ∧ p ≠ .cell l i := by
  by_cases fills : ∃ fd seqId i, (s.listeners l).rxEvent s.conns a = .hold fd seqId ∧
      (s.listeners l).rx.rxInfoFreelist.head? = some i
  · obtain ⟨fd, seqId, i, event, head⟩ := fills
    obtain ⟨env, slot, rest, timeoutSec, serial, rfl, pipe, written⟩ := Listener.rxEvent_hold event
    obtain ⟨b, known, _⟩ := inv.commands l slot fd seqId timeoutSec serial written
    have queued : (s.listeners l).msgs.queued slot = some ⟨.holdResponse fd seqId timeoutSec, serial⟩ := by
      rw [MsgTable.queued, if_pos (by rw [pipe]; exact List.mem_cons_self), written]
    refine .inr ⟨slot, i, b, by simp [BusState.author, queued, Msg.holdSerial, known], fun p x held => ?_⟩
    cases p with
    | command l' slot' =>
      refine .inr ⟨author_command slots moved held, ?_, by simp⟩
      rintro same
      cases same
      rcases listenerStep_queue moved (slots.apart l) with ⟨_, notHandle⟩ | ⟨_, head', rest', _, _, pipe', _, read⟩
      · exact notHandle env rfl
      · rw [pipe] at pipe'
        cases pipe'
        have gone := read slot
        rw [if_pos rfl] at gone
        simp [BusState.author, BusState.setListener, gone] at held
    | cell l' j =>
      by_cases here : l' = l ∧ j = i
      · obtain ⟨rfl, rfl⟩ := here
        simp only [BusState.author] at held
        split at held
        · cases held
        · rw [noteAuthors_hold pipe written head, Function.update_self, known] at held
          cases held
          exact .inl ⟨rfl, rfl⟩
      · refine .inr ⟨author_cell moved held ?_, by simp, by simpa using here⟩
        rintro rfl _ _ _ head'
        rw [head] at head'
        cases head'
        exact here ⟨rfl, rfl⟩
  · refine .inl fun p b held => ?_
    cases p with
    | command l' slot => exact author_command slots moved held
    | cell l' i => exact author_cell moved held fun _ fd seqId event head => fills ⟨fd, seqId, i, event, head⟩

theorem AuthorInv.sound_listener (inv : AuthorInv s g) (slots : SlotInv s)
    (moved : listenerStep (s.listeners l) s.heap s.conns a = some (listener, heap, conns)) :
    Sound ((s.setListener l listener heap conns).author (noteAuthors s (.listener l a) g))
      (s.setListener l listener heap conns).heldOnce := by
  rcases inv.author_listener slots moved with kept | ⟨slot, i, b, held, origin⟩
  · exact inv.sound.shrink kept
  · have rest := inv.sound.clear held
    have filled : Sound (update (update (s.author g) (.command l slot) none) (.cell l i) (some b)) s.heldOnce :=
      rest.update (fun r atR => absurd rfl (rest.alive r b atR).2) (fun x old => old.1) (inv.sound.alive _ b held)
    refine filled.shrink fun p x after => ?_
    rcases origin p x after with ⟨rfl, rfl⟩ | ⟨before, notCommand, notCell⟩
    · rw [Function.update_self]
    · rw [Function.update_of_ne notCell, Function.update_of_ne notCommand]
      exact before

/-- A listener leaves nothing of a request of which there was nothing. -/
theorem AuthorInv.present_listener (inv : AuthorInv s g) (slots : SlotInv s)
    (moved : listenerStep (s.listeners l) s.heap s.conns a = some (listener, heap, conns)) {b : Nat}
    (present : (s.setListener l listener heap conns).Present (noteAuthors s (.listener l a) g) b) : s.Present g b := by
  cases present with
  | client c held => exact .client c held
  | command l' slot held =>
    simp only [BusState.setListener, Function.update_apply] at held
    split at held
    · rename_i here
      subst here
      exact .command l' slot (listenerStep_command moved (slots.apart l') held).1
    · exact .command l' slot held
  | hold p held =>
    rcases inv.author_listener slots moved with kept | ⟨slot, i, x, before, origin⟩
    · exact .hold p (kept p b held)
    · rcases origin p b held with ⟨_, rfl⟩ | ⟨before, _⟩
      · exact .hold _ before
      · exact .hold p before

theorem AuthorInv.of_listener (inv : AuthorInv s g) (slots : SlotInv s)
    (moved : listenerStep (s.listeners l) s.heap s.conns a = some (listener, heap, conns)) :
    AuthorInv (s.setListener l listener heap conns) (noteAuthors s (.listener l a) g) := by
  have move := listenerStep_rx moved
  have written {l' i : Nat} {msg : Msg}
      (after : ((s.setListener l listener heap conns).listeners l').msgs.msgs i = some msg) :
      (s.listeners l').msgs.msgs i = some msg := by
    simp only [BusState.setListener, Function.update_apply] at after
    split at after
    · rename_i here
      rw [here]
      exact listenerStep_written moved after
    · exact after
  refine ⟨?_, ?_, ?_, ?_, inv.sound_listener slots moved, ?_⟩
  · intro l' i msg after
    exact inv.serials l' i msg (written after)
  · intro l' i fd seqId timeoutSec serial after
    obtain ⟨b, known, below, rfl, rfl⟩ := inv.commands l' i fd seqId timeoutSec serial (written after)
    exact ⟨b, by rw [noteAuthors_listener_command, known], below, move.identity b⟩
  · intro c p l' slot serial writing
    rw [noteAuthors_listener_command]
    exact inv.pushes c p l' slot serial writing
  · intro l' i
    have authored : (((s.setListener l listener heap conns).listeners l').rx.state i).authored s
        ((noteAuthors s (.listener l a) g).cell (l', i)) := by
      simp only [BusState.setListener, Function.update_apply]
      split
      · rename_i here
        rw [here]
        exact inv.cells_listener move i
      · rename_i other
        rw [noteAuthors_other_listener other]
        exact inv.cells l' i
    exact RxInfoState.authored_mono authored (Nat.le_refl _) fun b _ => move.identity b
  · intro x y first second same
    exact inv.unique x y (inv.present_listener slots moved first) (inv.present_listener slots moved second)
      (sameRequest_congr same (move.identity x) (move.identity y))

end Listeners

theorem AuthorInv.step {s t : BusState} {g : Authors} {label : BusLabel} (inv : AuthorInv s g) (slots : SlotInv s)
    (owners : OwnerInv s) (fresh : s.freshRequest label) (taken : busStep s label = some t) :
    AuthorInv t (noteAuthors s label g) := by
  cases label with
  | client c a => exact inv.client slots owners fresh taken
  | listener l a =>
    obtain ⟨⟨listener, heap, conns⟩, moved, run⟩ := Option.bind_eq_some_iff.mp taken
    cases run
    exact inv.of_listener slots moved
  | run k =>
    obtain ⟨_, _, rfl⟩ := busStep_run taken
    have present {b : Nat} (after : BusState.Present { s with ran := k :: s.ran } g b) : s.Present g b := by
      cases after with
      | client c held => exact .client c held
      | command l slot held => exact .command l slot held
      | hold p held => exact .hold p (by cases p <;> exact held)
    refine ⟨inv.serials, inv.commands, inv.pushes, fun l i => ?_, ?_, fun x y first second same => ?_⟩
    · exact RxInfoState.authored_mono (inv.cells l i) (Nat.le_refl _) fun _ _ => ⟨rfl, rfl⟩
    · exact inv.sound.shrink fun p b held => by cases p <;> exact held
    · exact inv.unique x y (present first) (present second) same

/-- The cells of a run belong to their requests, as long as no request comes while something is left of an earlier one
with its numbers. -/
theorem author_invariant {n : Nat} {s : BusState} {g : Authors}
    (reach : Reach (watch busStep noteAuthors) (.new n, .none) (fun s label => s.1.freshRequest label) (s, g)) :
    AuthorInv s g := by
  refine reach.watched_invariant (fun s label => s.freshRequest label) (.new n) fun s g label t before inv fresh taken => ?_
  obtain ⟨slots, owners⟩ := bus_invariant before
  exact inv.step slots owners fresh taken

section Runs
variable {n : Nat} {s : BusState} {g : Authors}

/-- The request behind a cell that is found for the numbers. -/
theorem AuthorInv.author_of_isFor (inv : AuthorInv s g) {l i : Nat} {fd seqId : Int}
    (found : ((s.listeners l).rx.rxInfo i).isFor s.heap.boxes fd seqId = true) :
    ∃ b, s.author g (.cell l i) = some b ∧ (s.heap.boxes b).fd = fd ∧ (s.heap.boxes b).outSeqId = seqId := by
  have authored := inv.cells l i
  unfold RxInfo.isFor at found
  cases state : (s.listeners l).rx.state i with
  | inactive =>
    rw [show ((s.listeners l).rx.rxInfo i).state = _ from state] at found
    cases found
  | hold heldFd heldSeqId hasResult result error =>
    rw [state] at authored
    obtain ⟨b, known, _, ofFd, ofSeqId⟩ := authored
    simp only [show ((s.listeners l).rx.rxInfo i).state = _ from state, decide_eq_true_eq] at found
    refine ⟨b, ?_, ofFd.trans found.1, ofSeqId.trans found.2⟩
    rw [BusState.author, state]
    exact known
  | expect box error hasResult result =>
    rw [state] at authored
    cases box with
    | none =>
      rw [show ((s.listeners l).rx.rxInfo i).state = _ from state] at found
      cases found
    | some b =>
      simp only [show ((s.listeners l).rx.rxInfo i).state = _ from state, decide_eq_true_eq] at found
      refine ⟨b, ?_, found.2, found.1⟩
      rw [BusState.author, state]
      exact authored

/-- No two cells are for the same numbers. -/
theorem AuthorInv.one_cell (inv : AuthorInv s g) {l l' i i' : Nat} {fd seqId : Int}
    (first : ((s.listeners l).rx.rxInfo i).isFor s.heap.boxes fd seqId = true)
    (second : ((s.listeners l').rx.rxInfo i').isFor s.heap.boxes fd seqId = true) : l = l' ∧ i = i' := by
  obtain ⟨a, heldA, fdA, seqA⟩ := inv.author_of_isFor first
  obtain ⟨b, heldB, fdB, seqB⟩ := inv.author_of_isFor second
  have same : a = b := inv.unique a b (.hold _ heldA) (.hold _ heldB) ⟨fdA.trans fdB.symm, seqA.trans seqB.symm⟩
  subst same
  cases inv.sound.exclusive _ _ a heldA heldB
  exact ⟨rfl, rfl⟩

theorem Listener.box_of_nextCommand {listener : Listener} {b : Nat}
    (next : listener.nextCommand = some (.expectResponse b)) : ∃ slot, listener.msgs.box slot = some b := by
  obtain ⟨slot, head, written⟩ := Option.bind_eq_some_iff.mp next
  obtain ⟨rest, pipe⟩ := List.head?_eq_some_iff.mp head
  obtain ⟨msg, message, command⟩ := Option.map_eq_some_iff.mp written
  refine ⟨slot, ?_⟩
  rw [MsgTable.box_of_head pipe message, command]
  rfl

/-- The cell that an `EXPECT` finds is the `HOLD` of its own request. -/
theorem AuthorInv.own_hold (inv : AuthorInv s g) (owners : OwnerInv s) {l b i : Nat}
    (next : (s.listeners l).nextCommand = some (.expectResponse b))
    (found : findInfoBySequenceId (s.listeners l).rx s.heap.boxes (s.heap.boxes b).fd (s.heap.boxes b).outSeqId = some i) :
    g.cell (l, i) = some b ∧ ∃ hasResult result error,
      (s.listeners l).rx.state i = .hold (s.heap.boxes b).fd (s.heap.boxes b).outSeqId hasResult result error := by
  have isFor := findInfoBySequenceId_isFor found
  obtain ⟨a, held, fd, seqId⟩ := inv.author_of_isFor isFor
  obtain ⟨slot, inCommand⟩ := Listener.box_of_nextCommand next
  have same : a = b := inv.unique a b (.hold _ held) (.command l slot inCommand) ⟨fd, seqId⟩
  subst same
  have authored := inv.cells l i
  simp only [BusState.author] at held
  split at held
  · cases held
  · refine ⟨held, ?_⟩
    cases state : (s.listeners l).rx.state i with
    | inactive => exact absurd state ‹_›
    | hold heldFd heldSeqId hasResult result error =>
      simp only [RxInfo.isFor, show ((s.listeners l).rx.rxInfo i).state = _ from state, decide_eq_true_eq] at isFor
      rw [isFor.1, isFor.2]
      exact ⟨hasResult, result, error, rfl⟩
    | expect box error hasResult result =>
      rw [state] at authored
      have author : g.cell (l, i) = box := authored
      have inCell : s.holding (.cell l i) = some a := by
        rw [← held, author, BusState.holding, RxTable.box_eq state]
        rfl
      cases owners.sound.exclusive _ (.command l slot) a inCell inCommand

/-- In every run in which a request is accepted only when nothing is left of an earlier one with its socket number and
sequence id, no two cells in use are for the same numbers, and the cell that an `EXPECT` finds is the `HOLD` of its own
request, not another `EXPECT`. -/
theorem one_cell_per_request
    (reach : Reach (watch busStep noteAuthors) (.new n, .none) (fun s label => s.1.freshRequest label) (s, g)) :
    (∀ fd seqId l i l' i', ((s.listeners l).rx.rxInfo i).isFor s.heap.boxes fd seqId = true →
      ((s.listeners l').rx.rxInfo i').isFor s.heap.boxes fd seqId = true → l = l' ∧ i = i') ∧
    (∀ l b i, (s.listeners l).nextCommand = some (.expectResponse b) →
      findInfoBySequenceId (s.listeners l).rx s.heap.boxes (s.heap.boxes b).fd (s.heap.boxes b).outSeqId = some i →
      g.cell (l, i) = some b ∧ ∃ hasResult result error,
        (s.listeners l).rx.state i = .hold (s.heap.boxes b).fd (s.heap.boxes b).outSeqId hasResult result error) := by
  have inv := author_invariant reach
  have owners := (bus_invariant (reach.unwatch fun s label => s.freshRequest label)).2
  exact ⟨fun _ _ _ _ _ _ first second => inv.one_cell first second, fun _ _ _ next found => inv.own_hold owners next found⟩

/-- What is left is left of some earlier request. -/
theorem AuthorInv.of_pending (inv : AuthorInv s g) (owners : OwnerInv s) {fd seqId : Int} (pending : s.Pending fd seqId) :
    ∃ b, b < s.nextBox ∧ (s.heap.boxes b).fd = fd ∧ (s.heap.boxes b).outSeqId = seqId := by
  cases pending with
  | client c b held ofFd ofSeqId => exact ⟨b, (owners.sound.alive (.client c) b held).1, ofFd, ofSeqId⟩
  | hold l slot timeoutSec serial queued =>
    have written := MsgTable.written_of_queued queued
    obtain ⟨b, _, below, ofFd, ofSeqId⟩ := inv.commands l slot fd seqId timeoutSec serial written
    exact ⟨b, below, ofFd, ofSeqId⟩
  | expect l slot b held ofFd ofSeqId => exact ⟨b, (owners.sound.alive (.command l slot) b held).1, ofFd, ofSeqId⟩
  | cell l i found =>
    obtain ⟨b, held, ofFd, ofSeqId⟩ := inv.author_of_isFor found
    exact ⟨b, (inv.sound.alive _ b held).1, ofFd, ofSeqId⟩

/-- Whether the sequence id of an accepted request is above those of all earlier ones on its socket number. -/
def BusState.increasing (s : BusState) : BusLabel → Bool
  | .client _ (.request msg) =>
    (boxMsg s msg).isNone ||
      decide (∀ b, b < s.nextBox → (s.heap.boxes b).fd = msg.fd → (s.heap.boxes b).outSeqId < msg.seqId)
  | _ => true

/-- Sequence ids that increase on each socket number are never met again. -/
theorem BusState.freshRequest_of_increasing {label : BusLabel} (inv : AuthorInv s g) (owners : OwnerInv s)
    (increasing : s.increasing label = true) : s.freshRequest label := by
  cases label with
  | client c a =>
    cases a with
    | request msg =>
      intro boxed pending
      obtain ⟨b, below, fd, seqId⟩ := inv.of_pending owners pending
      simp only [BusState.increasing, Bool.or_eq_true, Option.isNone_iff_eq_none, decide_eq_true_eq] at increasing
      rcases increasing with rejected | above
      · rw [rejected] at boxed
        cases boxed
      · have smaller := above b below fd
        omega
    | _ => trivial
  | _ => trivial

/-- A run with increasing sequence ids, whatever else its steps meet. -/
theorem freshRequest_of_reach (ok : BusState → BusLabel → Prop)
    (run : Reach busStep (.new n) (fun s label => s.increasing label = true ∧ ok s label) s) :
    Reach busStep (.new n) (fun s label => s.freshRequest label ∧ ok s label) s := by
  refine run.refine fun s label before met => ⟨?_, met.2⟩
  obtain ⟨g, watched⟩ := (before.weaken fun _ _ met => met.1).watch noteAuthors .none
  exact BusState.freshRequest_of_increasing (author_invariant watched) (bus_invariant before).2 met.1

/-- The `EXPECT` of the second request is at the head of the commit pipe, and its `HOLD` in the second cell. -/
theorem one_cell_per_request_second :
    ∃ s g, Reach (watch busStep noteAuthors) (.new 1, .none) (fun s label => s.1.freshRequest label) (s, g) ∧
      ((s.listeners 0).rx.rxInfo 1).isFor s.heap.boxes 5 1 = true ∧
      (s.listeners 0).nextCommand = some (.expectResponse 1) ∧
      (∀ fd seqId l i l' i', ((s.listeners l).rx.rxInfo i).isFor s.heap.boxes fd seqId = true →
        ((s.listeners l').rx.rxInfo i').isFor s.heap.boxes fd seqId = true → l = l' ∧ i = i') ∧
      (∀ l b i, (s.listeners l).nextCommand = some (.expectResponse b) →
        findInfoBySequenceId (s.listeners l).rx s.heap.boxes (s.heap.boxes b).fd (s.heap.boxes b).outSeqId = some i →
        g.cell (l, i) = some b ∧ ∃ hasResult result error,
          (s.listeners l).rx.state i = .hold (s.heap.boxes b).fd (s.heap.boxes b).outSeqId hasResult result error) := by
  have trace : (exec busStep (fun s label => decide (s.increasing label = true ∧ True)) (.new 1)
      (registerSteps 0 5 ++ sendSteps 0 ⟨5, 0, 1, [3]⟩ ++ holdSteps 0 ⟨5, 1, 1, [1, 2]⟩ ++ writeSteps 0 2 ++
        [BusLabel.client 0 (.event (.timestamp (some ⟨0, 0⟩))), .client 0 .getFreeMsg, .client 0 (.pushMessage true)])).map
      (fun s => (((s.listeners 0).rx.rxInfo 1).isFor s.heap.boxes 5 1, (s.listeners 0).nextCommand)) =
      some (true, some (.expectResponse 1)) := by decide +kernel
  obtain ⟨s, run, seen⟩ := exists_reach_of_exec trace
  obtain ⟨isFor, next⟩ := Prod.mk.inj seen
  obtain ⟨g, reach⟩ := ((freshRequest_of_reach (fun _ _ => True) run).weaken fun _ _ met => met.1).watch
    noteAuthors .none
  exact ⟨s, g, reach, isFor, next, one_cell_per_request reach⟩

def releaseSteps (c : Nat) (fd : Int) : List BusLabel :=
  .client c (.release fd) :: commandSteps c 0 ++ [.client c (.onCompletion true)]

/-- The socket 5 is registered three times, and each time used for the sequence id 0. The first request fails after its
`HOLD`, which stays; the `EXPECT` of the second is paired with it, and leaves its own `HOLD` behind; and the `EXPECT` of
the third finds that of the second, and the assertion fails. -/
theorem duplicate_expect_reached :
    ∃ s g, Reach (watch busStep noteAuthors) (.new 1, .none) (fun _ _ => True) (s, g) ∧
      ((s.listeners 0).rx.rxInfo 0).isFor s.heap.boxes 5 0 = true ∧
      ((s.listeners 0).rx.rxInfo 1).isFor s.heap.boxes 5 0 = true ∧
      (s.listeners 0).rx.box 0 = some 1 ∧ g.cell (0, 0) = some 0 ∧
      (s.listeners 0).nextCommand = some (.expectResponse 2) ∧
      ∀ accepted, expectResponse accepted (s.listeners 0).rx s.heap 2 = none := by
  have trace : (exec (watch busStep noteAuthors) (fun _ _ => decide True) (.new 1, .none)
      (registerSteps 0 5 ++ holdSteps 0 ⟨5, 0, 1, [1, 2]⟩ ++
        [BusLabel.client 0 (.event (.timestamp (some ⟨0, 0⟩))), .client 0 (.event (.poll .error)), .client 0 (.pool true)] ++
        releaseSteps 0 5 ++ registerSteps 0 5 ++ sendSteps 0 ⟨5, 0, 1, [3]⟩ ++
        releaseSteps 0 5 ++ registerSteps 0 5 ++ holdSteps 0 ⟨5, 0, 1, [4]⟩ ++ writeSteps 0 1 ++
        [BusLabel.client 0 (.event (.timestamp (some ⟨0, 0⟩))), .client 0 .getFreeMsg, .client 0 (.pushMessage true)])).map
      (fun s => ((((s.1.listeners 0).rx.rxInfo 0).isFor s.1.heap.boxes 5 0,
        ((s.1.listeners 0).rx.rxInfo 1).isFor s.1.heap.boxes 5 0, (s.1.listeners 0).rx.box 0, s.2.cell (0, 0)),
        (s.1.listeners 0).nextCommand, (expectResponse true (s.1.listeners 0).rx s.1.heap 2).isNone,
        (expectResponse false (s.1.listeners 0).rx s.1.heap 2).isNone)) =
      some ((true, true, some 1, some 0), some (.expectResponse 2), true, true) := by decide +kernel
  obtain ⟨⟨s, g⟩, reach, seen⟩ := exists_reach_of_exec trace
  simp only [Prod.mk.injEq] at seen
  obtain ⟨⟨first, second, box, author⟩, next, taken, rejected⟩ := seen
  refine ⟨s, g, reach, first, second, box, author, next, fun accepted => ?_⟩
  cases accepted with
  | true => exact Option.isNone_iff_eq_none.mp taken
  | false => exact Option.isNone_iff_eq_none.mp rejected

end Runs

end Kinetic
