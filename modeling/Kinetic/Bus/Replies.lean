import Kinetic.Bus.Slots
import Kinetic.Bus.Stages
import Kinetic.Listener.Replies

namespace Kinetic
open Function (update)
open Transition (Reach exec exists_reach_of_exec)

/-- The pipe of the slot is empty, no client waits on it, and no shutdown is to be answered there. -/
structure Quiet (s : BusState) (l slot : Nat) : Prop where
  silent : Silent (s.listeners l) slot
  unread : ∀ c p serial, s.clients c ≠ .wait p l slot serial

/-- A client that takes a slot for a command with a reply takes a quiet one. -/
def TakesQuiet (s : BusState) : BusLabel → Prop
  | .client c .getFreeMsg => ∀ p slot, s.clients c = .acquire p → p.handsOver = none →
      (s.listeners (p.listener s)).msgs.msgFreelist.head? = some slot → Quiet s (p.listener s) slot
  | _ => True

/-- A client that waits gets no reply but its own, and one that has a command with a reply to commit has a quiet slot. -/
structure ReplyInv (s : BusState) : Prop where
  waiting : ∀ c p l slot serial, s.clients c = .wait p l slot serial → AnswersOnly (s.listeners l) slot serial
  writing : ∀ c p l slot serial, s.clients c = .push p l slot serial → p.handsOver = none → Quiet s l slot
  truthful : ∀ l, Truthful (s.listeners l)

theorem ReplyInv.new (listenerCount : Nat) : ReplyInv (.new listenerCount) := by
  refine ⟨?_, ?_, fun l => ⟨?_, ?_⟩⟩
  · intro c p l slot serial waiting
    cases waiting
  · intro c p l slot serial writing
    cases writing
  · intro slot reply member
    cases member
  · intro slot asked pending
    cases pending

section Steps
variable {s t : BusState} {c : Nat}

/-- A step of the client `c` after which it has nothing to do with a slot, and in which the pipes only lose replies. -/
theorem ReplyInv.leave (inv : ReplyInv s) {pc : ClientPc} (clients : t.clients = update s.clients c pc)
    (notPush : ∀ p l slot serial, pc ≠ .push p l slot serial) (notWait : ∀ p l slot serial, pc ≠ .wait p l slot serial)
    (only : ∀ l slot serial, AnswersOnly (s.listeners l) slot serial → AnswersOnly (t.listeners l) slot serial)
    (silent : ∀ l slot, Silent (s.listeners l) slot → Silent (t.listeners l) slot)
    (truthful : ∀ l, Truthful (t.listeners l)) : ReplyInv t := by
  have waited : ∀ c' p l slot serial, t.clients c' = .wait p l slot serial → s.clients c' = .wait p l slot serial := by
    intro c' p l slot serial waiting
    rw [clients, Function.update_apply] at waiting
    split at waiting
    · exact absurd waiting (notWait p l slot serial)
    · exact waiting
  refine ⟨?_, ?_, truthful⟩
  · intro c' p l slot serial waiting
    exact only _ _ _ (inv.waiting _ _ _ _ _ (waited _ _ _ _ _ waiting))
  · intro c' p l slot serial writing replied
    rw [clients, Function.update_apply] at writing
    split at writing
    · exact absurd writing (notPush p l slot serial)
    · have quiet := inv.writing _ _ _ _ _ writing replied
      exact ⟨silent _ _ quiet.silent, fun other p' serial' waiting => quiet.unread _ _ _ (waited _ _ _ _ _ waiting)⟩

theorem ClientPc.alone_not_wait {pc : ClientPc} (alone : pc.alone = true) (p : Purpose) (l slot serial : Nat) :
    pc ≠ .wait p l slot serial := by
  rintro rfl
  cases alone

/-- A client goes on after a change to the messages of one listener. -/
theorem ReplyInv.continues {box : Option Nat} {l : Nat} {msgs : MsgTable} (inv : ReplyInv s)
    (continues : Continues (s.setMsgs l msgs) t c box)
    (only : ∀ slot serial, AnswersOnly (s.listeners l) slot serial →
      AnswersOnly { s.listeners l with msgs := msgs } slot serial)
    (silent : ∀ slot, Silent (s.listeners l) slot → Silent { s.listeners l with msgs := msgs } slot)
    (pipes : ∀ slot reply, reply ∈ msgs.pipes slot → reply ∈ (s.listeners l).msgs.pipes slot) : ReplyInv t := by
  obtain ⟨pc, clients, alone, _⟩ := continues.client
  refine inv.leave clients (ClientPc.alone_not_push alone) (ClientPc.alone_not_wait alone) ?_ ?_ ?_
  · intro l' slot serial before
    rw [continues.listeners]
    exact update_listener (P := fun listener => AnswersOnly listener slot serial) before fun _ => only slot serial
  · intro l' slot before
    rw [continues.listeners]
    exact update_listener (P := fun listener => Silent listener slot) before fun _ => silent slot
  · intro l'
    rw [continues.listeners]
    exact update_listener (inv.truthful l') fun _ truthful => truthful.of_same pipes rfl fun _ done => done

/-- Nothing but the client `c` changes. -/
theorem ReplyInv.alone {pc : ClientPc} (inv : ReplyInv s) (clients : t.clients = update s.clients c pc)
    (alone : pc.alone = true) (listeners : t.listeners = s.listeners) : ReplyInv t := by
  refine inv.leave clients (ClientPc.alone_not_push alone) (ClientPc.alone_not_wait alone) ?_ ?_ ?_
  · rw [listeners]
    exact fun _ _ _ only => only
  · rw [listeners]
    exact fun _ _ silent => silent
  · rw [listeners]
    exact inv.truthful

/-- The client `c` takes a free slot, a quiet one if its command has a reply. -/
theorem ReplyInv.take {p : Purpose} {l slot serial : Nat} {msgs : MsgTable} (inv : ReplyInv s)
    (clients : t.clients = update s.clients c (.push p l slot serial))
    (listeners : t.listeners = (s.setMsgs l msgs).listeners) (free : slot ∉ msgs.commitPipe)
    (pipes : msgs.pipes = (s.listeners l).msgs.pipes)
    (commitPipe : msgs.commitPipe = (s.listeners l).msgs.commitPipe)
    (others : ∀ i, i ≠ slot → msgs.msgs i = (s.listeners l).msgs.msgs i) (quiet : p.handsOver = none → Quiet s l slot) :
    ReplyInv t := by
  have waited : ∀ c' p l slot serial, t.clients c' = .wait p l slot serial → s.clients c' = .wait p l slot serial := by
    intro c' p l slot serial waiting
    rw [clients, Function.update_apply] at waiting
    split at waiting
    · cases waiting
    · exact waiting
  have silent (l' slot' : Nat) (before : Silent (s.listeners l') slot') : Silent (t.listeners l') slot' := by
    rw [listeners]
    exact update_listener (P := fun listener => Silent listener slot') before fun _ old => old.of_same (by rw [pipes]) rfl
  have stays {l' slot' : Nat} (before : Quiet s l' slot') : Quiet t l' slot' :=
    ⟨silent _ _ before.silent, fun other p' serial' waiting => before.unread _ _ _ (waited _ _ _ _ _ waiting)⟩
  refine ⟨?_, ?_, ?_⟩
  · intro c' p' l' slot' serial' waiting
    have before := inv.waiting _ _ _ _ _ (waited _ _ _ _ _ waiting)
    rw [listeners]
    refine update_listener (P := fun listener => AnswersOnly listener slot' serial') before fun _ old => ?_
    refine old.of_same (by rw [pipes]) (fun committed => ⟨by rwa [commitPipe] at committed, others slot' ?_⟩) rfl
    rintro rfl
    exact free committed
  · intro c' p' l' slot' serial' writing replied
    rw [clients, Function.update_apply] at writing
    split at writing
    · cases writing
      exact stays (quiet replied)
    · exact stays (inv.writing _ _ _ _ _ writing replied)
  · intro l'
    rw [listeners]
    refine update_listener (inv.truthful l') fun _ old => old.of_same (fun slot reply member => ?_) rfl fun _ done => done
    rwa [pipes] at member

section Commits
variable {p : Purpose} {l slot serial : Nat}

theorem AnswersOnly.commit {l' slot' serial' : Nat} (slots : SlotInv s) (writing : s.clients c = .push p l slot serial)
    (before : AnswersOnly (s.listeners l') slot' serial')
    (same : l' = l → slot' = slot → p.handsOver = none → serial = serial') :
    AnswersOnly ((s.setMsgs l ((s.listeners l).msgs.pushMessage slot)).listeners l') slot' serial' := by
  obtain ⟨command, written, handed⟩ := slots.written c p l slot serial writing
  refine update_listener (P := fun listener => AnswersOnly listener slot' serial') before fun here old => ?_
  refine ⟨old.pipe, fun msg committed atSlot empty => ?_, old.notify⟩
  rcases List.mem_append.mp committed with earlier | new
  · exact old.queued msg earlier atSlot empty
  · have last := List.mem_singleton.mp new
    subst last
    have message : msg = ⟨command, serial⟩ := Option.some.inj (atSlot.symm.trans written)
    subst message
    exact same here rfl (handed.symm.trans empty)

theorem Silent.commit {l' slot' : Nat} (before : Silent (s.listeners l') slot') :
    Silent ((s.setMsgs l ((s.listeners l).msgs.pushMessage slot)).listeners l') slot' :=
  update_listener (P := fun listener => Silent listener slot') before fun _ old => ⟨old.pipe, old.notify⟩

theorem ReplyInv.truthful_commit (inv : ReplyInv s) (l' : Nat) :
    Truthful ((s.setMsgs l ((s.listeners l).msgs.pushMessage slot)).listeners l') :=
  update_listener (inv.truthful l') fun _ old => old.of_same (fun _ _ member => member) rfl fun _ done => done

/-- The client `c` commits its slot and waits for the reply. -/
theorem ReplyInv.wait (inv : ReplyInv s) (slots : SlotInv s) (writing : s.clients c = .push p l slot serial)
    (replied : p.handsOver = none) :
    ReplyInv ((s.setMsgs l ((s.listeners l).msgs.pushMessage slot)).setClient c (.wait p l slot serial)) := by
  have quiet := inv.writing c p l slot serial writing replied
  have before : ∀ c' p' l' slot' serial', update s.clients c (.wait p l slot serial) c' = .wait p' l' slot' serial' →
      (c' = c ∧ l' = l ∧ slot' = slot ∧ serial' = serial) ∨ s.clients c' = .wait p' l' slot' serial' := by
    intro c' p' l' slot' serial' waiting
    rw [Function.update_apply] at waiting
    split at waiting
    · rename_i same
      cases waiting
      exact .inl ⟨same, rfl, rfl, rfl⟩
    · exact .inr waiting
  refine ⟨?_, ?_, inv.truthful_commit⟩
  · intro c' p' l' slot' serial' waiting
    rcases before _ _ _ _ _ waiting with ⟨_, rfl, rfl, rfl⟩ | earlier
    · refine AnswersOnly.commit slots writing ⟨fun reply member => ?_, fun msg committed => ?_, fun asked pending => ?_⟩
        fun _ _ _ => rfl
      · rw [quiet.silent.pipe] at member
        cases member
      · exact absurd (List.mem_append_left _ (List.mem_append_right _ committed)) (slots.held _ _ _ _ _ writing)
      · exact absurd pending (quiet.silent.notify asked)
    · refine (inv.waiting _ _ _ _ _ earlier).commit slots writing fun sameListener sameSlot _ => ?_
      rw [sameListener, sameSlot] at earlier
      exact absurd earlier (quiet.unread _ _ _)
  · intro c' p' l' slot' serial' writing' replied'
    have other : c' ≠ c := by
      rintro rfl
      simp [BusState.setClient] at writing'
    have earlier : s.clients c' = .push p' l' slot' serial' := (Function.update_of_ne other ..).symm.trans writing'
    have quiet' := inv.writing _ _ _ _ _ earlier replied'
    refine ⟨quiet'.silent.commit, fun c'' p'' serial'' waiting => ?_⟩
    rcases before _ _ _ _ _ waiting with ⟨_, sameListener, sameSlot, _⟩ | waited
    · rw [sameListener, sameSlot] at earlier
      exact other (slots.single _ _ _ _ _ _ _ _ earlier writing)
    · exact quiet'.unread _ _ _ waited

/-- The client `c` commits its slot, and waits unless the slot takes its box along. -/
theorem ReplyInv.commit (inv : ReplyInv s) (slots : SlotInv s) (writing : s.clients c = .push p l slot serial) :
    ReplyInv ((s.setMsgs l ((s.listeners l).msgs.pushMessage slot)).pushed c l slot serial p) := by
  cases p with
  | expect b tries =>
    have idle : ((s.setMsgs l ((s.listeners l).msgs.pushMessage slot)).returned c b true).clients =
        update s.clients c .idle := rfl
    refine inv.leave idle (by simp) (by simp) (fun l' slot' serial' before => ?_) (fun _ _ before => before.commit)
      inv.truthful_commit
    exact before.commit slots writing fun _ _ replied => by cases replied
  | _ => exact inv.wait slots writing rfl

end Commits

theorem ReplyInv.client {a : ClientAction} (inv : ReplyInv s) (slots : SlotInv s) (quiet : TakesQuiet s (.client c a))
    (move : ClientMove s t c a) : ReplyInv t := by
  cases move with
  | requests msg idle clients listeners => exact inv.alone clients rfl listeners
  | goesOn a _ alone continues =>
    obtain ⟨pc, clients, after, _⟩ := continues.client
    exact inv.alone clients after continues.listeners
  | delivers b alone box clients listeners => exact inv.alone clients rfl listeners
  | takes p l slot next acquiring here free empty same =>
    subst same here
    have nodup := (slots.apart (p.listener s)).of_append_left
    rw [free] at nodup
    have absent : slot ∉ (s.listeners (p.listener s)).msgs.commitPipe := fun committed =>
      (List.nodup_cons.mp nodup).1 (List.mem_append_right _ committed)
    refine inv.take rfl rfl absent rfl rfl (fun i distinct => Function.update_of_ne distinct ..) fun replied => ?_
    exact quiet p slot acquiring replied (by rw [free]; rfl)
  | commits p l slot serial writing same =>
    subst same
    exact inv.commit slots writing
  | fails p l slot serial writing continues =>
    refine inv.continues continues (fun slot' serial' only => ?_) (fun slot' silent => silent.of_same rfl rfl)
      fun _ _ member => member
    refine only.of_same rfl (fun committed => ⟨committed, Function.update_of_ne ?_ ..⟩) rfl
    rintro rfl
    exact slots.held _ _ _ _ _ writing (List.mem_append_left _ (List.mem_append_right _ committed))
  | reads p l slot serial reply rest waiting pipe continues =>
    have fewer (i answer : Nat) (member : answer ∈ ((s.listeners l).msgs.readReply slot).pipes i) :
        answer ∈ (s.listeners l).msgs.pipes i := by
      simp only [MsgTable.readReply, Function.update_apply] at member
      split at member
      · rename_i here
        rw [here]
        exact List.mem_of_mem_tail member
      · exact member
    refine inv.continues continues (fun slot' serial' only => ?_) (fun slot' silent => ?_) fewer
    · exact ⟨fun answer member => only.pipe answer (fewer _ _ member), only.queued, only.notify⟩
    · refine ⟨List.eq_nil_iff_forall_not_mem.mpr fun answer member => ?_, silent.notify⟩
      have left := fewer _ _ member
      rw [silent.pipe] at left
      cases left
  | givesUp p l slot serial waiting continues =>
    obtain ⟨pc, clients, after, _⟩ := continues.client
    exact inv.alone clients after continues.listeners

theorem ReplyInv.listener {l : Nat} {listener : Listener} {heap : Heap} {conns : Connections} {a : ListenerAction}
    (inv : ReplyInv s) (slots : SlotInv s) (move : ListenerMove (s.listeners l) s.heap listener heap a) :
    ReplyInv { s with listeners := update s.listeners l listener, heap := heap, conns := conns } := by
  refine ⟨?_, ?_, ?_⟩
  · intro c p l' slot serial waiting
    exact update_listener (P := fun listener => AnswersOnly listener slot serial) (inv.waiting _ _ _ _ _ waiting)
      fun _ only => move.answersOnly (slots.apart l) only
  · intro c p l' slot serial writing replied
    have before := inv.writing _ _ _ _ _ writing replied
    refine ⟨update_listener (P := fun listener => Silent listener slot) before.silent fun here silent => ?_, before.unread⟩
    subst here
    exact move.silent (slots.held _ _ _ _ _ writing) silent
  · exact fun l' => update_listener (inv.truthful l') fun _ truthful => move.truthful truthful

theorem ReplyInv.step {label : BusLabel} (inv : ReplyInv s) (slots : SlotInv s) (quiet : TakesQuiet s label)
    (taken : busStep s label = some t) : ReplyInv t := by
  cases label with
  | client c a => exact inv.client slots quiet (clientStep_move taken)
  | listener l a =>
    obtain ⟨⟨listener, heap, conns⟩, moved, run⟩ := Option.bind_eq_some_iff.mp taken
    cases run
    exact inv.listener slots (listenerStep_move moved)
  | run k =>
    obtain ⟨_, _, rfl⟩ := busStep_run taken
    refine ⟨inv.waiting, fun c p l slot serial writing replied => ?_, inv.truthful⟩
    have quiet := inv.writing c p l slot serial writing replied
    exact ⟨quiet.silent, quiet.unread⟩

end Steps

section Runs
variable {n : Nat} {s t : BusState}

theorem reply_invariant (reach : Reach busStep (.new n) TakesQuiet s) : SlotInv s ∧ ReplyInv s := by
  induction reach with
  | start => exact ⟨.new n, .new n⟩
  | next _ quiet taken ih => exact ⟨ih.1.step taken, ih.2.step ih.1 quiet taken⟩

/-- In every run in which the slot of a command with a reply is quiet when it is taken, `BusPoll_OnCompletion` returns
true to a client only when the listener has executed its very command, and the reply read is the one to that command. -/
theorem completion_means_handled {c : Nat} (reach : Reach busStep (.new n) TakesQuiet s)
    (taken : busStep s (.client c (.onCompletion true)) = some t) :
    ∃ p l slot serial rest, s.clients c = .wait p l slot serial ∧ (s.listeners l).msgs.pipes slot = serial :: rest ∧
      serial ∈ (s.listeners l).executed := by
  obtain ⟨_, inv⟩ := reply_invariant reach
  cases clientStep_move taken with
  | goesOn a other => exact absurd rfl (other true)
  | reads p l slot serial reply rest waiting pipe continues =>
    have first : reply ∈ (s.listeners l).msgs.pipes slot := by
      rw [pipe]
      exact List.mem_cons_self
    have own : reply = serial := (inv.waiting c p l slot serial waiting).pipe reply first
    subst own
    exact ⟨p, l, slot, reply, rest, waiting, pipe, (inv.truthful l).pipe slot reply first⟩

def ClientAction.takesSlot : ClientAction → Bool
  | .getFreeMsg => true
  | _ => false

/-- The slot in which a client waits, with its listener. -/
def ClientPc.waitsAt : ClientPc → Option (Nat × Nat)
  | .wait _ l slot _ => some (l, slot)
  | _ => none

def ClientPc.acquiring : ClientPc → Option Purpose
  | .acquire p => some p
  | _ => none

/-- A step that is not one of a client from `m` on, and takes an empty slot in which none of the others waits. -/
def TakesQuietBelow (m : Nat) (s : BusState) : BusLabel → Prop
  | .client c a => c < m ∧ (a.takesSlot = true → ∀ p ∈ (s.clients c).acquiring,
      ∀ slot ∈ (s.listeners (p.listener s)).msgs.msgFreelist.head?, (s.listeners (p.listener s)).msgs.pipes slot = [] ∧
        (s.listeners (p.listener s)).shutdownNotify = .noFd ∧ ∀ d < m, (s.clients d).waitsAt ≠ some (p.listener s, slot))
  | _ => True

instance (m : Nat) (s : BusState) (label : BusLabel) : Decidable (TakesQuietBelow m s label) :=
  match label with
  | .client _ _ => inferInstanceAs (Decidable (_ ∧ _))
  | .listener _ _ => inferInstanceAs (Decidable True)
  | .run _ => inferInstanceAs (Decidable True)

/-- The clients from `m` on stay idle, so the slots that are taken are quiet. -/
theorem reach_takesQuiet {n m : Nat} (reach : Reach busStep (.new n) (TakesQuietBelow m) s) :
    (∀ c, m ≤ c → s.clients c = .idle) ∧ Reach busStep (.new n) TakesQuiet s := by
  induction reach with
  | start => exact ⟨fun _ _ => rfl, .start⟩
  | @next s t label _ met taken ih =>
    obtain ⟨idle, reach⟩ := ih
    cases label with
    | client c a =>
      obtain ⟨low, quiet⟩ := met
      refine ⟨fun d high => ?_, reach.next ?_ taken⟩
      · obtain ⟨pc, clients, _⟩ := clientStep_stage taken
        rw [clients, Function.update_of_ne (by omega)]
        exact idle d high
      · cases a with
        | getFreeMsg =>
          intro p slot acquiring _ free
          obtain ⟨empty, unasked, unread⟩ := quiet rfl p (by rw [acquiring]; rfl) slot free
          refine ⟨⟨empty, fun asked pending => ?_⟩, fun d p' serial waiting => ?_⟩
          · rw [unasked] at pending
            cases pending
          · rcases Nat.lt_or_ge d m with below | high
            · exact unread d below (by rw [waiting]; rfl)
            · rw [idle d high] at waiting
              cases waiting
        | _ => trivial
    | listener l a =>
      obtain ⟨_, _, same⟩ := Option.bind_eq_some_iff.mp taken
      cases same
      have quiet : TakesQuiet s (.listener l a) := trivial
      exact ⟨idle, reach.next quiet taken⟩
    | run k =>
      have quiet : TakesQuiet s (.run k) := trivial
      have later := reach.next quiet taken
      obtain ⟨_, _, rfl⟩ := busStep_run taken
      exact ⟨idle, later⟩

/-- A second client takes the slot of the first one after the reply in it has been read. -/
theorem completion_means_handled_second :
    ∃ s t, Reach busStep (.new 1) TakesQuiet s ∧ busStep s (.client 1 (.onCompletion true)) = some t ∧
      s.clients 0 = .idle ∧ s.clients 1 = .wait (.addSocket 1) 0 31 1 ∧ 1 ∈ (s.listeners 0).executed := by
  have trace : (exec busStep (fun s label => decide (TakesQuietBelow 2 s label)) (.new 1)
      [.client 0 (.register 5 false), .client 0 .getFreeMsg, .client 0 (.pushMessage true),
        .listener 0 (.handle ⟨true, ⟨false, 9, true⟩⟩), .listener 0 .release, .client 0 (.onCompletion true),
        .client 1 (.register 6 false), .client 1 .getFreeMsg, .client 1 (.pushMessage true),
        .listener 0 (.handle ⟨true, ⟨false, 9, true⟩⟩), .listener 0 .release]).map
      (fun s => ((busStep s (.client 1 (.onCompletion true))).isSome, s.clients 0, s.clients 1)) =
      some (true, .idle, .wait (.addSocket 1) 0 31 1) := by decide +kernel
  obtain ⟨s, below, seen⟩ := exists_reach_of_exec trace
  simp only [Prod.mk.injEq] at seen
  obtain ⟨completes, idle, waiting⟩ := seen
  obtain ⟨t, taken⟩ := Option.isSome_iff_exists.mp completes
  have reach := (reach_takesQuiet below).2
  obtain ⟨p, l, slot, serial, rest, here, _, handled⟩ := completion_means_handled reach taken
  rw [waiting] at here
  cases here
  exact ⟨s, t, reach, taken, idle, waiting, handled⟩

/-- The second client takes the slot that the listener has just released and reads the reply in it, which is the first
client's. Its own command has not been executed. -/
theorem completion_of_other_command :
    ∃ s t, Reach busStep (.new 1) (fun _ _ => True) s ∧ busStep s (.client 1 (.onCompletion true)) = some t ∧
      s.clients 1 = .wait (.addSocket 1) 0 31 1 ∧ (s.listeners 0).msgs.pipes 31 = [0] ∧ 1 ∉ (s.listeners 0).executed := by
  have trace : (exec busStep (fun _ _ => decide True) (.new 1)
      [.client 0 (.register 5 false), .client 0 .getFreeMsg, .client 0 (.pushMessage true),
        .listener 0 (.handle ⟨true, ⟨false, 9, true⟩⟩), .listener 0 .release,
        .client 1 (.register 6 false), .client 1 .getFreeMsg, .client 1 (.pushMessage true)]).map
      (fun s => ((busStep s (.client 1 (.onCompletion true))).isSome, s.clients 1, (s.listeners 0).msgs.pipes 31,
        (s.listeners 0).executed)) = some (true, .wait (.addSocket 1) 0 31 1, [0], [0]) := by decide +kernel
  obtain ⟨s, reach, seen⟩ := exists_reach_of_exec trace
  simp only [Prod.mk.injEq] at seen
  obtain ⟨completes, waiting, pipe, executed⟩ := seen
  obtain ⟨t, taken⟩ := Option.isSome_iff_exists.mp completes
  exact ⟨s, t, reach, taken, waiting, pipe, by rw [executed]; simp⟩

end Runs

end Kinetic
