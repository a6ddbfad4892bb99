import Kinetic.Listener.Moves

namespace Kinetic

/-- Every reply in the pipe of the slot, or that a committed command or a pending shutdown will put there, answers
the command of that number. -/
structure AnswersOnly (l : Listener) (slot serial : Nat) : Prop where
  pipe : ∀ reply ∈ l.msgs.pipes slot, reply = serial
  queued : ∀ msg, slot ∈ l.msgs.commitPipe → l.msgs.msgs slot = some msg → msg.command.box = none → msg.serial = serial
  notify : ∀ asked, l.shutdownNotify = .fd slot asked → asked = serial

/-- No reply is in the pipe of the slot or is to come from a shutdown. -/
structure Silent (l : Listener) (slot : Nat) : Prop where
  pipe : l.msgs.pipes slot = []
  notify : ∀ asked, l.shutdownNotify ≠ .fd slot asked

/-- Every reply answers a command that has been executed. -/
structure Truthful (l : Listener) : Prop where
  pipe : ∀ slot, ∀ reply ∈ l.msgs.pipes slot, reply ∈ l.executed
  notify : ∀ slot asked, l.shutdownNotify = .fd slot asked → asked ∈ l.executed

section Listeners
variable {l l' : Listener} {h h' : Heap} {a : ListenerAction}

theorem notifyCaller_pipes {t : MsgTable} {slot serial i reply : Nat}
    (member : reply ∈ (t.notifyCaller slot serial).pipes i) :
    reply ∈ t.pipes i ∨ (i = slot ∧ reply = serial) := by
  simp only [MsgTable.notifyCaller, Function.update_apply] at member
  split at member
  · rename_i here
    rcases List.mem_append.mp member with old | new
    · exact .inl (here ▸ old)
    · exact .inr ⟨here, List.mem_singleton.mp new⟩
  · exact .inl member

theorem notifyCaller_pipes_of_ne {t : MsgTable} {slot serial i : Nat} (distinct : i ≠ slot) :
    (t.notifyCaller slot serial).pipes i = t.pipes i :=
  Function.update_of_ne distinct ..

theorem AnswersOnly.of_same {slot serial : Nat} (only : AnswersOnly l slot serial)
    (pipe : l'.msgs.pipes slot = l.msgs.pipes slot)
    (queued : slot ∈ l'.msgs.commitPipe → slot ∈ l.msgs.commitPipe ∧ l'.msgs.msgs slot = l.msgs.msgs slot)
    (notify : l'.shutdownNotify = l.shutdownNotify) : AnswersOnly l' slot serial := by
  refine ⟨?_, fun msg committed => ?_, ?_⟩
  · rw [pipe]
    exact only.pipe
  · rw [(queued committed).2]
    exact only.queued msg (queued committed).1
  · rw [notify]
    exact only.notify

theorem Silent.of_same {slot : Nat} (silent : Silent l slot) (pipe : l'.msgs.pipes slot = l.msgs.pipes slot)
    (notify : l'.shutdownNotify = l.shutdownNotify) : Silent l' slot := by
  refine ⟨?_, ?_⟩
  · rw [pipe]
    exact silent.pipe
  · rw [notify]
    exact silent.notify

theorem Truthful.of_same (truthful : Truthful l)
    (pipes : ∀ slot reply, reply ∈ l'.msgs.pipes slot → reply ∈ l.msgs.pipes slot)
    (notify : l'.shutdownNotify = l.shutdownNotify) (executed : ∀ serial ∈ l.executed, serial ∈ l'.executed) :
    Truthful l' := by
  refine ⟨fun slot reply member => ?_, fun slot asked pending => ?_⟩
  · exact executed _ (truthful.pipe slot reply (pipes slot reply member))
  · rw [notify] at pending
    exact executed _ (truthful.notify slot asked pending)

/-- What a listener writes to a slot answers the command in it. -/
theorem ListenerMove.answersOnly {slot serial : Nat} (move : ListenerMove l h l' h' a) (nodup : l.slots.Nodup)
    (only : AnswersOnly l slot serial) : AnswersOnly l' slot serial := by
  have inside {i : Nat} {rest : List Nat} {msg : Msg} (reads : Reads l l' i rest msg) (left : slot ∈ rest) :
      slot ∈ l.msgs.commitPipe := by
    rw [reads.pipe]
    exact List.mem_cons_of_mem i left
  have first {i : Nat} {rest : List Nat} {msg : Msg} (reads : Reads l l' i rest msg) (empty : msg.command.box = none)
      (here : slot = i) : msg.serial = serial := by
    subst here
    exact only.queued msg (by rw [reads.pipe]; exact List.mem_cons_self) reads.written empty
  cases move with
  | answers env i rest msg reads empty notify msgs =>
    refine ⟨fun reply member => ?_, fun other left => ?_, fun asked => ?_⟩
    · rw [msgs] at member
      rcases notifyCaller_pipes member with old | ⟨here, same⟩
      · exact only.pipe reply old
      · rw [same]
        exact first reads empty here
    · rw [msgs] at left ⊢
      exact only.queued other (inside reads left)
    · rw [notify]
      exact only.notify asked
  | expects env i rest b number reads notify msgs =>
    refine only.of_same (by rw [msgs]) (fun left => ?_) notify
    rw [msgs] at left ⊢
    exact ⟨inside reads left, rfl⟩
  | shutsDown env i rest number reads notify msgs =>
    refine ⟨?_, fun other left => ?_, fun asked pending => ?_⟩
    · rw [msgs]
      exact only.pipe
    · rw [msgs] at left ⊢
      exact only.queued other (inside reads left)
    · rw [notify] at pending
      cases pending
      exact first reads rfl rfl
  | releases i handling same =>
    subst same
    refine only.of_same rfl (fun committed => ⟨committed, ?_⟩) rfl
    have distinct : slot ≠ i := by
      rintro rfl
      exact List.disjoint_of_nodup_append nodup (List.mem_append_right _ committed)
        (by rw [handling]; exact List.mem_singleton_self slot)
    exact Function.update_of_ne distinct ..
  | works a i _ _ _ _ notify msgs =>
    exact only.of_same (by rw [msgs]) (fun committed => ⟨by rwa [msgs] at committed, by rw [msgs]⟩) notify
  | finishes i number _ pending same =>
    subst same
    refine ⟨fun reply member => ?_, only.queued, fun asked => by simp⟩
    rcases notifyCaller_pipes member with old | ⟨here, answer⟩
    · exact only.pipe reply old
    · subst here
      exact answer.trans (only.notify number pending)

/-- The listener writes nothing to a slot whose command it does not read, and no shutdown is pending in. -/
theorem ListenerMove.silent_unread {slot : Nat} (move : ListenerMove l h l' h' a)
    (other : ∀ i rest msg, Reads l l' i rest msg → l'.msgs.commitPipe = rest → slot ≠ i) (silent : Silent l slot) :
    Silent l' slot := by
  cases move with
  | answers env i rest msg reads _ notify msgs =>
    refine silent.of_same ?_ notify
    rw [msgs]
    exact notifyCaller_pipes_of_ne (other i rest _ reads (by rw [msgs]; rfl))
  | expects env i rest b number _ notify msgs => exact silent.of_same (by rw [msgs]) notify
  | shutsDown env i rest number reads notify msgs =>
    refine ⟨?_, fun asked pending => ?_⟩
    · rw [msgs]
      exact silent.pipe
    · rw [notify] at pending
      cases pending
      exact other _ _ _ reads (by rw [msgs]) rfl
  | releases i _ same =>
    subst same
    exact ⟨silent.pipe, silent.notify⟩
  | works a i _ _ _ _ notify msgs => exact silent.of_same (by rw [msgs]) notify
  | finishes i number _ pending same =>
    subst same
    refine ⟨?_, fun asked => by simp⟩
    have distinct : slot ≠ i := by
      rintro rfl
      exact silent.notify number pending
    exact (notifyCaller_pipes_of_ne distinct).trans silent.pipe

/-- The listener writes nothing to a slot that is not in its hands, and no shutdown is pending in. -/
theorem ListenerMove.silent {slot : Nat} (move : ListenerMove l h l' h' a) (absent : slot ∉ l.slots)
    (silent : Silent l slot) : Silent l' slot := by
  refine move.silent_unread (fun i rest msg reads _ => ?_) silent
  rintro rfl
  exact absent (List.mem_append_left _ (List.mem_append_right _ (by rw [reads.pipe]; exact List.mem_cons_self)))

/-- A listener answers no command before it has executed it. -/
theorem ListenerMove.truthful (move : ListenerMove l h l' h' a) (truthful : Truthful l) : Truthful l' := by
  cases move with
  | answers env i rest msg reads _ notify msgs =>
    refine ⟨fun slot reply member => ?_, fun slot asked pending => ?_⟩
    · rw [reads.executed]
      rw [msgs] at member
      rcases notifyCaller_pipes member with old | ⟨_, same⟩
      · exact List.mem_cons_of_mem _ (truthful.pipe slot reply old)
      · rw [same]
        exact List.mem_cons_self
    · rw [reads.executed]
      rw [notify] at pending
      exact List.mem_cons_of_mem _ (truthful.notify slot asked pending)
  | expects env i rest b number reads notify msgs =>
    refine truthful.of_same (fun slot reply member => by rwa [msgs] at member) notify fun serial done => ?_
    rw [reads.executed]
    exact List.mem_cons_of_mem _ done
  | shutsDown env i rest number reads notify msgs =>
    refine ⟨fun slot reply member => ?_, fun slot asked pending => ?_⟩
    · rw [reads.executed]
      rw [msgs] at member
      exact List.mem_cons_of_mem _ (truthful.pipe slot reply member)
    · rw [reads.executed]
      rw [notify] at pending
      cases pending
      exact List.mem_cons_self
  | releases i _ same =>
    subst same
    exact ⟨truthful.pipe, truthful.notify⟩
  | works a i _ _ _ executed notify msgs =>
    exact truthful.of_same (fun slot reply member => by rwa [msgs] at member) notify fun serial done => by rwa [executed]
  | finishes i number _ pending same =>
    subst same
    refine ⟨fun slot reply member => ?_, fun slot asked done => by simp at done⟩
    rcases notifyCaller_pipes member with old | ⟨_, same⟩
    · exact truthful.pipe slot reply old
    · rw [same]
      exact truthful.notify i number pending

end Listeners

end Kinetic
