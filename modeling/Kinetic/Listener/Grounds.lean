import Kinetic.Listener.Settled

namespace Kinetic
open Function (update)
open Transition (Reach exec exists_reach_of_exec)

/-- The entry has no events, or they were reported for the socket that is in it. -/
def PollSlot.Owned (p : PollSlot) : Prop := p.revents = .clear ∨ p.origin = p.registration

/-- Every read and every error was for a socket on account of events that were reported for it. -/
def PollState.Grounded (s : PollState) : Prop := ∀ act ∈ s.acts, act.2 = act.1

/-- What is left of the result of `poll`. -/
def PollState.left (s : PollState) : Nat :=
  match s.phase with
  | .commands available _ => available
  | .polling => 0

/-- If there is something left for `ListenerIO_AttemptRecv`, a socket is added only to an entry whose `revents` is clear. -/
def PollAction.Blank (s : PollState) : PollAction → Prop
  | .add _ info _ => 0 < s.left → s.sockets.trackedFds ≠ maxFds →
      (∀ i, i < s.sockets.trackedFds → (s.sockets.fds i).fd ≠ info.fd) → (s.slots s.sockets.trackedFds).revents = .clear
  | _ => True

instance PollAction.decidableBlank (s : PollState) : (a : PollAction) → Decidable (a.Blank s)
  | .add _ info _ => inferInstanceAs (Decidable (0 < s.left → s.sockets.trackedFds ≠ maxFds →
      (∀ i, i < s.sockets.trackedFds → (s.sockets.fds i).fd ≠ info.fd) → (s.slots s.sockets.trackedFds).revents = .clear))
  | .poll .. => .isTrue trivial
  | .remove _ => .isTrue trivial
  | .recv _ => .isTrue trivial

section Slots
variable {t t' : SocketTable} {conns : Connections} {slots slots' : Nat → PollSlot}

theorem swapSlots_apply (slots : Nat → PollSlot) (a b i : Nat) :
    swapSlots slots a b i = if i = a then slots b else if i = b then slots a else slots i := by
  simp only [swapSlots, Function.update_apply]

/-- The new socket is behind the active ones, in the entry that was the first behind the tracked ones. -/
theorem trackSlots_apply (slots : Nat → PollSlot) (inactive : t.inactiveFds ≤ t.trackedFds) (registration i : Nat) :
    trackSlots t slots registration i =
      if i = t.trackedFds - t.inactiveFds then { slots t.trackedFds with registration := registration }
      else if i = t.trackedFds then slots (t.trackedFds - t.inactiveFds) else slots i := by
  unfold trackSlots
  dsimp only
  by_cases some : 0 < t.inactiveFds
  · have before : t.trackedFds - t.inactiveFds ≠ t.trackedFds := by omega
    rw [if_pos some, swapSlots_apply]
    by_cases first : i = t.trackedFds - t.inactiveFds
    · simp [first, before]
    · by_cases last : i = t.trackedFds
      · simp [last, before, before.symm]
      · simp [first, last]
  · have none : t.trackedFds - t.inactiveFds = t.trackedFds := by omega
    rw [if_neg some, none]
    by_cases last : i = t.trackedFds
    · simp [last]
    · simp [last]

/-- The rest of an entry goes with it when a socket is removed. -/
theorem removeSlots_apply (inv : SocketsInv t conns) {id : Nat} (below : id < t.trackedFds) {j : Nat}
    (belowJ : j < t.trackedFds - 1) :
    removeSlots t slots id j =
      slots ((if (t.fds id).pollin then activePlace id (t.trackedFds - t.inactiveFds - 1) (t.trackedFds - 1)
        else inactivePlace id (t.trackedFds - 1)) j) := by
  have inactive := inv.inactive
  have front := inv.pollin id below
  unfold removeSlots
  dsimp only
  rw [if_neg (by omega)]
  by_cases active : (t.fds id).pollin = true
  · have inFront := front.mp active
    simp only [active, if_true, true_and, activePlace]
    by_cases last : id = t.trackedFds - t.inactiveFds - 1
    · rw [if_neg (by omega)]
      split
      · rw [swapSlots_apply]
        grind
      · grind
    · rw [if_pos last]
      split
      · rw [swapSlots_apply, swapSlots_apply, swapSlots_apply, swapSlots_apply]
        grind
      · rw [swapSlots_apply]
        grind
  · simp only [active, Bool.false_eq_true, if_false, false_and, inactivePlace]
    split
    · rw [swapSlots_apply]
      grind
    · grind

theorem swapSlots_all {P : PollSlot → Prop} {m a b : Nat} (good : ∀ i, i < m → P (slots i)) (first : a < m)
    (second : b < m) (i : Nat) (below : i < m) : P (swapSlots slots a b i) := by
  rw [swapSlots_apply]
  split
  · exact good b second
  · split
    · exact good a first
    · exact good i below

theorem removeSlots_all {P : PollSlot → Prop} {m id : Nat} (good : ∀ i, i < m → P (slots i)) (within : t.trackedFds ≤ m)
    (tracked : id < t.trackedFds) (i : Nat) (below : i < m) : P (removeSlots t slots id i) := by
  unfold removeSlots
  dsimp only
  split
  · exact good i below
  · split
    · have once := swapSlots_all good (show id < m by omega) (show t.trackedFds - t.inactiveFds - 1 < m by omega)
      split
      · exact swapSlots_all once (by omega) (by omega) i below
      · exact once i below
    · split
      · exact swapSlots_all good (by omega) (by omega) i below
      · exact good i below

/-- A move of the sockets with errors keeps what is true of every entry. -/
theorem moveErroredSlotsFrom_all {P : PollSlot → Prop} {m n id : Nat} (good : ∀ i, i < m → P (slots i))
    (within : t.trackedFds ≤ m) (run : moveErroredSlotsFrom conns n id t slots = some (t', slots')) (i : Nat) (below : i < m) :
    P (slots' i) := by
  induction n generalizing id t slots with
  | zero =>
    cases run
    exact good i below
  | succ n ih =>
    unfold moveErroredSlotsFrom at run
    split at run
    · rename_i active
      obtain ⟨next, moved, rest⟩ := Option.bind_eq_some_iff.mp run
      have tracked := moveErrored_tracked moved
      refine ih (fun j belowJ => ?_) (by omega) rest
      unfold moveErroredSlots
      split
      · exact swapSlots_all good (by omega) (by omega) j belowJ
      · exact good j belowJ
    · cases run
      exact good i below

end Slots

theorem Revents.clear_of_weight {r : Revents} (none : r.weight = 0) : r = .clear := by
  obtain ⟨pollin, pollerr, pollhup, pollnval⟩ := r
  revert none
  cases pollin <;> cases pollerr <;> cases pollhup <;> cases pollnval <;> decide

theorem Revents.weight_clear : Revents.clear.weight = 0 := by decide

/-- What holds in a run in which sockets are added to blank entries: the events of an entry that may be looked at again are
its own. An inactive one is not polled any more, and an active one may be looked at before the next `poll`. -/
structure PollState.Own (s : PollState) : Prop where
  owned : ∀ i, i < s.sockets.trackedFds → (s.sockets.fds i).pollin = false ∨ 0 < s.left → (s.slots i).Owned
  grounded : s.Grounded
  older : ∀ i, (s.slots i).origin < s.nextRegistration ∧ (s.slots i).registration < s.nextRegistration

section Steps
variable {s s' : PollState} {ci : Nat} {info : ConnectionInfo} {readBuf : Nat → UInt8} {fd : Int} {reads : Nat → ReadEnd}

theorem PollState.Own.poll {results : Nat → Revents} {pipe : PipeEvent} (inv : s.Inv) (own : s.Own)
    (run : pollStep s (.poll results pipe) = some s') : s'.Own := by
  simp only [pollStep] at run
  split at run
  · cases run
    refine ⟨fun i below _ => ?_, own.grounded, fun i => ?_⟩
    · dsimp only
      split
      · exact .inr rfl
      · rename_i behind
        have off : (s.sockets.fds i).pollin = false := inv.side.sockets.pollin_off below (Nat.le_of_not_lt behind)
        exact own.owned i below (.inl off)
    · have older := own.older i
      dsimp only
      split
      · exact ⟨older.2, older.2⟩
      · exact older
  · cases run

/-- Which of its ends `add_socket` comes to with the sink callback of a new session. -/
theorem pollStep_add_cases (run : pollStep s (.add ci info readBuf) = some s') :
    ((s.sockets.trackedFds = maxFds ∨ ∃ i, i < s.sockets.trackedFds ∧ (s.sockets.fds i).fd = info.fd) ∧
        ∃ conns, s' = { s with conns := conns }) ∨
      s.sockets.trackedFds ≠ maxFds ∧ (∀ i, i < s.sockets.trackedFds → (s.sockets.fds i).fd ≠ info.fd) ∧
        ∃ conns size, s' = { s with
          sockets := { s.sockets.track ci info.fd with readBufSize := size }
          conns := conns
          slots := trackSlots s.sockets s.slots s.nextRegistration
          nextRegistration := s.nextRegistration + 1 } := by
  obtain ⟨available, sockets, conns, phase, added, after⟩ := pollStep_add run
  have here := s.conns.set_info ci info
  generalize set : s.conns.set ci info = before at *
  cases addSocket_cases added with
  | full full =>
    rw [if_neg (Nat.lt_irrefl _)] at after
    exact .inl ⟨.inl full, _, after⟩
  | present i below same =>
    rw [if_neg (Nat.lt_irrefl _)] at after
    rw [here] at same
    exact .inl ⟨.inr ⟨i, below, same⟩, _, after⟩
  | added size room absent =>
    have taken := after.trans (if_pos (Nat.lt_succ_self s.sockets.trackedFds))
    rw [here] at absent taken
    exact .inr ⟨room, absent, _, size, taken⟩
  | notGrown _ _ _ failed => cases failed

theorem PollState.Own.add (inv : s.Inv) (own : s.Own) (blank : PollAction.Blank s (.add ci info readBuf))
    (run : pollStep s (.add ci info readBuf) = some s') : s'.Own := by
  obtain ⟨_, conns, rfl⟩ | ⟨room, absent, conns, size, rfl⟩ := pollStep_add_cases run
  · exact ⟨own.owned, own.grounded, own.older⟩
  · have inactive : s.sockets.inactiveFds ≤ s.sockets.trackedFds := inv.side.sockets.inactive
    refine ⟨fun i below due => ?_, own.grounded, fun i => ?_⟩
    · have entry := s.sockets.track_entry ci info.fd inactive i
      have below : i < s.sockets.trackedFds + 1 := below
      have due : ((s.sockets.track ci info.fd).entry i).1.pollin = false ∨ 0 < s.left := due
      show (trackSlots s.sockets s.slots s.nextRegistration i).Owned
      rw [trackSlots_apply s.slots inactive]
      rw [entry] at due
      by_cases first : i = s.sockets.trackedFds - s.sockets.inactiveFds
      · rw [if_pos first] at due ⊢
        have some_left : 0 < s.left := due.resolve_left (by simp)
        exact .inl (blank some_left room absent)
      · rw [if_neg first] at due ⊢
        by_cases last : i = s.sockets.trackedFds
        · rw [if_pos last] at due ⊢
          exact own.owned _ (by omega) due
        · rw [if_neg last] at due ⊢
          exact own.owned i (by omega) due
    · have older (j : Nat) : (s.slots j).origin < s.nextRegistration + 1 ∧ (s.slots j).registration < s.nextRegistration + 1 :=
        ⟨Nat.lt_succ_of_lt (own.older j).1, Nat.lt_succ_of_lt (own.older j).2⟩
      dsimp only
      rw [trackSlots_apply s.slots inactive]
      split
      · exact ⟨(older _).1, Nat.lt_succ_self _⟩
      · split
        · exact older _
        · exact older i

/-- A removal is of no entry, or of the first one with the number. -/
theorem pollStep_remove_cases (inv : s.Inv) (run : pollStep s (.remove fd) = some s') :
    (∀ i, i < s.sockets.trackedFds → (s.sockets.fds i).fd ≠ fd) ∧ s' = s ∨
      ∃ id sockets place, id < s.sockets.trackedFds ∧ (s.sockets.fds id).fd = fd ∧ RemovedAt s.sockets sockets id place ∧
        LeavesOut id s.sockets.trackedFds place ∧
        (∀ j, j < s.sockets.trackedFds - 1 → removeSlots s.sockets s.slots id j = s.slots (place j)) ∧
        s' = { s with sockets := sockets, slots := removeSlots s.sockets s.slots id } := by
  have sockets : SocketsInv s.sockets s.conns := inv.side.sockets
  obtain ⟨available, table, phase, removed, after⟩ := pollStep_remove run
  unfold removeSocket at removed
  split at removed
  · rename_i missing
    have same : removedSlots s.sockets s.slots fd = s.slots := by simp only [removedSlots, missing]
    rw [same] at after
    cases removed
    refine .inl ⟨fun i below => ?_, after⟩
    have none := List.find?_eq_none.mp missing i (List.mem_range.mpr below)
    simpa using none
  · rename_i id found
    have moved : removedSlots s.sockets s.slots fd = removeSlots s.sockets s.slots id := by simp only [removedSlots, found]
    rw [moved] at after
    have below : id < s.sockets.trackedFds := List.mem_range.mp (List.mem_of_find?_eq_some found)
    have own : (s.sockets.fds id).fd = fd := by simpa using List.find?_some found
    exact .inr ⟨id, table, _, below, own, removeAt_spec sockets below removed, sockets.leavesOut below,
      fun j belowJ => removeSlots_apply sockets below belowJ, after⟩

theorem PollState.Own.remove (inv : s.Inv) (own : s.Own) (run : pollStep s (.remove fd) = some s') : s'.Own := by
  obtain ⟨_, rfl⟩ | ⟨id, sockets, place, below, _, removed, leaves, slots, rfl⟩ := pollStep_remove_cases inv run
  · exact own
  · refine ⟨fun j belowJ due => ?_, own.grounded, fun i => ?_⟩
    · have belowJ : j < sockets.trackedFds := belowJ
      have within : j < s.sockets.trackedFds - 1 := by rw [← removed.tracked]; exact belowJ
      show (removeSlots s.sockets s.slots id j).Owned
      rw [slots j within]
      have due : (sockets.fds j).pollin = false ∨ 0 < s.left := due
      rw [removed.fds j belowJ] at due
      exact own.owned _ (leaves.below j within) due
    · exact removeSlots_all (P := fun p => p.origin < s.nextRegistration ∧ p.registration < s.nextRegistration)
        (m := max (i + 1) s.sockets.trackedFds) (fun j _ => own.older j) (by omega) below i (by omega)

theorem PollState.Own.attemptRecv {available : Nat} {batch : Bool} (inv : s.Inv) (own : s.Own)
    (phase : s.phase = .commands available batch) (some_left : 0 < available)
    (run : Kinetic.attemptRecv s available reads = some s') :
    (∀ i, i < s'.sockets.trackedFds → (s'.slots i).Owned) ∧ s'.Grounded ∧
      ∀ i, (s'.slots i).origin < s'.nextRegistration ∧ (s'.slots i).registration < s'.nextRegistration := by
  obtain ⟨r, looped, _, acts, next, ends⟩ := attemptRecv_cases run
  obtain ⟨received, _⟩ := inv.loop looped
  have pending : 0 < s.left := by simpa [PollState.left, phase] using some_left
  have owned (i : Nat) (below : i < s.sockets.trackedFds) : (s.slots i).Owned := own.owned i below (.inr pending)
  have tracked : r.sockets.trackedFds = s.sockets.trackedFds := received.same.tracked
  have grounded : s'.Grounded := by
    intro act member
    rw [acts] at member
    rcases List.mem_append.mp member with old | new
    · exact own.grounded act old
    · rcases received.acts act new with none | ⟨j, below, some_event, rfl⟩
      · cases none
      · rcases owned j below with clear | same
        · rw [clear, Revents.weight_clear] at some_event
          omega
        · exact same
  rw [next]
  rcases ends with ⟨_, sockets, slots⟩ | ⟨_, table, sockets, moved⟩
  · rw [sockets, slots, tracked]
    exact ⟨owned, grounded, own.older⟩
  · have same := moveErroredFrom_tracked (moveErroredSlotsFrom_table moved)
    rw [sockets]
    refine ⟨fun i below => ?_, grounded, fun i => ?_⟩
    · have below : i < table.trackedFds := below
      exact moveErroredSlotsFrom_all owned (by omega) moved i (by omega)
    · exact moveErroredSlotsFrom_all (P := fun p => p.origin < s.nextRegistration ∧ p.registration < s.nextRegistration)
        (m := max (i + 1) r.sockets.trackedFds) (fun j _ => own.older j) (by omega) moved i (by omega)

theorem PollState.Own.step {a : PollAction} (inv : s.Inv) (own : s.Own) (blank : a.Blank s) (run : pollStep s a = some s') :
    s'.Own := by
  cases a with
  | poll results pipe => exact own.poll inv run
  | add ci info readBuf => exact own.add inv blank run
  | remove fd => exact own.remove inv run
  | recv reads =>
    obtain ⟨available, batch, phase, ⟨none_left, rfl⟩ | ⟨some_left, received, attempted, rfl⟩⟩ := pollStep_recv run
    · refine ⟨fun i below due => own.owned i below ?_, own.grounded, own.older⟩
      rcases due with off | pending
      · exact .inl off
      · cases pending
    · obtain ⟨owned, grounded, older⟩ := own.attemptRecv inv phase some_left attempted
      exact ⟨fun i below _ => owned i below, grounded, older⟩

theorem PollState.own_of_reach {conns : Connections}
    (reach : Reach pollStep (.new conns) (fun s a => a.Proper s ∧ a.Blank s) s) : s.Own := by
  induction reach with
  | start =>
    refine ⟨fun i below => absurd below (Nat.not_lt_zero i), fun act member => ?_, fun i => ⟨Nat.one_pos, Nat.one_pos⟩⟩
    cases member
  | next before met run ih => exact ih.step (PollState.inv_of_reach (before.weaken fun _ _ => And.left)) met.2 run

end Steps

/-- A socket with events that were reported for another one. -/
def PollState.Stained (s : PollState) (fd : Int) : Prop :=
  ∃ i, i < s.sockets.trackedFds ∧ (s.sockets.fds i).fd = fd ∧ (s.slots i).revents ≠ .clear ∧
    (s.slots i).origin ≠ (s.slots i).registration

section Stained
variable {s s' : PollState} {ci : Nat} {info : ConnectionInfo} {readBuf : Nat → UInt8} {fd : Int} {reads : Nat → ReadEnd}

/-- An addition that is not to a blank entry. -/
theorem PollState.Own.add_stained (inv : s.Inv) (own : s.Own) (stained : ¬ PollAction.Blank s (.add ci info readBuf))
    (run : pollStep s (.add ci info readBuf) = some s') : s'.Stained info.fd ∧ 0 < s'.left := by
  simp only [PollAction.Blank, Classical.not_imp] at stained
  obtain ⟨some_left, room, absent, events⟩ := stained
  obtain ⟨turned, _⟩ | ⟨_, _, conns, size, rfl⟩ := pollStep_add_cases run
  · rcases turned with full | ⟨i, below, same⟩
    · exact absurd full room
    · exact absurd same (absent i below)
  · have inactive : s.sockets.inactiveFds ≤ s.sockets.trackedFds := inv.side.sockets.inactive
    have entry := s.sockets.track_entry ci info.fd inactive (s.sockets.trackedFds - s.sockets.inactiveFds)
    have slot := trackSlots_apply s.slots inactive s.nextRegistration (s.sockets.trackedFds - s.sockets.inactiveFds)
    rw [if_pos rfl] at entry slot
    refine ⟨⟨s.sockets.trackedFds - s.sockets.inactiveFds, ?_, ?_, ?_, ?_⟩, some_left⟩
    · show s.sockets.trackedFds - s.sockets.inactiveFds < s.sockets.trackedFds + 1
      omega
    · exact congrArg (fun e => e.1.fd) entry
    · show (trackSlots s.sockets s.slots s.nextRegistration _).revents ≠ .clear
      rw [slot]
      exact events
    · show (trackSlots s.sockets s.slots s.nextRegistration _).origin ≠ (trackSlots s.sockets s.slots s.nextRegistration _).registration
      rw [slot]
      exact Nat.ne_of_lt (own.older _).1

/-- Another socket can be removed in the same batch, and the events stay where they are. -/
theorem PollState.Inv.remove_stained {available : Nat} (inv : s.Inv) (stained : s.Stained fd)
    (phase : s.phase = .commands available true) (several : 1 < s.sockets.trackedFds) :
    ∃ other s', pollStep s (.remove other) = some s' ∧ s'.Stained fd ∧ s'.phase = s.phase ∧
      s'.sockets.trackedFds = s.sockets.trackedFds - 1 := by
  have sockets : SocketsInv s.sockets s.conns := inv.side.sockets
  obtain ⟨i, below, own, events, stale⟩ := stained
  obtain ⟨j, belowJ, apart⟩ : ∃ j, j < s.sockets.trackedFds ∧ j ≠ i := by
    by_cases first : i = 0
    · exact ⟨1, several, by omega⟩
    · exact ⟨0, by omega, by omega⟩
  have enabled : pollStep s (.remove (s.sockets.fds j).fd) ≠ none := by
    obtain ⟨table, removed⟩ := Option.ne_none_iff_exists'.mp (sockets.removeSocket_enabled (s.sockets.fds j).fd)
    simp [pollStep, phase, removed]
  obtain ⟨s', run⟩ := Option.ne_none_iff_exists'.mp enabled
  obtain ⟨absent, _⟩ | ⟨id, table, place, belowId, same, removed, leaves, slots, rfl⟩ := pollStep_remove_cases inv run
  · exact absurd rfl (absent j belowJ)
  · have atJ : id = j := sockets.once id j belowId belowJ same
    obtain ⟨k, belowK, atI⟩ := leaves.onto i below (by omega)
    have within : k < table.trackedFds := by rw [removed.tracked]; exact belowK
    have slot := slots k belowK
    rw [atI] at slot
    refine ⟨_, _, run, ⟨k, within, ?_, ?_, ?_⟩, rfl, removed.tracked⟩
    · show (table.fds k).fd = fd
      rw [removed.fds k within, atI, own]
    · show (removeSlots s.sockets s.slots id k).revents ≠ .clear
      rw [slot]
      exact events
    · show (removeSlots s.sockets s.slots id k).origin ≠ (removeSlots s.sockets s.slots id k).registration
      rw [slot]
      exact stale

theorem Recv.look_acts (r : Recv) (act : Nat × Nat) (i : Nat) (due : Bool) (err : Option RxError) :
    (due = true → act ∈ (r.look act i due err).acts) ∧ ∀ a ∈ r.acts, a ∈ (r.look act i due err).acts := by
  cases due with
  | false => exact ⟨fun none => absurd none (by simp), fun a member => member⟩
  | true =>
    cases err with
    | none => exact ⟨fun _ => List.mem_append_right _ (List.mem_singleton_self act), fun a => List.mem_append_left _⟩
    | some err => exact ⟨fun _ => List.mem_append_right _ (List.mem_singleton_self act), fun a => List.mem_append_left _⟩

/-- A look at an entry with events is on their account. -/
theorem Recv.visit_acts {slots : Nat → PollSlot} {read : ReadEnd} {r r' : Recv} {i : Nat}
    (run : r.visit slots read i = some r') (events : (slots i).revents ≠ .clear) :
    ((slots i).registration, (slots i).origin) ∈ r'.acts := by
  rw [Recv.visit_eq run]
  have second := Recv.look_acts (r.look ((slots i).registration, (slots i).origin) i (slots i).revents.pollin read.error)
    ((slots i).registration, (slots i).origin) i (slots i).revents.error.isSome (slots i).revents.error
  by_cases pollin : (slots i).revents.pollin = true
  · exact second.2 _ ((Recv.look_acts r _ i _ read.error).1 pollin)
  · refine second.1 ?_
    by_contra fine
    refine events (Revents.clear_of_weight ?_)
    simp only [Revents.weight, pollin, Bool.not_eq_true, Option.isSome_eq_false_iff, Option.isNone_iff_eq_none] at fine ⊢
    simp [fine]

/-- If only the socket with the events of another one is left, they are taken for its own. -/
theorem PollState.Inv.recv_stained {available : Nat} {batch : Bool} (inv : s.Inv) (stained : s.Stained fd)
    (phase : s.phase = .commands available batch) (some_left : 0 < available) (alone : s.sockets.trackedFds = 1)
    (reads : Nat → ReadEnd) : ∃ s', pollStep s (.recv reads) = some s' ∧ ¬ s'.Grounded := by
  obtain ⟨i, below, _, events, stale⟩ := stained
  have first : i = 0 := by omega
  subst first
  obtain ⟨s', run⟩ := Option.ne_none_iff_exists'.mp (inv.recv_enabled (by rw [phase]; simp) reads)
  refine ⟨s', run, fun grounded => ?_⟩
  obtain ⟨available', batch', phase', ⟨none_left, rfl⟩ | ⟨_, received, attempted, rfl⟩⟩ := pollStep_recv run
  · rw [phase] at phase'
    cases phase'
    omega
  · rw [phase] at phase'
    cases phase'
    obtain ⟨r, looped, _, acts, _⟩ := attemptRecv_cases attempted
    rw [alone, recvFrom, if_pos ⟨below, Nat.ne_of_lt some_left⟩] at looped
    obtain ⟨next, visited, rest⟩ := Option.bind_eq_some_iff.mp looped
    cases rest
    have member := Recv.visit_acts visited events
    have seen : ((s.slots 0).registration, (s.slots 0).origin) ∈ received.acts := by
      rw [acts]
      exact List.mem_append_right _ member
    exact stale (grounded _ seen)

theorem PollState.Inv.stained_falls {available : Nat} {n : Nat} (inv : s.Inv) (stained : s.Stained fd)
    (phase : s.phase = .commands available true) (some_left : 0 < available) (count : s.sockets.trackedFds = n + 1) :
    ∃ s', Reach pollStep s (fun s a => a.Proper s) s' ∧ ¬ s'.Grounded := by
  induction n generalizing s with
  | zero =>
    obtain ⟨s', run, ungrounded⟩ := inv.recv_stained stained phase some_left count fun _ => .returned
    exact ⟨s', .next (l := .recv fun _ => .returned) .start trivial run, ungrounded⟩
  | succ n ih =>
    obtain ⟨other, next, run, still, same, fewer⟩ := inv.remove_stained stained phase (by omega)
    have after := inv.step (a := .remove other) trivial run
    obtain ⟨s', reach, ungrounded⟩ := ih after still (same.trans phase) (by omega)
    have first : Reach pollStep s (fun s a => a.Proper s) next := .next (l := .remove other) .start trivial run
    exact ⟨s', first.trans reach, ungrounded⟩

end Stained

/-- If sockets are added to blank entries only, every read and every error is on account of events of the same socket, and
an addition that is not to a blank entry can be followed by one that is not. -/
theorem events_grounded {conns : Connections} {s : PollState}
    (reach : Reach pollStep (.new conns) (fun s a => a.Proper s ∧ a.Blank s) s) :
    s.Grounded ∧ ∀ a s', a.Proper s → ¬ a.Blank s → pollStep s a = some s' →
      ∃ s'', Reach pollStep s' (fun s a => a.Proper s) s'' ∧ ¬ s''.Grounded := by
  have own := PollState.own_of_reach reach
  have inv := PollState.inv_of_reach (reach.weaken fun _ _ => And.left)
  refine ⟨own.grounded, fun a s' proper stained run => ?_⟩
  cases a with
  | add ci info readBuf =>
    obtain ⟨marked, some_left⟩ := own.add_stained inv stained run
    obtain ⟨available, _, _, phase, _, after⟩ := pollStep_add run
    have same : s'.phase = .commands available true := by
      rw [after, ← phase]
      split
      · rfl
      · rfl
    have pending : 0 < available := by simpa [PollState.left, same] using some_left
    have positive : 0 < s'.sockets.trackedFds := by
      obtain ⟨i, below, _⟩ := marked
      omega
    exact (inv.step proper run).stained_falls marked same pending (n := s'.sockets.trackedFds - 1) (by omega)
  | poll results pipe => exact absurd trivial stained
  | remove fd => exact absurd trivial stained
  | recv reads => exact absurd trivial stained

/-- Socket 6 is removed and 7 is added while there are events of 5, and the entry was blank. -/
theorem events_grounded_reuse : ∃ s, Reach pollStep (.new ⟨fun _ => ⟨0, false, 0, .none, 0⟩, []⟩)
      (fun s a => a.Proper s ∧ a.Blank s) s ∧ s.sockets.entries = [(⟨5, true⟩, 1), (⟨7, true⟩, 3)] ∧ s.acts = [(1, 1)] ∧
    s.Grounded := by
  have trace : (exec pollStep (fun s a => decide (a.Proper s ∧ a.Blank s)) (.new ⟨fun _ => ⟨0, false, 0, .none, 0⟩, []⟩)
      [.poll (fun _ => .clear) .commands, .add 1 ⟨5, false, -1, .none, 0⟩ (fun _ => 0),
        .add 2 ⟨6, false, -1, .none, 0⟩ (fun _ => 0), .recv fun _ => .returned,
        .poll (fun i => ⟨i = 0, false, false, false⟩) .commands, .remove 6, .add 3 ⟨7, false, -1, .none, 0⟩ (fun _ => 0),
        .recv fun _ => .returned]).map
      (fun s => (s.sockets.entries, s.acts)) = some ([(⟨5, true⟩, 1), (⟨7, true⟩, 3)], [(1, 1)]) := by decide +kernel
  obtain ⟨s, reach, seen⟩ := exists_reach_of_exec trace
  simp only [Prod.mk.injEq] at seen
  exact ⟨s, reach, seen.1, seen.2, (events_grounded reach).1⟩

/-- Socket 5 hangs up and is removed, and 6, which is added in the same batch, fails for it. -/
theorem events_inherited : ∃ s, Reach pollStep (.new ⟨fun _ => ⟨0, false, 0, .none, 0⟩, []⟩) (fun s a => a.Proper s) s ∧
    s.sockets.entries = [(⟨6, false⟩, 2)] ∧ (s.conns.info 2).error = .pollhup ∧ ¬ s.Grounded := by
  have trace : (exec pollStep (fun s a => decide (a.Proper s)) (.new ⟨fun _ => ⟨0, false, 0, .none, 0⟩, []⟩)
      [.poll (fun _ => .clear) .commands, .add 1 ⟨5, false, -1, .none, 0⟩ (fun _ => 0), .recv fun _ => .returned,
        .poll (fun _ => ⟨false, false, true, false⟩) .commands, .remove 5, .add 2 ⟨6, false, -1, .none, 0⟩ (fun _ => 0),
        .recv fun _ => .returned]).map
      (fun s => (s.sockets.entries, (s.conns.info 2).error, s.acts)) = some ([(⟨6, false⟩, 2)], .pollhup, [(2, 1)]) := by
    decide +kernel
  obtain ⟨s, reach, seen⟩ := exists_reach_of_exec trace
  simp only [Prod.mk.injEq] at seen
  obtain ⟨entries, error, acts⟩ := seen
  refine ⟨s, reach, entries, error, fun grounded => ?_⟩
  have same := grounded (2, 1) (by rw [acts]; exact List.mem_singleton_self _)
  cases same

end Kinetic
