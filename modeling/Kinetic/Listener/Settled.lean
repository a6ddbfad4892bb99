import Kinetic.Listener.Polling
import Mathlib.Algebra.GroupWithZero.Nat
import Mathlib.Data.Nat.Count

namespace Kinetic
open Function (update)
open Transition (Reach exec exists_reach_of_exec)

/-- Whether the socket in a place has an error. -/
def SocketTable.errored (t : SocketTable) (conns : Connections) (i : Nat) : Bool := (conns.info (t.fdInfo i)).error.negative

/-- What the entries in front of `i` add to `read_from`. -/
def eventsBefore (slots : Nat → PollSlot) (i : Nat) : Nat := ((List.range i).map fun j => (slots j).revents.weight).sum

/-- Whether the loop of `ListenerIO_AttemptRecv` comes to an entry: `read_from` was at no entry before equal to `available`. -/
def comesTo (slots : Nat → PollSlot) (available i : Nat) : Bool :=
  (List.range (i + 1)).all fun j => eventsBefore slots j ≠ available

/-- Whether a socket fails if it is looked at. -/
def faulty (slots : Nat → PollSlot) (reads : Nat → ReadEnd) (i : Nat) : Bool :=
  (slots i).revents.error.isSome || ((slots i).revents.pollin && (reads i).error.isSome)

/-- The sockets that fail in a call of `ListenerIO_AttemptRecv`. -/
def failing (slots : Nat → PollSlot) (reads : Nat → ReadEnd) (available i : Nat) : Bool :=
  comesTo slots available i && faulty slots reads i

section Loop
variable {slots : Nat → PollSlot} {reads : Nat → ReadEnd} {read : ReadEnd} {available : Nat} {r r' : Recv} {i n : Nat}

/-- Everything of the sockets but their errors stays as it is. -/
structure Recv.Same (r r' : Recv) : Prop where
  fds : r'.sockets.fds = r.sockets.fds
  fdInfo : r'.sockets.fdInfo = r.sockets.fdInfo
  tracked : r'.sockets.trackedFds = r.sockets.trackedFds
  inactive : r'.sockets.inactiveFds = r.sockets.inactiveFds
  fd : ∀ ci, (r'.conns.info ci).fd = (r.conns.info ci).fd

theorem Recv.Same.refl (r : Recv) : Recv.Same r r := ⟨rfl, rfl, rfl, rfl, fun _ => rfl⟩

theorem Recv.Same.trans {r'' : Recv} (first : Recv.Same r r') (second : Recv.Same r' r'') : Recv.Same r r'' :=
  ⟨second.fds.trans first.fds, second.fdInfo.trans first.fdInfo, second.tracked.trans first.tracked,
    second.inactive.trans first.inactive, fun ci => (second.fd ci).trans (first.fd ci)⟩

/-- A read from the socket in a place or the handling of its error, if there is one, with the call of `set_error_for_socket`. -/
def Recv.look (r : Recv) (act : Nat × Nat) (i : Nat) (due : Bool) (err : Option RxError) : Recv :=
  let counted := { r with readFrom := r.readFrom + 1, acts := r.acts ++ [act] }
  if due then
    match err with
    | some err => counted.setError i err
    | none => counted
  else r

/-- What a look at an entry does: how much `read_from` grows, and whether the socket is marked with an error. -/
structure Recv.Looked (r r' : Recv) (i : Nat) (events : Nat) (fault : Bool) (act : Nat × Nat) : Prop where
  same : Recv.Same r r'
  readFrom : r'.readFrom = r.readFrom + events
  error : ∀ ci, (r'.conns.info ci).error.negative =
    ((r.conns.info ci).error.negative || (decide (ci = r.sockets.fdInfo i) && fault))
  occured : r'.sockets.errorOccured = (r.sockets.errorOccured || fault)
  acts : ∀ a ∈ r'.acts, a ∈ r.acts ∨ 0 < events ∧ a = act

theorem Recv.look_spec (r : Recv) (act : Nat × Nat) (i : Nat) (due : Bool) (err : Option RxError)
    (negative : ∀ e, err = some e → e.negative = true) :
    Recv.Looked r (r.look act i due err) i (if due then 1 else 0) (due && err.isSome) act := by
  cases due with
  | false =>
    refine ⟨.refl r, rfl, ?_, ?_, fun a member => .inl member⟩
    · simp [Recv.look]
    · simp [Recv.look]
  | true =>
    have acts (a : Nat × Nat) (member : a ∈ r.acts ++ [act]) : a ∈ r.acts ∨ 0 < 1 ∧ a = act := by
      rcases List.mem_append.mp member with old | new
      · exact .inl old
      · exact .inr ⟨Nat.one_pos, List.mem_singleton.mp new⟩
    cases err with
    | none => exact ⟨⟨rfl, rfl, rfl, rfl, fun _ => rfl⟩, rfl, by simp [Recv.look], by simp [Recv.look], acts⟩
    | some err =>
      refine ⟨⟨rfl, rfl, rfl, rfl, fun ci => ?_⟩, rfl, fun ci => ?_, by simp [Recv.look, Recv.setError], acts⟩
      · by_cases here : ci = r.sockets.fdInfo i
        · simp [Recv.look, Recv.setError, Connections.set, here]
        · simp [Recv.look, Recv.setError, Connections.set, here]
      · by_cases here : ci = r.sockets.fdInfo i
        · simp [Recv.look, Recv.setError, Connections.set, here, negative err rfl]
        · simp [Recv.look, Recv.setError, Connections.set, here]

theorem Recv.Looked.trans {r'' : Recv} {events events' : Nat} {fault fault' : Bool} {act : Nat × Nat}
    (first : Recv.Looked r r' i events fault act) (second : Recv.Looked r' r'' i events' fault' act) :
    Recv.Looked r r'' i (events + events') (fault || fault') act := by
  refine ⟨first.same.trans second.same, ?_, fun ci => ?_, ?_, fun a member => ?_⟩
  · rw [second.readFrom, first.readFrom, Nat.add_assoc]
  · rw [second.error, first.error, first.same.fdInfo, Bool.and_or_distrib_left, Bool.or_assoc]
  · rw [second.occured, first.occured, Bool.or_assoc]
  · rcases second.acts a member with before | ⟨some_event, same⟩
    · rcases first.acts a before with old | ⟨some_event, same⟩
      · exact .inl old
      · exact .inr ⟨by omega, same⟩
    · exact .inr ⟨by omega, same⟩

theorem ReadEnd.error_negative (e : RxError) (failed : read.error = some e) : e.negative = true := by
  cases read with
  | returned => cases failed
  | failed => cases failed; rfl
  | hungUp => cases failed; rfl

theorem Revents.error_negative {revents : Revents} (e : RxError) (failed : revents.error = some e) : e.negative = true := by
  unfold Revents.error at failed
  split at failed
  · cases failed
    rfl
  · split at failed
    · cases failed
      rfl
    · cases failed

theorem Recv.visit_eq (run : r.visit slots read i = some r') :
    r' = (r.look ((slots i).registration, (slots i).origin) i (slots i).revents.pollin read.error).look
      ((slots i).registration, (slots i).origin) i (slots i).revents.error.isSome (slots i).revents.error := by
  unfold Recv.visit at run
  dsimp only at run
  split at run
  · cases pollin : (slots i).revents.pollin with
    | false =>
      cases error : (slots i).revents.error with
      | none => simpa [pollin, error, Recv.look] using run.symm
      | some err => simpa [pollin, error, Recv.look, Recv.setError] using run.symm
    | true =>
      cases failed : read.error with
      | none =>
        cases error : (slots i).revents.error with
        | none => simpa [pollin, error, failed, Recv.look] using run.symm
        | some err => simpa [pollin, error, failed, Recv.look, Recv.setError] using run.symm
      | some fault =>
        cases error : (slots i).revents.error with
        | none => simpa [pollin, error, failed, Recv.look, Recv.setError] using run.symm
        | some err => simpa [pollin, error, failed, Recv.look, Recv.setError] using run.symm
  · cases run

theorem Recv.visit_spec (run : r.visit slots (reads i) i = some r') :
    Recv.Looked r r' i (slots i).revents.weight (faulty slots reads i) ((slots i).registration, (slots i).origin) := by
  rw [Recv.visit_eq run]
  have first := r.look_spec ((slots i).registration, (slots i).origin) i (slots i).revents.pollin (reads i).error
    ReadEnd.error_negative
  have both := first.trans (Recv.look_spec _ ((slots i).registration, (slots i).origin) i
    (slots i).revents.error.isSome (slots i).revents.error Revents.error_negative)
  have events : (slots i).revents.weight =
      (if (slots i).revents.pollin then 1 else 0) + if (slots i).revents.error.isSome then 1 else 0 := by
    cases error : (slots i).revents.error <;> simp [Revents.weight, error]
  have fault : faulty slots reads i = (((slots i).revents.pollin && (reads i).error.isSome) ||
      ((slots i).revents.error.isSome && (slots i).revents.error.isSome)) := by
    rw [faulty, Bool.and_self, Bool.or_comm]
  rw [events, fault]
  exact both

theorem eventsBefore_succ (slots : Nat → PollSlot) (i : Nat) :
    eventsBefore slots (i + 1) = eventsBefore slots i + (slots i).revents.weight := by
  simp [eventsBefore, List.range_succ]

theorem comesTo_iff : comesTo slots available i = true ↔ ∀ j, j ≤ i → eventsBefore slots j ≠ available := by
  unfold comesTo
  rw [List.all_eq_true]
  constructor
  · intro every j low
    simpa using every j (List.mem_range.mpr (by omega))
  · intro every j member
    simpa using every j (by have := List.mem_range.mp member; omega)

/-- What the loop of `ListenerIO_AttemptRecv` does from an entry on. -/
structure Recv.Received (slots : Nat → PollSlot) (reads : Nat → ReadEnd) (available : Nat) (r r' : Recv) (i : Nat) : Prop where
  same : Recv.Same r r'
  errored : ∀ j, j < r.sockets.trackedFds → r'.sockets.errored r'.conns j =
    (r.sockets.errored r.conns j || (decide (i ≤ j) && failing slots reads available j))
  occured : r'.sockets.errorOccured = true ↔ r.sockets.errorOccured = true ∨
    ∃ j, i ≤ j ∧ j < r.sockets.trackedFds ∧ failing slots reads available j = true
  acts : ∀ a ∈ r'.acts, a ∈ r.acts ∨ ∃ j, j < r.sockets.trackedFds ∧ 0 < (slots j).revents.weight ∧
    a = ((slots j).registration, (slots j).origin)

/-- The loop does nothing to the entries that it does not come to. -/
theorem Recv.Received.none_left (left : ∀ j, i ≤ j → j < r.sockets.trackedFds → failing slots reads available j = false) :
    Recv.Received slots reads available r r i := by
  refine ⟨.refl r, fun j below => ?_, ⟨.inl, ?_⟩, fun a member => .inl member⟩
  · by_cases ahead : i ≤ j
    · simp [left j ahead below]
    · simp [ahead]
  · rintro (old | ⟨j, ahead, below, fails⟩)
    · exact old
    · rw [left j ahead below] at fails
      cases fails

theorem recvFrom_spec (run : recvFrom slots reads available n i r = some r')
    (apart : ∀ j k, j < r.sockets.trackedFds → k < r.sockets.trackedFds → r.sockets.fdInfo j = r.sockets.fdInfo k → j = k)
    (count : r.readFrom = eventsBefore slots i) (passed : ∀ j, j < i → eventsBefore slots j ≠ available)
    (enough : r.sockets.trackedFds ≤ i + n) : Recv.Received slots reads available r r' i := by
  induction n generalizing i r with
  | zero =>
    cases run
    exact .none_left fun j ahead below => by omega
  | succ n ih =>
    unfold recvFrom at run
    split at run
    · rename_i going
      obtain ⟨below, more⟩ := going
      obtain ⟨next, visited, rest⟩ := Option.bind_eq_some_iff.mp run
      have looked := Recv.visit_spec visited
      have tracked := looked.same.tracked
      have info := looked.same.fdInfo
      have come : comesTo slots available i = true := by
        refine comesTo_iff.mpr fun j low => ?_
        by_cases here : j = i
        · rw [here, ← count]
          exact more
        · exact passed j (by omega)
      have fails : failing slots reads available i = faulty slots reads i := by
        rw [failing, come, Bool.true_and]
      have later := ih rest (by rw [tracked, info]; exact apart) (by rw [looked.readFrom, count, eventsBefore_succ])
        (fun j low => comesTo_iff.mp come j (by omega)) (by omega)
      refine ⟨looked.same.trans later.same, fun j belowJ => ?_, ?_, fun a member => ?_⟩
      · have here : next.sockets.errored next.conns j = (r.sockets.errored r.conns j || (decide (j = i) && faulty slots reads i)) := by
          have same : (r.sockets.fdInfo j = r.sockets.fdInfo i) ↔ j = i :=
            ⟨apart j i belowJ below, fun equal => by rw [equal]⟩
          rw [SocketTable.errored, info, looked.error, decide_eq_decide.mpr same]
          rfl
        rw [later.errored j (by omega), here]
        by_cases atI : j = i
        · subst atI
          simp [fails]
        · have ahead : decide (i + 1 ≤ j) = decide (i ≤ j) := decide_eq_decide.mpr (by omega)
          rw [ahead, decide_eq_false atI, Bool.false_and, Bool.or_false]
      · rw [later.occured, looked.occured, Bool.or_eq_true, tracked]
        constructor
        · rintro ((old | fault) | ⟨j, ahead, belowJ, fault⟩)
          · exact .inl old
          · exact .inr ⟨i, Nat.le_refl i, below, by rw [fails, fault]⟩
          · exact .inr ⟨j, by omega, belowJ, fault⟩
        · rintro (old | ⟨j, ahead, belowJ, fault⟩)
          · exact .inl (.inl old)
          · by_cases atI : j = i
            · subst atI
              exact .inl (.inr (by rw [← fails, fault]))
            · exact .inr ⟨j, by omega, belowJ, fault⟩
      · rcases later.acts a member with before | ⟨j, belowJ, some_event, same⟩
        · rcases looked.acts a before with old | ⟨some_event, same⟩
          · exact .inl old
          · exact .inr ⟨i, below, some_event, same⟩
        · exact .inr ⟨j, by omega, some_event, same⟩
    · rename_i stopped
      cases run
      refine .none_left fun j ahead below => ?_
      have reached : r'.readFrom = available := by
        by_contra more
        exact stopped ⟨by omega, more⟩
      have beyond : comesTo slots available j = false := by
        cases come : comesTo slots available j with
        | false => rfl
        | true => exact absurd (count.symm.trans reached) (comesTo_iff.mp come i ahead)
      rw [failing, beyond, Bool.false_and]

end Loop

section Move
variable {t t' : SocketTable} {conns : Connections} {id n : Nat}

/-- An active socket with an error is moved. -/
theorem moveErrored_moves (run : t.moveErrored conns id = some t') (errored : t.errored conns id = true)
    (pollin : (t.fds id).pollin = true) : Deactivated t t' id (t.activeFds - 1) := by
  rcases moveErrored_spec run with same | ⟨_, moved⟩
  · have more : t'.inactiveFds = t.inactiveFds + 1 := by
      unfold SocketTable.moveErrored at run
      dsimp only at run
      rw [if_pos ⟨errored, pollin⟩] at run
      split at run
      · cases run
      · split at run
        · cases run
          rfl
        · cases run
    rw [same] at more
    omega
  · exact moved

theorem moveErrored_leaves (run : t.moveErrored conns id = some t') (fine : t.errored conns id = false) : t' = t := by
  rcases moveErrored_spec run with same | ⟨errored, _⟩
  · exact same
  · rw [SocketTable.errored] at fine
    rw [fine] at errored
    cases errored

/-- Where a socket is moved the last active one comes to its place, and the loop does not look at it. -/
def Spared (errored : Nat → Bool) (count id : Nat) : Prop :=
  ∀ i, id ≤ i → errored i = true → i + Nat.count (errored ·) i + 1 < count →
    errored (count - 1 - Nat.count (errored ·) i) = false

theorem Spared.beyond {errored : Nat → Bool} {count : Nat} (beyond : count - Nat.count (errored ·) id ≤ id) :
    Spared errored count id := by
  intro i ahead _ inside
  have more := Nat.count_monotone (errored ·) ahead
  omega

theorem Spared.fine {errored : Nat → Bool} {count : Nat} (fine : errored id = false) :
    Spared errored count id ↔ Spared errored count (id + 1) := by
  refine ⟨fun spared i ahead => spared i (by omega), fun spared i ahead bad room => ?_⟩
  have other : i ≠ id := by
    rintro rfl
    rw [fine] at bad
    cases bad
  exact spared i (by omega) bad room

theorem Spared.bad {errored : Nat → Bool} {count : Nat} (bad : errored id = true)
    (room : id + Nat.count (errored ·) id + 1 < count) :
    Spared errored count id ↔
      errored (count - 1 - Nat.count (errored ·) id) = false ∧ Spared errored count (id + 1) := by
  refine ⟨fun spared => ⟨spared id (Nat.le_refl id) bad room, fun i ahead => spared i (by omega)⟩, ?_⟩
  rintro ⟨last, spared⟩ i ahead
  by_cases atId : i = id
  · rw [atId]
    exact fun _ _ => last
  · exact spared i (by omega)

/-- When no active socket has an error after `move_errored_active_sockets_to_end`. -/
theorem moveErroredFrom_clean (inv : SocketsInv t conns) (run : moveErroredFrom conns n id t = some t')
    (enough : t.activeFds ≤ id + n) {errored : Nat → Bool} {count : Nat}
    (active : t.activeFds = count - Nat.count (errored ·) id)
    (same : ∀ j, id ≤ j → j < t.activeFds → t.errored conns j = errored j) :
    (∀ j, j < t'.activeFds → t'.errored conns j = false) ↔
      (∀ j, j < id → j < t.activeFds → t.errored conns j = false) ∧ Spared errored count id := by
  induction n generalizing id t with
  | zero =>
    cases run
    have spared : Spared errored count id := .beyond (by omega)
    exact ⟨fun clean => ⟨fun j _ below => clean j below, spared⟩, fun both j below => both.1 j (by omega) below⟩
  | succ n ih =>
    unfold moveErroredFrom at run
    split at run
    · rename_i inside
      obtain ⟨next, moved, rest⟩ := Option.bind_eq_some_iff.mp run
      have inactive := inv.inactive
      have front : id < t.activeFds := inside
      have here := same id (Nat.le_refl id) front
      cases fails : errored id with
      | false =>
        rw [fails] at here
        have kept := moveErrored_leaves moved here
        subst kept
        have counted : Nat.count (errored ·) (id + 1) = Nat.count (errored ·) id := by simp [Nat.count_succ, fails]
        have later := ih inv rest (by omega) (by rw [counted]; exact active) fun j ahead below => same j (by omega) below
        rw [later, Spared.fine fails]
        refine and_congr_left fun _ => ⟨fun before j low below => before j (by omega) below, fun before j low below => ?_⟩
        by_cases atId : j = id
        · rw [atId]
          exact here
        · exact before j (by omega) below
      | true =>
        rw [fails] at here
        have pollin := (inv.pollin id (by omega)).mpr inside
        have deactivated := moveErrored_moves moved here pollin
        have counted : Nat.count (errored ·) (id + 1) = Nat.count (errored ·) id + 1 := by simp [Nat.count_succ, fails]
        have fewer : next.activeFds = t.activeFds - 1 := by
          simp only [SocketTable.activeFds, deactivated.tracked, deactivated.inactive]
          omega
        have entry (j : Nat) : next.errored conns j = t.errored conns (exchanged id (t.activeFds - 1) j) := by
          rw [SocketTable.errored, deactivated.info, SocketTable.errored]
        have later := ih (inv.moveErrored inside moved).1 rest (by omega) (by omega) fun j ahead below => by
          rw [entry, exchanged, if_neg (by omega), if_neg (by omega)]
          exact same j (by omega) (by omega)
        have before (j : Nat) (low : j < id) : next.errored conns j = t.errored conns j := by
          rw [entry, exchanged, if_neg (by omega), if_neg (by omega)]
        rw [later]
        by_cases alone : id + 1 = t.activeFds
        · have spared : Spared errored count id := by
            intro i ahead _ room
            have more := Nat.count_monotone (errored ·) ahead
            omega
          have rest_spared : Spared errored count (id + 1) := fun i ahead => spared i (by omega)
          refine ⟨fun both => ⟨fun j low below => ?_, spared⟩, fun both => ⟨fun j low below => ?_, rest_spared⟩⟩
          · rw [← before j low]
            exact both.1 j (by omega) (by omega)
          · rw [before j (by omega)]
            exact both.1 j (by omega) (by omega)
        · have swapped : next.errored conns id = errored (count - 1 - Nat.count (errored ·) id) := by
            rw [entry, exchanged, if_neg (by omega), if_pos rfl, same _ (by omega) (by omega), active]
            congr 1
            omega
          rw [Spared.bad fails (by omega), ← swapped]
          refine ⟨fun both => ⟨fun j low below => ?_, both.1 id (by omega) (by omega), both.2⟩,
            fun both => ⟨fun j low below => ?_, both.2.2⟩⟩
          · rw [← before j low]
            exact both.1 j (by omega) (by omega)
          · by_cases atId : j = id
            · rw [atId]
              exact both.2.1
            · rw [before j (by omega)]
              exact both.1 j (by omega) (by omega)
    · rename_i outside
      cases run
      have done : t'.activeFds ≤ id := by
        rw [SocketTable.activeFds]
        omega
      have spared : Spared errored count id := .beyond (by omega)
      exact ⟨fun clean => ⟨fun j _ below => clean j below, spared⟩, fun both j below => both.1 j (by omega) below⟩

end Move

section Steps
variable {s s' : PollState} {t t' : SocketTable} {conns conns' : Connections}

theorem moveErroredSlotsFrom_table {n id : Nat} {slots slots' : Nat → PollSlot}
    (run : moveErroredSlotsFrom conns n id t slots = some (t', slots')) : moveErroredFrom conns n id t = some t' := by
  induction n generalizing id t slots with
  | zero => cases run; rfl
  | succ n ih =>
    unfold moveErroredSlotsFrom at run
    unfold moveErroredFrom
    split at run
    · rename_i inside
      obtain ⟨next, moved, rest⟩ := Option.bind_eq_some_iff.mp run
      rw [if_pos inside, moved]
      exact ih rest
    · rename_i outside
      cases run
      rw [if_neg outside]

/-- `add_socket` and `remove_socket` leave `error_occured` alone, and the errors of connections too. -/
theorem addSocket_error {env : AddEnv} {ci : Nat} (run : addSocket env t conns ci = some (t', conns')) :
    t'.errorOccured = t.errorOccured ∧ ∀ x, (conns'.info x).error = (conns.info x).error := by
  have tracked (fd : Int) : (t.track ci fd).errorOccured = t.errorOccured := by
    simp only [SocketTable.track]
    split <;> rfl
  have primed (size x : Nat) :
      ((conns.set ci { conns.info ci with toReadSize := size }).info x).error = (conns.info x).error := by
    by_cases here : x = ci
    · simp [Connections.set, here]
    · simp [Connections.set, here]
  cases addSocket_cases run with
  | full => exact ⟨rfl, fun _ => rfl⟩
  | present => exact ⟨rfl, fun _ => rfl⟩
  | added => exact ⟨tracked _, primed _⟩
  | notGrown => exact ⟨tracked _, primed _⟩

theorem removeSocket_occured {fd : Int} (run : removeSocket t fd = some t') : t'.errorOccured = t.errorOccured := by
  unfold removeSocket at run
  split at run
  · cases run
    rfl
  · unfold SocketTable.removeAt at run
    dsimp only at run
    split at run
    · cases run
      rfl
    · split at run
      · split at run
        · cases run
          dsimp only
          split <;> rfl
        · cases run
      · cases run
        dsimp only
        split <;> rfl

theorem pollStep_add {ci : Nat} {info : ConnectionInfo} {readBuf : Nat → UInt8}
    (run : pollStep s (.add ci info readBuf) = some s') :
    ∃ available sockets conns, s.phase = .commands available true ∧
      addSocket ⟨false, pduHeaderLen, true⟩ s.sockets (s.conns.set ci info) ci = some (sockets, conns) ∧
      s' = if s.sockets.trackedFds < sockets.trackedFds then
          { s with
            sockets := sockets
            conns := conns
            slots := trackSlots s.sockets s.slots s.nextRegistration
            nextRegistration := s.nextRegistration + 1 }
        else { s with sockets := sockets, conns := conns } := by
  simp only [pollStep] at run
  split at run
  · rename_i available phase
    obtain ⟨⟨si, res⟩, primed, run⟩ := Option.bind_eq_some_iff.mp run
    cases primed
    obtain ⟨⟨sockets, conns⟩, added, run⟩ := Option.bind_eq_some_iff.mp run
    refine ⟨available, sockets, conns, phase, added, ?_⟩
    dsimp only at run
    split at run
    · rename_i grown
      rw [if_pos grown]
      exact (Option.some.inj run).symm
    · rename_i kept
      rw [if_neg kept]
      exact (Option.some.inj run).symm
  · cases run

theorem pollStep_remove {fd : Int} (run : pollStep s (.remove fd) = some s') :
    ∃ available sockets, s.phase = .commands available true ∧ removeSocket s.sockets fd = some sockets ∧
      s' = { s with sockets := sockets, slots := removedSlots s.sockets s.slots fd } := by
  simp only [pollStep] at run
  split at run
  · rename_i available phase
    obtain ⟨sockets, removed, run⟩ := Option.bind_eq_some_iff.mp run
    exact ⟨available, sockets, phase, removed, (Option.some.inj run).symm⟩
  · cases run

/-- `ListenerIO_AttemptRecv` is its loop, and the move of the sockets with errors if it set one. -/
theorem attemptRecv_cases {available : Nat} {reads : Nat → ReadEnd} (run : attemptRecv s available reads = some s') :
    ∃ r, recvFrom s.slots reads available s.sockets.trackedFds 0 ⟨s.sockets, s.conns, 0, []⟩ = some r ∧
      s'.conns = r.conns ∧ s'.acts = s.acts ++ r.acts ∧ s'.nextRegistration = s.nextRegistration ∧
      (r.sockets.errorOccured = false ∧ s'.sockets = r.sockets ∧ s'.slots = s.slots ∨
        r.sockets.errorOccured = true ∧ ∃ sockets, s'.sockets = { sockets with errorOccured := false } ∧
          moveErroredSlotsFrom r.conns r.sockets.trackedFds 0 r.sockets s.slots = some (sockets, s'.slots)) := by
  obtain ⟨r, received, run⟩ := Option.bind_eq_some_iff.mp run
  refine ⟨r, received, ?_⟩
  dsimp only at run
  split at run
  · rename_i occured
    obtain ⟨⟨sockets, slots⟩, moved, run⟩ := Option.bind_eq_some_iff.mp run
    cases run
    exact ⟨rfl, rfl, rfl, .inr ⟨occured, sockets, rfl, moved⟩⟩
  · rename_i quiet
    cases run
    exact ⟨rfl, rfl, rfl, .inl ⟨by simpa using quiet, rfl, rfl⟩⟩

theorem pollStep_recv {reads : Nat → ReadEnd} (run : pollStep s (.recv reads) = some s') :
    ∃ available batch, s.phase = .commands available batch ∧
      (available = 0 ∧ s' = { s with phase := .polling } ∨
        0 < available ∧ ∃ received, attemptRecv s available reads = some received ∧ s' = { received with phase := .polling }) := by
  simp only [pollStep] at run
  split at run
  · rename_i available batch phase
    refine ⟨available, batch, phase, ?_⟩
    split at run
    · rename_i some_left
      obtain ⟨received, attempted, run⟩ := Option.bind_eq_some_iff.mp run
      exact .inr ⟨some_left, received, attempted, (Option.some.inj run).symm⟩
    · rename_i none_left
      exact .inl ⟨by omega, (Option.some.inj run).symm⟩
  · cases run

end Steps

/-- The sockets with an error are those that are inactive, and `POLLIN` is off for them. -/
def PollState.Settled (s : PollState) : Prop :=
  ∀ i, i < s.sockets.trackedFds →
    (s.sockets.errored s.conns i = true → s.sockets.activeFds ≤ i ∧ (s.sockets.fds i).pollin = false) ∧
      (s.sockets.errored s.conns i = false → i < s.sockets.activeFds)

/-- No active socket has an error. -/
def SocketTable.Clean (t : SocketTable) (conns : Connections) : Prop := ∀ i, i < t.activeFds → t.errored conns i = false

structure PollState.Inv (s : PollState) : Prop where
  side : SocketSide.Inv ⟨s.sockets, s.conns⟩
  cleared : s.sockets.errorOccured = false

section Clean
variable {t t' : SocketTable} {conns conns' : Connections} {s s' : PollState}

theorem SocketsInv.clean_iff (inv : SocketsInv t conns) :
    t.Clean conns ↔ ∀ e ∈ t.entries, e.1.pollin = true → (conns.info e.2).error.negative = false := by
  have inactive := inv.inactive
  constructor
  · intro clean e member pollin
    obtain ⟨i, below, rfl⟩ := (SocketTable.mem_entries e).mp member
    exact clean i ((inv.pollin i below).mp pollin)
  · intro clean i front
    have below : i < t.trackedFds := Nat.lt_of_lt_of_le front (Nat.sub_le _ _)
    exact clean (t.entry i) ((SocketTable.mem_entries _).mpr ⟨i, below, rfl⟩) ((inv.pollin i below).mpr front)

theorem PollState.Inv.settled_iff (inv : s.Inv) : s.Settled ↔ s.sockets.Clean s.conns := by
  have sockets : SocketsInv s.sockets s.conns := inv.side.sockets
  constructor
  · intro settled i active
    have below : i < s.sockets.trackedFds := Nat.lt_of_lt_of_le active (Nat.sub_le _ _)
    cases errored : s.sockets.errored s.conns i with
    | false => rfl
    | true =>
      have behind := ((settled i below).1 errored).1
      omega
  · intro clean i below
    constructor
    · intro errored
      have behind : ¬ i < s.sockets.activeFds := fun active => by
        rw [clean i active] at errored
        cases errored
      exact ⟨by omega, sockets.pollin_off below (Nat.le_of_not_lt behind)⟩
    · intro fine
      by_contra behind
      have errored := sockets.errored i below (sockets.pollin_off below (Nat.le_of_not_lt behind))
      rw [SocketTable.errored] at fine
      rw [fine] at errored
      cases errored

/-- The sockets that fail in the call of `ListenerIO_AttemptRecv` that is next, if there is one. -/
def PollState.fails (s : PollState) (reads : Nat → ReadEnd) (i : Nat) : Bool :=
  match s.phase with
  | .commands available _ => decide (0 < available) && failing s.slots reads available i
  | .polling => false

/-- In a call of `ListenerIO_AttemptRecv`, the socket that `move_errored_active_sockets_to_end` puts in the place of the
`k`-th failing one, which is the `k`-th last of the active ones, is not failing itself. -/
def PollAction.Spread (s : PollState) : PollAction → Prop
  | .recv reads => ∀ i, i < s.sockets.activeFds → s.fails reads i = true →
      i + Nat.count (s.fails reads ·) i + 1 < s.sockets.activeFds →
        s.fails reads (s.sockets.activeFds - 1 - Nat.count (s.fails reads ·) i) = false
  | _ => True

instance PollAction.decidableSpread (s : PollState) : (a : PollAction) → Decidable (a.Spread s)
  | .recv reads => inferInstanceAs (Decidable (∀ i, i < s.sockets.activeFds → s.fails reads i = true →
      i + Nat.count (s.fails reads ·) i + 1 < s.sockets.activeFds →
        s.fails reads (s.sockets.activeFds - 1 - Nat.count (s.fails reads ·) i) = false))
  | .poll .. => .isTrue trivial
  | .add .. => .isTrue trivial
  | .remove _ => .isTrue trivial

/-- A connection that is added has no error. -/
theorem PollState.Inv.add {ci : Nat} {info : ConnectionInfo} {readBuf : Nat → UInt8} (inv : s.Inv)
    (proper : PollAction.Proper s (.add ci info readBuf)) (run : pollStep s (.add ci info readBuf) = some s') :
    s'.Inv ∧ (s.sockets.Clean s.conns → s'.sockets.Clean s'.conns) := by
  obtain ⟨available, sockets, conns, phase, added, after⟩ := pollStep_add run
  have sides : s'.sockets = sockets ∧ s'.conns = conns := by
    rw [after]
    split
    · exact ⟨rfl, rfl⟩
    · exact ⟨rfl, rfl⟩
  obtain ⟨rfl, rfl⟩ := sides
  have taken : socketStep ⟨s.sockets, s.conns⟩ (.add ci info readBuf) = some ⟨s'.sockets, s'.conns⟩ := by
    rw [socketStep_add, added]
    rfl
  obtain ⟨side, entries⟩ := inv.side.add proper.1 taken
  obtain ⟨occured, errors⟩ := addSocket_error added
  refine ⟨⟨side, by rw [occured, inv.cleared]⟩, fun clean => ?_⟩
  have old (e : PollFd × Nat) (member : e ∈ s.sockets.entries) (pollin : e.1.pollin = true) :
      (s'.conns.info e.2).error.negative = false := by
    have fine := inv.side.sockets.clean_iff.mp clean e member pollin
    obtain ⟨i, below, rfl⟩ := (SocketTable.mem_entries e).mp member
    have other := proper.1 i below
    rw [errors]
    simpa [Connections.set, SocketTable.entry, other] using fine
  refine side.sockets.clean_iff.mpr fun e member pollin => ?_
  rcases entries with ⟨_, same⟩ | ⟨_, perm⟩
  · have kept : s'.sockets = s.sockets := same
    rw [kept] at member
    exact old e member pollin
  · rcases List.mem_cons.mp (perm.mem_iff.mp member) with rfl | member
    · rw [errors, Connections.set_info, proper.2]
      rfl
    · exact old e member pollin

theorem PollState.Inv.remove {fd : Int} (inv : s.Inv) (run : pollStep s (.remove fd) = some s') :
    s'.Inv ∧ (s.sockets.Clean s.conns → s'.sockets.Clean s'.conns) := by
  obtain ⟨available, sockets, phase, removed, rfl⟩ := pollStep_remove run
  have taken : socketStep ⟨s.sockets, s.conns⟩ (.remove fd) = some ⟨sockets, s.conns⟩ := by simp [socketStep, removed]
  have side := SocketSide.Inv.step (a := .remove fd) inv.side trivial taken
  refine ⟨⟨side, (removeSocket_occured removed).trans inv.cleared⟩, fun clean => ?_⟩
  refine side.sockets.clean_iff.mpr fun e member pollin => ?_
  have perm := inv.side.sockets.removeSocket_perm removed
  have before := List.mem_filter.mp (perm.mem_iff.mp member)
  exact inv.side.sockets.clean_iff.mp clean e before.1 pollin

/-- The connections are those of different sockets. -/
theorem SocketsInv.apart (inv : SocketsInv t conns) (i j : Nat) (below : i < t.trackedFds) (belowJ : j < t.trackedFds)
    (same : t.fdInfo i = t.fdInfo j) : i = j := by
  refine inv.once i j below belowJ ?_
  rw [inv.fd i below, inv.fd j belowJ, same]

/-- The loop of `ListenerIO_AttemptRecv` leaves the sockets where they are. -/
theorem SocketSide.Inv.received {slots : Nat → PollSlot} {reads : Nat → ReadEnd} {available : Nat} {r r' : Recv}
    (inv : SocketSide.Inv ⟨r.sockets, r.conns⟩) (received : Recv.Received slots reads available r r' 0) :
    SocketSide.Inv ⟨r'.sockets, r'.conns⟩ := by
  have same := received.same
  have kept : SocketsInv r'.sockets r.conns := by
    have sockets := inv.sockets
    refine ⟨?_, ?_, ?_, ?_, ?_⟩
    · rw [same.inactive, same.tracked]
      exact sockets.inactive
    · rw [same.inactive, same.tracked, same.fds]
      exact sockets.pollin
    · rw [same.tracked, same.fds, same.fdInfo]
      exact sockets.fd
    · rw [same.tracked, same.fds]
      exact sockets.once
    · rw [same.tracked, same.fds, same.fdInfo]
      exact sockets.errored
  refine ⟨kept.connections fun ci tracked => ⟨same.fd ci, fun errored => ?_⟩, ?_⟩
  · obtain ⟨i, below, rfl⟩ := tracked
    have old : r.sockets.errored r.conns i = true := by
      rw [SocketTable.errored, ← same.fdInfo]
      exact errored
    have still := received.errored i (by rw [← same.tracked]; exact below)
    rw [old, Bool.true_or] at still
    exact still
  · show r'.sockets.trackedFds ≤ maxFds
    rw [same.tracked]
    exact inv.bounded

theorem PollAction.Spread.of_none {reads : Nat → ReadEnd} (none : ∀ i, i < s.sockets.activeFds → s.fails reads i = false) :
    PollAction.Spread s (.recv reads) := by
  intro i front fails
  rw [none i front] at fails
  cases fails

theorem PollState.Inv.loop {available : Nat} {reads : Nat → ReadEnd} {r : Recv} (inv : s.Inv)
    (looped : recvFrom s.slots reads available s.sockets.trackedFds 0 ⟨s.sockets, s.conns, 0, []⟩ = some r) :
    Recv.Received s.slots reads available ⟨s.sockets, s.conns, 0, []⟩ r 0 ∧ SocketSide.Inv ⟨r.sockets, r.conns⟩ := by
  have received := recvFrom_spec looped inv.side.sockets.apart rfl (fun j low => absurd low (Nat.not_lt_zero j)) (by simp)
  exact ⟨received, SocketSide.Inv.received (r := ⟨s.sockets, s.conns, 0, []⟩) inv.side received⟩

theorem PollState.Inv.attemptRecv {available : Nat} {reads : Nat → ReadEnd} (inv : s.Inv)
    (run : Kinetic.attemptRecv s available reads = some s') : s'.Inv := by
  obtain ⟨r, looped, conns, _, _, ends⟩ := attemptRecv_cases run
  obtain ⟨_, side⟩ := inv.loop looped
  rcases ends with ⟨quiet, sockets, _⟩ | ⟨occured, table, sockets, moved⟩
  · exact ⟨by rw [sockets, conns]; exact side, by rw [sockets]; exact quiet⟩
  · have table_moved := moveErroredSlotsFrom_table moved
    have after := (side.sockets.moveErroredFrom table_moved).1
    have kept : SocketsInv s'.sockets s'.conns := by
      rw [sockets, conns]
      exact ⟨after.inactive, after.pollin, after.fd, after.once, after.errored⟩
    have bounded : s'.sockets.trackedFds ≤ maxFds := by
      rw [sockets]
      show table.trackedFds ≤ maxFds
      rw [moveErroredFrom_tracked table_moved]
      exact side.bounded
    exact ⟨⟨kept, bounded⟩, by rw [sockets]⟩

/-- The sockets that fail in a call are the active ones that have an error behind its loop. -/
theorem PollState.Inv.loop_errored {available : Nat} {batch : Bool} {reads : Nat → ReadEnd} {r : Recv} (inv : s.Inv)
    (clean : s.sockets.Clean s.conns) (phase : s.phase = .commands available batch) (some_left : 0 < available)
    (looped : recvFrom s.slots reads available s.sockets.trackedFds 0 ⟨s.sockets, s.conns, 0, []⟩ = some r) :
    r.sockets.activeFds = s.sockets.activeFds ∧
      ∀ j, j < s.sockets.activeFds → r.sockets.errored r.conns j = s.fails reads j := by
  obtain ⟨received, _⟩ := inv.loop looped
  have few : s.sockets.activeFds ≤ s.sockets.trackedFds := Nat.sub_le _ _
  refine ⟨?_, fun j front => ?_⟩
  · rw [SocketTable.activeFds, received.same.tracked, received.same.inactive, SocketTable.activeFds]
  · have marked : r.sockets.errored r.conns j = (s.sockets.errored s.conns j ||
      (decide (0 ≤ j) && failing s.slots reads available j)) := received.errored j (Nat.lt_of_lt_of_le front few)
    rw [marked, clean j front]
    simp [PollState.fails, phase, some_left]

/-- When a call of `ListenerIO_AttemptRecv` leaves no active socket with an error. -/
theorem PollState.Inv.attemptRecv_clean {available : Nat} {batch : Bool} {reads : Nat → ReadEnd} (inv : s.Inv)
    (clean : s.sockets.Clean s.conns) (phase : s.phase = .commands available batch) (some_left : 0 < available)
    (run : Kinetic.attemptRecv s available reads = some s') :
    s'.sockets.Clean s'.conns ↔ PollAction.Spread s (.recv reads) := by
  obtain ⟨r, looped, conns, _, _, ends⟩ := attemptRecv_cases run
  obtain ⟨received, side⟩ := inv.loop looped
  obtain ⟨active, errored⟩ := inv.loop_errored clean phase some_left looped
  rcases ends with ⟨quiet, sockets, _⟩ | ⟨occured, table, sockets, moved⟩
  · have none (i : Nat) (front : i < s.sockets.activeFds) : s.fails reads i = false := by
      cases fault : s.fails reads i with
      | false => rfl
      | true =>
        have below : i < s.sockets.trackedFds := Nat.lt_of_lt_of_le front (Nat.sub_le _ _)
        have fails : failing s.slots reads available i = true := by simpa [PollState.fails, phase, some_left] using fault
        rw [received.occured.mpr (.inr ⟨i, Nat.zero_le i, below, fails⟩)] at quiet
        cases quiet
    refine ⟨fun _ => .of_none none, fun _ i front => ?_⟩
    rw [sockets, active] at front
    rw [sockets, conns, errored i front, none i front]
  · have own : SocketsInv r.sockets r.conns := side.sockets
    have few : r.sockets.activeFds ≤ r.sockets.trackedFds := Nat.sub_le _ _
    have exactly := moveErroredFrom_clean own (moveErroredSlotsFrom_table moved) (by omega)
      (show r.sockets.activeFds = s.sockets.activeFds - Nat.count (s.fails reads ·) 0 by rw [active, Nat.count_zero]; rfl)
      fun j _ front => errored j (by omega)
    have cleanAfter : s'.sockets.Clean s'.conns ↔ ∀ j, j < table.activeFds → table.errored r.conns j = false := by
      rw [sockets, conns]
      exact Iff.rfl
    rw [cleanAfter, exactly]
    constructor
    · rintro ⟨_, spared⟩ i _ fault room
      exact spared i (Nat.zero_le i) fault room
    · intro spread
      refine ⟨fun j low => absurd low (Nat.not_lt_zero j), fun i _ fault room => ?_⟩
      exact spread i (by omega) fault room

theorem PollState.Inv.recv_clean {reads : Nat → ReadEnd} (inv : s.Inv) (clean : s.sockets.Clean s.conns)
    (run : pollStep s (.recv reads) = some s') : s'.sockets.Clean s'.conns ↔ PollAction.Spread s (.recv reads) := by
  obtain ⟨available, batch, phase, ⟨none_left, rfl⟩ | ⟨some_left, received, attempted, rfl⟩⟩ := pollStep_recv run
  · have none (i : Nat) : s.fails reads i = false := by simp [PollState.fails, phase, none_left]
    exact ⟨fun _ => .of_none fun i _ => none i, fun _ => clean⟩
  · have exactly := inv.attemptRecv_clean clean phase some_left attempted
    exact exactly

theorem PollState.Inv.step {a : PollAction} (inv : s.Inv) (proper : a.Proper s) (run : pollStep s a = some s') : s'.Inv := by
  cases a with
  | poll results pipe =>
    simp only [pollStep] at run
    split at run
    · cases run
      exact ⟨inv.side, inv.cleared⟩
    · cases run
  | add ci info readBuf => exact (inv.add proper run).1
  | remove fd => exact (inv.remove run).1
  | recv reads =>
    obtain ⟨available, batch, phase, ⟨none_left, rfl⟩ | ⟨some_left, received, attempted, rfl⟩⟩ := pollStep_recv run
    · exact ⟨inv.side, inv.cleared⟩
    · have after := inv.attemptRecv attempted
      exact ⟨after.side, after.cleared⟩

theorem PollState.Inv.step_clean {a : PollAction} (inv : s.Inv) (clean : s.sockets.Clean s.conns)
    (met : a.Proper s ∧ a.Spread s) (run : pollStep s a = some s') : s'.sockets.Clean s'.conns := by
  cases a with
  | poll results pipe =>
    simp only [pollStep] at run
    split at run
    · cases run
      exact clean
    · cases run
  | add ci info readBuf => exact (inv.add met.1 run).2 clean
  | remove fd => exact (inv.remove run).2 clean
  | recv reads => exact (inv.recv_clean clean run).mpr met.2

/-- The assertion in the loop of `ListenerIO_AttemptRecv` holds, that `fds` and `fd_info` are in step. -/
theorem recvFrom_enabled {slots : Nat → PollSlot} {reads : Nat → ReadEnd} {available n i : Nat} {r : Recv}
    (fds : ∀ j, j < r.sockets.trackedFds → (r.conns.info (r.sockets.fdInfo j)).fd = (r.sockets.fds j).fd) :
    recvFrom slots reads available n i r ≠ none := by
  induction n generalizing i r with
  | zero => simp [recvFrom]
  | succ n ih =>
    unfold recvFrom
    split
    · rename_i going
      have taken : r.visit slots (reads i) i ≠ none := by
        unfold Recv.visit
        dsimp only
        rw [if_pos (fds i going.1)]
        split <;> simp
      obtain ⟨next, visited⟩ := Option.ne_none_iff_exists'.mp taken
      have same := (Recv.visit_spec visited).same
      rw [visited]
      refine ih fun j below => ?_
      rw [same.fd, same.fdInfo, same.fds]
      exact fds j (by rw [← same.tracked]; exact below)
    · simp

theorem moveErroredSlotsFrom_enabled (inv : SocketsInv t conns) (n id : Nat) (slots : Nat → PollSlot) :
    moveErroredSlotsFrom conns n id t slots ≠ none := by
  induction n generalizing id t slots with
  | zero => simp [moveErroredSlotsFrom]
  | succ n ih =>
    unfold moveErroredSlotsFrom
    split
    · rename_i active
      obtain ⟨next, moved⟩ := Option.ne_none_iff_exists'.mp (inv.moveErrored_enabled active)
      rw [moved]
      exact ih (inv.moveErrored active moved).1 (id + 1) _
    · simp

theorem PollState.Inv.recv_enabled (inv : s.Inv) (behind : s.phase ≠ .polling) (reads : Nat → ReadEnd) :
    pollStep s (.recv reads) ≠ none := by
  cases phase : s.phase with
  | polling => exact absurd phase behind
  | commands available batch =>
    simp only [pollStep, phase]
    split
    · have sockets : SocketsInv s.sockets s.conns := inv.side.sockets
      have looping : recvFrom s.slots reads available s.sockets.trackedFds 0 ⟨s.sockets, s.conns, 0, []⟩ ≠ none :=
        recvFrom_enabled fun j below => (sockets.fd j below).symm
      obtain ⟨r, looped⟩ := Option.ne_none_iff_exists'.mp looping
      obtain ⟨_, side⟩ := inv.loop looped
      obtain ⟨moved, moving⟩ := Option.ne_none_iff_exists'.mp
        (moveErroredSlotsFrom_enabled side.sockets r.sockets.trackedFds 0 s.slots)
      simp only [Kinetic.attemptRecv, looped, Option.bind_eq_bind, Option.bind_some]
      split
      · simp [moving]
      · simp
    · simp

end Clean

theorem PollState.inv_of_reach {conns : Connections} {s : PollState}
    (reach : Reach pollStep (.new conns) (fun s a => a.Proper s) s) : s.Inv :=
  reach.invariant ⟨⟨SocketsInv.new conns, Nat.zero_le _⟩, rfl⟩ fun _ _ _ inv proper run => inv.step proper run

theorem PollState.clean_of_reach {conns : Connections} {s : PollState}
    (reach : Reach pollStep (.new conns) (fun s a => a.Proper s ∧ a.Spread s) s) : s.sockets.Clean s.conns := by
  induction reach with
  | start => exact fun i front => absurd front (Nat.not_lt_zero i)
  | next before met run ih => exact (PollState.inv_of_reach (before.weaken fun _ _ => And.left)).step_clean ih met run

/-- As long as no failing socket is put in the place of another one, the sockets with errors are the inactive ones, and a
call of `ListenerIO_AttemptRecv` keeps it so exactly if it does not do that. -/
theorem errored_settled {conns : Connections} {s : PollState}
    (reach : Reach pollStep (.new conns) (fun s a => a.Proper s ∧ a.Spread s) s) :
    s.Settled ∧ (s.phase ≠ .polling → ∀ reads, ∃ s', pollStep s (.recv reads) = some s' ∧
      (s'.Settled ↔ PollAction.Spread s (.recv reads))) := by
  have inv := PollState.inv_of_reach (reach.weaken fun _ _ => And.left)
  have clean := PollState.clean_of_reach reach
  refine ⟨inv.settled_iff.mpr clean, fun behind reads => ?_⟩
  obtain ⟨s', run⟩ := Option.ne_none_iff_exists'.mp (inv.recv_enabled behind reads)
  have after := inv.step (a := .recv reads) trivial run
  exact ⟨s', run, after.settled_iff.trans (inv.recv_clean clean run)⟩

/-- Two of three sockets hang up in one round, and the last one is put in the place of the first. -/
theorem errored_settled_three : ∃ s, Reach pollStep (.new ⟨fun _ => ⟨0, false, 0, .none, 0⟩, []⟩)
      (fun s a => a.Proper s ∧ a.Spread s) s ∧ s.sockets.entries = [(⟨7, true⟩, 3), (⟨6, false⟩, 2), (⟨5, false⟩, 1)] ∧
    s.Settled := by
  have trace : (exec pollStep (fun s a => decide (a.Proper s ∧ a.Spread s)) (.new ⟨fun _ => ⟨0, false, 0, .none, 0⟩, []⟩)
      [.poll (fun _ => .clear) .commands, .add 1 ⟨5, false, -1, .none, 0⟩ (fun _ => 0),
        .add 2 ⟨6, false, -1, .none, 0⟩ (fun _ => 0), .add 3 ⟨7, false, -1, .none, 0⟩ (fun _ => 0),
        .recv fun _ => .returned, .poll (fun i => ⟨false, false, i < 2, false⟩) .quiet, .recv fun _ => .returned]).map
      (fun s => s.sockets.entries) = some [(⟨7, true⟩, 3), (⟨6, false⟩, 2), (⟨5, false⟩, 1)] := by decide +kernel
  obtain ⟨s, reach, seen⟩ := exists_reach_of_exec trace
  exact ⟨s, reach, seen, (errored_settled reach).1⟩

/-- Both sockets hang up in one round, and the second one stays active. -/
theorem errored_unsettled : ∃ s, Reach pollStep (.new ⟨fun _ => ⟨0, false, 0, .none, 0⟩, []⟩) (fun s a => a.Proper s) s ∧
    s.phase = .polling ∧ ¬ s.Settled := by
  have trace : (exec pollStep (fun s a => decide (a.Proper s)) (.new ⟨fun _ => ⟨0, false, 0, .none, 0⟩, []⟩)
      [.poll (fun _ => .clear) .commands, .add 1 ⟨5, false, -1, .none, 0⟩ (fun _ => 0),
        .add 2 ⟨6, false, -1, .none, 0⟩ (fun _ => 0), .recv fun _ => .returned,
        .poll (fun _ => ⟨false, false, true, false⟩) .quiet, .recv fun _ => .returned]).map
      (fun s => (s.phase, s.sockets.activeFds, s.sockets.trackedFds, s.sockets.errored s.conns 0)) =
        some (.polling, 1, 2, true) := by decide +kernel
  obtain ⟨s, reach, seen⟩ := exists_reach_of_exec trace
  simp only [Prod.mk.injEq] at seen
  obtain ⟨phase, active, tracked, errored⟩ := seen
  refine ⟨s, reach, phase, fun settled => ?_⟩
  have behind := ((settled 0 (by omega)).1 errored).1
  omega

end Kinetic
