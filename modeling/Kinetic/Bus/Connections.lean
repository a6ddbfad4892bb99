import Kinetic.Bus.Statuses
import Kinetic.Bus.Sockets
import Kinetic.Listener.Replies
import Kinetic.Listener.Tracking

namespace Kinetic
open Function (update)
open Transition (Reach exec exists_reach_of_exec)

/-- The connection that a command is to add. -/
def Purpose.conn : Purpose → Option Nat
  | .addSocket ci => some ci
  | _ => none

/-- The connection that a client is registering. -/
def ClientPc.conn : ClientPc → Option Nat
  | .acquire p => p.conn
  | .push p _ _ _ => p.conn
  | .wait p _ _ _ => p.conn
  | _ => none

/-- What the tables see of the connections stays as it is. -/
structure SameConns (s t : BusState) : Prop where
  fdSet : t.fdSet = s.fdSet
  nextConn : t.nextConn = s.nextConn
  freed : t.conns.freed = s.conns.freed
  fd : ∀ ci, (t.conns.info ci).fd = (s.conns.info ci).fd
  error : ∀ ci, (t.conns.info ci).error = (s.conns.info ci).error

/-- What a client step does to the registrations. -/
inductive ConnMove (s t : BusState) (c : Nat) : ClientAction → Prop
  | keeps (a : ClientAction) : SameConns s t → (∀ ci, (t.clients c).conn = some ci → (s.clients c).conn = some ci) →
      ConnMove s t c a
  | registers (fd : Int) (ssl : Bool) : s.clients c = .idle → s.fdSet fd = none →
      t.fdSet = update s.fdSet fd (some s.nextConn) → t.nextConn = s.nextConn + 1 → t.conns.freed = s.conns.freed →
      t.conns.info = update s.conns.info s.nextConn ⟨fd, ssl, -1, .none, 0⟩ → t.listeners = s.listeners →
      t.clients c = .acquire (.addSocket s.nextConn) → ConnMove s t c (.register fd ssl)
  | givesUp (a : ClientAction) (ci : Nat) : (s.clients c).conn = some ci → (t.clients c).conn = none → t.fdSet = s.fdSet →
      t.nextConn = s.nextConn → t.conns.freed = ci :: s.conns.freed → t.conns.info = s.conns.info → ConnMove s t c a
  | removes (fd : Int) (ci l slot serial : Nat) : s.clients c = .wait (.removeSocket fd) l slot serial → s.fdSet fd = some ci →
      (t.clients c).conn = none → t.fdSet = update s.fdSet fd none → t.nextConn = s.nextConn →
      t.conns.freed = ci :: s.conns.freed → t.conns.info = s.conns.info → ConnMove s t c (.onCompletion true)

section Clients
variable {s t : BusState} {c : Nat} {a : ClientAction}

theorem SameConns.refl (s : BusState) : SameConns s s := ⟨rfl, rfl, rfl, fun _ => rfl, fun _ => rfl⟩

theorem SameConns.of_eq (fdSet : t.fdSet = s.fdSet) (nextConn : t.nextConn = s.nextConn) (conns : t.conns = s.conns) :
    SameConns s t :=
  ⟨fdSet, nextConn, by rw [conns], fun _ => by rw [conns], fun _ => by rw [conns]⟩

theorem BusState.sendOn_conn (s : BusState) (c b : Nat) (pc : SendPc) : ((s.sendOn c b pc).clients c).conn = none := by
  cases pc <;> simp [BusState.sendOn, BusState.setClient, BusState.returned, ClientPc.conn, Purpose.conn]

/-- A client that goes on in its send has nothing to do with a registration. -/
theorem ConnMove.of_sendOn {s' : BusState} (b : Nat) (pc : SendPc) (same : SameConns s s') :
    ConnMove s (s'.sendOn c b pc) c a := by
  obtain ⟨fdSet, nextConn, conns⟩ := s'.sendOn_sockets c b pc
  refine .keeps a ⟨fdSet.trans same.fdSet, nextConn.trans same.nextConn, ?_, ?_, ?_⟩ ?_
  · rw [conns]
    exact same.freed
  · rw [conns]
    exact same.fd
  · rw [conns]
    exact same.error
  · intro ci registering
    rw [BusState.sendOn_conn] at registering
    cases registering

theorem ConnMove.of_notSent {s' : BusState} {p : Purpose} (same : SameConns s s') (conns : s'.conns = s.conns)
    (before : (s.clients c).conn = p.conn) : ConnMove s (s'.notSent c p) c a := by
  cases p with
  | hold b start tries =>
    simp only [BusState.notSent]
    split
    · exact .keeps a ⟨same.fdSet, same.nextConn, same.freed, same.fd, same.error⟩ (by simp [BusState.setClient, ClientPc.conn, Purpose.conn])
    · exact .of_sendOn b _ same
  | expect b tries =>
    simp only [BusState.notSent]
    split
    · exact .keeps a ⟨same.fdSet, same.nextConn, same.freed, same.fd, same.error⟩ (by simp [BusState.setClient, ClientPc.conn, Purpose.conn])
    · exact .of_sendOn b _ same
  | addSocket ci =>
    refine .givesUp a ci before (by simp [BusState.notSent, BusState.setClient, ClientPc.conn]) same.fdSet same.nextConn ?_ ?_
    · rw [← conns]
      rfl
    · rw [← conns]
      rfl
  | removeSocket fd =>
    exact .keeps a ⟨same.fdSet, same.nextConn, same.freed, same.fd, same.error⟩ (by simp [BusState.notSent, BusState.setClient, ClientPc.conn])
  | shutdown l =>
    exact .keeps a ⟨same.fdSet, same.nextConn, same.freed, same.fd, same.error⟩ (by simp [BusState.notSent, BusState.setClient, ClientPc.conn])

theorem clientStep_conns (run : clientStep s c a = some t) : ConnMove s t c a := by
  cases clientStep_cases run with
  | refused msg idle => exact .keeps _ (.refl s) fun _ same => same
  | requests msg ci idle registered =>
    refine .keeps _ ⟨rfl, rfl, rfl, fun x => ?_, fun x => ?_⟩ (by simp [BusState.setClient, ClientPc.conn])
    · simp only [Connections.set, Function.update_apply]
      split
      · rename_i here
        rw [here]
      · rfl
    · simp only [Connections.set, Function.update_apply]
      split
      · rename_i here
        rw [here]
      · rfl
  | registers fd ssl idle free =>
    exact .registers fd ssl idle free rfl rfl rfl rfl rfl (by simp [BusState.setClient])
  | releases fd idle => exact .keeps _ (.of_eq rfl rfl rfl) (by simp [BusState.setClient, ClientPc.conn, Purpose.conn])
  | stops l idle => exact .keeps _ (.of_eq rfl rfl rfl) (by simp [BusState.setClient, ClientPc.conn, Purpose.conn])
  | sends b pc pc' e sent => exact .of_sendOn b pc' (.of_eq rfl rfl rfl)
  | delivers b status => exact .keeps _ (.of_eq rfl rfl rfl) (by simp [BusState.returned, BusState.setClient, ClientPc.conn])
  | poolFull b status => exact .keeps _ (.refl s) fun _ same => same
  | noSlot p acquiring => exact .of_notSent (.refl s) rfl (by rw [acquiring]; rfl)
  | takes p slot next acquiring =>
    refine .keeps _ (.of_eq rfl rfl rfl) fun ci registering => ?_
    rw [acquiring]
    simpa [BusState.setClient, ClientPc.conn] using registering
  | commits p l slot serial writing =>
    cases p with
    | expect b tries => exact .keeps _ (.of_eq rfl rfl rfl) (by simp [BusState.pushed, BusState.returned, BusState.setClient, ClientPc.conn])
    | _ =>
      refine .keeps _ (.of_eq rfl rfl rfl) fun ci registering => ?_
      rw [writing]
      simpa [BusState.pushed, BusState.setClient, ClientPc.conn] using registering
  | fails p l slot serial writing => exact .of_notSent (.of_eq rfl rfl rfl) rfl (by rw [writing]; rfl)
  | held b start tries l slot serial waiting => exact .of_sendOn b _ (.of_eq rfl rfl rfl)
  | removed fd ci l slot serial waiting replied present =>
    exact .removes fd ci l slot serial waiting present (by simp [BusState.setClient, ClientPc.conn]) rfl rfl rfl rfl
  | answered p l slot serial waiting => exact .keeps _ (.of_eq rfl rfl rfl) (by simp [BusState.setClient, ClientPc.conn])
  | notHeld b start tries l slot serial waiting => exact .of_sendOn b _ (.refl s)
  | notAdded ci l slot serial waiting =>
    exact .givesUp _ ci (by rw [waiting]; rfl) (by simp [BusState.setClient, ClientPc.conn]) rfl rfl rfl rfl
  | notAnswered p l slot serial waiting => exact .keeps _ (.of_eq rfl rfl rfl) (by simp [BusState.setClient, ClientPc.conn])

end Clients

/-- The tables of the listeners are sound, and every connection in them, in a command or in the hands of a client has been
made by a registration. -/
structure TrackInv (s : BusState) : Prop where
  registered : s.registered
  freed : ∀ ci ∈ s.conns.freed, ci < s.nextConn
  sockets : ∀ l, SocketsInv (s.listeners l).sockets s.conns
  tracked : ∀ l ci, (s.listeners l).sockets.tracks ci → ci < s.nextConn
  written : ∀ l slot ci serial, (s.listeners l).msgs.msgs slot = some ⟨.addSocket ci, serial⟩ → ci < s.nextConn
  clients : ∀ c ci, (s.clients c).conn = some ci → ci < s.nextConn

theorem TrackInv.new (n : Nat) : TrackInv (.new n) := by
  refine ⟨?_, ?_, fun l => .new _, ?_, ?_, ?_⟩
  · intro fd ci present
    cases present
  · intro ci freed
    cases freed
  · rintro l ci ⟨i, below, _⟩
    exact absurd below (Nat.not_lt_zero i)
  · intro l slot ci serial written
    cases written
  · intro c ci registering
    cases registering

section Tracking
variable {s t : BusState}

theorem ConnMove.nextConn_le {c : Nat} {a : ClientAction} (move : ConnMove s t c a) : s.nextConn ≤ t.nextConn := by
  cases move with
  | keeps _ same => exact Nat.le_of_eq same.nextConn.symm
  | registers fd ssl idle free fdSet nextConn => rw [nextConn]; exact Nat.le_succ _
  | givesUp _ ci before after fdSet nextConn => exact Nat.le_of_eq nextConn.symm
  | removes fd ci l slot serial waiting present after fdSet nextConn => exact Nat.le_of_eq nextConn.symm

/-- A client step leaves the connections that exist as the listeners know them. -/
theorem ConnMove.info {c : Nat} {a : ClientAction} (move : ConnMove s t c a) {ci : Nat} (old : ci < s.nextConn) :
    (t.conns.info ci).fd = (s.conns.info ci).fd ∧ (t.conns.info ci).error = (s.conns.info ci).error := by
  cases move with
  | keeps _ same => exact ⟨same.fd ci, same.error ci⟩
  | registers fd ssl idle free fdSet nextConn freed info =>
    rw [info, Function.update_of_ne (Nat.ne_of_lt old)]
    exact ⟨rfl, rfl⟩
  | givesUp _ ci' before after fdSet nextConn freed info => rw [info]; exact ⟨rfl, rfl⟩
  | removes fd ci' l slot serial waiting present after fdSet nextConn freed info => rw [info]; exact ⟨rfl, rfl⟩

theorem Purpose.command_conn {p : Purpose} {ci : Nat} (adds : p.command s = .addSocket ci) : p.conn = some ci := by
  cases p with
  | addSocket ci' =>
    cases adds
    rfl
  | _ => cases adds

theorem clientStep_others {c : Nat} {a : ClientAction} (run : clientStep s c a = some t) {c' : Nat} (other : c' ≠ c) :
    t.clients c' = s.clients c' := by
  obtain ⟨next, clients, _⟩ := clientStep_stage run
  rw [clients, Function.update_of_ne other]

theorem TrackInv.client (inv : TrackInv s) {c : Nat} {a : ClientAction} (run : clientStep s c a = some t) : TrackInv t := by
  have move := clientStep_conns run
  have more := move.nextConn_le
  have sockets (l : Nat) : (t.listeners l).sockets = (s.listeners l).sockets := by
    obtain ⟨msgs, same⟩ := clientStep_listener run l
    rw [same]
  refine ⟨inv.registered.step (show busStep s (.client c a) = some t from run), ?_, ?_, ?_, ?_, ?_⟩
  · intro ci freed
    refine Nat.lt_of_lt_of_le ?_ more
    cases move with
    | keeps _ same => exact inv.freed ci (same.freed ▸ freed)
    | registers fd ssl idle free fdSet nextConn same => exact inv.freed ci (same ▸ freed)
    | givesUp _ ci' before after fdSet nextConn grown =>
      rw [grown] at freed
      rcases List.mem_cons.mp freed with rfl | old
      · exact inv.clients c ci before
      · exact inv.freed ci old
    | removes fd ci' l slot serial waiting present after fdSet nextConn grown =>
      rw [grown] at freed
      rcases List.mem_cons.mp freed with rfl | old
      · exact (inv.registered fd ci present).1
      · exact inv.freed ci old
  · intro l
    rw [sockets l]
    refine (inv.sockets l).connections fun ci tracked => ?_
    obtain ⟨fd, error⟩ := move.info (inv.tracked l ci tracked)
    exact ⟨fd, fun negative => by rw [error]; exact negative⟩
  · intro l ci tracked
    rw [sockets l] at tracked
    exact Nat.lt_of_lt_of_le (inv.tracked l ci tracked) more
  · intro l slot ci serial written
    rcases clientStep_written run written with before | ⟨p, _, acquiring, same, _⟩
    · exact Nat.lt_of_lt_of_le (inv.written l slot ci serial before) more
    · have registering : (s.clients c).conn = some ci := by
        rw [acquiring]
        exact Purpose.command_conn (congrArg Msg.command same).symm
      exact Nat.lt_of_lt_of_le (inv.clients c ci registering) more
  · intro c' ci registering
    by_cases own : c' = c
    · subst own
      cases move with
      | keeps _ same before => exact Nat.lt_of_lt_of_le (inv.clients c' ci (before ci registering)) more
      | registers fd ssl idle free fdSet nextConn freed info listeners client =>
        rw [client] at registering
        cases registering
        rw [nextConn]
        exact Nat.lt_succ_self _
      | givesUp _ ci' before after => rw [after] at registering; cases registering
      | removes fd ci' l slot serial waiting present after => rw [after] at registering; cases registering
    · rw [clientStep_others run own] at registering
      exact Nat.lt_of_lt_of_le (inv.clients c' ci registering) more

/-- The connections after `add_socket`, as the tables know them. -/
theorem Added.info {env : AddEnv} {sockets sockets' : SocketTable} {conns conns' : Connections} {ci : Nat}
    (added : Added env sockets conns ci sockets' conns') (x : Nat) :
    (conns'.info x).fd = (conns.info x).fd ∧ (conns'.info x).error = (conns.info x).error := by
  have primed : ((conns.set ci { conns.info ci with toReadSize := env.nextRead }).info x).fd = (conns.info x).fd ∧
      ((conns.set ci { conns.info ci with toReadSize := env.nextRead }).info x).error = (conns.info x).error := by
    simp only [Connections.set, Function.update_apply]
    split
    · rename_i here
      rw [here]
      exact ⟨rfl, rfl⟩
    · exact ⟨rfl, rfl⟩
  cases added with
  | full _ => exact ⟨rfl, rfl⟩
  | present _ _ _ => exact ⟨rfl, rfl⟩
  | added size _ _ => exact primed
  | notGrown _ _ _ _ => exact primed

theorem Added.freed {env : AddEnv} {sockets sockets' : SocketTable} {conns conns' : Connections} {ci x : Nat}
    (added : Added env sockets conns ci sockets' conns') (freed : x ∈ conns'.freed) : x = ci ∨ x ∈ conns.freed := by
  cases added with
  | full _ => exact .inr freed
  | present _ _ _ => exact List.mem_cons.mp freed
  | added size _ _ => exact .inr freed
  | notGrown _ _ _ _ => exact List.mem_cons.mp freed

theorem Added.sockets {env : AddEnv} {sockets sockets' : SocketTable} {conns conns' : Connections} {ci : Nat}
    (added : Added env sockets conns ci sockets' conns') (inv : SocketsInv sockets conns) :
    SocketsInv sockets' conns' ∧ (∀ x, sockets.tracks x → sockets'.tracks x) ∧
      ∀ x, sockets'.tracks x → sockets.tracks x ∨ x = ci := by
  have info := added.info
  have kept {table : SocketTable} (before : SocketsInv table conns) : SocketsInv table conns' :=
    before.connections fun x _ => ⟨(info x).1, fun negative => by rw [(info x).2]; exact negative⟩
  cases added with
  | full _ => exact ⟨inv, fun _ tracked => tracked, fun _ tracked => .inl tracked⟩
  | present _ _ _ => exact ⟨kept inv, fun _ tracked => tracked, fun _ tracked => .inl tracked⟩
  | added size room absent =>
    have tracked := kept (inv.track absent rfl)
    refine ⟨⟨tracked.inactive, tracked.pollin, tracked.fd, tracked.once, tracked.errored⟩, fun x before => ?_, fun x after => ?_⟩
    · exact (SocketTable.track_tracks inv.inactive).mpr (.inl before)
    · exact (SocketTable.track_tracks inv.inactive).mp after
  | notGrown room absent _ _ =>
    refine ⟨kept (inv.track absent rfl), fun x before => ?_, fun x after => ?_⟩
    · exact (SocketTable.track_tracks inv.inactive).mpr (.inl before)
    · exact (SocketTable.track_tracks inv.inactive).mp after

/-- What a listener step does to its table and to the connections. -/
inductive TableMove (l : Listener) (conns : Connections) (l' : Listener) (conns' : Connections) : ListenerAction → Prop
  | adds (env : CommandEnv) (slot : Nat) (rest : List Nat) (ci serial : Nat) : l.msgs.commitPipe = slot :: rest →
      l.msgs.msgs slot = some ⟨.addSocket ci, serial⟩ → Added env.add l.sockets conns ci l'.sockets conns' →
      TableMove l conns l' conns' (.handle env)
  | removes (env : CommandEnv) (slot : Nat) (rest : List Nat) (fd : Int) (serial : Nat) : l.msgs.commitPipe = slot :: rest →
      l.msgs.msgs slot = some ⟨.removeSocket fd, serial⟩ → removeSocket l.sockets fd = some l'.sockets → conns' = conns →
      TableMove l conns l' conns' (.handle env)
  | keeps (a : ListenerAction) : (SocketsInv l.sockets conns → SocketsInv l'.sockets conns) →
      (SocketsInv l.sockets conns → ∀ x, l'.sockets.tracks x ↔ l.sockets.tracks x) → conns'.freed = conns.freed →
      (∀ x, (conns'.info x).fd = (conns.info x).fd ∧
        ((conns.info x).error.negative = true → (conns'.info x).error.negative = true)) →
      TableMove l conns l' conns' a

section Listeners
variable {l l' : Listener} {h h' : Heap} {conns conns' : Connections} {a : ListenerAction}

theorem TableMove.of_same (sockets : l'.sockets = l.sockets) (same : conns' = conns) : TableMove l conns l' conns' a := by
  subst same
  exact .keeps a (fun inv => by rw [sockets]; exact inv) (fun _ x => by rw [sockets]) rfl fun x => ⟨rfl, fun error => error⟩

theorem listenerStep_table (run : listenerStep l h conns a = some (l', h', conns')) : TableMove l conns l' conns' a := by
  cases listenerStep_cases run with
  | adds env slot rest ci serial sockets conns' atLoop pipe written added =>
    exact .adds env slot rest ci serial pipe written (addSocket_cases added)
  | removes env slot rest fd serial sockets atLoop pipe written removed =>
    exact .removes env slot rest fd serial pipe written removed rfl
  | errs i err atLoop below negative =>
    refine .keeps _ (fun inv => ?_) (fun _ x => Iff.rfl) rfl fun x => ?_
    · exact ⟨inv.inactive, inv.pollin, inv.fd, inv.once, inv.errored⟩
    · simp only [Connections.set, Function.update_apply]
      split
      · rename_i here
        rw [here]
        exact ⟨rfl, fun _ => negative⟩
      · exact ⟨rfl, fun error => error⟩
  | movesErrored sockets atLoop moved =>
    exact .keeps _ (fun inv => (inv.moveErroredActiveSocketsToEnd moved).1)
      (fun inv => (inv.moveErroredActiveSocketsToEnd moved).2) rfl fun x => ⟨rfl, fun error => error⟩
  | _ => exact .of_same rfl rfl

theorem TableMove.info (move : TableMove l conns l' conns' a) (x : Nat) :
    (conns'.info x).fd = (conns.info x).fd ∧ ((conns.info x).error.negative = true → (conns'.info x).error.negative = true) := by
  cases move with
  | adds env slot rest ci serial pipe written added =>
    obtain ⟨fd, error⟩ := added.info x
    exact ⟨fd, fun negative => by rw [error]; exact negative⟩
  | removes env slot rest fd serial pipe written removed same =>
    rw [same]
    exact ⟨rfl, fun error => error⟩
  | keeps _ _ _ _ info => exact info x

theorem TableMove.sockets (move : TableMove l conns l' conns' a) (inv : SocketsInv l.sockets conns) :
    SocketsInv l'.sockets conns' := by
  cases move with
  | adds env slot rest ci serial pipe written added => exact (added.sockets inv).1
  | removes env slot rest fd serial pipe written removed same => rw [same]; exact (inv.removeSocket removed).1
  | keeps _ sockets _ _ info => exact (sockets inv).connections fun x _ => info x

/-- A connection that is freed after a step was so before, or was to be added. -/
theorem TableMove.freed (move : TableMove l conns l' conns' a) {x : Nat} (freed : x ∈ conns'.freed) :
    x ∈ conns.freed ∨ ∃ slot serial, l.msgs.msgs slot = some ⟨.addSocket x, serial⟩ := by
  cases move with
  | adds env slot rest ci serial pipe written added =>
    rcases added.freed freed with rfl | old
    · exact .inr ⟨slot, serial, written⟩
    · exact .inl old
  | removes env slot rest fd serial pipe written removed same => rw [same] at freed; exact .inl freed
  | keeps _ _ _ same _ => rw [same] at freed; exact .inl freed

/-- A connection that is tracked after a step was so before, or has just been added. -/
theorem TableMove.origin (move : TableMove l conns l' conns' a) (inv : SocketsInv l.sockets conns) {x : Nat}
    (tracked : l'.sockets.tracks x) :
    l.sockets.tracks x ∨ ∃ slot serial, l.msgs.msgs slot = some ⟨.addSocket x, serial⟩ := by
  cases move with
  | adds env slot rest ci serial pipe written added =>
    rcases (added.sockets inv).2.2 x tracked with before | rfl
    · exact .inl before
    · exact .inr ⟨slot, serial, written⟩
  | removes env slot rest fd serial pipe written removed same =>
    exact .inl (((inv.removeSocket removed).2 x).mp tracked).1
  | keeps _ _ same _ _ => exact .inl ((same inv x).mp tracked)

end Listeners

theorem TrackInv.listener (inv : TrackInv s) {l : Nat} {a : ListenerAction} {listener : Listener} {heap : Heap}
    {conns : Connections} (run : listenerStep (s.listeners l) s.heap s.conns a = some (listener, heap, conns)) :
    TrackInv { s with listeners := update s.listeners l listener, heap := heap, conns := conns } := by
  have move := listenerStep_table run
  refine ⟨?_, ?_, ?_, ?_, ?_, inv.clients⟩
  · intro fd ci present
    obtain ⟨old, same⟩ := inv.registered fd ci present
    exact ⟨old, (move.info ci).1.trans same⟩
  · intro ci freed
    rcases move.freed freed with old | ⟨slot, serial, written⟩
    · exact inv.freed ci old
    · exact inv.written l slot ci serial written
  · intro l'
    by_cases here : l' = l
    · simp only [here, Function.update_self]
      exact move.sockets (inv.sockets l)
    · simp only [Function.update_of_ne here]
      exact (inv.sockets l').connections fun x _ => move.info x
  · intro l' ci tracked
    by_cases here : l' = l
    · simp only [here, Function.update_self] at tracked
      rcases move.origin (inv.sockets l) tracked with before | ⟨slot, serial, written⟩
      · exact inv.tracked l ci before
      · exact inv.written l slot ci serial written
    · simp only [Function.update_of_ne here] at tracked
      exact inv.tracked l' ci tracked
  · intro l' slot ci serial written
    by_cases here : l' = l
    · simp only [here, Function.update_self] at written
      exact inv.written l slot ci serial (listenerStep_written run written)
    · simp only [Function.update_of_ne here] at written
      exact inv.written l' slot ci serial written

theorem TrackInv.step (inv : TrackInv s) {label : BusLabel} (taken : busStep s label = some t) : TrackInv t := by
  cases label with
  | client c a => exact inv.client taken
  | listener l a =>
    obtain ⟨⟨listener, heap, conns⟩, moved, run⟩ := Option.bind_eq_some_iff.mp taken
    cases run
    exact inv.listener moved
  | run k =>
    obtain ⟨_, _, rfl⟩ := busStep_run taken
    exact ⟨inv.registered, inv.freed, inv.sockets, inv.tracked, inv.written, inv.clients⟩

theorem track_invariant {n : Nat} {ok : BusState → BusLabel → Prop} (reach : Reach busStep (.new n) ok s) : TrackInv s :=
  reach.invariant (.new n) fun _ _ _ inv _ taken => inv.step taken

end Tracking

end Kinetic
