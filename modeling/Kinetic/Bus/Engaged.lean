import Kinetic.Bus.Registered

namespace Kinetic
open Function (update)
open Transition (Reach)

/-- What a client wants a listener to do with a socket. -/
inductive SocketOp
  | add (ci : Nat)
  | remove (fd : Int)
  deriving DecidableEq

def Purpose.socketOp : Purpose → Option SocketOp
  | .addSocket ci => some (.add ci)
  | .removeSocket fd => some (.remove fd)
  | _ => none

def Command.socketOp : Command → Option SocketOp
  | .addSocket ci => some (.add ci)
  | .removeSocket fd => some (.remove fd)
  | _ => none

def ClientPc.socketOp : ClientPc → Option SocketOp
  | .acquire p => p.socketOp
  | .push p _ _ _ => p.socketOp
  | .wait p _ _ _ => p.socketOp
  | _ => none

/-- The operation is on the socket with that number. -/
def SocketOp.on (s : BusState) (fd : Int) : SocketOp → Prop
  | .add ci => (s.conns.info ci).fd = fd
  | .remove fd' => fd' = fd

/-- The operation is that of a client, or of a committed command. -/
inductive BusState.Underway (s : BusState) (op : SocketOp) : Prop
  | client (c : Nat) : (s.clients c).socketOp = some op → Underway s op
  | queued (l slot : Nat) (msg : Msg) : (s.listeners l).msgs.queued slot = some msg → msg.command.socketOp = some op → Underway s op

/-- Something of the socket is left in the bus: an entry in the hash table, an operation under way or a tracked connection. -/
inductive BusState.Engaged (s : BusState) (fd : Int) : Prop
  | listed (ci : Nat) : s.fdSet fd = some ci → Engaged s fd
  | underway (op : SocketOp) : s.Underway op → op.on s fd → Engaged s fd
  | tracked (l ci : Nat) : (s.listeners l).sockets.tracks ci → (s.conns.info ci).fd = fd → Engaged s fd

/-- A client that is writing a command has the command of its purpose in its slot. -/
def BusState.pushesOwn (s : BusState) : Prop :=
  ∀ c p l slot serial msg, s.clients c = .push p l slot serial → (s.listeners l).msgs.msgs slot = some msg →
    msg.command.socketOp = p.socketOp

theorem pushesOwn_new (n : Nat) : (BusState.new n).pushesOwn := by
  intro c p l slot serial msg writing
  cases writing

theorem not_underway_new (n : Nat) (op : SocketOp) : ¬ (BusState.new n).Underway op := by
  intro underway
  cases underway with
  | client c operates => cases operates
  | queued l slot msg queued => cases queued

theorem unengaged_new (n : Nat) (fd : Int) : ¬ (BusState.new n).Engaged fd := by
  rintro (⟨ci, present⟩ | ⟨op, underway, _⟩ | ⟨l, ci, tracked, _⟩)
  · cases present
  · exact not_underway_new n op underway
  · obtain ⟨i, below, _⟩ := tracked
    exact absurd below (Nat.not_lt_zero i)

section Steps
variable {s t : BusState} {c : Nat} {a : ClientAction} {label : BusLabel}

theorem Purpose.command_socketOp (p : Purpose) (s : BusState) : (p.command s).socketOp = p.socketOp := by
  cases p <;> rfl

theorem BusState.pushesOwn.step (inv : s.pushesOwn) (slots : SlotInv s) (taken : busStep s label = some t) : t.pushesOwn := by
  intro d p l slot serial msg writing written
  cases label with
  | client c a =>
    by_cases own : d = c
    · subst own
      rw [clientStep_writes taken writing] at written
      cases Option.some.inj written
      exact p.command_socketOp s
    · rw [clientStep_others taken own] at writing
      rw [clientStep_kept slots taken own writing] at written
      exact inv d p l slot serial msg writing written
  | listener l' a =>
    obtain ⟨⟨listener, heap, conns⟩, run, same⟩ := Option.bind_eq_some_iff.mp taken
    cases same
    refine inv d p l slot serial msg writing ?_
    by_cases here : l = l'
    · subst here
      simp only [Function.update_self] at written
      rw [(listenerStep_move run).kept (slots.held d p l slot serial writing)] at written
      exact written
    · simp only [Function.update_of_ne here] at written
      exact written
  | run k =>
    obtain ⟨_, _, rfl⟩ := busStep_run taken
    exact inv d p l slot serial msg writing written

theorem BusState.sendOn_socketOp (s : BusState) (c b : Nat) (pc : SendPc) : ((s.sendOn c b pc).clients c).socketOp = none := by
  cases pc <;> simp [BusState.sendOn, BusState.setClient, BusState.returned, ClientPc.socketOp, Purpose.socketOp]

theorem BusState.notSent_socketOp (s : BusState) (c : Nat) (p : Purpose) : ((s.notSent c p).clients c).socketOp = none := by
  cases p with
  | hold b start tries =>
    simp only [BusState.notSent]
    split
    · simp [BusState.setClient, ClientPc.socketOp, Purpose.socketOp]
    · exact s.sendOn_socketOp c b _
  | expect b tries =>
    simp only [BusState.notSent]
    split
    · simp [BusState.setClient, ClientPc.socketOp, Purpose.socketOp]
    · exact s.sendOn_socketOp c b _
  | _ => simp [BusState.notSent, BusState.setClient, ClientPc.socketOp]

/-- A client has the operation it had, or begins to register or to release a socket. -/
theorem clientStep_socketOp (run : clientStep s c a = some t) {op : SocketOp} (operates : (t.clients c).socketOp = some op) :
    (s.clients c).socketOp = some op ∨ (∃ fd ssl, a = .register fd ssl ∧ op = .add s.nextConn ∧ (t.conns.info s.nextConn).fd = fd) ∨
      ∃ fd, a = .release fd ∧ op = .remove fd := by
  have without (none : (t.clients c).socketOp = none) : False := by
    rw [none] at operates
    cases operates
  cases clientStep_cases run with
  | refused msg idle => exact .inl operates
  | poolFull b status sending => exact .inl operates
  | registers fd ssl idle free =>
    simp only [BusState.setClient, Function.update_self, ClientPc.socketOp, Purpose.socketOp, Option.some.injEq] at operates
    exact .inr (.inl ⟨fd, ssl, rfl, operates.symm, by simp [Connections.set]⟩)
  | releases fd idle =>
    simp only [BusState.setClient, Function.update_self, ClientPc.socketOp, Purpose.socketOp, Option.some.injEq] at operates
    exact .inr (.inr ⟨fd, rfl, operates.symm⟩)
  | takes p slot next acquiring =>
    simp only [BusState.setClient, Function.update_self, ClientPc.socketOp] at operates
    rw [acquiring]
    exact .inl operates
  | commits p l slot serial writing =>
    rw [writing]
    cases p with
    | expect b tries => exact (without (by simp [BusState.pushed, BusState.returned, BusState.setClient, ClientPc.socketOp])).elim
    | _ =>
      simp only [BusState.pushed, BusState.setClient, Function.update_self, ClientPc.socketOp] at operates
      exact .inl operates
  | sends b pc pc' e sent => exact (without (BusState.sendOn_socketOp _ c b pc')).elim
  | noSlot p acquiring => exact (without (BusState.notSent_socketOp _ c p)).elim
  | fails p l slot serial writing => exact (without (BusState.notSent_socketOp _ c p)).elim
  | held b start tries l slot serial waiting => exact (without (BusState.sendOn_socketOp _ c b _)).elim
  | notHeld b start tries l slot serial waiting => exact (without (BusState.sendOn_socketOp _ c b _)).elim
  | _ => exact (without (by simp [BusState.setClient, BusState.returned, ClientPc.socketOp, Purpose.socketOp])).elim

/-- An operation that is under way after a step was so before, or has just been begun. -/
theorem busStep_underway (slots : SlotInv s) (pushes : s.pushesOwn) (taken : busStep s label = some t) {op : SocketOp}
    (underway : t.Underway op) :
    s.Underway op ∨ (∃ c fd ssl, label = .client c (.register fd ssl) ∧ op = .add s.nextConn ∧ (t.conns.info s.nextConn).fd = fd) ∨
      ∃ c fd, label = .client c (.release fd) ∧ op = .remove fd := by
  cases label with
  | client c a =>
    cases underway with
    | client d operates =>
      by_cases own : d = c
      · subst own
        rcases clientStep_socketOp taken operates with before | ⟨fd, ssl, rfl, begun⟩ | ⟨fd, rfl, begun⟩
        · exact .inl (.client d before)
        · exact .inr (.inl ⟨d, fd, ssl, rfl, begun⟩)
        · exact .inr (.inr ⟨d, fd, rfl, begun⟩)
      · rw [clientStep_others taken own] at operates
        exact .inl (.client d operates)
    | queued l slot msg queued operates =>
      cases clientStep_queue slots taken with
      | keeps _ same =>
        rw [same] at queued
        exact .inl (.queued l slot msg queued operates)
      | commits p l' slot' serial command writing _ moved written =>
        rw [moved] at queued
        split at queued
        · cases queued
          refine .inl (.client c ?_)
          rw [writing]
          exact (pushes c p l' slot' serial _ writing written).symm.trans operates
        · exact .inl (.queued l slot msg queued operates)
  | listener l a =>
    obtain ⟨⟨listener, heap, conns⟩, run, same⟩ := Option.bind_eq_some_iff.mp taken
    cases same
    cases underway with
    | client d operates => exact .inl (.client d operates)
    | queued l' slot msg queued operates =>
      rcases queued_listened slots run l' slot with same | ⟨none, _⟩
      · refine .inl (.queued l' slot msg ?_ operates)
        rw [← same]
        exact queued
      · have gone : ((s.listened l listener heap conns).listeners l').msgs.queued slot = some msg := queued
        rw [none] at gone
        cases gone
  | run k =>
    obtain ⟨_, _, rfl⟩ := busStep_run taken
    cases underway with
    | client d operates => exact .inl (.client d operates)
    | queued l slot msg queued operates => exact .inl (.queued l slot msg queued operates)

theorem ClientPc.socketOp_of_conn {pc : ClientPc} {ci : Nat} (registering : pc.conn = some ci) : pc.socketOp = some (.add ci) := by
  cases pc with
  | acquire p => cases p <;> cases registering; rfl
  | push p l slot serial => cases p <;> cases registering; rfl
  | wait p l slot serial => cases p <;> cases registering; rfl
  | _ => cases registering

theorem ClientPc.conn_of_socketOp {pc : ClientPc} {ci : Nat} (operates : pc.socketOp = some (.add ci)) : pc.conn = some ci := by
  cases pc with
  | acquire p => cases p <;> cases operates; rfl
  | push p l slot serial => cases p <;> cases operates; rfl
  | wait p l slot serial => cases p <;> cases operates; rfl
  | _ => cases operates

/-- The connection of an operation under way has been made. -/
theorem TrackInv.underway_lt (track : TrackInv s) {ci : Nat} (underway : s.Underway (.add ci)) : ci < s.nextConn := by
  cases underway with
  | client c operates => exact track.clients c ci (ClientPc.conn_of_socketOp operates)
  | queued l slot msg queued operates =>
    obtain ⟨command, serial⟩ := msg
    cases command with
    | addSocket ci' =>
      cases operates
      exact track.written l slot ci serial (MsgTable.written_of_queued queued)
    | _ => cases operates

/-- The command that a listener is about to execute is under way. -/
theorem underway_of_head {l slot : Nat} {rest : List Nat} {msg : Msg} {op : SocketOp}
    (pipe : (s.listeners l).msgs.commitPipe = slot :: rest) (written : (s.listeners l).msgs.msgs slot = some msg)
    (operates : msg.command.socketOp = some op) : s.Underway op :=
  .queued l slot msg (MsgTable.queued_head pipe written) operates

/-- A socket of which nothing is left in the bus gets into it by a registration or a release only. -/
theorem busStep_engaged (slots : SlotInv s) (track : TrackInv s) (pushes : s.pushesOwn) (taken : busStep s label = some t)
    {fd : Int} (engaged : t.Engaged fd) :
    s.Engaged fd ∨ (∃ c ssl, label = .client c (.register fd ssl)) ∨ ∃ c, label = .client c (.release fd) := by
  cases engaged with
  | listed ci present =>
    cases label with
    | client c a =>
      cases clientStep_conns taken with
      | keeps _ same => rw [same.fdSet] at present; exact .inl (.listed ci present)
      | registers fd' ssl idle free fdSet =>
        by_cases here : fd = fd'
        · subst here
          exact .inr (.inl ⟨c, ssl, rfl⟩)
        · rw [fdSet, Function.update_of_ne here] at present
          exact .inl (.listed ci present)
      | givesUp _ ci' before after fdSet => rw [fdSet] at present; exact .inl (.listed ci present)
      | removes fd' ci' l slot serial waiting removed after fdSet =>
        rw [fdSet, Function.update_apply] at present
        split at present
        · cases present
        · exact .inl (.listed ci present)
    | listener l a =>
      obtain ⟨_, _, same⟩ := Option.bind_eq_some_iff.mp taken
      cases same
      exact .inl (.listed ci present)
    | run k =>
      obtain ⟨_, _, rfl⟩ := busStep_run taken
      exact .inl (.listed ci present)
  | underway op underway on =>
    rcases busStep_underway slots pushes taken underway with before | ⟨c, fd', ssl, begun, rfl, made⟩ | ⟨c, fd', begun, rfl⟩
    · refine .inl (.underway op before ?_)
      cases op with
      | add ci =>
        rw [SocketOp.on, ← (busStep_fd taken (track.underway_lt before)).1]
        exact on
      | remove fd' => exact on
    · have same : fd' = fd := made.symm.trans on
      subst same
      exact .inr (.inl ⟨c, ssl, begun⟩)
    · have same : fd' = fd := on
      subst same
      exact .inr (.inr ⟨c, begun⟩)
  | tracked l ci tracked socket =>
    cases label with
    | client c a =>
      obtain ⟨msgs, same⟩ := clientStep_listener taken l
      rw [same] at tracked
      rw [(busStep_fd taken (track.tracked l ci tracked)).1] at socket
      exact .inl (.tracked l ci tracked socket)
    | listener l' a =>
      obtain ⟨⟨listener, heap, conns⟩, run, same⟩ := Option.bind_eq_some_iff.mp taken
      cases same
      have move := listenerStep_table run
      have before : (s.conns.info ci).fd = fd := (move.info ci).1.symm.trans socket
      by_cases here : l = l'
      · subst here
        simp only [Function.update_self] at tracked
        cases move with
        | adds env slot rest ci' serial pipe written added =>
          rcases (added.sockets (track.sockets l)).2.2 ci tracked with old | rfl
          · exact .inl (.tracked l ci old before)
          · exact .inl (.underway (.add ci) (underway_of_head pipe written rfl) before)
        | removes env slot rest fd' serial pipe written removed same =>
          exact .inl (.tracked l ci ((((track.sockets l).removeSocket removed).2 ci).mp tracked).1 before)
        | keeps _ _ same _ _ => exact .inl (.tracked l ci ((same (track.sockets l) ci).mp tracked) before)
      · simp only [Function.update_of_ne here] at tracked
        exact .inl (.tracked l ci tracked before)
    | run k =>
      obtain ⟨_, _, rfl⟩ := busStep_run taken
      exact .inl (.tracked l ci tracked socket)

end Steps

/-- The connection is in the hash table, is tracked, and nobody is about to add it. -/
structure BusState.Settled (s : BusState) (ci : Nat) : Prop where
  published : s.published ci
  added : ¬ s.Underway (.add ci)
  tracked : (s.listeners (s.listenerIdOfSocket (s.conns.info ci).fd)).sockets.tracks ci

section Settled
variable {s t : BusState} {ci : Nat} {label : BusLabel}

theorem BusState.Settled.client (settled : s.Settled ci) (track : TrackInv s)
    (unreleased : ¬ s.Underway (.remove (s.conns.info ci).fd)) {c : Nat} {a : ClientAction}
    (run : clientStep s c a = some t) : t.published ci := by
  obtain ⟨present, notFreed⟩ := settled.published
  have move := clientStep_conns run
  have info := (move.info (track.registered _ ci present).1).1
  have other {fd' : Int} {l slot serial : Nat} (waiting : s.clients c = .wait (.removeSocket fd') l slot serial) :
      (s.conns.info ci).fd ≠ fd' := by
    rintro rfl
    exact unreleased (.client c (by rw [waiting]; rfl))
  refine ⟨?_, ?_⟩
  · rw [info]
    cases move with
    | keeps _ same => rw [same.fdSet]; exact present
    | registers fd' ssl idle free fdSet =>
      have distinct : (s.conns.info ci).fd ≠ fd' := by
        rintro rfl
        rw [present] at free
        cases free
      rw [fdSet, Function.update_of_ne distinct]
      exact present
    | givesUp _ ci' before after fdSet => rw [fdSet]; exact present
    | removes fd' ci' l slot serial waiting removed after fdSet =>
      rw [fdSet, Function.update_of_ne (other waiting)]
      exact present
  · cases move with
    | keeps _ same => rw [same.freed]; exact notFreed
    | registers fd' ssl idle free fdSet nextConn freed => rw [freed]; exact notFreed
    | givesUp _ ci' before after fdSet nextConn freed =>
      rw [freed, List.mem_cons, not_or]
      refine ⟨?_, notFreed⟩
      rintro rfl
      exact settled.added (.client c (ClientPc.socketOp_of_conn before))
    | removes fd' ci' l slot serial waiting removed after fdSet nextConn freed =>
      rw [freed, List.mem_cons, not_or]
      refine ⟨?_, notFreed⟩
      rintro rfl
      exact other waiting (track.registered fd' ci removed).2

/-- A settled connection stays so unless its socket is released. -/
theorem BusState.Settled.step (settled : s.Settled ci) (slots : SlotInv s) (track : TrackInv s) (pushes : s.pushesOwn)
    (unreleased : ¬ s.Underway (.remove (s.conns.info ci).fd)) (taken : busStep s label = some t) : t.Settled ci := by
  have old := (track.registered _ ci settled.published.1).1
  have added : ¬ t.Underway (.add ci) := by
    intro underway
    rcases busStep_underway slots pushes taken underway with before | ⟨_, _, _, _, new, _⟩ | ⟨_, _, _, new⟩
    · exact settled.added before
    · cases new
      exact Nat.lt_irrefl _ old
    · cases new
  cases label with
  | client c a =>
    refine ⟨settled.client track unreleased taken, added, ?_⟩
    rw [(busStep_fd taken old).1, BusState.listenerIdOfSocket, clientStep_listenerCount taken]
    obtain ⟨msgs, same⟩ := clientStep_listener taken (s.listenerIdOfSocket (s.conns.info ci).fd)
    rw [BusState.listenerIdOfSocket] at same
    rw [same]
    exact settled.tracked
  | listener l a =>
    obtain ⟨⟨listener, heap, conns⟩, run, same⟩ := Option.bind_eq_some_iff.mp taken
    cases same
    have move := listenerStep_table run
    have info := (move.info ci).1
    obtain ⟨present, notFreed⟩ := settled.published
    refine ⟨⟨?_, ?_⟩, added, ?_⟩
    · rw [info]
      exact present
    · intro freed
      cases move with
      | adds env slot rest ci' serial pipe written gone =>
        rcases gone.freed freed with rfl | before
        · exact settled.added (underway_of_head pipe written rfl)
        · exact notFreed before
      | removes env slot rest fd' serial pipe written removed same => rw [same] at freed; exact notFreed freed
      | keeps _ _ _ same _ => rw [same] at freed; exact notFreed freed
    · rw [info]
      have tracked := settled.tracked
      show (update s.listeners l listener (s.listenerIdOfSocket (s.conns.info ci).fd)).sockets.tracks ci
      by_cases here : s.listenerIdOfSocket (s.conns.info ci).fd = l
      · rw [here] at tracked ⊢
        rw [Function.update_self]
        cases move with
        | adds env slot rest ci' serial pipe written grown => exact (grown.sockets (track.sockets l)).2.1 ci tracked
        | removes env slot rest fd' serial pipe written removed same =>
          refine (((track.sockets l).removeSocket removed).2 ci).mpr ⟨tracked, ?_⟩
          rintro rfl
          exact unreleased (underway_of_head pipe written rfl)
        | keeps _ _ same _ _ => exact (same (track.sockets l) ci).mpr tracked
      · rw [Function.update_of_ne here]
        exact tracked
  | run k =>
    obtain ⟨_, _, rfl⟩ := busStep_run taken
    exact ⟨settled.published, added, settled.tracked⟩

end Settled

/-- A step of a client below `m`, of the first listener or of the pool. -/
def BusLabel.confined (m : Nat) : BusLabel → Bool
  | .client c _ => c < m
  | .listener l _ => l = 0
  | .run _ => true

/-- A bus with one listener, whose clients from `m` on have never been used. What is asked about sockets is asked of the first
listener. -/
structure BusState.Confined (s : BusState) (m : Nat) : Prop where
  count : s.listenerCount = 1
  idle : ∀ c, m ≤ c → s.clients c = .idle
  asks : ∀ c p l slot serial, s.clients c = .push p l slot serial → p.socketOp ≠ none → l = 0
  queues : ∀ l slot msg, (s.listeners l).msgs.queued slot = some msg → msg.command.socketOp ≠ none → l = 0
  tracks : ∀ l ci, (s.listeners l).sockets.tracks ci → l = 0

theorem BusState.Confined.new (m : Nat) : (BusState.new 1).Confined m := by
  refine ⟨rfl, fun _ _ => rfl, ?_, ?_, ?_⟩
  · intro c p l slot serial writing
    cases writing
  · intro l slot msg queued
    cases queued
  · rintro l ci ⟨i, below, _⟩
    exact absurd below (Nat.not_lt_zero i)

section Confined
variable {s t : BusState} {m : Nat} {label : BusLabel}

/-- A client writes its command for the listener of its purpose. -/
theorem clientStep_writes_to {c : Nat} {a : ClientAction} (run : clientStep s c a = some t) {p : Purpose} {l slot serial : Nat}
    (writing : t.clients c = .push p l slot serial) : l = p.listener s := by
  obtain ⟨rfl, _, _⟩ := clientStep_push run writing
  cases clientStep_cases run with
  | noSlot p' =>
    obtain ⟨pc, clients, alone, _⟩ := (s.notSent_continues c p').client
    rw [clients, Function.update_self] at writing
    exact absurd writing (ClientPc.alone_not_push alone p l slot serial)
  | takes p' slot' next acquiring =>
    simp only [BusState.setClient, Function.update_self, ClientPc.push.injEq] at writing
    obtain ⟨rfl, rfl, rfl, rfl⟩ := writing
    rfl

theorem BusState.Confined.client (confined : s.Confined m) (slots : SlotInv s) (pushes : s.pushesOwn) {c : Nat} {a : ClientAction}
    (low : c < m) (run : clientStep s c a = some t) : t.Confined m := by
  refine ⟨(clientStep_listenerCount run).trans confined.count, ?_, ?_, ?_, ?_⟩
  · intro d high
    rw [clientStep_others run (by omega)]
    exact confined.idle d high
  · intro d p l slot serial writing asks
    by_cases own : d = c
    · subst own
      rw [clientStep_writes_to run writing]
      cases p with
      | addSocket ci => simp [Purpose.listener, BusState.listenerIdOfSocket, confined.count, Nat.mod_one]
      | removeSocket fd => simp [Purpose.listener, BusState.listenerIdOfSocket, confined.count, Nat.mod_one]
      | _ => exact absurd rfl asks
    · rw [clientStep_others run own] at writing
      exact confined.asks d p l slot serial writing asks
  · intro l slot msg queued asks
    cases clientStep_queue slots run with
    | keeps _ same =>
      rw [same] at queued
      exact confined.queues l slot msg queued asks
    | commits p l' slot' serial command writing _ moved written =>
      rw [moved] at queued
      split at queued
      · rename_i here
        cases queued
        rw [here.1]
        refine confined.asks c p l' slot' serial writing ?_
        rw [← pushes c p l' slot' serial _ writing written]
        exact asks
      · exact confined.queues l slot msg queued asks
  · intro l ci tracked
    obtain ⟨msgs, same⟩ := clientStep_listener run l
    rw [same] at tracked
    exact confined.tracks l ci tracked

theorem BusState.Confined.step (confined : s.Confined m) (slots : SlotInv s) (pushes : s.pushesOwn)
    (within : label.confined m = true) (run : busStep s label = some t) : t.Confined m := by
  cases label with
  | client c a => exact confined.client slots pushes (of_decide_eq_true within) run
  | listener l a =>
    have first : l = 0 := of_decide_eq_true within
    obtain ⟨⟨listener, heap, conns⟩, _, same⟩ := Option.bind_eq_some_iff.mp run
    cases same
    refine ⟨confined.count, confined.idle, confined.asks, ?_, ?_⟩
    · intro l' slot msg queued asks
      by_contra other
      simp only [Function.update_of_ne (show l' ≠ l by omega)] at queued
      exact other (confined.queues l' slot msg queued asks)
    · intro l' ci tracked
      by_contra other
      simp only [Function.update_of_ne (show l' ≠ l by omega)] at tracked
      exact other (confined.tracks l' ci tracked)
  | run k =>
    obtain ⟨_, _, rfl⟩ := busStep_run run
    exact ⟨confined.count, confined.idle, confined.asks, confined.queues, confined.tracks⟩

/-- Nothing is left of a socket that is not in the hash table when all is quiet. -/
theorem BusState.Confined.unengaged (confined : s.Confined m) {fd : Int} (unlisted : s.fdSet fd = none)
    (idle : ∀ c, c < m → s.clients c = .idle) (empty : (s.listeners 0).msgs.commitPipe = [])
    (untracked : (s.listeners 0).sockets.trackedFds = 0) : ¬ s.Engaged fd := by
  have quiet (c : Nat) : s.clients c = .idle := by
    rcases Nat.lt_or_ge c m with low | high
    · exact idle c low
    · exact confined.idle c high
  rintro (⟨ci, present⟩ | ⟨op, underway, _⟩ | ⟨l, ci, tracked, _⟩)
  · rw [unlisted] at present
    cases present
  · cases underway with
    | client c operates =>
      rw [quiet c] at operates
      cases operates
    | queued l slot msg queued operates =>
      have first := confined.queues l slot msg queued (by rw [operates]; exact nofun)
      rw [first, MsgTable.queued, empty] at queued
      cases queued
  · have first := confined.tracks l ci tracked
    obtain ⟨i, below, _⟩ := tracked
    rw [first, untracked] at below
    exact absurd below (Nat.not_lt_zero i)

end Confined

end Kinetic
