import Kinetic.Bus.Authors
import Kinetic.Bus.Connections

namespace Kinetic
open Function (update)
open Transition (Reach exec exists_reach_of_exec)

/-- A client is registering the socket. -/
def BusState.registering (s : BusState) (fd : Int) : Prop :=
  ∃ c ci, (s.clients c).conn = some ci ∧ (s.conns.info ci).fd = fd

/-- `add_socket` finds room for the socket, does not find it in its table, and has or gets a large enough buffer. -/
def AddEnv.fits (env : AddEnv) (t : SocketTable) (fd : Int) : Prop :=
  t.trackedFds ≠ maxFds ∧ (∀ i, i < t.trackedFds → (t.fds i).fd ≠ fd) ∧ (env.nextRead < t.readBufSize ∨ env.grown = true)

/-- No reply is waiting in the slot that a registration takes, `add_socket` keeps the connection of a client that waits for it,
and no socket is removed while it is being registered. -/
def registersCleanly (s : BusState) : BusLabel → Prop
  | .client c .getFreeMsg => ∀ ci slot, s.clients c = .acquire (.addSocket ci) →
      (s.listeners (s.listenerIdOfSocket (s.conns.info ci).fd)).msgs.msgFreelist.head? = some slot →
      Silent (s.listeners (s.listenerIdOfSocket (s.conns.info ci).fd)) slot
  | .client c (.onCompletion true) => ∀ fd l slot serial, s.clients c = .wait (.removeSocket fd) l slot serial →
      ¬ s.registering fd
  | .listener l (.handle env) =>
    match (s.listeners l).nextMsg with
    | some ⟨.addSocket ci, _⟩ => (∃ c slot serial, s.clients c = .wait (.addSocket ci) l slot serial) →
        env.add.fits (s.listeners l).sockets (s.conns.info ci).fd
    | some ⟨.removeSocket fd, _⟩ => ¬ s.registering fd
    | _ => True
  | _ => True

/-- The connection is in the hash table under its number, and has not been freed. -/
def BusState.published (s : BusState) (ci : Nat) : Prop :=
  s.fdSet (s.conns.info ci).fd = some ci ∧ ci ∉ s.conns.freed

/-- The command to add the connection is in a committed slot. -/
def BusState.queuedAdd (s : BusState) (ci l slot serial : Nat) : Prop :=
  (s.listeners l).msgs.queued slot = some ⟨.addSocket ci, serial⟩

/-- Where a registration stands. The command of a client that waits is in its slot, with no reply in the pipe of the slot, or
the connection is tracked. -/
def Registers (s : BusState) : ClientPc → Prop
  | .acquire (.addSocket ci) => s.published ci ∧ ∀ l slot serial, ¬ s.queuedAdd ci l slot serial
  | .push (.addSocket ci) l slot serial =>
    s.published ci ∧ l = s.listenerIdOfSocket (s.conns.info ci).fd ∧ (∀ l slot serial, ¬ s.queuedAdd ci l slot serial) ∧
      (s.listeners l).msgs.msgs slot = some ⟨.addSocket ci, serial⟩ ∧ Silent (s.listeners l) slot
  | .wait (.addSocket ci) l slot serial =>
    s.published ci ∧ l = s.listenerIdOfSocket (s.conns.info ci).fd ∧
      ((s.queuedAdd ci l slot serial ∧ Silent (s.listeners l) slot ∧
          ∀ l' slot' serial', s.queuedAdd ci l' slot' serial' → l' = l ∧ slot' = slot) ∨
        (∀ l slot serial, ¬ s.queuedAdd ci l slot serial) ∧ (s.listeners l).sockets.tracks ci)
  | _ => True

/-- Every registration stands as it should, no two are of one connection, and a command that adds a connection is written by the
client that registers it. -/
structure RegisterInv (s : BusState) : Prop where
  registers : ∀ c, Registers s (s.clients c)
  single : ∀ c c' ci, (s.clients c).conn = some ci → (s.clients c').conn = some ci → c = c'
  writes : ∀ c p l slot serial ci number, s.clients c = .push p l slot serial →
    (s.listeners l).msgs.msgs slot = some ⟨.addSocket ci, number⟩ → p.conn = some ci

theorem RegisterInv.new (n : Nat) : RegisterInv (.new n) := by
  refine ⟨fun c => trivial, ?_, ?_⟩
  · intro c c' ci registering
    cases registering
  · intro c p l slot serial ci number writing
    cases writing

section Frames
variable {s t : BusState} {pc : ClientPc} {ci : Nat}

theorem Registers.of_conn_none (none : pc.conn = none) : Registers s pc := by
  cases pc with
  | acquire p => cases p <;> trivial
  | push p l slot serial => cases p <;> trivial
  | wait p l slot serial => cases p <;> trivial
  | _ => trivial

/-- A client that is registering has its connection published. -/
theorem Registers.published (registers : Registers s pc) (own : pc.conn = some ci) : s.published ci := by
  cases pc with
  | acquire p => cases p <;> cases own; exact registers.1
  | push p l slot serial => cases p <;> cases own; exact registers.1
  | wait p l slot serial => cases p <;> cases own; exact registers.1
  | _ => cases own

/-- The command to add the connection of a registration is in the slot on which its client waits. -/
theorem Registers.queued (registers : Registers s pc) (own : pc.conn = some ci) {l slot serial : Nat}
    (queued : s.queuedAdd ci l slot serial) :
    ∃ number, pc = .wait (.addSocket ci) l slot number ∧ s.queuedAdd ci l slot number := by
  cases pc with
  | acquire p =>
    cases p <;> cases own
    exact absurd queued (registers.2 l slot serial)
  | push p l' slot' serial' =>
    cases p <;> cases own
    exact absurd queued (registers.2.2.1 l slot serial)
  | wait p l' slot' serial' =>
    cases p <;> cases own
    rcases registers.2.2 with ⟨committed, _, only⟩ | ⟨absent, _⟩
    · obtain ⟨rfl, rfl⟩ := only l slot serial queued
      exact ⟨serial', rfl, committed⟩
    · exact absurd queued (absent l slot serial)
  | _ => cases own

/-- What a step leaves as it is for a registration that it does not take further. -/
structure RegFrame (s t : BusState) (pc : ClientPc) (ci : Nat) : Prop where
  count : t.listenerCount = s.listenerCount
  fd : (t.conns.info ci).fd = (s.conns.info ci).fd
  published : s.published ci → t.published ci
  queued : ∀ l slot serial, t.queuedAdd ci l slot serial → s.queuedAdd ci l slot serial
  stays : ∀ p l slot serial, pc = .wait p l slot serial → s.queuedAdd ci l slot serial → Silent (s.listeners l) slot →
    t.queuedAdd ci l slot serial ∧ Silent (t.listeners l) slot
  written : ∀ p l slot serial, pc = .push p l slot serial → Silent (s.listeners l) slot →
    (t.listeners l).msgs.msgs slot = (s.listeners l).msgs.msgs slot ∧ Silent (t.listeners l) slot
  tracks : ∀ l, (s.listeners l).sockets.tracks ci → (t.listeners l).sockets.tracks ci

theorem Registers.frame (registers : Registers s pc) (own : pc.conn = some ci) (frame : RegFrame s t pc ci) : Registers t pc := by
  have listener : t.listenerIdOfSocket (t.conns.info ci).fd = s.listenerIdOfSocket (s.conns.info ci).fd := by
    rw [frame.fd, BusState.listenerIdOfSocket, BusState.listenerIdOfSocket, frame.count]
  have absent (before : ∀ l slot serial, ¬ s.queuedAdd ci l slot serial) (l slot serial : Nat) : ¬ t.queuedAdd ci l slot serial :=
    fun queued => before l slot serial (frame.queued l slot serial queued)
  cases pc with
  | acquire p =>
    cases p <;> cases own
    exact ⟨frame.published registers.1, absent registers.2⟩
  | push p l slot serial =>
    cases p <;> cases own
    obtain ⟨published, here, before, written, silent⟩ := registers
    obtain ⟨same, silent'⟩ := frame.written _ l slot serial rfl silent
    exact ⟨frame.published published, by rw [listener]; exact here, absent before, same.trans written, silent'⟩
  | wait p l slot serial =>
    cases p <;> cases own
    obtain ⟨published, here, stands⟩ := registers
    refine ⟨frame.published published, by rw [listener]; exact here, ?_⟩
    rcases stands with ⟨queued, silent, only⟩ | ⟨before, tracked⟩
    · obtain ⟨queued', silent'⟩ := frame.stays _ l slot serial rfl queued silent
      exact .inl ⟨queued', silent', fun l' slot' serial' other => only l' slot' serial' (frame.queued l' slot' serial' other)⟩
    · exact .inr ⟨absent before, frame.tracks l tracked⟩
  | _ => cases own

end Frames

section Clients
variable {s t : BusState} {c : Nat} {a : ClientAction}

theorem clientStep_listenerCount (run : clientStep s c a = some t) : t.listenerCount = s.listenerCount := by
  have sendOn (s : BusState) (b : Nat) (pc : SendPc) : (s.sendOn c b pc).listenerCount = s.listenerCount := by
    cases pc <;> rfl
  have notSent (s : BusState) (p : Purpose) : (s.notSent c p).listenerCount = s.listenerCount := by
    cases p with
    | hold b start tries =>
      simp only [BusState.notSent]
      split
      · rfl
      · exact sendOn s b _
    | expect b tries =>
      simp only [BusState.notSent]
      split
      · rfl
      · exact sendOn s b _
    | _ => rfl
  cases clientStep_cases run with
  | sends b pc pc' e sent => exact sendOn _ b pc'
  | noSlot p => exact notSent s p
  | commits p l slot serial => cases p <;> rfl
  | fails p l slot serial => exact notSent _ p
  | held b start tries l slot serial => exact sendOn _ b _
  | notHeld b start tries l slot serial => exact sendOn s b _
  | _ => rfl

/-- What a client step does to the messages of a listener: none leave a pipe of replies fuller. -/
theorem clientStep_silent (run : clientStep s c a = some t) {l slot : Nat} (silent : Silent (s.listeners l) slot) :
    Silent (t.listeners l) slot := by
  have kept {l' : Nat} {msgs : MsgTable} (listeners : t.listeners = (s.setMsgs l' msgs).listeners)
      (fewer : (s.listeners l').msgs.pipes slot = [] → msgs.pipes slot = []) : Silent (t.listeners l) slot := by
    rw [listeners]
    simp only [BusState.setMsgs, Function.update_apply]
    split
    · rename_i here
      subst here
      exact ⟨fewer silent.pipe, silent.notify⟩
    · exact silent
  cases clientStep_move run with
  | requests msg idle clients listeners => rw [listeners]; exact silent
  | goesOn a _ alone continues => rw [continues.listeners]; exact silent
  | delivers b alone box clients listeners => rw [listeners]; exact silent
  | takes p l' free next _ _ freelist _ same =>
    subst same
    exact kept rfl fun empty => empty
  | commits p l' pushed serial writing same =>
    have listeners : t.listeners = (s.setMsgs l' ((s.listeners l').msgs.pushMessage pushed)).listeners := by
      rw [same, BusState.pushed_listeners]
    exact kept listeners fun empty => empty
  | fails p l' released serial writing continues => exact kept continues.listeners fun empty => empty
  | reads p l' read serial reply rest waiting pipe continues =>
    refine kept continues.listeners fun empty => ?_
    simp only [MsgTable.readReply, Function.update_apply]
    split
    · rename_i here
      rw [here] at empty
      rw [empty]
      rfl
    · exact empty
  | givesUp p l' given serial waiting continues => rw [continues.listeners]; exact silent

/-- A client leaves the message of a slot that another one is writing. -/
theorem clientStep_kept (slots : SlotInv s) (run : clientStep s c a = some t) {c' : Nat} (other : c' ≠ c) {p : Purpose}
    {l slot serial : Nat} (writing : s.clients c' = .push p l slot serial) :
    (t.listeners l).msgs.msgs slot = (s.listeners l).msgs.msgs slot := by
  have held := slots.held c' p l slot serial writing
  have kept {l' : Nat} {msgs : MsgTable} (listeners : t.listeners = (s.setMsgs l' msgs).listeners)
      (same : l' = l → msgs.msgs slot = (s.listeners l).msgs.msgs slot) :
      (t.listeners l).msgs.msgs slot = (s.listeners l).msgs.msgs slot := by
    rw [listeners]
    simp only [BusState.setMsgs, Function.update_apply]
    split
    · rename_i here
      exact same here.symm
    · rfl
  cases clientStep_move run with
  | requests msg idle clients listeners => rw [listeners]
  | goesOn a _ alone continues => rw [continues.listeners]
  | delivers b alone box clients listeners => rw [listeners]
  | takes p' l' free next _ _ freelist _ same =>
    subst same
    refine kept rfl fun here => ?_
    subst here
    have apart : slot ≠ free := by
      rintro rfl
      refine held (List.mem_append_left _ (List.mem_append_left _ ?_))
      rw [freelist]
      exact List.mem_cons_self
    exact Function.update_of_ne apart ..
  | commits p' l' pushed serial' writing' same =>
    have listeners : t.listeners = (s.setMsgs l' ((s.listeners l').msgs.pushMessage pushed)).listeners := by
      rw [same, BusState.pushed_listeners]
    exact kept listeners fun here => by rw [← here]; rfl
  | fails p' l' released serial' writing' continues =>
    refine kept continues.listeners fun here => ?_
    subst here
    have apart : slot ≠ released := by
      rintro rfl
      exact other (slots.single c' c p p' l' slot serial serial' writing writing')
    exact Function.update_of_ne apart ..
  | reads p' l' read serial' reply rest waiting pipe continues => exact kept continues.listeners fun here => by rw [← here]; rfl
  | givesUp p' l' given serial' waiting continues => rw [continues.listeners]

/-- A client step leaves every registration of another client as it stands. -/
theorem RegisterInv.others (inv : RegisterInv s) (track : TrackInv s) (slots : SlotInv s)
    (clean : registersCleanly s (.client c a)) (run : clientStep s c a = some t) {c' : Nat} (other : c' ≠ c) :
    Registers t (t.clients c') := by
  have same : t.clients c' = s.clients c' := clientStep_others run other
  rw [same]
  have move := clientStep_conns run
  cases own : (s.clients c').conn with
  | none => exact .of_conn_none own
  | some ci =>
    have registers := inv.registers c'
    have old := track.clients c' ci own
    have info := (move.info old).1
    have apart (ci' : Nat) (theirs : (s.clients c).conn = some ci') : ci' ≠ ci := by
      rintro rfl
      exact other (inv.single c' c ci' own theirs)
    refine registers.frame own ⟨clientStep_listenerCount run, info, ?_, ?_, ?_, ?_, ?_⟩
    · rintro ⟨present, notFreed⟩
      refine ⟨?_, ?_⟩
      · rw [info]
        cases move with
        | keeps _ same => rw [same.fdSet]; exact present
        | registers fd ssl idle free fdSet =>
          have distinct : (s.conns.info ci).fd ≠ fd := by
            intro here
            rw [here, free] at present
            cases present
          rw [fdSet, Function.update_of_ne distinct]
          exact present
        | givesUp _ ci' before after fdSet => rw [fdSet]; exact present
        | removes fd ci' l slot serial waiting _ after fdSet =>
          have distinct : (s.conns.info ci).fd ≠ fd := fun here => clean fd l slot serial waiting ⟨c', ci, own, here⟩
          rw [fdSet, Function.update_of_ne distinct]
          exact present
      · cases move with
        | keeps _ same => rw [same.freed]; exact notFreed
        | registers fd ssl idle free fdSet nextConn freed => rw [freed]; exact notFreed
        | givesUp _ ci' before after fdSet nextConn freed =>
          rw [freed, List.mem_cons, not_or]
          exact ⟨(apart ci' before).symm, notFreed⟩
        | removes fd ci' l slot serial waiting removed after fdSet nextConn freed =>
          rw [freed, List.mem_cons, not_or]
          refine ⟨?_, notFreed⟩
          rintro rfl
          exact clean fd l slot serial waiting ⟨c', ci, own, (track.registered fd ci removed).2⟩
    · intro l slot serial queued
      cases clientStep_queue slots run with
      | keeps _ same => rw [BusState.queuedAdd, same] at queued; exact queued
      | commits p l' slot' serial' command writing _ moved written =>
        rw [BusState.queuedAdd, moved] at queued
        split at queued
        · cases queued
          exact absurd rfl (apart ci (by rw [writing]; exact inv.writes c p l' slot' _ ci _ writing written))
        · exact queued
    · intro p l slot serial waiting queued silent
      refine ⟨?_, clientStep_silent run silent⟩
      cases clientStep_queue slots run with
      | keeps _ same => rw [BusState.queuedAdd, same]; exact queued
      | commits p' l' slot' serial' command writing _ moved written =>
        rw [BusState.queuedAdd, moved, if_neg]
        · exact queued
        · rintro ⟨rfl, rfl⟩
          have absent := not_committed (slots.held c p' l slot serial' writing)
          rw [BusState.queuedAdd, MsgTable.queued_of_not_mem absent] at queued
          cases queued
    · intro p l slot serial writing silent
      exact ⟨clientStep_kept slots run other writing, clientStep_silent run silent⟩
    · intro l tracked
      obtain ⟨msgs, sockets⟩ := clientStep_listener run l
      rw [sockets]
      exact tracked

theorem BusState.notSent_conn (s : BusState) (c : Nat) (p : Purpose) : ((s.notSent c p).clients c).conn = none := by
  cases p with
  | hold b start tries =>
    simp only [BusState.notSent]
    split
    · simp [BusState.setClient, ClientPc.conn, Purpose.conn]
    · exact s.sendOn_conn c b _
  | expect b tries =>
    simp only [BusState.notSent]
    split
    · simp [BusState.setClient, ClientPc.conn, Purpose.conn]
    · exact s.sendOn_conn c b _
  | _ => simp [BusState.notSent, BusState.setClient, ClientPc.conn]

/-- A client takes its own registration further. -/
theorem RegisterInv.own (inv : RegisterInv s) (track : TrackInv s) (slots : SlotInv s)
    (clean : registersCleanly s (.client c a)) (run : clientStep s c a = some t) : Registers t (t.clients c) := by
  have registers := inv.registers c
  cases clientStep_cases run with
  | refused msg idle => exact registers
  | poolFull b status sending => exact registers
  | registers fd ssl idle free =>
    simp only [BusState.setClient, Function.update_self]
    refine ⟨⟨?_, ?_⟩, ?_⟩
    · simp [Connections.set]
    · intro freed
      exact Nat.lt_irrefl _ (track.freed s.nextConn freed)
    · intro l slot serial queued
      exact Nat.lt_irrefl _ (track.written l slot s.nextConn serial (MsgTable.written_of_queued queued))
  | takes p slot next acquiring freelist empty statusSet =>
    simp only [BusState.setClient, Function.update_self]
    cases p with
    | addSocket ci =>
      rw [acquiring] at registers
      obtain ⟨published, before⟩ := registers
      have silent := clean ci slot acquiring (by rw [Purpose.listener] at freelist; rw [freelist]; rfl)
      refine ⟨published, rfl, ?_, ?_, ?_⟩
      · intro l i serial queued
        refine before l i serial ?_
        cases clientStep_queue slots run with
        | keeps _ same =>
          rw [BusState.queuedAdd, ← same l i]
          exact queued
      · simp [BusState.setMsgs, MsgTable.fill, Purpose.command]
      · refine ⟨?_, ?_⟩
        · simp only [BusState.setMsgs, Function.update_self]
          exact silent.pipe
        · simp only [BusState.setMsgs, Function.update_self]
          exact silent.notify
    | _ => exact trivial
  | commits p l slot serial writing =>
    cases p with
    | addSocket ci =>
      simp only [BusState.pushed, BusState.setClient, Function.update_self]
      rw [writing] at registers
      obtain ⟨published, here, before, written, silent⟩ := registers
      have queue (l' i : Nat) : ((s.setMsgs l ((s.listeners l).msgs.pushMessage slot)).listeners l').msgs.queued i =
          if l' = l ∧ i = slot then some ⟨.addSocket ci, serial⟩ else (s.listeners l').msgs.queued i := by
        by_cases atListener : l' = l
        · simp only [atListener, BusState.setMsgs, Function.update_self, MsgTable.queued_pushMessage, written, true_and]
        · simp only [BusState.setMsgs, Function.update_of_ne atListener, atListener, false_and, if_false]
      refine ⟨published, here, .inl ⟨?_, ?_, ?_⟩⟩
      · rw [BusState.queuedAdd, queue, if_pos ⟨rfl, rfl⟩]
      · exact clientStep_silent run silent
      · intro l' slot' serial' queued
        rw [BusState.queuedAdd, queue] at queued
        split at queued
        · rename_i same
          exact same
        · exact absurd queued (before l' slot' serial')
    | expect b tries => exact .of_conn_none (by simp [BusState.pushed, BusState.returned, BusState.setClient, ClientPc.conn])
    | hold b start tries => exact .of_conn_none (by simp [BusState.pushed, BusState.setClient, ClientPc.conn, Purpose.conn])
    | removeSocket fd => exact .of_conn_none (by simp [BusState.pushed, BusState.setClient, ClientPc.conn, Purpose.conn])
    | shutdown l => exact .of_conn_none (by simp [BusState.pushed, BusState.setClient, ClientPc.conn, Purpose.conn])
  | sends b pc pc' e sent => exact .of_conn_none (BusState.sendOn_conn _ c b pc')
  | noSlot p acquiring => exact .of_conn_none (BusState.notSent_conn _ c p)
  | fails p l slot serial writing => exact .of_conn_none (BusState.notSent_conn _ c p)
  | held b start tries l slot serial waiting => exact .of_conn_none (BusState.sendOn_conn _ c b _)
  | notHeld b start tries l slot serial waiting => exact .of_conn_none (BusState.sendOn_conn _ c b _)
  | _ => exact .of_conn_none (by simp [BusState.setClient, BusState.returned, ClientPc.conn, Purpose.conn])

/-- The command in the slot that a client has just taken. -/
theorem clientStep_writes (run : clientStep s c a = some t) {p : Purpose} {l slot serial : Nat}
    (writing : t.clients c = .push p l slot serial) : (t.listeners l).msgs.msgs slot = some ⟨p.command s, serial⟩ := by
  obtain ⟨rfl, acquiring, _⟩ := clientStep_push run writing
  cases clientStep_cases run with
  | noSlot p' =>
    obtain ⟨pc, clients, alone, _⟩ := (s.notSent_continues c p').client
    rw [clients, Function.update_self] at writing
    exact absurd writing (ClientPc.alone_not_push alone p l slot serial)
  | takes p' slot' next acquiring =>
    simp only [BusState.setClient, Function.update_self, ClientPc.push.injEq] at writing
    obtain ⟨rfl, rfl, rfl, rfl⟩ := writing
    simp [BusState.setMsgs, BusState.setClient, MsgTable.fill]

theorem RegisterInv.client (inv : RegisterInv s) (track : TrackInv s) (slots : SlotInv s)
    (clean : registersCleanly s (.client c a)) (run : clientStep s c a = some t) : RegisterInv t := by
  have move := clientStep_conns run
  refine ⟨?_, ?_, ?_⟩
  · intro c'
    by_cases own : c' = c
    · rw [own]
      exact inv.own track slots clean run
    · exact inv.others track slots clean run own
  · have origin (d ci : Nat) (registering : (t.clients d).conn = some ci) :
        (s.clients d).conn = some ci ∨ d = c ∧ ci = s.nextConn := by
      by_cases own : d = c
      · subst own
        cases move with
        | keeps _ same before => exact .inl (before ci registering)
        | registers fd ssl idle free fdSet nextConn freed info listeners client =>
          rw [client] at registering
          cases registering
          exact .inr ⟨rfl, rfl⟩
        | givesUp _ ci' before after => rw [after] at registering; cases registering
        | removes fd ci' l slot serial waiting present after => rw [after] at registering; cases registering
      · rw [clientStep_others run own] at registering
        exact .inl registering
    intro d d' ci first second
    rcases origin d ci first with old | ⟨rfl, rfl⟩
    · rcases origin d' ci second with old' | ⟨rfl, rfl⟩
      · exact inv.single d d' ci old old'
      · exact absurd (track.clients d _ old) (Nat.lt_irrefl _)
    · rcases origin d' _ second with old' | ⟨rfl, _⟩
      · exact absurd (track.clients d' _ old') (Nat.lt_irrefl _)
      · rfl
  · intro d p l slot serial ci number writing written
    by_cases own : d = c
    · subst own
      rw [clientStep_writes run writing] at written
      exact Purpose.command_conn (congrArg Msg.command (Option.some.inj written))
    · rw [clientStep_others run own] at writing
      rw [clientStep_kept slots run own writing] at written
      exact inv.writes d p l slot serial ci number writing written

end Clients

section Listeners
variable {l l' : Listener} {h h' : Heap} {a : ListenerAction}

/-- The listener writes nothing to a slot whose command it has not executed, and no shutdown is pending in. -/
theorem ListenerMove.silent_queued {slot : Nat} (move : ListenerMove l h l' h' a) (apart : l.slots.Nodup)
    (still : slot ∈ l'.msgs.commitPipe) (silent : Silent l slot) : Silent l' slot := by
  have nodup := apart.of_append_left.of_append_right
  refine move.silent_unread (fun i rest msg reads left => ?_) silent
  rw [reads.pipe] at nodup
  rw [left] at still
  rintro rfl
  exact (List.nodup_cons.mp nodup).1 still

/-- The listener leaves the message of a slot that is not in its hands. -/
theorem ListenerMove.kept {slot : Nat} (move : ListenerMove l h l' h' a) (absent : slot ∉ l.slots) :
    l'.msgs.msgs slot = l.msgs.msgs slot := by
  cases move with
  | answers env i rest msg reads _ notify msgs => rw [msgs]; rfl
  | expects env i rest b number _ notify msgs => rw [msgs]
  | shutsDown env i rest number reads notify msgs => rw [msgs]
  | releases i handling same =>
    subst same
    have distinct : slot ≠ i := by
      rintro rfl
      exact absent (List.mem_append_right _ (by rw [handling]; exact List.mem_singleton_self slot))
    exact Function.update_of_ne distinct ..
  | works a i _ _ _ _ notify msgs => rw [msgs]
  | finishes i number _ pending same => subst same; rfl

end Listeners

section Steps
variable {s t : BusState} {l : Nat} {a : ListenerAction} {listener : Listener} {heap : Heap} {conns : Connections}

/-- The bus after a step of a listener. -/
def BusState.listened (s : BusState) (l : Nat) (listener : Listener) (heap : Heap) (conns : Connections) : BusState :=
  { s with listeners := update s.listeners l listener, heap := heap, conns := conns }

theorem MsgTable.mem_of_queued {t : MsgTable} {slot : Nat} {msg : Msg} (queued : t.queued slot = some msg) :
    slot ∈ t.commitPipe := by
  by_contra absent
  rw [MsgTable.queued_of_not_mem absent] at queued
  cases queued

/-- The command at the head of the commit pipe. -/
theorem MsgTable.queued_head {t : MsgTable} {slot : Nat} {rest : List Nat} {msg : Msg} (pipe : t.commitPipe = slot :: rest)
    (written : t.msgs slot = some msg) : t.queued slot = some msg := by
  rw [MsgTable.queued, if_pos, written]
  rw [pipe]
  exact List.mem_cons_self

theorem Listener.nextMsg_eq {l : Listener} {slot : Nat} {rest : List Nat} {msg : Msg} (pipe : l.msgs.commitPipe = slot :: rest)
    (written : l.msgs.msgs slot = some msg) : l.nextMsg = some msg := by
  rw [Listener.nextMsg, pipe]
  exact written

/-- A step of a listener leaves no command committed that was not, and takes away only the one at the head. -/
theorem queued_listened (slots : SlotInv s)
    (run : listenerStep (s.listeners l) s.heap s.conns a = some (listener, heap, conns)) (l' slot : Nat) :
    ((s.listened l listener heap conns).listeners l').msgs.queued slot = (s.listeners l').msgs.queued slot ∨
      ((s.listened l listener heap conns).listeners l').msgs.queued slot = none ∧ l' = l ∧
        ∃ env rest msg, a = .handle env ∧ (s.listeners l).msgs.commitPipe = slot :: rest ∧
          (s.listeners l).msgs.msgs slot = some msg := by
  by_cases here : l' = l
  · subst here
    have self : (s.listened l' listener heap conns).listeners l' = listener := Function.update_self ..
    rw [self]
    rcases listenerStep_queue run (slots.apart l') with ⟨same, _⟩ | ⟨env, head, rest, msg, handles, pipe, written, left⟩
    · exact .inl (same slot)
    · rw [left slot]
      by_cases first : slot = head
      · subst first
        rw [if_pos rfl]
        exact .inr ⟨rfl, rfl, env, rest, msg, handles, pipe, written⟩
      · rw [if_neg first]
        exact .inl rfl
  · have same : (s.listened l listener heap conns).listeners l' = s.listeners l' := Function.update_of_ne here ..
    rw [same]
    exact .inl rfl

/-- When the listener adds the connection of a client that waits for it, the connection is tracked and not freed. -/
theorem Added.kept {env : AddEnv} {sockets sockets' : SocketTable} {conns conns' : Connections} {ci : Nat}
    (added : Added env sockets conns ci sockets' conns') (inv : SocketsInv sockets conns)
    (fits : env.fits sockets (conns.info ci).fd) : sockets'.tracks ci ∧ conns'.freed = conns.freed := by
  obtain ⟨room, absent, buffer⟩ := fits
  cases added with
  | full full => exact absurd full room
  | present i below same => exact absurd same (absent i below)
  | added size _ _ => exact ⟨(SocketTable.track_tracks inv.inactive).mpr (.inr rfl), rfl⟩
  | notGrown _ _ short failed =>
    rcases buffer with large | grown
    · exact absurd large (Nat.not_lt.mpr short)
    · rw [failed] at grown
      cases grown

/-- A listener takes the registration further whose command it executes. -/
theorem RegisterInv.handled (inv : RegisterInv s) (track : TrackInv s) (slots : SlotInv s)
    (run : listenerStep (s.listeners l) s.heap s.conns a = some (listener, heap, conns))
    (clean : registersCleanly s (.listener l a)) {c ci slot serial : Nat} {env : CommandEnv} {rest : List Nat}
    (waiting : s.clients c = .wait (.addSocket ci) l slot serial) (queued : s.queuedAdd ci l slot serial)
    (handles : a = .handle env) (pipe : (s.listeners l).msgs.commitPipe = slot :: rest) :
    Registers (s.listened l listener heap conns) (s.clients c) := by
  subst handles
  have written := MsgTable.written_of_queued queued
  have registers := inv.registers c
  rw [waiting] at registers ⊢
  obtain ⟨⟨present, notFreed⟩, here, stands⟩ := registers
  have fits : env.add.fits (s.listeners l).sockets (s.conns.info ci).fd := by
    simp only [registersCleanly, Listener.nextMsg_eq pipe written] at clean
    exact clean ⟨c, slot, serial, waiting⟩
  have move := listenerStep_table run
  have info := (move.info ci).1
  have kept : listener.sockets.tracks ci ∧ conns.freed = s.conns.freed := by
    have same {head : Nat} {rest' : List Nat} {msg : Msg} (pipe' : (s.listeners l).msgs.commitPipe = head :: rest')
        (written' : (s.listeners l).msgs.msgs head = some msg) : msg = ⟨.addSocket ci, serial⟩ := by
      rw [pipe] at pipe'
      cases pipe'
      rw [written] at written'
      exact (Option.some.inj written').symm
    cases listenerStep_cases run with
    | adds _ head rest' ci' serial' sockets conns' atLoop pipe' written' added =>
      cases same pipe' written'
      exact (addSocket_cases added).kept (track.sockets l) fits
    | removes _ head rest' fd serial' sockets atLoop pipe' written' => cases same pipe' written'
    | holds _ head rest' fd seqId timeoutSec serial' rx atLoop pipe' written' => cases same pipe' written'
    | expects _ head rest' b serial' rx h' atLoop pipe' written' => cases same pipe' written'
    | shutsDown _ head rest' serial' atLoop pipe' written' => cases same pipe' written'
  have self : (s.listened l listener heap conns).listeners l = listener := Function.update_self ..
  refine ⟨⟨?_, ?_⟩, ?_, .inr ⟨?_, ?_⟩⟩
  · show s.fdSet (conns.info ci).fd = some ci
    rw [info]
    exact present
  · show ci ∉ conns.freed
    rw [kept.2]
    exact notFreed
  · show l = s.listenerIdOfSocket (conns.info ci).fd
    rw [info]
    exact here
  · intro l' slot' serial' queued'
    have before : s.queuedAdd ci l' slot' serial' := by
      rcases queued_listened slots run l' slot' with same | ⟨none, _⟩
      · rw [BusState.queuedAdd, same] at queued'
        exact queued'
      · rw [BusState.queuedAdd, none] at queued'
        cases queued'
    rcases stands with ⟨_, _, only⟩ | ⟨absent, _⟩
    · obtain ⟨rfl, rfl⟩ := only l' slot' serial' before
      rw [BusState.queuedAdd, self] at queued'
      rcases listenerStep_queue run (slots.apart l') with ⟨_, other⟩ | ⟨_, head, rest', msg, _, pipe', _, left⟩
      · exact other env rfl
      · rw [pipe] at pipe'
        cases pipe'
        rw [left, if_pos rfl] at queued'
        cases queued'
    · exact absent l' slot' serial' before
  · rw [self]
    exact kept.1

/-- A step of a listener leaves every other registration as it stands. -/
theorem RegisterInv.listened (inv : RegisterInv s) (track : TrackInv s) (slots : SlotInv s)
    (run : listenerStep (s.listeners l) s.heap s.conns a = some (listener, heap, conns))
    (clean : registersCleanly s (.listener l a)) (c : Nat) : Registers (s.listened l listener heap conns) (s.clients c) := by
  have move := listenerStep_table run
  cases own : (s.clients c).conn with
  | none => exact .of_conn_none own
  | some ci =>
    have registers := inv.registers c
    by_cases executes : ∃ slot serial env rest, s.clients c = .wait (.addSocket ci) l slot serial ∧
        s.queuedAdd ci l slot serial ∧ a = .handle env ∧ (s.listeners l).msgs.commitPipe = slot :: rest
    · obtain ⟨slot, serial, env, rest, waiting, queued, handles, pipe⟩ := executes
      exact inv.handled track slots run clean waiting queued handles pipe
    · have self : (s.listened l listener heap conns).listeners l = listener := Function.update_self ..
      have other (l' : Nat) (distinct : l' ≠ l) : (s.listened l listener heap conns).listeners l' = s.listeners l' :=
        Function.update_of_ne distinct ..
      have info := (move.info ci).1
      have queued (l' slot serial : Nat) (after : (s.listened l listener heap conns).queuedAdd ci l' slot serial) :
          s.queuedAdd ci l' slot serial := by
        rcases queued_listened slots run l' slot with same | ⟨none, _⟩
        · rw [BusState.queuedAdd, same] at after
          exact after
        · rw [BusState.queuedAdd, none] at after
          cases after
      have notOwn (env : CommandEnv) (slot : Nat) (rest : List Nat) (serial : Nat) (handles : a = .handle env)
          (pipe : (s.listeners l).msgs.commitPipe = slot :: rest)
          (written : (s.listeners l).msgs.msgs slot = some ⟨.addSocket ci, serial⟩) : False := by
        obtain ⟨number, waiting, committed⟩ := registers.queued own (MsgTable.queued_head pipe written)
        exact executes ⟨slot, number, env, rest, waiting, committed, handles, pipe⟩
      refine registers.frame own ⟨rfl, info, ?_, queued, ?_, ?_, ?_⟩
      · rintro ⟨present, notFreed⟩
        refine ⟨?_, ?_⟩
        · show s.fdSet (conns.info ci).fd = some ci
          rw [info]
          exact present
        · show ci ∉ conns.freed
          intro freed
          cases move with
          | adds env slot rest ci' serial pipe written added =>
            rcases added.freed freed with rfl | old
            · exact notOwn env slot rest serial rfl pipe written
            · exact notFreed old
          | removes env slot rest fd serial pipe written removed same => rw [same] at freed; exact notFreed freed
          | keeps _ _ _ same _ => rw [same] at freed; exact notFreed freed
      · intro p l' slot serial waiting committed silent
        have still : (s.listened l listener heap conns).queuedAdd ci l' slot serial := by
          rcases queued_listened slots run l' slot with same | ⟨_, rfl, env, rest, msg, handles, pipe, written⟩
          · rw [BusState.queuedAdd, same]
            exact committed
          · rw [MsgTable.written_of_queued committed] at written
            cases Option.some.inj written
            exact (notOwn env slot rest serial handles pipe (MsgTable.written_of_queued committed)).elim
        refine ⟨still, ?_⟩
        by_cases here : l' = l
        · subst here
          rw [self]
          rw [BusState.queuedAdd, self] at still
          exact (listenerStep_move run).silent_queued (slots.apart l') (MsgTable.mem_of_queued still) silent
        · rw [other l' here]
          exact silent
      · intro p l' slot serial writing silent
        by_cases here : l' = l
        · subst here
          rw [self]
          have absent := slots.held c p l' slot serial writing
          exact ⟨(listenerStep_move run).kept absent, (listenerStep_move run).silent absent silent⟩
        · rw [other l' here]
          exact ⟨rfl, silent⟩
      · intro l' tracked
        by_cases here : l' = l
        · subst here
          rw [self]
          cases move with
          | adds env slot rest ci' serial pipe written added => exact (added.sockets (track.sockets l')).2.1 ci tracked
          | removes env slot rest fd serial pipe written removed same =>
            simp only [registersCleanly, Listener.nextMsg_eq pipe written] at clean
            exact (((track.sockets l').removeSocket removed).2 ci).mpr ⟨tracked, fun fd => clean ⟨c, ci, own, fd⟩⟩
          | keeps _ _ same _ _ => exact (same (track.sockets l') ci).mpr tracked
        · rw [other l' here]
          exact tracked

theorem RegisterInv.step (inv : RegisterInv s) (track : TrackInv s) (slots : SlotInv s) {label : BusLabel}
    (clean : registersCleanly s label) (taken : busStep s label = some t) : RegisterInv t := by
  cases label with
  | client c a => exact inv.client track slots clean taken
  | listener l a =>
    obtain ⟨⟨listener, heap, conns⟩, run, same⟩ := Option.bind_eq_some_iff.mp taken
    cases same
    refine ⟨inv.listened track slots run clean, inv.single, ?_⟩
    intro c p l' slot serial ci number writing written
    refine inv.writes c p l' slot serial ci number writing ?_
    by_cases here : l' = l
    · subst here
      simp only [Function.update_self] at written
      rw [(listenerStep_move run).kept (slots.held c p l' slot serial writing)] at written
      exact written
    · simp only [Function.update_of_ne here] at written
      exact written
  | run k =>
    obtain ⟨_, _, rfl⟩ := busStep_run taken
    refine ⟨fun c => ?_, inv.single, inv.writes⟩
    have registers := inv.registers c
    cases own : (s.clients c).conn with
    | none => exact .of_conn_none own
    | some ci =>
      exact registers.frame own ⟨rfl, rfl, fun published => published, fun _ _ _ queued => queued,
        fun _ _ _ _ _ queued silent => ⟨queued, silent⟩, fun _ _ _ _ _ silent => ⟨rfl, silent⟩, fun _ tracked => tracked⟩

end Steps

end Kinetic
