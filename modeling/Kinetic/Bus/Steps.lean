import Kinetic.Bus.Model
import Kinetic.Listener.Boxes
import Kinetic.Send.Steps

namespace Kinetic
open Function (update)

def Purpose.box : Purpose → Option Nat
  | .hold b _ _ => some b
  | .expect b _ => some b
  | _ => none

/-- The box that goes to the listener with the command. -/
def Purpose.handsOver : Purpose → Option Nat
  | .expect b _ => some b
  | _ => none

/-- The box a client thread has. -/
def ClientPc.box : ClientPc → Option Nat
  | .idle => none
  | .send b _ => some b
  | .acquire p => p.box
  | .push p _ _ _ => p.box
  | .wait p _ _ _ => p.box

/-- Whether the client has nothing to do with a slot. -/
def ClientPc.alone : ClientPc → Bool
  | .push .. => false
  | .wait .. => false
  | _ => true

/-- A client with a box, or none, goes on without a slot: it keeps what it has, or its request is rejected. -/
structure Continues (s t : BusState) (c : Nat) (box : Option Nat) : Prop where
  listeners : t.listeners = s.listeners
  scheduled : t.heap.scheduled = s.heap.scheduled
  nextBox : t.nextBox = s.nextBox
  ran : t.ran = s.ran
  client : ∃ pc, t.clients = update s.clients c pc ∧ pc.alone = true ∧
    ((pc.box = box ∧ t.results = s.results) ∨
      (pc.box = none ∧ ∃ b, box = some b ∧ t.results = update s.results b (some false)))

theorem BusState.sendOn_continues (s : BusState) (c b : Nat) (pc : SendPc) (unfinished : pc ≠ .returned true) :
    Continues s (s.sendOn c b pc) c (some b) := by
  cases pc with
  | returned res =>
    cases res with
    | true => exact absurd rfl unfinished
    | false => exact ⟨rfl, rfl, rfl, rfl, _, rfl, rfl, .inr ⟨rfl, b, rfl, rfl⟩⟩
  | _ => exact ⟨rfl, rfl, rfl, rfl, _, rfl, rfl, .inl ⟨rfl, rfl⟩⟩

theorem BusState.notSent_continues (s : BusState) (c : Nat) (p : Purpose) : Continues s (s.notSent c p) c p.box := by
  cases p with
  | hold b start tries =>
    simp only [BusState.notSent]
    split
    · exact ⟨rfl, rfl, rfl, rfl, _, rfl, rfl, .inl ⟨rfl, rfl⟩⟩
    · exact s.sendOn_continues c b _ (by simp)
  | expect b tries =>
    simp only [BusState.notSent]
    split
    · exact ⟨rfl, rfl, rfl, rfl, _, rfl, rfl, .inl ⟨rfl, rfl⟩⟩
    · exact s.sendOn_continues c b _ (by simp)
  | _ => exact ⟨rfl, rfl, rfl, rfl, _, rfl, rfl, .inl ⟨rfl, rfl⟩⟩

theorem sendLoop_unfinished (start : Timeval) (remMsec : Int) : sendLoop start remMsec ≠ .returned true := by
  unfold sendLoop
  split <;> simp

/-- The steps of a client, one by one. -/
inductive ClientStep (s : BusState) (c : Nat) : ClientAction → BusState → Prop
  | refused (msg : UserMsg) : s.clients c = .idle → ClientStep s c (.request msg) s
  | requests (msg : UserMsg) (ci : Nat) : s.clients c = .idle → s.fdSet msg.fd = some ci → (boxMsg s msg).isSome = true →
      ClientStep s c (.request msg)
        { (s.setBox s.nextBox { BoxedMsg.calloc with
            outMsg := msg.msg
            timeoutSec := effectiveTimeoutSec msg.timeoutSec
            fd := msg.fd
            ssl := (s.conns.info ci).ssl
            outSeqId := msg.seqId }).setClient c (.send s.nextBox .timestampStart) with
          nextBox := s.nextBox + 1
          conns := s.conns.set ci { s.conns.info ci with largestWrSeqIdSeen := msg.seqId } }
  | registers (fd : Int) (ssl : Bool) : s.clients c = .idle → s.fdSet fd = none →
      ClientStep s c (.register fd ssl)
        { s.setClient c (.acquire (.addSocket s.nextConn)) with
          conns := s.conns.set s.nextConn ⟨fd, ssl, -1, .none, 0⟩
          nextConn := s.nextConn + 1
          fdSet := update s.fdSet fd (some s.nextConn) }
  | releases (fd : Int) : s.clients c = .idle → ClientStep s c (.release fd) (s.setClient c (.acquire (.removeSocket fd)))
  | stops (l : Nat) : s.clients c = .idle → l < s.listenerCount →
      ClientStep s c (.shutdown l) (s.setClient c (.acquire (.shutdown l)))
  | sends (b : Nat) (pc pc' : SendPc) (e : SendEvent) (sent : SendBox) : s.clients c = .send b pc →
      sendStep (s.heap.boxes b).ssl (s.heap.boxes b).toSendBox pc e = some (sent, pc') →
      ClientStep s c (.event e) ((s.setBox b { s.heap.boxes b with toSendBox := sent }).sendOn c b pc')
  | delivers (b : Nat) (status : BusSendStatus) : s.clients c = .send b (.failure status) →
      ClientStep s c (.pool true)
        ({ s with heap := { s.heap with scheduled := s.heap.scheduled ++ [b] } }.returned c b true)
  | poolFull (b : Nat) (status : BusSendStatus) : s.clients c = .send b (.failure status) → ClientStep s c (.pool false) s
  | noSlot (p : Purpose) : s.clients c = .acquire p → ClientStep s c .getFreeMsg (s.notSent c p)
  | takes (p : Purpose) (slot : Nat) (next : List Nat) : s.clients c = .acquire p →
      (s.listeners (p.listener s)).msgs.msgFreelist = slot :: next → (s.listeners (p.listener s)).msgs.msgs slot = none →
      p.statusSet s = true →
      ClientStep s c .getFreeMsg
        { (s.setMsgs (p.listener s) ({ (s.listeners (p.listener s)).msgs with msgFreelist := next }.fill slot
            ⟨p.command s, s.nextSerial⟩)).setClient c (.push p (p.listener s) slot s.nextSerial) with
          nextSerial := s.nextSerial + 1 }
  | commits (p : Purpose) (l slot serial : Nat) : s.clients c = .push p l slot serial →
      ClientStep s c (.pushMessage true) ((s.setMsgs l ((s.listeners l).msgs.pushMessage slot)).pushed c l slot serial p)
  | fails (p : Purpose) (l slot serial : Nat) : s.clients c = .push p l slot serial →
      ClientStep s c (.pushMessage false) ((s.setMsgs l ((s.listeners l).msgs.releaseMsg slot)).notSent c p)
  | held (b : Nat) (start : Timeval) (tries l slot serial : Nat) : s.clients c = .wait (.hold b start tries) l slot serial →
      (s.listeners l).msgs.pipes slot ≠ [] → (s.heap.boxes b).outSentSize = 0 →
      ClientStep s c (.onCompletion true) ((s.setMsgs l ((s.listeners l).msgs.readReply slot)).sendOn c b
        (sendLoop start ((s.heap.boxes b).timeoutSec * 1000)))
  | removed (fd : Int) (ci l slot serial : Nat) : s.clients c = .wait (.removeSocket fd) l slot serial →
      (s.listeners l).msgs.pipes slot ≠ [] → s.fdSet fd = some ci →
      ClientStep s c (.onCompletion true)
        { (s.setMsgs l ((s.listeners l).msgs.readReply slot)).setClient c .idle with
          fdSet := update s.fdSet fd none, conns := s.conns.free ci }
  | answered (p : Purpose) (l slot serial : Nat) : s.clients c = .wait p l slot serial →
      (s.listeners l).msgs.pipes slot ≠ [] → p.box = none →
      ClientStep s c (.onCompletion true) ((s.setMsgs l ((s.listeners l).msgs.readReply slot)).setClient c .idle)
  | notHeld (b : Nat) (start : Timeval) (tries l slot serial : Nat) :
      s.clients c = .wait (.hold b start tries) l slot serial →
      ClientStep s c (.onCompletion false) (s.sendOn c b (.returned false))
  | notAdded (ci l slot serial : Nat) : s.clients c = .wait (.addSocket ci) l slot serial →
      ClientStep s c (.onCompletion false) { s.setClient c .idle with conns := s.conns.free ci }
  | notAnswered (p : Purpose) (l slot serial : Nat) : s.clients c = .wait p l slot serial → p.box = none →
      ClientStep s c (.onCompletion false) (s.setClient c .idle)

theorem boxMsg_eq_some {s : BusState} {msg : UserMsg} {box : BoxedMsg} {conns : Connections}
    (boxed : boxMsg s msg = some (box, conns)) :
    ∃ ci, s.fdSet msg.fd = some ci ∧
      box = { BoxedMsg.calloc with
        outMsg := msg.msg
        timeoutSec := effectiveTimeoutSec msg.timeoutSec
        fd := msg.fd
        ssl := (s.conns.info ci).ssl
        outSeqId := msg.seqId } ∧
      conns = s.conns.set ci { s.conns.info ci with largestWrSeqIdSeen := msg.seqId } := by
  obtain ⟨ci, registered, boxed⟩ := Option.bind_eq_some_iff.mp boxed
  dsimp only at boxed
  split at boxed
  · cases boxed
  · cases boxed
    exact ⟨ci, registered, rfl, rfl⟩

section Inversion
variable {s t : BusState} {c : Nat} {a : ClientAction}

theorem sendRequest_step {msg : UserMsg} (idle : s.clients c = .idle) (run : sendRequest s c msg = some t) :
    ClientStep s c (.request msg) t := by
  unfold sendRequest at run
  split at run
  · cases run
    exact .refused msg idle
  split at run
  · cases run
  split at run
  · cases run
    exact .refused msg idle
  · rename_i box conns boxed
    cases run
    obtain ⟨ci, registered, rfl, rfl⟩ := boxMsg_eq_some boxed
    exact .requests msg ci idle registered (by rw [boxed]; rfl)

theorem acquireMsg_step {p : Purpose} (acquiring : s.clients c = .acquire p) (run : acquireMsg s c p = some t) :
    ClientStep s c .getFreeMsg t := by
  obtain ⟨⟨slot, msgs⟩, got, run⟩ := Option.bind_eq_some_iff.mp run
  unfold getFreeMsg at got
  split at got
  · cases got
    cases run
    exact .noSlot p acquiring
  · rename_i head next free
    split at got
    · rename_i empty
      cases got
      simp only at run
      split at run
      · rename_i defined
        cases run
        exact .takes p head next acquiring free empty defined
      · cases run
    · cases got

theorem completed_step {p : Purpose} {l slot serial : Nat} (waiting : s.clients c = .wait p l slot serial)
    (present : (s.listeners l).msgs.pipes slot ≠ [])
    (run : (s.setMsgs l ((s.listeners l).msgs.readReply slot)).completed c p = some t) :
    ClientStep s c (.onCompletion true) t := by
  cases p with
  | hold b start tries =>
    simp only [BusState.completed] at run
    split at run
    · rename_i unsent
      cases run
      exact .held b start tries l slot serial waiting present unsent
    · cases run
  | expect b tries => cases run
  | removeSocket fd =>
    simp only [BusState.completed] at run
    split at run
    · rename_i ci registered
      cases run
      exact .removed fd ci l slot serial waiting present registered
    · cases run
      exact .answered _ l slot serial waiting present rfl
  | _ =>
    cases run
    exact .answered _ l slot serial waiting present rfl

theorem notCompleted_step {p : Purpose} {l slot serial : Nat} (waiting : s.clients c = .wait p l slot serial)
    (run : s.notCompleted c p = some t) : ClientStep s c (.onCompletion false) t := by
  cases p with
  | hold b start tries =>
    cases run
    exact .notHeld b start tries l slot serial waiting
  | expect b tries => cases run
  | addSocket ci =>
    cases run
    exact .notAdded ci l slot serial waiting
  | _ =>
    cases run
    exact .notAnswered _ l slot serial waiting rfl

theorem clientStep_cases (run : clientStep s c a = some t) : ClientStep s c a t := by
  unfold clientStep at run
  split at run
  · rename_i idle
    exact sendRequest_step idle run
  · rename_i fd ssl idle
    unfold registerSocket at run
    split at run
    · cases run
    · rename_i free
      cases run
      exact .registers fd ssl idle free
  · rename_i fd idle
    cases run
    exact .releases fd idle
  · rename_i l idle
    split at run
    · rename_i below
      cases run
      exact .stops l idle below
    · cases run
  · rename_i b pc e sending
    obtain ⟨⟨sent, pc'⟩, moved, run⟩ := Option.bind_eq_some_iff.mp run
    cases run
    exact .sends b pc pc' e sent sending moved
  · rename_i b status accepted failing
    obtain ⟨heap, scheduled, run⟩ := Option.bind_eq_some_iff.mp run
    unfold processBoxedMessage at scheduled
    split at scheduled
    · cases scheduled
    cases accepted with
    | true =>
      cases scheduled
      cases run
      exact .delivers b status failing
    | false =>
      cases run
      exact .poolFull b status failing
  · rename_i p acquiring
    exact acquireMsg_step acquiring run
  · rename_i p l slot serial writing
    cases run
    exact .commits p l slot serial writing
  · rename_i p l slot serial writing
    cases run
    exact .fails p l slot serial writing
  · rename_i p l slot serial waiting
    split at run
    · cases run
    · rename_i present
      exact completed_step waiting present run
  · rename_i p l slot serial waiting
    exact notCompleted_step waiting run
  · cases run

end Inversion

/-- Everything a client step can do to the slots and the boxes. -/
inductive ClientMove (s t : BusState) (c : Nat) : ClientAction → Prop
  | requests (msg : UserMsg) : s.clients c = .idle → t.clients = update s.clients c (.send s.nextBox .timestampStart) →
      t.listeners = s.listeners → t.heap.scheduled = s.heap.scheduled → t.nextBox = s.nextBox + 1 →
      t.results = s.results → t.ran = s.ran → ClientMove s t c (.request msg)
  | goesOn (a : ClientAction) : (∀ ok, a ≠ .onCompletion ok) → (s.clients c).alone = true →
      Continues s t c (s.clients c).box → ClientMove s t c a
  | delivers (b : Nat) : (s.clients c).alone = true → (s.clients c).box = some b → t.clients = update s.clients c .idle →
      t.listeners = s.listeners → t.heap.scheduled = s.heap.scheduled ++ [b] → t.nextBox = s.nextBox →
      t.results = update s.results b (some true) → t.ran = s.ran → ClientMove s t c (.pool true)
  | takes (p : Purpose) (l slot : Nat) (next : List Nat) : s.clients c = .acquire p → l = p.listener s →
      (s.listeners l).msgs.msgFreelist = slot :: next → (s.listeners l).msgs.msgs slot = none →
      t = { (s.setMsgs l ({ (s.listeners l).msgs with msgFreelist := next }.fill slot
        ⟨p.command s, s.nextSerial⟩)).setClient c (.push p l slot s.nextSerial) with nextSerial := s.nextSerial + 1 } →
      ClientMove s t c .getFreeMsg
  | commits (p : Purpose) (l slot serial : Nat) : s.clients c = .push p l slot serial →
      t = (s.setMsgs l ((s.listeners l).msgs.pushMessage slot)).pushed c l slot serial p →
      ClientMove s t c (.pushMessage true)
  | fails (p : Purpose) (l slot serial : Nat) : s.clients c = .push p l slot serial →
      Continues (s.setMsgs l ((s.listeners l).msgs.releaseMsg slot)) t c p.box → ClientMove s t c (.pushMessage false)
  | reads (p : Purpose) (l slot serial reply : Nat) (rest : List Nat) : s.clients c = .wait p l slot serial →
      (s.listeners l).msgs.pipes slot = reply :: rest →
      Continues (s.setMsgs l ((s.listeners l).msgs.readReply slot)) t c p.box → ClientMove s t c (.onCompletion true)
  | givesUp (p : Purpose) (l slot serial : Nat) : s.clients c = .wait p l slot serial →
      Continues s t c p.box → ClientMove s t c (.onCompletion false)

/-- A client that only changes where it stands. -/
theorem Continues.of_setClient {s : BusState} {c : Nat} {pc : ClientPc} {box : Option Nat} (alone : pc.alone = true)
    (kept : pc.box = box) : Continues s (s.setClient c pc) c box :=
  ⟨rfl, rfl, rfl, rfl, pc, rfl, alone, .inl ⟨kept, rfl⟩⟩

theorem Continues.refl {s : BusState} {c : Nat} (alone : (s.clients c).alone = true) : Continues s s c (s.clients c).box :=
  ⟨rfl, rfl, rfl, rfl, s.clients c, (Function.update_eq_self c s.clients).symm, alone, .inl ⟨rfl, rfl⟩⟩

theorem Continues.of_setBox {s t : BusState} {c b : Nat} {contents : BoxedMsg} {box : Option Nat}
    (continues : Continues (s.setBox b contents) t c box) : Continues s t c box :=
  ⟨continues.listeners, continues.scheduled, continues.nextBox, continues.ran, continues.client⟩

theorem sendStep_unfinished {ssl : Bool} {box box' : SendBox} {pc pc' : SendPc} {e : SendEvent}
    (run : sendStep ssl box pc e = some (box', pc')) : pc' ≠ .returned true := by
  cases sendStep_move run <;> simp

theorem clientStep_move {s t : BusState} {c : Nat} {a : ClientAction} (run : clientStep s c a = some t) :
    ClientMove s t c a := by
  cases clientStep_cases run with
  | refused msg idle =>
    have alone : (s.clients c).alone = true := by rw [idle]; rfl
    exact .goesOn _ (by simp) alone (.refl alone)
  | requests msg ci idle => exact .requests msg idle rfl rfl rfl rfl rfl rfl
  | registers fd ssl idle =>
    refine .goesOn _ (by simp) (by rw [idle]; rfl) ?_
    rw [idle]
    exact ⟨rfl, rfl, rfl, rfl, _, rfl, rfl, .inl ⟨rfl, rfl⟩⟩
  | releases fd idle =>
    refine .goesOn _ (by simp) (by rw [idle]; rfl) ?_
    rw [idle]
    exact .of_setClient rfl rfl
  | stops l idle =>
    refine .goesOn _ (by simp) (by rw [idle]; rfl) ?_
    rw [idle]
    exact .of_setClient rfl rfl
  | sends b pc pc' e sent sending moved =>
    refine .goesOn _ (by simp) (by rw [sending]; rfl) ?_
    rw [sending]
    exact (BusState.sendOn_continues _ c b pc' (sendStep_unfinished moved)).of_setBox
  | delivers b status failing => exact .delivers b (by rw [failing]; rfl) (by rw [failing]; rfl) rfl rfl rfl rfl rfl rfl
  | poolFull b status failing =>
    have alone : (s.clients c).alone = true := by rw [failing]; rfl
    exact .goesOn _ (by simp) alone (.refl alone)
  | noSlot p acquiring =>
    refine .goesOn _ (by simp) (by rw [acquiring]; rfl) ?_
    rw [acquiring]
    exact s.notSent_continues c p
  | takes p slot next acquiring free empty => exact .takes p _ slot next acquiring rfl free empty rfl
  | commits p l slot serial writing => exact .commits p l slot serial writing rfl
  | fails p l slot serial writing => exact .fails p l slot serial writing (BusState.notSent_continues _ c p)
  | held b start tries l slot serial waiting present =>
    obtain ⟨reply, rest, pipe⟩ := List.exists_cons_of_ne_nil present
    exact .reads _ l slot serial reply rest waiting pipe (BusState.sendOn_continues _ c b _ (sendLoop_unfinished _ _))
  | removed fd ci l slot serial waiting present =>
    obtain ⟨reply, rest, pipe⟩ := List.exists_cons_of_ne_nil present
    exact .reads _ l slot serial reply rest waiting pipe ⟨rfl, rfl, rfl, rfl, _, rfl, rfl, .inl ⟨rfl, rfl⟩⟩
  | answered p l slot serial waiting present empty =>
    obtain ⟨reply, rest, pipe⟩ := List.exists_cons_of_ne_nil present
    exact .reads p l slot serial reply rest waiting pipe (.of_setClient rfl empty.symm)
  | notHeld b start tries l slot serial waiting =>
    exact .givesUp _ l slot serial waiting (s.sendOn_continues c b _ (by simp))
  | notAdded ci l slot serial waiting =>
    exact .givesUp _ l slot serial waiting ⟨rfl, rfl, rfl, rfl, _, rfl, rfl, .inl ⟨rfl, rfl⟩⟩
  | notAnswered p l slot serial waiting empty => exact .givesUp p l slot serial waiting (.of_setClient rfl empty.symm)

/-- The pool runs a task that it has accepted and not run before. -/
theorem busStep_run {s t : BusState} {k : Nat} (taken : busStep s (.run k) = some t) :
    k < s.heap.scheduled.length ∧ k ∉ s.ran ∧ t = { s with ran := k :: s.ran } := by
  simp only [busStep] at taken
  split at taken
  · rename_i waiting
    cases taken
    exact ⟨waiting.1, waiting.2, rfl⟩
  · cases taken

end Kinetic
