import Kinetic.Bus.Stages

namespace Kinetic
open Function (update)
open Transition (Reach)

/-- A connection before and after a step of a listener. -/
structure ConnectionInfo.Same (info info' : ConnectionInfo) : Prop where
  fd : info'.fd = info.fd
  ssl : info'.ssl = info.ssl
  largest : info'.largestWrSeqIdSeen = info.largestWrSeqIdSeen

theorem ConnectionInfo.Same.refl (info : ConnectionInfo) : info.Same info := ⟨rfl, rfl, rfl⟩

/-- What a step does to the registered sockets. -/
inductive SocketMove (s t : BusState) : BusLabel → Prop
  | keeps (label : BusLabel) : t.fdSet = s.fdSet → t.nextConn = s.nextConn →
      (∀ ci, (s.conns.info ci).Same (t.conns.info ci)) → SocketMove s t label
  | accepts (c : Nat) (msg : UserMsg) (ci : Nat) : s.clients c = .idle → s.fdSet msg.fd = some ci → t.fdSet = s.fdSet →
      t.nextConn = s.nextConn →
      t.conns.info = update s.conns.info ci { s.conns.info ci with largestWrSeqIdSeen := msg.seqId } →
      SocketMove s t (.client c (.request msg))
  | registers (c : Nat) (fd : Int) (ssl : Bool) : s.fdSet fd = none → t.fdSet = update s.fdSet fd (some s.nextConn) →
      t.nextConn = s.nextConn + 1 → t.conns.info = update s.conns.info s.nextConn ⟨fd, ssl, -1, .none, 0⟩ →
      SocketMove s t (.client c (.register fd ssl))
  | removes (c : Nat) (fd : Int) (l slot serial : Nat) (ok : Bool) : s.clients c = .wait (.removeSocket fd) l slot serial →
      t.fdSet = update s.fdSet fd none → t.nextConn = s.nextConn → t.conns.info = s.conns.info →
      SocketMove s t (.client c (.onCompletion ok))

section Clients
variable {s t : BusState} {c : Nat} {a : ClientAction}

theorem SocketMove.of_eq {label : BusLabel} (fdSet : t.fdSet = s.fdSet) (nextConn : t.nextConn = s.nextConn)
    (info : t.conns.info = s.conns.info) : SocketMove s t label :=
  .keeps label fdSet nextConn fun ci => by rw [info]; exact .refl _

theorem BusState.sendOn_sockets (s : BusState) (c b : Nat) (pc : SendPc) :
    (s.sendOn c b pc).fdSet = s.fdSet ∧ (s.sendOn c b pc).nextConn = s.nextConn ∧
      (s.sendOn c b pc).conns = s.conns := by
  cases pc <;> exact ⟨rfl, rfl, rfl⟩

theorem BusState.notSent_sockets (s : BusState) (c : Nat) (p : Purpose) :
    (s.notSent c p).fdSet = s.fdSet ∧ (s.notSent c p).nextConn = s.nextConn ∧
      (s.notSent c p).conns.info = s.conns.info := by
  cases p with
  | hold b start tries =>
    simp only [BusState.notSent]
    split <;> exact ⟨rfl, rfl, rfl⟩
  | expect b tries =>
    simp only [BusState.notSent]
    split <;> exact ⟨rfl, rfl, rfl⟩
  | _ => exact ⟨rfl, rfl, rfl⟩

theorem clientStep_sockets (run : clientStep s c a = some t) : SocketMove s t (.client c a) := by
  cases clientStep_cases run with
  | requests msg ci idle registered => exact .accepts c msg ci idle registered rfl rfl rfl
  | registers fd ssl idle free => exact .registers c fd ssl free rfl rfl rfl
  | sends b pc pc' e sent sending moved =>
    obtain ⟨fdSet, nextConn, conns⟩ := (s.setBox b { s.heap.boxes b with toSendBox := sent }).sendOn_sockets c b pc'
    exact .of_eq fdSet nextConn (by rw [conns]; rfl)
  | noSlot p acquiring =>
    obtain ⟨fdSet, nextConn, info⟩ := s.notSent_sockets c p
    exact .of_eq fdSet nextConn info
  | commits p l slot serial writing => cases p <;> exact .of_eq rfl rfl rfl
  | fails p l slot serial writing =>
    obtain ⟨fdSet, nextConn, info⟩ := (s.setMsgs l ((s.listeners l).msgs.releaseMsg slot)).notSent_sockets c p
    exact .of_eq fdSet nextConn info
  | held b start tries l slot serial waiting =>
    obtain ⟨fdSet, nextConn, conns⟩ := (s.setMsgs l ((s.listeners l).msgs.readReply slot)).sendOn_sockets c b
      (sendLoop start ((s.heap.boxes b).timeoutSec * 1000))
    exact .of_eq fdSet nextConn (by rw [conns]; rfl)
  | removed fd ci l slot serial waiting => exact .removes c fd l slot serial true waiting rfl rfl rfl
  | _ => exact .of_eq rfl rfl rfl

end Clients

theorem addSocket_same {env : AddEnv} {t t' : SocketTable} {conns conns' : Connections} {ci : Nat}
    (run : addSocket env t conns ci = some (t', conns')) (x : Nat) : (conns.info x).Same (conns'.info x) := by
  have primed : (conns.info x).Same ((conns.set ci { conns.info ci with toReadSize := env.nextRead }).info x) := by
    simp only [Connections.set, Function.update_apply]
    split
    · rename_i here
      rw [here]
      exact ⟨rfl, rfl, rfl⟩
    · exact .refl _
  unfold addSocket at run
  dsimp only at run
  split at run
  · cases run
    exact .refl _
  · split at run
    · cases run
      exact .refl _
    · split at run
      · split at run
        · cases run
          exact primed
        · split at run
          · cases run
            exact primed
          · cases run
            exact primed
      · cases run

theorem listenerStep_same {l l' : Listener} {h h' : Heap} {conns conns' : Connections} {a : ListenerAction}
    (run : listenerStep l h conns a = some (l', h', conns')) (x : Nat) : (conns.info x).Same (conns'.info x) := by
  cases listenerStep_cases run with
  | adds env slot rest ci serial sockets conns' atLoop pipe written added => exact addSocket_same added x
  | errs i err =>
    simp only [Connections.set, Function.update_apply]
    split
    · rename_i here
      rw [here]
      exact ⟨rfl, rfl, rfl⟩
    · exact .refl _
  | _ => exact .refl _

theorem busStep_sockets {s t : BusState} {label : BusLabel} (taken : busStep s label = some t) : SocketMove s t label := by
  cases label with
  | client c a => exact clientStep_sockets taken
  | listener l a =>
    obtain ⟨⟨listener, heap, conns⟩, moved, run⟩ := Option.bind_eq_some_iff.mp taken
    cases run
    exact .keeps _ rfl rfl (listenerStep_same moved)
  | run k =>
    obtain ⟨_, _, rfl⟩ := busStep_run taken
    exact .of_eq rfl rfl rfl

/-- Each registered socket has a connection of its own. -/
def BusState.registered (s : BusState) : Prop :=
  ∀ fd ci, s.fdSet fd = some ci → ci < s.nextConn ∧ (s.conns.info ci).fd = fd

theorem BusState.registered.step {s t : BusState} {label : BusLabel} (inv : s.registered) (taken : busStep s label = some t) :
    t.registered := by
  intro fd ci present
  cases busStep_sockets taken with
  | keeps _ fdSet nextConn same =>
    rw [fdSet] at present
    rw [nextConn, (same ci).fd]
    exact inv fd ci present
  | accepts c msg accepted _ _ fdSet nextConn info =>
    rw [fdSet] at present
    rw [nextConn, info, Function.update_apply]
    split
    · rename_i here
      rw [← here]
      exact inv fd ci present
    · exact inv fd ci present
  | registers c new ssl free fdSet nextConn info =>
    rw [fdSet, Function.update_apply] at present
    split at present
    · rename_i here
      cases present
      rw [nextConn, info, Function.update_self]
      exact ⟨Nat.lt_succ_self _, here.symm⟩
    · obtain ⟨below, ofFd⟩ := inv fd ci present
      rw [nextConn, info, Function.update_of_ne (Nat.ne_of_lt below)]
      exact ⟨Nat.lt_succ_of_lt below, ofFd⟩
  | removes c removed l slot serial ok _ fdSet nextConn info =>
    rw [fdSet, Function.update_apply] at present
    split at present
    · cases present
    · rw [nextConn, info]
      exact inv fd ci present

theorem registered_of_reach {n : Nat} {s : BusState} {ok : BusState → BusLabel → Prop} (reach : Reach busStep (.new n) ok s) :
    s.registered := by
  refine reach.invariant ?_ fun s label t inv _ taken => inv.step taken
  intro fd ci present
  cases present

/-- Whether the client is in `Bus_ReleaseSocket` for the socket. -/
def Purpose.removes (fd : Int) : Purpose → Bool
  | .removeSocket removed => removed = fd
  | _ => false

def ClientPc.removes (fd : Int) : ClientPc → Bool
  | .acquire p => p.removes fd
  | .push p _ _ _ => p.removes fd
  | .wait p _ _ _ => p.removes fd
  | _ => false

section Removing
variable {s t : BusState} {c : Nat} {a : ClientAction} {fd : Int}

theorem BusState.sendOn_removes (s : BusState) (c b : Nat) (pc : SendPc) (fd : Int) :
    ((s.sendOn c b pc).clients c).removes fd = false := by
  cases pc <;> simp [BusState.sendOn, BusState.setClient, BusState.returned, ClientPc.removes, Purpose.removes]

theorem BusState.notSent_removes (s : BusState) (c : Nat) (p : Purpose) (fd : Int) :
    ((s.notSent c p).clients c).removes fd = false := by
  cases p with
  | hold b start tries =>
    simp only [BusState.notSent]
    split
    · simp [BusState.setClient, ClientPc.removes, Purpose.removes]
    · exact s.sendOn_removes c b _ fd
  | expect b tries =>
    simp only [BusState.notSent]
    split
    · simp [BusState.setClient, ClientPc.removes, Purpose.removes]
    · exact s.sendOn_removes c b _ fd
  | _ => simp [BusState.notSent, BusState.setClient, ClientPc.removes]

/-- A client that is in `Bus_ReleaseSocket` was so before, or has just been called. -/
theorem clientStep_removes (run : clientStep s c a = some t) (removes : (t.clients c).removes fd = true) :
    (s.clients c).removes fd = true ∨ s.clients c = .idle ∧ a = .release fd := by
  cases clientStep_cases run with
  | refused => exact .inl removes
  | poolFull => exact .inl removes
  | releases released idle =>
    simp only [BusState.setClient, Function.update_self, ClientPc.removes, Purpose.removes, decide_eq_true_eq] at removes
    exact .inr ⟨idle, by rw [removes]⟩
  | sends b pc pc' e sent =>
    rw [BusState.sendOn_removes] at removes
    cases removes
  | noSlot p acquiring =>
    rw [BusState.notSent_removes] at removes
    cases removes
  | takes p slot next acquiring =>
    simp only [BusState.setClient, Function.update_self, ClientPc.removes] at removes
    rw [acquiring]
    exact .inl removes
  | commits p l slot serial writing =>
    rw [writing]
    cases p with
    | expect b tries => simp [BusState.pushed, BusState.returned, BusState.setClient, ClientPc.removes] at removes
    | _ =>
      simp only [BusState.pushed, BusState.setClient, Function.update_self] at removes
      exact .inl removes
  | fails p l slot serial writing =>
    rw [BusState.notSent_removes] at removes
    cases removes
  | held b start tries l slot serial waiting =>
    rw [BusState.sendOn_removes] at removes
    cases removes
  | notHeld b start tries l slot serial waiting =>
    rw [BusState.sendOn_removes] at removes
    cases removes
  | _ => simp [BusState.setClient, BusState.returned, ClientPc.removes, Purpose.removes] at removes

end Removing

section Boxes
variable {s t : BusState} {c b : Nat} {a : ClientAction}

theorem Continues.keeps_box {box : Option Nat} (continues : Continues s t c box) (held : box = some b)
    (unanswered : t.results b = none) : (t.clients c).box = some b := by
  obtain ⟨pc, clients, _, outcome⟩ := continues.client
  rw [clients, Function.update_self]
  rcases outcome with ⟨kept, _⟩ | ⟨_, b', had, results⟩
  · rw [kept, held]
  · rw [held] at had
    cases had
    rw [results, Function.update_self] at unanswered
    cases unanswered

/-- A client has its box until `Bus_SendRequest` returns. -/
theorem clientStep_keeps_box (run : clientStep s c a = some t) (held : (s.clients c).box = some b)
    (unanswered : t.results b = none) : (t.clients c).box = some b := by
  cases clientStep_move run with
  | requests msg idle =>
    rw [idle] at held
    cases held
  | goesOn a _ alone continues => exact continues.keeps_box held unanswered
  | delivers b' alone box clients listeners scheduled nextBox results =>
    rw [held] at box
    cases box
    rw [results, Function.update_self] at unanswered
    cases unanswered
  | takes p l slot next acquiring _ free empty same =>
    rw [acquiring] at held
    subst same
    simp only [BusState.setClient, Function.update_self]
    exact held
  | commits p l slot serial writing same =>
    rw [writing] at held
    subst same
    cases p with
    | expect b' tries =>
      cases held
      simp [BusState.pushed, BusState.returned] at unanswered
    | _ =>
      simp only [BusState.pushed, BusState.setClient, Function.update_self]
      exact held
  | fails p l slot serial writing continues => exact continues.keeps_box (by rw [writing] at held; exact held) unanswered
  | reads p l slot serial reply rest waiting pipe continues =>
    exact continues.keeps_box (by rw [waiting] at held; exact held) unanswered
  | givesUp p l slot serial waiting continues =>
    exact continues.keeps_box (by rw [waiting] at held; exact held) unanswered

theorem busStep_keeps_box {label : BusLabel} (taken : busStep s label = some t) (held : (s.clients c).box = some b)
    (unanswered : t.results b = none) : (t.clients c).box = some b := by
  cases busStep_move taken with
  | client c' a next clients =>
    by_cases here : c = c'
    · subst here
      exact clientStep_keeps_box taken held unanswered
    · rw [clients, Function.update_of_ne here]
      exact held
  | listener l a listener clients => rw [clients]; exact held
  | run k clients => rw [clients]; exact held

end Boxes

section Messages
variable {s t : BusState} {c b : Nat} {a : ClientAction}

theorem sendStep_outMsg {ssl : Bool} {box box' : SendBox} {pc pc' : SendPc} {e : SendEvent}
    (run : sendStep ssl box pc e = some (box', pc')) : box'.outMsg = box.outMsg := by
  obtain ⟨n, _, rfl⟩ := sendStep_box run
  rfl

theorem BusState.sendOn_outMsg (s : BusState) (c b : Nat) (pc : SendPc) (x : Nat) :
    ((s.sendOn c b pc).heap.boxes x).outMsg = (s.heap.boxes x).outMsg := by
  have written {box : BoxedMsg} (same : box.outMsg = (s.heap.boxes b).outMsg) :
      (update s.heap.boxes b box x).outMsg = (s.heap.boxes x).outMsg := by
    rw [Function.update_apply]
    split
    · rename_i here
      rw [here, same]
    · rfl
  cases pc with
  | expect => exact written rfl
  | failure status => exact written rfl
  | _ => rfl

theorem BusState.notSent_outMsg (s : BusState) (c : Nat) (p : Purpose) (x : Nat) :
    ((s.notSent c p).heap.boxes x).outMsg = (s.heap.boxes x).outMsg := by
  cases p with
  | hold b start tries =>
    simp only [BusState.notSent]
    split
    · rfl
    · exact s.sendOn_outMsg c b _ x
  | expect b tries =>
    simp only [BusState.notSent]
    split
    · rfl
    · exact s.sendOn_outMsg c b _ x
  | _ => rfl

/-- Nobody changes the bytes of a message. -/
theorem clientStep_outMsg (run : clientStep s c a = some t) {x : Nat} (old : x < s.nextBox) :
    (t.heap.boxes x).outMsg = (s.heap.boxes x).outMsg := by
  cases clientStep_cases run with
  | requests msg ci idle =>
    simp [BusState.setClient, BusState.setBox, Heap.setBox, Function.update_of_ne (Nat.ne_of_lt old)]
  | sends b pc pc' e sent sending moved =>
    rw [BusState.sendOn_outMsg]
    simp only [BusState.setBox, Heap.setBox, Function.update_apply]
    split
    · rename_i here
      rw [here]
      exact sendStep_outMsg moved
    · rfl
  | noSlot p acquiring => exact s.notSent_outMsg c p x
  | commits p l slot serial writing => cases p <;> rfl
  | fails p l slot serial writing => exact (s.setMsgs l _).notSent_outMsg c p x
  | held b start tries l slot serial waiting => exact (s.setMsgs l _).sendOn_outMsg c b _ x
  | _ => rfl

theorem RxMove.outMsg {t t' : RxTable} {h h' : Heap} {e : RxEvent} (move : RxMove t h t' h' e) (x : Nat) :
    (h'.boxes x).outMsg = (h.boxes x).outMsg := by
  cases move with
  | offers e i b box after accepted offer offered =>
    have same : box.outMsg = (h.boxes b).outMsg := by
      cases offer <;> rfl
    rw [offered.boxes, Function.update_apply]
    split
    · rename_i here
      rw [here, same]
    · rfl
  | keeps e _ same => rw [same]
  | frees i _ _ _ same => rw [same]
  | holds i fd seqId _ _ _ same => rw [same]
  | saves i fd seqId old result error _ _ _ _ _ same => rw [same]
  | errs fd err _ _ same => rw [same]
  | pairs i b result _ _ _ same => rw [same]

/-- What a box is for and what it sends stays as `box_msg` has written it. -/
theorem busStep_box {label : BusLabel} (taken : busStep s label = some t) {x : Nat} (old : x < s.nextBox) :
    (t.heap.boxes x).fd = (s.heap.boxes x).fd ∧ (t.heap.boxes x).outSeqId = (s.heap.boxes x).outSeqId ∧
      (t.heap.boxes x).outMsg = (s.heap.boxes x).outMsg := by
  cases busStep_move taken with
  | client c a next clients stage =>
    obtain ⟨fd, seqId⟩ := stage.identity (Nat.ne_of_lt old)
    exact ⟨fd, seqId, clientStep_outMsg taken old⟩
  | listener l a listener clients _ listeners move =>
    obtain ⟨fd, seqId⟩ := move.identity x
    exact ⟨fd, seqId, move.outMsg x⟩
  | run k clients listeners heap =>
    rw [heap]
    exact ⟨rfl, rfl, rfl⟩

end Messages

end Kinetic
