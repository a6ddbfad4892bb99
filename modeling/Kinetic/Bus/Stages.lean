import Kinetic.Bus.Callbacks
import Kinetic.Listener.Cells

namespace Kinetic
open Function (update)
open Transition (Reach)

/-- How far a client thread has come with its box: before its `HOLD` is committed, after that, on the way to commit its
`EXPECT`, or with a failure for the thread pool. -/
inductive Stage
  | none
  | fresh (b : Nat)
  | held (b : Nat)
  | expecting (b : Nat)
  | failed (b : Nat) (status : BusSendStatus)
  deriving DecidableEq

def Stage.box : Stage → Option Nat
  | .none => Option.none
  | .fresh b => some b
  | .held b => some b
  | .expecting b => some b
  | .failed b _ => some b

def SendPc.stage (b : Nat) : SendPc → Stage
  | .timestampStart => .fresh b
  | .hold _ => .fresh b
  | .expect => .expecting b
  | .failure status => .failed b status
  | .returned _ => .none
  | _ => .held b

def Purpose.stage : Purpose → Stage
  | .hold b _ _ => .fresh b
  | .expect b _ => .expecting b
  | _ => .none

def ClientPc.stage : ClientPc → Stage
  | .idle => .none
  | .send b pc => pc.stage b
  | .acquire p => p.stage
  | .push p _ _ _ => p.stage
  | .wait (.hold b _ _) _ _ _ => .held b
  | .wait p _ _ _ => p.stage

/-- The failures that the sending thread finds by itself. -/
def BusSendStatus.bySender : BusSendStatus → Bool
  | .txTimeout => true
  | .txFailure => true
  | .unregisteredSocket => true
  | .txTimeoutNotifyingListener => true
  | .timestampError => true
  | _ => false

/-- Everything a client step can do to the boxes, with the stage of the client before and after it. -/
inductive StageMove (s t : BusState) : Stage → Stage → Prop
  | keeps (stage : Stage) : t.heap.boxes = s.heap.boxes → StageMove s t stage stage
  | starts (box : BoxedMsg) : t.heap.boxes = update s.heap.boxes s.nextBox box → box.status = .undefined →
      StageMove s t .none (.fresh s.nextBox)
  | sends (b : Nat) (sent : SendBox) (stage : Stage) : stage = .fresh b ∨ stage = .held b →
      t.heap.boxes = update s.heap.boxes b { s.heap.boxes b with toSendBox := sent } → StageMove s t stage stage
  | rejects (b : Nat) (sent : SendBox) (stage : Stage) : stage = .fresh b ∨ stage = .held b →
      t.heap.boxes = update s.heap.boxes b { s.heap.boxes b with toSendBox := sent } → StageMove s t stage .none
  | holds (b : Nat) : t.heap.boxes = s.heap.boxes → StageMove s t (.fresh b) (.held b)
  | expects (b : Nat) (sent : SendBox) : t.heap.boxes = update s.heap.boxes b { s.heap.boxes b with
        toSendBox := sent
        status := if (s.heap.boxes b).status = .undefined then .requestComplete else (s.heap.boxes b).status } →
      StageMove s t (.held b) (.expecting b)
  | fails (b : Nat) (sent : SendBox) (status : BusSendStatus) (stage : Stage) : stage = .held b ∨ stage = .expecting b →
      status.bySender = true → t.heap.boxes = update s.heap.boxes b { s.heap.boxes b with
        toSendBox := sent, status := status, responseSeqId := 0, responseMsg := 0 } → StageMove s t stage (.failed b status)
  | leaves (b : Nat) (stage : Stage) : stage = .expecting b ∨ (∃ status, stage = .failed b status) →
      t.heap.boxes = s.heap.boxes → StageMove s t stage .none

/-- Where `sendStep` goes from a stage. -/
inductive SendMoves (b : Nat) (pc pc' : SendPc) : Prop
  | waits : pc'.stage b = pc.stage b → pc.stage b = .fresh b ∨ pc.stage b = .held b → SendMoves b pc pc'
  | rejected : pc.stage b = .fresh b → pc' = .returned false → SendMoves b pc pc'
  | sent : pc.stage b = .held b → pc' = .expect → SendMoves b pc pc'
  | failed (status : BusSendStatus) : pc.stage b = .held b → pc' = .failure status → status.bySender = true →
      SendMoves b pc pc'

theorem SendMoves.of_sendLoop {b : Nat} {pc : SendPc} (held : pc.stage b = .held b) (start : Timeval) (remMsec : Int) :
    SendMoves b pc (sendLoop start remMsec) := by
  rcases sendLoop_next start remMsec with ⟨_, again⟩ | late
  · rw [again]
    exact .waits held.symm (.inr held)
  · exact .failed _ held late rfl

theorem SendPc.stage_of_inLoop {pc : SendPc} (b : Nat) (inLoop : pc.inLoop = true) : pc.stage b = .held b := by
  cases pc with
  | timestampNow start => rfl
  | poll start rem => rfl
  | write start rem => rfl
  | _ => cases inLoop

theorem BusSendStatus.bySender_of_inLoop {status : BusSendStatus} (inLoop : status.inLoop = true) : status.bySender = true := by
  cases status with
  | txTimeout => rfl
  | txFailure => rfl
  | unregisteredSocket => rfl
  | _ => cases inLoop

theorem sendStep_moves {b : Nat} {ssl : Bool} {box box' : SendBox} {pc pc' : SendPc} {e : SendEvent}
    (run : sendStep ssl box pc e = some (box', pc')) : SendMoves b pc pc' := by
  cases sendStep_move run with
  | begins start => exact .waits rfl (.inl rfl)
  | rejected => exact .rejected rfl rfl
  | reads start now => exact .waits rfl (.inr rfl)
  | loops start rem _ _ here _ =>
    rcases here with rfl | rfl
    · exact .waits rfl (.inr rfl)
    · exact .waits rfl (.inr rfl)
  | writable start rem res => exact .waits rfl (.inr rfl)
  | rewrites start rem res => exact .waits rfl (.inr rfl)
  | written start rem res => exact .waits rfl (.inr rfl)
  | sent done => exact .sent rfl rfl
  | fails _ _ status here among =>
    exact .failed status (SendPc.stage_of_inLoop b here) rfl (BusSendStatus.bySender_of_inLoop among)
  | notStamped => exact .failed _ rfl rfl rfl

/-- `sendOn` sets the client in the stage of its send. -/
theorem BusState.sendOn_client (s : BusState) (c b : Nat) (pc : SendPc) :
    ∃ pc', (s.sendOn c b pc).clients = update s.clients c pc' ∧ pc'.stage = pc.stage b := by
  cases pc <;> exact ⟨_, rfl, rfl⟩

/-- A client goes on in its send after a change to the sent part of its box. -/
theorem SendMoves.stage {s base : BusState} {c b : Nat} {pc pc' : SendPc} {sent : SendBox} (moves : SendMoves b pc pc')
    (boxes : base.heap.boxes = update s.heap.boxes b { s.heap.boxes b with toSendBox := sent })
    (clients : base.clients = s.clients) :
    ∃ next, (base.sendOn c b pc').clients = update s.clients c next ∧
      StageMove s (base.sendOn c b pc') (pc.stage b) next.stage := by
  obtain ⟨next, placed, stage⟩ := base.sendOn_client c b pc'
  rw [clients] at placed
  refine ⟨next, placed, ?_⟩
  rw [stage]
  have here : base.heap.boxes b = { s.heap.boxes b with toSendBox := sent } := by
    rw [boxes, Function.update_self]
  cases moves with
  | waits same place =>
    rw [same]
    refine .sends b sent _ place ?_
    cases pc' with
    | expect => rcases place with place | place <;> rw [place] at same <;> cases same
    | failure status => rcases place with place | place <;> rw [place] at same <;> cases same
    | _ => exact boxes
  | rejected fresh gone =>
    subst gone
    exact .rejects b sent _ (.inl fresh) boxes
  | sent held done =>
    subst done
    rw [held]
    refine .expects b sent ?_
    simp only [BusState.sendOn, BusState.setClient, BusState.setBox, Heap.setBox]
    rw [boxes, Function.update_self, Function.update_idem]
  | failed status held done sender =>
    subst done
    refine .fails b sent status _ (.inl held) sender ?_
    simp only [BusState.sendOn, BusState.setClient, BusState.setBox, Heap.setBox]
    rw [boxes, Function.update_self, Function.update_idem]

theorem update_toSendBox_self (boxes : Nat → BoxedMsg) (b : Nat) :
    boxes = update boxes b { boxes b with toSendBox := (boxes b).toSendBox } := (Function.update_eq_self b boxes).symm

/-- A client that could not get its message through tries again, gives up, or fails. -/
theorem BusState.notSent_stage {s base : BusState} {c : Nat} (p : Purpose) (boxes : base.heap.boxes = s.heap.boxes)
    (clients : base.clients = s.clients) :
    ∃ next, (base.notSent c p).clients = update s.clients c next ∧ StageMove s (base.notSent c p) p.stage next.stage := by
  cases p with
  | hold b start tries =>
    simp only [BusState.notSent]
    split
    · exact ⟨.acquire (.hold b start (tries + 1)), by rw [← clients]; rfl, .keeps _ boxes⟩
    · exact ⟨.idle, by rw [← clients]; rfl, .rejects b _ _ (.inl rfl) (boxes.trans (update_toSendBox_self _ b))⟩
  | expect b tries =>
    simp only [BusState.notSent]
    split
    · exact ⟨.acquire (.expect b (tries + 1)), by rw [← clients]; rfl, .keeps _ boxes⟩
    · refine ⟨.send b (.failure .txTimeoutNotifyingListener), by rw [← clients]; rfl, ?_⟩
      refine .fails b (s.heap.boxes b).toSendBox _ _ (.inr rfl) rfl ?_
      simp only [BusState.sendOn, BusState.setClient, BusState.setBox, Heap.setBox]
      rw [boxes]
  | _ => exact ⟨.idle, by rw [← clients]; rfl, .keeps _ boxes⟩

theorem clientStep_stage {s t : BusState} {c : Nat} {a : ClientAction} (run : clientStep s c a = some t) :
    ∃ next, t.clients = update s.clients c next ∧ StageMove s t (s.clients c).stage next.stage := by
  have stays : s.clients = update s.clients c (s.clients c) := (Function.update_eq_self c s.clients).symm
  cases clientStep_cases run with
  | refused msg idle => exact ⟨_, stays, .keeps _ rfl⟩
  | requests msg ci idle =>
    rw [idle]
    exact ⟨_, rfl, .starts _ rfl rfl⟩
  | registers fd ssl idle =>
    rw [idle]
    exact ⟨_, rfl, .keeps _ rfl⟩
  | releases fd idle =>
    rw [idle]
    exact ⟨_, rfl, .keeps _ rfl⟩
  | stops l idle =>
    rw [idle]
    exact ⟨_, rfl, .keeps _ rfl⟩
  | sends b pc pc' e sent sending moved =>
    rw [sending]
    exact (sendStep_moves moved).stage rfl rfl
  | delivers b status failing =>
    rw [failing]
    exact ⟨.idle, rfl, .leaves b _ (.inr ⟨status, rfl⟩) rfl⟩
  | poolFull b status failing => exact ⟨_, stays, .keeps _ rfl⟩
  | noSlot p acquiring =>
    rw [acquiring]
    exact s.notSent_stage p rfl rfl
  | takes p slot next acquiring =>
    rw [acquiring]
    exact ⟨_, rfl, .keeps _ rfl⟩
  | commits p l slot serial writing =>
    rw [writing]
    cases p with
    | hold b start tries => exact ⟨_, rfl, .holds b rfl⟩
    | expect b tries => exact ⟨.idle, rfl, .leaves b _ (.inl rfl) rfl⟩
    | _ => exact ⟨_, rfl, .keeps _ rfl⟩
  | fails p l slot serial writing =>
    rw [writing]
    exact BusState.notSent_stage p rfl rfl
  | held b start tries l slot serial waiting =>
    have moves : SendMoves b (.timestampNow start) (sendLoop start ((s.heap.boxes b).timeoutSec * 1000)) :=
      .of_sendLoop rfl start _
    rw [waiting]
    exact moves.stage (update_toSendBox_self _ b) rfl
  | removed fd ci l slot serial waiting =>
    rw [waiting]
    exact ⟨.idle, rfl, .keeps _ rfl⟩
  | answered p l slot serial waiting present empty =>
    rw [waiting]
    cases p with
    | hold b start tries => cases empty
    | expect b tries => cases empty
    | _ => exact ⟨.idle, rfl, .keeps _ rfl⟩
  | notHeld b start tries l slot serial waiting =>
    rw [waiting]
    exact ⟨.idle, rfl, .rejects b _ _ (.inr rfl) (update_toSendBox_self _ b)⟩
  | notAdded ci l slot serial waiting =>
    rw [waiting]
    exact ⟨.idle, rfl, .keeps _ rfl⟩
  | notAnswered p l slot serial waiting empty =>
    rw [waiting]
    cases p with
    | hold b start tries => cases empty
    | expect b tries => cases empty
    | _ => exact ⟨.idle, rfl, .keeps _ rfl⟩

/-- A client changes nothing of a listener but its messages. -/
theorem clientStep_listener {s t : BusState} {c : Nat} {a : ClientAction} (run : clientStep s c a = some t) (l : Nat) :
    ∃ msgs, t.listeners l = { s.listeners l with msgs := msgs } := by
  have kept (l' : Nat) (msgs : MsgTable) : ∃ msgs', (s.setMsgs l' msgs).listeners l = { s.listeners l with msgs := msgs' } := by
    simp only [BusState.setMsgs, Function.update_apply]
    split
    · rename_i here
      rw [here]
      exact ⟨msgs, rfl⟩
    · exact ⟨_, rfl⟩
  cases clientStep_move run with
  | requests msg idle clients listeners => rw [listeners]; exact ⟨_, rfl⟩
  | goesOn a _ alone continues => rw [continues.listeners]; exact ⟨_, rfl⟩
  | delivers b alone box clients listeners => rw [listeners]; exact ⟨_, rfl⟩
  | takes p l' slot next _ _ free _ same =>
    subst same
    exact kept l' _
  | commits p l' slot serial writing same =>
    subst same
    rw [BusState.pushed_listeners]
    exact kept l' _
  | fails p l' slot serial writing continues =>
    rw [continues.listeners]
    exact kept l' _
  | reads p l' slot serial reply rest waiting pipe continues =>
    rw [continues.listeners]
    exact kept l' _
  | givesUp p l' slot serial waiting continues => rw [continues.listeners]; exact ⟨_, rfl⟩

theorem clientStep_rx {s t : BusState} {c : Nat} {a : ClientAction} (run : clientStep s c a = some t) (l : Nat) :
    (t.listeners l).rx = (s.listeners l).rx := by
  obtain ⟨msgs, same⟩ := clientStep_listener run l
  rw [same]

theorem clientStep_scheduled {s t : BusState} {c : Nat} {a : ClientAction} (run : clientStep s c a = some t) :
    ∀ b ∈ s.heap.scheduled, b ∈ t.heap.scheduled := by
  intro b member
  cases clientStep_move run with
  | requests msg idle clients listeners scheduled => rw [scheduled]; exact member
  | goesOn a _ alone continues => rw [continues.scheduled]; exact member
  | delivers b alone box clients listeners scheduled => rw [scheduled]; exact List.mem_append_left _ member
  | takes p l slot next _ _ free _ same => subst same; exact member
  | commits p l slot serial writing same =>
    subst same
    cases p <;> exact member
  | fails p l slot serial writing continues => rw [continues.scheduled]; exact member
  | reads p l slot serial reply rest waiting pipe continues => rw [continues.scheduled]; exact member
  | givesUp p l slot serial waiting continues => rw [continues.scheduled]; exact member

/-- What a listener is about in a step. -/
def Listener.rxEvent (l : Listener) (conns : Connections) : ListenerAction → RxEvent
  | .handle _ =>
    match l.nextCommand with
    | some (.holdResponse fd seqId _) => .hold fd seqId
    | some (.expectResponse b) => .expect b
    | _ => .quiet
  | .tickCell _ _ => .tick
  | .recv i result _ => .recv (conns.info (l.sockets.fdInfo i)).fd result
  | .socketError i err => .error (conns.info (l.sockets.fdInfo i)).fd err
  | _ => .quiet

theorem Listener.rxEvent_handle {l : Listener} {conns : Connections} {env : CommandEnv} {slot : Nat} {rest : List Nat}
    {msg : Msg} (pipe : l.msgs.commitPipe = slot :: rest) (written : l.msgs.msgs slot = some msg) :
    l.rxEvent conns (.handle env) = match msg.command with
      | .holdResponse fd seqId _ => .hold fd seqId
      | .expectResponse b => .expect b
      | _ => .quiet := by
  obtain ⟨command, serial⟩ := msg
  cases command <;> simp [Listener.rxEvent, Listener.nextCommand, pipe, written]

theorem listenerStep_rx {l l' : Listener} {h h' : Heap} {conns conns' : Connections} {a : ListenerAction}
    (run : listenerStep l h conns a = some (l', h', conns')) : RxMove l.rx h l'.rx h' (l.rxEvent conns a) := by
  cases listenerStep_cases run with
  | adds env slot rest ci serial sockets conns' atLoop pipe written =>
    rw [Listener.rxEvent_handle pipe written]
    exact .keeps _ rfl rfl trivial
  | removes env slot rest fd serial sockets atLoop pipe written =>
    rw [Listener.rxEvent_handle pipe written]
    exact .keeps _ rfl rfl trivial
  | holds env slot rest fd seqId timeoutSec serial rx atLoop pipe written held =>
    rw [Listener.rxEvent_handle pipe written]
    exact holdResponse_move held
  | expects env slot rest b serial rx h' atLoop pipe written expected =>
    rw [Listener.rxEvent_handle pipe written]
    exact expectResponse_move expected
  | shutsDown env slot rest serial atLoop pipe written =>
    rw [Listener.rxEvent_handle pipe written]
    exact .keeps _ rfl rfl trivial
  | ticksCell clock accepted i rx h' ticking inside ticked => exact tickCell_move ticked
  | receives i result accepted rx h' atLoop tracked processed => exact processUnpackedMessage_move processed
  | errs i err atLoop tracked negative => exact .errs _ err negative rfl rfl
  | _ => exact .keeps _ rfl rfl trivial

/-- The results that only a listener writes. -/
def BusSendStatus.byListener : BusSendStatus → Bool
  | .success => true
  | .rxTimeout => true
  | .rxFailure => true
  | _ => false

theorem BusSendStatus.not_byListener {status : BusSendStatus} (sender : status.bySender = true) :
    status.byListener = false := by
  cases status <;> first | rfl | cases sender

/-- A client step leaves the results of the listeners and the identities of their boxes alone. -/
theorem StageMove.byListener {s t : BusState} {stage stage' : Stage} (move : StageMove s t stage stage') {x : Nat}
    (result : (t.heap.boxes x).status.byListener = true) :
    ∃ sent, t.heap.boxes x = { s.heap.boxes x with toSendBox := sent } := by
  have same (boxes : t.heap.boxes = s.heap.boxes) : ∃ sent, t.heap.boxes x = { s.heap.boxes x with toSendBox := sent } :=
    ⟨(s.heap.boxes x).toSendBox, by rw [boxes]⟩
  have written {b : Nat} {box : BoxedMsg} (boxes : t.heap.boxes = update s.heap.boxes b box)
      (here : box.status.byListener = true → ∃ sent, box = { s.heap.boxes b with toSendBox := sent }) :
      ∃ sent, t.heap.boxes x = { s.heap.boxes x with toSendBox := sent } := by
    rw [boxes, Function.update_apply] at result ⊢
    split at result <;> rename_i place
    · rw [if_pos place, place]
      exact here result
    · rw [if_neg place]
      exact ⟨_, rfl⟩
  cases move with
  | keeps stage boxes => exact same boxes
  | starts box boxes undefined =>
    refine written boxes fun result => ?_
    rw [undefined] at result
    cases result
  | sends b sent stage _ boxes => exact written boxes fun _ => ⟨sent, rfl⟩
  | rejects b sent stage _ boxes => exact written boxes fun _ => ⟨sent, rfl⟩
  | holds b boxes => exact same boxes
  | expects b sent boxes =>
    refine written boxes fun result => ⟨sent, ?_⟩
    dsimp only at result
    split at result
    · cases result
    · rename_i defined
      rw [if_neg defined]
  | fails b sent status stage _ sender boxes =>
    refine written boxes fun result => ?_
    have other := BusSendStatus.not_byListener sender
    dsimp only at result
    rw [other] at result
    cases result
  | leaves b stage _ boxes => exact same boxes

/-- A client step changes no box but its own, or a new one. -/
theorem StageMove.boxes_of_ne {s t : BusState} {stage stage' : Stage} (move : StageMove s t stage stage') {x : Nat}
    (other : stage.box ≠ some x) (old : x ≠ s.nextBox) : t.heap.boxes x = s.heap.boxes x := by
  have written {b : Nat} {box : BoxedMsg} (boxes : t.heap.boxes = update s.heap.boxes b box) (own : stage.box = some b) :
      t.heap.boxes x = s.heap.boxes x := by
    rw [boxes, Function.update_of_ne]
    rintro rfl
    exact other own
  cases move with
  | keeps stage boxes => rw [boxes]
  | starts box boxes => rw [boxes, Function.update_of_ne old]
  | sends b sent stage place boxes => exact written boxes (by rcases place with rfl | rfl <;> rfl)
  | rejects b sent stage place boxes => exact written boxes (by rcases place with rfl | rfl <;> rfl)
  | holds b boxes => rw [boxes]
  | expects b sent boxes => exact written boxes rfl
  | fails b sent status stage place _ boxes => exact written boxes (by rcases place with rfl | rfl <;> rfl)
  | leaves b stage _ boxes => rw [boxes]

/-- A client step changes what request a box is for only when it makes the box. -/
theorem StageMove.identity {s t : BusState} {stage stage' : Stage} (move : StageMove s t stage stage') {x : Nat}
    (old : x ≠ s.nextBox) :
    (t.heap.boxes x).fd = (s.heap.boxes x).fd ∧ (t.heap.boxes x).outSeqId = (s.heap.boxes x).outSeqId := by
  have written {b : Nat} {box : BoxedMsg} (boxes : t.heap.boxes = update s.heap.boxes b box)
      (same : box.fd = (s.heap.boxes b).fd ∧ box.outSeqId = (s.heap.boxes b).outSeqId) :
      (t.heap.boxes x).fd = (s.heap.boxes x).fd ∧ (t.heap.boxes x).outSeqId = (s.heap.boxes x).outSeqId := by
    rw [boxes, Function.update_apply]
    split
    · rename_i here
      rw [here]
      exact same
    · exact ⟨rfl, rfl⟩
  cases move with
  | keeps stage boxes => rw [boxes]; exact ⟨rfl, rfl⟩
  | starts box boxes => rw [boxes, Function.update_of_ne old]; exact ⟨rfl, rfl⟩
  | sends b sent stage place boxes => exact written boxes ⟨rfl, rfl⟩
  | rejects b sent stage place boxes => exact written boxes ⟨rfl, rfl⟩
  | holds b boxes => rw [boxes]; exact ⟨rfl, rfl⟩
  | expects b sent boxes => exact written boxes ⟨rfl, rfl⟩
  | fails b sent status stage place _ boxes => exact written boxes ⟨rfl, rfl⟩
  | leaves b stage _ boxes => rw [boxes]; exact ⟨rfl, rfl⟩

/-- A step of the bus as the boxes and the cells see it. -/
inductive BusMove (s t : BusState) : BusLabel → Prop
  | client (c : Nat) (a : ClientAction) (next : ClientPc) : t.clients = update s.clients c next →
      StageMove s t (s.clients c).stage next.stage → (∀ l, (t.listeners l).rx = (s.listeners l).rx) →
      (∀ b ∈ s.heap.scheduled, b ∈ t.heap.scheduled) → BusMove s t (.client c a)
  | listener (l : Nat) (a : ListenerAction) (listener : Listener) : t.clients = s.clients → t.nextBox = s.nextBox →
      t.listeners = update s.listeners l listener →
      RxMove (s.listeners l).rx s.heap listener.rx t.heap ((s.listeners l).rxEvent s.conns a) →
      BusMove s t (.listener l a)
  | run (k : Nat) : t.clients = s.clients → t.listeners = s.listeners → t.heap = s.heap → BusMove s t (.run k)

theorem busStep_move {s t : BusState} {label : BusLabel} (taken : busStep s label = some t) : BusMove s t label := by
  cases label with
  | client c a =>
    obtain ⟨next, clients, stage⟩ := clientStep_stage taken
    exact .client c a next clients stage (clientStep_rx taken) (clientStep_scheduled taken)
  | listener l a =>
    obtain ⟨⟨listener, heap, conns⟩, moved, run⟩ := Option.bind_eq_some_iff.mp taken
    cases run
    exact .listener l a listener rfl rfl rfl (listenerStep_rx moved)
  | run k =>
    obtain ⟨_, _, rfl⟩ := busStep_run taken
    exact .run k rfl rfl rfl

/-- The step of the listener behind a step of the bus. -/
theorem listenerStep_of_busStep {s t : BusState} {l : Nat} {a : ListenerAction} {listener : Listener}
    (taken : busStep s (.listener l a) = some t) (listeners : t.listeners = update s.listeners l listener) :
    listenerStep (s.listeners l) s.heap s.conns a = some (listener, t.heap, t.conns) := by
  obtain ⟨⟨listener', heap, conns⟩, moved, run⟩ := Option.bind_eq_some_iff.mp taken
  cases run
  have same : listener' = listener := by
    have here := congrFun listeners l
    simpa using here
  rw [moved, same]

end Kinetic
