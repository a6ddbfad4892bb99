import Kinetic.Bus.Model
import Kinetic.Send.Steps

namespace Kinetic
open Transition (Reach exec exists_reach_of_exec)

/-- The fields of `boxed_msg` that the sender reads or writes. -/
inductive BoxField
  | fd
  | ssl
  | outSeqId
  | outMsg
  | outMsgSize
  | outSentSize
  | timeoutSec
  | tvSendStart
  | tvSendDone
  | result
  deriving DecidableEq

/-- What a sender does with its box: read or write a field of it, have bytes of it accepted by the socket, and hand it over to
the listener in an `EXPECT` or to the thread pool with a status. -/
inductive SenderAct
  | touch (field : BoxField)
  | wrote (bytes : List UInt8)
  | expect
  | pool (status : BusSendStatus)
  deriving DecidableEq

/-- A message for the listener, with the tries made so far. -/
inductive Notice
  | hold (start : Timeval) (tries : Nat)
  | expect (tries : Nat)
  deriving DecidableEq

/-- Where a sender stands in `Send_DoBlockingSend`: by itself, before `ListenerHelper_GetFreeMsg`, between it and the write to
the commit pipe, or in `BusPoll_OnCompletion` for the `HOLD`. -/
inductive SenderPc
  | send (pc : SendPc)
  | acquire (n : Notice)
  | push (n : Notice)
  | wait (start : Timeval)
  deriving DecidableEq

structure Sender where
  box : BoxedMsg
  pc : SenderPc
  acts : List SenderAct

/-- A call of `Send_DoBlockingSend`. -/
def Sender.new (box : BoxedMsg) : Sender := { box := box, pc := .send .timestampStart, acts := [] }

def Sender.touch (s : Sender) (fields : List BoxField) : Sender := { s with acts := s.acts ++ fields.map .touch }

/-- The fields that are looked at on the way from a system call to the next one, without those of `Send_HandleFailure` and of
`enqueue_EXPECT_message_to_listener`. -/
def SendPc.fields : SendPc → SendEvent → List BoxField
  | .timestampStart, .timestamp none => [.fd, .outSeqId, .outMsgSize, .outMsg, .timeoutSec]
  | .timestampStart, _ =>
    [.fd, .outSeqId, .outMsgSize, .outMsg, .timeoutSec, .tvSendStart, .fd, .fd, .outSeqId, .timeoutSec]
  | .poll .., .poll (.ready true _ _ _) => [.fd]
  | .poll .., .poll .timeout => [.fd, .outSeqId]
  | .write .., _ => [.ssl, .fd, .outMsg, .outMsgSize, .outSentSize, .outSeqId]
  | .timestampDone, .timestamp (some _) => [.tvSendDone]
  | _, _ => []

/-- A sender goes on at `pc`. On the way to the listener, or to the thread pool with a failure, it sets the status of the box. -/
def Sender.goOn (s : Sender) : SendPc → Sender
  | .hold start => { s with pc := .acquire (.hold start 0) }
  | .expect =>
    let status := if s.box.status = .undefined then .requestComplete else s.box.status
    { s.touch [.outSeqId, .result, .fd] with box := { s.box with status := status }, pc := .acquire (.expect 0) }
  | .failure status =>
    { s.touch [.fd, .outSeqId, .fd, .outSeqId, .result] with
      box := { s.box with status := status, responseSeqId := 0, responseMsg := 0 }
      pc := .send (.failure status) }
  | pc => { s with pc := .send pc }

/-- The loops over `SEND_NOTIFY_LISTENER_RETRIES`, after a try that has failed. -/
def Sender.notSent (s : Sender) : Notice → Sender
  | .hold start tries =>
    if tries + 1 < sendNotifyListenerRetries then { s with pc := .acquire (.hold start (tries + 1)) }
    else s.goOn (.returned false)
  | .expect tries =>
    if tries + 1 < sendNotifyListenerRetries then { s with pc := .acquire (.expect (tries + 1)) }
    else s.goOn (.failure .txTimeoutNotifyingListener)

/-- What a system call reports, whether there is a free message for the listener and whether it is committed, what
`BusPoll_OnCompletion` returns, and whether the thread pool takes the box. -/
inductive SenderEvent
  | event (e : SendEvent)
  | getFreeMsg (found : Bool)
  | pushMessage (ok : Bool)
  | onCompletion (ok : Bool)
  | pool (accepted : Bool)

/-- One step of `Send_DoBlockingSend`, with `SendHelper_HandleWrite` and `Send_HandleFailure`. -/
def senderStep (s : Sender) (e : SenderEvent) : Option Sender :=
  match s.pc, e with
  | .send pc, .event e => do
    let (sent, next) ← sendStep s.box.ssl s.box.toSendBox pc e
    let accepted := (s.box.outMsg.drop s.box.outSentSize).take (sent.outSentSize - s.box.outSentSize)
    let touched := s.touch (pc.fields e)
    let wrote := if accepted = [] then [] else [.wrote accepted]
    some ({ touched with box := { s.box with toSendBox := sent }, acts := touched.acts ++ wrote }.goOn next)
  | .send (.failure _), .pool accepted =>
    let touched := s.touch [.result]
    if s.box.status = .undefined then none
    else if accepted then some { touched with pc := .send (.returned true), acts := touched.acts ++ [.pool s.box.status] }
    else some touched
  | .acquire n, .getFreeMsg false => some (s.notSent n)
  | .acquire (.hold start tries), .getFreeMsg true => some { s with pc := .push (.hold start tries) }
  | .acquire (.expect tries), .getFreeMsg true =>
    if s.box.status = .undefined then none
    else some { s.touch [.outSeqId, .result] with pc := .push (.expect tries) }
  | .push n, .pushMessage false => some (s.notSent n)
  | .push (.hold start _), .pushMessage true => some { s with pc := .wait start }
  | .push (.expect _), .pushMessage true => some { s with pc := .send (.returned true), acts := s.acts ++ [.expect] }
  | .wait start, .onCompletion true =>
    if s.box.outSentSize = 0 then some ((s.touch [.outSentSize]).goOn (sendLoop start (s.box.timeoutSec * 1000))) else none
  | .wait _, .onCompletion false => some (s.goOn (.returned false))
  | _, _ => none

def SenderAct.handsOver : SenderAct → Bool
  | .expect => true
  | .pool _ => true
  | _ => false

def SenderAct.writes : SenderAct → Bool
  | .wrote _ => true
  | _ => false

/-- Before the first `write`, or after a return that rejects the send. -/
def SendPc.early : SendPc → Bool
  | .timestampStart => true
  | .hold _ => true
  | .returned false => true
  | _ => false

def SenderPc.early : SenderPc → Bool
  | .send pc => pc.early
  | .acquire (.hold _ _) => true
  | .push (.hold _ _) => true
  | .wait _ => true
  | _ => false

/-- The box is the sender's as long as it has not returned true, and the last thing it did with it then was to hand it over. -/
structure Sender.Inv (s : Sender) : Prop where
  held : s.pc ≠ .send (.returned true) → ∀ a ∈ s.acts, a.handsOver = false
  early : s.pc.early = true → ∀ a ∈ s.acts, a.writes = false
  handed : s.pc = .send (.returned true) → ∃ before last, s.acts = before ++ [last] ∧ (∀ a ∈ before, a.handsOver = false) ∧
    (last = .expect ∨ ∃ status, status ≠ .undefined ∧ last = .pool status)
  status : ∀ status, s.pc = .send (.failure status) → status ≠ .undefined ∧ s.box.status = status

section Steps
variable {s s' : Sender} {ssl : Bool} {box box' : SendBox} {pc pc' : SendPc} {e : SendEvent}

/-- Where a sender comes to from a system call. -/
structure SendPc.Next (pc pc' : SendPc) : Prop where
  early : pc'.early = true → pc = .timestampStart
  stays : pc' ≠ .returned true
  status : pc' ≠ .failure .undefined

theorem SendPc.Next.late (late : pc'.early = false) (stays : pc' ≠ .returned true) (status : pc' ≠ .failure .undefined) :
    SendPc.Next pc pc' :=
  ⟨fun early => absurd (early.symm.trans late) (by simp), stays, status⟩

theorem SendPc.Next.loop (pc : SendPc) (start : Timeval) (rem : Int) : SendPc.Next pc (sendLoop start rem) := by
  rcases sendLoop_next start rem with ⟨_, again⟩ | late
  · rw [again]
    exact .late rfl (by simp) (by simp)
  · rw [late]
    exact .late rfl (by simp) (by simp)

theorem sendStep_next (taken : sendStep ssl box pc e = some (box', pc')) : SendPc.Next pc pc' := by
  cases sendStep_move taken with
  | begins start => exact ⟨fun _ => rfl, by simp, by simp⟩
  | rejected => exact ⟨fun _ => rfl, by simp, by simp⟩
  | fails _ _ status here among =>
    refine .late rfl (by simp) fun same => ?_
    cases same
    cases among
  | reads start now => exact .late rfl (by simp) (by simp)
  | loops start rem _ _ here left => exact .late rfl (by simp) (by simp)
  | writable start rem res => exact .late rfl (by simp) (by simp)
  | rewrites start rem res => exact .late rfl (by simp) (by simp)
  | written start rem res => exact .late rfl (by simp) (by simp)
  | sent done => exact .late rfl (by simp) (by simp)
  | notStamped => exact .late rfl (by simp) (by simp)

theorem Sender.mem_touch {fields : List BoxField} {a : SenderAct} (member : a ∈ (s.touch fields).acts) :
    a ∈ s.acts ∨ ∃ field, a = .touch field := by
  rcases List.mem_append.mp member with old | new
  · exact .inl old
  · obtain ⟨field, _, rfl⟩ := List.mem_map.mp new
    exact .inr ⟨field, rfl⟩

theorem Sender.touch_held {fields : List BoxField} (held : ∀ a ∈ s.acts, a.handsOver = false) :
    ∀ a ∈ (s.touch fields).acts, a.handsOver = false := by
  intro a member
  rcases Sender.mem_touch member with old | ⟨field, rfl⟩
  · exact held a old
  · rfl

theorem Sender.touch_unwritten {fields : List BoxField} (unwritten : ∀ a ∈ s.acts, a.writes = false) :
    ∀ a ∈ (s.touch fields).acts, a.writes = false := by
  intro a member
  rcases Sender.mem_touch member with old | ⟨field, rfl⟩
  · exact unwritten a old
  · rfl

/-- A sender that is not in `Send_HandleFailure` and has not returned true. -/
theorem Sender.Inv.kept (held : ∀ a ∈ s.acts, a.handsOver = false) (early : s.pc.early = true → ∀ a ∈ s.acts, a.writes = false)
    (stays : s.pc ≠ .send (.returned true)) (fine : ∀ status, s.pc ≠ .send (.failure status)) : s.Inv :=
  ⟨fun _ => held, early, fun ended => absurd ended stays, fun status failed => absurd failed (fine status)⟩

theorem Sender.goOn_inv (held : ∀ a ∈ s.acts, a.handsOver = false) (early : pc'.early = true → ∀ a ∈ s.acts, a.writes = false)
    (stays : pc' ≠ .returned true) (status : pc' ≠ .failure .undefined) : (s.goOn pc').Inv := by
  cases pc' with
  | hold start => exact .kept held (fun _ => early rfl) (by simp [Sender.goOn]) (by simp [Sender.goOn])
  | expect =>
    refine .kept (Sender.touch_held held) (fun before => ?_) (by simp [Sender.goOn]) (by simp [Sender.goOn])
    simp [Sender.goOn, SenderPc.early] at before
  | failure failed =>
    refine ⟨fun _ => Sender.touch_held held, fun before => ?_, fun ended => ?_, fun other same => ?_⟩
    · simp [Sender.goOn, SenderPc.early, SendPc.early] at before
    · simp [Sender.goOn] at ended
    · simp only [Sender.goOn, SenderPc.send.injEq, SendPc.failure.injEq] at same
      subst same
      exact ⟨fun undefined => status (by rw [undefined]), rfl⟩
  | returned res => exact .kept held early (by simpa [Sender.goOn] using stays) (by simp [Sender.goOn])
  | timestampStart => exact .kept held early (by simp [Sender.goOn]) (by simp [Sender.goOn])
  | timestampNow start => exact .kept held early (by simp [Sender.goOn]) (by simp [Sender.goOn])
  | poll start rem => exact .kept held early (by simp [Sender.goOn]) (by simp [Sender.goOn])
  | write start rem => exact .kept held early (by simp [Sender.goOn]) (by simp [Sender.goOn])
  | timestampDone => exact .kept held early (by simp [Sender.goOn]) (by simp [Sender.goOn])

theorem Sender.notSent_inv {n : Notice} (held : ∀ a ∈ s.acts, a.handsOver = false)
    (early : ∀ start tries, n = .hold start tries → ∀ a ∈ s.acts, a.writes = false) : (s.notSent n).Inv := by
  cases n with
  | hold start tries =>
    simp only [Sender.notSent]
    split
    · exact .kept held (fun _ => early start tries rfl) (by simp) (by simp)
    · exact Sender.goOn_inv held (fun _ => early start tries rfl) (by simp) (by simp)
  | expect tries =>
    simp only [Sender.notSent]
    split
    · exact .kept held (fun before => absurd before (by simp [SenderPc.early])) (by simp) (by simp)
    · exact Sender.goOn_inv held (fun before => absurd before (by simp [SendPc.early])) (by simp) (by simp)

/-- One system call of the sender. -/
theorem Sender.Inv.event (inv : s.Inv) (here : s.pc = .send pc) (run : senderStep s (.event e) = some s') : s'.Inv := by
  simp only [senderStep, here] at run
  obtain ⟨⟨sent, next⟩, taken, run⟩ := Option.bind_eq_some_iff.mp run
  cases run
  have steps := sendStep_next taken
  have open_ : s.pc ≠ .send (.returned true) := by
    rw [here]
    rintro same
    cases same
    simp [sendStep] at taken
  have held := inv.held open_
  refine Sender.goOn_inv (fun a member => ?_) (fun early a member => ?_) steps.stays steps.status
  · rcases List.mem_append.mp member with old | new
    · exact Sender.touch_held held a old
    · split at new
      · cases new
      · rw [List.mem_singleton.mp new]
        rfl
  · have first := steps.early early
    subst first
    have unwritten := inv.early (by rw [here]; rfl)
    have same : sent = s.box.toSendBox := by
      cases e with
      | timestamp tv => cases tv <;> cases taken <;> rfl
      | poll res => cases taken
      | write res => cases taken
    rcases List.mem_append.mp member with old | new
    · exact Sender.touch_unwritten unwritten a old
    · simp [same] at new

theorem Sender.Inv.step {e : SenderEvent} (inv : s.Inv) (run : senderStep s e = some s') : s'.Inv := by
  have held := inv.held
  have early := inv.early
  unfold senderStep at run
  split at run
  · rename_i pc e here
    exact inv.event here (by simpa only [senderStep, here] using run)
  · rename_i status accepted here
    rw [here] at held early
    obtain ⟨defined, _⟩ := inv.status status here
    have kept : ∀ a ∈ (s.touch [.result]).acts, a.handsOver = false := Sender.touch_held (held (by simp))
    dsimp only at run
    split at run
    · cases run
    · rename_i set
      split at run
      · cases run
        refine ⟨fun open_ => absurd rfl open_, fun before => absurd before (by simp [SenderPc.early, SendPc.early]), fun _ => ?_, ?_⟩
        · exact ⟨_, _, rfl, kept, .inr ⟨_, set, rfl⟩⟩
        · intro _ failed
          cases failed
      · cases run
        refine ⟨fun _ => kept, fun before => ?_, fun ended => ?_, fun other same => inv.status other same⟩
        · have before : s.pc.early = true := before
          rw [here] at before
          simp [SenderPc.early, SendPc.early] at before
        · have ended : s.pc = .send (.returned true) := ended
          rw [here] at ended
          cases ended
  · rename_i n here
    rw [here] at held early
    cases run
    refine Sender.notSent_inv (held (by simp)) fun start tries same => early ?_
    rw [same]
    rfl
  · rename_i start tries here
    rw [here] at held early
    cases run
    exact .kept (held (by simp)) (fun _ => early rfl) (by simp) (by simp)
  · rename_i tries here
    rw [here] at held
    split at run
    · cases run
    · cases run
      exact .kept (Sender.touch_held (held (by simp))) (fun before => absurd before (by simp [SenderPc.early])) (by simp) (by simp)
  · rename_i n here
    rw [here] at held early
    cases run
    refine Sender.notSent_inv (held (by simp)) fun start tries same => early ?_
    rw [same]
    rfl
  · rename_i start tries here
    rw [here] at held early
    cases run
    exact .kept (held (by simp)) (fun _ => early rfl) (by simp) (by simp)
  · rename_i tries here
    rw [here] at held
    cases run
    refine ⟨fun open_ => absurd rfl open_, fun before => absurd before (by simp [SenderPc.early, SendPc.early]), fun _ => ?_, ?_⟩
    · exact ⟨_, _, rfl, held (by simp), .inl rfl⟩
    · intro _ failed
      cases failed
  · rename_i start here
    rw [here] at held
    split at run
    · cases run
      have next := SendPc.Next.loop (.poll start 0) start (s.box.timeoutSec * 1000)
      refine Sender.goOn_inv (Sender.touch_held (held (by simp))) (fun before => ?_) next.stays next.status
      exact absurd (next.early before) (by simp)
    · cases run
  · rename_i start here
    rw [here] at held early
    cases run
    exact Sender.goOn_inv (held (by simp)) (fun _ => early rfl) (by simp) (by simp)
  · cases run

theorem Sender.new_inv (box : BoxedMsg) : (Sender.new box).Inv := by
  refine .kept (fun a member => ?_) (fun _ a member => ?_) (by simp [Sender.new]) (by simp [Sender.new])
  · cases member
  · cases member

end Steps

/-- A send that is rejected has handed its box to nobody and written nothing of it, and one that is not has handed it over once,
as the last thing it did with it. -/
theorem send_hands_over_once {box : BoxedMsg} {s : Sender} (reach : Reach senderStep (.new box) (fun _ _ => True) s) :
    (s.pc = .send (.returned false) → ∀ a ∈ s.acts, a.handsOver = false ∧ a.writes = false) ∧
      (s.pc = .send (.returned true) → ∃ before last, s.acts = before ++ [last] ∧ (∀ a ∈ before, a.handsOver = false) ∧
        (last = .expect ∨ ∃ status, status ≠ .undefined ∧ last = .pool status)) := by
  have inv : s.Inv := reach.invariant (Sender.new_inv box) fun _ _ _ inv _ run => inv.step run
  refine ⟨fun rejected a member => ?_, inv.handed⟩
  exact ⟨inv.held (by rw [rejected]; simp) a member, inv.early (by rw [rejected]; rfl) a member⟩

/-- Two writes, the second one of which is the rest of the message, and an `EXPECT` at the second try. -/
theorem send_hands_over_once_retried : ∃ s, Reach senderStep (.new { BoxedMsg.calloc with outMsg := [1, 2, 3], timeoutSec := 10 })
      (fun _ _ => True) s ∧ s.pc = .send (.returned true) ∧ s.acts.filter SenderAct.writes = [.wrote [1, 2], .wrote [3]] ∧
    ∃ before last, s.acts = before ++ [last] ∧ (∀ a ∈ before, a.handsOver = false) ∧
      (last = .expect ∨ ∃ status, status ≠ .undefined ∧ last = .pool status) := by
  have trace : (exec senderStep (fun _ _ => decide True) (.new { BoxedMsg.calloc with outMsg := [1, 2, 3], timeoutSec := 10 })
      [.event (.timestamp (some ⟨0, 0⟩)), .getFreeMsg false, .getFreeMsg true, .pushMessage true, .onCompletion true,
        .event (.timestamp (some ⟨0, 0⟩)), .event (.poll (.ready false false false true)), .event (.write (.wrote 2)),
        .event (.timestamp (some ⟨1, 0⟩)), .event (.poll .interrupted), .event (.timestamp (some ⟨1, 0⟩)),
        .event (.poll (.ready false false false true)), .event (.write .resumable), .event (.write (.wrote 1)),
        .event (.timestamp (some ⟨1, 0⟩)), .getFreeMsg true, .pushMessage false, .getFreeMsg true, .pushMessage true]).map
      (fun s => (s.pc, s.acts.filter SenderAct.writes)) = some (.send (.returned true), [.wrote [1, 2], .wrote [3]]) := by
    decide +kernel
  obtain ⟨s, reach, seen⟩ := exists_reach_of_exec trace
  simp only [Prod.mk.injEq] at seen
  exact ⟨s, reach, seen.1, seen.2, (send_hands_over_once reach).2 seen.1⟩

/-- Where a client of the bus stands in the send of a box. -/
def ClientPc.sender : ClientPc → Option (Nat × SenderPc)
  | .send b pc => some (b, .send pc)
  | .acquire (.hold b start tries) => some (b, .acquire (.hold start tries))
  | .acquire (.expect b tries) => some (b, .acquire (.expect tries))
  | .push (.hold b start tries) _ _ _ => some (b, .push (.hold start tries))
  | .push (.expect b tries) _ _ _ => some (b, .push (.expect tries))
  | .wait (.hold b start _) _ _ _ => some (b, .wait start)
  | _ => none

/-- The sender as which a client of the bus has come to its place, or as which it has returned. -/
def Sender.Matches (t : Sender) (s : BusState) (c b : Nat) : Prop :=
  (s.clients c).sender = some (b, t.pc) ∧ s.heap.boxes b = t.box ∨
    ∃ res, t.pc = .send (.returned res) ∧ s.clients c = .idle ∧ s.results b = some res

section Clients
variable {s s' : BusState} {c b : Nat} {t : Sender}

theorem Sender.goOn_matches (here : s.heap.boxes b = t.box) (pc : SendPc) : (t.goOn pc).Matches (s.sendOn c b pc) c b := by
  have own (pc : ClientPc) : (s.setClient c pc).clients c = pc := by simp [BusState.setClient]
  cases pc with
  | hold start => exact .inl ⟨by simp [BusState.sendOn, Sender.goOn, own, ClientPc.sender], here⟩
  | expect =>
    refine .inl ⟨by simp [BusState.sendOn, Sender.goOn, BusState.setClient, ClientPc.sender], ?_⟩
    simp [BusState.sendOn, Sender.goOn, BusState.setClient, BusState.setBox, Heap.setBox, Sender.touch, here]
  | failure status =>
    refine .inl ⟨by simp [BusState.sendOn, Sender.goOn, BusState.setClient, ClientPc.sender], ?_⟩
    simp [BusState.sendOn, Sender.goOn, BusState.setClient, BusState.setBox, Heap.setBox, Sender.touch, here]
  | returned res =>
    exact .inr ⟨res, rfl, by simp [BusState.sendOn, BusState.returned, own],
      by simp [BusState.sendOn, BusState.returned]⟩
  | timestampStart => exact .inl ⟨by simp [BusState.sendOn, Sender.goOn, own, ClientPc.sender], here⟩
  | timestampNow start => exact .inl ⟨by simp [BusState.sendOn, Sender.goOn, own, ClientPc.sender], here⟩
  | poll start rem => exact .inl ⟨by simp [BusState.sendOn, Sender.goOn, own, ClientPc.sender], here⟩
  | write start rem => exact .inl ⟨by simp [BusState.sendOn, Sender.goOn, own, ClientPc.sender], here⟩
  | timestampDone => exact .inl ⟨by simp [BusState.sendOn, Sender.goOn, own, ClientPc.sender], here⟩

theorem Sender.notSent_matches (here : s.heap.boxes b = t.box) (n : Notice) {p : Purpose}
    (same : (ClientPc.acquire p).sender = some (b, .acquire n)) : (t.notSent n).Matches (s.notSent c p) c b := by
  cases p with
  | hold b' start tries =>
    cases same
    simp only [BusState.notSent, Sender.notSent]
    split
    · exact .inl ⟨by simp [BusState.setClient, ClientPc.sender], here⟩
    · exact Sender.goOn_matches here _
  | expect b' tries =>
    cases same
    simp only [BusState.notSent, Sender.notSent]
    split
    · exact .inl ⟨by simp [BusState.setClient, ClientPc.sender], here⟩
    · exact Sender.goOn_matches here _
  | addSocket ci => cases same
  | removeSocket fd => cases same
  | shutdown l => cases same

/-- A client that asks for a slot for a message of its send. -/
theorem acquireMsg_sender {p : Purpose} (same : (ClientPc.acquire p).sender = some (b, t.pc)) (here : s.heap.boxes b = t.box)
    (run : acquireMsg s c p = some s') : ∃ e t', senderStep t e = some t' ∧ t'.Matches s' c b := by
  obtain ⟨⟨slot, msgs⟩, _, run⟩ := Option.bind_eq_some_iff.mp run
  cases p with
  | hold b' start tries =>
    simp only [ClientPc.sender, Option.some.injEq, Prod.mk.injEq] at same
    obtain ⟨rfl, pc⟩ := same
    cases slot with
    | none =>
      cases run
      exact ⟨.getFreeMsg false, _, by simp [senderStep, ← pc], Sender.notSent_matches here (.hold start tries) rfl⟩
    | some slot =>
      cases run
      refine ⟨.getFreeMsg true, { t with pc := .push (.hold start tries) }, by simp [senderStep, ← pc], .inl ⟨?_, here⟩⟩
      simp [BusState.setClient, ClientPc.sender]
  | expect b' tries =>
    simp only [ClientPc.sender, Option.some.injEq, Prod.mk.injEq] at same
    obtain ⟨rfl, pc⟩ := same
    cases slot with
    | none =>
      cases run
      exact ⟨.getFreeMsg false, _, by simp [senderStep, ← pc], Sender.notSent_matches here (.expect tries) rfl⟩
    | some slot =>
      dsimp only at run
      split at run
      · rename_i set
        cases run
        have defined : t.box.status ≠ .undefined := by simpa [Purpose.statusSet, here] using set
        refine ⟨.getFreeMsg true, { t.touch [.outSeqId, .result] with pc := .push (.expect tries) },
          by simp [senderStep, ← pc, defined], .inl ⟨?_, here⟩⟩
        simp [BusState.setClient, ClientPc.sender]
      · cases run
  | addSocket ci => cases same
  | removeSocket fd => cases same
  | shutdown l => cases same

/-- A client of the bus in its send is such a sender. -/
theorem clientStep_sender {a : ClientAction} (same : (s.clients c).sender = some (b, t.pc)) (here : s.heap.boxes b = t.box)
    (run : clientStep s c a = some s') : ∃ e t', senderStep t e = some t' ∧ t'.Matches s' c b := by
  unfold clientStep at run
  split at run
  case h_5 b' pc e at_ =>
    rw [at_] at same
    simp only [ClientPc.sender, Option.some.injEq, Prod.mk.injEq] at same
    obtain ⟨rfl, pc⟩ := same
    obtain ⟨⟨sent, next⟩, taken, run⟩ := Option.bind_eq_some_iff.mp run
    cases run
    rw [here] at taken
    refine ⟨.event e, _, by simp only [senderStep, ← pc, taken]; rfl, Sender.goOn_matches ?_ next⟩
    simp [BusState.setBox, Heap.setBox, here]
  case h_6 b' status accepted at_ =>
    rw [at_] at same
    simp only [ClientPc.sender, Option.some.injEq, Prod.mk.injEq] at same
    obtain ⟨rfl, pc⟩ := same
    obtain ⟨heap, taken, run⟩ := Option.bind_eq_some_iff.mp run
    cases run
    unfold processBoxedMessage at taken
    rw [here] at taken
    split at taken
    · cases taken
    · rename_i defined
      split at taken
      · rename_i accepts
        cases taken
        rw [if_pos accepts]
        refine ⟨.pool true, _, by simp only [senderStep, ← pc, if_neg defined]; rfl, .inr ⟨true, rfl, ?_, ?_⟩⟩
        · simp [BusState.returned, BusState.setClient]
        · simp [BusState.returned]
      · rename_i refuses
        cases taken
        rw [if_neg refuses]
        refine ⟨.pool false, t.touch [.result], by simp [senderStep, ← pc, defined], .inl ⟨?_, here⟩⟩
        rw [at_]
        exact congrArg (fun pc => some (_, pc)) pc
  case h_7 p at_ =>
    rw [at_] at same
    exact acquireMsg_sender same here run
  case h_8 p l slot serial at_ =>
    rw [at_] at same
    cases run
    cases p with
    | hold b' start tries =>
      simp only [ClientPc.sender, Option.some.injEq, Prod.mk.injEq] at same
      obtain ⟨rfl, pc⟩ := same
      refine ⟨.pushMessage true, { t with pc := .wait start }, by simp [senderStep, ← pc], .inl ⟨?_, here⟩⟩
      simp [BusState.pushed, BusState.setClient, ClientPc.sender]
    | expect b' tries =>
      simp only [ClientPc.sender, Option.some.injEq, Prod.mk.injEq] at same
      obtain ⟨rfl, pc⟩ := same
      refine ⟨.pushMessage true, _, by simp only [senderStep, ← pc]; rfl, .inr ⟨true, rfl, ?_, ?_⟩⟩
      · simp [BusState.pushed, BusState.returned, BusState.setClient]
      · simp [BusState.pushed, BusState.returned]
    | addSocket ci => cases same
    | removeSocket fd => cases same
    | shutdown l => cases same
  case h_9 p l slot serial at_ =>
    rw [at_] at same
    cases run
    have released : (s.setMsgs l ((s.listeners l).msgs.releaseMsg slot)).heap.boxes b = t.box := here
    cases p with
    | hold b' start tries =>
      simp only [ClientPc.sender, Option.some.injEq, Prod.mk.injEq] at same
      obtain ⟨rfl, pc⟩ := same
      exact ⟨.pushMessage false, t.notSent (.hold start tries), by simp only [senderStep, ← pc],
        Sender.notSent_matches released _ rfl⟩
    | expect b' tries =>
      simp only [ClientPc.sender, Option.some.injEq, Prod.mk.injEq] at same
      obtain ⟨rfl, pc⟩ := same
      exact ⟨.pushMessage false, t.notSent (.expect tries), by simp only [senderStep, ← pc],
        Sender.notSent_matches released _ rfl⟩
    | addSocket ci => cases same
    | removeSocket fd => cases same
    | shutdown l => cases same
  case h_10 p l slot serial at_ =>
    rw [at_] at same
    split at run
    · cases run
    · cases p with
      | hold b' start tries =>
        simp only [ClientPc.sender, Option.some.injEq, Prod.mk.injEq] at same
        obtain ⟨rfl, pc⟩ := same
        simp only [BusState.completed] at run
        split at run
        · rename_i none_sent
          cases run
          have unsent : t.box.outSentSize = 0 := by rw [← here]; exact none_sent
          refine ⟨.onCompletion true, _, by simp only [senderStep, ← pc, if_pos unsent]; rfl, ?_⟩
          have read : (s.setMsgs l ((s.listeners l).msgs.readReply slot)).heap.boxes b' = (t.touch [.outSentSize]).box := here
          rw [read]
          exact Sender.goOn_matches read _
        · cases run
      | expect b' tries => cases same
      | addSocket ci => cases same
      | removeSocket fd => cases same
      | shutdown l => cases same
  case h_11 p l slot serial at_ =>
    rw [at_] at same
    cases p with
    | hold b' start tries =>
      simp only [ClientPc.sender, Option.some.injEq, Prod.mk.injEq] at same
      obtain ⟨rfl, pc⟩ := same
      cases run
      exact ⟨.onCompletion false, t.goOn (.returned false), by simp only [senderStep, ← pc], Sender.goOn_matches here _⟩
    | expect b' tries => cases same
    | addSocket ci => cases same
    | removeSocket fd => cases same
    | shutdown l => cases same
  case h_12 => cases run
  all_goals
    rename_i at_
    rw [at_] at same
    cases same

end Clients

end Kinetic
