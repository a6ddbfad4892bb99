import Kinetic.Bus.Model
import Kinetic.Send.Steps

namespace Kinetic
open Transition (Reach exec exists_reach_of_exec)

/-- `SHHW_OK`, `SHHW_DONE` and `SHHW_ERROR`. -/
inductive HandleWriteRes
  | ok
  | done
  | error
  deriving DecidableEq

/-- Where a sender stands in its calls of `SendHelper_HandleWrite`: behind one, before a `write` or `SSL_write`, before the
clock is read, in the loop of `enqueue_EXPECT_message_to_listener` after a number of tries, or in `Send_HandleFailure`. -/
inductive HandleWritePc
  | returned (res : HandleWriteRes)
  | write
  | timestampDone
  | acquire (tries : Nat)
  | push (tries : Nat)
  | failure (status : BusSendStatus)
  deriving DecidableEq

/-- The calls of `SendHelper_HandleWrite` for a box, with the bytes that the socket has accepted and the number of times that an
`EXPECT` was committed. -/
structure HandleWrites where
  box : BoxedMsg
  pc : HandleWritePc
  accepted : List UInt8
  expects : Nat

def HandleWrites.new (box : BoxedMsg) : HandleWrites := { box := box, pc := .returned .ok, accepted := [], expects := 0 }

inductive HandleWriteEvent
  | call
  | write (res : WriteRes)
  | timestamp (ok : Bool)
  | getFreeMsg (found : Bool)
  | pushMessage (ok : Bool)
  | pool (accepted : Bool)

def HandleWrites.fail (h : HandleWrites) (status : BusSendStatus) : HandleWrites :=
  { h with box := { h.box with status := status, responseSeqId := 0, responseMsg := 0 }, pc := .failure status }

/-- The loop of `enqueue_EXPECT_message_to_listener`, after a try that has failed. -/
def HandleWrites.notExpected (h : HandleWrites) (tries : Nat) : HandleWrites :=
  if tries + 1 < sendNotifyListenerRetries then { h with pc := .acquire (tries + 1) } else h.fail .txTimeoutNotifyingListener

/-- One step in the calls of `SendHelper_HandleWrite`. What the socket accepts is what its argument points at. The sender calls
again only if the last call has returned `SHHW_OK`: otherwise the box is not its own any more. -/
def handleWritesStep (h : HandleWrites) (e : HandleWriteEvent) : Option HandleWrites :=
  match h.pc, e with
  | .returned .ok, .call => some { h with pc := .write }
  | .write, .write res =>
    let left := h.box.outMsg.length - h.box.outSentSize
    match if h.box.ssl then writeSsl left res else writePlain left res with
    | none => none
    | some .again => some h
    | some (.returned none) => some (h.fail .txFailure)
    | some (.returned (some n)) =>
      let box := { h.box with outSentSize := h.box.outSentSize + n }
      some { h with
        box := box
        pc := if box.outMsg.length - box.outSentSize = 0 then .timestampDone else .returned .ok
        accepted := h.accepted ++ (h.box.outMsg.drop h.box.outSentSize).take n }
  | .timestampDone, .timestamp true =>
    let status := if h.box.status = .undefined then .requestComplete else h.box.status
    some { h with box := { h.box with status := status }, pc := .acquire 0 }
  | .timestampDone, .timestamp false => some (h.fail .timestampError)
  | .acquire tries, .getFreeMsg true => if h.box.status = .undefined then none else some { h with pc := .push tries }
  | .acquire tries, .getFreeMsg false => some (h.notExpected tries)
  | .push _, .pushMessage true => some { h with pc := .returned .done, expects := h.expects + 1 }
  | .push tries, .pushMessage false => some (h.notExpected tries)
  | .failure _, .pool true => some { h with pc := .returned .error }
  | .failure _, .pool false => some h
  | _, _ => none

/-- How `Send_DoBlockingSend` goes on. -/
def HandleWritePc.onward (start : Timeval) (rem : Int) : HandleWritePc → SendPc
  | .returned .ok => sendLoop start rem
  | .returned .done => .returned true
  | .returned .error => .returned true
  | .write => .write start rem
  | .timestampDone => .timestampDone
  | .acquire _ => .expect
  | .push _ => .expect
  | .failure status => .failure status

/-- A write in `Send_DoBlockingSend` is one in a call of `SendHelper_HandleWrite`. -/
theorem handleWrite_eq (h : HandleWrites) (here : h.pc = .write) (start : Timeval) (rem : Int) (res : WriteRes) :
    handleWrite h.box.ssl h.box.toSendBox start rem res =
      (handleWritesStep h (.write res)).map fun h' => (h'.box.toSendBox, h'.pc.onward start rem) := by
  simp only [handleWrite, handleWritesStep, here]
  generalize (if h.box.ssl then writeSsl (h.box.outMsg.length - h.box.outSentSize) res
    else writePlain (h.box.outMsg.length - h.box.outSentSize) res) = outcome
  rcases outcome with none | again | none | n
  · rfl
  · simp [here, HandleWritePc.onward]
  · rfl
  · simp only [afterWrite, Option.map_some]
    split
    · rfl
    · rfl

/-- Everything was sent before the sender turns to the listener. -/
def HandleWritePc.sent : HandleWritePc → Bool
  | .timestampDone => true
  | .acquire _ => true
  | .push _ => true
  | .returned .done => true
  | _ => false

structure HandleWrites.Inv (msg : List UInt8) (h : HandleWrites) : Prop where
  outMsg : h.box.outMsg = msg
  exactly : h.accepted = h.box.outMsg.take h.box.outSentSize
  within : h.box.outSentSize ≤ h.box.outMsg.length
  whole : h.pc.sent = true → h.box.outSentSize = h.box.outMsg.length
  expects : h.expects = if h.pc = .returned .done then 1 else 0

section Steps
variable {msg : List UInt8} {h h' : HandleWrites} {e : HandleWriteEvent}

/-- A step in which nothing is accepted and nothing committed. -/
theorem HandleWrites.Inv.stay (inv : h.Inv msg) (same : h'.box.outMsg = h.box.outMsg) (size : h'.box.outSentSize = h.box.outSentSize)
    (accepted : h'.accepted = h.accepted) (expects : h'.expects = h.expects) (open_ : h.pc ≠ .returned .done)
    (still : h'.pc ≠ .returned .done) (sent : h'.pc.sent = true → h.pc.sent = true) : h'.Inv msg := by
  refine ⟨same.trans inv.outMsg, ?_, ?_, fun all => ?_, ?_⟩
  · rw [accepted, same, size, inv.exactly]
  · rw [same, size]
    exact inv.within
  · rw [same, size]
    exact inv.whole (sent all)
  · rw [expects, inv.expects, if_neg open_, if_neg still]

theorem HandleWrites.Inv.fail (inv : h.Inv msg) (open_ : h.pc ≠ .returned .done) (status : BusSendStatus) :
    (HandleWrites.fail h status).Inv msg :=
  inv.stay rfl rfl rfl rfl open_ (by simp [HandleWrites.fail]) fun all => by simp [HandleWrites.fail, HandleWritePc.sent] at all

theorem HandleWrites.Inv.notExpected (inv : h.Inv msg) (open_ : h.pc ≠ .returned .done) (sent : h.pc.sent = true) (tries : Nat) :
    (HandleWrites.notExpected h tries).Inv msg := by
  unfold HandleWrites.notExpected
  split
  · exact inv.stay rfl rfl rfl rfl open_ (by simp) fun _ => sent
  · exact inv.fail open_ _

/-- The bytes that are accepted follow those that were. -/
theorem HandleWrites.Inv.write (inv : h.Inv msg) {n : Nat} (room : n ≤ h.box.outMsg.length - h.box.outSentSize)
    (box : h'.box = { h.box with outSentSize := h.box.outSentSize + n })
    (accepted : h'.accepted = h.accepted ++ (h.box.outMsg.drop h.box.outSentSize).take n) (expects : h'.expects = h.expects)
    (open_ : h.pc ≠ .returned .done) (still : h'.pc ≠ .returned .done)
    (sent : h'.pc.sent = true → h.box.outMsg.length - (h.box.outSentSize + n) = 0) : h'.Inv msg := by
  have within := inv.within
  refine ⟨?_, ?_, ?_, fun all => ?_, ?_⟩
  · rw [box]
    exact inv.outMsg
  · rw [accepted, inv.exactly, box, List.take_add]
  · rw [box]
    show h.box.outSentSize + n ≤ h.box.outMsg.length
    omega
  · have none_left := sent all
    rw [box]
    show h.box.outSentSize + n = h.box.outMsg.length
    omega
  · rw [expects, inv.expects, if_neg open_, if_neg still]

theorem HandleWrites.Inv.step (inv : h.Inv msg) (run : handleWritesStep h e = some h') : h'.Inv msg := by
  unfold handleWritesStep at run
  split at run
  case h_1 here =>
    cases run
    exact inv.stay rfl rfl rfl rfl (by simp [here]) (by simp) fun all => by simp [HandleWritePc.sent] at all
  case h_2 res here =>
    dsimp only at run
    generalize wrote : (if h.box.ssl then writeSsl (h.box.outMsg.length - h.box.outSentSize) res
      else writePlain (h.box.outMsg.length - h.box.outSentSize) res) = outcome at run
    split at run
    · cases run
    · cases run
      exact inv
    · cases run
      exact inv.fail (by simp [here]) _
    · rename_i n
      have room : n ≤ h.box.outMsg.length - h.box.outSentSize := by
        split at wrote
        · exact writeSsl_le wrote
        · exact writePlain_le wrote
      cases run
      refine inv.write room rfl rfl rfl (by simp [here]) ?_ fun all => ?_
      · dsimp only
        split
        · simp
        · simp
      · dsimp only at all
        split at all
        · assumption
        · cases all
  case h_3 here =>
    cases run
    exact inv.stay rfl rfl rfl rfl (by simp [here]) (by simp) fun _ => by rw [here]; rfl
  case h_4 here =>
    cases run
    exact inv.fail (by simp [here]) _
  case h_5 tries here =>
    split at run
    · cases run
    · cases run
      exact inv.stay rfl rfl rfl rfl (by simp [here]) (by simp) fun _ => by rw [here]; rfl
  case h_6 tries here =>
    cases run
    exact inv.notExpected (by simp [here]) (by rw [here]; rfl) tries
  case h_7 tries here =>
    cases run
    refine ⟨inv.outMsg, inv.exactly, inv.within, fun _ => inv.whole (by rw [here]; rfl), ?_⟩
    have none := inv.expects
    rw [here, if_neg (by simp)] at none
    rw [if_pos rfl, none]
  case h_8 tries here =>
    cases run
    exact inv.notExpected (by simp [here]) (by rw [here]; rfl) tries
  case h_9 status here =>
    cases run
    exact inv.stay rfl rfl rfl rfl (by simp [here]) (by simp) fun all => by simp [HandleWritePc.sent] at all
  case h_10 status here =>
    cases run
    exact inv
  case h_11 => cases run

end Steps

/-- What the socket has accepted of a message is always what `out_sent_size` says, and an `EXPECT` is committed at most once, when
it has accepted all of it. -/
theorem send_progress_exact {box : BoxedMsg} (unsent : box.outSentSize = 0) {h : HandleWrites}
    (reach : Reach handleWritesStep (.new box) (fun _ _ => True) h) :
    h.accepted = h.box.outMsg.take h.box.outSentSize ∧ h.box.outSentSize ≤ h.box.outMsg.length ∧ h.expects ≤ 1 ∧
      (0 < h.expects → h.accepted = h.box.outMsg) ∧ h.box.outMsg = box.outMsg := by
  have start : (HandleWrites.new box).Inv box.outMsg := by
    refine ⟨rfl, ?_, ?_, fun all => by simp [HandleWrites.new, HandleWritePc.sent] at all, by simp [HandleWrites.new]⟩
    · simp [HandleWrites.new, unsent]
    · simp [HandleWrites.new, unsent]
  have inv : h.Inv box.outMsg := reach.invariant start fun _ _ _ inv _ run => inv.step run
  have expects := inv.expects
  refine ⟨inv.exactly, inv.within, ?_, fun committed => ?_, inv.outMsg⟩
  · split at expects
    · omega
    · omega
  · split at expects
    · rename_i ended
      rw [inv.exactly, inv.whole (by rw [ended]; rfl), List.take_length]
    · omega

/-- Three calls over SSL, the second one of which cannot write, and an `EXPECT` at the third try. -/
theorem send_progress_exact_ssl : ∃ h, Reach handleWritesStep
      (.new { BoxedMsg.calloc with outMsg := [1, 2, 3], timeoutSec := 10, ssl := true }) (fun _ _ => True) h ∧
    h.pc = .returned .done ∧ h.expects = 1 ∧ h.accepted = [1, 2, 3] ∧ h.accepted = h.box.outMsg.take h.box.outSentSize := by
  have trace : (exec handleWritesStep (fun _ _ => decide True)
      (.new { BoxedMsg.calloc with outMsg := [1, 2, 3], timeoutSec := 10, ssl := true })
      [.call, .write .zero, .write (.wrote 1), .call, .write .wantWrite, .call, .write .resumable, .write (.wrote 2),
        .timestamp true, .getFreeMsg false, .getFreeMsg true, .pushMessage false, .getFreeMsg true, .pushMessage true]).map
      (fun h => (h.pc, h.expects, h.accepted)) = some (.returned .done, 1, [1, 2, 3]) := by decide +kernel
  obtain ⟨h, reach, seen⟩ := exists_reach_of_exec trace
  simp only [Prod.mk.injEq] at seen
  exact ⟨h, reach, seen.1, seen.2.1, seen.2.2, (send_progress_exact rfl reach).1⟩

end Kinetic
