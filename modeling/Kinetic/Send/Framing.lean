import Kinetic.Send.Steps

namespace Kinetic
open Transition

/-- A message with the number of its request at every byte. -/
def tag (i : Nat) (msg : List UInt8) : List (Nat × UInt8) := msg.map (Prod.mk i)

def tagged (requests : List (List UInt8)) : List (List (Nat × UInt8)) := requests.mapIdx tag

/-- The stream is a concatenation of complete messages, in the order of the
requests, followed by at most one incomplete message of a later request. -/
def Framed (requests : List (List UInt8)) (stream : List (Nat × UInt8)) : Prop :=
  ∃ complete part, stream = complete.flatten ++ part ∧
    ((part = [] ∧ complete.Sublist (tagged requests)) ∨
      ∃ msg, (complete ++ [msg]).Sublist (tagged requests) ∧ part <+: msg ∧ part ≠ msg)

/-- A request is sent only when the one before it was accepted whole or not at all. -/
def WholeBefore (r : Registration) : RegistrationLabel → Prop
  | .call _ _ => r.box.outSentSize = 0 ∨ r.box.outSentSize = r.box.outMsg.length
  | _ => True

instance (r : Registration) (label : RegistrationLabel) : Decidable (WholeBefore r label) :=
  match label with
  | .call _ _ => inferInstanceAs (Decidable (_ ∨ _))
  | .event _ => inferInstanceAs (Decidable True)
  | .hold _ => inferInstanceAs (Decidable True)
  | .expect _ => inferInstanceAs (Decidable True)
  | .pool _ => inferInstanceAs (Decidable True)

theorem tagged_append (requests : List (List UInt8)) (msg : List UInt8) :
    tagged (requests ++ [msg]) = tagged requests ++ [tag requests.length msg] := by
  simp [tagged, List.mapIdx_append]

theorem tag_length (i : Nat) (msg : List UInt8) : (tag i msg).length = msg.length := List.length_map _

/-- The requests before the last one lie whole in the stream or not at all, and the last one lies there as far as it was sent. -/
def Streamed (r : Registration) : Prop :=
  (r.requests = [] ∧ r.stream = [] ∧ r.box.outMsg = []) ∨
    ∃ (earlier : List (List UInt8)) (complete : List (List (Nat × UInt8))),
      r.requests = earlier ++ [r.box.outMsg] ∧ complete.Sublist (tagged earlier) ∧
      r.stream = complete.flatten ++ (tag earlier.length r.box.outMsg).take r.box.outSentSize

structure StreamInv (r : Registration) : Prop where
  within : r.box.outSentSize ≤ r.box.outMsg.length
  streamed : Streamed r

section Steps
variable {r r' : Registration} {label : RegistrationLabel}

/-- The bytes accepted in a step continue those of the last message. -/
theorem take_append_accepted {msg : List UInt8} (i sent n : Nat) :
    (tag i msg).take sent ++ ((msg.take (sent + n)).drop sent).map (Prod.mk i) = (tag i msg).take (sent + n) := by
  unfold tag
  rw [List.drop_take, Nat.add_sub_cancel_left, ← List.map_take, ← List.map_append, ← List.map_take, List.take_add]

theorem StreamInv.call (inv : StreamInv r) {msg : List UInt8} {timeoutSec : Nat}
    (whole : r.box.outSentSize = 0 ∨ r.box.outSentSize = r.box.outMsg.length) :
    StreamInv { r with requests := r.requests ++ [msg], box := ⟨msg, 0, timeoutSec⟩, pc := .timestampStart } := by
  refine ⟨Nat.zero_le _, Or.inr ?_⟩
  rcases inv.streamed with ⟨none, empty, _⟩ | ⟨earlier, complete, requests, inOrder, stream⟩
  · exact ⟨r.requests, [], rfl, List.nil_sublist _, by rw [empty]; rfl⟩
  · rcases whole with untouched | sent
    · refine ⟨r.requests, complete, rfl, ?_, ?_⟩
      · rw [requests, tagged_append]
        exact inOrder.trans (List.sublist_append_left _ _)
      · rw [stream, untouched]
        rfl
    · refine ⟨r.requests, complete ++ [tag earlier.length r.box.outMsg], rfl, ?_, ?_⟩
      · rw [requests, tagged_append]
        exact inOrder.append (List.Sublist.refl _)
      · rw [stream, sent, ← tag_length earlier.length, List.take_length]
        simp

theorem StreamInv.event (inv : StreamInv r) {box : SendBox} {pc : SendPc} {n : Nat}
    (room : n ≤ r.box.outMsg.length - r.box.outSentSize)
    (sent : box = { r.box with outSentSize := r.box.outSentSize + n }) :
    StreamInv { r with
      box := box, pc := pc,
      stream := r.stream ++
        ((box.outMsg.take box.outSentSize).drop r.box.outSentSize).map (Prod.mk (r.requests.length - 1)) } := by
  have within := inv.within
  subst sent
  refine ⟨show r.box.outSentSize + n ≤ r.box.outMsg.length by omega, ?_⟩
  rcases inv.streamed with ⟨none, empty, blank⟩ | ⟨earlier, complete, requests, inOrder, stream⟩
  · refine Or.inl ⟨none, ?_, blank⟩
    rw [empty, blank]
    simp
  · refine Or.inr ⟨earlier, complete, requests, inOrder, ?_⟩
    have last : r.requests.length - 1 = earlier.length := by
      rw [requests, List.length_append]
      rfl
    dsimp only
    rw [last, stream, List.append_assoc, take_append_accepted]

theorem StreamInv.goto (inv : StreamInv r) (pc : SendPc) : StreamInv { r with pc := pc } := ⟨inv.within, inv.streamed⟩

theorem StreamInv.step (inv : StreamInv r) (ok : WholeBefore r label) (taken : registrationStep r label = some r') :
    StreamInv r' := by
  unfold registrationStep at taken
  split at taken
  case h_1 res msg timeoutSec pc =>
    cases taken
    exact inv.call ok
  case h_8 e _ =>
    split at taken
    · rename_i box pc sent
      obtain ⟨n, room, same⟩ := sendStep_box sent
      cases taken
      exact inv.event room same
    · cases taken
  case h_9 => cases taken
  case h_7 =>
    cases taken
    exact inv
  all_goals cases taken; exact inv.goto _

theorem StreamInv.framed (inv : StreamInv r) : Framed r.requests r.stream := by
  rcases inv.streamed with ⟨none, empty, _⟩ | ⟨earlier, complete, requests, inOrder, stream⟩
  · exact ⟨[], [], by rw [empty]; rfl, Or.inl ⟨rfl, List.nil_sublist _⟩⟩
  · have whole : (complete ++ [tag earlier.length r.box.outMsg]).Sublist (tagged r.requests) := by
      rw [requests, tagged_append]
      exact inOrder.append (List.Sublist.refl _)
    by_cases sent : r.box.outSentSize = r.box.outMsg.length
    · refine ⟨complete ++ [tag earlier.length r.box.outMsg], [], ?_, Or.inl ⟨rfl, whole⟩⟩
      rw [stream, sent, ← tag_length earlier.length, List.take_length]
      simp
    · refine ⟨complete, _, stream, Or.inr ⟨_, whole, List.take_prefix _ _, fun same => sent ?_⟩⟩
      have length := congrArg List.length same
      rw [List.length_take, tag_length] at length
      have within := inv.within
      omega

/-- A byte of a framed stream belongs to a message that lies whole in it, or to the one that the stream ends in. -/
theorem Framed.whole_or_last {requests : List (List UInt8)} {stream : List (Nat × UInt8)} (framed : Framed requests stream)
    {x last : Nat × UInt8} (member : x ∈ stream) (ends : stream.getLast? = some last) :
    ∃ msg ∈ tagged requests, x ∈ msg ∧ (last ∈ msg ∨ ∀ y ∈ msg, y ∈ stream) := by
  obtain ⟨complete, part, rfl, rest⟩ := framed
  have inOrder : complete.Sublist (tagged requests) := by
    rcases rest with ⟨_, inOrder⟩ | ⟨msg, inOrder, _⟩
    · exact inOrder
    · exact (List.sublist_append_left _ _).trans inOrder
  rcases List.mem_append.mp member with whole | begun
  · obtain ⟨msg, sent, inside⟩ := List.mem_flatten.mp whole
    exact ⟨msg, inOrder.subset sent, inside,
      Or.inr fun y other => List.mem_append_left _ (List.mem_flatten.mpr ⟨msg, sent, other⟩)⟩
  · rcases rest with ⟨rfl, _⟩ | ⟨msg, inOrder, sofar, _⟩
    · cases begun
    · have known : msg ∈ tagged requests := inOrder.subset (List.mem_append_right _ (List.mem_singleton_self _))
      have tail : part.getLast? = some last := by
        rw [List.getLast?_append, Option.or_of_isSome (by simp [List.ne_nil_of_mem begun])] at ends
        exact ends
      exact ⟨msg, known, sofar.subset begun, Or.inl (sofar.subset (List.mem_of_getLast? tail))⟩

end Steps

section Runs
variable {ssl : Bool} {r : Registration}

theorem StreamInv.new (ssl : Bool) : StreamInv (Registration.new ssl) := ⟨Nat.le_refl _, Or.inl ⟨rfl, rfl, rfl⟩⟩

/-- The bytes a socket accepts over the life of a registration are complete requests followed by at most one
incomplete one, if no request is sent after one that was given up when only a part of it had been accepted. -/
theorem send_stream_framed (reach : Reach registrationStep (Registration.new ssl) WholeBefore r) :
    Framed r.requests r.stream :=
  (reach.invariant (.new ssl) fun _ _ _ inv ok taken => inv.step ok taken : StreamInv r).framed

/-- A request written in two pieces, one given up before any byte was written, and one of which a byte is out. -/
def wholeWrites : List RegistrationLabel :=
  [.call [1, 2] 10, .event (.timestamp (some ⟨0, 0⟩)), .hold true, .event (.timestamp (some ⟨0, 0⟩)),
    .event (.poll (.ready false false false true)), .event (.write (.wrote 1)), .event (.timestamp (some ⟨0, 5⟩)),
    .event (.poll (.ready false false false true)), .event (.write (.wrote 1)), .event (.timestamp (some ⟨0, 9⟩)),
    .expect true, .call [3, 4] 10, .event (.timestamp (some ⟨1, 0⟩)), .hold true, .event (.timestamp (some ⟨1, 0⟩)),
    .event (.poll .timeout), .pool true, .call [5, 6] 10, .event (.timestamp (some ⟨20, 0⟩)), .hold true,
    .event (.timestamp (some ⟨20, 0⟩)), .event (.poll (.ready false false false true)), .event (.write (.wrote 1))]

theorem send_stream_framed_whole_writes :
    ∃ r, Reach registrationStep (Registration.new false) WholeBefore r ∧ r.stream = [(0, 1), (0, 2), (2, 5)] ∧
      Framed r.requests r.stream := by
  have run : ((exec registrationStep (fun r label => decide (WholeBefore r label)) (Registration.new false) wholeWrites).map
      Registration.stream) = some [(0, 1), (0, 2), (2, 5)] := by decide +kernel
  obtain ⟨r, taken, stream⟩ := Option.map_eq_some_iff.mp run
  have reach : Reach registrationStep (Registration.new false) WholeBefore r :=
    Reach.start.exec (fun _ _ => of_decide_eq_true) taken
  exact ⟨r, reach, stream, send_stream_framed reach⟩

/-- A request is given up on a timeout after its first byte, and the next one is written behind that byte. -/
def shortWrite : List RegistrationLabel :=
  [.call [1, 2] 10, .event (.timestamp (some ⟨0, 0⟩)), .hold true, .event (.timestamp (some ⟨0, 0⟩)),
    .event (.poll (.ready false false false true)), .event (.write (.wrote 1)), .event (.timestamp (some ⟨9, 0⟩)),
    .event (.poll .timeout), .pool true, .call [3, 4] 10, .event (.timestamp (some ⟨20, 0⟩)), .hold true,
    .event (.timestamp (some ⟨20, 0⟩)), .event (.poll (.ready false false false true)), .event (.write (.wrote 2)),
    .event (.timestamp (some ⟨20, 0⟩)), .expect true]

theorem send_stream_broken :
    ∃ r, Reach registrationStep (Registration.new false) (fun _ _ => True) r ∧ r.requests = [[1, 2], [3, 4]] ∧
      r.stream = [(0, 1), (1, 3), (1, 4)] ∧ ¬ Framed r.requests r.stream := by
  have run : ((exec registrationStep (fun _ _ => true) (Registration.new false) shortWrite).map fun r =>
      (r.requests, r.stream)) = some ([[1, 2], [3, 4]], [(0, 1), (1, 3), (1, 4)]) := by decide +kernel
  obtain ⟨r, taken, seen⟩ := Option.map_eq_some_iff.mp run
  simp only [Prod.mk.injEq] at seen
  refine ⟨r, Reach.start.exec (fun _ _ _ => trivial) taken, seen.1, seen.2, fun framed => ?_⟩
  rw [seen.1, seen.2] at framed
  have cut := framed.whole_or_last (List.mem_cons_self ..) rfl
  revert cut
  decide

end Runs

end Kinetic
