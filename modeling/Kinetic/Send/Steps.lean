import Kinetic.Send.Model

namespace Kinetic

section Writes
variable {ssl : Bool} {box box' : SendBox} {pc pc' : SendPc} {e : SendEvent} {rem : Nat} {res : WriteRes}

theorem writePlain_le {n : Nat} (wrote : writePlain rem res = some (.returned (some n))) : n ≤ rem := by
  cases res <;> simp only [writePlain] at wrote
  case wrote k =>
    split at wrote <;> cases wrote
    rename_i room
    exact room.2
  case zero =>
    cases wrote
    exact Nat.zero_le _
  all_goals cases wrote

theorem writeSsl_le {n : Nat} (wrote : writeSsl rem res = some (.returned (some n))) : n ≤ rem := by
  unfold writeSsl at wrote
  split at wrote
  · cases wrote
    exact Nat.zero_le _
  · cases res <;> simp only at wrote
    case wrote k =>
      split at wrote <;> cases wrote
      rename_i room
      exact room.2
    case wantWrite =>
      cases wrote
      exact Nat.zero_le _
    all_goals cases wrote

theorem handleWrite_box {start : Timeval} {left : Int} (taken : handleWrite ssl box start left res = some (box', pc')) :
    ∃ n, n ≤ box.outMsg.length - box.outSentSize ∧ box' = { box with outSentSize := box.outSentSize + n } := by
  unfold handleWrite at taken
  dsimp only at taken
  generalize wrote : (if ssl then writeSsl (box.outMsg.length - box.outSentSize) res
    else writePlain (box.outMsg.length - box.outSentSize) res) = outcome at taken
  split at taken
  · cases taken
  · cases taken
    exact ⟨0, Nat.zero_le _, rfl⟩
  · cases taken
    exact ⟨0, Nat.zero_le _, rfl⟩
  · rename_i n
    cases taken
    refine ⟨n, ?_, rfl⟩
    split at wrote
    · exact writeSsl_le wrote
    · exact writePlain_le wrote

/-- A step of the sending thread may add to what is sent of its message, within the message, and changes nothing else of the box. -/
theorem sendStep_box (taken : sendStep ssl box pc e = some (box', pc')) :
    ∃ n, n ≤ box.outMsg.length - box.outSentSize ∧ box' = { box with outSentSize := box.outSentSize + n } := by
  unfold sendStep at taken
  split at taken
  case h_5 start left result =>
    obtain ⟨_, _, same⟩ := Option.map_eq_some_iff.mp taken
    cases same
    exact ⟨0, Nat.zero_le _, rfl⟩
  case h_6 start left result => exact handleWrite_box taken
  all_goals cases taken
  all_goals exact ⟨0, Nat.zero_le _, rfl⟩

end Writes

/-- The failures that a sender meets in its loop. -/
def BusSendStatus.inLoop : BusSendStatus → Bool
  | .txTimeout => true
  | .txFailure => true
  | .unregisteredSocket => true
  | _ => false

/-- The loop of `Send_DoBlockingSend`. -/
def SendPc.inLoop : SendPc → Bool
  | .timestampNow _ => true
  | .poll _ _ => true
  | .write _ _ => true
  | _ => false

/-- Everything that a system call can do to a sender. -/
inductive SendMove (timeoutSec : Nat) : SendPc → SendEvent → SendPc → Prop
  | begins (start : Timeval) : SendMove timeoutSec .timestampStart (.timestamp (some start)) (.hold start)
  | rejected : SendMove timeoutSec .timestampStart (.timestamp none) (.returned false)
  | reads (start now : Timeval) :
      SendMove timeoutSec (.timestampNow start) (.timestamp (some now)) (.poll start (remMsec timeoutSec start now))
  | loops (start : Timeval) (rem : Int) (pc : SendPc) (e : SendEvent) : pc = .poll start rem ∨ pc = .write start rem → 0 < rem →
      SendMove timeoutSec pc e (.timestampNow start)
  | writable (start : Timeval) (rem : Int) (res : PollRes) :
      SendMove timeoutSec (.poll start rem) (.poll res) (.write start rem)
  | rewrites (start : Timeval) (rem : Int) (res : WriteRes) :
      SendMove timeoutSec (.write start rem) (.write res) (.write start rem)
  | written (start : Timeval) (rem : Int) (res : WriteRes) : SendMove timeoutSec (.write start rem) (.write res) .timestampDone
  | sent (done : Timeval) : SendMove timeoutSec .timestampDone (.timestamp (some done)) .expect
  | fails (pc : SendPc) (e : SendEvent) (status : BusSendStatus) : pc.inLoop = true → status.inLoop = true →
      SendMove timeoutSec pc e (.failure status)
  | notStamped : SendMove timeoutSec .timestampDone (.timestamp none) (.failure .timestampError)

section Moves
variable {timeoutSec : Nat} {ssl : Bool} {box box' : SendBox} {pc pc' : SendPc} {e : SendEvent} {start : Timeval} {rem : Int}

theorem sendLoop_next (start : Timeval) (rem : Int) :
    0 < rem ∧ sendLoop start rem = .timestampNow start ∨ sendLoop start rem = .failure .txTimeout := by
  unfold sendLoop
  split
  · rename_i left
    exact .inl ⟨left, rfl⟩
  · exact .inr rfl

theorem SendMove.of_sendLoop (here : pc = .poll start rem ∨ pc = .write start rem) :
    SendMove timeoutSec pc e (sendLoop start rem) := by
  rcases sendLoop_next start rem with ⟨left, again⟩ | late
  · rw [again]
    exact .loops start rem pc e here left
  · rw [late]
    refine .fails pc e _ ?_ rfl
    rcases here with rfl | rfl
    · rfl
    · rfl

theorem handlePoll_move {res : PollRes} (run : handlePoll start rem res = some pc') :
    SendMove timeoutSec (.poll start rem) (.poll res) pc' := by
  cases res with
  | interrupted =>
    cases run
    exact .of_sendLoop (.inl rfl)
  | error =>
    cases run
    exact .fails _ _ _ rfl rfl
  | timeout =>
    cases run
    exact .fails _ _ _ rfl rfl
  | ready nval err hup out =>
    simp only [handlePoll] at run
    split at run
    · cases run
      exact .fails _ _ _ rfl rfl
    · split at run
      · cases run
        exact .fails _ _ _ rfl rfl
      · split at run
        · cases run
          exact .writable start rem _
        · cases run

theorem handleWrite_move {res : WriteRes} (run : handleWrite ssl box start rem res = some (box', pc')) :
    SendMove timeoutSec (.write start rem) (.write res) pc' := by
  unfold handleWrite at run
  dsimp only at run
  split at run
  · cases run
  · cases run
    exact .rewrites start rem res
  · cases run
    exact .fails _ _ _ rfl rfl
  · cases run
    unfold afterWrite
    split
    · exact .written start rem res
    · exact .of_sendLoop (.inr rfl)

theorem sendStep_move (run : sendStep ssl box pc e = some (box', pc')) : SendMove box.timeoutSec pc e pc' := by
  unfold sendStep at run
  split at run
  · cases run
    exact .begins _
  · cases run
    exact .rejected
  · cases run
    exact .reads _ _
  · cases run
    exact .fails _ _ _ rfl rfl
  · obtain ⟨polled, atPoll, same⟩ := Option.map_eq_some_iff.mp run
    cases same
    exact handlePoll_move atPoll
  · exact handleWrite_move run
  · cases run
    exact .sent _
  · cases run
    exact .notStamped
  · cases run

end Moves

end Kinetic
