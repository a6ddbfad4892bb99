import Kinetic.Send.Handoff

namespace Kinetic
open Transition (Reach exec exists_reach_of_exec)

/-- The microseconds between two readings of the clock. -/
def elapsedUsec (start now : Timeval) : Int := (now.sec - start.sec) * 1000000 + (now.usec - start.usec)

/-- What is passed to `poll` is what is left of the timeout, and neither negative nor above it. -/
def RemExact (timeoutSec : Nat) (start now : Timeval) (rem : Int) : Prop :=
  rem = timeoutSec * 1000 - elapsedUsec start now / 1000 ∧ 0 ≤ rem ∧ rem ≤ timeoutSec * 1000

/-- The clock has not gone back behind the start of the send, and the deadline has not passed. -/
def InTime (timeoutSec : Nat) (start now : Timeval) : Prop :=
  0 ≤ elapsedUsec start now ∧ elapsedUsec start now / 1000 ≤ timeoutSec * 1000

instance InTime.decidable (timeoutSec : Nat) (start now : Timeval) : Decidable (InTime timeoutSec start now) :=
  inferInstanceAs (Decidable (_ ∧ _))

/-- The start of the send, where the clock is next read in the loop of `Send_DoBlockingSend`. -/
def Sender.since (s : Sender) : Option Timeval :=
  match s.pc with
  | .send (.timestampNow start) => some start
  | _ => none

/-- The readings of the clock in the loop of `Send_DoBlockingSend` are in time. -/
def SenderEvent.Timely (s : Sender) : SenderEvent → Prop
  | .event (.timestamp (some now)) => ∀ start ∈ s.since, InTime s.box.timeoutSec start now
  | _ => True

instance SenderEvent.decidableTimely (s : Sender) : (e : SenderEvent) → Decidable (e.Timely s)
  | .event (.timestamp (some now)) => inferInstanceAs (Decidable (∀ start ∈ s.since, InTime s.box.timeoutSec start now))
  | .event (.timestamp none) => .isTrue trivial
  | .event (.poll _) => .isTrue trivial
  | .event (.write _) => .isTrue trivial
  | .getFreeMsg _ => .isTrue trivial
  | .pushMessage _ => .isTrue trivial
  | .onCompletion _ => .isTrue trivial
  | .pool _ => .isTrue trivial

theorem remMsec_exact_iff {timeoutSec : Nat} (small : timeoutSec < 2 ^ 16) (start now : Timeval) :
    RemExact timeoutSec start now (remMsec timeoutSec start now) ↔ InTime timeoutSec start now := by
  unfold RemExact InTime remMsec
  dsimp only
  generalize usec : elapsedUsec start now = elapsed
  unfold elapsedUsec at usec
  rw [usec]
  constructor
  · rintro ⟨same, low, high⟩
    rw [same] at low high
    constructor
    · omega
    · omega
  · rintro ⟨forward, before⟩
    have size : elapsed % 2 ^ 64 = elapsed := Int.emod_eq_of_lt forward (by omega)
    have whole : ((timeoutSec * 1000 : Int) - elapsed / 1000).bmod (2 ^ 32) = timeoutSec * 1000 - elapsed / 1000 :=
      Int.bmod_eq_of_le (by omega) (by omega)
    rw [size, whole]
    refine ⟨rfl, ?_, ?_⟩
    · omega
    · omega

section Steps
variable {s s' : Sender} {ssl : Bool} {box box' : SendBox} {pc : SendPc} {e : SendEvent} {start : Timeval} {rem : Int}

theorem sendLoop_not_poll (since : Timeval) (left : Int) : sendLoop since left ≠ .poll start rem := by
  rcases sendLoop_next since left with ⟨_, again⟩ | late
  · rw [again]
    simp
  · rw [late]
    simp

/-- The only way to `poll` is by a reading of the clock. -/
theorem sendStep_poll (taken : sendStep ssl box pc e = some (box', .poll start rem)) :
    pc = .timestampNow start ∧ ∃ now, e = .timestamp (some now) ∧ rem = remMsec box.timeoutSec start now := by
  generalize next : SendPc.poll start rem = pc' at taken
  cases sendStep_move taken with
  | reads since now =>
    cases next
    exact ⟨rfl, now, rfl, rfl⟩
  | _ => cases next

theorem Sender.goOn_poll (there : (s.goOn pc).pc = .send (.poll start rem)) : pc = .poll start rem := by
  cases pc with
  | poll since left =>
    simp only [Sender.goOn, SenderPc.send.injEq] at there
    exact there
  | hold since => cases there
  | expect => cases there
  | failure status => cases there
  | returned res => cases there
  | timestampStart => cases there
  | timestampNow since => cases there
  | write since left => cases there
  | timestampDone => cases there

theorem Sender.notSent_not_poll (n : Notice) : (s.notSent n).pc ≠ .send (.poll start rem) := by
  intro there
  cases n with
  | hold since tries =>
    simp only [Sender.notSent] at there
    split at there
    · cases there
    · cases there
  | expect tries =>
    simp only [Sender.notSent] at there
    split at there
    · cases there
    · cases there

theorem senderStep_poll {e : SenderEvent} (run : senderStep s e = some s') (there : s'.pc = .send (.poll start rem)) :
    s.pc = .send (.timestampNow start) ∧
      ∃ now, e = .event (.timestamp (some now)) ∧ rem = remMsec s.box.timeoutSec start now := by
  unfold senderStep at run
  split at run
  case h_1 pc e here =>
    obtain ⟨⟨sent, next⟩, taken, run⟩ := Option.bind_eq_some_iff.mp run
    cases run
    rw [Sender.goOn_poll there] at taken
    obtain ⟨rfl, now, rfl, left⟩ := sendStep_poll taken
    exact ⟨here, now, rfl, left⟩
  case h_2 status accepted here =>
    dsimp only at run
    split at run
    · cases run
    · split at run
      · cases run
        cases there
      · cases run
        have still : s.pc = .send (.poll start rem) := there
        rw [here] at still
        cases still
  case h_3 n here =>
    cases run
    exact absurd there (Sender.notSent_not_poll n)
  case h_4 =>
    cases run
    cases there
  case h_5 =>
    split at run
    · cases run
    · cases run
      cases there
  case h_6 n here =>
    cases run
    exact absurd there (Sender.notSent_not_poll n)
  case h_7 =>
    cases run
    cases there
  case h_8 =>
    cases run
    cases there
  case h_9 since here =>
    split at run
    · cases run
      exact absurd (Sender.goOn_poll there) (sendLoop_not_poll _ _)
    · cases run
  case h_10 =>
    cases run
    cases there
  case h_11 => cases run

theorem Sender.goOn_timeoutSec (s : Sender) (pc : SendPc) : (s.goOn pc).box.timeoutSec = s.box.timeoutSec := by
  cases pc <;> rfl

theorem Sender.notSent_timeoutSec (s : Sender) (n : Notice) : (s.notSent n).box.timeoutSec = s.box.timeoutSec := by
  cases n with
  | hold since tries =>
    simp only [Sender.notSent]
    split
    · rfl
    · rfl
  | expect tries =>
    simp only [Sender.notSent]
    split
    · rfl
    · rfl

theorem senderStep_timeoutSec {e : SenderEvent} (run : senderStep s e = some s') : s'.box.timeoutSec = s.box.timeoutSec := by
  unfold senderStep at run
  split at run
  case h_1 pc e here =>
    obtain ⟨⟨sent, next⟩, taken, run⟩ := Option.bind_eq_some_iff.mp run
    cases run
    obtain ⟨n, _, same⟩ := sendStep_box taken
    rw [Sender.goOn_timeoutSec]
    show sent.timeoutSec = s.box.timeoutSec
    rw [same]
  case h_2 =>
    dsimp only at run
    split at run
    · cases run
    · split at run
      · cases run
        rfl
      · cases run
        rfl
  case h_3 n here =>
    cases run
    exact s.notSent_timeoutSec n
  case h_5 =>
    split at run
    · cases run
    · cases run
      rfl
  case h_6 n here =>
    cases run
    exact s.notSent_timeoutSec n
  case h_9 since here =>
    split at run
    · cases run
      rw [Sender.goOn_timeoutSec]
      rfl
    · cases run
  case h_11 => cases run
  all_goals cases run
  all_goals rfl

/-- What is next passed to `poll` is what is left at some reading of the clock. -/
structure Sender.Punctual (timeoutSec : Nat) (s : Sender) : Prop where
  same : s.box.timeoutSec = timeoutSec
  poll : ∀ start rem, s.pc = .send (.poll start rem) → ∃ now, RemExact timeoutSec start now rem

theorem Sender.Punctual.step {timeoutSec : Nat} (small : timeoutSec < 2 ^ 16) {e : SenderEvent} (punctual : s.Punctual timeoutSec)
    (timely : e.Timely s) (run : senderStep s e = some s') : s'.Punctual timeoutSec := by
  refine ⟨(senderStep_timeoutSec run).trans punctual.same, fun start rem there => ?_⟩
  obtain ⟨here, now, rfl, left⟩ := senderStep_poll run there
  have inTime := timely start (by simp [Sender.since, here])
  rw [punctual.same] at inTime
  refine ⟨now, ?_⟩
  rw [left, punctual.same]
  exact (remMsec_exact_iff small start now).mpr inTime

end Steps

theorem effectiveTimeoutSec_lt (timeoutSec : UInt16) : effectiveTimeoutSec timeoutSec.toNat < 2 ^ 16 := by
  have bound := timeoutSec.toNat_lt
  unfold effectiveTimeoutSec
  split
  · omega
  · exact bound

/-- While the clock is not set back and the deadline has not passed, each `poll` gets what is left of the timeout, and a reading of
the clock at which this is not so makes the next one get something else. -/
theorem poll_timeout_exact (timeoutSec : UInt16) {box : BoxedMsg} (boxed : box.timeoutSec = effectiveTimeoutSec timeoutSec.toNat)
    {s : Sender} (reach : Reach senderStep (.new box) (fun s e => e.Timely s) s) :
    (∀ start rem, s.pc = .send (.poll start rem) → ∃ now, RemExact box.timeoutSec start now rem) ∧
      ∀ start now, s.pc = .send (.timestampNow start) → ∃ s' rem, senderStep s (.event (.timestamp (some now))) = some s' ∧
        s'.pc = .send (.poll start rem) ∧ (RemExact box.timeoutSec start now rem ↔ InTime box.timeoutSec start now) := by
  have small : box.timeoutSec < 2 ^ 16 := by
    rw [boxed]
    exact effectiveTimeoutSec_lt timeoutSec
  have start : (Sender.new box).Punctual box.timeoutSec := ⟨rfl, fun start rem there => by cases there⟩
  have punctual : s.Punctual box.timeoutSec :=
    reach.invariant start fun _ _ _ punctual timely run => punctual.step small timely run
  refine ⟨punctual.poll, fun since now here => ?_⟩
  refine ⟨_, remMsec s.box.timeoutSec since now, by simp only [senderStep, here, sendStep]; rfl, rfl, ?_⟩
  rw [punctual.same]
  exact remMsec_exact_iff small since now

/-- A send with a timeout of one second, half of which has passed after a write of the first byte. -/
theorem poll_timeout_exact_half : ∃ s, Reach senderStep (.new { BoxedMsg.calloc with outMsg := [1, 2], timeoutSec := 1 })
      (fun s e => e.Timely s) s ∧ s.pc = .send (.poll ⟨0, 0⟩ 500) ∧ ∃ now, RemExact 1 ⟨0, 0⟩ now 500 := by
  have trace : (exec senderStep (fun s e => decide (e.Timely s)) (.new { BoxedMsg.calloc with outMsg := [1, 2], timeoutSec := 1 })
      [.event (.timestamp (some ⟨0, 0⟩)), .getFreeMsg true, .pushMessage true, .onCompletion true,
        .event (.timestamp (some ⟨0, 0⟩)), .event (.poll (.ready false false false true)), .event (.write (.wrote 1)),
        .event (.timestamp (some ⟨0, 500000⟩))]).map (fun s => s.pc) = some (.send (.poll ⟨0, 0⟩ 500)) := by decide +kernel
  obtain ⟨s, reach, seen⟩ := exists_reach_of_exec trace
  exact ⟨s, reach, seen, (poll_timeout_exact 1 rfl reach).1 _ _ seen⟩

/-- A send with a timeout of one second, whose deadline passes in a `poll` that is interrupted, and one whose clock is set
back by a second. -/
theorem poll_timeout_negative :
    (∃ s, Reach senderStep (.new { BoxedMsg.calloc with outMsg := [1, 2], timeoutSec := 1 }) (fun _ _ => True) s ∧
        s.pc = .send (.poll ⟨0, 0⟩ (-5))) ∧
      ∃ s, Reach senderStep (.new { BoxedMsg.calloc with outMsg := [1, 2], timeoutSec := 1 }) (fun _ _ => True) s ∧
        s.pc = .send (.poll ⟨7, 0⟩ (-1271308319)) := by
  have late : (exec senderStep (fun _ _ => decide True) (.new { BoxedMsg.calloc with outMsg := [1, 2], timeoutSec := 1 })
      [.event (.timestamp (some ⟨0, 0⟩)), .getFreeMsg true, .pushMessage true, .onCompletion true,
        .event (.timestamp (some ⟨0, 0⟩)), .event (.poll .interrupted), .event (.timestamp (some ⟨1, 5000⟩))]).map
      (fun s => s.pc) = some (.send (.poll ⟨0, 0⟩ (-5))) := by decide +kernel
  have back : (exec senderStep (fun _ _ => decide True) (.new { BoxedMsg.calloc with outMsg := [1, 2], timeoutSec := 1 })
      [.event (.timestamp (some ⟨7, 0⟩)), .getFreeMsg true, .pushMessage true, .onCompletion true,
        .event (.timestamp (some ⟨6, 0⟩))]).map (fun s => s.pc) = some (.send (.poll ⟨7, 0⟩ (-1271308319))) := by
    decide +kernel
  exact ⟨exists_reach_of_exec late, exists_reach_of_exec back⟩

end Kinetic
