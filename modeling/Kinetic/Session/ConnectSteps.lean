import Kinetic.Session.Connect

namespace Kinetic
open Function (update)

/-- The session that a thread is connecting. -/
def CallPc.connects : CallPc → Option Nat
  | .alloc i => some i
  | .register i => some i
  | .registering i _ => some i
  | .waitTilAvailable i _ => some i
  | .cleanup i => some i
  | .close i => some i
  | _ => none

/-- The session that a thread is disconnecting. -/
def CallPc.disconnects : CallPc → Option Nat
  | .shut i => some i
  | .release i => some i
  | .releasing i _ => some i
  | .finish i => some i
  | _ => none

/-- What a step does, by the thread that takes it. -/
inductive ConnectMove (s : SessionBus) : ConnectLabel → SessionBus → Prop
  | notConnected (c i : Nat) : s.threads c = .outside → (s.sessions i).phase = .new →
      ConnectMove s (.call c (.connect i none))
        (s.setSession i { s.sessions i with socket := kineticSocketInvalid, connected := false, phase := .connectionError })
  | connects (c i : Nat) (fd : Int) : s.threads c = .outside → (s.sessions i).phase = .new → 0 ≤ fd → s.openFds fd = false →
      ConnectMove s (.call c (.connect i (some fd)))
        { (s.setSession i { s.sessions i with socket := fd, connected := true, phase := .connecting }).setThread c (.alloc i) with
          openFds := update s.openFds fd true }
  | allocates (c i : Nat) : s.threads c = .alloc i →
      ConnectMove s (.call c (.calloc true)) ((s.setSession i { s.sessions i with si := .allocated }).setThread c (.register i))
  | noMemory (c i : Nat) : s.threads c = .alloc i →
      ConnectMove s (.call c (.calloc false)) ((s.setSession i { s.sessions i with phase := .memoryError }).setThread c .outside)
  | notMade (c i : Nat) (ssl : Bool) (outcome : RegisterOutcome) (bus : BusState) : s.threads c = .register i →
      bus = s.bus ∨ (∃ info, bus = s.bus.discarded info) →
      ConnectMove s (.call c (.registerSocket ssl outcome)) { s.setThread c (.cleanup i) with bus := bus }
  | aborts (c i : Nat) (ssl : Bool) (ci : Nat) : s.threads c = .register i → s.bus.fdSet (s.sessions i).socket = some ci →
      ConnectMove s (.call c (.registerSocket ssl .made)) { s with aborted := true }
  | publishes (c i : Nat) (ssl : Bool) (bus : BusState) : s.threads c = .register i → s.bus.fdSet (s.sessions i).socket = none →
      busStep s.bus (.client c (.register (s.sessions i).socket ssl)) = some bus →
      ConnectMove s (.call c (.registerSocket ssl .made))
        { s.setThread c (.registering i s.bus.nextConn) with bus := bus, udata := update s.udata s.bus.nextConn (some i) }
  | available (c i ci : Nat) : s.threads c = .waitTilAvailable i ci →
      ConnectMove s (.call c (.waitTilAvailable true))
        ((s.setSession i { s.sessions i with phase := .connected ci }).setThread c .outside)
  | timesOut (c i ci : Nat) : s.threads c = .waitTilAvailable i ci →
      ConnectMove s (.call c (.waitTilAvailable false)) (s.setThread c (.cleanup i))
  | frees (c i : Nat) : s.threads c = .cleanup i →
      ConnectMove s (.call c .free) ((s.setSession i { s.sessions i with si := .null }).setThread c (.close i))
  | fails (c i : Nat) : s.threads c = .close i →
      ConnectMove s (.call c .close)
        { (s.setSession i { s.sessions i with socket := kineticSocketInvalid, connected := false, phase := .connectionError }).setThread
            c .outside with openFds := update s.openFds (s.sessions i).socket false }
  | refused (c i : Nat) : s.threads c = .outside → ConnectMove s (.call c (.disconnect i)) s
  | admitted (c i : Nat) : s.threads c = .outside →
      (∃ ci, (s.sessions i).phase = .connected ci) ∨ (s.sessions i).phase = .leaving ∨ (s.sessions i).phase = .closed →
      (s.sessions i).connected = true → 0 ≤ (s.sessions i).socket →
      ConnectMove s (.call c (.disconnect i)) ((s.setSession i { s.sessions i with phase := .leaving }).setThread c (.shut i))
  | shuts (c i : Nat) : s.threads c = .shut i →
      ConnectMove s (.call c .close)
        { s.setThread c (.release i) with openFds := update s.openFds (s.sessions i).socket false }
  | releases (c i : Nat) (bus : BusState) : s.threads c = .release i →
      busStep s.bus (.client c (.release (s.sessions i).socket)) = some bus →
      ConnectMove s (.call c .releaseSocket) { s.setThread c (.releasing i (s.sessions i).socket) with bus := bus }
  | finishes (c i : Nat) : s.threads c = .finish i →
      ConnectMove s (.call c .finish)
        ((s.setSession i { socket := kineticSocketInvalid, connected := false, si := .null, phase := .closed }).setThread c .outside)
  | client (c : Nat) (a : ClientAction) (bus : BusState) : (BusLabel.client c a).others = true →
      busStep s.bus (.client c a) = some bus →
      ConnectMove s (.bus (.client c a)) { s.setThread c ((s.threads c).resume (bus.clients c) a) with bus := bus }
  | other (label : BusLabel) (bus : BusState) : label.others = true → (∀ c a, label ≠ .client c a) →
      busStep s.bus label = some bus → ConnectMove s (.bus label) { s with bus := bus }

section Steps
variable {s t : SessionBus} {label : ConnectLabel}

theorem callStep_move {c : Nat} {a : CallAction} (taken : callStep s c a = some t) : ConnectMove s (.call c a) t := by
  unfold callStep at taken
  split at taken
  · rename_i i fd outside
    split at taken
    · rename_i new
      cases fd with
      | none =>
        cases taken
        exact .notConnected c i outside new
      | some fd =>
        simp only [sessionConnect] at taken
        split at taken
        · rename_i handed
          cases taken
          exact .connects c i fd outside new handed.1 handed.2
        · cases taken
    · cases taken
  · rename_i i here
    cases taken
    exact .allocates c i here
  · rename_i i here
    cases taken
    exact .noMemory c i here
  · rename_i i ssl outcome here
    cases outcome with
    | noMemory =>
      cases taken
      exact .notMade c i ssl .noMemory s.bus here (.inl rfl)
    | notMade info =>
      cases taken
      exact .notMade c i ssl (.notMade info) _ here (.inr ⟨info, rfl⟩)
    | made =>
      simp only [sessionRegister] at taken
      split at taken
      · rename_i ci present
        cases taken
        exact .aborts c i ssl ci here present
      · rename_i free
        obtain ⟨bus, run, same⟩ := Option.bind_eq_some_iff.mp taken
        cases same
        exact .publishes c i ssl bus here free run
  · rename_i i ci here
    cases taken
    exact .available c i ci here
  · rename_i i ci here
    cases taken
    exact .timesOut c i ci here
  · rename_i i here
    cases taken
    exact .frees c i here
  · rename_i i here
    cases taken
    exact .fails c i here
  · rename_i i outside
    have tested (phase : (∃ ci, (s.sessions i).phase = .connected ci) ∨ (s.sessions i).phase = .leaving ∨
        (s.sessions i).phase = .closed)
        (run : some (if (s.sessions i).connected = false ∨ (s.sessions i).socket < 0 then s
          else (s.setSession i { s.sessions i with phase := .leaving }).setThread c (.shut i)) = some t) :
        ConnectMove s (.call c (.disconnect i)) t := by
      split at run
      · cases run
        exact .refused c i outside
      · rename_i passed
        cases run
        rw [not_or, Bool.not_eq_false, Int.not_lt] at passed
        exact .admitted c i outside phase passed.1 passed.2
    simp only [sessionDisconnect] at taken
    split at taken
    · rename_i ci phase
      exact tested (.inl ⟨ci, phase⟩) taken
    · rename_i phase
      exact tested (.inr (.inl phase)) taken
    · rename_i phase
      exact tested (.inr (.inr phase)) taken
    · cases taken
  · rename_i i here
    cases taken
    exact .shuts c i here
  · rename_i i here
    obtain ⟨bus, run, same⟩ := Option.bind_eq_some_iff.mp taken
    cases same
    exact .releases c i bus here run
  · rename_i i here
    cases taken
    exact .finishes c i here
  · cases taken

theorem connectStep_move (taken : connectStep s label = some t) : s.aborted = false ∧ ConnectMove s label t := by
  unfold connectStep at taken
  split at taken
  · cases taken
  · rename_i running
    refine ⟨Bool.eq_false_iff.mpr running, ?_⟩
    cases label with
    | call c a => exact callStep_move taken
    | bus label =>
      simp only at taken
      split at taken
      · rename_i others
        obtain ⟨bus, run, same⟩ := Option.bind_eq_some_iff.mp taken
        cases label with
        | client c a =>
          cases same
          exact .client c a bus others run
        | listener l a =>
          cases same
          exact .other _ bus others nofun run
        | run k =>
          cases same
          exact .other _ bus others nofun run
      · cases taken

end Steps

end Kinetic
