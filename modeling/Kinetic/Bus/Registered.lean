import Kinetic.Bus.Callbacks
import Kinetic.Bus.Registration

namespace Kinetic
open Function (update)
open Transition (Reach exec)

/-- The hash table has the connection under the number of its socket, and the listener of the socket tracks it, in its active
range unless it has an error. -/
structure Tracked (s : BusState) (fd : Int) (ci : Nat) : Prop where
  present : s.fdSet fd = some ci
  notFreed : ci ∉ s.conns.freed
  entry : ∃ i, i < (s.listeners (s.listenerIdOfSocket fd)).sockets.trackedFds ∧
    (s.listeners (s.listenerIdOfSocket fd)).sockets.fdInfo i = ci ∧
    ((s.listeners (s.listenerIdOfSocket fd)).sockets.fds i).fd = fd ∧
    (((s.listeners (s.listenerIdOfSocket fd)).sockets.fds i).pollin = true ∧
        i < (s.listeners (s.listenerIdOfSocket fd)).sockets.trackedFds -
          (s.listeners (s.listenerIdOfSocket fd)).sockets.inactiveFds ∨
      (s.conns.info ci).error.negative = true)

section Runs
variable {s t : BusState}

/-- A connection keeps its socket. -/
theorem busStep_fd {label : BusLabel} {ci : Nat} (taken : busStep s label = some t) (old : ci < s.nextConn) :
    (t.conns.info ci).fd = (s.conns.info ci).fd ∧ ci < t.nextConn := by
  cases label with
  | client c a =>
    have move := clientStep_conns taken
    exact ⟨(move.info old).1, Nat.lt_of_lt_of_le old move.nextConn_le⟩
  | listener l a =>
    obtain ⟨⟨listener, heap, conns⟩, run, same⟩ := Option.bind_eq_some_iff.mp taken
    cases same
    exact ⟨((listenerStep_table run).info ci).1, old⟩
  | run k =>
    obtain ⟨_, _, rfl⟩ := busStep_run taken
    exact ⟨rfl, old⟩

/-- The state in which a registration has put its connection in the hash table. -/
theorem registered_start {c : Nat} {fd : Int} {ssl : Bool}
    (registers : busStep s (.client c (.register fd ssl)) = some t) :
    s.fdSet fd = none ∧ t.fdSet = update s.fdSet fd (some s.nextConn) ∧ t.nextConn = s.nextConn + 1 ∧
      (t.conns.info s.nextConn).fd = fd ∧ t.clients c = .acquire (.addSocket s.nextConn) := by
  have run : clientStep s c (.register fd ssl) = some t := registers
  cases clientStep_cases run with
  | registers _ _ _ free => exact ⟨free, rfl, rfl, by simp [Connections.set], by simp [BusState.setClient]⟩

/-- A published connection that its listener tracks has its entry there. -/
theorem TrackInv.tracked_entry (track : TrackInv s) {ci : Nat} (published : s.published ci)
    (tracked : (s.listeners (s.listenerIdOfSocket (s.conns.info ci).fd)).sockets.tracks ci) :
    Tracked s (s.conns.info ci).fd ci := by
  have sockets := track.sockets (s.listenerIdOfSocket (s.conns.info ci).fd)
  obtain ⟨i, below, info⟩ := tracked
  have fd := sockets.fd i below
  rw [info] at fd
  refine ⟨published.1, published.2, i, below, info, fd, ?_⟩
  by_cases active : ((s.listeners (s.listenerIdOfSocket (s.conns.info ci).fd)).sockets.fds i).pollin = true
  · exact .inl ⟨active, (sockets.pollin i below).mp active⟩
  · have errored := sockets.errored i below (Bool.eq_false_iff.mpr active)
    rw [info] at errored
    exact .inr errored

/-- A client that learns that its command was answered leaves a connection that is published, is not to be added again and is
tracked. -/
theorem Registers.completed {c ci l slot serial : Nat} (registers : Registers s (.wait (.addSocket ci) l slot serial))
    (waiting : s.clients c = .wait (.addSocket ci) l slot serial)
    (completes : busStep s (.client c (.onCompletion true)) = some t) :
    t.published ci ∧ (∀ l slot serial, ¬ s.queuedAdd ci l slot serial) ∧
      (t.listeners (t.listenerIdOfSocket (t.conns.info ci).fd)).sockets.tracks ci ∧
      t = (s.setMsgs l ((s.listeners l).msgs.readReply slot)).setClient c .idle := by
  have run : clientStep s c (.onCompletion true) = some t := completes
  obtain ⟨published, here, stands⟩ := registers
  simp only [clientStep, waiting] at run
  split at run
  · cases run
  · rename_i replied
    rcases stands with ⟨_, silent, _⟩ | ⟨absent, tracked⟩
    · exact absurd silent.pipe replied
    · cases run
      refine ⟨published, absent, ?_, rfl⟩
      show ((s.setMsgs l ((s.listeners l).msgs.readReply slot)).listeners
        (s.listenerIdOfSocket (s.conns.info ci).fd)).sockets.tracks ci
      rw [← here]
      simp only [BusState.setMsgs, Function.update_self]
      exact tracked

end Runs

instance (env : AddEnv) (t : SocketTable) (fd : Int) : Decidable (env.fits t fd) :=
  inferInstanceAs (Decidable (t.trackedFds ≠ maxFds ∧ (∀ i, i < t.trackedFds → (t.fds i).fd ≠ fd) ∧
    (env.nextRead < t.readBufSize ∨ env.grown = true)))

/-- A test that a step registers cleanly; it passes no removal. -/
def registersCleanlyTest (s : BusState) : BusLabel → Bool
  | .client c .getFreeMsg =>
    match s.clients c with
    | .acquire (.addSocket ci) =>
      let listener := s.listeners (s.listenerIdOfSocket (s.conns.info ci).fd)
      match listener.msgs.msgFreelist.head? with
      | some slot => listener.msgs.pipes slot = [] ∧ listener.shutdownNotify = .noFd
      | none => true
    | _ => true
  | .client c (.onCompletion true) =>
    match s.clients c with
    | .wait (.removeSocket _) _ _ _ => false
    | _ => true
  | .listener l (.handle env) =>
    match (s.listeners l).nextMsg with
    | some ⟨.addSocket ci, _⟩ => env.add.fits (s.listeners l).sockets (s.conns.info ci).fd
    | some ⟨.removeSocket _, _⟩ => false
    | _ => true
  | _ => true

theorem registersCleanly_of_test (s : BusState) (label : BusLabel) (passes : registersCleanlyTest s label = true) :
    registersCleanly s label := by
  cases label with
  | client c a =>
    cases a with
    | getFreeMsg =>
      intro ci slot acquiring free
      simp only [registersCleanlyTest, acquiring, free, decide_eq_true_eq] at passes
      obtain ⟨empty, notify⟩ := passes
      refine ⟨empty, fun asked pending => ?_⟩
      rw [notify] at pending
      cases pending
    | onCompletion ok =>
      cases ok with
      | true =>
        intro fd l slot serial waiting
        simp only [registersCleanlyTest, waiting, Bool.false_eq_true] at passes
      | false => trivial
    | _ => trivial
  | listener l a =>
    cases a with
    | handle env =>
      simp only [registersCleanlyTest] at passes
      simp only [registersCleanly]
      split
      · rename_i ci serial next
        simp only [next, decide_eq_true_eq] at passes
        exact fun _ => passes
      · rename_i fd serial next
        simp only [next, Bool.false_eq_true] at passes
      · trivial
    | _ => trivial
  | run k => trivial

end Kinetic
