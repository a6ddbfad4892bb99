import Kinetic.Lib.Monitor
import Kinetic.Lib.Progress
import Kinetic.Session.Outcomes

namespace Kinetic
open CondVar (Monitor Sound)
open Transition (Reach exec exec_bounded exists_reach_of_exec)

/-- The two threads of a call: the one in `KineticController_ExecuteOperation`, and the one of the bus that brings the result
to `KineticOperation_Complete`. -/
inductive Party
  | caller
  | completer
  deriving DecidableEq

/-- The next statement of `KineticController_ExecuteOperation`, with its local `status` where that is still used. -/
inductive CallerPc
  | entered
  | storing
  | sending
  | handed
  | locking
  | testing
  | waiting
  | unlocking (status : KineticStatus)
  | destroying (status : KineticStatus)
  | checking (status : KineticStatus)
  | disconnecting (status : KineticStatus)
  | returned (status : KineticStatus)
  deriving DecidableEq

/-- The next statement of `KineticOperation_Complete`, with `DefaultCallback` in its place. -/
inductive CompleterPc
  | absent
  | pending
  | locking (status : KineticStatus)
  | setting (status : KineticStatus)
  | marking (status : KineticStatus)
  | signalling (status : KineticStatus)
  | unlocking (status : KineticStatus)
  | freeing (status : KineticStatus)
  | done (status : KineticStatus)
  deriving DecidableEq

/-- `DefaultCallbackData`, without its mutex and its condition variable. -/
structure DefaultCallbackData where
  completed : Bool
  status : KineticStatus
  deriving DecidableEq

/-- A call with all it shares with the bus. `data` is on the stack of the caller, there from the initialisation of its mutex
until that is destroyed; `operation` says whether the operation is still allocated. `fault` is set by a step that uses
either of them when it is not there. -/
structure BlockingState where
  caller : CallerPc
  completer : CompleterPc
  monitor : Monitor Party
  data : Option DefaultCallbackData
  operation : Bool
  terminationStatus : KineticStatus
  disconnects : Nat
  fault : Bool

def BlockingState.start : BlockingState :=
  { caller := .entered, completer := .absent, monitor := .free, data := none, operation := true,
    terminationStatus := .success, disconnects := 0, fault := false }

inductive BlockingLabel
  | caller
  | refuse (status : KineticStatus)
  | completion (status : KineticStatus)
  | completer (woken : Option Party)
  | spurious
  | terminate (status : KineticStatus)

namespace BlockingState

/-- A use of the operation. -/
def useOperation (s : BlockingState) : BlockingState := { s with fault := s.fault || !s.operation }

/-- A use of the callback data, or of its mutex or condition variable. -/
def useData (s : BlockingState) : BlockingState := { s with fault := s.fault || s.data.isNone }

/-- `pthread_cond_destroy` and `pthread_mutex_destroy`, which must not be called while a thread has the mutex or waits. -/
def destroy (s : BlockingState) : BlockingState :=
  { s.useData with
    data := none
    fault := s.useData.fault || s.monitor.owner.isSome || !s.monitor.asleep.isEmpty || !s.monitor.woken.isEmpty }

/-- `KineticAllocator_FreeOperation`. -/
def freeOperation (s : BlockingState) : BlockingState := { s.useOperation with operation := false }

end BlockingState

/-- The next statement of `KineticController_ExecuteOperation`; `user` says that it was given a closure. At `sending` the bus
takes the request, at `handed` the rest of `KineticOperation_SendRequest` runs, which does not use the operation. -/
def callerStep (user : Bool) (s : BlockingState) : Option BlockingState :=
  match s.caller with
  | .entered =>
    some (if s.terminationStatus ≠ .success then { s.useOperation with caller := .returned .sessionTerminated }
      else { s.useOperation with caller := .storing })
  | .storing =>
    some (if user then { s.useOperation with caller := .sending }
      else { s.useOperation with caller := .sending, data := some ⟨false, .invalid⟩ })
  | .sending => some { s.useOperation with caller := .handed, completer := .pending }
  | .handed => some (if user then { s with caller := .returned .success } else { s with caller := .locking })
  | .locking => (s.monitor.lock .caller).map fun m => { s.useData with caller := .testing, monitor := m }
  | .testing =>
    match s.data with
    | some data =>
      some (if data.completed = false then { s with caller := .waiting, monitor := s.monitor.wait .caller }
        else { s with caller := .unlocking data.status })
    | none => some { s with fault := true }
  | .waiting => (s.monitor.relock .caller).map fun m => { s.useData with caller := .testing, monitor := m }
  | .unlocking status => some { s.useData with caller := .destroying status, monitor := s.monitor.unlock }
  | .destroying status => some { s.destroy with caller := .checking status }
  | .checking status =>
    some (if status ≠ .success ∧ s.terminationStatus ≠ .success then { s with caller := .disconnecting status }
      else { s with caller := .returned status })
  | .disconnecting status =>
    some { s with
      caller := .returned (if status = .socketError then .sessionTerminated else status)
      disconnects := s.disconnects + 1 }
  | .returned _ => none

/-- The next statement of `KineticOperation_Complete` and `DefaultCallback`. -/
def completerStep (s : BlockingState) (woken : Option Party) : Option BlockingState :=
  match s.completer with
  | .locking status => (s.monitor.lock .completer).map fun m => { s.useData with completer := .setting status, monitor := m }
  | .setting status =>
    some { s.useData with completer := .marking status, data := s.data.map fun data => { data with status := status } }
  | .marking status =>
    some { s.useData with completer := .signalling status, data := s.data.map fun data => { data with completed := true } }
  | .signalling status =>
    (s.monitor.signal woken).map fun m => { s.useData with completer := .unlocking status, monitor := m }
  | .unlocking status => some { s.useData with completer := .freeing status, monitor := s.monitor.unlock }
  | .freeing status => some { s.freeOperation with completer := .done status }
  | _ => none

/-- A step of either thread, or one from outside: `KineticOperation_SendRequest` fails, the bus has a result, a wait ends
without a signal, the drive terminates the session. -/
def blockingStep (user : Bool) (s : BlockingState) : BlockingLabel → Option BlockingState
  | .caller => callerStep user s
  | .refuse status =>
    match s.caller with
    | .sending =>
      if status = .success then none
      else some { s.useOperation with caller := if user then .returned status else .destroying status }
    | _ => none
  | .completion status =>
    match s.completer with
    | .pending => some { s.useOperation with completer := if user then .freeing status else .locking status }
    | _ => none
  | .completer woken => completerStep s woken
  | .spurious => (s.monitor.wake .caller).map fun m => { s with monitor := m }
  | .terminate status => some { s with terminationStatus := status }

section Safety
variable {user : Bool} {s t : BlockingState}

def CallerPc.place : CallerPc → CondVar.Place
  | .testing | .unlocking _ => .inside
  | .waiting => .queue
  | _ => .outside

def CompleterPc.place : CompleterPc → CondVar.Place
  | .setting _ | .marking _ | .signalling _ | .unlocking _ => .inside
  | _ => .outside

def BlockingState.places (s : BlockingState) : Party → CondVar.Place
  | .caller => s.caller.place
  | .completer => s.completer.place

/-- The statements before which the callback data is there, if the call has any. -/
def CallerPc.holds : CallerPc → Bool
  | .sending | .handed | .locking | .testing | .waiting | .unlocking _ | .destroying _ => true
  | _ => false

/-- What the callback has made of the data so far. -/
def CompleterPc.written : CompleterPc → DefaultCallbackData
  | .marking status => ⟨false, status⟩
  | .signalling status | .unlocking status | .freeing status | .done status => ⟨true, status⟩
  | _ => ⟨false, .invalid⟩

def CompleterPc.signalled : CompleterPc → Bool
  | .unlocking _ | .freeing _ | .done _ => true
  | _ => false

/-- The statements of `DefaultCallback`. -/
def CompleterPc.inCallback : CompleterPc → Bool
  | .locking _ | .setting _ | .marking _ | .signalling _ | .unlocking _ => true
  | _ => false

/-- The callback has returned, after it was called with this status. -/
def CompleterPc.Left (status : KineticStatus) (c : CompleterPc) : Prop := c = .freeing status ∨ c = .done status

/-- The status that a call returns: that of a request the bus has not got, success for one whose result goes to a closure,
and else the result itself, where a broken connection of a terminated session is reported as such. -/
def BlockingAnswer (user : Bool) (c : CompleterPc) (disconnects : Nat) (status : KineticStatus) : Prop :=
  c = .absent ∧ status ≠ .success ∨ c ≠ .absent ∧ user = true ∧ status = .success ∨
    user = false ∧ ∃ result, c.Left result ∧
      (status = result ∨ result = .socketError ∧ status = .sessionTerminated ∧ disconnects = 1)

/-- How far the bus is at each statement of the caller. -/
def BlockingStage (user : Bool) (c : CompleterPc) (disconnects : Nat) : CallerPc → Prop
  | .entered | .storing | .sending => c = .absent ∧ disconnects = 0
  | .handed => c ≠ .absent ∧ disconnects = 0
  | .locking | .testing | .waiting => user = false ∧ c ≠ .absent ∧ disconnects = 0
  | .unlocking status => user = false ∧ c.Left status ∧ disconnects = 0
  | .destroying status | .checking status | .disconnecting status =>
    user = false ∧ (c.Left status ∨ c = .absent ∧ status ≠ .success) ∧ disconnects = 0
  | .returned status => BlockingAnswer user c disconnects status

structure BlockingInv (user : Bool) (s : BlockingState) : Prop where
  sound : s.fault = false
  monitor : Sound id s.places s.monitor
  operation : s.operation = true ↔ ∀ status, s.completer ≠ .done status
  data : s.data = if user = false ∧ s.caller.holds = true then some s.completer.written else none
  stage : BlockingStage user s.completer s.disconnects s.caller
  callback : s.completer.inCallback = true → user = false
  wake : Party.caller ∈ s.monitor.asleep → s.completer.signalled = false

theorem CompleterPc.Left.outside {c : CompleterPc} {status : KineticStatus} (left : c.Left status) : c.place = .outside := by
  rcases left with rfl | rfl <;> rfl

theorem CompleterPc.Left.not_inCallback {c : CompleterPc} {status : KineticStatus} (left : c.Left status) :
    c.inCallback = false := by
  rcases left with rfl | rfl <;> rfl

/-- The bus goes on, and what the caller relies on stays. -/
theorem BlockingStage.completer {c c' : CompleterPc} {disconnects : Nat} {k : CallerPc} (stage : BlockingStage user c disconnects k)
    (there : c ≠ .absent) (still : c' ≠ .absent) (later : ∀ status, c.Left status → c'.Left status) :
    BlockingStage user c' disconnects k := by
  cases k with
  | entered | storing | sending => exact absurd stage.1 there
  | handed => exact ⟨still, stage.2⟩
  | locking | testing | waiting => exact ⟨stage.1, still, stage.2.2⟩
  | unlocking status => exact ⟨stage.1, later _ stage.2.1, stage.2.2⟩
  | destroying status | checking status | disconnecting status =>
    exact ⟨stage.1, stage.2.1.imp (later _) fun absent => absurd absent.1 there, stage.2.2⟩
  | returned status =>
    rcases stage with absent | accepted | ⟨plain, result, left, answer⟩
    · exact absurd absent.1 there
    · exact .inr (.inl ⟨still, accepted.2⟩)
    · exact .inr (.inr ⟨plain, result, later _ left, answer⟩)

/-- While the callback runs, the data is there. -/
theorem BlockingStage.holds {c : CompleterPc} {disconnects : Nat} {k : CallerPc} (stage : BlockingStage user c disconnects k)
    (plain : user = false) (running : c.inCallback = true) : k.holds = true := by
  have there : c ≠ .absent := by rintro rfl; cases running
  have unfinished (status : KineticStatus) : ¬c.Left status := fun left => by rw [left.not_inCallback] at running; cases running
  cases k with
  | entered | storing => exact absurd stage.1 there
  | sending | handed | locking | testing | waiting | unlocking | destroying => rfl
  | checking status | disconnecting status =>
    rcases stage.2.1 with left | absent
    · exact absurd left (unfinished _)
    · exact absurd absent.1 there
  | returned status =>
    rcases stage with absent | ⟨_, rfl, _⟩ | ⟨_, result, left, _⟩
    · exact absurd absent.1 there
    · cases plain
    · exact absurd left (unfinished _)

theorem BlockingState.useOperation_eq (sound : s.fault = false) (there : s.operation = true) : s.useOperation = s := by
  cases s
  simp_all [BlockingState.useOperation]

theorem BlockingState.useData_eq (sound : s.fault = false) (there : s.data.isSome = true) : s.useData = s := by
  cases s
  simp_all [BlockingState.useData]

theorem BlockingState.destroy_eq (sound : s.fault = false) (there : s.data.isSome = true) (idle : s.monitor = .free) :
    s.destroy = { s with data := none } := by
  unfold BlockingState.destroy
  rw [useData_eq sound there]
  simp [sound, idle, Monitor.free]

theorem places_caller (pc : CallerPc) (m : Monitor Party) (data : Option DefaultCallbackData) (n : Nat) :
    { s with caller := pc, monitor := m, data := data, disconnects := n }.places = Function.update s.places .caller pc.place := by
  funext party
  cases party <;> rfl

theorem places_completer (pc : CompleterPc) (m : Monitor Party) (data : Option DefaultCallbackData) (operation : Bool) :
    { s with completer := pc, monitor := m, data := data, operation := operation }.places =
      Function.update s.places .completer pc.place := by
  funext party
  cases party <;> rfl

theorem BlockingInv.operation_there (inv : BlockingInv user s) (unfinished : ∀ status, s.completer ≠ .done status) :
    s.useOperation = s := BlockingState.useOperation_eq inv.sound (inv.operation.mpr unfinished)

theorem BlockingInv.data_eq (inv : BlockingInv user s) (plain : user = false) (holds : s.caller.holds = true) :
    s.data = some s.completer.written := by
  rw [inv.data, if_pos ⟨plain, holds⟩]

theorem BlockingInv.data_there (inv : BlockingInv user s) (plain : user = false) (holds : s.caller.holds = true) :
    s.useData = s := BlockingState.useData_eq inv.sound (by rw [inv.data_eq plain holds]; rfl)

/-- What has to be shown of a step of the caller. -/
theorem BlockingInv.moveCaller (inv : BlockingInv user s) {pc : CallerPc} {m : Monitor Party}
    {data : Option DefaultCallbackData} {n : Nat} (monitor : Sound id (Function.update s.places .caller pc.place) m)
    (written : data = if user = false ∧ pc.holds = true then some s.completer.written else none)
    (stage : BlockingStage user s.completer n pc) (wake : Party.caller ∈ m.asleep → s.completer.signalled = false) :
    BlockingInv user { s with caller := pc, monitor := m, data := data, disconnects := n } where
  sound := inv.sound
  monitor := by rw [places_caller]; exact monitor
  operation := inv.operation
  data := written
  stage := stage
  callback := inv.callback
  wake := wake

/-- A step of the caller that leaves the monitor alone. -/
theorem BlockingInv.goCaller (inv : BlockingInv user s) {pc : CallerPc} {data : Option DefaultCallbackData} {n : Nat}
    (same : pc.place = s.caller.place)
    (written : data = if user = false ∧ pc.holds = true then some s.completer.written else none)
    (stage : BlockingStage user s.completer n pc) :
    BlockingInv user { s with caller := pc, data := data, disconnects := n } :=
  inv.moveCaller (inv.monitor.stay same) written stage inv.wake

theorem BlockingStage.unfinished {c : CompleterPc} {disconnects : Nat} {k : CallerPc} (stage : BlockingStage user c disconnects k)
    (early : k = .entered ∨ k = .storing ∨ k = .sending) (status : KineticStatus) : c ≠ .done status := by
  have absent : c = .absent := by rcases early with rfl | rfl | rfl <;> exact stage.1
  rw [absent]
  rintro ⟨⟩

theorem CompleterPc.signalled_of_uncompleted {c : CompleterPc} (uncompleted : c.written.completed = false) :
    c.signalled = false := by
  cases c <;> simp_all [CompleterPc.written, CompleterPc.signalled]

/-- When the caller has the mutex and finds the data completed, the callback is over. -/
theorem BlockingInv.left_of_completed (inv : BlockingInv user s) (inside : s.caller.place = .inside)
    (completed : s.completer.written.completed = true) : s.completer.Left s.completer.written.status := by
  have outside : s.completer.place ≠ .inside := fun both => by
    have callers : id (s.places .caller) = .inside := inside
    have completers : id (s.places .completer) = .inside := both
    have equal := inv.monitor.alone callers completers
    cases equal
  cases at_ : s.completer with
  | absent | pending | locking | setting | marking => rw [at_] at completed; cases completed
  | signalling | unlocking => rw [at_] at outside; exact absurd rfl outside
  | freeing status => exact .inl rfl
  | done status => exact .inr rfl

theorem BlockingAnswer.of_result {c : CompleterPc} {n : Nat} {status : KineticStatus} (plain : user = false)
    (result : c.Left status ∨ c = .absent ∧ status ≠ .success) : BlockingAnswer user c n status := by
  rcases result with left | refused
  · exact .inr (.inr ⟨plain, status, left, .inl rfl⟩)
  · exact .inl refused

theorem BlockingAnswer.of_disconnect {c : CompleterPc} {n : Nat} {status : KineticStatus} (plain : user = false)
    (result : c.Left status ∨ c = .absent ∧ status ≠ .success) (first : n = 0) :
    BlockingAnswer user c (n + 1) (if status = .socketError then .sessionTerminated else status) := by
  by_cases broken : status = .socketError
  · rw [if_pos broken]
    rcases result with left | refused
    · exact .inr (.inr ⟨plain, status, left, .inr ⟨broken, rfl, by rw [first]⟩⟩)
    · exact .inl ⟨refused.1, by rintro ⟨⟩⟩
  · rw [if_neg broken]
    exact .of_result plain result

theorem BlockingInv.caller_step (inv : BlockingInv user s) (taken : callerStep user s = some t) : BlockingInv user t := by
  have stage := inv.stage
  have data := inv.data
  unfold callerStep at taken
  cases here : s.caller with
  | entered =>
    rw [here] at stage
    simp only [here, inv.operation_there (stage.unfinished (.inl rfl))] at taken
    split at taken
    · cases taken
      exact inv.goCaller (by rw [here]; rfl) (by simpa [here, CallerPc.holds] using data) (.inl ⟨stage.1, by rintro ⟨⟩⟩)
    · cases taken
      exact inv.goCaller (by rw [here]; rfl) (by simpa [here, CallerPc.holds] using data) stage
  | storing =>
    rw [here] at stage
    simp only [here, inv.operation_there (stage.unfinished (.inr (.inl rfl)))] at taken
    split at taken
    · rename_i given
      cases taken
      exact inv.goCaller (by rw [here]; rfl) (by simpa [here, CallerPc.holds, given] using data) stage
    · rename_i given
      cases taken
      refine inv.goCaller (by rw [here]; rfl) ?_ stage
      simp [given, CallerPc.holds, stage.1, CompleterPc.written]
  | sending =>
    rw [here] at stage
    simp only [here, inv.operation_there (stage.unfinished (.inr (.inr rfl)))] at taken
    cases taken
    refine ⟨inv.sound, ?_, by simpa [stage.1] using inv.operation, by simpa [here, stage.1, CallerPc.holds, CompleterPc.written] using data,
      ⟨by rintro ⟨⟩, stage.2⟩, by rintro ⟨⟩, fun _ => rfl⟩
    have same : s.places = { s with caller := .handed, completer := .pending }.places := by
      funext party
      cases party
      · simp [BlockingState.places, here, CallerPc.place]
      · simp [BlockingState.places, stage.1, CompleterPc.place]
    rw [← same]
    exact inv.monitor
  | handed =>
    rw [here] at stage
    simp only [here] at taken
    split at taken
    · rename_i given
      cases taken
      exact inv.goCaller (by rw [here]; rfl) (by simpa [here, CallerPc.holds, given] using data) (.inr (.inl ⟨stage.1, given, rfl⟩))
    · rename_i given
      cases taken
      exact inv.goCaller (by rw [here]; rfl) (by simpa [here, CallerPc.holds] using data) ⟨by simpa using given, stage⟩
  | locking =>
    rw [here] at stage
    simp only [here, inv.data_there stage.1 (by rw [here]; rfl)] at taken
    obtain ⟨m, locked, rfl⟩ := Option.map_eq_some_iff.mp taken
    refine inv.moveCaller (inv.monitor.lock locked (by simp [BlockingState.places, here, CallerPc.place]) rfl)
      (by simpa [here, CallerPc.holds] using data) stage ?_
    rw [(CondVar.lock_eq_some locked).2]
    exact inv.wake
  | testing =>
    rw [here] at stage
    have inside : s.caller.place = .inside := by rw [here]; rfl
    simp only [here, inv.data_eq stage.1 (by rw [here]; rfl)] at taken
    split at taken
    · rename_i uncompleted
      cases taken
      exact inv.moveCaller (inv.monitor.wait inside rfl) (by simp [stage.1, CallerPc.holds]) stage
        fun _ => CompleterPc.signalled_of_uncompleted uncompleted
    · rename_i completed
      cases taken
      exact inv.goCaller (by rw [here]; rfl) (by simp [stage.1, CallerPc.holds])
        ⟨stage.1, inv.left_of_completed inside (by simpa using completed), stage.2.2⟩
  | waiting =>
    rw [here] at stage
    simp only [here, inv.data_there stage.1 (by rw [here]; rfl)] at taken
    obtain ⟨m, locked, rfl⟩ := Option.map_eq_some_iff.mp taken
    refine inv.moveCaller (inv.monitor.relock locked rfl) (by simpa [here, CallerPc.holds] using data) stage ?_
    rw [(CondVar.relock_eq_some locked).2.2]
    exact inv.wake
  | unlocking status =>
    rw [here] at stage
    simp only [here, inv.data_there stage.1 (by rw [here]; rfl)] at taken
    cases taken
    exact inv.moveCaller (inv.monitor.unlock (by simp [BlockingState.places, here, CallerPc.place]) rfl)
      (by simpa [here, CallerPc.holds] using data) ⟨stage.1, .inl stage.2.1, stage.2.2⟩ inv.wake
  | destroying status =>
    rw [here] at stage
    have outside : s.completer.place = .outside := by
      rcases stage.2.1 with left | absent
      · exact left.outside
      · rw [absent.1]; rfl
    have idle : s.monitor = .free := inv.monitor.eq_free fun party => by
      cases party
      · simp [BlockingState.places, here, CallerPc.place]
      · exact outside
    have there : s.data.isSome = true := by rw [inv.data_eq stage.1 (by rw [here]; rfl)]; rfl
    simp only [here, BlockingState.destroy_eq inv.sound there idle] at taken
    cases taken
    exact inv.goCaller (by rw [here]; rfl) (by simp [CallerPc.holds]) stage
  | checking status =>
    rw [here] at stage
    simp only [here] at taken
    split at taken
    · cases taken
      exact inv.goCaller (by rw [here]; rfl) (by simpa [here, CallerPc.holds] using data) stage
    · cases taken
      exact inv.goCaller (by rw [here]; rfl) (by simpa [here, CallerPc.holds] using data)
        (BlockingAnswer.of_result stage.1 stage.2.1)
  | disconnecting status =>
    rw [here] at stage
    simp only [here] at taken
    cases taken
    exact inv.goCaller (by rw [here]; rfl) (by simpa [here, CallerPc.holds] using data)
      (BlockingAnswer.of_disconnect stage.1 stage.2.1 stage.2.2)
  | returned status => simp only [here] at taken; cases taken

/-- What has to be shown of a step of the bus. -/
theorem BlockingInv.moveCompleter (inv : BlockingInv user s) {pc : CompleterPc} {m : Monitor Party}
    {data : Option DefaultCallbackData} {operation : Bool} (there : s.completer ≠ .absent) (still : pc ≠ .absent)
    (later : ∀ status, ¬s.completer.Left status ∨ pc.Left status)
    (monitor : Sound id (Function.update s.places .completer pc.place) m)
    (alive : operation = true ↔ ∀ status, pc ≠ .done status)
    (written : data = if user = false ∧ s.caller.holds = true then some pc.written else none)
    (callback : pc.inCallback = true → user = false) (wake : Party.caller ∈ m.asleep → pc.signalled = false) :
    BlockingInv user { s with completer := pc, monitor := m, data := data, operation := operation } where
  sound := inv.sound
  monitor := by rw [places_completer]; exact monitor
  operation := alive
  data := written
  stage := inv.stage.completer there still fun status left => (later status).resolve_left fun unleft => unleft left
  callback := callback
  wake := wake

/-- Only the caller ever waits, and the signal wakes it. -/
theorem BlockingInv.awake_of_signal (inv : BlockingInv user s) {status : KineticStatus} {m : Monitor Party}
    {woken : Option Party} (here : s.completer = .signalling status) (signalled : s.monitor.signal woken = some m) :
    Party.caller ∉ m.asleep := by
  rcases CondVar.signal_cases signalled with ⟨party, woke⟩ | ⟨nobody, rfl⟩
  · obtain ⟨asleep, rfl⟩ := CondVar.wake_eq_some woke
    have queued := inv.monitor.queue_of_asleep asleep
    cases party with
    | caller => exact (List.nodup_append.mp inv.monitor.once).1.not_mem_erase
    | completer => simp [BlockingState.places, here, CompleterPc.place] at queued
  · simp [nobody]

theorem BlockingInv.completer_step (inv : BlockingInv user s) {woken : Option Party} (taken : completerStep s woken = some t) :
    BlockingInv user t := by
  have running (pc : CompleterPc) (here : s.completer = pc) (inside : pc.inCallback = true) :
      user = false ∧ s.caller.holds = true := by
    have plain := inv.callback (by rw [here]; exact inside)
    exact ⟨plain, inv.stage.holds plain (by rw [here]; exact inside)⟩
  have alive := inv.operation
  unfold completerStep at taken
  cases here : s.completer with
  | locking status =>
    obtain ⟨plain, holds⟩ := running _ here rfl
    have data := inv.data_eq plain holds
    simp only [here, inv.data_there plain holds] at taken
    obtain ⟨m, locked, rfl⟩ := Option.map_eq_some_iff.mp taken
    refine inv.moveCompleter (by simp [here]) (by simp) (by simp [here, CompleterPc.Left])
      (inv.monitor.lock locked (by simp [BlockingState.places, here, CompleterPc.place]) rfl) (by simpa [here] using alive)
      (by simpa [here, plain, holds, CompleterPc.written] using data) (fun _ => plain) fun _ => rfl
  | setting status =>
    obtain ⟨plain, holds⟩ := running _ here rfl
    have data := inv.data_eq plain holds
    simp only [here, inv.data_there plain holds] at taken
    cases taken
    refine inv.moveCompleter (by simp [here]) (by simp) (by simp [here, CompleterPc.Left])
      (inv.monitor.stay (by simp [BlockingState.places, here, CompleterPc.place])) (by simpa [here] using alive)
      (by simp [here, plain, holds, data, CompleterPc.written]) (fun _ => plain) fun _ => rfl
  | marking status =>
    obtain ⟨plain, holds⟩ := running _ here rfl
    have data := inv.data_eq plain holds
    simp only [here, inv.data_there plain holds] at taken
    cases taken
    refine inv.moveCompleter (by simp [here]) (by simp) (by simp [here, CompleterPc.Left])
      (inv.monitor.stay (by simp [BlockingState.places, here, CompleterPc.place])) (by simpa [here] using alive)
      (by simp [here, plain, holds, data, CompleterPc.written]) (fun _ => plain) fun _ => rfl
  | signalling status =>
    obtain ⟨plain, holds⟩ := running _ here rfl
    have data := inv.data_eq plain holds
    simp only [here, inv.data_there plain holds] at taken
    obtain ⟨m, signalled, rfl⟩ := Option.map_eq_some_iff.mp taken
    have there : Function.update s.places .completer (CompleterPc.unlocking status).place = s.places := by
      rw [Function.update_eq_self_iff]
      simp [BlockingState.places, here, CompleterPc.place]
    refine inv.moveCompleter (by simp [here]) (by simp) (by simp [here, CompleterPc.Left])
      (by rw [there]; exact inv.monitor.signal signalled) (by simpa [here] using alive)
      (by simpa [here, plain, holds, CompleterPc.written] using data) (fun _ => plain)
      fun asleep => absurd asleep (inv.awake_of_signal here signalled)
  | unlocking status =>
    obtain ⟨plain, holds⟩ := running _ here rfl
    have data := inv.data_eq plain holds
    simp only [here, inv.data_there plain holds] at taken
    cases taken
    refine inv.moveCompleter (by simp [here]) (by simp) (by simp [here, CompleterPc.Left])
      (inv.monitor.unlock (by simp [BlockingState.places, here, CompleterPc.place]) rfl) (by simpa [here] using alive)
      (by simpa [here, plain, holds, CompleterPc.written] using data) (fun _ => plain) fun asleep => ?_
    have unsignalled := inv.wake asleep
    rw [here] at unsignalled
    cases unsignalled
  | freeing status =>
    simp only [here, BlockingState.freeOperation, inv.operation_there (by simp [here])] at taken
    cases taken
    refine inv.moveCompleter (by simp [here]) (by simp) (by simp [here, CompleterPc.Left, em'])
      (inv.monitor.stay (by simp [BlockingState.places, here, CompleterPc.place])) (by simp)
      (by simpa [here, CompleterPc.written] using inv.data) (fun running => by cases running) fun asleep => ?_
    have unsignalled := inv.wake asleep
    rw [here] at unsignalled
    cases unsignalled
  | absent | pending | done status => simp only [here] at taken; cases taken

theorem BlockingInv.refuse_step (inv : BlockingInv user s) {status : KineticStatus}
    (taken : blockingStep user s (.refuse status) = some t) : BlockingInv user t := by
  have stage := inv.stage
  have data := inv.data
  unfold blockingStep at taken
  cases here : s.caller with
  | sending =>
    rw [here] at stage
    simp only [here, inv.operation_there (stage.unfinished (.inr (.inr rfl)))] at taken
    split at taken
    · cases taken
    · rename_i failed
      cases taken
      cases user with
      | true =>
        exact inv.goCaller (by rw [here]; rfl) (by simpa [here, CallerPc.holds] using data) (.inl ⟨stage.1, failed⟩)
      | false =>
        exact inv.goCaller (by rw [here]; rfl) (by simpa [here, CallerPc.holds] using data)
          ⟨rfl, .inr ⟨stage.1, failed⟩, stage.2⟩
  | _ => simp only [here] at taken; cases taken

/-- A call with a closure does not wait. -/
theorem BlockingInv.awake_of_user (inv : BlockingInv true s) : Party.caller ∉ s.monitor.asleep := by
  intro asleep
  have queued : s.caller.place = .queue := inv.monitor.queue_of_asleep asleep
  have stage := inv.stage
  cases here : s.caller with
  | waiting => rw [here] at stage; exact absurd stage.1 (by simp)
  | _ => rw [here] at queued; cases queued

theorem BlockingInv.completion_step (inv : BlockingInv user s) {status : KineticStatus}
    (taken : blockingStep user s (.completion status) = some t) : BlockingInv user t := by
  have data := inv.data
  have alive := inv.operation
  unfold blockingStep at taken
  cases here : s.completer with
  | pending =>
    simp only [here, inv.operation_there (by simp [here])] at taken
    cases taken
    cases user with
    | true =>
      exact inv.moveCompleter (by simp [here]) (by simp) (by simp [here, CompleterPc.Left])
        (inv.monitor.stay (by simp [BlockingState.places, here, CompleterPc.place])) (by simpa [here] using alive)
        (by simpa using data) (by rintro ⟨⟩) fun asleep => absurd asleep inv.awake_of_user
    | false =>
      exact inv.moveCompleter (by simp [here]) (by simp) (by simp [here, CompleterPc.Left])
        (inv.monitor.stay (by simp [BlockingState.places, here, CompleterPc.place])) (by simpa [here] using alive)
        (by simpa [here, CompleterPc.written] using data) (fun _ => rfl) fun _ => rfl
  | _ => simp only [here] at taken; cases taken

theorem BlockingInv.step (inv : BlockingInv user s) {l : BlockingLabel} (taken : blockingStep user s l = some t) :
    BlockingInv user t := by
  cases l with
  | caller => exact inv.caller_step taken
  | refuse status => exact inv.refuse_step taken
  | completion status => exact inv.completion_step taken
  | completer woken => exact inv.completer_step taken
  | spurious =>
    obtain ⟨m, woke, rfl⟩ := Option.map_eq_some_iff.mp taken
    refine ⟨inv.sound, inv.monitor.wake woke, inv.operation, inv.data, inv.stage, inv.callback, fun asleep => inv.wake ?_⟩
    obtain ⟨_, rfl⟩ := CondVar.wake_eq_some woke
    exact List.mem_of_mem_erase asleep
  | terminate status =>
    cases taken
    exact ⟨inv.sound, inv.monitor, inv.operation, inv.data, inv.stage, inv.callback, inv.wake⟩

theorem BlockingInv.start : BlockingInv user .start where
  sound := rfl
  monitor := Sound.free fun party => by cases party <;> rfl
  operation := ⟨fun _ _ => by rintro ⟨⟩, fun _ => rfl⟩
  data := by simp [BlockingState.start, CallerPc.holds]
  stage := ⟨rfl, rfl⟩
  callback := by rintro ⟨⟩
  wake := by rintro ⟨⟩

/-- The steps of the two threads themselves. -/
def BlockingLabel.work : BlockingLabel → Bool
  | .caller | .completer _ => true
  | _ => false

def BlockingLabel.isSpurious : BlockingLabel → Bool
  | .spurious => true
  | _ => false

/-- What is true of a call at any time: nothing was used that is gone, the operation is freed by the bus only, what the call
returns is the answer, and unless both threads are through or the bus owes the result, one of them can go on. -/
structure Served (user : Bool) (s : BlockingState) : Prop where
  safe : s.fault = false
  freed : s.operation = false → ∃ status, s.completer = .done status
  answer : ∀ status, s.caller = .returned status → BlockingAnswer user s.completer s.disconnects status
  going : (∃ status, s.caller = .returned status) ∧ (s.completer = .absent ∨ ∃ status, s.completer = .done status) ∨
    s.completer = .pending ∨ ∃ l, BlockingLabel.work l = true ∧ (blockingStep user s l).isSome = true

theorem completerStep_isSome (inside : s.completer.place = .inside) : ∃ woken, (completerStep s woken).isSome = true := by
  unfold completerStep
  cases here : s.completer with
  | absent | pending | locking | freeing | done => rw [here] at inside; cases inside
  | setting | marking | unlocking => exact ⟨none, rfl⟩
  | signalling status =>
    cases asleep : s.monitor.asleep with
    | nil => exact ⟨none, by simp [Monitor.signal, asleep]⟩
    | cons first rest => exact ⟨some first, by simp [Monitor.signal, Monitor.wake, asleep]⟩

/-- The caller cannot have the mutex here: either it is free, or the callback goes on. -/
theorem BlockingInv.free_or_going (inv : BlockingInv user s) (outside : s.caller.place ≠ .inside) :
    s.monitor.owner = none ∨ ∃ l, BlockingLabel.work l = true ∧ (blockingStep user s l).isSome = true := by
  cases held : s.monitor.owner with
  | none => exact .inl rfl
  | some party =>
    have inside := (inv.monitor.owner party).mpr held
    cases party with
    | caller => exact absurd inside outside
    | completer =>
      obtain ⟨woken, enabled⟩ := completerStep_isSome inside
      exact .inr ⟨.completer woken, rfl, enabled⟩

/-- The callback is called or runs, and the caller is not in its way. -/
theorem BlockingInv.callback_going (inv : BlockingInv user s) (there : s.completer ≠ .absent)
    (unfinished : s.completer.signalled = false) (outside : s.caller.place ≠ .inside) :
    s.completer = .pending ∨ ∃ l, BlockingLabel.work l = true ∧ (blockingStep user s l).isSome = true := by
  cases here : s.completer with
  | absent => exact absurd here there
  | pending => exact .inl rfl
  | locking status =>
    rcases inv.free_or_going outside with free | going
    · refine .inr ⟨.completer none, rfl, ?_⟩
      simp [blockingStep, completerStep, here, Monitor.lock, free]
    · exact .inr going
  | setting | marking | signalling =>
    obtain ⟨woken, enabled⟩ := completerStep_isSome (s := s) (by rw [here]; rfl)
    exact .inr ⟨.completer woken, rfl, enabled⟩
  | unlocking | freeing | done => rw [here] at unfinished; cases unfinished

theorem BlockingInv.going (inv : BlockingInv user s) :
    (∃ status, s.caller = .returned status) ∧ (s.completer = .absent ∨ ∃ status, s.completer = .done status) ∨
      s.completer = .pending ∨ ∃ l, BlockingLabel.work l = true ∧ (blockingStep user s l).isSome = true := by
  have stage := inv.stage
  cases here : s.caller with
  | entered | storing | sending | handed | unlocking | destroying | checking | disconnecting =>
    exact .inr (.inr ⟨.caller, rfl, by simp [blockingStep, callerStep, here]⟩)
  | testing =>
    rw [here] at stage
    have data := inv.data_eq stage.1 (by rw [here]; rfl)
    exact .inr (.inr ⟨.caller, rfl, by simp [blockingStep, callerStep, here, data]⟩)
  | locking =>
    rcases inv.free_or_going (by simp [here, CallerPc.place]) with free | going
    · exact .inr (.inr ⟨.caller, rfl, by simp [blockingStep, callerStep, here, Monitor.lock, free]⟩)
    · exact .inr (.inr going)
  | waiting =>
    rw [here] at stage
    have outside : s.caller.place ≠ .inside := by simp [here, CallerPc.place]
    have queued : id (s.places .caller) = .queue := by simp [BlockingState.places, here, CallerPc.place]
    rcases inv.monitor.asleep_or_woken queued with asleep | woken
    · exact .inr (inv.callback_going stage.2.1 (inv.wake asleep) outside)
    · rcases inv.free_or_going outside with free | going
      · refine .inr (.inr ⟨.caller, rfl, ?_⟩)
        simp [blockingStep, callerStep, here, Monitor.relock, Monitor.lock, woken, free]
      · exact .inr (.inr going)
  | returned status =>
    have outside : s.caller.place ≠ .inside := by simp [here, CallerPc.place]
    cases at_ : s.completer with
    | absent => exact .inl ⟨⟨status, rfl⟩, .inl rfl⟩
    | done result => exact .inl ⟨⟨status, rfl⟩, .inr ⟨result, rfl⟩⟩
    | pending => exact .inr (.inl rfl)
    | locking | setting | marking | signalling =>
      have going := inv.callback_going (by simp [at_]) (by simp [at_, CompleterPc.signalled]) outside
      rw [at_] at going
      exact .inr going
    | unlocking result =>
      obtain ⟨woken, enabled⟩ := completerStep_isSome (s := s) (by rw [at_]; rfl)
      exact .inr (.inr ⟨.completer woken, rfl, enabled⟩)
    | freeing result => exact .inr (.inr ⟨.completer none, rfl, by simp [blockingStep, completerStep, at_]⟩)

theorem BlockingInv.served (inv : BlockingInv user s) : Served user s where
  safe := inv.sound
  freed freed := by
    by_contra unfinished
    push Not at unfinished
    rw [inv.operation.mpr unfinished] at freed
    cases freed
  answer status returned := by
    have stage := inv.stage
    rwa [returned] at stage
  going := inv.going

/-- The statements the caller has before it at most; a caller that was woken has to find the mutex first. -/
def CallerPc.weight (asleep : Bool) : CallerPc → Nat
  | .entered => 12
  | .storing => 11
  | .sending => 10
  | .handed => 9
  | .locking => 8
  | .waiting => if asleep then 5 else 7
  | .testing => 6
  | .unlocking _ => 4
  | .destroying _ => 3
  | .checking _ => 2
  | .disconnecting _ => 1
  | .returned _ => 0

/-- The statements the bus has before it; its signal pays for the statements that the caller has then. -/
def CompleterPc.weight : CompleterPc → Nat
  | .absent => 10
  | .pending => 9
  | .locking _ => 8
  | .setting _ => 7
  | .marking _ => 6
  | .signalling _ => 5
  | .unlocking _ => 2
  | .freeing _ => 1
  | .done _ => 0

def BlockingState.weight (s : BlockingState) : Nat :=
  s.caller.weight (decide (Party.caller ∈ s.monitor.asleep)) + s.completer.weight

theorem CallerPc.weight_le (asleep asleep' : Bool) (pc : CallerPc) : pc.weight asleep ≤ pc.weight asleep' + 2 := by
  cases pc <;> cases asleep <;> cases asleep' <;> simp [CallerPc.weight]

theorem caller_weight (inv : BlockingInv user s) (taken : callerStep user s = some t) : t.weight + 1 ≤ s.weight := by
  have stage := inv.stage
  unfold callerStep at taken
  cases here : s.caller with
  | entered | storing | handed | checking =>
    simp only [here] at taken
    split at taken <;>
    · cases taken
      simp only [BlockingState.weight, BlockingState.useOperation, here, CallerPc.weight]
      omega
  | sending =>
    rw [here] at stage
    simp only [here] at taken
    cases taken
    simp [BlockingState.weight, here, stage.1, CallerPc.weight, CompleterPc.weight]
  | unlocking | disconnecting =>
    simp only [here] at taken
    cases taken
    simp only [BlockingState.weight, BlockingState.useData, here, CallerPc.weight]
    omega
  | destroying =>
    simp only [here] at taken
    cases taken
    simp only [BlockingState.weight, BlockingState.destroy, BlockingState.useData, here, CallerPc.weight]
    omega
  | locking =>
    simp only [here] at taken
    obtain ⟨m, _, rfl⟩ := Option.map_eq_some_iff.mp taken
    simp only [BlockingState.weight, BlockingState.useData, here, CallerPc.weight]
    omega
  | testing =>
    rw [here] at stage
    simp only [here, inv.data_eq stage.1 (by rw [here]; rfl)] at taken
    split at taken
    · cases taken
      have sleeps : Party.caller ∈ s.monitor.asleep ++ [Party.caller] := List.mem_append_right _ (List.mem_singleton_self _)
      simp only [BlockingState.weight, here, CallerPc.weight, Monitor.wait, sleeps, decide_true, if_true]
      omega
    · cases taken
      simp only [BlockingState.weight, here, CallerPc.weight]
      omega
  | waiting =>
    simp only [here] at taken
    obtain ⟨m, relocked, rfl⟩ := Option.map_eq_some_iff.mp taken
    have awake := inv.monitor.not_asleep_of_woken (CondVar.relock_eq_some relocked).1
    simp only [BlockingState.weight, BlockingState.useData, here, CallerPc.weight, awake, decide_false, Bool.false_eq_true,
      if_false]
    omega
  | returned => simp only [here] at taken; cases taken

theorem completer_weight {woken : Option Party} (taken : completerStep s woken = some t) : t.weight + 1 ≤ s.weight := by
  unfold completerStep at taken
  cases here : s.completer with
  | locking =>
    simp only [here] at taken
    obtain ⟨m, locked, rfl⟩ := Option.map_eq_some_iff.mp taken
    obtain ⟨_, rfl⟩ := CondVar.lock_eq_some locked
    simp [BlockingState.weight, BlockingState.useData, here, CompleterPc.weight]
  | setting | marking =>
    simp only [here] at taken
    cases taken
    simp [BlockingState.weight, BlockingState.useData, here, CompleterPc.weight]
  | unlocking =>
    simp only [here] at taken
    cases taken
    change s.caller.weight (decide (Party.caller ∈ s.monitor.asleep)) + 1 + 1 ≤ s.weight
    simp [BlockingState.weight, here, CompleterPc.weight]
  | signalling =>
    simp only [here] at taken
    obtain ⟨m, _, rfl⟩ := Option.map_eq_some_iff.mp taken
    have bound := s.caller.weight_le (decide (Party.caller ∈ m.asleep)) (decide (Party.caller ∈ s.monitor.asleep))
    simp only [BlockingState.weight, BlockingState.useData, here, CompleterPc.weight]
    omega
  | freeing =>
    simp only [here] at taken
    cases taken
    simp [BlockingState.weight, BlockingState.freeOperation, BlockingState.useOperation, here, CompleterPc.weight]
  | absent | pending | done => simp only [here] at taken; cases taken

theorem weight_step (inv : BlockingInv user s) {l : BlockingLabel} (taken : blockingStep user s l = some t) :
    t.weight + l.work.toNat ≤ s.weight + 2 * l.isSpurious.toNat := by
  cases l with
  | caller => exact caller_weight inv taken
  | completer woken => exact completer_weight taken
  | refuse status =>
    unfold blockingStep at taken
    cases here : s.caller with
    | sending =>
      simp only [here] at taken
      split at taken
      · cases taken
      · cases taken
        cases user <;> simp [BlockingState.weight, BlockingState.useOperation, here, CallerPc.weight, BlockingLabel.work] <;>
          omega
    | _ => simp only [here] at taken; cases taken
  | completion status =>
    unfold blockingStep at taken
    cases here : s.completer with
    | pending =>
      simp only [here] at taken
      cases taken
      cases user <;>
        simp [BlockingState.weight, BlockingState.useOperation, here, CompleterPc.weight, BlockingLabel.work] <;> omega
    | _ => simp only [here] at taken; cases taken
  | spurious =>
    obtain ⟨m, _, rfl⟩ := Option.map_eq_some_iff.mp taken
    have bound := s.caller.weight_le (decide (Party.caller ∈ m.asleep)) (decide (Party.caller ∈ s.monitor.asleep))
    simp only [BlockingState.weight, BlockingLabel.work, BlockingLabel.isSpurious, Bool.toNat_false, Bool.toNat_true]
    omega
  | terminate status => cases taken; exact Nat.le_refl _

/-- A call of `KineticController_ExecuteOperation` in any run of its two threads. It is served, and the threads make no more
than 22 steps, and two for each wait that ends without a signal. -/
theorem executeOperation_served {labels : List BlockingLabel}
    (run : exec (blockingStep user) (fun _ _ => true) .start labels = some t) :
    Served user t ∧ labels.countP BlockingLabel.work ≤ 22 + 2 * labels.countP BlockingLabel.isSpurious := by
  have reach : Reach (blockingStep user) .start (fun _ _ => True) t := Reach.start.exec (fun _ _ _ => trivial) run
  have inv : BlockingInv user t := reach.invariant .start fun _ _ _ inv _ taken => inv.step taken
  have bound := exec_bounded BlockingState.weight BlockingLabel.work BlockingLabel.isSpurious 2
    (fun _ _ _ (inv : BlockingInv user _) taken => inv.step taken) (fun _ _ _ inv taken => weight_step inv taken) .start run
  have first : BlockingState.start.weight = 22 := by decide
  exact ⟨inv.served, by omega⟩

/-- A call whose request times out while it waits, and whose wait ends early once. -/
def timedOutCall : List BlockingLabel :=
  [.caller, .caller, .caller, .caller, .caller, .caller, .spurious, .caller, .caller, .completion .operationTimedout,
    .completer none, .completer none, .completer none, .completer (some .caller), .completer none, .caller, .caller,
    .completer none, .caller, .caller, .caller]

theorem executeOperation_served_timeout :
    ∃ t, (t.caller = .returned .operationTimedout ∧ t.operation = false) ∧ Served false t ∧
      timedOutCall.countP BlockingLabel.work ≤ 22 + 2 * timedOutCall.countP BlockingLabel.isSpurious := by
  have run : (exec (blockingStep false) (fun _ _ => true) .start timedOutCall).map
      (fun t => (t.caller, t.operation)) = some (.returned .operationTimedout, false) := by decide
  obtain ⟨t, executed, last⟩ := Option.map_eq_some_iff.mp run
  exact ⟨t, Prod.mk.injEq .. ▸ last, executeOperation_served executed⟩

end Safety

end Kinetic
