import Kinetic.Lib.Chain
import Kinetic.Listener.Commands
import Mathlib.Algebra.Group.Int.Defs

namespace Kinetic

/-- The threads that take slots from the freelist and put them back. -/
inductive SlotUser
  | client (c : Nat)
  | listener
  deriving DecidableEq

/-- Where a thread stands in `ListenerHelper_GetFreeMsg`, `ListenerHelper_PushMessage` and `ListenerTask_ReleaseMsg`, named
after its next access to shared memory, with the locals that are live there. -/
inductive SlotPc
  | idle
  | getHead
  | getNext (head : Nat)
  | getCas (head : Nat) (next : Option Nat)
  | countLoad (slot : Nat)
  | countCas (slot : Nat) (miu : Int)
  | testType (slot : Nat)
  | fill (slot : Nat)
  | commit (slot : Nat)
  | handle (slot : Nat)
  | releaseType (slot : Nat)
  | releaseHead (slot : Nat)
  | releaseNext (slot : Nat) (fl : Option Nat)
  | releaseCas (slot : Nat) (fl : Option Nat)
  | uncountLoad
  | uncountCas (miu : Int)
  deriving DecidableEq

/-- The slots of a listener with the threads at work on them, over some form `F` of their freelist. `typed` has the slots
whose type is not `MSG_NONE`. `failed` is set by a failing assertion. -/
structure SlotPool (F : Type) where
  freelist : F
  msgsInUse : Int
  typed : Nat → Bool
  commitPipe : List Nat
  pcs : SlotUser → SlotPc
  failed : Bool

/-- The freelist in memory: `msg_freelist` and the `next` pointer of every slot. -/
structure FreelistCells where
  head : Option Nat
  next : Nat → Option Nat

/-- A value stored in an `int16_t`. -/
def toInt16 (value : Int) : Int := value.bmod (2 ^ 16)

namespace SlotPool
variable {F : Type}

def goto (s : SlotPool F) (u : SlotUser) (pc : SlotPc) : SlotPool F := { s with pcs := Function.update s.pcs u pc }

def fail (s : SlotPool F) : SlotPool F := { s with failed := true }

/-- The pool after `Listener_Init`. -/
def init (freelist : F) : SlotPool F :=
  { freelist := freelist, msgsInUse := 0, typed := fun _ => false, commitPipe := [], pcs := fun _ => .idle, failed := false }

end SlotPool

/-- The loop of `Listener_Init` leaves the last slot at the head and the first one without a next. -/
def FreelistCells.init : FreelistCells :=
  { head := some (maxQueueMessages - 1), next := fun slot => if slot = 0 then none else some (slot - 1) }

/-- One access to the freelist: the load of its head, the load of the next pointer of the slot at the head, a write of the
next pointer of a slot, or a compare-and-swap. -/
def FreelistCells.access (f : FreelistCells) : SlotPc → Option (FreelistCells × SlotPc)
  | .getHead =>
    match f.head with
    | none => some (f, .idle)
    | some head => some (f, .getNext head)
  | .getNext head => some (f, .getCas head (f.next head))
  | .getCas head next => if f.head = some head then some ({ f with head := next }, .countLoad head) else some (f, .getHead)
  | .releaseHead slot => some (f, .releaseNext slot f.head)
  | .releaseNext slot fl => some ({ f with next := Function.update f.next slot fl }, .releaseCas slot fl)
  | .releaseCas slot fl =>
    if f.head = fl then some ({ f with head := some slot }, .uncountLoad) else some (f, .releaseHead slot)
  | _ => none

/-- The freelist with a pop and a push that are each one step. -/
def freelistAccess (f : List Nat) : SlotPc → Option (List Nat × SlotPc)
  | .getHead =>
    match f with
    | [] => some (f, .idle)
    | head :: next => some (next, .countLoad head)
  | .releaseHead slot => some (slot :: f, .uncountLoad)
  | _ => none

/-- A call of `ListenerHelper_GetFreeMsg` by a client, one access to shared memory by a thread, the write of
`ListenerHelper_PushMessage`, the listener reading the commit pipe, or the listener calling `ListenerTask_ReleaseMsg`. -/
inductive SlotLabel
  | getFreeMsg (c : Nat)
  | access (u : SlotUser)
  | pushMessage (c : Nat) (ok : Bool)
  | receive
  | release
  deriving DecidableEq

section
variable {F : Type}

/-- The accesses to the counter and to the type of a slot. -/
def SlotPool.slotAccess (s : SlotPool F) (u : SlotUser) : SlotPc → Option (SlotPool F)
  | .countLoad slot => if s.msgsInUse < maxQueueMessages then some (s.goto u (.countCas slot s.msgsInUse)) else some s.fail
  | .countCas slot miu =>
    if s.msgsInUse = miu then some ({ s with msgsInUse := toInt16 (miu + 1) }.goto u (.testType slot))
    else some (s.goto u (.countLoad slot))
  | .testType slot => if s.typed slot then some s.fail else some (s.goto u (.fill slot))
  | .fill slot => some ({ s with typed := Function.update s.typed slot true }.goto u (.commit slot))
  | .releaseType slot =>
    if slot < maxQueueMessages then some ({ s with typed := Function.update s.typed slot false }.goto u (.releaseHead slot))
    else some s.fail
  | .uncountLoad => some (s.goto u (.uncountCas s.msgsInUse))
  | .uncountCas miu =>
    if s.msgsInUse = miu then
      let s := { s with msgsInUse := toInt16 (miu - 1) }
      if miu ≥ 0 then some (s.goto u .idle) else some s.fail
    else some (s.goto u .uncountLoad)
  | _ => none

/-- One step of the threads, with the given accesses to the freelist. A failed assertion stops them all. -/
def slotStep (access : F → SlotPc → Option (F × SlotPc)) (s : SlotPool F) : SlotLabel → Option (SlotPool F)
  | .getFreeMsg c => if ¬ s.failed ∧ s.pcs (.client c) = .idle then some (s.goto (.client c) .getHead) else none
  | .access u =>
    if s.failed then none
    else
      match access s.freelist (s.pcs u) with
      | some (freelist, pc) => some ({ s with freelist := freelist }.goto u pc)
      | none => s.slotAccess u (s.pcs u)
  | .pushMessage c ok =>
    if s.failed then none
    else
      match s.pcs (.client c) with
      | .commit slot =>
        if ok then some ({ s with commitPipe := s.commitPipe ++ [slot] }.goto (.client c) .idle)
        else some (s.goto (.client c) (.releaseType slot))
      | _ => none
  | .receive =>
    if s.failed then none
    else
      match s.pcs .listener, s.commitPipe with
      | .idle, slot :: rest => some ({ s with commitPipe := rest }.goto .listener (.handle slot))
      | _, _ => none
  | .release =>
    if s.failed then none
    else
      match s.pcs .listener with
      | .handle slot => some (s.goto .listener (.releaseType slot))
      | _ => none

end

end Kinetic
