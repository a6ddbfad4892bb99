import Kinetic.Bus.Registration
import Kinetic.Yacht.Stands

namespace Kinetic
open Function (update)
open Transition (Reach exec)

/-- What `Bus_RegisterSocket` gets from outside before its message for the listener: whether `calloc` succeeds, whether
`BusSSL_Connect` gives a handle, and the allocations for the growths of the hash table. -/
structure RegisterEnv where
  calloc : Bool
  connected : Bool
  allocs : Nat → Bool

/-- The map for which the hash table of the bus stands. -/
def BusState.fdMap (s : BusState) : Int32 → Option Nat := fun fd => s.fdSet fd.toInt

/-- The bus after `free` of the connection that a registration has made. -/
def BusState.discarded (s : BusState) (info : ConnectionInfo) : BusState :=
  { s with conns := (s.conns.set s.nextConn info).free s.nextConn, nextConn := s.nextConn + 1 }

/-- The bus after a registration has put its connection in the hash table. -/
def BusState.publish (s : BusState) (c : Nat) (fd : Int) (ssl : Bool) : BusState :=
  { s.setClient c (.acquire (.addSocket s.nextConn)) with
    conns := s.conns.set s.nextConn ⟨fd, ssl, -1, .none, 0⟩
    nextConn := s.nextConn + 1
    fdSet := update s.fdSet fd (some s.nextConn) }

/-- `Bus_RegisterSocket` up to its message for the listener, on the hash table itself. The flag says whether the connection is
in the table; without it the function returns false. There is no result where the assertion on `old_value` fails. -/
def registerStart (env : RegisterEnv) (s : BusState) (table : Yacht Nat) (c : Nat) (fd : Int32) (ssl : Bool) :
    Option (Bool × BusState × Yacht Nat) :=
  if env.calloc = false then some (false, s, table)
  else if ssl = true ∧ env.connected = false then some (false, s.discarded ⟨0, false, 0, .none, 0⟩, table)
  else do
    let r ← yachtSet env.allocs table fd s.nextConn
    if r.ok then
      match r.old with
      | none => some (true, s.publish c fd.toInt ssl, r.table)
      | some _ => none
    else some (false, s.discarded ⟨fd.toInt, ssl, -1, .none, 0⟩, r.table)

/-- The allocation, the SSL handshake or the hash table fails. -/
def RegisterEnv.failsEarly (env : RegisterEnv) (s : BusState) (table : Yacht Nat) (fd : Int32) (ssl : Bool) : Prop :=
  env.calloc = false ∨ (ssl = true ∧ env.connected = false) ∨
    ∃ r, yachtSet env.allocs table fd s.nextConn = some r ∧ r.ok = false

/-- A step leaves the entry of the socket. -/
def leavesEntry (fd : Int) (s : BusState) (label : BusLabel) : Prop :=
  ∀ t, busStep s label = some t → t.fdSet fd = s.fdSet fd

/-- A client gives up in the middle of a registration: no free slot, a commit pipe or a completion pipe that fails. -/
def GivesUp (s : BusState) (c ci : Nat) (t : BusState) : Prop :=
  (s.clients c).conn = some ci ∧ t.clients c = .idle ∧
    ∃ a, busStep s (.client c a) = some t ∧ (a = .getFreeMsg ∨ a = .pushMessage false ∨ a = .onCompletion false)

/-- A `Bus_RegisterSocket` that returns false, from the bus and the table before it to those after it. It fails by itself, or
after the connection is in the table and others have gone on, who leave the socket to it. -/
inductive RegisterFails (env : RegisterEnv) (c : Nat) (fd : Int32) (ssl : Bool) (s : BusState) (table : Yacht Nat) :
    BusState → Yacht Nat → Prop
  | early {t : BusState} {table' : Yacht Nat} : s.clients c = .idle →
      registerStart env s table c fd ssl = some (false, t, table') → RegisterFails env c fd ssl s table t table'
  | late {s₁ s₂ t : BusState} {table₁ table' : Yacht Nat} : s.clients c = .idle →
      registerStart env s table c fd ssl = some (true, s₁, table₁) → Reach busStep s₁ (leavesEntry fd.toInt) s₂ → GivesUp s₂ c s.nextConn t → RegisterFails env c fd ssl s table t table'

/-- The hash table is for the map it was for, and the connection that was freed is in no entry of it, in no table of a listener
and in no command. -/
structure Traceless (s : BusState) (ci : Nat) (t : BusState) (table : Yacht Nat) : Prop where
  same : t.fdSet = s.fdSet
  stands : ∃ k, Stands k table s.fdMap
  unlisted : ∀ fd, t.fdSet fd ≠ some ci
  untracked : ∀ l, ¬ (t.listeners l).sockets.tracks ci
  unqueued : ∀ l slot serial, ¬ t.queuedAdd ci l slot serial

section Failures
variable {env : RegisterEnv} {s t : BusState} {table table' : Yacht Nat} {c k : Nat} {fd : Int32} {ssl : Bool}

/-- A connection that is yet to be made is nowhere. -/
theorem TrackInv.fresh (inv : TrackInv s) :
    (∀ fd, s.fdSet fd ≠ some s.nextConn) ∧ (∀ l, ¬ (s.listeners l).sockets.tracks s.nextConn) ∧
      ∀ l slot serial, ¬ s.queuedAdd s.nextConn l slot serial := by
  refine ⟨fun fd present => ?_, fun l tracked => ?_, fun l slot serial queued => ?_⟩
  · exact Nat.lt_irrefl _ (inv.registered fd s.nextConn present).1
  · exact Nat.lt_irrefl _ (inv.tracked l s.nextConn tracked)
  · exact Nat.lt_irrefl _ (inv.written l slot s.nextConn serial (MsgTable.written_of_queued queued))

/-- What `Bus_RegisterSocket` does up to its message for the listener. -/
inductive RegisterStart (env : RegisterEnv) (s : BusState) (table : Yacht Nat) (c : Nat) (fd : Int32) (ssl : Bool) :
    Bool → BusState → Yacht Nat → Prop
  | noMemory : env.calloc = false → RegisterStart env s table c fd ssl false s table
  | notConnected : ssl = true → env.connected = false →
      RegisterStart env s table c fd ssl false (s.discarded ⟨0, false, 0, .none, 0⟩) table
  | notSet (r : SetResult Nat) : yachtSet env.allocs table fd s.nextConn = some r → r.ok = false →
      RegisterStart env s table c fd ssl false (s.discarded ⟨fd.toInt, ssl, -1, .none, 0⟩) r.table
  | published (r : SetResult Nat) : ¬ env.failsEarly s table fd ssl → yachtSet env.allocs table fd s.nextConn = some r →
      r.ok = true → r.old = none → RegisterStart env s table c fd ssl true (s.publish c fd.toInt ssl) r.table

theorem registerStart_cases {ok : Bool} (run : registerStart env s table c fd ssl = some (ok, t, table')) :
    RegisterStart env s table c fd ssl ok t table' := by
  unfold registerStart at run
  split at run
  · rename_i none
    cases run
    exact .noMemory none
  · rename_i calloc
    split at run
    · rename_i none
      cases run
      exact .notConnected none.1 none.2
    · rename_i connect
      obtain ⟨r, set, later⟩ := Option.bind_eq_some_iff.mp run
      by_cases ok : r.ok = true
      · rw [if_pos ok] at later
        split at later
        · rename_i old
          cases later
          refine .published r ?_ set ok old
          rintro (none | none | ⟨r', set', failed⟩)
          · exact calloc none
          · exact connect none
          · rw [set] at set'
            cases set'
            rw [ok] at failed
            cases failed
        · cases later
      · rw [if_neg ok] at later
        cases later
        exact .notSet r set (Bool.eq_false_iff.mpr ok)

/-- On a table where no tombstone hides the socket, the start of a registration is the step of the bus. -/
theorem registerStart_refines (stands : Stands k table s.fdMap) (live : Live fd)
    (clear : ¬ Hidden table (setWindow table.size) fd) (idle : s.clients c = .idle)
    (run : registerStart env s table c fd ssl = some (true, t, table')) :
    busStep s (.client c (.register fd.toInt ssl)) = some t ∧ ∃ k, Stands k table' t.fdMap := by
  cases registerStart_cases run with
  | published r _ set ok old =>
    obtain ⟨same, k, next⟩ := stands.setLoop_done live clear set ok
    have free : s.fdSet fd.toInt = none := same.symm.trans old
    constructor
    · show clientStep s c (.register fd.toInt ssl) = some (s.publish c fd.toInt ssl)
      simp only [clientStep, idle, registerSocket, free, BusState.publish]
    · refine ⟨k, ?_⟩
      have map : (s.publish c fd.toInt ssl).fdMap = update s.fdMap fd (some s.nextConn) := by
        funext key
        simp only [BusState.fdMap, BusState.publish, Function.update_apply, Int32.toInt_inj]
      rw [map]
      exact next

/-- A registration that fails before its connection is in the table leaves no trace. -/
theorem RegisterStart.traceless (failed : RegisterStart env s table c fd ssl false t table') (inv : TrackInv s)
    (stands : Stands k table s.fdMap) : Traceless s s.nextConn t table' ∧ env.failsEarly s table fd ssl := by
  obtain ⟨unlisted, untracked, unqueued⟩ := inv.fresh
  cases failed with
  | noMemory none => exact ⟨⟨rfl, ⟨k, stands⟩, unlisted, untracked, unqueued⟩, .inl none⟩
  | notConnected ssl none => exact ⟨⟨rfl, ⟨k, stands⟩, unlisted, untracked, unqueued⟩, .inr (.inl ⟨ssl, none⟩)⟩
  | notSet r set failed =>
    have kept := stands.setLoop_failed set failed
    exact ⟨⟨rfl, kept, unlisted, untracked, unqueued⟩, .inr (.inr ⟨r, set, failed⟩)⟩

/-- Only a registration and the end of a release change the hash table. -/
theorem clientStep_fdSet {a : ClientAction} (run : clientStep s c a = some t) (notRegister : ∀ fd ssl, a ≠ .register fd ssl)
    (notCompletion : a ≠ .onCompletion true) : t.fdSet = s.fdSet := by
  cases clientStep_conns run with
  | keeps _ same => exact same.fdSet
  | registers fd ssl => exact absurd rfl (notRegister fd ssl)
  | givesUp _ ci before after fdSet => exact fdSet
  | removes => exact absurd rfl notCompletion

/-- A client that gives up leaves the hash table as it is. -/
theorem GivesUp.fdSet {ci : Nat} (gives : GivesUp s c ci t) : t.fdSet = s.fdSet := by
  obtain ⟨_, _, a, taken, failing⟩ := gives
  rcases failing with rfl | rfl | rfl
  · exact clientStep_fdSet taken nofun nofun
  · exact clientStep_fdSet taken nofun nofun
  · exact clientStep_fdSet taken nofun nofun

/-- A registration that fails later leaves its connection in the hash table. -/
theorem entry_left {s₁ s₂ : BusState} {table₁ : Yacht Nat} (start : RegisterStart env s table c fd ssl true s₁ table₁)
    (run : Reach busStep s₁ (leavesEntry fd.toInt) s₂) (gives : GivesUp s₂ c s.nextConn t) :
    t.fdSet fd.toInt = some s.nextConn ∧ ¬ env.failsEarly s table fd ssl := by
  cases start with
  | published r late set ok old =>
    have entry : s₂.fdSet fd.toInt = some s.nextConn := by
      clear gives
      induction run with
      | start => simp [BusState.publish]
      | next _ leaves taken before =>
        rw [leaves _ taken]
        exact before
    rw [gives.fdSet]
    exact ⟨entry, late⟩

end Failures

/-- A `Bus_RegisterSocket` that returns false leaves no trace just when it fails before the connection is in the hash table. -/
theorem failed_registration_traceless_iff {n : Nat} {ok : BusState → BusLabel → Prop} {s t : BusState}
    (reach : Reach busStep (.new n) ok s) {table table' : Yacht Nat} {k : Nat} (stands : Stands k table s.fdMap)
    {env : RegisterEnv} {c : Nat} {fd : Int32} {ssl : Bool} (fails : RegisterFails env c fd ssl s table t table') :
    Traceless s s.nextConn t table' ↔ env.failsEarly s table fd ssl := by
  cases fails with
  | early _ run =>
    obtain ⟨traceless, early⟩ := (registerStart_cases run).traceless (track_invariant reach) stands
    exact ⟨fun _ => early, fun _ => traceless⟩
  | late _ start run gives =>
    obtain ⟨left, late⟩ := entry_left (registerStart_cases start) run gives
    exact ⟨fun traceless => absurd left (traceless.unlisted fd.toInt), fun early => absurd early late⟩

/-- The SSL handshake of a second socket fails. The first one stays registered, and nothing is left of the second. -/
theorem failed_registration_traceless_handshake :
    ∃ s table t table', Reach busStep (.new 1) (fun _ _ => True) s ∧ (∃ k, Stands k table s.fdMap) ∧ s.fdSet 5 = some 0 ∧
      RegisterFails ⟨true, false, fun _ => true⟩ 1 6 true s table t table' ∧ Traceless s s.nextConn t table' := by
  have init : Stands 4 (yachtInit Nat 0) (BusState.new 1).fdMap := stands_init 0
  have clear : ¬ Hidden (yachtInit Nat 0) (setWindow (yachtInit Nat 0).size) 5 := by
    rintro ⟨o, _, atKey, _⟩
    have empty : yachtNoKey = 5 := atKey
    exact absurd empty (by decide)
  have started : (registerStart ⟨true, true, fun _ => true⟩ (.new 1) (yachtInit Nat 0) 0 5 false).map
      (fun r => (r.1, r.2.1.fdSet 5, r.2.1.clients 1)) = some (true, some 0, .idle) := by decide +kernel
  obtain ⟨⟨ok, s, table⟩, run, seen⟩ := Option.map_eq_some_iff.mp started
  simp only [Prod.mk.injEq] at seen
  obtain ⟨published, first, other⟩ := seen
  cases published
  obtain ⟨taken, k, stands⟩ := registerStart_refines init (by decide) clear rfl run
  have reach : Reach busStep (.new 1) (fun _ _ => True) s := Reach.start.next trivial taken
  have fails : RegisterFails ⟨true, false, fun _ => true⟩ 1 6 true s table (s.discarded ⟨0, false, 0, .none, 0⟩) table :=
    .early other rfl
  exact ⟨s, table, _, _, reach, ⟨k, stands⟩, first, fails,
    (failed_registration_traceless_iff reach stands fails).mpr (.inr (.inl ⟨rfl, rfl⟩))⟩

/-- The completion pipe breaks after the command is committed. The freed connection stays in the hash table and in the queue of
the listener. -/
theorem failed_registration_leaves_entry :
    ∃ t, RegisterFails ⟨true, true, fun _ => true⟩ 0 5 false (.new 1) (yachtInit Nat 0) t (yachtInit Nat 0) ∧ 0 ∈ t.conns.freed ∧
      t.fdSet 5 = some 0 ∧ t.queuedAdd 0 0 31 0 ∧ ¬ Traceless (.new 1) (BusState.new 1).nextConn t (yachtInit Nat 0) := by
  have trace : ((registerStart ⟨true, true, fun _ => true⟩ (.new 1) (yachtInit Nat 0) 0 5 false).bind fun r =>
      (busStep r.2.1 (.client 0 .getFreeMsg)).bind fun s => (busStep s (.client 0 (.pushMessage true))).bind fun s₂ =>
        (busStep s₂ (.client 0 (.onCompletion false))).map fun t =>
          ((r.1, s₂.clients 0, t.clients 0), t.conns.freed, t.fdSet 5, (t.listeners 0).msgs.queued 31)) =
      some ((true, .wait (.addSocket 0) 0 31 0, .idle), [0], some 0, some ⟨.addSocket 0, 0⟩) := by decide +kernel
  obtain ⟨⟨ok, s₁, table₁⟩, start, later⟩ := Option.bind_eq_some_iff.mp trace
  obtain ⟨s, takes, later⟩ := Option.bind_eq_some_iff.mp later
  obtain ⟨s₂, commits, later⟩ := Option.bind_eq_some_iff.mp later
  obtain ⟨t, gives, seen⟩ := Option.map_eq_some_iff.mp later
  simp only [Prod.mk.injEq] at seen
  obtain ⟨⟨published, waiting, idle⟩, freed, present, queued⟩ := seen
  cases published
  have quiet : Reach busStep s₁ (leavesEntry 5) s₂ := by
    refine .next (.next .start ?_ takes) ?_ commits
    · intro t taken
      rw [clientStep_fdSet taken nofun nofun]
    · intro t taken
      rw [clientStep_fdSet taken nofun nofun]
  have fails : RegisterFails ⟨true, true, fun _ => true⟩ 0 5 false (.new 1) (yachtInit Nat 0) t (yachtInit Nat 0) :=
    .late rfl start quiet ⟨by rw [waiting]; rfl, idle, _, gives, .inr (.inr rfl)⟩
  exact ⟨t, fails, by rw [freed]; exact List.mem_singleton_self 0, present, queued, fun traceless => traceless.unlisted 5 present⟩

end Kinetic
