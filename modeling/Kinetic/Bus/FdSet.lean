import Kinetic.Bus.Engaged
import Kinetic.Bus.FailedRegistration

namespace Kinetic
open Function (update)
open Transition (Reach exec)

/-- The bus with its hash table `fd_set` itself. The map in the bus has what is in the table, also where `Yacht_Get` does not
find it. -/
structure HashedBus where
  bus : BusState
  table : Yacht Nat

/-- `DEF_FD_SET_SIZE2`. -/
def defFdSetSize2 : Nat := 4

def HashedBus.new (listenerCount : Nat) : HashedBus := { bus := .new listenerCount, table := yachtInit Nat defFdSetSize2 }

/-- The number of a socket, an `int` that is not negative. -/
def IsSocket (fd : Int) : Prop := 0 ≤ fd ∧ fd < 2 ^ 31

instance (fd : Int) : Decidable (IsSocket fd) := inferInstanceAs (Decidable (0 ≤ fd ∧ fd < 2 ^ 31))

/-- `Bus_ReleaseSocket` takes the number out of the table when it has its answer. -/
def removeEntry (s : BusState) (table : Yacht Nat) : BusLabel → Yacht Nat
  | .client c (.onCompletion true) =>
    match s.clients c with
    | .wait (.removeSocket fd) _ _ _ => ((yachtRemove table (Int32.ofInt fd) true).map Prod.fst).getD table
    | _ => table
  | _ => table

/-- `box_msg` does not find the socket of a request in the table. -/
def turnsAway (s : BusState) (table : Yacht Nat) : BusLabel → Prop
  | .client c (.request msg) => s.clients c = .idle ∧ msg.fd ≠ 0 ∧ yachtGet table (Int32.ofInt msg.fd) = none
  | _ => False

instance (s : BusState) (table : Yacht Nat) (label : BusLabel) : Decidable (turnsAway s table label) := by
  unfold turnsAway
  split <;> infer_instance

/-- `Bus_RegisterSocket` up to its message for the listener, or another step of the bus. -/
inductive HashedLabel
  | register (c : Nat) (env : RegisterEnv) (fd : Int32) (ssl : Bool)
  | bus (label : BusLabel)

def BusLabel.isRegister : BusLabel → Bool
  | .client _ (.register _ _) => true
  | _ => false

def hashedStep (s : HashedBus) : HashedLabel → Option HashedBus
  | .register c env fd ssl =>
    if s.bus.clients c = .idle then (registerStart env s.bus s.table c fd ssl).map fun r => ⟨r.2.1, r.2.2⟩ else none
  | .bus label =>
    if label.isRegister then none
    else if turnsAway s.bus s.table label then some s
    else (busStep s.bus label).map fun bus => ⟨bus, removeEntry s.bus s.table label⟩

/-- Sockets have their numbers, no registration is of one that a tombstone hides, and the bus registers cleanly. -/
def hashesCleanly (s : HashedBus) : HashedLabel → Prop
  | .register _ _ fd _ => IsSocket fd.toInt ∧ ¬ Hidden s.table (setWindow s.table.size) fd
  | .bus label => registersCleanly s.bus label ∧ ∀ c fd, label = .client c (.release fd) → IsSocket fd

theorem IsSocket.toInt_ofInt {fd : Int} (socket : IsSocket fd) : (Int32.ofInt fd).toInt = fd := by
  have low := socket.1
  have high := socket.2
  exact Int32.toInt_ofInt_of_le (by omega) (by omega)

theorem IsSocket.live {fd : Int} (socket : IsSocket fd) : Live (Int32.ofInt fd) := by
  have low := socket.1
  constructor
  · intro same
    have value := congrArg Int32.toInt same
    rw [socket.toInt_ofInt] at value
    have minus : yachtNoKey.toInt = -1 := by decide
    omega
  · intro same
    have value := congrArg Int32.toInt same
    rw [socket.toInt_ofInt] at value
    have minus : yachtDeleted.toInt = -2 := by decide
    omega

section Table
variable {s t : BusState} {table : Yacht Nat} {k : Nat}

/-- What the map has at the number of a socket. -/
theorem BusState.fdMap_ofInt {fd : Int} (socket : IsSocket fd) : s.fdMap (Int32.ofInt fd) = s.fdSet fd := by
  rw [BusState.fdMap, socket.toInt_ofInt]

theorem BusState.fdMap_remove {fd : Int} (socket : IsSocket fd) (fdSet : t.fdSet = update s.fdSet fd none) :
    t.fdMap = update s.fdMap (Int32.ofInt fd) none := by
  funext key
  have same : key.toInt = fd ↔ key = Int32.ofInt fd := by rw [← Int32.toInt_inj, socket.toInt_ofInt]
  simp only [BusState.fdMap, fdSet, Function.update_apply, same]

/-- What `Yacht_Get` finds is in the map, and it finds all that no tombstone hides. -/
theorem Stands.finds (stands : Stands k table s.fdMap) {fd : Int} (socket : IsSocket fd) {ci : Nat}
    (present : s.fdSet fd = some ci) (clear : ¬ Hidden table table.size (Int32.ofInt fd)) :
    yachtGet table (Int32.ofInt fd) = some ci := by
  rw [stands.get socket.live clear, BusState.fdMap_ofInt socket, present]

/-- A number that is not in the map is not hidden. -/
theorem Stands.clear_of_none (stands : Stands k table s.fdMap) {fd : Int} (socket : IsSocket fd) (absent : s.fdSet fd = none)
    {limit : Nat} : ¬ Hidden table limit (Int32.ofInt fd) := by
  rintro ⟨o, below, atKey, _⟩
  rw [stands.size] at below atKey
  have stored := stands.represents.eq_some socket.live (slot_lt (Nat.two_pow_pos k) _ o) atKey
  rw [BusState.fdMap_ofInt socket, absent] at stored
  cases stored

/-- A registration of a number that is not in the map gets past its assertion. -/
theorem registerStart_returns (stands : Stands k table s.fdMap) {fd : Int32} (live : Live fd)
    (clear : ¬ Hidden table (setWindow table.size) fd) (free : s.fdMap fd = none) (env : RegisterEnv) (c : Nat) (ssl : Bool) :
    ∃ r, registerStart env s table c fd ssl = some r := by
  unfold registerStart
  split
  · exact ⟨_, rfl⟩
  · split
    · exact ⟨_, rfl⟩
    · obtain ⟨r, set⟩ := stands.set_returns live clear s.nextConn env.allocs
      rw [set]
      simp only [Option.bind_eq_bind, Option.bind_some]
      by_cases ok : r.ok = true
      · obtain ⟨old, _⟩ := stands.setLoop_done live clear set ok
        rw [if_pos ok, old, free]
        exact ⟨_, rfl⟩
      · rw [if_neg ok]
        exact ⟨_, rfl⟩

/-- While the bus takes a step the table goes on standing for its map. -/
theorem Stands.bus (stands : Stands k table s.fdMap) {label : BusLabel} (others : label.isRegister = false)
    (sockets : ∀ fd, s.Underway (.remove fd) → IsSocket fd) (run : busStep s label = some t) :
    ∃ k, Stands k (removeEntry s table label) t.fdMap := by
  have kept (fdSet : t.fdSet = s.fdSet) : t.fdMap = s.fdMap := by
    funext key
    rw [BusState.fdMap, BusState.fdMap, fdSet]
  cases label with
  | listener l a =>
    obtain ⟨_, _, same⟩ := Option.bind_eq_some_iff.mp run
    cases same
    exact ⟨k, stands⟩
  | run j =>
    obtain ⟨_, _, rfl⟩ := busStep_run run
    exact ⟨k, stands⟩
  | client c a =>
    have notRegister (fd : Int) (ssl : Bool) : a ≠ .register fd ssl := by
      rintro rfl
      cases others
    by_cases completes : a = .onCompletion true
    · subst completes
      have run : clientStep s c (.onCompletion true) = some t := run
      cases pc : s.clients c with
      | wait p l slot serial =>
        cases p with
        | removeSocket fd =>
          have socket := sockets fd (.client c (by rw [pc]; rfl))
          simp only [removeEntry, pc]
          simp only [clientStep, pc] at run
          split at run
          · cases run
          · simp only [BusState.completed] at run
            cases present : s.fdSet fd with
            | none =>
              have absent : (s.setMsgs l ((s.listeners l).msgs.readReply slot)).fdSet fd = none := present
              rw [absent] at run
              cases run
              have missing : s.fdMap (Int32.ofInt fd) = none := (BusState.fdMap_ofInt socket).trans present
              rw [stands.remove_none socket.live true missing]
              exact ⟨k, stands⟩
            | some ci =>
              have found : (s.setMsgs l ((s.listeners l).msgs.readReply slot)).fdSet fd = some ci := present
              rw [found] at run
              cases run
              have stored : s.fdMap (Int32.ofInt fd) = some ci := (BusState.fdMap_ofInt socket).trans present
              obtain ⟨table', removed, next⟩ := stands.remove_some socket.live true stored
              rw [removed, BusState.fdMap_remove socket rfl]
              exact ⟨k, next⟩
        | _ =>
          have table' : removeEntry s table (.client c (.onCompletion true)) = table := by simp only [removeEntry, pc]
          rw [table', kept]
          · exact ⟨k, stands⟩
          · cases clientStep_conns run with
            | keeps _ same => exact same.fdSet
            | givesUp _ ci before after fdSet => exact fdSet
            | removes fd ci l' slot' serial' waiting => rw [pc] at waiting; cases waiting
      | _ => simp [clientStep, pc] at run
    · have table' : removeEntry s table (.client c a) = table := by
        cases a with
        | onCompletion ok =>
          cases ok with
          | true => exact absurd rfl completes
          | false => rfl
        | _ => rfl
      rw [table', kept (clientStep_fdSet run notRegister completes)]
      exact ⟨k, stands⟩

end Table

section Discarded
variable {s : BusState} {info : ConnectionInfo} {ci : Nat}

theorem SlotInv.discarded (slots : SlotInv s) (info : ConnectionInfo) : SlotInv (s.discarded info) :=
  ⟨slots.apart, slots.held, slots.single, slots.written⟩

/-- The connections that exist are as they were. -/
theorem BusState.discarded_info (s : BusState) (info : ConnectionInfo) {ci : Nat} (old : ci < s.nextConn) :
    (s.discarded info).conns.info ci = s.conns.info ci :=
  Function.update_of_ne (Nat.ne_of_lt old) ..

theorem BusState.mem_discarded {ci : Nat} (freed : ci ∈ (s.discarded info).conns.freed) : ci = s.nextConn ∨ ci ∈ s.conns.freed :=
  List.mem_cons.mp freed

theorem TrackInv.discarded (track : TrackInv s) (info : ConnectionInfo) : TrackInv (s.discarded info) := by
  have more {ci : Nat} (old : ci < s.nextConn) : ci < (s.discarded info).nextConn := Nat.lt_succ_of_lt old
  refine ⟨?_, ?_, ?_, ?_, ?_, ?_⟩
  · intro fd ci present
    obtain ⟨old, same⟩ := track.registered fd ci present
    exact ⟨more old, by rw [s.discarded_info info old]; exact same⟩
  · intro ci freed
    rcases BusState.mem_discarded freed with rfl | old
    · exact Nat.lt_succ_self _
    · exact more (track.freed ci old)
  · intro l
    refine (track.sockets l).connections fun ci tracked => ?_
    rw [s.discarded_info info (track.tracked l ci tracked)]
    exact ⟨rfl, fun error => error⟩
  · intro l ci tracked
    exact more (track.tracked l ci tracked)
  · intro l slot ci serial written
    exact more (track.written l slot ci serial written)
  · intro c ci registering
    exact more (track.clients c ci registering)

theorem BusState.discarded_underway {op : SocketOp} (underway : (s.discarded info).Underway op) : s.Underway op := by
  cases underway with
  | client c operates => exact .client c operates
  | queued l slot msg queued operates => exact .queued l slot msg queued operates

theorem BusState.discarded_engaged (track : TrackInv s) {fd : Int} (engaged : (s.discarded info).Engaged fd) : s.Engaged fd := by
  cases engaged with
  | listed ci present => exact .listed ci present
  | underway op underway on =>
    have before := BusState.discarded_underway underway
    refine .underway op before ?_
    cases op with
    | add ci =>
      rw [SocketOp.on, s.discarded_info info (track.underway_lt before)] at on
      exact on
    | remove fd' => exact on
  | tracked l ci tracked socket =>
    rw [s.discarded_info info (track.tracked l ci tracked)] at socket
    exact .tracked l ci tracked socket

theorem BusState.published_discarded (old : ci < s.nextConn) (published : s.published ci) : (s.discarded info).published ci := by
  obtain ⟨present, notFreed⟩ := published
  refine ⟨?_, ?_⟩
  · rw [s.discarded_info info old]
    exact present
  · intro freed
    rcases BusState.mem_discarded freed with rfl | before
    · exact Nat.lt_irrefl _ old
    · exact notFreed before

theorem RegisterInv.discarded (inv : RegisterInv s) (track : TrackInv s) (info : ConnectionInfo) :
    RegisterInv (s.discarded info) := by
  refine ⟨fun c => ?_, inv.single, inv.writes⟩
  have registers := inv.registers c
  cases own : (s.clients c).conn with
  | none => exact .of_conn_none own
  | some ci =>
    have old := track.clients c ci own
    refine registers.frame own ⟨rfl, by rw [s.discarded_info info old], BusState.published_discarded old, ?_, ?_, ?_, ?_⟩
    · exact fun _ _ _ queued => queued
    · exact fun _ _ _ _ _ queued silent => ⟨queued, silent⟩
    · exact fun _ _ _ _ _ silent => ⟨rfl, silent⟩
    · exact fun _ tracked => tracked

theorem BusState.Settled.discarded (settled : s.Settled ci) (track : TrackInv s) (info : ConnectionInfo) :
    (s.discarded info).Settled ci := by
  have old := (track.registered _ ci settled.published.1).1
  refine ⟨BusState.published_discarded old settled.published, ?_, ?_⟩
  · exact fun underway => settled.added (BusState.discarded_underway underway)
  · rw [s.discarded_info info old]
    exact settled.tracked

end Discarded

/-- The table stands for the map of the bus, registrations stand as they should, and what is being removed is a socket. -/
structure HashedInv (s : HashedBus) : Prop where
  slots : SlotInv s.bus
  track : TrackInv s.bus
  register : RegisterInv s.bus
  pushes : s.bus.pushesOwn
  removes : ∀ fd, s.bus.Underway (.remove fd) → IsSocket fd
  stands : ∃ k, Stands k s.table s.bus.fdMap

theorem HashedInv.new (n : Nat) : HashedInv (.new n) := by
  refine ⟨.new n, .new n, .new n, pushesOwn_new n, ?_, 4, stands_init 4⟩
  exact fun fd underway => absurd underway (not_underway_new n (.remove fd))

section Runs
variable {s t : HashedBus} {label : HashedLabel}

/-- The bus takes a step, and the table stands for its map after it. -/
theorem HashedInv.bus (inv : HashedInv s) {label : BusLabel} {bus : BusState} {table : Yacht Nat}
    (clean : registersCleanly s.bus label) (sockets : ∀ c fd, label = .client c (.release fd) → IsSocket fd)
    (run : busStep s.bus label = some bus) (stands : ∃ k, Stands k table bus.fdMap) : HashedInv ⟨bus, table⟩ := by
  refine ⟨inv.slots.step run, inv.track.step run, inv.register.step inv.track inv.slots clean run,
    inv.pushes.step inv.slots run, ?_, stands⟩
  intro fd underway
  rcases busStep_underway inv.slots inv.pushes run underway with before | ⟨_, _, _, _, new, _⟩ | ⟨c, fd', begun, same⟩
  · exact inv.removes fd before
  · cases new
  · cases same
    exact sockets c fd begun

theorem HashedInv.discarded (inv : HashedInv s) (info : ConnectionInfo) {table : Yacht Nat}
    (stands : ∃ k, Stands k table s.bus.fdMap) : HashedInv ⟨s.bus.discarded info, table⟩ := by
  refine ⟨inv.slots.discarded info, inv.track.discarded info, inv.register.discarded inv.track info, inv.pushes, ?_, stands⟩
  exact fun fd underway => inv.removes fd (BusState.discarded_underway underway)

theorem IsSocket.live_of_toInt {fd : Int32} (socket : IsSocket fd.toInt) : Live fd := by
  have live := socket.live
  rwa [Int32.ofInt_toInt] at live

theorem HashedInv.registers (inv : HashedInv s) {c : Nat} {env : RegisterEnv} {fd : Int32} {ssl ok : Bool} {bus : BusState}
    {table : Yacht Nat} (clean : hashesCleanly s (.register c env fd ssl)) (idle : s.bus.clients c = .idle)
    (run : registerStart env s.bus s.table c fd ssl = some (ok, bus, table)) : HashedInv ⟨bus, table⟩ := by
  obtain ⟨socket, clear⟩ := clean
  obtain ⟨k, stands⟩ := inv.stands
  cases ok with
  | true =>
    obtain ⟨taken, next⟩ := registerStart_refines stands socket.live_of_toInt clear idle run
    have clean : registersCleanly s.bus (.client c (.register fd.toInt ssl)) := trivial
    refine inv.bus clean (fun c' fd' release => ?_) taken next
    cases release
  | false =>
    cases registerStart_cases run with
    | noMemory => exact inv
    | notConnected => exact inv.discarded _ ⟨k, stands⟩
    | notSet r set failed => exact inv.discarded _ (stands.setLoop_failed set failed)

/-- A step of the bus that its hash table lets pass. -/
theorem hashedStep_bus {label : BusLabel} (notTurned : ¬ turnsAway s.bus s.table label) (taken : hashedStep s (.bus label) = some t) :
    label.isRegister = false ∧ busStep s.bus label = some t.bus ∧ t.table = removeEntry s.bus s.table label := by
  simp only [hashedStep, if_neg notTurned] at taken
  split at taken
  · cases taken
  · rename_i others
    obtain ⟨bus, run, same⟩ := Option.map_eq_some_iff.mp taken
    cases same
    exact ⟨Bool.eq_false_iff.mpr others, run, rfl⟩

theorem HashedInv.step (inv : HashedInv s) (clean : hashesCleanly s label) (taken : hashedStep s label = some t) :
    HashedInv t := by
  cases label with
  | register c env fd ssl =>
    simp only [hashedStep] at taken
    split at taken
    · rename_i idle
      obtain ⟨⟨ok, bus, table⟩, run, same⟩ := Option.map_eq_some_iff.mp taken
      cases same
      exact inv.registers clean idle run
    · cases taken
  | bus label =>
    by_cases turned : turnsAway s.bus s.table label
    · simp only [hashedStep, if_pos turned] at taken
      split at taken
      · cases taken
      · cases taken
        exact inv
    · obtain ⟨others, run, table⟩ := hashedStep_bus turned taken
      obtain ⟨k, stands⟩ := inv.stands
      have next := stands.bus others inv.removes run
      rw [← table] at next
      exact inv.bus clean.1 clean.2 run next

theorem hashed_invariant {n : Nat} (reach : Reach hashedStep (.new n) hashesCleanly s) : HashedInv s :=
  reach.invariant (.new n) fun _ _ _ inv clean taken => inv.step clean taken

/-- A connection keeps its socket. -/
theorem hashedStep_fd {ci : Nat} (taken : hashedStep s label = some t) (old : ci < s.bus.nextConn) :
    (t.bus.conns.info ci).fd = (s.bus.conns.info ci).fd ∧ ci < t.bus.nextConn := by
  cases label with
  | register c env fd ssl =>
    simp only [hashedStep] at taken
    split at taken
    · obtain ⟨⟨ok, bus, table⟩, run, same⟩ := Option.map_eq_some_iff.mp taken
      cases same
      cases registerStart_cases run with
      | noMemory => exact ⟨rfl, old⟩
      | notConnected => exact ⟨by rw [s.bus.discarded_info _ old], Nat.lt_succ_of_lt old⟩
      | notSet => exact ⟨by rw [s.bus.discarded_info _ old], Nat.lt_succ_of_lt old⟩
      | published =>
        have kept : (s.bus.publish c fd.toInt ssl).conns.info ci = s.bus.conns.info ci :=
          Function.update_of_ne (Nat.ne_of_lt old) ..
        exact ⟨by rw [kept], Nat.lt_succ_of_lt old⟩
    · cases taken
  | bus label =>
    by_cases turned : turnsAway s.bus s.table label
    · simp only [hashedStep, if_pos turned] at taken
      split at taken
      · cases taken
      · cases taken
        exact ⟨rfl, old⟩
    · exact busStep_fd (hashedStep_bus turned taken).2.1 old

theorem hashed_fd_of_reach {ok : HashedBus → HashedLabel → Prop} {ci : Nat} (reach : Reach hashedStep s ok t)
    (old : ci < s.bus.nextConn) : (t.bus.conns.info ci).fd = (s.bus.conns.info ci).fd ∧ ci < t.bus.nextConn := by
  induction reach with
  | start => exact ⟨rfl, old⟩
  | next _ _ taken ih =>
    obtain ⟨same, still⟩ := hashedStep_fd taken ih.2
    exact ⟨same.trans ih.1, still⟩

/-- `Yacht_Get` finds a connection that the bus has, where no tombstone hides it. -/
theorem HashedInv.finds (inv : HashedInv s) {fd : Int} {ci : Nat} (socket : IsSocket fd) (tracked : Tracked s.bus fd ci)
    (found : ¬ Hidden s.table s.table.size (Int32.ofInt fd)) : yachtGet s.table (Int32.ofInt fd) = some ci := by
  obtain ⟨k, stands⟩ := inv.stands
  exact stands.finds socket tracked.present found

end Runs

/-- When `Bus_RegisterSocket` returns true, the hash table finds the connection it has made, unless a tombstone hides it, and the
listener tracks it. -/
theorem registered_socket_tracked {n : Nat} {s₀ s₁ s t : HashedBus} (before : Reach hashedStep (.new n) hashesCleanly s₀)
    {c : Nat} {env : RegisterEnv} {fd : Int32} {ssl : Bool} (clean : hashesCleanly s₀ (.register c env fd ssl))
    (idle : s₀.bus.clients c = .idle) (registers : registerStart env s₀.bus s₀.table c fd ssl = some (true, s₁.bus, s₁.table))
    (run : Reach hashedStep s₁ hashesCleanly s) {l slot serial : Nat}
    (waiting : s.bus.clients c = .wait (.addSocket s₀.bus.nextConn) l slot serial)
    (completes : hashedStep s (.bus (.client c (.onCompletion true))) = some t) (found : ¬ Hidden s.table s.table.size fd) :
    yachtGet t.table fd = some s₀.bus.nextConn ∧ Tracked t.bus fd.toInt s₀.bus.nextConn := by
  have begins : hashedStep s₀ (.register c env fd ssl) = some s₁ := by
    simp only [hashedStep, if_pos idle, registers, Option.map_some]
  have reach : Reach hashedStep (.new n) hashesCleanly s := (before.next clean begins).trans run
  have inv := hashed_invariant reach
  obtain ⟨k, stands⟩ := (hashed_invariant before).stands
  obtain ⟨publishes, _⟩ := registerStart_refines stands clean.1.live_of_toInt clean.2 idle registers
  obtain ⟨_, _, next, info, _⟩ := registered_start publishes
  have made : s₀.bus.nextConn < s₁.bus.nextConn := by
    rw [next]
    exact Nat.lt_succ_self _
  have socket : (s.bus.conns.info s₀.bus.nextConn).fd = fd.toInt := (hashed_fd_of_reach run made).1.trans info
  obtain ⟨_, answered, table⟩ := hashedStep_bus id completes
  have registering := inv.register.registers c
  rw [waiting] at registering
  obtain ⟨published, _, tracked, same⟩ := registering.completed waiting answered
  have kept : (t.bus.conns.info s₀.bus.nextConn).fd = fd.toInt := by
    rw [same]
    exact socket
  have entry := (inv.track.step answered).tracked_entry published tracked
  rw [kept] at entry
  refine ⟨?_, entry⟩
  have ends : HashedInv t := by
    have answers : registersCleanly s.bus (.client c (.onCompletion true)) := by
      intro fd' l' slot' serial' removing
      rw [waiting] at removing
      cases removing
    have cleanly : hashesCleanly s (.bus (.client c (.onCompletion true))) := ⟨answers, nofun⟩
    exact inv.step cleanly completes
  have unchanged : t.table = s.table := by
    rw [table]
    simp only [removeEntry, waiting]
  rw [← Int32.ofInt_toInt fd] at found ⊢
  rw [← unchanged] at found
  exact ends.finds clean.1 entry found

instance (table : Yacht Nat) (limit : Nat) (key : Int32) : Decidable (Hidden table limit key) :=
  inferInstanceAs (Decidable (∃ o, o < table.size ∧ table.buckets (slot table.size key o) = key ∧
    ∃ p, p < o ∧ p < limit ∧ table.buckets (slot table.size key p) = yachtDeleted))

/-- A test that a step is clean; it passes no removal. -/
def hashesCleanlyTest (s : HashedBus) : HashedLabel → Bool
  | .register _ _ fd _ => IsSocket fd.toInt ∧ ¬ Hidden s.table (setWindow s.table.size) fd
  | .bus (.client _ (.release _)) => false
  | .bus label => registersCleanlyTest s.bus label

theorem hashesCleanly_of_test (s : HashedBus) (label : HashedLabel) (passes : hashesCleanlyTest s label = true) :
    hashesCleanly s label := by
  cases label with
  | register c env fd ssl =>
    simp only [hashesCleanlyTest, decide_eq_true_eq] at passes
    exact passes
  | bus label =>
    cases label with
    | client c a =>
      cases a with
      | release fd => cases passes
      | _ => exact ⟨registersCleanly_of_test s.bus _ passes, nofun⟩
    | _ => exact ⟨registersCleanly_of_test s.bus _ passes, nofun⟩

/-- `Bus_RegisterSocket` on the hash table, to its end. -/
def hashedRegisterSteps (c : Nat) (fd : Int32) : List HashedLabel :=
  .register c ⟨true, true, fun _ => true⟩ fd false :: (commandSteps c 0 ++ [BusLabel.client c (.onCompletion true)]).map .bus

/-- A second socket is registered whose probe path begins in the bucket of a first one. It leaves the read buffer large enough
or has it grown. -/
theorem registered_socket_tracked_second :
    ∃ s₀ s₁ s t l slot serial, Reach hashedStep (.new 1) hashesCleanly s₀ ∧ s₀.bus.fdSet 5 = some 0 ∧
      registerStart ⟨true, true, fun _ => true⟩ s₀.bus s₀.table 2 21 false = some (true, s₁.bus, s₁.table) ∧
      Reach hashedStep s₁ hashesCleanly s ∧ s.bus.clients 2 = .wait (.addSocket s₀.bus.nextConn) l slot serial ∧
      hashedStep s (.bus (.client 2 (.onCompletion true))) = some t ∧
      yachtGet t.table 21 = some s₀.bus.nextConn ∧ Tracked t.bus 21 s₀.bus.nextConn := by
  have trace : ((exec hashedStep hashesCleanlyTest (.new 1) (hashedRegisterSteps 0 5)).bind fun s₀ =>
      (registerStart ⟨true, true, fun _ => true⟩ s₀.bus s₀.table 2 21 false).bind fun r =>
        (exec hashedStep hashesCleanlyTest ⟨r.2.1, r.2.2⟩ ((commandSteps 2 0).map .bus)).bind fun s =>
          (hashedStep s (.bus (.client 2 (.onCompletion true)))).map fun _ =>
            ((r.1, s₀.bus.fdSet 5, s₀.bus.clients 2), hashesCleanlyTest s₀ (.register 2 ⟨true, true, fun _ => true⟩ 21 false),
              (s₀.bus.nextConn, s.bus.clients 2), decide (Hidden s.table s.table.size 21))) =
      some ((true, some 0, .idle), true, (1, .wait (.addSocket 1) 0 31 1), false) := by decide +kernel
  obtain ⟨s₀, first, later⟩ := Option.bind_eq_some_iff.mp trace
  obtain ⟨⟨made, bus, table⟩, registers, later⟩ := Option.bind_eq_some_iff.mp later
  obtain ⟨s, second, later⟩ := Option.bind_eq_some_iff.mp later
  obtain ⟨t, completes, seen⟩ := Option.map_eq_some_iff.mp later
  simp only [Prod.mk.injEq] at seen
  obtain ⟨⟨rfl, present, idle⟩, clean, ⟨next, waiting⟩, found⟩ := seen
  rw [← next] at waiting
  have before := Reach.start.exec hashesCleanly_of_test first
  have run := Reach.start.exec hashesCleanly_of_test second
  exact ⟨s₀, ⟨bus, table⟩, s, t, _, _, _, before, present, registers, run, waiting, completes,
    registered_socket_tracked before (hashesCleanly_of_test _ _ clean) idle registers run waiting completes
      (of_decide_eq_false found)⟩

/-- The read buffer cannot grow. `add_socket` frees the connection and answers as if it had been added. -/
theorem registered_socket_freed :
    ∃ s₁ s t l slot serial,
      registerStart ⟨true, true, fun _ => true⟩ (HashedBus.new 1).bus (HashedBus.new 1).table 0 5 false =
        some (true, s₁.bus, s₁.table) ∧
      Reach hashedStep s₁ (fun _ _ => True) s ∧ s.bus.clients 0 = .wait (.addSocket (HashedBus.new 1).bus.nextConn) l slot serial ∧
      hashedStep s (.bus (.client 0 (.onCompletion true))) = some t ∧ yachtGet t.table 5 = some 0 ∧ 0 ∈ t.bus.conns.freed ∧
      ¬ Tracked t.bus 5 (HashedBus.new 1).bus.nextConn := by
  have trace : ((registerStart ⟨true, true, fun _ => true⟩ (HashedBus.new 1).bus (HashedBus.new 1).table 0 5 false).bind fun r =>
      (exec hashedStep (fun _ _ => true) ⟨r.2.1, r.2.2⟩ ([BusLabel.client 0 .getFreeMsg, .client 0 (.pushMessage true),
          .listener 0 (.handle ⟨true, ⟨false, 9, false⟩⟩), .listener 0 .release].map .bus)).bind fun s =>
        (hashedStep s (.bus (.client 0 (.onCompletion true)))).map fun t =>
          ((r.1, s.bus.clients 0), yachtGet t.table 5, t.bus.conns.freed)) =
      some ((true, .wait (.addSocket 0) 0 31 0), some 0, [0]) := by decide +kernel
  obtain ⟨⟨made, bus, table⟩, registers, later⟩ := Option.bind_eq_some_iff.mp trace
  obtain ⟨s, run, later⟩ := Option.bind_eq_some_iff.mp later
  obtain ⟨t, completes, seen⟩ := Option.map_eq_some_iff.mp later
  simp only [Prod.mk.injEq] at seen
  obtain ⟨⟨rfl, waiting⟩, present, freed⟩ := seen
  have member : 0 ∈ t.bus.conns.freed := by
    rw [freed]
    exact List.mem_singleton_self 0
  exact ⟨⟨bus, table⟩, s, t, _, _, _, registers, Reach.start.exec (fun _ _ _ => trivial) run, waiting, completes, present, member,
    fun tracked => tracked.notFreed member⟩

end Kinetic
