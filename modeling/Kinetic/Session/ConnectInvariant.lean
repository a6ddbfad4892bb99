import Kinetic.Session.ConnectCalls

namespace Kinetic
open Function (update)
open Transition (Reach)

/-- No connection has been made for the session. -/
def SessionBus.unmade (s : SessionBus) (i : Nat) : Prop := ∀ ci, s.udata ci ≠ some i

theorem SessionBus.unmade_of_same {s t : SessionBus} {i : Nat} (udata : t.udata = s.udata) : t.unmade i ↔ s.unmade i := by
  unfold SessionBus.unmade
  rw [udata]

/-- The sessions and the bus: nobody removes the socket of a live session, and nothing is in the bus of a socket for which no
connection has been made. -/
structure ConnectInv (s : SessionBus) : Prop where
  calls : CallInv s
  slots : SlotInv s.bus
  track : TrackInv s.bus
  pushes : s.bus.pushesOwn
  made : ∀ ci i, s.udata ci = some i → ci < s.bus.nextConn
  new : ∀ i, (s.sessions i).phase = .new → s.unmade i
  early : ∀ c i, s.threads c = .alloc i ∨ s.threads c = .register i → s.unmade i
  unreleased : ∀ i, (s.sessions i).phase.live = true → ¬ s.bus.Underway (.remove (s.sessions i).socket)
  unengaged : ∀ c i, (s.threads c).connects = some i → s.unmade i → ¬ s.bus.Engaged (s.sessions i).socket

theorem ConnectInv.init (n : Nat) : ConnectInv (.new n) := by
  refine ⟨.new n, .new n, .new n, pushesOwn_new n, ?_, ?_, ?_, ?_, ?_⟩
  · intro ci i made
    cases made
  · intro i _ ci made
    cases made
  · intro c i _ ci made
    cases made
  · intro i live
    cases live
  · intro c i connects
    cases connects

section Steps
variable {s t : SessionBus} {c i : Nat} {pc : CallPc} {fields : SessionFields} {label : ConnectLabel}

/-- A thread that has gone on is the only one that has left the first part of its call. -/
theorem ConnectInv.early_of_left (inv : ConnectInv s) (threads : t.threads = update s.threads c pc)
    (notAlloc : ∀ k, pc ≠ .alloc k) (notRegister : ∀ k, pc ≠ .register k) {d j : Nat}
    (early : t.threads d = .alloc j ∨ t.threads d = .register j) : s.unmade j := by
  refine inv.early d j ?_
  rw [threads, Function.update_apply] at early
  split at early
  · rcases early with clash | clash
    · exact absurd clash (notAlloc j)
    · exact absurd clash (notRegister j)
  · exact early

/-- The bus is as it was, and a thread has moved on at one session. -/
theorem ConnectInv.thread (inv : ConnectInv s) (calls : CallInv t) (bus : t.bus = s.bus) (udata : t.udata = s.udata)
    (threads : t.threads = update s.threads c pc) (sessions : t.sessions = update s.sessions i fields)
    (notNew : fields.phase ≠ .new) (early : ∀ k, pc = .alloc k ∨ pc = .register k → s.unmade k)
    (live : fields.phase.live = true → ¬ s.bus.Underway (.remove fields.socket))
    (own : ∀ k, pc.connects = some k → k = i ∧ (s.unmade i → ¬ s.bus.Engaged fields.socket))
    (others : ∀ d, d ≠ c → (s.threads d).connects ≠ some i) : ConnectInv t := by
  have unmade {j : Nat} (none : s.unmade j) : t.unmade j := (SessionBus.unmade_of_same udata).mpr none
  refine ⟨calls, by rw [bus]; exact inv.slots, by rw [bus]; exact inv.track, by rw [bus]; exact inv.pushes, ?_, ?_, ?_, ?_, ?_⟩
  · rw [udata, bus]
    exact inv.made
  · intro j new
    rw [sessions, Function.update_apply] at new
    split at new
    · exact absurd new notNew
    · exact unmade (inv.new j new)
  · intro d j here
    rw [threads, Function.update_apply] at here
    split at here
    · exact unmade (early j here)
    · exact unmade (inv.early d j here)
  · intro j alive
    rw [bus]
    rw [sessions, Function.update_apply] at alive ⊢
    split at alive
    · rename_i same
      rw [if_pos same]
      exact live alive
    · rename_i other
      rw [if_neg other]
      exact inv.unreleased j alive
  · intro d j connects none
    rw [SessionBus.unmade_of_same udata] at none
    rw [bus]
    rw [threads, Function.update_apply] at connects
    split at connects
    · obtain ⟨rfl, unengaged⟩ := own j connects
      rw [sessions, Function.update_self]
      exact unengaged none
    · rename_i other
      have distinct : j ≠ i := by
        rintro rfl
        exact others d other connects
      rw [sessions, Function.update_of_ne distinct]
      exact inv.unengaged d j connects none

/-- No other thread connects the session that a thread connects. -/
theorem CallInv.alone (inv : CallInv s) (own : (s.threads c).connects = some i) (d : Nat) (other : d ≠ c) :
    (s.threads d).connects ≠ some i := fun connects => other (inv.connectsOnce d c i connects own)

theorem CallInv.live_of_connects (inv : CallInv s) (own : (s.threads c).connects = some i) : (s.sessions i).phase.live = true := by
  rw [inv.connecting c i own]
  rfl

/-- A session with a thread at it that is about to release its socket is not live. -/
theorem CallInv.released_apart (inv : CallInv s) (releasing : s.threads c = .release i) {j : Nat}
    (live : (s.sessions j).phase.live = true) : (s.sessions j).socket ≠ (s.sessions i).socket := by
  intro same
  have leaving := inv.leaving c i (by rw [releasing]; rfl)
  cases inv.distinct j i (.live live) (.release c releasing) same
  rw [leaving] at live
  cases live

/-- The bus takes a step that neither registers nor releases a socket. -/
theorem ConnectInv.bus (inv : ConnectInv s) (calls : CallInv t) {label : BusLabel} (others : label.others = true)
    (run : busStep s.bus label = some t.bus) (sessions : t.sessions = s.sessions) (udata : t.udata = s.udata)
    (early : ∀ d j, t.threads d = .alloc j ∨ t.threads d = .register j → s.threads d = .alloc j ∨ s.threads d = .register j)
    (connects : ∀ d, (t.threads d).connects = (s.threads d).connects) : ConnectInv t := by
  have notRegister (c : Nat) (fd : Int) (ssl : Bool) : label ≠ .client c (.register fd ssl) := by
    rintro rfl
    cases others
  have notRelease (c : Nat) (fd : Int) : label ≠ .client c (.release fd) := by
    rintro rfl
    cases others
  have unmade {j : Nat} : t.unmade j ↔ s.unmade j := SessionBus.unmade_of_same udata
  refine ⟨calls, inv.slots.step run, inv.track.step run, inv.pushes.step inv.slots run, ?_, ?_, ?_, ?_, ?_⟩
  · intro ci j made
    rw [udata] at made
    exact (busStep_fd run (inv.made ci j made)).2
  · intro j new
    rw [sessions] at new
    exact unmade.mpr (inv.new j new)
  · intro d j here
    exact unmade.mpr (inv.early d j (early d j here))
  · intro j live underway
    rw [sessions] at live underway
    rcases busStep_underway inv.slots inv.pushes run underway with before | ⟨c, fd, ssl, begun, _⟩ | ⟨c, fd, begun, _⟩
    · exact inv.unreleased j live before
    · exact notRegister c fd ssl begun
    · exact notRelease c fd begun
  · intro d j connecting none engaged
    rw [sessions] at engaged
    rw [connects] at connecting
    rcases busStep_engaged inv.slots inv.track inv.pushes run engaged with before | ⟨c, ssl, begun⟩ | ⟨c, begun⟩
    · exact inv.unengaged d j connecting (unmade.mp none) before
    · exact notRegister c _ ssl begun
    · exact notRelease c _ begun

theorem ConnectInv.publishes (inv : ConnectInv s) (calls : CallInv t) {ssl : Bool} (here : s.threads c = .register i)
    (run : busStep s.bus (.client c (.register (s.sessions i).socket ssl)) = some t.bus) (sessions : t.sessions = s.sessions)
    (udata : t.udata = update s.udata s.bus.nextConn (some i))
    (threads : t.threads = update s.threads c (.registering i s.bus.nextConn)) : ConnectInv t := by
  have own : (s.threads c).connects = some i := by rw [here]; rfl
  have phase := inv.calls.connecting c i own
  have others {d : Nat} (other : d ≠ c) : t.threads d = s.threads d := by rw [threads, Function.update_of_ne other]
  have unmade {j : Nat} (distinct : j ≠ i) : t.unmade j ↔ s.unmade j := by
    constructor
    · intro none ci made
      refine none ci ?_
      rw [udata, Function.update_of_ne (Nat.ne_of_lt (inv.made ci j made))]
      exact made
    · intro none ci made
      rw [udata, Function.update_apply] at made
      split at made
      · exact distinct (Option.some.inj made).symm
      · exact none ci made
  refine ⟨calls, inv.slots.step run, inv.track.step run, inv.pushes.step inv.slots run, ?_, ?_, ?_, ?_, ?_⟩
  · intro ci j made
    obtain ⟨_, _, next, _⟩ := registered_start run
    rw [udata, Function.update_apply] at made
    split at made
    · omega
    · have before := inv.made ci j made
      omega
  · intro j new
    rw [sessions] at new
    refine (unmade ?_).mpr (inv.new j new)
    rintro rfl
    rw [phase] at new
    cases new
  · intro d j early
    by_cases mine : d = c
    · rw [mine, threads, Function.update_self] at early
      rcases early with clash | clash <;> cases clash
    · rw [others mine] at early
      refine (unmade ?_).mpr (inv.early d j early)
      rintro rfl
      refine inv.calls.alone own d mine ?_
      rcases early with at' | at' <;> rw [at'] <;> rfl
  · intro j live underway
    rw [sessions] at live underway
    rcases busStep_underway inv.slots inv.pushes run underway with before | ⟨_, _, _, _, new, _⟩ | ⟨_, _, begun, _⟩
    · exact inv.unreleased j live before
    · cases new
    · cases begun
  · intro d j connects none engaged
    rw [sessions] at engaged
    have distinct : j ≠ i := by
      rintro rfl
      refine none s.bus.nextConn ?_
      rw [udata, Function.update_self]
    have mine : d ≠ c := by
      rintro rfl
      rw [threads, Function.update_self] at connects
      exact distinct (Option.some.inj connects).symm
    rw [others mine] at connects
    rcases busStep_engaged inv.slots inv.track inv.pushes run engaged with before | ⟨_, _, begun⟩ | ⟨_, begun⟩
    · exact inv.unengaged d j connects ((unmade distinct).mp none) before
    · injection begun with _ action
      injection action with socket _
      have live := inv.calls.live_of_connects connects
      exact distinct (inv.calls.distinct i j (.live (inv.calls.live_of_connects own)) (.live live) socket).symm
    · cases begun

theorem ConnectInv.releases (inv : ConnectInv s) (calls : CallInv t) (here : s.threads c = .release i)
    (run : busStep s.bus (.client c (.release (s.sessions i).socket)) = some t.bus) (sessions : t.sessions = s.sessions)
    (udata : t.udata = s.udata) (threads : t.threads = update s.threads c (.releasing i (s.sessions i).socket)) : ConnectInv t := by
  have unmade {j : Nat} : t.unmade j ↔ s.unmade j := SessionBus.unmade_of_same udata
  refine ⟨calls, inv.slots.step run, inv.track.step run, inv.pushes.step inv.slots run, ?_, ?_, ?_, ?_, ?_⟩
  · intro ci j made
    rw [udata] at made
    exact (busStep_fd run (inv.made ci j made)).2
  · intro j new
    rw [sessions] at new
    exact unmade.mpr (inv.new j new)
  · intro d j early
    exact unmade.mpr (inv.early_of_left threads nofun nofun early)
  · intro j live underway
    rw [sessions] at live underway
    rcases busStep_underway inv.slots inv.pushes run underway with before | ⟨_, _, _, begun, _⟩ | ⟨_, fd, begun, new⟩
    · exact inv.unreleased j live before
    · cases begun
    · injection new with same
      injection begun with _ action
      injection action with socket
      exact inv.calls.released_apart here live (same.trans socket.symm)
  · intro d j connects none engaged
    rw [sessions] at engaged
    rw [threads, Function.update_apply] at connects
    split at connects
    · cases connects
    · rcases busStep_engaged inv.slots inv.track inv.pushes run engaged with before | ⟨_, _, begun⟩ | ⟨_, begun⟩
      · exact inv.unengaged d j connects (unmade.mp none) before
      · cases begun
      · injection begun with _ action
        injection action with socket
        exact inv.calls.released_apart here (inv.calls.live_of_connects connects) socket.symm

/-- The end of a `Bus_RegisterSocket` that has published nothing. -/
theorem ConnectInv.notMade (inv : ConnectInv s) (calls : CallInv t) {info : ConnectionInfo} (here : s.threads c = .register i)
    (bus : t.bus = s.bus.discarded info) (sessions : t.sessions = s.sessions) (udata : t.udata = s.udata)
    (threads : t.threads = update s.threads c (.cleanup i)) : ConnectInv t := by
  have unmade {j : Nat} : t.unmade j ↔ s.unmade j := SessionBus.unmade_of_same udata
  refine ⟨calls, by rw [bus]; exact inv.slots.discarded info, by rw [bus]; exact inv.track.discarded info,
    by rw [bus]; exact inv.pushes, ?_, ?_, ?_, ?_, ?_⟩
  · intro ci j made
    rw [udata] at made
    rw [bus]
    exact Nat.lt_succ_of_lt (inv.made ci j made)
  · intro j new
    rw [sessions] at new
    exact unmade.mpr (inv.new j new)
  · intro d j early
    exact unmade.mpr (inv.early_of_left threads nofun nofun early)
  · intro j live underway
    rw [sessions] at live underway
    rw [bus] at underway
    exact inv.unreleased j live (BusState.discarded_underway underway)
  · intro d j connects none engaged
    rw [sessions, bus] at engaged
    have before : (s.threads d).connects = some j := by
      rw [threads, Function.update_apply] at connects
      split at connects
      · rename_i mine
        rw [mine, here]
        exact connects
      · exact connects
    exact inv.unengaged d j before (unmade.mp none) (BusState.discarded_engaged inv.track engaged)

/-- A thread stays in the same `KineticSession_Connect`. -/
theorem ConnectInv.goesOn (inv : ConnectInv s) (calls : CallInv t) (own : (s.threads c).connects = some i) (bus : t.bus = s.bus)
    (udata : t.udata = s.udata) (threads : t.threads = update s.threads c pc) (sessions : t.sessions = update s.sessions i fields)
    (socket : fields.socket = (s.sessions i).socket) (notNew : fields.phase ≠ .new)
    (early : ∀ k, pc = .alloc k ∨ pc = .register k → s.unmade k) (stays : ∀ k, pc.connects = some k → k = i) : ConnectInv t := by
  refine inv.thread calls bus udata threads sessions notNew early ?_ ?_ (inv.calls.alone own)
  · intro _
    rw [socket]
    exact inv.unreleased i (inv.calls.live_of_connects own)
  · intro k connects
    refine ⟨stays k connects, ?_⟩
    rw [socket]
    exact inv.unengaged c i own

/-- A thread goes out of the calls, or on in a `KineticSession_Disconnect`, at a session that is not live. -/
theorem ConnectInv.leaves (inv : ConnectInv s) (calls : CallInv t) (bus : t.bus = s.bus) (udata : t.udata = s.udata)
    (threads : t.threads = update s.threads c pc) (sessions : t.sessions = update s.sessions i fields)
    (dead : fields.phase.live = false) (notNew : fields.phase ≠ .new) (gone : pc.connects = none)
    (others : ∀ d, d ≠ c → (s.threads d).connects ≠ some i) : ConnectInv t := by
  refine inv.thread calls bus udata threads sessions notNew ?_ ?_ ?_ others
  · rintro k (here | here)
    · rw [here] at gone
      cases gone
    · rw [here] at gone
      cases gone
  · intro live
    rw [dead] at live
    cases live
  · intro k connects
    rw [gone] at connects
    cases connects

theorem ConnectInv.step (inv : ConnectInv s) (clean : reusesCleanly s label) (move : ConnectMove s label t) : ConnectInv t := by
  have calls := inv.calls.step clean move
  have same (i : Nat) : s.sessions = update s.sessions i (s.sessions i) := (Function.update_eq_self i s.sessions).symm
  have notNew {c i : Nat} (own : (s.threads c).connects = some i) : (s.sessions i).phase ≠ .new := by
    rw [inv.calls.connecting c i own]
    exact nofun
  cases move with
  | notConnected c i outside new =>
    have stays : s.threads = update s.threads c .outside := by rw [← outside, Function.update_eq_self]
    refine inv.leaves (c := c) (i := i) calls rfl rfl stays rfl rfl nofun rfl fun d _ => ?_
    exact inv.calls.not_connecting (by rw [new]; exact nofun) d
  | connects c i fd outside new nonneg fresh =>
    refine inv.thread (c := c) (i := i) calls rfl rfl rfl rfl nofun ?_ ?_ ?_ fun d _ => ?_
    · rintro k (here | here)
      · cases here
        exact inv.new i new
      · cases here
    · intro _ underway
      exact clean.1 (.underway (.remove fd) underway rfl)
    · intro k connects
      cases connects
      exact ⟨rfl, fun _ => clean.1⟩
    · exact inv.calls.not_connecting (by rw [new]; exact nofun) d
  | allocates c i here =>
    have own : (s.threads c).connects = some i := by rw [here]; rfl
    refine inv.goesOn calls own rfl rfl rfl rfl rfl (notNew own) ?_ ?_
    · rintro k (clash | at')
      · cases clash
      · cases at'
        exact inv.early c i (.inl here)
    · intro k connects
      exact (Option.some.inj connects).symm
  | noMemory c i here =>
    have own : (s.threads c).connects = some i := by rw [here]; rfl
    exact inv.leaves calls rfl rfl rfl rfl rfl nofun rfl (inv.calls.alone own)
  | notMade c i ssl outcome bus here fate =>
    have own : (s.threads c).connects = some i := by rw [here]; rfl
    rcases fate with rfl | ⟨info, rfl⟩
    · refine inv.goesOn calls own rfl rfl rfl (same i) rfl (notNew own) ?_ ?_
      · rintro k (clash | clash) <;> cases clash
      · intro k connects
        exact (Option.some.inj connects).symm
    · exact inv.notMade calls here rfl rfl rfl rfl
  | aborts c i ssl ci here present =>
    exact ⟨calls, inv.slots, inv.track, inv.pushes, inv.made, inv.new, inv.early, inv.unreleased, inv.unengaged⟩
  | publishes c i ssl bus here free run => exact inv.publishes calls here run rfl rfl rfl
  | available c i ci here =>
    have own : (s.threads c).connects = some i := by rw [here]; rfl
    refine inv.goesOn calls own rfl rfl rfl rfl rfl nofun ?_ nofun
    rintro k (clash | clash) <;> cases clash
  | timesOut c i ci here =>
    have own : (s.threads c).connects = some i := by rw [here]; rfl
    refine inv.goesOn calls own rfl rfl rfl (same i) rfl (notNew own) ?_ ?_
    · rintro k (clash | clash) <;> cases clash
    · intro k connects
      exact (Option.some.inj connects).symm
  | frees c i here =>
    have own : (s.threads c).connects = some i := by rw [here]; rfl
    refine inv.goesOn calls own rfl rfl rfl rfl rfl (notNew own) ?_ ?_
    · rintro k (clash | clash) <;> cases clash
    · intro k connects
      exact (Option.some.inj connects).symm
  | fails c i here =>
    have own : (s.threads c).connects = some i := by rw [here]; rfl
    exact inv.leaves calls rfl rfl rfl rfl rfl nofun rfl (inv.calls.alone own)
  | refused c i outside => exact inv
  | admitted c i outside phase connected nonneg =>
    refine inv.leaves calls rfl rfl rfl rfl rfl nofun rfl fun d _ => ?_
    refine inv.calls.not_connecting ?_ d
    rcases phase with ⟨ci, phase⟩ | phase | phase
    · rw [phase]
      exact nofun
    · rw [phase]
      exact nofun
    · rw [phase]
      exact nofun
  | shuts c i here =>
    have leaving := inv.calls.leaving c i (by rw [here]; rfl)
    refine inv.leaves calls rfl rfl rfl (same i) ?_ ?_ rfl fun d _ => ?_
    · rw [leaving]
      rfl
    · rw [leaving]
      exact nofun
    · exact inv.calls.not_connecting (by rw [leaving]; exact nofun) d
  | releases c i bus here run => exact inv.releases calls here run rfl rfl rfl
  | finishes c i here =>
    have leaving := inv.calls.leaving c i (by rw [here]; rfl)
    refine inv.leaves calls rfl rfl rfl rfl rfl nofun rfl fun d _ => ?_
    exact inv.calls.not_connecting (by rw [leaving]; exact nofun) d
  | client c a bus others run =>
    refine inv.bus calls others run rfl rfl (fun d j early => ?_) fun d => ?_
    · by_cases own : d = c
      · subst own
        have here : (s.threads d).resume (bus.clients d) a = .alloc j ∨ (s.threads d).resume (bus.clients d) a = .register j := by
          simpa [SessionBus.setThread] using early
        rcases here with here | here
        · exact .inl (CallPc.of_resume here nofun fun i own => .inl (congrArg CallPc.alloc (Option.some.inj own)))
        · exact .inr (CallPc.of_resume here nofun fun i own => .inr (congrArg CallPc.register (Option.some.inj own)))
      · simpa [SessionBus.setThread, Function.update_of_ne own] using early
    · simp only [SessionBus.setThread, Function.update_apply]
      split
      · rename_i own
        rw [own, CallPc.resume_connects]
      · rfl
  | other label bus others notClient run => exact inv.bus calls others run rfl rfl (fun d j early => early) fun d => rfl

end Steps

end Kinetic
