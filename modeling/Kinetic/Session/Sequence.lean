import Kinetic.Session.Lock
import Kinetic.Lib.History

namespace Kinetic
open Function (update)
open Transition (Reach watch exec exists_reach_of_exec)

/-- The record of how many sequence numbers have been drawn, and of those that have come to `box_msg`, the last one first. -/
structure Drawn where
  drawn : Nat
  seen : List Int

def noteDrawn (s : Session) (label : SessionLabel) (g : Drawn) : Drawn :=
  match label with
  | .thread c _ =>
    match s.threads c with
    | .draw _ => { g with drawn := g.drawn + 1 }
    | .box op _ => { g with seen := op.sequence :: g.seen }
    | _ => g
  | _ => g

/-- The sequence number that a thread has drawn and not written to the connection yet. -/
def OpPc.bound : OpPc → Option Int
  | .bind _ seqId => some seqId
  | .packCommand op => some op.sequence
  | .authenticate op _ => some op.sequence
  | .packMessage op _ => some op.sequence
  | .take op _ _ => some op.sequence
  | .box op _ => some op.sequence
  | .check op _ _ _ => some op.sequence
  | .update op _ _ _ => some op.sequence
  | _ => none

/-- The sequence number that a thread has drawn and not brought to `box_msg` yet. -/
def OpPc.unseen : OpPc → Option Int
  | .check _ _ _ _ => none
  | .update _ _ _ _ => none
  | pc => pc.bound

/-- The command in the message of a thread has the sequence number of its operation. -/
def OpPc.packed (pk : Packer) : OpPc → Prop
  | .authenticate op commandBytes => commandBytes = Kinetic.packCommand pk op
  | .packMessage op commandBytes => commandBytes = Kinetic.packCommand pk op
  | .take op msg _ => Kinetic.packMessage pk op (Kinetic.packCommand pk op) = some msg
  | .box op msg => Kinetic.packMessage pk op (Kinetic.packCommand pk op) = some msg
  | .check op msg _ _ => Kinetic.packMessage pk op (Kinetic.packCommand pk op) = some msg
  | .update op msg _ _ => Kinetic.packMessage pk op (Kinetic.packCommand pk op) = some msg
  | _ => True

/-- The messages on their way to the bus, and those in its boxes, carry the sequence numbers they are sent with. -/
structure PackedInv (pk : Packer) (s : Session) : Prop where
  threads : ∀ c, (s.threads c).packed pk
  boxes : ∀ b op, s.udata b = some op → (s.bus.heap.boxes b).fd = s.socket ∧
    (s.bus.heap.boxes b).outSeqId = op.sequence ∧
    packMessage pk op (packCommand pk op) = some (s.bus.heap.boxes b).outMsg

/-- A number that is drawn is the last one, above all that `box_msg` and the connection have seen. -/
structure OpPc.Fits (pc : OpPc) (g : Drawn) (largest : Int) : Prop where
  last : ∀ x, pc.bound = some x → x + 1 = g.drawn ∧ largest < x
  above : ∀ x, pc.unseen = some x → ∀ y ∈ g.seen, y < x

structure DrawnInv (ci : Nat) (s : Session) (g : Drawn) : Prop where
  counter : s.sequence = g.drawn
  seen : ∀ x ∈ g.seen, x < g.drawn
  ordered : g.seen.Pairwise (· > ·)
  largest : (s.bus.conns.info ci).largestWrSeqIdSeen < g.drawn
  fits : ∀ c, (s.threads c).Fits g (s.bus.conns.info ci).largestWrSeqIdSeen

/-- What holds of a session and its record, as long as there are not too many requests. -/
structure SequenceInv (pk : Packer) (n ci : Nat) (s : Session) (g : Drawn) : Prop where
  session : SessionInv n ci s
  packed : PackedInv pk s
  drawn : g.drawn < 2 ^ 63 → DrawnInv ci s g

section Packed
variable {pk : Packer} {n ci : Nat} {s t : Session}

theorem Walk.packed {c : Nat} {pc pc' : OpPc} (walk : Walk pk s c pc pc') (before : pc.packed pk) : pc'.packed pk := by
  cases walk with
  | packs op => exact rfl
  | authenticates op commandBytes => exact before
  | composes op commandBytes msg composed =>
    have bytes : commandBytes = packCommand pk op := before
    rw [bytes] at composed
    exact composed
  | finds => exact before
  | passes => exact before
  | _ => trivial

theorem PackedInv.moves {c : Nat} (inv : PackedInv pk s) (pc : OpPc) (bus : t.bus = s.bus) (socket : t.socket = s.socket)
    (udata : t.udata = s.udata) (threads : t.threads = update s.threads c pc) (packed : pc.packed pk) : PackedInv pk t := by
  refine ⟨fun c' => ?_, by rw [bus, socket, udata]; exact inv.boxes⟩
  rw [threads, Function.update_apply]
  split
  · exact packed
  · exact inv.threads c'

/-- A step of the bus leaves what `box_msg` has written. -/
theorem PackedInv.rest {label : BusLabel} {bus : BusState} (inv : PackedInv pk s) (session : SessionInv n ci s)
    (taken : busStep s.bus label = some bus) : PackedInv pk { s with bus := bus } := by
  refine ⟨inv.threads, fun b op ours => ?_⟩
  obtain ⟨fd, seqId, msg⟩ := busStep_box taken (session.boxes b op ours).1
  dsimp only
  rw [fd, seqId, msg]
  exact inv.boxes b op ours

theorem PackedInv.thread {c : Nat} (inv : PackedInv pk s) (move : ThreadMove pk s t c) : PackedInv pk t := by
  have own := inv.threads c
  cases move with
  | walks pc walk same =>
    subst same
    exact inv.moves pc rfl rfl rfl rfl (walk.packed own)
  | locks op locking free same =>
    subst same
    exact inv.moves (.draw op) rfl rfl rfl rfl trivial
  | draws op drawing same =>
    subst same
    exact inv.moves (.bind op s.sequence) rfl rfl rfl rfl trivial
  | takes op msg pc pc' sem taking moved same =>
    subst same
    rw [taking] at own
    refine inv.moves (if pc' = .done then .box op msg else .take op msg pc') rfl rfl rfl rfl ?_
    split <;> exact own
  | boxes op msg found ssl updating same =>
    subst same
    rw [updating] at own
    refine ⟨fun c' => ?_, fun b op' ours => ?_⟩
    · simp only [Session.setThread, Function.update_apply]
      split
      · trivial
      · exact inv.threads c'
    · simp only [BusState.boxed, BusState.setClient, BusState.setBox, Heap.setBox, Session.setThread,
        Function.update_apply] at ours ⊢
      split at ours
      · rename_i here
        cases ours
        rw [if_pos here]
        exact ⟨rfl, rfl, own⟩
      · rename_i other
        rw [if_neg other]
        exact inv.boxes b op' ours
  | gives op pc pc' sem giving moved same =>
    subst same
    refine inv.moves (if pc' = .done then .unlock else .give op pc') rfl rfl rfl rfl ?_
    split <;> trivial
  | unlocks unlocking same =>
    subst same
    exact inv.moves .outside rfl rfl rfl rfl trivial

theorem PackedInv.step {label : SessionLabel} (inv : PackedInv pk s) (session : SessionInv n ci s)
    (taken : sessionStep pk s label = some t) : PackedInv pk t := by
  cases sessionStep_move taken with
  | calls c op outside idle same =>
    subst same
    exact inv.moves (.lock { op with serial := s.nextOp }) rfl rfl rfl rfl trivial
  | thread c ok move => exact inv.thread move
  | handles k b op atK ours stepped waiting same =>
    subst same
    exact ⟨inv.threads, inv.boxes⟩
  | completes k op pc pc' sem completing moved same =>
    subst same
    exact ⟨inv.threads, inv.boxes⟩
  | rest label bus allowed stepped same =>
    subst same
    exact inv.rest session stepped

end Packed

section Drawn
variable {pk : Packer} {n ci : Nat} {s t : Session} {g : Drawn} {c : Nat} {ok : Bool}

theorem OpPc.bound_locked {pc : OpPc} {x : Int} (bound : pc.bound = some x) : pc.locked = true := by
  cases pc <;> first | rfl | cases bound

theorem OpPc.unseen_bound {pc : OpPc} {x : Int} (unseen : pc.unseen = some x) : pc.bound = some x := by
  cases pc <;> first | exact unseen | cases unseen

/-- Nothing is asked of a thread that has no number of its own. -/
theorem OpPc.Fits.of_none {pc : OpPc} (none : pc.bound = Option.none) (g : Drawn) (largest : Int) : pc.Fits g largest := by
  refine ⟨fun x bound => ?_, fun x unseen => ?_⟩
  · rw [none] at bound
    cases bound
  · rw [OpPc.unseen_bound unseen] at none
    cases none

theorem OpPc.Fits.of_unlocked {pc : OpPc} (free : pc.locked = false) (g : Drawn) (largest : Int) : pc.Fits g largest := by
  refine .of_none ?_ g largest
  cases bound : pc.bound with
  | none => rfl
  | some x =>
    rw [OpPc.bound_locked bound] at free
    cases free

theorem Walk.bound {pc pc' : OpPc} (walk : Walk pk s c pc pc') {x : Int} (bound : pc'.bound = some x) : pc.bound = some x := by
  cases walk <;> first | exact bound | cases bound

theorem Walk.unseen {pc pc' : OpPc} (walk : Walk pk s c pc pc') {x : Int} (unseen : pc'.unseen = some x) :
    pc.unseen = some x := by
  cases walk <;> first | exact unseen | cases unseen

theorem noteDrawn_other (notDraw : ∀ op, s.threads c ≠ .draw op) (notBox : ∀ op msg, s.threads c ≠ .box op msg) :
    noteDrawn s (.thread c ok) g = g := by
  unfold noteDrawn
  dsimp only
  split
  · exact absurd ‹_› (notDraw _)
  · exact absurd ‹_› (notBox _ _)
  · rfl

/-- A thread behind the send mutex is the only one with a number. -/
theorem SessionInv.others_fit (session : SessionInv n ci s) (locked : (s.threads c).locked = true) {c' : Nat} (other : c' ≠ c)
    (g : Drawn) (largest : Int) : (s.threads c').Fits g largest := by
  refine .of_unlocked ?_ g largest
  by_contra also
  exact other (session.same_thread (by simpa using also) locked)

/-- A thread moves on while the record and the connection stay as they are. -/
theorem DrawnInv.moves (inv : DrawnInv ci s g) (pc : OpPc) (bus : t.bus = s.bus) (sequence : t.sequence = s.sequence)
    (threads : t.threads = update s.threads c pc) (fits : pc.Fits g (s.bus.conns.info ci).largestWrSeqIdSeen) :
    DrawnInv ci t g := by
  refine ⟨by rw [sequence]; exact inv.counter, inv.seen, inv.ordered, by rw [bus]; exact inv.largest, fun c' => ?_⟩
  rw [bus, threads, Function.update_apply]
  split
  · exact fits
  · exact inv.fits c'

theorem DrawnInv.walk {pc : OpPc} (inv : DrawnInv ci s g) (session : SessionInv n ci s)
    (walk : Walk pk s c (s.threads c) pc) : DrawnInv ci (s.setThread c pc) (noteDrawn s (.thread c ok) g) := by
  have own := inv.fits c
  cases before : s.threads c with
  | box op msg =>
    rw [before] at walk own
    have noted : noteDrawn s (.thread c ok) g = { g with seen := op.sequence :: g.seen } := by
      simp only [noteDrawn, before]
    obtain ⟨last, unwritten⟩ := own.last op.sequence rfl
    have above := own.above op.sequence rfl
    rw [noted]
    refine ⟨inv.counter, fun x member => ?_, ?_, inv.largest, fun c' => ?_⟩
    · rcases List.mem_cons.mp member with rfl | old
      · dsimp only
        omega
      · exact inv.seen x old
    · exact List.pairwise_cons.mpr ⟨above, inv.ordered⟩
    · simp only [Session.setThread, Function.update_apply]
      split
      · refine ⟨fun x bound => own.last x (walk.bound bound), fun x unseen => ?_⟩
        cases walk <;> cases unseen
      · rename_i other
        exact session.others_fit (by rw [before]; rfl) other _ _
  | draw op =>
    rw [before] at walk
    cases walk
  | _ =>
    rw [noteDrawn_other (by simp [before]) (by simp [before])]
    refine inv.moves pc rfl rfl rfl ⟨fun x bound => ?_, fun x unseen => ?_⟩
    · exact own.last x (walk.bound bound)
    · exact own.above x (walk.unseen unseen)

theorem DrawnInv.draw {op : Operation} (inv : DrawnInv ci s g) (session : SessionInv n ci s)
    (drawing : s.threads c = .draw op) (few : g.drawn + 1 < 2 ^ 63) :
    DrawnInv ci { s.setThread c (.bind op s.sequence) with sequence := (s.sequence + 1).bmod (2 ^ 64) }
      { g with drawn := g.drawn + 1 } := by
  have counter := inv.counter
  have largest := inv.largest
  have next : (s.sequence + 1).bmod (2 ^ 64) = ((g.drawn + 1 : Nat) : Int) := by
    rw [counter, Int.bmod_eq_of_le_mul_two (by omega) (by omega)]
    omega
  refine ⟨next, fun x member => ?_, inv.ordered, ?_, fun c' => ?_⟩
  · have old := inv.seen x member
    dsimp only
    omega
  · dsimp only [Session.setThread]
    omega
  · simp only [Session.setThread, Function.update_apply]
    split
    · refine ⟨fun x bound => ?_, fun x unseen y member => ?_⟩
      · cases bound
        dsimp only
        omega
      · cases unseen
        rw [counter]
        exact inv.seen y member
    · rename_i other
      exact session.others_fit (by rw [drawing]; rfl) other _ _

theorem DrawnInv.thread (inv : DrawnInv ci s g) (session : SessionInv n ci s) (move : ThreadMove pk s t c)
    (few : (noteDrawn s (.thread c ok) g).drawn < 2 ^ 63) : DrawnInv ci t (noteDrawn s (.thread c ok) g) := by
  have own := inv.fits c
  cases move with
  | walks pc walk same =>
    subst same
    exact inv.walk session walk
  | locks op locking free same =>
    subst same
    rw [noteDrawn_other (by simp [locking]) (by simp [locking])]
    exact inv.moves (.draw op) rfl rfl rfl (.of_none rfl _ _)
  | draws op drawing same =>
    subst same
    have noted : noteDrawn s (.thread c ok) g = { g with drawn := g.drawn + 1 } := by
      simp only [noteDrawn, drawing]
    rw [noted] at few ⊢
    exact inv.draw session drawing few
  | takes op msg pc pc' sem taking moved same =>
    subst same
    rw [noteDrawn_other (by simp [taking]) (by simp [taking])]
    rw [taking] at own
    refine inv.moves (if pc' = .done then .box op msg else .take op msg pc') rfl rfl rfl ?_
    split <;> exact ⟨own.last, own.above⟩
  | boxes op msg found ssl updating same =>
    have looked := session.checked c
    rw [updating] at own looked
    obtain ⟨rfl, _⟩ := looked
    obtain ⟨last, _⟩ := own.last op.sequence rfl
    subst same
    rw [noteDrawn_other (by simp [updating]) (by simp [updating])]
    have written : ((s.bus.boxed c found ssl ⟨s.socket, op.sequence, op.timeoutSeconds, msg⟩).conns.info
        found).largestWrSeqIdSeen = op.sequence := by
      simp [BusState.boxed, Connections.set]
    refine ⟨inv.counter, inv.seen, inv.ordered, ?_, fun c' => ?_⟩
    · dsimp only
      omega
    · simp only [Session.setThread, Function.update_apply]
      split
      · exact .of_none rfl _ _
      · rename_i other
        exact session.others_fit (by rw [updating]; rfl) other _ _
  | gives op pc pc' sem giving moved same =>
    subst same
    rw [noteDrawn_other (by simp [giving]) (by simp [giving])]
    refine inv.moves (if pc' = .done then .unlock else .give op pc') rfl rfl rfl (.of_none ?_ _ _)
    split <;> rfl
  | unlocks unlocking same =>
    subst same
    rw [noteDrawn_other (by simp [unlocking]) (by simp [unlocking])]
    exact inv.moves .outside rfl rfl rfl (.of_none rfl _ _)

theorem DrawnInv.step {label : SessionLabel} (inv : DrawnInv ci s g) (session : SessionInv n ci s)
    (taken : sessionStep pk s label = some t) (few : (noteDrawn s label g).drawn < 2 ^ 63) :
    DrawnInv ci t (noteDrawn s label g) := by
  cases sessionStep_move taken with
  | calls c op outside idle same =>
    subst same
    exact inv.moves (.lock { op with serial := s.nextOp }) rfl rfl rfl (.of_none rfl _ _)
  | thread c ok move => exact inv.thread session move few
  | handles k b op atK ours stepped waiting same =>
    subst same
    exact ⟨inv.counter, inv.seen, inv.ordered, inv.largest, inv.fits⟩
  | completes k op pc pc' sem completing moved same =>
    subst same
    exact ⟨inv.counter, inv.seen, inv.ordered, inv.largest, inv.fits⟩
  | rest label bus allowed stepped same =>
    subst same
    have largest := (session.connection allowed stepped).2.largest
    refine ⟨inv.counter, inv.seen, inv.ordered, ?_, fun c => ?_⟩
    · dsimp only
      rw [largest]
      exact inv.largest
    · dsimp only
      rw [largest]
      exact inv.fits c

theorem noteDrawn_grows (s : Session) (label : SessionLabel) (g : Drawn) : g.drawn ≤ (noteDrawn s label g).drawn := by
  unfold noteDrawn
  split
  · split
    · exact Nat.le_succ _
    · exact Nat.le_refl _
    · exact Nat.le_refl _
  · exact Nat.le_refl _

end Drawn

section Runs
variable {pk : Packer} {n ci : Nat} {bus : BusState} {fd : Int} {s : Session} {g : Drawn}

/-- For any number of threads that send on one connected session, in any order of their steps and with any of them failing
on the way, and fewer than 2^63 requests, the sequence ids that come to `box_msg` are strictly increasing, none of them
fails its test, and the command in the message of every box was packed with the sequence id that the listener matches. -/
theorem sequence_ids_increase (before : Reach busStep (.new n) (fun _ _ => True) bus) (connected : bus.Connected fd ci)
    (reach : Reach (watch (sessionStep pk) noteDrawn) (.connected bus fd, ⟨0, []⟩) (fun _ _ => True) (s, g))
    (few : g.drawn < 2 ^ 63) :
    g.seen.Pairwise (· > ·) ∧
    (∀ c op msg found ssl, s.threads c = .check op msg found ssl →
      (s.bus.conns.info found).nonMonotonic op.sequence = false) ∧
    (∀ b op, s.udata b = some op → (s.bus.heap.boxes b).fd = s.socket ∧
      (s.bus.heap.boxes b).outSeqId = op.sequence ∧
      packMessage pk op (pk.commandPack (s.bus.heap.boxes b).outSeqId op.command) =
        some (s.bus.heap.boxes b).outMsg) := by
  have inv : SequenceInv pk n ci s g := by
    refine reach.watched_invariant (fun _ _ => True) ⟨.connected before connected, ⟨fun _ => trivial, ?_⟩, fun _ => ?_⟩ ?_
    · intro b op ours
      cases ours
    · refine ⟨rfl, ?_, .nil, ?_, fun c => .of_none rfl _ _⟩
      · intro x member
        cases member
      · have unused : ((Session.connected bus fd).bus.conns.info ci).largestWrSeqIdSeen = -1 := connected.unused
        rw [unused]
        decide
    · rintro s g label t _ ⟨session, packed, drawn⟩ _ taken
      refine ⟨session.step taken, packed.step session taken, fun few => ?_⟩
      have grows := noteDrawn_grows s label g
      exact (drawn (by omega)).step session taken few
  obtain ⟨session, packed, drawn⟩ := inv
  have ordered := drawn few
  refine ⟨ordered.ordered, fun c op msg found ssl checking => ?_, fun b op ours => ?_⟩
  · have looked := session.checked c
    have fits := ordered.fits c
    rw [checking] at looked fits
    obtain ⟨rfl, _⟩ := looked
    obtain ⟨_, above⟩ := fits.last op.sequence rfl
    simp only [ConnectionInfo.nonMonotonic, decide_eq_false_iff_not]
    omega
  · obtain ⟨ofFd, ofSeqId, message⟩ := packed.boxes b op ours
    refine ⟨ofFd, ofSeqId, ?_⟩
    rw [ofSeqId]
    exact message

theorem sequence_ids_increase_three_threads :
    ∃ bus s g, Reach busStep (.new 1) (fun _ _ => True) bus ∧ bus.Connected 5 0 ∧
      Reach (watch (sessionStep bareCommands) noteDrawn) (.connected bus 5, ⟨0, []⟩) (fun _ _ => True) (s, g) ∧
      g.drawn = 3 ∧ g.seen = [2, 1] ∧ (s.udata 0).map Operation.sequence = some 2 ∧ g.seen.Pairwise (· > ·) ∧
      (∀ c op msg found ssl, s.threads c = .check op msg found ssl →
        (s.bus.conns.info found).nonMonotonic op.sequence = false) ∧
      (∀ b op, s.udata b = some op → (s.bus.heap.boxes b).fd = s.socket ∧
        (s.bus.heap.boxes b).outSeqId = op.sequence ∧
        packMessage bareCommands op (bareCommands.commandPack (s.bus.heap.boxes b).outSeqId op.command) =
          some (s.bus.heap.boxes b).outMsg) := by
  have trace : ((exec busStep (fun _ label => decide (label.releases 5 = false)) (.new 1) (registerSteps 0 5)).bind
      fun bus => (exec (watch (sessionStep bareCommands) noteDrawn) (fun _ _ => decide True) (.connected bus 5, ⟨0, []⟩)
        (drawSteps 0 false ++ [SessionLabel.thread 0 true] ++ drawSteps 1 true ++ SessionLabel.call 2 ⟨0, kineticSequenceNotYetBound, 0, [], 1⟩ ::
          packSteps 1 ++ [SessionLabel.thread 1 false] ++ List.replicate 5 (SessionLabel.thread 1 true) ++ List.replicate 4 (SessionLabel.thread 2 true) ++
          packSteps 2 ++ List.replicate 3 (SessionLabel.thread 2 true))).map
        fun s => (bus.fdSet 5, (bus.conns.info 0).largestWrSeqIdSeen, s.2.drawn, s.2.seen,
          (s.1.udata 0).map Operation.sequence)) =
      some (some 0, -1, 3, [2, 1], some 2) := by decide +kernel
  obtain ⟨bus, ended, trace⟩ := Option.bind_eq_some_iff.mp trace
  obtain ⟨⟨s, g⟩, executed, seen⟩ := Option.map_eq_some_iff.mp trace
  simp only [Prod.mk.injEq] at seen
  obtain ⟨registered, unused, drawn, ids, boxed⟩ := seen
  obtain ⟨before, connected⟩ := connected_of_exec ended registered unused
  have watched : Reach (watch (sessionStep bareCommands) noteDrawn) (.connected bus 5, ⟨0, []⟩) (fun _ _ => True) (s, g) :=
    Reach.start.exec (fun _ _ => of_decide_eq_true) executed
  exact ⟨bus, s, g, before, connected, watched, drawn, ids, boxed,
    sequence_ids_increase before connected watched (by rw [drawn]; decide)⟩

end Runs

end Kinetic
