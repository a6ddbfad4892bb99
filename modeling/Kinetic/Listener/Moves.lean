import Kinetic.Listener.Boxes
import Mathlib.Data.List.Nodup
import Mathlib.Data.List.Perm.Basic

namespace Kinetic

/-- The slot whose command the listener has executed and not yet released. -/
def ListenerPc.slots : ListenerPc → List Nat
  | .release slot => [slot]
  | _ => []

/-- The slots that no client holds: free, committed, or in the hands of the listener. -/
def Listener.slots (l : Listener) : List Nat := l.msgs.msgFreelist ++ l.msgs.commitPipe ++ l.pc.slots

/-- The listener reads the slot at the head of the commit pipe and executes the command in it. -/
structure Reads (l l' : Listener) (slot : Nat) (rest : List Nat) (msg : Msg) : Prop where
  atLoop : l.pc = .loop
  pipe : l.msgs.commitPipe = slot :: rest
  written : l.msgs.msgs slot = some msg
  atRelease : l'.pc = .release slot
  executed : l'.executed = msg.serial :: l.executed

/-- Everything a step of the listener can do to the slots, the replies and the boxes. -/
inductive ListenerMove (l : Listener) (h : Heap) (l' : Listener) (h' : Heap) : ListenerAction → Prop
  | answers (env : CommandEnv) (slot : Nat) (rest : List Nat) (msg : Msg) : Reads l l' slot rest msg →
      msg.command.box = none → l'.shutdownNotify = l.shutdownNotify →
      l'.msgs = { l.msgs with commitPipe := rest }.notifyCaller slot msg.serial → l'.rx.box = l.rx.box →
      h'.scheduled = h.scheduled → ListenerMove l h l' h' (.handle env)
  | expects (env : CommandEnv) (slot : Nat) (rest : List Nat) (b serial : Nat) :
      Reads l l' slot rest ⟨.expectResponse b, serial⟩ → l'.shutdownNotify = l.shutdownNotify →
      l'.msgs = { l.msgs with commitPipe := rest } → expectResponse env.accepted l.rx h b = some (l'.rx, h') →
      ListenerMove l h l' h' (.handle env)
  | shutsDown (env : CommandEnv) (slot : Nat) (rest : List Nat) (serial : Nat) :
      Reads l l' slot rest ⟨.shutdown, serial⟩ → l'.shutdownNotify = .fd slot serial →
      l'.msgs = { l.msgs with commitPipe := rest } → l'.rx.box = l.rx.box → h'.scheduled = h.scheduled →
      ListenerMove l h l' h' (.handle env)
  | releases (slot : Nat) : l.pc = .release slot → l' = { l with msgs := l.msgs.releaseMsg slot, pc := .loop } →
      h' = h → ListenerMove l h l' h' .release
  | works (a : ListenerAction) (i : Nat) : (∀ env, a ≠ .handle env) → l.pc.slots = [] → l'.pc.slots = [] →
      l'.executed = l.executed → l'.shutdownNotify = l.shutdownNotify → l'.msgs = l.msgs → Delivers i l.rx h l'.rx h' →
      ListenerMove l h l' h' a
  | finishes (slot serial : Nat) : l.pc = .loop → l.shutdownNotify = .fd slot serial →
      l' = { l with msgs := l.msgs.notifyCaller slot serial, shutdownNotify := .complete, pc := .stopped } → h' = h →
      ListenerMove l h l' h' .finish

/-- The listener with the head of its commit pipe read and its command executed. -/
def Listener.afterRead (l : Listener) (slot : Nat) (rest : List Nat) (serial : Nat) : Listener :=
  { l with msgs := { l.msgs with commitPipe := rest }, pc := .release slot, executed := serial :: l.executed }

/-- The steps of the listener, one by one. -/
inductive ListenerStep (l : Listener) (h : Heap) (conns : Connections) :
    ListenerAction → Listener → Heap → Connections → Prop
  | adds (env : CommandEnv) (slot : Nat) (rest : List Nat) (ci serial : Nat) (sockets : SocketTable) (conns' : Connections) :
      l.pc = .loop → l.msgs.commitPipe = slot :: rest → l.msgs.msgs slot = some ⟨.addSocket ci, serial⟩ →
      addSocket env.add l.sockets conns ci = some (sockets, conns') →
      ListenerStep l h conns (.handle env)
        { l.afterRead slot rest serial with
          sockets := sockets
          msgs := { l.msgs with commitPipe := rest }.notifyCaller slot serial } h conns'
  | removes (env : CommandEnv) (slot : Nat) (rest : List Nat) (fd : Int) (serial : Nat) (sockets : SocketTable) :
      l.pc = .loop → l.msgs.commitPipe = slot :: rest → l.msgs.msgs slot = some ⟨.removeSocket fd, serial⟩ →
      removeSocket l.sockets fd = some sockets →
      ListenerStep l h conns (.handle env)
        { l.afterRead slot rest serial with
          sockets := sockets
          msgs := { l.msgs with commitPipe := rest }.notifyCaller slot serial } h conns
  | holds (env : CommandEnv) (slot : Nat) (rest : List Nat) (fd seqId timeoutSec : Int) (serial : Nat) (rx : RxTable) :
      l.pc = .loop → l.msgs.commitPipe = slot :: rest →
      l.msgs.msgs slot = some ⟨.holdResponse fd seqId timeoutSec, serial⟩ → holdResponse l.rx fd seqId timeoutSec = some rx →
      ListenerStep l h conns (.handle env)
        { l.afterRead slot rest serial with
          rx := rx
          msgs := { l.msgs with commitPipe := rest }.notifyCaller slot serial } h conns
  | expects (env : CommandEnv) (slot : Nat) (rest : List Nat) (b serial : Nat) (rx : RxTable) (h' : Heap) :
      l.pc = .loop → l.msgs.commitPipe = slot :: rest → l.msgs.msgs slot = some ⟨.expectResponse b, serial⟩ →
      expectResponse env.accepted l.rx h b = some (rx, h') →
      ListenerStep l h conns (.handle env) { l.afterRead slot rest serial with rx := rx } h' conns
  | shutsDown (env : CommandEnv) (slot : Nat) (rest : List Nat) (serial : Nat) :
      l.pc = .loop → l.msgs.commitPipe = slot :: rest → l.msgs.msgs slot = some ⟨.shutdown, serial⟩ →
      ListenerStep l h conns (.handle env) { l.afterRead slot rest serial with shutdownNotify := .fd slot serial } h conns
  | releases (slot : Nat) : l.pc = .release slot →
      ListenerStep l h conns .release { l with msgs := l.msgs.releaseMsg slot, pc := .loop } h conns
  | ticks : l.pc = .loop → l.shutdownNotify = .noFd → ListenerStep l h conns .tick { l with pc := .tick 0 } h conns
  | ticksCell (clock accepted : Bool) (i : Nat) (rx : RxTable) (h' : Heap) : l.pc = .tick i → i ≤ l.rx.rxInfoMaxUsed →
      tickCell clock accepted l.rx h i = some (rx, h') →
      ListenerStep l h conns (.tickCell clock accepted) { l with rx := rx, pc := .tick (i + 1) } h' conns
  | ticked (clock accepted : Bool) (i : Nat) : l.pc = .tick i → l.rx.rxInfoMaxUsed < i →
      ListenerStep l h conns (.tickCell clock accepted) { l with pc := .loop } h conns
  | receives (i : Nat) (result : UnpackRes) (accepted : Bool) (rx : RxTable) (h' : Heap) : l.pc = .loop →
      i < l.sockets.trackedFds →
      processUnpackedMessage accepted l.rx h (conns.info (l.sockets.fdInfo i)).fd result = some (rx, h') →
      ListenerStep l h conns (.recv i result accepted) { l with rx := rx } h' conns
  | errs (i : Nat) (err : RxError) : l.pc = .loop → i < l.sockets.trackedFds → err.negative = true →
      ListenerStep l h conns (.socketError i err)
        { l with
          rx := l.rx.setErrorForSocket h.boxes (conns.info (l.sockets.fdInfo i)).fd err
          sockets := { l.sockets with errorOccured := true } } h
        (conns.set (l.sockets.fdInfo i) { conns.info (l.sockets.fdInfo i) with error := err })
  | movesErrored (sockets : SocketTable) : l.pc = .loop → moveErroredActiveSocketsToEnd l.sockets conns = some sockets →
      ListenerStep l h conns .moveErrored { l with sockets := sockets } h conns
  | finishes (slot serial : Nat) : l.pc = .loop → l.shutdownNotify = .fd slot serial →
      ListenerStep l h conns .finish
        { l with msgs := l.msgs.notifyCaller slot serial, shutdownNotify := .complete, pc := .stopped } h conns

section Inversion
variable {l l' : Listener} {h h' : Heap} {conns conns' : Connections} {a : ListenerAction}

theorem msgHandler_cases {env : CommandEnv} {slot : Nat} {rest : List Nat} {msg : Msg} (atLoop : l.pc = .loop)
    (pipe : l.msgs.commitPipe = slot :: rest) (written : l.msgs.msgs slot = some msg)
    (run : msgHandler env { l with msgs := { l.msgs with commitPipe := rest } } h conns slot msg = some (l', h', conns')) :
    ListenerStep l h conns (.handle env) { l' with pc := .release slot, executed := msg.serial :: l'.executed } h' conns' := by
  obtain ⟨command, serial⟩ := msg
  cases command with
  | addSocket ci =>
    obtain ⟨⟨sockets, infos⟩, added, run⟩ := Option.bind_eq_some_iff.mp run
    cases run
    exact .adds env slot rest ci serial sockets _ atLoop pipe written added
  | removeSocket fd =>
    obtain ⟨sockets, removed, run⟩ := Option.bind_eq_some_iff.mp run
    cases run
    exact .removes env slot rest fd serial sockets atLoop pipe written removed
  | holdResponse fd seqId timeoutSec =>
    obtain ⟨rx, held, run⟩ := Option.bind_eq_some_iff.mp run
    cases run
    exact .holds env slot rest fd seqId timeoutSec serial rx atLoop pipe written held
  | expectResponse b =>
    obtain ⟨⟨rx, heap⟩, expected, run⟩ := Option.bind_eq_some_iff.mp run
    cases run
    exact .expects env slot rest b serial rx _ atLoop pipe written expected
  | shutdown =>
    cases run
    exact .shutsDown env slot rest serial atLoop pipe written

theorem listenerStep_cases (run : listenerStep l h conns a = some (l', h', conns')) : ListenerStep l h conns a l' h' conns' := by
  cases a with
  | handle env =>
    simp only [listenerStep] at run
    split at run
    · rename_i slot rest atLoop pipe
      split at run
      · rename_i msg written
        obtain ⟨⟨handled, heap, infos⟩, executed, run⟩ := Option.bind_eq_some_iff.mp run
        cases run
        exact msgHandler_cases atLoop pipe written executed
      · cases run
    · cases run
  | release =>
    simp only [listenerStep] at run
    split at run
    · rename_i slot handling
      cases run
      exact .releases slot handling
    · cases run
  | tick =>
    simp only [listenerStep] at run
    split at run
    · rename_i started
      cases run
      exact .ticks started.1 started.2
    · cases run
  | tickCell clock accepted =>
    simp only [listenerStep] at run
    split at run
    · rename_i i ticking
      split at run
      · rename_i inside
        obtain ⟨⟨rx, heap⟩, ticked, run⟩ := Option.bind_eq_some_iff.mp run
        cases run
        exact .ticksCell clock accepted i rx heap ticking inside ticked
      · rename_i outside
        cases run
        exact .ticked clock accepted i ticking (Nat.not_le.mp outside)
    · cases run
  | recv i result accepted =>
    simp only [listenerStep] at run
    split at run
    · rename_i tracked
      obtain ⟨⟨rx, heap⟩, processed, run⟩ := Option.bind_eq_some_iff.mp run
      cases run
      exact .receives i result accepted rx heap tracked.1 tracked.2 processed
    · cases run
  | socketError i err =>
    simp only [listenerStep] at run
    split at run
    · rename_i tracked
      cases run
      exact .errs i err tracked.1 tracked.2.1 tracked.2.2
    · cases run
  | moveErrored =>
    simp only [listenerStep] at run
    split at run
    · rename_i atLoop
      obtain ⟨sockets, moved, run⟩ := Option.bind_eq_some_iff.mp run
      cases run
      exact .movesErrored sockets atLoop moved
    · cases run
  | finish =>
    simp only [listenerStep] at run
    split at run
    · rename_i slot serial atLoop asked
      cases run
      exact .finishes slot serial atLoop asked
    · cases run

theorem listenerStep_move (run : listenerStep l h conns a = some (l', h', conns')) : ListenerMove l h l' h' a := by
  cases listenerStep_cases run with
  | adds env slot rest ci serial sockets conns' atLoop pipe written =>
    exact .answers env slot rest _ ⟨atLoop, pipe, written, rfl, rfl⟩ rfl rfl rfl rfl rfl
  | removes env slot rest fd serial sockets atLoop pipe written =>
    exact .answers env slot rest _ ⟨atLoop, pipe, written, rfl, rfl⟩ rfl rfl rfl rfl rfl
  | holds env slot rest fd seqId timeoutSec serial rx atLoop pipe written held =>
    exact .answers env slot rest _ ⟨atLoop, pipe, written, rfl, rfl⟩ rfl rfl rfl (holdResponse_box held) rfl
  | expects env slot rest b serial rx h' atLoop pipe written expected =>
    exact .expects env slot rest b serial ⟨atLoop, pipe, written, rfl, rfl⟩ rfl rfl expected
  | shutsDown env slot rest serial atLoop pipe written =>
    exact .shutsDown env slot rest serial ⟨atLoop, pipe, written, rfl, rfl⟩ rfl rfl rfl rfl
  | releases slot handling => exact .releases slot handling rfl rfl
  | ticks atLoop =>
    exact .works _ 0 (by simp) (by rw [atLoop]; rfl) rfl rfl rfl rfl (.kept rfl rfl)
  | ticksCell clock accepted i rx h' ticking inside ticked =>
    exact .works _ i (by simp) (by rw [ticking]; rfl) rfl rfl rfl rfl (tickCell_delivers ticked)
  | ticked clock accepted i ticking =>
    exact .works _ 0 (by simp) (by rw [ticking]; rfl) rfl rfl rfl rfl (.kept rfl rfl)
  | receives i result accepted rx h' atLoop tracked processed =>
    obtain ⟨cell, delivers⟩ := processUnpackedMessage_delivers processed
    have outside : l.pc.slots = [] := by rw [atLoop]; rfl
    exact .works _ cell (by simp) outside outside rfl rfl rfl delivers
  | errs i err atLoop =>
    have outside : l.pc.slots = [] := by rw [atLoop]; rfl
    exact .works _ 0 (by simp) outside outside rfl rfl rfl (.kept (RxTable.setErrorForSocket_box _ _ _ _) rfl)
  | movesErrored sockets atLoop =>
    have outside : l.pc.slots = [] := by rw [atLoop]; rfl
    exact .works _ 0 (by simp) outside outside rfl rfl rfl (.kept rfl rfl)
  | finishes slot serial atLoop asked => exact .finishes slot serial atLoop asked rfl rfl

end Inversion

/-- The slots in the listener's hands are the same before and after each of its steps. -/
theorem ListenerMove.slots {l l' : Listener} {h h' : Heap} {a : ListenerAction} (move : ListenerMove l h l' h' a) :
    l'.slots.Perm l.slots ∧ ∀ slot, slot ∉ l.slots → l'.msgs.msgs slot = l.msgs.msgs slot := by
  have handled {slot : Nat} {rest : List Nat} {msg : Msg} (reads : Reads l l' slot rest msg)
      (free : l'.msgs.msgFreelist = l.msgs.msgFreelist) (left : l'.msgs.commitPipe = rest) : l'.slots.Perm l.slots := by
    rw [Listener.slots, Listener.slots, reads.atLoop, reads.pipe, free, left, reads.atRelease]
    simp only [ListenerPc.slots, List.append_assoc, List.append_nil]
    exact (List.perm_append_singleton slot rest).append_left _
  cases move with
  | answers env slot rest msg reads _ _ msgs =>
    exact ⟨handled reads (by rw [msgs]; rfl) (by rw [msgs]; rfl), fun _ _ => by rw [msgs]; rfl⟩
  | expects env slot rest b serial reads _ msgs =>
    exact ⟨handled reads (by rw [msgs]) (by rw [msgs]), fun _ _ => by rw [msgs]⟩
  | shutsDown env slot rest serial reads _ msgs =>
    exact ⟨handled reads (by rw [msgs]) (by rw [msgs]), fun _ _ => by rw [msgs]⟩
  | releases slot handling same =>
    subst same
    refine ⟨?_, ?_⟩
    · rw [Listener.slots, Listener.slots, handling]
      simp only [ListenerPc.slots, MsgTable.releaseMsg, List.append_nil, List.cons_append]
      exact (List.perm_append_singleton slot _).symm
    · intro i absent
      have distinct : i ≠ slot := by
        rintro rfl
        exact absent (List.mem_append_right _ (by rw [handling]; exact List.mem_singleton_self _))
      exact Function.update_of_ne distinct ..
  | works a i _ outside outside' _ _ msgs =>
    refine ⟨?_, fun _ _ => by rw [msgs]⟩
    rw [Listener.slots, Listener.slots, msgs, outside, outside']
  | finishes slot serial atLoop asked same =>
    subst same
    refine ⟨?_, fun _ _ => rfl⟩
    rw [Listener.slots, Listener.slots, atLoop]
    rfl

end Kinetic
