import Kinetic.Listener.RxTable
import Kinetic.Sink.Model
import Mathlib.Algebra.GroupWithZero.Nat

namespace Kinetic

/-- What one `read` or `SSL_read` reports: bytes, or none at the end of the stream; `EAGAIN` or `SSL_ERROR_WANT_READ`; an
`errno` that `Util_IsResumableIOError` accepts, or another one. The last four come from `SSL_read` only. -/
inductive ReadRes
  | data (bytes : List UInt8)
  | wouldBlock
  | resumable
  | error
  | wantWrite
  | syscallNoErrno
  | zeroReturn
  | unknown
  deriving DecidableEq

/-- A connection while it is read from, with what the transport is going to report. After the last of it the transport
has nothing and would block. -/
structure Reading where
  readBuf : Nat → UInt8
  conn : Connection
  answers : List ReadRes

/-- How a read function ends: it returns what it has read, it marks the socket with an error and returns -1, or one of
its assertions fails. -/
inductive ReadOutcome
  | returned (r : Reading) (accum : Nat)
  | failed (r : Reading) (err : RxError)
  | aborted

def ReadOutcome.conn : ReadOutcome → Option Connection
  | .returned r _ => some r.conn
  | .failed r _ => some r.conn
  | .aborted => none

/-- A read of at most `to_read_size` of the bytes at hand, and `sink_socket_read` of it. What does not fit is left for the
next read. -/
def Reading.read (r : Reading) (bytes : List UInt8) (rest : List ReadRes) : Option (Nat × Reading) :=
  let chunk := bytes.take r.conn.toReadSize
  let left := bytes.drop r.conn.toReadSize
  let readBuf := Memory.store r.readBuf chunk
  (sinkSocketRead readBuf r.conn chunk).map fun conn =>
    (chunk.length, { readBuf := readBuf, conn := conn, answers := if left = [] then rest else .data left :: rest })

/-- The loop of `socket_read_plain`, for at most so many rounds. -/
def socketReadPlainFrom : Nat → Reading → Nat → Option ReadOutcome
  | 0, _, _ => none
  | fuel + 1, r, accum =>
    if r.conn.toReadSize = 0 then some (.returned r accum)
    else
      match r.answers with
      | [] => some (.returned r accum)
      | .wouldBlock :: rest => some (.returned { r with answers := rest } accum)
      | .resumable :: rest => socketReadPlainFrom fuel { r with answers := rest } accum
      | .data [] :: rest => some (.returned { r with answers := rest } accum)
      | .data (byte :: bytes) :: rest =>
        match r.read (byte :: bytes) rest with
        | none => some .aborted
        | some (size, r) => socketReadPlainFrom fuel r (accum + size)
      | _ :: rest => some (.failed { r with answers := rest } .readFailure)

/-- The loop of `socket_read_ssl`. After each read it stops if it has got as many bytes as the next read should have. -/
def socketReadSslFrom : Nat → Reading → Nat → Option ReadOutcome
  | 0, _, _ => none
  | fuel + 1, r, accum =>
    if r.conn.toReadSize = 0 then some (.returned r accum)
    else
      match r.answers with
      | [] => some (.returned r accum)
      | .wouldBlock :: rest => some (.returned { r with answers := rest } accum)
      | .resumable :: rest => socketReadSslFrom fuel { r with answers := rest } accum
      | .error :: rest => some (.failed { r with answers := rest } .readFailure)
      | .zeroReturn :: rest => some (.failed { r with answers := rest } .pollhup)
      | .wantWrite :: _ => some .aborted
      | .syscallNoErrno :: _ => some .aborted
      | .unknown :: _ => some .aborted
      | .data [] :: rest => some (.returned { r with answers := rest } accum)
      | .data (byte :: bytes) :: rest =>
        match r.read (byte :: bytes) rest with
        | none => some .aborted
        | some (size, r) =>
          if accum + size = r.conn.toReadSize then some (.returned r (accum + size))
          else socketReadSslFrom fuel r (accum + size)

/-- A bound on the rounds of either loop. -/
def ReadRes.weight : ReadRes → Nat
  | .data bytes => bytes.length + 1
  | _ => 1

def Reading.weight (r : Reading) : Nat := (r.answers.map ReadRes.weight).sum

def socketReadPlain (r : Reading) : Option ReadOutcome := socketReadPlainFrom (r.weight + 1) r 0

def socketReadSsl (r : Reading) : Option ReadOutcome := socketReadSslFrom (r.weight + 1) r 0

/-- The transport has bytes, in pieces of any size, and would block after them. -/
def Reading.onlyData (r : Reading) : Prop := ∀ a ∈ r.answers, ∃ bytes, a = .data bytes ∧ bytes ≠ []

/-- The next piece goes through the parser, if there is one and the parser wants any. -/
def Reading.turn (r : Reading) : Option (Nat × Reading) :=
  if r.conn.toReadSize = 0 then none
  else
    match r.answers with
    | .data bytes :: rest => r.read bytes rest
    | _ => none

/-- Pieces of `n` bytes in all have gone through the parser. -/
inductive Turns : Reading → Nat → Reading → Prop
  | none (r : Reading) : Turns r 0 r
  | next {r r' r'' : Reading} {size n : Nat} : r.turn = some (size, r') → 0 < size → Turns r' n r'' →
      Turns r (size + n) r''

/-- At no point has the parser been given as many bytes as it asks for next while there is more to read. -/
def Reading.neverStalls (r : Reading) (accum : Nat) : Prop :=
  ∀ n r', Turns r n r' → 0 < n → r'.conn.toReadSize = accum + n → r'.answers = []

/-- What the read of a piece does, if no assertion fails. -/
structure ReadsPiece (r r' : Reading) (size : Nat) : Prop where
  positive : 0 < size
  consumed : r'.conn.consumed.length = r.conn.consumed.length + size
  weight : r'.weight < r.weight
  onlyData : r'.onlyData
  primed : r'.conn.si.state ≠ .uninit

theorem sinkCb_primed {si si' : SocketInfo} {readBuf : Nat → UInt8} {readSize : Nat} {res : SinkRes}
    (run : sinkCb si readBuf readSize = some (si', res)) : si'.state ≠ .uninit := by
  unfold sinkCb at run
  split at run
  · split at run
    · cases run
      simp
    · cases run
  · rename_i state
    dsimp only at run
    split at run
    · split at run <;> cases run <;> simp
    · cases run
      simp [state]
  · rename_i state
    dsimp only at run
    split at run <;> cases run <;> simp [state]

/-- Once the connection is primed no assertion of the parser fails. -/
theorem sinkCb_of_primed {si : SocketInfo} (primed : si.state ≠ .uninit) (readBuf : Nat → UInt8) (readSize : Nat) :
    ∃ si' res, sinkCb si readBuf readSize = some (si', res) := by
  unfold sinkCb
  split
  · rename_i state
    exact absurd state primed
  · dsimp only
    split
    · split <;> exact ⟨_, _, rfl⟩
    · exact ⟨_, _, rfl⟩
  · dsimp only
    split <;> exact ⟨_, _, rfl⟩

section Pieces
variable {r r' : Reading} {bytes : List UInt8} {rest : List ReadRes} {size : Nat}

theorem Reading.read_piece (data : r.onlyData) (wanted : r.conn.toReadSize ≠ 0) (atHand : r.answers = .data bytes :: rest)
    (run : r.read bytes rest = some (size, r')) : ReadsPiece r r' size := by
  obtain ⟨piece, same, present⟩ := data (.data bytes) (by rw [atHand]; exact List.mem_cons_self)
  cases same
  obtain ⟨conn, sunk, made⟩ := Option.map_eq_some_iff.mp run
  cases made
  have bound : 0 < bytes.length := List.length_pos_iff.mpr present
  have some_read : 0 < (bytes.take r.conn.toReadSize).length := by
    rw [List.length_take]
    omega
  have others : ∀ a ∈ rest, ∃ bytes, a = .data bytes ∧ bytes ≠ [] := fun a member =>
    data a (by rw [atHand]; exact List.mem_cons_of_mem _ member)
  unfold sinkSocketRead at sunk
  split at sunk
  · rename_i si' res parsed
    cases sunk
    refine ⟨some_read, by simp, ?_, ?_, sinkCb_primed parsed⟩
    · simp only [Reading.weight, atHand, List.map_cons, List.sum_cons, ReadRes.weight]
      split
      · omega
      · simp only [List.map_cons, List.sum_cons, ReadRes.weight, List.length_drop]
        omega
    · intro a member
      dsimp only at member
      split at member
      · exact others a member
      · rename_i left
        rcases List.mem_cons.mp member with here | later
        · exact ⟨_, here, left⟩
        · exact others a later
  · cases sunk

theorem Reading.read_of_primed (primed : r.conn.si.state ≠ .uninit) (bytes : List UInt8) (rest : List ReadRes) :
    ∃ size r', r.read bytes rest = some (size, r') := by
  obtain ⟨si', res, parsed⟩ := sinkCb_of_primed primed (Memory.store r.readBuf (bytes.take r.conn.toReadSize))
    (bytes.take r.conn.toReadSize).length
  simp only [Reading.read, sinkSocketRead, parsed, Option.map_some]
  exact ⟨_, _, rfl⟩

/-- With only data the answers are used up, or a piece is next. -/
theorem Reading.onlyData.cases (data : r.onlyData) :
    r.answers = [] ∨ ∃ byte bytes rest, r.answers = .data (byte :: bytes) :: rest := by
  cases atHand : r.answers with
  | nil => exact .inl rfl
  | cons a rest =>
    obtain ⟨piece, same, present⟩ := data a (by rw [atHand]; exact List.mem_cons_self)
    obtain ⟨byte, bytes, split⟩ := List.exists_cons_of_ne_nil present
    exact .inr ⟨byte, bytes, rest, by rw [same, split]⟩

theorem Reading.turn_data (wanted : r.conn.toReadSize ≠ 0) (atHand : r.answers = .data bytes :: rest) :
    r.turn = r.read bytes rest := by
  rw [Reading.turn, if_neg wanted, atHand]

theorem Reading.turn_of_no_answers (empty : r.answers = []) : r.turn = none := by
  rw [Reading.turn, empty]
  split <;> rfl

theorem Reading.neverStalls_of_no_turn (stuck : r.turn = none) (accum : Nat) : r.neverStalls accum := by
  intro n r' turns positive
  cases turns with
  | none => exact absurd positive (Nat.lt_irrefl 0)
  | next first _ _ =>
    rw [stuck] at first
    cases first

/-- Whether a reading stalls is seen after the next piece or later. -/
theorem Reading.neverStalls_next (first : r.turn = some (size, r')) (accum : Nat) (positive : 0 < size) :
    r.neverStalls accum ↔ (r'.conn.toReadSize = accum + size → r'.answers = []) ∧ r'.neverStalls (accum + size) := by
  constructor
  · intro never
    refine ⟨fun stalled => never size r' (.next first positive (.none r')) positive stalled, ?_⟩
    intro n r'' turns _ stalled
    exact never (size + n) r'' (.next first positive turns) (by omega) (by omega)
  · rintro ⟨here, later⟩ n r'' turns some_read stalled
    cases turns with
    | none => exact absurd some_read (Nat.lt_irrefl 0)
    | next first' _ turns =>
      rw [first] at first'
      cases first'
      rcases turns with _ | ⟨second, more, turns⟩
      · exact here stalled
      · exact later _ r'' (.next second more turns) (by omega) (by omega)

end Pieces

/-- `socket_read_plain` does not stop before the transport would block. -/
theorem socketReadPlainFrom_consumes {fuel : Nat} {r : Reading} (enough : r.weight < fuel) (data : r.onlyData)
    (primed : r.conn.si.state ≠ .uninit) (accum : Nat) :
    ∃ r' total, socketReadPlainFrom fuel r accum = some (.returned r' total) ∧
      r.conn.consumed.length ≤ r'.conn.consumed.length ∧ (r.answers = [] → r' = r) ∧
      (r.conn.toReadSize ≠ 0 → r.answers ≠ [] → r.conn.consumed.length < r'.conn.consumed.length) := by
  induction fuel generalizing r accum with
  | zero => exact absurd enough (Nat.not_lt_zero _)
  | succ fuel ih =>
    by_cases wanted : r.conn.toReadSize = 0
    · exact ⟨r, accum, by rw [socketReadPlainFrom, if_pos wanted], Nat.le_refl _, fun _ => rfl,
        fun nonzero => absurd wanted nonzero⟩
    rcases data.cases with empty | ⟨byte, bytes, rest, atHand⟩
    · exact ⟨r, accum, by rw [socketReadPlainFrom, if_neg wanted, empty], Nat.le_refl _, fun _ => rfl,
        fun _ present => absurd empty present⟩
    obtain ⟨size, next, sunk⟩ := Reading.read_of_primed primed (byte :: bytes) rest
    have piece := r.read_piece data wanted atHand sunk
    have shorter := piece.weight
    obtain ⟨r', total, run, grown, _, _⟩ := ih (by omega) piece.onlyData piece.primed (accum + size)
    have longer := piece.consumed
    have positive := piece.positive
    have turned : socketReadPlainFrom (fuel + 1) r accum = some (.returned r' total) := by
      rw [socketReadPlainFrom, if_neg wanted, atHand]
      simp only [sunk]
      exact run
    refine ⟨r', total, turned, by omega, fun empty => ?_, fun _ _ => by omega⟩
    rw [atHand] at empty
    cases empty

/-- Both loops return, and they leave the same connection if and only if the reading never stalls. -/
theorem socketReadFrom_agree_iff {fuel : Nat} {r : Reading} (enough : r.weight < fuel) (data : r.onlyData) (accum : Nat) :
    ∃ plain ssl, socketReadPlainFrom fuel r accum = some plain ∧ socketReadSslFrom fuel r accum = some ssl ∧
      (ssl.conn = plain.conn ↔ r.neverStalls accum) := by
  induction fuel generalizing r accum with
  | zero => exact absurd enough (Nat.not_lt_zero _)
  | succ fuel ih =>
    by_cases wanted : r.conn.toReadSize = 0
    · have stuck : r.turn = none := by rw [Reading.turn, if_pos wanted]
      refine ⟨_, _, by rw [socketReadPlainFrom, if_pos wanted], by rw [socketReadSslFrom, if_pos wanted], ?_⟩
      exact iff_of_true rfl (r.neverStalls_of_no_turn stuck accum)
    rcases data.cases with empty | ⟨byte, bytes, rest, atHand⟩
    · refine ⟨_, _, by rw [socketReadPlainFrom, if_neg wanted, empty], by rw [socketReadSslFrom, if_neg wanted, empty], ?_⟩
      exact iff_of_true rfl (r.neverStalls_of_no_turn (r.turn_of_no_answers empty) accum)
    have turn := r.turn_data wanted atHand
    rw [socketReadPlainFrom, socketReadSslFrom, if_neg wanted, if_neg wanted, atHand]
    cases sunk : r.read (byte :: bytes) rest with
    | none =>
      rw [sunk] at turn
      simp only [sunk]
      exact ⟨_, _, rfl, rfl, iff_of_true rfl (r.neverStalls_of_no_turn turn accum)⟩
    | some read =>
      obtain ⟨size, next⟩ := read
      rw [sunk] at turn
      have piece := r.read_piece data wanted atHand sunk
      have shorter := piece.weight
      have positive := piece.positive
      simp only [sunk]
      rw [r.neverStalls_next turn accum positive]
      by_cases stopped : accum + size = next.conn.toReadSize
      · rw [if_pos stopped]
        obtain ⟨r', total, run, _, atEnd, strict⟩ :=
          socketReadPlainFrom_consumes (by omega : next.weight < fuel) piece.onlyData piece.primed (accum + size)
        refine ⟨_, _, run, rfl, ?_⟩
        by_cases empty : next.answers = []
        · rw [atEnd empty]
          exact iff_of_true rfl
            ⟨fun _ => empty, next.neverStalls_of_no_turn (next.turn_of_no_answers empty) (accum + size)⟩
        · have more := strict (by omega) empty
          refine iff_of_false (fun same => ?_) fun never => empty (never.1 stopped.symm)
          have equal : next.conn = r'.conn := Option.some.inj same
          rw [equal] at more
          exact Nat.lt_irrefl _ more
      · rw [if_neg stopped]
        obtain ⟨plain, ssl, first, second, agree⟩ := ih (by omega) piece.onlyData (accum + size)
        refine ⟨plain, ssl, first, second, agree.trans ⟨fun never => ⟨?_, never⟩, fun both => both.2⟩⟩
        exact fun here => absurd here.symm stopped

/-- Whatever the state of the connection and however the bytes come in pieces, one call of `socket_read_ssl` leaves what
one call of `socket_read_plain` leaves if and only if the bytes read in the call are never as many as the parser asks for
next with more of them to read. -/
theorem read_paths_agree_iff (r : Reading) (data : r.onlyData) :
    ∃ plain ssl, socketReadPlain r = some plain ∧ socketReadSsl r = some ssl ∧
      (ssl.conn = plain.conn ↔ r.neverStalls 0) :=
  socketReadFrom_agree_iff (Nat.lt_succ_self _) data 0

/-- A new connection, and a message with so many bytes of protobuf and no value, all of it in one piece. -/
def newReading (length : UInt8) (protobuf : List UInt8) : Reading :=
  { readBuf := fun _ => 0
    conn := (addSocketSink (fun _ => 0) .calloc).getD ⟨.calloc, 0, [], []⟩
    answers := [.data ([70, 0, 0, 0, length, 0, 0, 0, 0] ++ protobuf)] }

theorem newReading_onlyData (length : UInt8) (protobuf : List UInt8) : (newReading length protobuf).onlyData := by
  intro a member
  rw [newReading, List.mem_singleton] at member
  exact ⟨_, member, by simp⟩

theorem read_paths_agree_short : (newReading 2 [8, 1]).onlyData ∧
    ∃ plain ssl, socketReadPlain (newReading 2 [8, 1]) = some plain ∧ socketReadSsl (newReading 2 [8, 1]) = some ssl ∧
      (ssl.conn = plain.conn ↔ (newReading 2 [8, 1]).neverStalls 0) :=
  ⟨newReading_onlyData 2 [8, 1], read_paths_agree_iff _ (newReading_onlyData 2 [8, 1])⟩

/-- A message of nine bytes is as long as its header, and stays in the SSL layer. -/
theorem read_paths_differ_at_nine :
    ∃ plain ssl, socketReadPlain (newReading 9 [1, 2, 3, 4, 5, 6, 7, 8, 9]) = some plain ∧
      socketReadSsl (newReading 9 [1, 2, 3, 4, 5, 6, 7, 8, 9]) = some ssl ∧
      plain.conn.map Connection.events = some [.message 9 0 [1, 2, 3, 4, 5, 6, 7, 8, 9] []] ∧
      ssl.conn.map Connection.events = some [] := by
  have plain : (socketReadPlain (newReading 9 [1, 2, 3, 4, 5, 6, 7, 8, 9])).map (fun o => o.conn.map Connection.events) =
      some (some [.message 9 0 [1, 2, 3, 4, 5, 6, 7, 8, 9] []]) := by decide +kernel
  have ssl : (socketReadSsl (newReading 9 [1, 2, 3, 4, 5, 6, 7, 8, 9])).map (fun o => o.conn.map Connection.events) =
      some (some []) := by decide +kernel
  obtain ⟨p, plainRun, plainEvents⟩ := Option.map_eq_some_iff.mp plain
  obtain ⟨q, sslRun, sslEvents⟩ := Option.map_eq_some_iff.mp ssl
  exact ⟨p, q, plainRun, sslRun, plainEvents, sslEvents⟩

end Kinetic
