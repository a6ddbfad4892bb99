import Kinetic.Sink.Tracks

namespace Kinetic
open Memory Transition

section Chunk
variable {c : Connection} {readBuf : Nat → UInt8} {chunk : List UInt8}

/-- What the reference parser makes of the consumed bytes and one more chunk. -/
theorem parse_chunk {consumed rest : List UInt8} {events : List SinkEvent}
    (parsed : parse consumed = (events, rest)) (chunk : List UInt8) :
    parse (consumed ++ chunk) = (events ++ (parse (rest ++ chunk)).1, (parse (rest ++ chunk)).2) := by
  rw [parse_append, parsed]

theorem InHeader.read {rest : List UInt8} (header : InHeader c.si rest) (parsed : parse c.consumed = (c.events, rest))
    (before : emptyMessage ∉ c.events) (arrived : load readBuf 0 chunk.length = chunk) (within : (rest ++ chunk).length ≤ 9) :
    ∃ c', sinkSocketRead readBuf c chunk = some c' ∧ (Tracks c' ∨ Starved c') := by
  have later := parse_chunk parsed chunk
  rcases Nat.lt_or_eq_of_le within with part | full
  · obtain ⟨si', sunk, next⟩ := header.sink_part arrived part
    rw [parse_short part, List.append_nil] at later
    refine ⟨⟨si', 9 - (rest ++ chunk).length, c.consumed ++ chunk, c.events⟩, ?_, Or.inl ⟨_, later, before, Or.inl ⟨next, rfl⟩⟩⟩
    simp [sinkSocketRead, sunk]
  · have unfolded := parse_unfold (Nat.le_of_eq full.symm)
    have nothing : (rest ++ chunk).drop 9 = [] := List.drop_of_length_le within
    rcases header.sink_end arrived full with ⟨valid, si', sunk, next⟩ | ⟨invalid, si', sunk, next, event⟩
    · refine ⟨⟨si', (headerLengths (rest ++ chunk)).1 + (headerLengths (rest ++ chunk)).2, c.consumed ++ chunk, c.events⟩,
        ?_, ?_⟩
      · simp [sinkSocketRead, sunk]
      · rw [if_pos valid, nothing, List.length_nil] at unfolded
        rcases Nat.eq_zero_or_pos ((headerLengths (rest ++ chunk)).1 + (headerLengths (rest ++ chunk)).2) with none | some
        · have first : (headerLengths (rest ++ chunk)).1 = 0 := by omega
          have second : (headerLengths (rest ++ chunk)).2 = 0 := by omega
          refine Or.inr ⟨none, ?_⟩
          rw [later, unfolded, if_neg (by omega), first, second]
          simp [emptyMessage]
        · rw [unfolded, if_pos some, List.append_nil] at later
          refine Or.inl ⟨_, later, before, Or.inr ⟨next some, ?_⟩⟩
          rw [nothing]
          rfl
    · rw [unfolded, if_neg invalid, nothing, parse_nil] at later
      refine ⟨⟨si', 9, c.consumed ++ chunk, c.events ++ [.invalidHeader]⟩, ?_,
        Or.inl ⟨[], later, ?_, Or.inl ⟨next, rfl⟩⟩⟩
      · simp [sinkSocketRead, sunk, event]
      · simp only [List.mem_append, List.mem_singleton, not_or]
        exact ⟨before, by decide⟩

theorem InBody.read {rest : List UInt8} (body : InBody c.si rest) (parsed : parse c.consumed = (c.events, rest))
    (before : emptyMessage ∉ c.events) (arrived : load readBuf 0 chunk.length = chunk)
    (within : (rest.drop 9 ++ chunk).length ≤ (headerLengths rest).1 + (headerLengths rest).2) :
    ∃ c', sinkSocketRead readBuf c chunk = some c' ∧ Tracks c' := by
  have later := parse_chunk parsed chunk
  have long : 9 ≤ (rest ++ chunk).length := by
    rw [List.length_append]
    exact Nat.le_trans body.long (Nat.le_add_right _ _)
  have behind : (rest ++ chunk).drop 9 = rest.drop 9 ++ chunk := List.drop_append_of_le_length body.long
  have lengths : headerLengths (rest ++ chunk) = headerLengths rest := headerLengths_append body.long chunk
  have unfolded := parse_unfold long
  rw [lengths, behind, if_pos body.valid] at unfolded
  rcases body.sink arrived within with ⟨part, si', sunk, next⟩ | ⟨full, si', sunk, next, event⟩
  · rw [unfolded, if_pos part, List.append_nil] at later
    refine ⟨⟨si', (headerLengths rest).1 + (headerLengths rest).2 - (rest.drop 9 ++ chunk).length, c.consumed ++ chunk,
      c.events⟩, ?_, _, later, before, Or.inr ⟨next, ?_⟩⟩
    · simp [sinkSocketRead, sunk]
    · rw [lengths, behind]
  · have nothing : (rest.drop 9 ++ chunk).drop ((headerLengths rest).1 + (headerLengths rest).2) = [] :=
      List.drop_of_length_le (Nat.le_of_eq full)
    rw [unfolded, if_neg (by omega), nothing, parse_nil] at later
    refine ⟨⟨si', 9, c.consumed ++ chunk, c.events ++ [si'.event]⟩, ?_, [], ?_, ?_, Or.inl ⟨next, rfl⟩⟩
    · simp [sinkSocketRead, sunk]
    · rw [event]
      exact later
    · have unfinished := body.unfinished
      have nonempty : emptyMessage ≠ si'.event := by
        rw [event]
        intro same
        simp only [emptyMessage, SinkEvent.message.injEq] at same
        omega
      simp only [List.mem_append, List.mem_singleton, not_or]
      exact ⟨before, nonempty⟩

/-- One read of a chunk that fits the requested size keeps the connection in step with the reference parser,
unless the chunk ends the header of an empty PDU. -/
theorem Tracks.read (tracks : Tracks c) (arrived : load readBuf 0 chunk.length = chunk)
    (within : chunk.length ≤ c.toReadSize) :
    ∃ c', sinkSocketRead readBuf c chunk = some c' ∧ (Tracks c' ∨ Starved c') := by
  obtain ⟨rest, parsed, before, ⟨header, size⟩ | ⟨body, size⟩⟩ := tracks
  · have short := header.short
    exact header.read parsed before arrived (by rw [List.length_append]; omega)
  · have unfinished := body.unfinished
    obtain ⟨c', run, next⟩ := body.read parsed before arrived (by rw [List.length_append]; omega)
    exact ⟨c', run, Or.inl next⟩

end Chunk

theorem addSocketSink_tracks (readBuf : Nat → UInt8) : ∃ c, addSocketSink readBuf .calloc = some c ∧ Tracks c :=
  ⟨_, rfl, [], rfl, by simp, Or.inl ⟨⟨rfl, by decide, rfl, rfl⟩, rfl⟩⟩

/-- Every registered socket is in step with the reference parser of its own stream, or starved. -/
def ReadSide.InStep (l : ReadSide) : Prop := ∀ fd c, l.conns fd = some c → Tracks c ∨ Starved c

theorem ReadSide.InStep.update {conns : Nat → Option Connection} {readBuf readBuf' : Nat → UInt8}
    (inStep : InStep ⟨readBuf, conns⟩) (fd : Nat) {c : Connection} (new : Tracks c ∨ Starved c) :
    InStep ⟨readBuf', Function.update conns fd (some c)⟩ := by
  intro other d found
  by_cases same : other = fd
  · subst other
    simp only [Function.update_self, Option.some.injEq] at found
    exact found ▸ new
  · simp only [Function.update_of_ne same] at found
    exact inStep other d found

theorem ReadSide.InStep.step {l l' : ReadSide} {label : ReadLabel} (inStep : l.InStep)
    (taken : readStep l label = some l') : l'.InStep := by
  cases label with
  | add fd =>
    obtain ⟨c, run, tracks⟩ := addSocketSink_tracks l.readBuf
    simp only [readStep] at taken
    split at taken
    · cases taken
    · simp only [run, Option.map_some, Option.some.injEq] at taken
      subst taken
      exact inStep.update fd (Or.inl tracks)
  | read fd chunk =>
    simp only [readStep] at taken
    split at taken
    · cases taken
    · rename_i c found
      split at taken
      · rename_i request
        rcases inStep fd c found with tracks | starved
        · obtain ⟨c', run, next⟩ := tracks.read (load_store l.readBuf chunk) request.2.2
          simp only [run, Option.map_some, Option.some.injEq] at taken
          subst taken
          exact inStep.update fd next
        · exact absurd starved.1 (Nat.pos_iff_ne_zero.mp request.1)
      · cases taken

section Runs
variable {readBuf : Nat → UInt8} {l : ReadSide}

theorem ReadSide.reach_inStep (reach : Reach readStep (ReadSide.empty readBuf) (fun _ _ => True) l) : l.InStep :=
  reach.invariant (fun _ _ found => by cases found) fun _ _ _ inStep _ taken => inStep.step taken

theorem Tracks.events {c : Connection} (tracks : Tracks c) :
    c.events = (parse c.consumed).1 ∧ emptyMessage ∉ (parse c.consumed).1 := by
  obtain ⟨rest, parsed, before, _⟩ := tracks
  rw [parsed]
  exact ⟨rfl, before⟩

theorem Starved.events {c : Connection} (starved : Starved c) :
    c.events ≠ (parse c.consumed).1 ∧ emptyMessage ∈ (parse c.consumed).1 := by
  rw [starved.2]
  exact ⟨by simp, by simp⟩

/-- Whatever sockets share the listener and however their streams are cut and interleaved, the events of a
socket are those of the reference parser on the bytes read from that socket, in which no PDU is empty. -/
theorem sink_parses_stream (reach : Reach readStep (ReadSide.empty readBuf) (fun _ _ => True) l) {fd : Nat} {c : Connection}
    (registered : l.conns fd = some c) (nonempty : ∀ event ∈ (parse c.consumed).1, event ≠ emptyMessage) :
    c.events = (parse c.consumed).1 := by
  rcases ReadSide.reach_inStep reach fd c registered with tracks | starved
  · exact tracks.events.1
  · exact absurd rfl (nonempty emptyMessage starved.events.2)

/-- Two sockets whose reads alternate; on the first a header is cut in two and a bad header follows the PDU. -/
theorem sink_parses_stream_interleaved :
    ∃ l c, Reach readStep (ReadSide.empty fun _ => 0) (fun _ _ => True) l ∧ l.conns 3 = some c ∧
      c.events = (parse c.consumed).1 ∧ c.events = [.message 1 2 [7] [8, 9], .invalidHeader] := by
  have run : ((exec readStep (fun _ _ => true) (ReadSide.empty fun _ => 0)
      [.add 3, .add 4, .read 3 [70, 0, 0, 0], .read 4 [70, 0, 0], .read 3 [1, 0, 0, 0, 2], .read 3 [7, 8],
        .read 4 [0, 1, 0, 0, 0, 0], .read 3 [9], .read 4 [5], .read 3 [0, 255, 255, 255, 255, 0, 0, 0, 0]]).bind
      fun l => (l.conns 3).map fun c => (parse c.consumed).1) = some [.message 1 2 [7] [8, 9], .invalidHeader] := by
    decide +kernel
  obtain ⟨l, taken, found⟩ := Option.bind_eq_some_iff.mp run
  obtain ⟨c, registered, parsed⟩ := Option.map_eq_some_iff.mp found
  have reach : Reach readStep (ReadSide.empty fun _ => 0) (fun _ _ => True) l :=
    Reach.start.exec (fun _ _ _ => trivial) taken
  have same := sink_parses_stream reach registered (by rw [parsed]; decide)
  exact ⟨l, c, reach, registered, same, same.trans parsed⟩

/-- A registered socket goes on asking for bytes and has emitted all complete PDUs
read so far exactly when none of them is empty. -/
theorem sink_not_wedged_iff (reach : Reach readStep (ReadSide.empty readBuf) (fun _ _ => True) l) {fd : Nat}
    {c : Connection} (registered : l.conns fd = some c) :
    (0 < c.toReadSize ∧ c.events = (parse c.consumed).1) ↔ emptyMessage ∉ (parse c.consumed).1 := by
  rcases ReadSide.reach_inStep reach fd c registered with tracks | starved
  · exact ⟨fun _ => tracks.events.2, fun _ => ⟨tracks.toReadSize_pos, tracks.events.1⟩⟩
  · exact ⟨fun wedged => absurd wedged.2 starved.events.1, fun nonempty => absurd starved.events.2 nonempty⟩

/-- A socket on which a PDU with a three-byte body has been read. -/
theorem sink_not_wedged_after_message :
    ∃ l c, Reach readStep (ReadSide.empty fun _ => 0) (fun _ _ => True) l ∧ l.conns 3 = some c ∧
      0 < c.toReadSize ∧ c.events = (parse c.consumed).1 := by
  have run : ∃ l, exec readStep (fun _ _ => true) (ReadSide.empty fun _ => 0)
      [.add 3, .read 3 [70, 0, 0, 0, 1, 0, 0, 0, 2], .read 3 [7, 8, 9]] = some l ∧
      ∃ c, l.conns 3 = some c ∧ emptyMessage ∉ (parse c.consumed).1 := ⟨_, rfl, _, rfl, by decide⟩
  obtain ⟨l, taken, c, registered, nonempty⟩ := run
  have reach : Reach readStep (ReadSide.empty fun _ => 0) (fun _ _ => True) l :=
    Reach.start.exec (fun _ _ _ => trivial) taken
  exact ⟨l, c, reach, registered, (sink_not_wedged_iff reach registered).mpr nonempty⟩

/-- A header whose two lengths are 0 is a complete PDU, but it is not emitted and nothing more is asked for. -/
theorem sink_wedged_by_empty_message :
    ∃ l c, Reach readStep (ReadSide.empty fun _ => 0) (fun _ _ => True) l ∧ l.conns 3 = some c ∧
      c.toReadSize = 0 ∧ c.events = [] ∧ (parse c.consumed).1 = [.message 0 0 [] []] := by
  have run : ∃ l, exec readStep (fun _ _ => true) (ReadSide.empty fun _ => 0)
      [.add 3, .read 3 [70, 0, 0, 0, 0, 0, 0, 0, 0]] = some l ∧
      ∃ c, l.conns 3 = some c ∧ c.toReadSize = 0 ∧ c.events = [] ∧ (parse c.consumed).1 = [.message 0 0 [] []] :=
    ⟨_, rfl, _, rfl, by decide⟩
  obtain ⟨l, taken, c, registered, wedged⟩ := run
  exact ⟨l, c, Reach.start.exec (fun _ _ _ => trivial) taken, registered, wedged⟩

end Runs

end Kinetic
