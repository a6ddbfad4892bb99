import Kinetic.Sink.Model

namespace Kinetic

def bigEndian (bytes : List UInt8) : Nat := bytes.foldl (fun acc b => acc * 256 + b.toNat) 0

/-- The two lengths of a 9-byte header. -/
def headerLengths (bytes : List UInt8) : Nat × Nat :=
  (bigEndian ((bytes.drop 1).take 4), bigEndian ((bytes.drop 5).take 4))

def validLengths (lengths : Nat × Nat) : Prop := lengths.1 ≤ pduProtoMaxLen ∧ lengths.2 ≤ pduProtoMaxLen

instance (lengths : Nat × Nat) : Decidable (validLengths lengths) := inferInstanceAs (Decidable (_ ∧ _))

/-- The reference parser: headers of nine bytes followed by bodies of the
announced length. It yields the events and the bytes of an unfinished PDU. -/
def parseFuel : Nat → List UInt8 → List SinkEvent × List UInt8
  | 0, bytes => ([], bytes)
  | fuel + 1, bytes =>
    if bytes.length < 9 then ([], bytes)
    else
      let lengths := headerLengths bytes
      let body := bytes.drop 9
      if validLengths lengths then
        if body.length < lengths.1 + lengths.2 then ([], bytes)
        else
          let event := SinkEvent.message lengths.1 lengths.2 (body.take lengths.1) ((body.drop lengths.1).take lengths.2)
          let later := parseFuel fuel (body.drop (lengths.1 + lengths.2))
          (event :: later.1, later.2)
      else
        let later := parseFuel fuel body
        (.invalidHeader :: later.1, later.2)

def parse (bytes : List UInt8) : List SinkEvent × List UInt8 := parseFuel bytes.length bytes

theorem parseFuel_congr {fuel other : Nat} {bytes : List UInt8} (enough : bytes.length ≤ fuel)
    (enoughOther : bytes.length ≤ other) : parseFuel fuel bytes = parseFuel other bytes := by
  induction fuel generalizing other bytes with
  | zero =>
    cases List.eq_nil_of_length_eq_zero (Nat.le_zero.mp enough)
    cases other <;> simp [parseFuel]
  | succ fuel ih =>
    cases other with
    | zero =>
      cases List.eq_nil_of_length_eq_zero (Nat.le_zero.mp enoughOther)
      simp [parseFuel]
    | succ other =>
      by_cases short : bytes.length < 9
      · simp only [parseFuel, short, if_true]
      · have body : parseFuel fuel (bytes.drop 9) = parseFuel other (bytes.drop 9) :=
          ih (by rw [List.length_drop]; omega) (by rw [List.length_drop]; omega)
        have behind (k : Nat) : parseFuel fuel ((bytes.drop 9).drop k) = parseFuel other ((bytes.drop 9).drop k) :=
          ih (by simp only [List.length_drop]; omega) (by simp only [List.length_drop]; omega)
        simp only [parseFuel, short, if_false, body, behind]

theorem parse_short {bytes : List UInt8} (short : bytes.length < 9) : parse bytes = ([], bytes) := by
  unfold parse
  cases bytes with
  | nil => rfl
  | cons b rest => simp only [List.length_cons, parseFuel] at short ⊢; rw [if_pos short]

@[simp] theorem parse_nil : parse [] = ([], []) := rfl

theorem parse_unfold {bytes : List UInt8} (long : 9 ≤ bytes.length) :
    parse bytes =
      if validLengths (headerLengths bytes) then
        if (bytes.drop 9).length < (headerLengths bytes).1 + (headerLengths bytes).2 then ([], bytes)
        else
          (SinkEvent.message (headerLengths bytes).1 (headerLengths bytes).2 ((bytes.drop 9).take (headerLengths bytes).1)
              (((bytes.drop 9).drop (headerLengths bytes).1).take (headerLengths bytes).2) ::
            (parse ((bytes.drop 9).drop ((headerLengths bytes).1 + (headerLengths bytes).2))).1,
            (parse ((bytes.drop 9).drop ((headerLengths bytes).1 + (headerLengths bytes).2))).2)
      else (.invalidHeader :: (parse (bytes.drop 9)).1, (parse (bytes.drop 9)).2) := by
  have fuel : parse bytes = parseFuel (bytes.length + 1) bytes := parseFuel_congr (Nat.le_refl _) (Nat.le_succ _)
  have body : parseFuel bytes.length (bytes.drop 9) = parse (bytes.drop 9) :=
    parseFuel_congr (by rw [List.length_drop]; omega) (Nat.le_refl _)
  have behind (k : Nat) : parseFuel bytes.length ((bytes.drop 9).drop k) = parse ((bytes.drop 9).drop k) :=
    parseFuel_congr (by simp only [List.length_drop]; omega) (Nat.le_refl _)
  rw [fuel]
  simp only [parseFuel, Nat.not_lt.mpr long, if_false, body, behind]

theorem headerLengths_append {bytes : List UInt8} (long : 9 ≤ bytes.length) (more : List UInt8) :
    headerLengths (bytes ++ more) = headerLengths bytes := by
  unfold headerLengths
  rw [List.drop_append_of_le_length (by omega), List.drop_append_of_le_length (by omega),
    List.take_append_of_le_length (by rw [List.length_drop]; omega),
    List.take_append_of_le_length (by rw [List.length_drop]; omega)]

/-- Parsing can be cut anywhere: the bytes left over are all that matters later. -/
theorem parse_append (bytes more : List UInt8) :
    parse (bytes ++ more) = ((parse bytes).1 ++ (parse ((parse bytes).2 ++ more)).1, (parse ((parse bytes).2 ++ more)).2) := by
  obtain ⟨n, bound⟩ : ∃ n, bytes.length ≤ n := ⟨_, (Nat.le_refl _)⟩
  induction n generalizing bytes with
  | zero =>
    cases List.eq_nil_of_length_eq_zero (Nat.le_zero.mp bound)
    simp [parse_short]
  | succ n ih =>
    by_cases short : bytes.length < 9
    · simp [parse_short short]
    · have long : 9 ≤ bytes.length := by omega
      have longer : 9 ≤ (bytes ++ more).length := by rw [List.length_append]; omega
      have tail : (bytes ++ more).drop 9 = bytes.drop 9 ++ more := List.drop_append_of_le_length long
      rw [parse_unfold long]
      by_cases valid : validLengths (headerLengths bytes)
      · by_cases unfinished : (bytes.drop 9).length < (headerLengths bytes).1 + (headerLengths bytes).2
        · simp only [valid, unfinished, if_true, List.nil_append]
        · have later := ih ((bytes.drop 9).drop ((headerLengths bytes).1 + (headerLengths bytes).2))
            (by simp only [List.length_drop]; omega)
          have complete : ¬ (bytes.drop 9 ++ more).length < (headerLengths bytes).1 + (headerLengths bytes).2 := by
            rw [List.length_append]; omega
          have behind : (bytes.drop 9 ++ more).drop ((headerLengths bytes).1 + (headerLengths bytes).2) =
              (bytes.drop 9).drop ((headerLengths bytes).1 + (headerLengths bytes).2) ++ more :=
            List.drop_append_of_le_length (by omega)
          have protobuf : (bytes.drop 9 ++ more).take (headerLengths bytes).1 =
              (bytes.drop 9).take (headerLengths bytes).1 := List.take_append_of_le_length (by omega)
          have value : ((bytes.drop 9 ++ more).drop (headerLengths bytes).1).take (headerLengths bytes).2 =
              ((bytes.drop 9).drop (headerLengths bytes).1).take (headerLengths bytes).2 := by
            rw [List.drop_append_of_le_length (by omega),
              List.take_append_of_le_length (by rw [List.length_drop]; omega)]
          rw [parse_unfold longer, headerLengths_append long, tail, if_pos valid, if_pos valid, if_neg complete,
            if_neg unfinished, behind, protobuf, value, later]
          rfl
      · have later := ih (bytes.drop 9) (by rw [List.length_drop]; omega)
        rw [parse_unfold longer, headerLengths_append long, tail, if_neg valid, if_neg valid, later]
        rfl

end Kinetic
