import StepSequencer.Steps

/-!
# The values of steps

The value of a step is a small number whatever the text of its pattern is: the highest note is the B
of octave nine. Texts of rests, triggers and accents alone are decoded character by character, so
steps of these three kinds have a text that is decoded as the steps.
-/
namespace StepSequencer.Steps

/-! ### The range of step values -/

/-- A decimal digit is at most nine. -/
theorem decimalValue?_le {c : Char} {d : Nat} (digit : Text.decimalValue? c = some d) : d ≤ 9 := by
  unfold Text.decimalValue? at digit
  split at digit
  · next range =>
    have bounds : 48 ≤ c.toNat ∧ c.toNat ≤ 57 := range
    have value := Option.some.inj digit
    omega
  · contradiction

/-- The semitone of a name is within an octave. -/
theorem semitone?_range {name : List Char} {semitone : Int}
    (known : semitone? name = some semitone) : 0 ≤ semitone ∧ semitone ≤ 11 := by
  unfold semitone? at known
  split at known
  case h_18 => contradiction
  all_goals
    obtain rfl := Option.some.inj known
    decide

/-- The number of a note of octaves zero to nine. -/
theorem noteNumber_range (name : List Char) {octave : Int} (low : 0 ≤ octave) (high : octave ≤ 9) :
    12 ≤ noteNumber name octave ∧ noteNumber name octave ≤ 131 := by
  have semitone : 0 ≤ (semitone? (name.map Char.toUpper)).getD 0 ∧
      (semitone? (name.map Char.toUpper)).getD 0 ≤ 11 := by
    cases known : semitone? (name.map Char.toUpper) with
    | none => decide
    | some semitone => exact semitone?_range known
  unfold noteNumber
  omega

/-- A note is within the octaves from 0 to 9. -/
theorem note?_range {letter : Char} {tail : List Char} {value : Int}
    (note : note? letter tail = some value) : 12 ≤ value ∧ value ≤ 131 := by
  have octave {c : Char} {name : List Char}
      (spelled : Option.map (fun d => noteNumber name d) (Text.decimalValue? c) = some value) :
      12 ≤ value ∧ value ≤ 131 := by
    obtain ⟨number, digit, rfl⟩ := Option.map_eq_some_iff.mp spelled
    obtain ⟨d, known, same⟩ := Option.bind_eq_some_iff.mp digit
    obtain rfl : (d : Int) = number := Option.some.inj same
    have bound := decimalValue?_le known
    exact noteNumber_range name (by omega) (by omega)
  unfold note? at note
  split at note
  · exact octave note
  · split at note
    · exact octave note
    · contradiction
  · contradiction

/-- A character that is no note has a value of seven bits. -/
theorem plainValue_range (c : Char) : 0 ≤ plainValue c ∧ plainValue c ≤ 127 := by
  unfold plainValue
  split
  · decide
  · split
    · decide
    · cases digit : Text.decimalValue? c with
      | none => decide
      | some d =>
        have bound := decimalValue?_le digit
        rw [Option.getD_some]
        omega

/-- The values of a text are not above the highest note. -/
theorem values_range (positions : Nat) (text : List Char) :
    ∀ value ∈ values positions text, 0 ≤ value ∧ value ≤ 131 := by
  fun_induction values positions text with
  | case1 => exact List.forall_mem_nil _
  | case2 positions ih => exact List.forall_mem_cons.mpr ⟨by decide, ih⟩
  | case3 positions c cs tail note found ih =>
    refine List.forall_mem_cons.mpr ⟨?_, ih⟩
    split at found
    · have range := note?_range found
      omega
    · contradiction
  | case4 positions c cs tail found ih =>
    have range := plainValue_range c
    exact List.forall_mem_cons.mpr ⟨by omega, ih⟩

/-- A step of a bar is one of those given, or a rest. -/
theorem mem_fit {steps : List Int} {value : Int} (member : value ∈ fit steps) :
    value ∈ steps ∨ value = rest := by
  rcases List.mem_append.mp (List.mem_of_mem_take member) with given | filled
  · exact .inl given
  · exact .inr (List.eq_of_mem_replicate filled)

/-- The step values of any text. -/
theorem decode_range (text : List Char) :
    ∀ value ∈ decode text, 0 ≤ value ∧ value ≤ 131 := by
  intro value member
  rcases mem_fit member with given | rfl
  · exact values_range stepCount text value given
  · decide

/-! ### Rests, triggers and accents -/

/-- The characters that stand for a rest, a trigger and an accent. -/
def marks : List Char := ['.', 'x', 'X']

/-- The character of a value stands for it. -/
theorem triggerChar?_eq_some_iff {value : Int} {c : Char} :
    triggerChar? value = some c ↔ c ∈ marks ∧ plainValue c = value := by
  constructor
  · intro spelled
    unfold triggerChar? at spelled
    split at spelled
    · next same =>
      obtain rfl := Option.some.inj spelled
      exact ⟨by decide, same.symm⟩
    · split at spelled
      · next same =>
        obtain rfl := Option.some.inj spelled
        exact ⟨by decide, same.symm⟩
      · split at spelled
        · next same =>
          obtain rfl := Option.some.inj spelled
          exact ⟨by decide, same.symm⟩
        · contradiction
  · rintro ⟨mark, rfl⟩
    have all : marks.all (fun c => triggerChar? (plainValue c) == some c) = true := by decide
    exact beq_iff_eq.mp (List.all_eq_true.mp all c mark)

/-- Steps have a text of marks exactly when that text has their values, one character a step. -/
theorem encodeTriggers?_eq_some_iff {steps : List Int} {text : List Char} :
    encodeTriggers? steps = some text ↔
      (∀ c ∈ text, c ∈ marks) ∧ text.map plainValue = steps := by
  unfold encodeTriggers?
  induction steps generalizing text with
  | nil =>
    rw [List.mapM_nil]
    constructor
    · intro empty
      obtain rfl := Option.some.inj empty
      exact ⟨List.forall_mem_nil _, rfl⟩
    · rintro ⟨_, empty⟩
      rw [List.map_eq_nil_iff.mp empty]
      rfl
  | cons value steps ih =>
    rw [List.mapM_cons]
    constructor
    · intro encoded
      obtain ⟨c, first, encoded⟩ := Option.bind_eq_some_iff.mp encoded
      obtain ⟨rest, others, same⟩ := Option.bind_eq_some_iff.mp encoded
      obtain rfl := Option.some.inj same
      obtain ⟨mark, means⟩ := triggerChar?_eq_some_iff.mp first
      obtain ⟨marked, mean⟩ := ih.mp others
      exact ⟨List.forall_mem_cons.mpr ⟨mark, marked⟩, by rw [List.map_cons, means, mean]⟩
    · rintro ⟨marked, means⟩
      cases text with
      | nil => exact absurd means.symm (List.cons_ne_nil value steps)
      | cons c text =>
        obtain ⟨first, others⟩ := List.cons.inj means
        obtain ⟨mark, later⟩ := List.forall_mem_cons.mp marked
        have head := triggerChar?_eq_some_iff.mpr ⟨mark, first⟩
        have tail := ih.mpr ⟨later, others⟩
        rw [head, tail]
        rfl

/-- Steps of rests, triggers and accents can be written with marks. -/
theorem exists_marks {steps : List Int}
    (plain : ∀ value ∈ steps, value = rest ∨ value = trigger ∨ value = accent) :
    ∃ text : List Char, (∀ c ∈ text, c ∈ marks) ∧ text.map plainValue = steps := by
  induction steps with
  | nil => exact ⟨[], List.forall_mem_nil _, rfl⟩
  | cons value steps ih =>
    obtain ⟨first, others⟩ := List.forall_mem_cons.mp plain
    obtain ⟨text, marked, rfl⟩ := ih others
    have more {c : Char} (mark : c ∈ marks) (means : plainValue c = value) :
        ∃ longer : List Char, (∀ c ∈ longer, c ∈ marks) ∧
          longer.map plainValue = value :: text.map plainValue :=
      ⟨c :: text, List.forall_mem_cons.mpr ⟨mark, marked⟩, congrArg (· :: _) means⟩
    have dot : '.' ∈ marks := by decide
    have small : 'x' ∈ marks := by decide
    have large : 'X' ∈ marks := by decide
    rcases first with rfl | rfl | rfl
    · exact more dot rfl
    · exact more small rfl
    · exact more large rfl

/-- A mark is a rest, a trigger or an accent. -/
theorem plainValue_mark {c : Char} (mark : c ∈ marks) :
    plainValue c = rest ∨ plainValue c = trigger ∨ plainValue c = accent := by
  have all : marks.all (fun c => [rest, trigger, accent].contains (plainValue c)) = true := by
    decide
  have among := List.contains_iff_mem.mp (List.all_eq_true.mp all c mark)
  simpa using among

/-- Steps that are all rests, triggers or accents have a text, and no others have one. -/
theorem encodeTriggers?_isSome_iff {steps : List Int} :
    (encodeTriggers? steps).isSome = true ↔
      ∀ value ∈ steps, value = rest ∨ value = trigger ∨ value = accent := by
  constructor
  · intro spelled
    obtain ⟨text, found⟩ := Option.isSome_iff_exists.mp spelled
    obtain ⟨marked, rfl⟩ := encodeTriggers?_eq_some_iff.mp found
    intro value member
    obtain ⟨c, inside, rfl⟩ := List.mem_map.mp member
    exact plainValue_mark (marked c inside)
  · intro plain
    obtain ⟨text, marks⟩ := exists_marks plain
    rw [encodeTriggers?_eq_some_iff.mpr marks]
    rfl

/-- A mark is not the letter of a note. -/
theorem isNoteLetter_mark {c : Char} (mark : c ∈ marks) : isNoteLetter c = false := by
  have all : marks.all (fun c => !isNoteLetter c) = true := by decide
  exact (Bool.not_eq_true' _).mp (List.all_eq_true.mp all c mark)

/-- A text of marks is decoded character by character. -/
theorem values_marks (positions : Nat) {text : List Char} (marked : ∀ c ∈ text, c ∈ marks) :
    values positions text =
      (text.map plainValue ++ List.replicate (positions - text.length) rest).take positions := by
  fun_induction values positions text with
  | case1 => rw [List.take_zero]
  | case2 positions ih =>
    rw [ih marked]
    simp [List.replicate_succ]
  | case3 positions c cs tail note found ih =>
    have other := isNoteLetter_mark (marked c List.mem_cons_self)
    rw [dif_neg (by rw [other]; exact Bool.false_ne_true)] at found
    contradiction
  | case4 positions c cs tail found ih =>
    have later := ih (List.forall_mem_cons.mp marked).2
    have missing : positions.succ - (c :: cs).length = positions - cs.length :=
      Nat.succ_sub_succ positions cs.length
    rw [later, missing, List.map_cons, List.cons_append, List.take_succ_cons]

/-- Steps that fill a bar are left alone. -/
theorem fit_of_length {steps : List Int} (full : steps.length = stepCount) : fit steps = steps := by
  rw [fit, full, Nat.sub_self, List.replicate_zero, List.append_nil, ← full, List.take_length]

/-- A text of marks is decoded character by character. -/
theorem decode_marks {text : List Char} (marked : ∀ c ∈ text, c ∈ marks) :
    decode text = fit (text.map plainValue) := by
  have values : values stepCount text = fit (text.map plainValue) := by
    rw [values_marks stepCount marked, fit, List.length_map]
  rw [decode, values, fit_of_length (length_fit _)]

/-- The text of sixteen steps is decoded as the steps. -/
theorem decode_of_encodeTriggers? {steps : List Int} (full : steps.length = stepCount)
    {text : List Char} (spelled : encodeTriggers? steps = some text) : decode text = steps := by
  obtain ⟨marked, means⟩ := encodeTriggers?_eq_some_iff.mp spelled
  rw [decode_marks marked, means, fit_of_length full]

end StepSequencer.Steps
