import StepSequencer.Pack
import StepSequencer.Proofs.Steps

/-!
# Two grammars for step texts

The texts of patterns and those of packs are read by different rules: a pattern has a value for each
of its first sixteen characters and lets notes take several of them, a pack has values until there
are sixteen of them and writes bytes as two hexadecimal digits. On rests, triggers and accents the
two agree, character by character, so the text of trigger steps may be used in either place.
-/
namespace StepSequencer

namespace Steps

/-- A text of exactly sixteen characters: rests fill what is missing, and what is beyond is cut
off. -/
def fitText (text : List Char) : List Char :=
  (text ++ List.replicate (stepCount - text.length) '.').take stepCount

/-- What is beyond sixteen steps may be cut off before. -/
theorem fit_take (steps : List Int) : fit (steps.take stepCount) = fit steps := by
  by_cases long : stepCount ≤ steps.length
  · have full : (steps.take stepCount).length = stepCount := List.length_take_of_le long
    rw [fit_of_length full, fit, List.take_append_of_le_length long]
  · rw [List.take_of_length_le (by omega)]

/-- A text is fitted before or after its characters are read. -/
theorem map_fitText (text : List Char) :
    (fitText text).map plainValue = fit (text.map plainValue) := by
  have silent : plainValue '.' = rest := rfl
  rw [fitText, List.map_take, List.map_append, List.map_replicate, silent, fit, List.length_map]

/-- Fitting a text of marks leaves marks. -/
theorem fitText_marks {text : List Char} (marked : ∀ c ∈ text, c ∈ marks) :
    ∀ c ∈ fitText text, c ∈ marks := by
  intro c member
  rcases List.mem_append.mp (List.mem_of_mem_take member) with given | filled
  · exact marked c given
  · rw [List.eq_of_mem_replicate filled]
    exact List.mem_cons_self

end Steps

namespace Demo

/-- A mark is one value. -/
theorem values_cons_mark {c : Char} (mark : c ∈ Steps.marks) (cs : List Char) (room : Nat) :
    values (c :: cs) (room + 1) = Steps.plainValue c :: values cs room := by
  have either : c = '.' ∨ c = 'x' ∨ c = 'X' := by simpa [Steps.marks] using mark
  rcases either with rfl | rfl | rfl <;> cases cs <;> rfl

/-- A text of marks has a value for each character, as long as there is room. -/
theorem values_marks {text : List Char} (marked : ∀ c ∈ text, c ∈ Steps.marks) (room : Nat) :
    values text room = (text.map Steps.plainValue).take room := by
  induction text generalizing room with
  | nil => rw [values, List.map_nil, List.take_nil]
  | cons c text ih =>
    obtain ⟨mark, others⟩ := List.forall_mem_cons.mp marked
    cases room with
    | zero =>
      rw [values, List.take_zero]
      exact List.cons_ne_nil c text
    | succ room =>
      rw [values_cons_mark mark, ih others, List.map_cons, List.take_succ_cons]

/-- A text of marks is decoded character by character. -/
theorem decode_marks {text : List Char} (marked : ∀ c ∈ text, c ∈ Steps.marks) :
    decode text = Steps.fit (text.map Steps.plainValue) := by
  rw [decode, values_marks marked, Steps.fit_take]

end Demo

namespace Steps

/-- Texts of marks are the same steps in patterns and packs, and their own spelling up to the
sixteenth character. Sixteen values have a text exactly when they are rests, triggers and accents,
and both grammars read them back from it. So a text that can be spelled by marks has the steps of
that spelling. -/
theorem marks_agree :
    (∀ text : List Char, (∀ c ∈ text, c ∈ ['x', 'X', '.']) →
      decode text = Demo.decode text ∧ encodeTriggers? (decode text) = some (fitText text)) ∧
    (∀ steps : List Int, steps.length = 16 →
      ((encodeTriggers? steps).isSome = true ↔ ∀ value ∈ steps, value ∈ [0, 1, 127]) ∧
        ∀ text, encodeTriggers? steps = some text →
          decode text = steps ∧ Demo.decode text = steps) ∧
    ∀ text spelled : List Char, encodeTriggers? (decode text) = some spelled →
      decode spelled = decode text := by
  refine ⟨?_, ?_, ?_⟩
  · intro text plain
    have marked : ∀ c ∈ text, c ∈ marks := fun c member => by
      simpa [marks, or_comm, or_assoc] using plain c member
    have read : decode text = fit (text.map plainValue) := decode_marks marked
    refine ⟨read.trans (Demo.decode_marks marked).symm, ?_⟩
    rw [encodeTriggers?_eq_some_iff, read]
    exact ⟨fitText_marks marked, map_fitText text⟩
  · intro steps full
    refine ⟨?_, ?_⟩
    · rw [encodeTriggers?_isSome_iff]
      simp [rest, trigger, accent]
    · intro text spelled
      obtain ⟨marked, means⟩ := encodeTriggers?_eq_some_iff.mp spelled
      refine ⟨decode_of_encodeTriggers? full spelled, ?_⟩
      rw [Demo.decode_marks marked, means, fit_of_length full]
  · intro text spelled encoded
    exact decode_of_encodeTriggers? (length_decode text) encoded

/-- A text beyond the sixteenth character, sixteen steps of the three kinds, and a text whose
spelling by marks is another text. -/
theorem marks_agree_spelled :
    let long := "x.X..x.X..x.X..x.X".toList
    let steps : List Int := [1, 0, 127] ++ List.replicate 13 0
    decode long = Demo.decode long ∧
      encodeTriggers? (decode long) = some "x.X..x.X..x.X..x".toList ∧
      encodeTriggers? steps = some "x.X.............".toList ∧
      Demo.decode "x.X.............".toList = steps ∧
      decode "x.X.............".toList = decode "1-X Cb".toList := by
  intro long steps
  have plain := marks_agree.1 long fun c member => List.contains_iff_mem.mp
    (List.all_eq_true.mp (show (long.all fun c => ['x', 'X', '.'].contains c) = true by decide) c
      member)
  have spelled : encodeTriggers? steps = some "x.X.............".toList := by decide +kernel
  have back := (marks_agree.2.1 steps (by decide)).2 _ spelled
  have mixed : encodeTriggers? (decode "1-X Cb".toList) = some "x.X.............".toList := by
    decide +kernel
  exact ⟨plain.1, plain.2, spelled, back.2, marks_agree.2.2 _ _ mixed⟩

end Steps

end StepSequencer
