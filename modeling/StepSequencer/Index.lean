/-!
# Indices

An index gives values to names and remembers the order in which the names were first given. The
laws of `put` say what it does to the names and to each value.
-/
namespace StepSequencer

/-- Names with their values, in the order of the first definition of each name. -/
abbrev Index (α : Type) := List (String × α)

namespace Index

variable {α : Type}

/-- Give a value to a name: a new name goes last, a known one keeps its place. -/
def put : Index α → String → α → Index α
  | [], name, value => [(name, value)]
  | (known, old) :: rest, name, value =>
    if known = name then (name, value) :: rest else (known, old) :: put rest name value

/-- The value of a name. -/
def get? (index : Index α) (name : String) : Option α := List.lookup name index

/-- The names in order. -/
def names (index : Index α) : List String := index.map Prod.fst

/-- The index of a list of definitions: the last definition of a name counts. -/
def ofList (definitions : List (String × α)) : Index α :=
  definitions.foldl (fun index definition => index.put definition.1 definition.2) []

/-- An empty index knows no name. -/
@[simp] theorem get?_nil (name : String) : get? ([] : Index α) name = none := rfl

/-- An entry in front is found by its own name, and hides nothing else. -/
theorem get?_cons (known : String) (old : α) (rest : Index α) (name : String) :
    get? ((known, old) :: rest) name = if name = known then some old else get? rest name := by
  rw [get?, List.lookup_cons]
  by_cases same : name = known
  · rw [if_pos same, beq_iff_eq.mpr same]
  · rw [if_neg same, beq_false_of_ne same]
    rfl

/-- A name has the value that it was given last, and no other name is touched. -/
theorem get?_put (index : Index α) (name other : String) (value : α) :
    (index.put name value).get? other =
      if other = name then some value else index.get? other := by
  induction index with
  | nil => rw [put, get?_cons]
  | cons entry rest ih =>
    obtain ⟨known, old⟩ := entry
    rw [put, get?_cons]
    split
    · next same =>
      rw [get?_cons, same]
      split <;> rfl
    · next apart =>
      rw [get?_cons, ih]
      split
      · next found =>
        rw [if_neg (fun same => apart (found.symm.trans same))]
      · rfl

/-- A new name goes last; a known name changes nothing about the order. -/
theorem names_put (index : Index α) (name : String) (value : α) :
    (index.put name value).names =
      if name ∈ index.names then index.names else index.names ++ [name] := by
  induction index with
  | nil => simp [put, names]
  | cons entry rest ih =>
    obtain ⟨known, old⟩ := entry
    rw [put]
    split
    · next same => simp [names, same]
    · next apart =>
      have step : names ((known, old) :: put rest name value) =
          known :: (put rest name value).names := rfl
      have whole : names ((known, old) :: rest) = known :: names rest := rfl
      rw [step, whole, ih]
      have elsewhere : name ≠ known := Ne.symm apart
      by_cases present : name ∈ names rest
      · rw [if_pos present, if_pos (List.mem_cons_of_mem known present)]
      · rw [if_neg present, if_neg (by simp [elsewhere, present]), List.cons_append]

end Index

end StepSequencer
