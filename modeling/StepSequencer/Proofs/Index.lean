import StepSequencer.Index

/-!
# What an index holds

The index of a list of definitions gives every name its last definition, and lists the names in
the order of their first definitions. Changing all values by one function changes nothing about the
names.
-/
namespace StepSequencer

/-- The last of the items with a name. -/
def lastNamed? {α : Type} (nameOf : α → String) (items : List α) (name : String) : Option α :=
  (items.filter fun item => nameOf item == name).getLast?

/-- The last of the items with a name is one of the items. -/
theorem mem_of_lastNamed? {α : Type} {nameOf : α → String} {items : List α} {name : String}
    {item : α} (found : lastNamed? nameOf items name = some item) : item ∈ items :=
  (List.mem_filter.mp (List.mem_of_getLast? found)).1

/-- One more item is the last of its own name and of no other. -/
theorem lastNamed?_append_singleton {α : Type} (nameOf : α → String) (items : List α) (item : α)
    (name : String) : lastNamed? nameOf (items ++ [item]) name =
      if name = nameOf item then some item else lastNamed? nameOf items name := by
  rw [lastNamed?, List.filter_append, List.getLast?_append, List.filter_cons]
  by_cases own : nameOf item = name
  · rw [if_pos (beq_iff_eq.mpr own), if_pos own.symm]
    rfl
  · rw [if_neg (mt beq_iff_eq.mp own), if_neg (Ne.symm own)]
    rfl

namespace Index

variable {α β : Type}

/-- Definitions are put into an index one after the other, and later ones count before earlier
ones. -/
theorem get?_foldl_put (definitions : List (String × α)) (index : Index α) (name : String) :
    (definitions.foldl (fun index definition => index.put definition.1 definition.2) index).get?
      name = (definitions.reverse.lookup name).or (index.get? name) := by
  induction definitions generalizing index with
  | nil => rfl
  | cons definition rest ih =>
    obtain ⟨known, value⟩ := definition
    have single : [(known, value)].lookup name = if name = known then some value else none :=
      get?_cons known value [] name
    rw [List.foldl_cons, ih, get?_put, List.reverse_cons, List.lookup_append, single,
      Option.or_assoc]
    split <;> rfl

/-- A name has its last definition. -/
theorem get?_ofList (definitions : List (String × α)) (name : String) :
    (ofList definitions).get? name = definitions.reverse.lookup name := by
  rw [ofList, get?_foldl_put, get?_nil, Option.or_none]

/-- An index lists items: the names of the items in the order of their first definitions, each name
once and with its last item. -/
structure Lists (nameOf : α → String) (index : Index α) (items : List α) : Prop where
  names_eq : index.names = (items.map nameOf).eraseDups
  nodup : index.names.Nodup
  get?_eq : ∀ name, index.get? name = lastNamed? nameOf items name

/-- An index that lists items, and has one more put into it, lists that one, too. -/
theorem Lists.put {nameOf : α → String} {index : Index α} {items : List α}
    (lists : Lists nameOf index items) (item : α) :
    Lists nameOf (index.put (nameOf item) item) (items ++ [item]) where
  names_eq := by
    have known : nameOf item ∈ index.names ↔ nameOf item ∈ items.map nameOf := by
      rw [lists.names_eq, List.mem_eraseDups]
    have single : [nameOf item].removeAll (items.map nameOf) =
        if nameOf item ∈ items.map nameOf then [] else [nameOf item] := by
      rw [List.removeAll, List.filter_cons, List.filter_nil, List.elem_eq_contains]
      split <;> simp_all
    rw [names_put, List.map_append, List.map_singleton, List.eraseDups_append, ← lists.names_eq,
      single]
    by_cases old : nameOf item ∈ index.names
    · rw [if_pos old, if_pos (known.mp old), List.eraseDups_nil, List.append_nil]
    · rw [if_neg old, if_neg (mt known.mpr old)]
      rfl
  nodup := by
    rw [names_put]
    split
    · exact lists.nodup
    · next fresh => exact List.nodup_append.mpr ⟨lists.nodup, by simp, by grind⟩
  get?_eq name := by rw [get?_put, lists.get?_eq, lastNamed?_append_singleton]

/-- The index of items by their names lists them. -/
theorem lists_named (nameOf : α → String) (items : List α) :
    Lists nameOf (ofList (items.map fun item => (nameOf item, item))) items := by
  suffices general : ∀ (index : Index α) (before : List α), Lists nameOf index before →
      Lists nameOf ((items.map fun item => (nameOf item, item)).foldl
        (fun index definition => index.put definition.1 definition.2) index) (before ++ items) from
    general [] [] ⟨rfl, List.nodup_nil, fun _ => rfl⟩
  induction items with
  | nil =>
    intro index before lists
    rwa [List.append_nil]
  | cons item items ih =>
    intro index before lists
    rw [List.map_cons, List.foldl_cons, List.append_cons]
    exact ih _ _ (lists.put item)

/-- What a name has stands in the index. -/
theorem mem_of_get? {index : Index α} {name : String} {value : α}
    (found : index.get? name = some value) : (name, value) ∈ index := by
  obtain ⟨before, after, split, _⟩ := List.lookup_eq_some_iff.mp found
  rw [split]
  exact List.mem_append_right before List.mem_cons_self

/-- A definition brings nothing into an index but itself. -/
theorem mem_put {index : Index α} {name : String} {value : α} {entry : String × α}
    (member : entry ∈ index.put name value) : entry = (name, value) ∨ entry ∈ index := by
  induction index with
  | nil => exact Or.inl (List.mem_singleton.mp member)
  | cons first rest ih =>
    obtain ⟨known, old⟩ := first
    rw [put] at member
    split at member
    · rcases List.mem_cons.mp member with here | later
      · exact Or.inl here
      · exact Or.inr (List.mem_cons_of_mem _ later)
    · rcases List.mem_cons.mp member with here | later
      · exact Or.inr (here ▸ List.mem_cons_self)
      · exact (ih later).imp id (List.mem_cons_of_mem _)

/-- An index holds definitions only. -/
theorem mem_of_mem_ofList {definitions : List (String × α)} {entry : String × α}
    (member : entry ∈ ofList definitions) : entry ∈ definitions := by
  suffices general : ∀ index : Index α,
      entry ∈ definitions.foldl (fun index known => index.put known.1 known.2) index →
        entry ∈ index ∨ entry ∈ definitions from
    (general [] member).resolve_left List.not_mem_nil
  clear member
  induction definitions with
  | nil => exact fun _ inside => Or.inl inside
  | cons definition rest ih =>
    intro index inside
    rcases ih _ inside with early | late
    · rcases mem_put early with same | before
      · exact Or.inr (same ▸ List.mem_cons_self)
      · exact Or.inl before
    · exact Or.inr (List.mem_cons_of_mem _ late)

/-- What a name has is one of its definitions. -/
theorem mem_of_get?_ofList {definitions : List (String × α)} {name : String} {value : α}
    (found : (ofList definitions).get? name = some value) : (name, value) ∈ definitions :=
  mem_of_mem_ofList (mem_of_get? found)

/-- A name that is defined has one of its definitions. -/
theorem get?_ofList_of_mem {definitions : List (String × α)} {name : String} {value : α}
    (defined : (name, value) ∈ definitions) :
    ∃ last, (ofList definitions).get? name = some last ∧ (name, last) ∈ definitions := by
  cases found : (ofList definitions).get? name with
  | none =>
    rw [get?_ofList] at found
    have absent := List.lookup_eq_none_iff.mp found (name, value) (List.mem_reverse.mpr defined)
    simp at absent
  | some last => exact ⟨last, rfl, mem_of_get?_ofList found⟩

/-- A name with a value is one of the names. -/
theorem mem_names_of_get? {index : Index α} {name : String} {value : α}
    (found : index.get? name = some value) : name ∈ index.names :=
  List.mem_map_of_mem (mem_of_get? found)

/-- One of the names has a value. -/
theorem get?_of_mem_names {index : Index α} {name : String} (known : name ∈ index.names) :
    ∃ value, index.get? name = some value := by
  cases found : index.get? name with
  | some value => exact ⟨value, rfl⟩
  | none =>
    obtain ⟨entry, inside, rfl⟩ := List.mem_map.mp known
    have absent := List.lookup_eq_none_iff.mp found entry inside
    simp at absent

/-- The names are those that have a value. -/
theorem mem_names_iff {index : Index α} {name : String} :
    name ∈ index.names ↔ (index.get? name).isSome = true := by
  rw [Option.isSome_iff_exists]
  exact ⟨get?_of_mem_names, fun ⟨_, found⟩ => mem_names_of_get? found⟩

/-- An index with changed values. -/
def mapValues (change : α → β) (index : Index α) : Index β :=
  index.map fun entry => (entry.1, change entry.2)

/-- An entry is put in before or after its value is changed. -/
theorem put_mapValues (change : α → β) (index : Index α) (name : String) (value : α) :
    (index.mapValues change).put name (change value) = (index.put name value).mapValues change := by
  induction index with
  | nil => rfl
  | cons entry rest ih =>
    obtain ⟨known, old⟩ := entry
    have unfold : mapValues change ((known, old) :: rest) =
        (known, change old) :: mapValues change rest := rfl
    rw [unfold, put, put]
    split
    · rfl
    · rw [ih]
      rfl

/-- A name that is looked up has a changed value. -/
theorem get?_mapValues (change : α → β) (index : Index α) (name : String) :
    (index.mapValues change).get? name = (index.get? name).map change := by
  induction index with
  | nil => rfl
  | cons entry rest ih =>
    obtain ⟨known, old⟩ := entry
    have unfold : mapValues change ((known, old) :: rest) =
        (known, change old) :: mapValues change rest := rfl
    rw [unfold, get?_cons, get?_cons, ih]
    split <;> rfl

/-- Changing values keeps the names. -/
theorem names_mapValues (change : α → β) (index : Index α) :
    (index.mapValues change).names = index.names := by
  rw [names, mapValues, List.map_map, names]
  rfl

/-- Definitions with changed values give the index with changed values. -/
theorem ofList_map (change : α → β) (definitions : List (String × α)) :
    ofList (definitions.map fun definition => (definition.1, change definition.2)) =
      (ofList definitions).mapValues change := by
  suffices general : ∀ index : Index α,
      (definitions.map fun definition => (definition.1, change definition.2)).foldl
        (fun index definition => index.put definition.1 definition.2) (index.mapValues change) =
      (definitions.foldl (fun index definition => index.put definition.1 definition.2)
        index).mapValues change from general []
  induction definitions with
  | nil => exact fun _ => rfl
  | cons definition rest ih =>
    intro index
    rw [List.map_cons, List.foldl_cons, List.foldl_cons, put_mapValues, ih]

end Index

end StepSequencer
