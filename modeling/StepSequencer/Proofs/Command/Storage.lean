import Mathlib.Data.List.Infix
import StepSequencer.Command.Files

/-!
# What writing does to files and to the output

Surroundings are looked at through the place that a path leads to, what is stored there, and what
was printed. They keep these apart if reading changes nothing, if writing a file changes nothing but
the file at the place that its path leads to, and if printing changes nothing but what was printed.
A write that is carried out leaves exactly the written text there; one that fails may leave anything
there. A text is printed whole or not at all, and no path leads to the output. `Storage` holds these
laws for surroundings with a state.

A machine in memory has them. Its paths are walked from folder to folder, and a file is only stored
in a folder, so no write makes a folder and all paths lead where they led before.
-/
namespace StepSequencer.Command

/-- What can be seen of surroundings at one time: the place that a path leads to, what is stored at
a place, and what was printed. -/
structure View (Place : Type) where
  place? : String → Option Place
  content? : Place → Option (List UInt8)
  printed : String

/-- The files and the output behind surroundings with a state, and the laws of reading and writing
them. -/
structure Storage {σ : Type} (world : Surroundings (StateM σ)) where
  Place : Type
  view : σ → View Place
  /-- A file at a path gets as far as its text being encoded. -/
  opens : σ → String → Prop
  /-- A text can be encoded in a file at a path. -/
  encodes : String → String → Prop
  /-- A text can be encoded in the output. -/
  prints : String → Prop
  view_readInput : ∀ state, view (world.readInput.run state).2 = view state
  view_readFile : ∀ state path, view ((world.readFile path).run state).2 = view state
  /-- Paths lead where they led before. -/
  place?_writeFile : ∀ state path text,
    (view ((world.writeFile path text).run state).2).place? = (view state).place?
  /-- A write is whole if it does not fail. -/
  content?_writeFile : ∀ state path text, ((world.writeFile path text).run state).1 = .ok () →
    ∃ place, (view state).place? path = some place ∧
      (view ((world.writeFile path text).run state).2).content? place = some text.toUTF8.toList
  /-- Other files are not touched. -/
  content?_elsewhere : ∀ state path text place, (view state).place? path ≠ some place →
    (view ((world.writeFile path text).run state).2).content? place = (view state).content? place
  printed_writeFile : ∀ state path text,
    (view ((world.writeFile path text).run state).2).printed = (view state).printed
  view_writeOutput_ok : ∀ state text, ((world.writeOutput text).run state).1 = .ok () →
    view ((world.writeOutput text).run state).2 =
      { view state with printed := (view state).printed ++ text }
  view_writeOutput_error : ∀ state text, ((world.writeOutput text).run state).1 ≠ .ok () →
    view ((world.writeOutput text).run state).2 = view state
  nullCharacter_iff : ∀ state path text,
    ((world.writeFile path text).run state).1 = .error .nullCharacter ↔
      Char.ofNat 0 ∈ path.toList
  unencodable_iff : ∀ state path text,
    (∃ message, ((world.writeFile path text).run state).1 = .error (.unencodable message)) ↔
      opens state path ∧ ¬encodes path text
  unprintable_iff : ∀ state text,
    (∃ message, ((world.writeOutput text).run state).1 = .error (.unencodable message)) ↔
      ¬prints text

namespace Disk

variable {disk : Disk}

/-! ### Folders -/

/-- A place is a folder just if it leads to a folder that is listed, or to a file in it. -/
theorem isFolder_iff {place : List String} : disk.isFolder place = true ↔
    (∃ folder ∈ disk.current :: disk.folders, place <+: folder) ∨
      ∃ file ∈ disk.files, place <+: file.1 ∧ place ≠ file.1 := by
  simp only [isFolder, Bool.or_eq_true, List.any_eq_true, List.isPrefixOf_iff_prefix,
    Bool.and_eq_true, bne_iff_ne]

/-- What leads to a folder is a folder. -/
theorem isFolder_of_leads {place shorter : List String} (folder : disk.isFolder place = true)
    (leads : shorter <+: place) : disk.isFolder shorter = true := by
  rw [isFolder_iff] at folder ⊢
  rcases folder with ⟨listed, member, within⟩ | ⟨file, member, within, apart⟩
  · exact Or.inl ⟨listed, member, leads.trans within⟩
  · refine Or.inr ⟨file, member, leads.trans within, fun same => apart ?_⟩
    exact within.eq_of_length_le (same ▸ leads.length_le)

/-- The current folder is a folder. -/
theorem isFolder_current : disk.isFolder disk.current = true :=
  isFolder_iff.mpr (Or.inl ⟨disk.current, List.mem_cons_self, List.prefix_rfl⟩)

/-- The root is a folder. -/
theorem isFolder_root : disk.isFolder [] = true :=
  isFolder_of_leads isFolder_current List.nil_prefix

/-- The place that a walk ends at is in a folder. -/
theorem exists_folder_of_resolve {parts place target : List String}
    (start : disk.isFolder place = true) (found : disk.resolve place parts = .ok target) :
    ∃ folder part, disk.isFolder folder = true ∧ target = folder ++ [part] := by
  induction parts generalizing place with
  | nil => contradiction
  | cons part rest ih =>
    rw [resolve] at found
    split at found
    · contradiction
    · dsimp only at found
      split at found
      · next inside => exact ih inside found
      · next outside =>
        split at found
        · obtain rfl := Except.ok.inj found
          rw [further] at outside ⊢
          split at outside
          · exact absurd (isFolder_of_leads start (List.dropLast_prefix place)) outside
          · next named =>
            rw [if_neg named]
            exact ⟨place, part, start, rfl⟩
        · split at found <;> contradiction

/-- The place of a file is in a folder. -/
theorem exists_folder_of_locate {path : String} {target : List String}
    (found : disk.locate path = .ok target) :
    ∃ folder part, disk.isFolder folder = true ∧ target = folder ++ [part] := by
  rw [locate] at found
  split at found
  · contradiction
  · split at found
    · cases found
    · refine exists_folder_of_resolve ?_ found
      split
      · exact isFolder_current
      · exact isFolder_root

/-! ### Stored files -/

/-- A file stored in a folder makes no other place a folder. -/
theorem isFolder_store {folder : List String} (inside : disk.isFolder folder = true) (part : String)
    (bytes : List UInt8) (place : List String) :
    (disk.store (folder ++ [part]) bytes).isFolder place = disk.isFolder place := by
  rw [Bool.eq_iff_iff]
  constructor
  · intro found
    rcases isFolder_iff.mp found with listed | ⟨file, member, within, apart⟩
    · exact isFolder_iff.mpr (Or.inl listed)
    · rcases List.mem_cons.mp member with rfl | old
      · have leads := (List.prefix_concat_iff.mp within).resolve_left apart
        exact isFolder_of_leads inside leads
      · exact isFolder_iff.mpr (Or.inr ⟨file, (List.mem_filter.mp old).1, within, apart⟩)
  · intro found
    rcases isFolder_iff.mp found with listed | ⟨file, member, within, apart⟩
    · exact isFolder_iff.mpr (Or.inl listed)
    · refine isFolder_iff.mpr (Or.inr ?_)
      by_cases same : file.1 = folder ++ [part]
      · exact ⟨(folder ++ [part], bytes), List.mem_cons_self, same ▸ within, same ▸ apart⟩
      · exact ⟨file, List.mem_cons_of_mem _ (List.mem_filter.mpr ⟨member, bne_iff_ne.mpr same⟩),
          within, apart⟩

/-- A walk leads where it led before a file was stored, if it leads anywhere. -/
theorem toOption_resolve_store {folder : List String} (inside : disk.isFolder folder = true)
    (part : String) (bytes : List UInt8) (parts place : List String) :
    ((disk.store (folder ++ [part]) bytes).resolve place parts).toOption =
      (disk.resolve place parts).toOption := by
  induction parts generalizing place with
  | nil => rfl
  | cons first rest ih =>
    rw [resolve, resolve]
    dsimp only
    rw [isFolder_store inside]
    split
    · rfl
    · split
      · exact ih _
      · split
        · rfl
        -- The reason may change: what was missing may be a file now.
        · split <;> split <;> rfl

/-- A path leads where it led before a file was stored, if it leads anywhere. -/
theorem toOption_locate_store {folder : List String} (inside : disk.isFolder folder = true)
    (part : String) (bytes : List UInt8) (path : String) :
    ((disk.store (folder ++ [part]) bytes).locate path).toOption =
      (disk.locate path).toOption := by
  rw [locate, locate]
  split
  · rfl
  · split
    · rfl
    · exact toOption_resolve_store inside part bytes _ _

/-- A stored file is found at its place, and all others where they were. -/
theorem file?_store (disk : Disk) (place other : List String) (bytes : List UInt8) :
    (disk.store place bytes).file? other =
      if other = place then some bytes else disk.file? other := by
  have kept (files : List (List String × List UInt8)) (apart : other ≠ place) :
      (files.filter fun file => file.1 != place).lookup other = files.lookup other := by
    induction files with
    | nil => rfl
    | cons file files ih =>
      rw [List.filter_cons, List.lookup_cons]
      by_cases own : file.1 = place
      · rw [if_neg (by simp [own]), ih, beq_false_of_ne (own ▸ apart)]
      · rw [if_pos (bne_iff_ne.mpr own), List.lookup_cons, ih]
  rw [file?, store, List.lookup_cons]
  by_cases same : other = place
  · rw [beq_iff_eq.mpr same, if_pos same]
  · rw [beq_false_of_ne same, if_neg same]
    exact kept disk.files same

/-! ### Writing -/

/-- A walk is only refused for what is on the disk. -/
theorem resolve_error {place parts : List String} {fault : FileFault}
    (refused : disk.resolve place parts = .error fault) :
    fault ≠ .nullCharacter ∧ ∀ message, fault ≠ .unencodable message := by
  induction parts generalizing place with
  | nil =>
    obtain rfl := Except.error.inj refused
    simp
  | cons part rest ih =>
    rw [resolve] at refused
    dsimp only at refused
    split at refused
    · obtain rfl := Except.error.inj refused
      simp
    · split at refused
      · exact ih refused
      · split at refused
        · contradiction
        · split at refused
          all_goals
            obtain rfl := Except.error.inj refused
            simp

/-- A path is refused for a null character just if it has one. -/
theorem locate_nullCharacter_iff (disk : Disk) (path : String) :
    disk.locate path = .error .nullCharacter ↔ Char.ofNat 0 ∈ path.toList := by
  rw [locate]
  split
  · next found => exact iff_of_true rfl (List.contains_iff_mem.mp found)
  · next absent =>
    refine iff_of_false ?_ (mt List.contains_iff_mem.mpr absent)
    split
    · simp
    · exact fun refused => (resolve_error refused).1 rfl

/-- A path is not refused for its encoding. -/
theorem locate_ne_unencodable (disk : Disk) (path message : String) :
    disk.locate path ≠ .error (.unencodable message) := by
  rw [locate]
  split
  · simp
  · split
    · simp
    · exact fun refused => (resolve_error refused).2 message rfl

end Disk

namespace Machine

variable {machine : Machine} {path : String} (input : String) (limits : Limits) (text : String)

/-- A write stores a file where its path leads. -/
theorem run_writeFile_of_ok {place : List String} (found : machine.disk.locate path = .ok place) :
    ((surroundings input limits).writeFile path text).run machine =
      (limits.answer text,
        { machine with disk := machine.disk.store place (limits.stored text) }) := by
  have written : machine.disk.write path (limits.stored text) =
      .ok (machine.disk.store place (limits.stored text)) := by
    rw [Disk.write, found]
    rfl
  simp only [surroundings, StateT.run_bind, StateT.run_get, pure_bind, written]
  rfl

/-- A write at a path that leads nowhere leaves the machine as it is. -/
theorem run_writeFile_of_error {fault : FileFault}
    (refused : machine.disk.locate path = .error fault) :
    ((surroundings input limits).writeFile path text).run machine = (.error fault, machine) := by
  have written : machine.disk.write path (limits.stored text) = .error fault := by
    rw [Disk.write, refused]
    rfl
  simp only [surroundings, StateT.run_bind, StateT.run_get, pure_bind, written]
  rfl

/-- A text that the machine has nothing against is printed. -/
theorem run_writeOutput_of_none {limits : Limits} {text : String}
    (fine : limits.output text = none) :
    ((surroundings input limits).writeOutput text).run machine =
      (.ok (), { machine with printed := machine.printed ++ text }) := by
  simp only [surroundings, fine]
  rfl

/-- A text that the machine has something against is not printed. -/
theorem run_writeOutput_of_some {limits : Limits} {text : String} {fault : OutputFault}
    (wrong : limits.output text = some fault) :
    ((surroundings input limits).writeOutput text).run machine = (.error fault, machine) := by
  simp only [surroundings, wrong]
  rfl

/-- What can be seen of a machine. -/
def viewOf (machine : Machine) : View (List String) :=
  ⟨fun path => (machine.disk.locate path).toOption, machine.disk.file?, machine.printed⟩

/-- A text is taken by an open file just if it can be encoded, and is stored then. -/
theorem answer_eq_ok_iff {limits : Limits} {text : String} :
    limits.answer text = .ok () ↔ limits.file text = none := by
  unfold Limits.answer
  split <;> simp_all

/-- A text is refused by an open file just if it cannot be encoded. -/
theorem answer_unencodable_iff {limits : Limits} {text : String} :
    (∃ message, limits.answer text = .error (.unencodable message)) ↔ limits.file text ≠ none := by
  unfold Limits.answer
  split <;> simp_all

/-- An open file does not ask for the path. -/
theorem answer_ne_nullCharacter : limits.answer text ≠ .error .nullCharacter := by
  unfold Limits.answer
  split <;> simp

/-- A machine keeps its files apart, and what it prints. -/
def storage (input : String) (limits : Limits) : Storage (surroundings input limits) where
  Place := List String
  view := viewOf
  opens machine path := ∃ place, machine.disk.locate path = .ok place
  encodes _ text := limits.file text = none
  prints text := ∀ message, limits.output text ≠ some (.unencodable message)
  view_readInput _ := rfl
  view_readFile _ _ := rfl
  place?_writeFile machine path text := by
    cases found : machine.disk.locate path with
    | error fault => rw [run_writeFile_of_error input limits text found]
    | ok place =>
      rw [run_writeFile_of_ok input limits text found]
      obtain ⟨folder, part, inside, rfl⟩ := Disk.exists_folder_of_locate found
      exact funext (Disk.toOption_locate_store inside part (limits.stored text))
  content?_writeFile machine path text done := by
    cases found : machine.disk.locate path with
    | error fault =>
      rw [run_writeFile_of_error input limits text found] at done
      contradiction
    | ok place =>
      rw [run_writeFile_of_ok input limits text found] at done ⊢
      have stored : limits.stored text = text.toUTF8.toList := by
        rw [Limits.stored, answer_eq_ok_iff.mp done]
        rfl
      refine ⟨place, congrArg Except.toOption found, ?_⟩
      exact (Disk.file?_store machine.disk place place _).trans (by rw [if_pos rfl, stored])
  content?_elsewhere machine path text place apart := by
    cases found : machine.disk.locate path with
    | error fault => rw [run_writeFile_of_error input limits text found]
    | ok target =>
      rw [run_writeFile_of_ok input limits text found]
      refine (Disk.file?_store machine.disk target place _).trans (if_neg fun same => apart ?_)
      exact (congrArg Except.toOption found).trans (congrArg some same.symm)
  printed_writeFile machine path text := by
    cases found : machine.disk.locate path with
    | error fault => rw [run_writeFile_of_error input limits text found]
    | ok place =>
      rw [run_writeFile_of_ok input limits text found]
      rfl
  view_writeOutput_ok machine text done := by
    cases wrong : limits.output text with
    | none =>
      rw [run_writeOutput_of_none input wrong]
      rfl
    | some fault =>
      rw [run_writeOutput_of_some input wrong] at done
      contradiction
  view_writeOutput_error machine text failed := by
    cases wrong : limits.output text with
    | none =>
      rw [run_writeOutput_of_none input wrong] at failed
      exact absurd rfl failed
    | some fault => rw [run_writeOutput_of_some input wrong]
  nullCharacter_iff machine path text := by
    rw [← Disk.locate_nullCharacter_iff machine.disk path]
    cases found : machine.disk.locate path with
    | error fault =>
      rw [run_writeFile_of_error input limits text found]
      simp
    | ok place =>
      rw [run_writeFile_of_ok input limits text found]
      exact iff_of_false (answer_ne_nullCharacter limits text) (by simp)
  unencodable_iff machine path text := by
    cases found : machine.disk.locate path with
    | error fault =>
      rw [run_writeFile_of_error input limits text found]
      refine iff_of_false ?_ ?_
      · rintro ⟨message, refused⟩
        obtain rfl := Except.error.inj refused
        exact Disk.locate_ne_unencodable machine.disk path message found
      · rintro ⟨⟨place, opened⟩, _⟩
        contradiction
    | ok place =>
      rw [run_writeFile_of_ok input limits text found]
      exact answer_unencodable_iff.trans ⟨fun unfit => ⟨⟨place, rfl⟩, unfit⟩, And.right⟩
  unprintable_iff machine text := by
    cases wrong : limits.output text with
    | none =>
      rw [run_writeOutput_of_none input wrong]
      simp
    | some fault =>
      rw [run_writeOutput_of_some input wrong]
      simp

end Machine

end StepSequencer.Command
