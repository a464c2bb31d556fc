import StepSequencer.Proofs.Target.Reader
import StepSequencer.Target.Emit

/-!
# Stores in framed texts

In the three languages a text has a head with the title, a line that opens the initial function, one
line for each store, and a line that closes the function. The stores are read back from such a text
in order, because no line around them can be mistaken for the frame or for a store.
-/
namespace StepSequencer.Delivered

/-- The lines of a text in front of others are its own if they have no line feeds. -/
theorem feedLines_joinLines {lines : List String} (unbroken : ∀ line ∈ lines, '\n' ∉ line.toList)
    (after : List String) :
    Text.feedLines (Target.joinLines (lines ++ after)).toList =
      lines.map String.toList ++ Text.feedLines (Target.joinLines after).toList := by
  have text (lines : List String) : (Target.joinLines lines).toList =
      (lines.map String.toList).flatMap fun line => line ++ ['\n'] := by
    rw [Target.joinLines, Text.toList_join_lines, List.flatMap_map]
  have each : ∀ line ∈ lines.map String.toList, '\n' ∉ line := by
    intro line member
    obtain ⟨source, known, rfl⟩ := List.mem_map.mp member
    exact unbroken source known
  rw [text, List.map_append, List.flatMap_append, Text.feedLines_lines each, text]

/-- The part of a text between two lines is found where it stands. -/
theorem part_lines {first last : String} {before inside : List String} (absent : first ∉ before)
    (inner : last ∉ inside) (after : List (List Char)) :
    part first last ((before ++ first :: (inside ++ [last])).map String.toList ++ after) =
      inside.map String.toList := by
  have differs {stop : String} {lines : List String} (missing : stop ∉ lines) :
      ∀ line ∈ lines.map String.toList, (line != stop.toList) = true := by
    intro line member
    obtain ⟨source, known, rfl⟩ := List.mem_map.mp member
    rw [bne_iff_ne]
    exact fun same => missing (String.toList_inj.mp same ▸ known)
  simp only [part, List.map_append, List.map_cons, List.append_assoc, List.cons_append]
  rw [List.dropWhile_append_of_pos (differs absent), List.dropWhile_cons_of_neg (by simp),
    List.drop_one, List.tail_cons, List.takeWhile_append_of_pos (differs inner),
    List.takeWhile_cons_of_neg (by simp), List.append_nil]

-- A literal is the word of a list of characters, and the list is checked much faster than the word.
/-- A text of characters without a line feed is a single line. -/
theorem newline_not_mem_ofList {chars : List Char} (plain : '\n' ∉ chars) :
    '\n' ∉ (String.ofList chars).toList := by
  rwa [String.toList_ofList]

/-- A text differs from another that does not start with its first word. -/
theorem append_ne {word other : String} (text : String)
    (apart : behind? word.toList other.toList = none) : word ++ text ≠ other := by
  intro same
  have found := behind?_append word.toList text.toList
  rw [← String.toList_append, same, apart] at found
  contradiction

/-- The lines around the stores of a text in which each store is a line of a form. The stores stand
between the lines `first` and `last`, which cannot be mistaken. -/
structure Frame (form : StoreForm) where
  header : String → List String
  first : String
  opening : List String
  closing : List String
  last : String
  after : List String
  header_unbroken : ∀ {title : String}, '\n' ∉ title.toList →
    ∀ line ∈ header title, '\n' ∉ line.toList
  first_absent : ∀ title, first ∉ header title
  frame_unbroken : ∀ line ∈ first :: (opening ++ (closing ++ [last])), '\n' ∉ line.toList := by
    decide
  frame_none : ∀ line ∈ opening ++ (closing ++ [last]), form.read? line.toList = none := by decide
  last_absent : last ∉ opening ++ closing := by decide

namespace Frame

variable {form : StoreForm} (frame : Frame form)

/-- The lines of a text with a title and a body, up to the end of the stores. -/
def lines (title : String) (body : List String) : List String :=
  frame.header title ++ frame.first :: (frame.opening ++ body ++ frame.closing ++ [frame.last])

/-- Lines between a header and a footer are the lines of a frame and what is behind it. -/
theorem lines_eq {title : String} {header body footer : List String}
    (head : header = frame.header title ++ frame.first :: frame.opening)
    (foot : footer = frame.closing ++ frame.last :: frame.after) :
    header ++ body ++ footer = frame.lines title body ++ frame.after := by
  rw [head, foot, lines]
  simp

/-- No line of a text breaks if its title and its body do not. -/
theorem lines_unbroken {title : String} (plain : '\n' ∉ title.toList) {body : List String}
    (bodyPlain : ∀ line ∈ body, '\n' ∉ line.toList) :
    ∀ line ∈ frame.lines title body, '\n' ∉ line.toList := by
  have fixed := frame.frame_unbroken
  simp only [lines, List.mem_append, List.mem_cons] at fixed ⊢
  rintro line (head | rfl | (((opened | inside) | closed) | last))
  · exact frame.header_unbroken plain line head
  · exact fixed _ (.inl rfl)
  · exact fixed line (.inr (.inl opened))
  · exact bodyPlain line inside
  · exact fixed line (.inr (.inr (.inl closed)))
  · exact fixed line (.inr (.inr (.inr last)))

/-- The stores of a frame are found: the lines around them hold none. -/
theorem read_part {title : String} {body : List String} (inner : frame.last ∉ body)
    (after : List (List Char)) :
    (part frame.first frame.last ((frame.lines title body).map String.toList ++ after)).filterMap
      form.read? = (body.map String.toList).filterMap form.read? := by
  have fixed := frame.frame_none
  have outer := frame.last_absent
  simp only [List.mem_append] at fixed outer
  have missing : frame.last ∉ frame.opening ++ body ++ frame.closing := by
    simp only [List.mem_append]
    rintro ((opened | inside) | closed)
    · exact outer (.inl opened)
    · exact inner inside
    · exact outer (.inr closed)
  have skipped {lines : List String}
      (none : ∀ line ∈ lines, form.read? line.toList = .none) :
      (lines.map String.toList).filterMap form.read? = [] := by
    rw [List.filterMap_map, List.filterMap_eq_nil_iff]
    exact none
  rw [lines, part_lines (frame.first_absent title) missing, List.map_append, List.map_append,
    List.filterMap_append, List.filterMap_append,
    skipped fun line member => fixed line (.inl member),
    skipped fun line member => fixed line (.inr (.inl member)), List.nil_append, List.append_nil]

end Frame

/-- Stores written one to a line of a form are read back from the text around them. -/
theorem read_frame {form : StoreForm} (frame : Frame form) {addressText : Int → String}
    (readable : ∀ (address : Int) {rest : List Char}, Text.Stops form.radix.isDigit rest →
      number? form.radix ((addressText address).toList ++ rest) = some (address, rest))
    (addressPlain : ∀ address, '\n' ∉ (addressText address).toList) {title : String}
    (plain : '\n' ∉ title.toList) (stores : List Store) :
    (part frame.first frame.last (Text.feedLines (Target.joinLines (frame.lines title
      (stores.map fun store => form.line (addressText store.1) store.2) ++
        frame.after)).toList)).filterMap form.read? = stores := by
  have exact (store : Store) :
      form.read? (form.line (addressText store.1) store.2).toList = some store :=
    form.read?_line (readable store.1) store.2
  have words := form.unbroken
  simp only [List.mem_append, not_or] at words
  have bodyPlain : ∀ line ∈ stores.map fun store => form.line (addressText store.1) store.2,
      '\n' ∉ line.toList := by
    intro line member
    obtain ⟨store, _, rfl⟩ := List.mem_map.mp member
    exact Text.not_mem_append (Text.not_mem_append (Text.not_mem_append
      (Text.not_mem_append words.1.1 (addressPlain store.1)) words.1.2)
      (Text.newline_not_mem_decimal store.2)) words.2
  have inner : frame.last ∉ stores.map fun store => form.line (addressText store.1) store.2 := by
    intro member
    obtain ⟨store, _, same⟩ := List.mem_map.mp member
    have read := exact store
    rw [same, frame.frame_none frame.last (by simp)] at read
    contradiction
  rw [feedLines_joinLines (frame.lines_unbroken plain bodyPlain), frame.read_part inner,
    List.map_map, List.filterMap_map]
  simp only [Function.comp_def, exact]
  exact List.filterMap_some

/-- The frame of a text in WebAssembly. -/
def webAssemblyFrame : Frame webAssemblyForm where
  header title := (WebAssembly.header title).dropLast
  first := "  (func (export \"init\")"
  opening := []
  closing := []
  last := "  )"
  after := WebAssembly.footer.tail
  header_unbroken := by
    intro title plain
    simp only [WebAssembly.header, List.dropLast, List.forall_mem_cons]
    refine ⟨Text.not_mem_append (newline_not_mem_ofList (by decide)) plain, ?_⟩
    repeat' first
      | exact List.forall_mem_nil _
      | refine ⟨newline_not_mem_ofList (by decide), ?_⟩
  first_absent := by
    intro title
    simp only [WebAssembly.header, List.dropLast, List.mem_cons, not_or]
    exact ⟨(append_ne title (by decide)).symm, by decide⟩

/-- The lines of the registers are single lines. -/
theorem registerLines_unbroken :
    ∀ line ∈ EmbeddedC.registers.map EmbeddedC.registerLine, '\n' ∉ line.toList := by
  have names : ∀ register ∈ EmbeddedC.registers,
      '\n' ∉ register.1.toList ∧ '\n' ∉ register.2.toList := by
    simp only [EmbeddedC.registers, List.forall_mem_cons]
    repeat' first
      | exact List.forall_mem_nil _
      | refine ⟨⟨newline_not_mem_ofList (by decide), newline_not_mem_ofList (by decide)⟩, ?_⟩
  intro line member
  obtain ⟨register, known, rfl⟩ := List.mem_map.mp member
  obtain ⟨name, offset⟩ := names register known
  exact Text.not_mem_append (Text.not_mem_append (Text.not_mem_append
    (Text.not_mem_append (newline_not_mem_ofList (by decide)) name)
    (newline_not_mem_ofList (by decide))) offset) (newline_not_mem_ofList (by decide))

/-- The frame of a text in C. -/
def cFrame : Frame cForm where
  header := EmbeddedC.preamble
  first := Target.opened "void audio_init(void)"
  opening := []
  closing := []
  last := Target.closed ""
  after := EmbeddedC.footer.tail
  header_unbroken := by
    intro title plain
    rw [EmbeddedC.preamble, List.forall_mem_append, List.forall_mem_append]
    refine ⟨⟨?_, registerLines_unbroken⟩, List.forall_mem_singleton.mpr (by decide)⟩
    simp only [List.forall_mem_cons]
    refine ⟨newline_not_mem_ofList (by decide),
      Text.not_mem_append (newline_not_mem_ofList (by decide)) plain, ?_⟩
    repeat' first
      | exact List.forall_mem_nil _
      | refine ⟨newline_not_mem_ofList (by decide), ?_⟩
  first_absent := by
    intro title
    simp only [EmbeddedC.preamble, EmbeddedC.registers, EmbeddedC.registerLine, List.map,
      List.mem_cons, not_or, List.cons_append, List.nil_append]
    exact ⟨by decide, (append_ne title (by decide)).symm, by decide⟩

/-- No line of a block breaks if its head and its body do not. -/
theorem enclosed_unbroken {head : String} {body : List String} (headPlain : '\n' ∉ head.toList)
    (bodyPlain : ∀ line ∈ body, '\n' ∉ line.toList) :
    ∀ line ∈ Target.enclosed head body, '\n' ∉ line.toList := by
  rw [Target.enclosed, List.cons_append, List.forall_mem_cons, List.forall_mem_append]
  exact ⟨Text.not_mem_append headPlain (by decide), bodyPlain,
    List.forall_mem_singleton.mpr (by decide)⟩

/-- The frame of a text in Rust. -/
def rustFrame : Frame rustForm where
  header := EmbeddedRust.preamble
  first := Target.opened "pub fn audio_init()"
  opening := [Target.opened "    unsafe"]
  closing := [Target.closed "    "]
  last := Target.closed ""
  after := EmbeddedRust.footer.drop 2
  header_unbroken := by
    intro title plain
    simp only [EmbeddedRust.preamble, List.forall_mem_append, List.forall_mem_cons]
    refine ⟨⟨⟨⟨⟨Text.not_mem_append (newline_not_mem_ofList (by decide)) plain, ?_⟩, ?_⟩, ?_⟩, ?_⟩,
      ?_⟩
    case refine_2 | refine_4 =>
      exact enclosed_unbroken (newline_not_mem_ofList (by decide))
        (List.forall_mem_singleton.mpr (newline_not_mem_ofList (by decide)))
    all_goals repeat' first
      | exact List.forall_mem_nil _
      | refine ⟨newline_not_mem_ofList (by decide), ?_⟩
  first_absent := by
    intro title
    simp only [EmbeddedRust.preamble, Target.enclosed, List.mem_cons, not_or, List.cons_append,
      List.nil_append]
    exact ⟨(append_ne title (by decide)).symm, by decide⟩

/-- The stores are read back from WebAssembly. -/
theorem stores?_webAssembly {labels : Labels} (plain : '\n' ∉ labels.title.toList)
    (instructions : List Instruction) :
    stores? .webAssembly (Target.emit .webAssembly labels instructions) =
      some (Instruction.stores instructions) := by
  have lines : WebAssembly.lines labels.title (Instruction.stores instructions) =
      webAssemblyFrame.lines labels.title ((Instruction.stores instructions).map fun store =>
        webAssemblyForm.line (Text.decimal store.1) store.2) ++ webAssemblyFrame.after :=
    webAssemblyFrame.lines_eq rfl rfl
  have text : Target.emit .webAssembly labels instructions =
      Target.joinLines (WebAssembly.lines labels.title (Instruction.stores instructions)) := rfl
  have decimal (address : Int) {rest : List Char} (stops : Text.Stops Text.isDecimal rest) :
      number? .decimal ((Text.decimal address).toList ++ rest) = some (address, rest) := by
    rw [Text.decimal, String.toList_ofList]
    exact number?_decimal address stops
  rw [text, lines]
  exact congrArg some (read_frame webAssemblyFrame decimal Text.newline_not_mem_decimal plain _)

/-- The stores are read back from C. -/
theorem stores?_c {labels : Labels} (plain : '\n' ∉ labels.title.toList)
    (instructions : List Instruction) :
    stores? .c (Target.emit .c labels instructions) =
      some (Instruction.stores instructions) := by
  have lines : EmbeddedC.lines labels.title (Instruction.stores instructions) =
      cFrame.lines labels.title ((Instruction.stores instructions).map fun store =>
        cForm.line (Text.hexLower store.1) store.2) ++ cFrame.after :=
    cFrame.lines_eq rfl rfl
  have text : Target.emit .c labels instructions =
      Target.joinLines (EmbeddedC.lines labels.title (Instruction.stores instructions)) := rfl
  rw [text, lines]
  exact congrArg some (read_frame cFrame number?_hexLower Text.newline_not_mem_hexLower plain _)

/-- The stores are read back from Rust. -/
theorem stores?_rust {labels : Labels} (plain : '\n' ∉ labels.title.toList)
    (instructions : List Instruction) :
    stores? .rust (Target.emit .rust labels instructions) =
      some (Instruction.stores instructions) := by
  have lines : EmbeddedRust.lines labels.title (Instruction.stores instructions) =
      rustFrame.lines labels.title ((Instruction.stores instructions).map fun store =>
        rustForm.line (Text.hexLower store.1) store.2) ++ rustFrame.after :=
    rustFrame.lines_eq rfl rfl
  have text : Target.emit .rust labels instructions =
      Target.joinLines (EmbeddedRust.lines labels.title (Instruction.stores instructions)) := rfl
  rw [text, lines]
  exact congrArg some (read_frame rustFrame number?_hexLower Text.newline_not_mem_hexLower plain _)

end StepSequencer.Delivered
