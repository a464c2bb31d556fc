import StepSequencer.Proofs.Target.Comments
import StepSequencer.Target.Emit

/-!
# Titles in comments

In four languages a text has its title in a comment near the top. What a reader finds outside of
comments is then what it finds of the title, followed by a text that does not depend on the title.
A title is found nowhere outside exactly when it cannot end its comment: it has no line feed where
the comment goes to the end of the line, and opens again every block that it closes in C.
-/
namespace StepSequencer

open CommentState

/-- The comment that has the title in it: the text in front of the title, where a reader of the
title stands, and the text behind the title up to the end of a line. Whatever the title is, the
reader is in no block there. -/
structure TitleComment (style : CommentStyle) where
  front : String
  entered : CommentState
  behind : List Char
  enters : ∀ text, style.uncommented outside (front.toList ++ text) = style.uncommented entered text
  leaves : ∀ title, style.after entered (title ++ behind) = outside ∨
    style.after entered (title ++ behind) = line

namespace TitleComment

variable {style : CommentStyle} (comment : TitleComment style)

/-- What a reader finds of a title outside of comments. -/
def exposed (title : String) : List Char :=
  style.uncommented comment.entered (title.toList ++ comment.behind)

/-- In a text with the title in its comment, a reader finds the same behind every title. -/
theorem uncommented_text {text : List Char} (title : String) (rest : List Char)
    (split : text = comment.front.toList ++ (title.toList ++ comment.behind ++ '\n' :: rest)) :
    style.uncommented outside text =
      comment.exposed title ++ '\n' :: style.uncommented outside rest := by
  rw [split, comment.enters, style.uncommented_feed, style.uncommented_newline (comment.leaves _),
    exposed]

/-- The comment of a title that goes to the end of the line. -/
def ofLine (style : CommentStyle) (front : String) (unblocked : style.blocks = false)
    (enters : ∀ text,
      style.uncommented outside (front.toList ++ text) = style.uncommented line text) :
    TitleComment style where
  front := front
  entered := line
  behind := []
  enters := enters
  leaves _ := style.after_inline unblocked (.inr rfl) _

end TitleComment

namespace Target

/-- Comments from a semicolon to the end of the line. -/
def assemblyStyle : CommentStyle := { mark := [';'], blocks := false }

/-- Comments from two semicolons to the end of the line. -/
def webAssemblyStyle : CommentStyle := { mark := [';', ';'], blocks := false }

/-- Blocks, and comments from two slashes to the end of the line. -/
def cStyle : CommentStyle := { mark := ['/', '/'], blocks := true }

/-- Comments from two slashes to the end of the line. -/
def rustStyle : CommentStyle := { mark := ['/', '/'], blocks := false }

/-- The characters of a delivered text that stand outside of comments. Records of bytes have no
comments. -/
def uncomment (target : Target) (text : String) : List Char :=
  match target with
  | assembly => assemblyStyle.uncommented outside text.toList
  | webAssembly => webAssemblyStyle.uncommented outside text.toList
  | c => cStyle.uncommented outside text.toList
  | rust => rustStyle.uncommented outside text.toList
  | intelHex => text.toList

/-- The comment of a title in assembly. -/
def assemblyTitle : TitleComment assemblyStyle := .ofLine _ "; " rfl fun _ => rfl

/-- The comment of a title in WebAssembly text. -/
def webAssemblyTitle : TitleComment webAssemblyStyle := .ofLine _ ";; " rfl fun _ => rfl

/-- The comment of a title in Rust. -/
def rustTitle : TitleComment rustStyle := .ofLine _ "//! " rfl fun _ => rfl

/-- The lines behind the title of a text in C, up to the end of its block. -/
def blockEnd : List Char :=
  " * Generated by $1010 Compiler".toList ++ '\n' ::
    (" * Target: C (embedded)".toList ++ '\n' :: " */".toList)

/-- At the end of its block a reader is in no comment, also if the title closed the block before. -/
theorem after_blockEnd (state : CommentState) :
    cStyle.after state ('\n' :: blockEnd) = outside := by
  -- Literals are checked as lists of characters, which is much faster.
  have listed {first second third : List Char}
      (ends : cStyle.after state ('\n' :: (first ++ '\n' :: (second ++ '\n' :: third))) = outside) :
      cStyle.after state ('\n' :: ((String.ofList first).toList ++ '\n' ::
        ((String.ofList second).toList ++ '\n' :: (String.ofList third).toList))) = outside := by
    rwa [String.toList_ofList, String.toList_ofList, String.toList_ofList]
  apply listed
  cases state <;> decide

/-- The comment of a title in C is a block of five lines with the title in its second. -/
def cTitle : TitleComment cStyle where
  front := "/**\n * "
  entered := block
  behind := '\n' :: blockEnd
  enters _ := rfl
  leaves title := .inl ((cStyle.after_feed block title blockEnd).trans (after_blockEnd _))

/-- What a reader of a delivered text finds of its title outside of comments. -/
def exposed (target : Target) (title : String) : List Char :=
  match target with
  | assembly => assemblyTitle.exposed title
  | webAssembly => webAssemblyTitle.exposed title
  | c => cTitle.exposed title
  | rust => rustTitle.exposed title
  | intelHex => []

/-- Every block that is closed by a text in a block is opened again at once. -/
def reopens : List Char → Bool
  | [] => true
  | '*' :: '/' :: '/' :: '*' :: rest => reopens rest
  | '*' :: '/' :: _ => false
  | _ :: rest => reopens rest

/-- A title that cannot end its comment. -/
def Confines (target : Target) (title : String) : Prop :=
  match target with
  | assembly | webAssembly | rust => '\n' ∉ title.toList
  | c => reopens title.toList = true
  | intelHex => True

/-- Whether a title is confined to its comment can be computed. -/
instance (target : Target) (title : String) : Decidable (target.Confines title) :=
  match target with
  | assembly | webAssembly | rust => inferInstanceAs (Decidable ('\n' ∉ title.toList))
  | c => inferInstanceAs (Decidable (reopens title.toList = true))
  | intelHex => inferInstanceAs (Decidable True)

/-- A line is delivered with its line feed before the lines behind it. -/
theorem toList_joinLines_cons (line : String) (lines : List String) :
    (joinLines (line :: lines)).toList = line.toList ++ '\n' :: (joinLines lines).toList := by
  simp [joinLines]

/-- A text whose first line is a comment with the title. -/
theorem uncommented_first {style : CommentStyle} (comment : TitleComment style)
    (plain : comment.behind = []) {title : String} {lines : List String} (rest : List String)
    (first : lines = (comment.front ++ title) :: rest) :
    style.uncommented outside (joinLines lines).toList =
      comment.exposed title ++ '\n' :: style.uncommented outside (joinLines rest).toList := by
  apply comment.uncommented_text
  rw [first, toList_joinLines_cons, String.toList_append, plain, List.append_nil,
    List.append_assoc]

/-- A text in C, whose second line is in a block and has the title. -/
theorem uncommented_second (title : String) (stores : List Store) :
    cStyle.uncommented outside (joinLines (EmbeddedC.lines title stores)).toList =
      cTitle.exposed title ++ '\n' :: cStyle.uncommented outside
        (joinLines ((EmbeddedC.lines "" stores).drop 5)).toList := by
  have joined (first second third fourth fifth : String) (rest : List String) :
      (joinLines (first :: (second ++ title) :: third :: fourth :: fifth :: rest)).toList =
        first.toList ++ '\n' :: second.toList ++ (title.toList ++ '\n' :: (third.toList ++ '\n' ::
          (fourth.toList ++ '\n' :: fifth.toList)) ++ '\n' :: (joinLines rest).toList) := by
    simp only [toList_joinLines_cons, String.toList_append, List.append_assoc, List.cons_append]
  have front : "/**".toList ++ '\n' :: " * ".toList = cTitle.front.toList := rfl
  have split := joined "/**" " * " " * Generated by $1010 Compiler" " * Target: C (embedded)" " */"
    ((EmbeddedC.lines "" stores).drop 5)
  exact cTitle.uncommented_text title _ (split.trans (congrArg (· ++ _) front))

/-- A delivered text without its comments is what is found of the title, and a text that does not
depend on the title. -/
theorem uncomment_render (target : Target) (tempo : String) (settings : List Assembly.Setting)
    (stores : List Store) : ∃ fixed : List Char, ∀ title : String,
      target.uncomment (target.render ⟨title, tempo⟩ settings stores) =
        target.exposed title ++ fixed := by
  cases target with
  | assembly =>
    exact ⟨_, fun title => uncommented_first assemblyTitle rfl
      (Assembly.lines "" tempo settings stores).tail rfl⟩
  | webAssembly =>
    exact ⟨_, fun title => uncommented_first webAssemblyTitle rfl
      (WebAssembly.lines "" stores).tail rfl⟩
  | rust =>
    exact ⟨_, fun title => uncommented_first rustTitle rfl
      (EmbeddedRust.lines "" stores).tail rfl⟩
  | c => exact ⟨_, fun title => uncommented_second title stores⟩
  | intelHex =>
    refine ⟨(IntelHex.file (Image.ofStores stores).toList regionStart).toList, fun title => ?_⟩
    rw [uncomment, render, exposed, List.nil_append]

/-- Texts that differ in the title are the same without comments exactly when the same is found of
both titles. -/
theorem uncomment_render_eq_iff (target : Target) (title other tempo : String)
    (settings : List Assembly.Setting) (stores : List Store) :
    target.uncomment (target.render ⟨title, tempo⟩ settings stores) =
        target.uncomment (target.render ⟨other, tempo⟩ settings stores) ↔
      target.exposed title = target.exposed other := by
  obtain ⟨fixed, text⟩ := target.uncomment_render tempo settings stores
  rw [text title, text other, List.append_left_inj]

/-- A target takes its settings and stores from records without a look at the labels. -/
theorem emitRecords_eq_map (target : Target) (records : List Record) :
    ∃ parts : Except OperandFault (List Assembly.Setting × List Store), ∀ labels : Labels,
      target.emitRecords labels records =
        parts.map fun (settings, stores) => target.render labels settings stores := by
  have alone (stores : Except OperandFault (List Store)) :
      ∃ parts : Except OperandFault (List Assembly.Setting × List Store), ∀ labels : Labels,
        (do return target.render labels [] (← stores)) =
          parts.map fun (settings, stores) => target.render labels settings stores :=
    ⟨stores.map ([], ·), fun labels => by cases stores <;> rfl⟩
  cases target with
  | assembly =>
    refine ⟨do
      let settings ← records.mapM Assembly.recordSetting?
      let stores ← Record.regionStores records
      return (settings.filterMap id, stores), fun labels => ?_⟩
    rw [emitRecords]
    cases records.mapM Assembly.recordSetting? with
    | error fault => rfl
    | ok settings => cases Record.regionStores records <;> rfl
  | intelHex => exact alone _
  | webAssembly | c | rust => exact alone _

/-- Behind a closed block something is found, unless the block is opened again at once. -/
theorem uncommented_outside_ne_nil {text : List Char} (rest : List Char)
    (apart : ∀ more, text ≠ '/' :: '*' :: more) :
    cStyle.uncommented outside (text ++ '\n' :: rest) ≠ [] := by
  cases text with
  | nil =>
    rw [List.nil_append, cStyle.uncommented_newline (.inl rfl)]
    exact List.cons_ne_nil _ _
  | cons c text =>
    have unopened : (cStyle.blocks && ['/', '*'].isPrefixOf (c :: text)) = false := by
      rw [Bool.and_eq_false_iff]
      refine .inr (Bool.eq_false_iff.mpr fun found => ?_)
      obtain ⟨more, same⟩ := List.isPrefixOf_iff_prefix.mp found
      exact apart more same.symm
    rw [List.cons_append, CommentStyle.uncommented, cStyle.next_feed, CommentStyle.next, unopened,
      if_neg Bool.false_ne_true]
    split
    · -- A comment to the end of the line ends at the line feed, which is outside.
      intro nothing
      refine (cStyle.uncommented_line_eq_nil_iff (text ++ '\n' :: rest)).mp ?_ (by simp)
      exact (List.append_eq_nil_iff.mp nothing).2
    · exact List.cons_ne_nil _ _

/-- Nothing of a text is found outside of its block exactly when every block that it closes is
opened again at once. -/
theorem uncommented_block_eq_nil_iff {rest : List Char}
    (hidden : cStyle.uncommented block ('\n' :: rest) = []) (text : List Char) :
    cStyle.uncommented block (text ++ '\n' :: rest) = [] ↔ reopens text = true := by
  fun_induction reopens text with
  | case1 => exact iff_of_true hidden rfl
  | case2 text ih => exact ih
  | case3 text apart =>
    refine iff_of_false ?_ Bool.false_ne_true
    exact uncommented_outside_ne_nil rest fun more same => apart more same
  | case4 c text _ unclosed ih =>
    have inside : ['*', '/'].isPrefixOf (c :: text) = false := by
      refine Bool.eq_false_iff.mpr fun found => ?_
      obtain ⟨more, same⟩ := List.isPrefixOf_iff_prefix.mp found
      obtain ⟨star, slash⟩ := List.cons.inj same
      exact unclosed more star.symm slash.symm
    rw [List.cons_append, CommentStyle.uncommented, cStyle.next_feed, CommentStyle.next, inside,
      if_neg Bool.false_ne_true]
    exact ih

/-- Nothing of a title is found outside of comments exactly when it cannot end its comment. -/
theorem exposed_eq_nil_iff (target : Target) (title : String) :
    target.exposed title = [] ↔ target.Confines title := by
  have first {style : CommentStyle} (text : List Char) :
      style.uncommented line (text ++ []) = [] ↔ '\n' ∉ text := by
    rw [List.append_nil, style.uncommented_line_eq_nil_iff]
  cases target with
  | assembly | webAssembly | rust => exact first title.toList
  | c =>
    have hidden : cStyle.uncommented block ('\n' :: blockEnd) = [] := by decide +kernel
    exact uncommented_block_eq_nil_iff hidden title.toList
  | intelHex => exact iff_of_true rfl trivial

/-- Two views of one outcome agree where the views of its results do, and where it has none. -/
theorem outcome_map_eq_iff {ε α β γ : Type} {first second : α → β} {view : β → γ} {same : Prop}
    (outcome : Except ε α) (views : ∀ result, view (first result) = view (second result) ↔ same) :
    (outcome.map first).map view = (outcome.map second).map view ↔
      same ∨ ∃ fault, outcome.map first = .error fault := by
  cases outcome with
  | error fault => exact iff_of_true rfl (.inr ⟨fault, rfl⟩)
  | ok result => simp [Except.map, views]

/-- Delivered with two titles, instructions give texts that are the same without comments exactly
when the same is found of both titles outside of comments. So do records, unless they cannot be
delivered. Nothing is found of a title exactly when it cannot end its comment. -/
theorem uncomment_emit_eq_iff (target : Target) (title other tempo : String) :
    (∀ instructions : List Instruction,
      target.uncomment (target.emit ⟨title, tempo⟩ instructions) =
          target.uncomment (target.emit ⟨other, tempo⟩ instructions) ↔
        target.exposed title = target.exposed other) ∧
    (∀ records : List Record,
      (target.emitRecords ⟨title, tempo⟩ records).map target.uncomment =
          (target.emitRecords ⟨other, tempo⟩ records).map target.uncomment ↔
        target.exposed title = target.exposed other ∨
          ∃ fault, target.emitRecords ⟨title, tempo⟩ records = .error fault) ∧
    (target.exposed title = [] ↔ target.Confines title) := by
  refine ⟨fun instructions => target.uncomment_render_eq_iff .., fun records => ?_,
    target.exposed_eq_nil_iff title⟩
  obtain ⟨parts, texts⟩ := target.emitRecords_eq_map records
  rw [texts, texts]
  exact outcome_map_eq_iff parts fun (settings, stores) =>
    target.uncomment_render_eq_iff title other tempo settings stores

/-- A line feed, or the end of a block in C, gets a title out of its comment. -/
theorem uncomment_emit_ne_broken :
    (∀ target ∈ [assembly, webAssembly, rust],
      target.uncomment (target.emit ⟨"Song\n  sys exit", "128"⟩ []) ≠
        target.uncomment (target.emit ⟨"Song", "128"⟩ [])) ∧
    c.uncomment (c.emit ⟨"Song */ int x; /*", "128"⟩ []) ≠
      c.uncomment (c.emit ⟨"Song", "128"⟩ []) := by
  have broken {target : Target} {title other : String} (leaves : ¬ target.Confines title)
      (stays : target.Confines other) : target.uncomment (target.emit ⟨title, "128"⟩ []) ≠
        target.uncomment (target.emit ⟨other, "128"⟩ []) := by
    intro same
    have exposed := (target.uncomment_render_eq_iff title other "128" _ _).mp same
    rw [(target.exposed_eq_nil_iff other).mpr stays, target.exposed_eq_nil_iff] at exposed
    exact leaves exposed
  refine ⟨fun target language => ?_, broken (by decide) (by decide)⟩
  simp only [List.mem_cons, List.not_mem_nil, or_false] at language
  rcases language with rfl | rfl | rfl <;> exact broken (by decide) (by decide)

end Target

end StepSequencer
