import StepSequencer.Clause.Meaning
import StepSequencer.Proofs.Token.Edge

/-!
# The grammar of programs

Which tokens make a program is said here without a reader: tokens split into phrases, and each shape
of phrase is listed with the statement that it stands for. Shapes that could go on say what must
not follow them, so a phrase is always as long as it can be. Reading finds no error exactly in the
token lists that split, and then its statements are those of the phrases. There is only one
splitting, because reading finds it.
-/
namespace StepSequencer.Grammar

/-- The lexeme of the first token. -/
def next? (tokens : List (Token Int)) : Option (Lexeme Int) := tokens.head?.map Token.lexeme

/-- Whether the first token is a name. -/
def NameNext (tokens : List (Token Int)) : Prop := ∃ name, next? tokens = some (.identifier name)

/-- An item of a scene before certain tokens: an assignment, or a name that no colon follows. -/
inductive Item : List (Token Int) → Option Assignment → List (Token Int) → Prop where
  | assign (voice pattern : String) (place colon name : Position) (rest : List (Token Int)) :
      Item [⟨.identifier voice, place⟩, ⟨.colon, colon⟩, ⟨.identifier pattern, name⟩]
        (some ⟨voice, some pattern⟩) rest
  | bare (name : String) (place : Position) {rest : List (Token Int)}
      (apart : next? rest ≠ some .colon) : Item [⟨.identifier name, place⟩] none rest

/-- All items that stand directly before certain tokens, which do not start with one more. -/
inductive Items : List (Token Int) → List Assignment → List (Token Int) → Prop where
  | done {rest : List (Token Int)}
      (last : ∀ words assignment behind, Item words assignment behind → rest ≠ words ++ behind) :
      Items [] [] rest
  | more {words others rest : List (Token Int)} {assignment : Option Assignment}
      {assignments : List Assignment} (first : Item words assignment (others ++ rest))
      (later : Items others assignments rest) :
      Items (words ++ others) (assignment.toList ++ assignments) rest

/-- The shapes of phrases: the tokens of a phrase, the statement that it stands for, if any, and the
tokens behind it. -/
inductive Phrase : List (Token Int) → Option Statement → List (Token Int) → Prop where
  | comment (text : String) (place : Position) (rest : List (Token Int)) :
      Phrase [⟨.comment text, place⟩] (some (.comment place.line text)) rest
  | title (text : String) (place operand : Position) (rest : List (Token Int)) :
      Phrase [⟨.directive "title", place⟩, ⟨.string text, operand⟩]
        (some (.title place.line text)) rest
  | tempo (bpm : Int) (place operand : Position) (rest : List (Token Int)) :
      Phrase [⟨.directive "tempo", place⟩, ⟨.number bpm, operand⟩]
        (some (.tempo place.line (clamp tempoMin tempoMax bpm))) rest
  | swing (percent : Int) (place operand : Position) (rest : List (Token Int)) :
      Phrase [⟨.directive "swing", place⟩, ⟨.number percent, operand⟩]
        (some (.swing place.line (clamp swingMin swingMax percent))) rest
  | pattern (name text : String) (place first second : Position) (rest : List (Token Int)) :
      Phrase [⟨.directive "pattern", place⟩, ⟨.identifier name, first⟩, ⟨.string text, second⟩]
        (some (.pattern ⟨name, text, Steps.decode text.toList, place.line⟩)) rest
  | scene (name : String) (place operand : Position) {items rest : List (Token Int)}
      {assignments : List Assignment} (members : Items items assignments rest) :
      Phrase (⟨.directive "scene", place⟩ :: ⟨.identifier name, operand⟩ :: items)
        (some (.scene ⟨name, assignments, place.line⟩)) rest
  | play (place : Position) {rest : List (Token Int)} (unnamed : ¬NameNext rest) :
      Phrase [⟨.directive "play", place⟩] (some (.play place.line none false)) rest
  | playScene (name : String) (place operand : Position) {rest : List (Token Int)}
      (once : next? rest ≠ some (.identifier "loop")) :
      Phrase [⟨.directive "play", place⟩, ⟨.identifier name, operand⟩]
        (some (.play place.line (some name) false)) rest
  | playLoop (name : String) (place first second : Position) (rest : List (Token Int)) :
      Phrase [⟨.directive "play", place⟩, ⟨.identifier name, first⟩, ⟨.identifier "loop", second⟩]
        (some (.play place.line (some name) true)) rest
  | stop (place : Position) (rest : List (Token Int)) :
      Phrase [⟨.directive "stop", place⟩] (some (.stop place.line)) rest
  | gate (voice : String) (value : Int) (place first second : Position) (rest : List (Token Int)) :
      Phrase [⟨.directive "param", place⟩, ⟨.identifier voice, first⟩, ⟨.number value, second⟩]
        (some (.param place.line (some voice) (some "gate") value)) rest
  | param (voice parameter : String) (value : Int) (place first second third : Position)
      (rest : List (Token Int)) :
      Phrase [⟨.directive "param", place⟩, ⟨.identifier voice, first⟩,
          ⟨.identifier parameter, second⟩, ⟨.number value, third⟩]
        (some (.param place.line (some voice) (some parameter) value)) rest
  | poke (address value : Int) (place first second : Position) (rest : List (Token Int)) :
      Phrase [⟨.directive "poke", place⟩, ⟨.number address, first⟩, ⟨.number value, second⟩]
        (some (.poke place.line address value)) rest
  | loop (count : Int) (place operand : Position) (rest : List (Token Int)) :
      Phrase [⟨.directive "loop", place⟩, ⟨.number count, operand⟩]
        (some (.loop place.line count)) rest
  | wait (steps : Int) (place operand : Position) (rest : List (Token Int)) :
      Phrase [⟨.directive "wait", place⟩, ⟨.number steps, operand⟩]
        (some (.wait place.line steps)) rest
  | assign (voice pattern : String) (place colon name : Position) (rest : List (Token Int)) :
      Phrase [⟨.identifier voice, place⟩, ⟨.colon, colon⟩, ⟨.identifier pattern, name⟩]
        (some (.assign place.line ⟨voice, some pattern⟩)) rest
  | bare (name : String) (place : Position) {rest : List (Token Int)}
      (apart : next? rest ≠ some .colon) : Phrase [⟨.identifier name, place⟩] none rest
  | number (value : Int) (place : Position) (rest : List (Token Int)) :
      Phrase [⟨.number value, place⟩] none rest
  | string (text : String) (place : Position) (rest : List (Token Int)) :
      Phrase [⟨.string text, place⟩] none rest
  | colon (place : Position) (rest : List (Token Int)) : Phrase [⟨.colon, place⟩] none rest

/-- Tokens split into phrases from left to right, each with its statement. -/
inductive Splits : List (Token Int) → List (List (Token Int) × Option Statement) → Prop where
  | nil : Splits [] []
  | cons {words rest : List (Token Int)} {statement : Option Statement}
      {phrases : List (List (Token Int) × Option Statement)} (first : Phrase words statement rest)
      (later : Splits rest phrases) : Splits (words ++ rest) ((words, statement) :: phrases)

/-- A token as the scanner gives it for phrases: neither a line feed nor the end of input, and
without a dot if it is a name. -/
structure Proper (token : Token Int) : Prop where
  inline : token.lexeme ≠ .newline
  inner : token.lexeme ≠ .endOfInput
  undotted : ∀ name, token.lexeme = .identifier name → '.' ∉ name.toList

open Clause

/-! ### What reading takes -/

/-- An operand that is not missed stands at the front. -/
theorem front_of_errors {α : Type} {accept : Lexeme Int → Option α} {build : α → Lexeme Int}
    (inverse : ∀ lexeme value, accept lexeme = some value → lexeme = build value)
    {operand : Operand} {stop : Position} {tokens : List (Token Int)}
    (complete : (take accept operand stop tokens).1.errors = []) :
    ∃ value place rest, tokens = ⟨build value, place⟩ :: rest := by
  cases tokens with
  | nil => contradiction
  | cons token rest =>
    obtain ⟨lexeme, place⟩ := token
    rw [take] at complete
    cases accepted : accept lexeme with
    | none =>
      simp only [accepted] at complete
      contradiction
    | some value => exact ⟨value, place, rest, by rw [inverse lexeme value accepted]⟩

/-- Only an identifier has a name. -/
theorem eq_identifier {lexeme : Lexeme Int} {name : String} (named : lexeme.name? = some name) :
    lexeme = .identifier name := by
  cases lexeme <;> first | contradiction | exact congrArg _ (Option.some.inj named)

/-- Only a string has a text. -/
theorem eq_string {lexeme : Lexeme Int} {text : String} (found : lexeme.text? = some text) :
    lexeme = .string text := by
  cases lexeme <;> first | contradiction | exact congrArg _ (Option.some.inj found)

/-- Only a number has a value. -/
theorem eq_number {lexeme : Lexeme Int} {value : Int} (found : lexeme.number? = some value) :
    lexeme = .number value := by
  cases lexeme <;> first | contradiction | exact congrArg _ (Option.some.inj found)

/-- A name in front is a name that is next. -/
theorem nameNext_of_name? {token : Token Int} {name : String}
    (named : token.lexeme.name? = some name) (rest : List (Token Int)) : NameNext (token :: rest) :=
  ⟨name, congrArg some (eq_identifier named)⟩

/-- What is next is the first of the tokens. -/
theorem cons_of_next? {tokens : List (Token Int)} {lexeme : Lexeme Int}
    (first : next? tokens = some lexeme) : ∃ place rest, tokens = ⟨lexeme, place⟩ :: rest := by
  obtain ⟨token, head, same⟩ := Option.map_eq_some_iff.mp first
  obtain ⟨rest, rfl⟩ := List.head?_eq_some_iff.mp head
  exact ⟨token.place, rest, by rw [← same]⟩

/-- A colon is next just if the next lexeme is one. -/
theorem colonNext_iff {tokens : List (Token Int)} :
    colonNext tokens = true ↔ next? tokens = some .colon := by
  cases tokens with
  | nil => simp [colonNext, next?]
  | cons token rest =>
    obtain ⟨lexeme, place⟩ := token
    cases lexeme <;> simp [colonNext, next?, Lexeme.isColon]

/-- A name without a dot is a voice whole. -/
theorem target_undotted {name : String} (undotted : '.' ∉ name.toList) (second : Option String) :
    target name second = (name, second.getD "gate") := by
  have all : ∀ c ∈ name.toList, (c != '.') = true := by
    intro c member
    rw [bne_iff_ne]
    exact fun same => undotted (same ▸ member)
  have whole := Text.takeWhile_run all (Text.stops_nil _)
  have behind := Text.dropWhile_run all (Text.stops_nil _)
  rw [List.append_nil] at whole behind
  simp only [target, whole, behind, String.ofList_toList]
  rfl

/-- Each item of a scene starts with a name. -/
theorem Item.nameNext {words behind : List (Token Int)} {assignment : Option Assignment}
    (item : Item words assignment behind) : NameNext (words ++ behind) := by
  cases item with
  | assign voice => exact ⟨voice, rfl⟩
  | bare name => exact ⟨name, rfl⟩

/-- Where no name follows, there is no item. -/
theorem Items.none {rest : List (Token Int)} (unnamed : ¬NameNext rest) : Items [] [] rest := by
  refine .done fun words assignment behind item same => unnamed ?_
  rw [same]
  exact item.nameNext

/-! ### What is read without an error is a phrase -/

/-- Items that miss nothing are all the items at the front. -/
theorem items_of_takeMembers (stop : Position) (tokens : List (Token Int))
    (complete : (takeMembers stop tokens).1.flatMap Member.errors = []) :
    ∃ items, tokens = items ++ (takeMembers stop tokens).2 ∧
      Items items ((takeMembers stop tokens).1.filterMap Member.assignment?)
        (takeMembers stop tokens).2 := by
  fun_induction takeMembers stop tokens with
  | case1 =>
    have unnamed : ¬NameNext [] := by
      rintro ⟨name, named⟩
      exact Option.some_ne_none _ named.symm
    exact ⟨[], rfl, .none unnamed⟩
  | case2 token rest unnamed =>
    refine ⟨[], rfl, .none ?_⟩
    rintro ⟨name, named⟩
    rw [Option.some.inj named] at unnamed
    contradiction
  | case3 token rest name named colon pattern more ih =>
    rw [List.flatMap_cons, List.append_eq_nil_iff] at complete
    obtain ⟨lexeme, place⟩ := token
    obtain rfl := eq_identifier named
    obtain ⟨colonPlace, tail, rfl⟩ := cons_of_next? (colonNext_iff.mp colon)
    obtain ⟨played, playedPlace, behind, found⟩ :=
      front_of_errors (fun _ _ => eq_identifier) complete.1
    obtain rfl : tail = ⟨.identifier played, playedPlace⟩ :: behind := found
    obtain ⟨items, split, later⟩ := ih complete.2
    have split : behind = items ++ more.2 := split
    have first := Item.assign name played place colonPlace playedPlace (items ++ more.2)
    refine ⟨_, ?_, .more first later⟩
    rw [split]
    rfl
  | case4 token rest name named colon more ih =>
    obtain ⟨lexeme, place⟩ := token
    obtain rfl := eq_identifier named
    obtain ⟨items, split, later⟩ := ih complete
    have apart : next? (items ++ more.2) ≠ some .colon := by
      rw [← split, ne_eq, ← colonNext_iff]
      exact colon
    refine ⟨_, ?_, .more (.bare name place apart) later⟩
    rw [List.singleton_append, List.cons_append, ← split]

/-- A name at the front is taken, and nothing else. -/
theorem takeName?_cases (tokens : List (Token Int)) :
    (¬NameNext tokens ∧ takeName? tokens = (none, tokens)) ∨
      ∃ name place rest, tokens = ⟨.identifier name, place⟩ :: rest ∧
        takeName? tokens = (some name, rest) := by
  by_cases named : NameNext tokens
  · obtain ⟨name, first⟩ := named
    obtain ⟨place, rest, rfl⟩ := cons_of_next? first
    exact .inr ⟨name, place, rest, rfl, rfl⟩
  · refine .inl ⟨named, ?_⟩
    cases tokens with
    | nil => rfl
    | cons token rest =>
      rw [takeName?]
      cases found : token.lexeme.name? with
      | none => rfl
      | some name => exact absurd (nameNext_of_name? found rest) named

/-- The word `loop` is taken where it follows. -/
theorem takeLoop_cases (tokens : List (Token Int)) :
    (next? tokens ≠ some (.identifier "loop") ∧ takeLoop tokens = (false, tokens)) ∨
      ∃ place rest, tokens = ⟨.identifier "loop", place⟩ :: rest ∧
        takeLoop tokens = (true, rest) := by
  unfold takeLoop
  rcases takeName?_cases tokens with ⟨unnamed, none⟩ | ⟨name, place, rest, rfl, some⟩
  · rw [none]
    exact .inl ⟨fun looped => unnamed ⟨"loop", looped⟩, rfl⟩
  · rw [some]
    by_cases looped : name = "loop"
    · subst looped
      exact .inr ⟨place, rest, rfl, rfl⟩
    · refine .inl ⟨fun same => looped (Lexeme.identifier.inj (Option.some.inj same)), ?_⟩
      split
      · next found => exact absurd (Option.some.inj (congrArg Prod.fst found)) looped
      · rfl

/-- A clause that was read behind a first token is a phrase with it. -/
def IsPhrase (first : Token Int) (tokens : List (Token Int))
    (read : Clause Int × List (Token Int)) : Prop :=
  ∃ words, tokens = words ++ read.2 ∧ Phrase (first :: words) read.1.statement? read.2

/-- A second name is taken or left where it is. -/
theorem takeSecondName_cases (tokens : List (Token Int)) :
    takeSecondName tokens = (none, tokens) ∨
      ∃ name place rest, tokens = ⟨.identifier name, place⟩ :: rest ∧
        takeSecondName tokens = (some name, rest) := by
  unfold takeSecondName
  split
  · exact .inl rfl
  · rcases takeName?_cases tokens with ⟨_, none⟩ | some
    · exact .inl none
    · exact .inr some

/-- A parameter whose voice has no dot means its two names, the second of them the gate if it is
left out. -/
theorem statement?_param (line : Int) {voice : String} (plain : '.' ∉ voice.toList)
    (second : Option String) (value : Int) :
    (Clause.param line (.found (voice, second)) (.found value)).statement? =
      some (.param line (some voice) (some (second.getD "gate")) value) := by
  simp only [statement?, Slot.get?, Option.map_some, target_undotted plain second, Slot.getD]

/-- The tokens that a `@param` takes without an error are a phrase of it. -/
theorem isPhrase_param (stop place : Position) {tokens : List (Token Int)}
    (proper : ∀ token ∈ tokens, Proper token)
    (complete : (ofDirective stop place.line tokens .param).1.errors = []) :
    IsPhrase ⟨.directive "param", place⟩ tokens (ofDirective stop place.line tokens .param) := by
  obtain ⟨targeted, valued⟩ := List.append_eq_nil_iff.mp complete
  have named : (take Lexeme.name? .paramTarget stop tokens).1.errors = [] := by
    rw [takeTarget] at targeted
    split at targeted
    · next found => rw [found]; rfl
    · contradiction
  obtain ⟨voice, voicePlace, tail, rfl⟩ := front_of_errors (fun _ _ => eq_identifier) named
  have plain := (proper _ List.mem_cons_self).undotted voice rfl
  have operand : (take Lexeme.number? .paramValue stop (takeSecondName tail).2).1.errors = [] :=
    valued
  have read : ofDirective stop place.line (⟨.identifier voice, voicePlace⟩ :: tail) .param =
      (.param place.line (.found (voice, (takeSecondName tail).1))
          (take Lexeme.number? .paramValue stop (takeSecondName tail).2).1,
        (take Lexeme.number? .paramValue stop (takeSecondName tail).2).2) := rfl
  rw [read]
  rcases takeSecondName_cases tail with single | ⟨name, namePlace, rest, rfl, double⟩
  · rw [single] at operand ⊢
    obtain ⟨value, valuePlace, behind, rfl⟩ := front_of_errors (fun _ _ => eq_number) operand
    have phrase := Phrase.gate voice value place voicePlace valuePlace behind
    have statement := statement?_param place.line plain none value
    exact ⟨[_, _], rfl, statement ▸ phrase⟩
  · rw [double] at operand ⊢
    obtain ⟨value, valuePlace, behind, rfl⟩ := front_of_errors (fun _ _ => eq_number) operand
    have phrase := Phrase.param voice name value place voicePlace namePlace valuePlace behind
    have statement := statement?_param place.line plain (some name) value
    exact ⟨[_, _, _], rfl, statement ▸ phrase⟩

/-- A name and then the word `loop` belong to a play where they follow it. -/
theorem isPhrase_play (stop place : Position) (tokens : List (Token Int)) :
    IsPhrase ⟨.directive "play", place⟩ tokens (ofDirective stop place.line tokens .play) := by
  have read : ofDirective stop place.line tokens .play =
      (.play place.line (takeName? tokens).1 (takeLoop (takeName? tokens).2).1,
        (takeLoop (takeName? tokens).2).2) := rfl
  rw [read]
  rcases takeName?_cases tokens with ⟨unnamed, none⟩ | ⟨name, namePlace, rest, rfl, some⟩
  · have once : takeLoop tokens = (false, tokens) := by
      rw [takeLoop, none]
    rw [none, once]
    exact ⟨[], rfl, .play place unnamed⟩
  · rw [some]
    rcases takeLoop_cases rest with ⟨other, once⟩ | ⟨loopPlace, behind, rfl, looped⟩
    · rw [once]
      exact ⟨[_], rfl, .playScene name place namePlace other⟩
    · rw [looped]
      exact ⟨[_, _], rfl, .playLoop name place namePlace loopPlace behind⟩

/-- A directive whose operands are all found is a phrase with them. -/
theorem isPhrase_directive (stop place : Position) {tokens : List (Token Int)}
    (proper : ∀ token ∈ tokens, Proper token) (directive : Directive)
    (complete : (ofDirective stop place.line tokens directive).1.errors = []) :
    IsPhrase ⟨.directive directive.name, place⟩ tokens
      (ofDirective stop place.line tokens directive) := by
  cases directive with
  | title =>
    have quoted : (take Lexeme.text? .titleText stop tokens).1.errors = [] := complete
    obtain ⟨text, operand, rest, rfl⟩ := front_of_errors (fun _ _ => eq_string) quoted
    exact ⟨[_], rfl, .title text place operand rest⟩
  | tempo =>
    have valued : (take Lexeme.number? .tempo stop tokens).1.errors = [] := complete
    obtain ⟨bpm, operand, rest, rfl⟩ := front_of_errors (fun _ _ => eq_number) valued
    exact ⟨[_], rfl, .tempo bpm place operand rest⟩
  | swing =>
    have valued : (take Lexeme.number? .swing stop tokens).1.errors = [] := complete
    obtain ⟨percent, operand, rest, rfl⟩ := front_of_errors (fun _ _ => eq_number) valued
    exact ⟨[_], rfl, .swing percent place operand rest⟩
  | pattern =>
    obtain ⟨named, quoted⟩ := List.append_eq_nil_iff.mp complete
    obtain ⟨name, namePlace, tail, rfl⟩ := front_of_errors (fun _ _ => eq_identifier) named
    have quoted : (take Lexeme.text? .patternText stop tail).1.errors = [] := quoted
    obtain ⟨text, textPlace, rest, rfl⟩ := front_of_errors (fun _ _ => eq_string) quoted
    exact ⟨[_, _], rfl, .pattern name text place namePlace textPlace rest⟩
  | scene =>
    obtain ⟨named, members⟩ := List.append_eq_nil_iff.mp complete
    obtain ⟨name, namePlace, tail, rfl⟩ := front_of_errors (fun _ _ => eq_identifier) named
    obtain ⟨items, split, all⟩ := items_of_takeMembers stop tail members
    exact ⟨_ :: items, congrArg (List.cons _) split, .scene name place namePlace all⟩
  | play => exact isPhrase_play stop place tokens
  | stop => exact ⟨[], rfl, .stop place tokens⟩
  | param => exact isPhrase_param stop place proper complete
  | poke =>
    obtain ⟨addressed, valued⟩ := List.append_eq_nil_iff.mp complete
    obtain ⟨address, addressPlace, tail, rfl⟩ := front_of_errors (fun _ _ => eq_number) addressed
    have valued : (take Lexeme.number? .value stop tail).1.errors = [] := valued
    obtain ⟨value, valuePlace, rest, rfl⟩ := front_of_errors (fun _ _ => eq_number) valued
    exact ⟨[_, _], rfl, .poke address value place addressPlace valuePlace rest⟩
  | loop =>
    have counted : (take Lexeme.number? .loopCount stop tokens).1.errors = [] := complete
    obtain ⟨count, operand, rest, rfl⟩ := front_of_errors (fun _ _ => eq_number) counted
    exact ⟨[_], rfl, .loop count place operand rest⟩
  | wait =>
    have counted : (take Lexeme.number? .stepCount stop tokens).1.errors = [] := complete
    obtain ⟨steps, operand, rest, rfl⟩ := front_of_errors (fun _ _ => eq_number) counted
    exact ⟨[_], rfl, .wait steps place operand rest⟩

/-- A clause that was read without an error is a phrase. -/
theorem isPhrase_read (stop : Position) {token : Token Int} {rest : List (Token Int)}
    (proper : ∀ other ∈ token :: rest, Proper other)
    (complete : (read stop token rest).1.errors = []) :
    IsPhrase token rest (read stop token rest) := by
  obtain ⟨lexeme, place⟩ := token
  cases lexeme with
  | comment text => exact ⟨[], rfl, .comment text place rest⟩
  | directive name =>
    cases found : Directive.ofName? name with
    | none =>
      simp only [Clause.read, found] at complete
      contradiction
    | some directive =>
      have same := List.find?_some found
      have spelled : directive.name = name := beq_iff_eq.mp same
      have clause : read stop ⟨.directive name, place⟩ rest =
          ofDirective stop place.line rest directive := by
        simp only [Clause.read, found]
      rw [clause] at complete ⊢
      rw [← spelled]
      exact isPhrase_directive stop place (List.forall_mem_cons.mp proper).2 directive complete
  | identifier name =>
    by_cases colon : colonNext rest = true
    · have clause : read stop ⟨.identifier name, place⟩ rest =
          (.assign place.line name (take Lexeme.name? .patternName stop (rest.drop 1)).1,
            (take Lexeme.name? .patternName stop (rest.drop 1)).2) := by
        simp only [Clause.read, colon, if_true]
      rw [clause] at complete ⊢
      obtain ⟨colonPlace, tail, rfl⟩ := cons_of_next? (colonNext_iff.mp colon)
      obtain ⟨pattern, patternPlace, behind, found⟩ :=
        front_of_errors (fun _ _ => eq_identifier) complete
      obtain rfl : tail = ⟨.identifier pattern, patternPlace⟩ :: behind := found
      exact ⟨[_, _], rfl, .assign name pattern place colonPlace patternPlace behind⟩
    · have clause : read stop ⟨.identifier name, place⟩ rest = (.bare name place, rest) := by
        simp only [Clause.read, if_neg colon]
      rw [clause]
      exact ⟨[], rfl, .bare name place (mt colonNext_iff.mpr colon)⟩
  | number value => exact ⟨[], rfl, .number value place rest⟩
  | string text => exact ⟨[], rfl, .string text place rest⟩
  | colon => exact ⟨[], rfl, .colon place rest⟩
  | newline => exact absurd rfl (proper _ List.mem_cons_self).inline
  | endOfInput => exact absurd rfl (proper _ List.mem_cons_self).inner

/-- Tokens that are read without an error split. -/
theorem splits_of_group (stop : Position) (tokens : List (Token Int))
    (proper : ∀ token ∈ tokens, Proper token)
    (complete : (group stop tokens).flatMap Clause.errors = []) :
    ∃ phrases, Splits tokens phrases := by
  fun_induction group stop tokens with
  | case1 => exact ⟨[], .nil⟩
  | case2 token rest clause ih =>
    rw [List.flatMap_cons, List.append_eq_nil_iff] at complete
    obtain ⟨words, split, phrase⟩ := isPhrase_read stop proper complete.1
    have behind : ∀ other ∈ clause.2, Proper other := by
      intro other member
      apply proper other
      rw [split]
      exact List.mem_cons_of_mem token (List.mem_append_right words member)
    obtain ⟨phrases, later⟩ := ih behind complete.2
    have whole := Splits.cons phrase later
    rw [List.cons_append, ← split] at whole
    exact ⟨_, whole⟩

/-! ### A phrase is read without an error -/

/-- The first name of tokens that split starts an item. -/
theorem Splits.item_of_name {tokens : List (Token Int)}
    {phrases : List (List (Token Int) × Option Statement)} (splits : Splits tokens phrases)
    (named : NameNext tokens) :
    ∃ words assignment behind, Item words assignment behind ∧ tokens = words ++ behind := by
  obtain ⟨name, first⟩ := named
  cases splits with
  | nil => contradiction
  | @cons words rest statement phrases phrase later =>
    cases phrase with
    | assign voice pattern place colon name =>
      exact ⟨_, _, rest, .assign voice pattern place colon name rest, rfl⟩
    | bare name place apart => exact ⟨_, _, rest, .bare name place apart, rfl⟩
    | _ => exact nomatch Option.some.inj first

/-- Behind all the items of a scene, tokens that split do not start with a name. -/
theorem Items.unnamed {items rest : List (Token Int)} {assignments : List Assignment}
    (all : Items items assignments rest)
    {phrases : List (List (Token Int) × Option Statement)} (later : Splits rest phrases) :
    ¬NameNext rest := by
  induction all with
  | done last =>
    intro named
    obtain ⟨words, assignment, behind, item, same⟩ := later.item_of_name named
    exact last words assignment behind item same
  | more _ _ ih => exact ih later

/-- Without a name that is next a scene has no more items. -/
theorem takeMembers_of_unnamed (stop : Position) {rest : List (Token Int)}
    (unnamed : ¬NameNext rest) : takeMembers stop rest = ([], rest) := by
  cases rest with
  | nil => rw [takeMembers]
  | cons token rest =>
    rw [takeMembers]
    split
    · rfl
    · next found => exact absurd (nameNext_of_name? found rest) unnamed

/-- All items before tokens that do not start with a name are taken, and none misses anything. -/
theorem takeMembers_of_items (stop : Position) {items rest : List (Token Int)}
    {assignments : List Assignment} (all : Items items assignments rest)
    (unnamed : ¬NameNext rest) :
    ∃ members, takeMembers stop (items ++ rest) = (members, rest) ∧
      members.filterMap Member.assignment? = assignments ∧
      members.flatMap Member.errors = [] := by
  induction all with
  | done last => exact ⟨[], takeMembers_of_unnamed stop unnamed, rfl, rfl⟩
  | @more words others rest assignment assignments first later ih =>
    obtain ⟨members, taken, assigned, complete⟩ := ih unnamed
    rw [List.append_assoc]
    cases first with
    | assign voice pattern place colon name =>
      refine ⟨.assign voice (.found pattern) :: members, ?_, ?_, complete⟩
      · simp only [List.cons_append, List.nil_append]
        rw [takeMembers]
        exact congrArg (fun more => (.assign voice (.found pattern) :: more.1, more.2)) taken
      · rw [← assigned]
        rfl
    | bare name place apart =>
      have unmarked : ¬colonNext (others ++ rest) = true := mt colonNext_iff.mp apart
      refine ⟨.bare name :: members, ?_, assigned, complete⟩
      rw [List.singleton_append, takeMembers]
      simp only [Lexeme.name?, if_neg unmarked, taken]

/-- A phrase before tokens that split is read as one clause with its statement, and nothing is
missed in it. -/
theorem read_of_phrase (stop : Position) {words rest : List (Token Int)}
    {statement : Option Statement} {phrases : List (List (Token Int) × Option Statement)}
    (phrase : Phrase words statement rest) (later : Splits rest phrases)
    (proper : ∀ token ∈ words, Proper token) :
    ∃ token tail clause, words ++ rest = token :: tail ∧
      Clause.read stop token tail = (clause, rest) ∧ clause.errors = [] ∧
      clause.statement? = statement := by
  cases phrase with
  | @scene name place operand items rest assignments all =>
    obtain ⟨members, taken, assigned, complete⟩ :=
      takeMembers_of_items stop all (all.unnamed later)
    refine ⟨_, _, .scene place.line (.found name) members, rfl, ?_, complete, ?_⟩
    · exact congrArg
        (fun more => (Clause.scene place.line (.found name) more.1, more.2)) taken
    · rw [← assigned]
      rfl
  | play place unnamed =>
    have left : takeName? rest = (none, rest) := by
      rcases takeName?_cases rest with ⟨_, left⟩ | ⟨name, place, tail, rfl, _⟩
      · exact left
      · exact absurd ⟨name, rfl⟩ unnamed
    have once : takeLoop rest = (false, rest) := by
      rw [takeLoop, left]
    have read : Clause.read stop ⟨.directive "play", place⟩ rest =
        (.play place.line (takeName? rest).1 (takeLoop (takeName? rest).2).1,
          (takeLoop (takeName? rest).2).2) := rfl
    rw [left, once] at read
    exact ⟨_, _, _, rfl, read, rfl, rfl⟩
  | playScene name place operand once =>
    have read : Clause.read stop ⟨.directive "play", place⟩ (⟨.identifier name, operand⟩ :: rest) =
        (.play place.line (some name) false, rest) := by
      rcases takeLoop_cases rest with ⟨_, left⟩ | ⟨loopPlace, tail, rfl, _⟩
      · exact congrArg (fun more => (Clause.play place.line (some name) more.1, more.2)) left
      · exact absurd rfl once
    exact ⟨_, _, _, rfl, read, rfl, rfl⟩
  | gate voice value place first second =>
    have plain := (proper _ (List.mem_cons_of_mem _ List.mem_cons_self)).undotted voice rfl
    have statement := statement?_param place.line plain none value
    have single : takeSecondName (⟨.number value, second⟩ :: rest) =
        (none, ⟨.number value, second⟩ :: rest) := by
      unfold takeSecondName
      split <;> rfl
    have read : Clause.read stop ⟨.directive "param", place⟩
        (⟨.identifier voice, first⟩ :: ⟨.number value, second⟩ :: rest) =
          (.param place.line
            (.found (voice, (takeSecondName (⟨.number value, second⟩ :: rest)).1))
            (take Lexeme.number? .paramValue stop
              (takeSecondName (⟨.number value, second⟩ :: rest)).2).1,
          (take Lexeme.number? .paramValue stop
            (takeSecondName (⟨.number value, second⟩ :: rest)).2).2) := rfl
    rw [single] at read
    exact ⟨_, _, _, rfl, read, rfl, statement⟩
  | param voice parameter value place first second third =>
    have plain := (proper _ (List.mem_cons_of_mem _ List.mem_cons_self)).undotted voice rfl
    have statement := statement?_param place.line plain (some parameter) value
    exact ⟨_, _, .param place.line (.found (voice, some parameter)) (.found value), rfl, rfl, rfl,
      statement⟩
  | bare name place apart =>
    have unmarked : ¬colonNext rest = true := mt colonNext_iff.mp apart
    have read : Clause.read stop ⟨.identifier name, place⟩ rest = (.bare name place, rest) := by
      simp only [Clause.read, if_neg unmarked]
    exact ⟨_, _, _, rfl, read, rfl, rfl⟩
  | _ => exact ⟨_, _, _, rfl, rfl, rfl, rfl⟩

/-- The first phrase of tokens that split is what reading takes from them. -/
theorem Splits.front (stop : Position) {token : Token Int} {tail : List (Token Int)}
    {phrases : List (List (Token Int) × Option Statement)}
    (splits : Splits (token :: tail) phrases)
    (proper : ∀ other ∈ token :: tail, Proper other) :
    ∃ words others,
      phrases = (words, (Clause.read stop token tail).1.statement?) :: others ∧
      token :: tail = words ++ (Clause.read stop token tail).2 ∧
      (Clause.read stop token tail).1.errors = [] ∧
      Splits (Clause.read stop token tail).2 others := by
  generalize whole : token :: tail = tokens at splits proper
  cases splits with
  | nil => contradiction
  | cons phrase later =>
    obtain ⟨first, behind, clause, split, read, complete, means⟩ :=
      read_of_phrase stop phrase later (List.forall_mem_append.mp proper).1
    obtain ⟨rfl, rfl⟩ := List.cons.inj (whole.trans split)
    rw [read, ← means]
    exact ⟨_, _, rfl, rfl, complete, later⟩

/-- A phrase has at least one token. -/
theorem Phrase.ne_nil {words rest : List (Token Int)} {statement : Option Statement}
    (phrase : Phrase words statement rest) : words ≠ [] := by
  cases phrase <;> exact List.cons_ne_nil _ _

/-- No tokens are split into no phrases. -/
theorem Splits.eq_nil {phrases : List (List (Token Int) × Option Statement)}
    (splits : Splits [] phrases) : phrases = [] := by
  generalize whole : [] = tokens at splits
  cases splits with
  | nil => rfl
  | cons phrase later => exact absurd (List.append_eq_nil_iff.mp whole.symm).1 phrase.ne_nil

/-- What is read of proper tokens leaves proper tokens. -/
theorem proper_behind {token : Token Int} {words behind rest : List (Token Int)}
    (split : token :: rest = words ++ behind) (proper : ∀ other ∈ token :: rest, Proper other) :
    ∀ other ∈ behind, Proper other := by
  rw [split, List.forall_mem_append] at proper
  exact proper.2

/-- Tokens that split are read as their phrases, without an error. -/
theorem group_of_splits (stop : Position) {tokens : List (Token Int)}
    {phrases : List (List (Token Int) × Option Statement)} (splits : Splits tokens phrases)
    (proper : ∀ token ∈ tokens, Proper token) :
    (group stop tokens).flatMap Clause.errors = [] ∧
      (group stop tokens).filterMap Clause.statement? = phrases.filterMap Prod.snd := by
  fun_induction group stop tokens generalizing phrases with
  | case1 =>
    obtain rfl := splits.eq_nil
    exact ⟨rfl, rfl⟩
  | case2 token rest clause =>
    rename_i ih
    obtain ⟨words, others, rfl, split, complete, later⟩ := splits.front stop proper
    obtain ⟨errors, statements⟩ := ih later (proper_behind split proper)
    constructor
    · rw [List.flatMap_cons, complete, errors]
      rfl
    · rw [List.filterMap_cons, List.filterMap_cons, statements]

/-- Tokens split in one way only. -/
theorem Splits.unique {tokens : List (Token Int)}
    {phrases others : List (List (Token Int) × Option Statement)} (splits : Splits tokens phrases)
    (again : Splits tokens others) (proper : ∀ token ∈ tokens, Proper token) :
    others = phrases := by
  -- Both splittings follow the reading, at whatever place the tokens are said to end.
  fun_induction group .start tokens generalizing phrases others with
  | case1 => rw [splits.eq_nil, again.eq_nil]
  | case2 token rest clause =>
    rename_i ih
    obtain ⟨words, phrases, rfl, split, _, later⟩ := splits.front .start proper
    obtain ⟨words', others, rfl, split', _, later'⟩ := again.front .start proper
    obtain rfl := List.append_cancel_right (split'.symm.trans split)
    rw [ih later later' (proper_behind split proper)]

/-! ### Programs -/

/-- The words of a text: its tokens without the line feeds, and without the last one, which is the
end of input. -/
def words (source : String) : List (Token Int) :=
  ((Token.scan source).1.filter fun token => token.lexeme ≠ .newline).dropLast

/-- Line feeds apart, the tokens of a text are its words and the end of input, which is no word. -/
theorem words_ended (source : String) :
    (∃ stop, ((Token.scan source).1.filter fun token => token.lexeme ≠ .newline) =
        words source ++ [⟨.endOfInput, stop⟩]) ∧
      ∀ token ∈ words source, token.lexeme ≠ .endOfInput := by
  obtain ⟨before, stop, split, inner⟩ := Token.scanFrom_ended .start source.toList
  have seen : ((Token.scan source).1.filter fun token => token.lexeme ≠ .newline) =
      (before.filter fun token => token.lexeme ≠ .newline) ++ [⟨.endOfInput, stop⟩] := by
    rw [Token.scan, split, List.filter_append]
    rfl
  have cut : words source = before.filter fun token => token.lexeme ≠ .newline := by
    rw [words, seen, List.dropLast_concat]
  refine ⟨⟨stop, by rw [seen, cut]⟩, fun token member => ?_⟩
  rw [cut] at member
  exact inner token (List.mem_filter.mp member).1

/-- Reading a text groups its words. -/
theorem content_scan (source : String) : content (Token.scan source).1 = words source := by
  have inline (lexeme : Lexeme Int) : (!lexeme.isNewline) = decide (lexeme ≠ .newline) := by
    cases lexeme <;> simp [Lexeme.isNewline]
  have ended (lexeme : Lexeme Int) : (!lexeme.isEnd) = decide (lexeme ≠ .endOfInput) := by
    cases lexeme <;> simp [Lexeme.isEnd]
  obtain ⟨⟨stop, split⟩, inner⟩ := words_ended source
  simp only [content, inline, ended, split]
  rw [List.takeWhile_append_of_pos fun token member => decide_eq_true (inner token member)]
  exact List.append_nil (words source)

/-- The words of a text are proper tokens. -/
theorem proper_words (source : String) : ∀ token ∈ words source, Proper token := by
  intro token member
  have kept := List.mem_filter.mp ((List.dropLast_sublist _).subset member)
  refine ⟨of_decide_eq_true kept.2, (words_ended source).2 token member, ?_⟩
  exact fun name named => Token.dot_not_mem_identifier kept.1 named

/-- The words of a text are all its tokens but for the line feeds and the end of input, with which
the tokens end. Reading the tokens finds no error exactly when the words split into phrases, and
then the statements are those of the phrases of the one splitting that there is. -/
theorem reads_exactly_phrases (source : String) :
    (∃ stop, ((Token.scan source).1.filter fun token => token.lexeme ≠ .newline) =
      words source ++ [⟨.endOfInput, stop⟩]) ∧
    ((Parse.ofTokens (Token.scan source).1).errors = [] ↔
      ∃ phrases, Splits (words source) phrases) ∧
    ∀ phrases, Splits (words source) phrases →
      (Parse.ofTokens (Token.scan source).1).program.body = phrases.filterMap Prod.snd ∧
      ∀ others, Splits (words source) others → others = phrases := by
  have proper := proper_words source
  have clauses : Clause.ofTokens (Token.scan source).1 =
      group (endPlace (Token.scan source).1) (words source) := by
    rw [Clause.ofTokens, content_scan]
  have errors : (Parse.ofTokens (Token.scan source).1).errors =
      (group (endPlace (Token.scan source).1) (words source)).flatMap Clause.errors :=
    congrArg (List.flatMap Clause.errors) clauses
  have body : (Parse.ofTokens (Token.scan source).1).program.body =
      (group (endPlace (Token.scan source).1) (words source)).filterMap Clause.statement? :=
    congrArg (List.filterMap Clause.statement?) clauses
  rw [errors, body]
  refine ⟨(words_ended source).1, ⟨fun complete => ?_, ?_⟩,
    fun phrases splits => ⟨?_, fun others again => ?_⟩⟩
  · exact splits_of_group (endPlace (Token.scan source).1) _ proper complete
  · rintro ⟨phrases, splits⟩
    exact (group_of_splits (endPlace (Token.scan source).1) splits proper).1
  · exact (group_of_splits (endPlace (Token.scan source).1) splits proper).2
  · exact splits.unique again proper

/-- A scene whose last item is a name alone, a `@play` that takes `loop`, and a number that no
statement takes. -/
def looseSource : String := "@scene s\nkick: a\nloose\n@play s loop\n7 # end\n"

/-- The splitting of that source. -/
def loosePhrases : List (List (Token Int) × Option Statement) :=
  [([⟨.directive "scene", ⟨1, 1⟩⟩, ⟨.identifier "s", ⟨1, 8⟩⟩, ⟨.identifier "kick", ⟨2, 1⟩⟩,
      ⟨.colon, ⟨2, 5⟩⟩, ⟨.identifier "a", ⟨2, 7⟩⟩, ⟨.identifier "loose", ⟨3, 1⟩⟩],
      some (.scene ⟨"s", [⟨"kick", some "a"⟩], 1⟩)),
    ([⟨.directive "play", ⟨4, 1⟩⟩, ⟨.identifier "s", ⟨4, 7⟩⟩, ⟨.identifier "loop", ⟨4, 9⟩⟩],
      some (.play 4 (some "s") true)),
    ([⟨.number 7, ⟨5, 1⟩⟩], none),
    ([⟨.comment "end", ⟨5, 3⟩⟩], some (.comment 5 "end"))]

/-- The phrases of the source are all its words, it is read without an error, and its statements are
those of the phrases. A source that breaks off behind a colon does not split. -/
theorem reads_exactly_phrases_loose :
    Splits (words looseSource) loosePhrases ∧
      (Parse.ofTokens (Token.scan looseSource).1).errors = [] ∧
      (Parse.ofTokens (Token.scan looseSource).1).program.body =
        [.scene ⟨"s", [⟨"kick", some "a"⟩], 1⟩, .play 4 (some "s") true, .comment 5 "end"] ∧
      ¬∃ phrases, Splits (words "kick:\n") phrases := by
  have same : words looseSource = (loosePhrases.map Prod.fst).flatten := by decide +kernel
  have ended (rest : List (Token Int)) (place : Position) :
      Items [] [] (⟨.directive "play", place⟩ :: rest) := by
    refine .done fun words assignment behind item => ?_
    cases item <;> simp
  have splits : Splits (words looseSource) loosePhrases := by
    rw [same]
    refine .cons (.scene "s" ⟨1, 1⟩ ⟨1, 8⟩ (.more (.assign "kick" "a" ⟨2, 1⟩ ⟨2, 5⟩ ⟨2, 7⟩ _)
      (.more (.bare "loose" ⟨3, 1⟩ ?_) (ended _ _)))) ?_
    · decide
    · refine .cons (.playLoop "s" ⟨4, 1⟩ ⟨4, 7⟩ ⟨4, 9⟩ _) ?_
      exact .cons (.number 7 ⟨5, 1⟩ _) (.cons (.comment "end" ⟨5, 3⟩ _) .nil)
  obtain ⟨_, accepted, statements⟩ := reads_exactly_phrases looseSource
  refine ⟨splits, accepted.mpr ⟨_, splits⟩, (statements _ splits).1, fun splits => ?_⟩
  have faulty : (Parse.ofTokens (Token.scan "kick:\n").1).errors ≠ [] := by decide +kernel
  exact faulty ((reads_exactly_phrases "kick:\n").2.1.mpr splits)

end StepSequencer.Grammar
