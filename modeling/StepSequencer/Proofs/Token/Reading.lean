import StepSequencer.Proofs.Text.Digits
import StepSequencer.Proofs.Text.Lines
import StepSequencer.Token.Scan

/-!
# Reading words

`Reads text lexemes rest` says that the scanner takes the lexemes from the front of a text, leaves
no string open on the way, and then stands before the rest. The rest is part of the judgment,
because a word ends only where what follows does not prolong it. Positions play no part, so the
readings of two words make a reading of both.
-/
namespace StepSequencer.Token

/-- The lexemes from the front of a text up to a rest of it. -/
inductive Reads : List Char → List (Lexeme Int) → List Char → Prop where
  | done (text : List Char) : Reads text [] text
  | step {c : Char} {cs : List Char} {lexemes : List (Lexeme Int)} {rest : List Char}
      (closed : (readFront c cs).closed = true) (more : Reads (readFront c cs).rest lexemes rest) :
      Reads (c :: cs) ((readFront c cs).lexeme.toList ++ lexemes) rest

/-- Reading goes on where it stopped. -/
theorem Reads.trans {text middle rest : List Char} {lexemes others : List (Lexeme Int)}
    (first : Reads text lexemes middle) (second : Reads middle others rest) :
    Reads text (lexemes ++ others) rest := by
  induction first with
  | done text => exact second
  | step closed more ih =>
    rw [List.append_assoc]
    exact .step closed (ih second)

/-- A front is a reading of its lexeme, if it has one. -/
theorem Reads.of_front {c : Char} {cs : List Char} {front : Front} (read : readFront c cs = front)
    (closed : front.closed = true) : Reads (c :: cs) front.lexeme.toList front.rest := by
  subst read
  have whole := Reads.step closed (.done _)
  rwa [List.append_nil] at whole

/-- A reading of the whole text gives the tokens of the text, without an open string. -/
theorem scanFrom_of_reads {text : List Char} {lexemes : List (Lexeme Int)}
    (reads : Reads text lexemes []) (place : Position) :
    (scanFrom place text).1.map Token.lexeme = lexemes ++ [.endOfInput] ∧
      (scanFrom place text).2 = [] := by
  generalize finish : ([] : List Char) = rest at reads
  induction reads generalizing place with
  | done text =>
    subst finish
    rw [scanFrom]
    exact ⟨rfl, rfl⟩
  | @step c cs lexemes rest closed more ih =>
    obtain ⟨tokens, problems⟩ := ih (place.after (readFront c cs).taken) finish
    rw [scanFrom]
    constructor
    · simp only [List.map_append, List.map_map, tokens, Function.comp_def, List.map_id',
        List.append_assoc]
    · simp only [closed, problems, if_true, List.nil_append]

/-- A run of characters of a class, up to where it stops. -/
theorem run_front (lexeme : List Char → Lexeme Int) (head : List Char) {inside : Char → Bool}
    {body rest : List Char} (all : ∀ c ∈ body, inside c = true)
    (stops : Text.Stops inside rest) :
    run lexeme head inside (body ++ rest) = ⟨some (lexeme body), head ++ body, rest, true⟩ := by
  rw [run, Text.takeWhile_run all stops, Text.dropWhile_run all stops]

/-- A line feed is read on its own. -/
theorem reads_newline (rest : List Char) : Reads ('\n' :: rest) [.newline] rest := by
  have front : readFront '\n' rest = single (some .newline) '\n' rest := rfl
  exact .of_front front rfl

/-- A blank is read as nothing. -/
theorem reads_blank (rest : List Char) : Reads (' ' :: rest) [] rest := by
  have front : readFront ' ' rest = single none ' ' rest := rfl
  exact .of_front front rfl

/-- A colon is read on its own. -/
theorem reads_colon (rest : List Char) : Reads (':' :: rest) [.colon] rest := by
  have front : readFront ':' rest = single (some .colon) ':' rest := rfl
  exact .of_front front rfl

/-- A comment is read up to the end of its line. -/
theorem reads_comment {body : List Char} (plain : '\n' ∉ body) (rest : List Char) :
    Reads ('#' :: (body ++ '\n' :: rest)) [.comment (String.ofList (Text.trim body))]
      ('\n' :: rest) := by
  have all : ∀ c ∈ body, (c != '\n') = true := by
    intro c member
    rw [bne_iff_ne]
    exact fun same => plain (same ▸ member)
  have stops : Text.Stops (fun c => c != '\n') ('\n' :: rest) := Text.stops_cons rest (by decide)
  have front : readFront '#' (body ++ '\n' :: rest) =
      run (fun body => .comment (String.ofList (Text.trim body))) ['#'] (fun c => c != '\n')
        (body ++ '\n' :: rest) := rfl
  exact .of_front (front.trans (run_front _ _ all stops)) rfl

/-- A directive is read with its name. -/
theorem reads_directive {name rest : List Char} (all : ∀ c ∈ name, isNameChar c = true)
    (stops : Text.Stops isNameChar rest) :
    Reads ('@' :: (name ++ rest)) [.directive (lowerName name)] rest := by
  have front : readFront '@' (name ++ rest) =
      run (fun body => .directive (lowerName body)) ['@'] isNameChar (name ++ rest) := rfl
  exact .of_front (front.trans (run_front _ _ all stops)) rfl

/-- A string without quotes and line feeds is read with its closing quote. -/
theorem reads_string {body : List Char} (unquoted : '"' ∉ body) (plain : '\n' ∉ body)
    (rest : List Char) :
    Reads ('"' :: (body ++ '"' :: rest)) [.string (String.ofList body)] rest := by
  have all : ∀ c ∈ body, (c != '"' && c != '\n') = true := by
    intro c member
    rw [Bool.and_eq_true, bne_iff_ne, bne_iff_ne]
    exact ⟨fun same => unquoted (same ▸ member), fun same => plain (same ▸ member)⟩
  have stops : Text.Stops (fun c => c != '"' && c != '\n') ('"' :: rest) :=
    Text.stops_cons rest (by decide)
  have front : readFront '"' (body ++ '"' :: rest) =
      ⟨some (.string (String.ofList body)), '"' :: body ++ ['"'], rest, true⟩ := by
    have quoted : readFront '"' (body ++ '"' :: rest) = quotedRun '"' (body ++ '"' :: rest) := rfl
    rw [quoted, quotedRun]
    simp only [Text.takeWhile_run all stops, Text.dropWhile_run all stops, beq_self_eq_true,
      if_true]
  exact .of_front front rfl

/-- A hexadecimal number behind its mark is read as the number. -/
theorem reads_hexUpper (width n : Nat) {rest : List Char} (stops : Text.Stops Text.isHex rest) :
    Reads ('$' :: (Text.hexUpperChars width n ++ rest)) [.number n] rest := by
  have all : ∀ c ∈ Text.hexUpperChars width n, Text.isHex c = true := by
    intro c member
    have plain : Text.signOf (n : Int) = [] := by
      rw [Text.signOf, if_neg (by omega)]
    rw [Text.hexUpperChars, plain, List.nil_append] at member
    rcases List.mem_append.mp member with zero | digit
    · rw [List.eq_of_mem_replicate zero]
      decide
    · obtain ⟨d, known, rfl⟩ := List.mem_map.mp digit
      exact Text.isHex_upperDigit (Text.digits_lt 16 _ (by decide) d known)
  have front : readFront '$' (Text.hexUpperChars width n ++ rest) =
      run (fun body => .number (Text.ofHex body)) ['$'] Text.isHex
        (Text.hexUpperChars width n ++ rest) := rfl
  rw [run_front _ _ all stops, Text.ofHex_hexUpperChars] at front
  exact .of_front front rfl

/-- A character of a class differs from one outside it. -/
theorem beq_false_of_class {inside : Char → Bool} {c d : Char} (within : inside c = true)
    (outside : inside d = false) : (c == d) = false := by
  rw [beq_eq_false_iff_ne]
  intro same
  rw [same, outside] at within
  contradiction

/-- A digit that no mark follows starts a decimal number. -/
theorem readFront_decimal {c : Char} {cs : List Char} (digit : Text.isDecimal c = true)
    (noMark : cs.head?.any isHexMark = false) :
    readFront c cs =
      run (fun body => .number (Text.ofDecimal (c :: body))) [c] Text.isDecimal cs := by
  have other (d : Char) (outside : Text.isDecimal d = false) : (c == d) = false :=
    beq_false_of_class digit outside
  simp only [readFront, other '\n' (by decide), other '#' (by decide), other ';' (by decide),
    other '@' (by decide), other '"' (by decide), other '\'' (by decide), other '$' (by decide),
    other '-' (by decide), noMark, digit, Bool.or_false, Bool.and_false, Bool.false_and,
    Bool.false_eq_true, if_false, if_true]

/-- A character that may start a name is no digit. -/
theorem isDecimal_of_isNameStart {c : Char} (start : isNameStart c = true) :
    Text.isDecimal c = false := by
  rw [Text.isDecimal, Text.decimalValue?]
  split
  · next digit =>
    have bounds : 48 ≤ c.val.toNat ∧ c.val.toNat ≤ 57 := digit
    rcases Bool.or_eq_true_iff.mp start with letter | mark
    · rcases Bool.or_eq_true_iff.mp letter with upper | lower
      · have range : 65 ≤ c.val.toNat ∧ c.val.toNat ≤ 90 := of_decide_eq_true upper
        omega
      · have least : 97 ≤ c.val.toNat := of_decide_eq_true (Bool.and_eq_true_iff.mp lower).1
        omega
    · obtain rfl := beq_iff_eq.mp mark
      exact absurd bounds (by decide)
  · rfl

/-- A character that may start a name starts an identifier. -/
theorem readFront_name {c : Char} (start : isNameStart c = true) (cs : List Char) :
    readFront c cs = run (fun body => .identifier (lowerName (c :: body))) [c] isNameChar cs := by
  have other (d : Char) (outside : isNameStart d = false) : (c == d) = false :=
    beq_false_of_class start outside
  simp only [readFront, other '\n' (by decide), other '#' (by decide), other ';' (by decide),
    other '@' (by decide), other '"' (by decide), other '\'' (by decide), other '$' (by decide),
    other '0' (by decide), other '-' (by decide), other ':' (by decide),
    isDecimal_of_isNameStart start, start, Bool.or_false, Bool.false_and, Bool.false_eq_true,
    if_false, if_true]

/-- A name is read up to where it stops. -/
theorem reads_identifier {c : Char} {name rest : List Char} (start : isNameStart c = true)
    (all : ∀ d ∈ name, isNameChar d = true) (stops : Text.Stops isNameChar rest) :
    Reads (c :: (name ++ rest)) [.identifier (lowerName (c :: name))] rest := by
  have front := readFront_name start (name ++ rest)
  rw [run_front _ _ all stops] at front
  exact .of_front front rfl

/-- A decimal number is read as the number, if no further digit and no mark of a hexadecimal number
follows. -/
theorem reads_decimal (n : Nat) {rest : List Char} (stops : Text.Stops Text.isDecimal rest)
    (unmarked : Text.Stops isHexMark rest) :
    Reads (Text.decimalChars n ++ rest) [.number n] rest := by
  have plain : Text.signOf (n : Int) = [] := by
    rw [Text.signOf, if_neg (by omega)]
  have value := Text.ofDecimal_lowerDigits n
  have all : ∀ c ∈ (Text.digits 10 n).map Text.lowerDigit, Text.isDecimal c = true := by
    intro c member
    obtain ⟨d, known, rfl⟩ := List.mem_map.mp member
    exact Text.isDecimal_lowerDigit (Text.digits_lt 10 _ (by decide) d known)
  rw [Text.decimalChars, plain, List.nil_append, Int.natAbs_natCast]
  cases shape : (Text.digits 10 n).map Text.lowerDigit with
  | nil => exact absurd (List.map_eq_nil_iff.mp shape) (Text.digits_ne_nil 10 n)
  | cons c body =>
    rw [shape] at all value
    have digit := all c List.mem_cons_self
    have others : ∀ d ∈ body, Text.isDecimal d = true :=
      fun d member => all d (List.mem_cons_of_mem c member)
    -- What follows the first digit is a further digit or the rest, so no mark.
    have noMark : (body ++ rest).head?.any isHexMark = false := by
      cases body with
      | nil =>
        cases rest with
        | nil => rfl
        | cons d rest => exact unmarked d rfl
      | cons d body =>
        have second := others d List.mem_cons_self
        rw [List.cons_append, List.head?_cons, Option.any_some, isHexMark,
          beq_false_of_class second (by decide), beq_false_of_class second (by decide)]
        rfl
    have front := readFront_decimal digit noMark
    rw [run_front _ _ others stops, value] at front
    exact .of_front front rfl

/-! ### Lexemes of any text -/

/-- A lexeme of a text is the end of input or stands at a front. -/
theorem lexeme_of_mem_scanFrom {place : Position} {text : List Char} {token : Token Int}
    (member : token ∈ (scanFrom place text).1) :
    token.lexeme = .endOfInput ∨ ∃ c cs, (readFront c cs).lexeme = some token.lexeme := by
  fun_induction scanFrom place text with
  | case1 place =>
    obtain rfl := List.mem_singleton.mp member
    exact .inl rfl
  | case2 place c cs front next tokens problems scanned ih =>
    rcases List.mem_append.mp member with first | later
    · obtain ⟨lexeme, found, rfl⟩ := List.mem_map.mp first
      exact .inr ⟨c, cs, Option.mem_toList.mp found⟩
    · rw [scanned] at ih
      exact ih later

/-- What a quote opens is a string, also if it is left open. -/
theorem quotedRun_lexeme (quote : Char) (cs : List Char) :
    ∃ text, (quotedRun quote cs).lexeme = some (.string text) := by
  simp only [quotedRun]
  split
  · exact ⟨_, rfl⟩
  · split <;> exact ⟨_, rfl⟩

/-- A lexeme of a choice is that of one of the fronts. -/
theorem lexeme_of_ite {condition : Prop} [Decidable condition] {yes no : Front}
    {lexeme : Lexeme Int} (found : (if condition then yes else no).lexeme = some lexeme) :
    condition ∧ yes.lexeme = some lexeme ∨ no.lexeme = some lexeme := by
  split at found
  · next holds => exact .inl ⟨holds, found⟩
  · exact .inr found

/-- An identifier is a name in lower case. -/
theorem readFront_identifier {c : Char} {cs : List Char} {name : String}
    (found : (readFront c cs).lexeme = some (.identifier name)) :
    isNameStart c = true ∧ name = lowerName (c :: cs.takeWhile isNameChar) := by
  rcases lexeme_of_ite found with ⟨_, feed⟩ | found
  · exact nomatch Option.some.inj feed
  rcases lexeme_of_ite found with ⟨_, comment⟩ | found
  · exact nomatch Option.some.inj comment
  rcases lexeme_of_ite found with ⟨_, directive⟩ | found
  · exact nomatch Option.some.inj directive
  rcases lexeme_of_ite found with ⟨_, string⟩ | found
  · obtain ⟨text, quoted⟩ := quotedRun_lexeme c cs
    exact nomatch Option.some.inj (quoted.symm.trans string)
  rcases lexeme_of_ite found with ⟨_, dollar⟩ | found
  · exact nomatch Option.some.inj dollar
  rcases lexeme_of_ite found with ⟨_, marked⟩ | found
  · exact nomatch Option.some.inj marked
  rcases lexeme_of_ite found with ⟨_, negative⟩ | found
  · exact nomatch Option.some.inj negative
  rcases lexeme_of_ite found with ⟨_, decimal⟩ | found
  · exact nomatch Option.some.inj decimal
  rcases lexeme_of_ite found with ⟨_, colon⟩ | found
  · exact nomatch Option.some.inj colon
  rcases lexeme_of_ite found with ⟨start, same⟩ | unknown
  · exact ⟨start, (Lexeme.identifier.inj (Option.some.inj same)).symm⟩
  · contradiction

/-- Lower case makes no dot of another character. -/
theorem toLower_ne_dot {c : Char} (other : c ≠ '.') : c.toLower ≠ '.' := by
  intro same
  by_cases upper : c.val ≥ 'A'.val ∧ c.val ≤ 'Z'.val
  · have lowered : c.toLower.val = c.val + 32 := congrArg Char.val (dif_pos upper)
    have least : 65 ≤ c.val.toNat := upper.1
    have most : c.val.toNat ≤ 90 := upper.2
    have shift : UInt32.toNat 32 = 32 := rfl
    have sum : (c.val + 32).toNat = c.val.toNat + 32 := by
      rw [UInt32.toNat_add]
      exact Nat.mod_eq_of_lt (by omega)
    have dot : c.toLower.val.toNat = 46 := by rw [same]; rfl
    rw [lowered, sum] at dot
    omega
  · have kept : c.toLower = c := dif_neg upper
    exact other (kept.symm.trans same)

/-- No name of a text holds a dot. -/
theorem dot_not_mem_identifier {place : Position} {text : List Char} {token : Token Int}
    (member : token ∈ (scanFrom place text).1) {name : String}
    (named : token.lexeme = .identifier name) : '.' ∉ name.toList := by
  rcases lexeme_of_mem_scanFrom member with finish | ⟨c, cs, found⟩
  · rw [named] at finish
    contradiction
  · rw [named] at found
    obtain ⟨start, rfl⟩ := readFront_identifier found
    have first : c ≠ '.' := by
      rintro rfl
      exact absurd start (by decide)
    have others : ∀ d ∈ cs.takeWhile isNameChar, d ≠ '.' := by
      rintro d inside rfl
      exact absurd (List.all_eq_true.mp List.all_takeWhile '.' inside) (by decide)
    have all : ∀ d ∈ c :: cs.takeWhile isNameChar, d ≠ '.' :=
      List.forall_mem_cons.mpr ⟨first, others⟩
    rw [lowerName, String.toList_ofList, List.mem_map]
    rintro ⟨d, inside, dot⟩
    exact toLower_ne_dot (all d inside) dot

end StepSequencer.Token
