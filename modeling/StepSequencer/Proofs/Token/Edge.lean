import StepSequencer.Proofs.Token.Reading

/-!
# Where words end

What the scanner reads at the front of a text is decided by the first character, by a look at the
second, and by where a run of characters ends. So the text behind a word may be exchanged for
another, as long as the word ends there too: `readFront_exchange`. A word other than a comment or
an open string ends before every character that is not part of names; those two end with the line.
-/
namespace StepSequencer

/-- Whether a lexeme is a comment. -/
def Lexeme.isComment {ν : Type} : Lexeme ν → Bool
  | comment _ => true
  | _ => false

namespace Token

/-! ### Characters -/

/-- Letters and digits are characters of names. -/
theorem isNameChar_of_isAlphanum {c : Char} (plain : c.isAlphanum = true) :
    isNameChar c = true := by
  rw [isNameChar, plain, Bool.true_or, Bool.true_or]

/-- Hexadecimal digits are characters of names. -/
theorem isNameChar_of_isHex {c : Char} (hex : Text.isHex c = true) : isNameChar c = true := by
  apply isNameChar_of_isAlphanum
  rw [Text.isHex, Text.hexValue?] at hex
  apply Bool.or_eq_true_iff.mpr
  split at hex
  · next digit =>
    right
    exact Bool.and_eq_true_iff.mpr ⟨decide_eq_true digit.1, decide_eq_true digit.2⟩
  · left
    apply Bool.or_eq_true_iff.mpr
    split at hex
    · next lower =>
      right
      have below : c ≤ 'z' := Char.le_trans lower.2 (by decide)
      exact Bool.and_eq_true_iff.mpr ⟨decide_eq_true lower.1, decide_eq_true below⟩
    · split at hex
      · next upper =>
        left
        have below : c ≤ 'Z' := Char.le_trans upper.2 (by decide)
        exact decide_eq_true ⟨upper.1, below⟩
      · contradiction

/-- Decimal digits are characters of names. -/
theorem isNameChar_of_isDecimal {c : Char} (decimal : Text.isDecimal c = true) :
    isNameChar c = true := by
  apply isNameChar_of_isAlphanum
  rw [Text.isDecimal, Text.decimalValue?] at decimal
  apply Bool.or_eq_true_iff.mpr
  split at decimal
  · next digit =>
    right
    exact Bool.and_eq_true_iff.mpr ⟨decide_eq_true digit.1, decide_eq_true digit.2⟩
  · contradiction

/-- The mark of a hexadecimal number is a character of names. -/
theorem isNameChar_of_isHexMark {c : Char} (mark : isHexMark c = true) : isNameChar c = true := by
  rcases Bool.or_eq_true_iff.mp mark with lower | upper
  · rw [beq_iff_eq.mp lower]
    decide
  · rw [beq_iff_eq.mp upper]
    decide

/-! ### Ways to read a front -/

/-- Texts that decide alike, by their first characters, how a word in front of them goes on. -/
structure LooksLike (text other : List Char) : Prop where
  mark : other.head?.any isHexMark = text.head?.any isHexMark
  digit : other.head?.any Text.isDecimal = text.head?.any Text.isDecimal

/-- The ways in which the front of a text is read. A word runs on over some of the characters of
names, and only a comment and a string run on over blanks. -/
inductive Reader (c : Char) (cs : List Char) : (List Char → Front) → Prop where
  | mark (lexeme : Option (Lexeme Int)) (plain : lexeme.any Lexeme.isComment = false)
      (inner : lexeme ≠ some .endOfInput) : Reader c cs (single lexeme c)
  | word (lexeme : List Char → Lexeme Int) {inside : Char → Bool}
      (named : ∀ d, inside d = true → isNameChar d = true)
      (plain : ∀ body, (lexeme body).isComment = false)
      (inner : ∀ body, lexeme body ≠ .endOfInput) : Reader c cs (run lexeme [c] inside)
  | marked (lexeme : List Char → Lexeme Int) (hex : cs.head?.any isHexMark = true)
      (plain : ∀ body, (lexeme body).isComment = false)
      (inner : ∀ body, lexeme body ≠ .endOfInput) :
      Reader c cs fun text => run lexeme (c :: text.take 1) Text.isHex (text.drop 1)
  | comment (text : List Char → String) (opens : c = '#' ∨ c = ';') :
      Reader c cs (run (fun body => .comment (text body)) [c] fun d => d != '\n')
  | quoted (inline : c ≠ '\n') : Reader c cs (quotedRun c)

/-- A function that reads in one of the ways all texts that look like a given one. -/
def ReadsAs (c : Char) (cs : List Char) (front : List Char → Front) : Prop :=
  ∃ reader, Reader c cs reader ∧ ∀ text, LooksLike cs text → front text = reader text

/-- One of the ways of reading is a way of reading. -/
theorem Reader.readsAs {c : Char} {cs : List Char} {reader : List Char → Front}
    (reads : Reader c cs reader) : ReadsAs c cs reader :=
  ⟨reader, reads, fun _ _ => rfl⟩

/-- A choice between ways of reading is one if texts that look alike are chosen for alike. -/
theorem ReadsAs.ite {c : Char} {cs : List Char} {yes no : List Char → Front}
    {condition : List Char → Prop} [∀ text, Decidable (condition text)]
    (stable : ∀ text, LooksLike cs text → (condition text ↔ condition cs))
    (first : condition cs → ReadsAs c cs yes) (second : ¬condition cs → ReadsAs c cs no) :
    ReadsAs c cs fun text => if condition text then yes text else no text := by
  by_cases holds : condition cs
  · obtain ⟨reader, reads, same⟩ := first holds
    refine ⟨reader, reads, fun text looks => ?_⟩
    exact (if_pos ((stable text looks).mpr holds)).trans (same text looks)
  · obtain ⟨reader, reads, same⟩ := second holds
    refine ⟨reader, reads, fun text looks => ?_⟩
    exact (if_neg (mt (stable text looks).mp holds)).trans (same text looks)

/-- The front of a text is read in one of the ways. -/
theorem readFront_readsAs (c : Char) (cs : List Char) : ReadsAs c cs (readFront c) := by
  have fixed (decides : Prop) : ∀ text, LooksLike cs text → (decides ↔ decides) :=
    fun _ _ => Iff.rfl
  show ReadsAs c cs fun text => readFront c text
  unfold readFront
  refine .ite (fixed _) (fun _ => (Reader.mark _ rfl (by simp)).readsAs) fun notFeed => ?_
  refine .ite (fixed _) (fun opens => ?_) fun _ => ?_
  · have mark : c = '#' ∨ c = ';' := by simpa using opens
    exact (Reader.comment _ mark).readsAs
  refine .ite (fixed _) (fun _ => ?_) fun _ => ?_
  · exact (Reader.word _ (fun _ => id) (fun _ => rfl) (by simp)).readsAs
  refine .ite (fixed _) (fun _ => ?_) fun _ => ?_
  · exact (Reader.quoted (by simpa using notFeed)).readsAs
  refine .ite (fixed _) (fun _ => ?_) fun _ => ?_
  · exact (Reader.word _ (fun _ => isNameChar_of_isHex) (fun _ => rfl) (by simp)).readsAs
  refine .ite (fun text looks => by rw [looks.mark]) (fun zero => ?_) fun _ => ?_
  · exact (Reader.marked _ (Bool.and_eq_true_iff.mp zero).2 (fun _ => rfl) (by simp)).readsAs
  refine .ite (fun text looks => by rw [looks.digit]) (fun _ => ?_) fun _ => ?_
  · exact (Reader.word _ (fun _ => isNameChar_of_isDecimal) (fun _ => rfl) (by simp)).readsAs
  refine .ite (fixed _) (fun _ => ?_) fun _ => ?_
  · exact (Reader.word _ (fun _ => isNameChar_of_isDecimal) (fun _ => rfl) (by simp)).readsAs
  refine .ite (fixed _) (fun _ => (Reader.mark _ rfl (by simp)).readsAs) fun _ => ?_
  refine .ite (fixed _) (fun _ => ?_) fun _ => (Reader.mark none rfl (by simp)).readsAs
  exact (Reader.word _ (fun _ => id) (fun _ => rfl) (by simp)).readsAs

/-! ### Other texts behind a word -/

namespace Front

/-- Whether only the end of its line ends a word: it is a comment or a string left open. -/
def endsWithLine (front : Front) : Bool :=
  !front.closed || front.lexeme.any Lexeme.isComment

/-- The characters with which a word may go on. -/
def goesOn (front : Front) : Char → Bool :=
  if front.endsWithLine then fun c => c != '\n' else isNameChar

/-- A text before which a word ends just as it does before the text behind it: both texts start with
the same character, or the word goes on with neither of them. -/
def EndsBefore (front : Front) (other : List Char) : Prop :=
  other.head? = front.rest.head? ∨
    Text.Stops isNameChar front.rest ∧ Text.Stops front.goesOn other

end Front

/-- Texts with the same first character stop the same runs. -/
theorem stops_of_head? {inside : Char → Bool} {text other : List Char}
    (same : other.head? = text.head?) (stops : Text.Stops inside text) :
    Text.Stops inside other :=
  fun c head => stops c (same.symm.trans head)

/-- What stops a run stops a run of fewer characters. -/
theorem stops_of_class {inside outside : Char → Bool}
    (within : ∀ c, inside c = true → outside c = true) {text : List Char}
    (stops : Text.Stops outside text) : Text.Stops inside text := by
  intro c head
  have out := stops c head
  cases member : inside c with
  | false => rfl
  | true => rw [within c member] at out; contradiction

/-- What ends with a line ends every word. -/
theorem stops_isNameChar_of_line {text : List Char} (stops : Text.Stops (fun c => c != '\n') text) :
    Text.Stops isNameChar text := by
  refine stops_of_class (fun c named => ?_) stops
  rw [bne_iff_ne]
  rintro rfl
  exact absurd named (by decide)

/-- What stops a word stops a name. -/
theorem Front.stops_isNameChar {front : Front} {other : List Char}
    (stops : Text.Stops front.goesOn other) : Text.Stops isNameChar other := by
  unfold goesOn at stops
  split at stops
  · exact stops_isNameChar_of_line stops
  · exact stops

/-- What stops a run does not start with a character of it. -/
theorem any_head?_of_stops {inside : Char → Bool} {text : List Char}
    (stops : Text.Stops inside text) : text.head?.any inside = false := by
  cases text with
  | nil => rfl
  | cons c text => exact stops c rfl

/-- Before a text where a word ends alike, what follows its first character looks alike. -/
theorem Front.EndsBefore.looksLike {front : Front} {other : List Char}
    (ends : front.EndsBefore other) (body : List Char) :
    LooksLike (body ++ front.rest) (body ++ other) := by
  cases body with
  | cons c body => exact ⟨rfl, rfl⟩
  | nil =>
    rcases ends with same | ⟨here, there⟩
    · rw [List.nil_append, List.nil_append]
      exact ⟨by rw [same], by rw [same]⟩
    · have there := Front.stops_isNameChar there
      have quiet {inside : Char → Bool} (named : ∀ c, inside c = true → isNameChar c = true) :
          other.head?.any inside = front.rest.head?.any inside := by
        rw [any_head?_of_stops (stops_of_class named there),
          any_head?_of_stops (stops_of_class named here)]
      exact ⟨quiet fun _ => isNameChar_of_isHexMark, quiet fun _ => isNameChar_of_isDecimal⟩

/-- A front that is read alike before every text where it ends alike. -/
def Exchanges (c : Char) (cs : List Char) (reader : List Char → Front) : Prop :=
  ∃ body, (reader cs).taken = c :: body ∧ cs = body ++ (reader cs).rest ∧
    ∀ other, (reader cs).EndsBefore other →
      reader (body ++ other) = { reader cs with rest := other }

/-- A run ends at the other text when it ends behind its body. -/
theorem stops_other {front : Front} {inside : Char → Bool} {text other : List Char}
    (behind : front.rest = text.dropWhile inside)
    (within : Text.Stops front.goesOn other → Text.Stops inside other)
    (ends : front.EndsBefore other) : Text.Stops inside other := by
  rcases ends with same | ⟨_, there⟩
  · rw [behind] at same
    exact stops_of_head? same (Text.stops_dropWhile inside text)
  · exact within there

/-- A run is read alike before every text that stops it. -/
theorem exchanges_run (c : Char) (lexeme : List Char → Lexeme Int) {inside : Char → Bool}
    (cs : List Char) (within : ∀ other, Text.Stops (run lexeme [c] inside cs).goesOn other →
      Text.Stops inside other) : Exchanges c cs (run lexeme [c] inside) := by
  have all : ∀ d ∈ cs.takeWhile inside, inside d = true :=
    List.all_eq_true.mp List.all_takeWhile
  refine ⟨cs.takeWhile inside, rfl, List.takeWhile_append_dropWhile.symm, fun other ends => ?_⟩
  exact run_front lexeme [c] all (stops_other rfl (within other) ends)

/-- A hexadecimal number with a mark is read alike before every text that stops it. -/
theorem exchanges_marked (c : Char) (lexeme : List Char → Lexeme Int) {cs : List Char}
    (hex : cs.head?.any isHexMark = true) :
    Exchanges c cs fun text => run lexeme (c :: text.take 1) Text.isHex (text.drop 1) := by
  cases cs with
  | nil => contradiction
  | cons mark text =>
    have all : ∀ d ∈ text.takeWhile Text.isHex, Text.isHex d = true :=
      List.all_eq_true.mp List.all_takeWhile
    have whole := List.takeWhile_append_dropWhile (p := Text.isHex) (l := text)
    refine ⟨mark :: text.takeWhile Text.isHex, rfl, congrArg (List.cons mark) whole.symm,
      fun other ends => ?_⟩
    have within : Text.Stops (run lexeme [c, mark] Text.isHex text).goesOn other →
        Text.Stops Text.isHex other := fun stops =>
      stops_of_class (fun _ => isNameChar_of_isHex) (Front.stops_isNameChar stops)
    exact run_front lexeme [c, mark] all (stops_other rfl within ends)

/-- A string is closed by its quote. -/
theorem quotedRun_closed {quote : Char} {body : List Char}
    (all : ∀ c ∈ body, (c != quote && c != '\n') = true) (rest : List Char) :
    quotedRun quote (body ++ quote :: rest) =
      ⟨some (.string (String.ofList body)), quote :: (body ++ [quote]), rest, true⟩ := by
  have stops : Text.Stops (fun c => c != quote && c != '\n') (quote :: rest) :=
    Text.stops_cons rest (by simp)
  simp only [quotedRun, Text.takeWhile_run all stops, Text.dropWhile_run all stops,
    beq_self_eq_true, if_true, List.cons_append]

/-- A string is left open at the end of its line. -/
theorem quotedRun_open {quote : Char} (inline : quote ≠ '\n') {body other : List Char}
    (all : ∀ c ∈ body, (c != quote && c != '\n') = true)
    (ends : Text.Stops (fun c => c != '\n') other) :
    quotedRun quote (body ++ other) =
      ⟨some (.string (String.ofList body)), quote :: body, other, false⟩ := by
  have stops : Text.Stops (fun c => c != quote && c != '\n') other :=
    stops_of_class (fun c within => (Bool.and_eq_true_iff.mp within).2) ends
  simp only [quotedRun]
  rw [Text.takeWhile_run all stops, Text.dropWhile_run all stops]
  cases other with
  | nil => rfl
  | cons c other =>
    have feed : c = '\n' := by simpa using ends c rfl
    have differs : (c == quote) = false := by
      rw [beq_eq_false_iff_ne, feed]
      exact inline.symm
    simp only [differs, Bool.false_eq_true, if_false]

/-- A string is read alike before every text where it ends alike. -/
theorem exchanges_quoted {quote : Char} (inline : quote ≠ '\n') (cs : List Char) :
    Exchanges quote cs (quotedRun quote) := by
  obtain ⟨body, rest, rfl, all, stops⟩ : ∃ body rest, cs = body ++ rest ∧
      (∀ c ∈ body, (c != quote && c != '\n') = true) ∧
      Text.Stops (fun c => c != quote && c != '\n') rest :=
    ⟨_, _, List.takeWhile_append_dropWhile.symm, List.all_eq_true.mp List.all_takeWhile,
      Text.stops_dropWhile _ cs⟩
  by_cases closes : rest.head? = some quote
  · obtain ⟨rest, rfl⟩ := List.head?_eq_some_iff.mp closes
    have front := quotedRun_closed all rest
    refine ⟨body ++ [quote], by rw [front], by rw [front]; simp, fun other _ => ?_⟩
    rw [front, List.append_assoc]
    exact quotedRun_closed all other
  · have ends : Text.Stops (fun c => c != '\n') rest := by
      intro c head
      have outside := stops c head
      have differs : c ≠ quote := fun same => closes (same ▸ head)
      simpa [differs] using outside
    have front := quotedRun_open inline all ends
    refine ⟨body, by rw [front], by rw [front], fun other alike => ?_⟩
    rw [front] at alike ⊢
    apply quotedRun_open inline all
    rcases alike with same | ⟨_, there⟩
    · exact stops_of_head? same ends
    · exact there

/-- Every way of reading reads alike before every text where the word ends alike. -/
theorem Reader.exchanges {c : Char} {cs : List Char} {reader : List Char → Front}
    (reads : Reader c cs reader) : Exchanges c cs reader := by
  cases reads with
  | mark lexeme plain inner => exact ⟨[], rfl, rfl, fun other _ => rfl⟩
  | word lexeme named plain inner =>
    refine exchanges_run c lexeme cs fun other stops => ?_
    exact stops_of_class named (Front.stops_isNameChar stops)
  | marked lexeme hex plain inner => exact exchanges_marked c lexeme hex
  | comment text opens => exact exchanges_run c _ cs fun other stops => stops
  | quoted inline => exact exchanges_quoted inline cs

/-- A word is read alike before every text where it ends alike. -/
theorem readFront_exchange (c : Char) (cs : List Char) : Exchanges c cs (readFront c) := by
  obtain ⟨reader, reads, same⟩ := readFront_readsAs c cs
  have here : readFront c cs = reader cs := same cs ⟨rfl, rfl⟩
  obtain ⟨body, taken, split, exchange⟩ := reads.exchanges
  rw [← here] at taken split exchange
  refine ⟨body, taken, split, fun other ends => ?_⟩
  have looks := ends.looksLike body
  rw [← split] at looks
  rw [same _ looks]
  exact exchange other ends

/-- A comment starts with its mark and goes up to the end of the line. -/
structure Front.IsRemark (front : Front) (c : Char) : Prop where
  opens : c = '#' ∨ c = ';'
  inline : '\n' ∉ front.taken
  closed : front.closed = true
  ends : Text.Stops (fun d => d != '\n') front.rest

/-- What is read as a comment starts with its mark and goes up to the end of the line. -/
theorem readFront_comment {c : Char} {cs : List Char}
    (comment : (readFront c cs).lexeme.any Lexeme.isComment = true) :
    (readFront c cs).IsRemark c := by
  obtain ⟨reader, reads, same⟩ := readFront_readsAs c cs
  rw [same cs ⟨rfl, rfl⟩] at comment ⊢
  cases reads with
  | mark lexeme plain inner => exact absurd comment (Bool.eq_false_iff.mp plain)
  | word lexeme named plain inner => exact absurd comment (Bool.eq_false_iff.mp (plain _))
  | marked lexeme hex plain inner => exact absurd comment (Bool.eq_false_iff.mp (plain _))
  | comment text opens =>
    refine ⟨opens, fun member => ?_, rfl, Text.stops_dropWhile _ cs⟩
    rcases List.mem_cons.mp member with first | later
    · rcases opens with rfl | rfl <;> exact absurd first (by decide)
    · have inside := List.all_eq_true.mp List.all_takeWhile _ later
      exact absurd inside (by decide)
  | quoted inline =>
    obtain ⟨text, string⟩ := quotedRun_lexeme c cs
    rw [string] at comment
    contradiction

/-- The end of input is not read off a text. -/
theorem readFront_ne_endOfInput (c : Char) (cs : List Char) :
    (readFront c cs).lexeme ≠ some .endOfInput := by
  obtain ⟨reader, reads, same⟩ := readFront_readsAs c cs
  rw [same cs ⟨rfl, rfl⟩]
  cases reads with
  | mark lexeme plain inner => exact inner
  | word lexeme named plain inner => exact fun found => inner _ (Option.some.inj found)
  | marked lexeme hex plain inner => exact fun found => inner _ (Option.some.inj found)
  | comment text opens => exact fun found => nomatch Option.some.inj found
  | quoted inline =>
    obtain ⟨text, string⟩ := quotedRun_lexeme c cs
    rw [string]
    exact fun found => nomatch Option.some.inj found

/-- The end of input is the last token of a text, and no token before it is one. -/
theorem scanFrom_ended (place : Position) (text : List Char) :
    ∃ before stop, (scanFrom place text).1 = before ++ [⟨.endOfInput, stop⟩] ∧
      ∀ token ∈ before, token.lexeme ≠ .endOfInput := by
  fun_induction scanFrom place text with
  | case1 place => exact ⟨[], place, rfl, fun _ none => absurd none List.not_mem_nil⟩
  | case2 place c cs front next tokens problems scanned ih =>
    obtain ⟨before, stop, split, inner⟩ := ih
    rw [scanned] at split
    refine ⟨front.lexeme.toList.map (fun lexeme => ⟨lexeme, place⟩) ++ before, stop, ?_, ?_⟩
    · rw [show tokens = before ++ [⟨.endOfInput, stop⟩] from split, List.append_assoc]
    · rw [List.forall_mem_append]
      refine ⟨fun token member ended => ?_, inner⟩
      obtain ⟨lexeme, found, rfl⟩ := List.mem_map.mp member
      exact readFront_ne_endOfInput c cs (ended ▸ Option.mem_toList.mp found)

end Token
end StepSequencer
