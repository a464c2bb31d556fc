import StepSequencer.Proofs.Clause.Grammar
import StepSequencer.Proofs.Token.Edge

/-!
# Clauses without the comments between them

A comment is a clause of its own, so it ends the clause before it: a `@play` takes no name from
behind a comment, and the items of a scene stop there. Taking comments out lets clauses go on. Where
no comment parts a clause from an operand or a colon that it would take, the clauses stay as they
are, except that a scene regains the items that comments cut off from it.
-/
namespace StepSequencer

/-- Whether an item is a name without a colon. -/
def Member.isBare : Member → Bool
  | assign _ _ => false
  | bare _ => true

namespace Clause

/-- The tokens that are no comments. -/
def uncommented (tokens : List (Token Int)) : List (Token Int) :=
  tokens.filter fun token => !token.lexeme.isComment

/-- Whether a clause would go on with a lexeme that followed it directly. Items of scenes are not
counted here, but a colon behind a last item that lacks one is. -/
def wants : Clause Int → Lexeme Int → Bool
  | play _ none _, lexeme => lexeme.name?.isSome
  | play _ (some _) false, lexeme => lexeme.name? == some "loop"
  | bare _ _, lexeme => lexeme.isColon
  | scene _ _ members, lexeme => members.getLast?.any Member.isBare && lexeme.isColon
  | _, _ => false

/-- Whether the next word behind a clause, comments aside, is one with which it would go on. -/
def isParted (clause : Clause Int) (rest : List (Token Int)) : Bool :=
  (uncommented rest).head?.any fun token => clause.wants token.lexeme

/-- Whether no comment parts a clause from a word with which it would go on. -/
def unparted (stop : Position) : List (Token Int) → Bool
  | [] => true
  | token :: rest =>
    let clause := read stop token rest
    !isParted clause.1 clause.2 && unparted stop clause.2
termination_by tokens => tokens.length
decreasing_by exact Nat.lt_succ_of_le (read_length stop token rest)

/-- The item of a scene that a clause would be. -/
def item? : Clause Int → Option Member
  | assign _ voice played => some (.assign voice played)
  | bare name _ => some (.bare name)
  | _ => none

/-- Clauses regrouped without the comments between them: the items at the front, which a scene
before them would take, and the clauses behind those. -/
def regroup : List (Clause Int) → List (Clause Int) × List (Clause Int)
  | [] => ([], [])
  | clause :: rest =>
    let behind := regroup rest
    match clause with
    | comment _ _ => behind
    | assign _ _ _ | bare _ _ => (clause :: behind.1, behind.2)
    | scene line name members =>
      ([], scene line name (members ++ behind.1.filterMap item?) :: behind.2)
    | _ => ([], clause :: (behind.1 ++ behind.2))

/-- Clauses without the comments between them. -/
def rejoined (clauses : List (Clause Int)) : List (Clause Int) :=
  (regroup clauses).1 ++ (regroup clauses).2

/-- Whether a clause is neither a comment nor an item nor takes items. -/
def standsAlone : Clause Int → Bool
  | comment _ _ | assign _ _ _ | bare _ _ | scene _ _ _ => false
  | _ => true

/-- A clause that stands alone is not an item, and takes none of those behind it. -/
theorem regroup_alone {clause : Clause Int} (alone : clause.standsAlone = true)
    (rest : List (Clause Int)) : regroup (clause :: rest) = ([], clause :: rejoined rest) := by
  cases clause <;> first | rfl | contradiction

end Clause

namespace Grammar

open Clause

/-- Tokens whose words split as the regrouped clauses say. -/
structure Regrouped (tokens : List (Token Int)) (items others : List (Clause Int)) : Prop where
  /-- The items at the front, as a scene before them would take them, and what is behind. -/
  taken : ∃ words behind phrases, uncommented tokens = words ++ behind ∧
    Items words ((items.filterMap item?).filterMap Member.assignment?) behind ∧
    Splits behind phrases ∧ phrases.filterMap Prod.snd = others.filterMap statement?
  /-- The words as they stand without a scene before them. -/
  alone : ∃ phrases, Splits (uncommented tokens) phrases ∧
    phrases.filterMap Prod.snd = (items ++ others).filterMap statement?

/-- Comments are removed from two runs of tokens one by one. -/
theorem uncommented_append (first second : List (Token Int)) :
    uncommented (first ++ second) = uncommented first ++ uncommented second :=
  List.filter_append ..

/-- What is next in a run of tokens is not changed by what follows the run. -/
theorem next?_append {first : List (Token Int)} (some : first ≠ []) (second : List (Token Int)) :
    next? (first ++ second) = next? first := by
  cases first with
  | nil => exact absurd rfl some
  | cons token first => rfl

/-- An item in front does not change that the last item is bare. -/
theorem lastBare_cons (member : Member) (members : List Member)
    (last : members.getLast?.any Member.isBare = true) :
    (member :: members).getLast?.any Member.isBare = true := by
  cases members with
  | nil => contradiction
  | cons other members =>
    rw [List.getLast?_cons_cons]
    exact last

/-- The items of a scene before more items, unless a colon meets a last item that lacks one. -/
theorem items_onto (stop : Position) (tokens : List (Token Int))
    (complete : (takeMembers stop tokens).1.flatMap Member.errors = [])
    {items behind : List (Token Int)} {assignments : List Assignment}
    (later : Items items assignments behind)
    (together : (takeMembers stop tokens).1.getLast?.any Member.isBare = true →
      next? (items ++ behind) ≠ some .colon) :
    ∃ words, tokens = words ++ (takeMembers stop tokens).2 ∧
      Items (words ++ items)
        ((takeMembers stop tokens).1.filterMap Member.assignment? ++ assignments) behind ∧
      (words = [] ↔ (takeMembers stop tokens).1 = []) ∧ Clause.uncommented words = words := by
  fun_induction takeMembers stop tokens with
  | case1 => exact ⟨[], rfl, later, ⟨fun _ => rfl, fun _ => rfl⟩, rfl⟩
  | case2 token rest unnamed => exact ⟨[], rfl, later, ⟨fun _ => rfl, fun _ => rfl⟩, rfl⟩
  | case3 token rest name named colon pattern more =>
    rename_i ih
    rw [List.flatMap_cons, List.append_eq_nil_iff] at complete
    obtain ⟨lexeme, place⟩ := token
    obtain rfl := eq_identifier named
    obtain ⟨colonPlace, tail, rfl⟩ := cons_of_next? (colonNext_iff.mp colon)
    obtain ⟨played, playedPlace, left, found⟩ :=
      front_of_errors (fun _ _ => eq_identifier) complete.1
    obtain rfl : tail = ⟨.identifier played, playedPlace⟩ :: left := found
    obtain ⟨words, split, all, -, plain⟩ := ih complete.2 (together ∘ lastBare_cons _ _)
    have split : left = words ++ more.2 := split
    have first := Item.assign name played place colonPlace playedPlace (words ++ items ++ behind)
    refine ⟨⟨.identifier name, place⟩ :: ⟨.colon, colonPlace⟩ ::
      ⟨.identifier played, playedPlace⟩ :: words, ?_, .more first all, by simp, ?_⟩
    · rw [split]
      rfl
    · exact congrArg (fun others => _ :: _ :: _ :: others) plain
  | case4 token rest name named colon more =>
    rename_i ih
    obtain ⟨lexeme, place⟩ := token
    obtain rfl := eq_identifier named
    obtain ⟨words, split, all, empty, plain⟩ := ih complete (together ∘ lastBare_cons _ _)
    have apart : next? (words ++ items ++ behind) ≠ some .colon := by
      by_cases none : words = []
      · have single : more.1 = [] := empty.mp none
        rw [none]
        exact together (by rw [single]; rfl)
      · rw [List.append_assoc, next?_append none, ← next?_append none more.2, ← split, ne_eq,
          ← colonNext_iff]
        exact colon
    refine ⟨⟨.identifier name, place⟩ :: words, ?_, .more (.bare name place apart) all, by simp, ?_⟩
    · rw [List.cons_append, ← split]
    · exact congrArg (List.cons _) plain

/-! ### Clause by clause -/

namespace Regrouped

variable {left words : List (Token Int)} {clauses items others : List (Clause Int)}

/-- Another item at the front. -/
theorem item (clause : Clause Int) {member : Member} (behind : Regrouped left items others)
    (plain : Clause.uncommented words = words) (belongs : clause.item? = some member)
    (first : Item words member.assignment? (Clause.uncommented left))
    (phrase : Phrase words clause.statement? (Clause.uncommented left)) :
    Regrouped (words ++ left) (clause :: items) others := by
  obtain ⟨more, rest, phrases, split, all, splits, statements⟩ := behind.taken
  obtain ⟨phrases', splits', statements'⟩ := behind.alone
  have whole : Clause.uncommented (words ++ left) = words ++ Clause.uncommented left := by
    rw [uncommented_append, plain]
  constructor
  · rw [split] at first
    refine ⟨words ++ more, rest, phrases, ?_, ?_, splits, statements⟩
    · rw [whole, split, List.append_assoc]
    · have assignments := Items.more first all
      rw [List.filterMap_cons, belongs, List.filterMap_cons]
      cases assigned : member.assignment? <;> rw [assigned] at assignments <;> exact assignments
  · rw [whole]
    refine ⟨_, .cons phrase splits', ?_⟩
    rw [List.cons_append, List.filterMap_cons, List.filterMap_cons, statements']

/-- A clause that is no item ends the items before it. -/
theorem closed {first : Token Int} {phrases : List (List (Token Int) × Option Statement)}
    {tokens : List (Token Int)} (starts : Clause.uncommented tokens = first :: words)
    (unnamed : first.lexeme.name? = none) (splits : Splits (first :: words) phrases)
    (statements : phrases.filterMap Prod.snd = others.filterMap statement?) :
    Regrouped tokens [] others := by
  have none : ¬NameNext (first :: words) := by
    rintro ⟨name, named⟩
    rw [Option.some.inj named] at unnamed
    contradiction
  rw [← starts] at splits none
  exact ⟨⟨[], _, phrases, rfl, .none none, splits, statements⟩, ⟨phrases, splits, statements⟩⟩

/-- A clause that neither takes items nor is one. -/
theorem alone_cons {first : Token Int} {clause : Clause Int}
    (behind : Regrouped left (regroup clauses).1 (regroup clauses).2)
    (stands : clause.standsAlone = true)
    (plain : Clause.uncommented (first :: words) = first :: words)
    (unnamed : first.lexeme.name? = none)
    (phrase : Phrase (first :: words) clause.statement? (Clause.uncommented left)) :
    Regrouped (first :: words ++ left) (regroup (clause :: clauses)).1
      (regroup (clause :: clauses)).2 := by
  obtain ⟨phrases, splits, statements⟩ := behind.alone
  have whole : Clause.uncommented (first :: words ++ left) =
      first :: (words ++ Clause.uncommented left) := by
    rw [uncommented_append, plain]
    rfl
  rw [regroup_alone stands]
  refine closed whole unnamed (.cons phrase splits) ?_
  rw [List.filterMap_cons, List.filterMap_cons, statements]
  rfl

/-- A clause does not go on with the next word. -/
theorem wants_of_next? {clause : Clause Int} (together : isParted clause left = false)
    {lexeme : Lexeme Int} (next : next? (Clause.uncommented left) = some lexeme) :
    clause.wants lexeme = false := by
  obtain ⟨token, first, rfl⟩ := Option.map_eq_some_iff.mp next
  rw [isParted, first] at together
  exact together

/-- A scene takes the items that follow it, comments aside. -/
theorem scene_cons (stop : Position) {name : String} {place operand : Position}
    {tokens : List (Token Int)}
    (complete : (takeMembers stop tokens).1.flatMap Member.errors = [])
    (together : isParted (.scene place.line (.found name) (takeMembers stop tokens).1)
      (takeMembers stop tokens).2 = false)
    (behind : Regrouped (takeMembers stop tokens).2 items others) :
    Regrouped (⟨.directive "scene", place⟩ :: ⟨.identifier name, operand⟩ :: tokens) []
      (.scene place.line (.found name) ((takeMembers stop tokens).1 ++ items.filterMap item?) ::
        others) := by
  obtain ⟨more, rest, phrases, split, all, splits, statements⟩ := behind.taken
  have apart : (takeMembers stop tokens).1.getLast?.any Member.isBare = true →
      next? (more ++ rest) ≠ some .colon := by
    intro last colon
    rw [← split] at colon
    have unwanted := wants_of_next? together colon
    rw [Clause.wants, last] at unwanted
    contradiction
  obtain ⟨words, whole, members, -, plain⟩ := items_onto stop tokens complete all apart
  have tail : Clause.uncommented tokens = words ++ more ++ rest := by
    rw [whole, uncommented_append, plain, split, List.append_assoc]
  have starts : Clause.uncommented
      (⟨.directive "scene", place⟩ :: ⟨.identifier name, operand⟩ :: tokens) =
        ⟨.directive "scene", place⟩ :: ⟨.identifier name, operand⟩ :: (words ++ more ++ rest) := by
    rw [← tail]
    rfl
  refine closed starts rfl (.cons (.scene name place operand members) splits) ?_
  rw [List.filterMap_cons, List.filterMap_cons, statements, statement?, List.filterMap_append]
  rfl

/-- Only the clause of a `@play` means one. -/
theorem eq_play {clause : Clause Int} {line : Int} {name : Option String} {looped : Bool}
    (means : clause.statement? = some (.play line name looped)) :
    clause = .play line name looped := by
  cases clause <;> simp_all [statement?]

/-- One more clause in front of regrouped ones. -/
theorem step (stop : Position) {token : Token Int} {rest : List (Token Int)}
    (proper : ∀ other ∈ token :: rest, Proper other)
    (complete : (Clause.read stop token rest).1.errors = [])
    (together :
      isParted (Clause.read stop token rest).1 (Clause.read stop token rest).2 = false)
    (behind : Regrouped (Clause.read stop token rest).2 (regroup clauses).1 (regroup clauses).2) :
    Regrouped (token :: rest) (regroup ((Clause.read stop token rest).1 :: clauses)).1
      (regroup ((Clause.read stop token rest).1 :: clauses)).2 := by
  obtain ⟨words, split, phrase⟩ := isPhrase_read stop proper complete
  generalize result : Clause.read stop token rest = read at *
  obtain ⟨clause, left⟩ := read
  dsimp only at *
  subst split
  generalize means : clause.statement? = statement at phrase
  generalize whole : token :: words = tokens at phrase
  cases phrase with
  | comment text place =>
    obtain ⟨rfl, rfl⟩ := List.cons.inj whole
    obtain rfl : Clause.comment place.line text = clause := congrArg Prod.fst result
    exact ⟨behind.taken, behind.alone⟩
  | @scene name place operand items _ _ members =>
    obtain ⟨rfl, rfl⟩ := List.cons.inj whole
    obtain ⟨rfl, same⟩ : Clause.scene place.line (.found name)
        (takeMembers stop (items ++ left)).1 = clause ∧
        (takeMembers stop (items ++ left)).2 = left := Prod.mk.inj result
    have meets : isParted (.scene place.line (.found name) (takeMembers stop (items ++ left)).1)
        (takeMembers stop (items ++ left)).2 = false := by
      rw [same]
      exact together
    rw [← same] at behind
    exact scene_cons stop complete meets behind
  | assign voice pattern place colon name =>
    obtain ⟨rfl, rfl⟩ := List.cons.inj whole
    obtain rfl : Clause.assign place.line voice (.found pattern) = clause :=
      congrArg Prod.fst result
    exact item (.assign place.line voice (.found pattern)) behind rfl rfl
      (.assign voice pattern place colon name _) (.assign voice pattern place colon name _)
  | bare name place apart =>
    obtain ⟨rfl, rfl⟩ := List.cons.inj whole
    have unmarked : ¬colonNext left = true := mt colonNext_iff.mp apart
    have read : Clause.read stop ⟨.identifier name, place⟩ left = (.bare name place, left) := by
      simp only [Clause.read, if_neg unmarked]
    obtain rfl : Clause.bare name place = clause := congrArg Prod.fst (read.symm.trans result)
    have apart : next? (Clause.uncommented left) ≠ some .colon := by
      intro colon
      exact absurd (wants_of_next? together colon) Bool.noConfusion
    exact item (.bare name place) behind rfl rfl (.bare name place apart) (.bare name place apart)
  | play place unnamed =>
    obtain ⟨rfl, rfl⟩ := List.cons.inj whole
    obtain rfl := eq_play means
    refine behind.alone_cons rfl rfl rfl (.play place ?_)
    rintro ⟨name, named⟩
    exact absurd (wants_of_next? together named) Bool.noConfusion
  | playScene name place operand once =>
    obtain ⟨rfl, rfl⟩ := List.cons.inj whole
    obtain rfl := eq_play means
    refine behind.alone_cons rfl rfl rfl (.playScene name place operand ?_)
    intro again
    exact absurd (wants_of_next? together again) (by simp [Clause.wants, Lexeme.name?])
  | _ =>
    obtain ⟨rfl, rfl⟩ := List.cons.inj whole
    obtain rfl := congrArg Prod.fst result
    refine behind.alone_cons rfl rfl rfl ?_
    rw [means]
    constructor

end Regrouped

/-- The words of tokens that are read without an error, and in which no comment parts what belongs
together, split as their clauses regroup. -/
theorem regrouped_group (stop : Position) {tokens : List (Token Int)}
    (proper : ∀ token ∈ tokens, Proper token)
    (complete : (group stop tokens).flatMap Clause.errors = [])
    (together : unparted stop tokens = true) :
    Regrouped tokens (regroup (group stop tokens)).1 (regroup (group stop tokens)).2 := by
  fun_induction group stop tokens with
  | case1 =>
    have unnamed : ¬NameNext [] := by
      rintro ⟨name, named⟩
      exact Option.some_ne_none _ named.symm
    exact ⟨⟨[], [], [], rfl, .none unnamed, .nil, rfl⟩, ⟨[], .nil, rfl⟩⟩
  | case2 token rest clause =>
    rename_i ih
    rw [List.flatMap_cons, List.append_eq_nil_iff] at complete
    rw [unparted, Bool.and_eq_true, Bool.not_eq_true'] at together
    obtain ⟨words, split, phrase⟩ := isPhrase_read stop proper complete.1
    have later : ∀ other ∈ clause.2, Proper other := by
      intro other member
      apply proper other
      rw [split]
      exact List.mem_cons_of_mem token (List.mem_append_right words member)
    exact .step stop proper complete.1 together.1 (ih later complete.2 together.2)

/-- Such tokens are read without their comments, at whatever place they end then, without an error
and as their clauses rejoin. -/
theorem group_uncommented (stop finish : Position) {tokens : List (Token Int)}
    (proper : ∀ token ∈ tokens, Proper token)
    (complete : (group stop tokens).flatMap Clause.errors = [])
    (together : unparted stop tokens = true) :
    (group finish (Clause.uncommented tokens)).flatMap Clause.errors = [] ∧
      (group finish (Clause.uncommented tokens)).filterMap statement? =
        (rejoined (group stop tokens)).filterMap statement? := by
  obtain ⟨phrases, splits, statements⟩ := (regrouped_group stop proper complete together).alone
  have kept : ∀ token ∈ Clause.uncommented tokens, Proper token := fun token member =>
    proper token (List.mem_filter.mp member).1
  obtain ⟨errors, body⟩ := group_of_splits finish splits kept
  exact ⟨errors, body.trans statements⟩

end Grammar

end StepSequencer
