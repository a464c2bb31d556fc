import StepSequencer.Settings

/-!
# Command line arguments

A command line holds options, their values, and at most one word of its own, the source. A long
option may be shortened as long as it stays unique, a value may follow an equals sign or, behind a
short option, follow directly, and short options without values may be merged. A double dash ends
the options. It is never a value: joined to an option as its value, it leaves the option with none.

Arguments are first sorted into options and words, each by itself, and then read from left to
right. Options and words that fit nowhere are collected and refused at the end.
-/
namespace StepSequencer.Command

/-- The options of the command line. -/
inductive Switch where
  | help
  | target
  | title
  | tempo
  | output
  | clearRests
  | report
  | pack
  | pattern
  | listTargets
  | verbose
deriving DecidableEq, Repr

namespace Switch

/-- All options. -/
def all : List Switch :=
  [help, target, title, tempo, output, clearRests, report, pack, pattern, listTargets, verbose]

/-- The spellings of an option. -/
def spellings : Switch → List String
  | help => ["-h", "--help"]
  | target => ["--target", "-t"]
  | title => ["--title"]
  | tempo => ["--tempo"]
  | output => ["--output", "-o"]
  | clearRests => ["--clear-rests"]
  | report => ["--report"]
  | pack => ["--pack"]
  | pattern => ["--pattern"]
  | listTargets => ["--list-targets"]
  | verbose => ["--verbose", "-v"]

/-- Whether an option has a value. -/
def takesValue : Switch → Bool
  | target | title | tempo | output | report | pack | pattern => true
  | help | clearRests | listTargets | verbose => false

/-- The name of an option in messages. -/
def name (switch : Switch) : String := "/".intercalate switch.spellings

/-- Every spelling with its option. -/
def table : List (String × Switch) :=
  all.flatMap fun switch => switch.spellings.map fun spelling => (spelling, switch)

/-- The option of a spelling. -/
def ofSpelling? (spelling : String) : Option Switch := List.lookup spelling table

end Switch

/-- Why a command line is refused. -/
inductive ArgumentFault where
  /-- A shortened option fits several. -/
  | ambiguous (given : String) (spellings : List String)
  | noValue (switch : Switch)
  /-- A value was given to an option that has none. -/
  | surplusValue (switch : Switch) (value : String)
  | badNumber (switch : Switch) (value : String)
  | unrecognized (arguments : List String)
  | noSource
deriving DecidableEq, Repr

/-- The wording of a refusal. -/
def ArgumentFault.message : ArgumentFault → String
  | ambiguous given spellings =>
    "ambiguous option: " ++ given ++ " could match " ++ ", ".intercalate spellings
  | noValue switch => "argument " ++ switch.name ++ ": expected one argument"
  | surplusValue switch value =>
    "argument " ++ switch.name ++ ": ignored explicit argument " ++ Text.quoted value
  | badNumber switch value =>
    "argument " ++ switch.name ++ ": invalid int value: " ++ Text.quoted value
  | unrecognized arguments => "unrecognized arguments: " ++ " ".intercalate arguments
  | noSource => "a source file (or --pack) is required"

/-- What a command line asks for. A target, title, tempo or pattern may be given and have no
value. -/
structure Arguments where
  source : Option String
  target : Option String
  title : Option String
  tempo : Option Int
  output : Option String
  clearRests : Bool
  report : Option String
  pack : Option String
  pattern : Option (Option String)
  listTargets : Bool
  verbose : Bool
deriving DecidableEq, Repr

namespace Arguments

/-- What an empty command line asks for. -/
def ofSettings (settings : Settings) : Arguments where
  source := none
  target := some settings.target
  title := some settings.title
  tempo := some settings.tempo
  output := none
  clearRests := settings.clearRests
  report := none
  pack := none
  pattern := none
  listTargets := false
  verbose := false

end Arguments

/-- What an argument is by itself. -/
inductive Role where
  | word
  /-- The double dash that ends the options. -/
  | terminator
  /-- An option in a long or a short spelling, and the characters joined to it, if there are any or
  an equals sign announces them. -/
  | option (switch : Switch) (short : Bool) (joined : Option (List Char))
  /-- It looks like an option and is none. -/
  | unknown
deriving DecidableEq, Repr

/-- Whether a role is that of an option, known or not. -/
def Role.isOption : Role → Bool
  | option _ _ _ | unknown => true
  | word | terminator => false

/-- An argument and its role. -/
abbrev Sorted := String × Role

/-- A text in front of its first equals sign, and what is behind the sign, if there is one. -/
def cutEquals (text : List Char) : List Char × Option (List Char) :=
  let (start, rest) := text.span fun c => c != '='
  (start, rest.tail?)

/-- Whether a text starts like a long option. -/
def isLong (text : List Char) : Bool := text.take 2 == ['-', '-']

/-- All options that an argument may stand for by its first characters, with their spellings: those
that a long spelling shortens, or the short option in its first two characters. -/
def candidates (argument : List Char) : List (String × Switch) :=
  if isLong argument then
    Switch.table.filter fun (spelling, _) => (cutEquals argument).1.isPrefixOf spelling.toList
  else Switch.table.filter fun (spelling, _) => spelling.toList == argument.take 2

/-- Whether an argument is a negative number: a dash and digits, with or without a point before
the last of them. One line feed at the end does not count. -/
def isNegativeNumber (argument : List Char) : Bool :=
  let digit (c : Char) : Bool := (Text.scriptDigit? c).isSome
  let body := if argument.getLast? == some '\n' then argument.dropLast else argument
  match body with
  | '-' :: rest =>
    match rest.dropWhile digit with
    | [] => !rest.isEmpty
    | '.' :: fraction => !fraction.isEmpty && fraction.all digit
    | _ => false
  | _ => false

/-- The role of an argument before any double dash. -/
def roleOf (argument : String) : Except ArgumentFault Role :=
  let text := argument.toList
  let (start, value) := cutEquals text
  if text.head? != some '-' then .ok .word
  else
    match Switch.ofSpelling? (String.ofList start) with
    | some switch => .ok (.option switch (!isLong text) value)
    | none =>
      if text.length == 1 then .ok .word
      else
        match candidates text with
        | [(_, switch)] =>
          .ok (if isLong text then .option switch false value
            else .option switch true (some (text.drop 2)))
        | [] => if isNegativeNumber text || text.contains ' ' then .ok .word else .ok .unknown
        | many => .error (.ambiguous argument (many.map Prod.fst))

/-- The arguments with their roles. Everything behind a double dash is a word. -/
def sort : List String → Except ArgumentFault (List Sorted)
  | [] => .ok []
  | argument :: rest =>
    if argument == "--" then
      .ok ((argument, .terminator) :: rest.map fun word => (word, .word))
    else do
      let role ← roleOf argument
      return (argument, role) :: (← sort rest)

/-- An option with its value, if it has one. -/
abbrev Setting := Switch × Option String

/-- What an option argument amounts to: the options set, and the last option if it still needs a
value. -/
structure Cluster where
  settings : List Setting
  pending : Option Switch

/-- The value of the characters joined to an option. A double dash is none. -/
def joinedValue (joined : List Char) : Option String :=
  if joined == ['-', '-'] then none else some (String.ofList joined)

/-- An option alone. -/
def Cluster.single (switch : Switch) : Cluster :=
  if switch.takesValue then ⟨[], some switch⟩ else ⟨[(switch, none)], none⟩

/-- Read a short option and the characters directly behind it: its value, or more short options
behind one that has no value. -/
def readShort (switch : Switch) : List Char → Except ArgumentFault Cluster
  | [] => .ok (.single switch)
  | c :: rest =>
    if switch.takesValue then .ok ⟨[(switch, joinedValue (c :: rest))], none⟩
    else
      match Switch.ofSpelling? (String.ofList ['-', c]) with
      | none => .error (.surplusValue switch (String.ofList (c :: rest)))
      | some next => do
        let cluster ← readShort next rest
        return { cluster with settings := (switch, none) :: cluster.settings }

/-- Read an option and the characters joined to it. -/
def readCluster (switch : Switch) (short : Bool) :
    Option (List Char) → Except ArgumentFault Cluster
  | none => .ok (.single switch)
  | some joined =>
    if switch.takesValue then .ok ⟨[(switch, joinedValue joined)], none⟩
    else if short && !joined.isEmpty then readShort switch joined
    else .error (.surplusValue switch (String.ofList joined))

/-- Note the value of an option. Asking for help ends the reading. -/
def apply (arguments : Arguments) : Setting → Except ArgumentFault (Option Arguments)
  | (.help, _) => .ok none
  | (.target, value) => .ok (some { arguments with target := value })
  | (.title, value) => .ok (some { arguments with title := value })
  | (.tempo, none) => .ok (some { arguments with tempo := none })
  | (.tempo, some value) =>
    match Text.readInteger? value with
    | some tempo => .ok (some { arguments with tempo := some tempo })
    | none => .error (.badNumber .tempo value)
  | (.output, value) => .ok (some { arguments with output := value })
  | (.clearRests, _) => .ok (some { arguments with clearRests := true })
  | (.report, value) => .ok (some { arguments with report := value })
  | (.pack, value) => .ok (some { arguments with pack := value })
  | (.pattern, value) => .ok (some { arguments with pattern := some value })
  | (.listTargets, _) => .ok (some { arguments with listTargets := true })
  | (.verbose, _) => .ok (some { arguments with verbose := true })

/-- Note the values of several options in order. -/
def applyAll (arguments : Arguments) : List Setting → Except ArgumentFault (Option Arguments)
  | [] => .ok (some arguments)
  | setting :: rest => do
    match ← apply arguments setting with
    | some arguments => applyAll arguments rest
    | none => return none

/-- The word behind the last option that is the source, and the arguments left over. A double dash
before or behind that word is passed over. -/
def lastWord (arguments : List Sorted) : Option String × List String :=
  let skipDash (list : List Sorted) : List Sorted := match list with
    | (_, .terminator) :: rest => rest
    | list => list
  match skipDash arguments with
  | [] => (none, [])
  | (word, _) :: rest => (some word, (skipDash rest).map Prod.fst)

/-- Read sorted arguments. `taken` tells whether the source has been read, and `surplus` holds what
fits nowhere so far. Nothing is returned if help was asked for. -/
def readSorted (arguments : Arguments) (taken : Bool) (surplus : List String)
    (sorted : List Sorted) : Except ArgumentFault (Option Arguments) :=
  if sorted.any fun (_, role) => role.isOption then
    match sorted with
    | [] => .ok (some arguments)
    | (argument, .unknown) :: rest => readSorted arguments taken (surplus ++ [argument]) rest
    | (_, .option switch short joined) :: rest => do
      let cluster ← readCluster switch short joined
      match cluster.pending, rest with
      | none, rest =>
        match ← applyAll arguments cluster.settings with
        | some arguments => readSorted arguments taken surplus rest
        | none => return none
      | some switch, (word, .word) :: rest =>
        match ← applyAll arguments (cluster.settings ++ [(switch, some word)]) with
        | some arguments => readSorted arguments taken surplus rest
        | none => return none
      | some switch, _ => .error (.noValue switch)
    | (argument, _) :: rest =>
      if taken then readSorted arguments taken (surplus ++ [argument]) rest
      else readSorted { arguments with source := some argument } true surplus rest
  else
    let (source, left) := if taken then (arguments.source, sorted.map Prod.fst)
      else lastWord sorted
    let surplus := surplus ++ left
    if surplus.isEmpty then .ok (some { arguments with source })
    else .error (.unrecognized surplus)
termination_by sorted.length

/-- Read a command line. Nothing is returned if help was asked for. -/
def readArguments (settings : Settings) (arguments : List String) :
    Except ArgumentFault (Option Arguments) := do
  readSorted (.ofSettings settings) false [] (← sort arguments)

end StepSequencer.Command
