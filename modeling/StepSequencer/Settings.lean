import StepSequencer.Json.Loose

/-!
# Settings

The defaults of the program and how the environment changes them.
-/
namespace StepSequencer

/-- The defaults of a compilation and the address of the service. -/
structure Settings where
  target : String
  title : String
  tempo : Int
  clearRests : Bool
  host : String
  port : Int
deriving DecidableEq, Repr

namespace Settings

/-- The settings of an environment that says nothing. -/
def standard : Settings where
  target := "mtmc16"
  title := "Untitled"
  tempo := 120
  clearRests := false
  host := "127.0.0.1"
  port := 8010

/-- The names in the environment that the settings look at. -/
def names : List String :=
  ["TENTEN_DEFAULT_TARGET", "TENTEN_DEFAULT_TITLE", "TENTEN_DEFAULT_TEMPO", "TENTEN_CLEAR_RESTS",
    "TENTEN_API_HOST", "TENTEN_API_PORT"]

/-- Whether a word means yes. -/
def isYes (word : String) : Bool :=
  ["1", "true", "yes", "on"].contains
    (String.ofList ((Text.trim word.toList).map Char.toLower))

/-- The settings of an environment. The first number that cannot be read is the fault. -/
def ofEnvironment (value? : String → Option String) : Except NumeralFault Settings := do
  let tempo ← match value? "TENTEN_DEFAULT_TEMPO" with
    | some word => readNumber word
    | none => pure standard.tempo
  let port ← match value? "TENTEN_API_PORT" with
    | some word => readNumber word
    | none => pure standard.port
  return {
    target := (value? "TENTEN_DEFAULT_TARGET").getD standard.target
    title := (value? "TENTEN_DEFAULT_TITLE").getD standard.title
    tempo
    clearRests := ((value? "TENTEN_CLEAR_RESTS").map isYes).getD standard.clearRests
    host := (value? "TENTEN_API_HOST").getD standard.host
    port }

end Settings

end StepSequencer
