import StepSequencer.Pack

/-!
# Packs as programs

The text of a program that sets up a pack and plays one of its demos. Voices with triggers only
become patterns of a scene; voices with other values become pokes.
-/
namespace StepSequencer.Catalog

/-- The line of a poke. -/
def pokeLine (store : Store) : String :=
  "@poke $" ++ Text.hexUpper 4 store.1 ++ " " ++ Text.decimal store.2

/-- The name of the pattern of a voice. -/
def lineName (voice : Voice) : String := voice.name ++ "_line"

/-- The text of steps that a pattern can spell. -/
def spelling? (steps : List Int) : Option (List Char) :=
  (Steps.encodeTriggers? steps).filter fun text => Steps.decode text == steps

/-- The lines of a voice, and whether it plays a pattern. -/
def voiceLines (voice : Voice) (text : String) : List String × Bool :=
  let steps := Demo.decode text.toList
  match spelling? steps with
  | some spelled =>
    (["", "@pattern " ++ lineName voice ++ " \"" ++ String.ofList spelled ++ "\""], true)
  | none =>
    let pokes := (Demo.voiceStores voice steps).filter fun store => store.2 != 0
    ("" :: ("# " ++ voice.name ++ " notes") :: pokes.map pokeLine, false)

/-- The voices of a demo that have a step text. -/
def played (demo : Demo) : List (Voice × String) :=
  Voice.all.filterMap fun voice => (demo.text? voice).map fun text => (voice, text)

/-- The lines of the program. -/
def sourceLines (key name : String) (pack : Pack) (demo : Demo) : List String :=
  let voices := (played demo).map fun (voice, text) => (voice, voiceLines voice text)
  ["# " ++ pack.name ++ " (" ++ Text.decimal pack.year ++ ") - " ++ pack.description,
    "@title \"" ++ key ++ " / " ++ name ++ "\""] ++
  (demo.tempo?.toList.map fun bpm => "@tempo " ++ Text.decimal bpm) ++
  ["", "# " ++ key ++ " init"] ++
  pack.init.map pokeLine ++
  (voices.flatMap fun (_, lines, _) => lines) ++
  ["", "@scene main"] ++
  ((voices.filter fun (_, _, patterned) => patterned).map fun (voice, _) =>
    voice.name ++ ": " ++ lineName voice) ++
  ["@play main loop"]

/-- The text of the program of a demo. -/
def source (catalog : Catalog) (key name : String) : Except PackFault String := do
  let pack ← catalog.pack key
  let demo ← catalog.demo key name
  return String.join ((sourceLines key name pack demo).map fun line => line ++ "\n")

end StepSequencer.Catalog
