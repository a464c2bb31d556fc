import StepSequencer.Index
import StepSequencer.Instruction
import StepSequencer.Memory.Map
import StepSequencer.Steps

/-!
# Packs

A pack holds the register settings of an instrument and demo patterns for it. The step texts of a
pack have their own grammar: marks for triggers, and bytes as two hexadecimal digits.
-/
namespace StepSequencer

/-- A demo: a tempo, and step texts for voices by name. -/
structure Demo where
  bpm : Option Int
  voices : Index String
deriving DecidableEq, Repr

/-- The settings of an instrument and its demos by name. -/
structure Pack where
  name : String
  category : String
  year : Int
  manufacturer : String
  description : String
  teaches : List String
  /-- The stores that set the registers. -/
  init : List Store
  demos : Index Demo
deriving DecidableEq, Repr

/-- Packs by key. -/
abbrev Catalog := Index Pack

/-- Why a demo cannot be had. -/
inductive PackFault where
  | noPack (key : String)
  | noDemo (key demo : String)
  /-- The pack has no demo at all. -/
  | empty (key : String)
deriving DecidableEq, Repr

/-- The wording of a fault. -/
def PackFault.message : PackFault → String
  | noPack key => "Pack not found: " ++ key
  | noDemo key demo => "Pattern not found: " ++ key ++ "/" ++ demo
  | empty key => "Pack has no patterns: " ++ key

namespace Demo

/-- The byte values of a step text, at most `room` of them. A hexadecimal digit takes the character
behind it along, and both count if that is a digit, too. Other characters give nothing. -/
def values : List Char → Nat → List Int
  | [], _ => []
  | _, 0 => []
  | [c], _ + 1 =>
    if c == 'x' then [Steps.trigger]
    else if c == 'X' then [Steps.accent]
    else if c == '.' then [Steps.rest]
    else []
  | c :: d :: cs, room + 1 =>
    if c == 'x' then Steps.trigger :: values (d :: cs) room
    else if c == 'X' then Steps.accent :: values (d :: cs) room
    else if c == '.' then Steps.rest :: values (d :: cs) room
    else
      match Text.hexValue? c, Text.hexValue? d with
      | some high, some low => ((high * 16 + low : Nat) : Int) :: values cs room
      | some digit, none => (digit : Int) :: values cs room
      | none, _ => values (d :: cs) (room + 1)

/-- The sixteen byte values of a step text. -/
def decode (text : List Char) : List Int := Steps.fit (values text stepCount)

/-- A text of any length is decoded to a whole bar. -/
@[simp] theorem length_decode (text : List Char) : (decode text).length = stepCount :=
  Steps.length_fit _

/-- The step text of a voice, if it is not empty. -/
def text? (demo : Demo) (voice : Voice) : Option String :=
  (demo.voices.get? voice.name).filter fun text => text != ""

/-- The tempo of a demo, if it is given and not zero. -/
def tempo? (demo : Demo) : Option Int := demo.bpm.filter fun bpm => bpm != 0

/-- Sixteen stores of values at a voice. -/
def voiceStores (voice : Voice) (values : List Int) : List Store :=
  values.zipIdx.map fun (value, step) => (voice.base + (step : Nat), value)

/-- The stores of a demo: its tempo, then the steps of its voices in hardware order. -/
def stores (demo : Demo) : List Store :=
  (demo.tempo?.toList.map fun bpm => (Register.tempo, bpm)) ++
    Voice.all.flatMap fun voice =>
      match demo.text? voice with
      | some text => voiceStores voice (decode text.toList)
      | none => []

end Demo

namespace Catalog

/-- The pack of a key. -/
def pack (catalog : Catalog) (key : String) : Except PackFault Pack :=
  match catalog.get? key with
  | some pack => .ok pack
  | none => .error (.noPack key)

/-- The demo of a name in the pack of a key. -/
def demo (catalog : Catalog) (key name : String) : Except PackFault Demo := do
  let pack ← catalog.pack key
  match pack.demos.get? name with
  | some demo => .ok demo
  | none => .error (.noDemo key name)

/-- The name of the first demo of a pack. -/
def firstDemo (catalog : Catalog) (key : String) : Except PackFault String := do
  let pack ← catalog.pack key
  match pack.demos.names with
  | name :: _ => .ok name
  | [] => .error (.empty key)

/-- The stores that set up a pack. -/
def packStores (catalog : Catalog) (key : String) : Except PackFault (List Store) := do
  return (← catalog.pack key).init

/-- The stores that set up a pack and a demo of it. -/
def demoStores (catalog : Catalog) (key name : String) : Except PackFault (List Store) := do
  let demo ← catalog.demo key name
  return (← catalog.packStores key) ++ demo.stores

/-- The category of a pack; packs without one are in a category of their own. -/
def category (pack : Pack) : String := if pack.category == "" then "other" else pack.category

/-- The packs by category, categories in the order of their first pack. -/
def byCategory (catalog : Catalog) : Index (List (String × Pack)) :=
  catalog.foldl (fun groups (key, pack) =>
    groups.put (category pack) ((groups.get? (category pack)).getD [] ++ [(key, pack)])) []

end Catalog

end StepSequencer
