import StepSequencer.Json.Encoding
import StepSequencer.Json.Reader
import StepSequencer.Service.Numeral

/-!
# Requests to compile

A request is a JSON object with a source and, if wanted, other options. Every field is read on its
own, so that all faults of a request are told at once, each with the document that is at fault.
Numbers and switches are read from several kinds of documents.
-/
namespace StepSequencer.Service

/-- Why a request is refused. -/
inductive Reason where
  | missing
  | notObject
  | notJson
  | notText
  | notNumber
  | malformedNumber
  /-- The number has a fraction. -/
  | fraction
  /-- The number does not fit into 64 bits. -/
  | oversized
  | notFinite
  | notSwitch
  | malformedSwitch
deriving DecidableEq, Repr

/-- The code of a reason in answers. -/
def Reason.code : Reason → String
  | missing => "missing"
  | notObject => "model_attributes_type"
  | notJson => "json_invalid"
  | notText => "string_type"
  | notNumber => "int_type"
  | malformedNumber => "int_parsing"
  | fraction => "int_from_float"
  | oversized => "int_parsing_size"
  | notFinite => "finite_number"
  | notSwitch => "bool_type"
  | malformedSwitch => "bool_parsing"

/-- Where in a request a fault is. -/
inductive Place where
  | body
  | field (name : String)
  | offset (count : Nat)
deriving DecidableEq, Repr

/-- A fault of a request and the document in which it was found. -/
structure Fault where
  reason : Reason
  place : Place
  given : Json
deriving Repr

/-- A text. -/
def readText : Json → Except Reason String
  | .str value => .ok value
  | _ => .error .notText

/-- The least size of numbers that do not fit into a signed word of 64 bits. -/
def wordBound : Nat := 0x8000000000000000

/-- A whole number: as such, as a decimal number without a fraction, as a numeral, or as a yes or a
no. -/
def readNumber : Json → Except Reason Int
  | .int value => .ok value
  | .bool value => .ok (if value then 1 else 0)
  | .decimal mantissa exponent =>
    match Json.wholeOf? mantissa exponent with
    | some value => if value.natAbs < wordBound then .ok value else .error .oversized
    | none =>
      if (Json.toFloat mantissa exponent).isFinite then .error .fraction else .error .notFinite
  | .nonFinite _ => .error .notFinite
  | .str value =>
    match readNumeral? value with
    | some value => .ok value
    | none => .error .malformedNumber
  | .null | .arr _ | .obj _ => .error .notNumber

/-- The words for yes and no. -/
def switchOf? (word : String) : Option Bool :=
  let word := String.ofList (word.toList.map Char.toLower)
  if ["1", "true", "t", "yes", "y", "on"].contains word then some true
  else if ["0", "false", "f", "no", "n", "off"].contains word then some false
  else none

/-- A switch: as such, as one or zero, or as a word. -/
def readSwitch : Json → Except Reason Bool
  | .bool value => .ok value
  | .int value =>
    if value == 0 then .ok false
    else if value == 1 then .ok true
    else if -wordBound ≤ value && value < wordBound then .error .malformedSwitch
    else .error .notSwitch
  | .decimal mantissa exponent =>
    match Json.wholeOf? mantissa exponent with
    | some 0 => .ok false
    | some 1 => .ok true
    | some value =>
      if value.natAbs < wordBound then .error .malformedSwitch else .error .notSwitch
    | none => .error .notSwitch
  | .str word =>
    match switchOf? word with
    | some value => .ok value
    | none => .error .malformedSwitch
  | .null | .nonFinite _ | .arr _ | .obj _ => .error .notSwitch

/-- A field that has to be there. -/
def required {α : Type} (read : Json → Except Reason α) : Option Json → Except Reason α
  | some document => read document
  | none => .error .missing

/-- A field that may be missing or null. -/
def optional {α : Type} (read : Json → Except Reason α) : Option Json → Except Reason (Option α)
  | none | some .null => .ok none
  | some document => (read document).map some

/-- What a request to compile asks for. -/
structure CompileRequest where
  source : String
  target : Option String
  title : Option String
  tempo : Option Int
  clearRests : Option Bool
deriving DecidableEq, Repr

/-- The fault of a field, if it has one. Of a missing field the object is at fault that lacks it. -/
def faultAt {α : Type} (object : Json) (name : String) : Except Reason α → List Fault
  | .ok _ => []
  | .error reason => [⟨reason, .field name, (object.field? name).getD object⟩]

/-- The request of a document. -/
def CompileRequest.ofDocument (document : Json) : Except (List Fault) CompileRequest :=
  match document with
  | .obj _ =>
    let source := required readText (document.field? "source")
    let target := optional readText (document.field? "target")
    let title := optional readText (document.field? "title")
    let tempo := optional readNumber (document.field? "tempo")
    let clearRests := optional readSwitch (document.field? "clear_rests")
    match source, target, title, tempo, clearRests with
    | .ok source, .ok target, .ok title, .ok tempo, .ok clearRests =>
      .ok ⟨source, target, title, tempo, clearRests⟩
    | _, _, _, _, _ =>
      .error (faultAt document "source" source ++ faultAt document "target" target ++
        faultAt document "title" title ++ faultAt document "tempo" tempo ++
        faultAt document "clear_rests" clearRests)
  | .null => .error [⟨.missing, .body, .null⟩]
  | _ => .error [⟨.notObject, .body, document⟩]

/-- Why the body of a request has no document. -/
inductive BodyFault where
  /-- The bytes are no text, or lists and objects are nested too deeply. -/
  | unreadable
  /-- The text stops being a document at an offset. -/
  | notJson (offset : Nat)
deriving DecidableEq, Repr

/-- How deeply lists and objects of a body may be nested. -/
def maxDepth : Nat := 960

/-- The document of a body. An empty body counts as null. -/
def readBody (body : String) : Except BodyFault Json :=
  if body == "" then .ok .null
  else
    match Json.decode? body.toUTF8.toList with
    | none => .error .unreadable
    | some text =>
      (Json.read maxDepth text).mapError fun fault =>
        match fault with
        | .unexpected offset => .notJson offset
        | .tooDeep => .unreadable

end StepSequencer.Service
