import StepSequencer.Text.Blank
import StepSequencer.Text.Quoted
import StepSequencer.Text.Utf8

/-!
# Paths of requests

An address is made of a scheme, a host, a path, a query and a fragment, and only its path matters
here. The dots of the path are resolved first, then its percent signs, once. What is left names a
route of the service. Percent signs are resolved before the path is divided into names, so that an
encoded slash divides it like a plain one, and after its dots, so that encoded dots are names.
-/
namespace StepSequencer.Service

/-- Why an address is refused. -/
inductive AddressFault where
  | tooLong
  /-- There is an ASCII control at an offset. -/
  | control (c : Char) (offset : Nat)
  /-- Two slashes stand in front of the path, and no scheme and no host. -/
  | doubleSlash
deriving DecidableEq, Repr

/-- The wording of a fault. -/
def AddressFault.message : AddressFault → String
  | tooLong => "URL too long"
  | control c offset =>
    "Invalid non-printable ASCII character in URL, " ++ Text.quoted c.toString ++
      " at position " ++ Text.decimal offset ++ "."
  | doubleSlash => "Relative URLs cannot have a path starting with '//'"

/-- Whether a character is an ASCII control. -/
def isControl (c : Char) : Bool := c.toNat < 0x20 || c.toNat == 0x7F

/-- Whether a character can be part of the name of a scheme. -/
def isSchemeChar (c : Char) : Bool := c.isAlphanum || c == '+' || c == '.' || c == '-'

/-- An address behind its scheme. -/
def withoutScheme (address : List Char) : List Char :=
  match address.dropWhile isSchemeChar with
  | ':' :: rest => if address.head?.all fun c => c.isAlpha || c == ':' then rest else address
  | _ => address

/-- An address behind the host that two slashes announce. -/
def withoutHost : List Char → List Char
  | '/' :: '/' :: rest => rest.dropWhile fun c => c != '/'
  | path => path

/-- The most characters that an address can have. -/
def maxLength : Nat := 65536

/-- The path of an address as it is written, with one slash in front. -/
def writtenPath (address : String) : Except AddressFault String :=
  let text := address.toList
  if maxLength < text.length then .error .tooLong
  else
    match text.zipIdx.find? fun (c, _) => isControl c with
    | some (c, offset) => .error (.control c offset)
    | none =>
      let front := text.takeWhile fun c => c != '?' && c != '#'
      if ['/', '/', '/', '/'].isPrefixOf front then .error .doubleSlash
      else
        let path := withoutHost (withoutScheme front)
        .ok (String.ofList ('/' :: path.dropWhile fun c => c == '/'))

/-- The parts of a path in which single dots lead nowhere and double dots lead back, but not beyond
the root. -/
def withoutDots (parts : List String) : List String :=
  parts.foldl (fun kept part =>
    if part == "." then kept
    else if part == ".." then (if kept == [""] then kept else kept.dropLast)
    else kept ++ [part]) []

/-- The bytes of a text in which two hexadecimal digits behind a percent sign are one byte. A
percent sign without digits stands for itself. -/
def unescape : List UInt8 → List UInt8
  | 0x25 :: high :: low :: rest =>
    match Text.hexValue? (Char.ofNat high.toNat), Text.hexValue? (Char.ofNat low.toNat) with
    | some high, some low => UInt8.ofNat (high * 16 + low) :: unescape rest
    | _, _ => 0x25 :: unescape (high :: low :: rest)
  | byte :: rest => byte :: unescape rest
  | [] => []
termination_by bytes => bytes.length

/-- A text with its percent signs resolved. -/
def unescaped (text : String) : String :=
  String.ofList (Text.Utf8.decodeReplacing (unescape text.toUTF8.toList))

/-- The path of an address as it is received. -/
def receivedPath (address : String) : Except AddressFault String := do
  let parts := withoutDots ((← writtenPath address).splitOn "/")
  return unescaped ("/".intercalate parts)

/-- The marks that an address may hold as they are. -/
def plainMarks : List Char := "_.-~:/%#?=@[]!$&'()*+,".toList

/-- A byte of an address: itself, or two digits behind a percent sign. -/
def escapeByte (byte : UInt8) : List Char :=
  let c := Char.ofNat byte.toNat
  if byte < 0x80 && (c.isAlphanum || plainMarks.contains c) then [c]
  else '%' :: Text.hexUpperChars 2 byte.toNat

/-- A text as an address. -/
def escaped (text : String) : String := String.ofList (text.toUTF8.toList.flatMap escapeByte)

/-- What the service can be asked for. -/
inductive Route where
  | compile
  | targets
  | packs
  /-- The source of a demo of a pack. -/
  | source (pack demo : String)
  | health
deriving DecidableEq, Repr

/-- The method of a route. -/
def Route.method : Route → String
  | compile => "POST"
  | targets | packs | source _ _ | health => "GET"

/-- A path without one line feed at its end. -/
def withoutLineFeed (path : String) : String :=
  String.ofList (if path.toList.getLast? == some '\n' then path.toList.dropLast else path.toList)

/-- The route that a path names. The names in a path are not empty. -/
def Route.ofPath? (path : String) : Option Route :=
  match (withoutLineFeed path).splitOn "/" with
  | ["", "compile"] => some compile
  | ["", "targets"] => some targets
  | ["", "packs"] => some packs
  | ["", "packs", pack, demo, "source"] =>
    if pack == "" || demo == "" then none else some (source pack demo)
  | ["", "health"] => some health
  | _ => none

/-- A path without the slashes at its end. -/
def withoutSlashes (path : String) : String :=
  String.ofList (Text.trimEndBy (fun c => c == '/') path.toList)

/-- The address to go to from a path that names no route, if without the slashes at its end it
names one. -/
def redirection? (path : String) : Option String :=
  let shorter := withoutSlashes path
  if shorter != path && (Route.ofPath? shorter).isSome then some (escaped shorter) else none

end StepSequencer.Service
