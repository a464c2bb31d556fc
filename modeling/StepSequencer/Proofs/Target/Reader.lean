import StepSequencer.Proofs.IntelHex.Region
import StepSequencer.Target
import StepSequencer.Target.Braces

/-!
# Reading stores back from delivered texts

Every target delivers a program as text in which its stores can be found again: a pair of lines for
each store in assembly, one line in the three languages, and the data of the records in Intel HEX.
The readers here know the shape of a store and the part of the text that holds the stores, and take
nothing else from the text.
-/
namespace StepSequencer.Delivered

/-- The base in which a number is written. -/
inductive Radix where
  | decimal
  | hexadecimal
deriving DecidableEq, Repr

/-- Whether a character is a digit in a base. -/
def Radix.isDigit : Radix → Char → Bool
  | decimal => Text.isDecimal
  | hexadecimal => Text.isHex

/-- The number that digits write in a base. -/
def Radix.value : Radix → List Char → Nat
  | decimal => Text.ofDecimal
  | hexadecimal => Text.ofHex

/-- The text behind a word that stands at its front. -/
def behind? : List Char → List Char → Option (List Char)
  | [], text => some text
  | _ :: _, [] => none
  | w :: word, c :: text => if w = c then behind? word text else none

/-- The number at the front of a text, at least one digit long, and the text behind it. -/
def digits? (radix : Radix) (text : List Char) : Option (Nat × List Char) :=
  if text.takeWhile radix.isDigit = [] then none
  else some (radix.value (text.takeWhile radix.isDigit), text.dropWhile radix.isDigit)

/-- The number with or without a minus sign at the front of a text, and the text behind it. -/
def number? (radix : Radix) : List Char → Option (Int × List Char)
  | '-' :: text => (digits? radix text).map fun found => (-(found.1 : Int), found.2)
  | text => (digits? radix text).map fun found => ((found.1 : Int), found.2)

/-- A line that holds a store: fixed words around the address and the value. The words behind a
number do not prolong it. -/
structure StoreForm where
  before : String
  radix : Radix
  between : String
  after : String
  between_ends : (between.toList.head?.any fun c => !radix.isDigit c) = true := by decide
  after_ends : (after.toList.head?.any fun c => !Text.isDecimal c) = true := by decide
  unbroken : '\n' ∉ before.toList ++ between.toList ++ after.toList := by decide

/-- The line with the text of an address and a value. -/
def StoreForm.line (form : StoreForm) (addressText : String) (value : Int) : String :=
  form.before ++ addressText ++ form.between ++ Text.decimal value ++ form.after

/-- The store of a line of a form. -/
def StoreForm.read? (form : StoreForm) (line : List Char) : Option Store := do
  let rest ← behind? form.before.toList line
  let (address, rest) ← number? form.radix rest
  let rest ← behind? form.between.toList rest
  let (value, rest) ← number? .decimal rest
  let rest ← behind? form.after.toList rest
  if rest = [] then some (address, value) else none

/-- The form of a store in WebAssembly. -/
def webAssemblyForm : StoreForm where
  before := "    (i32.store8 (i32.const "
  radix := .decimal
  between := ") (i32.const "
  after := "))"

/-- The form of a store in C. -/
def cForm : StoreForm where
  before := "    *((volatile uint8_t*)0x"
  radix := .hexadecimal
  between := ") = "
  after := ";"

/-- The form of a store in Rust, with a literal address. -/
def rustForm : StoreForm where
  before := "        mmio_write(0x"
  radix := .hexadecimal
  between := ", "
  after := ");"

/-- The value that a line of assembly loads into the register. -/
def loadedValue? (line : List Char) : Option Int := do
  let rest ← behind? "  li t0 ".toList line
  let (value, rest) ← number? .decimal rest
  if rest = [] then some value else none

/-- The address at which a line of assembly stores the register; a comment may follow it. -/
def storedAddress? (line : List Char) : Option Int := do
  let rest ← behind? "  sb t0 $".toList line
  let (address, rest) ← number? .hexadecimal rest
  if rest = [] ∨ rest.head? = some ' ' then some address else none

/-- The stores of lines of assembly: a load with a store directly behind it. -/
def pairStores : List (List Char) → List Store
  | load :: store :: rest =>
    match loadedValue? load, storedAddress? store with
    | some value, some address => (address, value) :: pairStores rest
    | _, _ => pairStores (store :: rest)
  | _ => []

/-- The lines behind the first line `first`, up to the next line `last`. -/
def part (first last : String) (lines : List (List Char)) : List (List Char) :=
  ((lines.dropWhile fun line => line != first.toList).drop 1).takeWhile fun line =>
    line != last.toList

/-- The stores that a delivered text makes when it initializes the sound unit, in order. -/
def stores? (target : Target) (text : String) : Option (List Store) :=
  let lines := Text.feedLines text.toList
  match target with
  | .assembly =>
    some (pairStores (part "audio_init:" "  ret" lines) ++
      pairStores (part "load_patterns:" "  ret" lines))
  | .webAssembly =>
    some ((part "  (func (export \"init\")" "  )" lines).filterMap webAssemblyForm.read?)
  | .c =>
    some ((part (Target.opened "void audio_init(void)") (Target.closed "") lines).filterMap
      cForm.read?)
  | .rust =>
    some ((part (Target.opened "pub fn audio_init()") (Target.closed "") lines).filterMap
      rustForm.read?)
  | .intelHex =>
    match IntelHex.read text.toList with
    | .ok chunks => some (chunks.flatMap IntelHex.Chunk.stores)
    | .error _ => none

/-- A word is found in front of any text. -/
theorem behind?_append (word text : List Char) : behind? word (word ++ text) = some text := by
  induction word with
  | nil => rfl
  | cons c word ih => rw [List.cons_append, behind?, if_pos rfl, ih]

/-- Digits are read up to where they stop. -/
theorem digits?_run {radix : Radix} {run rest : List Char} (some : run ≠ [])
    (all : ∀ c ∈ run, radix.isDigit c = true) (stops : Text.Stops radix.isDigit rest) :
    digits? radix (run ++ rest) = .some (radix.value run, rest) := by
  rw [digits?, Text.takeWhile_run all stops, Text.dropWhile_run all stops, if_neg some]

/-- A signed number is read back in the base and with the characters in which it was written. -/
theorem number?_written (radix : Radix) {base : Nat} {write : Nat → Char} (large : 2 ≤ base)
    (digit : ∀ {d : Nat}, d < base → radix.isDigit (write d) = true)
    (exact : ∀ n, radix.value ((Text.digits base n).map write) = n) (n : Int) {rest : List Char}
    (stops : Text.Stops radix.isDigit rest) :
    number? radix (Text.signOf n ++ (Text.digits base n.natAbs).map write ++ rest) =
      some (n, rest) := by
  have all : ∀ c ∈ (Text.digits base n.natAbs).map write, radix.isDigit c = true := by
    intro c member
    obtain ⟨d, known, rfl⟩ := List.mem_map.mp member
    exact digit (Text.digits_lt base _ large d known)
  have some : (Text.digits base n.natAbs).map write ≠ [] := by
    simpa using Text.digits_ne_nil base n.natAbs
  have read := digits?_run some all stops
  rw [exact] at read
  rw [Text.signOf]
  split
  · next negative =>
    have minus : -((n.natAbs : Nat) : Int) = n := by omega
    rw [List.singleton_append, List.cons_append, number?, read, Option.map_some, minus]
  · next natural =>
    have plus : ((n.natAbs : Nat) : Int) = n := by omega
    -- The first digit is no minus sign, since no digit is one.
    have front : ∀ text, (Text.digits base n.natAbs).map write ++ rest ≠ '-' :: text := by
      intro text same
      cases shape : (Text.digits base n.natAbs).map write with
      | nil => exact some shape
      | cons c run =>
        rw [shape, List.cons_append] at same
        have first := all c (by rw [shape]; exact List.mem_cons_self)
        rw [(List.cons.inj same).1] at first
        cases radix <;> exact absurd first (by decide)
    rw [List.nil_append, number?.eq_2 _ _ front, read, Option.map_some, plus]

/-- Decimal numbers are read back. -/
theorem number?_decimal (n : Int) {rest : List Char} (stops : Text.Stops Text.isDecimal rest) :
    number? .decimal (Text.decimalChars n ++ rest) = some (n, rest) :=
  number?_written .decimal (by decide) Text.isDecimal_lowerDigit Text.ofDecimal_lowerDigits n stops

/-- Lower case hexadecimal numbers are read back. -/
theorem number?_hexLower (n : Int) {rest : List Char} (stops : Text.Stops Text.isHex rest) :
    number? .hexadecimal ((Text.hexLower n).toList ++ rest) = some (n, rest) := by
  rw [Text.hexLower, String.toList_ofList]
  exact number?_written .hexadecimal (by decide) Text.isHex_lowerDigit Text.ofHex_lowerDigits n
    stops

/-- Upper case hexadecimal numbers are read back. -/
theorem number?_hexUpper (n : Int) {rest : List Char} (stops : Text.Stops Text.isHex rest) :
    number? .hexadecimal ((Text.hexUpper 0 n).toList ++ rest) = some (n, rest) := by
  have plain : (Text.hexUpper 0 n).toList =
      Text.signOf n ++ (Text.digits 16 n.natAbs).map Text.upperDigit := by
    simp [Text.hexUpper, Text.hexUpperChars]
  rw [plain]
  exact number?_written .hexadecimal (by decide) Text.isHex_upperDigit Text.ofHex_upperDigits n
    stops

/-- A line of a form is read as its store, whatever readable form its address has. -/
theorem StoreForm.read?_line (form : StoreForm) {addressText : String} {address : Int}
    (readable : ∀ {rest : List Char}, Text.Stops form.radix.isDigit rest →
      number? form.radix (addressText.toList ++ rest) = some (address, rest)) (value : Int) :
    form.read? (form.line addressText value).toList = some (address, value) := by
  have text : (form.line addressText value).toList =
      form.before.toList ++ (addressText.toList ++ (form.between.toList ++
        (Text.decimalChars value ++ form.after.toList))) := by
    simp only [line, Text.decimal, String.toList_append, String.toList_ofList, List.append_assoc]
  have addressStops (rest : List Char) :
      Text.Stops form.radix.isDigit (form.between.toList ++ rest) :=
    Text.stops_append form.between_ends rest
  have valueStops : Text.Stops Text.isDecimal form.after.toList := by
    have stops := Text.stops_append form.after_ends []
    rwa [List.append_nil] at stops
  have after : behind? form.after.toList form.after.toList = some [] := by
    have whole := behind?_append form.after.toList []
    rwa [List.append_nil] at whole
  rw [text]
  simp only [read?, behind?_append, readable (addressStops _), number?_decimal value valueStops,
    after, Option.bind_eq_bind, Option.bind_some, if_true]

end StepSequencer.Delivered
