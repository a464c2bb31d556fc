import StepSequencer.Text.Quoted
import StepSequencer.Text.Utf8

/-!
# Files and streams

How the command line reaches files and the standard streams, as operations of any monad, and a
machine held in memory on which they can be run without a real one.
-/
namespace StepSequencer.Command

/-- Why a file cannot be read or written. -/
inductive FileFault where
  | notFound
  | denied
  | notFolder
  | isFolder
  | nameTooLong
  | nullCharacter
  /-- The text has characters that cannot be encoded. -/
  | unencodable (message : String)
  | other (code : Nat) (text : String)
deriving DecidableEq, Repr

/-- The parts of a path that lead somewhere: empty parts and single dots do not. -/
def pathParts (path : String) : List String :=
  ((path.toList.splitOn '/').map String.ofList).filter fun part => part != "" && part != "."

/-- The slashes that a path of a root starts with: one, or two if it has exactly two. -/
def pathRoot (path : String) : String :=
  match (path.toList.takeWhile fun c => c == '/').length with
  | 0 => ""
  | 2 => "//"
  | _ => "/"

/-- A path as it is shown: its root and its parts. A path without either is the current folder. -/
def shownPath (path : String) : String :=
  let shown := pathRoot path ++ "/".intercalate (pathParts path)
  if shown == "" then "." else shown

/-- The wording of a fault with a number and a text. -/
def numbered (code : Nat) (text : String) : String :=
  "[Errno " ++ Text.decimal code ++ "] " ++ text

/-- The wording of a fault with a number and a text at a path. -/
def numberedAt (code : Nat) (text path : String) : String :=
  numbered code text ++ ": " ++ Text.quoted (shownPath path)

/-- The wording of a fault at a path. -/
def FileFault.message (path : String) : FileFault → String
  | notFound => numberedAt 2 "No such file or directory" path
  | denied => numberedAt 13 "Permission denied" path
  | notFolder => numberedAt 20 "Not a directory" path
  | isFolder => numberedAt 21 "Is a directory" path
  | nameTooLong => numberedAt 36 "File name too long" path
  | nullCharacter => "embedded null byte"
  | unencodable message => message
  | other code text => numberedAt code text path

/-- Why the standard input cannot be read. -/
inductive InputFault where
  | encoding (fault : Text.Utf8.Fault)
  | system (code : Nat) (text : String)
deriving DecidableEq, Repr

/-- The wording of a fault of the standard input. -/
def InputFault.message : InputFault → String
  | encoding fault => fault.message
  | system code text => numbered code text

/-- Why a text cannot be written to the standard output. -/
inductive OutputFault where
  /-- The text has characters that cannot be encoded. -/
  | unencodable (message : String)
  | system (code : Nat) (text : String)
deriving DecidableEq, Repr

/-- The wording of a fault of the standard output. -/
def OutputFault.message : OutputFault → String
  | unencodable message => message
  | system code text => numbered code text

/-- What a command needs of its surroundings. -/
structure Surroundings (m : Type → Type) where
  /-- The text of the standard input. -/
  readInput : m (Except InputFault String)
  readFile : String → m (Except FileFault (List UInt8))
  /-- Write a whole file or fail. -/
  writeFile : String → String → m (Except FileFault Unit)
  /-- Write a whole text to the standard output or fail. -/
  writeOutput : String → m (Except OutputFault Unit)

/-- Files by the parts of their paths from the root, and the folder that paths start from. A folder
exists where it is listed, where another folder or a file is in it, and where paths start. -/
structure Disk where
  /-- The parts of the path from the root to the current folder. -/
  current : List String
  folders : List (List String)
  files : List (List String × List UInt8)
deriving DecidableEq, Repr

namespace Disk

/-- The disk with a file at a place, in the place of the file there before. -/
def store (disk : Disk) (place : List String) (bytes : List UInt8) : Disk :=
  { disk with files := (place, bytes) :: disk.files.filter fun file => file.1 != place }

/-- Folders that a disk has, whatever it is used for. -/
def commonFolders : List String :=
  ["/bin", "/dev", "/etc", "/home", "/lib", "/opt", "/proc", "/root", "/run", "/sbin", "/srv",
    "/sys", "/tmp", "/usr/bin", "/usr/lib", "/usr/local/bin", "/usr/share", "/var/log", "/var/tmp"]

/-- A disk with some files in its current folder. -/
def ofFiles (files : List (String × List UInt8)) : Disk :=
  let current := ["tmp", "work"]
  files.foldl (fun disk file => disk.store (current ++ pathParts file.1) file.2)
    ⟨current, commonFolders.map pathParts, [(["dev", "null"], [])]⟩

/-- Whether parts lead from the root to a folder. -/
def isFolder (disk : Disk) (place : List String) : Bool :=
  (disk.current :: disk.folders).any (fun folder => place.isPrefixOf folder) ||
    disk.files.any fun file => place.isPrefixOf file.1 && place != file.1

/-- The file at a place. -/
def file? (disk : Disk) (place : List String) : Option (List UInt8) := disk.files.lookup place

/-- The place that a part leads to. -/
def further (place : List String) (part : String) : List String :=
  if part == ".." then place.dropLast else place ++ [part]

/-- Walk from a place that is a folder along parts, up to a last part that need not exist. A last
part that leads to a folder is refused. -/
def resolve (disk : Disk) (place : List String) : List String → Except FileFault (List String)
  | [] => .error .isFolder
  | part :: rest =>
    if 255 < part.utf8ByteSize then .error .nameTooLong
    else
      let next := further place part
      if disk.isFolder next then resolve disk next rest
      else if rest.isEmpty then .ok next
      else if (disk.file? next).isSome then .error .notFolder
      else .error .notFound

/-- The place of a file that may or may not exist. -/
def locate (disk : Disk) (path : String) : Except FileFault (List String) :=
  if path.toList.contains (Char.ofNat 0) then .error .nullCharacter
  else if 4096 ≤ (shownPath path).utf8ByteSize then .error .nameTooLong
  else disk.resolve (if pathRoot path == "" then disk.current else []) (pathParts path)

/-- The bytes of a file. -/
def read (disk : Disk) (path : String) : Except FileFault (List UInt8) := do
  match disk.file? (← disk.locate path) with
  | some bytes => .ok bytes
  | none => .error .notFound

/-- The disk after a file was written. -/
def write (disk : Disk) (path : String) (bytes : List UInt8) : Except FileFault Disk := do
  return disk.store (← disk.locate path) bytes

/-- The files below the current folder that another disk has not, or has with other bytes, by the
paths from there. -/
def changedSince (before after : Disk) : List (String × List UInt8) :=
  after.files.filterMap fun (place, bytes) =>
    if after.current.isPrefixOf place && before.file? place != some bytes then
      some ("/".intercalate (place.drop after.current.length), bytes)
    else none

end Disk

/-- A disk, and the standard output up to now. -/
structure Machine where
  disk : Disk
  printed : String
deriving DecidableEq, Repr

namespace Machine

/-- What a machine has against a text, if anything. A text that cannot be encoded in a file is met
with a message. -/
structure Limits where
  file : String → Option String
  output : String → Option OutputFault

namespace Limits

/-- All texts are taken. -/
def free : Limits := ⟨fun _ => none, fun _ => none⟩

/-- The bytes that are left in a file that a text is written to. It is opened before the text is
encoded, so it is left empty if that fails. -/
def stored (limits : Limits) (text : String) : List UInt8 :=
  if (limits.file text).isNone then text.toUTF8.toList else []

/-- What is answered to a text that is written to an open file. -/
def answer (limits : Limits) (text : String) : Except FileFault Unit :=
  match limits.file text with
  | none => .ok ()
  | some message => .error (.unencodable message)

end Limits

/-- Surroundings made of a machine and a fixed input. -/
def surroundings (input : String) (limits : Limits) : Surroundings (StateM Machine) where
  readInput := pure (.ok input)
  readFile path := do return (← get).disk.read path
  writeFile path text := do
    let machine ← get
    match machine.disk.write path (limits.stored text) with
    | .error fault => return .error fault
    | .ok disk =>
      set { machine with disk }
      return limits.answer text
  writeOutput text := do
    match limits.output text with
    | none =>
      modify fun machine => { machine with printed := machine.printed ++ text }
      return .ok ()
    | some fault => return .error fault

end Machine

end StepSequencer.Command
