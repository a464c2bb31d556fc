import StepSequencer.Command.Run
import StepSequencer.Pack.Catalog

/-!
# The program

The command on real files and streams.
-/
namespace StepSequencer.Main

/-- The error number of the operating system behind a code that may come with a minus sign. -/
def errorNumber (code : UInt32) : Nat := code.toInt32.toInt.natAbs

/-- The fault of an error code. -/
def faultOfCode (code : UInt32) (text : String) : Command.FileFault :=
  let number := errorNumber code
  if number == 20 then .notFolder
  else if number == 21 then .isFolder
  else if number == 36 then .nameTooLong
  else .other number text

/-- The fault that an error of the operating system stands for. -/
def faultOf : IO.Error → Command.FileFault
  | .noFileOrDirectory _ _ _ => .notFound
  | .permissionDenied _ _ _ => .denied
  | .inappropriateType _ code text => faultOfCode code text
  | .invalidArgument _ code text => faultOfCode code text
  | .resourceExhausted _ code text => faultOfCode code text
  | error => .other 5 (toString error)

/-- The number and the text of an error of the operating system at a stream. -/
def streamErrorOf : IO.Error → Nat × String
  | .inappropriateType _ code text => (errorNumber code, text)
  | .invalidArgument _ code text => (errorNumber code, text)
  | .resourceExhausted _ code text => (errorNumber code, text)
  | .resourceVanished code text => (errorNumber code, text)
  | error => (5, toString error)

/-- Surroundings made of the disk and the standard streams. -/
def surroundings : Command.Surroundings IO where
  readInput := do
    try
      let bytes ← (← IO.getStdin).readBinToEnd
      return ((Text.Utf8.decode bytes.toList).mapError .encoding).map String.ofList
    catch error =>
      let (code, text) := streamErrorOf error
      return .error (.system code text)
  readFile path := do
    try
      let bytes ← IO.FS.readBinFile (Command.shownPath path)
      return .ok bytes.toList
    catch error => return .error (faultOf error)
  writeFile path text := do
    try
      IO.FS.writeFile (Command.shownPath path) text
      return .ok ()
    catch error => return .error (faultOf error)
  writeOutput text := do
    try
      let stream ← IO.getStdout
      stream.putStr text
      stream.flush
      return .ok ()
    catch error =>
      let (code, text) := streamErrorOf error
      return .error (.system code text)

end StepSequencer.Main

/-- Run the command on the arguments of the process. -/
def main (arguments : List String) : IO UInt32 := do
  let values ← StepSequencer.Settings.names.mapM fun name => do
    return (name, ← IO.getEnv name)
  match StepSequencer.Settings.ofEnvironment fun name => (List.lookup name values).join with
  | .error fault =>
    IO.eprintln fault.message
    return 1
  | .ok settings =>
    let outcome ← StepSequencer.Command.run StepSequencer.Main.surroundings settings
      StepSequencer.Catalog.builtIn arguments
    IO.eprint outcome.messageText
    if let some fault := outcome.brokenOff then IO.eprintln fault.message
    return UInt32.ofNat outcome.status
