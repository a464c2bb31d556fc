/-!
# Braces

The lines of blocks of code, for targets whose blocks are in braces.
-/
namespace StepSequencer.Target

/-- A line that opens a block: its head and the opening brace. -/
def opened (head : String) : String := head ++ " \x7b"

/-- The line that closes a block: the closing brace behind an indent. -/
def closed (indent : String) : String := indent ++ "\x7d"

/-- A block at the left edge. -/
def enclosed (head : String) (body : List String) : List String :=
  opened head :: body ++ [closed ""]

/-- Code in braces on one line. -/
def braced (code : String) : String := "\x7b " ++ code ++ " \x7d"

end StepSequencer.Target
