import RowLayout.Dump.Report

/-!
# The command line

Prints the report of a file at a width. The first argument names the file and the second is the
width; without a file the report is about the sample. A file that cannot be read ends the program
like a width that cannot be read.
-/

namespace RowLayout

/-- The text of the file that is named first, if one is. -/
def readText (args : List String) : IO (Option String) := do
  match args with
  | [] => return none
  | path :: _ => return some (← IO.FS.readFile path)

end RowLayout

open RowLayout

/-- Print a report, or what is wrong. -/
def main (args : List String) : IO UInt32 := do
  try
    match dump (← readText args) args[1]? with
    | .ok report =>
      IO.print report
      return 0
    | .error e =>
      IO.eprint e.message
      return 1
  catch e =>
    IO.eprintln s!"Error: {e}"
    return 1
