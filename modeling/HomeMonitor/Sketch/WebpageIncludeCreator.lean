import HomeMonitor.Cmd.Shell

/-! The script that includes the web page into the server sketch, and the string constant of
the header that it writes. -/
namespace HomeMonitor.WebpageIncludeCreator
open HomeMonitor.Arduino HomeMonitor.Text HomeMonitor.Cmd

-- what `!name!` stands for at each value of the variable `N`, and how `echo` treats its texts
variable (value : ℕ → Str → Str) (echo : Echo)

/-- The lines that the loop appends for the lines of the input file, from a value of `N`. -/
def loop : ℕ → List Str → List Str
  | _, [] => []
  | N, line :: lines =>
    match forF line with
    | none => loop N lines
    | some text =>
      echo.write (N + 1) (delayedExpansion (value (N + 1)) text) ++ loop (N + 1) lines

def outputFile (inputFile : Str) : Str :=
  unlines '\n' ("const char WEBSITE[] = R\"rawliteral(".toList ::
    (loop value echo 0 (fileLines inputFile) ++ [")rawliteral\";".toList]))

def rawOpening : Str := "R\"rawliteral(".toList

def rawClosing : Str := ")rawliteral\"".toList

/-- The value of the first raw literal of a source file: it runs to the first closing. -/
def rawLiteral (source : Str) : Option Str :=
  match first? rawOpening source with
  | none => none
  | some i =>
    let rest := source.drop (i + rawOpening.length)
    (first? rawClosing rest).map fun j => rest.take j

/-- The string constant that the header defines. -/
def constant (inputFile : Str) : Option Str := rawLiteral (outputFile value echo inputFile)

end HomeMonitor.WebpageIncludeCreator
