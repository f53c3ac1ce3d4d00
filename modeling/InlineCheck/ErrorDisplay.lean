/-!
# How an error is displayed

An error that keeps the program from its work is set off from all other output.  It stands
behind a mark, or it is told in words where the environment does without pictures.  The mark
has a colour only where the environment insists on colours: what the program prints need not
go to a terminal.
-/

namespace InlineCheck

/-- A way to display an error. -/
inductive ErrorDisplay
  /-- In words alone. -/
  | told
  /-- Behind a mark. -/
  | marked (colored : Bool)
deriving DecidableEq, Repr

namespace ErrorDisplay

/-! ## What the environment asks for -/

/-- The environment variable that does without pictures. -/
def noPicturesVariable : String := "NO_GRAPHICS"

/-- The environment variable that sets a level of colours. -/
def colorLevelVariable : String := "FORCE_COLOR"

/-- The environment variable that insists on colours where no level is set. -/
def colorVariable : String := "CLICOLOR_FORCE"

/-- Whether a text is a number that is zero; a plus sign may come first. -/
def isZero (text : String) : Bool :=
  let digits := match text.toList with
    | '+' :: rest => rest
    | cs => cs
  !digits.isEmpty && digits.all (· = '0')

/-- Whether a level means colours.  What is no level means some. -/
def means (level : String) : Bool :=
  level != "false" && !isZero level

/-- Whether the environment insists on colours. -/
def colorsForced (level? color? : Option String) : Bool :=
  match level?, color? with
  | some level, _ => means level
  | none, some color => color != "0"
  | none, none => false

/-- The display that the values of the three variables ask for. -/
def ofVariables (noPictures? level? color? : Option String) : ErrorDisplay :=
  if noPictures?.any (· != "0") then .told else .marked (colorsForced level? color?)

/-! ## Displaying -/

/-- The mark of an error. -/
def mark (colored : Bool) : String :=
  if colored then "\x1b[31m×\x1b[0m" else "×"

/-- An error of the program, displayed. -/
def render (display : ErrorDisplay) (message : String) : String :=
  match display with
  | told => "Error: " ++ message ++ "\n    Diagnostic severity: error\n\n"
  | marked colored => "Error:   " ++ mark colored ++ " " ++ message ++ "\n\n"

end ErrorDisplay

end InlineCheck
