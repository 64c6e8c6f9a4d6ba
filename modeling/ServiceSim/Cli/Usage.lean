import ServiceSim.Cli.Command

/-!
# Usage

The help texts: what the program is for, its commands, and the options of each command.
-/

namespace ServiceSim.Cli.Usage

/-- The name of the program. -/
def program : String := "perfsim-cli"

/-- What the program is for. -/
def purpose : String := "Simulate performance-annotated component behavior models"

/-- A text with blanks after it, up to a width. -/
def padded (width : Nat) (text : String) : String :=
  text ++ String.ofList (List.replicate (width - text.length) ' ')

/-- Pairs of texts in two columns. -/
def columns (pairs : List (String × String)) : List String :=
  let width := (pairs.map fun pair => pair.1.length).foldl max 0
  pairs.map fun (left, right) => "  " ++ padded width left ++ "  " ++ right

/-- The value of an option in help texts. -/
def valueName (form : OptionForm) : String := "<" ++ form.long.toUpper ++ ">"

/-- An option with its value. -/
def longText (form : OptionForm) : String := "--" ++ form.long ++ " " ++ valueName form

/-- The two columns of an option. -/
def optionColumns (form : OptionForm) : String × String :=
  let short :=
    match form.short with
    | some letter => "-" ++ String.singleton letter ++ ", "
    | none => "    "
  let initial :=
    match form.initial with
    | some text => " [default: " ++ text ++ "]"
    | none => ""
  (short ++ longText form, form.purpose ++ initial)

/-- The columns of the option that asks for help. -/
def helpColumns : String × String := ("-h, --help", "Print help")

/-- The line that shows how a command is called. -/
def callLine (command : String) (forms : List OptionForm) : String :=
  let options := if forms.all OptionForm.isRequired then [] else ["[OPTIONS]"]
  " ".intercalate (["Usage:", program, command] ++ options ++
    (forms.filter OptionForm.isRequired).map longText)

/-- The help text of a command. -/
def commandHelp (command purpose : String) (forms : List OptionForm) : List String :=
  [purpose, "", callLine command forms, "", "Options:"] ++
    columns (forms.map optionColumns ++ [helpColumns])

/-- What the command that asks for help is for. -/
def helpPurpose : String := "Print this message or the help of the given subcommand(s)"

/-- The help text of the command that asks for help. -/
def helpHelp : List String :=
  [helpPurpose, "", "Usage: " ++ program ++ " help [COMMAND]...", "", "Arguments:"] ++
    columns [("[COMMAND]...", "Print help for the subcommand(s)")]

/-- The help text of the program. -/
def programHelp : List String :=
  [purpose, "", "Usage: " ++ program ++ " <COMMAND>", "", "Commands:"] ++
    columns (Command.purposes ++ [("help", helpPurpose)]) ++ ["", "Options:"] ++
    columns [helpColumns]

/-- The help text that is asked for. -/
def help : Option String → List String
  | none => programHelp
  | some command =>
    match Command.purposes.lookup command, Command.forms command with
    | some purpose, some forms => commandHelp command purpose forms
    | _, _ => helpHelp

end ServiceSim.Cli.Usage
