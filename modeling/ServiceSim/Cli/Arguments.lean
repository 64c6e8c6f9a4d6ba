import ServiceSim.Number.Reading

/-!
# Arguments

The arguments after the name of a command: options with values.  The value of an option is the next
argument, or it follows the long name after an equals sign or the letter immediately, where an
equals sign may stand between.  An argument that starts with a hyphen is no value of the option
before it, unless it is the hyphen alone.  No option may be given twice, and two hyphens end the
options.

Arguments are read from left to right, and the first that is at fault or asks for help decides.
-/

namespace ServiceSim.Cli

/-- What the value of an option must be. -/
inductive ValueForm where
  /-- A path, which is not empty. -/
  | path
  /-- Any text. -/
  | text
  /-- A natural number of sixty-four bits. -/
  | whole
  /-- A double. -/
  | double
deriving DecidableEq, Repr

/-- Whether a text is such a value. -/
def ValueForm.accepts : ValueForm → String → Bool
  | path, s => s != ""
  | text, _ => true
  | whole, s => (Number.word? s).isSome
  | double, s => (Number.float? s).isSome

/-- An option that takes a value. -/
structure OptionForm where
  /-- The long name, without hyphens. -/
  long : String
  /-- The letter, if it has one. -/
  short : Option Char
  /-- What its value must be. -/
  value : ValueForm
  /-- What it is for. -/
  purpose : String
  /-- The value that it has if it is not given. -/
  initial : Option String
  /-- Whether it must be given. -/
  isRequired : Bool
deriving DecidableEq, Repr

/-- The options that have been given, by their long names. -/
abbrev Assignment := List (String × String)

/-- Why arguments denote no command. -/
inductive Misuse where
  /-- They cannot be understood. -/
  | refused
  /-- They ask for help, possibly on a command. -/
  | help (command : Option String)
deriving DecidableEq, Repr

/-- Whether an argument is an option rather than a value. -/
def isOption (argument : String) : Bool := argument.startsWith "-" && argument != "-"

/-- An option as it is written: which one it is, and the value that is attached to it. -/
inductive Written where
  | long (name : String) (value : Option String)
  | short (letter : Char) (value : Option String)

/-- The value that follows an equals sign. -/
def attached : List Char → Option String
  | [] => none
  | '=' :: value => some (String.ofList value)
  | value => some (String.ofList value)

/-- Reads an option as it is written. -/
def written (argument : String) : Option Written :=
  match argument.toList with
  | '-' :: '-' :: rest =>
    let name := String.ofList (rest.takeWhile (· != '='))
    some (.long name (attached (rest.dropWhile (· != '='))))
  | '-' :: letter :: rest => some (.short letter (attached rest))
  | _ => none

/-- The form of a written option of a command, with the value attached to it. -/
def Written.form (command : String) (forms : List OptionForm) :
    Written → Except Misuse (OptionForm × Option String)
  | .long name value =>
    match forms.find? (·.long == name) with
    | some form => .ok (form, value)
    | none => .error (if name == "help" && value.isNone then .help command else .refused)
  | .short letter value =>
    match forms.find? (·.short == some letter) with
    | some form => .ok (form, value)
    | none => .error (if letter == 'h' then .help command else .refused)

/-- Gives an option a value that it accepts, unless it has one. -/
def assign (form : OptionForm) (value : String) (given : Assignment) : Except Misuse Assignment :=
  if (given.lookup form.long).isSome || !form.value.accepts value then .error .refused
  else .ok ((form.long, value) :: given)

/-- Reads the arguments of a command that has options of the given forms. -/
def assignments (command : String) (forms : List OptionForm) :
    List String → Assignment → Except Misuse Assignment
  | [], given => .ok given
  | "--" :: rest, given => if rest.isEmpty then .ok given else .error .refused
  | argument :: rest, given =>
    match written argument with
    | none => .error .refused
    | some option =>
      match option.form command forms with
      | .error misuse => .error misuse
      | .ok (form, some value) =>
        match assign form value given with
        | .error misuse => .error misuse
        | .ok given => assignments command forms rest given
      | .ok (form, none) =>
        match rest with
        | [] => .error .refused
        | value :: rest =>
          if isOption value then .error .refused
          else match assign form value given with
            | .error misuse => .error misuse
            | .ok given => assignments command forms rest given

/-! ## Values -/

/-- An option that has a default where it has none. -/
def optional {α : Type} (given : Assignment) (name : String) (read : String → Option α) :
    Except Misuse (Option α) :=
  match given.lookup name with
  | none => .ok none
  | some text =>
    match read text with
    | none => .error .refused
    | some a => .ok (some a)

/-- An option that must be given. -/
def required {α : Type} (given : Assignment) (name : String) (read : String → Option α) :
    Except Misuse α := do
  match ← optional given name read with
  | none => .error .refused
  | some a => return a

end ServiceSim.Cli
