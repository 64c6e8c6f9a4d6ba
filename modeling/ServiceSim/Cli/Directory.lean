import ServiceSim.Cli.Response
import ServiceSim.Cli.Usage

/-!
# Directories

What the program does in a working directory, as a function of its arguments and the files there:
the exit code, the log and the lines printed, the messages of an error, and the files afterwards.  A
file is written in full to a temporary file first, which then takes its place, so of a file that is
written there is never a part.
-/

namespace ServiceSim.Cli

/-- The files in and below a working directory, by the names that lead to them.  The directories are
those that hold a file, and the working directory itself. -/
abbrev Directory := List (List String × String)

/-- What a system says when it refuses something. -/
inductive Refusal where
  | missing
  | busy
  | notDirectory
  | isDirectory
  | tooLong
deriving DecidableEq, Repr

/-- The text of a refusal. -/
def Refusal.text : Refusal → String
  | missing => "No such file or directory (os error 2)"
  | busy => "Device or resource busy (os error 16)"
  | notDirectory => "Not a directory (os error 20)"
  | isDirectory => "Is a directory (os error 21)"
  | tooLong => "File name too long (os error 36)"

namespace Directory

/-- Whether names lead to a directory. -/
def isDirectory (d : Directory) (names : List String) : Bool :=
  names.isEmpty || d.any fun file => names.isPrefixOf file.1.dropLast

/-- The longest name of a file, in bytes. -/
def longestName : Nat := 255

/-- Follows the parts of a path from a place on.  Every place on the way must be a directory; an
empty part and a single point stay there, and two points lead back. -/
def follow (d : Directory) : List String → List String → Except Refusal (List String)
  | here, [] => .ok here
  | here, part :: rest =>
    if d.isDirectory here then
      if part = "" ∨ part = "." then follow d here rest
      else if part = ".." then follow d here.dropLast rest
      else if longestName < part.utf8ByteSize then .error .tooLong
      else follow d (here ++ [part]) rest
    else if (d.lookup here).isSome then .error .notDirectory
    else .error .missing

/-- The names to which a path leads.  It begins in the working directory. -/
def names (d : Directory) (path : String) : Except Refusal (List String) :=
  if path.startsWith "/" then .error .missing else d.follow [] (path.splitOn "/")

/-- The text of a file. -/
def read (d : Directory) (path : String) : Option String :=
  match d.names path with
  | .ok names => d.lookup names
  | .error _ => none

/-- A directory with a file more, which replaces the one in its place. -/
def put (names : List String) (text : String) (d : Directory) : Directory :=
  (names, text) :: d.filter (·.1 != names)

/-- A directory of files given by their paths. -/
def ofFiles (files : List (String × String)) : Directory :=
  files.map fun (path, text) =>
    ((path.splitOn "/").filter fun part => part != "" && part != ".", text)

/-- Where a file that is written to a path goes. -/
def target (d : Directory) (path : String) : Except Refusal (List String) := do
  let names ← d.names path
  if d.isDirectory names then throw .isDirectory else return names

/-- Where a file that is renamed to a path goes.  The path must end in a name, and no slash may
follow it. -/
def renameTarget (d : Directory) (path : String) : Except Refusal (List String) :=
  let parts := (path.splitOn "/").reverse
  match parts.dropWhile (· == "") with
  | "." :: before => do
    let names ← d.follow [] before.reverse
    if d.isDirectory names then throw .busy
    else if (d.lookup names).isSome then throw .notDirectory
    else throw .missing
  | _ => if parts.head? == some "" then .error .notDirectory else d.target path

/-- Writes a file by way of a temporary one, which stays if it cannot be renamed. -/
def write (d : Directory) (output : Output) : Directory × Option WriteFault :=
  match d.target output.temporary with
  | .error _ => (d, some .notCreated)
  | .ok temporary =>
    match d.renameTarget output.path with
    | .error refusal => (d.put temporary output.text, some (.notRenamed refusal.text))
    | .ok names => (put names output.text (d.filter (·.1 != temporary)), none)

end Directory

/-- How the program ends. -/
structure Exit where
  /-- The exit code. -/
  code : Nat
  /-- The log that is shown. -/
  log : List String
  /-- The lines printed. -/
  lines : List String
  /-- The messages of the error, if there is one. -/
  failure : List String
  /-- The files afterwards. -/
  files : Directory

/-- How a response ends in a directory. -/
def Response.exit (r : Response) (d : Directory) : Exit :=
  let log := r.log.lines r.level
  match r.output with
  | none => ⟨if r.failure.isEmpty then 0 else 1, log, r.lines, r.failure, d⟩
  | some output =>
    match d.write output with
    | (after, none) => ⟨0, log, r.lines ++ [output.notice], [], after⟩
    | (after, some fault) => ⟨1, log, r.lines, output.failure fault, after⟩

/-- How the program ends, if its runs take at most `fuel` steps. -/
def exit? (fuel : Nat) (arguments : List String) (d : Directory) : Option Exit :=
  match Command.ofArguments arguments with
  | .error .refused => some ⟨2, [], [], [], d⟩
  | .error (.help command) => some ⟨0, [], Usage.help command, [], d⟩
  | .ok command => (command.respond fuel d.read).map (·.exit d)

end ServiceSim.Cli
