import ServiceSim.Simulation.Decoding

/-!
# Files

Loading configurations and models from files, and why it may fail.  A text is given for a file that
can be read, and none for one that cannot.  An error is told as a chain of messages, of which every
one is the cause of the one before.
-/

namespace ServiceSim

/-- Why a file holds nothing that can be used. -/
inductive FileFault where
  | unreadable
  | refused (cause : Json.DecodeError)
deriving DecidableEq, Repr

namespace FileFault

/-- The kind of a fault, a word for programs that tell faults apart. -/
def kind : FileFault → String
  | unreadable => "File"
  | refused .malformed => "Malformed"
  | refused _ => "Decode"

/-- What has failed. -/
def headline : FileFault → String
  | unreadable => "Failed to read file"
  | refused _ => "Failed to deserialize"

/-- The reason of the domain's own, if there is one. -/
def reason? : FileFault → Option String
  | refused (.rejected reason) => some reason
  | _ => none

/-- The messages for a path. -/
def messages (path : String) (fault : FileFault) : List String :=
  let separator := if fault = unreadable then ": " else " "
  (fault.headline ++ separator ++ Text.quoted path) :: fault.reason?.toList

end FileFault

/-- The value that a file holds. -/
def contents {α : Type} (decoder : Json.Decoder α) (text : Option String) : Except FileFault α :=
  match text with
  | none => .error .unreadable
  | some text => (Json.decodeText decoder text).mapError .refused

/-- Why a configuration or a model cannot be loaded. -/
inductive LoadError where
  | config (path : String) (fault : FileFault)
  | model (path : String) (fault : FileFault)
  | invalid (path : String) (error : ModelError)

namespace LoadError

/-- The kind of an error, and after a slash that of the error it wraps. -/
def kind : LoadError → String
  | config _ fault => fault.kind
  | model _ fault => fault.kind
  | invalid _ error => "Invalid/" ++ error.kind

/-- What has failed. -/
def headline : LoadError → String
  | config _ _ => "Failed to load simulation config"
  | model _ _ => "Failed to load system model"
  | invalid _ _ => "Invalid system model"

/-- The domain's own reason for an error, if there is one. -/
def reason? : LoadError → Option String
  | config _ fault => fault.reason?
  | model _ fault => fault.reason?
  | invalid _ error => some error.message

/-- The messages of an error. -/
def messages (e : LoadError) : List String :=
  match e with
  | config path fault => e.headline :: fault.messages path
  | model path fault => e.headline :: fault.messages path
  | invalid path error => [e.headline ++ ": " ++ Text.quoted path, error.message]

end LoadError

/-- Loads a configuration. -/
def SimulationConfig.load (path : String) (text : Option String) :
    Except LoadError SimulationConfig :=
  (contents Decode.simulationConfig text).mapError (.config path)

/-- Loads a model and checks its references. -/
def SystemModel.load (path : String) (text : Option String) : Except LoadError SystemModel :=
  match contents Decode.systemModel text with
  | .error fault => .error (.model path fault)
  | .ok model =>
    match model.validate with
    | .error e => .error (.invalid path e)
    | .ok () => .ok model

end ServiceSim
