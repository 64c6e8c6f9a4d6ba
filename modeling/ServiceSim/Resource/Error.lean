import ServiceSim.Model.Error

/-!
# What resources refuse

The causes for which resources cannot be simulated or a demand is refused, and their messages.
-/

namespace ServiceSim

/-- Why a resource cannot be simulated. -/
inductive ResourceFault where
  | rate (x : Float)
  | noServer
deriving Repr

/-- The message of a fault. -/
def ResourceFault.message : ResourceFault → String
  | rate x => "processing rate " ++ Number.text Number.plain x ++ " must be positive"
  | noServer => "at least one server is required"

/-- What is wrong with a resource or a demand. -/
inductive ResourceError where
  | unknownContainer (container : ContainerId)
  | unknownResource (container : ContainerId) (resource : String)
  | invalidDemand (resource : String) (demand : Float)
  | misconfigured (container : ContainerId) (resource : String) (fault : ResourceFault)
deriving Repr

/-- The kind of an error, a word for programs that tell errors apart. -/
def ResourceError.kind : ResourceError → String
  | unknownContainer _ => "UnknownContainer"
  | unknownResource _ _ => "UnknownResource"
  | invalidDemand _ _ => "InvalidDemand"
  | misconfigured _ _ _ => "Misconfigured"

/-- The message of an error. -/
def ResourceError.message : ResourceError → String
  | unknownContainer container => "Resource container '" ++ container ++ "' is not simulated"
  | unknownResource container resource =>
    "Container '" ++ container ++ "' has no processing resource '" ++ resource ++ "'"
  | invalidDemand resource demand =>
    "Invalid demand " ++ Number.text Number.plain demand ++ " for resource '" ++ resource ++ "'"
  | misconfigured container resource fault =>
    "Resource '" ++ resource ++ "' on '" ++ container ++ "' is misconfigured: " ++ fault.message

end ServiceSim
