import ServiceSim.Resource.Basic

/-!
# The journal of demands

A record of every demand that a process issues and of what became of it, in the order of events.
-/

namespace ServiceSim

/-- What happened to a demand. -/
inductive DemandEvent where
  | issued (process : String) (container : ContainerId) (resource : String) (amount : Float)
      (time : SimTime)
  | served (process resource : String) (time : SimTime)
  | refused (process resource : String) (time : SimTime) (error : ResourceError)

end ServiceSim
