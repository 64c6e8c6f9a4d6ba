import ServiceSim.Number.Binary64

/-!
# Configurations

What a simulation run can be configured with.
-/

namespace ServiceSim

/-- The configuration of a simulation. -/
structure SimulationConfig where
  /-- The seed of the random source. -/
  seed : UInt64
  /-- The simulated time at which runs stop. -/
  stopTime : Option Float
  /-- Whether messages for debugging are logged. -/
  debug : Bool
deriving BEq, Repr

/-- The configuration where nothing else is said. -/
def SimulationConfig.default : SimulationConfig := ⟨42, none, false⟩

end ServiceSim
