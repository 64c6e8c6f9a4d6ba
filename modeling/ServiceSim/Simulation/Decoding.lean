import ServiceSim.Model.Decoding
import ServiceSim.Simulation.Config
import ServiceSim.Simulation.Request

/-!
# Reading configurations and requests from JSON

Every member of a configuration has a default, which is that of the default configuration.  A
request needs the context and the service; it has no inputs and arrives at the start unless it says
otherwise.
-/

namespace ServiceSim.Decode

open Json (Decoder Record)
open Json.Decode (text flag double natural list optional)

/-- A configuration. -/
def simulationConfig : Decoder SimulationConfig :=
  (((Record.withDefault "seed" natural SimulationConfig.default.seed.toNat).and
    ((Record.withDefault "stop_time" (optional double) SimulationConfig.default.stopTime).and
      (Record.withDefault "debug" flag SimulationConfig.default.debug))).map
        fun (seed, stopTime, debug) => ⟨UInt64.ofNat seed, stopTime, debug⟩).decoder

/-- A request. -/
def requestSpec : Decoder RequestSpec :=
  (((Record.required "assembly_context" text).and ((Record.required "service" text).and
    ((Record.withDefault "inputs" (list variableUsage) []).and
      (Record.withDefault "arrival" double 0)))).map
        fun (entry, service, inputs, arrival) =>
          ⟨entry, service, inputs, .ofSeconds arrival⟩).decoder

end ServiceSim.Decode
