import ServiceSim.Number.Layout
import ServiceSim.Number.Reading

/-!
# Simulated time

Points on the simulated clock, in seconds.  Times are compared by the total order of the encodings
of doubles, in which every two of them have an order: `-0` lies directly below `0`, and NaN beyond
the infinity of its sign.
-/

namespace ServiceSim

/-- A point on the simulated clock. -/
structure SimTime where
  /-- The encoding of the seconds since the start. -/
  encoding : UInt64
deriving DecidableEq, Repr

namespace SimTime

/-- The time that lies a number of seconds after the start. -/
def ofSeconds (seconds : Float) : SimTime := ⟨seconds.toBits⟩

/-- Seconds since the start. -/
def seconds (t : SimTime) : Float := Float.ofBits t.encoding

/-- The start of every simulation. -/
def zero : SimTime := ofSeconds 0

/-- The time that is no number and lies before all others. -/
def beforeAll : SimTime := ⟨0xfff8000000000000⟩

/-- The time that a text denotes, as seconds.  A NaN has the sign that it is written with. -/
def read? (text : String) : Option SimTime :=
  (Number.float? text).map fun x =>
    if x.isNaN && text.startsWith "-" then beforeAll else ofSeconds x

/-- The place of a time in the order of times. -/
def rank (t : SimTime) : Int := Binary64.rank t.encoding

instance : LE SimTime := ⟨fun s t => s.rank ≤ t.rank⟩

instance : LT SimTime := ⟨fun s t => s.rank < t.rank⟩

instance (s t : SimTime) : Decidable (s ≤ t) := inferInstanceAs (Decidable (s.rank ≤ t.rank))

instance (s t : SimTime) : Decidable (s < t) := inferInstanceAs (Decidable (s.rank < t.rank))

/-- How two times compare. -/
def compare (s t : SimTime) : Ordering := Ord.compare s.rank t.rank

/-- The later of two times. -/
def later (s t : SimTime) : SimTime := if t < s then s else t

/-- The time a delay later.  A delay that is not positive does not pass. -/
def after (t : SimTime) (delay : Float) : SimTime :=
  if 0 < delay then ofSeconds (t.seconds + delay) else t

/-- The seconds from an earlier time to this one. -/
def since (t earlier : SimTime) : Float := t.seconds - earlier.seconds

/-- A time in messages: six decimal places and the unit. -/
def text (t : SimTime) : String := Number.fixed 6 t.seconds ++ "s"

end SimTime

end ServiceSim
