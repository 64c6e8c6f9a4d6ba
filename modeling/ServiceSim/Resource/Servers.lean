import ServiceSim.Kernel.Basic

/-!
# Servers

The servers of a resource that serves its demands in the order in which they are issued.  A server
that becomes free is given at once to the process that has waited longest, so no server is free
while a process waits.
-/

namespace ServiceSim

/-- The servers of a resource. -/
structure Servers where
  /-- Their number. -/
  count : Nat
  /-- The processes that have a server. -/
  serving : List ProcessId
  /-- The processes that wait for one, in the order in which they came. -/
  waiting : List ProcessId
deriving Repr, DecidableEq

namespace Servers

/-- Servers that are all free. -/
def idle (count : Nat) : Servers := ⟨count, [], []⟩

/-- The number of free servers. -/
def free (s : Servers) : Nat := s.count - s.serving.length

/-- Asks for a server: a free one is given at once, else the process waits.  The result tells
which. -/
def acquire (id : ProcessId) (s : Servers) : Bool × Servers :=
  if s.serving.length < s.count then (true, { s with serving := s.serving ++ [id] })
  else (false, { s with waiting := s.waiting ++ [id] })

/-- Gives a server back.  The process that has waited longest receives it and is returned. -/
def release (id : ProcessId) (s : Servers) : Option ProcessId × Servers :=
  let serving := s.serving.erase id
  match s.waiting with
  | [] => (none, { s with serving := serving })
  | first :: rest => (some first, { s with serving := serving ++ [first], waiting := rest })

end Servers

end ServiceSim
