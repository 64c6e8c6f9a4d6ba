import ServiceSim.Kernel.Basic

/-!
# Join barriers

A barrier counts arrivals down from the number of parties.  Whoever waits at it goes on when all
have arrived, and the first of them learns the failure that was reported first.
-/

namespace ServiceSim

/-- A barrier at which failures of type `ε` are reported. -/
structure Barrier (ε : Type) where
  /-- The arrivals that are still missing. -/
  remaining : Nat
  /-- The failures reported so far, in order. -/
  failures : List ε
  /-- The processes that wait, in order. -/
  waiters : List ProcessId

namespace Barrier

variable {ε : Type}

/-- A barrier for a number of parties. -/
def new (parties : Nat) : Barrier ε := ⟨parties, [], []⟩

/-- Arrives, with a failure or without.  Every arrival after which none is missing wakes all that
wait. -/
def arrive (failure : Option ε) (b : Barrier ε) : Barrier ε × List ProcessId :=
  let remaining := b.remaining - 1
  let failures := b.failures ++ failure.toList
  if remaining = 0 then (⟨0, failures, []⟩, b.waiters)
  else (⟨remaining, failures, b.waiters⟩, [])

/-- Whether nobody is missing. -/
def isOpen (b : Barrier ε) : Bool := b.remaining == 0

/-- Joins those that wait. -/
def await (id : ProcessId) (b : Barrier ε) : Barrier ε :=
  { b with waiters := b.waiters ++ [id] }

/-- Takes what has been reported: the first failure, all others being dropped. -/
def collect (b : Barrier ε) : Option ε × Barrier ε := (b.failures.head?, { b with failures := [] })

end Barrier

end ServiceSim
