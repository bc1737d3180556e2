/-!
# How an execution ends

The types of `openworkers_core` that both the pool and the Durable Objects answer with.
-/

namespace OpenWorkers

inductive TerminationReason where
  | cpuTimeLimit
  | wallClockTimeout
  | memoryLimit
  | exception (message : String)
  | initializationError (message : String)
  | maxIterationsReached
  | aborted
  | other (message : String)
deriving DecidableEq, Repr

/-- `Result<(), TerminationReason>`. -/
abbrev Outcome := Except TerminationReason Unit

end OpenWorkers
