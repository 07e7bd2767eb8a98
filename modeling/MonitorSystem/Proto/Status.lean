import Mathlib.Tactic

/-!
# The status of an RPC
-/

namespace MonitorSystem

/-- `grpc::StatusCode`, as far as the manager uses it. -/
inductive StatusCode
  | ok
  | invalidArgument
  | unavailable
  deriving DecidableEq

/-- `grpc::Status`. -/
structure Status where
  code : StatusCode
  message : String := ""
  deriving DecidableEq

/-- `grpc::Status::OK`. -/
def Status.ok : Status where code := .ok

end MonitorSystem
