import Ekafleet.Lib.Text
import Ekafleet.Config

/-! Organizational policies | source: server/policy.rs

    A rule is an expression `<path> <op> <value>` over the configuration of one service, which the
    service violates when the condition is not met. -/

namespace Ekafleet.Server

/-- A violated rule. -/
structure PolicyViolation where
  ruleName : String
  serviceName : String
  message : String
  enforcement : PolicyEnforcement
  deriving DecidableEq, Repr

/-- A value that policies compare. -/
inductive PolicyValue where
  | uint (n : UInt64)
  | str (s : String)
  deriving DecidableEq, Repr

def jobTypeDebug : JobType → String
  | .service => "Service"
  | .stateful => "Stateful"
  | .system => "System"
  | .batch => "Batch"
  | .sysbatch => "Sysbatch"

/-- Resolve a dotted path to a value of the service's configuration. -/
def resolvePath (service : ServiceConfig) (path : String) : Option PolicyValue :=
  let requested (r : Option ResourceValue) : PolicyValue := .uint ((r.map (·.request)).getD 0)
  match path with
  | "service.replicas" => some (.uint service.scheduling.replicas.toUInt64)
  | "service.priority" => some (.uint service.scheduling.priority.toUInt64)
  | "service.type" => some (.str (jobTypeDebug service.scheduling.jobType))
  | "service.pool" => service.scheduling.pool.map .str
  | "service.resources.cpu.request" => some (requested service.resources.cpu)
  | "service.resources.memory.request" => some (requested service.resources.memory)
  | "service.resources.disk.request" => some (requested service.resources.disk)
  | "service.resources.cpu.limit" => (service.resources.cpu.bind (·.limit)).map .uint
  | "service.resources.memory.limit" => (service.resources.memory.bind (·.limit)).map .uint
  | _ => none

/-- The operators in the order in which they are looked for. -/
def policyOperators : List String := [">=", "<=", "!=", "==", ">", "<", "="]

/-- Split an expression into path, operator and value. -/
def parseExpression (expr : String) : Option (String × String × String) :=
  policyOperators.findSome? fun op =>
    (Text.splitAt op expr).map fun r => (Text.trim r.1, op, Text.trim r.2)

/-- Whether the condition is met; `none` when the rule does not apply to such a value. -/
def conditionMet (actual : PolicyValue) (op expected : String) : Option Bool :=
  match actual with
  | .uint actualVal =>
    match Text.parseUnsigned (2 ^ 64) expected with
    | none => none
    | some expectedVal =>
      match op with
      | ">=" | "gte" => some (expectedVal ≤ actualVal.toNat)
      | ">" | "gt" => some (expectedVal < actualVal.toNat)
      | "<=" | "lte" => some (actualVal.toNat ≤ expectedVal)
      | "<" | "lt" => some (actualVal.toNat < expectedVal)
      | "==" | "=" => some (actualVal.toNat == expectedVal)
      | "!=" => some (actualVal.toNat != expectedVal)
      | _ => none
  | .str actualStr =>
    match op with
    | "==" | "=" => some (actualStr == expected)
    | "!=" => some (actualStr != expected)
    | _ => none

/-- The violation of a rule. -/
def evaluateRule (serviceName : String) (service : ServiceConfig) (rule : PolicyRule) :
    Option PolicyViolation := do
  let (path, op, expected) ← parseExpression rule.expression
  let actual ← resolvePath service path
  let met ← conditionMet actual op expected
  if met then none else some ⟨rule.name, serviceName, rule.message, rule.enforcement⟩

/-- Evaluate all policies against a service configuration. -/
def evaluatePolicies (rules : List PolicyRule) (serviceName : String) (service : ServiceConfig) :
    List PolicyViolation :=
  rules.filterMap (evaluateRule serviceName service)

/-- Violated enforcing policies are an error, violated warning ones are not. -/
def checkPolicies (rules : List PolicyRule) (serviceName : String) (service : ServiceConfig) :
    Except (List PolicyViolation) (List PolicyViolation) :=
  let violations := evaluatePolicies rules serviceName service
  match violations.filter (·.enforcement == .enforce) with
  | [] => .ok violations
  | blocking => .error blocking

end Ekafleet.Server
