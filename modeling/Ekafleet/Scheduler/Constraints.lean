import Ekafleet.Lib.Text
import Ekafleet.Scheduler.Candidate

/-! The filter phase | source: server/scheduler/constraints.rs

    Which machines may take an instance: constraints over attributes, taints and required spreads.
    Two things the source uses are parameters: the float type `F` that numeric comparisons parse
    into, and the regular-expression engine. -/

namespace Ekafleet.Scheduler

/-- `isMatch pattern text`, `none` when the pattern does not compile. -/
structure RegexEngine where
  isMatch : String → String → Option Bool

/-- The engine that compiles no pattern. -/
abbrev noRegex : RegexEngine := ⟨fun _ _ => none⟩

variable (F : Type) [F64 F] (re : RegexEngine)

/-- Compare as numbers when both sides parse, else as strings. -/
def compareOperator (num : F → F → Bool) (str : String → String → Bool) (actual : Option String)
    (expected : String) : Bool :=
  match actual with
  | none => false
  | some a =>
    match (F64.parse a : Option F), (F64.parse expected : Option F) with
    | some av, some ev => num av ev
    | _, _ => str a expected

/-- Operator evaluation shared by constraint filtering and affinity scoring. -/
def evaluateOperator (actual : Option String) (op expected : String) : Bool :=
  match op with
  | "=" | "==" => actual == some expected
  | "!=" => actual != some expected
  | ">" | "gt" => compareOperator F (fun a e => F64.lt e a) (fun a e => e < a) actual expected
  | ">=" | "gte" => compareOperator F (fun a e => F64.le e a) (fun a e => e ≤ a) actual expected
  | "<" | "lt" => compareOperator F (fun a e => F64.lt a e) (fun a e => a < e) actual expected
  | "<=" | "lte" => compareOperator F (fun a e => F64.le a e) (fun a e => a ≤ e) actual expected
  | "regexp" | "matches" =>
    match actual with
    | none => false
    | some a => (re.isMatch expected a).getD false
  | "is_set" => actual.isSome
  | "is_not_set" => actual.isNone
  | _ => false

/-- The operators `evaluateOperator` knows. -/
def commonOperators : List String :=
  ["=", "==", "!=", ">", ">=", "<", "<=", "gt", "gte", "lt", "lte", "regexp", "matches", "is_set",
    "is_not_set"]

/-- Resolve a dotted attribute path against a candidate machine. -/
def getAttribute (c : Candidate) (attr : String) : Option String :=
  match Text.splitFirst '.' attr with
  | ("pool", _) => some c.pool
  | ("labels", some key) => c.mergedLabels.lookup key
  | ("capacity", some "cpu") => some (toString c.config.capacity.cpu.toNat)
  | ("capacity", some "memory") => some (toString c.config.capacity.memory.toNat)
  | ("capacity", some "disk") => some (toString c.config.capacity.disk.toNat)
  | ("name", _) => some c.name
  | ("schedulable", some "cpu") => some (toString c.schedulableCpu.toNat)
  | ("schedulable", some "memory") => some (toString c.schedulableMemory.toNat)
  | ("schedulable", some "disk") => some (toString c.schedulableDisk.toNat)
  | ("available", some "cpu") => some (toString c.availableCpu.toNat)
  | ("available", some "memory") => some (toString c.availableMemory.toNat)
  | ("available", some "disk") => some (toString c.availableDisk.toNat)
  | _ => none

/-- The comma-separated items of a value, trimmed. -/
def commaItems (s : String) : List String := (Text.split ',' s).map Text.trim

/-- One constraint. `none` is an unknown operator, on which the loop stops and accepts. -/
def constraintPasses (c : Candidate) (serviceName : String) (k : Constraint) : Option Bool :=
  let actual := getAttribute c k.attr
  match k.op with
  | "in" => some (actual.any fun a => (commaItems k.value).contains a)
  | "not_in" => some (actual.all fun a => !(commaItems k.value).contains a)
  | "set_contains" => some (actual.any fun a => (commaItems k.value).all (commaItems a).contains)
  | "set_contains_any" =>
    some (actual.any fun a => (commaItems k.value).any (commaItems a).contains)
  | "distinct_hosts" => some (!c.assignedServices.contains serviceName)
  | op =>
    if commonOperators.contains op then some (evaluateOperator F re actual op k.value) else none

/-- Whether a candidate passes all hard constraints. An unknown operator returns `true` at once,
    without looking at the constraints after it. -/
def passesConstraints (c : Candidate) (serviceName : String) : List Constraint → Bool
  | [] => true
  | k :: ks =>
    match constraintPasses F re c serviceName k with
    | none => true
    | some true => passesConstraints c serviceName ks
    | some false => false

/-- Instances of the service per attribute value: one for each machine that holds it. -/
def domainCounts (serviceName attr : String) (all : List Candidate) : HashMap String ℕ :=
  all.foldl (fun counts c =>
    if c.assignedServices.contains serviceName then
      match getAttribute c attr with
      | some val => HashMap.upsert val 0 (· + 1) counts
      | none => counts
    else counts) ∅

/-- One required spread. The `min_domains` part of the source counts domains and decides nothing,
    so only the skew check is left. -/
def spreadPasses (c : Candidate) (serviceName : String) (all : List Candidate)
    (spread : SpreadConfig) : Bool :=
  if !spread.required then true
  else match spread.maxSkew, getAttribute c spread.attr with
    | some maxSkew, some myVal =>
      let counts := domainCounts serviceName spread.attr all
      let myCount := (counts.lookup myVal).getD 0 + 1
      let minCount := (HashMap.values counts).min?.getD 0
      myCount - minCount ≤ maxSkew
    | _, _ => true

/-- Whether placing here keeps every required spread. -/
def passesRequiredSpreads (c : Candidate) (spreads : List SpreadConfig) (serviceName : String)
    (all : List Candidate) : Bool :=
  spreads.all (spreadPasses c serviceName all)

/-- The toleration matches the taint. -/
def tolerates (taint : Taint) (t : Toleration) : Bool :=
  (t.key.all (· == taint.key)) && (t.effect.all (· == taint.effect)) &&
    match t.op with
    | .exists => true
    | .equal => t.value == taint.value

/-- Whether every hard taint of the machine is tolerated; soft ones only cost score. -/
def passesTaints (c : Candidate) (tolerations : List Toleration) : Bool :=
  c.config.taints.all fun taint =>
    taint.effect == .preferNoSchedule || tolerations.any (tolerates taint)

end Ekafleet.Scheduler
