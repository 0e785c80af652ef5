import Ekafleet.Lib.HashMap

/-! Circuit breakers and retries | source: proxy/circuit.rs

    One breaker per service, created closed when a request for the service first asks. Instants and
    durations are nanoseconds. -/

namespace Ekafleet.Proxy

/-- The states of a circuit breaker. -/
inductive CircuitState where | closed | opened | halfOpen
  deriving DecidableEq, Repr

/-- The thresholds of a circuit breaker. -/
structure CircuitConfig where
  failureThreshold : UInt32 := 5
  openDuration : ℕ := 30 * 10 ^ 9
  successThreshold : UInt32 := 2
  deriving DecidableEq, Repr

/-- A circuit breaker. -/
structure BreakerState where
  state : CircuitState := .closed
  consecutiveFailures : UInt32 := 0
  consecutiveSuccesses : UInt32 := 0
  openedAt : Option ℕ := none
  config : CircuitConfig
  deriving DecidableEq, Repr

namespace BreakerState

/-- Check if a request is allowed through the circuit. -/
def allowRequest (now : ℕ) (b : BreakerState) : Bool × BreakerState :=
  match b.state with
  | .closed | .halfOpen => (true, b)
  | .opened =>
    -- after long enough one request is let through to test recovery
    if b.openedAt.any fun opened => b.config.openDuration ≤ now - opened then
      (true, { b with state := .halfOpen, consecutiveSuccesses := 0 })
    else (false, b)

/-- Record a successful request. -/
def recordSuccess (b : BreakerState) : BreakerState :=
  let b := { b with consecutiveFailures := 0 }
  match b.state with
  | .halfOpen =>
    let b := { b with consecutiveSuccesses := b.consecutiveSuccesses + 1 }
    if b.config.successThreshold ≤ b.consecutiveSuccesses then
      { b with state := .closed, openedAt := none }
    else b
  | .closed | .opened => b

/-- Record a failed request. -/
def recordFailure (now : ℕ) (b : BreakerState) : BreakerState :=
  let b := { b with consecutiveSuccesses := 0, consecutiveFailures := b.consecutiveFailures + 1 }
  match b.state with
  | .closed =>
    if b.config.failureThreshold ≤ b.consecutiveFailures then
      { b with state := .opened, openedAt := some now }
    else b
  | .halfOpen => { b with state := .opened, openedAt := some now }
  | .opened => b

end BreakerState

/-- The breakers of the upstreams. -/
structure CircuitBreakerRegistry where
  breakers : HashMap String BreakerState := ∅
  defaultConfig : CircuitConfig := {}

namespace CircuitBreakerRegistry

/-- The breaker of a service, a new one if it has none yet. -/
def breaker (r : CircuitBreakerRegistry) (serviceName : String) : BreakerState :=
  (r.breakers.lookup serviceName).getD { config := r.defaultConfig }

/-- Ask the breaker of a service. -/
def allowRequest (now : ℕ) (serviceName : String) (r : CircuitBreakerRegistry) :
    Bool × CircuitBreakerRegistry :=
  let (allowed, b) := (r.breaker serviceName).allowRequest now
  (allowed, { r with breakers := r.breakers.insert serviceName b })

def recordSuccess (serviceName : String) (r : CircuitBreakerRegistry) : CircuitBreakerRegistry :=
  { r with breakers := HashMap.adjust serviceName (·.recordSuccess) r.breakers }

def recordFailure (now : ℕ) (serviceName : String) (r : CircuitBreakerRegistry) :
    CircuitBreakerRegistry :=
  { r with breakers := HashMap.adjust serviceName (·.recordFailure now) r.breakers }

end CircuitBreakerRegistry

/-- How often and how late a request is repeated. -/
structure RetryConfig where
  maxRetries : UInt32 := 2
  baseDelay : ℕ := 100 * 10 ^ 6
  maxDelay : ℕ := 2 * 10 ^ 9
  deriving DecidableEq, Repr

/-- Exponential backoff, its factor saturating and the delay capped. -/
def RetryConfig.delayForAttempt (c : RetryConfig) (attempt : ℕ) : ℕ :=
  min (c.baseDelay * min (2 ^ attempt) (2 ^ 32 - 1)) c.maxDelay

end Ekafleet.Proxy
