import FlightPulse.Lib.Dict
import FlightPulse.Lib.Python

/-! # Load balancer metrics (`load_balancer/metrics.py`) -/

open Lib Lib.Python

namespace FlightPulse.LoadBalancer

abbrev Url := PyStr

structure Metrics where
  totalRequests : ℕ
  successfulRequests : ℕ
  failedRequests : ℕ
  retriedRequests : ℕ
  latenciesMs : List ℚ
  backendSelectionCounts : Dict Url ℕ
  healthCheckFailures : Dict Url ℕ

namespace Metrics

def init : Metrics := ⟨0, 0, 0, 0, [], Dict.empty, Dict.empty⟩

/-- `counts[url] += 1` on a `defaultdict(int)`. -/
def increment (counts : Dict Url ℕ) (url : Url) : Dict Url ℕ :=
  counts.set url ((counts.get? url).getD 0 + 1)

/-- `latencies[-1000:]` once there are more than 1000. -/
def window (latencies : List ℚ) : List ℚ :=
  if latencies.length > 1000 then latencies.drop (latencies.length - 1000) else latencies

def recordRequest (m : Metrics) (backendUrl : Url) (success : Bool) (latencyMs : ℚ)
    (retried : Bool) : Metrics :=
  { m with
    totalRequests := m.totalRequests + 1
    successfulRequests := if success then m.successfulRequests + 1 else m.successfulRequests
    failedRequests := if success then m.failedRequests else m.failedRequests + 1
    retriedRequests := if retried then m.retriedRequests + 1 else m.retriedRequests
    backendSelectionCounts := increment m.backendSelectionCounts backendUrl
    latenciesMs := window (m.latenciesMs ++ [latencyMs]) }

def recordHealthCheckFailure (m : Metrics) (backendUrl : Url) : Metrics :=
  { m with healthCheckFailures := increment m.healthCheckFailures backendUrl }

end Metrics

end FlightPulse.LoadBalancer
