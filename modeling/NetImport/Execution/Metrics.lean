import NetImport.Json.Text
import NetImport.Numeric.FixedPlaces

/-!
# Metrics of a run

A run counts the nodes it executes, the largest value they write and the time
they take; with profiling on it also keeps one record per node.  Times are in
nanoseconds.
-/

namespace NetImport

structure NodeMetrics where
  name : String
  kind : String
  nanoseconds : Nat
  bytes : Nat
deriving DecidableEq, Repr

structure Metrics where
  totalNanoseconds : Nat
  computeNanoseconds : Nat
  executed : Nat
  peakBytes : Nat
  nodes : List NodeMetrics
deriving DecidableEq, Repr

namespace Metrics

def empty : Metrics := ⟨0, 0, 0, 0, []⟩

/-- Counts an executed node, and keeps its record when `detailed`. -/
def record (metrics : Metrics) (node : NodeMetrics) (detailed : Bool) : Metrics where
  totalNanoseconds := metrics.totalNanoseconds
  computeNanoseconds := metrics.computeNanoseconds + node.nanoseconds
  executed := metrics.executed + 1
  peakBytes := max metrics.peakBytes node.bytes
  nodes := if detailed then metrics.nodes ++ [node] else metrics.nodes

/-- Sets the time of the whole run. -/
def finalise (metrics : Metrics) (nanoseconds : Nat) : Metrics :=
  { metrics with totalNanoseconds := nanoseconds }

/-- Adds a time to the total of a kind, which keeps the place of its first use. -/
def addTime (kind : String) (nanoseconds : Nat) :
    List (String × Nat) → List (String × Nat)
  | [] => [(kind, nanoseconds)]
  | (other, total) :: rest =>
      if other == kind then (other, total + nanoseconds) :: rest
      else (other, total) :: addTime kind nanoseconds rest

/-- The time of each kind, longest first; kinds of equal time stay in order of
first use. -/
def timeByKind (metrics : Metrics) : List (String × Nat) :=
  (metrics.nodes.foldl (fun totals node => addTime node.kind node.nanoseconds totals) []).mergeSort
    fun a b => b.2 ≤ a.2

def nanosecondsPerSecond : Nat := 1000000000

/-- A time in seconds as a 64-bit number: whole seconds and the fraction are
rounded apart. -/
def seconds (nanoseconds : Nat) : Float :=
  Binary.doubleOfInt (nanoseconds / nanosecondsPerSecond) +
    Binary.doubleOfInt (nanoseconds % nanosecondsPerSecond) / Binary.doubleOfInt (nanosecondsPerSecond)

def milliseconds (nanoseconds : Nat) : String :=
  Decimal.fixed 3 (Binary.ofDouble (seconds nanoseconds * Binary.doubleOfInt 1000))

def summary (metrics : Metrics) : String :=
  s!"Execution: {milliseconds metrics.totalNanoseconds}ms total, {metrics.executed} nodes, " ++
    s!"{milliseconds metrics.computeNanoseconds}ms compute, " ++
    s!"peak value {Decimal.kilobytes metrics.peakBytes} KB" ++
    (match metrics.timeByKind with
      | [] => ""
      | (kind, time) :: _ => s!", slowest kind {kind} ({milliseconds time}ms)")

/-- A time as whole seconds and the nanoseconds beyond them. -/
def durationJson (nanoseconds : Nat) : Json :=
  .ofMembers [
    ("secs", .ofNat (nanoseconds / nanosecondsPerSecond)),
    ("nanos", .ofNat (nanoseconds % nanosecondsPerSecond))]

def nodeJson (node : NodeMetrics) : Json :=
  .ofMembers [
    ("node_name", .ofString node.name),
    ("kind", .ofString node.kind),
    ("duration", durationJson node.nanoseconds),
    ("output_bytes", .ofNat node.bytes)]

def toJson (metrics : Metrics) : Json :=
  .ofMembers [
    ("total_duration", durationJson metrics.totalNanoseconds),
    ("total_compute_duration", durationJson metrics.computeNanoseconds),
    ("nodes_executed", .ofNat metrics.executed),
    ("peak_output_bytes", .ofNat metrics.peakBytes),
    ("node_metrics", .array (metrics.nodes.map nodeJson))]

end Metrics
end NetImport
