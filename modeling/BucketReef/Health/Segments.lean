import BucketReef.Lists.Runs
import BucketReef.Lists.Sorted
import Mathlib

/-!
# Status segments of the endpoint health checks

The segments of one endpoint and check mode. A result extends the open segment of its status, whose
average is updated from the stored rounded average and not from the samples, or ends it and opens
another.
-/

namespace BucketReef.Health

inductive HealthCheckStatus
  | unknown
  | up
  | degraded
  | down
  deriving DecidableEq

structure HealthCheckResult where
  checkedAt : ℤ
  status : HealthCheckStatus
  latencyMs : Option ℤ
  deriving DecidableEq

structure StatusSegment where
  id : ℕ
  status : HealthCheckStatus
  startedAt : ℤ
  endedAt : Option ℤ
  minLatencyMs : Option ℤ
  avgLatencyMs : Option ℤ
  maxLatencyMs : Option ℤ
  latencySampleCount : ℕ
  deriving DecidableEq

/-- `int(round(total / sample_count))`: to the nearest integer, halves to the even one. -/
def roundDiv (total : ℤ) (sampleCount : ℕ) : ℤ :=
  let floor := total / sampleCount
  let rest := 2 * (total % sampleCount)
  if rest < sampleCount then floor
  else if (sampleCount : ℤ) < rest then floor + 1
  else if floor % 2 = 0 then floor
  else floor + 1

def latencyValue (result : HealthCheckResult) : Option ℤ :=
  if result.status = .down then none else result.latencyMs

/-- The open segment with one more latency. -/
def StatusSegment.addLatency (active : StatusSegment) (latencyValue : ℤ) : StatusSegment :=
  let avg := active.avgLatencyMs.getD latencyValue
  let total := avg * active.latencySampleCount + latencyValue
  let sampleCount := active.latencySampleCount + 1
  { active with
    latencySampleCount := sampleCount
    avgLatencyMs := some (roundDiv total sampleCount)
    minLatencyMs := some (active.minLatencyMs.elim latencyValue fun low => min low latencyValue)
    maxLatencyMs :=
      some (active.maxLatencyMs.elim latencyValue fun high => max high latencyValue) }

/-- The stored segments, in the order in which they were added. -/
structure Segments where
  nextId : ℕ
  rows : List StatusSegment

def Segments.empty : Segments := ⟨0, []⟩

/-- The open segment that started last. -/
def Segments.active (segments : Segments) : Option StatusSegment :=
  (Lists.sortedBy (fun row => OrderDual.toDual row.startedAt)
    (segments.rows.filter fun row => row.endedAt.isNone)).head?

def Segments.update (segments : Segments) (changed : StatusSegment) : Segments :=
  { segments with rows := segments.rows.map fun row => if row.id = changed.id then changed else row }

/-- A new segment for the result. -/
def Segments.openSegment (segments : Segments) (result : HealthCheckResult) : Segments where
  nextId := segments.nextId + 1
  rows := segments.rows ++
    [{ id := segments.nextId
       status := result.status
       startedAt := result.checkedAt
       endedAt := none
       minLatencyMs := latencyValue result
       avgLatencyMs := latencyValue result
       maxLatencyMs := latencyValue result
       latencySampleCount := if (latencyValue result).isSome then 1 else 0 }]

def Segments.updateStatusSegment (segments : Segments) (result : HealthCheckResult) : Segments :=
  match segments.active with
  | none => segments.openSegment result
  | some active =>
    if active.status = result.status then
      match latencyValue result with
      | none => segments
      | some value => segments.update (active.addLatency value)
    else
      (segments.update { active with endedAt := some result.checkedAt }).openSegment result

/-- Removes the segments that ended before the cutoff; `none` is a retention of zero days. -/
def Segments.pruneHistory (segments : Segments) (cutoff : Option ℤ) : Segments :=
  match cutoff with
  | none => segments
  | some cutoff =>
    { segments with
      rows := segments.rows.filter fun row =>
        !(row.endedAt.any fun endedAt => decide (endedAt < cutoff)) }

/-- A result of the endpoint and the cutoff of the pruning that follows it. -/
structure Check where
  result : HealthCheckResult
  cutoff : Option ℤ
  deriving DecidableEq

def Segments.recordResult (segments : Segments) (check : Check) : Segments :=
  (segments.updateStatusSegment check.result).pruneHistory check.cutoff

/-- The segments after the checks, from an empty table. -/
def recorded (checks : List Check) : Segments := checks.foldl Segments.recordResult .empty

/-! ## What the segments say -/

/-- The non-DOWN latencies of the results. -/
def latencies (results : List HealthCheckResult) : List ℤ := results.filterMap latencyValue

/-- The maximal runs of results with one status. -/
def statusRuns (results : List HealthCheckResult) : List (List HealthCheckResult) :=
  Lists.runsBy HealthCheckResult.status results

/-- The average rounded once. -/
def average (values : List ℤ) : Option ℤ :=
  if values = [] then none else some (roundDiv values.sum values.length)

/-- The segment stands for the run: its status, its start, and the figures of its latencies. -/
structure Summarises (run : List HealthCheckResult) (segment : StatusSegment) : Prop where
  status : ∀ result ∈ run, result.status = segment.status
  startedAt : run.head?.map HealthCheckResult.checkedAt = some segment.startedAt
  latencySampleCount : segment.latencySampleCount = (latencies run).length
  minLatencyMs : segment.minLatencyMs = (latencies run).min?
  maxLatencyMs : segment.maxLatencyMs = (latencies run).max?

/-- No gap and no overlap, neighbours of different statuses, and the last segment alone open. -/
structure Tiles (rows : List StatusSegment) : Prop where
  adjacent : rows.IsChain fun first second => first.endedAt = some second.startedAt ∧
    first.startedAt ≤ second.startedAt ∧ first.status ≠ second.status
  lastOpen : ∀ row ∈ rows.getLast?, row.endedAt = none

/-- The runs of the stored segments: all but those whose segments are pruned. -/
def keptRuns (results : List HealthCheckResult) (rows : List StatusSegment) :
    List (List HealthCheckResult) :=
  (statusRuns results).drop ((statusRuns results).length - rows.length)

/-- The stored segments tile the results and summarise their runs, up to the averages. -/
structure Faithful (results : List HealthCheckResult) (rows : List StatusSegment) : Prop where
  stored : results ≠ [] → rows ≠ []
  tiles : Tiles rows
  summarises : List.Forall₂ Summarises (keptRuns results rows) rows

/-- The averages are those of the latencies, rounded once. -/
def AveragesExact (results : List HealthCheckResult) (rows : List StatusSegment) : Prop :=
  List.Forall₂ (fun run segment => segment.avgLatencyMs = average (latencies run))
    (keptRuns results rows) rows

/-- In every run, each rounding of the stored average with one more latency gives what rounding the
exact sum gives. -/
def RoundingAgrees (results : List HealthCheckResult) : Prop :=
  ∀ run ∈ statusRuns results, ∀ seen value, seen ≠ [] → seen ++ [value] <+: latencies run →
    roundDiv (roundDiv seen.sum seen.length * seen.length + value) (seen.length + 1) =
      roundDiv (seen.sum + value) (seen.length + 1)

end BucketReef.Health
