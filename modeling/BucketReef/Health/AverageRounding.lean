import BucketReef.Health.SegmentHistory

/-!
# When the segment averages are exact

The segments of a history always tile it and carry the right counts, minima and maxima. Their averages
are right at every moment exactly when no rounding step of a run goes astray.
-/

namespace BucketReef.Health

/-- The checks of one endpoint and mode, at times that do not decrease. -/
structure History where
  checks : List Check
  ordered : (checks.map fun check => check.result.checkedAt).Pairwise (· ≤ ·)

/-- The results among the first `n` checks. -/
def History.results (history : History) (n : ℕ) : List HealthCheckResult :=
  (history.checks.take n).map Check.result

/-- The stored segments after the first `n` checks. -/
def History.rows (history : History) (n : ℕ) : List StatusSegment :=
  (recorded (history.checks.take n)).rows

/-- The results of the whole history. -/
def History.allResults (history : History) : List HealthCheckResult :=
  history.checks.map Check.result

theorem History.results_eq_take (history : History) (n : ℕ) :
    history.results n = history.allResults.take n :=
  List.map_take

theorem History.recorded (history : History) (n : ℕ) :
    Recorded (history.results n) (Health.recorded (history.checks.take n)) := by
  refine recorded_checks ?_
  rw [List.map_take]
  exact history.ordered.sublist (List.take_sublist n _)

theorem Recorded.rows_ne_nil {results : List HealthCheckResult} {segments : Segments}
    (h : Recorded results segments) (hresults : results ≠ []) : segments.rows ≠ [] := by
  obtain ⟨pruned, hpruned, hrepresents⟩ := h.represents
  have hruns : statusRuns results ≠ [] := Lists.runsBy_ne_nil hresults
  have hpos := List.length_pos_iff.mpr hruns
  have hlength := hrepresents.length_eq
  rw [List.length_drop] at hlength
  rw [← List.length_pos_iff]
  omega

theorem Recorded.keptRuns {results : List HealthCheckResult} {segments : Segments}
    (h : Recorded results segments) :
    List.Forall₂ Represents (keptRuns results segments.rows) segments.rows := by
  obtain ⟨pruned, hpruned, hrepresents⟩ := h.represents
  have hlength := hrepresents.length_eq
  rw [List.length_drop] at hlength
  have hkept : (statusRuns results).length - segments.rows.length = pruned := by omega
  unfold Health.keptRuns
  rw [hkept]
  exact hrepresents

theorem Recorded.faithful {results : List HealthCheckResult} {segments : Segments}
    (h : Recorded results segments) : Faithful results segments.rows :=
  ⟨h.rows_ne_nil, h.tiles, h.keptRuns.imp fun _ _ hrow => hrow.summarises⟩

theorem averagesExact_iff {runs : List (List HealthCheckResult)} {rows : List StatusSegment}
    (h : List.Forall₂ Represents runs rows) :
    (List.Forall₂ (fun run segment => segment.avgLatencyMs = average (latencies run)) runs rows) ↔
      ∀ run ∈ runs, storedAverage (latencies run) = average (latencies run) := by
  induction h with
  | nil => simp
  | cons hrow _ ih =>
    rw [List.forall₂_cons, List.forall_mem_cons, ih, hrow.avgLatencyMs]

/-- The last run is among those of the stored segments. -/
theorem mem_keptRuns {results run : List HealthCheckResult} {front : List (List HealthCheckResult)}
    {rows : List StatusSegment} (hruns : statusRuns results = front ++ [run]) (hrows : rows ≠ []) :
    run ∈ keptRuns results rows := by
  have hpos := List.length_pos_iff.mpr hrows
  unfold keptRuns
  rw [hruns, List.drop_append_of_le_length (by simp; omega)]
  simp

theorem averages_exact_of_roundingAgrees {history : History}
    (h : RoundingAgrees history.allResults) (n : ℕ) :
    AveragesExact (history.results n) (history.rows n) := by
  refine (averagesExact_iff (history.recorded n).keptRuns).mpr fun run hrun => ?_
  have hmem : run ∈ statusRuns (history.results n) := List.mem_of_mem_drop hrun
  obtain ⟨whole, hwhole, hpre⟩ := Lists.exists_prefix_of_mem_runsBy hmem
    (history.allResults.drop n)
  rw [history.results_eq_take, List.take_append_drop] at hwhole
  exact (storedAverage_exact_iff _).mpr (h whole hwhole) _ (hpre.filterMap latencyValue)

theorem roundingAgrees_of_averages_exact {history : History}
    (h : ∀ n, AveragesExact (history.results n) (history.rows n)) :
    RoundingAgrees history.allResults := by
  intro run hrun
  refine (storedAverage_exact_iff _).mp fun part hpart => ?_
  obtain ⟨part', hpre, rfl⟩ := exists_prefix_latencies hpart
  by_cases hnil : part' = []
  · rw [hnil]
    rfl
  · -- the moment at which this part of the run was the whole of it
    obtain ⟨l₁, l₂, front, hresults, hruns⟩ := Lists.exists_runsBy_eq_concat hrun hnil hpre
    have htake : history.results l₁.length = l₁ := by
      rw [history.results_eq_take, hresults, List.take_left']
      rfl
    have hne : history.results l₁.length ≠ [] := by
      rw [htake]
      intro hl₁
      rw [hl₁] at hruns
      simp at hruns
    have hrecorded := history.recorded l₁.length
    refine (averagesExact_iff hrecorded.keptRuns).mp (h l₁.length) part' ?_
    have hfront : statusRuns (history.results l₁.length) = front ++ [part'] := by
      rw [htake]
      exact hruns
    exact mem_keptRuns hfront (hrecorded.rows_ne_nil hne)

/-- After any number of checks the segments tile the results and summarise them, and all averages are
exact at all times exactly when each rounding step agrees with rounding the exact sum. -/
theorem segments_summarise_iff (history : History) :
    (∀ n, Faithful (history.results n) (history.rows n)) ∧
      ((∀ n, AveragesExact (history.results n) (history.rows n)) ↔
        RoundingAgrees history.allResults) :=
  ⟨fun n => (history.recorded n).faithful, roundingAgrees_of_averages_exact,
    averages_exact_of_roundingAgrees⟩

/-- Three good checks with latencies of 1, 2 and 1 ms. -/
def threeChecks : History where
  checks := [⟨⟨0, .up, some 1⟩, none⟩, ⟨⟨60, .up, some 2⟩, none⟩, ⟨⟨120, .up, some 1⟩, none⟩]
  ordered := by decide

/-- The average of 1, 2 and 1 is stored as 2 and not as 1. -/
theorem not_segments_summarise :
    ¬∀ (history : History) (n : ℕ), Faithful (history.results n) (history.rows n) ∧
      AveragesExact (history.results n) (history.rows n) := by
  intro h
  have hexact := (h threeChecks 3).2
  have hruns : keptRuns (threeChecks.results 3) (threeChecks.rows 3) =
      [threeChecks.allResults] := by decide
  have hrows : (threeChecks.rows 3).map StatusSegment.avgLatencyMs = [some 2] := by decide
  unfold AveragesExact at hexact
  rw [hruns] at hexact
  obtain ⟨row, rest, hrow, -, heq⟩ := List.forall₂_cons_left_iff.mp hexact
  rw [heq, List.map_cons] at hrows
  rw [(List.cons.inj hrows).1] at hrow
  exact absurd hrow (by decide)

end BucketReef.Health
