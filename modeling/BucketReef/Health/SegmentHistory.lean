import BucketReef.Health.Segments

/-!
# The segments over a history of checks

One invariant for all histories: the segments tile the results, and the stored average of each is the
one built up from rounded averages. It is the average rounded once at every moment exactly when no
single rounding step goes astray.
-/

namespace BucketReef.Health

/-! ## Averages built up from rounded ones -/

/-- The average as the updates of an open segment leave it. -/
def storedAverage (values : List ℤ) : Option ℤ :=
  (values.foldl (fun (stored : Option ℤ × ℕ) value =>
    (some (roundDiv (stored.1.getD value * stored.2 + value) (stored.2 + 1)), stored.2 + 1))
    (none, 0)).1

theorem storedAverage_count (values : List ℤ) :
    values.foldl (fun (stored : Option ℤ × ℕ) value =>
      (some (roundDiv (stored.1.getD value * stored.2 + value) (stored.2 + 1)), stored.2 + 1))
      (none, 0) = (storedAverage values, values.length) := by
  induction values using List.reverseRecOn with
  | nil => rfl
  | append_singleton values value ih =>
    refine Prod.ext rfl ?_
    rw [List.foldl_concat, ih]
    simp

@[simp] theorem storedAverage_nil : storedAverage [] = none := rfl

theorem storedAverage_concat (values : List ℤ) (value : ℤ) :
    storedAverage (values ++ [value]) =
      some (roundDiv ((storedAverage values).getD value * values.length + value)
        (values.length + 1)) := by
  unfold storedAverage
  rw [List.foldl_concat, storedAverage_count]

theorem roundDiv_one (value : ℤ) : roundDiv value 1 = value := by
  simp [roundDiv]

theorem average_ne_nil {values : List ℤ} (h : values ≠ []) :
    average values = some (roundDiv values.sum values.length) :=
  if_neg h

/-- The stored averages are exact along the values exactly when every step rounds alike. -/
theorem storedAverage_exact_iff (values : List ℤ) :
    (∀ part, part <+: values → storedAverage part = average part) ↔
      ∀ seen value, seen ≠ [] → seen ++ [value] <+: values →
        roundDiv (roundDiv seen.sum seen.length * seen.length + value) (seen.length + 1) =
          roundDiv (seen.sum + value) (seen.length + 1) := by
  have hconcat : ∀ (seen : List ℤ) (value : ℤ), average (seen ++ [value]) =
      some (roundDiv (seen.sum + value) (seen.length + 1)) := by
    intro seen value
    rw [average_ne_nil (by simp), List.sum_append, List.sum_singleton, List.length_append,
      List.length_singleton]
  constructor
  · intro h seen value hseen hpre
    have hpart := h _ hpre
    rw [storedAverage_concat, hconcat, h seen ((List.prefix_append seen [value]).trans hpre),
      average_ne_nil hseen] at hpart
    exact Option.some.inj hpart
  · intro h part hpart
    induction part using List.reverseRecOn with
    | nil => rfl
    | append_singleton seen value ih =>
      rw [storedAverage_concat, hconcat, ih ((List.prefix_append seen [value]).trans hpart)]
      by_cases hseen : seen = []
      · simp [hseen, average, roundDiv_one]
      · rw [average_ne_nil hseen]
        exact congrArg some (h seen value hseen hpart)

/-! ## Latencies -/

theorem latencies_concat (run : List HealthCheckResult) (result : HealthCheckResult) :
    latencies (run ++ [result]) = latencies run ++ (latencyValue result).toList := by
  unfold latencies
  rw [List.filterMap_append]
  rfl

theorem min?_concat (values : List ℤ) (value : ℤ) :
    (values ++ [value]).min? = some (values.min?.elim value fun low => min low value) := by
  cases values with
  | nil => rfl
  | cons first values =>
    rw [List.cons_append, List.min?_cons', List.min?_cons', List.foldl_concat]
    rfl

theorem max?_concat (values : List ℤ) (value : ℤ) :
    (values ++ [value]).max? = some (values.max?.elim value fun high => max high value) := by
  cases values with
  | nil => rfl
  | cons first values =>
    rw [List.cons_append, List.max?_cons', List.max?_cons', List.foldl_concat]
    rfl

/-- A part of the latencies of a run is the latencies of a part of it. -/
theorem exists_prefix_latencies {run : List HealthCheckResult} {part : List ℤ}
    (h : part <+: latencies run) : ∃ part', part' <+: run ∧ latencies part' = part := by
  induction run using List.reverseRecOn with
  | nil => exact ⟨[], List.prefix_refl [], by simpa [latencies, eq_comm] using h⟩
  | append_singleton run result ih =>
    rw [latencies_concat] at h
    have hpre := List.prefix_append run [result]
    rcases hvalue : latencyValue result with - | value
    · rw [hvalue] at h
      obtain ⟨part', hpart', heq⟩ := ih (by simpa using h)
      exact ⟨part', hpart'.trans hpre, heq⟩
    · rw [hvalue, Option.toList_some, List.prefix_concat_iff] at h
      rcases h with heq | h
      · exact ⟨run ++ [result], List.prefix_refl _, by rw [latencies_concat, hvalue, heq]; rfl⟩
      · obtain ⟨part', hpart', heq⟩ := ih h
        exact ⟨part', hpart'.trans hpre, heq⟩

/-- The segment stands for the run, with the average built up step by step. -/
structure Represents (run : List HealthCheckResult) (segment : StatusSegment) : Prop where
  summarises : Summarises run segment
  avgLatencyMs : segment.avgLatencyMs = storedAverage (latencies run)

theorem represents_addLatency {run : List HealthCheckResult} {segment : StatusSegment}
    (h : Represents run segment) {result : HealthCheckResult} {value : ℤ}
    (hstatus : segment.status = result.status) (hvalue : latencyValue result = some value)
    (hrun : run ≠ []) : Represents (run ++ [result]) (segment.addLatency value) := by
  obtain ⟨⟨hsame, hstart, hcount, hmin, hmax⟩, havg⟩ := h
  have hlatencies : latencies (run ++ [result]) = latencies run ++ [value] := by
    rw [latencies_concat, hvalue]
    rfl
  refine ⟨⟨?_, ?_, ?_, ?_, ?_⟩, ?_⟩
  · intro other hother
    rcases List.mem_append.mp hother with hin | hin
    · exact hsame other hin
    · rw [List.mem_singleton.mp hin]
      exact hstatus.symm
  · rw [List.head?_append_of_ne_nil _ hrun]
    exact hstart
  · rw [hlatencies, List.length_append, ← hcount]
    rfl
  · rw [hlatencies, min?_concat, ← hmin]
    rfl
  · rw [hlatencies, max?_concat, ← hmax]
    rfl
  · rw [hlatencies, storedAverage_concat, ← havg, ← hcount]
    rfl

theorem represents_without_latency {run : List HealthCheckResult} {segment : StatusSegment}
    (h : Represents run segment) {result : HealthCheckResult}
    (hstatus : segment.status = result.status) (hvalue : latencyValue result = none)
    (hrun : run ≠ []) : Represents (run ++ [result]) segment := by
  obtain ⟨⟨hsame, hstart, hcount, hmin, hmax⟩, havg⟩ := h
  have hlatencies : latencies (run ++ [result]) = latencies run := by
    rw [latencies_concat, hvalue]
    simp
  refine ⟨⟨?_, ?_, ?_, ?_, ?_⟩, ?_⟩
  · intro other hother
    rcases List.mem_append.mp hother with hin | hin
    · exact hsame other hin
    · rw [List.mem_singleton.mp hin]
      exact hstatus.symm
  · rw [List.head?_append_of_ne_nil _ hrun]
    exact hstart
  all_goals rw [hlatencies]; assumption

/-- Ending a segment changes none of its figures. -/
theorem represents_ended {run : List HealthCheckResult} {segment : StatusSegment}
    (h : Represents run segment) (endedAt : Option ℤ) :
    Represents run { segment with endedAt := endedAt } :=
  ⟨⟨h.summarises.status, h.summarises.startedAt, h.summarises.latencySampleCount,
    h.summarises.minLatencyMs, h.summarises.maxLatencyMs⟩, h.avgLatencyMs⟩

/-! ## The table -/

theorem forall₂_concat_left {α β : Type*} {R : α → β → Prop} {l : List α} {a : α} {m : List β}
    (h : List.Forall₂ R (l ++ [a]) m) :
    ∃ front b, m = front ++ [b] ∧ List.Forall₂ R l front ∧ R a b := by
  induction l generalizing m with
  | nil =>
    obtain ⟨b, rest, hb, hrest, rfl⟩ := List.forall₂_cons_left_iff.mp h
    rw [List.forall₂_nil_left_iff.mp hrest]
    exact ⟨[], b, rfl, .nil, hb⟩
  | cons c l ih =>
    obtain ⟨d, rest, hd, hrest, rfl⟩ := List.forall₂_cons_left_iff.mp h
    obtain ⟨front, b, rfl, hfront, hb⟩ := ih hrest
    exact ⟨d :: front, b, rfl, .cons hd hfront, hb⟩

theorem Tiles.ended {front : List StatusSegment} {last : StatusSegment}
    (h : Tiles (front ++ [last])) : ∀ row ∈ front, row.endedAt.isNone = false := by
  intro row hrow
  obtain ⟨before, after, rfl⟩ := List.append_of_mem hrow
  have hadjacent := h.adjacent
  rw [List.append_assoc, List.cons_append] at hadjacent
  obtain ⟨-, hrest, -⟩ := List.isChain_append.mp hadjacent
  obtain ⟨hhead, -⟩ := List.isChain_cons.mp hrest
  have hne : after ++ [last] ≠ [] := by simp
  rw [(hhead _ (List.head_mem_head? hne)).1]
  rfl

theorem Tiles.last_ended {front : List StatusSegment} {last : StatusSegment}
    (h : Tiles (front ++ [last])) : last.endedAt = none :=
  h.lastOpen last (by simp)

/-- The open segment is the last one. -/
theorem active_eq {segments : Segments} {front : List StatusSegment} {last : StatusSegment}
    (hrows : segments.rows = front ++ [last]) (h : Tiles segments.rows) :
    segments.active = some last := by
  rw [hrows] at h
  have hopen : (segments.rows.filter fun row => row.endedAt.isNone) = [last] := by
    rw [hrows, List.filter_append, List.filter_eq_nil_iff.mpr fun row hrow => by
      rw [h.ended row hrow]
      exact Bool.false_ne_true]
    simp [h.last_ended]
  unfold Segments.active
  rw [hopen]
  rfl

/-- Storing the last segment anew leaves the others as they are. -/
theorem update_rows {segments : Segments} {front : List StatusSegment} {last : StatusSegment}
    (changed : StatusSegment) (hrows : segments.rows = front ++ [last])
    (hids : (segments.rows.map StatusSegment.id).Nodup)
    (hid : changed.id = last.id) : (segments.update changed).rows = front ++ [changed] := by
  rw [hrows, List.map_append, List.map_singleton] at hids
  have hfront : ∀ row ∈ front, row.id ≠ changed.id := by
    intro row hrow heq
    exact (List.disjoint_of_nodup_append hids) (List.mem_map_of_mem hrow)
      (by rw [heq, hid]; exact List.mem_singleton_self _)
  show segments.rows.map _ = _
  rw [hrows, List.map_append, List.map_singleton, if_pos hid.symm]
  congr 1
  exact (List.map_congr_left fun row hrow => if_neg (hfront row hrow)).trans (List.map_id front)

theorem Tiles.replace_last {front : List StatusSegment} {last changed : StatusSegment}
    (h : Tiles (front ++ [last])) (hstatus : changed.status = last.status)
    (hstart : changed.startedAt = last.startedAt) (hopen : changed.endedAt = none) :
    Tiles (front ++ [changed]) := by
  obtain ⟨hfront, -, hlast⟩ := List.isChain_append.mp h.adjacent
  refine ⟨List.isChain_append.mpr ⟨hfront, List.isChain_singleton _, ?_⟩, ?_⟩
  · intro row hrow next hnext
    have hnext : changed = next := by simpa using hnext
    have hrow := hlast row hrow last (by simp)
    rw [← hnext, hstatus, hstart]
    exact hrow
  · intro row hrow
    have hrow : changed = row := by simpa using hrow
    rw [← hrow]
    exact hopen

theorem Tiles.open_next {front : List StatusSegment} {last : StatusSegment}
    (h : Tiles (front ++ [last])) (next : StatusSegment) (hstatus : last.status ≠ next.status)
    (hstart : last.startedAt ≤ next.startedAt) (hopen : next.endedAt = none) :
    Tiles (front ++ [{ last with endedAt := some next.startedAt }] ++ [next]) := by
  obtain ⟨hfront, -, hlast⟩ := List.isChain_append.mp h.adjacent
  refine ⟨List.isChain_append.mpr ⟨List.isChain_append.mpr ⟨hfront, List.isChain_singleton _, ?_⟩,
    List.isChain_singleton _, ?_⟩, ?_⟩
  · intro row hrow ended hended
    have hended : { last with endedAt := some next.startedAt } = ended := by simpa using hended
    have hrow := hlast row hrow last (by simp)
    rw [← hended]
    exact hrow
  · intro ended hended row hrow
    have hended : { last with endedAt := some next.startedAt } = ended := by simpa using hended
    have hrow : next = row := by simpa using hrow
    rw [← hended, ← hrow]
    exact ⟨rfl, hstart, hstatus⟩
  · intro row hrow
    have hrow : next = row := by simpa using hrow
    rw [← hrow]
    exact hopen

theorem tiles_singleton {row : StatusSegment} (h : row.endedAt = none) : Tiles [row] :=
  ⟨List.isChain_singleton _, fun other hother => by
    have hother : row = other := by simpa using hother
    rw [← hother]
    exact h⟩

theorem Tiles.drop {rows : List StatusSegment} (h : Tiles rows) (n : ℕ) : Tiles (rows.drop n) := by
  refine ⟨h.adjacent.drop n, fun row hrow => h.lastOpen row ?_⟩
  rw [List.getLast?_drop] at hrow
  split_ifs at hrow with hn
  · simp at hrow
  · exact hrow

/-- Pruning takes segments off the front and leaves the open one. -/
theorem Tiles.filter_eq_drop {rows : List StatusSegment} (h : Tiles rows) (cutoff : ℤ) :
    ∃ n, (n = 0 ∨ n < rows.length) ∧ (rows.filter fun row =>
      !(row.endedAt.any fun endedAt => decide (endedAt < cutoff))) = rows.drop n := by
  induction rows with
  | nil => exact ⟨0, .inl rfl, rfl⟩
  | cons row rows ih =>
    have htail : Tiles rows := by simpa using h.drop 1
    by_cases hold : (row.endedAt.any fun endedAt => decide (endedAt < cutoff)) = true
    · obtain ⟨n, hn, hfilter⟩ := ih htail
      refine ⟨n + 1, ?_, ?_⟩
      · right
        have hrows : rows ≠ [] := by
          intro hnil
          rw [h.lastOpen row (by simp [hnil])] at hold
          simp at hold
        have hpos := List.length_pos_iff.mpr hrows
        simp only [List.length_cons]
        omega
      · rw [List.filter_cons_of_neg (by simp [hold]), hfilter]
        rfl
    · -- what follows ends even later
      refine ⟨0, .inl rfl, ?_⟩
      rw [List.drop_zero, List.filter_eq_self]
      clear ih htail
      induction rows generalizing row with
      | nil => simpa using hold
      | cons next rows ih =>
        intro other hother
        rcases List.mem_cons.mp hother with rfl | hin
        · simpa using hold
        · have hnext := (List.isChain_cons_cons.mp h.adjacent).1
          have htail : Tiles (next :: rows) := by simpa using h.drop 1
          refine ih next htail ?_ other hin
          intro hold'
          rcases rows with - | ⟨after, rows⟩
          · rw [htail.lastOpen next (by simp)] at hold'
            simp at hold'
          · have hafter := (List.isChain_cons_cons.mp htail.adjacent).1
            have hle := hafter.2.1
            rw [hafter.1] at hold'
            rw [hnext.1] at hold
            simp only [Option.any_some, decide_eq_true_eq] at hold hold'
            omega

/-! ## The invariant -/

/-- What holds of the table after the results. -/
structure Recorded (results : List HealthCheckResult) (segments : Segments) : Prop where
  ids : (segments.rows.map StatusSegment.id).Nodup
  fresh : ∀ row ∈ segments.rows, row.id < segments.nextId
  tiles : Tiles segments.rows
  represents : ∃ pruned, (pruned = 0 ∨ pruned < (statusRuns results).length) ∧
    List.Forall₂ Represents ((statusRuns results).drop pruned) segments.rows

theorem recorded_empty : Recorded [] .empty :=
  ⟨List.nodup_nil, fun _ hrow => absurd hrow (by simp [Segments.empty]),
    ⟨List.isChain_nil, fun _ hrow => absurd hrow (by simp [Segments.empty])⟩,
    0, .inl rfl, .nil⟩

/-- The row of a new segment. -/
def newRow (segments : Segments) (result : HealthCheckResult) : StatusSegment where
  id := segments.nextId
  status := result.status
  startedAt := result.checkedAt
  endedAt := none
  minLatencyMs := latencyValue result
  avgLatencyMs := latencyValue result
  maxLatencyMs := latencyValue result
  latencySampleCount := if (latencyValue result).isSome then 1 else 0

theorem openSegment_rows (segments : Segments) (result : HealthCheckResult) :
    (segments.openSegment result).rows = segments.rows ++ [newRow segments result] := rfl

theorem represents_newRow (segments : Segments) (result : HealthCheckResult) :
    Represents [result] (newRow segments result) := by
  have hlatencies : latencies [result] = (latencyValue result).toList := latencies_concat [] result
  refine ⟨⟨by simp [newRow], rfl, ?_, ?_, ?_⟩, ?_⟩
  all_goals
    rw [hlatencies]
    unfold newRow
    rcases latencyValue result with - | value
  · rfl
  · rfl
  · rfl
  · rfl
  · rfl
  · rfl
  · rfl
  · simp [storedAverage, roundDiv_one]

theorem openSegment_ids {segments : Segments} (hids : (segments.rows.map StatusSegment.id).Nodup)
    (hfresh : ∀ row ∈ segments.rows, row.id < segments.nextId) (result : HealthCheckResult) :
    ((segments.openSegment result).rows.map StatusSegment.id).Nodup ∧
      ∀ row ∈ (segments.openSegment result).rows, row.id < (segments.openSegment result).nextId := by
  rw [openSegment_rows]
  constructor
  · rw [List.map_append, List.map_singleton]
    refine List.nodup_append_comm.mp (List.nodup_cons.mpr ⟨?_, hids⟩)
    intro hin
    obtain ⟨row, hrow, hid⟩ := List.mem_map.mp hin
    have hlt := hfresh row hrow
    rw [hid] at hlt
    exact Nat.lt_irrefl _ hlt
  · intro row hrow
    show row.id < segments.nextId + 1
    rcases List.mem_append.mp hrow with hin | hin
    · have hlt := hfresh row hin
      omega
    · rw [List.mem_singleton.mp hin]
      exact Nat.lt_succ_self _

theorem update_ids {segments : Segments} {front : List StatusSegment} {last : StatusSegment}
    (changed : StatusSegment) (hrows : segments.rows = front ++ [last])
    (hids : (segments.rows.map StatusSegment.id).Nodup)
    (hfresh : ∀ row ∈ segments.rows, row.id < segments.nextId) (hid : changed.id = last.id) :
    ((segments.update changed).rows.map StatusSegment.id).Nodup ∧
      ∀ row ∈ (segments.update changed).rows, row.id < (segments.update changed).nextId := by
  rw [update_rows changed hrows hids hid]
  rw [hrows] at hids hfresh
  constructor
  · rw [List.map_append, List.map_singleton] at hids ⊢
    rw [hid]
    exact hids
  · intro row hrow
    show row.id < segments.nextId
    rcases List.mem_append.mp hrow with hin | hin
    · exact hfresh row (List.mem_append_left _ hin)
    · rw [List.mem_singleton.mp hin, hid]
      exact hfresh last (by simp)

theorem drop_concat {α : Type*} {n : ℕ} {front : List α} {a : α}
    (h : n = 0 ∨ n < (front ++ [a]).length) : (front ++ [a]).drop n = front.drop n ++ [a] := by
  refine List.drop_append_of_le_length ?_
  simp only [List.length_append, List.length_singleton] at h
  omega

/-- The first result of all opens the first segment. -/
theorem Recorded.first_result {segments : Segments} (h : Recorded [] segments)
    (result : HealthCheckResult) : Recorded [result] (segments.updateStatusSegment result) := by
  obtain ⟨hids, hfresh, -, pruned, -, hrepresents⟩ := h
  have hruns_nil : statusRuns [] = [] := rfl
  rw [hruns_nil, List.drop_nil, List.forall₂_nil_left_iff] at hrepresents
  have hactive : segments.active = none := by
    unfold Segments.active
    rw [hrepresents]
    rfl
  have hupdate : segments.updateStatusSegment result = segments.openSegment result := by
    unfold Segments.updateStatusSegment
    rw [hactive]
  have hopen := openSegment_ids hids hfresh result
  rw [hupdate]
  refine ⟨hopen.1, hopen.2, ?_, 0, .inl rfl, ?_⟩
  · rw [openSegment_rows, hrepresents]
    exact tiles_singleton rfl
  · rw [openSegment_rows, hrepresents]
    exact .cons (represents_newRow segments result) .nil

/-- The last run and its segment, the open one. -/
theorem Recorded.last_run {results run : List HealthCheckResult} {front : List (List HealthCheckResult)}
    {segments : Segments} (h : Recorded results segments)
    (hruns : statusRuns results = front ++ [run]) :
    ∃ pruned rows last, (pruned = 0 ∨ pruned < (front ++ [run]).length) ∧
      segments.rows = rows ++ [last] ∧ List.Forall₂ Represents (front.drop pruned) rows ∧
      Represents run last := by
  obtain ⟨pruned, hpruned, hrepresents⟩ := h.represents
  rw [hruns] at hpruned hrepresents
  rw [drop_concat hpruned] at hrepresents
  obtain ⟨rows, last, hrows, hfront, hlast⟩ := forall₂_concat_left hrepresents
  exact ⟨pruned, rows, last, hpruned, hrows, hfront, hlast⟩

/-- A result of the open segment's status extends it. -/
theorem Recorded.same_status {results run : List HealthCheckResult}
    {front : List (List HealthCheckResult)} {segments : Segments} (h : Recorded results segments)
    {result : HealthCheckResult} (hruns : statusRuns results = front ++ [run])
    (hrun : run ≠ []) (hsame : ∀ earlier ∈ run, earlier.status = result.status)
    (hruns' : statusRuns (results ++ [result]) = front ++ [run ++ [result]]) :
    Recorded (results ++ [result]) (segments.updateStatusSegment result) := by
  obtain ⟨pruned, rows, last, hpruned, hrows, hfront, hlast⟩ := h.last_run hruns
  have hactive := active_eq hrows h.tiles
  have hstatus : last.status = result.status :=
    (hlast.summarises.status _ (List.head_mem hrun)).symm.trans (hsame _ (List.head_mem hrun))
  have hlength : pruned = 0 ∨ pruned < (front ++ [run ++ [result]]).length := by
    simpa using hpruned
  unfold Segments.updateStatusSegment
  rw [hactive]
  simp only [if_pos hstatus]
  rcases hvalue : latencyValue result with - | value
  · refine ⟨h.ids, h.fresh, h.tiles, pruned, ?_, ?_⟩
    · rw [hruns']
      exact hlength
    · rw [hruns', drop_concat hlength, hrows]
      exact List.rel_append hfront
        (.cons (represents_without_latency hlast hstatus hvalue hrun) .nil)
  · have hchanged := update_ids (last.addLatency value) hrows h.ids h.fresh rfl
    have hupdated := update_rows (last.addLatency value) hrows h.ids rfl
    have htiles := h.tiles
    rw [hrows] at htiles
    refine ⟨hchanged.1, hchanged.2, ?_, pruned, ?_, ?_⟩
    · rw [hupdated]
      exact htiles.replace_last rfl rfl htiles.last_ended
    · rw [hruns']
      exact hlength
    · rw [hruns', drop_concat hlength, hupdated]
      exact List.rel_append hfront (.cons (represents_addLatency hlast hstatus hvalue hrun) .nil)

/-- A result of another status ends the open segment and opens the next one. -/
theorem Recorded.other_status {results run : List HealthCheckResult}
    {front : List (List HealthCheckResult)} {segments : Segments} (h : Recorded results segments)
    {result : HealthCheckResult} (hruns : statusRuns results = front ++ [run])
    (hrun : run ≠ []) (hother : ∀ earlier ∈ run, earlier.status ≠ result.status)
    (hlater : ∀ earlier ∈ run, earlier.checkedAt ≤ result.checkedAt)
    (hruns' : statusRuns (results ++ [result]) = front ++ [run] ++ [[result]]) :
    Recorded (results ++ [result]) (segments.updateStatusSegment result) := by
  obtain ⟨pruned, rows, last, hpruned, hrows, hfront, hlast⟩ := h.last_run hruns
  have hactive := active_eq hrows h.tiles
  have hhead := List.head_mem hrun
  have hstatus : last.status ≠ result.status := fun heq =>
    hother _ hhead ((hlast.summarises.status _ hhead).trans heq)
  have hstarted : last.startedAt ≤ result.checkedAt := by
    have hstart := hlast.summarises.startedAt
    rw [List.head?_eq_some_head hrun] at hstart
    have heq : (run.head hrun).checkedAt = last.startedAt := Option.some.inj hstart
    rw [← heq]
    exact hlater _ hhead
  have hlength : pruned = 0 ∨ pruned < (front ++ [run] ++ [[result]]).length := by
    simp only [List.length_append, List.length_singleton] at hpruned ⊢
    omega
  unfold Segments.updateStatusSegment
  rw [hactive]
  simp only [if_neg hstatus]
  have hchanged := update_ids { last with endedAt := some result.checkedAt } hrows h.ids h.fresh rfl
  have hupdated := update_rows { last with endedAt := some result.checkedAt } hrows h.ids rfl
  have hopen := openSegment_ids hchanged.1 hchanged.2 result
  have htiles := h.tiles
  rw [hrows] at htiles
  refine ⟨hopen.1, hopen.2, ?_, pruned, ?_, ?_⟩
  · rw [openSegment_rows, hupdated]
    exact htiles.open_next (newRow _ result) hstatus hstarted rfl
  · rw [hruns']
    exact hlength
  · rw [hruns', drop_concat hlength, drop_concat hpruned, openSegment_rows, hupdated]
    exact List.rel_append (List.rel_append hfront (.cons (represents_ended hlast _) .nil))
      (.cons (represents_newRow _ result) .nil)

/-- One result keeps the invariant. -/
theorem Recorded.updateStatusSegment {results : List HealthCheckResult} {segments : Segments}
    (h : Recorded results segments) {result : HealthCheckResult}
    (hlater : ∀ earlier ∈ results, earlier.checkedAt ≤ result.checkedAt) :
    Recorded (results ++ [result]) (segments.updateStatusSegment result) := by
  rcases Lists.runsBy_concat HealthCheckResult.status results result with
    ⟨rfl, -⟩ | ⟨front, run, hruns, hcases⟩
  · exact h.first_result result
  · have hmem : run ∈ Lists.runsBy HealthCheckResult.status results := by
      rw [hruns]
      simp
    have hrun : run ≠ [] := Lists.ne_nil_of_mem_runsBy hmem
    rcases hcases with ⟨hsame, hruns'⟩ | ⟨hother, hruns'⟩
    · exact h.same_status hruns hrun hsame hruns'
    · refine h.other_status hruns hrun hother (fun earlier hin => hlater earlier ?_) hruns'
      rw [← Lists.flatten_runsBy HealthCheckResult.status results]
      exact List.mem_flatten.mpr ⟨run, hmem, hin⟩

/-- Pruning keeps the invariant. -/
theorem Recorded.pruneHistory {results : List HealthCheckResult} {segments : Segments}
    (h : Recorded results segments) (cutoff : Option ℤ) :
    Recorded results (segments.pruneHistory cutoff) := by
  rcases cutoff with - | cutoff
  · exact h
  · obtain ⟨hids, hfresh, htiles, pruned, hpruned, hrepresents⟩ := h
    obtain ⟨n, hn, hfilter⟩ := htiles.filter_eq_drop cutoff
    have hrows : (segments.pruneHistory (some cutoff)).rows = segments.rows.drop n := hfilter
    have hlength := hrepresents.length_eq
    rw [List.length_drop] at hlength
    refine ⟨?_, ?_, ?_, pruned + n, ?_, ?_⟩
    · rw [hrows]
      exact hids.sublist ((List.drop_sublist n _).map _)
    · rw [hrows]
      exact fun row hrow => hfresh row (List.mem_of_mem_drop hrow)
    · rw [hrows]
      exact htiles.drop n
    · omega
    · rw [hrows, ← List.drop_drop]
      exact List.forall₂_drop n hrepresents

theorem Recorded.recordResult {results : List HealthCheckResult} {segments : Segments}
    (h : Recorded results segments) {check : Check}
    (hlater : ∀ earlier ∈ results, earlier.checkedAt ≤ check.result.checkedAt) :
    Recorded (results ++ [check.result]) (segments.recordResult check) :=
  (h.updateStatusSegment hlater).pruneHistory check.cutoff

/-- Every run of checks with times that do not decrease keeps the invariant. -/
theorem recorded_checks {checks : List Check}
    (h : (checks.map fun check => check.result.checkedAt).Pairwise (· ≤ ·)) :
    Recorded (checks.map Check.result) (recorded checks) := by
  induction checks using List.reverseRecOn with
  | nil => exact recorded_empty
  | append_singleton checks check ih =>
    rw [List.map_append, List.pairwise_append] at h
    have hstep := Recorded.recordResult (ih h.1) (?_ : ∀ earlier ∈ _, _ ≤ check.result.checkedAt)
    · unfold recorded at hstep ⊢
      rw [List.map_append, List.foldl_concat]
      exact hstep
    · intro earlier hearlier
      obtain ⟨before, hbefore, rfl⟩ := List.mem_map.mp hearlier
      exact h.2.2 _ (List.mem_map_of_mem hbefore) _ (by simp)

end BucketReef.Health
