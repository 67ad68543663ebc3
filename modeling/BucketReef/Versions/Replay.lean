import BucketReef.Versions.Listing

/-!
# Version replay and its watermark

`_replay_bucket_versions` walks the timelines in the order the iterator yields them, skips the
entries a watermark already covers, copies an object version or recreates a delete marker for each
of the others, and keeps the newest replayed datetime with its ties as the next watermark.

The remote calls and the control checks are answered by a `ReplayEnv`; the destination is the
stack of versions the replay has put there, newest first.
-/

namespace BucketReef
namespace Versions

/-- The answers of `control_check`. -/
inductive ControlState
  | run | pause | cancel | lostLease
  deriving DecidableEq, Repr

/-! ## The watermark -/

/-- The stored watermark; `none` for a `last_modified` that is not a datetime. -/
structure Watermark where
  lastModified : Option Int
  tieEntries : List (String × String × Bool)
  deriving DecidableEq, Repr

structure VersionReplayWatermarkBuilder where
  latestDt : Option Int := none
  tieEntries : List (String × String × Bool) := []
  deriving DecidableEq, Repr

def versionWatermarkSignature (entry : BucketVersionEntry) : String × String × Bool :=
  (entry.key, entry.versionId, entry.isDeleteMarker)

def addVersionReplayWatermarkEntry (builder : VersionReplayWatermarkBuilder)
    (entry : BucketVersionEntry) : VersionReplayWatermarkBuilder :=
  let entryDt := normalizeDatetime entry.lastModified
  match builder.latestDt with
  | none => ⟨some entryDt, [versionWatermarkSignature entry]⟩
  | some latest =>
    if latest < entryDt then ⟨some entryDt, [versionWatermarkSignature entry]⟩
    else if entryDt = latest then
      { builder with tieEntries := builder.tieEntries ++ [versionWatermarkSignature entry] }
    else builder

def finishVersionReplayWatermark (builder : VersionReplayWatermarkBuilder) : Option Watermark :=
  builder.latestDt.map fun latest => ⟨some latest, builder.tieEntries⟩

def entryIsAfterWatermark (entry : BucketVersionEntry) (watermark : Option Watermark) : Bool :=
  match watermark with
  | none => true
  | some watermark =>
    match watermark.lastModified with
    | none => true
    | some normalizedWatermark =>
      let entryDt := normalizeDatetime entry.lastModified
      if normalizedWatermark < entryDt then true
      else if entryDt < normalizedWatermark then false
      else decide (versionWatermarkSignature entry ∉ watermark.tieEntries)

/-! ## The destination -/

/-- A version the replay put on the destination: the source version copied, or a delete marker. -/
structure TargetVersion where
  key : String
  copiedFrom : Option String
  deriving DecidableEq, Repr

/-- The versions of the destination, newest first. -/
abbrev TargetBucket := List TargetVersion

def copyObject (target : TargetBucket) (key versionId : String) : TargetBucket :=
  ⟨key, some versionId⟩ :: target

/-- `delete_object` without a version id, on a versioned bucket. -/
def replayDeleteMarker (target : TargetBucket) (key : String) : TargetBucket :=
  ⟨key, none⟩ :: target

/-- A key is visible when its newest version is an object. -/
def visibleOn (target : TargetBucket) (key : String) : Bool :=
  match target.find? fun v => v.key = key with
  | none => false
  | some v => v.copiedFrom.isSome

/-! ## The loop -/

def diffControlCheckIntervalObjects : ℕ := 5000

/-- The calls of `on_progress`. -/
inductive ProgressCall
  | copied | force
  deriving DecidableEq, Repr

structure ReplayState where
  scanCountSinceControl : ℕ := 0
  controlChecks : ℕ := 0
  copied : ℕ := 0
  watermarkBuilder : VersionReplayWatermarkBuilder := {}
  target : TargetBucket := []
  /-- The entries whose remote call was made, in order. -/
  replayed : List BucketVersionEntry := []
  progress : List ProgressCall := []
  deriving DecidableEq, Repr

/-- How the loop ends early: `(-1, None)`, a lost lease, or a failed remote call. -/
inductive ReplayStop
  | interrupted | leaseLost | failed
  deriving DecidableEq, Repr

structure ReplayEnv where
  /-- The answer to the `n`-th control check. -/
  control : ℕ → ControlState
  /-- The remote call for the entry raises. -/
  fails : BucketVersionEntry → Bool

def checkReplayControl (env : ReplayEnv) (st : ReplayState) :
    Except (ReplayStop × ReplayState) ReplayState :=
  if st.scanCountSinceControl < diffControlCheckIntervalObjects then .ok st
  else
    let checked := { st with controlChecks := st.controlChecks + 1 }
    match env.control st.controlChecks with
    | .lostLease => .error (.leaseLost, { checked with progress := checked.progress ++ [.force] })
    | .pause | .cancel =>
      .error (.interrupted, { checked with progress := checked.progress ++ [.force] })
    | .run => .ok { checked with scanCountSinceControl := 0 }

/-- The destination call of an entry. -/
def applyEntry (target : TargetBucket) (entry : BucketVersionEntry) : TargetBucket :=
  if entry.isDeleteMarker then replayDeleteMarker target entry.key
  else copyObject target entry.key entry.versionId

def replayEntry (env : ReplayEnv) (watermark : Option Watermark) (st : ReplayState)
    (entry : BucketVersionEntry) : Except (ReplayStop × ReplayState) ReplayState := do
  let st ← checkReplayControl env
    { st with scanCountSinceControl := st.scanCountSinceControl + 1 }
  if watermark.isSome ∧ entryIsAfterWatermark entry watermark = false then
    return st
  else if env.fails entry then
    throw (.failed, st)
  else
    return { st with
      copied := st.copied + 1
      watermarkBuilder := addVersionReplayWatermarkEntry st.watermarkBuilder entry
      target := applyEntry st.target entry
      replayed := st.replayed ++ [entry]
      progress := st.progress ++ [.copied] }

/-- The replay over what the iterator yields; a listing that raises ends the loop after the
timelines yielded before. Returns the copied count and the finished watermark with the final
state. -/
def replayBucketVersions (env : ReplayEnv) (watermark : Option Watermark)
    (listed : Except (List (String × Timeline)) (List (String × Timeline))) (target : TargetBucket) :
    Except (ReplayStop × ReplayState) (ℕ × Option Watermark × ReplayState) := do
  match listed with
  | .ok timelines =>
    let st ← (timelines.flatMap Prod.snd).foldlM (replayEntry env watermark) { target := target }
    return (st.copied, finishVersionReplayWatermark st.watermarkBuilder,
      { st with progress := st.progress ++ [.force] })
  | .error timelines =>
    let st ← (timelines.flatMap Prod.snd).foldlM (replayEntry env watermark) { target := target }
    throw (.failed, st)

/-! ## What a completed replay did -/

/-- The entries the watermark does not cover. -/
def selected (watermark : Option Watermark) (entries : List BucketVersionEntry) :
    List BucketVersionEntry :=
  entries.filter fun entry => entryIsAfterWatermark entry watermark

@[simp] theorem mem_selected {watermark : Option Watermark} {entries : List BucketVersionEntry}
    {entry : BucketVersionEntry} : entry ∈ selected watermark entries ↔
      entry ∈ entries ∧ entryIsAfterWatermark entry watermark = true := by
  simp [selected]

theorem selected_none (entries : List BucketVersionEntry) : selected none entries = entries := by
  simp [selected, entryIsAfterWatermark]

theorem checkReplayControl_ok {env : ReplayEnv} {st st' : ReplayState}
    (h : checkReplayControl env st = .ok st') :
    st'.copied = st.copied ∧ st'.watermarkBuilder = st.watermarkBuilder ∧
      st'.target = st.target ∧ st'.replayed = st.replayed := by
  unfold checkReplayControl at h
  split at h
  · cases h; exact ⟨rfl, rfl, rfl, rfl⟩
  · split at h <;> cases h
    exact ⟨rfl, rfl, rfl, rfl⟩

/-- The step: an entry is either covered by the watermark or replayed. -/
theorem replayEntry_ok {env : ReplayEnv} {watermark : Option Watermark} {st st' : ReplayState}
    {entry : BucketVersionEntry} (h : replayEntry env watermark st entry = .ok st') :
    st'.copied = st.copied + (selected watermark [entry]).length ∧
      st'.watermarkBuilder = (selected watermark [entry]).foldl addVersionReplayWatermarkEntry
        st.watermarkBuilder ∧
      st'.target = (selected watermark [entry]).foldl applyEntry st.target ∧
      st'.replayed = st.replayed ++ selected watermark [entry] := by
  unfold replayEntry at h
  cases hcontrol : checkReplayControl env
      { st with scanCountSinceControl := st.scanCountSinceControl + 1 } with
  | error stop => simp [hcontrol, bind, Except.bind] at h
  | ok mid =>
    obtain ⟨hcopied, hbuilder, htarget, hreplayed⟩ := checkReplayControl_ok hcontrol
    simp only [hcontrol, bind, Except.bind] at h
    by_cases hafter : entryIsAfterWatermark entry watermark = true
    · rw [if_neg (by simp [hafter])] at h
      split at h
      · cases h
      · cases h
        simp [selected, hafter, hcopied, hbuilder, htarget, hreplayed]
    · have hsome : watermark.isSome = true := by
        cases watermark with
        | none => simp [entryIsAfterWatermark] at hafter
        | some _ => rfl
      rw [if_pos ⟨hsome, by simpa using hafter⟩] at h
      cases h
      simp [selected, hafter, hcopied, hbuilder, htarget, hreplayed]

/-- The run: the loop replays exactly the selected entries, in order. -/
theorem foldlM_replayEntry_ok {env : ReplayEnv} {watermark : Option Watermark}
    {entries : List BucketVersionEntry} {st st' : ReplayState}
    (h : entries.foldlM (replayEntry env watermark) st = .ok st') :
    st'.copied = st.copied + (selected watermark entries).length ∧
      st'.watermarkBuilder = (selected watermark entries).foldl addVersionReplayWatermarkEntry
        st.watermarkBuilder ∧
      st'.target = (selected watermark entries).foldl applyEntry st.target ∧
      st'.replayed = st.replayed ++ selected watermark entries := by
  induction entries generalizing st with
  | nil =>
    cases h
    simp [selected]
  | cons entry rest ih =>
    rw [List.foldlM_cons] at h
    cases hstep : replayEntry env watermark st entry with
    | error stop => simp [hstep, bind, Except.bind] at h
    | ok mid =>
      rw [hstep] at h
      obtain ⟨hcopied, hbuilder, htarget, hreplayed⟩ := ih h
      obtain ⟨hcopied', hbuilder', htarget', hreplayed'⟩ := replayEntry_ok hstep
      have hsplit : selected watermark (entry :: rest) =
          selected watermark [entry] ++ selected watermark rest := by
        rw [selected, selected, selected, ← List.filter_append, List.singleton_append]
      rw [hsplit, List.length_append, List.foldl_append, List.foldl_append, hcopied, hbuilder,
        htarget, hreplayed, hcopied', hbuilder', htarget', hreplayed', Nat.add_assoc,
        List.append_assoc]
      exact ⟨rfl, rfl, rfl, rfl⟩

/-- A replay that returns its counters replayed every selected entry of every timeline. -/
theorem replayBucketVersions_ok {env : ReplayEnv} {watermark watermark' : Option Watermark}
    {listed : Except (List (String × Timeline)) (List (String × Timeline))}
    {target : TargetBucket} {copied : ℕ} {st : ReplayState}
    (h : replayBucketVersions env watermark listed target = .ok (copied, watermark', st)) :
    ∃ timelines, listed = .ok timelines ∧
      copied = (selected watermark (timelines.flatMap Prod.snd)).length ∧
      watermark' = finishVersionReplayWatermark
        ((selected watermark (timelines.flatMap Prod.snd)).foldl addVersionReplayWatermarkEntry {}) ∧
      st.target = (selected watermark (timelines.flatMap Prod.snd)).foldl applyEntry target ∧
      st.replayed = selected watermark (timelines.flatMap Prod.snd) := by
  unfold replayBucketVersions at h
  cases listed with
  | error timelines =>
    simp only [bind, Except.bind] at h
    split at h <;> cases h
  | ok timelines =>
    simp only [bind, Except.bind] at h
    split at h
    · cases h
    · rename_i final hfold
      cases h
      obtain ⟨hcopied, hbuilder, htarget, hreplayed⟩ := foldlM_replayEntry_ok hfold
      exact ⟨timelines, rfl, by simpa using hcopied, by rw [hbuilder], htarget,
        by simpa using hreplayed⟩

end Versions
end BucketReef
