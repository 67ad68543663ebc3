import BucketReef.Migration.Policy

/-!
# Managed statements come and go

A builder keeps the statements of others in their order and appends one of its own; building twice is
building once, and removing the managed statement gives back the document in normal form.
-/

namespace BucketReef
namespace Migration

/-- The policies the migration builds on a bucket. -/
inductive ManagedPolicy
  | readOnly (sourceBucket : String) (denyDelete : Bool)
  | targetWriteLock (targetBucket : String)
  | sourceCopyGrant (sourceBucket principal : String)
  deriving DecidableEq, Repr

namespace ManagedPolicy

def sid : ManagedPolicy → String
  | readOnly _ _ => readOnlyPolicySid
  | targetWriteLock _ => targetWriteLockPolicySid
  | sourceCopyGrant _ _ => sourceCopyGrantPolicySid

def statement : ManagedPolicy → Statement
  | readOnly sourceBucket denyDelete => readOnlyStatement sourceBucket denyDelete
  | targetWriteLock targetBucket => targetWriteLockStatement targetBucket
  | sourceCopyGrant sourceBucket principal => sourceCopyGrantStatement sourceBucket principal

end ManagedPolicy

/-- The two builders of a deny remove their statement once more from what the stripper left. -/
def withFilteredPolicyStatement (sid : String) (statement : Statement) (existing : Option Policy) :
    Policy :=
  let base := basePolicy sid existing
  let filtered := base.statements.filter fun statement => statement.sid ≠ some sid
  { base with statement := .many (filtered ++ [statement]) }

/-- `_build_read_only_policy`, `_build_target_write_lock_policy`, `_build_source_copy_grant_policy` -/
def ManagedPolicy.build (managed : ManagedPolicy) (existing : Option Policy) : Policy :=
  match managed with
  | readOnly _ _ | targetWriteLock _ => withFilteredPolicyStatement managed.sid managed.statement existing
  | sourceCopyGrant sourceBucket principal =>
    buildSourceCopyGrantPolicy sourceBucket existing principal

/-- The document with `Statement` as a list and a version; none without a statement. -/
def normalForm (policy : Option Policy) : Option Policy :=
  policy.bind fun policy =>
    if policy.statements = [] then none
    else some { policy with
      version := some (policy.version.getD "2012-10-17")
      statement := .many policy.statements }

/-- No statement of the document has one of the managed ids. -/
def Unmanaged (policy : Option Policy) : Prop :=
  ∀ document, policy = some document → ∀ statement ∈ document.statements, ∀ sid,
    statement.sid = some sid →
      sid ∉ [readOnlyPolicySid, targetWriteLockPolicySid, sourceCopyGrantPolicySid]

def statementsOf (policy : Option Policy) : List Statement := (policy.map Policy.statements).getD []

variable {sid : String} {statement : Statement} {policy : Option Policy}

theorem statement_sid (managed : ManagedPolicy) : managed.statement.sid = some managed.sid := by
  cases managed <;> rfl

/-! ## Stripping -/

theorem filter_unmanaged {statements : List Statement}
    (h : ∀ statement ∈ statements, statement.sid ≠ some sid) :
    (statements.filter fun statement => statement.sid ≠ some sid) = statements :=
  List.filter_eq_self.mpr fun statement hmem => decide_eq_true (h statement hmem)

theorem without_eq_normalForm (h : ∀ statement ∈ statementsOf policy, statement.sid ≠ some sid) :
    withoutManagedPolicyStatement sid policy = normalForm policy := by
  cases policy with
  | none => rfl
  | some policy =>
    have hfilter : (policy.statements.filter fun s => s.sid ≠ some sid) = policy.statements :=
      filter_unmanaged h
    unfold withoutManagedPolicyStatement normalForm
    simp only [Option.bind_some, hfilter]

theorem normalForm_eq_none_iff : normalForm policy = none ↔ statementsOf policy = [] := by
  cases policy with
  | none => simp [normalForm, statementsOf]
  | some policy => simp [normalForm, statementsOf]

theorem basePolicy_statements (h : ∀ statement ∈ statementsOf policy, statement.sid ≠ some sid) :
    (basePolicy sid policy).statements = statementsOf policy := by
  rw [basePolicy, without_eq_normalForm h]
  cases policy with
  | none => rfl
  | some policy =>
    unfold normalForm
    rw [Option.bind_some]
    split
    · rename_i hempty
      exact hempty.symm
    · rfl

theorem basePolicy_unmanaged : ∀ s ∈ (basePolicy sid policy).statements, s.sid ≠ some sid := by
  intro s hs
  unfold basePolicy withoutManagedPolicyStatement at hs
  cases policy with
  | none => simp [Policy.statements] at hs
  | some policy =>
    simp only [Option.bind_some] at hs
    split at hs
    · simp [Policy.statements] at hs
    · exact of_decide_eq_true (List.mem_filter.mp hs).2

/-- The second removal finds nothing. -/
theorem withFiltered_eq : withFilteredPolicyStatement sid statement policy =
    withManagedPolicyStatement sid statement policy := by
  simp only [withFilteredPolicyStatement, withManagedPolicyStatement,
    filter_unmanaged basePolicy_unmanaged]

theorem build_eq (managed : ManagedPolicy) :
    managed.build policy = withManagedPolicyStatement managed.sid managed.statement policy := by
  cases managed with
  | readOnly _ _ | targetWriteLock _ => exact withFiltered_eq
  | sourceCopyGrant _ _ => rfl

/-! ## Building -/

/-- The version of what a builder starts from is always there, and its statements are a list. -/
theorem basePolicy_normal : (basePolicy sid policy).version.isSome = true ∧
    (basePolicy sid policy).statement = .many (basePolicy sid policy).statements := by
  unfold basePolicy withoutManagedPolicyStatement
  cases policy with
  | none => exact ⟨rfl, rfl⟩
  | some policy =>
    simp only [Option.bind_some]
    split <;> exact ⟨rfl, rfl⟩

/-- Without a statement, a builder starts from the empty document. -/
theorem basePolicy_of_nil (h : (basePolicy sid policy).statements = []) :
    basePolicy sid policy = { statement := .many [] } := by
  unfold basePolicy at h ⊢
  cases hwithout : withoutManagedPolicyStatement sid policy with
  | none => rfl
  | some base =>
    rw [hwithout] at h
    exfalso
    cases policy with
    | none => cases hwithout
    | some policy =>
      simp only [withoutManagedPolicyStatement, Option.bind_some] at hwithout
      split at hwithout
      · cases hwithout
      · rename_i hne
        cases hwithout
        exact hne h

theorem filter_withManaged (hsid : statement.sid = some sid) :
    ((withManagedPolicyStatement sid statement policy).statements.filter fun s => s.sid ≠ some sid) =
      (basePolicy sid policy).statements := by
  rw [statements_withManaged, List.filter_append, filter_unmanaged basePolicy_unmanaged]
  simp [hsid]

/-- Removing the managed statement gives back what the builder started from. -/
theorem without_withManaged (hsid : statement.sid = some sid) :
    withoutManagedPolicyStatement sid (some (withManagedPolicyStatement sid statement policy)) =
      if (basePolicy sid policy).statements = [] then none else some (basePolicy sid policy) := by
  have hnormal : (basePolicy sid policy).version.isSome = true ∧
      (basePolicy sid policy).statement = .many (basePolicy sid policy).statements :=
    basePolicy_normal
  obtain ⟨hversion, hstatement⟩ := hnormal
  unfold withoutManagedPolicyStatement
  simp only [Option.bind_some, filter_withManaged hsid]
  split
  · rfl
  · obtain ⟨version, hversion⟩ := Option.isSome_iff_exists.mp hversion
    have hbase : basePolicy sid policy = ⟨some version, .many (basePolicy sid policy).statements,
        (basePolicy sid policy).rest⟩ := by
      rw [← hstatement, ← hversion]
    refine congrArg some (Eq.trans ?_ hbase.symm)
    show (⟨some ((basePolicy sid policy).version.getD "2012-10-17"), _, _⟩ : Policy) = _
    rw [hversion]
    rfl

theorem withManaged_idem (hsid : statement.sid = some sid) :
    withManagedPolicyStatement sid statement
        (some (withManagedPolicyStatement sid statement policy)) =
      withManagedPolicyStatement sid statement policy := by
  have hbase : basePolicy sid (some (withManagedPolicyStatement sid statement policy)) =
      basePolicy sid policy := by
    conv_lhs => rw [basePolicy, without_withManaged hsid]
    split
    · rename_i hempty
      exact (basePolicy_of_nil hempty).symm
    · rfl
  unfold withManagedPolicyStatement at hbase ⊢
  rw [hbase]

/-- What a builder and the stripper do to a document without managed statements. -/
theorem managed_statements_surgical (managed : ManagedPolicy) (h : Unmanaged policy) :
    (managed.build policy).statements = statementsOf policy ++ [managed.statement] ∧
      ((managed.build policy).statements.filter fun statement => statement.sid = some managed.sid) =
        [managed.statement] ∧
      managed.build (some (managed.build policy)) = managed.build policy ∧
      withoutManagedPolicyStatement managed.sid (some (managed.build policy)) = normalForm policy ∧
      (withoutManagedPolicyStatement managed.sid (some (managed.build policy)) = none ↔
        statementsOf policy = []) := by
  have hforeign : ∀ statement ∈ statementsOf policy, statement.sid ≠ some managed.sid := by
    intro statement hstatement hsid
    cases policy with
    | none => cases hstatement
    | some document =>
      refine h document rfl statement hstatement managed.sid hsid ?_
      cases managed <;> simp [ManagedPolicy.sid]
  have hstatements : (managed.build policy).statements = statementsOf policy ++ [managed.statement] := by
    rw [build_eq, statements_withManaged, basePolicy_statements hforeign]
  have hwithout : withoutManagedPolicyStatement managed.sid (some (managed.build policy)) =
      normalForm policy := by
    rw [build_eq, without_withManaged (statement_sid managed), basePolicy_statements hforeign,
      basePolicy, without_eq_normalForm hforeign]
    split
    · rename_i hempty
      exact (normalForm_eq_none_iff.mpr hempty).symm
    · rename_i hne
      obtain ⟨document, hdocument⟩ := Option.ne_none_iff_exists'.mp (mt normalForm_eq_none_iff.mp hne)
      rw [hdocument]
      rfl
  refine ⟨hstatements, ?_, ?_, hwithout, ?_⟩
  · rw [hstatements, List.filter_append]
    have hnone : (statementsOf policy).filter (fun statement => statement.sid = some managed.sid) = [] :=
      List.filter_eq_nil_iff.mpr fun statement hmem => by simpa using hforeign statement hmem
    rw [hnone]
    simp [statement_sid managed]
  · rw [build_eq, build_eq, withManaged_idem (statement_sid managed)]
  · rw [hwithout, normalForm_eq_none_iff]

/-- A single statement and no version. -/
def onePolicy : Policy where
  version := none
  statement := .single { sid := some "customer", principal := "*" }
  rest := "Id"

theorem managed_statements_surgical_onePolicy :
    ((ManagedPolicy.readOnly "photos" true).build (some onePolicy)).statements =
        statementsOf (some onePolicy) ++ [(ManagedPolicy.readOnly "photos" true).statement] ∧
      withoutManagedPolicyStatement readOnlyPolicySid
        (some ((ManagedPolicy.readOnly "photos" true).build (some onePolicy))) =
          normalForm (some onePolicy) := by
  have hunmanaged : Unmanaged (some onePolicy) := by
    intro document hdocument statement hstatement sid hsid
    cases hdocument
    rw [List.mem_singleton.mp hstatement] at hsid
    cases hsid
    decide
  obtain ⟨hstatements, -, -, hwithout, -⟩ :=
    managed_statements_surgical (.readOnly "photos" true) hunmanaged
  exact ⟨hstatements, hwithout⟩

end Migration
end BucketReef
