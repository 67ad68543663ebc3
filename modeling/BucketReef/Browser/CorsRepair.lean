import BucketReef.Browser.BucketCors
import Mathlib

/-!
# What the CORS repair keeps and gives

A complete rule has everything the browser manages. The repair makes the first matching rule complete
or adds a complete one, a complete rule is enabled and is not repaired again, and what the rule allowed
stays allowed, except that a wildcard for request headers gives way to the managed headers.
-/

namespace BucketReef
namespace BucketCors

open Text

@[simp] theorem upper_upper (s : String) : upper (upper s) = upper s := by
  simp [upper, Function.comp_def]

/-- A rule for the origin that has everything the repair puts into one. -/
structure Complete (rule : CorsRule) (origin : String) : Prop where
  origin : matchesOrigin rule origin = true
  methods : ∀ method ∈ managedMethods, method ∈ (values rule.allowedMethods).map upper
  headers : ∀ header ∈ managedHeaders, header ∈ values rule.allowedHeaders
  listed : "*" ∉ values rule.allowedHeaders
  exposed : ∀ header ∈ managedExposeHeaders, header ∈ values rule.exposeHeaders
  maxAge : rule.maxAgeSeconds.isSome

/-- What a rule allows and exposes is kept by another; request headers only where they are listed, as a
wildcard becomes the managed headers. -/
structure Keeps (rule rule' : CorsRule) : Prop where
  id : rule'.id = rule.id
  origins : ∀ origin, originAllowed rule origin = true → originAllowed rule' origin = true
  methods : ∀ method, methodAllowed rule method = true → methodAllowed rule' method = true
  headers : "*" ∉ values rule.allowedHeaders →
    ∀ header, requestHeaderAllowed rule header = true → requestHeaderAllowed rule' header = true
  wildcard : "*" ∈ values rule.allowedHeaders → rule'.allowedHeaders = some managedHeaders
  exposed : ∀ header, headerExposed rule header = true → headerExposed rule' header = true
  maxAge : rule.maxAgeSeconds.isSome → rule'.maxAgeSeconds = rule.maxAgeSeconds

/-! ## Complete rules -/

theorem Complete.enabled {rule : CorsRule} {origin : String} (h : Complete rule origin) :
    ruleEnabled rule origin = true := by
  have hmethods : ∀ method ∈ requiredMethods, method ∈ (values rule.allowedMethods).map upper := by
    intro method hmethod
    refine h.methods method ?_
    revert method
    decide
  have hheaders : headerAllowed (values rule.allowedHeaders) "content-type" = true :=
    List.any_eq_true.mpr ⟨"Content-Type", h.headers _ (by decide), by decide⟩
  have hexposed : "etag" ∈ (values rule.exposeHeaders).map fun header => lower (strip header) :=
    List.mem_map.mpr ⟨"ETag", h.exposed _ (by decide), by decide⟩
  unfold ruleEnabled
  simp only [Bool.and_eq_true, Bool.or_eq_true, List.all_eq_true, List.contains_iff_mem]
  exact ⟨⟨⟨h.origin, hmethods⟩, hheaders⟩, .inr hexposed⟩

theorem newRule_complete (origin : String) : Complete (newRule origin) origin where
  origin := by simp [matchesOrigin, newRule, values]
  methods := by
    show ∀ method ∈ managedMethods, method ∈ managedMethods.map upper
    decide
  headers := fun _ h => h
  listed := by
    show "*" ∉ managedHeaders
    decide
  exposed := fun _ h => h
  maxAge := rfl

/-- A rule that matches already names the origin or the wildcard. -/
theorem repairOrigins_of_matches {rule : CorsRule} {origin : String}
    (h : matchesOrigin rule origin = true) : repairOrigins rule origin = none := by
  unfold matchesOrigin at h
  unfold repairOrigins
  rcases Bool.or_eq_true_iff.mp h with h | h <;> simp only [h, Bool.not_true, Bool.and_false,
    Bool.false_and, Bool.false_eq_true, if_false]

/-- A complete rule is left as it is. -/
theorem Complete.repairRule_eq {sets : SetOrder} {rule : CorsRule} {origin : String}
    (h : Complete rule origin) : repairRule sets rule origin = (rule, false) := by
  have horigins := repairOrigins_of_matches h.origin
  have hmethods : repairMethods rule = none := by
    have hall : managedMethods.all (orderedUnique ((values rule.allowedMethods).map upper)).contains
        = true := by
      rw [List.all_eq_true]
      intro method hmethod
      rw [List.contains_iff_mem, mem_orderedUnique]
      exact h.methods method hmethod
    simp [repairMethods, hall]
  have hheaders : repairHeaders sets rule = none := by
    have hall : managedHeaders.all (values rule.allowedHeaders).contains = true := by
      rw [List.all_eq_true]
      exact fun header hheader => List.contains_iff_mem.mpr (h.headers header hheader)
    have hne : (values rule.allowedHeaders).isEmpty = false := by
      have hmem := h.headers "Content-Type" (by decide)
      cases hvalues : values rule.allowedHeaders with
      | nil => rw [hvalues] at hmem; simp at hmem
      | cons _ _ => rfl
    have hstar : (values rule.allowedHeaders).contains "*" = false := by
      simpa using h.listed
    unfold repairHeaders
    dsimp only
    rw [hne, hstar, hall]
    rfl
  have hexpose : repairExposeHeaders sets rule = none := by
    have hall : managedExposeHeaders.all (values rule.exposeHeaders).contains = true := by
      rw [List.all_eq_true]
      exact fun header hheader => List.contains_iff_mem.mpr (h.exposed header hheader)
    simp [repairExposeHeaders, hall]
  have hmaxAge : repairMaxAge rule = none := by
    have hsome := h.maxAge
    rw [Option.isSome_iff_exists] at hsome
    obtain ⟨age, hage⟩ := hsome
    simp [repairMaxAge, hage]
  unfold repairRule
  rw [horigins, hmethods, hheaders, hexpose, hmaxAge]
  rfl

/-- A complete rule serves each required method with a content type, and exposes the entity tag. -/
theorem Complete.serves {rule : CorsRule} {origin method : String} (h : Complete rule origin)
    (hmethod : method ∈ requiredMethods) :
    originAllowed rule origin = true ∧ methodAllowed rule method = true ∧
      requestHeaderAllowed rule "content-type" = true ∧ headerExposed rule "etag" = true := by
  refine ⟨?_, ?_, ?_, ?_⟩
  · have hmatch := h.origin
    simp only [matchesOrigin, Bool.or_eq_true, List.contains_iff_mem] at hmatch
    rcases hmatch with hmatch | hmatch
    · exact List.any_eq_true.mpr ⟨"*", hmatch, wildcardMatch_star origin⟩
    · exact List.any_eq_true.mpr ⟨origin, hmatch, wildcardMatch_self origin⟩
  · have hmanaged : method ∈ managedMethods := by
      revert method
      decide
    obtain ⟨entry, hentry, rfl⟩ := List.mem_map.mp (h.methods method hmanaged)
    exact List.any_eq_true.mpr ⟨entry, hentry, by simp⟩
  · exact List.any_eq_true.mpr ⟨"Content-Type", h.headers _ (by decide), by decide⟩
  · exact List.any_eq_true.mpr ⟨"ETag", h.exposed _ (by decide), by decide⟩

/-! ## The repair of one rule -/

@[simp] theorem values_some (list : List String) : values (some list) = list := rfl

theorem repairRule_complete {sets : SetOrder} {rule : CorsRule} {origin : String}
    (h : matchesOrigin rule origin = true) : Complete (repairRule sets rule origin).1 origin where
  origin := by
    unfold repairRule
    rw [repairOrigins_of_matches h]
    simpa [matchesOrigin] using h
  methods := by
    intro method hmethod
    unfold repairRule repairMethods
    dsimp only
    split
    · rw [Option.some_or, values_some]
      have hupper : upper method = method := by
        revert method
        decide
      exact List.mem_map.mpr ⟨method, by simp [hmethod], hupper⟩
    · next hall =>
      simp only [Bool.not_eq_true', Bool.not_eq_false, List.all_eq_true, List.contains_iff_mem,
        mem_orderedUnique] at hall
      simpa using hall method hmethod
  headers := by
    intro header hheader
    unfold repairRule repairHeaders
    dsimp only
    split
    · simpa using hheader
    · split
      · simp [hheader]
      · next hall =>
        simp only [Bool.not_eq_true', Bool.not_eq_false, List.all_eq_true,
          List.contains_iff_mem] at hall
        simpa using hall header hheader
  listed := by
    unfold repairRule repairHeaders
    dsimp only
    split
    · show "*" ∉ managedHeaders
      decide
    · next hlisted =>
      simp only [Bool.or_eq_true, List.contains_iff_mem, not_or] at hlisted
      split
      · simp only [Option.some_or, values_some, mem_orderedUnique, List.mem_append, sets.mem_list, not_or]
        exact ⟨hlisted.2, by decide⟩
      · simpa using hlisted.2
  exposed := by
    intro header hheader
    unfold repairRule repairExposeHeaders
    dsimp only
    split
    · simp [hheader]
    · next hall =>
      simp only [Bool.not_eq_true', Bool.not_eq_false, List.all_eq_true,
        List.contains_iff_mem] at hall
      simpa using hall header hheader
  maxAge := by
    unfold repairRule repairMaxAge
    cases rule.maxAgeSeconds <;> rfl

theorem repairRule_keeps (sets : SetOrder) (rule : CorsRule) (origin : String) :
    Keeps rule (repairRule sets rule origin).1 where
  id := rfl
  origins := by
    intro other
    refine any_of_subset fun entry hentry => ?_
    unfold repairRule repairOrigins
    dsimp only
    split <;> simp [hentry]
  methods := by
    intro method h
    obtain ⟨entry, hentry, hupper⟩ := List.any_eq_true.mp h
    unfold repairRule repairMethods
    dsimp only
    split
    · refine List.any_eq_true.mpr ⟨upper entry, ?_, by simpa using hupper⟩
      simp only [Option.some_or, values_some, mem_orderedUnique, List.mem_append]
      exact .inl (List.mem_map_of_mem hentry)
    · exact List.any_eq_true.mpr ⟨entry, by simpa using hentry, hupper⟩
  headers := by
    intro hlisted header
    refine any_of_subset fun entry hentry => ?_
    have hempty : (values rule.allowedHeaders).isEmpty = false := by
      cases hvalues : values rule.allowedHeaders with
      | nil => rw [hvalues] at hentry; simp at hentry
      | cons _ _ => rfl
    have hstar : (values rule.allowedHeaders).contains "*" = false := by simpa using hlisted
    unfold repairRule repairHeaders
    dsimp only
    rw [hempty, hstar, if_neg (by decide)]
    split <;> simp [hentry, sets.mem_list]
  wildcard := by
    intro hlisted
    unfold repairRule repairHeaders
    dsimp only
    rw [if_pos (by simp [hlisted]), Option.some_or]
  exposed := by
    intro header
    refine any_of_subset fun entry hentry => ?_
    unfold repairRule repairExposeHeaders
    dsimp only
    split <;> simp [hentry, sets.mem_list]
  maxAge := by
    intro hsome
    unfold repairRule repairMaxAge
    cases hage : rule.maxAgeSeconds with
    | none => rw [hage] at hsome; cases hsome
    | some age => rfl

/-! ## The repair of a rule list -/

/-- The repaired rule stands where the first matching one stood; without one a new rule is last. -/
inductive RepairedAt (sets : SetOrder) (origin : String) : List CorsRule → List CorsRule → Prop
  | repaired (pre : List CorsRule) (rule : CorsRule) (post : List CorsRule)
      (hpre : ∀ r ∈ pre, matchesOrigin r origin = false) (hrule : matchesOrigin rule origin = true) :
      RepairedAt sets origin (pre ++ rule :: post) (pre ++ (repairRule sets rule origin).1 :: post)
  | added (rules : List CorsRule) (h : ∀ r ∈ rules, matchesOrigin r origin = false) :
      RepairedAt sets origin rules (rules ++ [newRule origin])

theorem repairRules_spec (sets : SetOrder) (origin : String) (rules : List CorsRule) :
    RepairedAt sets origin rules (repairRules sets origin rules).1 := by
  induction rules with
  | nil => exact .added [] (by simp)
  | cons rule rest ih =>
    unfold repairRules
    by_cases hmatch : matchesOrigin rule origin = true
    · rw [if_pos hmatch]
      exact .repaired [] rule rest (by simp) hmatch
    · rw [if_neg hmatch]
      have hfalse : matchesOrigin rule origin = false := by simpa using hmatch
      dsimp only
      generalize (repairRules sets origin rest).1 = rest' at ih
      cases ih with
      | repaired pre found post hpre hfound =>
        exact .repaired (rule :: pre) found post (by simpa [hfalse] using hpre) hfound
      | added _ h => exact .added (rule :: rest) (by simpa [hfalse] using h)

/-- The first matching rule afterwards is complete. -/
theorem RepairedAt.complete {sets : SetOrder} {origin : String} {before after : List CorsRule}
    (h : RepairedAt sets origin before after) :
    ∃ pre rule post, after = pre ++ rule :: post ∧ (∀ r ∈ pre, matchesOrigin r origin = false) ∧
      Complete rule origin ∧ pre = before.takeWhile fun r => !matchesOrigin r origin := by
  cases h with
  | repaired pre rule post hpre hrule =>
    refine ⟨pre, _, post, rfl, hpre, repairRule_complete hrule, ?_⟩
    rw [List.takeWhile_append_of_pos (by simpa using hpre), List.takeWhile_cons_of_neg (by simp [hrule]),
      List.append_nil]
  | added =>
    next hnone =>
    refine ⟨before, newRule origin, [], rfl, hnone, newRule_complete origin, ?_⟩
    exact (List.takeWhile_eq_self_iff.mpr (by simpa using hnone)).symm

/-- Rules whose first matching one is complete are not repaired. -/
theorem repairRules_complete (sets : SetOrder) {origin : String} {rule : CorsRule}
    (post : List CorsRule) (hrule : Complete rule origin) :
    ∀ (pre : List CorsRule), (∀ r ∈ pre, matchesOrigin r origin = false) →
      repairRules sets origin (pre ++ rule :: post) = (pre ++ rule :: post, false)
  | [], _ => by
    simp [repairRules, hrule.origin, hrule.repairRule_eq]
  | other :: pre, h => by
    have hother : matchesOrigin other origin = false := h other (by simp)
    have ih := repairRules_complete sets post hrule pre fun r hr => h r (by simp [hr])
    simp [repairRules, hother, ih]

/-- The storage service applies the complete rule when no rule before it matches the origin. -/
theorem transfersEnabled_of_complete {origin : String} {rule : CorsRule} {pre post : List CorsRule}
    (hrule : Complete rule origin) (hpre : ∀ r ∈ pre, originAllowed r origin = false) :
    TransfersEnabled (pre ++ rule :: post) origin := by
  intro method hmethod
  obtain ⟨horigin, hallowed, hheader, hexposed⟩ := hrule.serves hmethod
  refine ⟨rule, ?_, hexposed⟩
  unfold evaluate
  rw [List.find?_append, List.find?_eq_none.mpr (by simpa using fun r hr => by simp [hpre r hr])]
  simp [horigin, hallowed, hheader]

/-! ## A call -/

/-- A call that succeeds leaves the repaired rules; it writes only when they changed. -/
theorem ensureBucketCors_ok {sets : SetOrder} {bucket bucket' : Bucket} {failures : Failures}
    {origin : String} {status : Status}
    (h : ensureBucketCors sets bucket failures origin = .ok (bucket', status)) :
    origin ≠ "" ∧ status = getBucketCorsStatus bucket' failures.status (some origin) ∧
      ((repairRules sets origin bucket.rules).2 = false ∧ bucket' = bucket ∨
        (repairRules sets origin bucket.rules).2 = true ∧
          bucket' = { bucket with
            cors := some (repairRules sets origin bucket.rules).1, puts := bucket.puts + 1 }) := by
  unfold ensureBucketCors at h
  by_cases horigin : origin = ""
  · simp [horigin, throw, throwThe, MonadExceptOf.throw, bind, Except.bind] at h
  · cases hfetch : failures.fetch with
    | some detail =>
      simp [horigin, hfetch, throw, throwThe, MonadExceptOf.throw, bind, Except.bind] at h
    | none =>
      cases hchanged : (repairRules sets origin bucket.rules).2 with
      | false =>
        simp [horigin, hfetch, hchanged, pure, Except.pure] at h
        obtain ⟨rfl, rfl⟩ := h
        exact ⟨horigin, rfl, .inl ⟨rfl, rfl⟩⟩
      | true =>
        cases hupdate : failures.update with
        | some detail =>
          simp [horigin, hfetch, hchanged, hupdate, throw, throwThe, MonadExceptOf.throw, bind,
            Except.bind] at h
        | none =>
          simp [horigin, hfetch, hchanged, hupdate, pure, Except.pure] at h
          obtain ⟨rfl, rfl⟩ := h
          exact ⟨horigin, rfl, .inr ⟨rfl, rfl⟩⟩

/-- Rules that are not repaired come back as they were. -/
theorem repairRules_unchanged {sets : SetOrder} {origin : String} :
    ∀ {rules : List CorsRule}, (repairRules sets origin rules).2 = false →
      (repairRules sets origin rules).1 = rules
  | [], h => by cases h
  | rule :: rest, h => by
    unfold repairRules at h ⊢
    split at h
    · next hmatch =>
      rw [if_pos hmatch]
      have hnone : repairOrigins rule origin = none ∧ repairMethods rule = none ∧
          repairHeaders sets rule = none ∧ repairExposeHeaders sets rule = none ∧
          repairMaxAge rule = none := by
        simpa [repairRule, and_assoc] using h
      obtain ⟨horigins, hmethods, hheaders, hexpose, hmaxAge⟩ := hnone
      unfold repairRule
      rw [horigins, hmethods, hheaders, hexpose, hmaxAge]
      rfl
    · next hmatch =>
      rw [if_neg hmatch]
      exact congrArg (rule :: ·) (repairRules_unchanged h)

theorem ensureBucketCors_rules {sets : SetOrder} {bucket bucket' : Bucket} {failures : Failures}
    {origin : String} {status : Status}
    (h : ensureBucketCors sets bucket failures origin = .ok (bucket', status)) :
    bucket'.rules = (repairRules sets origin bucket.rules).1 := by
  obtain ⟨-, -, ⟨hsame, rfl⟩ | ⟨-, rfl⟩⟩ := ensureBucketCors_ok h
  · exact (repairRules_unchanged hsame).symm
  · rfl

/-- After a call that succeeds the origin is enabled, by the first rule that names it and, when no
earlier rule matches it through a pattern, by the storage service; the other rules stand where they
were; a second call writes nothing; and the repaired rule keeps what it allowed, except that a wildcard
for request headers becomes the managed headers. -/
theorem ensure_bucket_cors_repairs {sets : SetOrder} {bucket bucket' : Bucket} {failures : Failures}
    {origin : String} {status : Status}
    (h : ensureBucketCors sets bucket failures origin = .ok (bucket', status)) :
    (failures.status = none → status.enabled = true) ∧
      (∃ rule, bucket'.rules.find? (matchesOrigin · origin) = some rule ∧
        ruleEnabled rule origin = true) ∧
      ((∀ rule ∈ bucket.rules.takeWhile fun r => !matchesOrigin r origin,
          originAllowed rule origin = false) → TransfersEnabled bucket'.rules origin) ∧
      ((∃ pre rule rule' post, bucket.rules = pre ++ rule :: post ∧
          (∀ r ∈ pre, matchesOrigin r origin = false) ∧ matchesOrigin rule origin = true ∧
          bucket'.rules = pre ++ rule' :: post ∧ Keeps rule rule') ∨
        (∀ r ∈ bucket.rules, matchesOrigin r origin = false) ∧
          bucket'.rules = bucket.rules ++ [newRule origin]) ∧
      ∀ sets' failures' bucket'' status',
        ensureBucketCors sets' bucket' failures' origin = .ok (bucket'', status') → bucket'' = bucket' := by
  obtain ⟨horigin, hstatus, -⟩ := ensureBucketCors_ok h
  have hrules := ensureBucketCors_rules h
  have hrepaired := repairRules_spec sets origin bucket.rules
  rw [← hrules] at hrepaired
  obtain ⟨pre, rule, post, hafter, hpre, hcomplete, htaken⟩ := hrepaired.complete
  refine ⟨?_, ⟨rule, ?_, hcomplete.enabled⟩, ?_, ?_, ?_⟩
  · intro hfailure
    cases hcors : bucket'.cors with
    | none => simp [Bucket.rules, hcors] at hafter
    | some rules =>
      have heq : rules = pre ++ rule :: post := by simpa [Bucket.rules, hcors] using hafter
      rw [hstatus, hfailure]
      simp only [getBucketCorsStatus, hcors, if_neg horigin]
      exact List.any_eq_true.mpr ⟨rule, by simp [heq], hcomplete.enabled⟩
  · rw [hafter, List.find?_append, List.find?_eq_none.mpr (by simpa using hpre)]
    simp [hcomplete.origin]
  · intro hpatterns
    rw [hafter]
    exact transfersEnabled_of_complete hcomplete (htaken ▸ hpatterns)
  · generalize hbefore : bucket.rules = before at hrepaired ⊢
    generalize bucket'.rules = after at hrepaired ⊢
    cases hrepaired with
    | repaired pre rule post hpre hrule =>
      exact .inl ⟨pre, rule, _, post, rfl, hpre, hrule, rfl, repairRule_keeps sets rule origin⟩
    | added _ hnone => exact .inr ⟨hnone, rfl⟩
  · intro sets' failures' bucket'' status' hagain
    obtain ⟨-, -, ⟨-, hsame⟩ | ⟨hchanged, -⟩⟩ := ensureBucketCors_ok hagain
    · exact hsame
    · rw [hafter, repairRules_complete _ _ hcomplete _ hpre] at hchanged
      cases hchanged

/-- Sets enumerated in the order of their first occurrences. -/
def insertionOrder : SetOrder where
  list := orderedUnique
  mem_list _ _ := mem_orderedUnique

/-- One rule for every origin and every request header. -/
def openBucket : Bucket where
  name := "b"
  cors := some [
    { allowedOrigins := some ["*"]
      allowedMethods := some ["GET", "PUT", "POST", "DELETE", "HEAD"]
      allowedHeaders := some ["*"]
      exposeHeaders := some ["ETag", "x-amz-request-id", "x-amz-id-2"]
      maxAgeSeconds := some 3000 }]

/-- The call on that bucket succeeds, and the origin is enabled by the first rule. -/
theorem ensure_bucket_cors_repairs_open :
    ∃ bucket' status,
      ensureBucketCors insertionOrder openBucket {} "https://ui.example" = .ok (bucket', status) ∧
        ∃ rule, bucket'.rules.find? (matchesOrigin · "https://ui.example") = some rule ∧
          ruleEnabled rule "https://ui.example" = true := by
  obtain ⟨bucket', status, h⟩ : ∃ bucket' status,
      ensureBucketCors insertionOrder openBucket {} "https://ui.example" = .ok (bucket', status) :=
    ⟨_, _, rfl⟩
  exact ⟨bucket', status, h, (ensure_bucket_cors_repairs h).2.1⟩

/-- A rule that let every request header through does not let `Authorization` through afterwards. -/
theorem wildcard_headers_narrowed :
    ¬ ∀ (sets : SetOrder) (bucket bucket' : Bucket) (failures : Failures) (origin : String)
      (status : Status) (rule rule' : CorsRule) (header : String),
      ensureBucketCors sets bucket failures origin = .ok (bucket', status) →
      bucket.rules.find? (matchesOrigin · origin) = some rule →
      bucket'.rules.find? (matchesOrigin · origin) = some rule' →
      requestHeaderAllowed rule header = true → requestHeaderAllowed rule' header = true := by
  intro hkept
  have hlost := hkept insertionOrder openBucket _ {} "https://ui.example" _ _ _ "Authorization" rfl rfl rfl
    (by decide)
  revert hlost
  decide

end BucketCors
end BucketReef
