import BucketReef.Portal.AccessKeys

/-!
# Personal keys survive

A personal key is deleted when `_ensure_active_key` lists it. In a run where that never happens, every
personal key stays active until its user deletes or disables it, or loses its role.
-/

namespace BucketReef
namespace PortalKeys

open Effects

def World.hasNoPersonalKey (w : World) : Bool := (List.range w.nextKey).all fun k => !w.personal k

/-- `_ensure_active_key` does not list a personal key. -/
def Op.sparing : Op → World → Session → Bool
  | .listRuntimeKeys, w, _ => w.hasNoPersonalKey
  | _, _, _ => true

/-! ## The rules -/

/-- Only a new key becomes a personal one. -/
structure Relies (w w' : World) : Prop where
  nextKey : w.nextKey ≤ w'.nextKey
  personal : ∀ k, k < w.nextKey → w.personal k = false → w'.personal k = false

/-- Every personal key is there, and active. -/
structure Intact (w : World) : Prop where
  active : ∀ k, w.personal k = true → w.keys k = some .active
  unused : ∀ k, w.nextKey ≤ k → w.keys k = none

theorem Relies.refl (w : World) : Relies w w := ⟨Nat.le_refl _, fun _ _ h => h⟩

theorem Relies.trans {w₁ w₂ w₃ : World} (h : Relies w₁ w₂) (h' : Relies w₂ w₃) : Relies w₁ w₃ :=
  ⟨Nat.le_trans h.nextKey h'.nextKey, fun k hk hpersonal =>
    h'.personal k (Nat.lt_of_lt_of_le hk h.nextKey) (h.personal k hk hpersonal)⟩

def rules : Rules Op World Session where
  rely := Relies
  inv := Intact
  allowed op w s := op.sparing w s = true
  require
    | .deleteAccessKey false k, w, _ | .updateAccessKeyStatus false k _, w, _ => w.personal k = false
    | _, _, _ => True
  rely_refl := Relies.refl
  rely_trans := Relies.trans

/-! ## What the operations on keys change -/

theorem relies_released (w : World) (k : ℕ) : Relies w (w.released k) := by
  refine ⟨Nat.le_refl _, fun k' _ h => ?_⟩
  by_cases heq : k' = k
  · rw [heq, World.released_personal, Function.update_self]
  · rw [World.released_personal, Function.update_of_ne heq]
    exact h

theorem relies_keyCreated (w : World) (isPersonal : Bool) : Relies w (w.keyCreated isPersonal) := by
  refine ⟨Nat.le_succ _, fun k hk h => ?_⟩
  cases isPersonal with
  | false => exact h
  | true =>
    show Function.update w.personal w.nextKey true k = false
    rw [Function.update_of_ne (Nat.ne_of_lt hk)]
    exact h

/-- A key that is not personal may change in any way. -/
theorem Intact.setKey {w : World} (h : Intact w) {k : ℕ} {status : Option KeyStatus}
    (hk : w.personal k = true → status = some .active) (hused : status.isSome = true → k < w.nextKey) :
    Intact (w.setKey k status) := by
  refine ⟨fun k' hpersonal => ?_, fun k' hunused => ?_⟩
  · by_cases heq : k' = k
    · subst heq
      rw [World.setKey_keys, Function.update_self]
      exact hk hpersonal
    · rw [World.setKey_keys, Function.update_of_ne heq]
      exact h.active k' hpersonal
  · by_cases heq : k' = k
    · subst heq
      rw [World.setKey_keys, Function.update_self]
      cases status with
      | none => rfl
      | some status => exact absurd (hused rfl) (Nat.not_lt_of_le hunused)
    · rw [World.setKey_keys, Function.update_of_ne heq]
      exact h.unused k' hunused

/-- A released key may change in any way. -/
theorem Intact.setKey_released {w : World} (h : Intact w) {k : ℕ} {status : Option KeyStatus}
    (hused : status.isSome = true → k < w.nextKey) : Intact ((w.setKey k status).released k) := by
  have hreleased : Intact (w.released k) := by
    refine ⟨fun k' hpersonal => h.active k' ?_, h.unused⟩
    by_cases heq : k' = k
    · subst heq
      rw [World.released_personal, Function.update_self] at hpersonal
      cases hpersonal
    · rw [World.released_personal, Function.update_of_ne heq] at hpersonal
      exact hpersonal
  refine hreleased.setKey (fun hpersonal => ?_) hused
  rw [World.released_personal, Function.update_self] at hpersonal
  cases hpersonal

theorem Intact.keyCreated {w : World} (h : Intact w) (isPersonal : Bool) :
    Intact (w.keyCreated isPersonal) := by
  have hnew : w.personal w.nextKey = false := by
    cases hpersonal : w.personal w.nextKey with
    | false => rfl
    | true =>
      have hactive := h.active _ hpersonal
      rw [h.unused _ (Nat.le_refl _)] at hactive
      cases hactive
  refine ⟨fun k hpersonal => ?_, fun k hk => ?_⟩
  · show Function.update w.keys w.nextKey (some .active) k = some .active
    by_cases heq : k = w.nextKey
    · rw [heq, Function.update_self]
    · rw [Function.update_of_ne heq]
      refine h.active k ?_
      cases isPersonal with
      | false => exact hpersonal
      | true => exact (Function.update_of_ne heq true w.personal) ▸ hpersonal
  · have hlt : w.nextKey < k := hk
    show Function.update w.keys w.nextKey (some .active) k = none
    rw [Function.update_of_ne (Nat.ne_of_gt hlt)]
    exact h.unused k (Nat.le_of_lt hlt)

/-- What holds of the world after an operation that may fail before or after its effect. -/
theorem faulty_world {α : Type} {P : World → Prop} {w after : World} (hw : P w) (hafter : P after)
    (fault : Fault) (s : Session) (a : α) : P (faulty fault w after s a).1 := by
  cases fault with
  | none => exact hafter
  | before => exact hw
  | after => exact hafter

theorem relies_exec (op : Op) (fault : Fault) (w : World) (s : Session) :
    Relies w (exec op fault w s).1 := by
  have hrefl := Relies.refl w
  have hsame {w' : World} (hnext : w'.nextKey = w.nextKey) (hpersonal : w'.personal = w.personal) :
      Relies w w' := ⟨Nat.le_of_eq hnext.symm, fun k _ h => by rw [hpersonal]; exact h⟩
  cases op with
  | expectedUsername | setLink | insertLink | setRevocation | rollback => exact hrefl
  | settings | loadLink | loadRevocation | remote | getUser | listAccessKeys | listRuntimeKeys =>
    exact faulty_world hrefl hrefl fault s _
  | commit =>
    simp only [exec]
    split
    · exact hrefl
    · refine faulty_world hrefl ?_ fault _ ()
      exact hsame rfl rfl
  | createUser =>
    simp only [exec]
    split
    · exact hrefl
    · refine faulty_world hrefl ?_ fault s ()
      exact hsame rfl rfl
  | deleteUser =>
    simp only [exec]
    split
    · refine faulty_world hrefl ?_ fault s ()
      exact hsame rfl rfl
    · exact hrefl
  | createAccessKey =>
    simp only [exec]
    split
    · exact faulty_world hrefl (relies_keyCreated w _) fault s _
    · exact hrefl
  | deleteAccessKey released k =>
    simp only [exec]
    refine faulty_world hrefl ?_ fault s ()
    split
    · refine Relies.trans ?_ (relies_released (w.setKey k none) k)
      exact hsame rfl rfl
    · exact hsame rfl rfl
  | updateAccessKeyStatus released k status =>
    simp only [exec]
    split
    · exact hrefl
    · refine faulty_world hrefl ?_ fault s ()
      split
      · refine Relies.trans ?_ (relies_released (w.setKey k (some status)) k)
        exact hsame rfl rfl
      · exact hsame rfl rfl

theorem lt_of_keys {w : World} (h : Intact w) {k : ℕ} {status : KeyStatus}
    (hk : w.keys k = some status) : k < w.nextKey := by
  by_contra hge
  rw [h.unused k (Nat.le_of_not_lt hge)] at hk
  cases hk

/-- An operation keeps every personal key, if it is not a cleanup of one. -/
theorem intact_exec {op : Op} {w : World} {s : Session} (h : Intact w)
    (hrequire : rules.require op w s) (fault : Fault) : Intact (exec op fault w s).1 := by
  have hsame {w' : World} (hkeys : w'.keys = w.keys) (hnext : w'.nextKey = w.nextKey)
      (hpersonal : w'.personal = w.personal) : Intact w' :=
    ⟨by rw [hkeys, hpersonal]; exact h.active, by rw [hkeys, hnext]; exact h.unused⟩
  cases op with
  | expectedUsername | setLink | insertLink | setRevocation | rollback => exact h
  | settings | loadLink | loadRevocation | remote | getUser | listAccessKeys | listRuntimeKeys =>
    exact faulty_world h h fault s _
  | commit =>
    simp only [exec]
    split
    · exact h
    · refine faulty_world h ?_ fault _ ()
      exact hsame rfl rfl rfl
  | createUser =>
    simp only [exec]
    split
    · exact h
    · refine faulty_world h ?_ fault s ()
      exact hsame rfl rfl rfl
  | deleteUser =>
    simp only [exec]
    split
    · refine faulty_world h ?_ fault s ()
      exact hsame rfl rfl rfl
    · exact h
  | createAccessKey =>
    simp only [exec]
    split
    · exact faulty_world h (h.keyCreated _) fault s _
    · exact h
  | deleteAccessKey released k =>
    simp only [exec]
    refine faulty_world h ?_ fault s ()
    cases released with
    | true => exact h.setKey_released nofun
    | false =>
      have hk : w.personal k = false := hrequire
      refine h.setKey (fun hpersonal => ?_) nofun
      rw [hk] at hpersonal
      cases hpersonal
  | updateAccessKeyStatus released k status =>
    simp only [exec]
    split
    · exact h
    · rename_i previous hk
      have hlt := lt_of_keys h hk
      refine faulty_world h ?_ fault s ()
      split
      · exact h.setKey_released fun _ => hlt
      · rename_i hkept
        refine h.setKey (fun hpersonal => ?_) fun _ => hlt
        cases released with
        | true =>
          cases status with
          | active => rfl
          | inactive => exact absurd ⟨rfl, rfl⟩ hkept
        | false =>
          have hnot : w.personal k = false := hrequire
          rw [hnot] at hpersonal
          cases hpersonal

/-! ## Programs -/

/-- The keys exist or existed, and none of them is personal. -/
def Untracked (ks : List ℕ) (w : World) (_ : Session) : Prop :=
  ∀ k ∈ ks, k < w.nextKey ∧ w.personal k = false

theorem Untracked.stable {ks : List ℕ} : Stable rules (Untracked ks) :=
  fun _ _ _ h hrely _ k hk =>
    ⟨Nat.lt_of_lt_of_le (h k hk).1 hrely.nextKey, hrely.personal k (h k hk).1 (h k hk).2⟩

theorem Untracked.mono {ks ks' : List ℕ} (hsub : ks' ⊆ ks) {w : World} {s : Session}
    (h : Untracked ks w s) : Untracked ks' w s := fun k hk => h k (hsub hk)

/-- An operation whose requirement holds. -/
theorem step_of_require {op : Op} {ks : List ℕ} {w : World} {s : Session} (h : Untracked ks w s)
    (hinv : Intact w) (hrequire : rules.require op w s) :
    Step system.toMachine rules op (fun _ => Untracked ks) w s :=
  ⟨hrequire, fun _ fault => ⟨intact_exec hinv hrequire fault,
    Untracked.stable w _ _ h (relies_exec op fault w s) (intact_exec hinv hrequire fault)⟩⟩

/-- The operation is none of the Portal's own writes to a key. -/
def Op.harmless : Op → Bool
  | .deleteAccessKey false _ | .updateAccessKeyStatus false _ _ => false
  | _ => true

theorem require_of_harmless {op : Op} (h : op.harmless = true) (w : World) (s : Session) :
    rules.require op w s := by
  cases op with
  | deleteAccessKey released k =>
    cases released with
    | true => trivial
    | false => cases h
  | updateAccessKeyStatus released k status =>
    cases released with
    | true => trivial
    | false => cases h
  | _ => trivial

/-- The program turns no key into a personal one that was there before. -/
def Sparing (α : Type) (p : Service α) : Prop :=
  ∀ ks, Keeps system.toMachine rules (Untracked ks) α p

theorem sparing_composes : Prog.Composes (fun α p => Sparing α p) where
  pure a ks := (keeps_composes _).pure a
  raise e ks := (keeps_composes _).raise e
  bind hp hf ks := (keeps_composes _).bind (hp ks) fun a => hf a ks
  tryCatch hp hhandler ks := (keeps_composes _).tryCatch (hp ks) fun e => hhandler e ks

theorem sparing_perform {op : Op} (h : op.harmless = true) :
    Sparing _ (Prog.perform op : Service _) := fun _ =>
  keeps_perform Untracked.stable fun w s hA hinv =>
    step_of_require hA hinv (require_of_harmless h w s)

theorem sparing_attempted {op : Op} (h : op.harmless = true) : Sparing _ (attempted op) :=
  sparing_composes.tryCatch (sparing_composes.bind (sparing_perform h) fun _ => sparing_composes.pure ())
    fun _ => sparing_composes.pure ()

theorem sparing_raise {α : Type} (e : Error) : Sparing α (Prog.raise e) := sparing_composes.raise e

theorem sparing_commitOrRollback : Sparing _ commitOrRollback :=
  sparing_composes.tryCatch (sparing_perform rfl) fun e =>
    sparing_composes.bind (sparing_perform rfl) fun _ => sparing_raise e

/-- A cleanup of a key that is not personal. -/
theorem keeps_cleanup {ks : List ℕ} {k : ℕ} (hk : k ∈ ks) :
    Keeps system.toMachine rules (Untracked ks) _ (attempted (Op.deleteAccessKey false k)) := by
  have hperform : Keeps system.toMachine rules (Untracked ks) _
      (Prog.perform (Op.deleteAccessKey false k) : Service Unit) :=
    keeps_perform Untracked.stable fun w s hA hinv => step_of_require hA hinv (hA k hk).2
  exact (keeps_composes _).tryCatch
    ((keeps_composes _).bind hperform fun _ => (keeps_composes _).pure ())
    fun _ => (keeps_composes _).pure ()

/-- The program returns a key that is not personal. -/
def Creates (p : Service ℕ) : Prop :=
  ∀ ks w s, Untracked ks w s → wp system.toMachine rules p (fun k => Untracked (k :: ks))
    (fun _ => Untracked ks) w s

theorem creates_createAccessKey : Creates (Prog.perform (Op.createAccessKey false)) := by
  intro ks w s hA
  refine wp_perform hA Untracked.stable ?_
  intro w s hA hinv
  have hrequire : rules.require (.createAccessKey false) w s := trivial
  refine ⟨hrequire, fun _ fault => ⟨intact_exec hinv hrequire fault, ?_⟩⟩
  have hkept := Untracked.stable w _ s hA (relies_exec (.createAccessKey false) fault w s)
    (intact_exec hinv hrequire fault)
  have hnew : w.personal w.nextKey = false := by
    cases hpersonal : w.personal w.nextKey with
    | false => rfl
    | true =>
      have hlt := lt_of_keys hinv (hinv.active _ hpersonal)
      exact absurd hlt (Nat.lt_irrefl _)
  simp only [system, exec] at hkept ⊢
  split
  · rename_i huser
    rw [if_pos huser] at hkept
    cases fault with
    | none =>
      intro k hk
      rcases List.mem_cons.mp hk with rfl | hk
      · exact ⟨Nat.lt_succ_self _, hnew⟩
      · exact hkept k hk
    | before => exact hkept
    | after => exact hkept
  · exact hA

theorem creates_createUserWithKey : Creates createUserWithKey := by
  intro ks w s hA
  refine wp_bind (wp_mono (sparing_perform rfl ks w s hA) ?_ fun _ _ _ h => h)
  intro _ w s hA
  refine wp_tryCatch (wp_mono (creates_createAccessKey ks w s hA) (fun _ _ _ h => h) ?_)
  intro e w s hA
  refine wp_bind (wp_mono (sparing_attempted rfl ks w s hA) ?_ fun _ _ _ h => h)
  exact fun _ _ _ hA => hA

/-- What follows the creation of a key by the Portal may clean that key up. -/
theorem sparing_of_creates {α : Type} {q : Service ℕ} {p : ℕ → Service α} (hq : Creates q)
    (hp : ∀ k ks, k ∈ ks → Keeps system.toMachine rules (Untracked ks) α (p k)) :
    Sparing α (q >>= p) := by
  intro ks w s hA
  refine wp_bind (wp_mono (hq ks w s hA) ?_ fun _ _ _ h => h)
  intro k w s hA
  exact wp_mono (hp k (k :: ks) List.mem_cons_self w s hA)
    (fun _ _ _ hA => hA.mono (List.subset_cons_self ..))
    fun _ _ _ hA => hA.mono (List.subset_cons_self ..)

/-! ## The operations -/

theorem sparing_persistPortalKey (link : AccountIAMUser) (k : ℕ) :
    Sparing _ (persistPortalKey link k) :=
  sparing_composes.bind (sparing_perform rfl) fun _ =>
    sparing_composes.bind sparing_commitOrRollback fun _ => sparing_composes.pure _

theorem sparing_persistProvisionedPortalLink (existing : Bool) (link : AccountIAMUser) (k : ℕ) :
    Sparing _ (persistProvisionedPortalLink existing link k) := by
  refine sparing_composes.tryCatch (sparing_composes.bind ?_ fun _ =>
    sparing_composes.bind sparing_commitOrRollback fun _ => sparing_composes.pure _) ?_
  · cases existing with
    | false => exact sparing_perform rfl
    | true => exact sparing_perform rfl
  · intro e
    cases e with
    | integrity =>
      refine sparing_composes.bind (sparing_perform rfl) fun link => ?_
      cases link with
      | none => exact sparing_raise _
      | some concurrent =>
        dsimp only
        split
        · exact sparing_persistPortalKey concurrent k
        · exact sparing_composes.pure _
    | conflict | failure => exact sparing_raise _

theorem sparing_provisionLink (link : Option AccountIAMUser) : Sparing _ (provisionLink link) := by
  refine sparing_composes.bind (sparing_perform rfl) fun expected => ?_
  refine sparing_of_creates creates_createUserWithKey fun k ks hk => ?_
  refine (keeps_composes _).tryCatch (sparing_persistProvisionedPortalLink _ _ _ ks) fun e => ?_
  refine (keeps_composes _).bind (sparing_perform rfl ks) fun _ => ?_
  refine (keeps_composes _).bind (keeps_cleanup hk) fun _ => ?_
  exact (keeps_composes _).bind (sparing_attempted rfl ks) fun _ => sparing_raise e ks

theorem sparing_iamUserPresent (link : AccountIAMUser) : Sparing _ (iamUserPresent link) := by
  unfold iamUserPresent
  exact Prog.Composes.ite (sparing_perform rfl) (sparing_composes.pure _)

theorem sparing_ensurePortalUser : Sparing _ ensurePortalUser := by
  refine sparing_composes.bind (sparing_perform rfl) fun link => ?_
  refine sparing_composes.bind (sparing_perform rfl) fun expected => ?_
  refine sparing_composes.bind (sparing_perform rfl) fun pending => ?_
  refine sparing_composes.bind (sparing_composes.when fun _ => sparing_raise _) fun _ => ?_
  cases link with
  | none => exact sparing_provisionLink none
  | some link =>
    refine sparing_composes.bind (sparing_composes.when fun _ => sparing_raise _) fun _ => ?_
    refine sparing_composes.bind (sparing_iamUserPresent link) fun present => ?_
    split
    · exact sparing_composes.pure _
    · exact sparing_provisionLink _

theorem sparing_ensureSynchronizedUser : Sparing _ ensureSynchronizedUser :=
  sparing_composes.bind sparing_ensurePortalUser fun _ =>
    sparing_composes.bind (sparing_perform rfl) fun _ => sparing_composes.pure _

theorem keeps_deleteStalePortalKeys {ks : List ℕ} {keys : List (ℕ × KeyStatus)}
    (hkeys : ∀ key ∈ keys, key.1 ∈ ks) (preserve : ℕ) :
    Keeps system.toMachine rules (Untracked ks) _ (deleteStalePortalKeys keys preserve) := by
  refine (keeps_composes _).forEach fun key hkey => ?_
  split
  · exact (keeps_composes _).pure ()
  · exact keeps_cleanup (hkeys key hkey)

theorem keeps_activateReplacementPortalKey {ks : List ℕ} {keys : List (ℕ × KeyStatus)}
    (hkeys : ∀ key ∈ keys, key.1 ∈ ks) (link : AccountIAMUser) {k : ℕ} (hk : k ∈ ks) :
    Keeps system.toMachine rules (Untracked ks) _ (activateReplacementPortalKey link k keys) := by
  refine (keeps_composes _).bind ?_ fun _ => keeps_deleteStalePortalKeys hkeys k
  refine (keeps_composes _).tryCatch (sparing_persistPortalKey link k ks) fun e => ?_
  refine (keeps_composes _).bind (sparing_perform rfl ks) fun _ => ?_
  exact (keeps_composes _).bind (keeps_cleanup hk) fun _ => sparing_raise e ks

/-- A new runtime key, after which the keys listed before are deleted. -/
theorem keeps_replaceRuntimeKey {ks : List ℕ} {keys : List (ℕ × KeyStatus)}
    (hkeys : ∀ key ∈ keys, key.1 ∈ ks) (link : AccountIAMUser) :
    Keeps system.toMachine rules (Untracked ks) _
      (do
        let k ← Prog.perform (Op.createAccessKey false)
        activateReplacementPortalKey link k keys : Service Unit) := by
  intro w s hA
  refine wp_bind (wp_mono (creates_createAccessKey ks w s hA) ?_ fun _ _ _ h => h)
  intro k w s hA
  have hlisted : ∀ key ∈ keys, key.1 ∈ k :: ks := fun key hkey => List.mem_cons_of_mem k (hkeys key hkey)
  have hmore := keeps_activateReplacementPortalKey hlisted link List.mem_cons_self w s hA
  exact wp_mono hmore (fun _ _ _ hA => hA.mono (List.subset_cons_self ..))
    fun _ _ _ hA => hA.mono (List.subset_cons_self ..)

theorem keeps_keepRuntimeKey {ks : List ℕ} {keys : List (ℕ × KeyStatus)}
    (hkeys : ∀ key ∈ keys, key.1 ∈ ks) (link : AccountIAMUser) :
    Keeps system.toMachine rules (Untracked ks) _ (keepRuntimeKey link keys) := by
  unfold keepRuntimeKey
  split
  · split
    · exact keeps_deleteStalePortalKeys hkeys _
    · exact keeps_replaceRuntimeKey hkeys link
  · exact keeps_replaceRuntimeKey hkeys link

theorem listed_lt {w : World} {key : ℕ × KeyStatus} (h : key ∈ w.listed) : key.1 < w.nextKey := by
  obtain ⟨k, hk, hkey⟩ := List.mem_filterMap.mp h
  obtain ⟨status, -, rfl⟩ := Option.map_eq_some_iff.mp hkey
  exact List.mem_range.mp (List.mem_of_mem_filter hk)

/-- The keys `_ensure_active_key` lists are not personal, so it may delete them. -/
theorem sparing_ensureActiveKey (link : AccountIAMUser) : Sparing _ (ensureActiveKey link) := by
  refine sparing_composes.bind (sparing_composes.when fun _ => sparing_raise _) fun _ => ?_
  intro ks w s hA
  refine wp_bind (wp_perform hA Untracked.stable ?_)
  intro w s hA hinv
  refine ⟨trivial, fun hallowed fault => ?_⟩
  have hnone : ∀ key ∈ w.listed, key.1 < w.nextKey ∧ w.personal key.1 = false := by
    intro key hkey
    have hall : w.hasNoPersonalKey = true := hallowed
    have hlt := listed_lt hkey
    refine ⟨hlt, ?_⟩
    simpa using List.all_eq_true.mp hall key.1 (List.mem_range.mpr hlt)
  have hlisted : Untracked (w.listed.map Prod.fst ++ ks) w s := by
    intro k hk
    rcases List.mem_append.mp hk with hk | hk
    · obtain ⟨key, hkey, rfl⟩ := List.mem_map.mp hk
      exact hnone key hkey
    · exact hA k hk
  have hkeys : ∀ key ∈ w.listed, key.1 ∈ w.listed.map Prod.fst ++ ks := fun key hkey =>
    List.mem_append_left _ (List.mem_map_of_mem hkey)
  cases fault with
  | before => exact ⟨hinv, hA⟩
  | after => exact ⟨hinv, hA⟩
  | none =>
    exact ⟨hinv, wp_mono (keeps_keepRuntimeKey hkeys link w s hlisted)
      (fun _ _ _ hA => hA.mono (List.subset_append_right ..))
      fun _ _ _ hA => hA.mono (List.subset_append_right ..)⟩

theorem sparing_remote (call : String) : Sparing _ (Prog.perform (Op.remote call) : Service Unit) :=
  sparing_perform rfl

theorem sparing_createPersonalAccessKey : Sparing _ createPersonalAccessKey := by
  refine sparing_composes.bind (sparing_perform rfl) fun settings => ?_
  refine sparing_composes.bind (sparing_composes.when fun _ => sparing_raise _) fun _ => ?_
  refine sparing_composes.bind sparing_ensureSynchronizedUser fun link => ?_
  refine sparing_composes.bind (sparing_composes.when fun _ => sparing_raise _) fun _ => ?_
  refine sparing_composes.bind (sparing_perform rfl) fun keys => ?_
  refine sparing_composes.bind (sparing_composes.when fun _ => sparing_raise _) fun _ => ?_
  exact sparing_composes.bind (sparing_perform rfl) fun _ => sparing_composes.pure ()

theorem sparing_getPortalCredentials : Sparing _ getPortalCredentials :=
  sparing_composes.bind sparing_ensureSynchronizedUser fun link =>
    sparing_composes.bind (sparing_remote _) fun _ => sparing_ensureActiveKey link

theorem sparing_createBucket : Sparing _ createBucket := by
  refine sparing_composes.bind (sparing_remote _) fun _ => ?_
  refine sparing_composes.bind sparing_ensureSynchronizedUser fun link => ?_
  refine sparing_composes.bind (sparing_ensureActiveKey link) fun _ => ?_
  exact sparing_composes.bind (sparing_remote _) fun _ => sparing_remote _

theorem sparing_deleteBucket (useRoot : Bool) : Sparing _ (deleteBucket useRoot) := by
  refine sparing_composes.bind (sparing_composes.when fun _ => ?_) fun _ => sparing_remote _
  exact sparing_composes.bind sparing_ensureSynchronizedUser sparing_ensureActiveKey

theorem sparing_provisionPortalUser : Sparing _ provisionPortalUser := by
  refine sparing_composes.bind sparing_ensureSynchronizedUser fun link => ?_
  refine sparing_composes.bind (sparing_remote _) fun _ => ?_
  exact sparing_composes.bind (sparing_ensureActiveKey link) fun _ => sparing_remote _

/-- Register the Storage Space and commit, or roll back. -/
theorem sparing_register {handler : Error → Service Unit} (hhandler : ∀ e, Sparing _ (handler e)) :
    Sparing _ (Prog.tryCatch
      (do
        Prog.perform (Op.remote "_register_storage_space_metadata")
        Prog.perform Op.commit)
      handler) :=
  sparing_composes.tryCatch
    (sparing_composes.bind (sparing_remote _) fun _ => sparing_perform rfl) hhandler

theorem sparing_createStorageSpace : Sparing _ createStorageSpace := by
  refine sparing_composes.bind (sparing_remote _) fun _ => ?_
  refine sparing_composes.bind (sparing_composes.attempt sparing_createBucket) fun created => ?_
  cases created with
  | error e => exact sparing_composes.bind (sparing_perform rfl) fun _ => sparing_raise e
  | ok _ =>
    refine sparing_register fun e => ?_
    refine sparing_composes.bind (sparing_perform rfl) fun _ => ?_
    refine sparing_composes.bind ?_ fun _ => sparing_raise e
    exact sparing_composes.tryCatch (sparing_deleteBucket true) fun _ => sparing_composes.pure ()

theorem sparing_importStorageSpace : Sparing _ importStorageSpace := by
  refine sparing_composes.bind (sparing_remote _) fun _ => ?_
  refine sparing_composes.bind sparing_ensureSynchronizedUser fun link => ?_
  refine sparing_composes.bind (sparing_ensureActiveKey link) fun _ => ?_
  exact sparing_register fun e => sparing_composes.bind (sparing_perform rfl) fun _ => sparing_raise e

theorem sparing_ensureAccessKeyManagementAllowed : Sparing _ ensureAccessKeyManagementAllowed :=
  sparing_composes.bind (sparing_perform rfl) fun _ => sparing_composes.when fun _ => sparing_raise _

theorem sparing_updateAccessKeyStatus (k : ℕ) (active : Bool) :
    Sparing _ (updateAccessKeyStatus k active) := by
  refine sparing_composes.bind sparing_ensureAccessKeyManagementAllowed fun _ => ?_
  refine sparing_composes.bind sparing_ensureSynchronizedUser fun link => ?_
  refine sparing_composes.bind (sparing_composes.when fun _ => sparing_raise _) fun _ => ?_
  refine sparing_composes.bind (sparing_perform rfl) fun _ => ?_
  exact sparing_composes.bind (sparing_perform rfl) fun _ =>
    sparing_composes.when fun _ => sparing_raise _

theorem sparing_deleteAccessKey (k : ℕ) : Sparing _ (deleteAccessKey k) := by
  refine sparing_composes.bind sparing_ensureAccessKeyManagementAllowed fun _ => ?_
  refine sparing_composes.bind sparing_ensureSynchronizedUser fun link => ?_
  exact sparing_composes.bind (sparing_composes.when fun _ => sparing_raise _) fun _ =>
    sparing_perform rfl

theorem sparing_restorePortalIamKeyStatuses (restored : List (ℕ × KeyStatus)) :
    Sparing _ (restorePortalIamKeyStatuses restored) :=
  sparing_composes.forEach fun _ _ => sparing_attempted rfl

theorem sparing_disableKeys (keys restored : List (ℕ × KeyStatus)) :
    Sparing _ (disableKeys keys restored) := by
  induction keys generalizing restored with
  | nil => exact sparing_composes.pure restored
  | cons key keys ih =>
    unfold disableKeys
    split
    · exact ih restored
    · refine sparing_composes.bind ?_ fun _ => ih _
      exact sparing_composes.tryCatch (sparing_perform rfl) fun e =>
        sparing_composes.bind (sparing_restorePortalIamKeyStatuses restored) fun _ => sparing_raise e

theorem sparing_disableListedKeys (present : Bool) : Sparing _ (disableListedKeys present) := by
  cases present with
  | false => exact sparing_composes.pure []
  | true => exact sparing_composes.bind (sparing_perform rfl) fun keys => sparing_disableKeys keys []

theorem sparing_preparePortalIamRevocation : Sparing _ preparePortalIamRevocation := by
  refine sparing_composes.bind (sparing_perform rfl) fun pending => ?_
  split
  · exact sparing_composes.pure _
  · refine sparing_composes.bind (sparing_perform rfl) fun link => ?_
    cases link with
    | none => exact sparing_composes.pure none
    | some link =>
      refine sparing_composes.bind (sparing_iamUserPresent link) fun present => ?_
      refine sparing_composes.bind (sparing_disableListedKeys present) fun restored => ?_
      refine sparing_composes.bind (sparing_perform rfl) fun _ => ?_
      exact sparing_composes.bind (sparing_perform rfl) fun _ => sparing_composes.pure _

theorem sparing_deletePortalIamUser : Sparing _ deletePortalIamUser := by
  refine sparing_composes.bind (sparing_perform rfl) fun present => ?_
  refine Prog.Composes.ite ?_ (sparing_perform rfl)
  refine sparing_composes.bind (sparing_perform rfl) fun keys => ?_
  refine sparing_composes.bind (sparing_composes.forEach fun _ _ => sparing_perform rfl) fun _ => ?_
  exact sparing_composes.bind (sparing_remote _) fun _ => sparing_perform rfl

theorem sparing_finalizePortalIamRevocation : Sparing _ finalizePortalIamRevocation := by
  refine sparing_composes.bind (sparing_perform rfl) fun pending => ?_
  split
  · refine sparing_composes.tryCatch ?_ fun e =>
      sparing_composes.bind (sparing_perform rfl) fun _ => sparing_raise e
    refine sparing_composes.bind sparing_deletePortalIamUser fun _ => ?_
    refine sparing_composes.bind (sparing_remote _) fun _ => ?_
    exact sparing_composes.bind (sparing_perform rfl) fun _ => sparing_perform rfl
  · exact sparing_composes.pure ()

theorem sparing_revokePortalUser : Sparing _ revokePortalUser := by
  refine sparing_composes.bind (sparing_remote _) fun _ => ?_
  refine sparing_composes.bind sparing_preparePortalIamRevocation fun prepared => ?_
  cases prepared with
  | none => exact sparing_composes.pure ()
  | some restored =>
    refine sparing_composes.bind ?_ fun _ => sparing_finalizePortalIamRevocation
    refine sparing_composes.tryCatch (sparing_perform rfl) fun e => ?_
    refine sparing_composes.bind (sparing_perform rfl) fun _ => ?_
    exact sparing_composes.bind (sparing_restorePortalIamKeyStatuses restored) fun _ => sparing_raise e

theorem sparing_service (job : Job) : Sparing _ job.service := by
  cases job with
  | createPersonalAccessKey => exact sparing_createPersonalAccessKey
  | getPortalCredentials => exact sparing_getPortalCredentials
  | createBucket => exact sparing_createBucket
  | deleteBucket useRoot => exact sparing_deleteBucket useRoot
  | provisionPortalUser => exact sparing_provisionPortalUser
  | createStorageSpace => exact sparing_createStorageSpace
  | importStorageSpace => exact sparing_importStorageSpace
  | updateAccessKeyStatus k active => exact sparing_updateAccessKeyStatus k active
  | deleteAccessKey k => exact sparing_deleteAccessKey k
  | revokePortalUser => exact sparing_revokePortalUser

/-! ## Every run -/

/-- The operation a step executes does not list a personal key for the runtime key. -/
def Sparingly (st : SystemState) : SystemLabel → Bool
  | .advance i _ =>
    st.threads[i]?.all fun t => t.pending.all fun op => op.sparing st.world t.session
  | _ => true

theorem sound : Sound system rules fun st label => Sparingly st label = true where
  event := fun {_ e} => e.elim
  start hinv _ hstart := by
    simp only [system, Option.some.injEq, Prod.mk.injEq] at hstart
    obtain ⟨rfl, rfl, rfl⟩ := hstart
    refine ⟨Relies.refl _, hinv, ?_⟩
    exact wp_mono (sparing_service _ [] _ _ nofun) (fun _ _ _ _ => trivial) fun _ _ _ _ => trivial
  advance hok hthread hprog := by
    show Op.sparing _ _ _ = true
    simpa [Sparingly, hthread, Thread.pending, hprog] using hok
  shared _ _ hnext := by
    simp only [System.next] at hnext
    split at hnext
    · rename_i session op next hthread
      cases hnext
      exact .inr (relies_exec op _ _ session)
    · cases hnext

/-- A user that has no access yet, or one whose keys are not personal. -/
structure Initial (w : World) : Prop where
  personal : ∀ k, w.personal k = false
  unused : ∀ k, w.nextKey ≤ k → w.keys k = none

theorem Initial.intact {w : World} (h : Initial w) : Intact w := by
  refine ⟨fun k hpersonal => ?_, h.unused⟩
  rw [h.personal k] at hpersonal
  cases hpersonal

/-- In a run where `_ensure_active_key` never lists a personal key, every personal key is there and
active. -/
theorem personal_key_survives {w : World} (hinitial : Initial w) {st : SystemState}
    (h : Reachable system (fun st label => Sparingly st label = true) w st) (k : ℕ)
    (hpersonal : st.world.personal k = true) : st.world.keys k = some .active :=
  (SafeState.of_reachable sound hinitial.intact h).inv.active k hpersonal

/-- The user of the runs below. -/
def newUser : World := { expectedUsername := "br-portal-a3-u7" }

theorem initial_newUser : Initial newUser := ⟨fun _ => rfl, fun _ _ => rfl⟩

/-- The user creates a personal key. -/
def keyCreation : List SystemLabel := .start .createPersonalAccessKey ::
  List.replicate 12 (.advance 0 .none)

/-- Then the user creates another key and deletes that one, a disabling of the first key fails, and an
administrator deletes a bucket. -/
def laterOperations : List SystemLabel :=
  List.flatten [keyCreation,
    [.stop 0, .start .createPersonalAccessKey], List.replicate 8 (.advance 0 .none),
    [.stop 0, .start (.deleteAccessKey 2)], List.replicate 7 (.advance 0 .none),
    [.stop 0, .start (.updateAccessKeyStatus 1 false), .advance 0 .none, .advance 0 .before, .stop 0,
      .start (.deleteBucket true), .advance 0 .none]]

theorem personal_key_survives_laterOperations : ∃ st, Reachable system
    (fun st label => Sparingly st label = true) newUser st ∧
      st.world.personal 1 = true ∧ st.world.keys 1 = some .active ∧ st.world.keys 2 = none := by
  have hrun : (system.run Sparingly ⟨newUser, []⟩ laterOperations).any (fun st =>
      st.world.personal 1 && st.world.keys 2 = none) = true := by
    decide +kernel
  obtain ⟨st, hst, hend⟩ := (Option.any_eq_true _ _).mp hrun
  simp only [Bool.and_eq_true, decide_eq_true_eq] at hend
  have hreachable := Reachable.init.run hst
  exact ⟨st, hreachable, hend.1, personal_key_survives initial_newUser hreachable 1 hend.1, hend.2⟩

/-- Then the Portal needs the runtime key. -/
def credentials : List SystemLabel :=
  List.flatten [keyCreation, [.stop 0, .start .getPortalCredentials],
    List.replicate 8 (.advance 0 .none)]

/-- The personal key of a user is gone once the Portal has asked for its own credentials. -/
theorem personal_key_deleted : ∃ st, Reachable system (fun _ _ => true = true) newUser st ∧
    st.world.personal 1 = true ∧ st.world.keys 1 = none := by
  have hrun : (system.run (fun _ _ => true) ⟨newUser, []⟩ credentials).any (fun st =>
      st.world.personal 1 && st.world.keys 1 = none) = true := by
    decide +kernel
  obtain ⟨st, hst, hend⟩ := (Option.any_eq_true _ _).mp hrun
  simp only [Bool.and_eq_true, decide_eq_true_eq] at hend
  exact ⟨st, Reachable.init.run hst, hend.1, hend.2⟩

end PortalKeys
end BucketReef
