import BucketReef.ManagedAccess.Provisioning

/-!
# Remote credentials are tracked

At every moment the row records what RGW holds for the user, except at most for the one resource whose
checkpoint is missing. A row that failed or was deleted leaves no key, group or policy behind: RGW does
not delete a user that still has any, so such a cleanup stays pending.
-/

namespace BucketReef
namespace ManagedAccess

open Effects

/-- The committed row records the resource. -/
def World.records (w : World) (resource : Resource) : Prop :=
  ∃ row, w.row = some row ∧ row.records resource

structure Inv (w : World) : Prop where
  tracked : ∀ r ∈ w.remote, ∀ r' ∈ w.remote, ¬ w.records r → ¬ w.records r' → r = r'
  closed : ∀ r ∈ w.remote, Resource.principal ∈ w.remote
  idle : ∀ row, w.row = some row → row.state = .failed → ∀ r, ¬ row.records r

/-- Nothing moves between two operations of a call. -/
def rules : Rules Op World Unit where
  rely := Eq
  inv := Inv
  allowed _ _ _ := True
  require _ _ _ := True
  rely_refl _ := rfl
  rely_trans := Eq.trans

/-- What holds when a program returns or raises, the invariant being kept by every operation. -/
abbrev Holds {α : Type} (p : Service α) (w : World) (onRet : α → World → Prop)
    (onFail : Error → World → Prop := fun _ _ => True) : Prop :=
  wp machine rules p (fun a w _ => onRet a w) (fun e w _ => onFail e w) w ()

section Rules

variable {α β : Type} {w : World}

end Rules

/-! ## The invariant -/

theorem World.records_setRow {w : World} {row : Row} {r : Resource} :
    (w.setRow (some row)).records r ↔ row.records r := by
  simp [World.records, World.setRow]

/-- The row may change as long as it goes on recording what there is. -/
theorem Inv.setRow {w : World} {row row' : Row} (h : Inv w) (hrow : w.row = some row)
    (hrecords : ∀ r ∈ w.remote, row.records r → row'.records r)
    (hidle : row'.state = .failed → ∀ r, ¬ row'.records r) : Inv (w.setRow (some row')) where
  tracked r hr r' hr' hnot hnot' := by
    rw [World.records_setRow] at hnot hnot'
    refine h.tracked r hr r' hr' ?_ ?_
    · rintro ⟨_, hsome, hrec⟩
      exact hnot (hrecords r hr (Option.some.inj (hrow.symm.trans hsome) ▸ hrec))
    · rintro ⟨_, hsome, hrec⟩
      exact hnot' (hrecords r' hr' (Option.some.inj (hrow.symm.trans hsome) ▸ hrec))
  closed := h.closed
  idle _ hsome hfailed := Option.some.inj hsome ▸ hidle (Option.some.inj hsome ▸ hfailed)

/-- Less at RGW needs no more records. -/
theorem Inv.setRemote {w : World} {remote : Finset Resource} (h : Inv w) (hsub : remote ⊆ w.remote)
    (hclosed : ∀ r ∈ remote, Resource.principal ∈ remote) : Inv (w.setRemote remote) where
  tracked r hr r' hr' := h.tracked r (hsub hr) r' (hsub hr')
  closed := hclosed
  idle := h.idle

theorem Inv.remove {w : World} (h : Inv w) (resource : Resource) : Inv (w.remove resource).1 := by
  unfold World.remove
  split_ifs with hrefused
  · exact h
  · refine h.setRemote (Finset.erase_subset _ _) fun r hr => ?_
    have hmem := Finset.mem_of_mem_erase hr
    refine Finset.mem_erase.mpr ⟨fun hprincipal => ?_, h.closed r hmem⟩
    -- a user is only deleted when nothing else is there
    have hsub : w.remote ⊆ {.principal} := by
      by_contra hnot
      exact hrefused ⟨hprincipal.symm, hnot⟩
    have hr_eq := Finset.mem_singleton.mp (hsub hmem)
    exact Finset.ne_of_mem_erase hr (hr_eq.trans hprincipal)

/-- The row records no such resource. -/
def Cleared (S : Resource → Prop) (w : World) : Prop := ∀ r, S r → ¬ w.records r

theorem Cleared.or {S T : Resource → Prop} {w : World} (hS : Cleared S w) (hT : Cleared T w) :
    Cleared (fun r => S r ∨ T r) w := fun r h => h.elim (hS r) (hT r)

theorem Cleared.congr {S : Resource → Prop} {w w' : World} (h : Cleared S w) (hrow : w'.row = w.row) :
    Cleared S w' := by
  intro r hr hrec
  exact h r hr (by rwa [World.records, hrow] at hrec)

@[simp] theorem recordedKey_setList (row : Row) (values : List String) (field : ListField) :
    (row.setList values field).recordedKey = row.recordedKey := by cases field <;> rfl

@[simp] theorem createdRemotePrincipal_setList (row : Row) (values : List String) (field : ListField) :
    (row.setList values field).createdRemotePrincipal = row.createdRemotePrincipal := by
  cases field <;> rfl

def isListed (field : ListField) (r : Resource) : Prop := ∃ value, r = .listed field value

/-- The row of a provisioning that goes on records everything, except for the last resource. -/
def Recorded (last : Resource → Prop) (w : World) : Prop :=
  ∃ row, w.row = some row ∧ row.state = .provisioning ∧ row.createdAccessKey = false ∧
    ∀ r ∈ w.remote, last r ∨ row.records r

abbrev AllRecorded (w : World) : Prop := Recorded (fun _ => False) w

theorem Recorded.inv {w : World} {resource : Resource} (h : Recorded (· = resource) w)
    (hclosed : ∀ r ∈ w.remote, Resource.principal ∈ w.remote) : Inv w := by
  obtain ⟨row, hrow, hstate, hkey, hrecorded⟩ := h
  have hlast : ∀ r ∈ w.remote, ¬ w.records r → r = resource := fun r hr hnot =>
    (hrecorded r hr).resolve_right fun hrec => hnot ⟨row, hrow, hrec⟩
  refine ⟨fun r hr r' hr' hnot hnot' => (hlast r hr hnot).trans (hlast r' hr' hnot').symm, hclosed, ?_⟩
  intro row' hrow' hfailed
  rw [hrow, Option.some.injEq] at hrow'
  rw [← hrow', hstate] at hfailed
  cases hfailed

/-- A resource that appears at RGW is the only one without a record. -/
theorem AllRecorded.insert {w : World} (h : AllRecorded w) (resource : Resource) :
    Recorded (· = resource) (w.setRemote (insert resource w.remote)) := by
  obtain ⟨row, hrow, hstate, hkey, hrecorded⟩ := h
  refine ⟨row, hrow, hstate, hkey, fun r hr => ?_⟩
  rcases Finset.mem_insert.mp hr with heq | hr
  · exact .inl heq
  · exact .inr ((hrecorded r hr).resolve_left id)

/-- What a creating call may leave. -/
def Creates (resource : Resource) (w w' : World) : Prop :=
  w' = w ∨ w' = w.setRemote (insert resource w.remote) ∧
    (resource = .principal ∨ Resource.principal ∈ w.remote)

theorem Creates.inv {w w' : World} {resource : Resource} (h : Creates resource w w')
    (hall : AllRecorded w) (hw : Inv w) : Inv w' := by
  rcases h with rfl | ⟨rfl, hprincipal⟩
  · exact hw
  · refine (hall.insert resource).inv fun r hr => Finset.mem_insert.mpr ?_
    rcases hprincipal with rfl | hprincipal
    · exact .inl rfl
    · exact .inr hprincipal

theorem Creates.recorded {w w' : World} {resource : Resource} (h : Creates resource w w')
    (hall : AllRecorded w) : Recorded (· = resource) w' := by
  rcases h with rfl | ⟨rfl, -⟩
  · obtain ⟨row, hrow, hstate, hkey, hrecorded⟩ := hall
    exact ⟨row, hrow, hstate, hkey, fun r hr => .inr ((hrecorded r hr).resolve_left id)⟩
  · exact hall.insert resource

end ManagedAccess
end BucketReef
