import BucketReef.Deletions.Inventories
import BucketReef.Deletions.Users

/-!
# The deletion sagas

Both sagas checkpoint what they have deleted at RGW before they delete the local row. The inventory of
a user is taken again in every attempt; the one of an account is taken before the IAM cleanup.
-/

namespace BucketReef
namespace Deletions

open Transitions

/-- In every run, an attempt to delete an account deletes its root user only after it found no bucket
itself, and the account only after it found neither bucket nor user itself, or after an earlier attempt
did and checkpointed the IAM cleanup; an attempt to delete a user deletes it only after it found no
bucket itself. Nothing is deleted again after its checkpoint, and a local row is deleted only after RGW
confirmed that the account or the user is gone, or if its remote deletion was not asked for. -/
theorem deletion_sagas_safe (account : AccountDeletion.Target) (user : UserDeletion.Target) :
    (∀ s, Reached AccountDeletion.step anyStep (AccountDeletion.State.init account) s →
      ∀ event ∈ s.events, event.Proper) ∧
    ∀ s, Reached UserDeletion.step anyStep (UserDeletion.State.init user) s →
      ∀ event ∈ s.events, event.Proper := by
  constructor
  · intro s hs
    have hinv : AccountDeletion.Inv s := hs.invariant (AccountDeletion.init_inv account)
      fun _ _ _ hinv _ hstep => AccountDeletion.step_inv hinv hstep
    exact hinv.rows.events
  · intro s hs
    have hinv : UserDeletion.Inv s := hs.invariant (UserDeletion.init_inv user)
      fun _ _ _ hinv _ hstep => UserDeletion.step_inv hinv hstep
    exact hinv.rows.events

/-! ### A retry without an inventory -/

section Retry

open AccountDeletion

def oneAccount : Target := ⟨1, 2, 0, 3⟩

/-- The first attempt cannot read the account after it deleted the root user. -/
def deleteTwice : List Label :=
  [Label.delete true 3 true] ++ List.replicate 12 (Label.advance {}) ++
    [Label.advance { found := .error }] ++ [Label.delete true 3 true] ++
    List.replicate 5 (Label.advance {})

theorem deletion_sagas_safe_deleteTwice :
    ∃ s, Reached step anyStep (State.init oneAccount) s ∧ s.account = none ∧ s.events.length = 3 ∧
      ∀ event ∈ s.events, event.Proper := by
  have hrun : (after step (State.init oneAccount) deleteTwice).any (fun s =>
      s.account = none && s.events.length = 3) = true := by
    decide +kernel
  obtain ⟨s, hs, hend⟩ := (Option.any_eq_true _ _).mp hrun
  simp only [Bool.and_eq_true, decide_eq_true_eq] at hend
  have hreached := Reached.init.after hs
  exact ⟨s, hreached, hend.1, hend.2, (deletion_sagas_safe oneAccount ⟨0, 0, none⟩).1 s hreached⟩

/-- The attempt that deleted the account had not looked for buckets. -/
def Event.withoutInventory : Event → Bool
  | .accountDeleted attempt _ _ => !attempt.noBuckets
  | _ => false

/-- The retry deletes the account without having looked for buckets or users. -/
theorem retry_deletes_account_without_inventory :
    ¬ ∀ (account : Target) (s : State), Reached step anyStep (State.init account) s →
      ∀ attempt inventoried checkpointed,
        Event.accountDeleted attempt inventoried checkpointed ∈ s.events →
        attempt.noBuckets = true ∧ attempt.noUsers = true := by
  intro h
  have hrun : (after step (State.init oneAccount) deleteTwice).any (fun s =>
      s.events.any Event.withoutInventory) = true := by
    decide +kernel
  obtain ⟨s, hs, hend⟩ := (Option.any_eq_true _ _).mp hrun
  obtain ⟨event, hevent, hend⟩ := List.any_eq_true.mp hend
  cases event with
  | accountDeleted attempt inventoried checkpointed =>
    have hempty := h oneAccount s (Reached.init.after hs) attempt inventoried checkpointed hevent
    rw [Event.withoutInventory, hempty.1] at hend
    cases hend
  | _ => cases hend

end Retry

end Deletions
end BucketReef
