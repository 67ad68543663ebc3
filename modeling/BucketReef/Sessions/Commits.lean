import BucketReef.Sessions.AuthSessions
import Mathlib.Data.List.Basic

/-!
# What a commit leaves

A commit applies the writes of a transaction in order. A session keeps its owner, its version and its
absolute expiry, and stays revoked; a token stays used; a version changes only if it was written.
-/

namespace BucketReef
namespace Sessions

variable {t : ℕ} {db : Db} {l : List Write}

/-- The columns of a session that never change. -/
structure Same (row row' : AuthSession) : Prop where
  userId : row'.userId = row.userId
  authVersion : row'.authVersion = row.authVersion
  absoluteExpiresAt : row'.absoluteExpiresAt = row.absoluteExpiresAt
  committedAt : row'.committedAt = row.committedAt

theorem Same.refl (row : AuthSession) : Same row row := ⟨rfl, rfl, rfl, rfl⟩

theorem Same.trans {row row' row'' : AuthSession} (h : Same row row') (h' : Same row' row'') :
    Same row row'' :=
  ⟨h'.userId.trans h.userId, h'.authVersion.trans h.authVersion,
    h'.absoluteExpiresAt.trans h.absoluteExpiresAt, h'.committedAt.trans h.committedAt⟩

/-! ## One write -/

/-- Where the row of a session after a write comes from. -/
theorem apply_session {w : Write} {id : ℕ} {row' : AuthSession}
    (h : (w.apply t db).sessions id = some row') :
    (∃ r, w = .addSession id r ∧ row' = { r with committedAt := t }) ∨
      ∃ row, db.sessions id = some row ∧ Same row row' ∧
        (row.revokedAt ≠ none → row'.revokedAt ≠ none) ∧
        (row'.idleExpiresAt = row.idleExpiresAt ∨ w = .touchSession id row'.idleExpiresAt) := by
  have hsame : db.sessions id = some row' → ∃ row, db.sessions id = some row ∧ Same row row' ∧
      (row.revokedAt ≠ none → row'.revokedAt ≠ none) ∧
      (row'.idleExpiresAt = row.idleExpiresAt ∨ w = .touchSession id row'.idleExpiresAt) :=
    fun hrow => ⟨row', hrow, .refl row', fun hrevoked => hrevoked, .inl rfl⟩
  cases w with
  | addSession sid r =>
    by_cases hid : id = sid
    · subst hid
      left
      simp only [Write.apply, Function.update_self, Option.some.injEq] at h
      exact ⟨r, rfl, h.symm⟩
    · right
      simp only [Write.apply, Function.update_of_ne hid] at h
      exact hsame h
  | revokeSession sid now =>
    right
    by_cases hid : id = sid
    · subst hid
      simp only [Write.apply, Write.setSession, Function.update_self] at h
      obtain ⟨row, hrow, rfl⟩ := Option.map_eq_some_iff.mp h
      exact ⟨row, hrow, ⟨rfl, rfl, rfl, rfl⟩, by simp, .inl rfl⟩
    · simp only [Write.apply, Write.setSession, Function.update_of_ne hid] at h
      exact hsame h
  | touchSession sid idle =>
    right
    by_cases hid : id = sid
    · subst hid
      simp only [Write.apply, Write.setSession, Function.update_self] at h
      obtain ⟨row, hrow, rfl⟩ := Option.map_eq_some_iff.mp h
      exact ⟨row, hrow, ⟨rfl, rfl, rfl, rfl⟩, fun hrevoked => hrevoked, .inr rfl⟩
    · simp only [Write.apply, Write.setSession, Function.update_of_ne hid] at h
      exact hsame h
  | addToken tid r => exact .inr (hsame h)
  | useToken tid now => exact .inr (hsame h)
  | revokeToken tid now => exact .inr (hsame h)
  | setVersion uid version => exact .inr (hsame h)

/-- A write of another row, or a change of this one, keeps the session. -/
theorem apply_session_some {w : Write} {id : ℕ} {row : AuthSession}
    (h : db.sessions id = some row) : ∃ row', (w.apply t db).sessions id = some row' := by
  cases w with
  | addSession sid r =>
    by_cases hid : id = sid
    · exact ⟨_, by rw [hid]; exact Function.update_self ..⟩
    · exact ⟨row, by simp only [Write.apply, Function.update_of_ne hid]; exact h⟩
  | revokeSession sid now =>
    by_cases hid : id = sid
    · subst hid
      exact ⟨_, by simp only [Write.apply, Write.setSession, Function.update_self, h]; rfl⟩
    · exact ⟨row, by simp only [Write.apply, Write.setSession, Function.update_of_ne hid]; exact h⟩
  | touchSession sid idle =>
    by_cases hid : id = sid
    · subst hid
      exact ⟨_, by simp only [Write.apply, Write.setSession, Function.update_self, h]; rfl⟩
    · exact ⟨row, by simp only [Write.apply, Write.setSession, Function.update_of_ne hid]; exact h⟩
  | addToken tid r => exact ⟨row, h⟩
  | useToken tid now => exact ⟨row, h⟩
  | revokeToken tid now => exact ⟨row, h⟩
  | setVersion uid version => exact ⟨row, h⟩

theorem apply_token {w : Write} {id : ℕ} (hrow : w.row ≠ .token id) :
    (w.apply t db).tokens id = db.tokens id := by
  cases w with
  | addToken tid r => exact Function.update_of_ne (fun h => hrow (by rw [h]; rfl)) ..
  | useToken tid now => exact Function.update_of_ne (fun h => hrow (by rw [h]; rfl)) ..
  | revokeToken tid now => exact Function.update_of_ne (fun h => hrow (by rw [h]; rfl)) ..
  | addSession sid r => rfl
  | revokeSession sid now => rfl
  | touchSession sid idle => rfl
  | setVersion uid version => rfl

/-- The token exists and is used. -/
def Used (db : Db) (id : ℕ) : Prop := ∃ row, db.tokens id = some row ∧ row.usedAt ≠ none

theorem Used.apply {w : Write} {id : ℕ} (h : Used db id) (hnew : ∀ r, w ≠ .addToken id r) :
    Used (w.apply t db) id := by
  obtain ⟨row, hrow, hused⟩ := h
  by_cases hw : w.row = .token id
  · cases w with
    | addToken tid r =>
      cases hw
      exact absurd rfl (hnew r)
    | useToken tid now =>
      cases hw
      exact ⟨_, by simp only [Write.apply, Write.setToken, Function.update_self, hrow]; rfl, by simp⟩
    | revokeToken tid now =>
      cases hw
      refine ⟨{ row with revokedAt := some now }, ?_, hused⟩
      simp only [Write.apply, Write.setToken, Function.update_self, hrow]
      rfl
    | addSession sid r => cases hw
    | revokeSession sid now => cases hw
    | touchSession sid idle => cases hw
    | setVersion uid version => cases hw
  · exact ⟨row, (apply_token hw).trans hrow, hused⟩

theorem apply_user {w : Write} {id : ℕ} {user : User} (h : db.users id = some user) :
    (∃ v, w = .setVersion id v ∧
      (w.apply t db).users id = some { user with authVersion := v }) ∨
      ((∀ v, w ≠ .setVersion id v) ∧ (w.apply t db).users id = some user) := by
  cases w with
  | setVersion uid version =>
    by_cases hid : id = uid
    · subst hid
      exact .inl ⟨version, rfl, by
        simp only [Write.apply, Write.setUser, Function.update_self, h]; rfl⟩
    · refine .inr ⟨?_, ?_⟩
      · rintro v ⟨⟩
        exact hid rfl
      · simp only [Write.apply, Write.setUser, Function.update_of_ne hid]
        exact h
  | addSession sid r => exact .inr ⟨by simp, h⟩
  | addToken tid r => exact .inr ⟨by simp, h⟩
  | useToken tid now => exact .inr ⟨by simp, h⟩
  | revokeToken tid now => exact .inr ⟨by simp, h⟩
  | revokeSession sid now => exact .inr ⟨by simp, h⟩
  | touchSession sid idle => exact .inr ⟨by simp, h⟩

/-! ## All writes of a transaction -/

/-- Where the row of a session after a commit comes from. -/
theorem commit_session {id : ℕ} {row' : AuthSession}
    (h : (l.foldl (Write.apply t) db).sessions id = some row') :
    ∃ row, (db.sessions id = some row ∨
        ∃ r, Write.addSession id r ∈ l ∧ row = { r with committedAt := t }) ∧
      Same row row' ∧ (row.revokedAt ≠ none → row'.revokedAt ≠ none) ∧
      (row'.idleExpiresAt = row.idleExpiresAt ∨
        Write.touchSession id row'.idleExpiresAt ∈ l) := by
  induction l generalizing db with
  | nil => exact ⟨row', .inl h, .refl row', fun hrevoked => hrevoked, .inl rfl⟩
  | cons w l ih =>
    obtain ⟨row, hrow, hsame, hrevoked, hidle⟩ := ih h
    have hidle' : row'.idleExpiresAt = row.idleExpiresAt ∨
        Write.touchSession id row'.idleExpiresAt ∈ w :: l :=
      hidle.imp_right (List.mem_cons_of_mem w)
    rcases hrow with hrow | ⟨r, hr, rfl⟩
    · rcases apply_session hrow with ⟨r, rfl, rfl⟩ | ⟨old, hold, hsame', hrevoked', hidle''⟩
      · exact ⟨_, .inr ⟨r, List.mem_cons_self, rfl⟩, hsame, hrevoked, hidle'⟩
      · refine ⟨old, .inl hold, hsame'.trans hsame, fun hr => hrevoked (hrevoked' hr), ?_⟩
        rcases hidle' with heq | hmem
        · rcases hidle'' with heq' | rfl
          · exact .inl (heq.trans heq')
          · right
            rw [heq]
            exact List.mem_cons_self
        · exact .inr hmem
    · exact ⟨_, .inr ⟨r, List.mem_cons_of_mem w hr, rfl⟩, hsame, hrevoked, hidle'⟩

theorem commit_session_some {id : ℕ} {row : AuthSession} (h : db.sessions id = some row) :
    ∃ row', (l.foldl (Write.apply t) db).sessions id = some row' := by
  induction l generalizing db row with
  | nil => exact ⟨row, h⟩
  | cons w l ih =>
    obtain ⟨row', hrow'⟩ := apply_session_some (w := w) (t := t) h
    exact ih hrow'

/-- An existing session, after a commit that adds no session of its id. -/
theorem commit_session_kept {id : ℕ} {row : AuthSession} (h : db.sessions id = some row)
    (hnew : ∀ r, Write.addSession id r ∉ l) :
    ∃ row', (l.foldl (Write.apply t) db).sessions id = some row' ∧ Same row row' ∧
      (row.revokedAt ≠ none → row'.revokedAt ≠ none) := by
  obtain ⟨row', hrow'⟩ := commit_session_some (l := l) (t := t) h
  obtain ⟨old, hold | ⟨r, hr, _⟩, hsame, hrevoked, _⟩ := commit_session hrow'
  · rw [h] at hold
    cases hold
    exact ⟨row', hrow', hsame, hrevoked⟩
  · exact absurd hr (hnew r)

/-- A session a commit revokes is revoked after it. -/
theorem commit_session_revoked {id now : ℕ} {row : AuthSession} (h : db.sessions id = some row)
    (hnew : ∀ r, Write.addSession id r ∉ l) (hmem : Write.revokeSession id now ∈ l) :
    ∃ row', (l.foldl (Write.apply t) db).sessions id = some row' ∧ row'.revokedAt ≠ none := by
  induction l generalizing db row with
  | nil => cases hmem
  | cons w l ih =>
    have hnew' : ∀ r, Write.addSession id r ∉ l := fun r hr => hnew r (List.mem_cons_of_mem w hr)
    obtain ⟨row', hrow'⟩ := apply_session_some (w := w) (t := t) h
    rcases List.mem_cons.mp hmem with rfl | hmem
    · have hrevoked : row'.revokedAt ≠ none := by
        simp only [Write.apply, Write.setSession, Function.update_self, h] at hrow'
        cases hrow'
        simp
      obtain ⟨final, hfinal, _, hkept⟩ := commit_session_kept (t := t) hrow' hnew'
      exact ⟨final, hfinal, hkept hrevoked⟩
    · exact ih hrow' hnew' hmem

theorem commit_token {id : ℕ} (hrow : ∀ w ∈ l, w.row ≠ .token id) :
    (l.foldl (Write.apply t) db).tokens id = db.tokens id := by
  induction l generalizing db with
  | nil => rfl
  | cons w l ih =>
    have hrest : (l.foldl (Write.apply t) (w.apply t db)).tokens id = (w.apply t db).tokens id :=
      ih fun w' hw' => hrow w' (List.mem_cons_of_mem w hw')
    exact hrest.trans (apply_token (hrow w List.mem_cons_self))

theorem Used.commit {id : ℕ} (h : Used db id) (hnew : ∀ r, Write.addToken id r ∉ l) :
    Used (l.foldl (Write.apply t) db) id := by
  induction l generalizing db with
  | nil => exact h
  | cons w l ih =>
    refine ih (h.apply ?_) fun r hr => hnew r (List.mem_cons_of_mem w hr)
    rintro r rfl
    exact hnew r List.mem_cons_self

theorem used_of_commit {id now : ℕ} {row : RefreshToken} (h : db.tokens id = some row)
    (hnew : ∀ r, Write.addToken id r ∉ l) (hmem : Write.useToken id now ∈ l) :
    Used (l.foldl (Write.apply t) db) id := by
  induction l generalizing db row with
  | nil => cases hmem
  | cons w l ih =>
    have hnew' : ∀ r, Write.addToken id r ∉ l := fun r hr => hnew r (List.mem_cons_of_mem w hr)
    rcases List.mem_cons.mp hmem with rfl | hmem
    · have hused : Used ((Write.useToken id now).apply t db) id := by
        refine ⟨{ row with usedAt := some now }, ?_, by simp⟩
        simp only [Write.apply, Write.setToken, Function.update_self, h]
        rfl
      exact hused.commit hnew'
    · have hsome : ∃ row', (w.apply t db).tokens id = some row' := by
        by_cases hw : w.row = .token id
        · cases w with
          | addToken tid r =>
            cases hw
            exact absurd List.mem_cons_self (hnew r)
          | useToken tid now =>
            cases hw
            exact ⟨_, by simp only [Write.apply, Write.setToken, Function.update_self, h]; rfl⟩
          | revokeToken tid now =>
            cases hw
            exact ⟨_, by simp only [Write.apply, Write.setToken, Function.update_self, h]; rfl⟩
          | addSession sid r => cases hw
          | revokeSession sid now => cases hw
          | touchSession sid idle => cases hw
          | setVersion uid version => cases hw
        · exact ⟨row, (apply_token hw).trans h⟩
      obtain ⟨row', hrow'⟩ := hsome
      exact ih hrow' hnew' hmem

theorem commit_token_some {id : ℕ} {row' : RefreshToken}
    (h : (l.foldl (Write.apply t) db).tokens id = some row') :
    (∃ row, db.tokens id = some row) ∨ ∃ r, Write.addToken id r ∈ l := by
  induction l generalizing db with
  | nil => exact .inl ⟨row', h⟩
  | cons w l ih =>
    rcases ih h with ⟨row, hrow⟩ | ⟨r, hr⟩
    · by_cases hw : w.row = .token id
      · cases w with
        | addToken tid r =>
          cases hw
          exact .inr ⟨r, List.mem_cons_self⟩
        | useToken tid now =>
          cases hw
          simp only [Write.apply, Write.setToken, Function.update_self] at hrow
          obtain ⟨old, hold, _⟩ := Option.map_eq_some_iff.mp hrow
          exact .inl ⟨old, hold⟩
        | revokeToken tid now =>
          cases hw
          simp only [Write.apply, Write.setToken, Function.update_self] at hrow
          obtain ⟨old, hold, _⟩ := Option.map_eq_some_iff.mp hrow
          exact .inl ⟨old, hold⟩
        | addSession sid r => cases hw
        | revokeSession sid now => cases hw
        | touchSession sid idle => cases hw
        | setVersion uid version => cases hw
      · exact .inl ⟨row, (apply_token hw).symm.trans hrow⟩
    · exact .inr ⟨r, List.mem_cons_of_mem w hr⟩

/-- The user row after a commit whose version writes all write `v`. -/
theorem commit_user {id v : ℕ} {user : User} (h : db.users id = some user)
    (hversion : ∀ v', Write.setVersion id v' ∈ l → v' = v) :
    ∃ user', (l.foldl (Write.apply t) db).users id = some user' ∧
      user'.isActive = user.isActive ∧
      ((Write.setVersion id v ∈ l ∧ user'.authVersion = v) ∨
        (Write.setVersion id v ∉ l ∧ user'.authVersion = user.authVersion)) := by
  induction l generalizing db user with
  | nil => exact ⟨user, h, rfl, .inr ⟨by simp, rfl⟩⟩
  | cons w l ih =>
    have hrest : ∀ v', Write.setVersion id v' ∈ l → v' = v :=
      fun v' hv' => hversion v' (List.mem_cons_of_mem w hv')
    rcases apply_user (w := w) (t := t) h with ⟨v', rfl, huser⟩ | ⟨hother, huser⟩
    · obtain rfl := hversion v' List.mem_cons_self
      obtain ⟨user', huser', hactive, hauth⟩ := ih huser hrest
      refine ⟨user', huser', hactive, .inl ⟨List.mem_cons_self, ?_⟩⟩
      rcases hauth with ⟨_, hauth⟩ | ⟨_, hauth⟩
      · exact hauth
      · exact hauth
    · obtain ⟨user', huser', hactive, hauth⟩ := ih huser hrest
      refine ⟨user', huser', hactive, hauth.imp ?_ ?_⟩
      · rintro ⟨hmem, hauth⟩
        exact ⟨List.mem_cons_of_mem w hmem, hauth⟩
      · rintro ⟨hmem, hauth⟩
        refine ⟨?_, hauth⟩
        intro hmem'
        rcases List.mem_cons.mp hmem' with hw | hmem'
        · exact hother v hw.symm
        · exact hmem hmem'

end Sessions
end BucketReef
