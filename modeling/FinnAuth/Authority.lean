import FinnAuth.Identity
import FinnAuth.Users

/-!
# What a token that passes has behind it

`Authority.Check` in full: claims that pass have a live user row with their versions, an unrevoked
session and no revocation of their own. Every way of ending a token is one of these facts failing.

Results:
* **`Passes.backed`**: all of it at once;
* `Passes.pwdVersion`: the version of claims that pass is the live one.
-/

namespace FinnAuth

open Lib Prog

variable {c : Claims}

/-- `Authority.Check` lets the claims pass. -/
def Passes (w : World) (c : Claims) : Prop := ((authorityCheck c).run w).1 = .ok ()

instance (w : World) (c : Claims) : Decidable (Passes w c) := by
  unfold Passes; infer_instance

/-- What is behind the claims in the database. -/
structure Backed (db : DB) (c : Claims) (sid jti : Uuid) (user : User) : Prop where
  sid_eq : c.sid = some sid
  jti_eq : c.id = some jti
  row : db.userByID ⟨c.tenantID⟩ c.userID = some user
  active : user.isActive = true
  unsuspended : user.adminSuspended = false
  pwdVersion : user.pwdVersion = c.pwdVer
  authEpoch : user.authEpoch = c.authEpoch
  session : ∃ s ∈ db.sessions.rows, s.id = sid ∧ s.tenantID = c.tenantID ∧ s.userID = c.userID ∧
    s.revoked = false
  unrevoked : ∀ r ∈ db.accessRevocations.rows, r.tenantID = c.tenantID → r.jti ≠ jti

theorem backed_of_active {db : DB} {now : Nat} {sid jti : Uuid} (hsid : c.sid = some sid)
    (hjti : c.id = some jti) (h : db.accessActive now c sid jti = true) :
    ∃ user, Backed db c sid jti user := by
  unfold DB.accessActive at h
  split at h
  · cases h
  · rename_i user huser
    simp only [Bool.and_eq_true, Bool.not_eq_true', decide_eq_true_eq, List.any_eq_true,
      List.any_eq_false, not_and] at h
    obtain ⟨⟨⟨⟨⟨⟨⟨hactive, hsusp⟩, hver⟩, hepoch⟩, -⟩, s, hs, hsess⟩, hrev⟩, -⟩ := h
    exact ⟨user, hsid, hjti, huser, hactive, hsusp, hver, hepoch,
      ⟨s, hs, hsess.1.1.1.1, hsess.1.1.1.2, hsess.1.1.2, hsess.1.2⟩, hrev⟩

/-- **Claims that pass are backed.** -/
theorem Passes.backed {w : World} (h : Passes w c) :
    ∃ sid jti user, Backed w.db c sid jti user := by
  have hwp : wp (authorityCheck c) (fun r _ => r = .ok () →
      ∃ sid jti user, Backed w.db c sid jti user) w := by
    unfold authorityCheck
    split
    · rename_i sid jti hsid hjti
      refine wp_seq ((wp_refuse _ _ _ _).2 ⟨fun _ h => (by cases h), fun _ => ?_⟩)
      simp only [storeRevoked, storeGet, bind_def, wp_bind, wp_kv, thenWp_ok, pure_def, wp_ret]
      refine (wp_refuse _ _ _ _).2 ⟨fun _ h => (by cases h), fun _ => ?_⟩
      rw [thenWp_ok, wp_bind, wp_getNow, thenWp_ok, wp_bind, wp_query]
      refine ⟨fun _ h => (by cases h), fun _ => ?_⟩
      rw [thenWp_ok]
      refine (wp_refuse _ _ _ _).2 ⟨fun _ h => (by cases h), fun hactive _ => ?_⟩
      obtain ⟨user, hb⟩ := backed_of_active hsid hjti (by simpa using hactive)
      exact ⟨sid, jti, user, hb⟩
    · exact fun h => by cases h
  exact hwp h

/-- The version of claims that pass is the live one. -/
theorem Passes.pwdVersion {w : World} (h : Passes w c) : w.db.pwdVersion c.userID = c.pwdVer := by
  obtain ⟨sid, jti, user, hb⟩ := h.backed
  rw [pwdVersion_of_userByID hb.row, hb.pwdVersion]

end FinnAuth
