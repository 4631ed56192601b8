import FinnAuth.Theft

/-!
# Logout and the session family

`Logout` promises to revoke the presented refresh token and its session family. For an active row
it does; for a row that was rotated away it returns success and leaves the family alone.

Results:
* `wp_logoutAudited`: the two cases of a stored row, without failures;
* `noPairAfter_of_ended`: once a family has ended, no run returns another pair for it;
* **`logoutEnds_iff`**: in every reachable state, `Logout` ends the family exactly when the row is
  still active or the family had ended before.
-/

namespace FinnAuth

open Lib Prog

variable {env : Env} {ctx : Ctx} {ip ua : String}

/-! ## Without failures -/

variable {jti : Option Uuid} {w : World} {rt : RefreshToken} {s : Session} {e : AuditLog}

/-- The two steps on the caller's access token succeed and touch neither session nor token. -/
theorem wp_revokeCaller (hc : w.Calm) :
    wp (revokeCaller ctx jti) (fun r w' => r = .ok () ∧ Still w w' ∧ w'.Calm) w := by
  cases jti with
  | none => exact ⟨rfl, ⟨rfl, rfl, rfl, Nat.le.refl, rfl⟩, hc⟩
  | some j =>
    refine wp_seq ?_
    rw [wp_getNow, thenWp_ok]
    refine wp_seq ?_
    rw [wp_attempt, revokeAccess, wp_repo_calm hc.faults, thenWp_ok]
    exact ⟨rfl, ⟨rfl, rfl, rfl, Nat.le.refl, rfl⟩, hc.faults, hc.failure⟩

theorem wp_denylistAccessToken (hc : w.Calm) :
    wp (denylistAccessToken env jti) (fun r w' => r = .ok () ∧ Still w w' ∧ w'.Calm) w := by
  cases jti with
  | none => exact ⟨rfl, ⟨rfl, rfl, rfl, Nat.le.refl, rfl⟩, hc⟩
  | some j =>
    change wp (storeSet (.denylistJTI j) (.str "revoked") env.cfg.accessTTL) _ w
    exact ⟨rfl, ⟨rfl, rfl, rfl, Nat.le.refl, rfl⟩, hc.faults, hc.failure⟩

theorem wp_record_still (hc : w.Calm) :
    wp (record ctx e) (fun r w' => r = .ok () ∧ Still w w' ∧ w'.Calm) w := by
  rw [wp_record_calm hc.faults]
  exact ⟨rfl, ⟨rfl, rfl, rfl, Nat.le.refl, rfl⟩, hc.faults, hc.failure⟩

theorem wp_doIf_record_still {c : Bool} (hc : w.Calm) :
    wp (doIf c (record ctx e)) (fun r w' => r = .ok () ∧ Still w w' ∧ w'.Calm) w := by
  rw [wp_doIf]
  exact ⟨fun _ => wp_record_still hc, fun _ => ⟨rfl, ⟨rfl, rfl, rfl, Nat.le.refl, rfl⟩, hc⟩⟩

/-- The family of an active row ends. -/
theorem wp_logoutActive (hw : Good w) (hc : w.Calm) (hrt : rt ∈ w.db.refreshTokens.rows)
    (hr : rt.revoked = false) (hs : s ∈ w.db.sessions.rows) (hsid : rt.sessionID = some s.id)
    (ht : ctx.tenant = s.tenantID) : wp (logoutActive env ctx rt jti ip)
      (fun r w' => r = .ok () ∧ w'.Calm ∧ w'.db.Ended s.id) w := by
  obtain ⟨s', hs', hsid', hsu⟩ := hw.tidy.linked rt hrt
  obtain rfl := w.db.sessions.eq_of_key_eq hs hs' (Option.some.inj (hsid.symm.trans hsid'))
  have howns := (owns_family hw.tidy hrt hs hsid).2 ht
  have hany : (w.db.refreshTokens.rows.any fun t =>
      t.id = rt.id && w.db.owns ctx t.userID && !t.revoked) = true :=
    List.any_eq_true.2 ⟨rt, hrt, by simp [howns, hr]⟩
  have hset : Settled w.db (w.db.exec (.casToken rt.id)) := settled_exec (by simp [tame])
  have hcas : Next w { w with db := w.db.exec (.casToken rt.id) } :=
    next_settled hw hset Nat.le.refl
  refine wp_seq ?_
  refine wp_seq ?_
  rw [wp_attempt, tokensRevoke, wp_repo_calm hc.faults]
  simp only [hany, if_true, thenWp_ok]
  rw [wp_ret, thenWp_ok]
  refine wp_seq ?_
  unfold endFamily
  rw [hsid]
  refine wp_seq ?_
  rw [wp_attempt, sessionsFindByID, wp_query_calm (by exact hc.faults), thenWp_ok]
  refine wp_endFamily_rows hcas.good hc.faults hs hsu ht fun db _ hended => ?_
  refine wp_denylistSession fun m => ?_
  rw [thenWp_ok]
  refine wp_seq (wp_mono (wp_record_still ⟨hc.faults, hc.failure⟩) ?_)
  rintro r w₁ ⟨rfl, h₁, hc₁⟩
  rw [thenWp_ok]
  refine wp_mono (wp_doIf_record_still hc₁) ?_
  rintro r w₂ ⟨rfl, h₂, hc₂⟩
  exact ⟨rfl, hc₂, (h₂.ended s.id).2 ((h₁.ended s.id).2 hended)⟩

/-- **Logout of a stored row**: the family ends if the row is active; otherwise sessions and tokens
stay as they were. -/
theorem wp_logoutAudited {tok : Uuid} (hw : Good w) (hc : w.Calm)
    (hfind : w.db.tokenByHash ctx ⟨tok⟩ = some rt) (hs : s ∈ w.db.sessions.rows)
    (hsid : rt.sessionID = some s.id) :
    wp (logoutAudited env ctx tok jti ip) (fun r w' => r = .ok () ∧ w'.Calm ∧
      (w'.db.Ended s.id ↔ rt.revoked = false ∨ w.db.Ended s.id)) w := by
  obtain ⟨hrt, hp⟩ := Table.mem_of_first? hfind
  simp only [Bool.and_eq_true, decide_eq_true_eq] at hp
  have ht := (owns_family hw.tidy hrt hs hsid).1 hp.2
  refine wp_seq (wp_mono (wp_revokeCaller hc) ?_)
  rintro r w₁ ⟨rfl, h₁, hc₁⟩
  rw [thenWp_ok]
  refine wp_seq (wp_mono (wp_denylistAccessToken hc₁) ?_)
  rintro r w₂ ⟨rfl, h₂, hc₂⟩
  have h₂ := h₁.trans h₂
  rw [thenWp_ok]
  refine wp_seq ?_
  rw [wp_wrap, tokensFindByHash, wp_query_calm hc₂.faults]
  have hfind₂ : w₂.db.tokenByHash ctx ⟨tok⟩ = some rt := by
    rw [← hfind, DB.tokenByHash, DB.tokenByHash, h₂.refreshTokens]
    simp only [DB.owns, DB.userByID, h₂.users]
  simp only [Except.mapError, thenWp_ok, hfind₂]
  by_cases hr : rt.revoked = true
  · have hfilter : (some rt).filter (fun rt => !rt.revoked) = none := by simp [Option.filter, hr]
    rw [hfilter]
    refine wp_mono (wp_doIf_record_still hc₂) ?_
    rintro r w₃ ⟨rfl, h₃, hc₃⟩
    refine ⟨rfl, hc₃, ?_⟩
    rw [(h₂.trans h₃).ended s.id, hr]
    simp
  · have hr : rt.revoked = false := by simpa using hr
    have hfilter : (some rt).filter (fun rt => !rt.revoked) = some rt := by
      simp [Option.filter, hr]
    rw [hfilter]
    refine wp_mono (wp_logoutActive (h₂.next hw).good hc₂ (h₂.refreshTokens ▸ hrt) hr
      (h₂.sessions ▸ hs) hsid ht) ?_
    rintro r w₃ ⟨rfl, hc₃, hended⟩
    exact ⟨rfl, hc₃, fun _ => .inl hr, fun _ => hended⟩

theorem wp_logout {tok : Uuid} (hw : Good w) (hc : w.faults = [])
    (hfind : w.db.tokenByHash ctx ⟨tok⟩ = some rt) (hs : s ∈ w.db.sessions.rows)
    (hsid : rt.sessionID = some s.id) : wp (logout env ctx tok jti ip) (fun r w' => r = .ok () ∧
      (w'.db.Ended s.id ↔ rt.revoked = false ∨ w.db.Ended s.id)) w := by
  rw [logout, wp_runAuditOperation]
  refine wp_mono (wp_logoutAudited ⟨hw.tidy, hw.fresh⟩ ⟨hc, rfl⟩ hfind hs hsid) ?_
  rintro r w₁ ⟨rfl, hcalm, hiff⟩
  rw [closeAudit_ok hcalm]
  exact ⟨rfl, hiff⟩

/-! ## After the end of a family -/

/-- Whatever is called from the state `w` on, no `Refresh` returns a pair for the family `sid`. -/
def NoPairAfter (env : Env) (w : World) (sid : Uuid) : Prop :=
  ∀ es, ∀ x ∈ (serviceRun env w es).hist, ∀ ctx tok ip ua,
    x.input = .call ctx (.refresh tok ip ua) →
    (∃ t ∈ x.before.db.refreshTokens.rows, t.tokenHash = ⟨tok⟩ ∧ t.sessionID = some sid) →
    ¬ ReturnedPair x.reply

theorem noPairAfter_of_ended {sid : Uuid} (hw : Good w) (he : w.db.Ended sid) :
    NoPairAfter env w sid := by
  intro es
  have h := Run.exec_induct (f := respond env) (I := fun r : ServiceRun => Good r.state ∧
      r.state.db.Ended sid ∧ ∀ x ∈ r.hist, ∀ ctx tok ip ua,
        x.input = .call ctx (.refresh tok ip ua) →
        (∃ t ∈ x.before.db.refreshTokens.rows, t.tokenHash = ⟨tok⟩ ∧ t.sessionID = some sid) →
        ¬ ReturnedPair x.reply)
    (fun r e ⟨hgood, hend, hold⟩ => ?_) es (r := Run.init w)
    ⟨hw, he, fun x hx => by cases hx⟩
  · exact h.2.2
  have hnext := respond_next env e hgood
  refine ⟨hnext.good, hnext.follows.ended hend, fun x hx => ?_⟩
  rcases List.mem_cons.1 hx with rfl | hx
  · -- a returned pair would be an exchange of an unrevoked row of the family
    rintro ctx tok ip ua hin ⟨t, ht, hh, hsid⟩ ⟨pair, hre⟩
    subst hin
    obtain ⟨rt, hrt, hhash, hr, -⟩ := (refresh_exchange hgood hre).row
    obtain rfl := hgood.tidy.hash rt hrt t ht (hhash.trans hh.symm)
    rw [hend.2 rt hrt hsid] at hr
    cases hr
  · exact hold x hx

/-! ## The promise -/

/-- `Logout` succeeds, the family of `sid` has ended, and no later `Refresh` returns a pair for
it. -/
def LogoutEnds (env : Env) (ctx : Ctx) (tok : Uuid) (accessJTI : Option Uuid) (ip : String)
    (sid : Uuid) (w : World) : Prop :=
  (respond env (.call ctx (.logout tok accessJTI ip)) w).1 = .ok none ∧
    (respond env (.call ctx (.logout tok accessJTI ip)) w).2.db.Ended sid ∧
    NoPairAfter env (respond env (.call ctx (.logout tok accessJTI ip)) w).2 sid

/-- **`Logout` ends the family exactly when the row is still active**, or the family had ended
before. -/
theorem logoutEnds_iff (env : Env) {w : World} (h : NoSessions w) (es : List Event)
    (hc : (serviceRun env w es).state.faults = []) {ctx : Ctx} {tok sid : Uuid} {rt : RefreshToken}
    (hfind : (serviceRun env w es).state.db.tokenByHash ctx ⟨tok⟩ = some rt)
    (hsid : rt.sessionID = some sid) (accessJTI : Option Uuid) (ip : String) :
    LogoutEnds env ctx tok accessJTI ip sid (serviceRun env w es).state ↔
      rt.revoked = false ∨ (serviceRun env w es).state.db.Ended sid := by
  have hgood := good_run env h es
  obtain ⟨s, hs, hlink, -⟩ := hgood.tidy.linked rt (Table.mem_of_first? hfind).1
  obtain rfl := Option.some.inj (hsid.symm.trans hlink)
  have hwp : wp (serve env ctx (.logout tok accessJTI ip)) (fun r w' => r = .ok none ∧
      (w'.db.Ended s.id ↔ rt.revoked = false ∨ (serviceRun env w es).state.db.Ended s.id))
      (serviceRun env w es).state := by
    refine wp_seq (wp_mono (wp_logout hgood hc hfind hs hsid) ?_)
    rintro r w' ⟨rfl, hiff⟩
    exact ⟨rfl, hiff⟩
  have hnext := respond_next env (.call ctx (.logout tok accessJTI ip)) hgood
  constructor
  · exact fun hends => hwp.2.1 hends.2.1
  · intro hcond
    have hended := hwp.2.2 hcond
    exact ⟨hwp.1, hended, noPairAfter_of_ended hnext.good hended⟩

/-! ## A rotated token -/

/-- `Logout` with the newest token of `jose`, after a rotation. -/
theorem logoutEnds_newest :
    LogoutEnds (.plain .sample) .sample 105 none "ip" 100 (rotatedRun []).state := by
  obtain ⟨rt, hfind, hsid, hr⟩ : ∃ rt ∈ (rotatedRun []).state.db.tokenByHash .sample ⟨105⟩,
      rt.sessionID = some 100 ∧ rt.revoked = false := by decide +kernel
  exact (logoutEnds_iff (.plain .sample) noSessions_sample _ (by decide +kernel) hfind hsid none
    "ip").2 (.inl hr)

/-- **Logout with a rotated token leaves the family alive**: it returns success, and the newest
token is exchanged for a pair afterwards. -/
theorem logout_rotated_token :
    (∃ rt ∈ (rotatedRun []).state.db.tokenByHash .sample ⟨102⟩, rt.sessionID = some 100) ∧
      (rotatedRun []).state.faults = [] ∧
      (respond (.plain .sample) (.call .sample (.logout 102 none "ip"))
        (rotatedRun []).state).1 = .ok none ∧
      ¬ LogoutEnds (.plain .sample) .sample 102 none "ip" 100 (rotatedRun []).state ∧
      ReturnedPair (respond (.plain .sample) (.call .sample (.refresh 105 "ip" "ua"))
        (respond (.plain .sample) (.call .sample (.logout 102 none "ip"))
          (rotatedRun []).state).2).1 := by
  have hopen : ¬ (respond (.plain .sample) (.call .sample (.logout 102 none "ip"))
      (rotatedRun []).state).2.db.Ended 100 := by decide +kernel
  exact ⟨by decide +kernel, by decide +kernel, by decide +kernel, fun h => hopen h.2.1,
    by decide +kernel⟩

end FinnAuth
