import FinnAuth.Footprint.Calls

/-!
# Calls that raise a version

Every call that is meant to end the access tokens of a user raises the user's `pwd_version`; an
access token carries the version of the row it was built from, so no such token outlives the call.
Where the source drops the error of the update the statements ask for a run without failures.

Results:
* `raises_ownedWrite`, `raises_containUser`: the two ways the version is raised;
* **`raises_serve`**, `raises_admin`: the calls that raise it whenever they succeed.
-/

namespace FinnAuth

open Lib Prog

variable {α β : Type} {env : Env} {ctx : Ctx} {u : UserID} {w : World}

/-! ## Rules -/

variable {ip password : String} {x : UserWrite} {jti : Option Uuid} {p : M α} {t : Option Token}
  {f : α → M β} {l : Call}

/-- If the function succeeds, the password version of `u` is higher than before. -/
def Raises (u : UserID) (p : M α) (w : World) : Prop :=
  wp p (fun r w' => ∀ a, r = .ok a → w.db.pwdVersion u < w'.db.pwdVersion u) w

theorem raises_fail (e : Err) : Raises u (.fail e : M α) w := fun _ h => by cases h

/-- What comes before may look at the state, as long as no version falls. -/
theorem raises_seq
    (h : wp p (fun r w' => ∀ a, r = .ok a →
      w.db.pwdVersion u ≤ w'.db.pwdVersion u ∧ Raises u (f a) w') w) : Raises u (p >>= f) w := by
  refine wp_seq (wp_mono h fun r w₁ h₁ => ?_)
  cases r with
  | error e => exact fun _ h => by cases h
  | ok a =>
    obtain ⟨hle, hf⟩ := h₁ a rfl
    exact wp_mono hf fun r w₂ h₂ b hb => Nat.lt_of_le_of_lt hle (h₂ b hb)

theorem raises_after (hp : Each (Acts anything) p)
    (hf : ∀ a w', Ran anything w w' → Raises u (f a) w') : Raises u (p >>= f) w :=
  raises_seq (wp_of_within (within_of_each hp) fun _ w' h a _ => ⟨h.pwdVersion u, hf a w' h⟩)

theorem raises_then (hp : Raises u p w) (hf : ∀ a, Each (Acts anything) (f a)) :
    Raises u (p >>= f) w := by
  refine wp_seq (wp_mono hp fun r w₁ h₁ => ?_)
  cases r with
  | error e => exact fun _ h => by cases h
  | ok a =>
    rw [thenWp_ok]
    exact wp_of_within (within_of_each (hf a)) fun _ w₂ h₂ _ _ =>
      Nat.lt_of_lt_of_le (h₁ a rfl) (h₂.pwdVersion u)

/-- The rest after the lookup of the row `id` has a row of that id and tenant in hand. -/
theorem raises_user {id : UserID} {f : Option User → M β}
    (hnone : ∀ w', Raises u (f none) w')
    (hsome : ∀ user w', user.id = id → w'.db.owns ctx id = true → (w.Calm → w'.Calm) →
      Raises u (f (some user)) w') :
    Raises u (usersFindByID ctx id >>= f) w := by
  refine raises_seq ?_
  unfold usersFindByID query
  refine wp_executes fun r o w₁ hr hex a ha => ?_
  subst ha
  rcases hr with ⟨h, -⟩ | h
  · cases h
  · cases h
    have hdb : w₁.db = w.db := hex.db
    refine ⟨Nat.le_of_eq (by rw [hdb]), ?_⟩
    simp only
    cases hu : w.db.userByID ctx id with
    | none => exact hnone w₁
    | some user =>
      refine hsome user w₁ (DB.userByID_spec hu).2.1 ?_ hex.calm
      rw [hdb, DB.owns, hu]
      rfl

theorem raises_audit (h : Raises u p { w with op := {} }) : Raises u (runAuditOperation p) w := by
  unfold Raises
  rw [wp_runAuditOperation]
  refine wp_mono h fun r w₁ h₁ a ha => ?_
  rcases closeAudit_cases w.db r w₁ with ⟨hc, -⟩ | ⟨e, hc⟩
  · rw [hc] at ha ⊢
    rw [fault_db]
    exact h₁ a ha
  · rw [hc] at ha
    cases ha

theorem raises_noPair (h : Raises u p w) : Raises u (noPair p) w :=
  raises_then h fun _ => each_ret _

/-! ## The writes -/

/-- The write raises the version of its row. -/
def UserWrite.Raises (x : UserWrite) : Prop := ∀ u, u.pwdVersion < (x.apply u).pwdVersion

theorem raises_bumpPwdVersion_write : UserWrite.bumpPwdVersion.Raises :=
  fun u => Nat.lt_succ_self u.pwdVersion

theorem raises_credential_write (hashed : String) : (UserWrite.credential hashed).Raises :=
  fun u => Nat.lt_succ_self u.pwdVersion

theorem pwdVersion_write {db : DB} {s : Stmt} (hx : x.Raises) (hs : s.userWrite? = some (ctx, u, x))
    (ho : db.owns ctx u = true) : db.pwdVersion u < (db.exec s).pwdVersion u := by
  obtain ⟨row, hrow⟩ := Option.isSome_iff_exists.1 ho
  rw [pwdVersion_of_userByID hrow, pwdVersion_of_row (userRow_write hs hrow)]
  exact hx row

/-- **An owned write** that succeeds has raised the version. -/
theorem raises_ownedWrite {s : DB → Stmt} (hx : x.Raises)
    (hs : ∀ db, (s db).userWrite? = some (ctx, u, x)) : Raises u (ownedWrite l ctx u s) w := by
  refine wp_executes fun r o w₁ hr hex a ha => ?_
  subst ha
  rcases hr with ⟨h, -⟩ | h
  · cases h
  · split at h
    · rename_i ho
      cases h
      rw [hex.db]
      exact pwdVersion_write hx (hs _) ho
    · cases h

theorem raises_usersUpdate (hx : x.Raises) : Raises u (usersUpdate l ctx u x) w := by
  exact raises_ownedWrite hx fun _ => rfl

theorem raises_bumpPwdVersion : Raises u (bumpPwdVersion ctx u) w :=
  raises_then (raises_usersUpdate raises_bumpPwdVersion_write) fun _ =>
    each_storeDelete trivial trivial

/-- A dropped error does not matter where there is none. -/
theorem raises_ignore_update (hx : x.Raises) (hc : w.Calm) (ho : w.db.owns ctx u = true) :
    Raises u (ignore (usersUpdate l ctx u x)) w := by
  unfold Raises
  rw [wp_ignore, usersUpdate, ownedWrite, wp_repo_calm hc.faults]
  intro _ _
  simp only [ho, if_true]
  exact pwdVersion_write hx rfl ho

theorem raises_wrap {s : String} (h : Raises u p w) : Raises u (wrap s p) w := by
  unfold Raises
  rw [wp_wrap]
  refine wp_mono h fun r w' h' a ha => ?_
  cases r with
  | error e => cases ha
  | ok b => exact h' b rfl

/-! ## Credentials -/

theorem raises_applyCredentialChange {user : User} {hashed : String} :
    Raises user.id (applyCredentialChange ctx user hashed jti) w :=
  raises_then (raises_ownedWrite (raises_credential_write hashed) fun _ => rfl) fun _ =>
    each_storeDelete trivial trivial

theorem raises_changePasswordAudited {old new ip : String} :
    Raises u (changePasswordAudited env ctx u old new ip) w := by
  refine raises_user (fun _ => raises_fail _) fun user w₁ hid _ _ => ?_
  subst hid
  refine raises_after (each_comparePassword trivial) fun _ _ _ =>
    raises_after (each_refuse _ _) fun _ _ _ => raises_after each_checkNewPassword fun _ _ _ =>
      raises_after (each_hashPassword anything_quiet) fun _ _ _ =>
        raises_then raises_applyCredentialChange fun _ => each_record anything_quiet

theorem anything_spends (jti : Uuid) : anything.Spends jti :=
  ⟨trivial, trivial, trivial, fun _ _ => trivial⟩

theorem anything_revokes : anything.Revokes := ⟨fun _ => trivial, fun _ => trivial⟩

theorem anything_consumes : anything.Consumes := ⟨fun _ => trivial, fun _ => trivial⟩

theorem anything_factors : anything.Factors :=
  ⟨fun _ => trivial, fun _ => trivial, fun _ => trivial, fun _ _ => trivial, fun _ _ => trivial⟩

theorem anything_forgets : anything.Forgets :=
  ⟨anything_factors, ⟨fun _ => trivial, fun _ _ _ => trivial, fun _ => trivial⟩,
    fun _ => trivial, fun _ _ => trivial⟩

theorem raises_resetPasswordWith {claims : Claims} {jti : Uuid} {pw ip : String} :
    Raises claims.userID (resetPasswordWith env ctx claims jti pw ip) w := by
  refine raises_user (fun _ => raises_fail _) fun user w₁ hid _ _ => ?_
  rw [← hid]
  refine raises_after each_checkNewPassword fun _ _ _ =>
    raises_after (each_spendToken anything_quiet (anything_spends jti)) fun _ _ _ =>
      raises_after (each_hashPassword anything_quiet) fun _ _ _ =>
        raises_then raises_applyCredentialChange fun _ => each_record anything_quiet

theorem raises_resetPasswordAudited {t : Token} {pw ip : String} (h : w.signedFor t u) :
    Raises u (resetPasswordAudited env ctx t pw ip) w := by
  obtain ⟨c, hc, rfl⟩ := h
  refine raises_seq (wp_jwtVerifyAs (fun _ h => by cases h) fun c' hc' _ _ a ha => ?_)
  cases ha
  obtain rfl : c = c' := Option.some.inj (hc.symm.trans hc')
  refine ⟨Nat.le_refl _, ?_⟩
  split
  · exact raises_fail _
  · exact raises_resetPasswordWith

theorem raises_setPasswordAudited {new ip : String} :
    Raises u (setPasswordAudited env ctx u new ip) w := by
  refine raises_user (fun _ => raises_fail _) fun user w₁ hid _ _ => ?_
  subst hid
  have hset : ∀ hashed, Each (Acts anything) (usersSetFirstPassword ctx user.id hashed) :=
    fun _ => each_repo trivial fun _ _ _ => trivial
  refine raises_after (each_refuse _ _) fun _ _ _ => raises_after each_checkNewPassword fun _ _ _ =>
    raises_after (each_hashPassword anything_quiet) fun hashed _ _ =>
      raises_after (hset hashed) fun _ _ _ => raises_after (each_refuse _ _) fun _ _ _ =>
        raises_then raises_bumpPwdVersion fun _ => each_record anything_quiet

/-! ## Sessions and accounts -/

theorem raises_logoutAllAudited : Raises u (logoutAllAudited ctx u ip) w :=
  raises_after (each_tokensRevokeAllForUser anything_quiet anything_revokes) fun _ _ _ =>
    raises_after (each_sessionsRevokeAllForUser anything_quiet anything_revokes) fun _ _ _ =>
      raises_then (raises_wrap raises_bumpPwdVersion) fun _ => each_record anything_quiet

/-- **The containment** of a user that is there, without failures. -/
theorem raises_containUser (hc : w.Calm) (ho : w.db.owns ctx u = true) :
    Raises u (containUser ctx u) w := by
  refine raises_after (each_ignore (each_tokensRevokeAllForUser anything_quiet anything_revokes))
    fun _ w₁ h₁ => raises_after
      (each_ignore (each_sessionsRevokeAllForUser anything_quiet anything_revokes))
        fun _ w₂ h₂ => ?_
  have h := h₁.trans h₂
  unfold Raises
  rw [wp_ignore, bumpPwdVersion]
  refine wp_seq ?_
  rw [usersBumpPwdVersion, usersUpdate, ownedWrite, wp_repo_calm (h.calm hc).faults]
  simp only [h.owns ho, if_true, thenWp_ok]
  exact fun _ _ => pwdVersion_write raises_bumpPwdVersion_write rfl (h.owns ho)

theorem raises_applyChangeEmail {old new ip : String} (hc : w.Calm) :
    Raises u (applyChangeEmail env ctx u old new ip) w := by
  refine raises_after (each_usersFindByEmail anything_quiet) fun _ w₁ h₁ =>
    raises_after (each_refuse _ _) fun _ w₂ h₂ =>
      raises_user (fun _ => raises_fail _) fun user w₃ hid ho hcalm => ?_
  refine raises_after (each_usersUpdateUnique trivial trivial) fun _ w₄ h₄ =>
    raises_then (raises_containUser (h₄.calm (hcalm ((h₁.trans h₂).calm hc))) (h₄.owns ho))
      fun _ => ?_
  exact each_bind (each_ignore (each_notify trivial trivial)) fun _ => each_record anything_quiet

theorem raises_confirmChangeEmailAudited {t : Option Uuid} (hc : w.Calm) (h : w.stagedFor t u) :
    Raises u (confirmChangeEmailAudited env ctx t ip) w := by
  obtain ⟨k, payload, old, new, rfl, hlive, hparse⟩ := h
  refine raises_seq ?_
  intro v hv
  cases hv
  refine ⟨Nat.le_refl _, ?_⟩
  rw [TtlMap.take_fst, hlive]
  simp only [hparse]
  exact raises_applyChangeEmail ⟨hc.faults, hc.failure⟩

theorem raises_deactivateAccountAudited (hc : w.Calm) :
    Raises u (deactivateAccountAudited env ctx u t password jti ip) w := by
  refine raises_user (fun _ => raises_fail _) fun user w₁ _ ho hcalm => ?_
  refine raises_after (each_verifySudoOrPassword anything_quiet trivial) fun _ w₂ h₂ =>
    raises_after (each_usersUpdate trivial trivial) fun _ w₃ h₃ =>
      raises_then (raises_containUser ((h₂.trans h₃).calm (hcalm hc)) ((h₂.trans h₃).owns ho))
        fun _ => ?_
  exact each_bind (each_denylistAccessToken anything_quiet) fun _ =>
    each_bind (each_record anything_quiet) fun _ => each_ignore (each_notify trivial trivial)

theorem raises_eraseAccountAudited (hc : w.Calm) :
    Raises u (eraseAccountAudited env ctx u t password jti ip) w := by
  refine raises_user (fun _ => raises_fail _) fun user w₁ _ ho hcalm => ?_
  refine raises_after (each_verifySudoOrPassword anything_quiet trivial) fun _ w₂ h₂ =>
    raises_after (each_draw trivial) fun _ w₃ h₃ =>
      raises_after (each_usersUpdateUnique trivial trivial) fun _ w₄ h₄ =>
        raises_after (each_eraseFactors anything_quiet anything_forgets) fun _ w₅ h₅ => ?_
  have h := ((h₂.trans h₃).trans h₄).trans h₅
  refine raises_then (raises_containUser (h.calm (hcalm hc)) (h.owns ho)) fun _ => ?_
  exact each_bind (each_denylistAccessToken anything_quiet) fun _ =>
    each_bind (each_record anything_quiet) fun _ => each_ignore (each_notify trivial trivial)

/-- The user has an enabled device that the tenant sees. -/
def World.enrolled (w : World) (ctx : Ctx) (u : UserID) : Prop :=
  ∃ d, w.db.totpByUserID ctx u = some d ∧ d.enabled = true

theorem raises_totpDisableAudited {password code : String} (hc : w.Calm) (h : w.enrolled ctx u) :
    Raises u (totpDisableAudited env ctx u t password code) w := by
  obtain ⟨d, hd, hen⟩ := h
  have ho : w.db.owns ctx u = true := by
    obtain ⟨-, hp⟩ := Table.mem_of_first? hd
    simp only [Bool.and_eq_true, decide_eq_true_eq] at hp
    rw [← hp.1]
    exact hp.2
  refine raises_seq ?_
  rw [wp_wrap, totpFindByUserID, wp_query_calm hc.faults]
  intro a ha
  cases ha
  refine ⟨Nat.le_refl _, ?_⟩
  have hfilter : (w.db.totpByUserID ctx u).filter (·.enabled) = some d := by
    simp [hd, Option.filter, hen]
  rw [hfilter]
  refine raises_after (each_authorizeDisable anything_quiet anything_factors fun _ => trivial)
    fun _ w₁ h₁ => raises_after (each_wrap (each_totpDisable anything_quiet trivial))
      fun _ w₂ h₂ => raises_after (each_wrap (each_totpReplaceRecoveryCodes anything_quiet trivial))
        fun _ w₃ h₃ => ?_
  have h := (h₁.trans h₂).trans h₃
  refine raises_then (raises_ignore_update raises_bumpPwdVersion_write (h.calm hc) (h.owns ho))
    fun _ => ?_
  exact each_bind (each_totpRecordSuccess anything_quiet) fun _ => each_alertDisabled anything_quiet

/-! ## Every call that ends the tokens of a user -/

/-- The call is meant to end every access token of the user. -/
def Request.endsTokens (ctx : Ctx) (w : World) (u : UserID) : Request → Prop
  | .changePassword v _ _ _ => v = u
  | .resetPassword t _ _ => w.signedFor t u
  | .setPassword v _ _ => v = u
  | .logoutAll v _ => v = u
  | .confirmChangeEmail t _ => w.stagedFor t u
  | .deactivateAccount v _ _ _ _ => v = u
  | .eraseAccount v _ _ _ _ => v = u
  | .totpDisable v _ _ _ => v = u ∧ w.enrolled ctx u
  | _ => False

/-- **A successful call of this kind raises the version**, if no repository call fails. -/
theorem raises_serve {r : Request} (hw : w.faults = []) (h : r.endsTokens ctx w u) :
    Raises u (serve env ctx r) w := by
  have hc : ({ w with op := {} } : World).Calm := ⟨hw, rfl⟩
  cases r with
  | changePassword =>
    cases h
    exact raises_noPair (raises_audit raises_changePasswordAudited)
  | resetPassword => exact raises_noPair (raises_audit (raises_resetPasswordAudited h))
  | setPassword =>
    cases h
    exact raises_noPair (raises_audit raises_setPasswordAudited)
  | logoutAll v ip =>
    cases h
    exact raises_noPair (raises_audit raises_logoutAllAudited)
  | confirmChangeEmail t ip =>
    exact raises_noPair (raises_audit (raises_confirmChangeEmailAudited hc h))
  | deactivateAccount =>
    cases h
    exact raises_noPair (raises_audit (raises_deactivateAccountAudited hc))
  | eraseAccount =>
    cases h
    exact raises_noPair (raises_audit (raises_eraseAccountAudited hc))
  | totpDisable =>
    obtain ⟨rfl, h⟩ := h
    exact raises_noPair (raises_audit (raises_totpDisableAudited hc h))
  | _ => cases h

/-! ## Administration -/

theorem raises_suspend_write : UserWrite.suspend.Raises := fun u => Nat.lt_succ_self u.pwdVersion

theorem raises_forceLogoutAudited : Raises u (forceLogoutAudited ctx u ip) w :=
  raises_after (each_adminTarget anything_quiet) fun _ _ _ =>
    raises_after (each_tokensRevokeAllForUser anything_quiet anything_revokes) fun _ _ _ =>
      raises_after (each_sessionsRevokeAllForUser anything_quiet anything_revokes) fun _ _ _ =>
        raises_then raises_bumpPwdVersion fun _ => each_record anything_quiet

theorem raises_authoritySuspend : Raises u (authoritySuspend ctx u) w := by
  refine gives_repo fun _ o w₁ h hex => ?_
  split at h
  · rename_i ho
    cases h
    rw [hex.db]
    exact pwdVersion_write raises_suspend_write rfl ho
  · cases h

/-- A granted role leaves the password version alone and raises the epoch. -/
theorem gives_rbacAssignRoleToUser {roleID : Nat} :
    Gives (fun _ w' => w.db.authEpoch u < w'.db.authEpoch u) (rbacAssignRoleToUser ctx u roleID)
      w := by
  refine gives_repo fun _ o w₁ h hex => ?_
  split at h
  · cases h
  rename_i ho
  split at h
  · cases h
  split at h
  · cases h
  cases h
  obtain ⟨row, hrow⟩ := Option.isSome_iff_exists.1 (show w.db.owns ctx u = true by simpa using ho)
  have hafter : (w.db.exec (.assignRole ctx u roleID)).userRow? u =
      some (UserWrite.bumpAuthEpoch.apply row) := userRow_write rfl hrow
  rw [hex.db, authEpoch_of_row (userRow_of_userByID hrow)]
  change row.authEpoch < (w.db.exec (.assignRole ctx u roleID)).authEpoch u
  rw [authEpoch_of_row hafter]
  exact Nat.lt_succ_self row.authEpoch

/-- The administrative call is meant to end every access token of the user. -/
def AdminRequest.endsTokens (u : UserID) : AdminRequest → Prop
  | .forceLogout _ v _ => v = u
  | .suspend v => v = u
  | .assignRoleToUser v _ => v = u
  | _ => False

/-- **A successful call of this kind raises the version or the epoch.** -/
theorem raises_admin {a : AdminRequest} (h : a.endsTokens u) :
    Gives (fun _ w' => w.db.pwdVersion u < w'.db.pwdVersion u ∨
      w.db.authEpoch u < w'.db.authEpoch u) (serveAdmin ctx a) w := by
  cases a with
  | forceLogout adminID v ip =>
    cases h
    have hraises : Raises u (runAuditOperation (forceLogoutAudited ctx u ip)) w :=
      raises_audit raises_forceLogoutAudited
    exact Gives.mono hraises fun _ _ => .inl
  | suspend v =>
    cases h
    have hraises : Raises u (authoritySuspend ctx u) w := raises_authoritySuspend
    exact Gives.mono hraises fun _ _ => .inl
  | assignRoleToUser =>
    cases h
    exact gives_rbacAssignRoleToUser.mono fun _ _ => .inr
  | lockUser => exact h.elim
  | unlockUser => exact h.elim

end FinnAuth
