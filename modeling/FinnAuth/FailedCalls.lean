import FinnAuth.Denials

/-!
# A failed call leaves no authority behind

Every service body ends as `Denials.lean` asks, so that a call that returns an error leaves no new
session, token, account, link or factor, and changes no password, email or version.

Results:
* `ends_logoutAllAudited`, …: the bodies that admit their evidence last;
* `ends_totpValidateAudited`, `ends_loginAudited`, `ends_refreshAudited`, …: those that deny with
  evidence;
* **`mild_of_failed`**: every public and administrative call.
-/

namespace FinnAuth

open Lib Prog

variable {α β : Type} {env : Env} {ctx : Ctx} {ip ua : String} {db : DB} {P : α → World → Prop}
  {w : World}

/-! ## Bodies whose evidence comes last -/

variable {password detail : String} {t : Option Token} {p : M α} {Q : β → World → Prop}
  {f : α → M β} {e : AuditLog}

theorem tacit_revokes : tacit.Revokes :=
  ⟨fun _ => by simp [tacit, Stmt.kind], fun _ => by simp [tacit, Stmt.kind]⟩

theorem tacit_update (id : UserID) (x : UserWrite) : tacit.stmt (.updateUser ctx id x) := by
  cases x <;> simp [tacit, Stmt.kind, UserWrite.kind]

theorem tacit_factors : tacit.Factors := by
  constructor <;> intros <;> simp [tacit, Stmt.kind]

theorem tacit_passkeys : tacit.Passkeys := by
  constructor <;> intros <;> simp [tacit, Stmt.kind]

theorem tacit_forgets : tacit.Forgets :=
  ⟨tacit_factors, tacit_passkeys, fun _ => by simp [tacit, Stmt.kind],
    fun _ _ => by simp [tacit, Stmt.kind]⟩

theorem tacit_spends (jti : Uuid) : tacit.Spends jti :=
  ⟨trivial, trivial, trivial, fun _ _ => by simp [tacit, Stmt.kind]⟩

theorem tacit_issues (user : User) : tacit.Issues user where
  sign _ _ _ _ := trivial
  sessionCreate _ := trivial
  tokenCreate _ _ := trivial
  touchSession _ _ _ _ _ _ _ := by simp [tacit, Stmt.kind]
  insertSession _ _ := by simp [tacit, Stmt.kind]
  insertToken _ _ := by simp [tacit, Stmt.kind]
  loginAlert _ _ _ := trivial

/-- The next part says nothing. -/
theorem tacit_seq (hp : Each (Acts tacit) p) (hw : w.op.undone = true)
    (h : ∀ a w', w'.op.undone = true → Ends env db Q (f a) w') : Ends env db Q (p >>= f) w :=
  ends_seq (ends_tacit hp hw h)

/-- The body ends with the evidence of its success. -/
theorem ends_record {P : Unit → World → Prop} (he : e.success = true) (h : ∀ a w', P a w') :
    Ends env db P (record ctx e) w :=
  ends_evidence he fun w' _ => h () w'

/-- After the evidence of a success anything may follow. -/
theorem record_seq {f : Unit → M β} (he : e.success = true) (hf : Each (Acts anything) (f ()))
    (h : ∀ a w', Q a w') : Ends env db Q (record ctx e >>= f) w :=
  ends_seq (ends_evidence he fun _ hl => ends_latched hf hl h)

/-- The account is looked up and its absence refused. -/
theorem tacit_user {e : Err} {f : Option User → M β} (hnone : f none = .fail e)
    (hw : w.op.undone = true)
    (h : ∀ user w', w'.op.undone = true → Ends env db Q (f (some user)) w') :
    Ends env db Q (usersFindByID ctx userID >>= f) w := by
  refine tacit_seq (each_usersFindByID tacit_basic) hw fun user w' hw' => ?_
  cases user with
  | none =>
    rw [hnone]
    exact ends_fail (.inr hw')
  | some user => exact h user w' hw'

section Tacit

variable {userID : UserID} {U : Unit → World → Prop} (hU : ∀ a w', U a w')
  (hw : w.op.undone = true)
include hU hw

variable {jti : Option Uuid}

theorem ends_logoutAllAudited : Ends env db U (logoutAllAudited ctx userID ip) w :=
  tacit_seq (each_tokensRevokeAllForUser tacit_basic tacit_revokes) hw fun _ _ hw =>
    tacit_seq (each_sessionsRevokeAllForUser tacit_basic tacit_revokes) hw fun _ _ hw =>
      tacit_seq (each_wrap (each_bumpPwdVersion tacit_basic (tacit_update _ _))) hw fun _ _ _ =>
        ends_record rfl hU

theorem ends_resetPasswordAudited {t : Token} {pw : String} :
    Ends env db U (resetPasswordAudited env ctx t pw ip) w := by
  refine tacit_seq (each_jwtVerifyAs tacit_basic) hw fun claims _ hw => ?_
  split
  · exact ends_fail (.inr hw)
  refine tacit_user rfl hw fun user _ hw => ?_
  exact tacit_seq each_checkNewPassword hw fun _ _ hw =>
    tacit_seq (each_spendToken tacit_basic (tacit_spends _)) hw fun _ _ hw =>
      tacit_seq (each_hashPassword tacit_basic) hw fun _ _ hw =>
        tacit_seq (each_applyCredentialChange tacit_basic trivial (by simp [tacit, Stmt.kind])) hw
          fun _ _ _ => ends_record rfl hU

theorem ends_verifyEmailAudited {t : Token} : Ends env db U (verifyEmailAudited env ctx t) w := by
  refine tacit_seq (each_jwtVerifyAs tacit_basic) hw fun claims _ hw => ?_
  split
  · exact ends_fail (.inr hw)
  refine tacit_user rfl hw fun user _ hw => ?_
  exact tacit_seq (each_spendToken tacit_basic (tacit_spends _)) hw fun _ _ hw =>
    tacit_seq (each_usersUpdate trivial (tacit_update _ _)) hw fun _ _ _ => ends_record rfl hU

theorem ends_changePasswordAudited {old new : String} :
    Ends env db U (changePasswordAudited env ctx userID old new ip) w := by
  refine tacit_user rfl hw fun user _ hw => ?_
  exact tacit_seq (each_comparePassword trivial) hw fun _ _ hw =>
    tacit_seq (each_refuse _ _) hw fun _ _ hw => tacit_seq each_checkNewPassword hw fun _ _ hw =>
      tacit_seq (each_hashPassword tacit_basic) hw fun _ _ hw =>
        tacit_seq (each_applyCredentialChange tacit_basic trivial (by simp [tacit, Stmt.kind])) hw
          fun _ _ _ => ends_record rfl hU

theorem ends_setPasswordAudited {new : String} :
    Ends env db U (setPasswordAudited env ctx userID new ip) w := by
  refine tacit_user rfl hw fun user _ hw => ?_
  have hset : ∀ hashed, Each (Acts tacit) (usersSetFirstPassword ctx user.id hashed) := by
    refine fun hashed => each_repo trivial fun db s h => ?_
    split at h
    · exact Option.some.inj h ▸ tacit_update _ _
    · cases h
  exact tacit_seq (each_refuse _ _) hw fun _ _ hw => tacit_seq each_checkNewPassword hw
    fun _ _ hw => tacit_seq (each_hashPassword tacit_basic) hw fun _ _ hw =>
      tacit_seq (hset _) hw fun _ _ hw => tacit_seq (each_refuse _ _) hw fun _ _ hw =>
        tacit_seq (each_bumpPwdVersion tacit_basic (tacit_update _ _)) hw fun _ _ _ =>
          ends_record rfl hU

theorem ends_confirmChangeEmailAudited {t : Option Uuid} :
    Ends env db U (confirmChangeEmailAudited env ctx t ip) w := by
  cases t with
  | none => exact ends_fail (.inr hw)
  | some t =>
    refine tacit_seq (each_storeTake trivial trivial) hw fun v _ hw => ?_
    split
    · split
      · exact ends_fail (.inr hw)
      refine tacit_seq (each_usersFindByEmail tacit_basic) hw fun _ _ hw =>
        tacit_seq (each_refuse _ _) hw fun _ _ hw => tacit_user rfl hw fun user _ hw => ?_
      exact tacit_seq (each_usersUpdateUnique trivial (tacit_update _ _)) hw fun _ _ hw =>
        tacit_seq (each_containUser tacit_basic tacit_revokes (tacit_update _ _)) hw fun _ _ hw =>
          tacit_seq (each_ignore (each_notify trivial trivial)) hw fun _ _ _ => ends_record rfl hU
    · exact ends_fail (.inr hw)

theorem ends_deactivateAccountAudited :
    Ends env db U (deactivateAccountAudited env ctx userID t password jti ip) w := by
  refine tacit_user rfl hw fun user _ hw => ?_
  exact tacit_seq (each_verifySudoOrPassword tacit_basic trivial) hw fun _ _ hw =>
    tacit_seq (each_usersUpdate trivial (tacit_update _ _)) hw fun _ _ hw =>
      tacit_seq (each_containUser tacit_basic tacit_revokes (tacit_update _ _)) hw fun _ _ hw =>
        tacit_seq (each_denylistAccessToken tacit_basic) hw fun _ _ _ =>
          record_seq rfl (each_ignore (each_notify trivial trivial)) hU

theorem ends_eraseAccountAudited :
    Ends env db U (eraseAccountAudited env ctx userID t password jti ip) w := by
  refine tacit_user rfl hw fun user _ hw => ?_
  exact tacit_seq (each_verifySudoOrPassword tacit_basic trivial) hw fun _ _ hw =>
    tacit_seq (each_draw trivial) hw fun _ _ hw =>
      tacit_seq (each_usersUpdateUnique trivial (tacit_update _ _)) hw fun _ _ hw =>
        tacit_seq (each_eraseFactors tacit_basic tacit_forgets) hw fun _ _ hw =>
          tacit_seq (each_containUser tacit_basic tacit_revokes (tacit_update _ _)) hw
            fun _ _ hw => tacit_seq (each_denylistAccessToken tacit_basic) hw fun _ _ _ =>
              record_seq rfl (each_ignore (each_notify trivial trivial)) hU

end Tacit

/-! ## Second factors -/

/-- A stretch of the first phase without evidence. -/
theorem gentle_seq (hp : Each (Acts gentle) p) (hw : Clean env db w)
    (h : ∀ a w', Clean env db w' → Ends env db Q (f a) w') : Ends env db Q (p >>= f) w :=
  ends_seq (ends_gentle hp hw h)

section Totp

variable {userID : UserID} {d : TOTPDevice} {code : String} {U : Unit → World → Prop}
  {Q : List String → World → Prop}

/-- A failure with its evidence. -/
theorem ends_failure {e : Err} (hw : Mild env db w.db) :
    Ends env db P (totpRecordFailure env ctx userID detail >>= fun _ => .fail e) w :=
  ends_seq (ends_mild (each_totpRecordFailure mild_quiet) hw fun _ _ hm => ends_fail (.inl hm))

theorem ends_guardBruteForce (hw : Clean env db w)
    (h : ∀ w', w'.db = w.db → Clean env db w' → U () w') :
    Ends env db U (guardBruteForce env ctx userID) w :=
  ends_seq (ends_idle (each_storeCounterValueAs trivial trivial) hw fun _ w' hdb hw' =>
    ends_refuseAfter (each_totpRecordFailure mild_quiet) hw'.mild (h w' hdb hw'))

/-- The re-seal of a stored device. -/
theorem ends_reseal {nonce : Nat} (hd : d ∈ w.db.totpDevices.rows) (hs : d.secret ≠ "")
    (hopen : env.decrypt d.secretEncrypted = none) (hw : Clean env db w)
    (h : ∀ w', Clean env db w' → U () w') :
    Ends env db U
      (ignore (totpSave ctx { d with secretEncrypted := env.encrypt nonce d.secret })) w := by
  unfold Ends
  rw [wp_ignore]
  refine wp_seq ?_
  rw [wp_draw, thenWp_ok]
  refine wp_executes fun r o w' hr hex => h w' ⟨?_, hex.op.trans hw.op⟩
  rw [hex.db]
  have hkey : d.userID ∈ w.db.totpDevices.rows.map TOTPDevice.userID := List.mem_map.2 ⟨d, hd, rfl⟩
  rcases hr with ⟨-, rfl⟩ | hr
  · exact hw.mild
  · split at hr
    · cases hr
      exact hw.mild
    · split at hr
      · -- a row is there, so the insert is refused
        cases hr
        exact hw.mild
      · split at hr
        · cases hr
          exact hw.mild.trans (mild_reseal hd hs hopen)
        · cases hr
          exact hw.mild

theorem ends_openActiveSecret {Q : String × TOTPDevice → World → Prop}
    (hd : d ∈ w.db.totpDevices.rows) (hw : Clean env db w)
    (h : ∀ a w', Clean env db w' → Q a w') : Ends env db Q (openActiveSecret env ctx d) w := by
  unfold openActiveSecret
  split
  · exact ends_ret (h _ w hw)
  split
  · exact ends_ret (h _ w hw)
  rename_i hopen
  split
  · exact ends_fail (.inl hw.mild)
  rename_i hs
  refine ends_seq ?_
  refine wp_seq ?_
  exact ends_seq (ends_reseal hd hs hopen ⟨hw.mild, hw.op⟩ fun w' hw' => ends_ret (h _ w' hw'))

theorem ends_checkSixDigits {badCode replay : String} (hd : d ∈ w.db.totpDevices.rows)
    (hw : Clean env db w) (h : ∀ w', Clean env db w' → U () w') :
    Ends env db U (checkSixDigits env ctx userID d code badCode replay) w :=
  ends_seq (ends_openActiveSecret hd hw fun _ _ hw => gentle_seq (each_totpValid gentle_basic) hw
    fun _ _ hw => ends_seq (ends_refuseAfter (each_totpRecordFailure mild_quiet) hw.mild
      (gentle_seq (each_replayGuard gentle_basic) hw fun _ w' hw =>
        ends_refuseAfter (each_totpRecordFailure mild_quiet) hw.mild (h w' hw))))

/-- The device in hand is the stored row. -/
theorem ends_enabledDevice {missing : String} {Q : TOTPDevice → World → Prop}
    (hw : Clean env db w)
    (h : ∀ d w', d ∈ w'.db.totpDevices.rows → Clean env db w' → Q d w') :
    Ends env db Q (enabledDevice env ctx userID missing) w := by
  refine ends_seq (ends_guardBruteForce hw fun w₁ _ hw₁ => ends_seq (ends_query hw₁
    fun w₂ hdb hw₂ => ?_))
  split
  · exact ends_failure hw₂.mild
  · rename_i d hd
    have hfind : w₁.db.totpByUserID ctx userID = some d := (Option.filter_eq_some_iff.1 hd).1
    exact ends_ret (h d w₂ (by rw [hdb]; exact (Table.mem_of_first? hfind).1) hw₂)

theorem ends_totpRecordSuccess {event detail : String} (h : ∀ w', w'.op.latched = true → U () w')
    (hw : Clean env db w) : Ends env db U (totpRecordSuccess ctx userID event detail) w :=
  gentle_seq (each_clearFailures gentle_basic) hw fun _ _ _ => ends_evidence rfl h

theorem ends_checkRecoveryCode (hw : Clean env db w) (h : ∀ w', w'.op.latched = true → U () w') :
    Ends env db U (checkRecoveryCode env ctx userID code) w := by
  refine ends_seq (ends_query hw fun w₁ _ hw₁ => ?_)
  split
  · exact ends_failure hw₁.mild
  refine gentle_seq (each_getNow trivial) hw₁ fun now w₂ hw₂ => ?_
  refine wp_seq ?_
  rw [wp_attempt]
  refine wp_executes fun r o w₃ hr hex => ?_
  have hclean : o = none → Clean env db w₃ := fun ho =>
    ⟨by rw [hex.db, ho]; exact hw₂.mild, hex.op.trans hw₂.op⟩
  rcases hr with ⟨rfl, ho⟩ | hr
  · exact ends_fail (.inl (hclean ho).mild)
  · split at hr
    · cases hr
      refine tacit_seq (each_clearFailures tacit_basic) ?_ fun _ _ _ => ends_evidence rfl h
      rw [hex.op, hw₂.op]
      rfl
    · cases hr
      exact ends_failure (hclean rfl).mild

theorem ends_totpValidateAudited (hw : Clean env db w) (h : ∀ w', w'.op.latched = true → U () w') :
    Ends env db U (totpValidateAudited env ctx userID code) w := by
  refine ends_seq (ends_enabledDevice hw fun d w₁ hd hw₁ => ?_)
  split
  · exact ends_seq (ends_checkSixDigits hd hw₁ fun w₂ hw₂ => ends_totpRecordSuccess h hw₂)
  · exact ends_checkRecoveryCode hw₁ h

/-- Viewing the codes writes nothing but the re-seal and the evidence. -/
theorem ends_totpViewRecoveryCodesAudited (hw : Clean env db w) :
    Ends env db (fun _ w' => Mild env db w'.db)
      (totpViewRecoveryCodesAudited env ctx userID code) w :=
  ends_seq (ends_enabledDevice hw fun _ _ hd hw => ends_seq (ends_checkSixDigits hd hw fun _ hw =>
    ends_seq (ends_query hw fun _ _ hw => ends_mild (each_bind (each_totpRecordSuccess mild_quiet)
      fun _ => each_ret _) hw.mild fun _ _ hm => hm)))

theorem ends_totpRegenerateRecoveryCodesAudited (hQ : ∀ a w', Q a w') (hw : Clean env db w) :
    Ends env db Q (totpRegenerateRecoveryCodesAudited env ctx userID) w := by
  refine ends_seq (ends_query hw fun w₁ _ hw₁ => ?_)
  split
  · exact ends_failure hw₁.mild
  · exact tacit_seq (each_wrap (each_newRecoveryCodes tacit_basic (tacit_factors.replaceCodes _)))
      hw₁.undone fun _ _ hw => ends_seq (tacit_seq (each_clearFailures tacit_basic) hw
        fun _ _ _ => ends_evidence rfl fun _ _ => ends_ret (hQ _ _))

/-- The lock is released on every way out. -/
theorem ends_withRotationLock (hw : Clean env db w) (hP : ∀ a w', P a w')
    (hp : ∀ w', Clean env db w' → Ends env db (fun _ _ => True) p w') :
    Ends env db P (withRotationLock userID p) w := by
  refine gentle_seq (each_acquireRotationLock gentle_basic) hw fun _ _ hw => ends_seq
    (ends_refuse (.inl hw.mild) (wp_seq ?_))
  rw [wp_attempt]
  refine wp_mono (hp _ hw) fun r w₂ h₂ => ?_
  rw [thenWp_ok]
  refine wp_seq ?_
  cases r with
  | error e => exact h₂
  | ok a => exact hP a _

theorem ends_totpEnableAudited {Q : String → World → Prop} (hQ : ∀ a w', Q a w')
    (hw : Clean env db w) : Ends env db Q (totpEnableAudited env ctx userID t) w :=
  ends_withRotationLock hw hQ fun _ hw =>
    tacit_seq (each_totpFindByUserID tacit_basic) hw.undone fun _ _ hw =>
      tacit_seq (each_draw trivial) hw fun _ _ hw => tacit_seq (each_sealText tacit_basic) hw
        fun _ _ hw => tacit_seq (each_doIf (each_verifySudoToken tacit_basic)) hw fun _ _ hw =>
          tacit_seq (each_totpSave tacit_basic (fun _ => tacit_factors.insertDevice _)
            (tacit_factors.updateDevice _)) hw fun _ _ _ =>
              record_seq rfl (each_ret _) fun _ _ => trivial

theorem ends_totpActivate (hQ : ∀ a w', Q a w') (hw : w.op.undone = true) :
    Ends env db Q (totpActivate env ctx userID d) w := by
  have hsave : ∀ d, Each (Acts tacit) (totpSave ctx d) := fun _ =>
    each_totpSave tacit_basic (fun _ => tacit_factors.insertDevice _) (tacit_factors.updateDevice _)
  refine tacit_seq (hsave _) hw fun _ _ hw => tacit_seq (each_attempt
    (each_newRecoveryCodes tacit_basic (tacit_factors.replaceCodes _))) hw fun r _ hw => ?_
  cases r with
  | error e =>
    exact tacit_seq (each_ignore (hsave _)) hw fun _ _ hw => ends_fail (.inr hw)
  | ok =>
    exact ends_seq (tacit_seq (each_clearFailures tacit_basic) hw fun _ _ _ =>
      ends_evidence rfl fun _ _ => ends_ret (hQ _ _))

theorem ends_openStagedSecret {Q : String × TOTPDevice → World → Prop}
    (hd : d ∈ w.db.totpDevices.rows) (hw : Clean env db w)
    (h : ∀ a w', Clean env db w' → Q a w') : Ends env db Q (openStagedSecret env ctx d) w := by
  unfold openStagedSecret
  split
  · split
    · exact ends_ret (h _ w hw)
    · exact ends_fail (.inl hw.mild)
  · exact ends_openActiveSecret hd hw h

theorem ends_totpVerifyEnableAudited (hQ : ∀ a w', Q a w') (hw : Clean env db w) :
    Ends env db Q (totpVerifyEnableAudited env ctx userID code) w := by
  refine ends_seq (ends_guardBruteForce hw fun _ _ hw => ends_withRotationLock hw hQ fun w₁ hw₁ =>
    ends_seq (ends_query hw₁ fun w₂ hdb hw₂ => ?_))
  split
  · exact ends_failure hw₂.mild
  · rename_i d hd
    have hmem : d ∈ w₂.db.totpDevices.rows := by rw [hdb]; exact (Table.mem_of_first? hd).1
    exact ends_seq (ends_refuse (.inl hw₂.mild) (ends_seq (ends_openStagedSecret hmem hw₂
      fun _ _ hw => gentle_seq (each_totpValid gentle_basic) hw fun _ _ hw =>
        ends_seq (ends_refuseAfter (each_totpRecordFailure mild_quiet) hw.mild
          (ends_totpActivate (fun _ _ => trivial) hw.undone)))))

theorem ends_authorizeDisable (hw : Clean env db w) (h : ∀ w', w'.op.undone = true → U () w') :
    Ends env db U (authorizeDisable env ctx userID t password code) w := by
  refine gentle_seq (each_sudoProven gentle_basic) hw fun proven _ hw => ?_
  split
  · exact ends_ret (h _ hw.undone)
  refine gentle_seq (each_refuse _ _) hw fun _ _ hw =>
    gentle_seq (each_attempt (each_usersFindByID gentle_basic)) hw fun r _ hw => ?_
  split
  · refine gentle_seq (each_comparePassword trivial) hw fun _ _ hw =>
      gentle_seq (each_refuse _ _) hw fun _ _ hw => gentle_seq (each_refuse _ _) hw fun _ _ hw =>
        wp_seq ?_
    rw [wp_attempt]
    refine wp_mono (ends_totpValidateAudited (U := fun _ w' => w'.op.latched = true) hw
      fun _ hl => hl) fun r w' h' => ?_
    cases r with
    | error e => exact h'
    | ok a => exact h w' (latched_undone h')
  · exact ends_fail (.inl hw.mild)

theorem ends_totpDisableAudited (hU : ∀ a w', U a w') (hw : Clean env db w) :
    Ends env db U (totpDisableAudited env ctx userID t password code) w := by
  refine gentle_seq (each_wrap (each_totpFindByUserID gentle_basic)) hw fun dev _ hw => ?_
  split
  · exact ends_ret (hU _ _)
  · refine ends_seq (ends_authorizeDisable hw fun _ hw => tacit_seq (each_wrap (each_totpDisable
      tacit_basic (tacit_factors.disableDevice _))) hw fun _ _ hw => tacit_seq (each_wrap
        (each_totpReplaceRecoveryCodes tacit_basic (tacit_factors.replaceCodes _ _))) hw
          fun _ _ hw => tacit_seq (each_ignore (each_usersUpdate trivial (tacit_update _ _))) hw
            fun _ _ hw => ends_seq (tacit_seq (each_clearFailures tacit_basic) hw fun _ _ _ =>
              ends_evidence rfl fun _ hl => ends_latched (each_alertDisabled anything_quiet) hl hU))

end Totp

/-! ## Logins -/

section Login

variable {userID : UserID} {user : User} {L : LoginResult → World → Prop}
  {Q : TokenPair × UserProfile → World → Prop} {U : Unit → World → Prop}
  {R : UserProfile → World → Prop} {email : String} {rt : RefreshToken} {i : RegisterInput}

/-- The pair, or the token of the second factor, then the evidence. -/
theorem ends_checkMFAOrIssueTokensAudited (hL : ∀ a w', L a w') (hw : w.op.undone = true) :
    Ends env db L (checkMFAOrIssueTokensAudited env ctx user ip ua detail) w := by
  refine tacit_seq (each_refuse _ _) hw fun _ _ hw =>
    tacit_seq (each_wrap (each_totpFindByUserID tacit_basic)) hw fun dev _ hw => ?_
  split
  · exact tacit_seq (each_jwtIssue tacit_basic fun _ _ _ => trivial) hw fun _ _ _ =>
      record_seq rfl (each_ret _) hL
  · exact tacit_seq (each_issueTokenPair tacit_basic (tacit_issues user)) hw fun _ _ _ =>
      record_seq rfl (each_ret _) hL

theorem ends_loginGates (hw : Clean env db w) (h : ∀ w', Clean env db w' → U () w') :
    Ends env db U (loginGates env ctx user email ip) w :=
  ends_seq (ends_refuse (.inl hw.mild) (ends_seq (ends_refuseAfter (each_record mild_quiet) hw.mild
    (gentle_seq (each_getNow trivial) hw fun _ w' hw =>
      ends_refuseAfter (each_record mild_quiet) hw.mild (h w' hw)))))

theorem mild_failedAttempt (id : UserID) (t : Option Nat) :
    mild.stmt (.updateUser ctx id (.failedAttempt t)) := by
  simp [mild, Stmt.kind, UserWrite.kind, mildKinds]

theorem ends_loginAudited {email password captcha : String} (hL : ∀ a w', L a w')
    (hw : Clean env db w) :
    Ends env db L (loginAudited env ctx email password captcha ip ua) w := by
  refine gentle_seq (each_loginLimits gentle_basic) hw fun _ _ hw =>
    gentle_seq (each_wrap (each_usersFindByEmail gentle_basic)) hw fun user _ hw => ?_
  cases user with
  | none => exact ends_mild (each_unknownUser mild_quiet) hw.mild fun a w' _ => hL a w'
  | some user =>
    refine ends_seq (ends_loginGates hw fun _ hw => gentle_seq (each_comparePassword trivial) hw
      fun _ _ hw => ends_seq (ends_refuseAfter (each_recordFailedLogin mild_quiet
        (mild_failedAttempt _)) hw.mild ?_))
    exact tacit_seq (each_usersUpdate trivial (tacit_update _ _)) hw.undone fun _ _ hw =>
      tacit_seq (each_storeDelete trivial trivial) hw fun _ _ hw =>
        ends_checkMFAOrIssueTokensAudited hL hw

theorem anything_issues (user : User) : anything.Issues user :=
  ⟨fun _ _ _ _ => trivial, fun _ => trivial, fun _ _ => trivial, fun _ _ _ _ _ _ _ => trivial,
    fun _ _ => trivial, fun _ _ => trivial, fun _ _ _ => trivial⟩

theorem ends_completeMFALoginAudited {code : String} (hQ : ∀ a w', Q a w')
    (hw : Clean env db w) :
    Ends env db Q (completeMFALoginAudited env ctx userID code ip ua) w := by
  refine ends_seq (ends_totpValidateAudited hw fun _ hl => ends_latched ?_ hl hQ)
  refine each_bind (each_usersFindByID anything_quiet) fun user => ?_
  cases user with
  | none => exact each_throw _
  | some user =>
    exact each_bind (each_refuse _ _) fun _ =>
      each_bind (each_issueTokenPair anything_quiet (anything_issues user)) fun _ =>
        each_bind (each_record anything_quiet) fun _ =>
          each_bind (each_record anything_quiet) fun _ => each_ret _

theorem ends_issuePasskeyTokenPairAudited (hQ : ∀ a w', Q a w') (hw : w.op.undone = true) :
    Ends env db Q (issuePasskeyTokenPairAudited env ctx user ip ua) w :=
  tacit_seq (each_refuse _ _) hw fun _ _ hw =>
    tacit_seq (each_issueTokenPair tacit_basic (tacit_issues user)) hw fun _ _ _ =>
      record_seq rfl (each_ret _) hQ

/-! ## Rotation -/

theorem ends_checkFamily (hw : Clean env db w) (h : ∀ w', Clean env db w' → U () w') :
    Ends env db U (checkFamily env ctx rt ip) w := by
  unfold checkFamily
  split
  · exact ends_ret (h w hw)
  refine gentle_seq (each_wrap (each_sessionsFindByID gentle_basic)) hw fun sess _ hw => ?_
  cases sess with
  | none => exact ends_fail (.inl hw.mild)
  | some sess =>
    exact gentle_seq (each_getNow trivial) hw fun _ w' hw =>
      ends_refuseAfter (each_handleTokenReuse mild_quiet mild_revokes) hw.mild (h w' hw)

theorem gentle_consumes : gentle.Consumes :=
  ⟨fun _ => trivial, fun _ => by simp [gentle, Stmt.kind, mildKinds]⟩

theorem ends_consumeToken (hw : Clean env db w) (h : ∀ w', Clean env db w' → U () w') :
    Ends env db U (consumeToken env ctx rt ip) w := by
  refine gentle_seq (each_attempt (each_tokensRevoke gentle_consumes)) hw fun r w' hw => ?_
  split
  · exact ends_ret (h w' hw)
  · exact ends_seq (ends_mild (each_handleTokenReuse mild_quiet mild_revokes) hw.mild
      fun _ _ hm => ends_fail (.inl hm))
  · exact ends_fail (.inl hw.mild)

theorem ends_refreshAudited {R : TokenPair → World → Prop} {t : Uuid} (hR : ∀ a w', R a w')
    (hw : Clean env db w) : Ends env db R (refreshAudited env ctx t ip ua) w := by
  refine gentle_seq (each_wrap (each_query trivial)) hw fun rt _ hw => ?_
  cases rt with
  | none => exact ends_fail (.inl hw.mild)
  | some rt =>
    refine ends_seq (ends_refuseAfter (each_handleTokenReuse mild_quiet mild_revokes) hw.mild
      (gentle_seq (each_getNow trivial) hw fun _ _ hw => ends_seq (ends_refuseAfter
        (each_ignore (each_tokensRevoke mild_consumes)) hw.mild
          (gentle_seq (each_usersFindByID gentle_basic) hw fun user _ hw => ?_))))
    cases user with
    | none => exact ends_fail (.inl hw.mild)
    | some user =>
      exact gentle_seq (each_refuse _ _) hw fun _ _ hw => ends_seq (ends_checkFamily hw fun _ hw =>
        ends_seq (ends_consumeToken hw fun _ hw => tacit_seq (each_issueTokenPair tacit_basic
          (tacit_issues user)) hw.undone fun _ _ _ => record_seq rfl (each_ret _) hR))

/-! ## Registration and Google accounts -/

theorem ends_registerCreate {username email : String} (hR : ∀ a w', R a w') (hw : Clean env db w) :
    Ends env db R (registerCreate env ctx i username email) w := by
  refine gentle_seq (each_hashPassword gentle_basic) hw fun _ _ hw =>
    gentle_seq (each_draw trivial) hw fun id w₁ hw₁ => wp_seq ?_
  rw [wp_attempt]
  refine wp_executes fun r o w₂ hr hex => ?_
  rw [thenWp_ok]
  have hmild : o = none → Mild env db w₂.db := fun ho => by
    rw [hex.db, ho]
    exact hw₁.mild
  split
  · -- the row is there and its evidence follows
    refine record_seq rfl (each_bind (each_sendVerification anything_quiet (fun _ _ _ => trivial)
      fun _ => trivial) fun _ => each_ret _) hR
  · refine ends_mild (each_handleDuplicateRegistration mild_quiet) (hmild ?_) fun a w' _ => hR a w'
    rcases hr with ⟨-, ho⟩ | hr
    · exact ho
    · split at hr
      · cases hr; rfl
      · split at hr
        · cases hr; rfl
        · cases hr
  · refine ends_fail (.inr ?_)
    rw [hex.op]
    exact hw₁.undone

theorem ends_registerAudited (hR : ∀ a w', R a w') (hw : Clean env db w) :
    Ends env db R (registerAudited env ctx i) w := by
  have hdup : ∀ {owner username w}, Clean env db w →
      Ends env db R (handleDuplicateRegistration env ctx owner i.ip username) w := fun hw =>
    ends_mild (each_handleDuplicateRegistration mild_quiet) hw.mild fun a w' _ => hR a w'
  refine gentle_seq (each_refuse _ _) hw fun _ _ hw => gentle_seq (each_refuse _ _) hw fun _ _ hw =>
    gentle_seq (each_registerCount gentle_basic) hw fun _ _ hw =>
      gentle_seq (each_refuse _ _) hw fun _ _ hw => gentle_seq (each_refuse _ _) hw fun _ _ hw =>
        gentle_seq (each_wrap (each_usersFindByEmail gentle_basic)) hw fun existing _ hw => ?_
  cases existing with
  | some => exact hdup hw
  | none =>
    refine gentle_seq (each_wrap (each_query trivial)) hw fun existing _ hw => ?_
    cases existing with
    | some => exact hdup hw
    | none => exact ends_registerCreate hR hw

/-- The link is the only evidence, and it is one of success. -/
theorem ends_findOrCreateUser {R : User → World → Prop} {claims : GoogleIDTokenClaims}
    (hw : w.op.undone = true) (h : ∀ a w', w'.op.undone = true → R a w') :
    Ends env db R (findOrCreateUser env ctx claims email ip) w := by
  have hcreate : ∀ u, Each (Acts tacit) (usersCreate env ctx u) := fun _ =>
    each_usersCreate tacit_basic (by simp [tacit, Stmt.kind])
  refine tacit_seq (each_wrap (each_query trivial)) hw fun ident _ hw => ?_
  cases ident with
  | some =>
    refine tacit_seq (each_wrap (each_usersFindByID tacit_basic)) hw fun user _ hw => ?_
    cases user with
    | none => exact ends_fail (.inr hw)
    | some user => exact ends_ret (h _ _ hw)
  | none =>
    refine tacit_seq (each_bind (each_wrap (each_usersFindByEmail tacit_basic)) fun existing => ?_)
      hw fun user _ hw => ends_seq ?_
    · cases existing with
      | some => exact each_bind (each_refuse _ _) fun _ => each_ret _
      | none =>
        exact each_bind (each_wrap (each_query trivial)) fun _ => each_bind (each_draw trivial)
          fun _ => each_bind (each_draw trivial) fun _ => each_mapDuplicateKey (hcreate _)
    · refine tacit_seq (each_wrap (each_query trivial)) hw fun ident _ hw => ?_
      cases ident with
      | some => exact ends_ret (ends_ret (h _ _ hw))
      | none =>
        refine tacit_seq (each_wrap (each_repo trivial fun _ s hs => ?_)) hw fun _ _ _ =>
          ends_seq (ends_evidence rfl fun w' hl => ?_)
        · split at hs
          · cases hs
          · split at hs
            · cases hs
            · exact Option.some.inj hs ▸ by simp [tacit, Stmt.kind]
        · exact ends_tacit (each_ignore (each_notify trivial trivial)) (latched_undone hl)
            fun _ _ hw => ends_ret (h _ _ hw)

theorem ends_handleCallbackAudited {reply : GoogleReply} {state : Option Uuid}
    (hL : ∀ a w', L a w') (hw : w.op.undone = true) :
    Ends env db L (handleCallbackAudited env ctx reply state ip ua) w :=
  tacit_seq (each_consumeState tacit_basic fun _ => trivial) hw fun _ _ hw =>
    tacit_seq each_verifiedClaims hw fun _ _ hw => ends_seq (ends_findOrCreateUser hw fun _ _ hw =>
      tacit_seq (each_refuse _ _) hw fun _ _ hw => ends_checkMFAOrIssueTokensAudited hL hw)

end Login

/-! ## Unlinking, passkeys, administration -/

section Rest

variable {userID : UserID} {U : Unit → World → Prop} {a : Assertion}

theorem ends_unlinkAudited {provider : String} (hU : ∀ a w', U a w') (hw : w.op.undone = true) :
    Ends env db U (unlinkAudited ctx userID provider ip) w := by
  refine tacit_seq (each_query trivial) hw fun ident _ hw => ?_
  cases ident with
  | none => exact ends_fail (.inr hw)
  | some =>
    refine tacit_user rfl hw fun user _ hw => ?_
    refine tacit_seq (each_bind (each_attempt (each_query trivial)) fun r => ?_) hw fun _ _ hw =>
      tacit_seq (each_refuse _ _) hw fun _ _ hw => tacit_seq (each_repo trivial fun _ s h => ?_) hw
        fun _ _ _ => record_seq rfl (each_ignore (each_notify trivial trivial)) hU
    · cases r <;> exact each_ret _
    · exact Option.some.inj h ▸ by simp [tacit, Stmt.kind]

theorem ends_passkeyFinishRegistrationAudited {R : PasskeyCredential → World → Prop} {name : String}
    (hR : ∀ a w', R a w') (hw : w.op.undone = true) :
    Ends env db R (passkeyFinishRegistrationAudited ctx userID a name ip) w := by
  refine tacit_seq (each_takeChallenge tacit_basic trivial) hw fun _ _ hw =>
    tacit_seq (each_loadUser tacit_basic) hw fun _ _ hw => tacit_seq (each_refuse _ _) hw
      fun _ _ hw => tacit_seq (each_draw trivial) hw fun _ _ hw =>
        tacit_seq (each_repo trivial fun _ s h => ?_) hw fun _ _ _ =>
          record_seq rfl (each_ret _) hR
  split at h
  · cases h
  · split at h
    · cases h
    · exact Option.some.inj h ▸ tacit_passkeys.insert _

theorem ends_passkeyRevokeAudited {id : Nat} (hU : ∀ a w', U a w') (hw : w.op.undone = true) :
    Ends env db U (passkeyRevokeAudited ctx id userID) w := by
  refine tacit_seq (each_bind (each_attempt (each_passkeysRevokeByID tacit_basic tacit_passkeys))
    fun r => ?_) hw fun _ _ _ => ends_record rfl hU
  cases r
  · exact each_fail _
  · exact each_ret _

/-- A clone is denied after mild writes; a login comes after the evidence of its success. -/
theorem ends_passkeyFinishAuthenticationAudited {Q : TokenPair × UserProfile → World → Prop}
    (hQ : ∀ a w', Q a w') (hw : Clean env db w) :
    Ends env db Q (passkeyFinishAuthenticationAudited env ctx userID a ip ua) w := by
  refine gentle_seq (each_takeChallenge gentle_basic trivial) hw fun _ _ hw =>
    gentle_seq (each_loadUser gentle_basic) hw fun found _ hw => ?_
  obtain ⟨user, rows⟩ := found
  simp only
  split
  · exact ends_fail (.inl hw.mild)
  rename_i row _
  have hrevoke : ∀ id, Each (Acts mild) (passkeysRevokeByID ctx id user.id) := by
    refine fun id => each_repo trivial fun _ s h => ?_
    simp only at h
    split at h
    · exact Option.some.inj h ▸ by simp [mild, Stmt.kind, mildKinds]
    · cases h
  unfold completeAuthentication
  split
  · exact ends_mild (each_bind (each_rowIDByCredential mild_quiet) fun id =>
      each_bind (each_ignore (hrevoke id)) fun _ => each_bind (each_record mild_quiet)
        fun _ => each_fail _) hw.mild fun a w' _ => hQ a w'
  · refine tacit_seq (each_rowIDByCredential tacit_basic) hw.undone fun _ _ hw =>
      tacit_seq (each_getNow trivial) hw fun _ _ hw =>
        tacit_seq (each_ignore (each_repo trivial fun _ s h => ?_)) hw fun _ _ _ =>
          record_seq rfl
            (each_issuePasskeyTokenPairAudited anything_quiet (anything_issues user)) hQ
    split at h
    · exact Option.some.inj h ▸ tacit_passkeys.touch _ _ _
    · cases h

theorem ends_lockUserAudited {adminID : UserID} {d : Int} (hU : ∀ a w', U a w')
    (hw : w.op.undone = true) : Ends env db U (lockUserAudited ctx adminID userID d ip) w :=
  tacit_seq (each_refuse _ _) hw fun _ _ hw => tacit_seq (each_adminTarget tacit_basic) hw
    fun _ _ hw => tacit_seq (each_getNow trivial) hw fun _ _ hw =>
      tacit_seq (each_usersUpdate trivial (tacit_update _ _)) hw fun _ _ _ => ends_record rfl hU

theorem ends_unlockUserAudited (hU : ∀ a w', U a w') (hw : w.op.undone = true) :
    Ends env db U (unlockUserAudited ctx userID ip) w :=
  tacit_seq (each_adminTarget tacit_basic) hw fun _ _ hw =>
    tacit_seq (each_usersUpdate trivial (tacit_update _ _)) hw fun _ _ _ => ends_record rfl hU

theorem ends_forceLogoutAudited (hU : ∀ a w', U a w') (hw : w.op.undone = true) :
    Ends env db U (forceLogoutAudited ctx userID ip) w :=
  tacit_seq (each_adminTarget tacit_basic) hw fun _ _ hw =>
    tacit_seq (each_tokensRevokeAllForUser tacit_basic tacit_revokes) hw fun _ _ hw =>
      tacit_seq (each_sessionsRevokeAllForUser tacit_basic tacit_revokes) hw fun _ _ hw =>
        tacit_seq (each_bumpPwdVersion tacit_basic (tacit_update _ _)) hw fun _ _ _ =>
          ends_record rfl hU

end Rest

/-! ## Every call -/

/-- If the call fails, it has left mild changes only. -/
def Leaves (env : Env) (p : M α) (w : World) : Prop :=
  wp p (fun r w' => ∀ e, r = .error e → Mild env w.db w'.db) w

theorem leaves_of_each (hp : Within mild p) : Leaves env p w :=
  wp_of_within hp fun _ _ h _ _ => h.mild

theorem leaves_map {f : α → β} (h : Leaves env p w) : Leaves env (p >>= fun a => .ret (f a)) w := by
  refine wp_seq (wp_mono h fun r w' h' => ?_)
  cases r with
  | error e => exact fun _ _ => h' e rfl
  | ok a => exact fun _ he => by cases he

/-- One transaction whose refusals write nothing. -/
theorem leaves_of_refusal {l : Call} {f : DB → Except Err α × Option Stmt}
    (hf : ∀ db e o, f db = (.error e, o) → o = none) : Leaves env (repo l f) w := by
  refine wp_executes fun r o w' hr hex e he => ?_
  have ho : o = none := by
    rcases hr with ⟨-, ho⟩ | hr
    · exact ho
    · exact hf _ e o (he ▸ hr)
  rw [hex.db, ho]
  exact .refl _

/-- A body that starts with a fresh operation. -/
theorem leaves_audit
    (h : Clean env w.db { w with op := {} } →
    Ends env w.db (fun _ _ => True) p { w with op := {} }) : Leaves env (runAuditOperation p) w :=
  mild_of_ends (h ⟨.refl _, rfl⟩)

/-- An operation under `RunAuditOperation` whose answer is only rearranged. -/
theorem leaves_answer {f : α → β}
    (h : Clean env w.db { w with op := {} } →
    Ends env w.db (fun _ _ => True) p { w with op := {} }) :
    Leaves env (runAuditOperation p >>= fun a => .ret (f a)) w :=
  leaves_map (leaves_audit h)

/-- The route issues its token after the operation, which has left mild changes either way. -/
theorem leaves_viewRecoveryCodesRoute {userID : UserID} {code : String} :
    Leaves env (viewRecoveryCodesRoute env ctx userID code) w := by
  have hends : Ends env w.db (fun _ w' => Mild env w.db w'.db)
      (totpViewRecoveryCodesAudited env ctx userID code) { w with op := {} } :=
    ends_totpViewRecoveryCodesAudited ⟨.refl _, rfl⟩
  have hok : wp (runAuditOperation (totpViewRecoveryCodesAudited env ctx userID code))
      (fun r w' => ∀ a, r = .ok a → Mild env w.db w'.db) w := by
    refine wp_audit_db (I := fun r db' => ∀ a, r = .ok a → Mild env w.db db') ?_
      fun _ _ h => by cases h
    refine wp_mono hends fun r w' h _ a ha => ?_
    subst ha
    exact h
  refine wp_seq (wp_mono (wp_and (mild_of_ends hends) hok) fun r w₁ h => ?_)
  cases r with
  | error e => exact fun _ _ => h.1 e rfl
  | ok a =>
    rw [thenWp_ok]
    exact wp_jwtIssue (fun _ _ _ _ => h.2 a rfl) fun _ _ _ _ _ _ => h.2 a rfl

theorem leaves_serve (env : Env) (ctx : Ctx) (r : Request) (w : World) :
    Leaves env (serve env ctx r) w := by
  have hT : ∀ {γ : Type} (a : γ) (w' : World), (fun (_ : γ) (_ : World) => True) a w' :=
    fun _ _ => trivial
  cases r with
  | register i => exact leaves_answer fun hw => ends_registerAudited hT hw
  | login => exact leaves_answer fun hw => ends_loginAudited hT hw
  | completeMFALogin =>
    refine leaves_map (wp_seq (wp_jwtVerifyAs (fun _ _ => .refl _) fun c _ _ _ => ?_))
    exact leaves_audit fun hw => ends_completeMFALoginAudited hT hw
  | refresh => exact leaves_answer fun hw => ends_refreshAudited hT hw
  | logout =>
    exact leaves_answer fun hw => ends_mild (each_logoutAudited mild_quiet mild_revokes
      mild_consumes fun _ => by simp [mild, Stmt.kind, mildKinds]) hw.mild fun _ _ _ => trivial
  | logoutAll => exact leaves_answer fun hw => ends_logoutAllAudited hT hw.undone
  | revokeSession =>
    exact leaves_answer fun hw => ends_mild (each_revokeSessionAudited mild_quiet
      mild_revokes) hw.mild fun _ _ _ => trivial
  | forgotPassword =>
    exact leaves_map (leaves_of_each (within_forgotPassword mild_quiet (fun _ _ => trivial)
      fun _ _ => trivial))
  | resendVerifyEmail =>
    exact leaves_map (leaves_of_each (within_resendVerifyEmail mild_quiet (fun _ _ => trivial)
      fun _ _ => trivial))
  | resetPassword => exact leaves_answer fun hw => ends_resetPasswordAudited hT hw.undone
  | verifyEmail t => exact leaves_answer fun hw => ends_verifyEmailAudited hT hw.undone
  | changePassword => exact leaves_answer fun hw => ends_changePasswordAudited hT hw.undone
  | setPassword => exact leaves_answer fun hw => ends_setPasswordAudited hT hw.undone
  | requestChangeEmail =>
    exact leaves_map (leaves_of_each (within_requestChangeEmail mild_quiet (fun _ => trivial)
      (fun _ => trivial) fun _ _ => trivial))
  | confirmChangeEmail t ip =>
    exact leaves_answer fun hw => ends_confirmChangeEmailAudited hT hw.undone
  | deactivateAccount => exact leaves_answer fun hw => ends_deactivateAccountAudited hT hw.undone
  | eraseAccount => exact leaves_answer fun hw => ends_eraseAccountAudited hT hw.undone
  | totpEnable => exact leaves_answer fun hw => ends_totpEnableAudited hT hw
  | totpVerifyEnable => exact leaves_answer fun hw => ends_totpVerifyEnableAudited hT hw
  | totpValidate => exact leaves_answer fun hw => ends_totpValidateAudited hw fun _ _ => trivial
  | totpViewRecoveryCodes => exact leaves_map leaves_viewRecoveryCodesRoute
  | totpRegenerateRecoveryCodes =>
    exact leaves_answer fun hw => ends_totpRegenerateRecoveryCodesAudited hT hw
  | totpDisable => exact leaves_answer fun hw => ends_totpDisableAudited hT hw
  | oauthBeginLogin =>
    exact leaves_map (leaves_of_each (within_of_each (each_oauthBeginLogin mild_quiet
      fun _ => trivial)))
  | handleCallback => exact leaves_answer fun hw => ends_handleCallbackAudited hT hw.undone
  | unlink => exact leaves_answer fun hw => ends_unlinkAudited hT hw.undone
  | passkeyBeginRegistration =>
    exact leaves_map (leaves_of_each (within_of_each (each_passkeyBeginRegistration mild_quiet
      trivial)))
  | passkeyFinishRegistration =>
    exact leaves_answer fun hw => ends_passkeyFinishRegistrationAudited hT hw.undone
  | passkeyBeginAuthentication =>
    exact leaves_map (leaves_of_each (within_of_each (each_passkeyBeginAuthentication mild_quiet
      trivial)))
  | passkeyFinishAuthentication =>
    exact leaves_answer fun hw => ends_passkeyFinishAuthenticationAudited hT hw
  | passkeyRevoke => exact leaves_answer fun hw => ends_passkeyRevokeAudited hT hw.undone

theorem leaves_serveAdmin (env : Env) (ctx : Ctx) (a : AdminRequest) (w : World) :
    Leaves env (serveAdmin ctx a) w := by
  cases a with
  | lockUser => exact leaves_audit fun hw => ends_lockUserAudited (fun _ _ => trivial) hw.undone
  | unlockUser => exact leaves_audit fun hw => ends_unlockUserAudited (fun _ _ => trivial) hw.undone
  | forceLogout =>
    exact leaves_audit fun hw => ends_forceLogoutAudited (fun _ _ => trivial) hw.undone
  | suspend =>
    rw [serveAdmin, authoritySuspend]
    refine leaves_of_refusal fun db e o h => ?_
    split at h <;> cases h
    rfl
  | assignRoleToUser =>
    rw [serveAdmin, rbacAssignRoleToUser]
    refine leaves_of_refusal fun db e o h => ?_
    split at h
    · cases h
      rfl
    · split at h
      · cases h
        rfl
      · split at h <;> cases h
        rfl

/-- A call of the services: a public or an administrative one, or one of the two that the Google
and passkey services make and that are also exported. -/
inductive ServiceCall : Type where
  | service (ctx : Ctx) (r : Request)
  | admin (ctx : Ctx) (a : AdminRequest)
  | checkMFAOrIssueTokens (ctx : Ctx) (user : User) (ip ua auditDetail : String)
  | issuePasskeyTokenPair (ctx : Ctx) (user : User) (ip ua : String)

/-- The call as a program; only its error matters here. -/
def ServiceCall.code (env : Env) : ServiceCall → M Unit
  | service ctx r => serve env ctx r >>= fun _ => .ret ()
  | admin ctx a => serveAdmin ctx a
  | checkMFAOrIssueTokens ctx user ip ua detail =>
    runAuditOperation (checkMFAOrIssueTokensAudited env ctx user ip ua detail) >>= fun _ => .ret ()
  | issuePasskeyTokenPair ctx user ip ua =>
    runAuditOperation (issuePasskeyTokenPairAudited env ctx user ip ua) >>= fun _ => .ret ()

/-- **A failed call leaves no authority behind**, whatever failed and wherever. -/
theorem mild_of_failed (env : Env) (c : ServiceCall) (w : World) (e : Err)
    (h : ((c.code env).run w).1 = .error e) : Mild env w.db ((c.code env).run w).2.db := by
  have hleaves : Leaves env (c.code env) w := by
    cases c with
    | service ctx r => exact leaves_map (leaves_serve env ctx r w)
    | admin ctx a => exact leaves_serveAdmin env ctx a w
    | checkMFAOrIssueTokens =>
      exact leaves_answer fun hw =>
        ends_checkMFAOrIssueTokensAudited (fun _ _ => trivial) hw.undone
    | issuePasskeyTokenPair =>
      exact leaves_answer fun hw =>
        ends_issuePasskeyTokenPairAudited (fun _ _ => trivial) hw.undone
  exact hleaves e h

/-- A wrong password: the attempt is counted and recorded, and nothing else is left. -/
theorem mild_of_wrongPassword :
    let c := ServiceCall.service .sample (.login "jose@x.io" "wrong" "" "10.0.0.1" "ua")
    let w' := ((c.code (.plain .sample)).run .sample).2
    w'.db.auditLogs.length = 1 ∧ Mild (.plain .sample) World.sample.db w'.db :=
  ⟨by decide +kernel, mild_of_failed (.plain .sample) _ .sample .invalidCredentials
    (by decide +kernel)⟩

end FinnAuth
