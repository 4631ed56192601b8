import FinnAuth.Footprint.Issue
import FinnAuth.Service.Totp

/-!
# Footprints of the TOTP service
-/

namespace FinnAuth

open Lib Prog

variable {α : Type} {F : Footprint} {env : Env} {ctx : Ctx} {userID : UserID} {code : String}
  {d : TOTPDevice} {t : Option Token}

/-- The writes to the second factors. -/
structure Footprint.Factors (F : Footprint) : Prop where
  insertDevice : ∀ d, F.stmt (.insertDevice d)
  updateDevice : ∀ d, F.stmt (.updateDevice d)
  disableDevice : ∀ id, F.stmt (.disableDevice id)
  replaceCodes : ∀ id codes, F.stmt (.replaceCodes id codes)
  useCode : ∀ id now, F.stmt (.useCode id now)

/-! ## Counters, locks and audit -/

theorem each_clearFailures (hq : F.Basic) : Each (Acts F) (clearFailures userID) :=
  each_kvAs (hq.site _) fun _ _ _ hn =>
    TtlMap.delete_data_ne (ne_of_key (hq.key (.totpFail userID) rfl) hn)

theorem each_countFailure (hq : F.Basic) : Each (Acts F) (countFailure env userID) :=
  each_kvAs (hq.site _) fun _ now _ hn =>
    TtlMap.incrBy_data_ne now _ _ (ne_of_key (hq.key (.totpFail userID) rfl) hn)

theorem each_acquireRotationLock (hq : F.Basic) : Each (Acts F) (acquireRotationLock userID) :=
  each_kvAs (hq.site _) fun _ now _ hn =>
    TtlMap.setNX_data_ne now _ _ (ne_of_key (hq.key (.totpRotateLock userID) rfl) hn)

theorem each_totpRecordSuccess {event detail : String} (hq : F.Quiet) :
    Each (Acts F) (totpRecordSuccess ctx userID event detail) :=
  each_bind (each_clearFailures hq) fun _ => each_record hq

theorem each_totpRecordFailure {detail : String} (hq : F.Quiet) :
    Each (Acts F) (totpRecordFailure env ctx userID detail) :=
  each_bind (each_countFailure hq) fun _ => each_record hq

theorem each_guardBruteForce (hq : F.Quiet) : Each (Acts F) (guardBruteForce env ctx userID) :=
  each_bind (each_storeCounterValueAs (hq.site _) (hq.key _ rfl)) fun _ =>
    each_refuseAfter (each_totpRecordFailure hq)

theorem each_replayGuard (hq : F.Basic) : Each (Acts F) (replayGuard userID code) :=
  each_kvAs (hq.site _) fun _ now _ hn =>
    TtlMap.setNX_data_ne now _ _ (ne_of_key (hq.key (.totpReplay userID ⟨code⟩) rfl) hn)

theorem each_releaseRotationLock (hq : F.Basic) : Each (Acts F) (releaseRotationLock userID) :=
  each_kvAs (hq.site _) fun _ _ _ hn =>
    TtlMap.delete_data_ne (ne_of_key (hq.key (.totpRotateLock userID) rfl) hn)

theorem each_withRotationLock {p : M α} (hq : F.Basic) (hp : Each (Acts F) p) :
    Each (Acts F) (withRotationLock userID p) :=
  each_bind (each_acquireRotationLock hq) fun _ => each_bind (each_refuse _ _) fun _ =>
    each_bind (each_attempt hp) fun r =>
      each_bind (each_releaseRotationLock hq) fun _ => each_ofExcept r

theorem each_totpValid {mark : String → String → Site} {code secret : String} (hq : F.Basic) :
    Each (Acts F) (totpValid env mark code secret) :=
  each_bind (each_getNowAs (hq.site _)) fun _ => trivial

theorem each_sealText {plain : String} (hq : F.Core) : Each (Acts F) (sealText env plain) :=
  each_bind (each_draw hq.other) fun _ => trivial

theorem each_totpFindByUserID (hq : F.Core) : Each (Acts F) (totpFindByUserID ctx userID) :=
  each_query hq.other

theorem each_totpSave (hq : F.Basic) (hi : ∀ id, F.stmt (.insertDevice { d with id := id }))
    (hu : F.stmt (.updateDevice d)) : Each (Acts F) (totpSave ctx d) := by
  refine each_bind (each_draw hq.other) fun newID => each_repo (hq.site _) fun db s h => ?_
  split at h
  · simp at h
  · split at h
    · split at h
      · simp at h
      · exact Option.some.inj h ▸ hi _
    · split at h
      · exact Option.some.inj h ▸ hu
      · simp at h

/-! ## Secrets and recovery codes -/

theorem each_openActiveSecret (hq : F.Basic) (hf : F.Factors) :
    Each (Acts F) (openActiveSecret env ctx d) := by
  refine each_ite trivial ?_
  split
  · trivial
  · exact each_ite trivial (each_bind (each_sealText hq) fun _ =>
      each_bind (each_ignore (each_totpSave hq (fun _ => hf.insertDevice _) (hf.updateDevice _)))
        fun _ => trivial)

theorem each_drawRecoveryCodes (hq : F.Core) (n : Nat) :
    Each (Acts F) (drawRecoveryCodes env userID n) := by
  induction n with
  | zero => trivial
  | succ n ih =>
    exact each_bind (each_draw hq.other) fun _ => each_bind (each_sealText hq) fun _ =>
      each_bind (each_draw hq.other) fun _ => each_bind ih fun _ => trivial

theorem each_totpReplaceRecoveryCodes {codes : List RecoveryCode} (hq : F.Basic)
    (hs : F.stmt (.replaceCodes userID codes)) :
    Each (Acts F) (totpReplaceRecoveryCodes ctx userID codes) := by
  refine each_repo (hq.site _) fun db s h => ?_
  split at h
  · simp at h
  · exact Option.some.inj h ▸ hs

theorem each_newRecoveryCodes (hq : F.Basic) (hs : ∀ codes, F.stmt (.replaceCodes userID codes)) :
    Each (Acts F) (newRecoveryCodes env ctx userID) :=
  each_bind (each_drawRecoveryCodes hq _) fun _ =>
    each_bind (each_totpReplaceRecoveryCodes hq (hs _)) fun _ => trivial

/-! ## Enrolment -/

theorem each_verifySudoToken (hq : F.Core) : Each (Acts F) (verifySudoToken env t userID) :=
  each_bind (each_sudoProven hq) fun _ => each_refuse _ _

theorem each_totpEnableAudited (hq : F.Quiet) (hf : F.Factors) :
    Each (Acts F) (totpEnableAudited env ctx userID t) :=
  each_withRotationLock hq (each_bind (each_totpFindByUserID hq) fun _ =>
    each_bind (each_draw hq.other) fun _ => each_bind (each_sealText hq) fun _ =>
      each_bind (each_doIf (each_verifySudoToken hq)) fun _ =>
        each_bind (each_totpSave hq (fun _ => hf.insertDevice _) (hf.updateDevice _)) fun _ =>
          each_bind (each_record hq) fun _ => trivial)

theorem each_openStagedSecret (hq : F.Basic) (hf : F.Factors) :
    Each (Acts F) (openStagedSecret env ctx d) := by
  refine each_ite ?_ (each_openActiveSecret hq hf)
  split <;> trivial

theorem each_totpActivate (hq : F.Quiet) (hf : F.Factors) :
    Each (Acts F) (totpActivate env ctx userID d) := by
  refine each_bind (each_totpSave hq (fun _ => hf.insertDevice _) (hf.updateDevice _)) fun _ =>
    each_bind (each_attempt (each_newRecoveryCodes hq (hf.replaceCodes userID))) fun r => ?_
  rcases r with e | codes
  · exact each_bind (each_ignore (each_totpSave hq (fun _ => hf.insertDevice _)
      (hf.updateDevice _))) fun _ => trivial
  · exact each_bind (each_totpRecordSuccess hq) fun _ => trivial

theorem each_totpVerifyEnableAudited (hq : F.Quiet) (hf : F.Factors) :
    Each (Acts F) (totpVerifyEnableAudited env ctx userID code) := by
  refine each_bind (each_guardBruteForce hq) fun _ => each_withRotationLock hq
    (each_bind (each_totpFindByUserID hq) fun d => ?_)
  rcases d with _ | d
  · exact each_bind (each_totpRecordFailure hq) fun _ => trivial
  · exact each_bind (each_refuse _ _) fun _ => each_bind (each_openStagedSecret hq hf) fun _ =>
      each_bind (each_totpValid hq) fun _ =>
        each_bind (each_refuseAfter (each_totpRecordFailure hq)) fun _ => each_totpActivate hq hf

/-! ## Validation -/

theorem each_checkSixDigits {code badCode replay : String} (hq : F.Quiet) (hf : F.Factors) :
    Each (Acts F) (checkSixDigits env ctx userID d code badCode replay) :=
  each_bind (each_openActiveSecret hq hf) fun _ => each_bind (each_totpValid hq) fun _ =>
    each_bind (each_refuseAfter (each_totpRecordFailure hq)) fun _ =>
      each_bind (each_replayGuard hq) fun _ => each_refuseAfter (each_totpRecordFailure hq)

theorem each_checkRecoveryCode (hq : F.Quiet) (hu : ∀ id now, F.stmt (.useCode id now)) :
    Each (Acts F) (checkRecoveryCode env ctx userID code) := by
  refine each_bind (each_query (hq.site _)) fun codes => ?_
  split
  · exact each_bind (each_totpRecordFailure hq) fun _ => trivial
  · refine each_bind (each_getNow hq.other) fun now =>
      each_bind (each_attempt (each_repo (hq.site _) fun db s h => ?_)) fun r => ?_
    · split at h
      · exact Option.some.inj h ▸ hu _ _
      · simp at h
    · split
      · exact each_totpRecordSuccess hq
      · exact each_bind (each_totpRecordFailure hq) fun _ => trivial
      · trivial

theorem each_enabledDevice {missing : String} (hq : F.Quiet) :
    Each (Acts F) (enabledDevice env ctx userID missing) := by
  refine each_bind (each_guardBruteForce hq) fun _ =>
    each_bind (each_totpFindByUserID hq) fun d => ?_
  split
  · exact each_bind (each_totpRecordFailure hq) fun _ => trivial
  · trivial

theorem each_totpValidateAudited (hq : F.Quiet) (hf : F.Factors) :
    Each (Acts F) (totpValidateAudited env ctx userID code) :=
  each_bind (each_enabledDevice hq) fun _ => each_ite
    (each_bind (each_checkSixDigits hq hf) fun _ => each_totpRecordSuccess hq)
    (each_checkRecoveryCode hq hf.useCode)

theorem each_totpViewRecoveryCodesAudited (hq : F.Quiet) (hf : F.Factors) :
    Each (Acts F) (totpViewRecoveryCodesAudited env ctx userID code) :=
  each_bind (each_enabledDevice hq) fun _ => each_bind (each_checkSixDigits hq hf) fun _ =>
    each_bind (each_query (hq.site _)) fun _ =>
      each_bind (each_totpRecordSuccess hq) fun _ => trivial

theorem each_totpRegenerateRecoveryCodesAudited (hq : F.Quiet)
    (hs : ∀ codes, F.stmt (.replaceCodes userID codes)) :
    Each (Acts F) (totpRegenerateRecoveryCodesAudited env ctx userID) := by
  refine each_bind (each_totpFindByUserID hq) fun d => ?_
  split
  · exact each_bind (each_totpRecordFailure hq) fun _ => trivial
  · exact each_bind (each_wrap (each_newRecoveryCodes hq hs)) fun _ =>
      each_bind (each_totpRecordSuccess hq) fun _ => trivial

/-! ## Disabling -/

theorem each_authorizeDisable {password code : String} (hq : F.Quiet) (hf : F.Factors)
    (hc : ∀ u, F.label (.comparePassword u)) :
    Each (Acts F) (authorizeDisable env ctx userID t password code) := by
  refine each_bind (each_sudoProven hq) fun _ => each_ite trivial
    (each_bind (each_refuse _ _) fun _ =>
      each_bind (each_attempt (each_usersFindByID hq)) fun r => ?_)
  rcases r with _ | _ | user
  · trivial
  · trivial
  · refine each_bind (each_comparePassword (hc user)) fun _ => each_bind (each_refuse _ _) fun _ =>
      each_bind (each_refuse _ _) fun _ =>
        each_bind (each_attempt (each_totpValidateAudited hq hf)) fun r => ?_
    rcases r with _ | _ <;> trivial

theorem each_alertDisabled (hq : F.Calm) : Each (Acts F) (alertDisabled ctx userID) := by
  refine each_bind (each_attempt (each_usersFindByID hq)) fun r => ?_
  rcases r with _ | _ | u
  · trivial
  · trivial
  · exact each_ignore (each_notify hq.other (hq.mail _ rfl))

theorem each_totpDisable (hq : F.Basic) (hs : F.stmt (.disableDevice userID)) :
    Each (Acts F) (totpDisable ctx userID) :=
  each_ownedWrite (hq.site _) fun _ => hs

theorem each_totpDisableAudited {password code : String} (hq : F.Quiet) (hf : F.Factors)
    (hc : ∀ u, F.label (.comparePassword u))
    (hb : F.stmt (.updateUser ctx userID .bumpPwdVersion)) :
    Each (Acts F) (totpDisableAudited env ctx userID t password code) := by
  refine each_bind (each_wrap (each_totpFindByUserID hq)) fun d => ?_
  split
  · trivial
  · exact each_bind (each_authorizeDisable hq hf hc) fun _ =>
      each_bind (each_wrap (each_totpDisable hq (hf.disableDevice _))) fun _ =>
        each_bind (each_wrap (each_totpReplaceRecoveryCodes hq (hf.replaceCodes _ _))) fun _ =>
          each_bind (each_ignore (each_usersUpdate hq.other hb)) fun _ =>
            each_bind (each_totpRecordSuccess hq) fun _ => each_alertDisabled hq

end FinnAuth
