import FinnAuth.Service.Issue

/-!
# TOTP enrolment and validation

`internal/services/totp_service.go`. A device row has three secret columns: the legacy plaintext
`secret`, the sealed active secret and the sealed pending one, which is staged while an active
device is being re-enrolled.
-/

namespace FinnAuth

open Lib

/-! ## Counters, locks and audit -/

/-- `rotationLockTTL`. -/
def rotationLockTTL : Nat := 10 * 1000

/-- `totpReplayTTL`. -/
def totpReplayTTL : Nat := 120 * 1000

variable (env : Env) (ctx : Ctx) (userID : UserID)

/-- Clears the brute-force window. -/
def clearFailures : M Unit :=
  kvAs (.site (.totpSuccess userID)) fun m _ => ((), m.delete (.totpFail userID))

/-- Counts a failed attempt in the window. -/
def countFailure : M Int :=
  kvAs (.site (.totpFailure userID)) fun m now =>
    m.incrBy now (.totpFail userID) 1 env.cfg.totpAttemptWindow

/-- `recordSuccess`: clears the brute-force window and audits. -/
def totpRecordSuccess (event detail : String) : M Unit := do
  clearFailures userID
  record ctx { auditEvent event true with userID := some userID, detail := detail }

/-- `recordFailure`: the only place the brute-force counter grows. -/
def totpRecordFailure (detail : String) : M Unit := do
  let _ ← countFailure env userID
  record ctx { auditEvent "totp_failed" false with userID := some userID, detail := detail }

/-- `guardBruteForce`. -/
def guardBruteForce : M Unit := do
  let n ← storeCounterValueAs (.site (.totpGuard userID)) (.totpFail userID)
  refuseAfter (n ≥ env.cfg.totpMaxAttempts)
    (totpRecordFailure env ctx userID "brute-force lockout") .rateLimited

/-- `replayGuard`. -/
def replayGuard (code : String) : M Bool :=
  kvAs (.site (.replayGuard userID code)) fun m now =>
    m.setNX now (.totpReplay userID ⟨code⟩) (.str "1") totpReplayTTL

/-- `acquireRotationLock`. -/
def acquireRotationLock : M Bool :=
  kvAs (.site (.rotationLock userID)) fun m now =>
    m.setNX now (.totpRotateLock userID) (.str "1") rotationLockTTL

/-- `releaseRotationLock`: whoever holds the lock by now. -/
def releaseRotationLock : M Unit :=
  kvAs (.site (.rotationUnlock userID)) fun m _ => ((), m.delete (.totpRotateLock userID))

/-- The body between `acquireRotationLock` and the deferred `releaseRotationLock`, which runs on
every way out. -/
def withRotationLock {α : Type} (userID : UserID) (p : M α) : M α := do
  let locked ← acquireRotationLock userID
  refuse (!locked) .rateLimited
  let r ← p.attempt
  releaseRotationLock userID
  .ofExcept r

/-- `totpValid`; `mark` only labels the action. -/
def totpValid (mark : String → String → Site) (code secret : String) : M Bool := do
  let now ← getNowAs (.site (mark code secret))
  pure (env.totpLibrary now code secret)

/-- `Encryptor.Encrypt`, with a fresh nonce. Its one error, of `crypto/rand`, does not occur: that
package ends the process instead. -/
def sealText (plain : String) : M String := do
  let nonce ← draw
  pure (env.encrypt nonce plain)

/-- `repo.Upsert`, with the row id the database would draw. -/
def totpSave (d : TOTPDevice) : M Unit := do
  let newID ← draw
  totpUpsert ctx d (newID + 1)

/-! ## Secrets -/

/-- `openActiveSecret`: the sealed copy, or the legacy plaintext, which is sealed again on the
way; the branch of an `Encrypt` that fails is left out with it. The row in hand is returned too,
since the source rewrites it in place. -/
def openActiveSecret (d : TOTPDevice) : M (String × TOTPDevice) :=
  if d.secretEncrypted = "" then .ret (d.secret, d)
  else match env.decrypt d.secretEncrypted with
    | some plain => .ret (plain, d)
    | none =>
      if d.secret = "" then
        .fail (.wrapped "sealed TOTP secret cannot be opened with the active key"
          .totpUnrecoverable)
      else do
        let resealed ← sealText env d.secret
        ignore (totpSave ctx { d with secretEncrypted := resealed })
        pure (d.secret, { d with secretEncrypted := resealed })

/-- `newRecoveryCodes`: the rows of a fresh batch, from `n` draws. -/
def drawRecoveryCodes (env : Env) (userID : UserID) : Nat → M (List (String × RecoveryCode))
  | 0 => .ret []
  | n + 1 => do
    let bytes ← draw
    let sealed ← sealText env (env.recoveryCode bytes)
    let rowID ← draw
    let rest ← drawRecoveryCodes env userID n
    pure ((env.recoveryCode bytes,
      { id := rowID, userID := userID, codeHash := ⟨env.recoveryCode bytes⟩,
        codeEncrypted := sealed, usedAt := none }) :: rest)

/-- `newRecoveryCodes`. -/
def newRecoveryCodes : M (List String) := do
  let batch ← drawRecoveryCodes env userID env.cfg.recoveryCodeCount
  totpReplaceRecoveryCodes ctx userID (batch.map (·.2))
  pure (batch.map (·.1))

/-! ## Enrolment -/

/-- The row `Enable` writes: a new device, a staged rotation of an active one, or the restart of
an unconfirmed enrolment. -/
def stageSecret (old : Option TOTPDevice) (sealed : String) : TOTPDevice :=
  match old with
  | none => { id := 0, userID := userID, secret := "", secretEncrypted := sealed,
              pendingSecretEncrypted := "", enabled := false }
  | some d =>
    if d.enabled then { d with pendingSecretEncrypted := sealed }
    else { d with secret := "", secretEncrypted := sealed, pendingSecretEncrypted := "" }

/-- `verifySudoToken`. -/
def verifySudoToken (token : Option Token) (userID : UserID) : M Unit := do
  let proven ← sudoProven env token userID
  refuse (!proven) .sudoRequired

/-- `enableAudited`: returns the fresh secret. -/
def totpEnableAudited (sudoToken : Option Token) : M String :=
  withRotationLock userID do
    let old ← totpFindByUserID ctx userID
    let bytes ← draw
    let sealed ← sealText env (env.totpSecret bytes)
    doIf (old.any (·.enabled)) (verifySudoToken env sudoToken userID)
    totpSave ctx (stageSecret userID old sealed)
    record ctx { auditEvent "totp_staged" true with userID := some userID }
    pure (env.totpSecret bytes)

/-- The secret a confirmation code is checked against: the staged one if there is one. -/
def openStagedSecret (d : TOTPDevice) : M (String × TOTPDevice) :=
  if d.pendingSecretEncrypted ≠ "" then
    match env.decrypt d.pendingSecretEncrypted with
    | some plain => .ret (plain, d)
    | none => .fail (.wrapped "open pending totp secret" .crypto)
  else openActiveSecret env ctx d

/-- The row a confirmation writes: the staged secret promoted, if there is one, and the device on.
-/
def activate (d : TOTPDevice) : TOTPDevice :=
  if d.pendingSecretEncrypted ≠ "" then
    { d with secretEncrypted := d.pendingSecretEncrypted, pendingSecretEncrypted := "",
             secret := "", enabled := true }
  else { d with enabled := true }

/-- The row `VerifyEnable` writes back when the recovery codes fail. -/
def deactivate (d : TOTPDevice) : TOTPDevice :=
  if d.pendingSecretEncrypted ≠ "" then
    { activate d with pendingSecretEncrypted := d.pendingSecretEncrypted,
                      secretEncrypted := d.secretEncrypted }
  else { activate d with enabled := false }

/-- The end of `verifyEnableAudited`, after the code was accepted for the row `d`. -/
def totpActivate (d : TOTPDevice) : M (List String) := do
  totpSave ctx (activate d)
  (newRecoveryCodes env ctx userID).attempt >>= fun r => match r with
    | .ok codes => do
      totpRecordSuccess ctx userID "totp_enabled" "totp enabled"
      pure codes
    | .error e => do
      ignore (totpSave ctx (deactivate d))
      .fail (.wrapped "generate recovery codes" e)

/-- `verifyEnableAudited`. -/
def totpVerifyEnableAudited (code : String) : M (List String) := do
  guardBruteForce env ctx userID
  withRotationLock userID do
    match ← totpFindByUserID ctx userID with
    | none => do
      totpRecordFailure env ctx userID "no pending device"
      .fail .invalidCode
    | some d => do
      refuse (d.enabled && d.pendingSecretEncrypted = "") .invalidInput
      let (secret, d) ← openStagedSecret env ctx d
      let valid ← totpValid env (.confirmCode userID) code secret
      refuseAfter (!valid) (totpRecordFailure env ctx userID "bad enable code") .invalidCode
      totpActivate env ctx userID d

/-! ## Validation -/

/-- The check of a 6-digit code against the active secret, with the replay guard. `badCode` and
`replay` are the audit details. -/
def checkSixDigits (d : TOTPDevice) (code : String) (badCode replay : String) : M Unit := do
  let (secret, _) ← openActiveSecret env ctx d
  let valid ← totpValid env (.checkCode userID) code secret
  refuseAfter (code.utf8ByteSize ≠ 6 || !valid) (totpRecordFailure env ctx userID badCode)
    .invalidCode
  let fresh ← replayGuard userID code
  refuseAfter (!fresh) (totpRecordFailure env ctx userID replay) .invalidCode

/-- The recovery-code path of `validateAudited`. -/
def checkRecoveryCode (code : String) : M Unit := do
  let codes ← totpActiveRecoveryCodes ctx userID
  match codes.find? fun c => c.codeHash = ⟨code⟩ with
  | none => do
    totpRecordFailure env ctx userID "bad recovery code"
    .fail .invalidCode
  | some c => do
    let now ← getNow
    (totpMarkRecoveryCodeUsed ctx c.id now).attempt >>= fun r => match r with
      | .ok () => totpRecordSuccess ctx userID "recovery_code_used" "recovery code used"
      | .error .recoveryCodeUsed => do
        totpRecordFailure env ctx userID "recovery code replay"
        .fail .invalidCode
      | .error e => .fail e

/-- The guard and the device lookup that `Validate` and `ViewRecoveryCodes` start with. -/
def enabledDevice (missing : String) : M TOTPDevice := do
  guardBruteForce env ctx userID
  match (← totpFindByUserID ctx userID).filter (·.enabled) with
  | none => do
    totpRecordFailure env ctx userID missing
    .fail .invalidCode
  | some d => pure d

/-- `validateAudited`. -/
def totpValidateAudited (code : String) : M Unit := do
  let d ← enabledDevice env ctx userID "device not enabled"
  if code.utf8ByteSize = 6 then do
    checkSixDigits env ctx userID d code "bad totp code" "totp replay"
    totpRecordSuccess ctx userID "totp_validated" "totp validated"
  else checkRecoveryCode env ctx userID code

/-! ## Recovery codes -/

/-- `viewRecoveryCodesAudited`. -/
def totpViewRecoveryCodesAudited (code : String) : M (List String) := do
  let d ← enabledDevice env ctx userID "view codes: device not enabled"
  checkSixDigits env ctx userID d code "view codes: bad totp code" "view codes: totp replay"
  let rows ← totpActiveRecoveryCodes ctx userID
  totpRecordSuccess ctx userID "recovery_codes_viewed" "recovery codes viewed"
  pure (rows.filterMap fun c => if c.codeEncrypted = "" then none else env.decrypt c.codeEncrypted)

/-- `regenerateRecoveryCodesAudited`. -/
def totpRegenerateRecoveryCodesAudited : M (List String) := do
  match (← totpFindByUserID ctx userID).filter (·.enabled) with
  | none => do
    totpRecordFailure env ctx userID "regenerate codes: device not enabled"
    .fail .invalidCode
  | some _ => do
    let codes ← wrap "regenerate recovery codes" (newRecoveryCodes env ctx userID)
    totpRecordSuccess ctx userID "recovery_codes_regenerated" "recovery codes regenerated"
    pure codes

/-! ## Disabling -/

/-- The authorisation of `Disable`: a sudo token, or the password and a current code. -/
def authorizeDisable (sudoToken : Option Token) (password code : String) : M Unit := do
  let proven ← sudoProven env sudoToken userID
  if proven then .ret ()
  else do
    refuse (password = "") .sudoRequired
    (usersFindByID ctx userID).attempt >>= fun r => match r with
      | .ok (some user) => do
        let ok ← comparePassword env user password
        refuse (!ok) .invalidCredentials
        refuse (code = "") .invalidCode
        (totpValidateAudited env ctx userID code).attempt >>= fun r => match r with
          | .ok () => .ret ()
          | .error _ => .fail .invalidCode
      | _ => .fail .userNotFound

/-- The alert of `Disable`. -/
def alertDisabled : M Unit :=
  (usersFindByID ctx userID).attempt >>= fun r => match r with
    | .ok (some u) => ignore (notify (.securityAlert u.email "mfa_disabled"
        "Two-factor authentication (TOTP) has been disabled on your account."))
    | _ => .ret ()

/-- `disableAudited`: nothing to do for a device that is not enabled. -/
def totpDisableAudited (sudoToken : Option Token) (password code : String) : M Unit := do
  match (← wrap "totp disable: find device" (totpFindByUserID ctx userID)).filter (·.enabled) with
  | none => pure ()
  | some _ => do
    authorizeDisable env ctx userID sudoToken password code
    wrap "totp disable" (totpDisable ctx userID)
    wrap "totp disable: delete recovery codes" (totpReplaceRecoveryCodes ctx userID [])
    ignore (usersBumpPwdVersion ctx userID)
    totpRecordSuccess ctx userID "totp_disabled" "mfa device disabled"
    alertDisabled ctx userID

/-! ## Entry points -/

namespace TOTPService

def enable (sudoToken : Option Token) : M String :=
  runAuditOperation (totpEnableAudited env ctx userID sudoToken)

def verifyEnable (code : String) : M (List String) :=
  runAuditOperation (totpVerifyEnableAudited env ctx userID code)

def validate (code : String) : M Unit :=
  runAuditOperation (totpValidateAudited env ctx userID code)

def viewRecoveryCodes (code : String) : M (List String) :=
  runAuditOperation (totpViewRecoveryCodesAudited env ctx userID code)

def regenerateRecoveryCodes : M (List String) :=
  runAuditOperation (totpRegenerateRecoveryCodesAudited env ctx userID)

def disable (sudoToken : Option Token) (password code : String) : M Unit :=
  runAuditOperation (totpDisableAudited env ctx userID sudoToken password code)

end TOTPService

end FinnAuth
