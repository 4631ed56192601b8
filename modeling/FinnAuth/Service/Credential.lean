import FinnAuth.Service.Issue

/-!
# Credentials

`ResetPassword`, `ChangePassword`, `SetPassword` and `VerifyEmail` of
`internal/services/auth_service.go`, and the mails that carry their tokens. Reset and verify-email
tokens are single use: a volatile key in the store, then a row in `used_tokens`.
-/

namespace FinnAuth

open Lib

/-! ## Mailed tokens -/

variable (env : Env) (ctx : Ctx)

/-- `ForgotPassword`: the same answer whether or not the account exists. -/
def forgotPassword (rawEmail : String) : M Unit := do
  let email := env.normalize rawEmail
  admitBeforeExternal ctx (auditEvent "password_reset_requested" true)
  match ← wrap "forgot-password: find user" (usersFindByEmail env ctx email) with
  | none => pure ()
  | some user => do
    let t ← jwtIssue user.id user.role user.email .reset env.cfg.resetTTL ctx.tenant
    wrap "forgot-password: send" (notify (.passwordReset email t))

/-- One layer of the resend throttle: over the cap, the attempt is audited and refused. -/
def throttle (k : StoreKey) (max window : Nat) (applies : Bool) (blocked : AuditLog) : M Unit :=
  doIf (applies && max > 0) do
    let n ← storeIncrBy k 1 window
    refuseAfter (n > max) (record ctx blocked) .rateLimited

/-- The evidence of a blocked resend. -/
def resendBlocked (email ip detail : String) : AuditLog :=
  { auditEvent "verify_resend_blocked" false with
    email := email, ipAddress := ip, detail := detail }

/-- The lookup, issue and notify part of `resendVerifyEmailAudited`. -/
def resendIssue (email : String) : M Unit := do
  admitBeforeExternal ctx (auditEvent "verification_requested" true)
  match (← wrap "resend-verify: find user" (usersFindByEmail env ctx email)).filter
      (fun u => !u.isEmailVerified) with
  | none => pure ()
  | some user => do
    let t ← jwtIssue user.id user.role user.email .emailVerify env.cfg.verifyTTL ctx.tenant
    wrap "resend-verify: send" (notify (.emailVerification user.email (.jwt t)))

/-- `ResendVerifyEmail`. -/
def resendVerifyEmail (rawEmail ip : String) : M Unit := do
  let email := env.normalize rawEmail
  throttle ctx .verifyResendGlobal env.cfg.verifyResendGlobalMax env.cfg.verifyResendGlobalWindow
    true (resendBlocked email ip "global cap")
  throttle ctx (.verifyResendIP (env.canonicalIP ip)) env.cfg.verifyResendPerIPMax
    env.cfg.verifyResendPerIPWindow (ip ≠ "") (resendBlocked email ip "per-ip cap")
  if isDisposableEmail env email then
    admitBeforeExternal ctx (resendBlocked email ip "disposable domain")
  else do
    throttle ctx (.verifyResend email) env.cfg.verifyResendPerEmailMax env.cfg.verifyResendWindow
      (email ≠ "") (resendBlocked email ip "per-email cap")
    resendIssue env ctx email

/-! ## Single-use tokens -/

/-- The guard of a single-use token: consumed, then marked durably. -/
def spendToken (claims : Claims) (jti : Uuid) (userID : UserID) : M Unit := do
  let now ← getNow
  let ok ← consumeSingleUseToken jti (jtiStoreTTL now claims.expiresAt)
  refuse (!ok) .invalidToken
  markTokenDurable jti claims.type userID (claims.expiresAt * 1000)

/-- `resetPasswordAudited` after the token was verified. -/
def resetPasswordWith (claims : Claims) (jti : Uuid) (newPassword ip : String) : M Unit := do
  match ← usersFindByID ctx claims.userID with
  | none => throw .userNotFound
  | some user => do
    checkNewPassword env user newPassword
    spendToken claims jti user.id
    let hashed ← hashPassword env newPassword
    applyCredentialChange ctx user hashed (some jti)
    record ctx { auditEvent "password_reset" true with userID := some user.id, ipAddress := ip }

/-- `resetPasswordAudited`. The manager gives every reset token a `jti`. -/
def resetPasswordAudited (token : Token) (newPassword ip : String) : M Unit := do
  let claims ← jwtVerifyAs env token .reset .invalidToken
  match claims.id with
  | none => throw .invalidToken
  | some jti => resetPasswordWith env (ctx.withTenant claims.tenantID) claims jti newPassword ip

/-- `verifyEmailAudited` after the token was verified. -/
def verifyEmailWith (claims : Claims) (jti : Uuid) : M Unit := do
  match ← usersFindByID ctx claims.userID with
  | none => throw .userNotFound
  | some user => do
    spendToken claims jti user.id
    usersSetEmailVerified ctx user.id true (some jti)
    record ctx { auditEvent "email_verified" true with userID := some user.id }

/-- `verifyEmailAudited`. -/
def verifyEmailAudited (token : Token) : M Unit := do
  let claims ← jwtVerifyAs env token .emailVerify .invalidToken
  match claims.id with
  | none => throw .invalidToken
  | some jti => verifyEmailWith (ctx.withTenant claims.tenantID) claims jti

/-! ## Passwords -/

/-- `changePasswordAudited`. -/
def changePasswordAudited (userID : UserID) (oldPassword newPassword ip : String) : M Unit := do
  match ← usersFindByID ctx userID with
  | none => throw .userNotFound
  | some user => do
    let ok ← comparePassword env user oldPassword
    refuse (!ok) .invalidCredentials
    checkNewPassword env user newPassword
    let hashed ← hashPassword env newPassword
    applyCredentialChange ctx user hashed none
    record ctx { auditEvent "password_changed" true with userID := some user.id, ipAddress := ip }

/-- `setPasswordAudited`: the first password of an account without one. -/
def setPasswordAudited (userID : UserID) (newPassword ip : String) : M Unit := do
  match ← usersFindByID ctx userID with
  | none => throw .userNotFound
  | some user => do
    refuse (user.password ≠ "") .passwordAlreadySet
    checkNewPassword env user newPassword
    let hashed ← hashPassword env newPassword
    let set ← usersSetFirstPassword ctx user.id hashed
    refuse (!set) .passwordAlreadySet
    bumpPwdVersion ctx user.id
    record ctx { auditEvent "password_set" true with
      userID := some user.id, email := user.email, ipAddress := ip,
      detail := "first password set (oauth-only account)" }

/-! ## Entry points -/

/-- `AuthService.ResetPassword`. -/
def resetPassword (token : Token) (newPassword ip : String) : M Unit :=
  runAuditOperation (resetPasswordAudited env ctx token newPassword ip)

/-- `AuthService.VerifyEmail`. -/
def verifyEmail (token : Token) : M Unit :=
  runAuditOperation (verifyEmailAudited env ctx token)

/-- `AuthService.ChangePassword`. -/
def changePassword (userID : UserID) (oldPassword newPassword ip : String) : M Unit :=
  runAuditOperation (changePasswordAudited env ctx userID oldPassword newPassword ip)

/-- `AuthService.SetPassword`. -/
def setPassword (userID : UserID) (newPassword ip : String) : M Unit :=
  runAuditOperation (setPasswordAudited env ctx userID newPassword ip)

end FinnAuth
