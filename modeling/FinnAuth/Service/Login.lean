import FinnAuth.Service.Totp

/-!
# Registration and login

`Register`, `Login`, `CheckMFAOrIssueTokens` and `CompleteMFALogin` of
`internal/services/auth_service.go`. Inside a running audit operation the nested entry points pass
through to their bodies, so the bodies call each other directly here.
-/

namespace FinnAuth

open Lib

/-! ## Registration -/

/-- `RegisterInput`. -/
structure RegisterInput where
  username : String
  email : String
  password : String
  fullName : String
  ip : String

/-- One counter of the layered throttles: `max = 0` switches it off. -/
def overCap (k : StoreKey) (max window : Nat) (applies : Bool) : M Bool :=
  if applies && max > 0 then do
    let n ← storeIncrBy k 1 window
    pure (n > max)
  else .ret false

variable (env : Env) (ctx : Ctx)

/-- `shouldThrottleDuplicateRegisterAlert`. -/
def shouldThrottleDuplicateRegisterAlert (email ip : String) : M Bool := do
  let global ← overCap .regDupGlobal env.cfg.verifyResendGlobalMax
    env.cfg.verifyResendGlobalWindow true
  if global then pure true
  else do
    let perIP ← overCap (.regDupIP (env.canonicalIP ip)) env.cfg.verifyResendPerIPMax
      env.cfg.verifyResendPerIPWindow (ip ≠ "")
    if perIP then pure true
    else
      overCap (.regDupEmail email) env.cfg.verifyResendPerEmailMax env.cfg.verifyResendWindow
        (email ≠ "")

/-- `handleDuplicateRegistration`: the neutral answer. -/
def handleDuplicateRegistration (ownerEmail ip attempted : String) : M UserProfile := do
  record ctx { auditEvent "register_duplicate" false with
    email := ownerEmail, ipAddress := ip,
    detail := "attempted registration with existing email or username (attempted username: "
      ++ attempted ++ ")" }
  let throttled ← shouldThrottleDuplicateRegisterAlert env ownerEmail ip
  doIf (!throttled) (ignore (notify (.duplicateRegisterAlert ownerEmail)))
  pure { id := 0, username := attempted, email := ownerEmail, fullName := "", role := roleUser,
         isActive := true, isEmailVerified := false }

/-- The verification mail of `Register`: a failed delivery is recorded, not returned. -/
def sendVerification (user : User) (ip : String) : M Unit := do
  let t ← jwtIssue user.id user.role user.email .emailVerify env.cfg.verifyTTL ctx.tenant
  (notify (.emailVerification user.email (.jwt t))).attempt >>= fun r => match r with
    | .ok () => .ret ()
    | .error _ => record ctx { auditEvent "verify_email_send_failed" false with
        userID := some user.id, email := user.email, ipAddress := ip }

/-- The creation of `registerAudited`, after the uniqueness checks. -/
def registerCreate (in_ : RegisterInput) (username email : String) : M UserProfile := do
  let hashed ← hashPassword env in_.password
  let id ← draw
  (usersCreate env ctx
    { id := id + 1, tenantID := "", username := username, email := email, password := hashed,
      fullName := in_.fullName, role := roleUser, isActive := true, isEmailVerified := false,
      failedLoginAttempts := 0, lockedUntil := none, authEpoch := 0, adminSuspended := false,
      pwdVersion := 0 }).attempt >>= fun r => match r with
    | .ok user => do
      record ctx { auditEvent "registered" true with userID := some user.id }
      sendVerification env ctx user in_.ip
      pure (fromUser user)
    | .error (.duplicatedKey _) => handleDuplicateRegistration env ctx email in_.ip username
    | .error e => throw e

/-- The registrations of the address in the window, this one included. -/
def registerCount (ip : String) : M Int :=
  if ip ≠ "" then storeIncrBy (.regIP (env.canonicalIP ip)) 1 env.cfg.registerWindow else .ret 0

/-- `registerAudited`. -/
def registerAudited (in_ : RegisterInput) : M UserProfile := do
  let username := env.trimSpace in_.username
  let email := env.normalize in_.email
  refuse (!passwordAcceptable env in_.password [username, emailLocalPart email]) .passwordTooWeak
  refuse (env.breached in_.password) .passwordBreached
  let count ← registerCount env in_.ip
  refuse (count > env.cfg.registerPerIPMax) .rateLimited
  refuse (isDisposableEmail env email) .disposableEmail
  match ← wrap "register: find email" (usersFindByEmail env ctx email) with
  | some existing => handleDuplicateRegistration env ctx existing.email in_.ip username
  | none => do
    match ← wrap "register: find username" (usersFindByUsername env ctx username) with
    | some existing => handleDuplicateRegistration env ctx existing.email in_.ip username
    | none => registerCreate env ctx in_ username email

/-! ## Login -/

/-- The result of a login: a pair, or a token for the second factor. -/
inductive LoginResult : Type where
  | pair (p : TokenPair) (profile : UserProfile)
  | mfaPending (t : Token)
  deriving DecidableEq, Repr

/-- `checkMFAOrIssueTokensAudited`: an enabled device turns the login into an `mfa_pending`
token, which carries the user id and no version. -/
def checkMFAOrIssueTokensAudited (user : User) (ip ua detail : String) : M LoginResult := do
  refuse (user.adminSuspended || !user.isActive) .accountDisabled
  let device ← wrap "login: check totp" (totpFindByUserID ctx user.id)
  if device.any (·.enabled) then do
    let t ← jwtIssue user.id "" "" .mfaPending env.cfg.mfaPendingTTL ctx.tenant
    record ctx { auditEvent "mfa_pending" true with userID := some user.id }
    pure (.mfaPending t)
  else do
    let pair ← issueTokenPair env ctx user ip ua none
    record ctx { auditEvent "login" true with
      userID := some user.id, email := user.email, ipAddress := ip, detail := detail }
    pure (.pair pair (fromUser user))

/-- `loginFailedEvent`. -/
def loginFailedEvent (userID : Option UserID) (email ip detail : String) : AuditLog :=
  { auditEvent "login_failed" false with
    userID := userID, email := email, ipAddress := ip, detail := detail }

/-- `recordLoginFailIP`. -/
def recordLoginFailIP (ip : String) : M Unit :=
  doIf (ip ≠ "")
    (storeIncrBy (.loginFail (env.canonicalIP ip)) 1 (3600 * 1000) >>= fun _ => .ret ())

/-- `recordLoginFailAccount`. -/
def recordLoginFailAccount (email : String) : M Unit :=
  doIf (email ≠ "") (storeIncrBy (.loginAcct email) 1 env.cfg.loginWindow >>= fun _ => .ret ())

/-- The number of recent lockouts, this one included. -/
def lockoutCount (user : User) : M Int :=
  if env.cfg.maxLockoutMultiplier > 0 then storeIncrBy (.lockouts user.id) 1 (24 * 3600 * 1000)
  else .ret 1

/-- The lock end of `recordFailedLogin`: the base duration times the number of recent lockouts,
capped. -/
def lockoutEnd (user : User) : M (Option Nat) :=
  if user.failedLoginAttempts + 1 ≥ env.cfg.maxLoginAttempts then do
    let count ← lockoutCount env user
    let now ← getNow
    pure (some (now + env.cfg.loginLockoutDuration
      * max 1 (min count env.cfg.maxLockoutMultiplier).toNat))
  else .ret none

/-- `recordFailedLogin`. -/
def recordFailedLogin (user : User) (email ip : String) : M Unit := do
  let lockUntil ← lockoutEnd env user
  ignore (usersIncrementFailedAttempts ctx user.id lockUntil)
  recordLoginFailIP env ip
  recordLoginFailAccount env email
  record ctx (loginFailedEvent (some user.id) email ip "bad password")

/-- `isLocked`. -/
def isLocked (user : User) (now : Nat) : Bool :=
  match user.lockedUntil with
  | none => false
  | some t => now < t

/-- The account gates of `loginAudited`. -/
def loginGates (user : User) (email ip : String) : M Unit := do
  refuse (env.cfg.requireEmailVerified && !user.isEmailVerified) .emailNotVerified
  refuseAfter (!user.isActive || user.adminSuspended)
    (record ctx (loginFailedEvent (some user.id) email ip "disabled")) .accountDisabled
  let now ← getNow
  refuseAfter (isLocked user now)
    (record ctx (loginFailedEvent (some user.id) email ip "locked")) .accountLocked

/-- The velocity and captcha gates of `loginAudited`. -/
def loginLimits (email ip captchaToken : String) : M Unit := do
  let acct ← storeCounterValue (.loginAcct email)
  refuse (email ≠ "" && env.cfg.loginPerAccountMax > 0 && acct ≥ env.cfg.loginPerAccountMax)
    .rateLimited
  let fails ← storeCounterValue (.loginFail (env.canonicalIP ip))
  refuse (env.cfg.loginCaptchaAfterFails > 0 && fails ≥ env.cfg.loginCaptchaAfterFails
    && !env.captchaOk captchaToken) .captchaRequired

/-- `loginAudited`. -/
def loginAudited (rawEmail password captchaToken ip ua : String) : M LoginResult := do
  let email := env.normalize rawEmail
  loginLimits env email ip captchaToken
  match ← wrap "login: find user" (usersFindByEmail env ctx email) with
  | none => do
    recordLoginFailIP env ip
    recordLoginFailAccount env email
    record ctx (loginFailedEvent none email ip "unknown user")
    throw .invalidCredentials
  | some user => do
    loginGates env ctx user email ip
    -- an account without a password compares against a dummy hash and never matches
    let matches_ ← comparePassword env user password
    refuseAfter (!matches_) (recordFailedLogin env ctx user email ip) .invalidCredentials
    usersResetFailedAttempts ctx user.id
    storeDelete (.loginAcct email)
    checkMFAOrIssueTokensAudited env ctx user ip ua ""

/-- `completeMFALoginAudited`: the code, then the user row as it is now. -/
def completeMFALoginAudited (userID : UserID) (code ip ua : String) :
    M (TokenPair × UserProfile) := do
  totpValidateAudited env ctx userID code
  match ← usersFindByID ctx userID with
  | none => throw .invalidToken
  | some user => do
    refuse (!user.isActive || user.adminSuspended) .invalidToken
    let pair ← issueTokenPair env ctx user ip ua none
    record ctx { auditEvent "login" true with
      userID := some user.id, email := user.email, ipAddress := ip, detail := "mfa-complete" }
    record ctx { auditEvent "token_issued" true with userID := some user.id }
    pure (pair, fromUser user)

/-- `MFAPendingMiddleware` in front of `CompleteMFALogin`: only an `mfa_pending` token passes, and
it binds user and tenant. -/
def mfaLoginVerify {α : Type} (env : Env) (ctx : Ctx) (t : Token) (next : Ctx → UserID → M α) :
    M α := do
  let claims ← jwtVerifyAs env t .mfaPending .invalidToken
  next (ctx.withTenant claims.tenantID) claims.userID

/-- `issuePasskeyTokenPairAudited`. -/
def issuePasskeyTokenPairAudited (user : User) (ip ua : String) : M (TokenPair × UserProfile) := do
  refuse (!user.isActive || user.adminSuspended) .accountDisabled
  let pair ← issueTokenPair env ctx user ip ua none
  record ctx { auditEvent "token_issued" true with userID := some user.id }
  pure (pair, fromUser user)

/-! ## Entry points -/

/-- `AuthService.Register`. -/
def register (in_ : RegisterInput) : M UserProfile :=
  runAuditOperation (registerAudited env ctx in_)

/-- `AuthService.Login`. -/
def login (email password captchaToken ip ua : String) : M LoginResult :=
  runAuditOperation (loginAudited env ctx email password captchaToken ip ua)

/-- The `/mfa/login-verify` route: middleware and `AuthService.CompleteMFALogin`. -/
def completeMFALogin (t : Token) (code ip ua : String) : M (TokenPair × UserProfile) :=
  mfaLoginVerify env ctx t fun ctx userID =>
    runAuditOperation (completeMFALoginAudited env ctx userID code ip ua)

end FinnAuth
