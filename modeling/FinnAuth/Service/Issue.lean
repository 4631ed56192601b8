import FinnAuth.Identity

/-!
# Issuing token pairs, and the helpers the services share

The internal helpers of `internal/services/auth_service.go`: password rules, denylists, the
password version, the single-use guard and `issueTokenPair`, through which every login and every
rotation goes.
-/

namespace FinnAuth

open Lib

/-! ## Texts -/

/-- `strings.Contains`. -/
def containsText (s sub : String) : Bool := s.toList.tails.any fun t => sub.toList.isPrefixOf t

/-- `strings.Split(email, "@")[0]`. -/
def emailLocalPart (email : String) : String :=
  String.ofList (email.toList.takeWhile (· ≠ '@'))

variable (env : Env) (ctx : Ctx)

/-- `strings.ToLower(strings.TrimSpace(email))`. -/
def Env.normalize (email : String) : String := env.toLower (env.trimSpace email)

/-- `disposableDomains`. -/
def disposableDomains : List String :=
  ["mailinator.com", "guerrillamail.com", "10minutemail.com", "tempmail.com", "temp-mail.org",
    "throwawaymail.com", "yopmail.com", "getnada.com", "trashmail.com", "sharklasers.com",
    "dispostable.com", "maildrop.cc", "fakeinbox.com", "tempinbox.com", "mailnesia.com"]

/-- `isDisposableEmail`: the text after the last `@`. -/
def isDisposableEmail (email : String) : Bool :=
  let domain := (email.toList.reverse.takeWhile (· ≠ '@')).reverse
  if '@' ∉ email.toList || domain = [] then false
  else env.normalize (String.ofList domain) ∈ disposableDomains

/-- The length, letter and digit rules of `validatePassword`. -/
def plainPasswordOk (pw : String) : Bool :=
  8 ≤ pw.utf8ByteSize && pw.utf8ByteSize ≤ maxPasswordBytes
    && pw.toList.any (fun r => ('a' ≤ r && r ≤ 'z') || ('A' ≤ r && r ≤ 'Z'))
    && pw.toList.any (fun r => '0' ≤ r && r ≤ '9')

/-- `validatePassword`. -/
def passwordAcceptable (pw : String) (userInputs : List String) : Bool :=
  let inputs := (userInputs.map fun s => env.trimSpace (env.toLower s)).filter (· ≠ "")
  plainPasswordOk pw
    && !inputs.any (fun s => 3 ≤ s.utf8ByteSize && containsText (env.toLower pw) s)
    && (env.cfg.minPasswordScore = 0 || env.cfg.minPasswordScore ≤ env.passwordScore pw inputs)

/-- `hashPassword`: refuses what bcrypt would truncate. -/
def hashPassword (plain : String) : M String := do
  refuse (plain.utf8ByteSize > maxPasswordBytes) .crypto
  let salt ← draw
  pure (env.bcryptHash salt plain)

/-- `hash.CheckPassword` against the row `u`, recorded as an action. -/
def comparePassword (u : User) (plain : String) : M Bool :=
  call (.comparePassword u) fun w => (env.checkPassword u.password plain, w)

/-- The checks on a new password of `user`. -/
def checkNewPassword (user : User) (pw : String) : M Unit := do
  refuse (!passwordAcceptable env pw [user.username, emailLocalPart user.email]) .passwordTooWeak
  refuse (env.breached pw) .passwordBreached

/-! ## Denylists, versions, alerts -/

/-- `denylistAccessToken`. -/
def denylistAccessToken (jti : Option Uuid) : M Unit :=
  match jti with
  | none => .ret ()
  | some j => storeSet (.denylistJTI j) (.str "revoked") env.cfg.accessTTL

/-- `denylistSession`: for the rest of the session's life, or a short grace window. -/
def denylistSession (sess : Option Session) : M Unit :=
  match sess with
  | none => .ret ()
  | some s => do
    let now ← getNow
    storeSet (.denylistSID s.id) (.str "revoked")
      (if now < s.expiresAt then s.expiresAt - now else env.cfg.accessTTL)

/-- `bumpPwdVersion`. -/
def bumpPwdVersion (userID : UserID) : M Unit := do
  usersBumpPwdVersion ctx userID
  storeDelete (.pwdVer ctx.tenant userID)

/-- `notifySecurityAsync`: the mail is sent by a background task whose failure is only logged. -/
def notifySecurityAsync (userID : UserID) (event body : String) : M Unit :=
  (usersFindByID ctx userID).attempt >>= fun r => match r with
    | .ok (some u) => doIf (u.email ≠ "") (ignore (notify (.securityAlert u.email event body)))
    | _ => .ret ()

/-- `newIPLookbackWindow`. -/
def newIPLookbackWindow : Nat := 30 * 24 * 3600 * 1000

/-- `maybeNotifyNewIPLogin`. -/
def maybeNotifyNewIPLogin (user : User) (ip ua : String) : M Unit :=
  doIf (ip ≠ "" && env.cfg.notifyNewIPLogin) do
    let fresh ← storeSetNX (.knownIP user.id ip) (.str "seen") newIPLookbackWindow
    doIf fresh (ignore (notify (.newLoginAlert user.email ip (env.deviceParse ua))))

/-- `applyCredentialChange` with the transactional repositories. -/
def applyCredentialChange (user : User) (hashed : String) (jti : Option Uuid) : M Unit := do
  usersCredentialChangeTx ctx user.id hashed jti
  storeDelete (.pwdVer ctx.tenant user.id)

/-! ## Token pairs -/

/-- `geo.UnknownLocation` where there is no address or no label. -/
def resolveLocation (ip : String) : String :=
  if ip = "" || env.resolveLocation ip = "" then "Unknown" else env.resolveLocation ip

/-- The session of a new pair: the family's own row, touched, or a new row. -/
def issueSession (user : User) (ip ua : String) (reuse : Option Uuid) : M Uuid :=
  match reuse with
  | some sid => do
    let now ← getNow
    ignore (sessionsTouch ctx sid ip ua (env.deviceParse ua) (resolveLocation env ip) now)
    pure sid
  | none => do
    let sid ← draw
    let now ← getNow
    sessionsCreate ctx
      { id := sid, tenantID := "", userID := user.id, ipAddress := ip, userAgent := ua,
        deviceName := env.deviceParse ua, locationEstimate := resolveLocation env ip,
        revoked := false, lastActiveAt := now, expiresAt := now + env.cfg.refreshTTL }
    pure sid

/-- The access token of a new pair: signed, verified, and checked against the live state. -/
def issueAccess (user : User) (sid : Uuid) (perms : List String) : M Token := do
  let access ← jwtIssueAccessV1 user env.cfg.accessTTL sid ctx.tenant perms
  let claims ← jwtVerify env access
  (accessState claims).attempt >>= fun r => match r with
    | .ok () => .ret access
    | .error e =>
      if e.root = .invalidCredentials then .fail .invalidCredentials
      else .fail (.wrapped "issuance state check" .identityUnavailable)

/-- The refresh token of a new pair; only its hash is stored. -/
def issueRefresh (user : User) (ip ua : String) (sid : Uuid) (access : Token) : M TokenPair := do
  let refreshPlain ← draw
  let rowID ← draw
  let now ← getNow
  tokensCreate ctx
    { id := rowID, userID := user.id, tokenHash := ⟨refreshPlain⟩,
      expiresAt := now + env.cfg.refreshTTL, revoked := false, ipAddress := ip, userAgent := ua,
      deviceName := env.deviceParse ua, locationEstimate := resolveLocation env ip,
      lastActiveAt := now, sessionID := some sid } access
  pure { accessToken := access, refreshToken := refreshPlain, expiresAt := now + env.cfg.accessTTL }

/-- `issueTokenPair`: `reuse` is the session to rotate within; `none` creates a new one. -/
def issueTokenPair (user : User) (ip ua : String) (reuse : Option Uuid) : M TokenPair := do
  refuse (!user.isActive || user.adminSuspended) .accountDisabled
  refuse (user.tenantID ≠ "" && user.tenantID ≠ ctx.tenant) .userNotFound
  let perms ← (rbacGetUserPermissions ctx user.id).attempt >>= fun r => match r with
    | .ok perms => .ret perms
    | .error _ => .fail (.wrapped "permission lookup" .identityUnavailable)
  let sid ← issueSession env ctx user ip ua reuse
  let access ← issueAccess env ctx user sid perms
  let pair ← issueRefresh env ctx user ip ua sid access
  maybeNotifyNewIPLogin env user ip ua
  pure pair

/-! ## Single use -/

/-- `jtiStoreTTL`, for a token that expires at `exp` seconds. -/
def jtiStoreTTL (now exp : Nat) : Nat :=
  if now < exp * 1000 then exp * 1000 - now + 3600 * 1000 else 24 * 3600 * 1000

/-- `consumeSingleUseToken`: the volatile guard, then the durable one, which fails closed. -/
def consumeSingleUseToken (jti : Uuid) (ttl : Nat) : M Bool := do
  let fresh ← storeSetNX (.jti jti) (.str "used") ttl
  if fresh then
    (usedTokensIsUsed jti).attempt >>= fun r => match r with
      | .ok used => .ret (!used)
      | .error _ => .ret false
  else .ret false

/-- `markTokenDurable`: an error is propagated, a duplicate is not looked at. -/
def markTokenDurable (jti : Uuid) (type : TokenType) (userID : UserID) (exp : Nat) : M Unit := do
  let _ ← wrap "single-use backstop" (usedTokensMarkUsed jti type userID exp)
  pure ()

end FinnAuth
