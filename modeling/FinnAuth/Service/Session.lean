import FinnAuth.Service.Issue

/-!
# Rotation, theft response and logout

The session part of `internal/services/auth_service.go`: `Refresh` exchanges a refresh token for a
new pair inside the same session family, a token presented after its revocation ends the family
(`handleTokenReuse`), and the logouts end one family or all of them.
-/

namespace FinnAuth

open Lib

/-! ## Theft response -/

variable (env : Env) (ctx : Ctx)

/-- The mail of a theft response. -/
def reuseAlert (userID : UserID) : M Unit :=
  notifySecurityAsync ctx userID "Suspicious sign-in activity detected"
    ("A refresh token from one of your devices was reused after being revoked. That device's " ++
      "session has been ended. If this was not you, change your password immediately.")

/-- The family part of `handleTokenReuse`: session row, token chain, denylist, evidence, alert.
Failures are logged and do not stop the rest. -/
def killFamily (rt : RefreshToken) (sid : Uuid) (ip detail : String) : M Unit := do
  let sess ← (sessionsFindByID ctx sid).attempt >>= fun r => match r with
    | .ok s => .ret s
    | .error _ => .ret none
  ignore (sessionsRevokeByID ctx sid rt.userID)
  ignore (tokensRevokeBySession ctx sid)
  denylistSession env sess
  record ctx { auditEvent "token_reuse" false with
    userID := some rt.userID, ipAddress := ip, detail := detail ++ " (session family revoked)" }
  doIf sess.isSome (reuseAlert ctx rt.userID)

/-- `handleTokenReuse`: a row without a session falls back to revoking all tokens of the user. -/
def handleTokenReuse (rt : RefreshToken) (ip detail : String) : M Unit :=
  match rt.sessionID with
  | some sid => killFamily env ctx rt sid ip detail
  | none => do
    ignore (tokensRevokeAllForUser ctx rt.userID)
    record ctx { auditEvent "token_reuse" false with
      userID := some rt.userID, ipAddress := ip, detail := detail }

/-! ## Refresh -/

/-- The session check of `refreshAudited`. -/
def checkFamily (rt : RefreshToken) (ip : String) : M Unit :=
  match rt.sessionID with
  | none => .ret ()
  | some sid => do
    match ← wrap "refresh: find session" (sessionsFindByID ctx sid) with
    | none => throw .invalidToken
    | some sess => do
      let now ← getNow
      refuseAfter (sess.revoked || now > sess.expiresAt)
        (handleTokenReuse env ctx rt ip "revoked session presented") .invalidToken

/-- The compare-and-set of `refreshAudited`: losing it is reuse. -/
def consumeToken (rt : RefreshToken) (ip : String) : M Unit :=
  (tokensRevoke ctx rt.id).attempt >>= fun r => match r with
    | .ok () => .ret ()
    | .error .tokenAlreadyRevoked => do
      handleTokenReuse env ctx rt ip "concurrent refresh lost revoke race"
      throw .invalidToken
    | .error e => throw e

/-- The rotation of a token row that is neither revoked nor expired. -/
def rotate (rt : RefreshToken) (user : User) (ip ua : String) : M TokenPair := do
  checkFamily env ctx rt ip
  consumeToken env ctx rt ip
  let pair ← issueTokenPair env ctx user ip ua rt.sessionID
  record ctx { auditEvent "refresh_token" true with userID := some user.id, ipAddress := ip }
  pure pair

/-- `refreshAudited`. -/
def refreshAudited (refreshToken : Uuid) (ip ua : String) : M TokenPair := do
  match ← wrap "refresh: find token" (tokensFindByHash ctx ⟨refreshToken⟩) with
  | none => throw .invalidToken
  | some rt => do
    refuseAfter rt.revoked
      (handleTokenReuse env ctx rt ip "revoked refresh token presented") .invalidToken
    let now ← getNow
    refuseAfter (now > rt.expiresAt) (ignore (tokensRevoke ctx rt.id)) .invalidToken
    match ← usersFindByID ctx rt.userID with
    | none => throw .invalidToken
    | some user => do
      refuse (!user.isActive || user.adminSuspended) .invalidToken
      rotate env ctx rt user ip ua

/-! ## Logout -/

/-- The family part of `logoutAudited`; a failed lookup skips it. -/
def endFamily (rt : RefreshToken) : M Unit :=
  match rt.sessionID with
  | none => .ret ()
  | some sid => (sessionsFindByID ctx sid).attempt >>= fun r => match r with
    | .error _ => .ret ()
    | .ok sess => do
      ignore (sessionsRevokeByID ctx sid rt.userID)
      ignore (tokensRevokeBySession ctx sid)
      denylistSession env sess

/-- The revocation of `logoutAudited` for a row that was read as active. A lost compare-and-set
is tolerated. -/
def logoutActive (rt : RefreshToken) (accessJTI : Option Uuid) (ip : String) : M Unit := do
  (tokensRevoke ctx rt.id).attempt >>= fun r => match r with
    | .ok () => .ret ()
    | .error .tokenAlreadyRevoked => .ret ()
    | .error e => throw e
  endFamily env ctx rt
  record ctx { auditEvent "logout" true with userID := some rt.userID, ipAddress := ip }
  doIf accessJTI.isSome (record ctx { auditEvent "access_token_revoked" true with
    userID := some rt.userID, ipAddress := ip, detail := "logout denylisted access jti" })

/-- The durable revocation of the caller's access token. -/
def revokeCaller (accessJTI : Option Uuid) : M Unit :=
  match accessJTI with
  | none => .ret ()
  | some jti => do
    let now ← getNow
    (revokeAccess ctx jti (now + keyDrain * 1000)).attempt >>= fun r => match r with
      | .ok () => .ret ()
      | .error _ => throw (.wrapped "durable revocation" .identityUnavailable)

/-- `logoutAudited`. -/
def logoutAudited (refreshToken : Uuid) (accessJTI : Option Uuid) (ip : String) : M Unit := do
  revokeCaller ctx accessJTI
  denylistAccessToken env accessJTI
  match (← wrap "logout: find token" (tokensFindByHash ctx ⟨refreshToken⟩)).filter
      (fun rt => !rt.revoked) with
  | none => doIf accessJTI.isSome (record ctx (auditEvent "access_token_revoked" true))
  | some rt => logoutActive env ctx rt accessJTI ip

/-- `logoutAllAudited`. -/
def logoutAllAudited (userID : UserID) (ip : String) : M Unit := do
  tokensRevokeAllForUser ctx userID
  sessionsRevokeAllForUser ctx userID
  wrap "logout-all: bump pwd version" (bumpPwdVersion ctx userID)
  record ctx { auditEvent "logout" true with
    userID := some userID, ipAddress := ip, detail := "logout-all" }

/-- `revokeSessionAudited`. -/
def revokeSessionAudited (sessionID : Uuid) (userID : UserID) (ip : String) : M Unit := do
  match (← wrap "revoke session" (sessionsFindByID ctx sessionID)).filter
      (fun s => s.userID = userID) with
  | none => throw .sessionNotFound
  | some sess => do
    (sessionsRevokeByID ctx sessionID userID).attempt >>= fun r => match r with
      | .ok () => .ret ()
      | .error .recordNotFound => throw .sessionNotFound
      | .error e => throw (.wrapped "revoke session" e)
    wrap "revoke session: revoke family tokens" (tokensRevokeBySession ctx sessionID)
    denylistSession env (some sess)
    record ctx { auditEvent "session_revoked" true with userID := some userID, ipAddress := ip }

/-! ## Entry points -/

/-- `AuthService.Refresh`. -/
def refresh (refreshToken : Uuid) (ip ua : String) : M TokenPair :=
  runAuditOperation (refreshAudited env ctx refreshToken ip ua)

/-- `AuthService.Logout`. -/
def logout (refreshToken : Uuid) (accessJTI : Option Uuid) (ip : String) : M Unit :=
  runAuditOperation (logoutAudited env ctx refreshToken accessJTI ip)

/-- `AuthService.LogoutAll`. -/
def logoutAll (userID : UserID) (ip : String) : M Unit :=
  runAuditOperation (logoutAllAudited ctx userID ip)

/-- `AuthService.RevokeSession`. -/
def revokeSession (sessionID : Uuid) (userID : UserID) (ip : String) : M Unit :=
  runAuditOperation (revokeSessionAudited env ctx sessionID userID ip)

end FinnAuth
