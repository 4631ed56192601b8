import FinnAuth.Repositories

/-!
# Signed tokens and the authority over them

`internal/jwt` with the strict manager, which is the only one a deployment builds, and
`internal/identity`: `Authority.Check` decides whether the claims of an access token still hold.
-/

namespace FinnAuth

open Lib

/-! ## The manager -/

/-- `jwt.MaxAccessTTL`, in seconds. -/
def maxAccessTTL : Nat := 900

/-- `jwt.MaxSkew`, in seconds. -/
def maxSkew : Nat := 30

/-- `jwt.KeyDrain`, in seconds. -/
def keyDrain : Nat := maxAccessTTL + maxSkew

/-- `baseClaims` at `now`, in milliseconds. -/
def baseClaims (now : Nat) (userID : UserID) (role email : String) (type : TokenType) (ttl : Nat) :
    Claims :=
  { userID := userID, role := role, email := email, type := type, pwdVer := 0, authEpoch := 0,
    sid := none, tenantID := "", permissions := [], id := none, issuedAt := now / 1000,
    notBefore := now / 1000, expiresAt := (now + ttl) / 1000 }

/-- `sign`: the token is the next position among the signed ones. -/
def sign (c : Claims) : M Token :=
  call (.sign c) fun w => (w.signed.length, { w with signed := w.signed ++ [c] })

/-- Reset and verify-email tokens get a `jti`. -/
def TokenType.singleUse : TokenType → Bool
  | reset => true
  | emailVerify => true
  | _ => false

/-- `JWTManager.Issue`. -/
def jwtIssue (userID : UserID) (role email : String) (type : TokenType) (ttl : Nat)
    (tenantID : String) : M Token := do
  refuse (type = .access || tenantID = "") .jwtInvalidToken
  let now ← getNow
  let jti ← draw
  sign { baseClaims now userID role email type ttl with
    tenantID := tenantID, id := if type.singleUse then some jti else none }

/-- `JWTManager.IssueAccessV1`. -/
def jwtIssueAccessV1 (user : User) (ttl : Nat) (sid : Uuid) (tid : String) (perms : List String) :
    M Token := do
  refuse (user.id = 0 || tid = "" || ttl = 0 || ttl > maxAccessTTL * 1000) .jwtInvalidToken
  let now ← getNow
  let jti ← draw
  sign { baseClaims now user.id user.role user.email .access ttl with
    pwdVer := user.pwdVersion, authEpoch := user.authEpoch, sid := some sid, tenantID := tid,
    permissions := perms, id := some jti }

/-- The time checks of `parse`, with the allowed skew on each side. -/
def Claims.inTime (c : Claims) (now : Nat) : Bool :=
  now < (c.expiresAt + maxSkew) * 1000 && c.issuedAt * 1000 ≤ now + maxSkew * 1000
    && c.notBefore * 1000 ≤ now + maxSkew * 1000

/-- What `parse` and `validateAccess` demand of the claims of a type. -/
def Claims.wellFormed (env : Env) (c : Claims) : Bool :=
  match c.type with
  | .access =>
    c.userID ≠ 0 && env.trimSpace c.tenantID ≠ "" && c.id.isSome && c.sid.isSome
      && c.issuedAt < c.expiresAt && c.expiresAt ≤ c.issuedAt + maxAccessTTL
      && c.issuedAt ≤ c.notBefore && c.notBefore ≤ c.expiresAt
  | _ => c.tenantID ≠ "" && c.userID ≠ 0

/-- `Verify` accepts the claims at `now`. -/
def Claims.accepted (env : Env) (c : Claims) (now : Nat) : Bool :=
  c.inTime now && c.wellFormed env

/-- `JWTManager.Verify`: one of the signed tokens, in time. -/
def jwtVerify (env : Env) (t : Token) : M Claims :=
  .atomic .other fun w =>
    match w.signed[t]? with
    | none => (.error .jwtInvalidToken, w)
    | some c => if c.accepted env w.now then (.ok c, w) else (.error .jwtInvalidToken, w)

/-- `claims, err := jwt.Verify(tok); if err != nil || claims.Type != want { return refusal }`. -/
def jwtVerifyAs (env : Env) (t : Token) (want : TokenType) (refusal : Err) : M Claims :=
  (jwtVerify env t).attempt >>= fun r => match r with
    | .ok c => if c.type = want then .ret c else .fail refusal
    | .error _ => .fail refusal

/-- A sudo token of this user: `none` is the empty string. -/
def sudoProven (env : Env) (sudoToken : Option Token) (userID : UserID) : M Bool :=
  match sudoToken with
  | none => .ret false
  | some t => (jwtVerify env t).attempt >>= fun r => match r with
    | .ok c => .ret (c.type = .sudo && c.userID = userID)
    | .error _ => .ret false

/-! ## The authority -/

/-- The durable part of `Authority.Check`: user, tenant, session, revocations and permissions as
the token has them. Both permission lists are sorted and compacted in the source, so they are
compared as sets. -/
def DB.accessActive (db : DB) (now : Nat) (c : Claims) (sid jti : Uuid) : Bool :=
  match db.userByID ⟨c.tenantID⟩ c.userID with
  | none => false
  | some u =>
    u.isActive && !u.adminSuspended && u.pwdVersion = c.pwdVer && u.authEpoch = c.authEpoch
      && db.tenants.rows.any (fun t => t.id = c.tenantID && t.isActive)
      && db.sessions.rows.any (fun s => s.id = sid && s.tenantID = c.tenantID
          && s.userID = c.userID && !s.revoked && now < s.expiresAt)
      && !db.accessRevocations.rows.any (fun r => r.tenantID = c.tenantID && r.jti = jti)
      && (let actual := db.userPermissions ⟨c.tenantID⟩ c.userID
          actual.all (· ∈ c.permissions) && c.permissions.all (· ∈ actual))

/-- `SecurityStore.Revoked`. -/
def storeRevoked (jti sid : Uuid) : M Bool := do
  let j ← storeGet (.denylistJTI jti)
  let f ← storeGet (.denylistSID sid)
  pure (j.isSome || f.isSome)

/-- `Authority.Check`. -/
def authorityCheck (c : Claims) : M Unit :=
  match c.sid, c.id with
  | some sid, some jti => do
    refuse (c.tenantID = "") .inactive
    let revoked ← storeRevoked jti sid
    refuse revoked .inactive
    let now ← getNow
    let active ← query .other fun db => db.accessActive now c sid jti
    refuse (!active) .inactive
  | _, _ => throw .inactive

/-- The `accessState` a deployment wires in: an inactive token is `ErrInvalidCredentials`. -/
def accessState (c : Claims) : M Unit :=
  (authorityCheck c).attempt >>= fun r => match r with
    | .ok () => .ret ()
    | .error .inactive => .fail .invalidCredentials
    | .error e => .fail e

/-- `Authority.RevokeAccess`: a conflict is not an error. -/
def revokeAccess (ctx : Ctx) (jti : Uuid) (exp : Nat) : M Unit :=
  repo .other fun _ => (.ok (), some (.insertAccessRevocation ⟨ctx.tenant, jti, exp⟩))

end FinnAuth
