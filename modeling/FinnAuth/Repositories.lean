import FinnAuth.World

/-!
# The repositories

`internal/repositories`: one definition per method, each one transaction that reads the database
and hands over at most one statement. Rows are scoped by tenant: directly where the table has a
`tenant_id`, through the owning user otherwise (`ownedRows`). MySQL counts an updated row only
when a value changed, which matters to the methods that read `RowsAffected`.
-/

namespace FinnAuth

open Lib

/-- A read. -/
def query {α : Type} (l : Call) (f : DB → α) : M α := repo l fun db => (.ok (f db), none)

/-- `requireOwner`, then the statement. -/
def ownedWrite (l : Call) (ctx : Ctx) (id : UserID) (s : DB → Stmt) : M Unit :=
  repo l fun db => if db.owns ctx id then (.ok (), some (s db)) else (.error .recordNotFound, none)

/-! ## Users -/

variable (env : Env) (ctx : Ctx)

/-- Another user of the tenant has a value that the unique index takes for the same. -/
def DB.taken (db : DB) (ctx : Ctx) (id : UserID) (field : User → String) (value : String) : Bool :=
  db.users.rows.any fun u => u.id ≠ id && u.tenantID = ctx.tenant && env.collate (field u) value

/-- The unique index that refuses the email or the username for the row `id`. -/
def DB.uniqueIndex (db : DB) (ctx : Ctx) (id : UserID) (email username : String) : Option String :=
  if db.taken env ctx id (·.email) email then some "idx_users_tenant_email"
  else if db.taken env ctx id (·.username) username then some "idx_users_tenant_username"
  else none

/-- `UserRepository.Create`. The row comes back with the tenant of the context. -/
def usersCreate (user : User) : M User :=
  repo .other fun db =>
    match db.uniqueIndex env ctx user.id user.email user.username with
    | some index => (.error (.duplicatedKey index), none)
    | none =>
      if user.id ∈ db.users.rows.map User.id then (.error (.duplicatedKey "PRIMARY"), none)
      else (.ok { user with tenantID := ctx.tenant },
        some (.insertUser { user with tenantID := ctx.tenant }))

def usersFindByID (id : UserID) : M (Option User) :=
  query (.findUser id) fun db => db.userByID ctx id

/-- The first row of the tenant whose email the column's collation takes for `email`. -/
def DB.userByEmail (db : DB) (ctx : Ctx) (email : String) : Option User :=
  db.users.first? fun u => env.collate u.email email && u.tenantID = ctx.tenant

def usersFindByEmail (email : String) : M (Option User) :=
  query .other fun db => db.userByEmail env ctx email

def usersFindByUsername (username : String) : M (Option User) :=
  query .other fun db =>
    db.users.first? fun u => env.collate u.username username && u.tenantID = ctx.tenant

/-- `updateScoped` on the row `id`, without a unique column. -/
def usersUpdate (l : Call) (ctx : Ctx) (id : UserID) (w : UserWrite) : M Unit :=
  ownedWrite l ctx id fun _ => .updateUser ctx id w

/-- `updateScoped` on the row of `user` after `scopeTenant`; `conflict` is the unique index that
refuses the new values, if any. -/
def usersUpdateUnique (user : User) (conflict : DB → Option String) (w : UserWrite) : M Unit :=
  repo .other fun db =>
    if (user.tenantID ≠ "" && user.tenantID ≠ ctx.tenant) || !db.owns ctx user.id then
      (.error .recordNotFound, none)
    else match conflict db with
      | some index => (.error (.duplicatedKey index), none)
      | none => (.ok (), some (.updateUser ctx user.id w))

/-- `UpdateEmail`: the new address and the verification flag, nothing else. -/
def usersUpdateEmail (user : User) : M Unit :=
  usersUpdateUnique ctx user
    (fun db => if db.taken env ctx user.id (·.email) user.email then
      some "idx_users_tenant_email" else none)
    (.email user.email user.isEmailVerified)

def usersDeactivate (id : UserID) : M Unit := usersUpdate .other ctx id .deactivate

/-- `Erase`: the anonymised names of `user`; password, full name, activity and verification are
forced. -/
def usersErase (user : User) : M Unit :=
  usersUpdateUnique ctx user (fun db => db.uniqueIndex env ctx user.id user.email user.username)
    (.erase user.email user.username)

def usersIncrementFailedAttempts (id : UserID) (lockUntil : Option Nat) : M Unit :=
  usersUpdate (.site (.failedAttempt id)) ctx id (.failedAttempt lockUntil)

def usersResetFailedAttempts (id : UserID) : M Unit :=
  usersUpdate .other ctx id .resetFailed

def usersBumpPwdVersion (id : UserID) : M Unit :=
  usersUpdate .other ctx id .bumpPwdVersion

def usersSetEmailVerified (id : UserID) (verified : Bool) (jti : Option Uuid) : M Unit :=
  usersUpdate (.emailVerified id jti) ctx id (.emailVerified verified)

/-- `SetFirstPassword`: only while the account has none; says whether it wrote. -/
def usersSetFirstPassword (id : UserID) (hashed : String) : M Bool :=
  repo .other fun db =>
    if (db.userByID ctx id).any fun u => u.password = "" then
      (.ok true, some (.updateUser ctx id (.firstPassword hashed)))
    else (.ok false, none)

/-- `CredentialChangeTx` with both revocations inside: one transaction. -/
def usersCredentialChangeTx (id : UserID) (hashed : String) (jti : Option Uuid) : M Unit :=
  ownedWrite (.credentialChange id jti) ctx id fun _ => .credentialChange ctx id hashed

/-! ## Sessions -/

/-- `SessionRepository.Create`. -/
def sessionsCreate (s : Session) : M Unit :=
  repo (.sessionCreate s.id) fun db =>
    if !db.owns ctx s.userID then (.error .recordNotFound, none)
    else if s.id ∈ db.sessions.rows.map Session.id then (.error (.duplicatedKey "PRIMARY"), none)
    else (.ok (), some (.insertSession { s with tenantID := ctx.tenant }))

def DB.sessionByID (db : DB) (ctx : Ctx) (id : Uuid) : Option Session :=
  db.sessions.first? fun s => s.id = id && s.tenantID = ctx.tenant

def sessionsFindByID (id : Uuid) : M (Option Session) :=
  query .other fun db => db.sessionByID ctx id

/-- `Touch`: device metadata and activity, never the expiry. -/
def sessionsTouch (id : Uuid) (ip ua deviceName location : String) (at_ : Nat) : M Unit :=
  repo .other fun db =>
    if (db.sessionByID ctx id).isNone then (.error .recordNotFound, none)
    else (.ok (), some (.touchSession ctx id ip ua deviceName location at_))

/-- `SessionRepository.RevokeByID`: not found also when the row was revoked already. -/
def sessionsRevokeByID (id : Uuid) (userID : UserID) : M Unit :=
  repo .other fun db =>
    if db.sessions.rows.any fun s => s.id = id && activeSessionOf ctx userID s then
      (.ok (), some (.revokeSessions fun s => s.id = id && activeSessionOf ctx userID s))
    else (.error .recordNotFound, none)

def sessionsRevokeAllForUser (userID : UserID) : M Unit :=
  ownedWrite .other ctx userID fun _ => .revokeSessions (activeSessionOf ctx userID)

/-! ## Refresh tokens -/

/-- `RefreshTokenRepository.Create`: the hash is unique. -/
def tokensCreate (rt : RefreshToken) (access : Token) : M Unit :=
  repo (.tokenCreate rt.sessionID access) fun db =>
    if !db.owns ctx rt.userID then (.error .recordNotFound, none)
    else if db.refreshTokens.rows.any fun t => t.tokenHash = rt.tokenHash then
      (.error (.duplicatedKey "token_hash"), none)
    else if rt.id ∈ db.refreshTokens.rows.map RefreshToken.id then
      (.error (.duplicatedKey "PRIMARY"), none)
    else (.ok (), some (.insertToken rt))

def DB.tokenByHash (db : DB) (ctx : Ctx) (hash : Digest Uuid) : Option RefreshToken :=
  db.refreshTokens.first? fun t => t.tokenHash = hash && db.owns ctx t.userID

def tokensFindByHash (hash : Digest Uuid) : M (Option RefreshToken) :=
  query .other fun db => db.tokenByHash ctx hash

/-- `RefreshTokenRepository.Revoke`: a compare-and-set on the row `id`. -/
def tokensRevoke (id : Nat) : M Unit :=
  repo (.tokenRevoke id) fun db =>
    if db.refreshTokens.rows.any fun t => t.id = id && db.owns ctx t.userID && !t.revoked then
      (.ok (), some (.casToken id))
    else (.error .tokenAlreadyRevoked, none)

def tokensRevokeAllForUser (userID : UserID) : M Unit :=
  ownedWrite .other ctx userID fun db => .revokeTokens (db.activeTokenOf ctx userID)

def tokensRevokeBySession (sessionID : Uuid) : M Unit :=
  repo .other fun db =>
    (.ok (), some (.revokeTokens fun t =>
      t.sessionID = some sessionID && db.owns ctx t.userID && !t.revoked))

/-! ## Used tokens -/

/-- `MarkUsed`: false when the `jti` is already there. -/
def usedTokensMarkUsed (jti : Uuid) (tokenType : TokenType) (userID : UserID) (exp : Nat) :
    M Bool :=
  repo (.markUsed jti) fun db =>
    if (db.usedTokens.get? jti).isSome then (.ok false, none)
    else (.ok true, some (.insertUsedToken ⟨jti, tokenType, userID, exp⟩))

def usedTokensIsUsed (jti : Uuid) : M Bool :=
  query (.isUsed jti) fun db => (db.usedTokens.get? jti).isSome

/-! ## TOTP -/

def DB.totpByUserID (db : DB) (ctx : Ctx) (userID : UserID) : Option TOTPDevice :=
  db.totpDevices.first? fun d => d.userID = userID && db.owns ctx d.userID

def totpFindByUserID (userID : UserID) : M (Option TOTPDevice) :=
  query .other fun db => db.totpByUserID ctx userID

/-- `TOTPRepository.Upsert`: a new row has `id = 0` in the source and gets the drawn `newID`; an
existing one is rewritten whole, its owner apart. -/
def totpUpsert (d : TOTPDevice) (newID : Nat) : M Unit :=
  repo (.site (.saveDevice d.userID)) fun db =>
    if !db.owns ctx d.userID then (.error .recordNotFound, none)
    else if d.id = 0 then
      if d.userID ∈ db.totpDevices.rows.map TOTPDevice.userID then
        (.error (.duplicatedKey "user_id"), none)
      else (.ok (), some (.insertDevice { d with id := newID }))
    else if db.totpDevices.rows.any fun r => r.id = d.id && r.userID = d.userID then
      (.ok (), some (.updateDevice d))
    else (.error .recordNotFound, none)

/-- `TOTPRepository.Disable`: off, and all three secret columns blank. -/
def totpDisable (userID : UserID) : M Unit :=
  ownedWrite (.site (.disableDevice userID)) ctx userID fun _ => .disableDevice userID

/-- `ReplaceRecoveryCodes`: the old set is deleted and the new one inserted in one transaction. -/
def totpReplaceRecoveryCodes (userID : UserID) (codes : List RecoveryCode) : M Unit :=
  repo (.site (.replaceCodes userID)) fun db =>
    if !db.owns ctx userID || codes.any (fun c => c.userID ≠ userID) then
      (.error .recordNotFound, none)
    else (.ok (), some (.replaceCodes userID codes))

def totpActiveRecoveryCodes (userID : UserID) : M (List RecoveryCode) :=
  query (.site (.activeCodes userID)) fun db => db.recoveryCodes.rows.filter fun c =>
    c.userID = userID && c.usedAt.isNone && db.owns ctx c.userID

/-- `MarkRecoveryCodeUsed`: a compare-and-set on the row. -/
def totpMarkRecoveryCodeUsed (id : Nat) (now : Nat) : M Unit :=
  repo (.site (.markCode id)) fun db =>
    if db.recoveryCodes.rows.any fun c => c.id = id && db.owns ctx c.userID && c.usedAt.isNone then
      (.ok (), some (.useCode id now))
    else (.error .recoveryCodeUsed, none)

/-! ## OAuth identities -/

def oauthCreate (i : OAuthIdentity) : M Unit :=
  repo .other fun db =>
    if !db.owns ctx i.userID then (.error .recordNotFound, none)
    else if db.oauthIdentities.rows.any fun r =>
        r.provider = i.provider && r.providerUserID = i.providerUserID then
      (.error (.duplicatedKey "idx_oauth_prov_uid"), none)
    else (.ok (), some (.insertIdentity i))

def oauthFindByProviderAndProviderUserID (provider providerUserID : String) :
    M (Option OAuthIdentity) :=
  query .other fun db => db.oauthIdentities.first? fun i =>
    i.provider = provider && i.providerUserID = providerUserID && db.owns ctx i.userID

def oauthFindByUserIDAndProvider (userID : UserID) (provider : String) : M (Option OAuthIdentity) :=
  query .other fun db => db.oauthIdentities.first? fun i =>
    i.userID = userID && i.provider = provider && db.owns ctx i.userID

def oauthDeleteByUserIDAndProvider (userID : UserID) (provider : String) : M Unit :=
  repo .other fun db => (.ok (), some (.deleteIdentities fun i =>
    i.userID = userID && i.provider = provider && db.owns ctx i.userID))

def oauthDeleteAllByUserID (userID : UserID) : M Unit :=
  repo .other fun db => (.ok (), some (.deleteIdentities fun i =>
    i.userID = userID && db.owns ctx i.userID))

/-! ## Passkeys -/

def passkeysCreate (pc : PasskeyCredential) : M Unit :=
  repo .other fun db =>
    if !db.owns ctx pc.userID then (.error .recordNotFound, none)
    else if db.passkeys.rows.any fun p => p.credentialID = pc.credentialID || p.id = pc.id then
      (.error (.duplicatedKey "credential_id"), none)
    else (.ok (), some (.insertPasskey pc))

def passkeysFindByCredentialID (credentialID : Nat) : M (Option PasskeyCredential) :=
  query .other fun db => db.passkeys.first? fun p =>
    p.credentialID = credentialID && db.owns ctx p.userID

/-- `ListByUser` without the revoked rows, newest first. -/
def passkeysListByUser (userID : UserID) : M (List PasskeyCredential) :=
  query .other fun db => (db.passkeys.rows.filter fun p =>
    p.userID = userID && !p.revoked && db.owns ctx p.userID).reverse

def passkeysTouchUsage (id signCount usedAt : Nat) : M Unit :=
  repo .other fun db =>
    if db.passkeys.rows.any fun c => c.id = id && db.owns ctx c.userID then
      (.ok (), some (.touchPasskey id signCount usedAt))
    else (.error .recordNotFound, none)

def passkeysRevokeByID (id : Nat) (userID : UserID) : M Unit :=
  repo .other fun db =>
    let p := fun c : PasskeyCredential =>
      c.id = id && c.userID = userID && !c.revoked && db.owns ctx c.userID
    if db.passkeys.rows.any p then (.ok (), some (.revokePasskeys p))
    else (.error .recordNotFound, none)

def passkeysRevokeAllForUser (userID : UserID) : M Unit :=
  ownedWrite .other ctx userID fun _ => .revokePasskeys fun c => c.userID = userID && !c.revoked

/-! ## Permissions and audit rows -/

/-- `GetUserPermissions`: the distinct names over the user's roles of the tenant. -/
def DB.userPermissions (db : DB) (ctx : Ctx) (userID : UserID) : List String :=
  let roles := db.userRoles.filterMap fun (u, r) =>
    if u = userID && db.owns ctx u
        && db.roles.rows.any (fun role => role.id = r && role.tenantID = ctx.tenant)
    then some r else none
  let granted := db.permissions.rows.filter fun p =>
    db.rolePermissions.any fun (r, q) => q = p.id && r ∈ roles
  (granted.map (·.name)).dedup

def rbacGetUserPermissions (userID : UserID) : M (List String) :=
  query .other fun db => db.userPermissions ctx userID

/-- `AuditRepository.AnonymizeUser`, on admitted (version 1) rows. -/
def auditsAnonymizeUser (userID : UserID) : M Unit :=
  repo .other fun _ => (.ok (), some (.anonymizeAudit ctx userID))

end FinnAuth
