import FinnAuth.Database

/-!
# The repositories in full

`internal/repositories`: every method of the user, session, refresh-token, TOTP, OAuth, passkey,
trusted-device and RBAC repositories that takes a request context, with whatever arguments. Unlike
in the service model nothing is assumed of the caller: ids and structs may name rows of another
tenant, and a struct may come without an id.

A method is a transaction over the tables. `scopeTenant`, `requireOwner` and `ownedRows` are those
of `scope.go`: a row is the tenant's by its `tenant_id` column, or through its user. Text columns
are compared by the collation of the database, tenant ids included, so that two tenants are
different when the database tells them apart. Where the source lets the database draw an id, the
drawn id is an argument, and so is the time. `RowsAffected` counts the rows an update changes.
-/

namespace FinnAuth.Tenancy

open Lib

/-! ## Tables -/

/-- `models.TrustedDevice`. -/
structure TrustedDevice where
  id : Nat
  userID : UserID
  deviceHash : String
  deviceName : String
  ipAddress : String
  lastUsedAt : Option Nat
  expiresAt : Nat
  revoked : Bool
  createdAt : Nat
  deriving DecidableEq, Repr

/-- The database with the tables the services do not use. -/
structure Tables extends DB where
  trustedDevices : Table TrustedDevice.id

/-- What the services store as a password: nothing, or a hash. -/
def storedPassword (s : String) : Bool := s = "" || s.toList.head? = some '$'

/-- How the database compares text: `=` is an equivalence, and a stored hash does not equal the
empty text. Other texts may, such as a soft hyphen, which has no weight. -/
structure Dialect where
  collate : String → String → Bool
  like : String → String → Bool
  refl : ∀ s, collate s s = true
  symm : ∀ {s t}, collate s t = true → collate t s = true
  trans : ∀ {s t u}, collate s t = true → collate t u = true → collate s u = true
  empty : ∀ {s}, storedPassword s = true → collate s "" = true → s = ""

/-- Text compared byte for byte. -/
def bytes : Dialect where
  collate s t := s == t
  like _ _ := true
  refl _ := beq_iff_eq.2 rfl
  symm h := beq_iff_eq.2 (beq_iff_eq.1 h).symm
  trans h h' := beq_iff_eq.2 ((beq_iff_eq.1 h).trans (beq_iff_eq.1 h'))
  empty _ h := beq_iff_eq.1 h

/-- A method: one transaction, which leaves the tables as they are when it fails. -/
abbrev Method (α : Type) := Tables → Except Err α × Tables

section Scope

variable {α : Type} (d : Dialect) (ctx : Ctx)

/-- The `tenant_id` is the tenant's. -/
def ofTenant (tenantID : String) : Bool := d.collate tenantID ctx.tenant

/-- The user is of the tenant. -/
def owns (T : Tables) (id : UserID) : Bool :=
  T.users.rows.any fun u => u.id = id && ofTenant d ctx u.tenantID

/-- The role is of the tenant. -/
def ownsRole (T : Tables) (id : Nat) : Bool :=
  T.roles.rows.any fun r => r.id = id && ofTenant d ctx r.tenantID

/-- `scopeTenant`, compared byte for byte. -/
def scopeTenant (requested : String) (m : Method α) : Method α := fun T =>
  if requested ≠ "" && requested ≠ ctx.tenant then (.error .recordNotFound, T) else m T

def requireOwner (id : UserID) (m : Method α) : Method α := fun T =>
  if owns d ctx T id then m T else (.error .recordNotFound, T)

/-- The result, converted. -/
def Method.map {β : Type} (f : α → β) (m : Method α) : Method β := fun T =>
  ((m T).1.map f, (m T).2)

/-- A read. -/
def reads (f : Tables → α) : Method α := fun T => (.ok (f T), T)

/-- One statement after another. -/
def andThen (m : Method Unit) (n : Method α) : Method α := fun T =>
  match m T with
  | (.error e, T') => (.error e, T')
  | (.ok _, T') => n T'

/-- `Transaction`: what the body wrote is rolled back when it fails. -/
def transaction (m : Method α) : Method α := fun T =>
  match m T with
  | (.error e, _) => (.error e, T)
  | (.ok a, T') => (.ok a, T')

end Scope

/-- A table among the tables, its primary key, and which of its rows are the tenant's. -/
structure Slot {α κ : Type} (key : α → κ) where
  get : Tables → Table key
  set : Tables → Table key → Tables
  pk : α → Nat
  owned : Dialect → Ctx → Tables → α → Bool

namespace Slot

variable {α κ : Type} {key : α → κ} (s : Slot key) (d : Dialect) (ctx : Ctx)

/-- The tenant's rows that meet `p`: the scope and the conditions are joined by `AND`. -/
def rows (T : Tables) (p : α → Bool) : List α :=
  (s.get T).rows.filter fun r => s.owned d ctx T r && p r

/-- `Find` with an `Order`. -/
def find (le : α → α → Bool) (p : α → Bool) : Method (List α) :=
  reads fun T => (s.rows d ctx T p).mergeSort le

/-- `First`, which orders by the primary key; no row is no error. -/
def first (p : α → Bool) : Method (Option α) :=
  reads fun T => ((s.rows d ctx T p).mergeSort fun a b => s.pk a ≤ s.pk b).head?

/-- `Create`: refused when a unique index has the values, or the key is taken. -/
def create [DecidableEq κ] (conflict : Tables → Option String) (row : α) : Method Unit := fun T =>
  match conflict T with
  | some index => (.error (.duplicatedKey index), T)
  | none =>
    match (s.get T).insert row with
    | none => (.error (.duplicatedKey "PRIMARY"), T)
    | some t => (.ok (), s.set T t)

/-- `Update` on the tenant's rows that meet `p`. -/
def update (p : α → Bool) (f : α → α) (hf : ∀ a, key (f a) = key a) : Method Unit := fun T =>
  (.ok (), s.set T ((s.get T).update (fun r => s.owned d ctx T r && p r) f hf))

/-- An `Update` that fails with `missing` unless a row meets `found`. -/
def updateFound (missing : Err) (found : α → Bool) (p : α → Bool) (f : α → α)
    (hf : ∀ a, key (f a) = key a) : Method Unit := fun T =>
  if (s.rows d ctx T found).isEmpty then (.error missing, T) else s.update d ctx p f hf T

/-- `updateScoped`: an update without effect is no error, a missing row is one. -/
def updateScoped (p : α → Bool) (f : α → α) (hf : ∀ a, key (f a) = key a) : Method Unit :=
  s.updateFound d ctx .recordNotFound p p f hf

/-- `Delete` of the tenant's rows that meet `p`. -/
def delete (p : α → Bool) : Method Unit := fun T =>
  (.ok (), s.set T ((s.get T).delete fun r => s.owned d ctx T r && p r))

end Slot

def userSlot : Slot User.id where
  get T := T.users
  set T t := { T with users := t }
  pk := User.id
  owned d ctx _ u := ofTenant d ctx u.tenantID

def sessionSlot : Slot Session.id where
  get T := T.sessions
  set T t := { T with sessions := t }
  pk := Session.id
  owned d ctx _ s := ofTenant d ctx s.tenantID

/-- `ownedRows` of `refresh_tokens`; the tables below are scoped the same way. -/
def tokenSlot : Slot RefreshToken.id where
  get T := T.refreshTokens
  set T t := { T with refreshTokens := t }
  pk := RefreshToken.id
  owned d ctx T r := owns d ctx T r.userID

def deviceSlot : Slot TOTPDevice.userID where
  get T := T.totpDevices
  set T t := { T with totpDevices := t }
  pk := TOTPDevice.id
  owned d ctx T r := owns d ctx T r.userID

def codeSlot : Slot RecoveryCode.id where
  get T := T.recoveryCodes
  set T t := { T with recoveryCodes := t }
  pk := RecoveryCode.id
  owned d ctx T r := owns d ctx T r.userID

/-- The links have no id of their own here: they stand in the order of their ids. -/
def identitySlot : Slot fun i : OAuthIdentity => (i.provider, i.providerUserID) where
  get T := T.oauthIdentities
  set T t := { T with oauthIdentities := t }
  pk _ := 0
  owned d ctx T r := owns d ctx T r.userID

def passkeySlot : Slot PasskeyCredential.id where
  get T := T.passkeys
  set T t := { T with passkeys := t }
  pk := PasskeyCredential.id
  owned d ctx T r := owns d ctx T r.userID

def trustedSlot : Slot TrustedDevice.id where
  get T := T.trustedDevices
  set T t := { T with trustedDevices := t }
  pk := TrustedDevice.id
  owned d ctx T r := owns d ctx T r.userID

def roleSlot : Slot Role.id where
  get T := T.roles
  set T t := { T with roles := t }
  pk := Role.id
  owned d ctx _ r := ofTenant d ctx r.tenantID

/-- The id of a new row: the struct's, or the drawn one. -/
def assignID (id newID : Nat) : Nat := if id = 0 then newID else id

variable (d : Dialect) (ctx : Ctx)

/-! ## Users -/

namespace UserRepository

/-- Another user of the tenant has the value in the column. -/
def taken (T : Tables) (id : UserID) (column : User → String) (value : String) : Bool :=
  !(userSlot.rows d ctx T fun u => u.id ≠ id && d.collate (column u) value).isEmpty

/-- The unique index that refuses the email or the username for the row `id`. -/
def conflict (id : UserID) (email username : Option String) (T : Tables) : Option String :=
  if email.any (taken d ctx T id User.email) then some "idx_users_tenant_email"
  else if username.any (taken d ctx T id User.username) then some "idx_users_tenant_username"
  else none

def create (user : User) (newID : Nat) : Method Unit :=
  scopeTenant ctx user.tenantID
    (userSlot.create
      (conflict d ctx (assignID user.id newID) (some user.email) (some user.username))
      { user with id := assignID user.id newID, tenantID := ctx.tenant })

def findByID (id : UserID) : Method (Option User) :=
  userSlot.first d ctx fun u => u.id = id

def findByEmail (email : String) : Method (Option User) :=
  userSlot.first d ctx fun u => d.collate u.email email

def findByUsername (username : String) : Method (Option User) :=
  userSlot.first d ctx fun u => d.collate u.username username

/-- `updateScoped` on the row `id` of the tenant, refused by a unique index. -/
def updateRow (id : UserID) (email username : Option String) (f : User → User)
    (hf : ∀ u, (f u).id = u.id) : Method Unit := fun T =>
  if (userSlot.rows d ctx T fun u => u.id = id).isEmpty then (.error .recordNotFound, T)
  else match conflict d ctx id email username T with
    | some index => (.error (.duplicatedKey index), T)
    | none => userSlot.update d ctx (fun u => u.id = id) f hf T

def update (user : User) : Method Unit :=
  scopeTenant ctx user.tenantID
    (updateRow d ctx user.id none (some user.username)
      (fun u => { u with username := user.username, fullName := user.fullName }) fun _ => rfl)

def updateEmail (user : User) : Method Unit :=
  scopeTenant ctx user.tenantID
    (updateRow d ctx user.id (some user.email) none
      (UserWrite.email user.email user.isEmailVerified).apply (UserWrite.apply_id _))

def deactivate (id : UserID) : Method Unit :=
  updateRow d ctx id none none UserWrite.deactivate.apply (UserWrite.apply_id _)

def erase (user : User) : Method Unit :=
  scopeTenant ctx user.tenantID
    (updateRow d ctx user.id (some user.email) (some user.username)
      (UserWrite.erase user.email user.username).apply (UserWrite.apply_id _))

def updatePassword (user : User) (hashedPassword : String) : Method Unit :=
  updateRow d ctx user.id none none (fun u => { u with password := hashedPassword }) fun _ => rfl

def incrementFailedAttempts (user : User) (lockUntil : Option Nat) : Method Unit :=
  updateRow d ctx user.id none none (UserWrite.failedAttempt lockUntil).apply
    (UserWrite.apply_id _)

def resetFailedAttempts (user : User) : Method Unit :=
  updateRow d ctx user.id none none UserWrite.resetFailed.apply (UserWrite.apply_id _)

def bumpPwdVersion (id : UserID) : Method Unit :=
  updateRow d ctx id none none UserWrite.bumpPwdVersion.apply (UserWrite.apply_id _)

def credentialChangeTx (id : UserID) (hashedPassword : String) (revokeRefresh : Method Unit) :
    Method Unit :=
  transaction (andThen
    (updateRow d ctx id none none (UserWrite.credential hashedPassword).apply
      (UserWrite.apply_id _))
    revokeRefresh)

/-- `SetFirstPassword`: whether a row without a password was found. -/
def setFirstPassword (id : UserID) (hashedPassword : String) : Method Bool := fun T =>
  (.ok !(userSlot.rows d ctx T fun u => u.id = id && d.collate u.password "").isEmpty,
    (userSlot.update d ctx (fun u => u.id = id && d.collate u.password "")
      (UserWrite.firstPassword hashedPassword).apply (UserWrite.apply_id _) T).2)

def setEmailVerified (user : User) (verified : Bool) : Method Unit :=
  updateRow d ctx user.id none none (UserWrite.emailVerified verified).apply
    (UserWrite.apply_id _)

/-- `ListPaginated`: a page of the tenant's users and how many there are. -/
def listPaginated (tenantID : String) (page limit : Int) (search : String) :
    Method (List User × Nat) :=
  let page := if page < 1 then 1 else page
  let limit := if limit < 1 ∨ limit > 100 then 20 else limit
  let offset := (page - 1) * limit
  let term := "%" ++ search ++ "%"
  let matched (u : User) : Bool :=
    search = "" || (d.like term u.username || d.like term u.email || d.like term u.fullName)
  scopeTenant ctx tenantID
    (reads fun T =>
      let q := userSlot.rows d ctx T fun u => d.collate u.tenantID ctx.tenant && matched u
      (((q.mergeSort fun a b => b.id ≤ a.id).drop offset.toNat).take limit.toNat, q.length))

def setLock (id : UserID) (lockedUntil : Option Nat) : Method Unit :=
  updateRow d ctx id none none (UserWrite.lock lockedUntil).apply (UserWrite.apply_id _)

end UserRepository

/-! ## Sessions -/

namespace SessionRepository

def create (s : Session) : Method Unit :=
  scopeTenant ctx s.tenantID
    (requireOwner d ctx s.userID
      (sessionSlot.create (fun _ => none) { s with tenantID := ctx.tenant }))

def findByID (id : Uuid) : Method (Option Session) :=
  sessionSlot.first d ctx fun s => s.id = id

def findActiveByUser (userID : UserID) (now : Nat) : Method (List Session) :=
  sessionSlot.find d ctx (fun a b => b.lastActiveAt ≤ a.lastActiveAt)
    fun s => s.userID = userID && !s.revoked && now < s.expiresAt

def findAllActiveByTenant (tenantID : String) (now : Nat) : Method (List Session) :=
  scopeTenant ctx tenantID
    (sessionSlot.find d ctx (fun a b => b.lastActiveAt ≤ a.lastActiveAt)
      fun s => ofTenant d ctx s.tenantID && !s.revoked && now < s.expiresAt)

theorem touch_id (ip ua deviceName location : String) (at_ : Nat) (s : Session) :
    { s with ipAddress := ip, userAgent := ua, deviceName := deviceName,
             locationEstimate := location, lastActiveAt := at_ }.id = s.id := rfl

def touch (id : Uuid) (ip ua deviceName location : String) (at_ : Nat) : Method Unit :=
  sessionSlot.updateScoped d ctx (fun s => s.id = id)
    (fun s => { s with ipAddress := ip, userAgent := ua, deviceName := deviceName,
                       locationEstimate := location, lastActiveAt := at_ })
    (touch_id ip ua deviceName location at_)

def revoke (s : Session) : Session := { s with revoked := true }

theorem revoke_id (s : Session) : (revoke s).id = s.id := rfl

def revokeByID (id : Uuid) (userID : UserID) : Method Unit :=
  sessionSlot.updateFound d ctx .recordNotFound
    (fun s => s.id = id && s.userID = userID && !s.revoked)
    (fun s => s.id = id && s.userID = userID) revoke fun _ => rfl

/-- `RevokeAllForUserTx`, under the context of the transaction. -/
def revokeAllForUserTx (userID : UserID) : Method Unit :=
  sessionSlot.update d ctx (fun s => s.userID = userID && !s.revoked) revoke fun _ => rfl

def revokeAllForUser (userID : UserID) : Method Unit :=
  requireOwner d ctx userID (revokeAllForUserTx d ctx userID)

end SessionRepository

/-! ## Refresh tokens -/

namespace RefreshTokenRepository

def create (rt : RefreshToken) (newID : Nat) : Method Unit :=
  requireOwner d ctx rt.userID
    (tokenSlot.create
      (fun T =>
        if T.refreshTokens.rows.any (·.tokenHash = rt.tokenHash) then
          some "idx_refresh_tokens_token_hash" else none)
      { rt with id := assignID rt.id newID })

def findByHash (hash : Digest Uuid) : Method (Option RefreshToken) :=
  tokenSlot.first d ctx fun r => r.tokenHash = hash

def findActiveByUser (userID : UserID) (now : Nat) : Method (List RefreshToken) :=
  tokenSlot.find d ctx
    (fun a b => b.lastActiveAt < a.lastActiveAt || b.lastActiveAt = a.lastActiveAt && b.id ≤ a.id)
    fun r => r.userID = userID && !r.revoked && now < r.expiresAt

def revoked (r : RefreshToken) : RefreshToken := { r with revoked := true }

def revokeByID (id : Nat) (userID : UserID) : Method Unit :=
  tokenSlot.updateFound d ctx .recordNotFound
    (fun r => r.id = id && r.userID = userID && !r.revoked)
    (fun r => r.id = id && r.userID = userID) revoked fun _ => rfl

/-- `Revoke`; the id of the struct is a condition only if it has one. -/
def revoke (rt : RefreshToken) : Method Unit :=
  tokenSlot.updateFound d ctx .tokenAlreadyRevoked
    (fun r => (rt.id = 0 || r.id = rt.id) && !r.revoked)
    (fun r => (rt.id = 0 || r.id = rt.id) && !r.revoked) revoked fun _ => rfl

/-- `RevokeAllForUserTx`, under the context of the transaction. -/
def revokeAllForUserTx (userID : UserID) : Method Unit :=
  tokenSlot.update d ctx (fun r => r.userID = userID && !r.revoked) revoked fun _ => rfl

def revokeAllForUser (userID : UserID) : Method Unit :=
  requireOwner d ctx userID (revokeAllForUserTx d ctx userID)

def revokeBySession (sessionID : Option Uuid) : Method Unit :=
  tokenSlot.update d ctx (fun r => r.sessionID = sessionID && !r.revoked) revoked fun _ => rfl

end RefreshTokenRepository

/-- What the services hand to `CredentialChangeTx`: tokens first, then sessions. -/
def revokeRefresh (userID : UserID) : Method Unit :=
  andThen (RefreshTokenRepository.revokeAllForUserTx d ctx userID)
    (SessionRepository.revokeAllForUserTx d ctx userID)

/-! ## TOTP devices and recovery codes -/

namespace TOTPRepository

theorem upsert_userID (dev r : TOTPDevice) :
    { r with secret := dev.secret, secretEncrypted := dev.secretEncrypted,
             pendingSecretEncrypted := dev.pendingSecretEncrypted,
             enabled := dev.enabled }.userID = r.userID := rfl

def upsert (dev : TOTPDevice) (newID : Nat) : Method Unit :=
  requireOwner d ctx dev.userID
    (if dev.id = 0 then
      deviceSlot.create
        (fun T => if T.totpDevices.rows.any (·.id = newID) then some "PRIMARY" else none)
        { dev with id := newID }
    else
      deviceSlot.updateScoped d ctx (fun r => r.id = dev.id && r.userID = dev.userID)
        (fun r => { r with secret := dev.secret, secretEncrypted := dev.secretEncrypted,
                           pendingSecretEncrypted := dev.pendingSecretEncrypted,
                           enabled := dev.enabled }) (upsert_userID dev))

def findByUserID (userID : UserID) : Method (Option TOTPDevice) :=
  deviceSlot.first d ctx fun r => r.userID = userID

theorem disable_userID (r : TOTPDevice) :
    { r with enabled := false, secret := "", secretEncrypted := "",
             pendingSecretEncrypted := "" }.userID = r.userID := rfl

def disable (userID : UserID) : Method Unit :=
  requireOwner d ctx userID
    (deviceSlot.update d ctx (fun r => r.userID = userID)
      (fun r => { r with enabled := false, secret := "", secretEncrypted := "",
                         pendingSecretEncrypted := "" }) disable_userID)

/-- `tx.Create(codes)`: one row after another. -/
def insertCodes : List RecoveryCode → Method Unit
  | [] => reads fun _ => ()
  | c :: codes => andThen (codeSlot.create (fun _ => none) c) (insertCodes codes)

/-- `ReplaceRecoveryCodes`; a code without an id comes with the id it is given. -/
def replaceRecoveryCodes (userID : UserID) (codes : List RecoveryCode) : Method Unit :=
  requireOwner d ctx userID
    (if codes.any fun c => c.userID ≠ userID then fun T => (.error .recordNotFound, T)
    else transaction (andThen (codeSlot.delete d ctx fun r => r.userID = userID)
      (insertCodes codes)))

def activeRecoveryCodes (userID : UserID) : Method (List RecoveryCode) :=
  codeSlot.find d ctx (fun a b => a.id ≤ b.id) fun c => c.userID = userID && c.usedAt.isNone

theorem markRecoveryCodeUsed_id (now : Nat) (r : RecoveryCode) :
    { r with usedAt := some now }.id = r.id := rfl

/-- `MarkRecoveryCodeUsed`; the id of the struct is a condition only if it has one. -/
def markRecoveryCodeUsed (c : RecoveryCode) (now : Nat) : Method Unit :=
  codeSlot.updateFound d ctx .recoveryCodeUsed
    (fun r => (c.id = 0 || r.id = c.id) && r.usedAt.isNone)
    (fun r => (c.id = 0 || r.id = c.id) && r.usedAt.isNone)
    (fun r => { r with usedAt := some now }) (markRecoveryCodeUsed_id now)

end TOTPRepository

/-! ## OAuth identities -/

namespace OAuthIdentityRepository

def create (identity : OAuthIdentity) : Method Unit :=
  requireOwner d ctx identity.userID
    (identitySlot.create
      (fun T =>
        if T.oauthIdentities.rows.any fun i =>
            d.collate i.provider identity.provider
              && d.collate i.providerUserID identity.providerUserID then
          some "idx_oauth_prov_uid" else none)
      identity)

def findByProviderAndProviderUserID (provider providerUserID : String) :
    Method (Option OAuthIdentity) :=
  identitySlot.first d ctx fun i =>
    d.collate i.provider provider && d.collate i.providerUserID providerUserID

def findByUserIDAndProvider (userID : UserID) (provider : String) :
    Method (Option OAuthIdentity) :=
  identitySlot.first d ctx fun i => i.userID = userID && d.collate i.provider provider

def deleteByUserIDAndProvider (userID : UserID) (provider : String) : Method Unit :=
  identitySlot.delete d ctx fun i => i.userID = userID && d.collate i.provider provider

def deleteAllByUserID (userID : UserID) : Method Unit :=
  identitySlot.delete d ctx fun i => i.userID = userID

end OAuthIdentityRepository

/-! ## Passkeys -/

namespace PasskeyRepository

def create (pc : PasskeyCredential) (newID : Nat) : Method Unit :=
  requireOwner d ctx pc.userID
    (passkeySlot.create
      (fun T =>
        if T.passkeys.rows.any (·.credentialID = pc.credentialID) then
          some "idx_passkey_credentials_credential_id" else none)
      { pc with id := assignID pc.id newID })

def findByCredentialID (credentialID : Nat) : Method (Option PasskeyCredential) :=
  passkeySlot.first d ctx fun c => c.credentialID = credentialID

def listByUser (userID : UserID) (includeRevoked : Bool) : Method (List PasskeyCredential) :=
  passkeySlot.find d ctx (fun a b => b.id ≤ a.id)
    fun c => c.userID = userID && (includeRevoked || !c.revoked)

theorem touchUsage_id (signCount usedAt : Nat) (c : PasskeyCredential) :
    { c with signCount := signCount, lastUsedAt := some usedAt }.id = c.id := rfl

def touchUsage (id signCount usedAt : Nat) : Method Unit :=
  passkeySlot.updateScoped d ctx (fun c => c.id = id)
    (fun c => { c with signCount := signCount, lastUsedAt := some usedAt })
    (touchUsage_id signCount usedAt)

theorem revoke_id (c : PasskeyCredential) : { c with revoked := true }.id = c.id := rfl

def revokeByID (id : Nat) (userID : UserID) : Method Unit :=
  passkeySlot.updateFound d ctx .recordNotFound
    (fun c => c.id = id && c.userID = userID && !c.revoked)
    (fun c => c.id = id && c.userID = userID && !c.revoked)
    (fun c => { c with revoked := true }) revoke_id

def revokeAllForUser (userID : UserID) : Method Unit :=
  requireOwner d ctx userID
    (passkeySlot.update d ctx (fun c => c.userID = userID && !c.revoked)
      (fun c => { c with revoked := true }) revoke_id)

end PasskeyRepository

/-! ## Trusted devices -/

namespace TrustedDeviceRepository

def create (dev : TrustedDevice) (newID : Nat) : Method Unit :=
  requireOwner d ctx dev.userID
    (trustedSlot.create
      (fun T =>
        if T.trustedDevices.rows.any fun r => d.collate r.deviceHash dev.deviceHash then
          some "idx_trusted_devices_device_hash" else none)
      { dev with id := assignID dev.id newID })

def findByDeviceHash (hash : String) (now : Nat) : Method (Option TrustedDevice) :=
  trustedSlot.first d ctx fun r => d.collate r.deviceHash hash && !r.revoked && now < r.expiresAt

def touchUsage (id at_ : Nat) : Method Unit :=
  trustedSlot.updateScoped d ctx (fun r => r.id = id)
    (fun r => { r with lastUsedAt := some at_ }) fun _ => rfl

def listByUser (userID : UserID) (now : Nat) : Method (List TrustedDevice) :=
  trustedSlot.find d ctx (fun a b => b.createdAt ≤ a.createdAt)
    fun r => r.userID = userID && !r.revoked && now < r.expiresAt

def revoke (id : Nat) (userID : UserID) : Method Unit :=
  trustedSlot.updateFound d ctx .recordNotFound
    (fun r => r.id = id && r.userID = userID && !r.revoked)
    (fun r => r.id = id && r.userID = userID) (fun r => { r with revoked := true }) fun _ => rfl

end TrustedDeviceRepository

/-! ## Roles and permissions -/

namespace RBACRepository

def listPermissions : Method (List Permission) :=
  reads fun T => T.permissions.rows.mergeSort fun a b => a.name ≤ b.name

/-- The permissions of a new role are saved with it: a row whose name or id is taken stays as it
is. -/
def savePermissions (t : Table Permission.id) (attached : List Permission) :
    Table Permission.id :=
  attached.foldl
    (fun t p => if t.rows.any (fun q => d.collate q.name p.name) then t
      else (t.insert p).getD t) t

/-- The links of the role to the permissions saved with it, those already there left out. -/
def saveLinks (links : List (Nat × Nat)) (roleID : Nat) (attached : List Permission) :
    List (Nat × Nat) :=
  attached.foldl (fun ls p => if (roleID, p.id) ∈ ls then ls else ls ++ [(roleID, p.id)]) links

/-- The rest of the transaction of `CreateRole`: the permissions in the struct, then those with
the names. -/
def grantPermissions (roleID : Nat) (attached : List Permission) (permNames : List String) :
    Method Unit := fun T =>
  let permissions := savePermissions d T.permissions attached
  let links := saveLinks T.rolePermissions roleID attached
  let perms := permissions.rows.filter fun p => permNames.any fun n => d.collate p.name n
  if perms.any fun p => (roleID, p.id) ∈ links then (.error (.duplicatedKey "PRIMARY"), T)
  else (.ok (), { T with permissions := permissions,
                         rolePermissions := links ++ perms.map fun p => (roleID, p.id) })

/-- Another role of the tenant has the name. -/
def roleTaken (name : String) (T : Tables) : Option String :=
  if (roleSlot.rows d ctx T fun r => d.collate r.name name).isEmpty then none
  else some "idx_roles_tenant_name"

/-- `CreateRole`. The permissions in the struct come with the ids they have after they are
saved. -/
def createRole (role : Role) (attached : List Permission) (permNames : List String)
    (newID : Nat) : Method Unit :=
  scopeTenant ctx role.tenantID
    (transaction (andThen
      (roleSlot.create (roleTaken d ctx role.name)
        { role with id := assignID role.id newID, tenantID := ctx.tenant })
      (grantPermissions d (assignID role.id newID) attached permNames)))

def assignRoleToUser (userID roleID : Nat) : Method Unit :=
  requireOwner d ctx userID fun T =>
    if (roleSlot.rows d ctx T fun r => r.id = roleID).isEmpty then (.error .recordNotFound, T)
    else if (userID, roleID) ∈ T.userRoles then (.error (.duplicatedKey "PRIMARY"), T)
    else (.ok (), (userSlot.update d ctx (fun u => u.id = userID) UserWrite.bumpAuthEpoch.apply
      (UserWrite.apply_id _) { T with userRoles := T.userRoles ++ [(userID, roleID)] }).2)

/-- The permissions joined through the roles of the user, where user and role are of the
tenant. -/
def granted (T : Tables) (userID : UserID) : List Permission :=
  T.permissions.rows.flatMap fun p =>
    (T.rolePermissions.filter fun rp => rp.2 = p.id).flatMap fun rp =>
      (T.userRoles.filter fun ur => ur.2 = rp.1 && ur.1 = userID &&
        (owns d ctx T ur.1 && ownsRole d ctx T ur.2)).map fun _ => p

def getUserPermissions (userID : UserID) : Method (List String) :=
  reads fun T => ((granted d ctx T userID).map Permission.name).dedup

def userHasPermission (userID : UserID) (permission : String) : Method Bool :=
  reads fun T => 0 < ((granted d ctx T userID).filter fun p =>
    d.collate p.name permission).length

end RBACRepository

end FinnAuth.Tenancy
