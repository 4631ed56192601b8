import FinnAuth.Models

/-!
# The database and its statements

The tables of `migrations/`, and every write the repositories make as one value of `Stmt`, which
`DB.exec` carries out. A repository method reads the database, decides, and hands over at most one
statement; what an operation can do to the data is therefore the set of statements it can hand
over, and a fact about a table is proved once per statement.
-/

namespace FinnAuth

open Lib

/-- The request context: the tenant bound to it. -/
structure Ctx where
  tenant : String
  deriving DecidableEq, Repr

/-- `tenant.DefaultTenantID`. -/
def defaultTenantID : String := "default"

/-- `tenant.WithTenant`. -/
def Ctx.withTenant (_ : Ctx) (tenantID : String) : Ctx :=
  ⟨if tenantID = "" then defaultTenantID else tenantID⟩

/-- The SQL database. -/
structure DB where
  users : Table User.id
  sessions : Table Session.id
  refreshTokens : Table RefreshToken.id
  usedTokens : Table UsedToken.jti
  totpDevices : Table TOTPDevice.userID
  recoveryCodes : Table RecoveryCode.id
  oauthIdentities : Table fun i : OAuthIdentity => (i.provider, i.providerUserID)
  passkeys : Table PasskeyCredential.id
  accessRevocations : Table fun r : AccessRevocation => (r.tenantID, r.jti)
  tenants : Table Tenant.id
  permissions : Table Permission.id
  roles : Table Role.id
  rolePermissions : List (Nat × Nat)
  userRoles : List (UserID × Nat)
  auditLogs : List AuditLog

/-- A database without rows. -/
def DB.empty : DB :=
  { users := .empty, sessions := .empty, refreshTokens := .empty, usedTokens := .empty,
    totpDevices := .empty, recoveryCodes := .empty, oauthIdentities := .empty, passkeys := .empty,
    accessRevocations := .empty, tenants := .empty, permissions := .empty, roles := .empty,
    rolePermissions := [], userRoles := [], auditLogs := [] }

/-! ## Scope -/

/-- The user row `id`, if it is of the tenant. -/
def DB.userByID (db : DB) (ctx : Ctx) (id : UserID) : Option User :=
  db.users.first? fun u => u.id = id && u.tenantID = ctx.tenant

/-- `ownedRows`: the row's user is of the tenant. `requireOwner` is the same test. -/
def DB.owns (db : DB) (ctx : Ctx) (id : UserID) : Bool := (db.userByID ctx id).isSome

theorem DB.userByID_spec {db : DB} {ctx : Ctx} {id : UserID} {u : User}
    (h : db.userByID ctx id = some u) :
    u ∈ db.users.rows ∧ u.id = id ∧ u.tenantID = ctx.tenant := by
  obtain ⟨hmem, hp⟩ := Table.mem_of_first? h
  simp only [Bool.and_eq_true, decide_eq_true_eq] at hp
  exact ⟨hmem, hp⟩

theorem DB.owns_iff {db : DB} {ctx : Ctx} {id : UserID} :
    db.owns ctx id = true ↔ ∃ u ∈ db.users.rows, u.id = id ∧ u.tenantID = ctx.tenant := by
  constructor
  · intro h
    obtain ⟨u, hu⟩ := Option.isSome_iff_exists.1 h
    exact ⟨u, DB.userByID_spec hu⟩
  · rintro ⟨u, hu, hid, ht⟩
    by_contra h
    have hnone : db.userByID ctx id = none := by simpa [DB.owns] using h
    simpa [hid, ht] using Table.first?_eq_none_iff.1 hnone u hu

/-! ## Statements -/

/-- The ways a `users` row is updated. -/
inductive UserWrite : Type where
  | email (email : String) (verified : Bool)
  | deactivate
  | erase (email username : String)
  | failedAttempt (lockUntil : Option Nat)
  | resetFailed
  | bumpPwdVersion
  | firstPassword (hashed : String)
  | emailVerified (verified : Bool)
  | credential (hashed : String)
  | lock (lockedUntil : Option Nat)
  | suspend
  | bumpAuthEpoch

/-- The columns an update sets. -/
def UserWrite.apply : UserWrite → User → User
  | email e v, u => { u with email := e, isEmailVerified := v }
  | deactivate, u => { u with isActive := false }
  | erase e n, u => { u with email := e, username := n, password := "", fullName := "",
                             isActive := false, isEmailVerified := false }
  | failedAttempt lockUntil, u => { u with failedLoginAttempts := u.failedLoginAttempts + 1,
                                           lockedUntil := lockUntil.orElse fun _ => u.lockedUntil }
  | resetFailed, u => { u with failedLoginAttempts := 0, lockedUntil := none }
  | bumpPwdVersion, u => { u with pwdVersion := u.pwdVersion + 1 }
  | firstPassword h, u => { u with password := h }
  | emailVerified v, u => { u with isEmailVerified := v }
  | credential h, u => { u with password := h, failedLoginAttempts := 0, lockedUntil := none,
                                pwdVersion := u.pwdVersion + 1 }
  | lock t, u => { u with lockedUntil := t,
                          failedLoginAttempts := if t.isNone then 0 else u.failedLoginAttempts }
  | suspend, u => { u with adminSuspended := true, authEpoch := u.authEpoch + 1,
                           pwdVersion := u.pwdVersion + 1 }
  | bumpAuthEpoch, u => { u with authEpoch := u.authEpoch + 1 }

@[simp] theorem UserWrite.apply_id (w : UserWrite) (u : User) : (w.apply u).id = u.id := by
  cases w <;> rfl

@[simp] theorem UserWrite.apply_tenantID (w : UserWrite) (u : User) :
    (w.apply u).tenantID = u.tenantID := by
  cases w <;> rfl

/-- One write transaction. -/
inductive Stmt : Type where
  | insertUser (u : User)
  | updateUser (ctx : Ctx) (id : UserID) (w : UserWrite)
  /-- password, lockout and version of the user, with all tokens and sessions revoked -/
  | credentialChange (ctx : Ctx) (id : UserID) (hashed : String)
  | insertSession (s : Session)
  | touchSession (ctx : Ctx) (id : Uuid) (ip ua deviceName location : String) (at_ : Nat)
  | revokeSessions (p : Session → Bool)
  | insertToken (t : RefreshToken)
  /-- the compare-and-set on the row `id` -/
  | casToken (id : Nat)
  | revokeTokens (p : RefreshToken → Bool)
  | insertUsedToken (t : UsedToken)
  | insertDevice (d : TOTPDevice)
  | updateDevice (d : TOTPDevice)
  | disableDevice (userID : UserID)
  | replaceCodes (userID : UserID) (codes : List RecoveryCode)
  | useCode (id now : Nat)
  | insertIdentity (i : OAuthIdentity)
  | deleteIdentities (p : OAuthIdentity → Bool)
  | insertPasskey (c : PasskeyCredential)
  | touchPasskey (id signCount usedAt : Nat)
  | revokePasskeys (p : PasskeyCredential → Bool)
  | insertAccessRevocation (r : AccessRevocation)
  | insertAudit (e : AuditLog)
  | anonymizeAudit (ctx : Ctx) (userID : UserID)
  /-- suspension, both versions of the user, and all sessions revoked -/
  | suspend (ctx : Ctx) (id : UserID)
  /-- the grant and the epoch of the user -/
  | assignRole (ctx : Ctx) (id : UserID) (roleID : Nat)

/-- Inserts rows one after another; a taken key leaves its row out. -/
def insertAll {α κ : Type} [DecidableEq κ] {key : α → κ} : Table key → List α → Table key
  | t, [] => t
  | t, a :: as => insertAll ((t.insert a).getD t) as

section InsertAll

variable {α κ : Type} [DecidableEq κ] {key : α → κ} {t : Table key} {as : List α} {b : α}

theorem mem_insertAll (h : b ∈ (insertAll t as).rows) : b ∈ t.rows ∨ b ∈ as := by
  induction as generalizing t with
  | nil => exact .inl h
  | cons a as ih =>
    rcases ih h with hb | hb
    · refine (Table.mem_insert_getD hb).imp_right fun hb => ?_
      rw [hb]
      exact List.mem_cons_self
    · exact .inr (List.mem_cons_of_mem a hb)

theorem mem_insertAll_of_mem (h : b ∈ t.rows) : b ∈ (insertAll t as).rows := by
  induction as generalizing t with
  | nil => exact h
  | cons a as ih => exact ih (Table.mem_insert_getD_of_mem h)

/-- Rows with keys of their own all go in. -/
theorem mem_insertAll_of_fresh (hfresh : ∀ a ∈ as, key a ∉ t.rows.map key)
    (hnodup : (as.map key).Nodup) (h : b ∈ as) : b ∈ (insertAll t as).rows := by
  induction as generalizing t with
  | nil => cases h
  | cons a as ih =>
    obtain ⟨hnot, hnodup⟩ := List.nodup_cons.1 hnodup
    obtain ⟨t', hins, hrows⟩ := Table.insert_of_fresh (hfresh a List.mem_cons_self)
    unfold insertAll
    rw [hins, Option.getD_some]
    rcases List.mem_cons.1 h with rfl | h
    · exact mem_insertAll_of_mem ((Table.mem_insert hins).2 (.inr rfl))
    · refine ih (fun c hc hkey => ?_) hnodup h
      simp only [hrows, List.map_append, List.mem_append, List.map_cons, List.map_nil,
        List.mem_singleton] at hkey
      rcases hkey with hkey | hkey
      · exact hfresh c (List.mem_cons_of_mem a hc) hkey
      · exact hnot (hkey ▸ List.mem_map_of_mem hc)

end InsertAll

/-- Sets the sessions that meet `p` revoked. -/
def DB.revokeSessions (db : DB) (p : Session → Bool) : DB :=
  { db with sessions := db.sessions.update p (fun s => { s with revoked := true }) fun _ => rfl }

/-- Sets the refresh tokens that meet `p` revoked. -/
def DB.revokeTokens (db : DB) (p : RefreshToken → Bool) : DB :=
  { db with
    refreshTokens := db.refreshTokens.update p (fun t => { t with revoked := true }) fun _ => rfl }

/-- `updateScoped` on the user row `id`. -/
def DB.updateUser (db : DB) (ctx : Ctx) (id : UserID) (w : UserWrite) : DB :=
  { db with
    users := db.users.update (fun u => u.id = id && u.tenantID = ctx.tenant) w.apply w.apply_id }

/-- The active tokens of the user, for a tenant that owns it. -/
def DB.activeTokenOf (db : DB) (ctx : Ctx) (id : UserID) (t : RefreshToken) : Bool :=
  t.userID = id && db.owns ctx t.userID && !t.revoked

/-- The active sessions of the user in the tenant. -/
def activeSessionOf (ctx : Ctx) (id : UserID) (s : Session) : Bool :=
  s.userID = id && s.tenantID = ctx.tenant && !s.revoked

/-- Carries out a statement. An `INSERT` on a taken key changes nothing. -/
def DB.exec (db : DB) : Stmt → DB
  | .insertUser u => { db with users := (db.users.insert u).getD db.users }
  | .updateUser ctx id w => db.updateUser ctx id w
  | .credentialChange ctx id hashed =>
    ((db.updateUser ctx id (.credential hashed)).revokeTokens
      (db.activeTokenOf ctx id)).revokeSessions (activeSessionOf ctx id)
  | .insertSession s => { db with sessions := (db.sessions.insert s).getD db.sessions }
  | .touchSession ctx id ip ua deviceName location at_ =>
    { db with
      sessions := db.sessions.update (fun s => s.id = id && s.tenantID = ctx.tenant)
        (fun s => { s with ipAddress := ip, userAgent := ua, deviceName := deviceName,
                           locationEstimate := location, lastActiveAt := at_ }) fun _ => rfl }
  | .revokeSessions p => db.revokeSessions p
  | .insertToken t =>
    { db with refreshTokens := (db.refreshTokens.insert t).getD db.refreshTokens }
  | .casToken id => db.revokeTokens fun t => t.id = id
  | .revokeTokens p => db.revokeTokens p
  | .insertUsedToken t => { db with usedTokens := (db.usedTokens.insert t).getD db.usedTokens }
  | .insertDevice d => { db with totpDevices := (db.totpDevices.insert d).getD db.totpDevices }
  | .updateDevice d =>
    { db with
      totpDevices := db.totpDevices.update (fun r => r.id = d.id && r.userID = d.userID)
        (fun r => { r with secret := d.secret, secretEncrypted := d.secretEncrypted,
                           pendingSecretEncrypted := d.pendingSecretEncrypted,
                           enabled := d.enabled }) fun _ => rfl }
  | .disableDevice userID =>
    { db with
      totpDevices := db.totpDevices.update (fun d => d.userID = userID)
        (fun d => { d with enabled := false, secret := "", secretEncrypted := "",
                           pendingSecretEncrypted := "" }) fun _ => rfl }
  | .replaceCodes userID codes =>
    { db with
      recoveryCodes := insertAll (db.recoveryCodes.delete fun c => c.userID = userID) codes }
  | .useCode id now =>
    { db with
      recoveryCodes := db.recoveryCodes.update (fun c => c.id = id)
        (fun c => { c with usedAt := some now }) fun _ => rfl }
  | .insertIdentity i =>
    { db with oauthIdentities := (db.oauthIdentities.insert i).getD db.oauthIdentities }
  | .deleteIdentities p => { db with oauthIdentities := db.oauthIdentities.delete p }
  | .insertPasskey c => { db with passkeys := (db.passkeys.insert c).getD db.passkeys }
  | .touchPasskey id signCount usedAt =>
    { db with
      passkeys := db.passkeys.update (fun c => c.id = id)
        (fun c => { c with signCount := signCount, lastUsedAt := some usedAt }) fun _ => rfl }
  | .revokePasskeys p =>
    { db with
      passkeys := db.passkeys.update p (fun c => { c with revoked := true }) fun _ => rfl }
  | .insertAccessRevocation r =>
    { db with accessRevocations := (db.accessRevocations.insert r).getD db.accessRevocations }
  | .insertAudit e => { db with auditLogs := db.auditLogs ++ [e] }
  | .anonymizeAudit ctx userID =>
    { db with
      auditLogs := db.auditLogs.map fun e =>
        if e.userID = some userID && e.tenantID = ctx.tenant then
          { e with email := "", ipAddress := "", detail := "" } else e }
  | .suspend ctx id =>
    (db.updateUser ctx id .suspend).revokeSessions fun s =>
      s.userID = id && s.tenantID = ctx.tenant
  | .assignRole ctx id roleID =>
    { db.updateUser ctx id .bumpAuthEpoch with userRoles := db.userRoles ++ [(id, roleID)] }

/-! ## Maintenance jobs -/

/-- `RefreshTokenRepository.PurgeExpired`: expired rows first, then every revoked row. -/
def DB.purgeRefreshTokens (db : DB) (before : Nat) : DB :=
  { db with
    refreshTokens :=
      (db.refreshTokens.delete fun t => t.expiresAt < before).delete fun t => t.revoked }

/-- `UsedTokenRepository.PurgeExpired`. -/
def DB.purgeUsedTokens (db : DB) (before : Nat) : DB :=
  { db with usedTokens := db.usedTokens.delete fun t => t.expiresAt < before }

end FinnAuth
