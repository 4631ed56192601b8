import FinnAuth.Service.Issue

/-!
# Administration

`internal/services/admin_service.go`, `Authority.Suspend` of `internal/identity/state.go` and
`AssignRoleToUser` of `internal/repositories/rbac_repository.go`. The lists and exports only read
and are left out.
-/

namespace FinnAuth

open Lib

/-! ## Repositories -/

variable (env : Env) (ctx : Ctx)

/-- `SetLock`: an unlock also clears the failed attempts. -/
def usersSetLock (id : UserID) (lockedUntil : Option Nat) : M Unit :=
  usersUpdate .other ctx id (.lock lockedUntil)

/-- `Authority.Suspend`: flag, both versions and all sessions in one transaction. -/
def authoritySuspend (id : UserID) : M Unit :=
  repo .other fun db =>
    if db.owns ctx id then (.ok (), some (.suspend ctx id)) else (.error .inactive, none)

/-- `AssignRoleToUser`: a role of the tenant, once, and the epoch of the user. -/
def rbacAssignRoleToUser (userID : UserID) (roleID : Nat) : M Unit :=
  repo .other fun db =>
    if !db.owns ctx userID then (.error .recordNotFound, none)
    else if !db.roles.rows.any (fun r => r.id = roleID && r.tenantID = ctx.tenant) then
      (.error .recordNotFound, none)
    else if (userID, roleID) ∈ db.userRoles then (.error (.duplicatedKey "PRIMARY"), none)
    else (.ok (), some (.assignRole ctx userID roleID))

/-! ## The service -/

/-- The lock of a non-positive duration: ten years. -/
def indefiniteLock : Nat := 24 * 3600 * 1000 * 365 * 10

/-- The evidence of an action on `u`. -/
def adminAction (u : User) (ip detail : String) : AuditLog :=
  { auditEvent "admin_action" true with
    userID := some u.id, email := u.email, ipAddress := ip, detail := detail }

/-- `FindByID` of the target: only a row of the administrator's tenant. -/
def adminTarget (targetUserID : UserID) : M User := do
  match ← usersFindByID ctx targetUserID with
  | none => throw .userNotFound
  | some u => do
    refuse (u.tenantID ≠ ctx.tenant) .userNotFound
    pure u

/-- `lockUserAudited`. -/
def lockUserAudited (adminID targetUserID : UserID) (lockDuration : Int) (ip : String) :
    M Unit := do
  refuse (adminID = targetUserID) .cannotLockSelf
  let u ← adminTarget ctx targetUserID
  let now ← getNow
  let lockedUntil := now + if lockDuration ≤ 0 then indefiniteLock else lockDuration.toNat
  usersSetLock ctx targetUserID (some lockedUntil)
  record ctx (adminAction u ip
    ("locked user " ++ toString targetUserID ++ " until " ++ toString lockedUntil))

/-- `unlockUserAudited`. -/
def unlockUserAudited (targetUserID : UserID) (ip : String) : M Unit := do
  let u ← adminTarget ctx targetUserID
  usersSetLock ctx targetUserID none
  record ctx (adminAction u ip ("unlocked user " ++ toString targetUserID))

/-- `forceLogoutAudited`. -/
def forceLogoutAudited (targetUserID : UserID) (ip : String) : M Unit := do
  let u ← adminTarget ctx targetUserID
  tokensRevokeAllForUser ctx targetUserID
  sessionsRevokeAllForUser ctx targetUserID
  bumpPwdVersion ctx targetUserID
  record ctx (adminAction u ip ("forced logout for user " ++ toString targetUserID
    ++ " (sessions and tokens revoked)"))

/-! ## Entry points -/

/-- An administrative call. -/
inductive AdminRequest : Type where
  | lockUser (adminID targetUserID : UserID) (lockDuration : Int) (ip : String)
  | unlockUser (adminID targetUserID : UserID) (ip : String)
  | forceLogout (adminID targetUserID : UserID) (ip : String)
  | suspend (userID : UserID)
  | assignRoleToUser (userID : UserID) (roleID : Nat)

/-- Serves an administrative call. The last two are library functions without a route. -/
def serveAdmin : AdminRequest → M Unit
  | .lockUser adminID target d ip => runAuditOperation (lockUserAudited ctx adminID target d ip)
  | .unlockUser _ target ip => runAuditOperation (unlockUserAudited ctx target ip)
  | .forceLogout _ target ip => runAuditOperation (forceLogoutAudited ctx target ip)
  | .suspend userID => authoritySuspend ctx userID
  | .assignRoleToUser userID roleID => rbacAssignRoleToUser ctx userID roleID

end FinnAuth
