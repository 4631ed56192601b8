import FinnAuth.Service.Credential
import Mathlib.Algebra.Group.Nat.Defs

/-!
# Email changes, deactivation and erasure

The account ceremonies of `internal/services/auth_service.go`. An email change is staged for an
hour as the text `uid:old:new` under a random key and carried out by whoever presents the key;
deactivation and erasure need a sudo token or the password.
-/

namespace FinnAuth

open Lib

/-! ## The staged payload -/

/-- `fmt.Sprintf("%d:%s:%s", …)`. -/
def changeEmailPayload (userID : UserID) (oldEmail newEmail : String) : String :=
  toString userID ++ ":" ++ oldEmail ++ ":" ++ newEmail

/-- `strings.Split(payload, ":")`. -/
def splitColon (s : String) : List String := (s.toList.splitOn ':').map String.ofList

/-- `strconv.ParseUint(s, 10, 64)`. -/
def parseUint (s : String) : Option Nat :=
  if s.toList ≠ [] && s.toList.all (fun c => '0' ≤ c && c ≤ '9') then
    let n := s.toList.foldl (fun n c => n * 10 + (c.toNat - '0'.toNat)) 0
    if n < 2 ^ 64 then some n else none
  else none

/-- What `ConfirmChangeEmail` reads out of a payload: user id, old and new address. -/
def parsePayload (payload : String) : Option (UserID × String × String) :=
  match splitColon payload with
  | [uid, oldEmail, newEmail] => (parseUint uid).map fun u => (u, oldEmail, newEmail)
  | _ => none

/-! ## Changing the email -/

/-- The evidence of a blocked request. -/
def changeBlocked (user : User) (ip detail : String) : AuditLog :=
  { auditEvent "email_change_requested" false with
    userID := some user.id, email := user.email, ipAddress := ip, detail := detail }

variable (env : Env) (ctx : Ctx)

/-- The layered throttle of `requestChangeEmailAudited`. -/
def changeEmailThrottle (user : User) (ip : String) : M Unit := do
  throttle ctx .chgEmailGlobal env.cfg.verifyResendGlobalMax env.cfg.verifyResendGlobalWindow true
    (changeBlocked user ip "blocked: global cap")
  throttle ctx (.chgEmailIP (env.canonicalIP ip)) env.cfg.verifyResendPerIPMax
    env.cfg.verifyResendPerIPWindow (ip ≠ "") (changeBlocked user ip "blocked: per-ip cap")
  throttle ctx (.chgEmail user.email) env.cfg.verifyResendPerEmailMax env.cfg.verifyResendWindow
    true (changeBlocked user ip "blocked: per-email cap")

/-- How long a staged change lives. -/
def changeEmailTTL : Nat := 3600 * 1000

/-- Stages the change of `user` to `newEmail` and sends the mails. -/
def stageChangeEmail (user : User) (newEmail : String) : M Unit := do
  let token ← draw
  storeSet (.changeEmail token) (.str (changeEmailPayload user.id user.email newEmail))
    changeEmailTTL
  admitBeforeExternal ctx { auditEvent "email_change_requested" true with userID := some user.id }
  ignore (notify (.emailVerification newEmail (.changeEmail token)))
  ignore (notify (.securityAlert user.email "email_change_requested"
    ("A request was made to change your email address to " ++ newEmail
      ++ ". If you did not make this request, secure your account immediately.")))

/-- `RequestChangeEmail`. -/
def requestChangeEmail (userID : UserID) (password rawEmail ip : String) : M Unit := do
  match ← usersFindByID ctx userID with
  | none => throw .userNotFound
  | some user => do
    let ok ← comparePassword env user password
    refuse (!ok) .invalidCredentials
    let newEmail := env.normalize rawEmail
    refuse (newEmail = "" || newEmail = user.email) .invalidInput
    changeEmailThrottle env ctx user ip
    refuse (isDisposableEmail env newEmail) .disposableEmail
    let existing ← usersFindByEmail env ctx newEmail
    refuse existing.isSome .emailExists
    stageChangeEmail ctx user newEmail

/-- The containment after an email change, a deactivation or an erasure: failures are dropped. -/
def containUser (userID : UserID) : M Unit := do
  ignore (tokensRevokeAllForUser ctx userID)
  ignore (sessionsRevokeAllForUser ctx userID)
  ignore (bumpPwdVersion ctx userID)

/-- `confirmChangeEmailAudited` for a payload that parsed. -/
def applyChangeEmail (uid : UserID) (oldEmail newEmail ip : String) : M Unit := do
  let existing ← usersFindByEmail env ctx newEmail
  refuse (existing.any fun u => u.id ≠ uid) .emailExists
  match ← usersFindByID ctx uid with
  | none => throw .userNotFound
  | some user => do
    usersUpdateEmail env ctx { user with email := newEmail, isEmailVerified := true }
    containUser ctx uid
    ignore (notify (.securityAlert oldEmail "email_changed"
      ("Your account email was successfully updated to " ++ newEmail
        ++ ". All existing sessions were revoked.")))
    record ctx { auditEvent "email_changed" true with
      userID := some user.id, email := newEmail, ipAddress := ip,
      detail := "email changed from " ++ oldEmail }

/-- `confirmChangeEmailAudited`: `none` is the empty token. -/
def confirmChangeEmailAudited (token : Option Uuid) (ip : String) : M Unit :=
  match token with
  | none => throw .invalidToken
  | some t => do
    match ← storeTake (.changeEmail t) with
    | some (.str payload) =>
      match parsePayload payload with
      | none => throw .invalidToken
      | some (uid, oldEmail, newEmail) => applyChangeEmail env ctx uid oldEmail newEmail ip
    | _ => throw .invalidToken

/-! ## Leaving -/

/-- `verifySudoOrPassword`. -/
def verifySudoOrPassword (user : User) (sudoToken : Option Token) (password : String) : M Unit := do
  let proven ← sudoProven env sudoToken user.id
  if proven then .ret ()
  else do
    refuse (password = "" || user.password = "") .sudoRequired
    let ok ← comparePassword env user password
    refuse (!ok) .invalidCredentials

/-- `deactivateAccountAudited`. -/
def deactivateAccountAudited (userID : UserID) (sudoToken : Option Token) (password : String)
    (accessJTI : Option Uuid) (ip : String) : M Unit := do
  match ← usersFindByID ctx userID with
  | none => throw .userNotFound
  | some user => do
    verifySudoOrPassword env user sudoToken password
    usersDeactivate ctx userID
    containUser ctx userID
    denylistAccessToken env accessJTI
    record ctx { auditEvent "account_deactivated" true with
      userID := some user.id, email := user.email, ipAddress := ip,
      detail := "account self-deactivated" }
    ignore (notify (.securityAlert user.email "account_deactivated"
      "Your account has been deactivated. Contact support if you wish to reactivate it."))

/-- The anonymised email of an erased row. -/
def erasedEmail (id : Uuid) : String :=
  "deleted_" ++ env.uuidText id ++ "@anonymized.invalid"

/-- The anonymised username: the first twelve characters of the suffix. -/
def erasedUsername (id : Uuid) : String :=
  "deleted_" ++ String.ofList ((env.uuidText id).toList.take 12)

/-- The factors, links and audit rows an erasure removes; failures are dropped. -/
def eraseFactors (userID : UserID) : M Unit := do
  ignore (totpDisable ctx userID)
  ignore (totpReplaceRecoveryCodes ctx userID [])
  ignore (passkeysRevokeAllForUser ctx userID)
  ignore (oauthDeleteAllByUserID ctx userID)
  ignore (auditsAnonymizeUser ctx userID)

/-- `eraseAccountAudited`. -/
def eraseAccountAudited (userID : UserID) (sudoToken : Option Token) (password : String)
    (accessJTI : Option Uuid) (ip : String) : M Unit := do
  match ← usersFindByID ctx userID with
  | none => throw .userNotFound
  | some user => do
    verifySudoOrPassword env user sudoToken password
    let suffix ← draw
    usersErase env ctx
      { user with email := erasedEmail env suffix, username := erasedUsername env suffix }
    eraseFactors ctx userID
    containUser ctx userID
    denylistAccessToken env accessJTI
    record ctx { auditEvent "account_erased" true with
      userID := some user.id, email := "anonymized@gdpr.local", ipAddress := ip,
      detail := "account erased via GDPR right-to-erasure" }
    ignore (notify (.securityAlert user.email "account_erased"
      "Your account data has been permanently erased per your request."))

/-! ## Entry points -/

/-- `AuthService.ConfirmChangeEmail`. -/
def confirmChangeEmail (token : Option Uuid) (ip : String) : M Unit :=
  runAuditOperation (confirmChangeEmailAudited env ctx token ip)

/-- `AuthService.DeactivateAccount`. -/
def deactivateAccount (userID : UserID) (sudoToken : Option Token) (password : String)
    (accessJTI : Option Uuid) (ip : String) : M Unit :=
  runAuditOperation (deactivateAccountAudited env ctx userID sudoToken password accessJTI ip)

/-- `AuthService.EraseAccount`. -/
def eraseAccount (userID : UserID) (sudoToken : Option Token) (password : String)
    (accessJTI : Option Uuid) (ip : String) : M Unit :=
  runAuditOperation (eraseAccountAudited env ctx userID sudoToken password accessJTI ip)

end FinnAuth
