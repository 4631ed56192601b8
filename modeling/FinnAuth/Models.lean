import FinnAuth.Lib.Table
import FinnAuth.Lib.TtlMap

/-!
# Rows, claims, mails and errors

The data of `internal/models`, `internal/jwt` and `internal/services/errors.go`. Random values
(row ids, UUIDs, opaque tokens) are drawn from one counter and are therefore numbers here, with
`none` for the empty string where the source allows it; SHA-256 is collision free, so a digest is
its preimage in a wrapper. Times and durations are milliseconds, except in a JWT, where they are
whole seconds.
-/

namespace FinnAuth

abbrev UserID := Nat

/-- A UUID or another random identifier, by its draw. -/
abbrev Uuid := Nat

/-- `hash.HashToken`: collision free. -/
structure Digest (α : Type) where
  preimage : α
  deriving DecidableEq, Repr

/-! ## Rows -/

/-- `models.User`. -/
structure User where
  id : UserID
  tenantID : String
  username : String
  email : String
  password : String
  fullName : String
  role : String
  isActive : Bool
  isEmailVerified : Bool
  failedLoginAttempts : Nat
  lockedUntil : Option Nat
  authEpoch : Nat
  adminSuspended : Bool
  pwdVersion : Nat
  deriving DecidableEq, Repr

/-- `models.RoleUser`. -/
def roleUser : String := "user"

/-- `models.Session`. -/
structure Session where
  id : Uuid
  tenantID : String
  userID : UserID
  ipAddress : String
  userAgent : String
  deviceName : String
  locationEstimate : String
  revoked : Bool
  lastActiveAt : Nat
  expiresAt : Nat
  deriving DecidableEq, Repr

/-- `models.RefreshToken`. -/
structure RefreshToken where
  id : Nat
  userID : UserID
  tokenHash : Digest Uuid
  expiresAt : Nat
  revoked : Bool
  ipAddress : String
  userAgent : String
  deviceName : String
  locationEstimate : String
  lastActiveAt : Nat
  sessionID : Option Uuid
  deriving DecidableEq, Repr

/-- The `type` claim. -/
inductive TokenType : Type where
  | access
  | reset
  | emailVerify
  | mfaPending
  | sudo
  deriving DecidableEq, Repr

/-- `models.UsedToken`. -/
structure UsedToken where
  jti : Uuid
  tokenType : TokenType
  userID : UserID
  expiresAt : Nat
  deriving DecidableEq, Repr

/-- `models.TOTPDevice`. -/
structure TOTPDevice where
  id : Nat
  userID : UserID
  secret : String
  secretEncrypted : String
  pendingSecretEncrypted : String
  enabled : Bool
  deriving DecidableEq, Repr

/-- `models.RecoveryCode`. -/
structure RecoveryCode where
  id : Nat
  userID : UserID
  codeHash : Digest String
  codeEncrypted : String
  usedAt : Option Nat
  deriving DecidableEq, Repr

/-- `models.OAuthIdentity`. -/
structure OAuthIdentity where
  userID : UserID
  provider : String
  providerUserID : String
  deriving DecidableEq, Repr

/-- `models.PasskeyCredential`. -/
structure PasskeyCredential where
  id : Nat
  userID : UserID
  credentialID : Nat
  signCount : Nat
  displayName : String
  lastUsedAt : Option Nat
  revoked : Bool
  deriving DecidableEq, Repr

/-- `models.Tenant`. -/
structure Tenant where
  id : String
  isActive : Bool
  deriving DecidableEq, Repr

/-- `models.AccessRevocation`. -/
structure AccessRevocation where
  tenantID : String
  jti : Uuid
  expiresAt : Nat
  deriving DecidableEq, Repr

/-- `models.Permission`. -/
structure Permission where
  id : Nat
  name : String
  deriving DecidableEq, Repr

/-- `models.Role`. -/
structure Role where
  id : Nat
  tenantID : String
  name : String
  deriving DecidableEq, Repr

/-- `models.AuditLog`: the fields the services fill in. -/
structure AuditLog where
  tenantID : String
  userID : Option UserID
  email : String
  event : String
  ipAddress : String
  success : Bool
  detail : String
  deriving DecidableEq, Repr

/-! ## Tokens -/

/-- `jwt.Claims`. Issuer, subject, audience and contract version follow from the other claims and
the type, and only the manager's own tokens verify, so they are not carried. -/
structure Claims where
  userID : UserID
  role : String
  email : String
  type : TokenType
  pwdVer : Nat
  authEpoch : Nat
  sid : Option Uuid
  tenantID : String
  permissions : List String
  id : Option Uuid
  issuedAt : Nat
  notBefore : Nat
  expiresAt : Nat
  deriving DecidableEq, Repr

/-- A JWT is named by its position among the tokens signed so far: the signature is unforgeable,
so any other string is `none` of them. -/
abbrev Token := Nat

/-- `services.TokenPair`. -/
structure TokenPair where
  accessToken : Token
  refreshToken : Uuid
  expiresAt : Nat
  deriving DecidableEq, Repr

/-- `services.UserProfile`, without the row's timestamps. -/
structure UserProfile where
  id : UserID
  username : String
  email : String
  fullName : String
  role : String
  isActive : Bool
  isEmailVerified : Bool
  deriving DecidableEq, Repr

/-- `FromUser`. -/
def fromUser (u : User) : UserProfile :=
  { id := u.id, username := u.username, email := u.email, fullName := u.fullName, role := u.role,
    isActive := u.isActive, isEmailVerified := u.isEmailVerified }

/-! ## Mails -/

/-- The token a verification mail carries: a JWT, or the token of a staged email change. -/
inductive MailToken : Type where
  | jwt (t : Token)
  | changeEmail (u : Uuid)
  deriving DecidableEq, Repr

/-- One call of the notifier. -/
inductive Mail : Type where
  | passwordReset (rcpt : String) (t : Token)
  | emailVerification (rcpt : String) (t : MailToken)
  | securityAlert (rcpt event body : String)
  | duplicateRegisterAlert (rcpt : String)
  | newLoginAlert (rcpt ip deviceName : String)
  deriving DecidableEq, Repr

/-- The token a mail carries. -/
def Mail.token? : Mail → Option MailToken
  | passwordReset _ t => some (.jwt t)
  | emailVerification _ t => some t
  | _ => none

/-! ## Errors -/

/-- The errors that cross a function boundary: the sentinels, the repository errors, and the
wrapping of `fmt.Errorf("ctx: %w", err)`. -/
inductive Err : Type where
  -- repositories and infrastructure
  | db
  | recordNotFound
  | duplicatedKey (index : String)
  | tokenAlreadyRevoked
  | recoveryCodeUsed
  | smtp
  | unavailable
  | inactive
  | jwtInvalidToken
  -- `internal/audit`
  | integrity
  | legacy
  | policy
  -- `internal/services/errors.go`
  | identityUnavailable
  | invalidInput
  | passwordTooWeak
  | invalidCredentials
  | invalidToken
  | invalidCode
  | accountLocked
  | accountDisabled
  | emailNotVerified
  | sudoRequired
  | captchaRequired
  | userNotFound
  | totpUnrecoverable
  | sessionNotFound
  | emailExists
  | usernameExists
  | passwordAlreadySet
  | disposableEmail
  | passwordBreached
  | rateLimited
  | oauthStateInvalid
  | oauthEmailNotVerified
  | oauthCodeExchangeFailed
  | oauthTokenVerificationFailed
  | oauthEmailTaken
  | cannotUnlinkOnlyMethod
  | passkeyChallenge
  | passkeyCredentialRevoked
  | passkeyCeremony
  | cannotLockSelf
  | crypto
  | wrapped (ctx : String) (e : Err)
  deriving DecidableEq, Repr

/-- `errors.Is` looks through the wrapping. -/
def Err.root : Err → Err
  | wrapped _ e => e.root
  | e => e

/-- `auditDenial`: the refusals whose evidence may be committed. -/
def auditDenial (e : Err) : Bool :=
  e.root ∈ [.invalidCredentials, .invalidToken, .invalidCode, .accountLocked, .accountDisabled,
    .rateLimited, .passkeyCredentialRevoked]

end FinnAuth
