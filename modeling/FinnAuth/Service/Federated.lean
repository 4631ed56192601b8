import FinnAuth.Service.Login

/-!
# Google sign-in and passkeys

`internal/services/oauth_service.go` and `internal/services/passkey_service.go`. The two outside
parties are inputs: what Google answers to the code exchange, and what the authenticator sends to
the WebAuthn library. The library's own checks are part of the model: the challenge is the staged
one, the credential is one of the account's active ones, and the counter rule flags a clone.
-/

namespace FinnAuth

open Lib

/-! ## Google sign-in -/

/-- `GoogleIDTokenClaims`. -/
structure GoogleIDTokenClaims where
  sub : String
  email : String
  emailVerified : Bool
  name : String
  nonce : String
  deriving DecidableEq, Repr

/-- What Google answers to the exchange of an authorization code. -/
inductive GoogleReply : Type where
  | exchangeFailed
  | invalidIDToken
  | claims (c : GoogleIDTokenClaims)
  deriving DecidableEq, Repr

/-- `oauthStateTTL`. -/
def oauthStateTTL : Nat := 10 * 60 * 1000

/-- `oauthProviderGoogle`. -/
def oauthProviderGoogle : String := "google"

variable (env : Env) (ctx : Ctx)

/-- `BeginLogin`: state and nonce, staged under the state. -/
def oauthBeginLogin : M (Uuid × String) := do
  let state ← draw
  let nonce ← draw
  let fresh ← storeSetNX (.oauthState state) (.str (env.uuidText nonce)) oauthStateTTL
  refuse (!fresh) (.wrapped "oauth: state collision" .crypto)
  pure (state, env.uuidText nonce)

/-- `ConsumeState`: the staged nonce, once. -/
def consumeState (state : Option Uuid) : M String :=
  match state with
  | none => throw .oauthStateInvalid
  | some st => do
    match ← storeTake (.oauthState st) with
    | some (.str nonce) => pure nonce
    | _ => throw .oauthStateInvalid

/-- `generateUsernameFromEmail`. -/
def generateUsernameFromEmail (email : String) : String :=
  if '@' ∈ email.toList && emailLocalPart email ≠ "" then emailLocalPart email else email

/-- `mapDuplicateKey`: which index refused the row. -/
def mapDuplicateKey {α : Type} (p : M α) : M α :=
  p.attempt >>= fun r => match r with
    | .ok a => .ret a
    | .error (.duplicatedKey index) =>
      .fail (if containsText index "email" then .emailExists
        else if containsText index "username" then .usernameExists else .emailExists)
    | .error e => .fail (.wrapped "register: create user" e)

/-- `createGoogleUser`. -/
def createGoogleUser (claims : GoogleIDTokenClaims) (email : String) : M User := do
  let base := generateUsernameFromEmail email
  let existing ← wrap "oauth: check username" (usersFindByUsername env ctx base)
  let suffix ← draw
  let id ← draw
  mapDuplicateKey (usersCreate env ctx
    { id := id + 1, tenantID := "",
      username := if existing.isSome then base ++ env.randomSuffix suffix else base,
      email := email, password := "", fullName := claims.name, role := roleUser, isActive := true,
      isEmailVerified := true, failedLoginAttempts := 0, lockedUntil := none, authEpoch := 0,
      adminSuspended := false, pwdVersion := 0 })

/-- `linkIdentity`. -/
def linkIdentity (user : User) (claims : GoogleIDTokenClaims) (ip : String) : M Unit := do
  match ← wrap "oauth: check identity"
      (oauthFindByProviderAndProviderUserID ctx oauthProviderGoogle claims.sub) with
  | some _ => pure ()
  | none => do
    wrap "oauth: link identity" (oauthCreate ctx ⟨user.id, oauthProviderGoogle, claims.sub⟩)
    record ctx { auditEvent "oauth_linked" true with
      userID := some user.id, email := user.email, ipAddress := ip,
      detail := "linked google oauth account" }
    ignore (notify (.securityAlert user.email "oauth_linked"
      "A Google account has been connected to your profile."))

/-- The account `findOrCreateUser` attaches a new identity to: the verified local one with this
email, or a new one. -/
def attachableUser (claims : GoogleIDTokenClaims) (email : String) : M User := do
  match ← wrap "oauth: find user" (usersFindByEmail env ctx email) with
  | some user => do
    refuse (!user.isEmailVerified) .oauthEmailTaken
    pure user
  | none => createGoogleUser env ctx claims email

/-- `findOrCreateUser`: the stored link wins. -/
def findOrCreateUser (claims : GoogleIDTokenClaims) (email ip : String) : M User := do
  match ← wrap "oauth: check identity"
      (oauthFindByProviderAndProviderUserID ctx oauthProviderGoogle claims.sub) with
  | some ident => do
    match ← wrap "oauth: find linked user" (usersFindByID ctx ident.userID) with
    | none => throw .userNotFound
    | some user => pure user
  | none => do
    let user ← attachableUser env ctx claims email
    linkIdentity ctx user claims ip
    pure user

/-- The ID token of a reply, bound to the staged nonce and to a verified email. -/
def verifiedClaims (reply : GoogleReply) (nonce : String) : M GoogleIDTokenClaims :=
  match reply with
  | .exchangeFailed => throw .oauthCodeExchangeFailed
  | .invalidIDToken => throw .oauthTokenVerificationFailed
  | .claims c => do
    refuse (c.nonce = "" || c.nonce ≠ nonce) .oauthTokenVerificationFailed
    refuse (!c.emailVerified) .oauthEmailNotVerified
    pure c

/-- `handleCallbackAudited`. -/
def handleCallbackAudited (reply : GoogleReply) (state : Option Uuid) (ip ua : String) :
    M LoginResult := do
  let nonce ← consumeState state
  let claims ← verifiedClaims reply nonce
  let user ← findOrCreateUser env ctx claims (env.normalize claims.email) ip
  refuse (!user.isActive) .accountDisabled
  checkMFAOrIssueTokensAudited env ctx user ip ua "google-oauth"

/-- `unlinkAudited`. -/
def unlinkAudited (userID : UserID) (provider ip : String) : M Unit := do
  match ← oauthFindByUserIDAndProvider ctx userID provider with
  | none => throw .userNotFound
  | some _ => do
    match ← usersFindByID ctx userID with
    | none => throw .userNotFound
    | some user => do
      let hasPasskey ← (passkeysListByUser ctx userID).attempt >>= fun r => match r with
        | .ok pks => .ret (!pks.isEmpty)
        | .error _ => .ret false
      refuse (user.password = "" && !hasPasskey) .cannotUnlinkOnlyMethod
      oauthDeleteByUserIDAndProvider ctx userID provider
      record ctx { auditEvent "oauth_unlinked" true with
        userID := some user.id, email := user.email, ipAddress := ip,
        detail := "unlinked " ++ provider ++ " oauth account" }
      ignore (notify (.securityAlert user.email "oauth_unlinked"
        ("Your " ++ provider ++ " account was disconnected from your profile.")))

/-! ## Passkeys -/

/-- `challengeTTL`. -/
def challengeTTL : Nat := 60 * 1000

/-- What the authenticator sends back: the challenge it signed, the credential and its counter. -/
structure Assertion where
  challenge : String
  credentialID : Nat
  signCount : Nat
  deriving DecidableEq, Repr

/-- `loadUser`: a disabled account is refused in every ceremony. -/
def loadUser (userID : UserID) : M (User × List PasskeyCredential) := do
  match ← usersFindByID ctx userID with
  | none => throw .userNotFound
  | some u => do
    refuse (!u.isActive) .accountDisabled
    let rows ← passkeysListByUser ctx userID
    pure (u, rows)

/-- `stageJSON` of a fresh challenge. -/
def stageChallenge (k : StoreKey) : M String := do
  let c ← draw
  storeSet k (.str (env.uuidText c)) challengeTTL
  pure (env.uuidText c)

/-- `takeJSON`: a challenge is single use. -/
def takeChallenge (k : StoreKey) : M String := do
  match ← storeTake k with
  | some (.str c) => pure c
  | _ => throw .passkeyChallenge

/-- `BeginRegistration`. -/
def passkeyBeginRegistration (userID : UserID) : M String := do
  let _ ← loadUser ctx userID
  stageChallenge env (.passkeyReg userID)

/-- `finishRegistrationAudited`. -/
def passkeyFinishRegistrationAudited (userID : UserID) (a : Assertion) (displayName ip : String) :
    M PasskeyCredential := do
  let c ← takeChallenge (.passkeyReg userID)
  let _ ← loadUser ctx userID
  refuse (a.challenge ≠ c) (.wrapped "passkey: finish registration" .passkeyCeremony)
  let rowID ← draw
  let row : PasskeyCredential :=
    { id := rowID + 1, userID := userID, credentialID := a.credentialID, signCount := a.signCount,
      displayName := displayName, lastUsedAt := none, revoked := false }
  passkeysCreate ctx row
  record ctx { auditEvent "passkey_registered" true with
    userID := some userID, ipAddress := ip, detail := displayName }
  pure row

/-- `BeginAuthentication`: an account without credentials cannot start. -/
def passkeyBeginAuthentication (userID : UserID) : M String := do
  let (_, rows) ← loadUser ctx userID
  refuse rows.isEmpty (.wrapped "passkey: begin authentication" .passkeyCeremony)
  stageChallenge env (.passkeyAuth userID)

/-- The counter rule of the library: no progress is a clone, unless both counters are zero. -/
def cloneWarning (stored presented : Nat) : Bool :=
  presented ≤ stored && (presented ≠ 0 || stored ≠ 0)

/-- `rowIDByCredential`: zero when the lookup fails. -/
def rowIDByCredential (userID : UserID) (credentialID : Nat) : M Nat :=
  (passkeysFindByCredentialID ctx credentialID).attempt >>= fun r => match r with
    | .ok (some row) => .ret (if row.userID = userID then row.id else 0)
    | _ => .ret 0

/-- `completeAuthentication`. -/
def completeAuthentication (user : User) (row : PasskeyCredential) (signCount : Nat)
    (ip ua : String) : M (TokenPair × UserProfile) :=
  if cloneWarning row.signCount signCount then do
    let id ← rowIDByCredential ctx user.id row.credentialID
    ignore (passkeysRevokeByID ctx id user.id)
    record ctx { auditEvent "passkey.clone_detected" false with
      userID := some user.id, ipAddress := ip,
      detail := "signCount regression on passkey credential — revoked" }
    throw (.wrapped "credential sign counter regressed" .passkeyCredentialRevoked)
  else do
    let id ← rowIDByCredential ctx user.id row.credentialID
    let now ← getNow
    ignore (passkeysTouchUsage ctx id signCount now)
    record ctx { auditEvent "passkey_login" true with userID := some user.id, ipAddress := ip }
    issuePasskeyTokenPairAudited env ctx user ip ua

/-- `finishAuthenticationAudited`. -/
def passkeyFinishAuthenticationAudited (userID : UserID) (a : Assertion) (ip ua : String) :
    M (TokenPair × UserProfile) := do
  let c ← takeChallenge (.passkeyAuth userID)
  let (user, rows) ← loadUser ctx userID
  match rows.find? fun r => r.credentialID = a.credentialID && a.challenge = c with
  | none => throw (.wrapped "passkey: finish authentication" .passkeyCeremony)
  | some row => completeAuthentication env ctx user row a.signCount ip ua

/-- `revokeAudited`. -/
def passkeyRevokeAudited (id : Nat) (userID : UserID) : M Unit := do
  (passkeysRevokeByID ctx id userID).attempt >>= fun r => match r with
    | .ok () => .ret ()
    | .error _ => throw .sessionNotFound
  record ctx { auditEvent "passkey_revoked" true with
    userID := some userID, detail := "device revoked by user" }

/-! ## Entry points -/

/-- `OAuthService.HandleCallback`. -/
def handleCallback (reply : GoogleReply) (state : Option Uuid) (ip ua : String) : M LoginResult :=
  runAuditOperation (handleCallbackAudited env ctx reply state ip ua)

/-- `OAuthService.Unlink`. -/
def unlink (userID : UserID) (provider ip : String) : M Unit :=
  runAuditOperation (unlinkAudited ctx userID provider ip)

/-- `passkeyService.FinishRegistration`. -/
def passkeyFinishRegistration (userID : UserID) (a : Assertion) (displayName ip : String) :
    M PasskeyCredential :=
  runAuditOperation (passkeyFinishRegistrationAudited ctx userID a displayName ip)

/-- `passkeyService.Revoke`. -/
def passkeyRevoke (id : Nat) (userID : UserID) : M Unit :=
  runAuditOperation (passkeyRevokeAudited ctx id userID)

/-- `passkeyService.FinishAuthentication`. -/
def passkeyFinishAuthentication (userID : UserID) (a : Assertion) (ip ua : String) :
    M (TokenPair × UserProfile) :=
  runAuditOperation (passkeyFinishAuthenticationAudited env ctx userID a ip ua)

end FinnAuth
