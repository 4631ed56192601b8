import FinnAuth.Footprint.Session
import FinnAuth.Footprint.Totp
import FinnAuth.Service.Federated

/-!
# Footprints of registration, login and federated sign-in
-/

namespace FinnAuth

open Lib Prog

variable {α : Type} {F : Footprint} {env : Env} {ctx : Ctx} {user : User} {ip ua : String}

/-! ## Registration -/

variable {email : String} {userID : UserID} {k : StoreKey}

theorem each_overCap {max window : Nat} {applies : Bool} (hq : F.Basic) (hk : F.key k) :
    Each (Acts F) (overCap k max window applies) :=
  each_ite (each_bind (each_storeIncrBy hq.other hk) fun _ => trivial) trivial

theorem each_registerCount (hq : F.Basic) : Each (Acts F) (registerCount env ip) :=
  each_ite (each_storeIncrBy hq.other (hq.key _ rfl)) trivial

theorem each_handleDuplicateRegistration {owner attempted : String} (hq : F.Quiet) :
    Each (Acts F) (handleDuplicateRegistration env ctx owner ip attempted) := by
  refine each_bind (each_record hq) fun _ => each_bind ?_ fun _ =>
    each_bind (each_doIf (each_ignore (each_notify hq.other (hq.mail _ rfl)))) fun _ => trivial
  exact each_bind (each_overCap hq (hq.key _ rfl)) fun _ => each_ite trivial
    (each_bind (each_overCap hq (hq.key _ rfl)) fun _ =>
      each_ite trivial (each_overCap hq (hq.key _ rfl)))

theorem each_sendVerification (hq : F.Quiet)
    (hs : ∀ c, c.userID = user.id → c.type = .emailVerify → F.label (.sign c))
    (hm : ∀ t, F.mail (.emailVerification user.email (.jwt t))) :
    Each (Acts F) (sendVerification env ctx user ip) := by
  refine each_bind (each_jwtIssue hq hs) fun t =>
    each_bind (each_attempt (each_notify hq.other (hm t))) fun r => ?_
  rcases r with _ | _
  · exact each_record hq
  · trivial

theorem each_usersCreate (hq : F.Basic)
    (hs : F.stmt (.insertUser { user with tenantID := ctx.tenant })) :
    Each (Acts F) (usersCreate env ctx user) := by
  refine each_repo hq.other fun db s h => ?_
  split at h
  · simp at h
  · split at h
    · simp at h
    · exact Option.some.inj h ▸ hs

/-! ## Login -/

theorem each_checkMFAOrIssueTokensAudited {detail : String} (hq : F.Quiet) (hi : F.Issues user)
    (hs : ∀ c, c.userID = user.id → c.type = .mfaPending → F.label (.sign c)) :
    Each (Acts F) (checkMFAOrIssueTokensAudited env ctx user ip ua detail) :=
  each_bind (each_refuse _ _) fun _ => each_bind (each_wrap (each_totpFindByUserID hq)) fun _ =>
    each_ite (each_bind (each_jwtIssue hq hs) fun _ => each_bind (each_record hq) fun _ => trivial)
      (each_bind (each_issueTokenPair hq hi) fun _ => each_bind (each_record hq) fun _ => trivial)

theorem each_recordLoginFailIP (hq : F.Basic) : Each (Acts F) (recordLoginFailIP env ip) :=
  each_doIf (each_bind (each_storeIncrBy hq.other (hq.key _ rfl)) fun _ => trivial)

theorem each_recordLoginFailAccount (hq : F.Basic) :
    Each (Acts F) (recordLoginFailAccount env email) :=
  each_doIf (each_bind (each_storeIncrBy hq.other (hq.key _ rfl)) fun _ => trivial)

theorem each_recordFailedLogin (hq : F.Quiet)
    (hu : ∀ t, F.stmt (.updateUser ctx user.id (.failedAttempt t))) :
    Each (Acts F) (recordFailedLogin env ctx user email ip) := by
  refine each_bind ?_ fun _ =>
    each_bind (each_ignore (each_usersUpdate (hq.site _) (hu _))) fun _ =>
    each_bind (each_recordLoginFailIP hq) fun _ => each_bind (each_recordLoginFailAccount hq)
      fun _ => each_record hq
  refine each_ite (each_bind ?_ fun _ => each_bind (each_getNow hq.other) fun _ => trivial) trivial
  exact each_ite (each_storeIncrBy hq.other (hq.key _ rfl)) trivial

theorem each_loginGates (hq : F.Quiet) : Each (Acts F) (loginGates env ctx user email ip) :=
  each_bind (each_refuse _ _) fun _ => each_bind (each_refuseAfter (each_record hq)) fun _ =>
    each_bind (each_getNow hq.other) fun _ => each_refuseAfter (each_record hq)

theorem each_loginLimits {email captcha : String} (hq : F.Basic) :
    Each (Acts F) (loginLimits env email ip captcha) :=
  each_bind (each_storeCounterValue hq.other (hq.key _ rfl)) fun _ =>
    each_bind (each_refuse _ _) fun _ =>
      each_bind (each_storeCounterValue hq.other (hq.key _ rfl)) fun _ => each_refuse _ _

/-- The answer to an unknown address. -/
theorem each_unknownUser (hq : F.Quiet) :
    Each (Acts F) (recordLoginFailIP env ip >>= fun _ => recordLoginFailAccount env email >>=
      fun _ => record ctx (loginFailedEvent none email ip "unknown user") >>=
        fun _ => (throw .invalidCredentials : M α)) :=
  each_bind (each_recordLoginFailIP hq) fun _ => each_bind (each_recordLoginFailAccount hq) fun _ =>
    each_bind (each_record hq) fun _ => trivial

theorem each_loginAudited {email password captcha : String} (hq : F.Quiet)
    (hc : ∀ u, F.label (.comparePassword u))
    (hf : ∀ id t, F.stmt (.updateUser ctx id (.failedAttempt t)))
    (hr : ∀ id, F.stmt (.updateUser ctx id .resetFailed)) (hi : ∀ user, F.Issues user)
    (hs : ∀ c, c.type = .mfaPending → F.label (.sign c)) :
    Each (Acts F) (loginAudited env ctx email password captcha ip ua) := by
  refine each_bind (each_loginLimits hq) fun _ =>
    each_bind (each_wrap (each_usersFindByEmail hq)) fun user => ?_
  rcases user with _ | user
  · exact each_unknownUser hq
  · exact each_bind (each_loginGates hq) fun _ =>
      each_bind (each_comparePassword (hc user)) fun _ =>
      each_bind (each_refuseAfter (each_recordFailedLogin hq (hf _))) fun _ =>
        each_bind (each_usersUpdate hq.other (hr _)) fun _ =>
          each_bind (each_storeDelete hq.other (hq.key _ rfl)) fun _ =>
            each_checkMFAOrIssueTokensAudited hq (hi user) fun c _ h => hs c h

theorem each_completeMFALoginAudited {code : String} (hq : F.Quiet) (hf : F.Factors)
    (hi : ∀ user, F.Issues user) :
    Each (Acts F) (completeMFALoginAudited env ctx userID code ip ua) := by
  refine each_bind (each_totpValidateAudited hq hf) fun _ =>
    each_bind (each_usersFindByID hq) fun user => ?_
  rcases user with _ | user
  · exact each_throw _
  · exact each_bind (each_refuse _ _) fun _ => each_bind (each_issueTokenPair hq (hi user)) fun _ =>
      each_bind (each_record hq) fun _ => each_bind (each_record hq) fun _ => each_ret _

theorem each_issuePasskeyTokenPairAudited (hq : F.Quiet) (hi : F.Issues user) :
    Each (Acts F) (issuePasskeyTokenPairAudited env ctx user ip ua) :=
  each_bind (each_refuse _ _) fun _ => each_bind (each_issueTokenPair hq hi) fun _ =>
    each_bind (each_record hq) fun _ => trivial

/-! ## Google sign-in -/

theorem each_mapDuplicateKey {p : M α} (hp : Each (Acts F) p) :
    Each (Acts F) (mapDuplicateKey p) := by
  refine each_bind (each_attempt hp) fun r => ?_
  split <;> trivial

theorem each_linkIdentity {claims : GoogleIDTokenClaims} (hq : F.Quiet)
    (hi : ∀ i, i.userID = user.id → F.stmt (.insertIdentity i)) :
    Each (Acts F) (linkIdentity ctx user claims ip) := by
  refine each_bind (each_wrap (each_query hq.other)) fun ident => ?_
  rcases ident with _ | ident
  · refine each_bind (each_wrap (each_repo hq.other fun db s h => ?_)) fun _ =>
      each_bind (each_record hq) fun _ => each_ignore (each_notify hq.other (hq.mail _ rfl))
    split at h
    · simp at h
    · split at h
      · simp at h
      · exact Option.some.inj h ▸ hi _ rfl
  · trivial

theorem each_verifiedClaims {reply : GoogleReply} {nonce : String} :
    Each (Acts F) (verifiedClaims reply nonce) := by
  unfold verifiedClaims
  split
  · trivial
  · trivial
  · exact each_bind (each_refuse _ _) fun _ => each_bind (each_refuse _ _) fun _ => trivial

theorem each_consumeState {state : Option Uuid} (hq : F.Basic)
    (hk : ∀ st, F.key (.oauthState st)) : Each (Acts F) (consumeState state) := by
  rcases state with _ | st
  · trivial
  · refine each_bind (each_storeTake hq.other (hk st)) fun v => ?_
    split <;> trivial

/-! ## Passkeys -/

theorem each_loadUser (hq : F.Basic) : Each (Acts F) (loadUser ctx userID) := by
  refine each_bind (each_usersFindByID hq) fun user => ?_
  rcases user with _ | user
  · trivial
  · exact each_bind (each_refuse _ _) fun _ => each_bind (each_query hq.other) fun _ => trivial

theorem each_takeChallenge (hq : F.Basic) (hk : F.key k) : Each (Acts F) (takeChallenge k) := by
  refine each_bind (each_storeTake hq.other hk) fun v => ?_
  split <;> trivial

theorem each_rowIDByCredential {credentialID : Nat} (hq : F.Basic) :
    Each (Acts F) (rowIDByCredential ctx userID credentialID) := by
  refine each_bind (each_attempt (each_query hq.other)) fun r => ?_
  split <;> trivial

/-- Writes to the passkey table. -/
structure Footprint.Passkeys (F : Footprint) : Prop where
  insert : ∀ c, F.stmt (.insertPasskey c)
  touch : ∀ id n t, F.stmt (.touchPasskey id n t)
  revoke : ∀ p, F.stmt (.revokePasskeys p)

theorem each_passkeysRevokeByID {id : Nat} (hq : F.Basic) (hp : F.Passkeys) :
    Each (Acts F) (passkeysRevokeByID ctx id userID) := by
  refine each_repo hq.other fun db s h => ?_
  simp only at h
  split at h
  · exact Option.some.inj h ▸ hp.revoke _
  · simp at h

theorem each_completeAuthentication {row : PasskeyCredential} {n : Nat} (hq : F.Quiet)
    (hp : F.Passkeys) (hi : F.Issues user) :
    Each (Acts F) (completeAuthentication env ctx user row n ip ua) := by
  refine each_ite (each_bind (each_rowIDByCredential hq) fun _ =>
    each_bind (each_ignore (each_passkeysRevokeByID hq hp)) fun _ =>
      each_bind (each_record hq) fun _ => trivial)
    (each_bind (each_rowIDByCredential hq) fun _ => each_bind (each_getNow hq.other) fun _ =>
      each_bind (each_ignore (each_repo hq.other fun db s h => ?_)) fun _ =>
        each_bind (each_record hq) fun _ => each_issuePasskeyTokenPairAudited hq hi)
  split at h
  · exact Option.some.inj h ▸ hp.touch _ _ _
  · simp at h

end FinnAuth
