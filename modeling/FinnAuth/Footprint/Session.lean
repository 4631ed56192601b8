import FinnAuth.Footprint.Issue
import FinnAuth.Service.Session
import FinnAuth.Service.Account

/-!
# Footprints of sessions, credentials and accounts

The functions of `Service/Session.lean`, `Service/Credential.lean` and `Service/Account.lean`.
Those that admit their evidence before a mail leaves the process run a nested audit operation and
are therefore only `Within` their footprint, not action by action.
-/

namespace FinnAuth

open Lib Prog

variable {α : Type} {F : Footprint} {env : Env} {ctx : Ctx} {userID : UserID} {ip ua pw : String}
  {rt : RefreshToken} {sid : Uuid} {jti : Option Uuid} {claims : Claims}

/-- Revocations of any sessions and any refresh tokens. -/
structure Footprint.Revokes (F : Footprint) : Prop where
  sessions : ∀ p, F.stmt (.revokeSessions p)
  tokens : ∀ p, F.stmt (.revokeTokens p)

/-! ## Theft response -/

theorem each_sessionsRevokeByID (hq : F.Core) (hr : F.Revokes) :
    Each (Acts F) (sessionsRevokeByID ctx sid userID) := by
  refine each_repo hq.other fun db s h => ?_
  split at h
  · exact Option.some.inj h ▸ hr.sessions _
  · simp at h

theorem each_sessionsRevokeAllForUser (hq : F.Core) (hr : F.Revokes) :
    Each (Acts F) (sessionsRevokeAllForUser ctx userID) :=
  each_ownedWrite hq.other fun _ => hr.sessions _

theorem each_tokensRevokeAllForUser (hq : F.Core) (hr : F.Revokes) :
    Each (Acts F) (tokensRevokeAllForUser ctx userID) :=
  each_ownedWrite hq.other fun _ => hr.tokens _

theorem each_tokensRevokeBySession (hq : F.Core) (hr : F.Revokes) :
    Each (Acts F) (tokensRevokeBySession ctx sid) :=
  each_repo hq.other fun _ _ h => Option.some.inj h ▸ hr.tokens _

theorem each_sessionsFindByID (hq : F.Core) : Each (Acts F) (sessionsFindByID ctx sid) :=
  each_query hq.other

theorem each_killFamily {detail : String} (hq : F.Calm) (hr : F.Revokes) :
    Each (Acts F) (killFamily env ctx rt sid ip detail) := by
  refine each_bind (each_bind (each_attempt (each_sessionsFindByID hq)) fun r => ?_) fun sess =>
    each_bind (each_ignore (each_sessionsRevokeByID hq hr)) fun _ =>
      each_bind (each_ignore (each_tokensRevokeBySession hq hr)) fun _ =>
        each_bind (each_denylistSession hq) fun _ => each_bind (each_record hq) fun _ =>
          each_doIf (each_notifySecurityAsync hq)
  rcases r with _ | _ <;> trivial

theorem each_handleTokenReuse {detail : String} (hq : F.Calm) (hr : F.Revokes) :
    Each (Acts F) (handleTokenReuse env ctx rt ip detail) := by
  unfold handleTokenReuse
  split
  · exact each_killFamily hq hr
  · exact each_bind (each_ignore (each_tokensRevokeAllForUser hq hr)) fun _ => each_record hq

/-! ## Refresh -/

theorem each_checkFamily (hq : F.Calm) (hr : F.Revokes) :
    Each (Acts F) (checkFamily env ctx rt ip) := by
  unfold checkFamily
  split
  · trivial
  · refine each_bind (each_wrap (each_sessionsFindByID hq)) fun sess => ?_
    rcases sess with _ | sess
    · trivial
    · exact each_bind (each_getNow hq.other) fun _ => each_refuseAfter (each_handleTokenReuse hq hr)

/-- The compare-and-set on refresh tokens. -/
structure Footprint.Consumes (F : Footprint) : Prop where
  label : ∀ id, F.label (.tokenRevoke id)
  stmt : ∀ id, F.stmt (.casToken id)

theorem each_tokensRevoke {id : Nat} (hc : F.Consumes) : Each (Acts F) (tokensRevoke ctx id) := by
  refine each_repo (hc.label id) fun db s h => ?_
  split at h
  · exact Option.some.inj h ▸ hc.stmt id
  · simp at h

theorem each_consumeToken (hq : F.Calm) (hr : F.Revokes) (hc : F.Consumes) :
    Each (Acts F) (consumeToken env ctx rt ip) := by
  refine each_bind (each_attempt (each_tokensRevoke hc)) fun r => ?_
  split
  · trivial
  · exact each_bind (each_handleTokenReuse hq hr) fun _ => trivial
  · trivial

theorem each_rotate {user : User} (hq : F.Calm) (hr : F.Revokes) (hc : F.Consumes)
    (hi : F.Issues user) : Each (Acts F) (rotate env ctx rt user ip ua) :=
  each_bind (each_checkFamily hq hr) fun _ => each_bind (each_consumeToken hq hr hc) fun _ =>
    each_bind (each_issueTokenPair hq hi) fun _ => each_bind (each_record hq) fun _ => trivial

theorem each_refreshAudited {t : Uuid} (hq : F.Calm) (hr : F.Revokes) (hc : F.Consumes)
    (hi : ∀ user, F.Issues user) : Each (Acts F) (refreshAudited env ctx t ip ua) := by
  refine each_bind (each_wrap (each_query hq.other)) fun rt => ?_
  rcases rt with _ | rt
  · trivial
  refine each_bind (each_refuseAfter (each_handleTokenReuse hq hr)) fun _ =>
    each_bind (each_getNow hq.other) fun _ =>
      each_bind (each_refuseAfter (each_ignore (each_tokensRevoke hc))) fun _ =>
        each_bind (each_usersFindByID hq) fun user => ?_
  rcases user with _ | user
  · trivial
  · exact each_bind (each_refuse _ _) fun _ => each_rotate hq hr hc (hi user)

/-! ## Logout -/

theorem each_endFamily (hq : F.Core) (hr : F.Revokes) : Each (Acts F) (endFamily env ctx rt) := by
  unfold endFamily
  split
  · trivial
  · refine each_bind (each_attempt (each_sessionsFindByID hq)) fun r => ?_
    rcases r with _ | sess
    · trivial
    · exact each_bind (each_ignore (each_sessionsRevokeByID hq hr)) fun _ =>
        each_bind (each_ignore (each_tokensRevokeBySession hq hr)) fun _ => each_denylistSession hq

theorem each_logoutActive (hq : F.Calm) (hr : F.Revokes) (hc : F.Consumes) :
    Each (Acts F) (logoutActive env ctx rt jti ip) := by
  refine each_bind (each_bind (each_attempt (each_tokensRevoke hc)) fun r => ?_) fun _ =>
    each_bind (each_endFamily hq hr) fun _ => each_bind (each_record hq) fun _ =>
      each_doIf (each_record hq)
  split <;> trivial

theorem each_revokeCaller (hq : F.Core) (ha : ∀ r, F.stmt (.insertAccessRevocation r)) :
    Each (Acts F) (revokeCaller ctx jti) := by
  rcases jti with _ | jti
  · trivial
  · refine each_bind (each_getNow hq.other) fun _ =>
      each_bind (each_attempt (each_revokeAccess hq ha)) fun r => ?_
    rcases r with _ | _ <;> trivial

theorem each_logoutAudited {t : Uuid} (hq : F.Calm) (hr : F.Revokes) (hc : F.Consumes)
    (ha : ∀ r, F.stmt (.insertAccessRevocation r)) :
    Each (Acts F) (logoutAudited env ctx t jti ip) := by
  refine each_bind (each_revokeCaller hq ha) fun _ => each_bind (each_denylistAccessToken hq)
    fun _ => each_bind (each_wrap (each_query hq.other)) fun rt => ?_
  split
  · exact each_doIf (each_record hq)
  · exact each_logoutActive hq hr hc

theorem each_logoutAllAudited (hq : F.Calm) (hr : F.Revokes)
    (hb : F.stmt (.updateUser ctx userID .bumpPwdVersion)) :
    Each (Acts F) (logoutAllAudited ctx userID ip) :=
  each_bind (each_tokensRevokeAllForUser hq hr) fun _ =>
    each_bind (each_sessionsRevokeAllForUser hq hr) fun _ =>
      each_bind (each_wrap (each_bumpPwdVersion hq hb)) fun _ => each_record hq

theorem each_revokeSessionAudited (hq : F.Calm) (hr : F.Revokes) :
    Each (Acts F) (revokeSessionAudited env ctx sid userID ip) := by
  refine each_bind (each_wrap (each_sessionsFindByID hq)) fun sess => ?_
  split
  · trivial
  · refine each_bind (each_bind (each_attempt (each_sessionsRevokeByID hq hr)) fun r => ?_) fun _ =>
      each_bind (each_wrap (each_tokensRevokeBySession hq hr)) fun _ =>
        each_bind (each_denylistSession hq) fun _ => each_record hq
    split <;> trivial

/-! ## Mailed tokens -/

theorem each_throttle {k : StoreKey} {max window : Nat} {applies : Bool} {e : AuditLog}
    (hq : F.Calm) (hk : F.key k) : Each (Acts F) (throttle ctx k max window applies e) :=
  each_doIf (each_bind (each_storeIncrBy hq.other hk) fun _ => each_refuseAfter (each_record hq))

theorem each_usersFindByEmail {email : String} (hq : F.Core) :
    Each (Acts F) (usersFindByEmail env ctx email) :=
  each_query hq.other

/-! ## Single-use tokens and passwords -/

/-- The two guards of a single-use token. -/
structure Footprint.Spends (F : Footprint) (jti : Uuid) : Prop where
  key : F.key (.jti jti)
  isUsed : F.label (.isUsed jti)
  markUsed : F.label (.markUsed jti)
  insert : ∀ t, t.jti = jti → F.stmt (.insertUsedToken t)

theorem each_spendToken {jti : Uuid} (hq : F.Core) (hs : F.Spends jti) :
    Each (Acts F) (spendToken claims jti userID) :=
  each_bind (each_getNow hq.other) fun _ =>
    each_bind (each_consumeSingleUseToken hq hs.key hs.isUsed) fun _ =>
      each_bind (each_refuse _ _) fun _ => each_markTokenDurable hs.markUsed (hs.insert _ rfl)

theorem each_resetPasswordWith {jti : Uuid} (hq : F.Calm) (hs : F.Spends jti)
    (hl : F.label (.credentialChange claims.userID (some jti)))
    (hc : ∀ hashed, F.stmt (.credentialChange ctx claims.userID hashed)) :
    Each (Acts F) (resetPasswordWith env ctx claims jti pw ip) := by
  refine each_bind_usersFindByID hq ?_ fun user hid => ?_
  · trivial
  · rw [← hid] at hl hc
    exact each_bind each_checkNewPassword fun _ => each_bind (each_spendToken hq hs) fun _ =>
      each_bind (each_hashPassword hq) fun _ =>
        each_bind (each_applyCredentialChange hq hl (hc _)) fun _ => each_record hq

theorem each_verifyEmailWith {jti : Uuid} (hq : F.Calm) (hs : F.Spends jti)
    (hl : F.label (.emailVerified claims.userID (some jti)))
    (hu : F.stmt (.updateUser ctx claims.userID (.emailVerified true))) :
    Each (Acts F) (verifyEmailWith ctx claims jti) := by
  refine each_bind_usersFindByID hq ?_ fun user hid => ?_
  · trivial
  · rw [← hid] at hl hu
    exact each_bind (each_spendToken hq hs) fun _ =>
      each_bind (each_usersUpdate hl hu) fun _ => each_record hq

theorem each_resetPasswordAudited {t : Token} (hq : F.Calm) (hs : ∀ jti, F.Spends jti)
    (hl : ∀ id jti, F.label (.credentialChange id jti))
    (hc : ∀ ctx id hashed, F.stmt (.credentialChange ctx id hashed)) :
    Each (Acts F) (resetPasswordAudited env ctx t pw ip) := by
  refine each_bind (each_jwtVerifyAs hq) fun claims => ?_
  split
  · trivial
  · exact each_resetPasswordWith hq (hs _) (hl _ _) (hc _ _)

theorem each_setPasswordAudited (hq : F.Calm)
    (hf : ∀ hashed, hashed ≠ "" → F.stmt (.updateUser ctx userID (.firstPassword hashed)))
    (hb : F.stmt (.updateUser ctx userID .bumpPwdVersion)) :
    Each (Acts F) (setPasswordAudited env ctx userID pw ip) := by
  refine each_bind_usersFindByID hq ?_ fun user hid => ?_
  · trivial
  rw [← hid] at hf hb
  refine each_bind (each_refuse _ _) fun _ => each_bind each_checkNewPassword fun _ =>
    each_bind_returns (each_hashPassword hq) returns_hashPassword fun hashed hne => each_bind ?_
      fun _ => each_bind (each_refuse _ _) fun _ => each_bind (each_bumpPwdVersion hq hb) fun _ =>
        each_record hq
  refine each_repo hq.other fun db s h => ?_
  split at h
  · exact Option.some.inj h ▸ hf _ hne
  · simp at h

theorem each_changePasswordAudited {old new : String} (hq : F.Calm)
    (hp : ∀ u, F.label (.comparePassword u)) (hl : F.label (.credentialChange userID none))
    (hc : ∀ hashed, F.stmt (.credentialChange ctx userID hashed)) :
    Each (Acts F) (changePasswordAudited env ctx userID old new ip) := by
  refine each_bind_usersFindByID hq ?_ fun user hid => ?_
  · trivial
  · rw [← hid] at hl hc
    exact each_bind (each_comparePassword (hp user)) fun _ => each_bind (each_refuse _ _) fun _ =>
      each_bind each_checkNewPassword fun _ => each_bind (each_hashPassword hq) fun _ =>
        each_bind (each_applyCredentialChange hq hl (hc _)) fun _ => each_record hq

/-! ## Accounts -/

theorem each_containUser (hq : F.Core) (hr : F.Revokes)
    (hb : F.stmt (.updateUser ctx userID .bumpPwdVersion)) :
    Each (Acts F) (containUser ctx userID) :=
  each_bind (each_ignore (each_tokensRevokeAllForUser hq hr)) fun _ =>
    each_bind (each_ignore (each_sessionsRevokeAllForUser hq hr)) fun _ =>
      each_ignore (each_bumpPwdVersion hq hb)

theorem each_verifySudoOrPassword {user : User} {t : Option Token} {password : String}
    (hq : F.Core) (hp : F.label (.comparePassword user)) :
    Each (Acts F) (verifySudoOrPassword env user t password) :=
  each_bind (each_sudoProven hq) fun _ => each_ite trivial (each_bind (each_refuse _ _) fun _ =>
    each_bind (each_comparePassword hp) fun _ => each_refuse _ _)

end FinnAuth
