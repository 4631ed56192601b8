import FinnAuth.Footprint.Login

/-!
# Footprints of accounts, mails and ceremonies

The rest of the public calls: the account ceremonies of `Service/Account.lean`, the calls that send
tokens by mail, the two passkey ceremonies, and linking and unlinking of Google accounts.
-/

namespace FinnAuth

open Lib Prog

variable {α : Type} {F : Footprint} {env : Env} {ctx : Ctx} {userID : UserID} {user : User}
  {ip ua : String}

/-! ## Email changes -/

variable {email password : String} {jti : Option Uuid} {t : Option Token} {a : Assertion}

theorem each_changeEmailThrottle (hq : F.Quiet) :
    Each (Acts F) (changeEmailThrottle env ctx user ip) :=
  each_bind (each_throttle hq (hq.key _ rfl)) fun _ =>
    each_bind (each_throttle hq (hq.key _ rfl)) fun _ => each_throttle hq (hq.key _ rfl)

theorem within_stageChangeEmail {newEmail : String} (hq : F.Quiet)
    (hk : ∀ t, F.key (.changeEmail t))
    (hm : ∀ t, F.mail (.emailVerification newEmail (.changeEmail t))) :
    Within F (stageChangeEmail ctx user newEmail) := by
  refine within_bind (within_of_each (each_draw hq.other)) fun t => ?_
  refine within_bind (within_of_each (each_storeSet hq.other (hk t))) fun _ => ?_
  refine within_bind (within_admitBeforeExternal hq) fun _ => within_of_each ?_
  exact each_bind (each_ignore (each_notify hq.other (hm t))) fun _ =>
    each_ignore (each_notify hq.other (hq.mail _ rfl))

theorem within_requestChangeEmail {password newEmail : String} (hq : F.Quiet)
    (hp : ∀ u, F.label (.comparePassword u)) (hk : ∀ t, F.key (.changeEmail t))
    (hm : ∀ e t, F.mail (.emailVerification e (.changeEmail t))) :
    Within F (requestChangeEmail env ctx userID password newEmail ip) := by
  refine within_bind (within_of_each (each_usersFindByID hq)) fun user => ?_
  rcases user with _ | user
  · exact within_of_each (each_fail _)
  have hpre : Each (Acts F) (comparePassword env user password) := each_comparePassword (hp user)
  refine within_bind (within_of_each hpre) fun _ => ?_
  refine within_bind (within_of_each (each_refuse _ _)) fun _ => ?_
  refine within_bind (within_of_each (each_refuse _ _)) fun _ => ?_
  refine within_bind (within_of_each (each_changeEmailThrottle hq)) fun _ => ?_
  refine within_bind (within_of_each (each_refuse _ _)) fun _ => ?_
  refine within_bind (within_of_each (each_usersFindByEmail hq)) fun _ => ?_
  refine within_bind (within_of_each (each_refuse _ _)) fun _ => ?_
  exact within_stageChangeEmail hq hk (hm _)

theorem each_applyChangeEmail {uid : UserID} {old new : String} (hq : F.Quiet) (hr : F.Revokes)
    (he : ∀ e v, F.stmt (.updateUser ctx uid (.email e v)))
    (hb : F.stmt (.updateUser ctx uid .bumpPwdVersion)) :
    Each (Acts F) (applyChangeEmail env ctx uid old new ip) := by
  refine each_bind (each_usersFindByEmail hq) fun _ => each_bind (each_refuse _ _) fun _ =>
    each_bind_usersFindByID hq ?_ fun user hid => ?_
  · trivial
  · rw [← hid] at he
    exact each_bind (each_usersUpdateUnique hq.other (he _ _)) fun _ =>
      each_bind (each_containUser hq hr hb) fun _ =>
        each_bind (each_ignore (each_notify hq.other (hq.mail _ rfl))) fun _ => each_record hq

/-! ## Leaving -/

theorem each_deactivateAccountAudited (hq : F.Quiet) (hr : F.Revokes)
    (hp : ∀ u, F.label (.comparePassword u)) (hd : F.stmt (.updateUser ctx userID .deactivate))
    (hb : F.stmt (.updateUser ctx userID .bumpPwdVersion)) :
    Each (Acts F) (deactivateAccountAudited env ctx userID t password jti ip) := by
  refine each_bind (each_usersFindByID hq) fun user => ?_
  rcases user with _ | user
  · trivial
  · exact each_bind (each_verifySudoOrPassword hq (hp user)) fun _ =>
      each_bind (each_usersUpdate hq.other hd) fun _ => each_bind (each_containUser hq hr hb)
        fun _ => each_bind (each_denylistAccessToken hq) fun _ => each_bind (each_record hq)
          fun _ => each_ignore (each_notify hq.other (hq.mail _ rfl))

/-- What an erasure removes besides the row. -/
structure Footprint.Forgets (F : Footprint) : Prop where
  factors : F.Factors
  passkeys : F.Passkeys
  identities : ∀ p, F.stmt (.deleteIdentities p)
  audit : ∀ ctx id, F.stmt (.anonymizeAudit ctx id)

theorem each_eraseFactors (hq : F.Basic) (hf : F.Forgets) :
    Each (Acts F) (eraseFactors ctx userID) := by
  have hall {p : PasskeyCredential → Bool} : F.stmt (.revokePasskeys p) := hf.passkeys.revoke p
  refine each_bind (each_ignore (each_totpDisable hq (hf.factors.disableDevice _))) fun _ =>
    each_bind (each_ignore (each_totpReplaceRecoveryCodes hq (hf.factors.replaceCodes _ _)))
      fun _ => each_bind (each_ignore (each_ownedWrite hq.other fun _ => hall)) fun _ => ?_
  refine each_bind (each_ignore (each_repo hq.other fun db s h => ?_)) fun _ =>
    each_ignore (each_repo hq.other fun db s h => ?_)
  · exact Option.some.inj h ▸ hf.identities _
  · exact Option.some.inj h ▸ hf.audit _ _

theorem each_eraseAccountAudited (hq : F.Quiet) (hr : F.Revokes) (hf : F.Forgets)
    (hp : ∀ u, F.label (.comparePassword u))
    (he : ∀ e n, F.stmt (.updateUser ctx userID (.erase e n)))
    (hb : F.stmt (.updateUser ctx userID .bumpPwdVersion)) :
    Each (Acts F) (eraseAccountAudited env ctx userID t password jti ip) := by
  refine each_bind_usersFindByID hq ?_ fun user hid => ?_
  · trivial
  · rw [← hid] at he
    exact each_bind (each_verifySudoOrPassword hq (hp user)) fun _ =>
      each_bind (each_draw hq.other) fun _ =>
        each_bind (each_usersUpdateUnique hq.other (he _ _)) fun _ =>
          each_bind (each_eraseFactors hq hf) fun _ => each_bind (each_containUser hq hr hb)
            fun _ => each_bind (each_denylistAccessToken hq) fun _ => each_bind (each_record hq)
              fun _ => each_ignore (each_notify hq.other (hq.mail _ rfl))

/-! ## Mailed tokens -/

theorem within_forgotPassword (hq : F.Quiet) (hs : ∀ c, c.type = .reset → F.label (.sign c))
    (hm : ∀ e t, F.mail (.passwordReset e t)) : Within F (forgotPassword env ctx email) := by
  refine within_bind (within_admitBeforeExternal hq) fun _ =>
    within_bind (within_of_each (each_wrap (each_usersFindByEmail hq))) fun user => ?_
  rcases user with _ | user
  · exact within_of_each (each_ret _)
  · exact within_of_each (each_bind (each_jwtIssue hq fun c _ h => hs c h) fun t =>
      each_wrap (each_notify hq.other (hm _ t)))

theorem within_resendIssue (hq : F.Quiet) (hs : ∀ c, c.type = .emailVerify → F.label (.sign c))
    (hm : ∀ e t, F.mail (.emailVerification e (.jwt t))) :
    Within F (resendIssue env ctx email) := by
  refine within_bind (within_admitBeforeExternal hq) fun _ =>
    within_bind (within_of_each (each_wrap (each_usersFindByEmail hq))) fun user => ?_
  split
  · exact within_of_each (each_ret _)
  · exact within_of_each (each_bind (each_jwtIssue hq fun c _ h => hs c h) fun t =>
      each_wrap (each_notify hq.other (hm _ t)))

theorem within_resendVerifyEmail (hq : F.Quiet)
    (hs : ∀ c, c.type = .emailVerify → F.label (.sign c))
    (hm : ∀ e t, F.mail (.emailVerification e (.jwt t))) :
    Within F (resendVerifyEmail env ctx email ip) := by
  have ht : ∀ {k max window applies e}, k.plain = true →
      Within F (throttle ctx k max window applies e) :=
    fun hk => within_of_each (each_throttle hq (hq.key _ hk))
  refine within_bind (ht rfl) fun _ => within_bind (ht rfl) fun _ => ?_
  split
  · exact within_admitBeforeExternal hq
  · exact within_bind (ht rfl) fun _ => within_resendIssue hq hs hm

theorem each_registerAudited {i : RegisterInput} (hq : F.Quiet)
    (hu : ∀ u, u.password ≠ "" → F.stmt (.insertUser u))
    (hs : ∀ c, c.type = .emailVerify → F.label (.sign c))
    (hm : ∀ e t, F.mail (.emailVerification e (.jwt t))) :
    Each (Acts F) (registerAudited env ctx i) := by
  refine each_bind (each_refuse _ _) fun _ => each_bind (each_refuse _ _) fun _ =>
    each_bind (each_registerCount hq) fun _ => each_bind (each_refuse _ _) fun _ =>
      each_bind (each_refuse _ _) fun _ =>
        each_bind (each_wrap (each_usersFindByEmail hq)) fun existing => ?_
  rcases existing with _ | existing
  · refine each_bind (each_wrap (each_query hq.other)) fun existing => ?_
    rcases existing with _ | existing
    · refine each_bind_returns (each_hashPassword hq) returns_hashPassword fun hashed hne =>
        each_bind (each_draw hq.other) fun _ =>
          each_bind (each_attempt (each_usersCreate hq (hu _ hne))) fun r => ?_
      split
      · exact each_bind (each_record hq) fun _ => each_bind
          (each_sendVerification hq (fun c _ h => hs c h) (hm _)) fun _ => each_ret _
      · exact each_handleDuplicateRegistration hq
      · exact each_fail _
    · exact each_handleDuplicateRegistration hq
  · exact each_handleDuplicateRegistration hq

/-! ## Google accounts -/

theorem each_oauthBeginLogin (hq : F.Basic) (hk : ∀ st, F.key (.oauthState st)) :
    Each (Acts F) (oauthBeginLogin env) :=
  each_bind (each_draw hq.other) fun _ => each_bind (each_draw hq.other) fun _ =>
    each_bind (each_storeSetNX hq.other (hk _)) fun _ => each_bind (each_refuse _ _) fun _ =>
      each_ret _

theorem each_findOrCreateUser {claims : GoogleIDTokenClaims} (hq : F.Quiet)
    (hu : ∀ u, F.stmt (.insertUser u)) (hi : ∀ i, F.stmt (.insertIdentity i)) :
    Each (Acts F) (findOrCreateUser env ctx claims email ip) := by
  refine each_bind (each_wrap (each_query hq.other)) fun ident => ?_
  rcases ident with _ | ident
  · refine each_bind ?_ fun user => each_bind (each_linkIdentity hq fun i _ => hi i) fun _ =>
      each_ret _
    refine each_bind (each_wrap (each_usersFindByEmail hq)) fun existing => ?_
    rcases existing with _ | existing
    · exact each_bind (each_wrap (each_query hq.other)) fun _ => each_bind (each_draw hq.other)
        fun _ => each_bind (each_draw hq.other) fun _ =>
          each_mapDuplicateKey (each_usersCreate hq (hu _))
    · exact each_bind (each_refuse _ _) fun _ => each_ret _
  · refine each_bind (each_wrap (each_usersFindByID hq)) fun user => ?_
    rcases user with _ | user
    · exact each_fail _
    · exact each_ret _

theorem each_handleCallbackAudited {reply : GoogleReply} {state : Option Uuid} (hq : F.Quiet)
    (hk : ∀ st, F.key (.oauthState st)) (hu : ∀ u, F.stmt (.insertUser u))
    (hl : ∀ i, F.stmt (.insertIdentity i)) (hi : ∀ user, F.Issues user)
    (hs : ∀ c, c.type = .mfaPending → F.label (.sign c)) :
    Each (Acts F) (handleCallbackAudited env ctx reply state ip ua) :=
  each_bind (each_consumeState hq hk) fun _ => each_bind each_verifiedClaims fun _ =>
    each_bind (each_findOrCreateUser hq hu hl) fun user => each_bind (each_refuse _ _) fun _ =>
      each_checkMFAOrIssueTokensAudited hq (hi user) fun c _ h => hs c h

theorem each_unlinkAudited {provider : String} (hq : F.Quiet)
    (hd : ∀ p, F.stmt (.deleteIdentities p)) :
    Each (Acts F) (unlinkAudited ctx userID provider ip) := by
  refine each_bind (each_query hq.other) fun ident => ?_
  rcases ident with _ | ident
  · exact each_fail _
  refine each_bind (each_usersFindByID hq) fun user => ?_
  rcases user with _ | user
  · exact each_fail _
  refine each_bind (each_bind (each_attempt (each_query hq.other)) fun r => ?_) fun _ =>
    each_bind (each_refuse _ _) fun _ =>
      each_bind (each_repo hq.other fun db s h => ?_) fun _ => each_bind (each_record hq) fun _ =>
        each_ignore (each_notify hq.other (hq.mail _ rfl))
  · rcases r with _ | _ <;> exact each_ret _
  · exact Option.some.inj h ▸ hd _

/-! ## Passkey ceremonies -/

theorem each_stageChallenge {k : StoreKey} (hq : F.Basic) (hk : F.key k) :
    Each (Acts F) (stageChallenge env k) :=
  each_bind (each_draw hq.other) fun _ => each_bind (each_storeSet hq.other hk) fun _ => each_ret _

theorem each_passkeyBeginRegistration (hq : F.Basic) (hk : F.key (.passkeyReg userID)) :
    Each (Acts F) (passkeyBeginRegistration env ctx userID) :=
  each_bind (each_loadUser hq) fun _ => each_stageChallenge hq hk

theorem each_passkeyBeginAuthentication (hq : F.Basic) (hk : F.key (.passkeyAuth userID)) :
    Each (Acts F) (passkeyBeginAuthentication env ctx userID) :=
  each_bind (each_loadUser hq) fun _ => each_bind (each_refuse _ _) fun _ =>
    each_stageChallenge hq hk

theorem each_passkeyFinishRegistrationAudited {name : String} (hq : F.Quiet)
    (hk : F.key (.passkeyReg userID)) (hp : ∀ c, F.stmt (.insertPasskey c)) :
    Each (Acts F) (passkeyFinishRegistrationAudited ctx userID a name ip) := by
  refine each_bind (each_takeChallenge hq hk) fun _ => each_bind (each_loadUser hq) fun _ =>
    each_bind (each_refuse _ _) fun _ => each_bind (each_draw hq.other) fun _ =>
      each_bind (each_repo hq.other fun db s h => ?_) fun _ => each_bind (each_record hq) fun _ =>
        each_ret _
  split at h
  · simp at h
  · split at h
    · simp at h
    · exact Option.some.inj h ▸ hp _

theorem each_passkeyRevokeAudited {id : Nat} (hq : F.Quiet) (hp : F.Passkeys) :
    Each (Acts F) (passkeyRevokeAudited ctx id userID) := by
  refine each_bind (each_bind (each_attempt (each_passkeysRevokeByID hq hp)) fun r => ?_) fun _ =>
    each_record hq
  rcases r with _ | _
  · exact each_fail _
  · exact each_ret _

theorem each_passkeyFinishAuthenticationAudited (hq : F.Quiet) (hk : F.key (.passkeyAuth userID))
    (hp : F.Passkeys) (hi : ∀ user, F.Issues user) :
    Each (Acts F) (passkeyFinishAuthenticationAudited env ctx userID a ip ua) := by
  refine each_bind (each_takeChallenge hq hk) fun c => each_bind (each_loadUser hq) fun u => ?_
  obtain ⟨user, rows⟩ := u
  simp only
  split
  · exact each_fail _
  · exact each_completeAuthentication hq hp (hi user)

/-! ## Everything but new sessions and new refresh tokens -/

/-- Any label, mail and key, and every statement but the two inserts that issue a pair. -/
def tame : Footprint where
  label _ := True
  stmt s := (∀ x, s ≠ .insertSession x) ∧ ∀ t, s ≠ .insertToken t
  mail _ := True
  key _ := True

theorem tame_quiet : tame.Quiet :=
  ⟨⟨trivial, fun _ => trivial, fun _ => trivial, fun _ _ => trivial⟩, fun _ => by simp [tame],
    fun _ _ => trivial⟩

theorem tame_revokes : tame.Revokes := ⟨fun _ => by simp [tame], fun _ => by simp [tame]⟩

theorem tame_consumes : tame.Consumes := ⟨fun _ => trivial, fun _ => by simp [tame]⟩

theorem tame_update (ctx : Ctx) (id : UserID) (w : UserWrite) :
    tame.stmt (.updateUser ctx id w) := by
  simp [tame]

theorem tame_factors : tame.Factors where
  insertDevice _ := by simp [tame]
  updateDevice _ := by simp [tame]
  disableDevice _ := by simp [tame]
  replaceCodes _ _ := by simp [tame]
  useCode _ _ := by simp [tame]

theorem tame_passkeys : tame.Passkeys where
  insert _ := by simp [tame]
  touch _ _ _ := by simp [tame]
  revoke _ := by simp [tame]

theorem tame_forgets : tame.Forgets where
  factors := tame_factors
  passkeys := tame_passkeys
  identities _ := by simp [tame]
  audit _ _ := by simp [tame]

theorem tame_spends (jti : Uuid) : tame.Spends jti :=
  ⟨trivial, trivial, trivial, fun _ _ => by simp [tame]⟩

end FinnAuth
