import FinnAuth.Api
import FinnAuth.Footprint.Account
import FinnAuth.Service.Admin
import FinnAuth.Users

/-!
# What each public call may write

One table for the whole service: the kinds of statements a call can hand over, the user whose row
it can write, and the store keys with authority it can touch. A property of whole runs that depends
on who writes what is read off this table; the text of the services is not looked at again.

Results:
* **`serve_reach`**, `admin_reach`: every call stays within its entry, down to the types of the
  tokens it signs and the mails that carry one;
* `serve_ran`, `admin_ran`: the same for the statements and keys alone.
-/

namespace FinnAuth

open Lib Prog

/-! ## Kinds of statements -/

variable {id : UserID} {s : Stmt}

/-- The statements by name; an update of a user row by the columns it sets. -/
inductive Kind : Type where
  | newUser | email | deactivate | erase | failedAttempt | resetFailed | bumpPwdVersion
  | firstPassword | emailVerified | credential | lock | suspend | bumpAuthEpoch
  | newSession | touchSession | revokeSessions
  | newToken | casToken | revokeTokens | usedToken
  | newDevice | updateDevice | disableDevice | replaceCodes | useCode
  | newIdentity | deleteIdentities | newPasskey | touchPasskey | revokePasskeys
  | accessRevocation | audit | anonymize
  deriving DecidableEq

def UserWrite.kind : UserWrite → Kind
  | .email _ _ => .email
  | .deactivate => .deactivate
  | .erase _ _ => .erase
  | .failedAttempt _ => .failedAttempt
  | .resetFailed => .resetFailed
  | .bumpPwdVersion => .bumpPwdVersion
  | .firstPassword _ => .firstPassword
  | .emailVerified _ => .emailVerified
  | .credential _ => .credential
  | .lock _ => .lock
  | .suspend => .suspend
  | .bumpAuthEpoch => .bumpAuthEpoch

def Stmt.kind : Stmt → Kind
  | .insertUser _ => .newUser
  | .updateUser _ _ w => w.kind
  | .credentialChange _ _ _ => .credential
  | .insertSession _ => .newSession
  | .touchSession _ _ _ _ _ _ _ => .touchSession
  | .revokeSessions _ => .revokeSessions
  | .insertToken _ => .newToken
  | .casToken _ => .casToken
  | .revokeTokens _ => .revokeTokens
  | .insertUsedToken _ => .usedToken
  | .insertDevice _ => .newDevice
  | .updateDevice _ => .updateDevice
  | .disableDevice _ => .disableDevice
  | .replaceCodes _ _ => .replaceCodes
  | .useCode _ _ => .useCode
  | .insertIdentity _ => .newIdentity
  | .deleteIdentities _ => .deleteIdentities
  | .insertPasskey _ => .newPasskey
  | .touchPasskey _ _ _ => .touchPasskey
  | .revokePasskeys _ => .revokePasskeys
  | .insertAccessRevocation _ => .accessRevocation
  | .insertAudit _ => .audit
  | .anonymizeAudit _ _ => .anonymize
  | .suspend _ _ => .suspend
  | .assignRole _ _ _ => .bumpAuthEpoch

/-- The write to a user row has the kind of its statement. -/
theorem kind_of_userWrite {ctx : Ctx} {w : UserWrite} (h : s.userWrite? = some (ctx, id, w)) :
    w.kind = s.kind := by
  cases s with
  | updateUser => cases h; rfl
  | credentialChange => cases h; rfl
  | suspend c i => cases h; rfl
  | assignRole => cases h; rfl
  | _ => cases h

/-! ## The table -/

/-- The statements behind a new pair. -/
def issueKinds : List Kind := [.newSession, .touchSession, .newToken]

def factorKinds : List Kind :=
  [.newDevice, .updateDevice, .disableDevice, .replaceCodes, .useCode]

def passkeyKinds : List Kind := [.newPasskey, .touchPasskey, .revokePasskeys]

def revokeKinds : List Kind := [.revokeSessions, .revokeTokens]

/-- What a call may write, besides its evidence. -/
def Request.kinds : Request → List Kind
  | .register _ => [.newUser]
  | .login .. => .failedAttempt :: .resetFailed :: issueKinds
  | .completeMFALogin .. => factorKinds ++ issueKinds
  | .refresh .. => .casToken :: revokeKinds ++ issueKinds
  | .logout .. => .accessRevocation :: .casToken :: revokeKinds
  | .logoutAll .. => .bumpPwdVersion :: revokeKinds
  | .revokeSession .. => revokeKinds
  | .resetPassword .. => [.usedToken, .credential]
  | .verifyEmail _ => [.usedToken, .emailVerified]
  | .changePassword .. => [.credential]
  | .setPassword .. => [.firstPassword, .bumpPwdVersion]
  | .confirmChangeEmail .. => .email :: .bumpPwdVersion :: revokeKinds
  | .deactivateAccount .. => .deactivate :: .bumpPwdVersion :: revokeKinds
  | .eraseAccount .. => .erase :: .bumpPwdVersion :: .deleteIdentities :: .anonymize ::
      factorKinds ++ passkeyKinds ++ revokeKinds
  | .totpEnable .. => factorKinds
  | .totpVerifyEnable .. => factorKinds
  | .totpValidate .. => factorKinds
  | .totpViewRecoveryCodes .. => factorKinds
  | .totpRegenerateRecoveryCodes _ => factorKinds
  | .totpDisable .. => .bumpPwdVersion :: factorKinds
  | .handleCallback .. => .newUser :: .newIdentity :: issueKinds
  | .unlink .. => [.deleteIdentities]
  | .passkeyFinishRegistration .. => passkeyKinds
  | .passkeyFinishAuthentication .. => passkeyKinds ++ issueKinds
  | .passkeyRevoke .. => passkeyKinds
  | .forgotPassword _ | .resendVerifyEmail .. | .requestChangeEmail .. | .oauthBeginLogin
  | .passkeyBeginRegistration _ | .passkeyBeginAuthentication _ => []

/-- The call may hand over statements of the kind. -/
def Request.may (r : Request) (k : Kind) : Bool := k = .audit || k ∈ r.kinds

/-- The token `t` was signed for the user. -/
def World.signedFor (w : World) (t : Token) (u : UserID) : Prop :=
  ∃ c, w.signed[t]? = some c ∧ c.userID = u

/-- The store holds a change of the user's email under the token `t`. -/
def World.stagedFor (w : World) (t : Option Uuid) (u : UserID) : Prop :=
  ∃ k payload old new, t = some k ∧ w.store.live w.now (.changeEmail k) = some (.str payload) ∧
    parsePayload payload = some (u, old, new)

/-- The user whose row a call may write. -/
def Request.writesTo (w : World) : Request → UserID → Prop
  | .logoutAll v _, u => v = u
  | .resetPassword t _ _, u => w.signedFor t u
  | .verifyEmail t, u => w.signedFor t u
  | .changePassword v _ _ _, u => v = u
  | .setPassword v _ _, u => v = u
  | .confirmChangeEmail t _, u => w.stagedFor t u
  | .deactivateAccount v _ _ _ _, u => v = u
  | .eraseAccount v _ _ _ _, u => v = u
  | .totpDisable v _ _ _, u => v = u
  | _, _ => True

/-- The keys with authority a call may touch. -/
def Request.touches : Request → StoreKey → Prop
  | .resetPassword .., k => ∃ id, k = .jti id
  | .verifyEmail _, k => ∃ id, k = .jti id
  | .requestChangeEmail .., k => ∃ t, k = .changeEmail t
  | .confirmChangeEmail t _, k => ∃ u, t = some u ∧ k = .changeEmail u
  | .oauthBeginLogin, k => ∃ st, k = .oauthState st
  | .handleCallback .., k => ∃ st, k = .oauthState st
  | .passkeyBeginRegistration u, k => k = .passkeyReg u
  | .passkeyFinishRegistration u _ _ _, k => k = .passkeyReg u
  | .passkeyBeginAuthentication u, k => k = .passkeyAuth u
  | .passkeyFinishAuthentication u _ _ _, k => k = .passkeyAuth u
  | _, _ => False

/-- The entry of a call that is made in the state `w`. -/
def Request.footprint (w : World) (r : Request) : Footprint where
  label _ := True
  stmt s := r.may s.kind = true ∧
    ∀ ctx id x, s.userWrite? = some (ctx, id, x) → r.writesTo w id
  mail _ := True
  key k := k.plain = true ∨ r.touches k

/-- The types of the tokens a call may sign. -/
def Request.signs : Request → List TokenType
  | .register _ | .resendVerifyEmail .. => [.emailVerify]
  | .forgotPassword _ => [.reset]
  | .login .. | .handleCallback .. => [.access, .mfaPending]
  | .completeMFALogin .. | .refresh .. | .passkeyFinishAuthentication .. => [.access]
  | .totpViewRecoveryCodes .. => [.sudo]
  | _ => []

/-- The mails with a token that a call may send. -/
def Request.sends : Request → Mail → Bool
  | .register _, .emailVerification _ (.jwt _) => true
  | .resendVerifyEmail .., .emailVerification _ (.jwt _) => true
  | .forgotPassword _, .passwordReset _ _ => true
  | .requestChangeEmail .., .emailVerification _ (.changeEmail _) => true
  | _, _ => false

/-- The entry of a call, down to the tokens it issues and sends. -/
def Request.reach (w : World) (r : Request) : Footprint where
  label l := ∀ c, l = .sign c → c.type ∈ r.signs
  stmt := (r.footprint w).stmt
  mail m := m.token? = none ∨ r.sends m = true
  key := (r.footprint w).key

def AdminRequest.kinds : AdminRequest → List Kind
  | .lockUser .. => [.lock]
  | .unlockUser .. => [.lock]
  | .forceLogout .. => .bumpPwdVersion :: revokeKinds
  | .suspend _ => [.suspend]
  | .assignRoleToUser .. => [.bumpAuthEpoch]

def AdminRequest.may (a : AdminRequest) (k : Kind) : Bool := k = .audit || k ∈ a.kinds

/-- The user an administrative call is about. -/
def AdminRequest.target : AdminRequest → UserID
  | .lockUser _ u _ _ => u
  | .unlockUser _ u _ => u
  | .forceLogout _ u _ => u
  | .suspend u => u
  | .assignRoleToUser u _ => u

def AdminRequest.footprint (a : AdminRequest) : Footprint where
  label _ := True
  stmt s := a.may s.kind = true ∧
    ∀ ctx id x, s.userWrite? = some (ctx, id, x) → id = a.target
  mail _ := True
  key k := k.plain = true

/-- The same for an administrative call, which issues nothing. -/
def AdminRequest.reach (a : AdminRequest) : Footprint where
  label l := ∀ c, l ≠ .sign c
  stmt := a.footprint.stmt
  mail m := m.token? = none
  key := a.footprint.key

/-! ## Every call stays within its entry -/

variable {α : Type} {env : Env} {ctx : Ctx} {w : World} {r : Request} {a : AdminRequest}
  {F : Footprint} {t : Token} {x : UserWrite}

theorem reach_stmt (hk : r.may s.kind = true) (hu : s.userWrite? = none) : (r.reach w).stmt s :=
  ⟨hk, fun _ _ _ h => by rw [hu] at h; cases h⟩

theorem reach_write (hk : r.may s.kind = true) (hu : s.userWrite? = some (ctx, id, x))
    (hw : r.writesTo w id) : (r.reach w).stmt s := by
  refine ⟨hk, fun _ _ _ h => ?_⟩
  rw [hu] at h
  cases h
  exact hw

theorem reach_label {l : Call} (h : ∀ c, l ≠ .sign c) : (r.reach w).label l :=
  fun c hc => absurd hc (h c)

theorem reach_sign {c : Claims} {type : TokenType} (hc : c.type = type) (h : type ∈ r.signs) :
    (r.reach w).label (.sign c) :=
  fun _ he => Call.sign.inj he ▸ hc ▸ h

theorem reach_quiet (r : Request) (w : World) : (r.reach w).Quiet :=
  ⟨⟨reach_label nofun, fun _ => reach_label nofun, fun _ => reach_label nofun, fun _ h => .inl h⟩,
    fun _ => reach_stmt rfl rfl, fun _ h => .inl h⟩

theorem reach_issues (hk : issueKinds.all r.may = true) (ha : .access ∈ r.signs) (user : User) :
    (r.reach w).Issues user := by
  have h := List.all_eq_true.1 hk
  exact ⟨fun _ _ hc _ => reach_sign hc ha, fun _ => reach_label nofun, fun _ _ => reach_label nofun,
    fun _ _ _ _ _ _ _ => reach_stmt (h .touchSession (by decide)) rfl,
    fun _ _ => reach_stmt (h .newSession (by decide)) rfl,
    fun _ _ => reach_stmt (h .newToken (by decide)) rfl, fun _ _ _ => .inl rfl⟩

theorem reach_revokes (hk : revokeKinds.all r.may = true) : (r.reach w).Revokes := by
  have h := List.all_eq_true.1 hk
  exact ⟨fun _ => reach_stmt (h .revokeSessions (by decide)) rfl,
    fun _ => reach_stmt (h .revokeTokens (by decide)) rfl⟩

theorem reach_factors (hk : factorKinds.all r.may = true) : (r.reach w).Factors := by
  have h := List.all_eq_true.1 hk
  exact ⟨fun _ => reach_stmt (h .newDevice (by decide)) rfl,
    fun _ => reach_stmt (h .updateDevice (by decide)) rfl,
    fun _ => reach_stmt (h .disableDevice (by decide)) rfl,
    fun _ _ => reach_stmt (h .replaceCodes (by decide)) rfl,
    fun _ _ => reach_stmt (h .useCode (by decide)) rfl⟩

theorem reach_passkeys (hk : passkeyKinds.all r.may = true) : (r.reach w).Passkeys := by
  have h := List.all_eq_true.1 hk
  exact ⟨fun _ => reach_stmt (h .newPasskey (by decide)) rfl,
    fun _ _ _ => reach_stmt (h .touchPasskey (by decide)) rfl,
    fun _ => reach_stmt (h .revokePasskeys (by decide)) rfl⟩

theorem run_noPair (p : M α) (w : World) : ((noPair p).run w).2 = (p.run w).2 := by
  rw [noPair, bind_def, run_bind]
  rcases p.run w with ⟨_ | _, _⟩ <;> rfl

/-- An audited call without a pair in its reply. -/
theorem ran_audited {p : M α} (h : Each (Acts F) p) :
    Ran F w ((noPair (runAuditOperation p)).run w).2 := by
  rw [run_noPair]
  exact ran_audit (within_of_each h _)

/-- The reset and verify-email calls work on the user their token was signed for. -/
theorem ran_signedFor {want : TokenType} {e : Err} {f : Claims → M α}
    (hf : ∀ c, w.signed[t]? = some c → Each (Acts F) (f c)) :
    Ran F w ((noPair (runAuditOperation (jwtVerifyAs env t want e >>= f))).run w).2 := by
  rw [run_noPair]
  refine ran_audit ?_
  have hwp : wp (jwtVerifyAs env t want e >>= f)
      (fun _ w' => Ran F { w with op := {} } w') { w with op := {} } :=
    wp_seq (wp_jwtVerifyAs (.refl _) fun c hc _ _ => within_of_each (hf c hc) _)
  exact hwp

theorem reach_spends {jti : Uuid} (hk : r.may .usedToken = true)
    (ht : r.touches (.jti jti)) : (r.reach w).Spends jti :=
  ⟨.inr ht, reach_label nofun, reach_label nofun, fun _ _ => reach_stmt hk rfl⟩

theorem ran_resetPassword {new ip : String} : Ran ((Request.resetPassword t new ip).reach w) w
      ((noPair (resetPassword env ctx t new ip)).run w).2 := by
  refine ran_signedFor fun c hc => ?_
  split
  · exact each_throw _
  · exact each_resetPasswordWith (reach_quiet (.resetPassword t new ip) w)
      (reach_spends rfl ⟨_, rfl⟩) (reach_label nofun) fun _ => reach_write rfl rfl ⟨c, hc, rfl⟩

theorem ran_verifyEmail :
    Ran ((Request.verifyEmail t).reach w) w ((noPair (verifyEmail env ctx t)).run w).2 := by
  refine ran_signedFor fun c hc => ?_
  split
  · exact each_throw _
  · exact each_verifyEmailWith (reach_quiet (.verifyEmail t) w) (reach_spends rfl ⟨_, rfl⟩)
      (reach_label nofun) (reach_write rfl rfl ⟨c, hc, rfl⟩)

/-- A confirmation works on the user its token is staged for. -/
theorem ran_confirmChangeEmail {t : Option Uuid} {ip : String} :
    Ran ((Request.confirmChangeEmail t ip).reach w) w
      ((noPair (confirmChangeEmail env ctx t ip)).run w).2 := by
  rw [run_noPair]
  refine ran_audit ?_
  cases t with
  | none => exact .refl _
  | some k =>
    have hq := reach_quiet (.confirmChangeEmail (some k) ip) w
    have hkey : ((Request.confirmChangeEmail (some k) ip).reach w).key (.changeEmail k) :=
      .inr ⟨k, rfl, rfl⟩
    have htake := within_of_each (each_storeTake hq.other hkey) { w with op := {} }
    have hwp : wp (confirmChangeEmailAudited env ctx (some k) ip) (fun _ w' =>
        Ran ((Request.confirmChangeEmail (some k) ip).reach w) { w with op := {} } w')
        { w with op := {} } := by
      refine wp_seq ?_
      have hwt : wp (storeTake (.changeEmail k)) (fun r w' =>
          r = .ok (w.store.live w.now (.changeEmail k)) ∧
            Ran ((Request.confirmChangeEmail (some k) ip).reach w) { w with op := {} } w')
          { w with op := {} } := by
        refine ⟨?_, htake⟩
        simp [storeTake, kv, kvAs, call]
      refine wp_mono hwt ?_
      rintro _ w₁ ⟨rfl, h₁⟩
      rw [thenWp_ok]
      split
      · rename_i payload hlive
        split
        · exact h₁
        · rename_i uid old new hparse
          have hto : (Request.confirmChangeEmail (some k) ip).writesTo w uid :=
            ⟨k, payload, old, new, rfl, hlive, hparse⟩
          refine h₁.trans (within_of_each (each_applyChangeEmail hq ?_ ?_ ?_) w₁)
          · exact reach_revokes rfl
          · exact fun _ _ => reach_write rfl rfl hto
          · exact reach_write rfl rfl hto
      · exact h₁
    exact hwp

theorem ran_serve_login {p : M α} {f : α → Option TokenPair} (h : Within F p) :
    Ran F w ((p >>= fun x => .ret (f x)).run w).2 :=
  within_bind h (fun _ => within_of_each (each_ret _)) w

/-- **Every public call stays within its entry of the table.** -/
theorem serve_reach (env : Env) (ctx : Ctx) (r : Request) (w : World) :
    Ran (r.reach w) w ((serve env ctx r).run w).2 := by
  have hq := reach_quiet r w
  have hk : ∀ k, r.touches k → (r.reach w).key k := fun _ h => .inr h
  have hl : ∀ {l}, (∀ c, l ≠ .sign c) → (r.reach w).label l := reach_label
  cases r with
  | register i =>
    exact ran_audited (each_registerAudited hq (fun _ _ => reach_stmt rfl rfl)
      (fun _ hc => reach_sign hc List.mem_cons_self) fun _ _ => .inr rfl)
  | login =>
    exact ran_serve_login (within_audit (within_of_each (each_loginAudited hq (fun _ => hl nofun)
      (fun _ _ => reach_write rfl rfl trivial) (fun _ => reach_write rfl rfl trivial)
      (reach_issues rfl List.mem_cons_self)
      fun _ hc => reach_sign hc (List.mem_cons_of_mem _ List.mem_cons_self))))
  | completeMFALogin =>
    exact ran_serve_login (within_bind (within_of_each (each_jwtVerifyAs hq)) fun _ =>
      within_audit (within_of_each (each_completeMFALoginAudited hq (reach_factors rfl)
        (reach_issues rfl List.mem_cons_self))))
  | refresh =>
    exact ran_serve_login (within_audit (within_of_each (each_refreshAudited hq
      (reach_revokes rfl) ⟨fun _ => hl nofun, fun _ => reach_stmt rfl rfl⟩
      (reach_issues rfl List.mem_cons_self))))
  | logout =>
    exact ran_audited (each_logoutAudited hq (reach_revokes rfl)
      ⟨fun _ => hl nofun, fun _ => reach_stmt rfl rfl⟩ fun _ => reach_stmt rfl rfl)
  | logoutAll =>
    exact ran_audited (each_logoutAllAudited hq (reach_revokes rfl)
      (reach_write rfl rfl rfl))
  | revokeSession => exact ran_audited (each_revokeSessionAudited hq (reach_revokes rfl))
  | forgotPassword =>
    rw [serve, run_noPair]
    exact within_forgotPassword hq (fun _ hc => reach_sign hc List.mem_cons_self)
      (fun _ _ => .inr rfl) w
  | resendVerifyEmail =>
    rw [serve, run_noPair]
    exact within_resendVerifyEmail hq (fun _ hc => reach_sign hc List.mem_cons_self)
      (fun _ _ => .inr rfl) w
  | resetPassword => exact ran_resetPassword
  | verifyEmail t => exact ran_verifyEmail
  | changePassword =>
    exact ran_audited (each_changePasswordAudited hq (fun _ => hl nofun) (hl nofun)
      fun _ => reach_write rfl rfl rfl)
  | setPassword =>
    exact ran_audited (each_setPasswordAudited hq (fun _ _ => reach_write rfl rfl rfl)
      (reach_write rfl rfl rfl))
  | requestChangeEmail =>
    rw [serve, run_noPair]
    exact within_requestChangeEmail hq (fun _ => hl nofun) (fun t => hk _ ⟨t, rfl⟩)
      (fun _ _ => .inr rfl) w
  | confirmChangeEmail t ip => exact ran_confirmChangeEmail
  | deactivateAccount =>
    exact ran_audited (each_deactivateAccountAudited hq (reach_revokes rfl)
      (fun _ => hl nofun) (reach_write rfl rfl rfl) (reach_write rfl rfl rfl))
  | eraseAccount =>
    exact ran_audited (each_eraseAccountAudited hq (reach_revokes rfl)
      ⟨reach_factors rfl, reach_passkeys rfl, fun _ => reach_stmt rfl rfl,
        fun _ _ => reach_stmt rfl rfl⟩
      (fun _ => hl nofun) (fun _ _ => reach_write rfl rfl rfl) (reach_write rfl rfl rfl))
  | totpEnable => exact ran_audited (each_totpEnableAudited hq (reach_factors rfl))
  | totpVerifyEnable => exact ran_audited (each_totpVerifyEnableAudited hq (reach_factors rfl))
  | totpValidate => exact ran_audited (each_totpValidateAudited hq (reach_factors rfl))
  | totpViewRecoveryCodes =>
    rw [serve, run_noPair]
    exact within_bind (within_audit (within_of_each (each_totpViewRecoveryCodesAudited hq
      (reach_factors rfl)))) (fun _ => within_of_each (each_jwtIssue hq fun _ _ hc =>
        reach_sign hc List.mem_cons_self)) w
  | totpRegenerateRecoveryCodes =>
    exact ran_audited (each_totpRegenerateRecoveryCodesAudited hq fun _ => reach_stmt rfl rfl)
  | totpDisable =>
    exact ran_audited (each_totpDisableAudited hq (reach_factors rfl) (fun _ => hl nofun)
      (reach_write rfl rfl rfl))
  | oauthBeginLogin =>
    rw [serve, run_noPair]
    exact within_of_each (each_oauthBeginLogin hq fun st => hk _ ⟨st, rfl⟩) w
  | handleCallback =>
    exact ran_serve_login (within_audit (within_of_each (each_handleCallbackAudited hq
      (fun st => hk _ ⟨st, rfl⟩) (fun _ => reach_stmt rfl rfl) (fun _ => reach_stmt rfl rfl)
      (reach_issues rfl List.mem_cons_self)
      fun _ hc => reach_sign hc (List.mem_cons_of_mem _ List.mem_cons_self))))
  | unlink => exact ran_audited (each_unlinkAudited hq fun _ => reach_stmt rfl rfl)
  | passkeyBeginRegistration =>
    rw [serve, run_noPair]
    exact within_of_each (each_passkeyBeginRegistration hq (hk _ rfl)) w
  | passkeyFinishRegistration =>
    exact ran_audited (each_passkeyFinishRegistrationAudited hq (hk _ rfl)
      (reach_passkeys rfl).insert)
  | passkeyBeginAuthentication =>
    rw [serve, run_noPair]
    exact within_of_each (each_passkeyBeginAuthentication hq (hk _ rfl)) w
  | passkeyFinishAuthentication =>
    exact ran_serve_login (within_audit (within_of_each (each_passkeyFinishAuthenticationAudited hq
      (hk _ rfl) (reach_passkeys rfl) (reach_issues rfl List.mem_cons_self))))
  | passkeyRevoke => exact ran_audited (each_passkeyRevokeAudited hq (reach_passkeys rfl))

theorem serve_ran (env : Env) (ctx : Ctx) (r : Request) (w : World) :
    Ran (r.footprint w) w ((serve env ctx r).run w).2 :=
  (serve_reach env ctx r w).mono (fun _ _ => trivial) (fun _ h => h) (fun _ _ => trivial)
    fun _ h => h

/-! ## Administration -/

theorem each_adminTarget (hq : F.Basic) : Each (Acts F) (adminTarget ctx id) := by
  refine each_bind (each_usersFindByID hq) fun user => ?_
  rcases user with _ | user
  · exact each_throw _
  · exact each_bind (each_refuse _ _) fun _ => each_ret _

theorem adminReach_write (hk : a.may s.kind = true) (hu : s.userWrite? = some (ctx, a.target, x)) :
    a.reach.stmt s := by
  refine ⟨hk, fun _ _ _ h => ?_⟩
  rw [hu] at h
  cases h
  rfl

theorem adminReach_quiet (a : AdminRequest) : a.reach.Quiet :=
  ⟨⟨nofun, fun _ => nofun, fun _ => nofun, fun _ h => h⟩,
    fun _ => ⟨rfl, fun _ _ _ h => by cases h⟩, fun _ h => h⟩

/-- Every administrative call stays within its entry. -/
theorem admin_reach (ctx : Ctx) (a : AdminRequest) (w : World) :
    Ran a.reach w ((serveAdmin ctx a).run w).2 := by
  have hq := adminReach_quiet a
  cases a with
  | lockUser =>
    exact ran_audit (within_of_each (each_bind (each_refuse _ _) fun _ =>
      each_bind (each_adminTarget hq) fun _ => each_bind (each_getNow hq.other) fun _ =>
        each_bind (each_usersUpdate hq.other (adminReach_write rfl rfl)) fun _ =>
          each_record hq) _)
  | unlockUser =>
    exact ran_audit (within_of_each (each_bind (each_adminTarget hq) fun _ =>
      each_bind (each_usersUpdate hq.other (adminReach_write rfl rfl)) fun _ =>
        each_record hq) _)
  | forceLogout adminID target ip =>
    have hr : (AdminRequest.forceLogout adminID target ip).reach.Revokes :=
      ⟨fun _ => ⟨rfl, fun _ _ _ h => by cases h⟩, fun _ => ⟨rfl, fun _ _ _ h => by cases h⟩⟩
    exact ran_audit (within_of_each (each_bind (each_adminTarget hq) fun _ =>
      each_bind (each_tokensRevokeAllForUser hq hr) fun _ =>
        each_bind (each_sessionsRevokeAllForUser hq hr) fun _ =>
          each_bind (each_bumpPwdVersion hq (adminReach_write rfl rfl)) fun _ =>
            each_record hq) _)
  | suspend =>
    rw [serveAdmin, authoritySuspend]
    refine within_of_each (each_repo hq.other fun db s h => ?_) w
    split at h
    · exact Option.some.inj h ▸ adminReach_write rfl rfl
    · simp at h
  | assignRoleToUser =>
    rw [serveAdmin, rbacAssignRoleToUser]
    refine within_of_each (each_repo hq.other fun db s h => ?_) w
    split at h
    · simp at h
    · split at h
      · simp at h
      · split at h
        · simp at h
        · exact Option.some.inj h ▸ adminReach_write rfl rfl

theorem admin_ran (ctx : Ctx) (a : AdminRequest) (w : World) :
    Ran a.footprint w ((serveAdmin ctx a).run w).2 :=
  (admin_reach ctx a w).mono (fun _ _ => trivial) (fun _ h => h) (fun _ _ => trivial) fun _ h => h

end FinnAuth
