import FinnAuth.Actions
import FinnAuth.Service.Issue

/-!
# Footprints of the shared helpers

One lemma per function of `Identity.lean` and `Service/Issue.lean`: its actions stay within every
footprint that contains the labels, statements, mails and keys the lemma names. The hypotheses are
the function's interface to every invariant: nothing else of its text is looked at again.
-/

namespace FinnAuth

open Lib Prog

variable {α : Type} {F : Footprint} {env : Env} {ctx : Ctx} {user : User}

/-! ## Tokens -/

variable {userID : UserID} {ip ua plain : String} {type want : TokenType} {ttl : Nat}
  {jti sid : Uuid} {t : Token} {perms : List String} {reuse : Option Uuid}

theorem each_sign {c : Claims} (hs : F.label (.sign c)) : Each (Acts F) (sign c) :=
  each_atomic fun _ => ⟨hs, rfl, Nat.le.refl, .inr ⟨c, rfl, rfl⟩, .inl rfl,
    fun _ _ => rfl, .inl rfl, fun h => ⟨h.faults, h.failure⟩, .inr rfl, id⟩

theorem each_jwtIssue {role email tenantID : String} (hq : F.Core)
    (hs : ∀ c, c.userID = userID → c.type = type → F.label (.sign c)) :
    Each (Acts F) (jwtIssue userID role email type ttl tenantID) :=
  each_bind (each_refuse _ _) fun _ => each_bind (each_getNow hq.other) fun _ =>
    each_bind (each_draw hq.other) fun _ => each_sign (hs _ rfl rfl)

/-- `Issue` refuses, or signs the claims as the next token. -/
theorem wp_jwtIssue {role email tenantID : String} {Q : Except Err Token → World → Prop} {w : World}
    (herr : ∀ e, type = .access ∨ tenantID = "" → Q (.error e) w)
    (hok : ∀ c, c.userID = userID → c.type = type → c.tenantID = tenantID →
      Q (.ok w.signed.length) { w with entropy := w.entropy + 1, signed := w.signed ++ [c] }) :
    wp (jwtIssue userID role email type ttl tenantID) Q w := by
  simp only [jwtIssue, bind_def, wp_bind, wp_refuse, thenWp_error, thenWp_ok, wp_getNow, wp_draw,
    sign, wp_call]
  exact ⟨fun h => herr _ (by simpa using h), fun _ => hok _ rfl rfl rfl⟩

theorem each_jwtIssueAccessV1 {tid : String} (hq : F.Core)
    (hs : ∀ c, c.userID = user.id → c.type = .access → c.pwdVer = user.pwdVersion →
      F.label (.sign c)) : Each (Acts F) (jwtIssueAccessV1 user ttl sid tid perms) :=
  each_bind (each_refuse _ _) fun _ => each_bind (each_getNow hq.other) fun _ =>
    each_bind (each_draw hq.other) fun _ => each_sign (hs _ rfl rfl rfl)

theorem each_jwtVerify (hq : F.Core) : Each (Acts F) (jwtVerify env t) := by
  refine each_atomic fun w => ?_
  split
  · exact acts_refl hq.other w
  · split <;> exact acts_refl hq.other w

/-- `Verify` refuses, or returns the claims the manager signed. -/
theorem wp_jwtVerifyAs {e : Err} {Q : Except Err Claims → World → Prop} {w : World}
    (herr : Q (.error e) w)
    (hok : ∀ c, w.signed[t]? = some c → c.accepted env w.now = true → c.type = want → Q (.ok c) w) :
    wp (jwtVerifyAs env t want e) Q w := by
  refine wp_seq ?_
  rw [wp_attempt, jwtVerify, wp_atomic]
  split
  · exact herr
  · rename_i c hc
    split
    · rename_i hacc
      by_cases htype : c.type = want
      · simpa [htype] using hok c hc hacc htype
      · simpa [htype] using herr
    · exact herr

theorem each_jwtVerifyAs {e : Err} (hq : F.Core) : Each (Acts F) (jwtVerifyAs env t want e) := by
  refine each_bind (each_attempt (each_jwtVerify hq)) fun r => ?_
  rcases r with _ | c
  · trivial
  · exact each_ite trivial trivial

theorem each_sudoProven {t : Option Token} (hq : F.Core) :
    Each (Acts F) (sudoProven env t userID) := by
  rcases t with _ | t
  · trivial
  · refine each_bind (each_attempt (each_jwtVerify hq)) fun r => ?_
    rcases r with _ | c <;> trivial

theorem each_accessState {c : Claims} (hq : F.Core) : Each (Acts F) (accessState c) := by
  refine each_bind (each_attempt ?_) fun r => ?_
  · unfold authorityCheck
    split
    · refine each_bind (each_refuse _ _) fun _ => each_bind ?_ fun _ =>
        each_bind (each_refuse _ _) fun _ => each_bind (each_getNow hq.other) fun _ =>
          each_bind (each_query hq.other) fun _ => each_refuse _ _
      exact each_bind (each_storeGet hq.other (hq.key _ rfl)) fun _ =>
        each_bind (each_storeGet hq.other (hq.key _ rfl)) fun _ => trivial
    · exact each_throw _
  · split <;> trivial

theorem each_revokeAccess {exp : Nat} (hq : F.Core) (hs : ∀ r, F.stmt (.insertAccessRevocation r)) :
    Each (Acts F) (revokeAccess ctx jti exp) :=
  each_repo hq.other fun _ _ h => Option.some.inj h ▸ hs _

/-! ## Passwords, denylists, alerts -/

theorem each_hashPassword (hq : F.Core) : Each (Acts F) (hashPassword env plain) :=
  each_bind (each_refuse _ _) fun _ => each_bind (each_draw hq.other) fun _ => trivial

/-- No password hash is empty. -/
theorem returns_hashPassword : Returns (fun hashed => hashed ≠ "") (hashPassword env plain) :=
  returns_bind (returns_trivial _) fun _ _ =>
    returns_bind (returns_trivial _) fun _ _ => env.bcryptHash_ne_empty _ _

theorem each_comparePassword (hc : F.label (.comparePassword user)) :
    Each (Acts F) (comparePassword env user plain) :=
  each_atomic fun w => acts_refl hc w

theorem each_checkNewPassword {pw : String} : Each (Acts F) (checkNewPassword env user pw) :=
  each_bind (each_refuse _ _) fun _ => each_refuse _ _

theorem each_denylistAccessToken {jti : Option Uuid} (hq : F.Core) :
    Each (Acts F) (denylistAccessToken env jti) := by
  rcases jti with _ | j
  · trivial
  · exact each_storeSet hq.other (hq.key _ rfl)

theorem each_denylistSession {sess : Option Session} (hq : F.Core) :
    Each (Acts F) (denylistSession env sess) := by
  rcases sess with _ | s
  · trivial
  · exact each_bind (each_getNow hq.other) fun _ => each_storeSet hq.other (hq.key _ rfl)

theorem each_bumpPwdVersion (hq : F.Core) (hs : F.stmt (.updateUser ctx userID .bumpPwdVersion)) :
    Each (Acts F) (bumpPwdVersion ctx userID) :=
  each_bind (each_usersUpdate hq.other hs) fun _ => each_storeDelete hq.other (hq.key _ rfl)

theorem each_usersFindByID (hq : F.Core) : Each (Acts F) (usersFindByID ctx userID) :=
  each_query (hq.findUser userID)

/-- What follows a lookup works on a row with the id that was looked up. -/
theorem each_bind_usersFindByID {f : Option User → M α} (hq : F.Core)
    (hnone : Each (Acts F) (f none))
    (hsome : ∀ user, user.id = userID → Each (Acts F) (f (some user))) :
    Each (Acts F) (usersFindByID ctx userID >>= f) := by
  refine each_bind_atomic (each_usersFindByID hq).1 fun w a h => ?_
  have ha : a = w.fault.2.db.userByID ctx userID := by
    simp only at h
    split at h
    · cases h
    · exact (Except.ok.inj h).symm
  cases hu : w.fault.2.db.userByID ctx userID with
  | none =>
    rw [ha, hu]
    exact hnone
  | some user =>
    rw [ha, hu]
    exact hsome user (DB.userByID_spec hu).2.1

theorem each_notifySecurityAsync {event body : String} (hq : F.Calm) :
    Each (Acts F) (notifySecurityAsync ctx userID event body) := by
  refine each_bind (each_attempt (each_usersFindByID hq)) fun r => ?_
  rcases r with _ | _ | u
  · trivial
  · trivial
  · exact each_doIf (each_ignore (each_notify hq.other (hq.mail _ rfl)))

theorem each_maybeNotifyNewIPLogin (hq : F.Core)
    (hm : ∀ addr ip dev, F.mail (.newLoginAlert addr ip dev)) :
    Each (Acts F) (maybeNotifyNewIPLogin env user ip ua) :=
  each_doIf (each_bind (each_storeSetNX hq.other (hq.key _ rfl)) fun _ =>
    each_doIf (each_ignore (each_notify hq.other (hm _ _ _))))

theorem each_applyCredentialChange {hashed : String} {jti : Option Uuid} (hq : F.Core)
    (hl : F.label (.credentialChange user.id jti))
    (hs : F.stmt (.credentialChange ctx user.id hashed)) :
    Each (Acts F) (applyCredentialChange ctx user hashed jti) :=
  each_bind (each_ownedWrite hl fun _ => hs) fun _ => each_storeDelete hq.other (hq.key _ rfl)

/-! ## Token pairs -/

/-- What issuing a pair for the user takes. -/
structure Footprint.Issues (F : Footprint) (user : User) : Prop where
  sign : ∀ c, c.userID = user.id → c.type = .access → c.pwdVer = user.pwdVersion →
    F.label (.sign c)
  sessionCreate : ∀ id, F.label (.sessionCreate id)
  tokenCreate : ∀ sid access, F.label (.tokenCreate sid access)
  touchSession : ∀ ctx id ip ua dev loc at_, F.stmt (.touchSession ctx id ip ua dev loc at_)
  insertSession : ∀ s, s.userID = user.id → F.stmt (.insertSession s)
  insertToken : ∀ t, t.userID = user.id → F.stmt (.insertToken t)
  loginAlert : ∀ addr ip dev, F.mail (.newLoginAlert addr ip dev)

theorem each_sessionsTouch {id : Uuid} {ip ua dev loc : String} {at_ : Nat} (hq : F.Core)
    (hs : F.stmt (.touchSession ctx id ip ua dev loc at_)) :
    Each (Acts F) (sessionsTouch ctx id ip ua dev loc at_) := by
  refine each_repo hq.other fun db s h => ?_
  split at h
  · simp at h
  · exact Option.some.inj h ▸ hs

theorem each_issueSession (hq : F.Core) (hi : F.Issues user) :
    Each (Acts F) (issueSession env ctx user ip ua reuse) := by
  rcases reuse with _ | sid
  · refine each_bind (each_draw hq.other) fun sid => each_bind (each_getNow hq.other) fun now =>
      each_bind (each_repo (hi.sessionCreate _) fun db s h => ?_) fun _ => trivial
    split at h
    · simp at h
    · split at h
      · simp at h
      · exact Option.some.inj h ▸ hi.insertSession _ rfl
  · exact each_bind (each_getNow hq.other) fun _ =>
      each_bind (each_ignore (each_sessionsTouch hq (hi.touchSession ..))) fun _ => trivial

theorem each_issueAccess (hq : F.Core)
    (hs : ∀ c, c.userID = user.id → c.type = .access → c.pwdVer = user.pwdVersion →
      F.label (.sign c)) : Each (Acts F) (issueAccess env ctx user sid perms) := by
  refine each_bind (each_jwtIssueAccessV1 hq hs) fun access =>
    each_bind (each_jwtVerify hq) fun claims =>
      each_bind (each_attempt (each_accessState hq)) fun r => ?_
  rcases r with e | _
  · exact each_ite trivial trivial
  · trivial

theorem each_tokensCreate {rt : RefreshToken} {access : Token}
    (hl : F.label (.tokenCreate rt.sessionID access)) (hs : F.stmt (.insertToken rt)) :
    Each (Acts F) (tokensCreate ctx rt access) := by
  refine each_repo hl fun db s h => ?_
  split at h
  · simp at h
  · split at h
    · simp at h
    · split at h
      · simp at h
      · exact Option.some.inj h ▸ hs

theorem each_issueRefresh {access : Token} (hq : F.Core) (hi : F.Issues user) :
    Each (Acts F) (issueRefresh env ctx user ip ua sid access) :=
  each_bind (each_draw hq.other) fun _ => each_bind (each_draw hq.other) fun _ =>
    each_bind (each_getNow hq.other) fun _ =>
      each_bind (each_tokensCreate (hi.tokenCreate _ _) (hi.insertToken _ rfl)) fun _ => trivial

theorem each_issueTokenPair (hq : F.Core) (hi : F.Issues user) :
    Each (Acts F) (issueTokenPair env ctx user ip ua reuse) := by
  refine each_bind (each_refuse _ _) fun _ => each_bind (each_refuse _ _) fun _ =>
    each_bind (each_bind (each_attempt (each_query hq.other)) fun r => ?_) fun perms =>
      each_bind (each_issueSession hq hi) fun sid =>
        each_bind (each_issueAccess hq hi.sign) fun access =>
          each_bind (each_issueRefresh hq hi) fun pair =>
            each_bind (each_maybeNotifyNewIPLogin hq hi.loginAlert) fun _ => trivial
  rcases r with _ | _ <;> trivial

/-! ## Single use -/

theorem each_consumeSingleUseToken (hq : F.Core) (hk : F.key (.jti jti))
    (hl : F.label (.isUsed jti)) : Each (Acts F) (consumeSingleUseToken jti ttl) := by
  refine each_bind (each_storeSetNX hq.other hk) fun fresh => each_ite ?_ trivial
  refine each_bind (each_attempt (each_query hl)) fun r => ?_
  rcases r with _ | _ <;> trivial

theorem each_markTokenDurable {exp : Nat} (hl : F.label (.markUsed jti))
    (hs : F.stmt (.insertUsedToken ⟨jti, type, userID, exp⟩)) :
    Each (Acts F) (markTokenDurable jti type userID exp) := by
  refine each_bind (each_wrap (each_repo hl fun db s h => ?_)) fun _ => trivial
  split at h
  · simp at h
  · exact Option.some.inj h ▸ hs

end FinnAuth
