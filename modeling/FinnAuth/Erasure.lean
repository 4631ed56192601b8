import FinnAuth.Authority
import FinnAuth.EmailChange
import FinnAuth.Families

/-!
# Erased accounts

`EraseAccount` anonymises the row, deactivates it and revokes its sessions. No call activates a row
again and no call opens a session for an inactive row, so the account stays closed whatever follows.
The anonymised columns are another matter: a staged email change, a mailed token or a first password
writes to an inactive row as to any other.

Results:
* **`barred_step`**: an inactive row without sessions stays one, under every step;
* `gives_eraseAccount`: what an erasure leaves;
* **`erased_stays`**: without the calls named by `Request.restores` an erased row stays as it is;
* **`erased_row_restored`**: a confirmation of a staged change gives it an address again.
-/

namespace FinnAuth

open Lib Prog

variable {α β : Type} {env : Env} {ctx : Ctx} {u : UserID} {ip ua : String}

/-! ## Inactive rows without sessions -/

variable {w : World} {user : User} {id : Uuid} {db : DB} {email password : String}
  {jti : Option Uuid} {t : Option Token} {I : DB → Prop}

/-- The row of the user is inactive and every session it has in its tenant is revoked. -/
def DB.Barred (u : UserID) (db : DB) : Prop :=
  ∃ row, db.userRow? u = some row ∧ row.isActive = false ∧
    ∀ s ∈ db.sessions.rows, s.userID = u → s.tenantID = row.tenantID → s.revoked = true

theorem UserWrite.apply_inactive (x : UserWrite) (h : user.isActive = false) :
    (x.apply user).isActive = false := by
  cases x <;> simp [UserWrite.apply, h]

/-- Statements that open no session for the user. -/
def bars (u : UserID) : Footprint where
  label _ := True
  stmt x := ∀ s, x = .insertSession s → s.userID ≠ u
  mail _ := True
  key _ := True

theorem barred_exec {x : Stmt} (hx : (bars u).stmt x) (h : db.Barred u) : (db.exec x).Barred u := by
  obtain ⟨row, hrow, hact, hsess⟩ := h
  obtain ⟨row', hrow', hact', ht⟩ := userRow_keeps
    (P := fun a b => b.isActive = false ∧ b.tenantID = a.tenantID) x hrow ⟨hact, rfl⟩
    fun _ y _ => ⟨y.apply_inactive hact, y.apply_tenantID row⟩
  refine ⟨row', hrow', hact', fun s' hs' hu' ht' => ?_⟩
  rcases session_exec hs' with ⟨s, hs, ho⟩ | rfl
  · exact ho.revoked (hsess s hs (ho.userID ▸ hu') (by rw [← ho.tenantID, ht', ht]))
  · exact absurd hu' (hx s' rfl)

/-- What a lookup returns is not the user, or it is inactive. -/
def Dead (u : UserID) (user : User) : Prop := user.id = u → user.isActive = false

theorem dead_of_mem (h : db.Barred u) (hm : user ∈ db.users.rows) : Dead u user := by
  rintro rfl
  obtain ⟨row, hrow, hact, -⟩ := h
  rw [userRow_of_mem hm] at hrow
  cases hrow
  exact hact

theorem yields_tame {p : M α} (h : Each (Acts tame) p) : Yields (DB.Barred u) (fun _ => True) p :=
  yields_of_each (F := tame) (fun _ _ hs hI => barred_exec (fun s hx => absurd hx (hs.1 s)) hI) h

theorem yields_usersFindByID {id : UserID} : Yields (DB.Barred u)
    (fun o => ∀ user, o = some user → Dead u user) (usersFindByID ctx id) :=
  yields_query fun _ hI _ hu => dead_of_mem hI (DB.userByID_spec hu).1

theorem yields_usersFindByEmail : Yields (DB.Barred u)
    (fun o => ∀ user, o = some user → Dead u user) (usersFindByEmail env ctx email) :=
  yields_query fun _ hI _ hu => dead_of_mem hI (Table.mem_of_first? hu).1

/-- **No session is opened for an inactive row.** -/
theorem yields_issueTokenPair {reuse : Option Uuid} (h : Dead u user) :
    Yields (DB.Barred u) (fun _ => True) (issueTokenPair env ctx user ip ua reuse) := by
  by_cases hu : user.id = u
  · intro w hw
    refine wp_seq ((wp_refuse _ _ _ _).2 ⟨fun _ => ⟨hw, fun _ h => (by cases h)⟩, fun hc => ?_⟩)
    simp [h hu] at hc
  · refine yields_of_each (F := bars u) (fun _ _ hs hI => barred_exec hs hI)
      (each_issueTokenPair ⟨trivial, fun _ => trivial, fun _ _ => trivial⟩ ?_)
    exact ⟨fun _ _ _ _ => trivial, fun _ => trivial, fun _ _ => trivial,
      fun _ _ _ _ _ _ _ _ hx => (by cases hx),
      fun s hs s' hx => (by cases hx; exact fun h => hu (hs.symm.trans h)),
      fun _ _ _ hx => (by cases hx), fun _ _ _ => trivial⟩

theorem yields_checkMFAOrIssueTokens {detail : String} (h : Dead u user) :
    Yields (DB.Barred u) (fun _ => True)
      (checkMFAOrIssueTokensAudited env ctx user ip ua detail) := by
  refine yields_bind (yields_tame (each_refuse _ _)) fun _ _ =>
    yields_bind (yields_tame (each_wrap (each_totpFindByUserID tame_quiet))) fun device _ => ?_
  split
  · exact yields_tame (each_bind (each_jwtIssue tame_quiet fun _ _ _ => trivial) fun _ =>
      each_bind (each_record tame_quiet) fun _ => each_ret _)
  · exact yields_bind (yields_issueTokenPair h) fun _ _ =>
      yields_tame (each_bind (each_record tame_quiet) fun _ => each_ret _)

theorem yields_login {email password captcha : String} : Yields (DB.Barred u) (fun _ => True)
    (loginAudited env ctx email password captcha ip ua) := by
  refine yields_bind (yields_tame (each_loginLimits tame_quiet)) fun _ _ =>
    yields_bind (yields_wrap yields_usersFindByEmail) fun user huser => ?_
  rcases user with _ | user
  · exact yields_tame (each_unknownUser tame_quiet)
  · refine yields_bind (yields_tame (each_loginGates tame_quiet)) fun _ _ =>
      yields_bind (yields_tame (each_comparePassword trivial)) fun _ _ =>
        yields_bind (yields_tame (each_refuseAfter
          (each_recordFailedLogin tame_quiet fun _ => tame_update _ _ _))) fun _ _ =>
          yields_bind (yields_tame (each_usersUpdate trivial (tame_update _ _ _))) fun _ _ =>
            yields_bind (yields_tame (each_storeDelete trivial trivial)) fun _ _ =>
              yields_checkMFAOrIssueTokens (huser user rfl)

theorem yields_completeMFALogin {t : Token} {code : String} : Yields (DB.Barred u)
    (fun _ => True) (completeMFALogin env ctx t code ip ua) := by
  refine yields_bind (yields_tame (each_jwtVerifyAs tame_quiet)) fun claims _ => yields_audit ?_
  refine yields_bind (yields_tame (each_totpValidateAudited tame_quiet tame_factors)) fun _ _ =>
    yields_bind yields_usersFindByID fun user huser => ?_
  rcases user with _ | user
  · exact yields_fail _
  · exact yields_bind (yields_tame (each_refuse _ _)) fun _ _ =>
      yields_bind (yields_issueTokenPair (huser user rfl)) fun _ _ =>
        yields_tame (each_bind (each_record tame_quiet) fun _ =>
          each_bind (each_record tame_quiet) fun _ => each_ret _)

theorem yields_refresh {token : Uuid} : Yields (DB.Barred u) (fun _ => True)
    (refreshAudited env ctx token ip ua) := by
  refine yields_bind (yields_tame (each_wrap (each_query trivial))) fun rt _ => ?_
  rcases rt with _ | rt
  · exact yields_fail _
  refine yields_bind (yields_tame (each_refuseAfter
      (each_handleTokenReuse tame_quiet tame_revokes))) fun _ _ =>
    yields_bind (yields_tame (each_getNow trivial)) fun _ _ =>
      yields_bind (yields_tame (each_refuseAfter (each_ignore
        (each_tokensRevoke tame_consumes)))) fun _ _ =>
        yields_bind yields_usersFindByID fun user huser => ?_
  rcases user with _ | user
  · exact yields_fail _
  · exact yields_bind (yields_tame (each_refuse _ _)) fun _ _ =>
      yields_bind (yields_tame (each_checkFamily tame_quiet tame_revokes)) fun _ _ =>
        yields_bind (yields_tame (each_consumeToken tame_quiet tame_revokes tame_consumes))
          fun _ _ => yields_bind (yields_issueTokenPair (huser user rfl)) fun _ _ =>
            yields_tame (each_bind (each_record tame_quiet) fun _ => each_ret _)

/-- A created account has a new id. -/
theorem yields_usersCreate_of {P : User → Prop}
    (h : ∀ db, I db → user.id ∉ db.users.rows.map User.id →
      I (db.exec (.insertUser { user with tenantID := ctx.tenant })) ∧
        P { user with tenantID := ctx.tenant }) : Yields I P (usersCreate env ctx user) := by
  intro w hw
  refine wp_executes fun r o w' hr hex => ?_
  rw [hex.db]
  rcases hr with ⟨rfl, rfl⟩ | hr
  · exact ⟨hw, fun _ h => by cases h⟩
  split at hr
  · cases hr
    exact ⟨hw, fun _ h => by cases h⟩
  split at hr
  · cases hr
    exact ⟨hw, fun _ h => by cases h⟩
  · rename_i hno
    cases hr
    obtain ⟨hI, hP⟩ := h w.db hw hno
    exact ⟨hI, fun a ha => by cases ha; exact hP⟩

theorem ne_of_userRow {user row : User} (hrow : db.userRow? u = some row)
    (hno : user.id ∉ db.users.rows.map User.id) : user.id ≠ u := by
  rintro rfl
  obtain ⟨hm, hid⟩ := userRow_spec hrow
  exact hno (List.mem_map.2 ⟨row, hm, hid⟩)

/-- A created account is another one. -/
theorem yields_usersCreate : Yields (DB.Barred u) (Dead u) (usersCreate env ctx user) := by
  refine yields_usersCreate_of fun db hI hno => ?_
  obtain ⟨row, hrow, -⟩ := id hI
  exact ⟨barred_exec (fun s hx => by cases hx) hI, fun hid => absurd hid (ne_of_userRow hrow hno)⟩

theorem yields_mapDuplicateKey {P : α → Prop} {p : M α} (hp : Yields I P p) :
    Yields I P (mapDuplicateKey p) := by
  intro w hw
  refine wp_seq ?_
  rw [wp_attempt]
  refine wp_mono (hp w hw) fun r w₁ h₁ => ?_
  rw [thenWp_ok]
  split
  · exact h₁
  · exact ⟨h₁.1, fun _ h => by cases h⟩
  · exact ⟨h₁.1, fun _ h => by cases h⟩

theorem yields_findOrCreateUser {claims : GoogleIDTokenClaims} :
    Yields (DB.Barred u) (Dead u) (findOrCreateUser env ctx claims email ip) := by
  refine yields_bind (yields_tame (each_wrap (each_query trivial))) fun ident _ => ?_
  rcases ident with _ | ident
  · have hattach : Yields (DB.Barred u) (Dead u) (attachableUser env ctx claims email) := by
      refine yields_bind (yields_wrap yields_usersFindByEmail) fun user huser => ?_
      rcases user with _ | user
      · exact yields_bind (yields_tame (each_wrap (each_query trivial))) fun _ _ =>
          yields_bind (yields_tame (each_draw trivial)) fun _ _ =>
            yields_bind (yields_tame (each_draw trivial)) fun _ _ =>
              yields_mapDuplicateKey yields_usersCreate
      · exact yields_bind (yields_tame (each_refuse _ _)) fun _ _ => yields_ret (huser user rfl)
    exact yields_bind hattach fun user huser =>
      yields_bind (yields_tame (each_linkIdentity tame_quiet fun _ _ => by simp [tame])) fun _ _ =>
        yields_ret huser
  · refine yields_bind (yields_wrap yields_usersFindByID) fun user huser => ?_
    rcases user with _ | user
    · exact yields_fail _
    · exact yields_ret (huser user rfl)

theorem yields_handleCallback {reply : GoogleReply} {state : Option Uuid} : Yields (DB.Barred u)
    (fun _ => True) (handleCallbackAudited env ctx reply state ip ua) :=
  yields_bind (yields_tame (each_consumeState tame_quiet fun _ => trivial)) fun _ _ =>
    yields_bind (yields_tame each_verifiedClaims) fun _ _ =>
      yields_bind yields_findOrCreateUser fun _ huser =>
        yields_bind (yields_tame (each_refuse _ _)) fun _ _ => yields_checkMFAOrIssueTokens huser

theorem yields_completeAuthentication {row : PasskeyCredential} {n : Nat} (h : Dead u user) :
    Yields (DB.Barred u) (fun _ => True)
      (completeAuthentication env ctx user row n ip ua) := by
  unfold completeAuthentication
  split
  · exact yields_tame (each_bind (each_rowIDByCredential tame_quiet) fun _ =>
      each_bind (each_ignore (each_passkeysRevokeByID tame_quiet tame_passkeys)) fun _ =>
        each_bind (each_record tame_quiet) fun _ => each_fail _)
  · refine yields_bind (yields_tame (each_rowIDByCredential tame_quiet)) fun _ _ =>
      yields_bind (yields_tame (each_getNow trivial)) fun _ _ =>
        yields_bind (yields_tame (each_ignore (each_repo trivial fun db s h => ?_))) fun _ _ =>
          yields_bind (yields_tame (each_record tame_quiet)) fun _ _ =>
            yields_bind (yields_tame (each_refuse _ _)) fun _ _ =>
              yields_bind (yields_issueTokenPair h) fun _ _ =>
                yields_tame (each_bind (each_record tame_quiet) fun _ => each_ret _)
    split at h
    · exact Option.some.inj h ▸ tame_passkeys.touch _ _ _
    · simp at h

theorem yields_passkeyFinishAuthentication {userID : UserID} {a : Assertion} :
    Yields (DB.Barred u) (fun _ => True)
      (passkeyFinishAuthenticationAudited env ctx userID a ip ua) := by
  have hload : Yields (DB.Barred u) (fun x => Dead u x.1) (loadUser ctx userID) := by
    refine yields_bind yields_usersFindByID fun user huser => ?_
    rcases user with _ | user
    · exact yields_fail _
    · exact yields_bind (yields_tame (each_refuse _ _)) fun _ _ =>
        yields_bind (yields_tame (each_query trivial)) fun _ _ => yields_ret (huser user rfl)
  refine yields_bind (yields_tame (each_takeChallenge tame_quiet trivial)) fun _ _ =>
    yields_bind hload fun x hx => ?_
  split
  split
  · exact yields_fail _
  · exact yields_completeAuthentication hx

/-- **An inactive row without sessions stays one**, whatever is called. -/
theorem barred_step {s : Step} (hw : w.db.Barred u) : (advance env s w).2.db.Barred u := by
  have hcall : ∀ {p : M (Option TokenPair)}, Yields (DB.Barred u) (fun _ => True) p →
      (p.run w).2.db.Barred u := fun hp => (hp w hw).1
  have hquiet : (∀ x, (s.footprint w).stmt x → x.kind ≠ .newSession) →
      (advance env s w).2.db.Barred u := fun hs =>
    advance_keeps (fun _ _ h => ⟨h, h⟩)
      (fun _ x hx h => barred_exec (fun y hy => absurd rfl (hy ▸ hs x hx)) h) hw
  cases s with
  | admin ctx a =>
    refine hquiet fun x hx hk => ?_
    have hmay := hx.1
    rw [hk] at hmay
    cases a <;> cases hmay
  | event ev =>
    cases ev with
    | outside o => exact hquiet fun _ hx => hx.elim
    | purgeRefreshTokens => exact hquiet fun _ hx => hx.elim
    | call ctx r =>
      have hnone : r.may .newSession = false → (advance env (.call ctx r) w).2.db.Barred u := by
        intro hmay
        refine hquiet fun x hx hk => ?_
        have hx1 := hx.1
        rw [hk, hmay] at hx1
        cases hx1
      cases r with
      | login => exact hcall (yields_bind (yields_audit yields_login) fun _ _ => yields_ret trivial)
      | completeMFALogin =>
        exact hcall (yields_bind yields_completeMFALogin fun _ _ => yields_ret trivial)
      | refresh =>
        exact hcall (yields_bind (yields_audit yields_refresh) fun _ _ => yields_ret trivial)
      | handleCallback =>
        exact hcall (yields_bind (yields_audit yields_handleCallback) fun _ _ => yields_ret trivial)
      | passkeyFinishAuthentication =>
        exact hcall (yields_bind (yields_audit yields_passkeyFinishAuthentication) fun _ _ =>
          yields_ret trivial)
      | _ => exact hnone rfl

/-! ## The anonymised columns -/

/-- The row as an erasure with the random suffix `id` leaves it. -/
structure User.Anonymised (env : Env) (id : Uuid) (row : User) : Prop where
  email : row.email = erasedEmail env id
  username : row.username = erasedUsername env id
  password : row.password = ""
  fullName : row.fullName = ""
  isActive : row.isActive = false
  isEmailVerified : row.isEmailVerified = false

/-- The user's row is anonymised. -/
def DB.Anonymised (env : Env) (u : UserID) (id : Uuid) (db : DB) : Prop :=
  ∃ row, db.userRow? u = some row ∧ row.Anonymised env id

/-- The writes that set one of the anonymised columns to something else. -/
def restoringKinds : List Kind := [.email, .erase, .firstPassword, .emailVerified, .credential]

theorem User.Anonymised.apply {row : User} (h : row.Anonymised env id) {x : UserWrite}
    (hx : x.kind ∉ restoringKinds) : (x.apply row).Anonymised env id := by
  cases x with
  | email e v => exact absurd (by simp [UserWrite.kind, restoringKinds]) hx
  | erase e n => exact absurd (by simp [UserWrite.kind, restoringKinds]) hx
  | firstPassword p => exact absurd (by simp [UserWrite.kind, restoringKinds]) hx
  | emailVerified v => exact absurd (by simp [UserWrite.kind, restoringKinds]) hx
  | credential p => exact absurd (by simp [UserWrite.kind, restoringKinds]) hx
  | deactivate =>
    exact ⟨h.email, h.username, h.password, h.fullName, rfl, h.isEmailVerified⟩
  | _ => exact ⟨h.email, h.username, h.password, h.fullName, h.isActive, h.isEmailVerified⟩

theorem anonymised_exec {x : Stmt} (h : db.Anonymised env u id)
    (hx : ∀ ctx y, x.userWrite? = some (ctx, u, y) → y.kind ∉ restoringKinds) :
    (db.exec x).Anonymised env u id := by
  obtain ⟨row, hrow, ha⟩ := h
  exact userRow_keeps (P := fun _ b => b.Anonymised env id) x hrow ha
    fun ctx y hy => ha.apply (hx ctx y hy)

theorem anonymised_of_mild {db db' : DB} (h : Mild env db db') (ha : db.Anonymised env u id) :
    db'.Anonymised env u id := by
  obtain ⟨row, hrow, ha⟩ := ha
  have hkey : ∀ {a b : User}, a.Relocked b → b.id = a.id := fun h => by rw [h]
  obtain ⟨row', hrow', hr⟩ := h.users.get? hkey hrow
  refine ⟨row', hrow', ?_⟩
  rw [hr]
  exact ⟨ha.email, ha.username, ha.password, ha.fullName, ha.isActive, ha.isEmailVerified⟩

/-- The call can give an erased row of `u` other values: a staged email change or a mailed token of
the user, a first password, or another erasure. -/
def Request.restores (w : World) (u : UserID) : Request → Prop
  | .confirmChangeEmail t _ => w.stagedFor t u
  | .verifyEmail t => w.signedFor t u
  | .resetPassword t _ _ => w.signedFor t u
  | .setPassword v _ _ => v = u
  | .eraseAccount v _ _ _ _ => v = u
  | _ => False

/-- Apart from these calls, only a change of the password writes such a column. -/
theorem restores_of_kind {r : Request} {k : Kind} (hk : k ∈ restoringKinds) (hmay : r.may k = true)
    (hw : r.writesTo w u) : r.restores w u ∨ ∃ old new ip, r = .changePassword u old new ip := by
  have hno : (restoringKinds.any r.may = true → False) → False := fun h =>
    h (List.any_eq_true.2 ⟨k, hk, hmay⟩)
  cases r with
  | confirmChangeEmail t ip => exact .inl hw
  | verifyEmail t => exact .inl hw
  | resetPassword => exact .inl hw
  | setPassword => exact .inl hw
  | eraseAccount => exact .inl hw
  | changePassword v old new ip =>
    cases hw
    exact .inr ⟨old, new, ip, rfl⟩
  | _ => exact (hno fun h => by cases h).elim

/-- The empty password of an erased row matches nothing. -/
theorem gives_changePassword {old new : String} (h : w.db.Anonymised env u id) :
    Gives (fun _ _ => False) (serve env ctx (.changePassword u old new ip)) w := by
  obtain ⟨row, hrow, ha⟩ := h
  have hbody : Gives (fun _ _ => False) (changePasswordAudited env ctx u old new ip)
      { w with op := {} } := by
    refine gives_user (fun _ => gives_fail _) fun user w₁ huser _ => ?_
    obtain rfl : row = user := Option.some.inj (hrow.symm.trans (userRow_of_userByID huser))
    refine gives_seq ?_
    unfold Gives
    intro b hb
    cases hb
    rw [ha.password, env.checkPassword_empty]
    exact gives_fail _
  exact gives_then (gives_audit hbody fun _ _ h => h) fun _ _ h => h.elim

/-- **A step that is none of the restoring calls** leaves the anonymised columns alone. -/
theorem anonymised_step {s : Step} (h : w.db.Anonymised env u id)
    (hs : ∀ ctx r, s = .call ctx r → ¬ r.restores w u) :
    (advance env s w).2.db.Anonymised env u id := by
  by_cases hchange : ∃ ctx old new ip, s = .call ctx (.changePassword u old new ip)
  · obtain ⟨ctx, old, new, ip, rfl⟩ := hchange
    cases hreply : (advance env (.call ctx (.changePassword u old new ip)) w).1 with
    | error e => exact anonymised_of_mild (leaves_serve env ctx _ w e hreply) h
    | ok pair =>
      have hno : Gives (fun _ _ => False) (serve env ctx (.changePassword u old new ip)) w :=
        gives_changePassword h
      exact (hno pair hreply).elim
  refine advance_keeps (I := DB.Anonymised env u id) (fun _ _ h => ⟨h, h⟩)
    (fun db x hx h => anonymised_exec h ?_) h
  intro c y hy hmem
  have hkind := kind_of_userWrite hy
  cases s with
  | admin ctx a =>
    have hmay : a.may y.kind = true := hkind ▸ hx.1
    have hall : restoringKinds.all (fun k => !a.may k) = true := by cases a <;> rfl
    have hno := List.all_eq_true.1 hall _ hmem
    rw [hmay] at hno
    cases hno
  | event ev =>
    cases ev with
    | outside o => exact hx.elim
    | purgeRefreshTokens => exact hx.elim
    | call ctx r =>
      rcases restores_of_kind hmem (hkind ▸ hx.1) (hx.2 _ _ _ hy) with hr | ⟨old, new, ip, rfl⟩
      · exact hs ctx r rfl hr
      · exact hchange ⟨ctx, old, new, ip, rfl⟩

/-! ## The erasure -/

/-- Statements that leave the anonymised columns of every row alone. -/
def spares : Footprint where
  label _ := True
  stmt x := x.kind ∉ restoringKinds
  mail _ := True
  key _ := True

theorem spares_of {s : Stmt} (h : restoringKinds.contains s.kind = false) : spares.stmt s := by
  intro hmem
  rw [List.contains_iff_mem.2 hmem] at h
  cases h

theorem spares_quiet : spares.Quiet :=
  ⟨⟨trivial, fun _ => trivial, fun _ => trivial, fun _ _ => trivial⟩, fun _ => spares_of rfl,
    fun _ _ => trivial⟩

theorem spares_revokes : spares.Revokes := ⟨fun _ => spares_of rfl, fun _ => spares_of rfl⟩

theorem spares_forgets : spares.Forgets :=
  ⟨⟨fun _ => spares_of rfl, fun _ => spares_of rfl, fun _ => spares_of rfl,
      fun _ _ => spares_of rfl, fun _ _ => spares_of rfl⟩,
    ⟨fun _ => spares_of rfl, fun _ _ _ => spares_of rfl, fun _ => spares_of rfl⟩,
    fun _ => spares_of rfl, fun _ _ => spares_of rfl⟩

theorem Ran.anonymised {w w' : World} (h : Ran spares w w') (ha : w.db.Anonymised env u id) :
    w'.db.Anonymised env u id :=
  h.keeps (I := DB.Anonymised env u id) (fun _ _ hx ha => anonymised_exec ha fun _ _ hy =>
    (kind_of_userWrite hy).symm ▸ hx) ha

/-- The row is inactive and belongs to the tenant. -/
def DB.Inactive (ctx : Ctx) (u : UserID) (db : DB) : Prop :=
  ∃ row, db.userRow? u = some row ∧ row.isActive = false ∧ row.tenantID = ctx.tenant

theorem Ran.inactive {F : Footprint} {w w' : World} (h : Ran F w w')
    (hi : w.db.Inactive ctx u) : w'.db.Inactive ctx u := by
  refine h.keeps (I := DB.Inactive ctx u) (fun db x _ hi => ?_) hi
  obtain ⟨row, hrow, hact, ht⟩ := hi
  exact userRow_keeps (P := fun _ b => b.isActive = false ∧ b.tenantID = ctx.tenant) x hrow
    ⟨hact, ht⟩ fun _ y _ => ⟨y.apply_inactive hact, (y.apply_tenantID row).trans ht⟩

theorem DB.Inactive.owns (h : db.Inactive ctx u) : db.owns ctx u = true := by
  obtain ⟨row, hrow, -, ht⟩ := h
  obtain ⟨hm, hid⟩ := userRow_spec hrow
  exact DB.owns_iff.2 ⟨row, hm, hid, ht⟩

/-- The revocation of all sessions of an inactive row bars it. -/
theorem barred_revokeSessions (h : db.Inactive ctx u) :
    (db.exec (.revokeSessions (activeSessionOf ctx u))).Barred u := by
  obtain ⟨row, hrow, hact, ht⟩ := h
  refine ⟨row, hrow, hact, fun s' hs' hu' ht' => ?_⟩
  obtain ⟨s, -, rfl⟩ := List.mem_map.1 hs'
  by_cases hp : activeSessionOf ctx u s = true
  · rw [if_pos hp]
  · rw [if_neg hp] at hu' ht' ⊢
    simpa [activeSessionOf, hu', ht', ht] using hp

theorem gives_containUser (hc : w.Calm) (hi : w.db.Inactive ctx u) :
    Gives (fun _ w' => w'.db.Barred u) (containUser ctx u) w := by
  refine gives_after (F := tame) (each_ignore (each_tokensRevokeAllForUser tame_quiet tame_revokes))
    fun _ w₁ h₁ => gives_seq ?_
  have hi₁ := h₁.inactive hi
  unfold Gives
  rw [wp_ignore, sessionsRevokeAllForUser, ownedWrite, wp_repo_calm (h₁.calm hc).faults]
  intro _ _
  simp only [hi₁.owns, if_true]
  refine wp_of_within (within_of_each (F := tame) (each_ignore (each_bumpPwdVersion tame_quiet
    (tame_update _ _ _)))) fun _ w₂ h₂ _ _ => ?_
  exact h₂.keeps (fun _ _ hs hI => barred_exec (fun s hx => absurd hx (hs.1 s)) hI)
    (barred_revokeSessions hi₁)

/-- What an erasure leaves. -/
def Erased (env : Env) (u : UserID) (db : DB) : Prop :=
  db.Barred u ∧ ∃ id, db.Anonymised env u id

theorem gives_eraseAccount (hc : w.Calm) : Gives (fun _ w' => Erased env u w'.db)
      (serve env ctx (.eraseAccount u t password jti ip)) w := by
  have hbody : Gives (fun _ w' => Erased env u w'.db)
      (eraseAccountAudited env ctx u t password jti ip) { w with op := {} } := by
    refine gives_user (fun _ => gives_fail _) fun user w₁ huser hex => ?_
    have hid := (DB.userByID_spec huser).2.1
    refine gives_after (F := anything) (each_verifySudoOrPassword anything_quiet trivial)
      fun _ w₂ h₂ => gives_after (F := anything) (each_draw trivial) fun id w₃ h₃ =>
        gives_then gives_usersUpdateUnique fun _ w₄ h₄ => ?_
    obtain ⟨row, hrow, hrow', hcalm⟩ := h₄
    simp only [hid] at hrow hrow'
    have hc₄ : w₄.Calm := hcalm ((h₂.trans h₃).calm (hex.calm ⟨hc.faults, rfl⟩))
    have ha₄ : w₄.db.Anonymised env u id := ⟨_, hrow', ⟨rfl, rfl, rfl, rfl, rfl, rfl⟩⟩
    have hi₄ : w₄.db.Inactive ctx u :=
      ⟨_, hrow', rfl, ((UserWrite.erase _ _).apply_tenantID row).trans (DB.userByID_spec hrow).2.2⟩
    have hrest : ∀ {F : Footprint}, F.Quiet → Each (Acts F) (denylistAccessToken env jti >>=
        fun _ => record ctx { auditEvent "account_erased" true with
          userID := some user.id, email := "anonymized@gdpr.local", ipAddress := ip,
          detail := "account erased via GDPR right-to-erasure" } >>= fun _ =>
        ignore (notify (.securityAlert user.email "account_erased"
          "Your account data has been permanently erased per your request."))) := fun hq =>
      each_bind (each_denylistAccessToken hq) fun _ => each_bind (each_record hq) fun _ =>
        each_ignore (each_notify hq.other (hq.mail _ rfl))
    refine wp_mono (wp_and (Q := fun r w' => ∀ a, r = .ok a → w'.db.Barred u) ?_
      (wp_of_within (within_of_each (F := spares) ?_) fun _ w₅ h₅ => h₅.anonymised ha₄))
      fun r w' h a hr => ⟨h.1 a hr, id, h.2⟩
    · refine gives_after (F := tame) (each_eraseFactors tame_quiet tame_forgets) fun _ w₅ h₅ =>
        gives_then (gives_containUser (h₅.calm hc₄) (h₅.inactive hi₄)) fun _ w₆ h₆ => ?_
      exact wp_of_within (within_of_each (hrest tame_quiet)) fun _ w₇ h₇ _ _ =>
        h₇.keeps (fun _ _ hs hI => barred_exec (fun s hx => absurd hx (hs.1 s)) hI) h₆
    · exact each_bind (each_eraseFactors spares_quiet spares_forgets) fun _ => each_bind
        (each_containUser spares_quiet spares_revokes (spares_of rfl)) fun _ => hrest spares_quiet
  exact gives_then (gives_audit hbody fun _ _ h => by rwa [fault_db]) fun _ _ h => gives_ret h

/-! ## After the erasure -/

/-- No access token of a barred user passes. -/
theorem not_passes_of_barred {c : Claims} (h : w.db.Barred u) (hc : c.userID = u) :
    ¬ Passes w c := by
  intro hp
  obtain ⟨sid, jti, user, hb⟩ := hp.backed
  obtain ⟨row, hrow, hact, -⟩ := h
  rw [← hc, userRow_of_userByID hb.row] at hrow
  cases hrow
  rw [hb.active] at hact
  cases hact

/-- The step is a call that can restore an erased row of `u`. -/
def Step.restores (w : World) (u : UserID) (s : Step) : Prop :=
  ∃ ctx r, s = .call ctx r ∧ r.restores w u

/-- The state after a call of `EraseAccount` for `u`. -/
def afterErase (env : Env) (ctx : Ctx) (u : UserID) (t : Option Token) (password : String)
    (jti : Option Uuid) (ip : String) (w : World) : Reply × World :=
  advance env (.call ctx (.eraseAccount u t password jti ip)) w

/-- What holds of every erasure that succeeds. -/
theorem erased_afterErase (hc : w.Calm)
    (hok : ∃ pair, (afterErase env ctx u t password jti ip w).1 = .ok pair) :
    Erased env u (afterErase env ctx u t password jti ip w).2.db := by
  obtain ⟨pair, hpair⟩ := hok
  have hgives : Gives (fun _ w' => Erased env u w'.db)
    (serve env ctx (.eraseAccount u t password jti ip)) w := gives_eraseAccount hc
  exact hgives pair hpair

/-- **An erased account stays closed**, whatever follows. -/
theorem erased_closed (h : w.db.Barred u) (later : List Step) :
    (systemRun env w later).state.db.Barred u ∧
      ∀ c : Claims, c.userID = u → ¬ Passes (systemRun env w later).state c := by
  have hbarred : (systemRun env w later).state.db.Barred u :=
    Run.exec_induct (I := fun r : SystemRun => r.state.db.Barred u) (fun _ _ h => barred_step h)
      later h
  exact ⟨hbarred, fun c hu => not_passes_of_barred hbarred hu⟩

/-- **An erased account stays erased**, as long as none of the restoring calls is made: the row
keeps its anonymised columns, it has no usable session, and no access token of the user passes. The
erasure itself meets no failure; the later calls may. -/
theorem erased_stays (env : Env) {w : World} (hc : w.Calm) {ctx : Ctx} {u : UserID}
    {t : Option Token} {password ip : String} {jti : Option Uuid}
    (hok : ∃ pair, (afterErase env ctx u t password jti ip w).1 = .ok pair)
    (faults : List Bool) (later : List Step)
    (hlater : (Run.init ((afterErase env ctx u t password jti ip w).2.withFaults faults) :
      SystemRun).Meets (advance env) (fun s r => ¬ s.restores r.state u) later) :
    let w₁ := (afterErase env ctx u t password jti ip w).2
    let w' := (systemRun env (w₁.withFaults faults) later).state
    ∃ id, w₁.db.Anonymised env u id ∧ w'.db.Anonymised env u id ∧ w'.db.Barred u ∧
      ∀ c : Claims, c.userID = u → ¬ Passes w' c := by
  intro w₁ w'
  obtain ⟨hbarred, id, hanon⟩ := erased_afterErase hc hok
  have hanon' : w'.db.Anonymised env u id :=
    Run.exec_induct_meets (I := fun r : SystemRun => r.state.db.Anonymised env u id)
      (fun _ _ h hs => anonymised_step h fun ctx r he hr => hs ⟨ctx, r, he, hr⟩) later hanon hlater
  exact ⟨id, hanon, hanon', erased_closed (w := w₁.withFaults faults) hbarred later⟩

/-- The state after `jose` was erased. -/
def sampleErased (w : World) : World :=
  (afterErase (.plain .sample) .sample 1 none "password1" none "ip" w).2

/-- A login attempt and a forgotten password after the erasure of `jose`, with a failed query. -/
theorem erased_stays_jose :
    let w' := (systemRun (.plain .sample) ((sampleErased .sample).withFaults [true])
      [.call .sample (.login "jose@x.io" "password1" "" "ip" "ua"),
        .call .sample (.forgotPassword "jose@x.io")]).state
    ∃ id, (sampleErased .sample).db.Anonymised (.plain .sample) 1 id ∧
      w'.db.Anonymised (.plain .sample) 1 id ∧ w'.db.Barred 1 ∧
      ∀ c : Claims, c.userID = 1 → ¬ Passes w' c := by
  refine erased_stays (.plain .sample) ⟨rfl, rfl⟩ ⟨none, by decide +kernel⟩ [true] _
    ⟨?_, ?_, trivial⟩
  · rintro ⟨ctx, r, h, hr⟩
    cases h
    exact hr
  · rintro ⟨ctx, r, h, hr⟩
    cases h
    exact hr

/-- **An erased row gets an address again**: the change that was staged before the erasure is
confirmed after it. -/
theorem erased_row_restored :
    let w₁ := sampleErased sampleStaged
    let confirmed := advance (.plain .sample)
      (.call .sample (.confirmChangeEmail (some 100) "10.0.0.1")) w₁
    (∃ pair, (afterErase (.plain .sample) .sample 1 none "password1" none "ip"
        sampleStaged).1 = .ok pair) ∧
      (w₁.db.userRow? 1).map (fun row => (row.email, row.isEmailVerified)) =
        some (erasedEmail (.plain .sample) 101, false) ∧
      confirmed.1 = .ok none ∧
      (confirmed.2.db.userRow? 1).map (fun row => (row.email, row.isEmailVerified)) =
        some ("new@x.io", true) :=
  ⟨⟨none, by decide +kernel⟩, by decide +kernel, by decide +kernel, by decide +kernel⟩

end FinnAuth
