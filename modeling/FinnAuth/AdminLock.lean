import FinnAuth.Erasure

/-!
# Locks set by an administrator

`LockUser` writes the same `locked_until` column as the lockout after failed logins, and `Login` is
the only call that looks at it. While the column lies in the future `Login` neither writes it nor
opens a session. A credential change sets it to null, and `CompleteMFALogin` and the Google callback
open sessions without looking at it.

Results:
* **`lock_holds`**: without a credential change of the user the lock stays, and with it `Login`
  opens no session; nor do the other two sign-ins for anybody else;
* **`lock_lifted`**: a forgotten password lifts the lock, and a Google sign-in passes it by.
-/

namespace FinnAuth

open Lib Prog

variable {α : Type} {env : Env} {ctx : Ctx} {u : UserID} {t : Nat} {known : List Uuid}
  {ip ua : String}

/-! ## The column -/

variable {c : GoogleIDTokenClaims} {w : World} {p : M α} {x : Stmt} {db : DB} {β : Type}
  {f : α → M β}

/-- The user's row is locked until `t` at least. -/
def DB.LockedTo (u : UserID) (t : Nat) (db : DB) : Prop :=
  ∃ row, db.userRow? u = some row ∧ ∃ e, row.lockedUntil = some e ∧ t ≤ e

/-- The writes that set the column. -/
def lockKinds : List Kind := [.failedAttempt, .resetFailed, .credential, .lock]

theorem UserWrite.apply_lockedUntil {x : UserWrite} (h : x.kind ∉ lockKinds) (user : User) :
    (x.apply user).lockedUntil = user.lockedUntil := by
  cases x with
  | failedAttempt t => exact absurd (by simp [UserWrite.kind, lockKinds]) h
  | resetFailed => exact absurd (by simp [UserWrite.kind, lockKinds]) h
  | credential p => exact absurd (by simp [UserWrite.kind, lockKinds]) h
  | lock t => exact absurd (by simp [UserWrite.kind, lockKinds]) h
  | _ => rfl

theorem lockedTo_exec (h : db.LockedTo u t)
    (hx : ∀ ctx y, x.userWrite? = some (ctx, u, y) → y.kind ∉ lockKinds) :
    (db.exec x).LockedTo u t := by
  obtain ⟨row, hrow, e, he, hle⟩ := h
  exact userRow_keeps (P := fun _ b => ∃ e, b.lockedUntil = some e ∧ t ≤ e) x hrow ⟨e, he, hle⟩
    fun ctx y hy => ⟨e, by rw [UserWrite.apply_lockedUntil (hx ctx y hy), he], hle⟩

/-! ## A locked user without new sessions -/

/-- The user is locked until `t` and has only sessions known before. -/
structure DB.Held (u : UserID) (t : Nat) (known : List Uuid) (db : DB) : Prop where
  locked : db.LockedTo u t
  sessions : ∀ s ∈ db.sessions.rows, s.userID = u → s.id ∈ known

/-- Statements that neither set the lock of the user nor open a session for it. -/
def leavesLock (u : UserID) : Footprint where
  label _ := True
  stmt x := (∀ ctx y, x.userWrite? = some (ctx, u, y) → y.kind ∉ lockKinds) ∧
    ∀ s, x = .insertSession s → s.userID ≠ u
  mail _ := True
  key _ := True

theorem leavesLock_plain (hu : x.userWrite? = none) (hk : x.kind ≠ .newSession) :
    (leavesLock u).stmt x :=
  ⟨fun _ _ h => (by rw [hu] at h; cases h), fun s h => absurd (by rw [h]; rfl) hk⟩

theorem leavesLock_update {id : UserID} {x : UserWrite} (h : id ≠ u) :
    (leavesLock u).stmt (.updateUser ctx id x) := by
  refine ⟨fun _ _ hx => ?_, fun s hx => by cases hx⟩
  cases hx
  exact absurd rfl h

theorem leavesLock_quiet : (leavesLock u).Quiet :=
  ⟨⟨trivial, fun _ => trivial, fun _ => trivial, fun _ _ => trivial⟩,
    fun _ => leavesLock_plain rfl (fun h => by cases h), fun _ _ => trivial⟩

theorem leavesLock_factors : (leavesLock u).Factors :=
  ⟨fun _ => leavesLock_plain rfl (fun h => by cases h),
    fun _ => leavesLock_plain rfl (fun h => by cases h),
    fun _ => leavesLock_plain rfl (fun h => by cases h),
    fun _ _ => leavesLock_plain rfl (fun h => by cases h),
    fun _ _ => leavesLock_plain rfl (fun h => by cases h)⟩

theorem leavesLock_issues {user : User} (h : user.id ≠ u) : (leavesLock u).Issues user where
  sign _ _ _ _ := trivial
  sessionCreate _ := trivial
  tokenCreate _ _ := trivial
  touchSession _ _ _ _ _ _ _ := leavesLock_plain rfl (fun h => by cases h)
  insertSession s hs := by
    refine ⟨fun _ _ hx => (by cases hx), fun s' hx => ?_⟩
    cases hx
    exact fun hu => h (hs.symm.trans hu)
  insertToken _ _ := leavesLock_plain rfl (fun h => by cases h)
  loginAlert _ _ _ := trivial

theorem held_exec (hx : (leavesLock u).stmt x) (h : db.Held u t known) :
    (db.exec x).Held u t known := by
  refine ⟨lockedTo_exec h.locked hx.1, fun s hs hu => ?_⟩
  rcases session_exec hs with ⟨s₀, hs₀, ho⟩ | rfl
  · rw [ho.id]
    exact h.sessions s₀ hs₀ (ho.userID.symm.trans hu)
  · exact absurd hu (hx.2 s rfl)

theorem Ran.held {w w' : World} (h : Ran (leavesLock u) w w') (hw : w.db.Held u t known) :
    w'.db.Held u t known :=
  h.keeps (fun _ _ hx => held_exec hx) hw

/-- A part of a call that leaves the lock alone. -/
theorem wp_held (hp : Each (Acts (leavesLock u)) p) (hw : w.db.Held u t known) :
    wp p (fun _ w' => w'.db.Held u t known) w :=
  wp_of_within (within_of_each hp) fun _ _ h => h.held hw

/-- The rest of a call after a part that leaves lock and clock alone. -/
theorem wp_held_seq (hp : Each (Acts (leavesLock u)) p) (hw : w.db.Held u t known)
    (hf : ∀ a w', w'.db.Held u t known → w'.now = w.now →
      wp (f a) (fun _ w'' => w''.db.Held u t known) w') :
    wp (p >>= f) (fun _ w' => w'.db.Held u t known) w := by
  refine wp_seq (wp_of_within (within_of_each hp) fun r w₁ h₁ => ?_)
  cases r with
  | error e => exact h₁.held hw
  | ok a => exact hf a w₁ (h₁.held hw) h₁.now

/-- A lookup, and what it says about the database before. -/
theorem wp_held_query {s : String} {l : Call} {g : DB → α} (hw : w.db.Held u t known)
    (hf : ∀ w', w'.db = w.db → w'.now = w.now →
      wp (f (g w.db)) (fun _ w'' => w''.db.Held u t known) w') :
    wp (wrap s (query l g) >>= f) (fun _ w' => w'.db.Held u t known) w := by
  refine wp_seq ?_
  rw [wp_wrap, query]
  refine wp_executes fun r o w₁ hr hex => ?_
  have hdb : o = none → w₁.db = w.db := fun ho => by rw [hex.db, ho]; rfl
  rcases hr with ⟨rfl, rfl⟩ | hr
  · change w₁.db.Held u t known
    rw [hdb rfl]
    exact hw
  · cases hr
    exact hf w₁ (hdb rfl) hex.now

theorem wp_yields_seq {I : DB → Prop} {P : α → Prop} {Q : Except Err β → World → Prop}
    (hp : Yields I P p) (hw : I w.db) (herr : ∀ e w', I w'.db → Q (.error e) w')
    (hok : ∀ a w', I w'.db → P a → wp (f a) Q w') : wp (p >>= f) Q w := by
  refine wp_seq (wp_mono (hp w hw) fun r w₁ h₁ => ?_)
  cases r with
  | error e => exact herr e w₁ h₁.1
  | ok a => exact hok a w₁ h₁.1 (h₁.2 a rfl)

/-! ## Signing in -/

/-- A locked account does not pass the gates. -/
theorem gives_loginGates_locked {user : User} {email : String} {e : Nat}
    (he : user.lockedUntil = some e) (hlt : w.now < e) :
    Gives (fun _ _ => False) (loginGates env ctx user email ip) w := by
  refine gives_after (F := anything) (each_refuse _ _) fun _ w₁ h₁ =>
    gives_after (F := anything) (each_refuseAfter (each_record anything_quiet)) fun _ w₂ h₂ => ?_
  refine gives_seq ?_
  unfold Gives
  intro a ha
  cases ha
  have hnow : w₂.now = w.now := h₂.now.trans h₁.now
  have hlock : isLocked user w₂.now = true := by
    rw [isLocked, he, hnow]
    exact decide_eq_true hlt
  rw [hlock]
  exact gives_seq (wp_mono (show wp (record ctx _) (fun _ _ => True) w₂ from trivial)
    fun _ _ _ _ _ => gives_fail _)

theorem held_login {email password captcha : String} (hw : w.db.Held u t known) (hnow : w.now < t) :
    wp (loginAudited env ctx email password captcha ip ua)
      (fun _ w' => w'.db.Held u t known) w := by
  have hq : (leavesLock u).Quiet := leavesLock_quiet
  refine wp_held_seq (each_loginLimits hq) hw fun _ w₁ hw₁ hn₁ =>
    wp_held_query hw₁ fun w₂ hdb hn₂ => ?_
  have hw₂ : w₂.db.Held u t known := hdb ▸ hw₁
  cases huser : w₁.db.userByEmail env ctx (env.normalize email) with
  | none => exact wp_held (each_unknownUser hq) hw₂
  | some user =>
    by_cases hid : user.id = u
    · -- the row found is the locked one
      obtain ⟨row, hrow, e, he, hle⟩ := hw₁.locked
      have hrow' := userRow_of_mem (Table.mem_of_first? huser).1
      obtain rfl : row = user := by
        rw [hid, hrow] at hrow'
        exact Option.some.inj hrow'
      have hlt : w₂.now < e := by omega
      refine wp_seq (wp_mono (wp_and (gives_loginGates_locked he hlt)
        (wp_held (each_loginGates hq) hw₂)) fun r w₃ h₃ => ?_)
      cases r with
      | error e => exact h₃.2
      | ok a => exact (h₃.1 a rfl).elim
    · refine wp_held (each_bind (each_loginGates hq) fun _ =>
        each_bind (each_comparePassword trivial) fun _ =>
          each_bind (each_refuseAfter (each_recordFailedLogin hq fun _ => leavesLock_update hid))
            fun _ => each_bind (each_usersUpdate trivial (leavesLock_update hid)) fun _ =>
              each_bind (each_storeDelete trivial trivial) fun _ =>
                each_checkMFAOrIssueTokensAudited hq (leavesLock_issues hid)
                  fun _ _ _ => trivial) hw₂

theorem held_completeMFALogin {token : Token} {code : String} (hw : w.db.Held u t known)
    (htok : ¬ w.signedFor token u) :
    wp (completeMFALogin env ctx token code ip ua) (fun _ w' => w'.db.Held u t known) w := by
  have hq : (leavesLock u).Quiet := leavesLock_quiet
  refine wp_seq (wp_jwtVerifyAs hw fun c hc _ _ => ?_)
  have hid : c.userID ≠ u := fun h => htok ⟨c, hc, h⟩
  have heach : ∀ ctx, Each (Acts (leavesLock u))
      (completeMFALoginAudited env ctx c.userID code ip ua) := fun ctx =>
    each_bind (each_totpValidateAudited hq leavesLock_factors) fun _ =>
      each_bind_usersFindByID hq (each_throw _) fun user huser =>
        each_bind (each_refuse _ _) fun _ =>
          each_bind (each_issueTokenPair hq (leavesLock_issues (huser ▸ hid))) fun _ =>
            each_bind (each_record hq) fun _ => each_bind (each_record hq) fun _ => each_ret _
  exact wp_of_within (within_audit (within_of_each (heach _))) fun _ _ h => h.held hw

/-- A Google account signs in as the user: it is linked to it, or has its address. -/
def DB.googleAccount (env : Env) (db : DB) (c : GoogleIDTokenClaims) (u : UserID) : Prop :=
  (∃ i ∈ db.oauthIdentities.rows, i.provider = oauthProviderGoogle ∧ i.providerUserID = c.sub ∧
      i.userID = u) ∨
    ∃ user ∈ db.users.rows, user.id = u ∧ env.collate user.email (env.normalize c.email) = true

/-- The user is held, and the Google account does not sign in as it. -/
def DB.HeldFrom (env : Env) (c : GoogleIDTokenClaims) (u : UserID) (t : Nat) (known : List Uuid)
    (db : DB) : Prop :=
  db.Held u t known ∧ ¬ db.googleAccount env c u

/-- Evidence, and links to other users. -/
def linksOthers (u : UserID) : Footprint where
  label _ := True
  stmt x := (∃ e, x = .insertAudit e) ∨ ∃ i : OAuthIdentity, i.userID ≠ u ∧ x = .insertIdentity i
  mail _ := True
  key _ := True

theorem linksOthers_quiet : (linksOthers u).Quiet :=
  ⟨⟨trivial, fun _ => trivial, fun _ => trivial, fun _ _ => trivial⟩, fun e => .inl ⟨e, rfl⟩,
    fun _ _ => trivial⟩

theorem heldFrom_exec (hx : (linksOthers u).stmt x) (h : db.HeldFrom env c u t known) :
    (db.exec x).HeldFrom env c u t known := by
  rcases hx with ⟨e, rfl⟩ | ⟨i, hi, rfl⟩
  · exact ⟨held_exec (leavesLock_plain rfl fun h => by cases h) h.1, h.2⟩
  · refine ⟨held_exec (leavesLock_plain rfl fun h => by cases h) h.1, ?_⟩
    rintro (⟨j, hj, hp, hs, hu⟩ | hrow)
    · rcases Table.mem_insert_getD hj with hj | rfl
      · exact h.2 (.inl ⟨j, hj, hp, hs, hu⟩)
      · exact hi hu
    · exact h.2 (.inr hrow)

theorem yields_linksOthers (hp : Each (Acts (linksOthers u)) p) :
    Yields (DB.HeldFrom env c u t known) (fun _ => True) p :=
  yields_of_each (fun _ _ hx => heldFrom_exec hx) hp

theorem yields_attachableUser : Yields (DB.HeldFrom env c u t known) (fun user => user.id ≠ u)
      (attachableUser env ctx c (env.normalize c.email)) := by
  have hquery : Yields (DB.HeldFrom env c u t known) (fun o => ∀ user, o = some user → user.id ≠ u)
      (usersFindByEmail env ctx (env.normalize c.email)) := by
    refine yields_query fun db hI user hu hid => hI.2 (.inr ⟨user, ?_⟩)
    obtain ⟨hm, hp⟩ := Table.mem_of_first? hu
    exact ⟨hm, hid, ((Bool.and_eq_true _ _).mp hp).1⟩
  refine yields_bind (yields_wrap hquery) fun user huser => ?_
  rcases user with _ | user
  · refine yields_bind (yields_linksOthers (each_wrap (each_query trivial))) fun _ _ =>
      yields_bind (yields_linksOthers (each_draw trivial)) fun _ _ =>
        yields_bind (yields_linksOthers (each_draw trivial)) fun id _ =>
          yields_mapDuplicateKey (yields_usersCreate_of fun db hI hno => ?_)
    obtain ⟨row, hrow, -⟩ := hI.1.locked
    have hne := ne_of_userRow hrow hno
    refine ⟨⟨held_exec (leavesLock_plain rfl fun h => by cases h) hI.1, ?_⟩, hne⟩
    rintro (hlink | ⟨x, hx, hid, hmail⟩)
    · exact hI.2 (.inl hlink)
    · rcases Table.mem_insert_getD hx with hx | rfl
      · exact hI.2 (.inr ⟨x, hx, hid, hmail⟩)
      · exact hne hid
  · exact yields_bind (yields_linksOthers (each_refuse _ _)) fun _ _ => yields_ret (huser user rfl)

/-- **The account behind another Google account is another one.** -/
theorem yields_findOrCreateUser_other :
    Yields (DB.HeldFrom env c u t known) (fun user => user.id ≠ u)
      (findOrCreateUser env ctx c (env.normalize c.email) ip) := by
  have hident : Yields (DB.HeldFrom env c u t known) (fun o => ∀ i, o = some i → i.userID ≠ u)
      (oauthFindByProviderAndProviderUserID ctx oauthProviderGoogle c.sub) := by
    refine yields_query fun db hI i hi hid => hI.2 (.inl ⟨i, ?_⟩)
    obtain ⟨hm, hp⟩ := Table.mem_of_first? hi
    simp only [Bool.and_eq_true, decide_eq_true_eq] at hp
    exact ⟨hm, hp.1.1, hp.1.2, hid⟩
  refine yields_bind (yields_wrap hident) fun ident hident => ?_
  rcases ident with _ | ident
  · exact yields_bind yields_attachableUser fun user huser =>
      yields_bind (yields_linksOthers (each_linkIdentity linksOthers_quiet fun i hi =>
        .inr ⟨i, hi ▸ huser, rfl⟩)) fun _ _ => yields_ret huser
  · have hfind : Yields (DB.HeldFrom env c u t known)
        (fun o => ∀ user, o = some user → user.id ≠ u) (usersFindByID ctx ident.userID) :=
      yields_query fun db _ user hu => (DB.userByID_spec hu).2.1 ▸ hident ident rfl
    refine yields_bind (yields_wrap hfind) fun user huser => ?_
    rcases user with _ | user
    · exact yields_fail _
    · exact yields_ret (huser user rfl)

theorem held_handleCallback {reply : GoogleReply} {state : Option Uuid} (hw : w.db.Held u t known)
    (hc : ∀ c, reply = .claims c → ¬ w.db.googleAccount env c u) :
    wp (handleCallbackAudited env ctx reply state ip ua) (fun _ w' => w'.db.Held u t known) w := by
  have hq : (leavesLock u).Quiet := leavesLock_quiet
  cases reply with
  | exchangeFailed =>
    exact wp_held (each_bind (each_consumeState hq fun _ => trivial) fun _ => each_throw _) hw
  | invalidIDToken =>
    exact wp_held (each_bind (each_consumeState hq fun _ => trivial) fun _ => each_throw _) hw
  | claims c =>
    have hstate : Each (Acts (linksOthers u)) (consumeState state) :=
      each_consumeState linksOthers_quiet.toBasic fun _ => trivial
    refine wp_yields_seq (yields_linksOthers hstate) ⟨hw, hc c rfl⟩ (fun _ _ h => h.1)
      fun nonce w₁ h₁ _ => ?_
    have hclaims : Yields (DB.HeldFrom env c u t known) (fun x => x = c)
        (verifiedClaims (.claims c) nonce) :=
      yields_bind (yields_linksOthers (each_refuse _ _)) fun _ _ =>
        yields_bind (yields_linksOthers (each_refuse _ _)) fun _ _ => yields_ret rfl
    refine wp_yields_seq hclaims h₁ (fun _ _ h => h.1) fun x w₂ h₂ hx => ?_
    subst hx
    refine wp_yields_seq yields_findOrCreateUser_other h₂ (fun _ _ h => h.1)
      fun user w₃ h₃ huser => ?_
    exact wp_held (each_bind (each_refuse _ _) fun _ =>
      each_checkMFAOrIssueTokensAudited hq (leavesLock_issues huser) fun _ _ _ => trivial) h₃.1

/-! ## Steps -/

/-- The call changes the password of the user. -/
def Request.changesCredential (w : World) (u : UserID) : Request → Prop
  | .resetPassword token _ _ => w.signedFor token u
  | .changePassword v _ _ _ => v = u
  | _ => False

/-- The step may set the lock of the user: a credential change, or an administrator. -/
def Step.setsLock (w : World) (u : UserID) : Step → Prop
  | .event (.call _ r) => r.changesCredential w u
  | .event _ => False
  | .admin _ (.lockUser _ v _ _) => v = u
  | .admin _ (.unlockUser _ v _) => v = u
  | .admin _ _ => False

/-- The call signs in: with a password, with a second factor, or with Google. -/
def Request.signsIn : Request → Bool
  | .login .. => true
  | .completeMFALogin .. => true
  | .handleCallback .. => true
  | _ => false

/-- The call is a second factor or a Google sign-in of the user. -/
def Request.passesBy (env : Env) (w : World) (u : UserID) : Request → Prop
  | .completeMFALogin token _ _ _ => w.signedFor token u
  | .handleCallback reply _ _ _ => ∃ c, reply = .claims c ∧ w.db.googleAccount env c u
  | _ => False

variable {w : World} {s : Step} {r : Request}

theorem setsLock_of_kind {k : Kind} (hk : k ∈ lockKinds) (hmay : r.may k = true)
    (hlogin : r.may .failedAttempt = false) (hw : r.writesTo w u) : r.changesCredential w u := by
  have hno : (lockKinds.any r.may = true → False) → False := fun h =>
    h (List.any_eq_true.2 ⟨k, hk, hmay⟩)
  cases r with
  | resetPassword => exact hw
  | changePassword => exact hw
  | login => cases hlogin
  | _ => exact (hno fun h => by cases h).elim

/-- The audited body behind a call keeps the user held. -/
theorem held_of_wp (h : wp p (fun _ w' => w'.db.Held u t known) { w with op := {} })
    (hw : w.db.Held u t known) {g : α → Option TokenPair} :
    ((runAuditOperation p >>= fun x => .ret (g x)).run w).2.db.Held u t known := by
  have hwp : wp (runAuditOperation p >>= fun x => .ret (g x))
      (fun _ w' => w'.db.Held u t known) w := by
    refine wp_seq (wp_mono (wp_audit_db (I := fun _ db => db.Held u t known)
      (wp_mono h fun _ _ h _ => h) fun _ => hw) fun r _ h => ?_)
    cases r <;> exact h
  exact hwp

/-- **No sign-in opens a session for a locked user**, the two that do not look at the lock apart. -/
theorem held_signsIn (hr : r.signsIn = true) (hw : w.db.Held u t known) (hnow : w.now < t)
    (hby : ¬ r.passesBy env w u) : (advance env (.call ctx r) w).2.db.Held u t known := by
  cases r with
  | login => exact held_of_wp (held_login hw hnow) hw
  | completeMFALogin token code ip ua =>
    have hwp : wp (serve env ctx (.completeMFALogin token code ip ua))
        (fun _ w' => w'.db.Held u t known) w := by
      refine wp_seq (wp_mono (held_completeMFALogin hw hby) fun r _ h => ?_)
      cases r <;> exact h
    exact hwp
  | handleCallback => exact held_of_wp (held_handleCallback hw fun c hc hg => hby ⟨c, hc, hg⟩) hw
  | _ => cases hr

/-- What a user has before a call is known. -/
theorem held_of_lockedTo (h : db.LockedTo u t) : db.Held u t (db.sessions.rows.map Session.id) :=
  ⟨h, fun _ hs _ => List.mem_map_of_mem hs⟩

/-- **A step keeps the lock**, unless it is a credential change or an administrator's. -/
theorem lockedTo_step (h : w.db.LockedTo u t) (hnow : w.now < t) (hs : ¬ s.setsLock w u) :
    (advance env s w).2.db.LockedTo u t := by
  by_cases hlogin : ∃ ctx r, s = .call ctx r ∧ r.may .failedAttempt = true
  · obtain ⟨ctx, r, rfl, hmay⟩ := hlogin
    cases r with
    | login email password captcha ip ua =>
      have hby : ¬ (Request.login email password captcha ip ua).passesBy env w u := fun h => h
      exact (held_signsIn rfl (held_of_lockedTo h) hnow hby).locked
    | _ => cases hmay
  refine advance_keeps (I := DB.LockedTo u t) (fun _ _ h => ⟨h, h⟩)
    (fun db x hx h => lockedTo_exec h fun c y hy hmem => hs ?_) h
  have hkind := kind_of_userWrite hy
  cases s with
  | admin ctx a =>
    have hmay : a.may y.kind = true := hkind ▸ hx.1
    have hto : u = a.target := hx.2 _ _ _ hy
    have hno : (lockKinds.any a.may = true → False) → False := fun h =>
      h (List.any_eq_true.2 ⟨_, hmem, hmay⟩)
    cases a with
    | lockUser => exact hto.symm
    | unlockUser => exact hto.symm
    | _ => exact (hno fun h => by cases h).elim
  | event ev =>
    cases ev with
    | outside o => exact hx.elim
    | purgeRefreshTokens => exact hx.elim
    | call ctx r =>
      refine setsLock_of_kind hmem (hkind ▸ hx.1) ?_ (hx.2 _ _ _ hy)
      exact Bool.eq_false_iff.2 fun hmay => hlogin ⟨ctx, r, rfl, hmay⟩

/-! ## After the lock -/

/-- The lock end that `LockUser` computes at `now`. -/
def lockEnd (now : Nat) (d : Int) : Nat := now + if d ≤ 0 then indefiniteLock else d.toNat

theorem gives_lockUser {adminID : UserID} {d : Int} :
    Gives (fun _ w' => w'.db.LockedTo u (lockEnd w.now d) ∧ w'.now = w.now)
      (serveAdmin ctx (.lockUser adminID u d ip)) w := by
  have hbody : Gives (fun _ w' => w'.db.LockedTo u (lockEnd w.now d) ∧ w'.now = w.now)
      (lockUserAudited ctx adminID u d ip) { w with op := {} } := by
    refine gives_after (F := anything) (each_refuse _ _) fun _ w₁ h₁ =>
      gives_after (F := anything) (each_adminTarget anything_quiet) fun target w₂ h₂ => ?_
    have hn₂ : w₂.now = w.now := h₂.now.trans h₁.now
    refine gives_seq ?_
    unfold Gives
    intro now hnow
    cases hnow
    refine gives_before (F := leavesLock u) (P := fun _ w' =>
      w'.db.LockedTo u (lockEnd w.now d) ∧ w'.now = w.now) ?_
      (fun _ => each_record leavesLock_quiet.calm) fun _ _ w₃ w' h₃ hr =>
        ⟨hr.keeps (fun _ x hx h => lockedTo_exec h hx.1) h₃.1, hr.now.trans h₃.2⟩
    unfold usersSetLock usersUpdate ownedWrite
    refine gives_repo fun _ o w₃ h hex => ?_
    split at h
    · rename_i ho
      cases h
      obtain ⟨row, hrow⟩ := Option.isSome_iff_exists.1 ho
      refine ⟨?_, hex.now.trans hn₂⟩
      rw [hex.db, ← hn₂]
      exact ⟨_, userRow_write rfl hrow, _, rfl, Nat.le_refl _⟩
    · cases h
  refine gives_audit hbody fun _ w' h => ?_
  rw [fault_db, fault_now]
  exact h

theorem advance_now : w.now ≤ (advance env s w).2.now := by
  cases s with
  | admin ctx a =>
    rw [advance, run_noPair]
    exact Nat.le_of_eq (admin_ran ctx a w).now.symm
  | event ev =>
    cases ev with
    | call ctx r => exact Nat.le_of_eq (serve_ran env ctx r w).now.symm
    | purgeRefreshTokens => exact Nat.le_refl _
    | outside o =>
      cases o with
      | tick ms => exact Nat.le_add_right _ _
      | loseKey k => exact Nat.le_refl _
      | purgeUsedTokens => exact Nat.le_refl _

/-- The state after `LockUser`. -/
def afterLock (env : Env) (ctx : Ctx) (adminID u : UserID) (d : Int) (ip : String) (w : World) :
    Reply × World :=
  advance env (.admin ctx (.lockUser adminID u d ip)) w

/-- **The lock holds** until its end, in every run after it without a credential change of the user
and without another `LockUser` or `UnlockUser` of it: `locked_until` is neither cleared nor
shortened, and in every state reached no sign-in opens a session for the user, a second factor or a
Google sign-in of the user itself apart. Any calls may fail. -/
theorem lock_holds (env : Env) {ctx : Ctx} {adminID u : UserID} {d : Int} {ip : String} {w : World}
    (hok : ∃ pair, (afterLock env ctx adminID u d ip w).1 = .ok pair) (later : List Step)
    (hlater : (Run.init (afterLock env ctx adminID u d ip w).2 : SystemRun).Meets (advance env)
      (fun s r => ¬ s.setsLock r.state u) later) :
    let w' := (systemRun env (afterLock env ctx adminID u d ip w).2 later).state
    w'.now < lockEnd w.now d →
      w'.db.LockedTo u (lockEnd w.now d) ∧
      ∀ (ctx' : Ctx) (r : Request), r.signsIn = true → ¬ r.passesBy env w' u →
        ∀ x ∈ (advance env (.call ctx' r) w').2.db.sessions.rows, x.userID = u →
          ∃ y ∈ w'.db.sessions.rows, y.id = x.id := by
  intro w' hnow
  obtain ⟨pair, hpair⟩ := hok
  have hgives : Gives (fun _ w' => w'.db.LockedTo u (lockEnd w.now d) ∧ w'.now = w.now)
      (noPair (serveAdmin ctx (.lockUser adminID u d ip))) w :=
    gives_then gives_lockUser fun _ _ h => gives_ret h
  have hlocked : w'.now < lockEnd w.now d → w'.db.LockedTo u (lockEnd w.now d) := by
    refine Run.exec_induct_meets (I := fun r : SystemRun =>
      r.state.now < lockEnd w.now d → r.state.db.LockedTo u (lockEnd w.now d)) ?_ later
      (fun _ => (hgives pair hpair).1) hlater
    intro r s ih hs hlt
    have hbefore : r.state.now < lockEnd w.now d := Nat.lt_of_le_of_lt advance_now hlt
    exact lockedTo_step (ih hbefore) hbefore hs
  refine ⟨hlocked hnow, fun ctx' r hr hby x hx hu => ?_⟩
  have hheld : (advance env (.call ctx' r) w').2.db.Held u (lockEnd w.now d)
      (w'.db.sessions.rows.map Session.id) :=
    held_signsIn hr (held_of_lockedTo (hlocked hnow)) hnow hby
  obtain ⟨y, hy, hid⟩ := List.mem_map.1 (hheld.sessions x hx hu)
  exact ⟨y, hy, hid⟩

/-- The state after `jose` was locked for `d` milliseconds. -/
def sampleLocked (d : Int) : World := (afterLock (.plain .sample) .sample 2 1 d "ip" .sample).2

/-- `jose`, locked for a minute, tries the right password and asks for a reset mail. -/
theorem lock_holds_jose :
    let w' := (systemRun (.plain .sample) (sampleLocked 60000)
      [.call .sample (.login "jose@x.io" "password1" "" "ip" "ua"),
        .call .sample (.forgotPassword "jose@x.io"), .event (.outside (.tick 1000))]).state
    w'.db.LockedTo 1 1060000 ∧
      ∀ (ctx' : Ctx) (r : Request), r.signsIn = true → ¬ r.passesBy (.plain .sample) w' 1 →
        ∀ x ∈ (advance (.plain .sample) (.call ctx' r) w').2.db.sessions.rows, x.userID = 1 →
          ∃ y ∈ w'.db.sessions.rows, y.id = x.id :=
  lock_holds (.plain .sample) (w := .sample) (d := 60000) ⟨none, by decide +kernel⟩ _
    ⟨fun h => h, fun h => h, fun h => h, trivial⟩ (by decide +kernel)

/-- **The lock does not hold**: `jose`, locked for ten years, asks for a reset mail, sets another
password, and the lock is gone; and the Google account with the address of `jose` signs in while the
lock is there. -/
theorem lock_lifted :
    let w := sampleLocked 0
    let reset := (systemRun (.plain .sample) w [.call .sample (.forgotPassword "jose@x.io"),
      .call .sample (.resetPassword 0 "password2" "ip")]).state
    let google := (systemRun (.plain .sample) w [.call .sample .oauthBeginLogin]).state
    let callback := advance (.plain .sample) (.call .sample (.handleCallback
      (.claims ⟨"sub", "jose@x.io", true, "", "101"⟩) (some 100) "ip" "ua")) google
    (w.db.userRow? 1).bind User.lockedUntil = some (lockEnd 1000000 0) ∧
      (reset.db.userRow? 1).map User.lockedUntil = some none ∧
      reset.now < lockEnd 1000000 0 ∧
      ReturnedPair (advance (.plain .sample)
        (.call .sample (.login "jose@x.io" "password2" "" "ip" "ua")) reset).1 ∧
      google.db.sessions.rows = [] ∧
      callback.2.db.sessions.rows.map Session.userID = [1] ∧
      (callback.2.db.userRow? 1).bind User.lockedUntil = some (lockEnd 1000000 0) := by
  decide +kernel

end FinnAuth
