import FinnAuth.Footprint.Login

/-!
# Which mailbox an account answers to

The users table has no binary collation: a lookup by email also finds a row whose stored address
differs in case or accents. Four flows start from such a lookup and hand something out: a reset
token, a verification token (twice), a Google link. The account stays with its mailbox if the
token goes to the address stored in the row and if a link is made only for an equal address.

`ResendVerifyEmail` and `Register` mail to the stored address. `ForgotPassword` mails to the
address of the request, and the Google callback takes the row the lookup found. So the account is
safe exactly from those addresses that no stored address merely resembles.

Results:
* **`flowsKeepMailbox_iff`**: the four flows, started from one address, keep every account with
  its mailbox if and only if no row of the tenant has an address the collation takes for this one
  although it is another;
* `accent_takes_account`: a reset token and a Google link for `jose@x.io`, obtained with
  `josé@x.io`.
-/

namespace FinnAuth

open Lib Prog

/-! ## Deliveries -/

/-- The address a mail goes to. -/
def Mail.rcpt : Mail → String
  | passwordReset r _ => r
  | emailVerification r _ => r
  | securityAlert r _ _ => r
  | duplicateRegisterAlert r => r
  | newLoginAlert r _ _ => r

/-- The claims of the signed token a mail carries. -/
def Mail.claims? (signed : List Claims) (m : Mail) : Option Claims :=
  match m.token? with
  | some (.jwt t) => signed[t]?
  | _ => none

/-- The token in the mail, if any, goes to the stored address of the user it was issued for. -/
def Mail.ToOwner (signed : List Claims) (users : List User) (m : Mail) : Prop :=
  ∀ c ∈ m.claims? signed, ∀ u ∈ users, u.id = c.userID → m.rcpt = u.email

instance (signed : List Claims) (users : List User) (m : Mail) :
    Decidable (m.ToOwner signed users) :=
  inferInstanceAs (Decidable (∀ c ∈ m.claims? signed, ∀ u ∈ users, u.id = c.userID →
    m.rcpt = u.email))

/-- Every token mailed between `w` and `w'` went to its owner, by the rows in `users`. -/
def Delivered (w w' : World) (users : List User) : Prop :=
  ∀ m ∈ w'.outbox.drop w.outbox.length, m.ToOwner w'.signed users

instance (w w' : World) (users : List User) : Decidable (Delivered w w' users) :=
  inferInstanceAs (Decidable (∀ m ∈ w'.outbox.drop w.outbox.length, m.ToOwner w'.signed users))

/-- Every Google link made between `db` and `db'` is to an account stored under `email`. -/
def LinkedOnly (email : String) (db db' : DB) : Prop :=
  ∀ i ∈ db'.oauthIdentities.rows, i ∉ db.oauthIdentities.rows →
    ∀ u ∈ db'.users.rows, u.id = i.userID → u.email = email

instance (email : String) (db db' : DB) : Decidable (LinkedOnly email db db') :=
  inferInstanceAs (Decidable (∀ i ∈ db'.oauthIdentities.rows, i ∉ db.oauthIdentities.rows →
    ∀ u ∈ db'.users.rows, u.id = i.userID → u.email = email))

/-- The four flows from one address, in every world with these users. The rows may stand in any
order: a lookup without `ORDER BY` may return any row that matches. -/
structure FlowsKeepMailbox (env : Env) (ctx : Ctx) (users : Table User.id) (email : String) :
    Prop where
  forgotPassword : ∀ w, w.db.users.rows.Perm users.rows →
    wp (FinnAuth.forgotPassword env ctx email) (fun _ w' => Delivered w w' w'.db.users.rows) w
  resendVerifyEmail : ∀ w ip, w.db.users.rows.Perm users.rows →
    wp (FinnAuth.resendVerifyEmail env ctx email ip)
      (fun _ w' => Delivered w w' w'.db.users.rows) w
  register : ∀ w in_, w.db.users.rows.Perm users.rows → in_.email = email →
    wp (FinnAuth.register env ctx in_) (fun _ w' => Delivered w w' w'.db.users.rows) w
  handleCallback : ∀ w c state ip ua, w.db.users.rows.Perm users.rows → c.email = email →
    wp (FinnAuth.handleCallback env ctx (.claims c) state ip ua)
      (fun _ w' => LinkedOnly (env.normalize email) w.db w'.db) w

variable {env : Env} {ctx : Ctx} {α : Type}

/-! ## Parts that deliver no token -/

variable {w w' w₀ w'' : World} {ip email : String} {claims : GoogleIDTokenClaims}
  {users : List User} {user : User} {c : Claims} {p : M α} {m : Mail}
  {Q : Except Err α → World → Prop} {in_ : RegisterInput}

/-- No new token, no token in a mail, no write to the users. -/
def mute : Footprint where
  label l := ∀ c, l ≠ .sign c
  stmt s := ∀ db : DB, (db.exec s).users = db.users
  mail m := m.token? = none
  key _ := True

theorem mute_quiet : mute.Quiet where
  other _ := by simp
  site _ _ := by simp
  findUser _ _ := by simp
  audit _ _ := rfl
  mail _ h := h
  key _ _ := trivial

/-- Nothing signed, and no token in a new mail. -/
structure Silent (w w' : World) : Prop where
  signed : w'.signed = w.signed
  outbox : ∃ ms, w'.outbox = w.outbox ++ ms ∧ ∀ m ∈ ms, m.token? = none

/-- What a part within `mute` leaves behind. -/
structure Muted (w w' : World) : Prop extends Silent w w' where
  users : w'.db.users = w.db.users

theorem Ran.muted (h : Ran mute w w') : Muted w w' := by
  refine ⟨⟨?_, h.outbox⟩, h.same fun db s hs => hs db⟩
  obtain ⟨cs, hcs, hc⟩ := h.signed
  rcases cs with _ | ⟨c, cs⟩
  · simpa using hcs
  · exact absurd rfl (hc c List.mem_cons_self c)

theorem wp_mute (hp : Each (Acts mute) p) (hQ : ∀ r w', Muted w w' → Q r w') : wp p Q w :=
  wp_of_within (within_of_each hp) fun r w' h => hQ r w' h.muted

theorem Silent.trans (h : Silent w w') (h' : Silent w' w'') : Silent w w'' := by
  obtain ⟨ms, hms, hm⟩ := h.outbox
  obtain ⟨ms', hms', hm'⟩ := h'.outbox
  refine ⟨h'.signed.trans h.signed, ms ++ ms', ?_, ?_⟩
  · rw [hms', hms, List.append_assoc]
  · exact fun m hmem => (List.mem_append.1 hmem).elim (hm m) (hm' m)

theorem Muted.trans (h : Muted w w') (h' : Muted w' w'') : Muted w w'' :=
  ⟨h.toSilent.trans h'.toSilent, h'.users.trans h.users⟩

theorem toOwner_of_token_none {signed : List Claims} (h : m.token? = none) :
    m.ToOwner signed users := by
  intro c hc
  simp [Mail.claims?, h] at hc

theorem Delivered.silent (h : Delivered w w' users) (hlen : w.outbox.length ≤ w'.outbox.length)
    (hm : Silent w' w'') : Delivered w w'' users := by
  obtain ⟨ms, hms, htok⟩ := hm.outbox
  intro m hmem
  rw [hms, List.drop_append_of_le_length hlen] at hmem
  rcases List.mem_append.1 hmem with hmem | hmem
  · rw [hm.signed]
    exact h m hmem
  · exact toOwner_of_token_none (htok m hmem)

theorem Silent.delivered (h : Silent w w') : Delivered w w' users := by
  have h0 : Delivered w w users := fun m hm => by simp at hm
  exact h0.silent Nat.le.refl h

/-- A token that was signed and mailed to the address its owner is stored under. -/
theorem delivered_issue {w w₁ w₂ : World} (h : Silent w w₁) (hsigned : w₂.signed = w₁.signed ++ [c])
    (hout : w₂.outbox = w₁.outbox ∨ w₂.outbox = w₁.outbox ++ [m])
    (hm : m.token? = some (.jwt w₁.signed.length))
    (howner : ∀ u ∈ users, u.id = c.userID → m.rcpt = u.email) : Delivered w w₂ users := by
  obtain ⟨ms, hms, htok⟩ := h.outbox
  intro m' hmem
  have hm' : m' ∈ ms ∨ m' = m := by
    rcases hout with hout | hout
    · rw [hout, hms, List.drop_left] at hmem
      exact .inl hmem
    · rw [hout, hms, List.append_assoc, List.drop_left] at hmem
      simpa using hmem
  rcases hm' with hm' | rfl
  · exact toOwner_of_token_none (htok m' hm')
  · intro c' hc'
    rw [Mail.claims?, hm, hsigned] at hc'
    simp only [List.getElem?_append_right Nat.le.refl, Nat.sub_self, List.getElem?_cons_zero,
      Option.mem_def, Option.some.injEq] at hc'
    rw [← hc']
    exact howner

theorem wp_notify_issued {w w₁ w₂ : World} {Q : Except Err Unit → World → Prop} (h : Silent w w₁)
    (hsigned : w₂.signed = w₁.signed ++ [c]) (hout : w₂.outbox = w₁.outbox)
    (hm : m.token? = some (.jwt w₁.signed.length))
    (howner : ∀ u ∈ users, u.id = c.userID → m.rcpt = u.email)
    (hQ : ∀ r w', Delivered w w' users → w.outbox.length ≤ w'.outbox.length → w'.db = w₂.db →
      Q r w') : wp (notify m) Q w₂ := by
  obtain ⟨ms, hms, -⟩ := h.outbox
  rw [wp_notify]
  refine ⟨fun _ => hQ _ _ ?_ ?_ (by simp), fun _ => hQ _ _ ?_ ?_ (by simp)⟩
  · exact delivered_issue h (by simpa using hsigned) (.inl (by simpa using hout)) hm howner
  · simp [hout, hms]
  · exact delivered_issue h (by simpa using hsigned) (.inr (by simpa using hout)) hm howner
  · simp [hout, hms]

/-! ## Mailed tokens -/

/-- No row of the tenant has an address the collation takes for `email` although it is another. -/
def NoLookalike (env : Env) (ctx : Ctx) (users : List User) (email : String) : Prop :=
  ∀ u ∈ users, u.tenantID = ctx.tenant → env.collate u.email email = true → u.email = email

instance (env : Env) (ctx : Ctx) (users : List User) (email : String) :
    Decidable (NoLookalike env ctx users email) :=
  inferInstanceAs (Decidable (∀ u ∈ users, u.tenantID = ctx.tenant →
    env.collate u.email email = true → u.email = email))

theorem wp_usersFindByEmail {Q : Except Err (Option User) → World → Prop}
    (herr : ∀ e, Q (.error e) w.fault.2)
    (hok : ∀ r, (∀ u, r = some u → u ∈ w.db.users.rows ∧ u.tenantID = ctx.tenant ∧
      env.collate u.email email = true) → Q (.ok r) w.fault.2) :
    wp (usersFindByEmail env ctx email) Q w := by
  rw [usersFindByEmail, wp_query]
  refine ⟨fun _ => herr _, fun _ => hok _ fun u hu => ?_⟩
  obtain ⟨hmem, hp⟩ := Table.mem_of_first? hu
  obtain ⟨hcol, hten⟩ := (Bool.and_eq_true _ _).mp hp
  exact ⟨hmem, by simpa using hten, hcol⟩

theorem muted_fault (w : World) : Muted w w.fault.2 := (ran_fault w).muted

/-- A token for the row `user`, mailed to `rcpt`, goes to its owner if that is the stored address.
-/
theorem owner_of_row {t : Table User.id} {rcpt : String} (hmem : user ∈ t.rows)
    (hc : c.userID = user.id) (hr : rcpt = user.email) :
    ∀ u ∈ t.rows, u.id = c.userID → rcpt = u.email := by
  intro u hu hid
  rw [t.eq_of_key_eq hu hmem (hid.trans hc), hr]

theorem wp_forgotPassword (h : NoLookalike env ctx w.db.users.rows (env.normalize email)) :
    wp (forgotPassword env ctx email) (fun _ w' => Delivered w w' w'.db.users.rows) w := by
  refine wp_seq (wp_of_within (within_admitBeforeExternal mute_quiet) fun r w₁ h₁ => ?_)
  have h₁ := h₁.muted
  rcases r with e | _
  · exact h₁.toSilent.delivered
  rw [thenWp_ok]
  refine wp_seq ?_
  rw [wp_wrap]
  have h₂ := h₁.trans (muted_fault w₁)
  refine wp_usersFindByEmail (fun e => h₂.toSilent.delivered) fun user huser => ?_
  simp only [Except.mapError, thenWp_ok]
  rcases user with _ | user
  · exact h₂.toSilent.delivered
  obtain ⟨hmem, hten, hcol⟩ := huser user rfl
  rw [h₁.users] at hmem
  refine wp_seq ?_
  refine wp_jwtIssue (fun e _ => h₂.toSilent.delivered) fun c hc _ _ => ?_
  rw [thenWp_ok, wp_wrap]
  refine wp_notify_issued h₂.toSilent rfl rfl rfl
    (owner_of_row hmem hc (h user hmem hten hcol).symm) fun r w' hd _ hdb => ?_
  rw [hdb, h₂.users]
  exact hd

theorem wp_resendIssue (h₀ : Muted w₀ w) :
    wp (resendIssue env ctx email) (fun _ w' => Delivered w₀ w' w'.db.users.rows) w := by
  refine wp_seq (wp_of_within (within_admitBeforeExternal mute_quiet) fun r w₁ h₁ => ?_)
  have h₁ := h₀.trans h₁.muted
  rcases r with e | _
  · exact h₁.toSilent.delivered
  rw [thenWp_ok]
  refine wp_seq ?_
  rw [wp_wrap]
  have h₂ := h₁.trans (muted_fault w₁)
  refine wp_usersFindByEmail (fun e => h₂.toSilent.delivered) fun user huser => ?_
  simp only [Except.mapError, thenWp_ok]
  split
  · exact h₂.toSilent.delivered
  rename_i user' huser'
  obtain ⟨hmem, -⟩ := huser user' (Option.filter_eq_some_iff.1 huser').1
  rw [h₁.users] at hmem
  refine wp_seq ?_
  refine wp_jwtIssue (fun e _ => h₂.toSilent.delivered) fun c hc _ _ => ?_
  rw [thenWp_ok, wp_wrap]
  refine wp_notify_issued h₂.toSilent rfl rfl rfl (owner_of_row hmem hc rfl) fun r w' hd _ hdb => ?_
  rw [hdb, h₂.users]
  exact hd

theorem wp_resendVerifyEmail :
    wp (resendVerifyEmail env ctx email ip) (fun _ w' => Delivered w w' w'.db.users.rows) w := by
  refine wp_seq (wp_mute (each_throttle mute_quiet trivial) fun r w₁ h₁ => ?_)
  rcases r with e | _
  · exact h₁.toSilent.delivered
  rw [thenWp_ok]
  refine wp_seq (wp_mute (each_throttle mute_quiet trivial) fun r w₂ h₂ => ?_)
  have h₂ := h₁.trans h₂
  rcases r with e | _
  · exact h₂.toSilent.delivered
  rw [thenWp_ok]
  split
  · exact wp_of_within (within_admitBeforeExternal mute_quiet) fun r w₃ h₃ =>
      (h₂.trans h₃.muted).toSilent.delivered
  · refine wp_seq (wp_mute (each_throttle mute_quiet trivial) fun r w₃ h₃ => ?_)
    have h₃ := h₂.trans h₃
    rcases r with e | _
    · exact h₃.toSilent.delivered
    · exact wp_resendIssue h₃

/-! ## Registration -/

/-- `Create` adds the row under a key that was free, or fails and changes nothing. -/
theorem wp_usersCreate {Q : Except Err User → World → Prop}
    (herr : ∀ e w', Muted w w' → w'.db.oauthIdentities = w.db.oauthIdentities → Q (.error e) w')
    (hok : ∀ u w', u = { user with tenantID := ctx.tenant } → Silent w w' →
      w'.db.users.rows = w.db.users.rows ++ [u] → u.id ∉ w.db.users.rows.map User.id →
      w'.db.oauthIdentities = w.db.oauthIdentities → Q (.ok u) w') :
    wp (usersCreate env ctx user) Q w := by
  have hmute := muted_fault w
  rw [usersCreate, wp_repo]
  refine ⟨fun _ => herr _ _ hmute (by simp), fun _ => ?_⟩
  have hsame : Muted w { w.fault.2 with db := w.db } := ⟨⟨hmute.signed, hmute.outbox⟩, rfl⟩
  split
  · exact herr _ _ hsame rfl
  · split
    · exact herr _ _ hsame rfl
    · rename_i hfree
      obtain ⟨t, ht, hrows⟩ := Table.insert_of_fresh (t := w.db.users)
        (a := { user with tenantID := ctx.tenant }) hfree
      refine hok _ _ rfl ⟨hmute.signed, hmute.outbox⟩ ?_ hfree rfl
      simp only [DB.execOpt, DB.exec, ht, Option.getD_some, hrows]

/-- Delivered by the rows there are now and by the rows there were before. -/
def DeliveredBoth (w w' : World) : Prop :=
  Delivered w w' w'.db.users.rows ∧ Delivered w w' w.db.users.rows

/-- Such a delivery survives commit and rollback. -/
theorem wp_audit_delivered
    (h : wp p (fun _ w₁ => DeliveredBoth { w with op := {} } w₁) { w with op := {} }) :
    wp (runAuditOperation p) (fun _ w' => Delivered w w' w'.db.users.rows) w := by
  rw [wp_runAuditOperation]
  refine wp_mono h fun r w₁ h₁ => ?_
  rcases closeAudit_cases w.db r w₁ with ⟨hc, -⟩ | ⟨e, hc⟩
  · rw [hc, Delivered, fault_outbox, fault_signed, fault_db]
    exact h₁.1
  · rw [hc, Delivered]
    simp only [fault_outbox, fault_signed]
    exact h₁.2

theorem Silent.both (h : Silent w w') : DeliveredBoth w w' :=
  ⟨h.delivered, h.delivered⟩

theorem wp_sendVerification (h : Silent w₀ w) (hrows : w.db.users.rows = w₀.db.users.rows ++ [user])
    (hfree : user.id ∉ w₀.db.users.rows.map User.id) :
    wp (sendVerification env ctx user ip) (fun _ w' => DeliveredBoth w₀ w') w := by
  have hmem : user ∈ w.db.users.rows := by simp [hrows]
  refine wp_seq ?_
  refine wp_jwtIssue (fun e _ => h.both) fun c hc _ _ => ?_
  rw [thenWp_ok]
  refine wp_seq ?_
  rw [wp_attempt]
  have hnew := owner_of_row hmem hc rfl
  have hall : ∀ u ∈ w.db.users.rows ++ w₀.db.users.rows, u.id = c.userID →
      user.email = u.email := by
    intro u hu hid
    rcases List.mem_append.1 hu with hu | hu
    · exact hnew u hu hid
    · exact absurd (List.mem_map.2 ⟨u, hu, hid.trans hc⟩) hfree
  refine wp_notify_issued h rfl rfl rfl hall fun r w₁ hd hlen hdb => ?_
  have hboth : ∀ w₂, Silent w₁ w₂ → w₂.db.users = w₁.db.users → DeliveredBoth w₀ w₂ := by
    intro w₂ h₂ hu
    refine ⟨fun m hm => ?_, fun m hm => ?_⟩
    · rw [hu, hdb]
      exact fun c hc u hu => hd.silent hlen h₂ m hm c hc u (List.mem_append_left _ hu)
    · exact fun c hc u hu => hd.silent hlen h₂ m hm c hc u (List.mem_append_right _ hu)
  rcases r with e | _
  · exact wp_mute (each_record mute_quiet) fun r w₂ h₂ => hboth w₂ h₂.toSilent h₂.users
  · exact hboth w₁ ⟨rfl, [], by simp, by simp⟩ rfl

theorem wp_registerCreate {username email : String} (h : Muted w₀ w) :
    wp (registerCreate env ctx in_ username email) (fun _ w' => DeliveredBoth w₀ w') w := by
  refine wp_seq (wp_mute (each_hashPassword mute_quiet) fun r w₁ h₁ => ?_)
  have h₁ := h.trans h₁
  rcases r with e | hashed
  · exact h₁.toSilent.both
  rw [thenWp_ok]
  refine wp_seq (wp_mute (each_draw mute_quiet.other) fun r w₂ h₂ => ?_)
  have h₂ := h₁.trans h₂
  rcases r with e | id
  · exact h₂.toSilent.both
  rw [thenWp_ok]
  refine wp_seq ?_
  rw [wp_attempt]
  refine wp_usersCreate (fun e w₃ h₃ _ => ?_) fun user w₃ _ h₃ hrows hfree _ => ?_
  · have h₃ := h₂.trans h₃
    rw [thenWp_ok]
    split
    · rename_i heq
      cases heq
    · exact wp_mute (each_handleDuplicateRegistration mute_quiet) fun r w₄ h₄ =>
        (h₃.trans h₄).toSilent.both
    · exact h₃.toSilent.both
  · have h₃ := h₂.toSilent.trans h₃
    rw [h₂.users] at hrows hfree
    rw [thenWp_ok]
    refine wp_seq (wp_record mute_quiet fun w₄ h₄ => ?_)
    have h₄ := h₄.muted
    rw [thenWp_ok]
    refine wp_seq ?_
    refine wp_mono (wp_sendVerification (h₃.trans h₄.toSilent) (h₄.users ▸ hrows) hfree) ?_
    intro r w₅ h₅
    rcases r with e | _ <;> exact h₅

theorem wp_registerAudited :
    wp (registerAudited env ctx in_) (fun _ w' => DeliveredBoth w w') w := by
  have h₀ : Muted w w := ⟨⟨rfl, [], by simp, by simp⟩, rfl⟩
  unfold registerAudited
  simp only [bind_def, wp_bind, wp_refuse, thenWp_error, thenWp_ok]
  refine ⟨fun _ => h₀.toSilent.both, fun _ => ⟨fun _ => h₀.toSilent.both, fun _ => ?_⟩⟩
  refine wp_mute (each_registerCount mute_quiet) fun r w₁ h₁ => ?_
  rcases r with e | count
  · exact h₁.toSilent.both
  simp only [wp_bind, wp_refuse, thenWp_error, thenWp_ok, wp_wrap]
  refine ⟨fun _ => h₁.toSilent.both, fun _ => ⟨fun _ => h₁.toSilent.both, fun _ => ?_⟩⟩
  refine wp_mute (each_usersFindByEmail mute_quiet) fun r w₂ h₂ => ?_
  have h₂ := h₁.trans h₂
  rcases r with e | _ | existing
  · exact h₂.toSilent.both
  · simp only [Except.mapError, thenWp_ok, wp_bind, wp_wrap]
    refine wp_mute (each_query mute_quiet.other) fun r w₃ h₃ => ?_
    have h₃ := h₂.trans h₃
    rcases r with e | _ | existing
    · exact h₃.toSilent.both
    · exact wp_registerCreate h₃
    · exact wp_mute (each_handleDuplicateRegistration mute_quiet) fun r w₄ h₄ =>
        (h₃.trans h₄).toSilent.both
  · exact wp_mute (each_handleDuplicateRegistration mute_quiet) fun r w₃ h₃ =>
      (h₂.trans h₃).toSilent.both

/-! ## Google sign-in -/

/-- No write to the users or to the links. -/
def keepAccounts : Footprint where
  label _ := True
  stmt s := ∀ db : DB, (db.exec s).users = db.users ∧
    (db.exec s).oauthIdentities = db.oauthIdentities
  mail _ := True
  key _ := True

theorem keepAccounts_quiet : keepAccounts.Quiet where
  other := trivial
  site _ := trivial
  findUser _ := trivial
  audit _ _ := ⟨rfl, rfl⟩
  mail _ _ := trivial
  key _ _ := trivial

theorem keepAccounts_issues (user : User) : keepAccounts.Issues user where
  sign _ _ _ _ := trivial
  sessionCreate _ := trivial
  tokenCreate _ _ := trivial
  touchSession _ _ _ _ _ _ _ _ := ⟨rfl, rfl⟩
  insertSession _ _ _ := ⟨rfl, rfl⟩
  insertToken _ _ _ := ⟨rfl, rfl⟩
  loginAlert _ _ _ := trivial

/-- Users and links are as before. -/
structure Kept (db db' : DB) : Prop where
  users : db'.users = db.users
  links : db'.oauthIdentities = db.oauthIdentities

theorem wp_kept (hp : Each (Acts keepAccounts) p) (hQ : ∀ r w', Kept w.db w'.db → Q r w') :
    wp p Q w :=
  wp_of_within (within_of_each hp) fun r w' h => hQ r w'
    ⟨h.same fun db _ hs => (hs db).1, h.same fun db _ hs => (hs db).2⟩

theorem linkedOnly_of_kept {db db' : DB} (h : db'.oauthIdentities = db.oauthIdentities) :
    LinkedOnly email db db' := by
  intro i hi hnew
  rw [h] at hi
  exact absurd hi hnew

theorem LinkedOnly.kept {db db' db'' : DB} (h : LinkedOnly email db db') (hk : Kept db' db'') :
    LinkedOnly email db db'' := by
  rw [LinkedOnly, hk.links, hk.users]
  exact h

theorem wp_createGoogleUser : wp (createGoogleUser env ctx claims email) (fun r w' =>
      w'.db.oauthIdentities = w.db.oauthIdentities ∧
        ∀ u, r = .ok u → u ∈ w'.db.users.rows ∧ u.email = email) w := by
  simp only [createGoogleUser, mapDuplicateKey, bind_def, wp_bind, wp_wrap]
  refine wp_kept (each_query trivial) fun r w₁ h₁ => ?_
  rcases r with e | existing
  · exact ⟨h₁.links, by simp⟩
  simp only [Except.mapError, thenWp_ok, wp_draw, wp_bind, wp_attempt]
  refine wp_usersCreate (fun e w₂ _ hl => ?_) fun u w₂ hu _ hrows _ hl => ?_
  · split
    · rename_i heq
      cases heq
    · exact ⟨hl.trans h₁.links, fun _ h => by cases h⟩
    · exact ⟨hl.trans h₁.links, fun _ h => by cases h⟩
  · rw [wp_ret]
    refine ⟨hl.trans h₁.links, fun u' hu' => ?_⟩
    obtain rfl : u = u' := by simpa using hu'
    exact ⟨by simp [hrows], by rw [hu]⟩

/-- The account a new identity is attached to is stored under the address. -/
theorem wp_attachableUser (h : NoLookalike env ctx w.db.users.rows email) :
    wp (attachableUser env ctx claims email) (fun r w' =>
      w'.db.oauthIdentities = w.db.oauthIdentities ∧
        ∀ u, r = .ok u → u ∈ w'.db.users.rows ∧ u.email = email) w := by
  rw [attachableUser, bind_def, wp_bind, wp_wrap]
  refine wp_usersFindByEmail (fun e => ⟨by simp, fun _ h => nomatch h⟩) fun user huser => ?_
  simp only [Except.mapError, thenWp_ok]
  rcases user with _ | user
  · refine wp_mono wp_createGoogleUser fun r w₁ h₁ => ⟨by simpa using h₁.1, h₁.2⟩
  · obtain ⟨hmem, hten, hcol⟩ := huser user rfl
    simp only [bind_def, wp_bind, wp_refuse, thenWp_error, thenWp_ok, pure_def, wp_ret]
    refine ⟨fun _ => ⟨by simp, by simp⟩, fun _ => ⟨by simp, fun u hu => ?_⟩⟩
    obtain rfl : user = u := by simpa using hu
    exact ⟨by simpa using hmem, h user hmem hten hcol⟩

/-- `linkIdentity` adds at most one link, to the user in hand. -/
theorem wp_linkIdentity :
    wp (linkIdentity ctx user claims ip) (fun _ w' => w'.db.users = w.db.users ∧
      ∀ i ∈ w'.db.oauthIdentities.rows, i ∈ w.db.oauthIdentities.rows ∨ i.userID = user.id) w := by
  have hold : ∀ {db : DB}, db.oauthIdentities = w.db.oauthIdentities →
      ∀ i ∈ db.oauthIdentities.rows, i ∈ w.db.oauthIdentities.rows ∨ i.userID = user.id :=
    fun h i hi => .inl (h ▸ hi)
  rw [linkIdentity, bind_def, wp_bind, wp_wrap]
  refine wp_kept (each_query trivial) fun r w₁ h₁ => ?_
  rcases r with e | _ | ident
  · exact ⟨h₁.users, hold h₁.links⟩
  · simp only [Except.mapError, thenWp_ok, bind_def, wp_bind, wp_wrap]
    refine wp_repo_of ⟨by simpa using h₁.users, hold (by simpa using h₁.links)⟩ fun r o hf => ?_
    split at hf
    · cases hf
      exact ⟨h₁.users, hold h₁.links⟩
    · split at hf
      · cases hf
        exact ⟨h₁.users, hold h₁.links⟩
      · cases hf
        simp only [thenWp_ok]
        refine wp_kept (each_bind (each_record keepAccounts_quiet) fun _ =>
          each_ignore (each_notify trivial trivial)) fun r w₂ h₂ => ⟨h₂.users.trans h₁.users, ?_⟩
        intro i hi
        rw [h₂.links] at hi
        exact (Table.mem_insert_getD hi).imp (h₁.links ▸ ·) fun h => by rw [h]
  · exact ⟨h₁.users, hold h₁.links⟩

theorem wp_findOrCreateUser (h : NoLookalike env ctx w.db.users.rows email) :
    wp (findOrCreateUser env ctx claims email ip) (fun _ w' => LinkedOnly email w.db w'.db) w := by
  rw [findOrCreateUser, bind_def, wp_bind, wp_wrap]
  refine wp_kept (each_query trivial) fun r w₁ h₁ => ?_
  have hlink₁ : LinkedOnly email w.db w₁.db := linkedOnly_of_kept h₁.links
  rcases r with e | _ | ident
  · exact hlink₁
  · simp only [Except.mapError, thenWp_ok, bind_def, wp_bind]
    rw [← h₁.users] at h
    refine wp_mono (wp_attachableUser h) fun r w₂ h₂ => ?_
    rcases r with e | user
    · exact linkedOnly_of_kept (h₂.1.trans h₁.links)
    obtain ⟨hmem, hemail⟩ := h₂.2 user rfl
    rw [thenWp_ok, wp_bind]
    refine wp_mono wp_linkIdentity fun r w₃ h₃ => ?_
    have hlink₃ : LinkedOnly email w.db w₃.db := by
      intro i hi hnew u hu hid
      rw [h₃.1] at hu
      rcases h₃.2 i hi with hi | hi
      · rw [h₂.1, h₁.links] at hi
        exact absurd hi hnew
      · rw [w₂.db.users.eq_of_key_eq hu hmem (hid.trans hi), hemail]
    rcases r with e | _ <;> exact hlink₃
  · simp only [Except.mapError, thenWp_ok, bind_def, wp_bind, wp_wrap]
    refine wp_kept (each_usersFindByID keepAccounts_quiet) fun r w₂ h₂ => ?_
    have hlink₂ := hlink₁.kept h₂
    rcases r with e | _ | user <;> exact hlink₂

theorem wp_handleCallback {c : GoogleIDTokenClaims} {state : Option Uuid} {ip ua : String}
    (h : NoLookalike env ctx w.db.users.rows (env.normalize c.email)) :
    wp (handleCallback env ctx (.claims c) state ip ua)
      (fun _ w' => LinkedOnly (env.normalize c.email) w.db w'.db) w := by
  refine wp_audit_db (I := fun _ db => LinkedOnly (env.normalize c.email) w.db db) ?_
    fun _ => linkedOnly_of_kept rfl
  rw [handleCallbackAudited, bind_def, wp_bind]
  refine wp_kept (each_consumeState keepAccounts_quiet fun _ => trivial) fun r w₁ h₁ => ?_
  rcases r with e | nonce
  · exact fun _ => linkedOnly_of_kept h₁.links
  simp only [thenWp_ok, bind_def, wp_bind, verifiedClaims, wp_refuse, thenWp_error,
    pure_def, wp_ret]
  refine ⟨fun _ _ => linkedOnly_of_kept h₁.links,
    fun _ => ⟨fun _ _ => linkedOnly_of_kept h₁.links, fun _ => ?_⟩⟩
  rw [show w.db.users = w₁.db.users from h₁.users.symm] at h
  refine wp_mono (wp_findOrCreateUser h) fun r w₂ h₂ => ?_
  have hlink₂ : LinkedOnly (env.normalize c.email) w.db w₂.db := by
    intro i hi hnew
    exact h₂ i hi (h₁.links ▸ hnew)
  rcases r with e | user
  · exact fun _ => hlink₂
  simp only [thenWp_ok, wp_bind, wp_refuse, thenWp_error]
  refine ⟨fun _ _ => hlink₂, fun _ => ?_⟩
  exact wp_kept (each_checkMFAOrIssueTokensAudited keepAccounts_quiet (keepAccounts_issues user)
    fun _ _ _ => trivial) fun r w₃ h₃ _ => hlink₂.kept h₃

/-! ## The condition is exact -/

/-- Without failures a known address gets its reset token mailed, to the address of the request. -/
theorem forgotPassword_mails (hw : w.faults = []) (hctx : ctx.tenant ≠ "")
    (hu : w.db.userByEmail env ctx (env.normalize email) = some user) :
    wp (forgotPassword env ctx email) (fun _ w' =>
      ∃ m ∈ w'.outbox.drop w.outbox.length, m.rcpt = env.normalize email ∧
        ∃ c ∈ m.claims? w'.signed, c.userID = user.id ∧ w'.db.users = w.db.users) w := by
  refine wp_seq ?_
  refine wp_admitBeforeExternal mute_quiet hw fun w₁ h₁ hcalm => ?_
  obtain ⟨⟨-, ms, hms, -⟩, husers⟩ := h₁.muted
  have hu₁ : w₁.db.userByEmail env ctx (env.normalize email) = some user := by
    rw [DB.userByEmail, husers]
    exact hu
  rw [thenWp_ok]
  refine wp_seq ?_
  rw [wp_wrap, usersFindByEmail, wp_query_calm hcalm.faults, hu₁]
  simp only [Except.mapError, thenWp_ok]
  refine wp_seq ?_
  refine wp_jwtIssue (fun e h => absurd h (by simp [hctx])) fun c hc _ _ => ?_
  rw [thenWp_ok, wp_wrap, wp_notify_calm]
  · refine ⟨.passwordReset (env.normalize email) w₁.signed.length, ?_, rfl, c, ?_, hc, husers⟩
    · simp [hms]
    · simp [Mail.claims?, Mail.token?]
  · exact hcalm.faults

/-- **The four flows keep every account with its mailbox if and only if no row of the tenant has an
address that is merely taken for this one.** -/
theorem flowsKeepMailbox_iff (env : Env) (ctx : Ctx) (hctx : ctx.tenant ≠ "")
    (users : Table User.id) (email : String) :
    FlowsKeepMailbox env ctx users email ↔
      NoLookalike env ctx users.rows (env.normalize email) := by
  constructor
  · intro h u hu hten hcol
    -- the row may come first, and nothing fails: the reset token of `u` goes to the request
    have hperm : (u :: users.rows.erase u).Perm users.rows := (List.perm_cons_erase hu).symm
    let w : World :=
      { db := { DB.empty with
          users := ⟨u :: users.rows.erase u, (hperm.map User.id).nodup_iff.2 users.nodup⟩ }
        store := .empty, now := 0, faults := [], outbox := [], entropy := 0, signed := [],
        op := {} }
    have hfind : w.db.userByEmail env ctx (env.normalize email) = some u := by
      simp [w, DB.userByEmail, Table.first?, hten, hcol]
    obtain ⟨hdel, m, hm, hrcpt, c, hc, hcu, husers⟩ :=
      wp_and (h.forgotPassword w hperm) (forgotPassword_mails rfl hctx hfind)
    have huser : u ∈ w.db.users.rows := List.mem_cons_self
    rw [← hrcpt]
    exact (hdel m hm c hc u (husers ▸ huser) hcu.symm).symm
  · intro h
    have hw : ∀ w : World, w.db.users.rows.Perm users.rows →
        NoLookalike env ctx w.db.users.rows (env.normalize email) :=
      fun w hp u hu => h u (hp.mem_iff.1 hu)
    exact
      { forgotPassword := fun w hp => wp_forgotPassword (hw w hp)
        resendVerifyEmail := fun w ip _ => wp_resendVerifyEmail
        register := fun w in_ _ _ => wp_audit_delivered wp_registerAudited
        handleCallback := by
          rintro w c state ip ua hp rfl
          exact wp_handleCallback (hw w hp) }

/-- Nobody resembles `ann@x.io`. -/
theorem flowsKeepMailbox_ann :
    FlowsKeepMailbox (.plain .sample) .sample World.sample.db.users "ann@x.io" :=
  (flowsKeepMailbox_iff (.plain .sample) .sample (by decide) World.sample.db.users "ann@x.io").2
    (by decide +kernel)

/-- The request and the Google account say `josé@x.io`, the row says `jose@x.io`: the reset token
of the row is mailed to the former, and the Google account is linked to it. -/
theorem accent_takes_account :
    (¬ Delivered .sample
        ((forgotPassword (.plain .sample) .sample "josé@x.io").run .sample).2
        ((forgotPassword (.plain .sample) .sample "josé@x.io").run .sample).2.db.users.rows) ∧
      ¬ LinkedOnly "josé@x.io" ((oauthBeginLogin (.plain .sample)).run .sample).2.db
        ((handleCallback (.plain .sample) .sample
          (.claims ⟨"google-sub", "josé@x.io", true, "José", "101"⟩) (some 100) "" "").run
            ((oauthBeginLogin (.plain .sample)).run .sample).2).2.db := by
  decide +kernel

end FinnAuth
