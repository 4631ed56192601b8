import FinnAuth.Footprint.Account

/-!
# Which account a Google identity enters

`findOrCreateUser` (`oauth_service.go`) resolves a verified Google identity to an account: the one
the identity is linked to, the verified account with the address, or a new account. `Enters` says
which of the three it was and what became of the users and the links; everything after it leaves
both alone.

Results:
* **`wp_findOrCreateUser_enters`**: the three ways, with every failure in between;
* **`wp_handleCallbackAudited_enters`**: a callback that returns something has entered an account,
  and what it returns is for that account.
-/

namespace FinnAuth

open Lib Prog

/-- The link of the user to the Google identity `sub`. -/
abbrev googleLink (u : UserID) (sub : String) : OAuthIdentity := ⟨u, oauthProviderGoogle, sub⟩

/-! ## Calls that leave the accounts alone -/

/-- Users, links and passkeys are as before. -/
structure SameAccounts (db db' : DB) : Prop where
  users : db'.users = db.users
  links : db'.oauthIdentities = db.oauthIdentities
  passkeys : db'.passkeys = db.passkeys

theorem SameAccounts.refl (db : DB) : SameAccounts db db := ⟨rfl, rfl, rfl⟩

theorem SameAccounts.trans {db db' db'' : DB} (h : SameAccounts db db')
    (h' : SameAccounts db' db'') : SameAccounts db db'' :=
  ⟨h'.users.trans h.users, h'.links.trans h.links, h'.passkeys.trans h.passkeys⟩

/-- No write to users, links or passkeys. -/
def accountsApart : Footprint where
  label _ := True
  stmt s := ∀ db : DB, SameAccounts db (db.exec s)
  mail _ := True
  key _ := True

theorem accountsApart_quiet : accountsApart.Quiet where
  other := trivial
  site _ := trivial
  findUser _ := trivial
  audit _ _ := ⟨rfl, rfl, rfl⟩
  mail _ _ := trivial
  key _ _ := trivial

theorem accountsApart_issues (user : User) : accountsApart.Issues user where
  sign _ _ _ _ := trivial
  sessionCreate _ := trivial
  tokenCreate _ _ := trivial
  touchSession _ _ _ _ _ _ _ _ := ⟨rfl, rfl, rfl⟩
  insertSession _ _ _ := ⟨rfl, rfl, rfl⟩
  insertToken _ _ _ := ⟨rfl, rfl, rfl⟩
  loginAlert _ _ _ := trivial

variable {α : Type} {env : Env} {ctx : Ctx} {user : User} {claims : GoogleIDTokenClaims}
  {sub email ip ua : String} {w : World} {db db' db'' : DB} {Q : Except Err User → World → Prop}
  {i : OAuthIdentity}

theorem wp_apart {p : M α} (hp : Each (Acts accountsApart) p) {Q : Except Err α → World → Prop}
    (hQ : ∀ r w', SameAccounts w.db w'.db → Q r w') : wp p Q w := by
  refine wp_of_within (within_of_each hp) fun r w' h => hQ r w' ?_
  exact h.keeps (I := SameAccounts w.db) (fun db s hs h => h.trans (hs db)) (.refl _)

/-! ## The three ways -/

/-- The identity `sub` with the address `email` enters the account `user`. -/
inductive Enters (env : Env) (ctx : Ctx) (sub email : String) (user : User) (db db' : DB) : Prop
  | linked (hlink : googleLink user.id sub ∈ db.oauthIdentities.rows) (huser : user ∈ db.users.rows)
      (hten : user.tenantID = ctx.tenant) (hsame : SameAccounts db db')
  | attached (huser : user ∈ db.users.rows) (hten : user.tenantID = ctx.tenant)
      (hverified : user.isEmailVerified = true) (hemail : env.collate user.email email = true)
      (husers : db'.users = db.users)
      (hlinks : db'.oauthIdentities.rows = db.oauthIdentities.rows ++ [googleLink user.id sub])
      (hkeys : db'.passkeys = db.passkeys)
  | created (hemail : user.email = email) (hten : user.tenantID = ctx.tenant)
      (hid : user.id ∉ db.users.rows.map User.id)
      (husers : db'.users.rows = db.users.rows ++ [user])
      (hlinks : ∀ i ∈ db.oauthIdentities.rows, i ∈ db'.oauthIdentities.rows)
      (hlink : googleLink user.id sub ∈ db'.oauthIdentities.rows)
      (hkeys : db'.passkeys = db.passkeys)

theorem Enters.same (h : Enters env ctx sub email user db db') (hs : SameAccounts db' db'') :
    Enters env ctx sub email user db db'' := by
  cases h with
  | linked hlink huser hten hsame => exact .linked hlink huser hten (hsame.trans hs)
  | attached huser hten hverified hemail husers hlinks hkeys =>
    exact .attached huser hten hverified hemail (hs.users.trans husers) (hs.links ▸ hlinks)
      (hs.passkeys.trans hkeys)
  | created hemail hten hid husers hlinks hlink hkeys =>
    exact .created hemail hten hid (hs.users ▸ husers) (hs.links ▸ hlinks) (hs.links ▸ hlink)
      (hs.passkeys.trans hkeys)

/-- Starting from a state with the same accounts. -/
theorem Enters.from (hs : SameAccounts db db') (h : Enters env ctx sub email user db' db'') :
    Enters env ctx sub email user db db'' := by
  cases h with
  | linked hlink huser hten hsame =>
    exact .linked (hs.links ▸ hlink) (hs.users ▸ huser) hten (hs.trans hsame)
  | attached huser hten hverified hemail husers hlinks hkeys =>
    exact .attached (hs.users ▸ huser) hten hverified hemail (husers.trans hs.users)
      (hs.links ▸ hlinks) (hkeys.trans hs.passkeys)
  | created hemail hten hid husers hlinks hlink hkeys =>
    exact .created hemail hten (hs.users ▸ hid) (hs.users ▸ husers) (hs.links ▸ hlinks) hlink
      (hkeys.trans hs.passkeys)

/-- Afterwards the identity is linked to the account. -/
theorem Enters.link (h : Enters env ctx sub email user db db') :
    googleLink user.id sub ∈ db'.oauthIdentities.rows := by
  cases h with
  | linked hlink _ _ hsame => exact hsame.links ▸ hlink
  | attached _ _ _ _ _ hlinks => rw [hlinks]; simp
  | created _ _ _ _ _ hlink => exact hlink

/-- No link is lost. -/
theorem Enters.links (h : Enters env ctx sub email user db db') :
    ∀ i ∈ db.oauthIdentities.rows, i ∈ db'.oauthIdentities.rows := by
  intro i hi
  cases h with
  | linked _ _ _ hsame => exact hsame.links ▸ hi
  | attached _ _ _ _ _ hlinks => rw [hlinks]; exact List.mem_append_left _ hi
  | created _ _ _ _ hlinks => exact hlinks i hi

/-- The accounts are those there were, and the one that was entered. -/
theorem Enters.users (h : Enters env ctx sub email user db db') :
    ∀ u ∈ db'.users.rows, u ∈ db.users.rows ∨ u = user := by
  intro u hu
  cases h with
  | linked _ _ _ hsame => exact .inl (hsame.users ▸ hu)
  | attached _ _ _ _ husers => exact .inl (husers ▸ hu)
  | created _ _ _ husers => rw [husers] at hu; simpa using hu

theorem Enters.passkeys (h : Enters env ctx sub email user db db') :
    db'.passkeys = db.passkeys := by
  cases h with
  | linked _ _ _ hsame => exact hsame.passkeys
  | attached _ _ _ _ _ _ hkeys => exact hkeys
  | created _ _ _ _ _ _ hkeys => exact hkeys

/-! ## The lookup -/

/-- `FindByProviderAndProviderUserID` for a Google identity. -/
def DB.googleIdentity (db : DB) (ctx : Ctx) (sub : String) : Option OAuthIdentity :=
  db.oauthIdentities.first? fun i =>
    i.provider = oauthProviderGoogle && i.providerUserID = sub && db.owns ctx i.userID

theorem googleIdentity_some (h : db.googleIdentity ctx sub = some i) :
    i = googleLink i.userID sub ∧ i ∈ db.oauthIdentities.rows ∧ db.owns ctx i.userID = true := by
  obtain ⟨hmem, hp⟩ := Table.mem_of_first? h
  simp only [Bool.and_eq_true, decide_eq_true_eq] at hp
  obtain ⟨uid, provider, sub'⟩ := i
  obtain ⟨⟨rfl, rfl⟩, howns⟩ := hp
  exact ⟨rfl, hmem, howns⟩

theorem googleIdentity_none (h : db.googleIdentity ctx sub = none) {u : UserID}
    (hmem : googleLink u sub ∈ db.oauthIdentities.rows) : db.owns ctx u = false := by
  have := Table.first?_eq_none_iff.1 h _ hmem
  simpa using this

theorem googleIdentity_same (hs : SameAccounts db db') :
    db'.googleIdentity ctx sub = db.googleIdentity ctx sub := by
  unfold DB.googleIdentity DB.owns DB.userByID
  rw [hs.links, hs.users]

theorem wp_googleIdentity {Q : Except Err (Option OAuthIdentity) → World → Prop}
    (herr : ∀ w', w'.db = w.db → Q (.error .db) w')
    (hok : ∀ w', w'.db = w.db → Q (.ok (w.db.googleIdentity ctx sub)) w') :
    wp (oauthFindByProviderAndProviderUserID ctx oauthProviderGoogle sub) Q w := by
  rw [oauthFindByProviderAndProviderUserID, wp_query]
  exact ⟨fun _ => herr _ (by simp), fun _ => hok _ (by simp)⟩

/-- Only a new account can have made a dangling link the tenant's. -/
theorem userID_of_found (hnone : db.googleIdentity ctx sub = none)
    (husers : db'.users.rows = db.users.rows ++ [user])
    (hlinks : db'.oauthIdentities = db.oauthIdentities)
    (hfound : db'.googleIdentity ctx sub = some i) : i.userID = user.id := by
  obtain ⟨hi, hmem, howns⟩ := googleIdentity_some hfound
  rw [hlinks, hi] at hmem
  have hnot := googleIdentity_none hnone hmem
  obtain ⟨x, hx⟩ := Option.isSome_iff_exists.1 howns
  obtain ⟨hxmem, hxid, hxten⟩ := DB.userByID_spec hx
  rw [husers] at hxmem
  rcases List.mem_append.1 hxmem with hxmem | hxmem
  · have hsome : db.owns ctx i.userID = true := by
      rw [DB.owns, DB.userByID, Table.first?, List.find?_isSome]
      exact ⟨x, hxmem, by simp [hxid, hxten]⟩
    rw [hsome] at hnot
    cases hnot
  · rw [← hxid, List.mem_singleton.1 hxmem]

/-! ## The pieces -/

/-- A new row, or nothing. -/
theorem wp_usersCreate_rows (herr : ∀ e w', SameAccounts w.db w'.db → Q (.error e) w')
    (hok : ∀ u w', u = { user with tenantID := ctx.tenant } →
      u.id ∉ w.db.users.rows.map User.id → w'.db.users.rows = w.db.users.rows ++ [u] →
      w'.db.oauthIdentities = w.db.oauthIdentities → w'.db.passkeys = w.db.passkeys →
      Q (.ok u) w') : wp (usersCreate env ctx user) Q w := by
  refine wp_executes fun r o w' hro hex => ?_
  have hnone : o = none → SameAccounts w.db w'.db := by
    rintro rfl
    exact ⟨congrArg DB.users hex.db, congrArg DB.oauthIdentities hex.db,
      congrArg DB.passkeys hex.db⟩
  rcases hro with ⟨rfl, rfl⟩ | hf
  · exact herr _ _ (hnone rfl)
  split at hf
  · cases hf
    exact herr _ _ (hnone rfl)
  split at hf
  · cases hf
    exact herr _ _ (hnone rfl)
  rename_i hfree
  cases hf
  obtain ⟨t, ht, hrows⟩ := Table.insert_of_fresh (t := w.db.users)
    (a := { user with tenantID := ctx.tenant }) hfree
  have hdb := hex.db
  simp only [DB.execOpt, DB.exec, ht, Option.getD_some] at hdb
  refine hok _ _ rfl hfree ?_ ?_ ?_
  · rw [hdb]
    exact hrows
  · rw [hdb]
  · rw [hdb]

theorem wp_createGoogleUser_rows (herr : ∀ e w', SameAccounts w.db w'.db → Q (.error e) w')
    (hok : ∀ u w', u.email = email → u.tenantID = ctx.tenant → u.id ∉ w.db.users.rows.map User.id →
      w'.db.users.rows = w.db.users.rows ++ [u] → w'.db.oauthIdentities = w.db.oauthIdentities →
      w'.db.passkeys = w.db.passkeys → Q (.ok u) w') :
    wp (createGoogleUser env ctx claims email) Q w := by
  simp only [createGoogleUser, mapDuplicateKey, bind_def, wp_bind, wp_wrap]
  refine wp_apart (each_query trivial) fun r w₁ h₁ => ?_
  rcases r with e | existing
  · exact herr _ _ h₁
  simp only [Except.mapError, thenWp_ok, wp_draw, wp_bind, wp_attempt]
  refine wp_usersCreate_rows (fun e w₂ h₂ => ?_) fun u w₂ hu hfree hrows hlinks hkeys => ?_
  · split
    · rename_i heq
      cases heq
    · exact herr _ _ (h₁.trans h₂)
    · exact herr _ _ (h₁.trans h₂)
  · exact hok u w₂ (hu ▸ rfl) (hu ▸ rfl) (h₁.users ▸ hfree) (h₁.users ▸ hrows)
      (hlinks.trans h₁.links) (hkeys.trans h₁.passkeys)

/-- `linkIdentity`: the identity was found again, or the link is new; an error is no denial. -/
theorem wp_linkIdentity_rows {Q : Except Err Unit → World → Prop}
    (herr : ∀ e w', auditDenial e = false → Q (.error e) w')
    (hfound : ∀ i r w', w.db.googleIdentity ctx claims.sub = some i → SameAccounts w.db w'.db →
      Q (.ok r) w')
    (hnew : ∀ r w', w.db.googleIdentity ctx claims.sub = none → w'.db.users = w.db.users →
      w'.db.oauthIdentities.rows = w.db.oauthIdentities.rows ++ [googleLink user.id claims.sub] →
      w'.db.passkeys = w.db.passkeys → Q (.ok r) w') :
    wp (linkIdentity ctx user claims ip) Q w := by
  rw [linkIdentity, bind_def, wp_bind, wp_wrap]
  refine wp_googleIdentity (fun w₁ _ => herr _ _ rfl) fun w₁ h₁ => ?_
  simp only [Except.mapError, thenWp_ok]
  cases hg : w.db.googleIdentity ctx claims.sub with
  | some i => exact hfound i _ _ hg ⟨congrArg DB.users h₁, congrArg DB.oauthIdentities h₁,
      congrArg DB.passkeys h₁⟩
  | none =>
    simp only [bind_def, wp_bind, wp_wrap]
    refine wp_executes fun r o w₂ hro hex => ?_
    rcases hro with ⟨rfl, rfl⟩ | hf
    · exact herr _ _ rfl
    split at hf
    · cases hf
      exact herr _ _ rfl
    split at hf
    · cases hf
      exact herr _ _ rfl
    rename_i hfree
    cases hf
    have hkey : (oauthProviderGoogle, claims.sub) ∉
        w₁.db.oauthIdentities.rows.map fun i => (i.provider, i.providerUserID) := by
      intro hmem
      obtain ⟨i, hi, hkey⟩ := List.mem_map.1 hmem
      obtain ⟨hp, hs⟩ := Prod.mk.inj hkey
      exact hfree (List.any_eq_true.2 ⟨i, hi, by simp [hp, hs]⟩)
    obtain ⟨t, ht, hrows⟩ := Table.insert_of_fresh (t := w₁.db.oauthIdentities)
      (a := googleLink user.id claims.sub) hkey
    have hdb := hex.db
    simp only [DB.execOpt, DB.exec, ht, Option.getD_some] at hdb
    refine wp_seq (wp_record accountsApart_quiet fun w₃ h₃ => ?_)
    rw [thenWp_ok, wp_ignore]
    have h₃ : SameAccounts w₂.db w₃.db :=
      h₃.keeps (I := SameAccounts w₂.db) (fun db s hs h => h.trans (hs db)) (.refl _)
    refine wp_apart (each_notify trivial trivial) fun r w₄ h₄ => ?_
    have h₄ := h₃.trans h₄
    refine hnew _ _ hg ?_ ?_ ?_
    · rw [h₄.users, hdb, ← h₁]
    · rw [h₄.links, hdb, ← h₁]
      exact hrows
    · rw [h₄.passkeys, hdb, ← h₁]

/-- An identity that is not linked enters the verified account with its address, or a new one. -/
theorem wp_attach_enters (hg : w.db.googleIdentity ctx claims.sub = none)
    (herr : ∀ e w', auditDenial e = false ∨ SameAccounts w.db w'.db → Q (.error e) w')
    (hok : ∀ u w', Enters env ctx claims.sub email u w.db w'.db → Q (.ok u) w') :
    wp (attachableUser env ctx claims email >>= fun user =>
      linkIdentity ctx user claims ip >>= fun _ => pure user) Q w := by
  refine wp_seq ?_
  rw [attachableUser, bind_def, wp_bind, wp_wrap, usersFindByEmail, wp_query]
  refine ⟨fun _ => herr _ _ (.inl rfl), fun _ => ?_⟩
  have hs : SameAccounts w.db w.fault.2.db := by simpa using SameAccounts.refl w.db
  simp only [Except.mapError, thenWp_ok]
  cases hu : w.db.userByEmail env ctx email with
  | some u =>
    obtain ⟨humem, hp⟩ := Table.mem_of_first? hu
    obtain ⟨hcol, hten⟩ := (Bool.and_eq_true _ _).mp hp
    simp only [bind_def, wp_bind, wp_refuse, thenWp_error, thenWp_ok, pure_def, wp_ret]
    refine ⟨fun _ => herr _ _ (.inr hs), fun hver => ?_⟩
    refine wp_linkIdentity_rows (fun e w₃ he => herr _ _ (.inl he)) (fun i r w₃ hi _ => ?_)
      fun r w₃ _ husers hlinks hkeys => ?_
    · -- the lookup finds what it found before: nothing
      rw [googleIdentity_same hs, hg] at hi
      cases hi
    · exact hok u w₃ (Enters.from hs (.attached (by simpa using humem) (by simpa using hten)
        (by simpa using hver) hcol husers hlinks hkeys))
  | none =>
    refine wp_createGoogleUser_rows (fun e w₃ h₃ => herr _ _ (.inr (hs.trans h₃)))
      fun u w₃ hemail hten hid hrows hlinks hkeys => ?_
    simp only [thenWp_ok, bind_def, wp_bind]
    refine wp_linkIdentity_rows (fun e w₄ he => herr _ _ (.inl he)) (fun i r w₄ hi h₄ => ?_)
      fun r w₄ _ husers hlinks' hkeys' => ?_
    · have hiu := userID_of_found ((googleIdentity_same hs).trans hg) hrows hlinks hi
      obtain ⟨hi, himem, -⟩ := googleIdentity_some hi
      refine hok u w₄ (Enters.from hs (.created hemail hten hid (h₄.users ▸ hrows) ?_ ?_
        (h₄.passkeys.trans hkeys)))
      · rw [h₄.links, hlinks]
        exact fun _ h => h
      · rw [h₄.links, ← hiu, ← hi]
        exact himem
    · refine hok u w₄ (Enters.from hs (.created hemail hten hid (husers ▸ hrows) ?_ ?_
        (hkeys'.trans hkeys)))
      · rw [hlinks', hlinks]
        exact fun _ h => List.mem_append_left _ h
      · rw [hlinks']
        simp

/-- **The account a verified identity enters**, and what a failure leaves. -/
theorem wp_findOrCreateUser_enters
    (herr : ∀ e w', auditDenial e = false ∨ SameAccounts w.db w'.db → Q (.error e) w')
    (hok : ∀ u w', Enters env ctx claims.sub email u w.db w'.db → Q (.ok u) w') :
    wp (findOrCreateUser env ctx claims email ip) Q w := by
  rw [findOrCreateUser, bind_def, wp_bind, wp_wrap]
  refine wp_googleIdentity (fun w₁ _ => herr _ _ (.inl rfl)) fun w₁ h₁ => ?_
  have hs₁ : SameAccounts w.db w₁.db := h₁ ▸ .refl _
  simp only [Except.mapError, thenWp_ok]
  cases hg : w.db.googleIdentity ctx claims.sub with
  | some i =>
    obtain ⟨hi, hmem, -⟩ := googleIdentity_some hg
    simp only [bind_def, wp_bind, wp_wrap]
    rw [usersFindByID, wp_query]
    refine ⟨fun _ => herr _ _ (.inl rfl), fun _ => ?_⟩
    have hs₂ : SameAccounts w.db w₁.fault.2.db := by simpa using hs₁
    cases hu : w₁.db.userByID ctx i.userID with
    | none => exact herr _ _ (.inr hs₂)
    | some u =>
      obtain ⟨humem, hid, hten⟩ := DB.userByID_spec hu
      refine hok u _ (.linked ?_ (hs₁.users ▸ humem) hten hs₂)
      rw [hid, ← hi]
      exact hmem
  | none =>
    exact wp_attach_enters ((googleIdentity_same hs₁).trans hg)
      (fun e w' h => herr e w' (h.imp_right hs₁.trans)) fun u w' h => hok u w' (h.from hs₁)

/-! ## The callback -/

/-- The user a login is for: the one of the profile, or the one the token was signed for. -/
def LoginResult.userID? (signed : List Claims) : LoginResult → Option UserID
  | pair _ profile => some profile.id
  | mfaPending t => (signed[t]?).map (·.userID)

/-- The last part of a login returns something for the user it was given. -/
theorem wp_checkMFAOrIssueTokensAudited_userID {detail : String}
    {Q : Except Err LoginResult → World → Prop}
    (herr : ∀ e w', SameAccounts w.db w'.db → Q (.error e) w')
    (hok : ∀ r w', SameAccounts w.db w'.db → user.isActive = true →
      r.userID? w'.signed = some user.id → Q (.ok r) w') :
    wp (checkMFAOrIssueTokensAudited env ctx user ip ua detail) Q w := by
  simp only [checkMFAOrIssueTokensAudited, bind_def, wp_bind, wp_refuse, thenWp_error, thenWp_ok,
    wp_wrap]
  refine ⟨fun _ => herr _ _ (.refl _), fun hactive => ?_⟩
  have hactive : user.isActive = true := by
    simp only [Bool.or_eq_false_iff, Bool.not_eq_false'] at hactive
    exact hactive.2
  refine wp_apart (each_totpFindByUserID accountsApart_quiet) fun r w₁ h₁ => ?_
  rcases r with e | device
  · exact herr _ _ h₁
  simp only [Except.mapError, thenWp_ok]
  split
  · refine wp_seq (wp_jwtIssue (fun e _ => herr _ _ h₁) fun c hc _ _ => ?_)
    refine wp_seq (wp_record accountsApart_quiet fun w₂ h₂ => ?_)
    have hs₂ : SameAccounts w₁.db w₂.db :=
      h₂.keeps (I := SameAccounts w₁.db) (fun db s hs h => h.trans (hs db)) (.refl _)
    obtain ⟨cs, hcs, -⟩ := h₂.signed
    refine hok _ w₂ (h₁.trans hs₂) hactive ?_
    simp [LoginResult.userID?, hcs, hc]
  · refine wp_seq (wp_apart (each_issueTokenPair accountsApart_quiet (accountsApart_issues user))
      fun r w₂ h₂ => ?_)
    rcases r with e | pair
    · exact herr _ _ (h₁.trans h₂)
    refine wp_seq (wp_record accountsApart_quiet fun w₃ h₃ => ?_)
    have hs₃ : SameAccounts w₂.db w₃.db :=
      h₃.keeps (I := SameAccounts w₂.db) (fun db s hs h => h.trans (hs db)) (.refl _)
    exact hok _ _ ((h₁.trans h₂).trans hs₃) hactive rfl

/-- **A callback that returns something has entered an account**, and what it returns is for that
account; one that fails has entered one, has left the accounts alone, or is rolled back. -/
theorem wp_handleCallbackAudited_enters {reply : GoogleReply} {state : Option Uuid}
    {Q : Except Err LoginResult → World → Prop}
    (herr : ∀ e w', (auditDenial e = false ∨ SameAccounts w.db w'.db ∨ ∃ c u, reply = .claims c ∧
      Enters env ctx c.sub (env.normalize c.email) u w.db w'.db) → Q (.error e) w')
    (hok : ∀ r w' c u, reply = .claims c →
      Enters env ctx c.sub (env.normalize c.email) u w.db w'.db → u.isActive = true →
      r.userID? w'.signed = some u.id → Q (.ok r) w') :
    wp (handleCallbackAudited env ctx reply state ip ua) Q w := by
  refine wp_seq (wp_apart (each_consumeState accountsApart_quiet fun _ => trivial)
    fun r w₁ h₁ => ?_)
  rcases r with e | nonce
  · exact herr _ _ (.inr (.inl h₁))
  refine wp_seq ?_
  cases reply with
  | exchangeFailed => exact herr _ _ (.inr (.inl h₁))
  | invalidIDToken => exact herr _ _ (.inr (.inl h₁))
  | claims c =>
    simp only [verifiedClaims, bind_def, wp_bind, wp_refuse, thenWp_error, thenWp_ok, pure_def,
      wp_ret]
    refine ⟨fun _ => herr _ _ (.inr (.inl h₁)),
      fun _ => ⟨fun _ => herr _ _ (.inr (.inl h₁)), fun _ => ?_⟩⟩
    refine wp_findOrCreateUser_enters (fun e w₂ h₂ => ?_) fun u w₂ h₂ => ?_
    · exact herr _ _ (h₂.imp_right fun h => .inl (h₁.trans h))
    simp only [thenWp_ok, wp_bind, wp_refuse, thenWp_error]
    have h₂ := h₂.from h₁
    refine ⟨fun _ => herr _ _ (.inr (.inr ⟨c, u, rfl, h₂⟩)), fun _ => ?_⟩
    refine wp_checkMFAOrIssueTokensAudited_userID (fun e w₃ h₃ => ?_) fun r w₃ h₃ hactive hr => ?_
    · exact herr _ _ (.inr (.inr ⟨c, u, rfl, h₂.same h₃⟩))
    · exact hok r w₃ c u rfl (h₂.same h₃) hactive hr

end FinnAuth
