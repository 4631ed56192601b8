import FinnAuth.GoogleLink

/-!
# What the answer to a registration gives away

`Register` answers a taken email or username with a profile too, so that an observer should not
learn whether an account exists. The profile of a new account and the neutral one are compared here
field by field, over two databases that differ in whether the account exists.

Results:
* `returns_registerCreate`: after its lookups, whatever happens between its steps, `Register`
  returns a profile made from the request under a non-zero id, or the neutral profile with id 0;
* `reply_taken`, `reply_free`: which of them, without failures;
* **`registration_reveals_iff`**: the two answers always differ when both calls return a profile,
  and the answer for a taken name carries the address of its owner.
-/

namespace FinnAuth

open Lib Prog

variable {env : Env} {ctx : Ctx} {in_ : RegisterInput} {w : World}

/-! ## The two profiles -/

variable {ownerEmail : String} {user : User}

/-- The profile of a new account, made from the request. -/
def newProfile (env : Env) (in_ : RegisterInput) (id : UserID) : UserProfile :=
  { id := id, username := env.trimSpace in_.username, email := env.normalize in_.email,
    fullName := in_.fullName, role := roleUser, isActive := true, isEmailVerified := false }

/-- The profile `handleDuplicateRegistration` returns for the account of `ownerEmail`. -/
def neutralProfile (env : Env) (in_ : RegisterInput) (ownerEmail : String) : UserProfile :=
  { id := 0, username := env.trimSpace in_.username, email := ownerEmail, fullName := "",
    role := roleUser, isActive := true, isEmailVerified := false }

/-- Two profiles an observer cannot tell apart, the value of the id aside. -/
structure SameProfile (p q : UserProfile) : Prop where
  username : p.username = q.username
  email : p.email = q.email
  fullName : p.fullName = q.fullName
  role : p.role = q.role
  isActive : p.isActive = q.isActive
  isEmailVerified : p.isEmailVerified = q.isEmailVerified
  id : p.id = 0 ↔ q.id = 0

theorem not_sameProfile {id : UserID} (h : id ≠ 0) :
    ¬ SameProfile (newProfile env in_ id) (neutralProfile env in_ ownerEmail) :=
  fun hs => h (hs.id.2 rfl)

/-! ## In every interleaving -/

theorem returns_handleDuplicateRegistration : Returns (· = neutralProfile env in_ ownerEmail)
      (handleDuplicateRegistration env ctx ownerEmail in_.ip (env.trimSpace in_.username)) :=
  returns_bind (returns_trivial _) fun _ _ => returns_bind (returns_trivial _) fun _ _ =>
    returns_bind (returns_trivial _) fun _ _ => rfl

theorem returns_usersCreate :
    Returns (· = { user with tenantID := ctx.tenant }) (usersCreate env ctx user) := by
  refine returns_atomic fun w u h => ?_
  simp only at h
  split at h
  · cases h
  · split at h
    · cases h
    · split at h
      · cases h
      · exact (Except.ok.inj h).symm

/-- After the lookups only the unique indexes can find the account: the address is the one sent. -/
theorem returns_registerCreate :
    Returns (fun p => (∃ id, id ≠ 0 ∧ p = newProfile env in_ id) ∨
        p = neutralProfile env in_ (env.normalize in_.email))
      (registerCreate env ctx in_ (env.trimSpace in_.username) (env.normalize in_.email)) := by
  refine returns_bind (returns_trivial _) fun hashed _ => ?_
  refine returns_bind (returns_trivial _) fun id _ => ?_
  refine returns_bind (returns_attempt returns_usersCreate) fun r hr => ?_
  split
  · rename_i user
    refine returns_bind (returns_trivial _) fun _ _ => ?_
    refine returns_bind (returns_trivial _) fun _ _ => ?_
    rw [hr user rfl]
    exact .inl ⟨id + 1, Nat.succ_ne_zero id, rfl⟩
  · exact returns_handleDuplicateRegistration.mono fun _ h => .inr h
  · trivial

/-! ## Without failures -/

/-- The request passes the password rules, the per-IP limit and the blocklist of domains, and no
repository call fails. -/
structure RegisterInput.Passes (env : Env) (in_ : RegisterInput) (w : World) : Prop where
  faults : w.faults = []
  password : passwordAcceptable env in_.password
    [env.trimSpace in_.username, emailLocalPart (env.normalize in_.email)] = true
  breached : env.breached in_.password = false
  limit : in_.ip ≠ "" → (w.store.incrBy w.now (.regIP (env.canonicalIP in_.ip)) 1
    env.cfg.registerWindow).1 ≤ env.cfg.registerPerIPMax
  disposable : isDisposableEmail env (env.normalize in_.email) = false

/-- The account that has the email or the username of the request. -/
def DB.registrant (env : Env) (db : DB) (ctx : Ctx) (in_ : RegisterInput) : Option User :=
  (db.userByEmail env ctx (env.normalize in_.email)).or
    (db.users.first? fun u =>
      env.collate u.username (env.trimSpace in_.username) && u.tenantID = ctx.tenant)

section Calm

variable {Q : Except Err Unit → World → Prop} (hc : w.Calm)
include hc

theorem wp_record_ok {e : AuditLog} (hQ : ∀ w' : World, w'.Calm → Q (.ok ()) w') :
    wp (record ctx e) Q w := by
  rw [wp_record_calm hc.faults]
  exact hQ _ ⟨hc.faults, hc.failure⟩

theorem wp_notify_ok {m : Mail} (hQ : ∀ w' : World, w'.Calm → Q (.ok ()) w') :
    wp (notify m) Q w := by
  rw [wp_notify_calm hc.faults]
  exact hQ _ ⟨hc.faults, hc.failure⟩

theorem wp_overCap {k : StoreKey} {max window : Nat} {applies : Bool}
    {Q : Except Err Bool → World → Prop} (hQ : ∀ b (w' : World), w'.Calm → Q (.ok b) w') :
    wp (overCap k max window applies) Q w := by
  unfold overCap
  split
  · refine wp_seq ?_
    exact hQ _ _ ⟨hc.faults, hc.failure⟩
  · exact hQ _ _ hc

theorem wp_shouldThrottleDuplicateRegisterAlert {email ip : String}
    {Q : Except Err Bool → World → Prop} (hQ : ∀ b (w' : World), w'.Calm → Q (.ok b) w') :
    wp (shouldThrottleDuplicateRegisterAlert env email ip) Q w := by
  refine wp_seq (wp_overCap hc fun b w₁ hc₁ => ?_)
  rw [thenWp_ok]
  split
  · exact hQ _ _ hc₁
  · refine wp_seq (wp_overCap hc₁ fun b₂ w₂ hc₂ => ?_)
    rw [thenWp_ok]
    split
    · exact hQ _ _ hc₂
    · exact wp_overCap hc₂ hQ

theorem wp_handleDuplicateRegistration :
    wp (handleDuplicateRegistration env ctx ownerEmail in_.ip (env.trimSpace in_.username))
      (fun r w' => r = .ok (neutralProfile env in_ ownerEmail) ∧ w'.Calm) w := by
  refine wp_seq (wp_record_ok hc fun w₁ hc₁ => ?_)
  rw [thenWp_ok]
  refine wp_seq (wp_shouldThrottleDuplicateRegisterAlert hc₁ fun throttled w₂ hc₂ => ?_)
  rw [thenWp_ok]
  refine wp_seq ?_
  rw [wp_doIf, wp_ignore, thenWp_ok]
  exact ⟨fun _ => wp_notify_ok hc₂ fun w₃ hc₃ => ⟨rfl, hc₃⟩, fun _ => ⟨rfl, hc₂⟩⟩

/-- Only an empty tenant makes the verification token fail. -/
theorem wp_sendVerification_calm : wp (sendVerification env ctx user in_.ip) (fun r w' =>
      r = (if ctx.tenant = "" then .error .jwtInvalidToken else .ok ()) ∧ w'.Calm) w := by
  refine wp_seq ?_
  simp only [jwtIssue, bind_def, wp_bind, wp_refuse, thenWp_error, thenWp_ok, wp_getNow, wp_draw,
    sign, wp_call, wp_attempt]
  refine ⟨fun h => ?_, fun h => ?_⟩
  · have ht : ctx.tenant = "" := by simpa using h
    exact ⟨by rw [if_pos ht], hc⟩
  · have ht : ctx.tenant ≠ "" := by simpa using h
    refine wp_notify_ok ?_ fun w₁ hc₁ => ?_
    · exact ⟨hc.faults, hc.failure⟩
    · exact ⟨by rw [if_neg ht]; rfl, hc₁⟩

theorem wp_usersCreate_free {Q : Except Err User → World → Prop}
    (hindex : w.db.uniqueIndex env ctx user.id user.email user.username = none)
    (hid : user.id ∉ w.db.users.rows.map User.id)
    (hQ : ∀ w' : World, w'.Calm → Q (.ok { user with tenantID := ctx.tenant }) w') :
    wp (usersCreate env ctx user) Q w := by
  rw [usersCreate, wp_repo_calm hc.faults]
  simp only [hindex, if_neg hid]
  exact hQ _ ⟨hc.faults, hc.failure⟩

end Calm

theorem taken_eq_false {db : DB} {id : UserID} {field : User → String} {value : String}
    (h : (db.users.first? fun u => env.collate (field u) value && u.tenantID = ctx.tenant) = none) :
    db.taken env ctx id field value = false := by
  refine List.any_eq_false.2 fun u hu => ?_
  have := Table.first?_eq_none_iff.1 h u hu
  simp only [Bool.and_eq_false_iff, decide_eq_false_iff_not] at this
  rcases this with hf | ht
  · simp [hf]
  · simp [ht]

theorem wp_registerCreate_free (hc : w.Calm) (hp : passwordAcceptable env in_.password
      [env.trimSpace in_.username, emailLocalPart (env.normalize in_.email)] = true)
    (hfree : w.db.registrant env ctx in_ = none) (hids : ∀ u ∈ w.db.users.rows, u.id ≤ w.entropy) :
    wp (registerCreate env ctx in_ (env.trimSpace in_.username) (env.normalize in_.email))
      (fun r w' => r = (if ctx.tenant = "" then .error .jwtInvalidToken
        else .ok (newProfile env in_ (w.entropy + 2))) ∧ w'.Calm) w := by
  obtain ⟨hemail, husername⟩ := Option.or_eq_none_iff.1 hfree
  have hsize : in_.password.utf8ByteSize ≤ maxPasswordBytes := by
    simp only [passwordAcceptable, plainPasswordOk, Bool.and_eq_true, decide_eq_true_eq] at hp
    exact hp.1.1.1.1.2
  refine wp_seq ?_
  refine wp_seq ?_
  rw [wp_refuse, thenWp_ok]
  refine ⟨fun h => absurd hsize (Nat.not_le.2 (of_decide_eq_true h)), fun _ => ?_⟩
  refine wp_seq ?_
  rw [wp_draw, thenWp_ok, pure_def, wp_ret, thenWp_ok]
  refine wp_seq ?_
  rw [wp_draw, thenWp_ok]
  refine wp_seq ?_
  rw [wp_attempt]
  refine wp_usersCreate_free ?_ ?_ ?_ fun w₁ hc₁ => ?_
  · exact ⟨hc.faults, hc.failure⟩
  · simp only [DB.uniqueIndex, taken_eq_false hemail, taken_eq_false husername, if_false,
      Bool.false_eq_true]
  · rintro hmem
    obtain ⟨u, hu, hid⟩ := List.mem_map.1 hmem
    have hle : u.id ≤ w.entropy := hids u hu
    rw [hid] at hle
    exact absurd hle (Nat.not_le.2 (Nat.lt_succ_of_lt (Nat.lt_succ_self _)))
  · rw [thenWp_ok]
    refine wp_seq (wp_record_ok hc₁ fun w₂ hc₂ => ?_)
    rw [thenWp_ok]
    refine wp_seq (wp_mono (wp_sendVerification_calm hc₂) ?_)
    rintro r w₃ ⟨rfl, hc₃⟩
    split
    · exact ⟨rfl, hc₃⟩
    · exact ⟨rfl, hc₃⟩

theorem wp_registerCount {Q : Except Err Int → World → Prop} (hp : in_.Passes env w)
    (hQ : ∀ (n : Int) m, n ≤ env.cfg.registerPerIPMax → Q (.ok n) { w with store := m }) :
    wp (registerCount env in_.ip) Q w := by
  unfold registerCount
  split
  · rename_i hip
    exact hQ _ _ (hp.limit hip)
  · exact hQ _ _ (Int.natCast_nonneg _)

/-- **`registerAudited` without failures**: past its checks, the account that has the email or the
username decides. -/
theorem wp_registerAudited_calm (hc : w.Calm) (hp : in_.Passes env w)
    (hids : w.db.registrant env ctx in_ = none → ∀ u ∈ w.db.users.rows, u.id ≤ w.entropy) :
    wp (registerAudited env ctx in_) (fun r w' => r = (match w.db.registrant env ctx in_ with
      | some owner => .ok (neutralProfile env in_ owner.email)
      | none => if ctx.tenant = "" then .error .jwtInvalidToken
        else .ok (newProfile env in_ (w.entropy + 2))) ∧ w'.Calm) w := by
  refine wp_seq ?_
  rw [wp_refuse, hp.password]
  refine ⟨nofun, fun _ => ?_⟩
  rw [thenWp_ok]
  refine wp_seq ?_
  rw [wp_refuse, hp.breached]
  refine ⟨nofun, fun _ => ?_⟩
  rw [thenWp_ok]
  refine wp_seq (wp_registerCount hp fun count m hcount => ?_)
  rw [thenWp_ok]
  refine wp_seq ?_
  rw [wp_refuse]
  refine ⟨fun h => absurd hcount (Int.not_le.2 (of_decide_eq_true h)), fun _ => ?_⟩
  rw [thenWp_ok]
  refine wp_seq ?_
  rw [wp_refuse, hp.disposable]
  refine ⟨nofun, fun _ => ?_⟩
  rw [thenWp_ok]
  refine wp_seq ?_
  rw [wp_wrap, usersFindByEmail, wp_query_calm (by exact hc.faults)]
  unfold DB.registrant
  cases hemail : w.db.userByEmail env ctx (env.normalize in_.email) with
  | some =>
    refine wp_handleDuplicateRegistration ?_
    exact ⟨hc.faults, hc.failure⟩
  | none =>
    rw [Except.mapError, thenWp_ok]
    refine wp_seq ?_
    rw [wp_wrap, usersFindByUsername, wp_query_calm (by exact hc.faults)]
    cases husername : w.db.users.first? fun u =>
        env.collate u.username (env.trimSpace in_.username) && u.tenantID = ctx.tenant with
    | some owner =>
      refine wp_handleDuplicateRegistration ?_
      exact ⟨hc.faults, hc.failure⟩
    | none =>
      have hfree := Option.or_eq_none_iff.2 ⟨hemail, husername⟩
      refine wp_registerCreate_free ?_ hp.password hfree (hids hfree)
      exact ⟨hc.faults, hc.failure⟩

/-! ## The answer -/

/-- Without failures the audit transaction answers what its body does. -/
theorem audit_reply {α : Type} {p : M α} {r : Except Err α}
    (h : wp p (fun r' w' => r' = r ∧ w'.Calm) { w with op := {} }) :
    ((runAuditOperation p).run w).1 = r := by
  change wp (runAuditOperation p) (fun r' _ => r' = r) w
  rw [wp_runAuditOperation]
  refine wp_mono h ?_
  rintro r w₁ ⟨rfl, hc⟩
  cases r with
  | ok a => rw [closeAudit_ok hc]
  | error e =>
    cases hd : auditDenial e && w₁.op.denialMayCommit with
    | false => rw [closeAudit_undone hc hd]
    | true =>
      obtain ⟨he, hop⟩ := Bool.and_eq_true_iff.1 hd
      rw [closeAudit_denied hc he hop]

/-- What `Register` answers. -/
def registerReply (env : Env) (ctx : Ctx) (in_ : RegisterInput) (w : World) :
    Except Err UserProfile :=
  ((register env ctx in_).run w).1

theorem reply_taken {owner : User} (hp : in_.Passes env w)
    (howner : w.db.registrant env ctx in_ = some owner) :
    registerReply env ctx in_ w = .ok (neutralProfile env in_ owner.email) := by
  refine audit_reply (wp_mono (wp_registerAudited_calm ⟨hp.faults, rfl⟩ ?_ ?_) ?_)
  · exact ⟨hp.faults, hp.password, hp.breached, hp.limit, hp.disposable⟩
  · exact fun h => nomatch howner.symm.trans h
  · rintro r w₁ ⟨rfl, hc⟩
    exact ⟨by simp only [howner], hc⟩

theorem reply_free (hp : in_.Passes env w) (hfree : w.db.registrant env ctx in_ = none)
    (hids : ∀ u ∈ w.db.users.rows, u.id ≤ w.entropy) :
    registerReply env ctx in_ w = if ctx.tenant = "" then .error .jwtInvalidToken
      else .ok (newProfile env in_ (w.entropy + 2)) := by
  refine audit_reply (wp_mono (wp_registerAudited_calm ⟨hp.faults, rfl⟩ ?_ fun _ => hids) ?_)
  · exact ⟨hp.faults, hp.password, hp.breached, hp.limit, hp.disposable⟩
  · rintro r w₁ ⟨rfl, hc⟩
    exact ⟨by simp only [hfree], hc⟩

/-! ## Comparing two databases -/

/-- The answers over `w` and `w'` do not tell them apart. -/
def Indistinct (env : Env) (ctx : Ctx) (in_ : RegisterInput) (w w' : World) : Prop :=
  ∀ p q, registerReply env ctx in_ w = .ok p → registerReply env ctx in_ w' = .ok q →
    SameProfile p q

/-- The answer carries no address but the one of the request. -/
def OwnAddress (env : Env) (ctx : Ctx) (in_ : RegisterInput) (w : World) : Prop :=
  ∀ p, registerReply env ctx in_ w = .ok p → p.email = env.normalize in_.email

/-- **What a registration reveals.** Between a database where the email and the username are free
and one where `owner` has either, the answers differ whenever there are two profiles to compare:
only a request without a tenant, whose verification token is refused, has none. The answer for a
taken name carries no foreign address exactly if the owner is stored under the address sent. The
last part is about the unique indexes, which can find the account after both lookups found none,
whatever happened in between. -/
theorem registration_reveals_iff (env : Env) (ctx : Ctx) (in_ : RegisterInput) {w w' : World}
    {owner : User} (hp : in_.Passes env w) (hp' : in_.Passes env w')
    (hfree : w.db.registrant env ctx in_ = none) (hids : ∀ u ∈ w.db.users.rows, u.id ≤ w.entropy)
    (howner : w'.db.registrant env ctx in_ = some owner) :
    (Indistinct env ctx in_ w w' ↔ ctx.tenant = "") ∧
      (OwnAddress env ctx in_ w' ↔ owner.email = env.normalize in_.email) ∧
      OwnAddress env ctx in_ w ∧
      Returns (fun p => (∃ id, id ≠ 0 ∧ p = newProfile env in_ id) ∨
          p = neutralProfile env in_ (env.normalize in_.email))
        (registerCreate env ctx in_ (env.trimSpace in_.username) (env.normalize in_.email)) := by
  have hnew := reply_free hp hfree hids
  have hold := reply_taken hp' howner
  refine ⟨⟨fun h => ?_, fun ht p q hpr _ => ?_⟩, ⟨fun h => h _ hold, fun h p hpr => ?_⟩,
    fun p hpr => ?_, returns_registerCreate⟩
  · by_contra ht
    rw [if_neg ht] at hnew
    exact not_sameProfile (Nat.succ_ne_zero _) (h _ _ hnew hold)
  · rw [hnew, if_pos ht] at hpr
    cases hpr
  · obtain rfl := Except.ok.inj (hold.symm.trans hpr)
    exact h
  · rw [hnew] at hpr
    split at hpr
    · cases hpr
    · obtain rfl := Except.ok.inj hpr
      rfl

/-- A stranger asks for the username of the sample account. -/
def sampleRegistration : RegisterInput := ⟨"jose", "eve@y.io", "password1", "Eve", "ip"⟩

/-- The sample deployment before its account was created. -/
def World.vacant : World :=
  { World.sample with db := { World.sample.db with users := ⟨[], by decide⟩ } }

theorem sampleRegistration_passes {w : World} (hf : w.faults = []) (hs : w.store = .empty)
    (hn : w.now = World.sample.now) : sampleRegistration.Passes (.plain .sample) w where
  faults := hf
  password := by decide +kernel
  breached := by decide +kernel
  limit := fun _ => by rw [hs, hn]; decide +kernel
  disposable := by decide +kernel

/-- The theorem for that request. -/
theorem registration_reveals_sample :
    ¬ Indistinct (.plain .sample) .sample sampleRegistration .vacant .sample ∧
      ¬ OwnAddress (.plain .sample) .sample sampleRegistration .sample :=
  have howner : World.sample.db.registrant (.plain .sample) .sample sampleRegistration =
      some (User.sample 1 "jose" "jose@x.io") := by decide +kernel
  have h := registration_reveals_iff (.plain .sample) .sample sampleRegistration (w := .vacant)
    (sampleRegistration_passes rfl rfl rfl) (sampleRegistration_passes rfl rfl rfl)
    (by decide +kernel) (by decide +kernel) howner
  ⟨fun hi => absurd (h.1.1 hi) (by decide), fun ho => absurd (h.2.1.1 ho) (by decide +kernel)⟩

/-- The stranger learns that the username is taken, and by whom. -/
theorem registration_tells_owner :
    registerReply (.plain .sample) .sample sampleRegistration .vacant =
        .ok ⟨102, "jose", "eve@y.io", "Eve", roleUser, true, false⟩ ∧
      registerReply (.plain .sample) .sample sampleRegistration .sample =
        .ok ⟨0, "jose", "jose@x.io", "", roleUser, true, false⟩ := by
  decide +kernel

end FinnAuth
