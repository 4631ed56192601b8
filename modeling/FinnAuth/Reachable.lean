import FinnAuth.Families
import FinnAuth.Footprint.Calls

/-!
# What every call keeps of sessions and refresh tokens

From a database without sessions, whatever is called in whatever order: a session belongs to a user
of its tenant, a refresh token belongs to a session of the same user, and a token value is stored
once. `Follows` says how such a state may move on: old rows grow older, and a new token joins only a
family that has not ended.

Results:
* `wp_issueTokenPair`, **`wp_refreshAudited`**: the two places where tokens are stored;
* **`serve_keeps`**, **`good_run`**: every public call, and every run.
-/

namespace FinnAuth

open Lib Prog

variable {α β : Type} {env : Env} {ctx : Ctx} {ip ua : String}

/-! ## States -/

variable {w w' w'' : World} {Q : Except Err α → World → Prop} {user : User} {sid token : Uuid}
  {p : M α} {t rt : RefreshToken} {userID : UserID} {db : DB} {s : Session} {reuse : Option Uuid}

/-- Sessions and tokens in order. -/
structure Tidy (db : DB) : Prop where
  homed : ∀ s ∈ db.sessions.rows, ∃ u ∈ db.users.rows, u.id = s.userID ∧ u.tenantID = s.tenantID
  linked : ∀ t ∈ db.refreshTokens.rows, ∃ s ∈ db.sessions.rows,
    t.sessionID = some s.id ∧ s.userID = t.userID
  hash : ∀ t ∈ db.refreshTokens.rows, ∀ t' ∈ db.refreshTokens.rows,
    t.tokenHash = t'.tokenHash → t = t'

/-- A state in order: a stored token value was drawn before. -/
structure Good (w : World) : Prop where
  tidy : Tidy w.db
  fresh : ∀ t ∈ w.db.refreshTokens.rows, t.tokenHash.preimage < w.entropy

/-- The session `sid` is revoked and so is every refresh token of its family. -/
def DB.Ended (db : DB) (sid : Uuid) : Prop :=
  (∃ s ∈ db.sessions.rows, s.id = sid ∧ s.revoked = true) ∧
    ∀ t ∈ db.refreshTokens.rows, t.sessionID = some sid → t.revoked = true

instance (db : DB) (sid : Uuid) : Decidable (db.Ended sid) := by
  unfold DB.Ended; infer_instance

theorem not_ended_of_unrevoked (hs : s ∈ db.sessions.rows) (hr : s.revoked = false) :
    ¬ db.Ended s.id := by
  rintro ⟨⟨s', hs', hid, hr'⟩, -⟩
  obtain rfl := db.sessions.eq_of_key_eq hs hs' hid.symm
  rw [hr] at hr'
  cases hr'

/-! ## Moving on -/

/-- How a state moves on under any call: old sessions stay, an old token value stays with its row,
and a token with a new value joins a family that had not ended. -/
structure Follows (w w' : World) : Prop where
  entropy : w.entropy ≤ w'.entropy
  token : ∀ t' ∈ w'.db.refreshTokens.rows, (∃ t ∈ w.db.refreshTokens.rows, t.Older t') ∨
    w.entropy ≤ t'.tokenHash.preimage ∧ ∀ sid, t'.sessionID = some sid → ¬ w.db.Ended sid
  session : ∀ s ∈ w.db.sessions.rows, ∃ s' ∈ w'.db.sessions.rows, s.Older s'

/-- A family that has ended stays so. -/
theorem Follows.ended (h : Follows w w') (he : w.db.Ended sid) : w'.db.Ended sid := by
  obtain ⟨s, hs, rfl, hr⟩ := he.1
  obtain ⟨s', hs', ho⟩ := h.session s hs
  refine ⟨⟨s', hs', ho.id, ho.revoked hr⟩, fun t' ht' hsid => ?_⟩
  rcases h.token t' ht' with ⟨t, ht, hot⟩ | ⟨-, hnew⟩
  · exact hot.revoked (he.2 t ht (hot.sessionID.symm.trans hsid))
  · exact absurd he (hnew _ hsid)

theorem Follows.trans (h : Follows w w') (h' : Follows w' w'') : Follows w w'' where
  entropy := Nat.le_trans h.entropy h'.entropy
  token := by
    intro t'' ht''
    rcases h'.token t'' ht'' with ⟨t', ht', ho'⟩ | ⟨hnew, hopen⟩
    · rcases h.token t' ht' with ⟨t, ht, ho⟩ | ⟨hnew, hopen⟩
      · exact .inl ⟨t, ht, ho.trans ho'⟩
      · exact .inr ⟨ho'.tokenHash ▸ hnew, fun sid hsid => hopen sid (ho'.sessionID ▸ hsid)⟩
    · exact .inr ⟨Nat.le_trans h.entropy hnew, fun sid hsid he => hopen sid hsid (h.ended he)⟩
  session := by
    intro s hs
    obtain ⟨s', hs', ho⟩ := h.session s hs
    obtain ⟨s'', hs'', ho'⟩ := h'.session s' hs'
    exact ⟨s'', hs'', ho.trans ho'⟩

/-- One token value: a row in the later state stems from a row in the earlier one. -/
theorem Follows.of_hash {tok : Uuid} {t' : RefreshToken} (h : Follows w w') (htok : tok < w.entropy)
    (ht' : t' ∈ w'.db.refreshTokens.rows) (hh : t'.tokenHash = ⟨tok⟩) :
    ∃ t ∈ w.db.refreshTokens.rows, t.Older t' := by
  rcases h.token t' ht' with h | ⟨hnew, -⟩
  · exact h
  · rw [hh] at hnew
    exact absurd htok (Nat.not_lt.2 hnew)

/-! ### Without a new pair -/

/-- The database moves on and nothing is issued. -/
structure Settled (db db' : DB) : Prop where
  token : ∀ t' ∈ db'.refreshTokens.rows, ∃ t ∈ db.refreshTokens.rows, t.Older t'
  session : ∀ s ∈ db.sessions.rows, ∃ s' ∈ db'.sessions.rows, s.Older s'
  before : ∀ s' ∈ db'.sessions.rows, ∃ s ∈ db.sessions.rows, s.Older s'
  user : ∀ u ∈ db.users.rows, ∃ u' ∈ db'.users.rows, u'.id = u.id ∧ u'.tenantID = u.tenantID

theorem Settled.refl (db : DB) : Settled db db :=
  ⟨fun t ht => ⟨t, ht, .refl t⟩, fun s hs => ⟨s, hs, .refl s⟩, fun s hs => ⟨s, hs, .refl s⟩,
    fun u hu => ⟨u, hu, rfl, rfl⟩⟩

theorem Settled.trans {a b c : DB} (h : Settled a b) (h' : Settled b c) : Settled a c where
  token := by
    intro t₂ ht₂
    obtain ⟨t₁, ht₁, ho₁⟩ := h'.token t₂ ht₂
    obtain ⟨t, ht, ho⟩ := h.token t₁ ht₁
    exact ⟨t, ht, ho.trans ho₁⟩
  session := by
    intro s hs
    obtain ⟨s₁, hs₁, ho⟩ := h.session s hs
    obtain ⟨s₂, hs₂, ho₁⟩ := h'.session s₁ hs₁
    exact ⟨s₂, hs₂, ho.trans ho₁⟩
  before := by
    intro s₂ hs₂
    obtain ⟨s₁, hs₁, ho₁⟩ := h'.before s₂ hs₂
    obtain ⟨s, hs, ho⟩ := h.before s₁ hs₁
    exact ⟨s, hs, ho.trans ho₁⟩
  user := by
    intro u hu
    obtain ⟨u₁, hu₁, hid₁, ht₁⟩ := h.user u hu
    obtain ⟨u₂, hu₂, hid₂, ht₂⟩ := h'.user u₁ hu₁
    exact ⟨u₂, hu₂, hid₂.trans hid₁, ht₂.trans ht₁⟩

/-- A row of `users` keeps its id and its tenant under every statement. -/
theorem user_exec (db : DB) (st : Stmt) :
    ∀ u ∈ db.users.rows, ∃ u' ∈ (db.exec st).users.rows,
      u'.id = u.id ∧ u'.tenantID = u.tenantID := by
  intro u hu
  obtain ⟨u', h', hkeeps⟩ := userRow_keeps
    (P := fun u u' => u'.id = u.id ∧ u'.tenantID = u.tenantID) st (userRow_of_mem hu) ⟨rfl, rfl⟩
    fun _ w _ => ⟨w.apply_id u, w.apply_tenantID u⟩
  exact ⟨u', (userRow_spec h').1, hkeeps⟩

theorem settled_exec {st : Stmt} (h : tame.stmt st) : Settled db (db.exec st) := by
  have hs := shrinks_exec db st h.1 h.2
  exact ⟨fun _ ht => hs.token_before ht, hs.ages.session, fun _ hs' => hs.session_before hs',
    user_exec db st⟩

theorem Ran.settled (h : Ran tame w w') : Settled w.db w'.db :=
  h.keeps (I := Settled w.db) (fun _ _ hs hd => hd.trans (settled_exec hs)) (Settled.refl _)

theorem Tidy.settled {db db' : DB} (h : Tidy db) (hs : Settled db db') : Tidy db' where
  homed := by
    intro s' hs'
    obtain ⟨s, hsm, ho⟩ := hs.before s' hs'
    obtain ⟨u, hu, hid, ht⟩ := h.homed s hsm
    obtain ⟨u', hu', hid', ht'⟩ := hs.user u hu
    exact ⟨u', hu', by rw [hid', hid, ho.userID], by rw [ht', ht, ho.tenantID]⟩
  linked := by
    intro t' ht'
    obtain ⟨t, ht, ho⟩ := hs.token t' ht'
    obtain ⟨s, hsm, hsid, hu⟩ := h.linked t ht
    obtain ⟨s', hs', hos⟩ := hs.session s hsm
    exact ⟨s', hs', by rw [ho.sessionID, hsid, hos.id], by rw [hos.userID, hu, ho.userID]⟩
  hash := by
    intro a ha b hb hab
    obtain ⟨a₀, ha₀, hoa⟩ := hs.token a ha
    obtain ⟨b₀, hb₀, hob⟩ := hs.token b hb
    have h₀ : a₀ = b₀ := h.hash a₀ ha₀ b₀ hb₀ (by rw [← hoa.tokenHash, ← hob.tokenHash, hab])
    exact db'.refreshTokens.eq_of_key_eq ha hb (by rw [hoa.id, hob.id, h₀])

/-- The next state: in order, and a continuation of the old one. -/
structure Next (w w' : World) : Prop where
  good : Good w'
  follows : Follows w w'

theorem Next.trans (h : Next w w') (h' : Next w' w'') : Next w w'' :=
  ⟨h'.good, h.follows.trans h'.follows⟩

theorem next_settled (hw : Good w) (h : Settled w.db w'.db) (he : w.entropy ≤ w'.entropy) :
    Next w w' where
  good := by
    refine ⟨hw.tidy.settled h, fun t' ht' => ?_⟩
    obtain ⟨t, ht, ho⟩ := h.token t' ht'
    rw [ho.tokenHash]
    exact Nat.lt_of_lt_of_le (hw.fresh t ht) he
  follows := ⟨he, fun t' ht' => .inl (h.token t' ht'), h.session⟩

/-- Only the database and the count of random values matter. -/
theorem next_congr (hw : Good w) (h : w'.db = w.db) (he : w.entropy ≤ w'.entropy) : Next w w' :=
  next_settled hw (h ▸ Settled.refl w.db) he

/-! ## Stretches that read only -/

/-- Audit rows are the only writes. -/
def reads : Footprint where
  label _ := True
  stmt s := ∃ e, s = .insertAudit e
  mail _ := True
  key _ := True

theorem reads_quiet : reads.Quiet :=
  ⟨⟨trivial, fun _ => trivial, fun _ => trivial, fun _ _ => trivial⟩, fun e => ⟨e, rfl⟩,
    fun _ _ => trivial⟩

/-- Users, sessions and refresh tokens are as they were. -/
structure Still (w w' : World) : Prop where
  users : w'.db.users = w.db.users
  sessions : w'.db.sessions = w.db.sessions
  refreshTokens : w'.db.refreshTokens = w.db.refreshTokens
  entropy : w.entropy ≤ w'.entropy
  now : w'.now = w.now

theorem Ran.still (h : Ran reads w w') : Still w w' where
  users := h.same (f := DB.users) (by rintro db s ⟨e, rfl⟩; rfl)
  sessions := h.same (f := DB.sessions) (by rintro db s ⟨e, rfl⟩; rfl)
  refreshTokens := h.same (f := DB.refreshTokens) (by rintro db s ⟨e, rfl⟩; rfl)
  entropy := h.entropy
  now := h.now

theorem Still.trans (h : Still w w') (h' : Still w' w'') : Still w w'' :=
  ⟨h'.users.trans h.users, h'.sessions.trans h.sessions,
    h'.refreshTokens.trans h.refreshTokens, Nat.le_trans h.entropy h'.entropy,
    h'.now.trans h.now⟩

theorem Still.settled (h : Still w w') : Settled w.db w'.db := by
  refine ⟨fun t ht => ?_, fun s hs => ?_, fun s hs => ?_, fun u hu => ?_⟩
  · exact ⟨t, h.refreshTokens ▸ ht, .refl t⟩
  · exact ⟨s, h.sessions ▸ hs, .refl s⟩
  · exact ⟨s, h.sessions ▸ hs, .refl s⟩
  · exact ⟨u, h.users ▸ hu, rfl, rfl⟩

theorem Still.next (h : Still w w') (hw : Good w) : Next w w' :=
  next_settled hw h.settled h.entropy

theorem Still.ended (h : Still w w') (sid : Uuid) : w'.db.Ended sid ↔ w.db.Ended sid := by
  rw [DB.Ended, DB.Ended, h.sessions, h.refreshTokens]

theorem wp_still (hp : Each (Acts reads) p) (hQ : ∀ r w', Still w w' → Q r w') : wp p Q w :=
  wp_of_within (within_of_each hp) fun r w' h => hQ r w' h.still

theorem wp_tame (hp : Each (Acts tame) p)
    (hQ : ∀ r w', Settled w.db w'.db → w.entropy ≤ w'.entropy → Q r w') : wp p Q w :=
  wp_of_within (within_of_each hp) fun r w' h => hQ r w' h.settled h.entropy

/-- A refusal after a tame stretch. -/
theorem wp_refuseAfter_tame {c : Bool} {p : M Unit} {e : Err} {Q : Except Err Unit → World → Prop}
    (hp : Each (Acts tame) p)
    (herr : ∀ e' w', Settled w.db w'.db → w.entropy ≤ w'.entropy → Q (.error e') w')
    (hok : c = false → Q (.ok ()) w) : wp (refuseAfter c p e) Q w := by
  rw [wp_refuseAfter]
  refine ⟨fun _ => wp_seq (wp_tame hp fun r w' hs he => ?_), hok⟩
  cases r <;> exact herr _ w' hs he

/-- A repository call that wrote nothing. -/
theorem Executes.still (h : Executes none w w') : Still w w' := by
  have hdb : w'.db = w.db := h.db
  exact ⟨by rw [hdb], by rw [hdb], by rw [hdb], Nat.le_of_eq h.entropy.symm, h.now⟩

/-- A query answers from the state it finds. -/
theorem wp_query_still {l : Call} {f : DB → α} (herr : ∀ w', Still w w' → Q (.error .db) w')
    (hok : ∀ w', Still w w' → Q (.ok (f w.db)) w') : wp (query l f) Q w := by
  refine wp_executes fun r o w' hro hex => ?_
  rcases hro with ⟨rfl, rfl⟩ | hro
  · exact herr w' hex.still
  · cases hro
    exact hok w' hex.still

/-! ## Issuing -/

/-- The caller's session for a new pair: there, of this user, and unrevoked. -/
def DB.openSession (db : DB) (sid : Uuid) (userID : UserID) : Prop :=
  ∃ s ∈ db.sessions.rows, s.id = sid ∧ s.userID = userID ∧ s.revoked = false

/-- The refresh token of the pair is stored unrevoked in the family `sid`, which is open. -/
def DB.Holds (db : DB) (pair : TokenPair) (sid : Uuid) : Prop :=
  (∃ t ∈ db.refreshTokens.rows, t.tokenHash = ⟨pair.refreshToken⟩ ∧ t.revoked = false ∧
    t.sessionID = some sid) ∧ ∃ s ∈ db.sessions.rows, s.id = sid ∧ s.revoked = false

theorem holds_still {pair : TokenPair} (h : Still w w') (hh : w.db.Holds pair sid) :
    w'.db.Holds pair sid := by
  unfold DB.Holds
  rw [h.sessions, h.refreshTokens]
  exact hh

theorem Tidy.insertSession {u : User} (h : Tidy db) (hfresh : ¬ db.hasSession s.id)
    (hu : u ∈ db.users.rows) (hid : u.id = s.userID) (ht : u.tenantID = s.tenantID) :
    Tidy (db.exec (.insertSession s)) where
  homed := by
    intro x hx
    rw [insertSession_rows hfresh, List.mem_append, List.mem_singleton] at hx
    rcases hx with hx | rfl
    · exact h.homed x hx
    · exact ⟨u, hu, hid, ht⟩
  linked := by
    intro t htm
    obtain ⟨x, hx, hsid, hxu⟩ := h.linked t htm
    refine ⟨x, ?_, hsid, hxu⟩
    rw [insertSession_rows hfresh]
    exact List.mem_append_left _ hx
  hash := h.hash

theorem next_insertSession {u : User} (hw : Good w) (hfresh : ¬ w.db.hasSession s.id)
    (hu : u ∈ w.db.users.rows) (hid : u.id = s.userID) (ht : u.tenantID = s.tenantID)
    (hdb : w'.db = w.db.exec (.insertSession s)) (he : w'.entropy = w.entropy) : Next w w' where
  good := by
    refine ⟨hdb ▸ hw.tidy.insertSession hfresh hu hid ht, ?_⟩
    rw [hdb, he]
    exact hw.fresh
  follows := by
    refine ⟨Nat.le_of_eq he.symm, ?_, ?_⟩ <;> rw [hdb]
    · exact fun t ht => .inl ⟨t, ht, .refl t⟩
    · exact (ages_insertSession hfresh).session

theorem good_insertToken (hw : Good w) (hid : t.id ∉ w.db.refreshTokens.rows.map RefreshToken.id)
    (hhash : ∀ x ∈ w.db.refreshTokens.rows, x.tokenHash ≠ t.tokenHash)
    (hs : w.db.openSession sid t.userID) (hsid : t.sessionID = some sid)
    (hnew : t.tokenHash.preimage < w.entropy) (hdb : w'.db = w.db.exec (.insertToken t))
    (he : w'.entropy = w.entropy) : Good w' := by
  obtain ⟨s, hsm, rfl, hsu, -⟩ := hs
  have hrows := insertToken_rows hid
  rw [← hdb] at hrows
  have hses : w'.db.sessions = w.db.sessions := by rw [hdb]; rfl
  refine ⟨⟨?_, fun x hx => ?_, fun x hx y hy hxy => ?_⟩, fun x hx => ?_⟩
  · rw [hdb]
    exact hw.tidy.homed
  · rw [hrows, List.mem_append, List.mem_singleton] at hx
    rw [hses]
    rcases hx with hx | rfl
    · exact hw.tidy.linked x hx
    · exact ⟨s, hsm, hsid, hsu⟩
  · rw [hrows, List.mem_append, List.mem_singleton] at hx hy
    rcases hx with hx | rfl <;> rcases hy with hy | rfl
    · exact hw.tidy.hash x hx y hy hxy
    · exact absurd hxy (hhash x hx)
    · exact absurd hxy.symm (hhash y hy)
    · rfl
  · rw [hrows, List.mem_append, List.mem_singleton] at hx
    rw [he]
    rcases hx with hx | rfl
    · exact hw.fresh x hx
    · exact hnew

theorem openSession_touch {sid id : Uuid} {dev loc : String} {at_ : Nat}
    (h : db.openSession sid userID) :
    (db.exec (.touchSession ctx id ip ua dev loc at_)).openSession sid userID := by
  obtain ⟨s, hs, hid, hu, hr⟩ := h
  simp only [DB.openSession, DB.exec, Table.mem_update]
  refine ⟨_, ⟨s, hs, rfl⟩, ?_⟩
  split <;> exact ⟨hid, hu, hr⟩

/-- `SessionRepository.Create` adds a row with a new id. -/
theorem wp_sessionsCreate (hw : Good w) :
    wp (sessionsCreate ctx s) (fun r w' => Next w w' ∧ (r = .ok () → ¬ w.db.hasSession s.id ∧
      { s with tenantID := ctx.tenant } ∈ w'.db.sessions.rows)) w := by
  refine wp_executes fun r o w' hro hex => ?_
  rcases hro with ⟨rfl, rfl⟩ | hro
  · exact ⟨hex.still.next hw, fun h => by cases h⟩
  split at hro
  · cases hro
    exact ⟨hex.still.next hw, fun h => by cases h⟩
  rename_i hown
  split at hro
  · cases hro
    exact ⟨hex.still.next hw, fun h => by cases h⟩
  rename_i hfresh
  cases hro
  have hno : ¬ w.db.hasSession s.id := by simpa [DB.hasSession] using hfresh
  obtain ⟨u, hum, hup⟩ := DB.owns_iff.1 (by simpa using hown)
  have hdb : w'.db = w.db.exec (.insertSession { s with tenantID := ctx.tenant }) := hex.db
  refine ⟨next_insertSession (s := { s with tenantID := ctx.tenant }) hw hno hum hup.1 hup.2 hdb
    hex.entropy, fun _ => ⟨hno, ?_⟩⟩
  rw [hdb]
  exact mem_insertSession (s := { s with tenantID := ctx.tenant }) hno

/-- The session of a new pair is open, and its family had not ended before. -/
theorem wp_issueSession (hw : Good w)
    (hown : ∀ sid, reuse = some sid → w.db.openSession sid user.id) :
    wp (issueSession env ctx user ip ua reuse) (fun r w' => Next w w' ∧ ∀ sid, r = .ok sid →
      w'.db.openSession sid user.id ∧ ¬ w.db.Ended sid ∧ ∀ s, reuse = some s → s = sid) w := by
  have herr : ∀ (e : Err) (w' : World), Next w w' → Next w w' ∧ ∀ sid, .error e = Except.ok sid →
      w'.db.openSession sid user.id ∧ ¬ w.db.Ended sid ∧ ∀ s, reuse = some s → s = sid :=
    fun _ _ h => ⟨h, fun _ h => by cases h⟩
  cases reuse with
  | some sid =>
    obtain ⟨s, hs, hid, hu, hr⟩ := hown sid rfl
    refine wp_seq ?_
    rw [wp_getNow, thenWp_ok]
    refine wp_seq ?_
    rw [wp_ignore]
    refine wp_executes fun r o w' hro hex => ?_
    rw [thenWp_ok, pure_def, wp_ret]
    have ho : o = none ∨ ∃ dev loc, o = some (.touchSession ctx sid ip ua dev loc w.now) := by
      rcases hro with ⟨-, rfl⟩ | hro
      · exact .inl rfl
      · split at hro <;> cases hro
        · exact .inl rfl
        · exact .inr ⟨_, _, rfl⟩
    have hend : ¬ w.db.Ended sid := hid ▸ not_ended_of_unrevoked hs hr
    rcases ho with rfl | ⟨dev, loc, rfl⟩
    · refine ⟨hex.still.next hw, fun sid' h => ?_⟩
      cases h
      rw [show w'.db = w.db from hex.db]
      exact ⟨⟨s, hs, hid, hu, hr⟩, hend, fun _ h => (Option.some.inj h).symm⟩
    · have hdb : w'.db = w.db.exec (.touchSession ctx sid ip ua dev loc w.now) := hex.db
      refine ⟨next_settled hw (hdb ▸ settled_exec (by simp [tame])) (Nat.le_of_eq hex.entropy.symm),
        fun sid' h => ?_⟩
      cases h
      rw [hdb]
      exact ⟨openSession_touch ⟨s, hs, hid, hu, hr⟩, hend, fun _ h => (Option.some.inj h).symm⟩
  | none =>
    refine wp_seq ?_
    rw [wp_draw, thenWp_ok]
    refine wp_seq ?_
    rw [wp_getNow, thenWp_ok]
    have h₁ : Next w { w with entropy := w.entropy + 1 } := next_congr hw rfl (Nat.le_succ _)
    refine wp_seq (wp_mono (wp_sessionsCreate h₁.good) fun r w' h₂ => ?_)
    cases r with
    | error e => exact herr e w' (h₁.trans h₂.1)
    | ok _ =>
      obtain ⟨hno, hmem⟩ := h₂.2 rfl
      refine ⟨h₁.trans h₂.1, fun sid h => ?_⟩
      cases h
      refine ⟨⟨_, hmem, rfl, rfl, rfl⟩, ?_, fun _ h => by cases h⟩
      rintro ⟨⟨s, hs, hid, -⟩, -⟩
      exact hno ⟨s, hs, hid⟩

/-- `RefreshTokenRepository.Create` adds a row to an open family. -/
theorem wp_tokensCreate {access : Token} (hw : Good w) (hsid : t.sessionID = some sid)
    (hs : w.db.openSession sid t.userID) (hnew : t.tokenHash.preimage < w.entropy) :
    wp (tokensCreate ctx t access) (fun r w' => Good w' ∧ w'.entropy = w.entropy ∧
      w'.db.sessions = w.db.sessions ∧
      (r = .ok () ∧ t ∈ w'.db.refreshTokens.rows ∧
          (∀ x ∈ w'.db.refreshTokens.rows, x ∈ w.db.refreshTokens.rows ∨ x = t) ∨
        (∃ e, r = .error e) ∧ w'.db.refreshTokens = w.db.refreshTokens)) w := by
  refine wp_executes fun r o w' hro hex => ?_
  have hnone : o = none → ∀ e, r = .error e → Good w' ∧ w'.entropy = w.entropy ∧
      w'.db.sessions = w.db.sessions ∧
      (r = .ok () ∧ t ∈ w'.db.refreshTokens.rows ∧
          (∀ x ∈ w'.db.refreshTokens.rows, x ∈ w.db.refreshTokens.rows ∨ x = t) ∨
        (∃ e, r = .error e) ∧ w'.db.refreshTokens = w.db.refreshTokens) := by
    rintro rfl e rfl
    exact ⟨(hex.still.next hw).good, hex.entropy, hex.still.sessions, .inr ⟨⟨e, rfl⟩,
      hex.still.refreshTokens⟩⟩
  rcases hro with ⟨rfl, ho⟩ | hro
  · exact hnone ho _ rfl
  split at hro
  · cases hro
    exact hnone rfl _ rfl
  split at hro
  · cases hro
    exact hnone rfl _ rfl
  rename_i hhash
  split at hro
  · cases hro
    exact hnone rfl _ rfl
  rename_i hid
  cases hro
  have hdb : w'.db = w.db.exec (.insertToken t) := hex.db
  have hdup : ∀ x ∈ w.db.refreshTokens.rows, x.tokenHash ≠ t.tokenHash := by simpa using hhash
  refine ⟨good_insertToken hw hid hdup hs hsid hnew hdb hex.entropy, hex.entropy, ?_,
    .inl ⟨rfl, ?_, ?_⟩⟩
  · rw [hdb]
    rfl
  · rw [hdb]
    exact mem_insertToken hid
  · rw [hdb, insertToken_rows hid]
    simp

/-- The refresh token of a new pair is stored unrevoked in the open family. -/
theorem wp_issueRefresh {access : Token} (hw : Good w) (hs : w.db.openSession sid user.id) :
    wp (issueRefresh env ctx user ip ua sid access) (fun r w' => Next w w' ∧
      ∀ pair, r = .ok pair → w'.db.Holds pair sid) w := by
  refine wp_seq ?_
  rw [wp_draw, thenWp_ok]
  refine wp_seq ?_
  rw [wp_draw, thenWp_ok]
  refine wp_seq ?_
  rw [wp_getNow, thenWp_ok]
  have h₁ : Next w { w with entropy := w.entropy + 1 + 1 } :=
    next_congr hw rfl (Nat.le_add_right _ 2)
  refine wp_seq ?_
  refine wp_mono (wp_tokensCreate h₁.good rfl hs ?_) fun r w' h => ?_
  · exact Nat.lt_add_of_pos_right Nat.two_pos
  obtain ⟨hgood, he, hses, h⟩ := h
  have hsession : ∀ s ∈ w.db.sessions.rows, ∃ s' ∈ w'.db.sessions.rows, s.Older s' :=
    fun s hs => ⟨s, hses ▸ hs, .refl s⟩
  have hent : w.entropy ≤ w'.entropy := by rw [he]; exact Nat.le_add_right _ 2
  rcases h with ⟨rfl, hmem, hrows⟩ | ⟨⟨e, rfl⟩, hrows⟩
  · rw [thenWp_ok, pure_def, wp_ret]
    refine ⟨⟨hgood, hent, fun t' ht' => ?_, hsession⟩, fun pair hp => ?_⟩
    · rcases hrows t' ht' with ht' | rfl
      · exact .inl ⟨t', ht', .refl t'⟩
      · -- the value is the first of the two draws
        obtain ⟨s, hsm, rfl, -, hr⟩ := hs
        exact .inr ⟨Nat.le.refl, fun sid' h => by cases h; exact not_ended_of_unrevoked hsm hr⟩
    · cases hp
      obtain ⟨s, hsm, hid, -, hr⟩ := hs
      exact ⟨⟨_, hmem, rfl, rfl, rfl⟩, s, hses ▸ hsm, hid, hr⟩
  · refine ⟨⟨hgood, hent, fun t' ht' => .inl ⟨t', hrows ▸ ht', .refl t'⟩, hsession⟩, ?_⟩
    exact fun _ h => by cases h

theorem openSession_still (h : Still w w') (ho : w.db.openSession sid userID) :
    w'.db.openSession sid userID := by
  unfold DB.openSession
  rw [h.sessions]
  exact ho

/-- **A pair is issued** into a new family or into the open one that is handed over. -/
theorem wp_issueTokenPair (hw : Good w)
    (hown : ∀ sid, reuse = some sid → w.db.openSession sid user.id) :
    wp (issueTokenPair env ctx user ip ua reuse) (fun r w' => Next w w' ∧ ∀ pair, r = .ok pair →
      ∃ sid, w'.db.Holds pair sid ∧ ∀ s, reuse = some s → s = sid) w := by
  have herr : ∀ (e : Err) (w' : World), Next w w' → Next w w' ∧
      ∀ pair : TokenPair, .error e = Except.ok pair →
        ∃ sid, w'.db.Holds pair sid ∧ ∀ s, reuse = some s → s = sid :=
    fun _ _ h => ⟨h, fun _ h => by cases h⟩
  refine wp_seq (wp_still (each_refuse _ _) fun r w₁ h₁ => ?_)
  cases r with
  | error e => exact herr e w₁ (h₁.next hw)
  | ok _ =>
  rw [thenWp_ok]
  refine wp_seq (wp_still (each_refuse _ _) fun r w₂ h₂ => ?_)
  have h₂ := h₁.trans h₂
  cases r with
  | error e => exact herr e w₂ (h₂.next hw)
  | ok _ =>
  rw [thenWp_ok]
  refine wp_seq (wp_still (each_bind (each_attempt (each_query trivial)) fun r => ?_)
    fun r w₃ h₃ => ?_)
  · rcases r with _ | _ <;> trivial
  have h₃ := h₂.trans h₃
  have hn₃ := h₃.next hw
  cases r with
  | error e => exact herr e w₃ hn₃
  | ok =>
  rw [thenWp_ok]
  refine wp_seq (wp_mono (wp_issueSession hn₃.good fun sid h => openSession_still h₃ (hown sid h))
    fun r w₄ h₄ => ?_)
  have hn₄ := hn₃.trans h₄.1
  cases r with
  | error e => exact herr e w₄ hn₄
  | ok sid =>
  obtain ⟨hopen, -, hreuse⟩ := h₄.2 sid rfl
  rw [thenWp_ok]
  refine wp_seq (wp_still (each_issueAccess reads_quiet fun _ _ _ _ => trivial) fun r w₅ h₅ => ?_)
  have hn₅ := hn₄.trans (h₅.next hn₄.good)
  cases r with
  | error e => exact herr e w₅ hn₅
  | ok =>
  rw [thenWp_ok]
  refine wp_seq (wp_mono (wp_issueRefresh hn₅.good (openSession_still h₅ hopen)) fun r w₆ h₆ => ?_)
  have hn₆ := hn₅.trans h₆.1
  cases r with
  | error e => exact herr e w₆ hn₆
  | ok pair =>
  rw [thenWp_ok]
  refine wp_seq (wp_still (each_maybeNotifyNewIPLogin reads_quiet fun _ _ _ => trivial)
    fun r w₇ h₇ => ?_)
  have hn₇ := hn₆.trans (h₇.next hn₆.good)
  cases r with
  | error e => exact herr e w₇ hn₇
  | ok _ =>
    refine ⟨hn₇, fun pair' hp => ?_⟩
    cases hp
    exact ⟨sid, holds_still h₇ (h₆.2 pair rfl), hreuse⟩

/-! ## Refresh -/

/-- A family that passes its check: the session is there, in time and unrevoked, and nothing was
written. -/
theorem wp_checkFamily :
    wp (checkFamily env ctx rt ip) (fun r w' => Settled w.db w'.db ∧ w.entropy ≤ w'.entropy ∧
      (r = .ok () → Still w w' ∧ ∀ sid, rt.sessionID = some sid →
        ∃ s ∈ w.db.sessions.rows, s.id = sid ∧ s.revoked = false)) w := by
  refine ⟨?_, ?_, ?_⟩
  · exact wp_tame (each_checkFamily tame_quiet tame_revokes) fun _ _ h _ => h
  · exact wp_tame (each_checkFamily tame_quiet tame_revokes) fun _ _ _ h => h
  change wp (checkFamily env ctx rt ip) (fun r w' => r = .ok () → Still w w' ∧
    ∀ sid, rt.sessionID = some sid → ∃ s ∈ w.db.sessions.rows, s.id = sid ∧ s.revoked = false) w
  unfold checkFamily
  split
  · rename_i hsid
    exact fun _ => ⟨⟨rfl, rfl, rfl, Nat.le.refl, rfl⟩, fun sid h => by rw [hsid] at h; cases h⟩
  rename_i sid hsid
  refine wp_seq ?_
  rw [wp_wrap]
  refine wp_query_still (fun _ _ h => by cases h) fun w₁ h₁ => ?_
  simp only [Except.mapError, thenWp_ok]
  cases hs : w.db.sessionByID ctx sid with
  | none => exact fun h => by cases h
  | some sess =>
    refine wp_seq ?_
    rw [wp_getNow, thenWp_ok]
    refine wp_refuseAfter_tame (each_handleTokenReuse tame_quiet tame_revokes)
      (fun _ _ _ _ h => by cases h) fun hc _ => ⟨h₁, fun sid' hsid' => ?_⟩
    · obtain ⟨hmem, hp⟩ := Table.mem_of_first? hs
      simp only [Bool.and_eq_true, decide_eq_true_eq] at hp
      simp only [Bool.or_eq_false_iff] at hc
      obtain rfl := Option.some.inj (hsid.symm.trans hsid')
      exact ⟨sess, hmem, hp.1, hc.1⟩

/-- A won compare-and-set is all that a successful `consumeToken` does. -/
theorem wp_consumeToken :
    wp (consumeToken env ctx rt ip) (fun r w' => Settled w.db w'.db ∧ w.entropy ≤ w'.entropy ∧
      (r = .ok () → w'.db = w.db.exec (.casToken rt.id))) w := by
  refine ⟨?_, ?_, ?_⟩
  · exact wp_tame (each_consumeToken tame_quiet tame_revokes tame_consumes) fun _ _ h _ => h
  · exact wp_tame (each_consumeToken tame_quiet tame_revokes tame_consumes) fun _ _ _ h => h
  change wp (consumeToken env ctx rt ip) (fun r w' => r = .ok () →
    w'.db = w.db.exec (.casToken rt.id)) w
  refine wp_seq ?_
  rw [wp_attempt]
  refine wp_executes fun r o w₁ hro hex => ?_
  rw [thenWp_ok]
  rcases hro with ⟨rfl, -⟩ | hro
  · exact fun h => by cases h
  split at hro
  · cases hro
    exact fun _ => hex.db
  · cases hro
    refine wp_seq (wp_tame (each_handleTokenReuse tame_quiet tame_revokes) fun r w₂ _ _ => ?_)
    cases r <;> exact fun h => by cases h

/-- What a successful `Refresh` of `token` has done: the row was unrevoked and is revoked now, and
the new token is stored unrevoked in the same family, which is open. -/
structure Exchange (token : Uuid) (pair : TokenPair) (w w' : World) : Prop where
  spent : ∀ t ∈ w'.db.refreshTokens.rows, t.tokenHash = ⟨token⟩ → t.revoked = true
  row : ∃ rt ∈ w.db.refreshTokens.rows, rt.tokenHash = ⟨token⟩ ∧ rt.revoked = false ∧
    ∃ sid, rt.sessionID = some sid ∧ w'.db.Holds pair sid

/-- A row that stays unrevoked under the compare-and-set on `rt` is another one. -/
theorem revoked_of_cas (h : Tidy db) (hrt : rt ∈ db.refreshTokens.rows)
    (ht : t ∈ (db.exec (.casToken rt.id)).refreshTokens.rows) (hh : t.tokenHash = rt.tokenHash) :
    t.revoked = true := by
  simp only [DB.exec, DB.revokeTokens, Table.mem_update, decide_eq_true_eq] at ht
  obtain ⟨x, hx, rfl⟩ := ht
  by_cases hid : x.id = rt.id
  · rw [if_pos hid]
  · rw [if_neg hid] at hh
    exact absurd (congrArg RefreshToken.id (h.hash x hx rt hrt hh)) hid

theorem wp_rotate (hw : Good w) (hrt : rt ∈ w.db.refreshTokens.rows) (htok : rt.tokenHash = ⟨token⟩)
    (hr : rt.revoked = false) (huser : user.id = rt.userID) :
    wp (rotate env ctx rt user ip ua) (fun r w' => Next w w' ∧
      ∀ pair, r = .ok pair → Exchange token pair w w') w := by
  have herr : ∀ (e : Err) (w' : World), Next w w' → Next w w' ∧
      ∀ pair : TokenPair, .error e = Except.ok pair → Exchange token pair w w' :=
    fun _ _ h => ⟨h, fun _ h => by cases h⟩
  refine wp_seq (wp_mono wp_checkFamily fun r w₁ h₁ => ?_)
  have hn₁ := next_settled hw h₁.1 h₁.2.1
  cases r with
  | error e => exact herr e w₁ hn₁
  | ok _ =>
  obtain ⟨hstill, hopen⟩ := h₁.2.2 rfl
  rw [thenWp_ok]
  refine wp_seq (wp_mono wp_consumeToken fun r w₂ h₂ => ?_)
  have hn₂ := hn₁.trans (next_settled hn₁.good h₂.1 h₂.2.1)
  cases r with
  | error e => exact herr e w₂ hn₂
  | ok _ =>
  have hdb := h₂.2.2 rfl
  have hrt₁ : rt ∈ w₁.db.refreshTokens.rows := by rw [hstill.refreshTokens]; exact hrt
  -- the check saw the session unrevoked, and the compare-and-set leaves sessions alone
  have hopen₂ : ∀ sid, rt.sessionID = some sid → w₂.db.openSession sid user.id := by
    intro sid hsid
    obtain ⟨s, hs, hid, hsr⟩ := hopen sid hsid
    obtain ⟨s', hs', hsid', hsu⟩ := hw.tidy.linked rt hrt
    obtain rfl := w.db.sessions.eq_of_key_eq hs hs'
      (hid.trans (Option.some.inj (hsid.symm.trans hsid')))
    have hses : w₂.db.sessions = w.db.sessions := by
      rw [hdb, ← hstill.sessions]
      rfl
    exact ⟨s, by rw [hses]; exact hs, hid, hsu.trans huser.symm, hsr⟩
  have hspent : ∀ t ∈ w₂.db.refreshTokens.rows, t.tokenHash = ⟨token⟩ → t.revoked = true := by
    intro t ht hh
    rw [hdb] at ht
    exact revoked_of_cas hn₁.good.tidy hrt₁ ht (hh.trans htok.symm)
  rw [thenWp_ok]
  refine wp_seq (wp_mono (wp_issueTokenPair hn₂.good hopen₂) fun r w₃ h₃ => ?_)
  have hn₃ := hn₂.trans h₃.1
  cases r with
  | error e => exact herr e w₃ hn₃
  | ok pair =>
  rw [thenWp_ok]
  refine wp_seq (wp_still (each_record reads_quiet) fun r w₄ h₄ => ?_)
  have hn₄ := hn₃.trans (h₄.next hn₃.good)
  cases r with
  | error e => exact herr e w₄ hn₄
  | ok _ =>
    rw [thenWp_ok, pure_def, wp_ret]
    refine ⟨hn₄, fun pair' hp => ?_⟩
    cases hp
    have hlt : token < w.entropy := by
      have := hw.fresh rt hrt
      rwa [htok] at this
    refine ⟨fun t ht hh => ?_, rt, hrt, htok, hr, ?_⟩
    · rw [h₄.refreshTokens] at ht
      have hlt₂ : token < w₂.entropy := Nat.lt_of_lt_of_le hlt hn₂.follows.entropy
      obtain ⟨t₂, ht₂, ho⟩ := h₃.1.follows.of_hash hlt₂ ht hh
      exact ho.revoked (hspent t₂ ht₂ (ho.tokenHash.symm.trans hh))
    · obtain ⟨sid, hholds, hsid⟩ := h₃.2 pair rfl
      obtain ⟨s, -, hlink, -⟩ := hw.tidy.linked rt hrt
      exact ⟨sid, hsid _ hlink ▸ hlink, holds_still h₄ hholds⟩

/-- **`Refresh`**: the state moves on, and a returned pair is an exchange. -/
theorem wp_refreshAudited (hw : Good w) :
    wp (refreshAudited env ctx token ip ua) (fun r w' => Next w w' ∧
      ∀ pair, r = .ok pair → Exchange token pair w w') w := by
  have herr : ∀ (e : Err) (w' : World), Next w w' → Next w w' ∧
      ∀ pair : TokenPair, .error e = Except.ok pair → Exchange token pair w w' :=
    fun _ _ h => ⟨h, fun _ h => by cases h⟩
  have htame : ∀ {w₁ : World}, Next w w₁ → ∀ (e : Err) (w' : World), Settled w₁.db w'.db →
      w₁.entropy ≤ w'.entropy → Next w w' ∧
        ∀ pair : TokenPair, .error e = Except.ok pair → Exchange token pair w w' :=
    fun hn e w' hs he => herr e w' (hn.trans (next_settled hn.good hs he))
  refine wp_seq ?_
  rw [wp_wrap]
  refine wp_query_still (fun w₁ h₁ => herr _ w₁ (h₁.next hw)) fun w₁ h₁ => ?_
  have hn₁ := h₁.next hw
  simp only [Except.mapError, thenWp_ok]
  cases hrt : w.db.tokenByHash ctx ⟨token⟩ with
  | none => exact herr _ w₁ hn₁
  | some rt =>
  obtain ⟨hmem, hp⟩ := Table.mem_of_first? hrt
  simp only [Bool.and_eq_true, decide_eq_true_eq] at hp
  refine wp_seq (wp_refuseAfter_tame (each_handleTokenReuse tame_quiet tame_revokes) (htame hn₁)
    fun hrev => ?_)
  rw [thenWp_ok]
  refine wp_seq ?_
  rw [wp_getNow, thenWp_ok]
  refine wp_seq (wp_refuseAfter_tame (each_ignore (each_tokensRevoke tame_consumes)) (htame hn₁)
    fun _ => ?_)
  rw [thenWp_ok]
  refine wp_seq (wp_query_still (fun w₂ h₂ => herr _ w₂ ((h₁.trans h₂).next hw)) fun w₂ h₂ => ?_)
  have h₂ := h₁.trans h₂
  have hn₂ := h₂.next hw
  rw [thenWp_ok]
  cases huser : w₁.db.userByID ctx rt.userID with
  | none => exact herr _ w₂ hn₂
  | some user =>
  refine wp_seq ((wp_refuse _ _ _ _).2 ⟨fun _ => herr _ w₂ hn₂, fun _ => ?_⟩)
  rw [thenWp_ok]
  have hmem₂ : rt ∈ w₂.db.refreshTokens.rows := by rw [h₂.refreshTokens]; exact hmem
  refine wp_mono (wp_rotate hn₂.good hmem₂ hp.1 hrev (DB.userByID_spec huser).2.1) fun r w₃ h₃ => ?_
  refine ⟨hn₂.trans h₃.1, fun pair hpair => ?_⟩
  obtain ⟨hspent, rt', hrt', hrow⟩ := h₃.2 pair hpair
  exact ⟨hspent, rt', by rw [← h₂.refreshTokens]; exact hrt', hrow⟩

/-! ## Every call -/

/-- A function that moves states in order on to states in order. -/
def Keeps (p : M α) : Prop := ∀ w, Good w → wp p (fun _ w' => Next w w') w

theorem keeps_within (h : Within tame p) : Keeps p :=
  fun _ hw => wp_of_within h fun _ _ hr => next_settled hw hr.settled hr.entropy

theorem keeps_tame (h : Each (Acts tame) p) : Keeps p := keeps_within (within_of_each h)

theorem keeps_bind {f : α → M β} (hp : Keeps p) (hf : ∀ a, Keeps (f a)) : Keeps (p >>= f) := by
  refine fun w hw => wp_seq (wp_mono (hp w hw) fun r w₁ h₁ => ?_)
  cases r with
  | error e => exact h₁
  | ok a => exact wp_mono (hf a w₁ h₁.good) fun _ _ h₂ => h₁.trans h₂

/-- An audit operation commits its body or leaves the database as it was. -/
theorem wp_audit_next {P : Except Err α → World → World → Prop} (hw : Good w)
    (hp : wp p (fun r w' => Next w w' ∧ ∀ a, r = .ok a → P r w w') { w with op := {} })
    (hP : ∀ {r w' w''}, w''.db = w'.db → P r w w' → P r w w'') :
    wp (runAuditOperation p) (fun r w' => Next w w' ∧ ∀ a, r = .ok a → P r w w') w := by
  rw [wp_runAuditOperation]
  refine wp_mono hp fun r w₁ h₁ => ?_
  rcases closeAudit_cases w.db r w₁ with ⟨hc, -⟩ | ⟨e, hc⟩
  · rw [hc]
    refine ⟨h₁.1.trans (next_congr h₁.1.good (fault_db w₁) ?_), fun a ha => ?_⟩
    · exact Nat.le_of_eq (fault_entropy w₁).symm
    · exact hP (fault_db w₁) (h₁.2 a ha)
  · rw [hc]
    refine ⟨next_congr hw rfl ?_, fun a h => by cases h⟩
    simp only [fault_entropy]
    exact h₁.1.follows.entropy

theorem keeps_audit (hp : Keeps p) : Keeps (runAuditOperation p) := by
  intro w hw
  have h := wp_audit_next (P := fun _ _ _ => True) hw
    (wp_mono (hp { w with op := {} } ⟨hw.tidy, hw.fresh⟩) fun r w' h =>
      ⟨⟨h.good, h.follows.entropy, h.follows.token, h.follows.session⟩, fun _ _ => trivial⟩)
    fun _ _ => trivial
  exact wp_mono h fun _ _ h => h.1

theorem keeps_issueTokenPair : Keeps (issueTokenPair env ctx user ip ua none) :=
  fun _ hw => wp_mono (wp_issueTokenPair hw fun _ h => by cases h) fun _ _ h => h.1

theorem keeps_checkMFAOrIssueTokens {detail : String} :
    Keeps (checkMFAOrIssueTokensAudited env ctx user ip ua detail) := by
  refine keeps_bind (keeps_tame (each_refuse _ _)) fun _ =>
    keeps_bind (keeps_tame (each_wrap (each_totpFindByUserID tame_quiet))) fun device => ?_
  split
  · exact keeps_tame (each_bind (each_jwtIssue tame_quiet fun _ _ _ => trivial) fun _ =>
      each_bind (each_record tame_quiet) fun _ => each_ret _)
  · exact keeps_bind keeps_issueTokenPair fun _ =>
      keeps_tame (each_bind (each_record tame_quiet) fun _ => each_ret _)

theorem keeps_login {email password captcha : String} :
    Keeps (loginAudited env ctx email password captcha ip ua) := by
  refine keeps_bind (keeps_tame (each_loginLimits tame_quiet)) fun _ =>
    keeps_bind (keeps_tame (each_wrap (each_usersFindByEmail tame_quiet))) fun user => ?_
  rcases user with _ | user
  · exact keeps_tame (each_unknownUser tame_quiet)
  · exact keeps_bind (keeps_tame (each_loginGates tame_quiet)) fun _ =>
      keeps_bind (keeps_tame (each_comparePassword trivial)) fun _ =>
        keeps_bind (keeps_tame (each_refuseAfter
          (each_recordFailedLogin tame_quiet fun _ => tame_update _ _ _))) fun _ =>
          keeps_bind (keeps_tame (each_usersUpdate trivial (tame_update _ _ _))) fun _ =>
            keeps_bind (keeps_tame (each_storeDelete trivial trivial)) fun _ =>
              keeps_checkMFAOrIssueTokens

theorem keeps_completeMFALogin {t : Token} {code : String} :
    Keeps (completeMFALogin env ctx t code ip ua) := by
  refine keeps_bind (keeps_tame (each_jwtVerifyAs tame_quiet)) fun claims => keeps_audit ?_
  refine keeps_bind (keeps_tame (each_totpValidateAudited tame_quiet tame_factors)) fun _ =>
    keeps_bind (keeps_tame (each_usersFindByID tame_quiet)) fun user => ?_
  rcases user with _ | user
  · exact keeps_tame (each_fail _)
  · exact keeps_bind (keeps_tame (each_refuse _ _)) fun _ => keeps_bind keeps_issueTokenPair
      fun _ => keeps_tame (each_bind (each_record tame_quiet) fun _ =>
        each_bind (each_record tame_quiet) fun _ => each_ret _)

theorem keeps_refresh : Keeps (refreshAudited env ctx token ip ua) :=
  fun _ hw => wp_mono (wp_refreshAudited hw) fun _ _ h => h.1

theorem keeps_handleCallback {reply : GoogleReply} {state : Option Uuid} :
    Keeps (handleCallbackAudited env ctx reply state ip ua) :=
  keeps_bind (keeps_tame (each_consumeState tame_quiet fun _ => trivial)) fun _ =>
    keeps_bind (keeps_tame each_verifiedClaims) fun _ =>
      keeps_bind (keeps_tame (each_findOrCreateUser tame_quiet (fun _ => by simp [tame])
        fun _ => by simp [tame])) fun _ =>
        keeps_bind (keeps_tame (each_refuse _ _)) fun _ => keeps_checkMFAOrIssueTokens

theorem keeps_completeAuthentication {row : PasskeyCredential} {n : Nat} :
    Keeps (completeAuthentication env ctx user row n ip ua) := by
  unfold completeAuthentication
  split
  · exact keeps_tame (each_bind (each_rowIDByCredential tame_quiet) fun _ =>
      each_bind (each_ignore (each_passkeysRevokeByID tame_quiet tame_passkeys)) fun _ =>
        each_bind (each_record tame_quiet) fun _ => each_fail _)
  · refine keeps_bind (keeps_tame (each_rowIDByCredential tame_quiet)) fun _ =>
      keeps_bind (keeps_tame (each_getNow trivial)) fun _ =>
        keeps_bind (keeps_tame (each_ignore (each_repo trivial fun db s h => ?_))) fun _ =>
          keeps_bind (keeps_tame (each_record tame_quiet)) fun _ =>
            keeps_bind (keeps_tame (each_refuse _ _)) fun _ => keeps_bind keeps_issueTokenPair
              fun _ => keeps_tame (each_bind (each_record tame_quiet) fun _ => each_ret _)
    split at h
    · exact Option.some.inj h ▸ tame_passkeys.touch _ _ _
    · simp at h

theorem keeps_passkeyFinishAuthentication {a : Assertion} :
    Keeps (passkeyFinishAuthenticationAudited env ctx userID a ip ua) := by
  refine keeps_bind (keeps_tame (each_takeChallenge tame_quiet trivial)) fun _ =>
    keeps_bind (keeps_tame (each_loadUser tame_quiet)) fun r => ?_
  split
  split
  · exact keeps_tame (each_fail _)
  · exact keeps_completeAuthentication

/-- A call whose entry in the table has neither a new session nor a new token is tame. -/
theorem ran_tame {r : Request} (hs : r.may .newSession = false) (ht : r.may .newToken = false) :
    Ran tame w ((serve env ctx r).run w).2 := by
  refine (serve_reach env ctx r w).mono (fun _ _ => trivial) (fun st h => ⟨?_, ?_⟩)
    (fun _ _ => trivial) fun _ _ => trivial
  · rintro x rfl
    exact absurd h.1 (Bool.eq_false_iff.1 hs)
  · rintro t rfl
    exact absurd h.1 (Bool.eq_false_iff.1 ht)

/-- **Every public call** moves states in order on to states in order. -/
theorem serve_keeps (env : Env) (ctx : Ctx) (r : Request) : Keeps (serve env ctx r) := by
  cases r with
  | login => exact keeps_bind (keeps_audit keeps_login) fun _ => keeps_tame (each_ret _)
  | completeMFALogin => exact keeps_bind keeps_completeMFALogin fun _ => keeps_tame (each_ret _)
  | refresh => exact keeps_bind (keeps_audit keeps_refresh) fun _ => keeps_tame (each_ret _)
  | handleCallback =>
    exact keeps_bind (keeps_audit keeps_handleCallback) fun _ => keeps_tame (each_ret _)
  | passkeyFinishAuthentication =>
    exact keeps_bind (keeps_audit keeps_passkeyFinishAuthentication) fun _ =>
      keeps_tame (each_ret _)
  | _ =>
    exact fun w hw => next_settled hw (ran_tame rfl rfl).settled (ran_tame rfl rfl).entropy

/-! ## Every run -/

theorem settled_purge (db : DB) (before : Nat) : Settled db (db.purgeRefreshTokens before) := by
  refine ⟨fun t ht => ?_, fun s hs => ⟨s, hs, .refl s⟩, fun s hs => ⟨s, hs, .refl s⟩,
    fun u hu => ⟨u, hu, rfl, rfl⟩⟩
  simp only [DB.purgeRefreshTokens, Table.mem_delete] at ht
  exact ⟨t, ht.1.1, .refl t⟩

theorem respond_next (env : Env) (e : Event) (hw : Good w) : Next w (respond env e w).2 := by
  cases e with
  | call ctx r => exact serve_keeps env ctx r w hw
  | outside o =>
    cases o with
    | tick ms => exact next_congr hw rfl Nat.le.refl
    | loseKey k => exact next_congr hw rfl Nat.le.refl
    | purgeUsedTokens =>
      have h : Still w (respond env (.outside .purgeUsedTokens) w).2 :=
        ⟨rfl, rfl, rfl, Nat.le.refl, rfl⟩
      exact h.next hw
  | purgeRefreshTokens => exact next_settled hw (settled_purge w.db w.now) Nat.le.refl

/-- No session has been opened yet. -/
structure NoSessions (w : World) : Prop where
  sessions : w.db.sessions.rows = []
  refreshTokens : w.db.refreshTokens.rows = []

theorem NoSessions.good (h : NoSessions w) : Good w := by
  have hs : ∀ s, s ∉ w.db.sessions.rows := by simp [h.sessions]
  have ht : ∀ t, t ∉ w.db.refreshTokens.rows := by simp [h.refreshTokens]
  exact ⟨⟨fun s hm => absurd hm (hs s), fun t hm => absurd hm (ht t),
    fun t hm => absurd hm (ht t)⟩, fun t hm => absurd hm (ht t)⟩

/-- **Every state of every run is in order.** -/
theorem good_run (env : Env) (h : NoSessions w) (es : List Event) :
    Good (serviceRun env w es).state :=
  Run.exec_induct (I := fun r => Good r.state)
    (fun _ e hr => (respond_next env e hr).good) es h.good

end FinnAuth
