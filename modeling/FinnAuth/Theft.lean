import FinnAuth.Reachable

/-!
# The answer to a replayed refresh token

A refresh token is exchanged once. Presented again it is evidence of theft, and `Refresh` answers by
ending the family: session, tokens, denylist, audit row, alert. The evidence is the revoked row of
the consumed token, and the clean-up job deletes revoked rows.

Results:
* `wp_killFamily`: without failures the response ends the family and is admitted;
* **`theftAnswered_iff`**: in a state reached by any run, a token that was exchanged before is
  answered exactly when its row is still stored and the call is made in the session's tenant.
-/

namespace FinnAuth

open Lib Prog

variable {env : Env} {ctx : Ctx} {ip ua : String}

/-! ## Ending a family -/

variable {Q : Except Err Unit → World → Prop} {w : World} {s : Session} {userID : UserID}
  {tok : Uuid} {db : DB} {t rt : RefreshToken}

/-- Without failures, the session `sid` of the user is revoked and nothing but sessions changes. -/
theorem wp_sessionsRevokeByID {sid : Uuid} (hw : w.faults = [])
    (hQ : ∀ r db, db.users = w.db.users → db.refreshTokens = w.db.refreshTokens →
      db.auditLogs = w.db.auditLogs → Settled w.db db →
      (∀ s ∈ w.db.sessions.rows, s.id = sid → s.userID = userID → s.tenantID = ctx.tenant →
        ∃ s' ∈ db.sessions.rows, s'.id = sid ∧ s'.revoked = true) →
      Q r { w with db := db }) : wp (sessionsRevokeByID ctx sid userID) Q w := by
  rw [sessionsRevokeByID, wp_repo_calm hw]
  split
  · refine hQ _ _ rfl rfl rfl (settled_exec (tame_revokes.sessions _))
      fun s hs hid hu ht => ?_
    simp only [DB.execOpt, DB.exec, DB.revokeSessions, Table.mem_update]
    refine ⟨_, ⟨s, hs, rfl⟩, ?_⟩
    cases hr : s.revoked <;> simp [activeSessionOf, hid, hu, ht, hr]
  · rename_i hnone
    refine hQ _ _ rfl rfl rfl (Settled.refl _) fun s hs hid hu ht => ⟨s, hs, hid, ?_⟩
    by_contra hr
    refine hnone (List.any_eq_true.2 ⟨s, hs, ?_⟩)
    simpa [activeSessionOf, hid, hu, ht] using hr

/-- Revoking the tokens of a revoked session ends the family: they all belong to its user. -/
theorem ended_revokeTokens {u : User} (h : Tidy db) (hs : s ∈ db.sessions.rows)
    (hr : s.revoked = true) (hu : u ∈ db.users.rows) (hid : u.id = s.userID)
    (ht : u.tenantID = ctx.tenant) : (db.exec (.revokeTokens fun t =>
      t.sessionID = some s.id && db.owns ctx t.userID && !t.revoked)).Ended s.id := by
  refine ⟨⟨s, hs, rfl, hr⟩, fun t htm hsid => ?_⟩
  simp only [DB.exec, DB.revokeTokens, Table.mem_update] at htm
  obtain ⟨t₀, ht₀, rfl⟩ := htm
  have hsid₀ : t₀.sessionID = some s.id := by
    split at hsid <;> exact hsid
  obtain ⟨s', hs', hl, hsu⟩ := h.linked t₀ ht₀
  obtain rfl := db.sessions.eq_of_key_eq hs hs' (Option.some.inj (hsid₀.symm.trans hl))
  have howns : db.owns ctx t₀.userID = true := DB.owns_iff.2 ⟨u, hu, hid.trans hsu, ht⟩
  cases hrev : t₀.revoked <;> simp [hsid₀, howns, hrev]

theorem wp_denylistSession {sess : Option Session} (hQ : ∀ m, Q (.ok ()) { w with store := m }) :
    wp (denylistSession env sess) Q w := by
  cases sess with
  | none => exact hQ w.store
  | some s =>
    refine wp_seq ?_
    exact hQ _

theorem wp_notifySecurityAsync {event body : String} (hw : w.faults = [])
    (hQ : ∀ ms, Q (.ok ()) { w with outbox := ms }) :
    wp (notifySecurityAsync ctx userID event body) Q w := by
  refine wp_seq ?_
  rw [wp_attempt, usersFindByID, wp_query_calm hw, thenWp_ok]
  split
  · rw [wp_doIf, wp_ignore, wp_notify_calm hw]
    exact ⟨fun _ => hQ _, fun _ => hQ w.outbox⟩
  · exact hQ w.outbox

/-- The admitted reuse events. -/
def DB.reuseEvents (db : DB) : Nat := db.auditLogs.countP fun e => e.event = "token_reuse"

/-- Without failures, revoking the session and then its tokens ends the family. -/
theorem wp_endFamily_rows {β : Type} (hw : Good w) (hc : w.faults = [])
    (hs : s ∈ w.db.sessions.rows) (hu : s.userID = userID) (ht : ctx.tenant = s.tenantID) {f : M β}
    {Q : Except Err β → World → Prop}
    (hQ : ∀ db, db.auditLogs = w.db.auditLogs → db.Ended s.id → wp f Q { w with db := db }) :
    wp (ignore (sessionsRevokeByID ctx s.id userID) >>= fun _ =>
      ignore (tokensRevokeBySession ctx s.id) >>= fun _ => f) Q w := by
  refine wp_seq ?_
  rw [wp_ignore]
  refine wp_sessionsRevokeByID hc fun r db husers htokens haudit hset hrev => ?_
  refine wp_seq ?_
  rw [wp_ignore, tokensRevokeBySession, wp_repo_calm (by exact hc), thenWp_ok]
  obtain ⟨s', hs', hid', hr'⟩ := hrev s hs rfl hu ht.symm
  obtain ⟨s₁, hs₁, ho⟩ := hset.session s hs
  obtain rfl := db.sessions.eq_of_key_eq hs' hs₁ (hid'.trans ho.id.symm)
  obtain ⟨u, hum, huid, hut⟩ := hw.tidy.homed s hs
  have hended := ended_revokeTokens (hw.tidy.settled hset) hs' hr' (husers ▸ hum)
    (huid.trans ho.userID.symm) (hut.trans ht.symm)
  rw [hid'] at hended
  exact hQ _ haudit hended

/-- **The theft response without failures** ends the family, is on record, and the refusal that
follows may be committed. -/
theorem wp_killFamily {detail : String} (hw : Good w) (hc : w.Calm) (hop : w.op = {})
    (hs : s ∈ w.db.sessions.rows) (hu : s.userID = rt.userID) (ht : ctx.tenant = s.tenantID) :
    wp (killFamily env ctx rt s.id ip detail) (fun r w' => r = .ok () ∧ w'.Calm ∧
      w'.op.denialMayCommit = true ∧ w'.db.Ended s.id ∧
        w'.db.reuseEvents = w.db.reuseEvents + 1) w := by
  refine wp_seq ?_
  refine wp_seq ?_
  rw [wp_attempt, sessionsFindByID, wp_query_calm hc.faults, thenWp_ok, wp_ret, thenWp_ok]
  refine wp_endFamily_rows hw hc.faults hs hu ht fun db haudit hended => ?_
  refine wp_seq (wp_denylistSession fun m => ?_)
  rw [thenWp_ok]
  refine wp_seq ?_
  rw [wp_record_calm (by exact hc.faults), thenWp_ok]
  have hreuse : ∀ e : AuditLog, e.event = "token_reuse" →
      (({ db with auditLogs := db.auditLogs ++ [e] } : DB).reuseEvents) = w.db.reuseEvents + 1 := by
    intro e he
    simp [DB.reuseEvents, haudit, he]
  rw [wp_doIf]
  refine ⟨fun _ => wp_notifySecurityAsync (by exact hc.faults) fun ms => ?_, fun _ => ?_⟩
  all_goals
    refine ⟨rfl, ⟨hc.faults, hc.failure⟩, ?_, hended, hreuse _ rfl⟩
    simp [hop, Operation.denialMayCommit, auditEvent]

/-! ## A token that was exchanged before -/

/-- The tenants that see a token are the tenants of its session. -/
theorem owns_family (h : Tidy db) (ht : t ∈ db.refreshTokens.rows) (hs : s ∈ db.sessions.rows)
    (hsid : t.sessionID = some s.id) : db.owns ctx t.userID = true ↔ ctx.tenant = s.tenantID := by
  obtain ⟨s', hs', hsid', hsu⟩ := h.linked t ht
  obtain rfl := db.sessions.eq_of_key_eq hs hs' (Option.some.inj (hsid.symm.trans hsid'))
  obtain ⟨u, hu, huid, hut⟩ := h.homed s hs
  rw [DB.owns_iff, ← hut]
  constructor
  · rintro ⟨u', hu', huid', hut'⟩
    obtain rfl := db.users.eq_of_key_eq hu hu' (huid.trans (hsu.trans huid'.symm))
    exact hut'.symm
  · exact fun htn => ⟨u, hu, huid.trans hsu, htn.symm⟩

theorem tokenByHash_eq (h : Tidy db) (ht : t ∈ db.refreshTokens.rows)
    (ho : db.owns ctx t.userID = true) : db.tokenByHash ctx t.tokenHash = some t := by
  cases hf : db.tokenByHash ctx t.tokenHash with
  | none => simpa [ho] using Table.first?_eq_none_iff.1 hf t ht
  | some t' =>
    obtain ⟨hmem, hp⟩ := Table.mem_of_first? hf
    simp only [Bool.and_eq_true, decide_eq_true_eq] at hp
    rw [h.hash t' hmem t ht hp.1]

/-- A token without a visible row is refused, and nothing happens. -/
theorem wp_refresh_unknown (hc : w.faults = []) (hno : w.db.tokenByHash ctx ⟨tok⟩ = none) :
    wp (refresh env ctx tok ip ua) (fun r w' => r = .error .invalidToken ∧ w'.db = w.db) w := by
  rw [refresh, wp_runAuditOperation]
  refine wp_seq ?_
  rw [wp_wrap, tokensFindByHash, wp_query_calm (by exact hc)]
  simp only [Except.mapError, thenWp_ok, hno]
  have hcalm : ({ w with op := {} } : World).Calm := ⟨hc, rfl⟩
  rw [wp_throw, closeAudit_undone hcalm rfl]
  exact ⟨rfl, rfl⟩

/-- **A revoked row is answered**: the family ends, whatever state it was in. -/
theorem wp_refresh_revoked (hw : Good w) (hc : w.faults = []) (hrt : rt ∈ w.db.refreshTokens.rows)
    (htok : rt.tokenHash = ⟨tok⟩) (hr : rt.revoked = true) (hs : s ∈ w.db.sessions.rows)
    (hsid : rt.sessionID = some s.id) (ht : ctx.tenant = s.tenantID) :
    wp (refresh env ctx tok ip ua)
      (fun r w' => r = .error .invalidToken ∧ w'.db.Ended s.id) w := by
  have hfind : w.db.tokenByHash ctx ⟨tok⟩ = some rt :=
    htok ▸ tokenByHash_eq hw.tidy hrt ((owns_family hw.tidy hrt hs hsid).2 ht)
  obtain ⟨s', hs', hsid', hsu⟩ := hw.tidy.linked rt hrt
  obtain rfl := w.db.sessions.eq_of_key_eq hs hs' (Option.some.inj (hsid.symm.trans hsid'))
  rw [refresh, wp_runAuditOperation]
  refine wp_seq ?_
  rw [wp_wrap, tokensFindByHash, wp_query_calm (by exact hc)]
  simp only [Except.mapError, thenWp_ok, hfind]
  refine wp_seq ((wp_refuseAfter _ _ _ _ _).2 ⟨fun _ => wp_seq ?_, fun h => ?_⟩)
  · unfold handleTokenReuse
    rw [hsid]
    refine wp_mono (wp_killFamily ⟨hw.tidy, hw.fresh⟩ ⟨hc, rfl⟩ rfl hs hsu ht)
      fun r w₁ h₁ => ?_
    obtain ⟨hok, hcalm, hop, hend, -⟩ := h₁
    subst hok
    rw [thenWp_ok, wp_fail, thenWp_error, closeAudit_denied hcalm (by rfl) hop]
    exact ⟨rfl, hend⟩
  · rw [hr] at h
    cases h

/-- In the run, `tok` was exchanged for a pair; its row belonged to the session `sid`. -/
def Consumed (run : ServiceRun) (tok sid : Uuid) : Prop :=
  ∃ x ∈ run.hist, (∃ ctx ip ua, x.input = .call ctx (.refresh tok ip ua)) ∧
    ReturnedPair x.reply ∧
    ∃ t ∈ x.before.db.refreshTokens.rows, t.tokenHash = ⟨tok⟩ ∧ t.sessionID = some sid

/-- Whatever is stored under the value `tok` is a revoked row of the session `sid`. -/
structure Spent (w : World) (tok sid : Uuid) : Prop where
  old : tok < w.entropy
  row : ∀ t ∈ w.db.refreshTokens.rows, t.tokenHash = ⟨tok⟩ →
    t.revoked = true ∧ t.sessionID = some sid

theorem Spent.follows {w w' : World} {tok sid : Uuid} (h : Spent w tok sid) (hf : Follows w w') :
    Spent w' tok sid := by
  refine ⟨Nat.lt_of_lt_of_le h.old hf.entropy, fun t' ht' hh => ?_⟩
  obtain ⟨t, ht, ho⟩ := hf.of_hash h.old ht' hh
  obtain ⟨hr, hsid⟩ := h.row t ht (ho.tokenHash.symm.trans hh)
  exact ⟨ho.revoked hr, ho.sessionID.trans hsid⟩

/-- A returned pair is an exchange, in the committed state. -/
theorem refresh_exchange (hw : Good w) {pair : TokenPair}
    (h : (respond env (.call ctx (.refresh tok ip ua)) w).1 = .ok (some pair)) :
    Exchange tok pair w (respond env (.call ctx (.refresh tok ip ua)) w).2 := by
  have hwp : wp (serve env ctx (.refresh tok ip ua))
      (fun r w' => ∀ pair, r = .ok (some pair) → Exchange tok pair w w') w := by
    have hbody := wp_audit_next (P := fun r w w' => ∀ p, r = .ok p → Exchange tok p w w')
      (p := refreshAudited env ctx tok ip ua) hw
      (wp_mono (wp_refreshAudited ⟨hw.tidy, hw.fresh⟩) fun r w' h =>
        ⟨⟨h.1.good, h.1.follows.entropy, h.1.follows.token, h.1.follows.session⟩,
          fun _ _ p hp => ⟨(h.2 p hp).spent, (h.2 p hp).row⟩⟩)
      fun {r w' w''} hdb hP p hp => ⟨hdb ▸ (hP p hp).spent, hdb ▸ (hP p hp).row⟩
    refine wp_seq (wp_mono hbody fun r w' h => ?_)
    cases r with
    | error e => exact fun _ h => by cases h
    | ok p => exact fun p' hp => by cases hp; exact h.2 p rfl p rfl
  exact hwp pair h

/-- Along every run, exchanged tokens are spent. -/
theorem spent_run (env : Env) (h : NoSessions w) (es : List Event) (tok sid : Uuid) :
    Good (serviceRun env w es).state ∧
      (Consumed (serviceRun env w es) tok sid → Spent (serviceRun env w es).state tok sid) := by
  refine Run.exec_induct
    (I := fun r : ServiceRun => Good r.state ∧ (Consumed r tok sid → Spent r.state tok sid))
    (fun r e ⟨hgood, hr⟩ => ?_) es ⟨h.good, fun ⟨x, hx, _⟩ => by cases hx⟩
  have hnext := respond_next env e hgood
  refine ⟨hnext.good, ?_⟩
  rintro ⟨x, hx, ⟨ctx, ip, ua, hin⟩, ⟨pair, hre⟩, t, ht, hh, hsid⟩
  rw [Run.step_hist, List.mem_cons] at hx
  rcases hx with rfl | hx
  · -- the exchange is the last call
    subst hin
    have hex := refresh_exchange hgood hre
    have hold : tok < r.state.entropy := by simpa [hh] using hgood.fresh t ht
    refine ⟨Nat.lt_of_lt_of_le hold hnext.follows.entropy, fun t' ht' hh' => ?_⟩
    obtain ⟨t₀, ht₀, ho⟩ := hnext.follows.of_hash hold ht' hh'
    obtain rfl := hgood.tidy.hash t₀ ht₀ t ht (by rw [hh, ← ho.tokenHash, hh'])
    exact ⟨hex.spent t' ht' hh', ho.sessionID.trans hsid⟩
  · exact (hr ⟨x, hx, ⟨ctx, ip, ua, hin⟩, ⟨pair, hre⟩, t, ht, hh, hsid⟩).follows hnext.follows

/-! ## The answer -/

/-- `Refresh` refuses `tok`, and afterwards the family of the session `sid` has ended. -/
def TheftAnswered (env : Env) (ctx : Ctx) (tok sid : Uuid) (ip ua : String) (w : World) : Prop :=
  ((refresh env ctx tok ip ua).run w).1 = .error .invalidToken ∧
    ((refresh env ctx tok ip ua).run w).2.db.Ended sid

/-- **A replayed token is answered exactly when its row is still stored**, and visible to the
tenant the call is made in. The run is any sequence of calls, clean-ups and outside changes before
the replay; the replay itself meets no failure. -/
theorem theftAnswered_iff (env : Env) {w : World} (h : NoSessions w) (es : List Event)
    {tok : Uuid} {s : Session} (hs : s ∈ (serviceRun env w es).state.db.sessions.rows)
    (hr : s.revoked = false) (hcon : Consumed (serviceRun env w es) tok s.id)
    (hc : (serviceRun env w es).state.faults = []) (ctx : Ctx) (ip ua : String) :
    TheftAnswered env ctx tok s.id ip ua (serviceRun env w es).state ↔
      (∃ t ∈ (serviceRun env w es).state.db.refreshTokens.rows, t.tokenHash = ⟨tok⟩) ∧
        ctx.tenant = s.tenantID := by
  obtain ⟨hgood, hspent⟩ := spent_run env h es tok s.id
  have hspent := hspent hcon
  constructor
  · rintro ⟨-, hend⟩
    by_contra hno
    -- no visible row: the call changes nothing, and the session is still unrevoked
    have hnone : (serviceRun env w es).state.db.tokenByHash ctx ⟨tok⟩ = none := by
      by_contra hsome
      obtain ⟨t, ht⟩ := Option.ne_none_iff_exists'.1 hsome
      obtain ⟨hmem, hp⟩ := Table.mem_of_first? ht
      simp only [Bool.and_eq_true, decide_eq_true_eq] at hp
      exact hno ⟨⟨t, hmem, hp.1⟩,
        (owns_family hgood.tidy hmem hs (hspent.row t hmem hp.1).2).1 hp.2⟩
    have hsame : wp (refresh env ctx tok ip ua) _ _ := wp_refresh_unknown hc hnone
    rw [hsame.2] at hend
    exact not_ended_of_unrevoked hs hr hend
  · rintro ⟨⟨t, ht, hh⟩, htn⟩
    obtain ⟨htr, hsid⟩ := hspent.row t ht hh
    exact wp_refresh_revoked hgood hc ht hh htr hs hsid htn

/-! ## A login, a rotation, and what follows -/

instance (env : Env) (ctx : Ctx) (tok sid : Uuid) (ip ua : String) (w : World) :
    Decidable (TheftAnswered env ctx tok sid ip ua w) := by
  unfold TheftAnswered; infer_instance

/-- `jose` logs in and exchanges the refresh token 102 of the session 100; then `es`. -/
def rotatedRun (es : List Event) : ServiceRun :=
  serviceRun (.plain .sample) .sample
    (.call .sample (.login "jose@x.io" "password1" "" "ip" "ua") ::
      .call .sample (.refresh 102 "ip" "ua") :: es)

theorem rotatedRun_consumed (es : List Event) : Consumed (rotatedRun es) 102 100 := by
  refine ⟨_, Run.mem_exec_hist es List.mem_cons_self, ⟨.sample, "ip", "ua", rfl⟩, ?_⟩
  change ReturnedPair (respond (.plain .sample) (.call .sample (.refresh 102 "ip" "ua"))
      (respond (.plain .sample)
        (.call .sample (.login "jose@x.io" "password1" "" "ip" "ua")) .sample).2).1 ∧
    ∃ t ∈ (respond (.plain .sample) (.call .sample
        (.login "jose@x.io" "password1" "" "ip" "ua")) .sample).2.db.refreshTokens.rows,
      t.tokenHash = ⟨102⟩ ∧ t.sessionID = some 100
  decide +kernel

theorem noSessions_sample : NoSessions .sample := ⟨rfl, rfl⟩

/-- Replayed at once, the token is answered. -/
theorem theftAnswered_rotatedRun :
    TheftAnswered (.plain .sample) .sample 102 100 "ip" "ua" (rotatedRun []).state := by
  obtain ⟨s, hs, hid, hr, ht⟩ : ∃ s ∈ (rotatedRun []).state.db.sessions.rows, s.id = 100 ∧
      s.revoked = false ∧ s.tenantID = defaultTenantID := by decide +kernel
  have hrow : ∃ t ∈ (rotatedRun []).state.db.refreshTokens.rows, t.tokenHash = ⟨102⟩ := by
    decide +kernel
  have hc : (rotatedRun []).state.faults = [] := by decide +kernel
  have hcon := rotatedRun_consumed []
  rw [← hid] at hcon ⊢
  exact (theftAnswered_iff (.plain .sample) noSessions_sample _ hs hr hcon hc .sample "ip" "ua").2
    ⟨hrow, ht.symm⟩

/-- **After the clean-up job the replay goes unanswered**: the row that would have shown it is gone,
while the session is neither revoked nor expired. -/
theorem theft_unanswered_after_purge :
    Consumed (rotatedRun [.purgeRefreshTokens]) 102 100 ∧
      (rotatedRun [.purgeRefreshTokens]).state.faults = [] ∧
      (∃ s ∈ (rotatedRun [.purgeRefreshTokens]).state.db.sessions.rows, s.id = 100 ∧
        s.revoked = false ∧ (rotatedRun [.purgeRefreshTokens]).state.now ≤ s.expiresAt) ∧
      ¬ TheftAnswered (.plain .sample) .sample 102 100 "ip" "ua"
        (rotatedRun [.purgeRefreshTokens]).state := by
  exact ⟨rotatedRun_consumed _, by decide +kernel⟩

end FinnAuth
