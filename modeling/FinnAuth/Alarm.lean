import FinnAuth.Theft

/-!
# When the theft response is run

A session keeps the expiry it was opened with, while every rotated refresh token gets a fresh one.
A token that outlives its session passes the checks on the token row and then meets the session
check, which makes no difference between a revoked session and one whose time is over: both are
answered as theft.

Results:
* `wp_refresh_idle`: without a revocation and in time, `Refresh` raises no alarm, whatever fails;
* `wp_refresh_late`: past the end of the session it does;
* **`alarm_sound`**: a client that presents its newest token and is left alone meets the alarm only
  when it is late, and in every reachable state an alarm means an earlier revocation or lateness.
-/

namespace FinnAuth

open Lib Prog

variable {env : Env} {ctx : Ctx} {ip ua : String}

/-! ## The alarm -/

variable {w w' : World} {tok : Uuid} {rt : RefreshToken} {α : Type}
  {Q : Except Err α → World → Prop}

/-- The mail of `reuseAlert`. -/
def Mail.isReuseAlert : Mail → Bool
  | .securityAlert _ event _ => event = "Suspicious sign-in activity detected"
  | _ => false

/-- The alerts handed to the notifier. -/
def World.reuseAlerts (w : World) : Nat := w.outbox.countP Mail.isReuseAlert

/-- Between the two states a reuse was put on record, or its alert went out. -/
def Alarm (w w' : World) : Prop :=
  w.db.reuseEvents < w'.db.reuseEvents ∨ w.reuseAlerts < w'.reuseAlerts

instance (w w' : World) : Decidable (Alarm w w') := by unfold Alarm; infer_instance

/-- No reuse on record and no alert. -/
structure Unalarmed (w w' : World) : Prop where
  events : w'.db.reuseEvents = w.db.reuseEvents
  alerts : w'.reuseAlerts = w.reuseAlerts

theorem Unalarmed.not_alarm (h : Unalarmed w w') : ¬ Alarm w w' := by
  rintro (ha | ha)
  · rw [h.events] at ha
    exact Nat.lt_irrefl _ ha
  · rw [h.alerts] at ha
    exact Nat.lt_irrefl _ ha

theorem Unalarmed.trans {w w' w'' : World} (h : Unalarmed w w') (h' : Unalarmed w' w'') :
    Unalarmed w w'' :=
  ⟨h'.events.trans h.events, h'.alerts.trans h.alerts⟩

/-! ## Stretches that raise none -/

/-- No audit rows and no alert of a theft response. -/
def unalarming : Footprint where
  label _ := True
  stmt s := (∀ e, s ≠ .insertAudit e) ∧ ∀ ctx id, s ≠ .anonymizeAudit ctx id
  mail m := m.isReuseAlert = false
  key _ := True

theorem unalarming_basic : unalarming.Basic :=
  ⟨trivial, fun _ => trivial, fun _ => trivial, fun _ _ => trivial⟩

theorem unalarming_consumes : unalarming.Consumes :=
  ⟨fun _ => trivial, fun _ => by simp [unalarming]⟩

theorem unalarming_issues (user : User) : unalarming.Issues user where
  sign _ _ _ _ := trivial
  sessionCreate _ := trivial
  tokenCreate _ _ := trivial
  touchSession _ _ _ _ _ _ _ := by simp [unalarming]
  insertSession _ _ := by simp [unalarming]
  insertToken _ _ := by simp [unalarming]
  loginAlert _ _ _ := rfl

theorem auditLogs_exec {db : DB} {s : Stmt} (h : unalarming.stmt s) :
    (db.exec s).auditLogs = db.auditLogs := by
  cases s with
  | insertAudit e => exact absurd rfl (h.1 e)
  | anonymizeAudit ctx id => exact absurd rfl (h.2 ctx id)
  | _ => rfl

theorem Ran.unalarmed (h : Ran unalarming w w') : Unalarmed w w' := by
  have hlogs : w'.db.auditLogs = w.db.auditLogs :=
    h.same (f := DB.auditLogs) fun _ _ hs => auditLogs_exec hs
  obtain ⟨ms, hms, hm⟩ := h.outbox
  have hzero : ms.countP Mail.isReuseAlert = 0 :=
    List.countP_eq_zero.2 fun m hmem => by
      rw [show m.isReuseAlert = false from hm m hmem]
      decide
  exact ⟨by rw [DB.reuseEvents, hlogs]; rfl,
    by rw [World.reuseAlerts, hms, List.countP_append, hzero]; rfl⟩

theorem wp_unalarming {p : M α} (hp : Each (Acts unalarming) p)
    (hQ : ∀ r w', Unalarmed w w' → w'.op = w.op → Q r w') : wp p Q w :=
  hQ _ _ (within_of_each hp w).unalarmed
    (op_of_each hp (fun e h => h.1 e rfl) w)

/-- An event of another kind. -/
theorem wp_record_unalarmed {e : AuditLog} (he : e.event ≠ "token_reuse")
    {Q : Except Err Unit → World → Prop} (hQ : ∀ w', Unalarmed w w' → Q (.ok ()) w') :
    wp (record ctx e) Q w := by
  rw [record, wp_call]
  refine hQ _ ?_
  have hdb := fault_db w
  have hout := fault_outbox w
  rcases hw : w.fault with ⟨failed, w₁⟩
  rw [hw] at hdb hout
  simp only at hdb hout ⊢
  split
  · exact ⟨by rw [hdb], by rw [World.reuseAlerts, hout]; rfl⟩
  · refine ⟨?_, by rw [World.reuseAlerts, hout]; rfl⟩
    simp [DB.exec, DB.reuseEvents, hdb, he]

/-- Only the failures ahead may have changed. -/
structure Idle (w w' : World) : Prop where
  db : w'.db = w.db
  now : w'.now = w.now
  outbox : w'.outbox = w.outbox
  op : w'.op = w.op

theorem Idle.refl (w : World) : Idle w w := ⟨rfl, rfl, rfl, rfl⟩

theorem Idle.trans {w w' w'' : World} (h : Idle w w') (h' : Idle w' w'') : Idle w w'' :=
  ⟨h'.db.trans h.db, h'.now.trans h.now, h'.outbox.trans h.outbox, h'.op.trans h.op⟩

theorem Idle.unalarmed (h : Idle w w') : Unalarmed w w' :=
  ⟨by rw [h.db], by rw [World.reuseAlerts, h.outbox]; rfl⟩

theorem Executes.idle (h : Executes none w w') : Idle w w' :=
  ⟨h.db, h.now, h.outbox, h.op⟩

theorem wp_query_idle {l : Call} {f : DB → α} (herr : ∀ w', Idle w w' → Q (.error .db) w')
    (hok : ∀ w', Idle w w' → Q (.ok (f w.db)) w') : wp (query l f) Q w := by
  refine wp_executes fun r o w' hro hex => ?_
  rcases hro with ⟨rfl, rfl⟩ | hro
  · exact herr w' hex.idle
  · cases hro
    exact hok w' hex.idle

/-! ## Causes -/

/-- The presented token, or its session, was revoked before. -/
def RevokedBefore (ctx : Ctx) (tok : Uuid) (w : World) : Prop :=
  ∃ rt ∈ w.db.tokenByHash ctx ⟨tok⟩, rt.revoked = true ∨
    ∃ s ∈ w.db.sessions.rows, rt.sessionID = some s.id ∧ s.revoked = true

/-- The token is presented in its own time but past the end of its session, neither of them
revoked, for a user who may sign in. -/
def Late (ctx : Ctx) (tok : Uuid) (w : World) : Prop :=
  ∃ rt ∈ w.db.tokenByHash ctx ⟨tok⟩, rt.revoked = false ∧ w.now ≤ rt.expiresAt ∧
    (∃ u ∈ w.db.userByID ctx rt.userID, u.isActive = true ∧ u.adminSuspended = false) ∧
    ∃ s ∈ w.db.sessions.rows, rt.sessionID = some s.id ∧ s.revoked = false ∧ s.expiresAt < w.now

instance (ctx : Ctx) (tok : Uuid) (w : World) : Decidable (RevokedBefore ctx tok w) := by
  unfold RevokedBefore; infer_instance

instance (ctx : Ctx) (tok : Uuid) (w : World) : Decidable (Late ctx tok w) := by
  unfold Late; infer_instance

/-- A family whose session is in time and unrevoked passes its check, or the lookup fails. -/
theorem wp_checkFamily_idle
    (h : ∀ s ∈ w.db.sessions.rows, rt.sessionID = some s.id →
      s.revoked = false ∧ w.now ≤ s.expiresAt) :
    wp (checkFamily env ctx rt ip) (fun _ w' => Idle w w') w := by
  unfold checkFamily
  split
  · exact Idle.refl w
  rename_i sid hsid
  refine wp_seq ?_
  rw [wp_wrap]
  refine wp_query_idle (fun w₁ h₁ => h₁) fun w₁ h₁ => ?_
  simp only [Except.mapError, thenWp_ok]
  cases hs : w.db.sessionByID ctx sid with
  | none => exact h₁
  | some sess =>
    obtain ⟨hmem, hp⟩ := Table.mem_of_first? hs
    simp only [Bool.and_eq_true, decide_eq_true_eq] at hp
    obtain ⟨hr, hexp⟩ := h sess hmem (hp.1.symm ▸ hsid)
    refine wp_seq ?_
    rw [wp_getNow, thenWp_ok, wp_refuseAfter]
    refine ⟨fun hc => ?_, fun _ => h₁⟩
    rw [h₁.now] at hc
    simp [hr, Nat.not_lt.2 hexp] at hc

/-- The row that was just read as active wins its compare-and-set, or the call fails. -/
theorem wp_consumeToken_unalarmed (hrt : rt ∈ w.db.refreshTokens.rows)
    (ho : w.db.owns ctx rt.userID = true) (hr : rt.revoked = false) :
    wp (consumeToken env ctx rt ip) (fun _ w' => Unalarmed w w' ∧ w'.op = w.op) w := by
  refine wp_seq ?_
  rw [wp_attempt]
  refine wp_executes fun r o w₁ hro hex => ?_
  have halerts : w₁.reuseAlerts = w.reuseAlerts := by rw [World.reuseAlerts, hex.outbox]; rfl
  rcases hro with ⟨rfl, rfl⟩ | hro
  · exact ⟨hex.idle.unalarmed, hex.op⟩
  split at hro
  · cases hro
    have hdb : w₁.db = w.db.exec (.casToken rt.id) := hex.db
    have hevents : w₁.db.reuseEvents = w.db.reuseEvents := by rw [hdb]; rfl
    exact ⟨⟨hevents, halerts⟩, hex.op⟩
  · rename_i hnone
    refine absurd (List.any_eq_true.2 ⟨rt, hrt, ?_⟩) hnone
    simp [ho, hr]

theorem wp_rotate_unalarmed {user : User} (hrt : rt ∈ w.db.refreshTokens.rows)
    (ho : w.db.owns ctx rt.userID = true) (hr : rt.revoked = false)
    (hs : ∀ s ∈ w.db.sessions.rows, rt.sessionID = some s.id →
      s.revoked = false ∧ w.now ≤ s.expiresAt) :
    wp (rotate env ctx rt user ip ua) (fun r w' => Unalarmed w w' ∧
      ∀ e, r = .error e → w'.op = w.op) w := by
  refine wp_seq (wp_mono (wp_checkFamily_idle hs) fun r w₁ h₁ => ?_)
  cases r with
  | error e => exact ⟨h₁.unalarmed, fun _ _ => h₁.op⟩
  | ok _ =>
  rw [thenWp_ok]
  refine wp_seq (wp_mono (wp_consumeToken_unalarmed (h₁.db ▸ hrt) (h₁.db ▸ ho) hr)
    fun r w₂ h₂ => ?_)
  have hun₂ := h₁.unalarmed.trans h₂.1
  have hop₂ := h₂.2.trans h₁.op
  cases r with
  | error e => exact ⟨hun₂, fun _ _ => hop₂⟩
  | ok _ =>
  rw [thenWp_ok]
  refine wp_seq (wp_unalarming (each_issueTokenPair unalarming_basic (unalarming_issues user))
    fun r w₃ h₃ hop => ?_)
  have hun₃ := hun₂.trans h₃
  cases r with
  | error e => exact ⟨hun₃, fun _ _ => hop.trans hop₂⟩
  | ok pair =>
    rw [thenWp_ok]
    refine wp_seq (wp_record_unalarmed (by simp [auditEvent]) fun w₄ h₄ => ?_)
    exact ⟨hun₃.trans h₄, fun e h => by cases h⟩

/-- **Without a revocation and in time, `Refresh` raises no alarm**, and nothing is on record when
it fails. -/
theorem wp_refreshAudited_unalarmed (hrev : ¬ RevokedBefore ctx tok w) (hlate : ¬ Late ctx tok w) :
    wp (refreshAudited env ctx tok ip ua) (fun r w' => Unalarmed w w' ∧
      ∀ e, r = .error e → w'.op = w.op) w := by
  have hidle : ∀ (e : Err) (w' : World), Idle w w' → Unalarmed w w' ∧
      ∀ e', (.error e : Except Err TokenPair) = .error e' → w'.op = w.op :=
    fun _ _ h => ⟨h.unalarmed, fun _ _ => h.op⟩
  refine wp_seq ?_
  rw [wp_wrap]
  refine wp_query_idle (fun w₁ h₁ => hidle _ w₁ h₁) fun w₁ h₁ => ?_
  simp only [Except.mapError, thenWp_ok]
  cases hrt : w.db.tokenByHash ctx ⟨tok⟩ with
  | none => exact hidle _ w₁ h₁
  | some rt =>
  obtain ⟨hmem, hp⟩ := Table.mem_of_first? hrt
  simp only [Bool.and_eq_true, decide_eq_true_eq] at hp
  have hactive : rt.revoked = false := by
    by_contra h
    exact hrev ⟨rt, hrt, .inl (by simpa using h)⟩
  refine wp_seq ((wp_refuseAfter _ _ _ _ _).2 ⟨fun h => ?_, fun _ => ?_⟩)
  · rw [hactive] at h
    cases h
  rw [thenWp_ok]
  refine wp_seq ?_
  rw [wp_getNow, thenWp_ok]
  refine wp_seq ((wp_refuseAfter _ _ _ _ _).2 ⟨fun _ => ?_, fun hexp => ?_⟩)
  · -- the expired row is revoked without a record
    refine wp_seq (wp_unalarming (each_ignore (each_tokensRevoke unalarming_consumes))
      fun r w₂ h₂ hop => ?_)
    have hend : Unalarmed w w₂ ∧ w₂.op = w.op := ⟨h₁.unalarmed.trans h₂, hop.trans h₁.op⟩
    cases r <;> exact ⟨hend.1, fun _ _ => hend.2⟩
  rw [thenWp_ok]
  refine wp_seq (wp_query_idle (fun w₂ h₂ => hidle _ w₂ (h₁.trans h₂)) fun w₂ h₂ => ?_)
  have h₂ := h₁.trans h₂
  rw [thenWp_ok]
  cases huser : w₁.db.userByID ctx rt.userID with
  | none => exact hidle _ w₂ h₂
  | some user =>
  refine wp_seq ((wp_refuse _ _ _ _).2 ⟨fun _ => hidle _ w₂ h₂, fun hin => ?_⟩)
  rw [thenWp_ok]
  rw [h₁.db] at huser
  rw [h₁.now] at hexp
  simp only [Bool.or_eq_false_iff, Bool.not_eq_false'] at hin
  have hsession : ∀ s ∈ w.db.sessions.rows, rt.sessionID = some s.id →
      s.revoked = false ∧ w.now ≤ s.expiresAt := by
    intro s hs hsid
    have hr : s.revoked = false := by
      by_contra h
      exact hrev ⟨rt, hrt, .inr ⟨s, hs, hsid, by simpa using h⟩⟩
    refine ⟨hr, Nat.not_lt.1 fun hlt => hlate ⟨rt, hrt, hactive, ?_, ⟨user, huser, hin⟩,
      s, hs, hsid, hr, hlt⟩⟩
    simpa using hexp
  refine wp_mono (wp_rotate_unalarmed (h₂.db ▸ hmem) (h₂.db ▸ hp.2) hactive ?_) fun r w₃ h₃ => ?_
  · rw [h₂.db, h₂.now]
    exact hsession
  · exact ⟨h₂.unalarmed.trans h₃.1, fun e he => (h₃.2 e he).trans h₂.op⟩

/-- A failed operation without evidence leaves the database as it was. -/
theorem closeAudit_error_db {before : DB} {e : Err} (h : w.op.denialMayCommit = false) :
    (closeAudit before (.error e : Except Err α) w).2.db = before := by
  have hop : w.fault.2.op = w.op := by unfold World.fault; split <;> rfl
  unfold closeAudit
  rcases hw : w.fault with ⟨failed, w₁⟩
  rw [hw] at hop
  simp only at hop ⊢
  split
  · rfl
  · rw [hop, h, Bool.and_false]
    rfl

/-- The entry point: no alarm, and a failed call leaves the database as it was. -/
theorem wp_refresh_unalarmed (hrev : ¬ RevokedBefore ctx tok w) (hlate : ¬ Late ctx tok w) :
    wp (refresh env ctx tok ip ua) (fun r w' => Unalarmed w w' ∧
      ∀ e, r = .error e → w'.db = w.db) w := by
  rw [refresh, wp_runAuditOperation]
  refine wp_mono (wp_refreshAudited_unalarmed (by exact hrev) (by exact hlate))
    fun r w₁ h₁ => ?_
  obtain ⟨hun, hop⟩ := h₁
  have halerts : w₁.fault.2.reuseAlerts = w.reuseAlerts := by
    rw [World.reuseAlerts, fault_outbox]
    exact hun.alerts
  rcases closeAudit_cases w.db r w₁ with ⟨hc, -⟩ | ⟨e, hc⟩
  · rw [hc]
    refine ⟨⟨by rw [fault_db]; exact hun.events, halerts⟩, fun e he => ?_⟩
    subst he
    have hdb : (closeAudit w.db (.error e : Except Err TokenPair) w₁).2.db = w.db :=
      closeAudit_error_db (by rw [hop e rfl]; rfl)
    rwa [hc] at hdb
  · rw [hc]
    exact ⟨⟨rfl, halerts⟩, fun _ _ => rfl⟩

/-- **Past the end of the session the alarm is raised**, and the family ends. -/
theorem wp_refresh_late (hw : Good w) (hc : w.faults = []) (hlate : Late ctx tok w) :
    wp (refresh env ctx tok ip ua) (fun _ w' => Alarm w w' ∧
      ∀ rt ∈ w.db.tokenByHash ctx ⟨tok⟩, ∀ sid, rt.sessionID = some sid → w'.db.Ended sid) w := by
  obtain ⟨rt, hrt, hactive, htime, ⟨user, huser, hin⟩, s, hs, hsid, hr, hexp⟩ := hlate
  obtain ⟨hmem, hp⟩ := Table.mem_of_first? hrt
  simp only [Bool.and_eq_true, decide_eq_true_eq] at hp
  obtain ⟨s', hs', hsid', hsu⟩ := hw.tidy.linked rt hmem
  obtain rfl := w.db.sessions.eq_of_key_eq hs hs' (Option.some.inj (hsid.symm.trans hsid'))
  have ht : ctx.tenant = s.tenantID := (owns_family hw.tidy hmem hs hsid).1 hp.2
  have hfind : w.db.sessionByID ctx s.id = some s := by
    cases hf : w.db.sessionByID ctx s.id with
    | none => simpa [ht] using Table.first?_eq_none_iff.1 hf s hs
    | some x =>
      obtain ⟨hx, hxp⟩ := Table.mem_of_first? hf
      simp only [Bool.and_eq_true, decide_eq_true_eq] at hxp
      rw [w.db.sessions.eq_of_key_eq hx hs hxp.1]
  rw [refresh, wp_runAuditOperation]
  refine wp_seq ?_
  rw [wp_wrap, tokensFindByHash, wp_query_calm (by exact hc)]
  simp only [Except.mapError, thenWp_ok, Option.mem_def.1 hrt]
  refine wp_seq ((wp_refuseAfter _ _ _ _ _).2 ⟨fun h => ?_, fun _ => ?_⟩)
  · rw [hactive] at h
    cases h
  rw [thenWp_ok]
  refine wp_seq ?_
  rw [wp_getNow, thenWp_ok]
  refine wp_seq ((wp_refuseAfter _ _ _ _ _).2 ⟨fun h => ?_, fun _ => ?_⟩)
  · exact absurd htime (Nat.not_le.2 (by simpa using h))
  rw [thenWp_ok]
  refine wp_seq ?_
  rw [usersFindByID, wp_query_calm (by exact hc), thenWp_ok]
  simp only [Option.mem_def.1 huser]
  refine wp_seq ((wp_refuse _ _ _ _).2 ⟨fun h => ?_, fun _ => ?_⟩)
  · simp [hin.1, hin.2] at h
  rw [thenWp_ok]
  refine wp_seq ?_
  unfold checkFamily
  rw [hsid]
  refine wp_seq ?_
  rw [wp_wrap, sessionsFindByID, wp_query_calm (by exact hc)]
  simp only [Except.mapError, thenWp_ok, hfind]
  refine wp_seq ?_
  rw [wp_getNow, thenWp_ok]
  refine (wp_refuseAfter _ _ _ _ _).2 ⟨fun _ => wp_seq ?_, fun h => ?_⟩
  · unfold handleTokenReuse
    rw [hsid]
    refine wp_mono (wp_killFamily ⟨hw.tidy, hw.fresh⟩ ⟨hc, rfl⟩ rfl hs hsu ht)
      fun r w₁ h₁ => ?_
    obtain ⟨hok, hcalm, hop, hend, hevents⟩ := h₁
    subst hok
    rw [thenWp_ok, wp_fail, thenWp_error, closeAudit_denied hcalm (by rfl) hop]
    refine ⟨.inl (by rw [hevents]; exact Nat.lt_succ_self _), fun rt' hrt' sid hsid' => ?_⟩
    obtain rfl : rt = rt' := Option.some.inj hrt'
    rw [hsid] at hsid'
    cases hsid'
    exact hend
  · simp [hr, hexp] at h

/-! ## A client -/

/-- The service together with the newest refresh token of one client. -/
structure Client where
  world : World
  newest : Uuid

/-- The client presents its newest token, or anything else happens. -/
inductive ClientStep : Type where
  | present (ip ua : String)
  | other (e : Event)

/-- The token the client keeps after a reply. -/
def newestAfter (r : Reply) (tok : Uuid) : Uuid :=
  match r with
  | .ok (some pair) => pair.refreshToken
  | _ => tok

def clientStep (env : Env) (ctx : Ctx) : ClientStep → Client → Reply × Client
  | .present ip ua, c =>
    let (r, w) := respond env (.call ctx (.refresh c.newest ip ua)) c.world
    (r, ⟨w, newestAfter r c.newest⟩)
  | .other e, c =>
    let (r, w) := respond env e c.world
    (r, ⟨w, c.newest⟩)

abbrev ClientRun := Run Client ClientStep Reply

variable {r : ClientRun}

/-- The run of the steps from the state `w`, in which the client's newest token is `tok`. -/
def clientRun (env : Env) (ctx : Ctx) (w : World) (tok : Uuid) (steps : List ClientStep) :
    ClientRun :=
  (Run.init ⟨w, tok⟩ : ClientRun).exec (clientStep env ctx) steps

/-- Neither the token nor its session is revoked. -/
def Held (w : World) (tok : Uuid) : Prop :=
  ∀ rt ∈ w.db.refreshTokens.rows, rt.tokenHash = ⟨tok⟩ → rt.revoked = false ∧
    ∀ s ∈ w.db.sessions.rows, rt.sessionID = some s.id → s.revoked = false

instance (w : World) (tok : Uuid) : Decidable (Held w tok) := by
  unfold Held; infer_instance

/-- Nobody revokes the client's session or its newest token. -/
def Untouched (env : Env) : ClientStep → ClientRun → Prop
  | .present _ _, _ => True
  | .other e, r => Held (respond env e r.state.world).2 r.state.newest

def ClientStep.isPresent : ClientStep → Bool
  | .present _ _ => true
  | .other _ => false

/-- The step is a `Refresh` of the client. -/
def Presents (x : Record Client ClientStep Reply) : Prop := x.input.isPresent = true

instance (x : Record Client ClientStep Reply) : Decidable (Presents x) := by
  unfold Presents; infer_instance

theorem newestAfter_of_not {r : Reply} (h : ¬ ReturnedPair r) : newestAfter r tok = tok := by
  unfold newestAfter
  split
  · exact absurd ⟨_, rfl⟩ h
  · rfl

theorem Held.not_revokedBefore (h : Held w tok) : ¬ RevokedBefore ctx tok w := by
  rintro ⟨rt, hrt, hrev⟩
  obtain ⟨hmem, hp⟩ := Table.mem_of_first? hrt
  simp only [Bool.and_eq_true, decide_eq_true_eq] at hp
  obtain ⟨hr, hs⟩ := h rt hmem hp.1
  rcases hrev with hrev | ⟨s, hsm, hsid, hrev⟩
  · rw [hr] at hrev
    cases hrev
  · rw [hs s hsm hsid] at hrev
    cases hrev

/-- What `Refresh` does, seen through the reply of the service. -/
theorem respond_refresh_unalarmed (hrev : ¬ RevokedBefore ctx tok w) (hlate : ¬ Late ctx tok w) :
    Unalarmed w (respond env (.call ctx (.refresh tok ip ua)) w).2 ∧
      (¬ ReturnedPair (respond env (.call ctx (.refresh tok ip ua)) w).1 →
        (respond env (.call ctx (.refresh tok ip ua)) w).2.db = w.db) := by
  have h : wp (serve env ctx (.refresh tok ip ua)) (fun r w' => Unalarmed w w' ∧
      (¬ ReturnedPair r → w'.db = w.db)) w := by
    refine wp_seq (wp_mono (wp_refresh_unalarmed hrev hlate) fun r w' h => ?_)
    cases r with
    | error e => exact ⟨h.1, fun _ => h.2 e rfl⟩
    | ok pair => exact ⟨h.1, fun hno => absurd ⟨pair, rfl⟩ hno⟩
  exact h

theorem respond_refresh_late (hw : Good w) (hc : w.faults = []) (hlate : Late ctx tok w) :
    Alarm w (respond env (.call ctx (.refresh tok ip ua)) w).2 := by
  have h : wp (serve env ctx (.refresh tok ip ua)) (fun _ w' => Alarm w w') w := by
    refine wp_seq (wp_mono (wp_refresh_late hw hc hlate) fun r w' h => ?_)
    cases r <;> exact h.1
  exact h

/-- The client keeps a held token when its `Refresh` is in time. -/
theorem held_present (hw : Good w) (hheld : Held w tok) (hlate : ¬ Late ctx tok w) :
    Held (respond env (.call ctx (.refresh tok ip ua)) w).2
      (newestAfter (respond env (.call ctx (.refresh tok ip ua)) w).1 tok) := by
  have hgood := (respond_next env (.call ctx (.refresh tok ip ua)) hw).good
  by_cases hpair : ReturnedPair (respond env (.call ctx (.refresh tok ip ua)) w).1
  · obtain ⟨pair, hr⟩ := hpair
    obtain ⟨-, -, -, -, sid, -, ⟨t, ht, hh, htr, hsid⟩, s, hs, hid, hsr⟩ :=
      (refresh_exchange hw hr).row
    rw [hr]
    intro rt hrt hhash
    obtain rfl := hgood.tidy.hash rt hrt t ht (hhash.trans hh.symm)
    refine ⟨htr, fun s' hs' hsid' => ?_⟩
    obtain rfl := Table.eq_of_key_eq _ hs hs'
      (hid.trans (Option.some.inj (hsid.symm.trans hsid')))
    exact hsr
  · rw [newestAfter_of_not hpair, Held,
      (respond_refresh_unalarmed hheld.not_revokedBefore hlate).2 hpair]
    exact hheld

/-! ## Runs of the client -/

/-- The client is never late in the run. -/
def InTime (ctx : Ctx) (r : ClientRun) : Prop :=
  ∀ x ∈ r.hist, Presents x → ¬ Late ctx x.before.newest x.before.world

/-- No `Refresh` of the client raises the alarm. -/
def NoAlarm (r : ClientRun) : Prop :=
  ∀ x ∈ r.hist, Presents x → ¬ Alarm x.before.world x.after.world

/-- A late `Refresh` without failures raises it. -/
def LateAlarms (ctx : Ctx) (r : ClientRun) : Prop :=
  ∀ x ∈ r.hist, Presents x → x.before.world.faults = [] →
    Late ctx x.before.newest x.before.world → Alarm x.before.world x.after.world

/-- What the runs keep: a client in time holds its token and meets no alarm. -/
structure ClientInv (ctx : Ctx) (r : ClientRun) : Prop where
  good : Good r.state.world
  late : LateAlarms ctx r
  held : InTime ctx r → Held r.state.world r.state.newest
  quiet : InTime ctx r → NoAlarm r

theorem inTime_of_step {i : ClientStep} (h : InTime ctx (r.step (clientStep env ctx) i)) :
    InTime ctx r :=
  fun x hx => h x (List.mem_cons_of_mem _ hx)

theorem clientInv_present (h : ClientInv ctx r) :
    ClientInv ctx (r.step (clientStep env ctx) (.present ip ua)) where
  good := (respond_next env (.call ctx (.refresh r.state.newest ip ua)) h.good).good
  late := by
    intro x hx
    rcases List.mem_cons.1 hx with rfl | hx
    · exact fun _ hc hlate => respond_refresh_late h.good hc hlate
    · exact h.late x hx
  held := by
    intro htime
    have hlate := htime _ List.mem_cons_self rfl
    exact held_present h.good (h.held (inTime_of_step htime)) hlate
  quiet := by
    intro htime x hx
    have hheld := h.held (inTime_of_step htime)
    have hlate := htime _ List.mem_cons_self rfl
    rcases List.mem_cons.1 hx with rfl | hx
    · exact fun _ =>
        (respond_refresh_unalarmed hheld.not_revokedBefore hlate).1.not_alarm
    · exact h.quiet (inTime_of_step htime) x hx

theorem clientInv_other {e : Event} (h : ClientInv ctx r)
    (hheld : Held (respond env e r.state.world).2 r.state.newest) :
    ClientInv ctx (r.step (clientStep env ctx) (.other e)) where
  good := (respond_next env e h.good).good
  late := by
    intro x hx
    rcases List.mem_cons.1 hx with rfl | hx
    · exact fun hin => by cases hin
    · exact h.late x hx
  held _ := hheld
  quiet := by
    intro htime x hx
    rcases List.mem_cons.1 hx with rfl | hx
    · exact fun hin => by cases hin
    · exact h.quiet (inTime_of_step htime) x hx

theorem clientInv_run (hw : Good w) (hheld : Held w tok) (steps : List ClientStep)
    (hu : (Run.init ⟨w, tok⟩ : ClientRun).Meets (clientStep env ctx) (Untouched env) steps) :
    ClientInv ctx (clientRun env ctx w tok steps) := by
  refine Run.exec_induct_meets (fun r i hr hok => ?_) steps
    ⟨hw, fun x hx => (by cases hx), fun _ => hheld, fun _ x hx => by cases hx⟩ hu
  cases i with
  | present => exact clientInv_present hr
  | other e => exact clientInv_other hr hok

theorem Late.not_revokedBefore (h : Late ctx tok w) : ¬ RevokedBefore ctx tok w := by
  obtain ⟨rt, hrt, hr, -, -, s, hs, hsid, hsr, -⟩ := h
  rintro ⟨rt', hrt', hrev⟩
  obtain rfl := Option.mem_unique hrt hrt'
  rcases hrev with hrev | ⟨s', hs', hsid', hrev⟩
  · rw [hr] at hrev
    cases hrev
  · obtain rfl := w.db.sessions.eq_of_key_eq hs hs' (Option.some.inj (hsid.symm.trans hsid'))
    rw [hsr] at hrev
    cases hrev

/-- **The theft response is sound up to lateness.** From every reachable state, for a client that
presents its newest token and whose session and token nobody revokes: in time it meets no alarm,
whatever fails, and a late call without failures raises one. And for whatever token is presented,
an alarm means a revoked token, a revoked session, or a late call. -/
theorem alarm_sound (env : Env) (ctx : Ctx) {w : World} (h : NoSessions w) (es : List Event) :
    (∀ tok steps, Held (serviceRun env w es).state tok →
      (Run.init ⟨(serviceRun env w es).state, tok⟩ : ClientRun).Meets (clientStep env ctx)
        (Untouched env) steps →
      (InTime ctx (clientRun env ctx (serviceRun env w es).state tok steps) →
        NoAlarm (clientRun env ctx (serviceRun env w es).state tok steps)) ∧
      LateAlarms ctx (clientRun env ctx (serviceRun env w es).state tok steps)) ∧
    ∀ tok ip ua,
      (Alarm (serviceRun env w es).state
          (respond env (.call ctx (.refresh tok ip ua)) (serviceRun env w es).state).2 →
        RevokedBefore ctx tok (serviceRun env w es).state ∨
          Late ctx tok (serviceRun env w es).state) ∧
      ((serviceRun env w es).state.faults = [] → Late ctx tok (serviceRun env w es).state →
        ¬ RevokedBefore ctx tok (serviceRun env w es).state ∧
          Alarm (serviceRun env w es).state
            (respond env (.call ctx (.refresh tok ip ua)) (serviceRun env w es).state).2) := by
  have hgood := good_run env h es
  refine ⟨fun tok steps hheld hu => ?_, fun tok ip ua => ⟨fun ha => ?_, fun hc hlate => ?_⟩⟩
  · have hinv := clientInv_run hgood hheld steps hu
    exact ⟨hinv.quiet, hinv.late⟩
  · by_contra hno
    obtain ⟨hrev, hlate⟩ := not_or.1 hno
    exact (respond_refresh_unalarmed hrev hlate).1.not_alarm ha
  · exact ⟨hlate.not_revokedBefore, respond_refresh_late hgood hc hlate⟩

/-! ## A client that waits -/

/-- After the login of `jose`, whose first refresh token is 102. -/
def loginEvents : List Event := [.call .sample (.login "jose@x.io" "password1" "" "ip" "ua")]

/-- The client waits, refreshes, waits again and refreshes. -/
def waitingSteps (first second : Nat) : List ClientStep :=
  [.other (.outside (.tick first)), .present "ip" "ua", .other (.outside (.tick second)),
    .present "ip" "ua"]

def waitingRun (first second : Nat) : ClientRun :=
  clientRun (.plain .sample) .sample (serviceRun (.plain .sample) .sample loginEvents).state 102
    (waitingSteps first second)

/-- A client that comes back within the hour: the theorem applies to its run. -/
theorem alarm_sound_waitingRun : NoAlarm (waitingRun 1000 3600000) := by
  have htime : InTime .sample (waitingRun 1000 3600000) := by
    unfold InTime
    decide +kernel
  refine ((alarm_sound (.plain .sample) .sample noSessions_sample loginEvents).1 102
    (waitingSteps 1000 3600000) (by decide +kernel) ⟨?_, trivial, ?_, trivial, trivial⟩).1 htime
  · unfold Untouched
    decide +kernel
  · unfold Untouched
    decide +kernel

/-- **A false alarm.** The client refreshes one millisecond before the end of its session and again
two milliseconds later. Its newest token was never revoked and nor was its session, yet the second
call is answered as theft. -/
theorem false_alarm :
    Held (serviceRun (.plain .sample) .sample loginEvents).state 102 ∧
      (Run.init ⟨(serviceRun (.plain .sample) .sample loginEvents).state, 102⟩ : ClientRun).Meets
        (clientStep (.plain .sample) .sample) (Untouched (.plain .sample))
        (waitingSteps 604799999 2) ∧
      ∃ x ∈ (waitingRun 604799999 2).hist, Presents x ∧ Alarm x.before.world x.after.world ∧
        ¬ RevokedBefore .sample x.before.newest x.before.world := by
  refine ⟨by decide +kernel, ⟨?_, trivial, ?_, trivial, trivial⟩, by decide +kernel⟩
  · unfold Untouched
    decide +kernel
  · unfold Untouched
    decide +kernel

end FinnAuth
