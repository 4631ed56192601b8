import FinnAuth.Audit.Gapless

/-!
# Exactly-once delivery

Any number of workers claim rows, deliver them and give them back, with clocks of their own and any
pause between two calls. Every claim stores a new token in its row, and the acknowledgement and the
return of a row ask for the token of the claim: a worker that was overtaken finds another token and
changes nothing. The insert into `audit_logs` and the acknowledgement are one transaction.

Results:
* **`superseded_inert`**: what a worker does with a claim after a later claim of the same event
  changes nothing;
* **`delivered_once`**: every event has one row in the outbox, and one row in `audit_logs`, equal to
  it, from its delivery until its purge.
-/

namespace FinnAuth.Audit

open Lib

variable {β ρ : Type} {pl : Platform} {maxPending : Nat}

/-! ## Tokens -/

variable {c : AuditOutbox} {now : Int} {repo : AuditRepository} {db : AuditTables}
  {locked : String → Bool} {f : AuditOutbox → AuditOutbox} {e : AuditLog} {p : AuditOutbox → Bool}
  {hf : ∀ o, (f o).eventID = o.eventID}

/-- Every row has no token, or the token the row of the event had. -/
def Retains (db db' : AuditTables) : Prop :=
  ∀ o' ∈ db'.outbox.rows, o'.leaseToken = "" ∨
    ∃ o ∈ db.outbox.rows, o.eventID = o'.eventID ∧ o.leaseToken = o'.leaseToken

section Retains

variable {db db' db'' : AuditTables}

theorem Retains.refl (db : AuditTables) : Retains db db :=
  fun o ho => .inr ⟨o, ho, rfl, rfl⟩

theorem Retains.trans (h : Retains db db') (h' : Retains db' db'') : Retains db db'' := by
  intro o'' ho''
  rcases h' o'' ho'' with hempty | ⟨o', ho', hid', htok'⟩
  · exact .inl hempty
  · rcases h o' ho' with hempty | ⟨o, ho, hid, htok⟩
    · exact .inl (htok' ▸ hempty)
    · exact .inr ⟨o, ho, hid.trans hid', htok.trans htok'⟩

theorem retains_of_outbox (db db' : AuditTables) (h : db'.outbox = db.outbox) :
    Retains db db' := by
  intro o ho
  rw [h] at ho
  exact .inr ⟨o, ho, rfl, rfl⟩

theorem retains_update (h : ∀ o, (f o).leaseToken = "" ∨ (f o).leaseToken = o.leaseToken) :
    Retains db (db.updateOutbox p f hf) := by
  intro o' ho'
  obtain ⟨o, ho, rfl⟩ := (Table.mem_update db.outbox p f hf o').1 ho'
  split
  · rcases h o with hempty | hsame
    · exact .inl hempty
    · exact .inr ⟨o, ho, (hf o).symm, hsame.symm⟩
  · exact .inr ⟨o, ho, rfl, rfl⟩

theorem retains_admitEvent {a : Admission} {fresh : Nat}
    (h : admitEvent pl repo a fresh db = .ok (e, db')) : Retains db db' := by
  obtain ⟨payload, now, -, hrows⟩ := (admitEvent_ok h).outbox
  intro o ho
  rw [hrows] at ho
  rcases List.mem_append.1 ho with ho | ho
  · exact .inr ⟨o, ho, rfl, rfl⟩
  · rw [List.mem_singleton.1 ho]
    exact .inl rfl

theorem retains_acknowledge (row : AuditOutbox) : Retains db (db.acknowledge row) := by
  refine Retains.trans (retains_of_outbox db _ ?_) (retains_update fun _ => .inl rfl)
  rfl

theorem retains_deliver (h : deliver pl repo c now db = .ok ((), db')) : Retains db db' := by
  rcases deliver_ok h with rfl | ⟨row, e, -, -, hd⟩
  · exact .refl _
  · obtain ⟨logs, rfl, -⟩ := hd.after
    exact Retains.trans (retains_of_outbox db { db with logs := logs } rfl)
      (retains_acknowledge row)

theorem retains_requeueDead {tenant id : String}
    (h : requeueDead tenant id now db = .ok ((), db')) : Retains db db' := by
  unfold requeueDead at h
  split at h
  · cases h
    exact retains_update fun _ => .inr rfl
  · cases h

end Retains

/-- A body leaves the tokens of the rows alone and draws UUIDs. -/
theorem run_retains (pl : Platform) (repo : AuditRepository) (body : Body β ρ) (t : Transaction β) :
    Retains t.tables (body.run pl repo t).2.tables ∧ t.fresh ≤ (body.run pl repo t).2.fresh := by
  refine run_rel
    (R := fun t t' : Transaction β => Retains t.tables t'.tables ∧ t.fresh ≤ t'.fresh)
    (fun t => ⟨.refl _, Nat.le_refl _⟩) (fun h h' => ⟨h.1.trans h'.1, h.2.trans h'.2⟩)
    (fun t _ => ⟨.refl t.tables, Nat.le_refl t.fresh⟩) (fun t a => ?_)
    (fun t => ⟨.refl t.tables, Nat.le_refl t.fresh⟩)
    (fun t _ _ => ⟨retains_of_outbox t.tables _ rfl, Nat.le_refl t.fresh⟩) body t
  unfold Transaction.admitEvent
  split
  · exact ⟨.refl t.tables, Nat.le_add_right t.fresh 2⟩
  · rename_i h
    exact ⟨retains_admitEvent h, Nat.le_add_right t.fresh 2⟩

/-! ## The fence -/

/-- The `n`-th UUID was drawn, and no row of the event carries it. -/
structure Fenced (pl : Platform) (id : String) (n : Nat) (s : Store β) : Prop where
  drawn : n < s.fresh
  rows : ∀ o ∈ s.tables.outbox.rows, o.eventID = id → o.leaseToken ≠ pl.uuid n

section Fence

variable {s : Store β} {id : String} {n : Nat}

theorem Fenced.retains (h : Fenced pl id n s) (s' : Store β) (hfresh : s.fresh ≤ s'.fresh)
    (hr : Retains s.tables s'.tables) : Fenced pl id n s' := by
  refine ⟨Nat.lt_of_lt_of_le h.drawn hfresh, fun o' ho' hid => ?_⟩
  rcases hr o' ho' with hempty | ⟨o, ho, hsame, htok⟩
  · rw [hempty]
    exact (pl.uuid_ne_empty n).symm
  · rw [← htok]
    exact h.rows o ho (hsame.trans hid)

theorem Fenced.commit (h : Fenced pl id n s) {t : Tx Unit}
    (ht : ∀ db', t s.tables = .ok ((), db') → Retains s.tables db') :
    Fenced pl id n (s.commit t).2 := by
  unfold Store.commit
  split
  · rename_i tables hok
    exact h.retains { s with tables := tables } (Nat.le_refl _) (ht tables hok)
  · exact h

theorem fresh_commit (s : Store β) (t : Tx Unit) : (s.commit t).2.fresh = s.fresh := by
  unfold Store.commit
  split <;> rfl

/-- No step gives a row a token that was drawn before. -/
theorem fenced_perform (h : Fenced pl id n s) (step : AuditStep β ρ) :
    Fenced pl id n (perform pl maxPending step s).2 := by
  obtain ⟨keys, action⟩ := step
  cases action with
  | operation body =>
    obtain ⟨hr, hf⟩ := run_retains pl ⟨keys, maxPending⟩ body s.begin
    simp only [perform, operate]
    split
    · exact h.retains _ hf (.refl _)
    · exact h.retains _ hf hr
  | admission a =>
    simp only [perform]
    split
    · rename_i e tables hok
      exact h.retains _ (Nat.le_add_right _ _) (retains_admitEvent hok)
    · exact h.retains _ (Nat.le_add_right _ _) (.refl _)
  | claim now locked =>
    refine ⟨Nat.lt_succ_of_lt h.drawn, fun o ho hid => ?_⟩
    change o ∈ (claim now locked (pl.uuid s.fresh) s.tables).2.outbox.rows at ho
    rcases claim_snd s.tables now locked (pl.uuid s.fresh) with hsame | ⟨row, -, hclaim⟩
    · rw [hsame] at ho
      exact h.rows o ho hid
    · rw [hclaim] at ho
      obtain ⟨p, hp, rfl⟩ := (Table.mem_update s.tables.outbox _
        (AuditOutbox.claimed now (pl.uuid s.fresh)) (fun _ => rfl) o).1 ho
      split
      · -- the new token was not drawn before
        intro htok
        have heq : s.fresh = n := pl.uuid_injective htok
        have := h.drawn
        omega
      · rename_i hne
        rw [if_neg hne] at hid
        exact h.rows p hp hid
  | deliver => exact h.commit fun _ hok => retains_deliver hok
  | failClaim c now =>
    exact h.retains { s with tables := failClaim c now s.tables } (Nat.le_refl _)
      (retains_update fun _ => .inl rfl)
  | requeueDead => exact h.commit fun _ hok => retains_requeueDead hok
  | archive =>
    simp only [perform]
    split <;> exact h
  | purgeArchive =>
    refine h.commit fun db' hok => ?_
    rw [(purgeArchive_ok hok).after]
    exact retains_of_outbox _ _ rfl
  | restoreArchive =>
    simp only [perform]
    split
    · rename_i tables hok
      obtain ⟨logs, -, rfl⟩ := (restoreArchive_ok hok).after
      exact h.retains _ (Nat.le_refl _) (retains_of_outbox _ _ rfl)
    · exact h
  | anonymizeUser tenant userID =>
    exact h.retains { s with tables := anonymizeUser tenant userID s.tables } (Nat.le_refl _)
      (retains_of_outbox _ _ rfl)
  | crash => exact h

/-- An acknowledgement with a token that no row of the event carries changes nothing. -/
theorem deliver_fenced
    (h : ∀ o ∈ s.tables.outbox.rows, o.eventID = c.eventID → o.leaseToken ≠ c.leaseToken) :
    (s.commit (deliver pl repo c now)).2 = s := by
  unfold Store.commit
  split
  · rename_i tables hok
    rcases deliver_ok hok with rfl | ⟨row, e, hheld, hid, hd⟩
    · rfl
    · simp only [AuditOutbox.heldBy, Bool.and_eq_true, decide_eq_true_eq] at hheld
      exact absurd hheld.1.2 (h row hd.mem hid)
  · rfl

theorem updateOutbox_eq_self (h : ∀ o ∈ db.outbox.rows, p o = false) :
    db.updateOutbox p f hf = db := by
  unfold AuditTables.updateOutbox
  rw [Table.update_eq_self h]

theorem failClaim_fenced
    (h : ∀ o ∈ db.outbox.rows, o.eventID = c.eventID → o.leaseToken ≠ c.leaseToken) :
    failClaim c now db = db := by
  refine updateOutbox_eq_self fun o ho => ?_
  rw [Bool.eq_false_iff]
  intro hp
  simp only [Bool.and_eq_true, decide_eq_true_eq] at hp
  exact h o ho hp.1.1 hp.2

end Fence

theorem fresh_perform (step : AuditStep β ρ) (s : Store β) :
    s.fresh ≤ (perform pl maxPending step s).2.fresh := by
  obtain ⟨keys, action⟩ := step
  cases action with
  | operation body =>
    obtain ⟨-, hf⟩ := run_retains pl ⟨keys, maxPending⟩ body s.begin
    simp only [perform, operate]
    split <;> exact hf
  | admission a =>
    simp only [perform]
    split <;> exact Nat.le_add_right _ _
  | claim => exact Nat.le_succ _
  | deliver => exact Nat.le_of_eq (fresh_commit _ _).symm
  | requeueDead => exact Nat.le_of_eq (fresh_commit _ _).symm
  | purgeArchive => exact Nat.le_of_eq (fresh_commit _ _).symm
  | archive =>
    simp only [perform]
    split <;> exact Nat.le_refl _
  | restoreArchive =>
    simp only [perform]
    split <;> exact Nat.le_refl _
  | failClaim => exact Nat.le_refl _
  | anonymizeUser => exact Nat.le_refl _
  | crash => exact Nat.le_refl _

/-- A claim puts its own token into the row of the event it finds. -/
theorem fenced_claim {keys : Keys} {s : Store β} {n : Nat} {id : String} {row : AuditOutbox}
    (hn : n < s.fresh) (hrow : s.tables.claimable now locked = some row) (hid : row.eventID = id) :
    Fenced pl id n (perform pl maxPending (⟨keys, .claim now locked⟩ : AuditStep β ρ) s).2 := by
  refine ⟨Nat.lt_succ_of_lt hn, fun o ho hoid => ?_⟩
  change o ∈ (claim now locked (pl.uuid s.fresh) s.tables).2.outbox.rows at ho
  have hclaim : (claim now locked (pl.uuid s.fresh) s.tables).2 = s.tables.updateOutbox
      (·.eventID = row.eventID) (AuditOutbox.claimed now (pl.uuid s.fresh)) fun _ => rfl := by
    unfold claim
    rw [hrow]
    simp only
    split <;> rfl
  rw [hclaim] at ho
  obtain ⟨p, hp, rfl⟩ := (Table.mem_update s.tables.outbox _
    (AuditOutbox.claimed now (pl.uuid s.fresh)) (fun _ => rfl) o).1 ho
  split
  · intro htok
    have heq : s.fresh = n := pl.uuid_injective htok
    omega
  · rename_i hne
    rw [if_neg hne] at hoid
    exact absurd (decide_eq_true (hoid.trans hid.symm)) hne

/-- What a claim returns carries the token it drew. -/
theorem claim_token {token : String} (h : (claim now locked token db).1 = some c) :
    c.leaseToken = token := by
  unfold claim at h
  split at h
  · cases h
  · simp only at h
    split at h
    · cases h
    · cases h
      rfl

/-- **A worker that was overtaken changes nothing.** After a later claim of the same event, whether
it was handed out or found the attempts used up, every acknowledgement and every return with the
earlier claim leaves the whole database as it is. -/
theorem superseded_inert {s s' : Store β} {mid post : List (AuditStep β ρ)} {keys keys' : Keys}
    {now now' : Int} {locked locked' : String → Bool} {c row : AuditOutbox}
    (hclaim : (perform pl maxPending (⟨keys, .claim now locked⟩ : AuditStep β ρ) s).1.claimed =
      some c)
    (hlater : (auditRun pl maxPending s
      (⟨keys, .claim now locked⟩ :: mid)).state.tables.claimable now' locked' = some row)
    (hsame : row.eventID = c.eventID)
    (hs' : s' = (auditRun pl maxPending s
      (⟨keys, .claim now locked⟩ :: mid ++ ⟨keys', .claim now' locked'⟩ :: post)).state)
    (ring : Keys) (at_ : Int) :
    (perform pl maxPending (⟨ring, .deliver c at_⟩ : AuditStep β ρ) s').2 = s' ∧
      (perform pl maxPending (⟨ring, .failClaim c at_⟩ : AuditStep β ρ) s').2 = s' := by
  have htoken : c.leaseToken = pl.uuid s.fresh := claim_token hclaim
  -- the counter has moved on when the later claim draws its token
  have hdrawn : s.fresh <
      (auditRun pl maxPending s (⟨keys, .claim now locked⟩ :: mid)).state.fresh :=
    Run.exec_induct (I := fun r : AuditRun β ρ => s.fresh < r.state.fresh)
      (fun r i h => Nat.lt_of_lt_of_le h (fresh_perform i r.state)) mid (Nat.lt_succ_self _)
  have hfenced : Fenced pl c.eventID s.fresh s' := by
    rw [hs', auditRun_append]
    refine Run.exec_induct (I := fun r : AuditRun β ρ => Fenced pl c.eventID s.fresh r.state)
      (fun r i h => fenced_perform h i) post ?_
    rw [Run.step_state]
    exact fenced_claim hdrawn hlater hsame
  have hrows := hfenced.rows
  rw [← htoken] at hrows
  exact ⟨deliver_fenced hrows, congrArg (fun db => { s' with tables := db })
    (failClaim_fenced hrows)⟩

/-! ## One row for every event -/

/-- The step puts an archive back. -/
def Action.restores : Action β ρ → Bool
  | .restoreArchive .. => true
  | _ => false

/-- Without such steps nothing is restored. -/
theorem restored_eq_nil {s₀ : Store β} {steps : List (AuditStep β ρ)}
    (h : ∀ s ∈ steps, s.action.restores = false) :
    restored (auditRun pl maxPending s₀ steps) = [] := by
  refine List.flatMap_eq_nil_iff.2 fun x hx => ?_
  rcases Run.made_of_mem steps (List.mem_reverse.1 hx) with hx | ⟨hmem, hmade⟩
  · cases hx
  have hplain := h x.input hmem
  have hreply : x.reply = (perform pl maxPending x.input x.before).1 := by rw [hmade]
  rw [hreply]
  generalize x.input = step at hplain
  obtain ⟨keys, action⟩ := step
  cases action with
  | restoreArchive => cases hplain
  | admission a => simp only [perform]; split <;> rfl
  | archive => simp only [perform]; split <;> rfl
  | _ => rfl

/-- Rows of `audit_logs` with the id of an event are one row. -/
theorem LogTable.eq_of_eventID (t : LogTable) {r r' : AuditLog} (hr : r ∈ t.rows)
    (hr' : r' ∈ t.rows) (h : r.eventID = r'.eventID) (hne : r'.eventID ≠ "") : r = r' := by
  by_contra hdiff
  have : Std.Symm AuditLog.Apart := by
    refine ⟨fun a b hab => ⟨hab.id.symm, fun heq => ?_, fun ht hs => ?_⟩⟩
    · rw [← heq]
      exact hab.eventID heq.symm
    · rw [← hs]
      exact hab.sequence ht.symm hs.symm
  exact hne ((t.apart.forall hr hr' hdiff).eventID h)

/-- The event was purged with an archive. -/
def AuditTables.purged (db : AuditTables) (e : AuditLog) : Bool :=
  links.seq e ≤ (db.boundaryOf e.tenantID).sequence

section Once

variable {db : AuditTables} {log : List AuditLog}

/-- Events with the same id are one event. -/
theorem Ledgered.eq_of_eventID (h : Ledgered pl db log) {e e' : AuditLog} (he : e ∈ log)
    (he' : e' ∈ log) (hid : e.eventID = e'.eventID) : e = e' := by
  obtain ⟨o, ho, hr⟩ := exists_row h.receipts he
  obtain ⟨o', ho', hr'⟩ := exists_row h.receipts he'
  obtain rfl : o = o' :=
    db.outbox.eq_of_key_eq ho ho' (hr.eventID.trans (hid.trans hr'.eventID.symm))
  refine h.event_unique he he' (hr.tenantID.symm.trans hr'.tenantID) ?_
  simp [links, hr.sequence, hr'.sequence]

/-- Where nothing was restored, the row of an event in `audit_logs` is the event. -/
theorem Logged.row_of_event (h : Logged pl db log []) {e r : AuditLog} (he : e ∈ log)
    (hr : r ∈ db.logs.rows) (hid : r.eventID = e.eventID) :
    r.strip = e ∧ db.delivered e.tenantID (links.seq e) = true ∧ db.purged e = false := by
  have hne := (h.ledger.evidence e he).eventID
  have hver : r.version = 1 := by
    rcases h.rows r hr with hv | ⟨-, hempty, -⟩
    · exact hv
    · exact absurd (hid.symm.trans hempty) hne
  obtain ⟨cs, hcs⟩ := h.chain r.tenantID
  obtain ⟨hmem, hdel⟩ := (hcs.hot r.strip).1 ⟨r, List.mem_filter.2 ⟨hr, by simp [hver]⟩, rfl⟩
  have hlog : r.strip ∈ log := (hcs.source r.strip hmem).resolve_right List.not_mem_nil
  have hsame : r.strip = e := h.ledger.eq_of_eventID hlog he hid
  have htenant : r.strip.tenantID = e.tenantID := congrArg AuditLog.tenantID hsame
  change r.tenantID = e.tenantID at htenant
  have hlater := (Links.seq_of_mem hcs.leads hmem).1
  rw [hsame, htenant] at hdel hlater
  exact ⟨hsame, hdel, by simp [AuditTables.purged]; exact hlater⟩

/-- Where nothing was restored, an event that is delivered and not purged has its row. -/
theorem Logged.exists_row (h : Logged pl db log []) (he : e ∈ log)
    (hdel : db.delivered e.tenantID (links.seq e) = true) (hp : db.purged e = false) :
    ∃ r ∈ db.logs.rows, r.strip = e := by
  obtain ⟨cs, hcs⟩ := h.chain e.tenantID
  have hlo : (db.boundaryOf e.tenantID).sequence < links.seq e := by
    simpa [AuditTables.purged] using hp
  have hhi := (Links.seq_of_mem (h.ledger.chain e.tenantID)
    (List.mem_filter.2 ⟨he, by simp⟩)).2
  obtain ⟨c, hc, hseq⟩ := Links.exists_seq hcs.leads hlo hhi
  have hlog : c ∈ log := (hcs.source c hc).resolve_right List.not_mem_nil
  obtain rfl : c = e := h.ledger.event_unique hlog he (hcs.tenantID c hc) hseq
  obtain ⟨r, hr, hstrip⟩ := (hcs.hot c).2 ⟨hc, hdel⟩
  exact ⟨r, (List.mem_filter.1 hr).1, hstrip⟩

end Once

/-- **Every event is delivered exactly once.** In every state of a run in which no archive was put
back, an event has one row in the outbox, which is in one of the four states; if that row is
delivered and the event is not purged, it has one row in `audit_logs`, equal to it, and otherwise
none. A worker whose claim was overtaken changes nothing. -/
theorem delivered_once {s₀ : Store β} (h₀ : s₀.tables.Fresh) {steps : List (AuditStep β ρ)}
    (hplain : ∀ s ∈ steps, s.action.restores = false) {s : Store β}
    (hs : s = (auditRun pl maxPending s₀ steps).state) :
    (∀ e ∈ committed (auditRun pl maxPending s₀ steps),
      ∃ o ∈ s.tables.outbox.rows, Receipt pl e o ∧
        (∀ o' ∈ s.tables.outbox.rows, o'.eventID = e.eventID → o' = o) ∧
        (o.state = .delivered → s.tables.purged e = false →
          ∃ r ∈ s.tables.logs.rows, r.strip = e ∧
            ∀ r' ∈ s.tables.logs.rows, r'.eventID = e.eventID → r' = r) ∧
        (o.state ≠ .delivered ∨ s.tables.purged e = true →
          ∀ r ∈ s.tables.logs.rows, r.eventID ≠ e.eventID)) ∧
    ∀ (mid post : List (AuditStep β ρ)) (keys keys' : Keys) (now now' : Int)
      (locked locked' : String → Bool) (c row : AuditOutbox) (s' : Store β),
      (perform pl maxPending (⟨keys, .claim now locked⟩ : AuditStep β ρ) s).1.claimed = some c →
      (auditRun pl maxPending s
        (⟨keys, .claim now locked⟩ :: mid)).state.tables.claimable now' locked' = some row →
      row.eventID = c.eventID →
      s' = (auditRun pl maxPending s
        (⟨keys, .claim now locked⟩ :: mid ++ ⟨keys', .claim now' locked'⟩ :: post)).state →
      ∀ ring at_, (perform pl maxPending (⟨ring, .deliver c at_⟩ : AuditStep β ρ) s').2 = s' ∧
        (perform pl maxPending (⟨ring, .failClaim c at_⟩ : AuditStep β ρ) s').2 = s' := by
  refine ⟨fun e he => ?_, fun mid post keys keys' now now' locked locked' c row s' hclaim hlater
    hsame hs' => superseded_inert hclaim hlater hsame hs'⟩
  have hlogged : Logged pl s.tables (committed (auditRun pl maxPending s₀ steps)) [] := by
    have h : Logged pl (auditRun pl maxPending s₀ steps).state.tables _ _ := logged_run h₀ steps
    rwa [restored_eq_nil hplain, ← hs] at h
  have hne := (hlogged.ledger.evidence e he).eventID
  obtain ⟨o, ho, hr⟩ := exists_row hlogged.ledger.receipts he
  have hseq : links.seq e = o.sequence := by simp [links, hr.sequence]
  refine ⟨o, ho, hr, fun o' ho' hid => ?_, fun hdel hp => ?_, fun hnot r hrow hid => ?_⟩
  · exact s.tables.outbox.eq_of_key_eq ho' ho (hid.trans hr.eventID.symm)
  · have hnumber : s.tables.delivered e.tenantID (links.seq e) = true :=
      delivered_iff.2 ⟨o, ho, hr.tenantID, hseq.symm, hdel⟩
    obtain ⟨r, hrow, hstrip⟩ := hlogged.exists_row he hnumber hp
    refine ⟨r, hrow, hstrip, fun r' hr' hid => ?_⟩
    have hid' : r.strip.eventID = e.eventID := congrArg AuditLog.eventID hstrip
    exact s.tables.logs.eq_of_eventID hr' hrow (hid.trans hid'.symm) (hid' ▸ hne)
  · obtain ⟨-, hnumber, hp⟩ := hlogged.row_of_event he hrow hid
    rcases hnot with hnot | hnot
    · have hwait := hlogged.ledger.not_delivered ho hnot
      rw [hr.tenantID, ← hseq, hnumber] at hwait
      cases hwait
    · rw [hp] at hnot
      cases hnot

/-- The event of `sampleDelivered` has its row in `audit_logs`. -/
theorem delivered_once_sample : (committed sampleDelivered).length = 1 ∧
    ∀ e ∈ committed sampleDelivered, ∃ r ∈ sampleDelivered.state.tables.logs.rows, r.strip = e := by
  have hledger : Ledgered .plain sampleDelivered.state.tables (committed sampleDelivered) :=
    ledgered_run fresh_sample _
  have hlength := hledger.receipts.length_eq
  rw [rows_sampleDelivered] at hlength
  refine ⟨hlength, fun e he => ?_⟩
  obtain ⟨hevents, -⟩ := @delivered_once Unit Unit .plain 1 .sample fresh_sample
    sampleSteps (by simp [sampleSteps, Action.restores]) sampleDelivered.state rfl
  obtain ⟨o, ho, -, -, hrow, -⟩ := hevents e he
  rw [rows_sampleDelivered, List.mem_singleton] at ho
  have hdel : o.state = .delivered := by rw [ho]; rfl
  have hpurged : sampleDelivered.state.tables.purged e = false := by
    have hpos := (Links.seq_of_mem (hledger.chain e.tenantID)
      (List.mem_filter.2 ⟨he, by simp⟩)).1
    have hboundary : (sampleDelivered.state.tables.boundaryOf e.tenantID).sequence = 0 := by
      rw [state_sampleDelivered]
      rfl
    simp only [AuditTables.purged, hboundary, decide_eq_false_iff_not]
    omega
  obtain ⟨r, hr, hstrip, -⟩ := hrow hdel hpurged
  exact ⟨r, hr, hstrip⟩

end FinnAuth.Audit
