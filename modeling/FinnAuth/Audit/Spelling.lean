import FinnAuth.Audit.Ledger

/-!
# One spelling for every tenant

The database compares a `tenant_id` under the collation of its column. The migrations name none, and
the default collation of MySQL takes `default` and `DEFAULT` for one id, while `verifyEvents`
compares texts. The transactions of this development take the collation from `Tenants`. This module
says when it does not matter: when no two ids of a run differ in their spelling only.

Results:
* `Tells`, `Names`: the columns tell the ids apart, and nothing names another id;
* `headOf_told`, `admitEvent_told`, `deliver_told` and the like: then a transaction does what it
  does in columns that compare texts;
* **`auditRun_told`**: a run is the same under every collation that tells its ids apart.
-/

namespace FinnAuth.Audit

open Lib

/-- The columns tell the ids apart: no two of them differ in their spelling only. -/
def Tenants.Tells (co : Tenants) (ids : String → Prop) : Prop :=
  ∀ s t, ids s → ids t → Tenants.same s t = true → s = t

section Names

variable {β ρ : Type} (ids : String → Prop)

/-- The body names such ids only. -/
def Body.Names : Body β ρ → Prop
  | .done _ => True
  | .sql _ next => ∀ r, (next r).Names
  | .record a next => ids a.ctx.tenant ∧ next.Names
  | .admitEvent a next => ids a.ctx.tenant ∧ ∀ r, (next r).Names
  | .anonymizeUser tenant _ _ next => ids tenant ∧ ∀ r, (next r).Names
  | .nested body _ next => body.Names ∧ ∀ r, (next r).Names

/-- The action names such ids only. -/
def Action.Names : Action β ρ → Prop
  | .operation body _ _ => body.Names ids
  | .admission a => ids a.ctx.tenant
  | .requeueDead tenant _ _ | .anonymizeUser tenant _ => ids tenant
  | .archive tid _ _ | .purgeArchive tid _ _ _ | .restoreArchive tid _ _ => ids tid
  | .claim _ _ | .deliver _ _ | .failClaim _ _ | .crash => True

/-- The tables hold such ids only. -/
structure AuditTables.Names (db : AuditTables) : Prop where
  heads : ∀ h ∈ db.heads.rows, ids h.tenantID
  outbox : ∀ o ∈ db.outbox.rows, ids o.tenantID
  boundaries : ∀ b ∈ db.boundaries.rows, ids b.tenantID
  logs : ∀ r ∈ db.logs.rows, ids r.tenantID

end Names

variable {co : Tenants} {ids : String → Prop} {db db' : AuditTables} {pl : Platform}
  {repo : AuditRepository}

/-! ## The transactions keep the ids -/

variable {t tid : String} {keys : Keys} {e : AuditLog}

namespace AuditTables.Names

variable {trusted : Checkpoint} {a : AuditArchive}

theorem headOf (h : db.Names ids) (ht : ids t) : ids (db.headOf t).tenantID := by
  unfold AuditTables.headOf
  cases hget : db.heads.first? fun h => Tenants.same h.tenantID t with
  | none => exact ht
  | some hd => exact h.heads hd (Table.mem_of_first? hget).1

theorem boundaryOf (h : db.Names ids) (ht : ids t) : ids (db.boundaryOf t).tenantID := by
  unfold AuditTables.boundaryOf
  cases hget : db.boundaries.first? fun b => Tenants.same b.tenantID t with
  | none => exact ht
  | some b => exact h.boundaries b (Table.mem_of_first? hget).1

theorem withLogs (h : db.Names ids) {logs : LogTable} (hlogs : ∀ r ∈ logs.rows, ids r.tenantID) :
    ({ db with logs := logs } : AuditTables).Names ids :=
  ⟨h.heads, h.outbox, h.boundaries, hlogs⟩

theorem setBoundary (h : db.Names ids) {b : AuditBoundary} (hb : ids b.tenantID) :
    (db.setBoundary b).Names ids :=
  ⟨h.heads, h.outbox, fun x hx => (Table.mem_put hx).elim (fun he => he ▸ hb) (h.boundaries x),
    h.logs⟩

theorem updateOutbox (h : db.Names ids) {p : AuditOutbox → Bool} {f : AuditOutbox → AuditOutbox}
    {hf : ∀ o, (f o).eventID = o.eventID} (hkeep : ∀ o, (f o).tenantID = o.tenantID) :
    (db.updateOutbox p f hf).Names ids := by
  refine ⟨h.heads, fun o ho => ?_, h.boundaries, h.logs⟩
  obtain ⟨x, hx, rfl⟩ := List.mem_map.1 ho
  split
  · rw [hkeep]
    exact h.outbox x hx
  · exact h.outbox x hx

theorem acknowledge (h : db.Names ids) (row : AuditOutbox) : (db.acknowledge row).Names ids := by
  refine updateOutbox ?_ fun _ => rfl
  refine ⟨fun x hx => ?_, h.outbox, h.boundaries, h.logs⟩
  obtain ⟨y, hy, rfl⟩ := List.mem_map.1 hx
  split <;> exact h.heads y hy

theorem admitEvent (h : db.Names ids) {a : Admission} (ha : ids a.ctx.tenant) {fresh : Nat}
    (hok : Audit.admitEvent pl repo a fresh db = .ok (e, db')) : db'.Names ids := by
  obtain ⟨c, payload, outbox, hc, rfl, -, -, hi, rfl⟩ := admitEvent_spec hok
  have ht : ids c.tenantID := by
    rw [(evidence_capture hc).2]
    exact ha
  refine ⟨fun x hx => ?_, fun o ho => ?_, h.boundaries, h.logs⟩
  · rcases Table.mem_put hx with rfl | hx
    · exact h.headOf ht
    · exact h.heads x hx
  · rcases (Table.mem_insert hi).1 ho with ho | rfl
    · exact h.outbox o ho
    · exact ht

theorem deliver (h : db.Names ids) {c : AuditOutbox} {now : Int}
    (hok : Audit.deliver pl repo c now db = .ok ((), db')) : db'.Names ids := by
  rcases deliver_ok hok with rfl | ⟨row, e, -, -, hd⟩
  · exact h
  obtain ⟨logs, rfl, hcreate | ⟨rfl, -⟩⟩ := hd.after
  · refine (h.withLogs fun r hr => ?_).acknowledge row
    rw [(LogTable.create_eq_some hcreate).2.1] at hr
    have he := hd.describes
    simp only [AuditOutbox.describes, Bool.and_eq_true, decide_eq_true_eq] at he
    rcases List.mem_append.1 hr with hr | hr
    · exact h.logs r hr
    · rw [List.mem_singleton.1 hr, he.1.1.1.2]
      exact h.outbox row hd.mem
  · exact h.acknowledge row

theorem anonymizeUser (h : db.Names ids) (tenant : String) (userID : Nat) :
    (Audit.anonymizeUser tenant userID db).Names ids := by
  refine h.withLogs fun r hr => ?_
  obtain ⟨x, hx, rfl⟩ := List.mem_map.1 hr
  split <;> exact h.logs x hx

theorem purgeArchive (h : db.Names ids) (ht : ids tid) {p : RetentionPolicy}
    (hok : Audit.purgeArchive pl keys tid p a trusted db = .ok ((), db')) : db'.Names ids := by
  rw [(purgeArchive_ok hok).after]
  exact (h.withLogs fun r hr => h.logs r (List.mem_filter.1 hr).1).setBoundary (h.boundaryOf ht)

theorem restoreArchive (h : db.Names ids) (ht : ids tid)
    (hok : Audit.restoreArchive pl keys tid a trusted db = .ok ((), db')) : db'.Names ids := by
  have hr := restoreArchive_ok hok
  obtain ⟨logs, hlogs, rfl⟩ := hr.after
  obtain ⟨new, hrows, hnew, -⟩ := restore_rows hlogs
  refine (h.withLogs fun r hr' => ?_).setBoundary (h.boundaryOf ht)
  rcases List.mem_append.1 (hrows ▸ hr') with hm | hm
  · exact h.logs r hm
  · obtain ⟨e, he, hstrip⟩ := List.mem_map.1 (hnew ▸ List.mem_map_of_mem hm)
    have htenant : r.tenantID = e.tenantID := (congrArg AuditLog.tenantID hstrip).symm
    rw [htenant, ((verifyEvents_iff.1 hr.archived).2.2.1 e he).tenantID]
    exact ht

end AuditTables.Names

theorem AuditTables.Fresh.names (h : db.Fresh) (hlogs : ∀ r ∈ db.logs.rows, ids r.tenantID) :
    db.Names ids := by
  refine ⟨?_, ?_, ?_, hlogs⟩ <;> intro x hx
  · rw [h.heads] at hx
    cases hx
  · rw [h.outbox] at hx
    cases hx
  · rw [h.boundaries] at hx
    cases hx

/-! ## Lookups -/

section Told

variable (htell : co.Tells ids)

include htell

theorem same_told {s t : String} (hs : ids s) (ht : ids t) :
    Tenants.same s t = @Tenants.same .binary s t := by
  rw [Tenants.same_eq]
  by_cases heq : s = t
  · subst heq
    rw [decide_eq_true rfl]
    exact co.column.refl s
  · rw [decide_eq_false heq]
    exact Bool.eq_false_iff.2 fun h => heq (htell s t hs ht h)

theorem any_told {α : Type} {id : α → String} {q : α → Bool} {l : List α} (hl : ∀ a ∈ l, ids (id a))
    (ht : ids t) : (l.any fun a => Tenants.same (id a) t && q a) =
      l.any fun a => @Tenants.same .binary (id a) t && q a := by
  rw [Bool.eq_iff_iff, List.any_eq_true, List.any_eq_true]
  exact exists_congr fun a => and_congr_right fun ha => by rw [same_told htell (hl a ha) ht]

theorem headOf_told (h : db.Names ids) (ht : ids t) :
    db.headOf t = @AuditTables.headOf .binary db t := by
  unfold AuditTables.headOf
  rw [Table.first?_congr fun x hx => same_told htell (h.heads x hx) ht]

theorem boundaryOf_told (h : db.Names ids) (ht : ids t) :
    db.boundaryOf t = @AuditTables.boundaryOf .binary db t := by
  unfold AuditTables.boundaryOf
  rw [Table.first?_congr fun x hx => same_told htell (h.boundaries x hx) ht]

theorem hot_told (h : db.Names ids) (ht : ids t) : db.hot t = @AuditTables.hot .binary db t :=
  List.filter_congr fun r hr => by rw [same_told htell (h.logs r hr) ht]

theorem receiptsOf_told (h : db.Names ids) (ht : ids t) :
    db.receiptsOf t = @AuditTables.receiptsOf .binary db t :=
  List.filter_congr fun o ho => by rw [same_told htell (h.outbox o ho) ht]

theorem range_told (h : db.Names ids) (ht : ids t) (lo hi : Nat) :
    db.range t lo hi = @AuditTables.range .binary db t lo hi := by
  unfold AuditTables.range
  rw [hot_told htell h ht]

/-! ## Transactions -/

theorem create_told {t : LogTable} (h : ∀ r ∈ t.rows, ids r.tenantID) (he : ids e.tenantID) :
    t.create e = @LogTable.create .binary t e := by
  unfold LogTable.create
  simp only [Bool.and_assoc]
  rw [any_told htell h he]

theorem acknowledge_told (h : db.Names ids) {row : AuditOutbox} (hrow : ids row.tenantID)
    (logs : LogTable) : { db with logs := logs }.acknowledge row =
      @AuditTables.acknowledge .binary { db with logs := logs } row := by
  unfold AuditTables.acknowledge
  rw [Table.update_congr fun x hx => by rw [same_told htell (h.heads x hx) hrow]]

theorem admitEvent_told (h : db.Names ids) {a : Admission} (ha : ids a.ctx.tenant) (fresh : Nat) :
    admitEvent pl repo a fresh db = @admitEvent .binary pl repo a fresh db := by
  unfold admitEvent
  cases hc : capture pl a.ctx a.capturedAt fresh a.entry with
  | none => rfl
  | some e =>
    have ht : ids e.tenantID := by
      rw [(evidence_capture hc).2]
      exact ha
    have henqueue : ∀ o : AuditOutbox, o.tenantID = e.tenantID →
        db.enqueue o = @AuditTables.enqueue .binary db o := by
      intro o ho
      unfold AuditTables.enqueue
      rw [any_told htell h.outbox (ho ▸ ht)]
    simp only [headOf_told htell h ht]
    split
    · rfl
    split
    · rfl
    split
    · rfl
    split
    · rfl
    rw [henqueue _ rfl]

theorem deliver_told (h : db.Names ids) (c : AuditOutbox) (now : Int) :
    deliver pl repo c now db = @deliver .binary pl repo c now db := by
  unfold deliver
  split
  · rfl
  rename_i row hrow
  have ht := h.outbox row ((db.outbox.get?_eq_some_iff).1 hrow).1
  split
  · rfl
  split
  · rfl
  split
  · rfl
  rename_i e _
  split
  · rfl
  rename_i hd
  split
  · rfl
  split
  · rw [← acknowledge_told htell h ht db.logs]
  simp only [AuditOutbox.describes, Bool.not_eq_true', Bool.not_eq_false, Bool.and_eq_true,
    decide_eq_true_eq] at hd
  rw [create_told htell h.logs (hd.1.1.1.2 ▸ ht)]
  simp only [acknowledge_told htell h ht]

theorem requeueDead_told (h : db.Names ids) {tenant : String} (ht : ids tenant) (id : String)
    (now : Int) : requeueDead tenant id now db = @requeueDead .binary tenant id now db := by
  have hdead : ∀ o ∈ db.outbox.rows,
      AuditOutbox.deadOf tenant id o = @AuditOutbox.deadOf .binary tenant id o := by
    intro o ho
    unfold AuditOutbox.deadOf
    rw [same_told htell (h.outbox o ho) ht]
  have hany : db.outbox.rows.any (AuditOutbox.deadOf tenant id) =
      db.outbox.rows.any (@AuditOutbox.deadOf .binary tenant id) := by
    rw [Bool.eq_iff_iff, List.any_eq_true, List.any_eq_true]
    exact exists_congr fun o => and_congr_right fun ho => by rw [hdead o ho]
  unfold requeueDead
  rw [hany]
  split
  · exact congrArg (fun x => Except.ok ((), { db with outbox := x })) (Table.update_congr hdead)
  · rfl

theorem anonymizeUser_told (h : db.Names ids) {tenant : String} (ht : ids tenant) (userID : Nat) :
    anonymizeUser tenant userID db = @anonymizeUser .binary tenant userID db := by
  have hrows : (anonymizeUser tenant userID db).logs.rows =
      (@anonymizeUser .binary tenant userID db).logs.rows :=
    List.map_congr_left fun r hr => by rw [same_told htell (h.logs r hr) ht]
  exact congrArg (fun x => { db with logs := x }) (LogTable.ext_rows hrows rfl)

theorem archive_told (h : db.Names ids) (ht : ids tid) (p : RetentionPolicy) (base : Checkpoint) :
    archive pl keys tid p base db = @archive .binary pl keys tid p base db := by
  unfold archive
  rw [hot_told htell h ht]

theorem purgeArchive_told (h : db.Names ids) (ht : ids tid) (p : RetentionPolicy) (a : AuditArchive)
    (trusted : Checkpoint) :
    purgeArchive pl keys tid p a trusted db = @purgeArchive .binary pl keys tid p a trusted db := by
  have hdelete : db.logs.delete (a.covers tid) =
      db.logs.delete (@AuditArchive.covers .binary tid a) := by
    refine LogTable.ext_rows (List.filter_congr fun r hr => ?_) rfl
    unfold AuditArchive.covers
    rw [same_told htell (h.logs r hr) ht]
  unfold purgeArchive
  rw [Table.first?_congr fun x hx => same_told htell (h.heads x hx) ht, boundaryOf_told htell h ht,
    range_told htell h ht, hdelete]

theorem verifyChain_told (h : db.Names ids) (ht : ids tid) (requested : String) :
    verifyChain pl keys tid requested db = @verifyChain .binary pl keys tid requested db := by
  unfold verifyChain verifyAgainst headCheckpoint
  rw [any_told htell h.logs ht, boundaryOf_told htell h ht, headOf_told htell h ht]
  simp only [range_told htell h ht]

theorem restore_told {t : LogTable} {events : List AuditLog} (h : ∀ r ∈ t.rows, ids r.tenantID)
    (he : ∀ e ∈ events, ids e.tenantID) :
    t.restore events = @LogTable.restore .binary t events := by
  induction events generalizing t with
  | nil => rfl
  | cons e events ih =>
    unfold LogTable.restore
    split
    · rfl
    rename_i n hn
    have hid : ids n.tenantID := by
      rw [normalize_ok hn]
      exact he e List.mem_cons_self
    rw [create_told htell h hid]
    split
    · rfl
    rename_i t' ht'
    refine ih (fun r hr => ?_) fun e hm => he e (List.mem_cons_of_mem _ hm)
    rw [(@LogTable.create_eq_some _ _ _ .binary ht').2.1] at hr
    rcases List.mem_append.1 hr with hr | hr
    · exact h r hr
    · rw [List.mem_singleton.1 hr]
      exact hid

theorem restoreArchive_told (h : db.Names ids) (ht : ids tid) (a : AuditArchive)
    (trusted : Checkpoint) :
    restoreArchive pl keys tid a trusted db = @restoreArchive .binary pl keys tid a trusted db := by
  unfold restoreArchive
  split
  · rfl
  split
  · rfl
  rename_i harch
  rw [Table.first?_congr fun x hx => same_told htell (h.heads x hx) ht,
    Table.first?_congr fun x hx => same_told htell (h.boundaries x hx) ht,
    restore_told htell h.logs fun e he => ((verifyEvents_iff.1 harch).2.2.1 e he).tenantID ▸ ht]

/-! ## Runs -/

variable (pl repo) {β ρ : Type}

theorem run_told (body : Body β ρ) (hbody : body.Names ids) {t : Transaction β}
    (ht : t.tables.Names ids) : body.run pl repo t = @Body.run .binary β ρ pl repo body t ∧
      (body.run pl repo t).2.tables.Names ids := by
  have hadmit : ∀ {t : Transaction β} {a : Admission}, t.tables.Names ids → ids a.ctx.tenant →
      t.admitEvent pl repo a = @Transaction.admitEvent .binary β pl repo t a ∧
        (t.admitEvent pl repo a).2.tables.Names ids := by
    intro t a ht ha
    unfold Transaction.admitEvent
    rw [← admitEvent_told htell ht ha]
    refine ⟨rfl, ?_⟩
    split
    · exact ht
    · rename_i hok
      exact ht.admitEvent ha hok
  induction body generalizing t with
  | done => exact ⟨rfl, ht⟩
  | sql f next ih =>
    unfold Body.run
    split
    · exact ih _ (hbody _) ht
    · exact ih _ (hbody _) ht
  | record a next ih =>
    have hrecord : t.record pl repo a = @Transaction.record .binary β pl repo t a ∧
        (t.record pl repo a).tables.Names ids := by
      obtain ⟨heq, hn⟩ := hadmit ht hbody.1
      unfold Transaction.record
      rw [← heq]
      refine ⟨rfl, ?_⟩
      split <;> rename_i hadm <;> rw [hadm] at hn <;> exact hn
    unfold Body.run
    rw [← hrecord.1]
    exact ih hbody.2 hrecord.2
  | admitEvent a next ih =>
    obtain ⟨heq, hn⟩ := hadmit ht hbody.1
    unfold Body.run
    rw [← heq]
    exact ih _ (hbody.2 _) hn
  | anonymizeUser tenant userID fault next ih =>
    unfold Body.run
    split
    · exact ih _ (hbody.2 _) ht
    · rw [← anonymizeUser_told htell ht hbody.1]
      exact ih _ (hbody.2 _) (ht.anonymizeUser tenant userID)
  | nested body denial next ihb ih =>
    obtain ⟨heq, hn⟩ := ihb hbody.1 ht
    unfold Body.run
    rw [← heq]
    exact ih _ (hbody.2 _) hn

variable (maxPending : Nat)

/-- **A step is the same under every collation that tells the ids apart.** -/
theorem perform_told {s : Store β} (hs : s.tables.Names ids) (step : AuditStep β ρ)
    (hstep : step.action.Names ids) :
    perform pl maxPending step s = @perform .binary β ρ pl maxPending step s ∧
      (perform pl maxPending step s).2.tables.Names ids := by
  obtain ⟨keys, action⟩ := step
  cases action with
  | operation body =>
    obtain ⟨heq, hn⟩ := run_told pl ⟨keys, maxPending⟩ htell body hstep (t := s.begin) hs
    simp only [perform, operate]
    rw [← heq]
    refine ⟨rfl, ?_⟩
    split
    · exact hs
    · exact hn
  | admission a =>
    simp only [perform]
    rw [← admitEvent_told htell hs hstep]
    refine ⟨rfl, ?_⟩
    split
    · rename_i hok
      exact hs.admitEvent hstep hok
    · exact hs
  | claim now locked =>
    refine ⟨rfl, ?_⟩
    change (claim now locked (pl.uuid s.fresh) s.tables).2.Names ids
    rcases claim_snd s.tables now locked (pl.uuid s.fresh) with h | ⟨row, -, h⟩
    · rw [h]
      exact hs
    · rw [h]
      exact hs.updateOutbox fun _ => rfl
  | deliver =>
    simp only [perform, Store.commit]
    rw [← deliver_told htell hs]
    refine ⟨rfl, ?_⟩
    split
    · rename_i hok
      exact hs.deliver hok
    · exact hs
  | failClaim => exact ⟨rfl, hs.updateOutbox fun _ => rfl⟩
  | requeueDead =>
    simp only [perform, Store.commit]
    rw [← requeueDead_told htell hs hstep]
    refine ⟨rfl, ?_⟩
    unfold requeueDead
    split
    · rename_i hok
      split at hok
      · cases hok
        exact hs.updateOutbox fun _ => rfl
      · cases hok
    · exact hs
  | archive =>
    simp only [perform]
    rw [← archive_told htell hs hstep]
    refine ⟨rfl, ?_⟩
    split <;> exact hs
  | purgeArchive =>
    simp only [perform, Store.commit]
    rw [← purgeArchive_told htell hs hstep]
    refine ⟨rfl, ?_⟩
    split
    · rename_i hok
      exact hs.purgeArchive hstep hok
    · exact hs
  | restoreArchive =>
    simp only [perform]
    rw [← restoreArchive_told htell hs hstep]
    refine ⟨rfl, ?_⟩
    split
    · rename_i hok
      exact hs.restoreArchive hstep hok
    · exact hs
  | anonymizeUser tenant userID =>
    simp only [perform]
    rw [← anonymizeUser_told htell hs hstep]
    exact ⟨rfl, hs.anonymizeUser tenant userID⟩
  | crash => exact ⟨rfl, hs⟩

/-- **A run is the same under every collation that tells its ids apart.** -/
theorem auditRun_told {s₀ : Store β} (hs₀ : s₀.tables.Names ids) {steps : List (AuditStep β ρ)}
    (hsteps : ∀ s ∈ steps, s.action.Names ids) :
    auditRun pl maxPending s₀ steps = @auditRun .binary β ρ pl maxPending s₀ steps ∧
      (auditRun pl maxPending s₀ steps).state.tables.Names ids := by
  unfold auditRun
  generalize hr : (Run.init s₀ : AuditRun β ρ) = r
  have hn : r.state.tables.Names ids := hr ▸ hs₀
  clear hr
  induction steps generalizing r with
  | nil => exact ⟨rfl, hn⟩
  | cons s steps ih =>
    obtain ⟨heq, hnext⟩ := perform_told pl htell maxPending hn s (hsteps s List.mem_cons_self)
    have hstep : r.step (perform pl maxPending) s =
        r.step (@perform .binary β ρ pl maxPending) s := by
      unfold Run.step
      rw [heq]
    unfold Run.exec
    rw [← hstep]
    exact ih (fun x hx => hsteps x (List.mem_cons_of_mem _ hx)) _ hnext

end Told

end FinnAuth.Audit
