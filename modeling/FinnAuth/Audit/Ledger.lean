import FinnAuth.Audit.Changes
import FinnAuth.Audit.Tamper
import FinnAuth.Lib.Run

/-!
# Runs of the audit log

Any number of processes, each with its own key ring, run operations, admit events, claim, deliver
and give back rows, archive, purge, restore and erase, in any order; a transaction that is lost in a
crash leaves nothing. What a worker does between its calls, and how its clock runs, is up to the
run.

The history of a run names the events that were committed, and the outbox is the list of their
receipts, in the same order.

Results:
* **`ledgered_run`**: in every state the outbox rows are the receipts of the committed events, and
  the events of a tenant form a chain that ends at its head;
* **`backlog_exact`**: the pending count of a head is the number of rows that are not delivered.
-/

namespace FinnAuth.Audit

open Lib

/-! ## Runs -/

/-- What a process can do next. -/
inductive Action (β ρ : Type) : Type where
  | operation (body : Body β ρ) (denial : Err → Bool) (commitFails : Bool)
  /-- `Admit` outside an operation -/
  | admission (a : Admission)
  | claim (now : Int) (locked : String → Bool)
  | deliver (claim : AuditOutbox) (now : Int)
  | failClaim (claim : AuditOutbox) (now : Int)
  | requeueDead (tenant id : String) (now : Int)
  | archive (tid : String) (p : RetentionPolicy) (base : Checkpoint)
  | purgeArchive (tid : String) (p : RetentionPolicy) (a : AuditArchive) (trusted : Checkpoint)
  | restoreArchive (tid : String) (a : AuditArchive) (trusted : Checkpoint)
  | anonymizeUser (tenant : String) (userID : Nat)
  /-- a transaction is lost -/
  | crash

/-- One step: a process with this ring acts. -/
structure AuditStep (β ρ : Type) where
  keys : Keys
  action : Action β ρ

/-- What came of a step: the result, the events committed and restored, the claim or the archive it
returned. -/
structure AuditReply where
  result : Except Err Unit
  admitted : List AuditLog := []
  restored : List AuditLog := []
  claimed : Option AuditOutbox := none
  archived : Option AuditArchive := none

section Runs

variable [Tenants] {β ρ : Type} (pl : Platform) (maxPending : Nat)

/-- The tables after a transaction. -/
def Store.commit (s : Store β) (t : Tx Unit) : Except Err Unit × Store β :=
  match t s.tables with
  | .ok (_, tables) => (.ok (), { s with tables := tables })
  | .error e => (.error e, s)

/-- The step and the database after it. -/
def perform (step : AuditStep β ρ) (s : Store β) : AuditReply × Store β :=
  let repo : AuditRepository := ⟨step.keys, maxPending⟩
  match step.action with
  | .operation body denial commitFails =>
    let out := operate pl repo body denial commitFails s
    ({ result := out.1, admitted := out.2.2.getD [] }, out.2.1)
  | .admission a =>
    match admitEvent pl repo a s.fresh s.tables with
    | .ok (e, tables) =>
      ({ result := .ok (), admitted := [e] }, { s with tables := tables, fresh := s.fresh + 2 })
    | .error e => ({ result := .error e }, { s with fresh := s.fresh + 2 })
  | .claim now locked =>
    let out := claim now locked (pl.uuid s.fresh) s.tables
    ({ result := .ok (), claimed := out.1 }, { s with tables := out.2, fresh := s.fresh + 1 })
  | .deliver c now =>
    ({ result := (s.commit (deliver pl repo c now)).1 }, (s.commit (deliver pl repo c now)).2)
  | .failClaim c now => ({ result := .ok () }, { s with tables := failClaim c now s.tables })
  | .requeueDead tenant id now =>
    ({ result := (s.commit (requeueDead tenant id now)).1 },
      (s.commit (requeueDead tenant id now)).2)
  | .archive tid p base =>
    match archive pl step.keys tid p base s.tables with
    | .ok a => ({ result := .ok (), archived := some a }, s)
    | .error e => ({ result := .error e }, s)
  | .purgeArchive tid p a trusted =>
    let out := s.commit (purgeArchive pl step.keys tid p a trusted)
    ({ result := out.1 }, out.2)
  | .restoreArchive tid a trusted =>
    match restoreArchive pl step.keys tid a trusted s.tables with
    | .ok (_, tables) =>
      ({ result := .ok (), restored := a.events.map AuditLog.archived },
        { s with tables := tables })
    | .error e => ({ result := .error e }, s)
  | .anonymizeUser tenant userID =>
    ({ result := .ok () }, { s with tables := anonymizeUser tenant userID s.tables })
  | .crash => ({ result := .error .db }, s)

/-- A run of the audit log. -/
abbrev AuditRun (β ρ : Type) := Run (Store β) (AuditStep β ρ) AuditReply

/-- The run of the steps from a database. -/
def auditRun (s : Store β) (steps : List (AuditStep β ρ)) : AuditRun β ρ :=
  (Run.init s : AuditRun β ρ).exec (perform pl maxPending) steps

end Runs

/-- The events a run has committed, the oldest first. -/
def committed {β ρ : Type} (r : AuditRun β ρ) : List AuditLog :=
  r.hist.reverse.flatMap (·.reply.admitted)

/-- The events a run has restored from archives. -/
def restored {β ρ : Type} (r : AuditRun β ρ) : List AuditLog :=
  r.hist.reverse.flatMap (·.reply.restored)

/-- A database before the first event: rows from before the durable log at most. -/
structure AuditTables.Fresh (db : AuditTables) : Prop where
  heads : db.heads.rows = []
  outbox : db.outbox.rows = []
  boundaries : db.boundaries.rows = []
  logs : ∀ r ∈ db.logs.rows, r.version = 0 ∧ r.eventID = "" ∧ r.sequence = none

variable {β ρ : Type} {pl : Platform} {maxPending : Nat} {db db' : AuditTables}
  {log : List AuditLog} {o o' : AuditOutbox} {e : AuditLog} {repo : AuditRepository} {s₀ : Store β}
  {rows : List AuditOutbox}

theorem committed_step (r : AuditRun β ρ) (s : AuditStep β ρ) :
    committed (r.step (perform pl maxPending) s) =
      committed r ++ (perform pl maxPending s r.state).1.admitted := by
  simp [committed, Run.step, List.flatMap_append]

theorem restored_step (r : AuditRun β ρ) (s : AuditStep β ρ) :
    restored (r.step (perform pl maxPending) s) =
      restored r ++ (perform pl maxPending s r.state).1.restored := by
  simp [restored, Run.step, List.flatMap_append]

theorem auditRun_append (s₀ : Store β) (before after : List (AuditStep β ρ)) (s : AuditStep β ρ) :
    auditRun pl maxPending s₀ (before ++ s :: after) =
      ((auditRun pl maxPending s₀ before).step (perform pl maxPending) s).exec
        (perform pl maxPending) after :=
  Run.exec_append before (s :: after) _

/-! ## A step makes changes -/

section Steps

variable {repo : AuditRepository} {s : Store β}

theorem commit_changes {t : Tx Unit}
    (h : ∀ db', t s.tables = .ok ((), db') → Changes pl repo s.tables [] [] db') :
    Changes pl repo s.tables [] [] (s.commit t).2.tables := by
  unfold Store.commit
  split
  · rename_i a tables ht
    exact h tables ht
  · exact .refl _

theorem operate_changes (body : Body β ρ) (denial : Err → Bool) (commitFails : Bool) :
    Changes pl repo s.tables ((operate pl repo body denial commitFails s).2.2.getD []) []
      (operate pl repo body denial commitFails s).2.1.tables := by
  have hgrows : Grows pl repo s.begin (body.run pl repo s.begin).2 := run_changes body s.begin
  obtain ⟨ms, hms, hc⟩ := hgrows
  unfold operate
  simp only
  split
  · exact .refl _
  · have hmarks : (body.run pl repo s.begin).2.marks = ms := by rw [hms]; rfl
    rw [Option.getD_some, hmarks]
    exact hc

/-- **Every step makes a sequence of changes**, with the events its reply names. -/
theorem perform_changes (step : AuditStep β ρ) (s : Store β) :
    Changes pl ⟨step.keys, maxPending⟩ s.tables (perform pl maxPending step s).1.admitted
      (perform pl maxPending step s).1.restored (perform pl maxPending step s).2.tables := by
  obtain ⟨keys, action⟩ := step
  cases action with
  | operation body denial commitFails => exact operate_changes body denial commitFails
  | admission a =>
    simp only [perform]
    split
    · rename_i e tables h
      exact (Change.admission (admitEvent_ok h)).changes
    · exact .refl _
  | claim now locked => exact (Change.requeue (claim_change now locked _)).changes
  | deliver => exact commit_changes fun _ h => deliver_changes h
  | failClaim c now => exact (Change.requeue (failClaim_change c now)).changes
  | requeueDead => exact commit_changes fun _ h => (Change.requeue (requeueDead_change h)).changes
  | archive =>
    simp only [perform]
    split <;> exact .refl _
  | purgeArchive => exact commit_changes fun _ h => (Change.purge (purgeArchive_ok h)).changes
  | restoreArchive =>
    simp only [perform]
    split
    · rename_i u tables h
      exact (Change.restore (restoreArchive_ok h)).changes
    · exact .refl _
  | anonymizeUser tenant userID => exact (Change.anonymize _ tenant userID).changes
  | crash => exact .refl _

end Steps

/-- **What every change keeps holds in every run.** -/
theorem run_induct {I : AuditTables → List AuditLog → List AuditLog → Prop}
    (hI : ∀ {repo : AuditRepository} {db db' es rs log old}, repo.maxPending = maxPending →
      Change pl repo db es rs db' → I db log old → I db' (log ++ es) (old ++ rs))
    (h₀ : I s₀.tables [] []) (steps : List (AuditStep β ρ)) :
    I (auditRun pl maxPending s₀ steps).state.tables (committed (auditRun pl maxPending s₀ steps))
      (restored (auditRun pl maxPending s₀ steps)) :=
  Run.exec_induct (I := fun r : AuditRun β ρ => I r.state.tables (committed r) (restored r))
    (fun r s h => by
      rw [committed_step, restored_step]
      exact (perform_changes s r.state).induct (hI rfl) h)
    steps h₀

/-! ## Receipts and the chain -/

/-- The outbox row is the receipt of the event; until it is delivered it holds the event too. -/
structure Receipt (pl : Platform) (e : AuditLog) (o : AuditOutbox) : Prop where
  eventID : o.eventID = e.eventID
  tenantID : o.tenantID = e.tenantID
  sequence : e.sequence = some o.sequence
  hash : o.hash = e.recordHash
  keyID : o.keyID = e.keyID
  payload : o.state ≠ .delivered → marshal pl e = some o.payload

/-- The events of a tenant. -/
def ofTenant (t : String) (log : List AuditLog) : List AuditLog := log.filter (·.tenantID = t)

/-- The outbox rows are the receipts of the events, and the events of every tenant form a chain from
the genesis hash to its head. -/
structure Ledgered (pl : Platform) (db : AuditTables) (log : List AuditLog) : Prop where
  evidence : ∀ e ∈ log, Evidence e
  receipts : List.Forall₂ (Receipt pl) log db.outbox.rows
  chain : ∀ t, links.Leads (0, genesisAuditHash) (ofTenant t log)
    ((db.headOf t).sequence, (db.headOf t).hash)

theorem Receipt.keeps (h : Receipt pl e o) (hk : o.Keeps o') : Receipt pl e o' where
  eventID := hk.eventID.trans h.eventID
  tenantID := hk.tenantID.trans h.tenantID
  sequence := by rw [hk.sequence]; exact h.sequence
  hash := hk.hash.trans h.hash
  keyID := hk.keyID.trans h.keyID
  payload hs := by rw [hk.payload]; exact h.payload (mt hk.state.2 hs)

theorem Receipt.describes (h : Receipt pl e o) : o.describes e = true := by
  simp [AuditOutbox.describes, h.eventID, h.tenantID, h.sequence, h.hash, h.keyID]

theorem Receipt.acknowledged (h : Receipt pl e o) : Receipt pl e o.acknowledged :=
  ⟨h.eventID, h.tenantID, h.sequence, h.hash, h.keyID, fun hs => absurd rfl hs⟩

theorem receipt_queued {payload : String} {now : Int} {n : Nat} (hseq : e.sequence = some n)
    (h : marshal pl e = some payload) : Receipt pl e (e.queued payload now) :=
  ⟨rfl, rfl, by rw [hseq]; simp [AuditLog.queued, hseq], rfl, rfl, fun _ => h⟩

/-- The head of a tenant depends on the heads only. -/
theorem headOf_congr (h : db'.heads = db.heads) (t : String) : db'.headOf t = db.headOf t := by
  rw [AuditTables.headOf, AuditTables.headOf, h]

theorem headOf_acknowledge (db : AuditTables) (row : AuditOutbox) (t : String) :
    (db.acknowledge row).headOf t = ⟨t, (db.headOf t).sequence, (db.headOf t).hash,
      if t = row.tenantID then (db.headOf t).pending - 1 else (db.headOf t).pending⟩ := by
  have hget : (db.acknowledge row).heads.get? t = (db.heads.get? t).map fun h =>
      if h.tenantID = row.tenantID && h.pending > 0 then { h with pending := h.pending - 1 }
      else h :=
    Table.get?_update db.heads _ (fun h => { h with pending := h.pending - 1 }) (fun _ => rfl) t
  rw [headOf_eq, headOf_eq, hget]
  cases hh : db.heads.get? t with
  | none => simp
  | some h =>
    obtain ⟨tenantID, sequence, hash, pending⟩ := h
    obtain rfl : tenantID = t := ((db.heads.get?_eq_some_iff).1 hh).2
    by_cases hrow : tenantID = row.tenantID
    · cases pending <;> simp [hrow]
    · simp [hrow]

theorem Ledgered.same (h : Ledgered pl db log) (hout : db'.outbox = db.outbox)
    (hheads : db'.heads = db.heads) : Ledgered pl db' log where
  evidence := h.evidence
  receipts := by rw [hout]; exact h.receipts
  chain t := by rw [headOf_congr hheads]; exact h.chain t

theorem ledgered_change {es rs log : List AuditLog} (hc : Change pl repo db es rs db')
    (h : Ledgered pl db log) : Ledgered pl db' (log ++ es) := by
  cases hc with
  | admission ha =>
    rename_i e
    obtain ⟨payload, now, hpayload, hrows⟩ := ha.outbox
    refine ⟨?_, ?_, fun t => ?_⟩
    · intro x hx
      rcases List.mem_append.1 hx with hx | hx
      · exact h.evidence x hx
      · rw [List.mem_singleton.1 hx]
        exact ha.evidence
    · rw [hrows]
      exact List.rel_append h.receipts (.cons (receipt_queued ha.sequence hpayload) .nil)
    · rw [ha.heads, ofTenant, List.filter_append]
      by_cases ht : e.tenantID = t
      · -- the event goes to the end of the chain
        subst ht
        rw [if_pos rfl]
        have hfilter : [e].filter (fun x => x.tenantID = e.tenantID) = [e] := by simp
        rw [hfilter]
        refine Links.leads_concat.2 ⟨_, h.chain e.tenantID, ?_, ha.prevHash, rfl⟩
        change e.sequence.getD 0 = _
        rw [ha.sequence]
        rfl
      · have hfilter : [e].filter (fun x => x.tenantID = t) = [] := by simp [ht]
        rw [if_neg ht, hfilter, List.append_nil]
        exact h.chain t
  | requeue hq =>
    rw [List.append_nil]
    exact ⟨h.evidence, hq.outbox.forall₂ (fun hr hk => hr.keeps hk) h.receipts,
      fun t => by rw [headOf_congr hq.heads]; exact h.chain t⟩
  | deliver hd =>
    rename_i row e
    obtain ⟨logs, rfl, -⟩ := hd.after
    rw [List.append_nil]
    refine ⟨h.evidence, ?_, fun t => ?_⟩
    · have hmoves : db.outbox.Moves (Table.Once AuditOutbox.acknowledged)
          ({ db with logs := logs }.acknowledge row).outbox :=
        Table.moves_of_rows (t := db.outbox) rfl (fun _ => .inl rfl) fun _ _ _ => .inr rfl
      refine hmoves.forall₂ (fun hr hab => ?_) h.receipts
      rcases hab with rfl | rfl
      · exact hr
      · exact hr.acknowledged
    · rw [headOf_acknowledge]
      exact h.chain t
  | purge hp =>
    rw [List.append_nil, hp.after]
    exact h.same rfl rfl
  | restore hr =>
    obtain ⟨logs, -, rfl⟩ := hr.after
    rw [List.append_nil]
    exact h.same rfl rfl
  | anonymize =>
    rw [List.append_nil]
    exact h.same rfl rfl

theorem headOf_fresh (h : db.Fresh) (t : String) : db.headOf t = ⟨t, 0, genesisAuditHash, 0⟩ := by
  have hnone : db.heads.get? t = none := by
    rw [Table.get?_eq_none_iff]
    simp [h.heads]
  rw [headOf_eq, hnone]
  rfl

theorem ledgered_fresh (h : db.Fresh) : Ledgered pl db [] where
  evidence e he := by cases he
  receipts := by rw [h.outbox]; exact .nil
  chain t := by rw [headOf_fresh h]; rfl

/-- **In every state the outbox rows are the receipts of the committed events**, which form a chain
for every tenant. -/
theorem ledgered_run (h₀ : s₀.tables.Fresh) (steps : List (AuditStep β ρ)) :
    Ledgered pl (auditRun pl maxPending s₀ steps).state.tables
      (committed (auditRun pl maxPending s₀ steps)) :=
  run_induct (I := fun db log _ => Ledgered pl db log) (fun _ hc h => ledgered_change hc h)
    (ledgered_fresh h₀) steps

/-! ## The backlog -/

/-- The row of the tenant is not delivered. -/
def AuditOutbox.waits (t : String) (o : AuditOutbox) : Bool :=
  o.tenantID = t && o.state ≠ .delivered

/-- The number of events of a tenant that are not delivered. -/
def AuditTables.undelivered (db : AuditTables) (t : String) : Nat :=
  db.outbox.rows.countP (AuditOutbox.waits t)

/-- The heads count the rows that are not delivered, up to the capacity. -/
structure Counted (maxPending : Nat) (db : AuditTables) : Prop where
  pending : ∀ t, (db.headOf t).pending = db.undelivered t
  bounded : ∀ t, (db.headOf t).pending ≤ maxPending

theorem Counted.same (h : Counted maxPending db) (hout : db'.outbox = db.outbox)
    (hheads : db'.heads = db.heads) : Counted maxPending db' where
  pending t := by rw [headOf_congr hheads, AuditTables.undelivered, hout]; exact h.pending t
  bounded t := by rw [headOf_congr hheads]; exact h.bounded t

theorem waits_keeps (t : String) (h : o.Keeps o') : o'.waits t = o.waits t := by
  have hstate : decide (o'.state = .delivered) = decide (o.state = .delivered) :=
    decide_eq_decide.2 h.state
  simp [AuditOutbox.waits, h.tenantID, hstate]

/-- A delivery takes its row off the count of its tenant. -/
theorem undelivered_acknowledge {row : AuditOutbox} (logs : LogTable) (hmem : row ∈ db.outbox.rows)
    (hstate : row.state = .leased) (t : String) :
    ({ db with logs := logs }.acknowledge row).undelivered t + (if t = row.tenantID then 1 else 0) =
      db.undelivered t := by
  have hcount := Table.countP_modify (AuditOutbox.waits t)
    AuditOutbox.acknowledged row.eventID db.outbox.rows db.outbox.nodup row hmem rfl
  have hrow : row.waits t = decide (t = row.tenantID) := by
    simp [AuditOutbox.waits, hstate, eq_comm]
  have hack : row.acknowledged.waits t = false := by
    simp [AuditOutbox.waits, AuditOutbox.acknowledged]
  rw [hrow, hack] at hcount
  simp only [decide_eq_true_eq, Bool.false_eq_true, if_false, Nat.add_zero] at hcount
  rw [← AuditTables.undelivered.eq_1 db t] at hcount
  rw [← hcount]
  congr 1
  unfold AuditTables.undelivered AuditTables.acknowledge AuditTables.updateOutbox Table.update
  simp only [decide_eq_true_eq]

theorem counted_change {es rs : List AuditLog} (hc : Change pl repo db es rs db')
    (h : Counted repo.maxPending db) : Counted repo.maxPending db' := by
  cases hc with
  | admission ha =>
    rename_i e
    obtain ⟨payload, now, -, hrows⟩ := ha.outbox
    have hcount : ∀ t, db'.undelivered t = db.undelivered t + if e.tenantID = t then 1 else 0 := by
      intro t
      rw [AuditTables.undelivered, hrows, List.countP_append, List.countP_singleton]
      by_cases ht : e.tenantID = t
      · simp [AuditTables.undelivered, AuditOutbox.waits, AuditLog.queued, ht]
      · simp [AuditTables.undelivered, AuditOutbox.waits, AuditLog.queued, ht]
    constructor
    · intro t
      rw [hcount, ha.heads, ← h.pending t]
      split <;> rfl
    · intro t
      rw [ha.heads]
      split
      · rename_i ht
        subst ht
        exact ha.capacity
      · exact h.bounded t
  | requeue hq =>
    refine ⟨fun t => ?_, fun t => ?_⟩
    · rw [headOf_congr hq.heads, h.pending t]
      exact (hq.outbox.countP fun hk => waits_keeps t hk).symm
    · rw [headOf_congr hq.heads]
      exact h.bounded t
  | deliver hd =>
    rename_i row e
    obtain ⟨logs, rfl, -⟩ := hd.after
    have hcount := undelivered_acknowledge logs hd.mem hd.state
    have hhead : ∀ t, ({ db with logs := logs } : AuditTables).headOf t = db.headOf t :=
      headOf_congr rfl
    constructor
    · intro t
      have hc := hcount t
      have hp := h.pending t
      rw [headOf_acknowledge, hhead]
      simp only
      split
      · rename_i ht
        rw [if_pos ht] at hc
        omega
      · rename_i ht
        rw [if_neg ht] at hc
        omega
    · intro t
      have hb := h.bounded t
      rw [headOf_acknowledge, hhead]
      simp only
      split <;> omega
  | purge hp =>
    rw [hp.after]
    exact h.same rfl rfl
  | restore hr =>
    obtain ⟨logs, -, rfl⟩ := hr.after
    exact h.same rfl rfl
  | anonymize => exact h.same rfl rfl

theorem counted_fresh (h : db.Fresh) : Counted maxPending db where
  pending t := by rw [headOf_fresh h, AuditTables.undelivered, h.outbox]; rfl
  bounded t := by rw [headOf_fresh h]; exact Nat.zero_le _

theorem counted_run (h₀ : s₀.tables.Fresh) (steps : List (AuditStep β ρ)) :
    Counted maxPending (auditRun pl maxPending s₀ steps).state.tables :=
  run_induct (I := fun db _ _ => Counted maxPending db)
    (fun hmax hc h => by subst hmax; exact counted_change hc h) (counted_fresh h₀) steps

/-- Every row is the receipt of an event. -/
theorem exists_receipt (h : List.Forall₂ (Receipt pl) log rows) (ho : o ∈ rows) :
    ∃ e ∈ log, Receipt pl e o :=
  Table.exists_of_forall₂ (Q := flip (Receipt pl)) h.flip ho

/-- Every event has its row. -/
theorem exists_row (h : List.Forall₂ (Receipt pl) log rows) (he : e ∈ log) :
    ∃ o ∈ rows, Receipt pl e o :=
  Table.exists_of_forall₂ h he

/-- Nothing but the capacity can stop the admission: the entry is accepted as `e`, its id is new, it
has a payload and no statement fails. -/
structure Admission.Sound (pl : Platform) (repo : AuditRepository) (a : Admission) (fresh : Nat)
    (e : AuditLog) (db : AuditTables) : Prop where
  captured : capture pl a.ctx a.capturedAt fresh a.entry = some e
  unused : db.outbox.get? e.eventID = none
  payload : (marshal pl (repo.chain pl (db.headOf e.tenantID) e)).isSome
  fault : a.fault = none

/-- The number after the head is free: the rows have the numbers up to it. -/
theorem Ledgered.sequence_le (h : Ledgered pl db log) (ho : o ∈ db.outbox.rows) :
    o.sequence ≤ (db.headOf o.tenantID).sequence := by
  obtain ⟨e, he, hr⟩ := exists_receipt h.receipts ho
  have hmem : e ∈ ofTenant o.tenantID log := List.mem_filter.2 ⟨he, by simp [hr.tenantID]⟩
  have hseq := (Links.seq_of_mem (h.chain o.tenantID) hmem).2
  simpa [links, hr.sequence] using hseq

theorem enqueue_isSome (hid : db.outbox.get? o.eventID = none)
    (hseq : ∀ p ∈ db.outbox.rows, p.tenantID = o.tenantID → p.sequence ≠ o.sequence) :
    ∃ db', db.enqueue o = some db' := by
  have hfree : o.eventID ∉ db.outbox.rows.map AuditOutbox.eventID := by
    intro hmem
    obtain ⟨p, hp, hpid⟩ := List.mem_map.1 hmem
    exact (db.outbox.get?_eq_none_iff).1 hid p hp hpid
  obtain ⟨outbox, hi, -⟩ := Table.insert_of_fresh (t := db.outbox) hfree
  have hnone : ¬ (db.outbox.rows.any fun p => Tenants.same p.tenantID o.tenantID &&
      p.sequence = o.sequence) := by
    intro hany
    obtain ⟨p, hp, hsame⟩ := List.any_eq_true.1 hany
    simp only [Tenants.same_eq, Bool.and_eq_true, decide_eq_true_eq] at hsame
    exact hseq p hp hsame.1 hsame.2
  unfold AuditTables.enqueue
  rw [if_neg hnone, hi]
  exact ⟨_, rfl⟩

/-- An admission that nothing else stops fails if and only if the head is at the capacity. -/
theorem admitEvent_error_iff {a : Admission} {fresh : Nat} (h : Ledgered pl db log)
    (ha : a.Sound pl repo fresh e db) : (∃ err, admitEvent pl repo a fresh db = .error err) ↔
      repo.maxPending ≤ (db.headOf e.tenantID).pending := by
  obtain ⟨payload, hpayload⟩ := Option.isSome_iff_exists.1 ha.payload
  unfold admitEvent
  rw [ha.captured]
  simp only [ha.fault, ha.unused, Option.isSome_none, Bool.false_eq_true, if_false, reduceCtorEq,
    hpayload]
  split
  · rename_i hcap
    exact iff_of_true ⟨_, rfl⟩ hcap
  · rename_i hcap
    obtain ⟨db', hq⟩ := enqueue_isSome
      (o := (repo.chain pl (db.headOf e.tenantID) e).queued payload a.queuedAt) ha.unused (by
        intro p hp ht hs
        have hle := h.sequence_le hp
        rw [hs, show p.tenantID = e.tenantID from ht] at hle
        change (db.headOf e.tenantID).sequence + 1 ≤ (db.headOf e.tenantID).sequence at hle
        omega)
    rw [hq]
    refine iff_of_false ?_ hcap
    rintro ⟨err, herr⟩
    cases herr

/-- **The backlog is counted exactly.** In every state the pending count of a head is the number of
events of the tenant that are not delivered, at most the capacity, and an admission that nothing
else stops fails if and only if as many events as the capacity allows are not delivered. -/
theorem backlog_exact {s₀ : Store β} (h₀ : s₀.tables.Fresh) (steps : List (AuditStep β ρ))
    (t : String) :
    ((auditRun pl maxPending s₀ steps).state.tables.headOf t).pending =
        (auditRun pl maxPending s₀ steps).state.tables.undelivered t ∧
      ((auditRun pl maxPending s₀ steps).state.tables.headOf t).pending ≤ maxPending ∧
      ∀ keys a fresh e, a.Sound pl ⟨keys, maxPending⟩ fresh e
          (auditRun pl maxPending s₀ steps).state.tables → e.tenantID = t →
        ((∃ err, admitEvent pl ⟨keys, maxPending⟩ a fresh
            (auditRun pl maxPending s₀ steps).state.tables = .error err) ↔
          (auditRun pl maxPending s₀ steps).state.tables.undelivered t = maxPending) := by
  have hcount : Counted maxPending (auditRun pl maxPending s₀ steps).state.tables :=
    counted_run h₀ steps
  have hledger : Ledgered pl (auditRun pl maxPending s₀ steps).state.tables _ :=
    ledgered_run h₀ steps
  have hpending := hcount.pending t
  have hbounded := hcount.bounded t
  refine ⟨hpending, hbounded, fun keys a fresh e ha ht => ?_⟩
  rw [admitEvent_error_iff hledger ha, ht, hpending]
  change maxPending ≤ _ ↔ _
  omega

/-- A database without rows. -/
def Store.sample : Store Unit where
  biz := ()
  tables := ⟨.empty, .empty, .empty, ⟨[], 1, fun _ h => (by cases h), .nil⟩⟩
  fresh := 0

theorem fresh_sample : Store.sample.tables.Fresh :=
  ⟨rfl, rfl, rfl, fun _ h => (by cases h)⟩

/-- The admission of a login of the tenant `t`. -/
def Admission.sample : Admission where
  ctx := ⟨"t", none, false, "r1"⟩
  entry := { AuditLog.sample with tenantID := "", eventID := "" }
  capturedAt := 1000000
  queuedAt := 1000000
  fault := none

/-- A run with one admission and room for one event. -/
def sampleRun : AuditRun Unit Unit :=
  auditRun .plain 1 .sample [⟨.sample, .admission .sample⟩]

/-- The event of `Admission.sample`, as the second one. -/
def AuditLog.sampleNext : AuditLog :=
  { AuditLog.sample with
    eventID := Platform.plain.uuid 2, prevHash := "", recordHash := "", sequence := none
    keyID := "" }

/-- One admission fills the backlog of its tenant, and the next one fails. -/
theorem backlog_exact_one :
    (sampleRun.state.tables.headOf "t").pending = sampleRun.state.tables.undelivered "t" ∧
    sampleRun.state.tables.undelivered "t" = 1 ∧
    ∃ err, admitEvent .plain ⟨.sample, 1⟩ .sample 2 sampleRun.state.tables = .error err := by
  have hfull : sampleRun.state.tables.undelivered "t" = 1 := rfl
  have hexact := @backlog_exact Unit Unit .plain 1 .sample fresh_sample
    [⟨.sample, .admission .sample⟩] "t"
  have hsound : Admission.sample.Sound .plain ⟨.sample, 1⟩ 2 .sampleNext sampleRun.state.tables :=
    ⟨rfl, by decide +kernel, rfl, rfl⟩
  exact ⟨hexact.1, hfull, (hexact.2.2 _ _ _ _ hsound rfl).2 hfull⟩

end FinnAuth.Audit
