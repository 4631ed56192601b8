import FinnAuth.Audit.Log
import FinnAuth.Audit.Spelling

/-!
# The chain has no gap

`VerifyChain` recomputes the chain of a tenant from `audit_logs`: it takes the boundary and the head
as the two ends and walks the rows between them. While events wait for delivery it may find a gap;
once they are delivered it finds none, whatever was archived, restored or erased in between.

Results:
* `verify_of_holds`: a ring that still has the keys verifies every event of a run;
* **`chain_gapless`**: the rows of the outbox are numbered without a gap, and once everything is
  delivered the check of the whole chain succeeds (`Gapless`), if no two ids of the run differ in
  their spelling only;
* **`misspelt_chain`**: two spellings of one tenant, both delivered, fail the check.
-/

namespace FinnAuth.Audit

open Lib

variable {β ρ : Type} {pl : Platform} {maxPending : Nat}

/-! ## The check of the whole chain -/

variable {db : AuditTables} {s₀ : Store β} {t : String} {ring : Keys} {e c : AuditLog}
  {log : List AuditLog} {repo : AuditRepository} {cs old : List AuditLog} {logs : LogTable}

/-- The events a change brings in are verified by the ring of its process. -/
theorem Changes.verified {db db' : AuditTables} {es rs : List AuditLog}
    (h : Changes pl repo db es rs db') : ∀ e ∈ es ++ rs, repo.keys.verify pl e = true := by
  induction h with
  | refl db => exact fun e he => (by cases he)
  | head hc _ ih =>
    rename_i db₁ db₂ es rs es' rs' hs
    have hfirst : ∀ e ∈ es ++ rs, repo.keys.verify pl e = true := by
      cases hc with
      | admission ha =>
        intro e he
        rw [List.append_nil, List.mem_singleton] at he
        subst he
        exact Keys.verify_iff.2 ⟨_, by rw [ha.keyID]; exact repo.keys.lookup_current, ha.signed⟩
      | restore hr =>
        intro e he
        obtain ⟨x, hx, rfl⟩ := List.mem_map.1 he
        exact ((verifyEvents_iff.1 hr.archived).2.2.1 x hx).verify
      | _ => exact fun e he => (by cases he)
    intro e he
    simp only [List.mem_append] at he hfirst ih
    rcases he with (he | he) | (he | he)
    · exact hfirst e (.inl he)
    · exact ih e (.inl he)
    · exact hfirst e (.inr he)
    · exact ih e (.inr he)

/-- The ring still has every key the run used for an event of the tenant. -/
def Keys.Holds (ring : Keys) (t : String) (r : AuditRun β ρ) : Prop :=
  ∀ x ∈ r.hist, ∀ e ∈ x.reply.admitted ++ x.reply.restored, e.tenantID = t →
    ring.signing.lookup e.keyID = x.input.keys.signing.lookup e.keyID

/-- A ring that all processes share has the keys. -/
theorem holds_of_keys [Tenants] {steps : List (AuditStep β ρ)} (h : ∀ s ∈ steps, s.keys = ring) :
    ring.Holds t (auditRun pl maxPending s₀ steps) := by
  intro x hx e _ _
  rcases Run.made_of_mem steps hx with hx | ⟨hx, -⟩
  · cases hx
  · rw [h x.input hx]

/-- Every event of a run was verified by the ring of the process that brought it in. -/
theorem verified_hist (steps : List (AuditStep β ρ)) : ∀ x ∈ (auditRun pl maxPending s₀ steps).hist,
      ∀ e ∈ x.reply.admitted ++ x.reply.restored, x.input.keys.verify pl e = true := by
  refine Run.exec_induct (I := fun r : AuditRun β ρ => ∀ x ∈ r.hist,
    ∀ e ∈ x.reply.admitted ++ x.reply.restored, x.input.keys.verify pl e = true)
    (fun r s ih x hx => ?_) steps (fun x hx => by cases hx)
  rcases List.mem_cons.1 hx with rfl | hx
  · exact (perform_changes s r.state).verified
  · exact ih x hx

/-- Every event of a run is in the reply of a step. -/
theorem exists_reply {r : AuditRun β ρ} (he : e ∈ committed r ∨ e ∈ restored r) :
    ∃ x ∈ r.hist, e ∈ x.reply.admitted ++ x.reply.restored := by
  rcases he with he | he
  · obtain ⟨x, hx, hex⟩ := List.mem_flatMap.1 he
    exact ⟨x, List.mem_reverse.1 hx, List.mem_append_left _ hex⟩
  · obtain ⟨x, hx, hex⟩ := List.mem_flatMap.1 he
    exact ⟨x, List.mem_reverse.1 hx, List.mem_append_right _ hex⟩

/-- Such a ring verifies every event of the run. -/
theorem verify_of_holds (steps : List (AuditStep β ρ))
    (h : ring.Holds t (auditRun pl maxPending s₀ steps)) :
    ∀ e, e ∈ committed (auditRun pl maxPending s₀ steps) ∨
        e ∈ restored (auditRun pl maxPending s₀ steps) →
      e.tenantID = t → ring.verify pl e = true := by
  intro e he ht
  obtain ⟨x, hx, hex⟩ := exists_reply he
  obtain ⟨key, hkey, hsigned⟩ := Keys.verify_iff.1 (verified_hist steps x hx e hex)
  exact Keys.verify_iff.2 ⟨key, by rw [h x hx e hex ht]; exact hkey, hsigned⟩

/-- Where every record of the chain is delivered, the rows lead from the boundary to the head. -/
theorem Linked.accepted (h : Linked db log old t cs) (hver : ∀ c ∈ cs, ring.verify pl c = true)
    (hall : ∀ c ∈ cs, db.delivered t (links.seq c) = true) : verifyEvents pl ring t
      (ring.checkpoint pl t (db.boundaryOf t).sequence (db.boundaryOf t).hash)
      (headCheckpoint pl ring t db)
      (db.range t (db.boundaryOf t).sequence (db.headOf t).sequence) = .ok () := by
  have hrange : (db.range t (db.boundaryOf t).sequence (db.headOf t).sequence).map
      AuditLog.strip = cs := by
    rw [h.range, List.filter_eq_self.2 hall, List.filter_eq_self]
    intro c hc
    have hseq := Links.seq_of_mem h.leads hc
    exact (inRange_iff (by omega)).2 hseq
  refine verifyEvents_iff.2 ⟨⟨rfl, headOf_tenantID db t⟩, ⟨Keys.verifyCheckpoint_checkpoint ..,
    Keys.verifyCheckpoint_checkpoint ..⟩, fun e he => ?_, ?_⟩
  · have hc : e.strip ∈ cs := by
      rw [← hrange]
      exact List.mem_map_of_mem he
    exact ⟨h.tenantID e.strip hc, hver e.strip hc⟩
  · refine leads_strip.1 ?_
    rw [hrange]
    exact h.leads

/-- Then the check of the whole chain succeeds. -/
theorem verifyChain_of_accepted {t requested : String}
    (haccept : verifyEvents pl ring t
      (ring.checkpoint pl t (db.boundaryOf t).sequence (db.boundaryOf t).hash)
      (headCheckpoint pl ring t db)
      (db.range t (db.boundaryOf t).sequence (db.headOf t).sequence) = .ok ())
    (hrows : ∀ r ∈ db.logs.rows, r.tenantID = t → r.version = 1)
    (hreq : requested = "" ∨ requested = t) : verifyChain pl ring t requested db = .ok true := by
  have hlegacy : (db.logs.rows.any fun r => Tenants.same r.tenantID t && r.version ≠ 1) =
      false := by
    refine List.any_eq_false.2 fun r hr => ?_
    simpa using hrows r hr
  rw [verifyChain_eq hreq hlegacy]
  rw [haccept]

/-- A record whose number is not delivered is an event whose row waits. -/
theorem Linked.all_delivered (h : Linked db log old t cs) (hl : Ledgered pl db log)
    (hdelivered : ∀ o ∈ db.outbox.rows, o.tenantID = t → o.state = .delivered) :
    ∀ c ∈ cs, db.delivered t (links.seq c) = true := by
  intro c hc
  by_contra hw
  obtain ⟨o, ho, hr⟩ := exists_row hl.receipts (h.waiting c hc (Bool.eq_false_iff.2 hw))
  have ht : o.tenantID = t := hr.tenantID.trans (h.tenantID c hc)
  refine hw (delivered_iff.2 ⟨o, ho, ht, ?_, hdelivered o ho ht⟩)
  simp [links, hr.sequence]

theorem Ledgered.receiptsOf (h : Ledgered pl db log) (t : String) :
    List.Forall₂ (Receipt pl) (ofTenant t log) (db.receiptsOf t) := by
  refine List.rel_filter ?_ h.receipts
  intro e o hr
  simp [hr.tenantID]

/-- The numbers of the rows of a tenant, in the order of admission. -/
theorem Ledgered.sequences (h : Ledgered pl db log) (t : String) :
    (db.receiptsOf t).map AuditOutbox.sequence = List.range' 1 (db.headOf t).sequence := by
  have hlen := Links.leads_length (h.chain t)
  have hseqs := Links.leads_seqs (h.chain t)
  have hmap : (db.receiptsOf t).map AuditOutbox.sequence = (ofTenant t log).map links.seq := by
    have hrs := h.receiptsOf t
    generalize ofTenant t log = es, db.receiptsOf t = os at hrs
    induction hrs with
    | nil => rfl
    | cons hr _ ih => rw [List.map_cons, List.map_cons, ih]; simp [links, hr.sequence]
  rw [hmap, hseqs]
  congr 1
  omega

/-- The chain of a tenant has no gap: the outbox rows of the tenant are the receipts of its events,
numbered from 1 to the number of the head, each event holds the hash of the one before it and the
head the hash of the last. It checks out: once every row is delivered and no row is from before the
durable log, the check succeeds, with every ring that still has the keys that were used. -/
structure Gapless [Tenants] (pl : Platform) (r : AuditRun β ρ) (t : String) : Prop where
  sequences : (r.state.tables.receiptsOf t).map AuditOutbox.sequence =
    List.range' 1 (r.state.tables.headOf t).sequence
  receipts : List.Forall₂ (Receipt pl) (ofTenant t (committed r)) (r.state.tables.receiptsOf t)
  leads : links.Leads (0, genesisAuditHash) (ofTenant t (committed r))
    ((r.state.tables.headOf t).sequence, (r.state.tables.headOf t).hash)
  checks : ∀ (ring : Keys) (requested : String), ring.Holds t r →
    (∀ o ∈ r.state.tables.receiptsOf t, o.state = .delivered) →
    (∀ x ∈ r.state.tables.logs.rows, Tenants.same x.tenantID t = true → x.version ≠ 0) →
    (requested = "" ∨ requested = t) →
    verifyChain pl ring t requested r.state.tables = .ok true

/-- In columns that compare texts every chain is gapless. -/
theorem gapless_text (h₀ : s₀.tables.Fresh) (steps : List (AuditStep β ρ)) (t : String) :
    Gapless pl (auditRun pl maxPending s₀ steps) t := by
  have hlogged : Logged pl (auditRun pl maxPending s₀ steps).state.tables _ _ :=
    logged_run h₀ steps
  refine ⟨hlogged.ledger.sequences t, hlogged.ledger.receiptsOf t, hlogged.ledger.chain t, ?_⟩
  intro ring requested hring hdelivered hlegacy hreq
  obtain ⟨cs, hcs⟩ := hlogged.chain t
  refine verifyChain_of_accepted (hcs.accepted ?_ ?_) ?_ hreq
  · exact fun c hc => verify_of_holds steps hring c (hcs.source c hc) (hcs.tenantID c hc)
  · exact hcs.all_delivered hlogged.ledger fun o ho ht =>
      hdelivered o (List.mem_filter.2 ⟨ho, by simp [ht]⟩)
  · intro r hr ht
    rcases hlogged.rows r hr with hv | ⟨hv, -⟩
    · exact hv
    · exact absurd hv (hlegacy r hr (by simp [ht]))

/-- **The chain of every tenant is gapless**, in every state of every run, under every collation
that tells the ids of the run apart. -/
theorem chain_gapless {co : Tenants} {ids : String → Prop} (htell : co.Tells ids) {s₀ : Store β}
    (h₀ : s₀.tables.Fresh) (hlegacy : ∀ r ∈ s₀.tables.logs.rows, ids r.tenantID)
    (steps : List (AuditStep β ρ)) (hsteps : ∀ s ∈ steps, s.action.Names ids) {t : String}
    (ht : ids t) : Gapless pl (auditRun pl maxPending s₀ steps) t := by
  obtain ⟨heq, hn⟩ := auditRun_told pl htell maxPending (h₀.names hlegacy) hsteps
  obtain ⟨hsequences, hforall, hleads, hchecks⟩ : @Gapless β ρ .binary pl _ t :=
    heq ▸ gapless_text h₀ steps t
  have hreceipts := receiptsOf_told htell hn ht
  have hhead := headOf_told htell hn ht
  refine ⟨?_, ?_, ?_, fun ring requested hring hdelivered hlegacy hreq => ?_⟩
  · rw [hreceipts, hhead]
    exact hsequences
  · rw [hreceipts]
    exact hforall
  · rw [hhead]
    exact hleads
  · rw [verifyChain_told htell hn ht]
    refine hchecks ring requested hring (hreceipts ▸ hdelivered) (fun x hx hsame => ?_) hreq
    exact hlegacy x hx (by rw [same_told htell (hn.logs x hx) ht]; exact hsame)

/-! ## A delivered event -/

/-- A worker that holds a row delivers it, if the table has room for the event. -/
theorem deliver_held [Tenants] {c row : AuditOutbox} {now : Int}
    (hrow : db.outbox.get? c.eventID = some row) (hheld : c.heldBy now row = true)
    (hr : Receipt pl e row) (hv : repo.keys.verify pl e = true)
    (hnone : db.logs.rows.find? (·.eventID = e.eventID) = none)
    (hcreate : db.logs.create e = some logs) :
    deliver pl repo c now db = .ok ((), { db with logs := logs }.acknowledge row) := by
  have hstate : row.state = .leased := by
    simp only [AuditOutbox.heldBy, Bool.and_eq_true, decide_eq_true_eq] at hheld
    exact hheld.1.1
  have hwait : row.state ≠ .delivered := by rw [hstate]; decide
  have hdec := unmarshal_marshal (hr.payload hwait)
  unfold deliver
  simp only [hrow, hwait, hheld, hdec, hr.describes, hv, hnone, hcreate, if_false, Bool.not_true,
    Bool.false_eq_true]

/-- The event of an admission at a head. -/
def Admission.event (a : Admission) (fresh : Nat) (h : AuditHead) : AuditLog :=
  (AuditRepository.mk .sample 1).chain .plain h
    ((capture .plain a.ctx a.capturedAt fresh a.entry).getD .sample)

/-- The row of an event, leased. -/
def AuditLog.leased (e : AuditLog) (token : Nat) : AuditOutbox :=
  (e.queued ((marshal .plain e).getD "") 1000000).claimed 1000000 (Platform.plain.uuid token)

theorem receipt_leased {n : Nat} (token : Nat) (hseq : e.sequence = some n)
    (hm : (marshal .plain e).isSome = true) : Receipt .plain e (e.leased token) := by
  obtain ⟨payload, hp⟩ := Option.isSome_iff_exists.1 hm
  have hr : Receipt .plain e (e.queued payload 1000000) := receipt_queued hseq hp
  unfold AuditLog.leased
  rw [hp]
  exact ⟨hr.eventID, hr.tenantID, hr.sequence, hr.hash, hr.keyID, fun _ => hp⟩

theorem verify_event {a : Admission} {fresh : Nat} {h : AuditHead}
    (hc : capture .plain a.ctx a.capturedAt fresh a.entry = some c) :
    Keys.sample.verify .plain (a.event fresh h) = true := by
  unfold Admission.event
  rw [hc]
  exact Keys.verify_iff.2 ⟨_, Keys.sample.lookup_current,
    Keys.signedWith_sign (evidence_capture hc).1.version (Nat.succ_ne_zero _)⟩

/-- The delivery of a leased row. -/
theorem perform_leased [Tenants] {st : Store Unit} {token : Nat}
    (hrow : st.tables.outbox.get? e.eventID = some (e.leased token))
    (hr : Receipt .plain e (e.leased token)) (hv : Keys.sample.verify .plain e = true)
    (hnone : st.tables.logs.rows.find? (·.eventID = e.eventID) = none)
    (hcreate : st.tables.logs.create e = some logs) :
    (perform .plain 1 (⟨.sample, .deliver (e.leased token) 1000000⟩ : AuditStep Unit Unit) st).2 =
      { st with tables := { st.tables with logs := logs }.acknowledge (e.leased token) } := by
  have hheld : (e.leased token).heldBy 1000000 (e.leased token) = true := by
    simp [AuditOutbox.heldBy, AuditLog.leased, AuditOutbox.claimed, AuditLog.queued,
      auditMaxAttempts, auditLease]
  have hok : deliver .plain ⟨.sample, 1⟩ (e.leased token) 1000000 st.tables = _ :=
    deliver_held hrow hheld hr hv hnone hcreate
  simp only [perform, Store.commit, hok]

/-- The first event of the tenant `t`. -/
def sampleFirst : AuditLog := Admission.sample.event 0 ⟨"t", 0, genesisAuditHash, 0⟩

/-- The second event of the chain, for the tenant `s`. -/
def sampleSecond (s : String) : AuditLog :=
  Admission.event { Admission.sample with ctx := ⟨s, none, false, "r1"⟩ } 3
    ⟨"t", 1, sampleFirst.recordHash, 0⟩

/-- The row of the first event, leased. -/
def sampleClaim : AuditOutbox := sampleFirst.leased 2

/-- The first event is admitted, claimed and delivered. -/
def sampleSteps : List (AuditStep Unit Unit) :=
  [⟨.sample, .admission .sample⟩, ⟨.sample, .claim 1000000 fun _ => false⟩,
    ⟨.sample, .deliver sampleClaim 1000000⟩]

/-- The second event is admitted and claimed. -/
def nextSteps (s : String) : List (AuditStep Unit Unit) :=
  [⟨.sample, .admission { Admission.sample with ctx := ⟨s, none, false, "r1"⟩ }⟩,
    ⟨.sample, .claim 1000000 fun _ => false⟩]

/-- And delivered. -/
def lastStep (s : String) : AuditStep Unit Unit :=
  ⟨.sample, .deliver ((sampleSecond s).leased 5) 1000000⟩

/-- The run before the first delivery. -/
def sampleClaimed [Tenants] : AuditRun Unit Unit := auditRun .plain 1 .sample (sampleSteps.take 2)

/-- The run with one event. -/
def sampleDelivered [Tenants] : AuditRun Unit Unit := auditRun .plain 1 .sample sampleSteps

/-- The run with two. -/
def pairDelivered [Tenants] (s : String) : AuditRun Unit Unit :=
  auditRun .plain 1 .sample (sampleSteps ++ (nextSteps s ++ [lastStep s]))

/-- The log with the first event. -/
def sampleLog : LogTable :=
  ⟨[{ sampleFirst with id := 1 }], 2, List.forall_mem_singleton.2 Nat.one_lt_two,
    List.pairwise_singleton ..⟩

theorem rows_sampleClaimed : sampleClaimed.state.tables.outbox.rows = [sampleClaim] := rfl

theorem state_sampleDelivered [Tenants] : sampleDelivered.state =
    { sampleClaimed.state with tables :=
      { sampleClaimed.state.tables with logs := sampleLog }.acknowledge sampleClaim } := by
  have hrow : sampleClaimed.state.tables.outbox.get? sampleFirst.eventID = some sampleClaim := rfl
  have hr : Receipt .plain sampleFirst sampleClaim := receipt_leased 2 rfl rfl
  have hv : Keys.sample.verify .plain sampleFirst = true := verify_event rfl
  have hcreate : sampleClaimed.state.tables.logs.create sampleFirst = some sampleLog := rfl
  have hstep : sampleDelivered = sampleClaimed.step (perform .plain 1)
    ⟨.sample, .deliver sampleClaim 1000000⟩ := Run.exec_concat _ [_, _] _
  rw [hstep, Run.step_state]
  exact perform_leased hrow hr hv rfl hcreate

theorem rows_sampleDelivered :
    sampleDelivered.state.tables.outbox.rows = [sampleClaim.acknowledged] := by
  rw [state_sampleDelivered]
  rfl

/-- The store before the second delivery. -/
def pairClaimed [Tenants] (s : String) : Store Unit :=
  (auditRun .plain 1
    { sampleClaimed.state with tables :=
      { sampleClaimed.state.tables with logs := sampleLog }.acknowledge sampleClaim }
    (nextSteps s)).state

theorem state_pairDelivered [Tenants] (s : String) :
    (pairDelivered s).state = (perform .plain 1 (lastStep s) (pairClaimed s)).2 := by
  have hrun : pairDelivered s = (sampleDelivered.exec (perform .plain 1) (nextSteps s)).step
      (perform .plain 1) (lastStep s) := by
    unfold pairDelivered sampleDelivered auditRun
    rw [Run.exec_append, Run.exec_concat]
  have hnext : (sampleDelivered.exec (perform .plain 1) (nextSteps s)).state = pairClaimed s :=
    Run.exec_state_congr (nextSteps s) state_sampleDelivered
  rw [hrun, Run.step_state, hnext]

/-- The log with both events. -/
def pairLog [Tenants] (s : String) : LogTable :=
  ((pairClaimed s).tables.logs.create (sampleSecond s)).getD sampleLog

/-- The store after the second delivery. -/
def pairStore [Tenants] (s : String) : Store Unit :=
  { pairClaimed s with tables :=
    { (pairClaimed s).tables with logs := pairLog s }.acknowledge ((sampleSecond s).leased 5) }

theorem state_pairDelivered_of [Tenants] {s : String}
    (hc : capture .plain ⟨s, none, false, "r1"⟩ 1000000 3 Admission.sample.entry = some c)
    (hrow : (pairClaimed s).tables.outbox.get? (sampleSecond s).eventID =
      some ((sampleSecond s).leased 5))
    (hnone : (pairClaimed s).tables.logs.rows.find? (·.eventID = (sampleSecond s).eventID) = none)
    (hcreate : (pairClaimed s).tables.logs.create (sampleSecond s) = some (pairLog s)) :
    (pairDelivered s).state = pairStore s := by
  have hr : Receipt .plain (sampleSecond s) ((sampleSecond s).leased 5) := receipt_leased 5 rfl rfl
  rw [state_pairDelivered, lastStep, perform_leased hrow hr (verify_event hc) hnone hcreate,
    pairStore]

theorem pairDelivered_text : (pairDelivered "t").state = pairStore "t" :=
  state_pairDelivered_of rfl rfl rfl rfl

theorem pairDelivered_caseless : (@pairDelivered .caseless "T").state = @pairStore .caseless "T" :=
  @state_pairDelivered_of _ .caseless _ rfl rfl rfl rfl

/-- The chain of two events of one tenant, delivered, checks out. -/
theorem chain_gapless_pair :
    (@AuditTables.receiptsOf .caseless (@pairDelivered .caseless "t").state.tables "t").map
        AuditOutbox.sequence = [1, 2] ∧
      @verifyChain .caseless .plain .sample "t" "" (@pairDelivered .caseless "t").state.tables =
        .ok true := by
  have htell : Tenants.caseless.Tells (· = "t") := fun s t hs ht _ => hs.trans ht.symm
  have hids : ∀ s ∈ sampleSteps ++ (nextSteps "t" ++ [lastStep "t"]), s.action.Names (· = "t") := by
    simp [sampleSteps, nextSteps, lastStep, Action.Names, Admission.sample]
  have hnone : ∀ r ∈ Store.sample.tables.logs.rows, r.tenantID = "t" := fun r hr => (by cases hr)
  obtain ⟨-, -, -, hchecks⟩ : @Gapless _ _ .caseless _ (@pairDelivered .caseless "t") "t" :=
    chain_gapless htell fresh_sample hnone _ hids rfl
  have hstate : (@pairDelivered .caseless "t").state = pairStore "t" := by
    rw [← pairDelivered_text]
    exact congrArg Run.state (auditRun_told _ htell _ (fresh_sample.names hnone) hids).1
  have hreceipts : @AuditTables.receiptsOf .caseless (pairStore "t").tables "t" =
      [sampleClaim.acknowledged, ((sampleSecond "t").leased 5).acknowledged] := rfl
  have hholds : Keys.sample.Holds "t" (@pairDelivered .caseless "t") :=
    @holds_of_keys _ _ _ _ _ _ _ .caseless _ (by simp [sampleSteps, nextSteps, lastStep])
  rw [hstate] at hchecks ⊢
  rw [hreceipts] at hchecks ⊢
  refine ⟨rfl, hchecks .sample "" hholds ?_ ?_ (.inl rfl)⟩
  · exact List.forall_mem_cons.2 ⟨rfl, List.forall_mem_singleton.2 rfl⟩
  · exact List.forall_mem_cons.2 ⟨fun _ => Nat.one_ne_zero,
      List.forall_mem_singleton.2 fun _ => Nat.one_ne_zero⟩

/-- A second event of the same tenant in other letters is chained to the first; with both
delivered, the check of the chain fails. -/
theorem misspelt_chain :
    (@AuditTables.receiptsOf .caseless (@pairDelivered .caseless "T").state.tables "t").map
        (fun o => (o.sequence, o.state)) = [(1, .delivered), (2, .delivered)] ∧
      (∀ r ∈ (@pairDelivered .caseless "T").state.tables.logs.rows, r.version = 1) ∧
      Keys.sample.Holds "t" (@pairDelivered .caseless "T") ∧
      @verifyChain .caseless .plain .sample "t" "" (@pairDelivered .caseless "T").state.tables =
        .error .integrity := by
  have hholds : Keys.sample.Holds "t" (@pairDelivered .caseless "T") :=
    @holds_of_keys _ _ _ _ _ _ _ .caseless _ (by simp [sampleSteps, nextSteps, lastStep])
  have hrange : @AuditTables.range .caseless (@pairStore .caseless "T").tables "t"
      (@AuditTables.boundaryOf .caseless (@pairStore .caseless "T").tables "t").sequence
      (@AuditTables.headOf .caseless (@pairStore .caseless "T").tables "t").sequence =
      [{ sampleFirst with id := 1 }, { sampleSecond "T" with id := 2 }] := rfl
  have hreject : ∀ base end_, verifyEvents .plain .sample "t" base end_
      [{ sampleFirst with id := 1 }, { sampleSecond "T" with id := 2 }] = .error .integrity := by
    refine fun base end_ => verifyEvents_error fun hok => ?_
    have hv := (verifyEvents_iff.1 hok).2.2.1 { sampleSecond "T" with id := 2 }
      (List.mem_cons_of_mem _ (List.mem_singleton.2 rfl))
    have htenant : (sampleSecond "T").tenantID = "T" := rfl
    exact absurd (htenant.symm.trans hv.tenantID) (by decide)
  rw [pairDelivered_caseless]
  refine ⟨rfl, List.forall_mem_cons.2 ⟨rfl, List.forall_mem_singleton.2 rfl⟩, hholds, ?_⟩
  rw [@verifyChain_eq .plain .sample "t" _ .caseless "" (.inl rfl) rfl, hrange, hreject]

end FinnAuth.Audit
