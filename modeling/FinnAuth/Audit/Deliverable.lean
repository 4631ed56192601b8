import FinnAuth.Audit.Delivery
import FinnAuth.Audit.RoundTrip

/-!
# Every event can be delivered

`Deliver` decodes the payload of a row, compares the event with the row and verifies its signature
before it inserts it. What `Admit` wrote passes these checks: signing, encoding and decoding fit
together for every entry `Capture` accepts, and no later step touches what they read. The insert
finds neither the id nor the number of the event in `audit_logs`, where only delivered events and
restored ones stand; a restored event agrees with the one that was admitted under its number, since
both chains end at the same head.

Results:
* `admitted_row`: the row of an admission passes every check of its delivery;
* `Linked.agrees`: a record of the delivered chain agrees with a committed event;
* **`never_poisoned`**: in every state of a run, a worker with a live lease on a row that waits
  delivers it, as long as its ring has the key of the event.
-/

namespace FinnAuth.Audit

open Lib

variable {β ρ : Type} {pl : Platform} {maxPending : Nat}

/-! ## The row of an admission -/

variable {e : AuditLog} {o : AuditOutbox} {ring : Keys}

/-- The row passes the checks of `Deliver` as the event `e`: its payload decodes to `e`, which is
the event of the row, and `ring` verifies it. -/
structure Deliverable (pl : Platform) (ring : Keys) (e : AuditLog) (o : AuditOutbox) : Prop where
  decoded : unmarshal pl o.payload = some e
  describes : o.describes e = true
  verify : ring.verify pl e = true

/-- The row that waits for an event passes the checks wherever the event is verified. -/
theorem Receipt.deliverable (h : Receipt pl e o) (hs : o.state ≠ .delivered)
    (hv : ring.verify pl e = true) : Deliverable pl ring e o :=
  ⟨unmarshal_marshal (h.payload hs), h.describes, hv⟩

/-- A ring with the same key under the id of the event verifies it too. -/
theorem verify_of_lookup {ring ring' : Keys} (h : ring.verify pl e = true)
    (hkey : ring'.signing.lookup e.keyID = ring.signing.lookup e.keyID) :
    ring'.verify pl e = true := by
  obtain ⟨key, hlookup, hsigned⟩ := Keys.verify_iff.1 h
  exact Keys.verify_iff.2 ⟨key, hkey.trans hlookup, hsigned⟩

/-- **What `Admit` writes passes every check of its delivery**, on any database and for every
context and entry. -/
theorem admitted_row {repo : AuditRepository} {a : Admission} {fresh : Nat} {db db' : AuditTables}
    (h : admitEvent pl repo a fresh db = .ok (e, db')) :
    ∃ o ∈ db'.outbox.rows, o.eventID = e.eventID ∧ o.state = .pending ∧
      ∀ ring : Keys, ring.signing.lookup e.keyID = repo.keys.signing.lookup e.keyID →
        Deliverable pl ring e o := by
  have ha := admitEvent_ok h
  obtain ⟨payload, now, hpayload, hrows⟩ := ha.outbox
  have hverify : repo.keys.verify pl e = true :=
    Keys.verify_iff.2 ⟨_, by rw [ha.keyID]; exact repo.keys.lookup_current, ha.signed⟩
  refine ⟨e.queued payload now, by simp [hrows], rfl, rfl, fun ring hkey => ?_⟩
  exact (receipt_queued ha.sequence hpayload).deliverable (by simp [AuditLog.queued])
    (verify_of_lookup hverify hkey)

/-! ## Rows of `audit_logs` -/

section Rows

variable {db : AuditTables} {log old : List AuditLog} {r : AuditLog}

/-- Every record of the chain agrees with the committed event of its number. -/
theorem Linked.agrees (hmac : pl.CollisionFree) {t : String} {cs : List AuditLog}
    (h : Linked db log old t cs) (hl : Ledgered pl db log)
    (hver : ∀ e, e ∈ log ∨ e ∈ old → ∃ ring : Keys, ring.verify pl e = true) :
    ∀ c ∈ cs, ∃ e ∈ log, Agrees c e := by
  have hle : (db.boundaryOf t).sequence ≤ (db.headOf t).sequence := by
    have := Links.leads_length h.leads
    omega
  obtain ⟨ys, zs, d, hsplit, -, hzs⟩ := Links.leads_split (hl.chain t) (Nat.zero_le _) hle
  have hlog : ∀ z ∈ zs, z ∈ log := by
    intro z hz
    have hmem : z ∈ ofTenant t log := by rw [hsplit]; exact List.mem_append_right _ hz
    exact (List.mem_filter.1 hmem).1
  -- both chains end at the head, and their records are verified
  have hall : List.Forall₂ Agrees cs zs :=
    Links.leads_unique (P := fun e => ∃ ring : Keys, ring.verify pl e = true)
      (fun x y hx hy hd => by
        obtain ⟨ring, hx⟩ := hx
        obtain ⟨ring', hy⟩ := hy
        have hxy := agrees_of_hash hmac hx hy hd
        exact ⟨hxy, hxy.signed.prevHash⟩)
      (fun c hc => hver c (h.source c hc)) (fun z hz => hver z (.inl (hlog z hz))) h.leads hzs
  intro c hc
  obtain ⟨z, hz, hagrees⟩ := Table.exists_of_forall₂ hall hc
  exact ⟨z, hlog z hz, hagrees⟩

/-- A signed row of `audit_logs` stands for a committed event with its id, its tenant and its
number, and that number is delivered. -/
theorem Logged.committed_row (h : Logged pl db log old) (hmac : pl.CollisionFree ∨ old = [])
    (hver : ∀ e, e ∈ log ∨ e ∈ old → ∃ ring : Keys, ring.verify pl e = true) (hr : r ∈ db.logs.rows)
    (hv : r.version = 1) : db.delivered r.tenantID (links.seq r) = true ∧
      ∃ e ∈ log, e.eventID = r.eventID ∧ e.tenantID = r.tenantID ∧ links.seq e = links.seq r := by
  obtain ⟨cs, hcs⟩ := h.chain r.tenantID
  obtain ⟨hmem, hdel⟩ := (hcs.hot r.strip).1 ⟨r, List.mem_filter.2 ⟨hr, by simp [hv]⟩, rfl⟩
  refine ⟨hdel, ?_⟩
  rcases hmac with hmac | rfl
  · obtain ⟨e, he, hagrees⟩ := hcs.agrees hmac h.ledger hver r.strip hmem
    exact ⟨e, he, hagrees.signed.eventID.symm, hagrees.signed.tenantID.symm,
      hagrees.signed.sequence.symm⟩
  · exact ⟨r.strip, (hcs.source r.strip hmem).resolve_right List.not_mem_nil, rfl, rfl, rfl⟩

/-- `audit_logs` has no row with the id of an event that waits. -/
theorem Logged.id_free (h : Logged pl db log old) (hmac : pl.CollisionFree ∨ old = [])
    (hver : ∀ e, e ∈ log ∨ e ∈ old → ∃ ring : Keys, ring.verify pl e = true) (he : e ∈ log)
    (ho : o ∈ db.outbox.rows) (hs : o.state ≠ .delivered) (hreceipt : Receipt pl e o)
    (hr : r ∈ db.logs.rows) : r.eventID ≠ e.eventID := by
  intro hid
  rcases h.rows r hr with hv | ⟨-, hempty, -⟩
  · obtain ⟨hdel, e', he', hid', ht, hn⟩ := h.committed_row hmac hver hr hv
    obtain rfl : e' = e := h.ledger.eq_of_eventID he' he (hid'.trans hid)
    have hwait := h.ledger.not_delivered ho hs
    rw [hreceipt.tenantID, ht, show o.sequence = links.seq r by
      rw [← hn]; simp [links, hreceipt.sequence], hdel] at hwait
    cases hwait
  · exact (h.ledger.evidence e he).eventID (hid.symm.trans hempty)

/-- `audit_logs` has no row with the number of an event that waits. -/
theorem Logged.number_free (h : Logged pl db log old) (ho : o ∈ db.outbox.rows)
    (hs : o.state ≠ .delivered) (hreceipt : Receipt pl e o) (hr : r ∈ db.logs.rows)
    (ht : r.tenantID = e.tenantID) : r.sequence ≠ e.sequence := by
  intro hn
  rw [hreceipt.sequence] at hn
  rcases h.rows r hr with hv | ⟨-, -, hnone⟩
  · obtain ⟨cs, hcs⟩ := h.chain r.tenantID
    have hdel := ((hcs.hot r.strip).1 ⟨r, List.mem_filter.2 ⟨hr, by simp [hv]⟩, rfl⟩).2
    have hwait := h.ledger.not_delivered ho hs
    have hseq : links.seq r.strip = o.sequence := by simp [links, AuditLog.strip, hn]
    rw [hreceipt.tenantID, ← ht, ← hseq, hdel] at hwait
    cases hwait
  · rw [hnone] at hn
    cases hn

end Rows

/-! ## Deliveries in a run -/

/-- The ring still has the key under which the run committed the event. -/
def Keys.Retains (ring : Keys) (e : AuditLog) (r : AuditRun β ρ) : Prop :=
  ∀ x ∈ r.hist, e ∈ x.reply.admitted →
    ring.signing.lookup e.keyID = x.input.keys.signing.lookup e.keyID

/-- Such a ring verifies the event. -/
theorem verify_of_retains {s₀ : Store β} (steps : List (AuditStep β ρ))
    (he : e ∈ committed (auditRun pl maxPending s₀ steps))
    (h : ring.Retains e (auditRun pl maxPending s₀ steps)) : ring.verify pl e = true := by
  obtain ⟨x, hx, hex⟩ := List.mem_flatMap.1 he
  have hx := List.mem_reverse.1 hx
  exact verify_of_lookup (verified_hist steps x hx e (List.mem_append_left _ hex)) (h x hx hex)

/-- **The log never poisons itself.** What an admission writes, for any context and entry, passes
every check of its delivery under a ring that keeps its key. In every state of a run, the row of an
event that waits decodes to the event and describes it, a ring that keeps the key verifies it, and a
worker with a live lease on the row delivers it: no check stands in the way. Where archives were put
back, this takes a MAC without collisions. -/
theorem never_poisoned {s₀ : Store β} (h₀ : s₀.tables.Fresh) (steps : List (AuditStep β ρ))
    {r : AuditRun β ρ} (hr : r = auditRun pl maxPending s₀ steps) :
    (∀ repo a fresh e (db db' : AuditTables), admitEvent pl repo a fresh db = .ok (e, db') →
      ∃ o ∈ db'.outbox.rows, o.eventID = e.eventID ∧ o.state = .pending ∧
        ∀ ring : Keys, ring.signing.lookup e.keyID = repo.keys.signing.lookup e.keyID →
          Deliverable pl ring e o) ∧
    ∀ o ∈ r.state.tables.outbox.rows, o.state ≠ .delivered →
      ∃ e ∈ committed r, e.eventID = o.eventID ∧
        ∀ ring : Keys, ring.Retains e r → Deliverable pl ring e o ∧
          (pl.CollisionFree ∨ (∀ s ∈ steps, s.action.restores = false) →
            ∀ c now capacity, c.eventID = o.eventID → c.heldBy now o = true →
              ∃ db', deliver pl ⟨ring, capacity⟩ c now r.state.tables = .ok ((), db')) := by
  subst hr
  refine ⟨fun repo a fresh e db db' h => admitted_row h, fun o ho hs => ?_⟩
  have hlogged : Logged pl (auditRun pl maxPending s₀ steps).state.tables _ _ :=
    logged_run h₀ steps
  obtain ⟨e, he, hreceipt⟩ := exists_receipt hlogged.ledger.receipts ho
  refine ⟨e, he, hreceipt.eventID.symm, fun ring hring => ?_⟩
  have hverify := verify_of_retains steps he hring
  refine ⟨hreceipt.deliverable hs hverify, fun hplain c now capacity hid hheld => ?_⟩
  have hmac : pl.CollisionFree ∨ restored (auditRun pl maxPending s₀ steps) = [] :=
    hplain.imp_right restored_eq_nil
  have hver : ∀ x, x ∈ committed (auditRun pl maxPending s₀ steps) ∨
      x ∈ restored (auditRun pl maxPending s₀ steps) →
      ∃ ring : Keys, ring.verify pl x = true := by
    intro x hx
    obtain ⟨y, hy, hmem⟩ := exists_reply hx
    exact ⟨y.input.keys, verified_hist steps y hy x hmem⟩
  have hrow : (auditRun pl maxPending s₀ steps).state.tables.outbox.get? c.eventID = some o :=
    (Table.get?_eq_some_iff _).2 ⟨ho, hid.symm⟩
  have hid : ∀ r ∈ (auditRun pl maxPending s₀ steps).state.tables.logs.rows,
      r.eventID ≠ e.eventID :=
    fun r hr => hlogged.id_free hmac hver he ho hs hreceipt hr
  obtain ⟨logs, hcreate⟩ := LogTable.create_of_apart (e := e) fun r hr =>
    ⟨Nat.ne_of_lt (LogTable.fresh _ r hr), fun h => absurd h (hid r hr),
      fun ht h => absurd h (hlogged.number_free (e := e) ho hs hreceipt hr ht)⟩
  exact ⟨_, deliver_held hrow hheld hreceipt hverify
    (List.find?_eq_none.2 fun r hr => by simpa using hid r hr) hcreate⟩

/-- The row of `sampleClaimed` is leased, and a worker with the lease delivers it. -/
theorem never_poisoned_sample : ∃ e ∈ committed sampleClaimed,
    Deliverable .plain .sample e sampleClaim ∧ ∃ db',
      deliver .plain ⟨.sample, 1⟩ sampleClaim 1000000 sampleClaimed.state.tables =
        .ok ((), db') := by
  obtain ⟨-, hrows⟩ := @never_poisoned Unit Unit .plain 1 .sample fresh_sample
    (sampleSteps.take 2) sampleClaimed rfl
  obtain ⟨e, he, -, hring⟩ := hrows sampleClaim (by rw [rows_sampleClaimed]; simp)
    (by decide +kernel)
  have hkeeps : Keys.sample.Retains e sampleClaimed := by
    intro x hx _
    rcases Run.made_of_mem _ hx with hx | ⟨hx, -⟩
    · cases hx
    · have hkeys : x.input.keys = .sample := by
        simp only [sampleSteps, List.take, List.mem_cons, List.not_mem_nil, or_false] at hx
        rcases hx with hx | hx <;> rw [hx]
      rw [hkeys]
  obtain ⟨hpass, hdeliver⟩ := hring .sample hkeeps
  exact ⟨e, he, hpass, hdeliver (.inl Platform.plain_collisionFree) sampleClaim 1000000 1 rfl rfl⟩

end FinnAuth.Audit
