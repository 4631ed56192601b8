import FinnAuth.Audit.Ledger

/-!
# The delivered log

What `audit_logs` holds of a tenant in every state of a run. Between the boundary of the archives
and the head stands a chain; the rows of the table are the delivered records of that chain, and
everything up to the boundary is delivered. Deliveries come in any order, a purge takes the records
next to the boundary off the chain and a restore puts records back there, so the chain is kept by
every change. Nothing here depends on the MAC.

Results:
* **`logged_run`**: the rows of `audit_logs` are the delivered records of such a chain.
-/

namespace FinnAuth.Audit

open Lib

variable {β ρ : Type} {pl : Platform} {maxPending : Nat}

/-! ## Delivered numbers -/

variable {db db' : AuditTables} {repo : AuditRepository} {e : AuditLog} {row : AuditOutbox}

/-- The event of the tenant with this number is delivered. -/
def AuditTables.delivered (db : AuditTables) (t : String) (n : Nat) : Bool :=
  db.outbox.rows.any fun o => o.tenantID = t && o.sequence = n && o.state = .delivered

theorem delivered_iff {t : String} {n : Nat} : db.delivered t n = true ↔
    ∃ o ∈ db.outbox.rows, o.tenantID = t ∧ o.sequence = n ∧ o.state = .delivered := by
  simp [AuditTables.delivered, and_assoc]

theorem delivered_congr (h : db'.outbox = db.outbox) (t : String) (n : Nat) :
    db'.delivered t n = db.delivered t n := by
  rw [AuditTables.delivered, h]
  rfl

theorem delivered_requeue (h : Requeues db db') (t : String) (n : Nat) :
    db'.delivered t n = db.delivered t n := by
  refine h.outbox.any fun {o o'} hk => ?_
  have hstate : decide (o'.state = .delivered) = decide (o.state = .delivered) :=
    decide_eq_decide.2 hk.state
  rw [hk.tenantID, hk.sequence, hstate]

theorem delivered_admission (h : Admits pl repo db e db') (t : String) (n : Nat) :
    db'.delivered t n = db.delivered t n := by
  obtain ⟨payload, now, -, hrows⟩ := h.outbox
  simp [AuditTables.delivered, hrows, AuditLog.queued]

theorem delivered_acknowledge (logs : LogTable) (hmem : row ∈ db.outbox.rows) (t : String)
    (n : Nat) : ({ db with logs := logs }.acknowledge row).delivered t n = true ↔
      db.delivered t n = true ∨ (row.tenantID = t ∧ row.sequence = n) := by
  rw [delivered_iff, delivered_iff]
  constructor
  · rintro ⟨o, ho, ht, hn, hs⟩
    obtain ⟨p, hp, rfl⟩ :=
      (Table.mem_update db.outbox _ AuditOutbox.acknowledged (fun _ => rfl) o).1 ho
    split at ht
    · rename_i hid
      obtain rfl := db.outbox.eq_of_key_eq hp hmem (by simpa using hid)
      rw [if_pos hid] at hn
      exact .inr ⟨ht, hn⟩
    · rename_i hid
      rw [if_neg hid] at hn hs
      exact .inl ⟨p, hp, ht, hn, hs⟩
  · rintro (⟨o, ho, ht, hn, hs⟩ | ⟨ht, hn⟩)
    · refine ⟨_, (Table.mem_update db.outbox _ AuditOutbox.acknowledged (fun _ => rfl) _).2
        ⟨o, ho, rfl⟩, ?_⟩
      split
      · exact ⟨ht, hn, rfl⟩
      · exact ⟨ht, hn, hs⟩
    · refine ⟨_, (Table.mem_update db.outbox _ AuditOutbox.acknowledged (fun _ => rfl) _).2
        ⟨row, hmem, rfl⟩, ?_⟩
      rw [if_pos (by simp)]
      exact ⟨ht, hn, rfl⟩

/-! ## The number of an event is its own -/

section Unique

variable {db : AuditTables} {log : List AuditLog} {o : AuditOutbox}

theorem Ledgered.event_unique (h : Ledgered pl db log) {e e' : AuditLog} (he : e ∈ log)
    (he' : e' ∈ log) (ht : e.tenantID = e'.tenantID) (hs : links.seq e = links.seq e') : e = e' :=
  Links.eq_of_seq_eq (h.chain e'.tenantID) (List.mem_filter.2 ⟨he, by simp [ht]⟩)
    (List.mem_filter.2 ⟨he', by simp⟩) hs

theorem Ledgered.row_unique (h : Ledgered pl db log) {o o' : AuditOutbox}
    (ho : o ∈ db.outbox.rows) (ho' : o' ∈ db.outbox.rows) (ht : o.tenantID = o'.tenantID)
    (hs : o.sequence = o'.sequence) : o = o' := by
  obtain ⟨e, he, hr⟩ := exists_receipt h.receipts ho
  obtain ⟨e', he', hr'⟩ := exists_receipt h.receipts ho'
  have hsame : e = e' := by
    refine h.event_unique he he' ?_ ?_
    · rw [← hr.tenantID, ← hr'.tenantID, ht]
    · simp [links, hr.sequence, hr'.sequence, hs]
  subst hsame
  exact db.outbox.eq_of_key_eq ho ho' (hr.eventID.trans hr'.eventID.symm)

/-- The number of a row that waits is not delivered. -/
theorem Ledgered.not_delivered (h : Ledgered pl db log) (ho : o ∈ db.outbox.rows)
    (hs : o.state ≠ .delivered) : db.delivered o.tenantID o.sequence = false := by
  rw [Bool.eq_false_iff]
  intro hd
  obtain ⟨p, hp, ht, hn, hps⟩ := delivered_iff.1 hd
  obtain rfl := h.row_unique hp ho ht hn
  exact hs hps

/-- The event of a row that waits is in the payload. -/
theorem Ledgered.decoded (h : Ledgered pl db log) (ho : o ∈ db.outbox.rows)
    (hs : o.state ≠ .delivered) (hdec : unmarshal pl o.payload = some e) :
    e ∈ log ∧ Receipt pl e o := by
  obtain ⟨e', he', hr⟩ := exists_receipt h.receipts ho
  have hback := unmarshal_marshal (hr.payload hs)
  rw [hdec] at hback
  cases hback
  exact ⟨he', hr⟩

end Unique

/-! ## The chain of a tenant -/

/-- The records `cs` stand between the boundary and the head of the tenant; `log` are the events
admitted and `old` the ones restored. -/
structure Linked (db : AuditTables) (log old : List AuditLog) (t : String) (cs : List AuditLog) :
    Prop where
  leads : links.Leads ((db.boundaryOf t).sequence, (db.boundaryOf t).hash) cs
    ((db.headOf t).sequence, (db.headOf t).hash)
  /-- no personal text, and no id -/
  clean : ∀ c ∈ cs, c.archived = c
  tenantID : ∀ c ∈ cs, c.tenantID = t
  version : ∀ c ∈ cs, c.version = 1
  source : ∀ c ∈ cs, c ∈ log ∨ c ∈ old
  /-- the table holds the delivered ones -/
  hot : ∀ x, (∃ r ∈ db.hot t, r.strip = x) ↔ x ∈ cs ∧ db.delivered t (links.seq x) = true
  /-- the others are the events as they were admitted -/
  waiting : ∀ c ∈ cs, db.delivered t (links.seq c) = false → c ∈ log
  archived : ∀ n, 0 < n → n ≤ (db.boundaryOf t).sequence → db.delivered t n = true

/-- The ledger, and a chain for every tenant; other rows are from before the durable log. -/
structure Logged (pl : Platform) (db : AuditTables) (log old : List AuditLog) : Prop where
  ledger : Ledgered pl db log
  rows : ∀ r ∈ db.logs.rows, r.version = 1 ∨ (r.version = 0 ∧ r.eventID = "" ∧ r.sequence = none)
  chain : ∀ t, ∃ cs, Linked db log old t cs

section Changes

variable {db db' : AuditTables} {log old log' old' cs : List AuditLog} {t tid : String}
  {a : AuditArchive} {keys : Keys} {r : AuditLog} {es rs xs : List AuditLog} {p q : Nat × String}
  {logs : LogTable}

/-- A change that does not touch the tenant. -/
theorem Linked.frame (h : Linked db log old t cs) (hb : db'.boundaryOf t = db.boundaryOf t)
    (hseq : (db'.headOf t).sequence = (db.headOf t).sequence)
    (hhash : (db'.headOf t).hash = (db.headOf t).hash) (hhot : db'.hot t = db.hot t)
    (hd : ∀ n, db'.delivered t n = db.delivered t n) (hlog : log ⊆ log') (hold : old ⊆ old') :
    Linked db' log' old' t cs where
  leads := by rw [hb, hseq, hhash]; exact h.leads
  clean := h.clean
  tenantID := h.tenantID
  version := h.version
  source c hc := (h.source c hc).imp (fun hm => hlog hm) fun hm => hold hm
  hot x := by rw [hhot, hd]; exact h.hot x
  waiting c hc hw := hlog (h.waiting c hc (by rw [← hd]; exact hw))
  archived n hlo hhi := by
    rw [hd]
    exact h.archived n hlo (by rw [← hb]; exact hhi)

theorem boundaryOf_congr (h : db'.boundaries = db.boundaries) (t : String) :
    db'.boundaryOf t = db.boundaryOf t := by
  rw [AuditTables.boundaryOf, AuditTables.boundaryOf, h]

theorem hot_congr (h : db'.logs = db.logs) (t : String) : db'.hot t = db.hot t := by
  rw [AuditTables.hot, AuditTables.hot, h]

theorem Evidence.archived (h : Evidence e) : e.archived = e := by
  obtain ⟨hid, -, -, hemail, hip, hdetail⟩ := h
  cases e
  subst hid hemail hip hdetail
  rfl

theorem Evidence.strip (h : Evidence e) : e.strip = e := by
  obtain ⟨hid, -⟩ := h
  cases e
  subst hid
  rfl

theorem linked_admission (ha : Admits pl repo db e db') (hl : Ledgered pl db log)
    (h : Linked db log old t cs) : ∃ cs', Linked db' (log ++ [e]) old t cs' := by
  have hb : db'.boundaryOf t = db.boundaryOf t := boundaryOf_congr ha.boundaries t
  have hhot : db'.hot t = db.hot t := hot_congr ha.logs t
  have hd := delivered_admission ha t
  have hlog : log ⊆ log ++ [e] := List.subset_append_left _ _
  by_cases ht : e.tenantID = t
  · subst ht
    have hseq : links.seq e = (db.headOf e.tenantID).sequence + 1 := by
      simp [links, ha.sequence]
    -- the new number is not among the rows
    have hnew : db.delivered e.tenantID (links.seq e) = false := by
      rw [Bool.eq_false_iff]
      intro hdel
      obtain ⟨o, ho, hto, hno, -⟩ := delivered_iff.1 hdel
      have hle := hl.sequence_le ho
      rw [hto] at hle
      omega
    refine ⟨cs ++ [e], ?_, ?_, ?_, ?_, ?_, ?_, ?_, ?_⟩
    · rw [hb, ha.heads, if_pos rfl]
      exact Links.leads_concat.2 ⟨_, h.leads, hseq, ha.prevHash, rfl⟩
    · intro c hc
      rcases List.mem_append.1 hc with hc | hc
      · exact h.clean c hc
      · rw [List.mem_singleton.1 hc]
        exact ha.evidence.archived
    · intro c hc
      rcases List.mem_append.1 hc with hc | hc
      · exact h.tenantID c hc
      · rw [List.mem_singleton.1 hc]
    · intro c hc
      rcases List.mem_append.1 hc with hc | hc
      · exact h.version c hc
      · rw [List.mem_singleton.1 hc]
        exact ha.evidence.version
    · intro c hc
      rcases List.mem_append.1 hc with hc | hc
      · exact (h.source c hc).imp_left fun hm => hlog hm
      · exact .inl (List.mem_append_right _ hc)
    · intro x
      rw [hhot, hd, h.hot x, List.mem_append, List.mem_singleton]
      constructor
      · rintro ⟨hx, hdel⟩
        exact ⟨.inl hx, hdel⟩
      · rintro ⟨hx | rfl, hdel⟩
        · exact ⟨hx, hdel⟩
        · rw [hnew] at hdel
          cases hdel
    · intro c hc hw
      rcases List.mem_append.1 hc with hc | hc
      · exact hlog (h.waiting c hc (by rw [← hd]; exact hw))
      · exact List.mem_append_right _ hc
    · intro n hlo hhi
      rw [hd]
      exact h.archived n hlo (by rw [← hb]; exact hhi)
  · exact ⟨cs, h.frame hb (by rw [ha.heads, if_neg ht]) (by rw [ha.heads, if_neg ht]) hhot hd hlog
      (fun _ hm => hm)⟩

/-- The rows of the tenant after an insert. -/
theorem hot_append {new : List AuditLog} (h : logs.rows = db.logs.rows ++ new) (t : String) :
    ({ db with logs := logs } : AuditTables).hot t =
      db.hot t ++ new.filter fun r => r.tenantID = t && r.version = 1 := by
  rw [AuditTables.hot, h, List.filter_append]
  rfl

/-- A delivery inserts its event: a row with the text of the event would mean that its number is
delivered. -/
theorem Logged.inserts (h : Logged pl db log old) (hd : Delivers pl repo db row e db') :
    e ∈ log ∧ Receipt pl e row ∧ ∃ logs,
      logs.rows = db.logs.rows ++ [{ e with id := db.logs.next }] ∧
      db' = { db with logs := logs }.acknowledge row := by
  have hstate : row.state ≠ .delivered := by rw [hd.state]; decide
  obtain ⟨he, hr⟩ := h.ledger.decoded hd.mem hstate hd.decoded
  obtain ⟨logs, hafter, hcreate | ⟨-, prior, hprior, -, hcanon, -⟩⟩ := hd.after
  · exact ⟨he, hr, logs, (LogTable.create_eq_some hcreate).2.1, hafter⟩
  · exfalso
    have hsame := canonical_injective hcanon
    have hwait := h.ledger.not_delivered hd.mem hstate
    obtain ⟨cs, hcs⟩ := h.chain row.tenantID
    have hhot : prior ∈ db.hot row.tenantID := by
      refine List.mem_filter.2 ⟨hprior, ?_⟩
      simp [hsame.tenantID, hsame.version, hr.tenantID, (h.ledger.evidence e he).version]
    have hdel := ((hcs.hot prior.strip).1 ⟨prior, hhot, rfl⟩).2
    have hseq : links.seq prior.strip = row.sequence := by
      change prior.sequence.getD 0 = _
      rw [hsame.sequence, hr.sequence]
      rfl
    rw [hseq, hwait] at hdel
    cases hdel

theorem linked_deliver (hl : Ledgered pl db log) (hmem : row ∈ db.outbox.rows)
    (hstate : row.state = .leased) (he : e ∈ log) (hr : Receipt pl e row)
    (hrows : logs.rows = db.logs.rows ++ [{ e with id := db.logs.next }])
    (h : Linked db log old t cs) :
    Linked ({ db with logs := logs }.acknowledge row) log old t cs := by
  have hev := hl.evidence e he
  have hhead := headOf_acknowledge { db with logs := logs } row t
  have hhot : ({ db with logs := logs }.acknowledge row).hot t =
      db.hot t ++ [{ e with id := db.logs.next }].filter fun r => r.tenantID = t && r.version = 1 :=
    hot_append hrows t
  have hdel := delivered_acknowledge logs hmem t
  by_cases ht : row.tenantID = t
  · subst ht
    have hseq : links.seq e = row.sequence := by simp [links, hr.sequence]
    have hwait : db.delivered row.tenantID row.sequence = false :=
      hl.not_delivered hmem (by rw [hstate]; decide)
    -- the event is the record of the chain with its number
    have hec : e ∈ cs := by
      have hhi : row.sequence ≤ (db.headOf row.tenantID).sequence := hl.sequence_le hmem
      have hpos : 0 < row.sequence := by
        have := (Links.seq_of_mem (hl.chain row.tenantID)
          (List.mem_filter.2 ⟨he, by simp [hr.tenantID]⟩)).1
        omega
      have hlo : (db.boundaryOf row.tenantID).sequence < row.sequence := by
        by_contra hle
        have := h.archived row.sequence hpos (by omega)
        rw [hwait] at this
        cases this
      obtain ⟨c, hc, hcseq⟩ := Links.exists_seq h.leads hlo hhi
      have hclog := h.waiting c hc (by rw [hcseq]; exact hwait)
      have hce : c = e := by
        refine hl.event_unique hclog he ?_ (by rw [hcseq, hseq])
        rw [h.tenantID c hc, hr.tenantID]
      rwa [← hce]
    have hnew : ([{ e with id := db.logs.next }] : List AuditLog).filter
        (fun r => r.tenantID = row.tenantID && r.version = 1) =
          [{ e with id := db.logs.next }] := by
      simp [hr.tenantID, hev.version]
    refine ⟨?_, h.clean, h.tenantID, h.version, h.source, ?_, ?_, ?_⟩
    · rw [hhead]
      exact h.leads
    · intro x
      rw [hhot, hnew, hdel]
      constructor
      · rintro ⟨r, hr', rfl⟩
        rcases List.mem_append.1 hr' with hr' | hr'
        · obtain ⟨hx, hdx⟩ := (h.hot r.strip).1 ⟨r, hr', rfl⟩
          exact ⟨hx, .inl hdx⟩
        · rw [List.mem_singleton.1 hr']
          have hstrip : ({ e with id := db.logs.next } : AuditLog).strip = e := hev.strip
          rw [hstrip]
          exact ⟨hec, .inr ⟨rfl, hseq.symm⟩⟩
      · rintro ⟨hx, hdx | ⟨-, hdx⟩⟩
        · obtain ⟨r, hr', rfl⟩ := (h.hot x).2 ⟨hx, hdx⟩
          exact ⟨r, List.mem_append_left _ hr', rfl⟩
        · obtain rfl := Links.eq_of_seq_eq h.leads hx hec (by rw [← hdx, hseq])
          exact ⟨_, List.mem_append_right _ (List.mem_singleton.2 rfl), hev.strip⟩
    · intro c hc hw
      refine h.waiting c hc ?_
      rw [Bool.eq_false_iff] at hw ⊢
      exact fun hdc => hw ((hdel _).2 (.inl hdc))
    · intro n hlo hhi
      exact (hdel n).2 (.inl (h.archived n hlo hhi))
  · have hnew : ([{ e with id := db.logs.next }] : List AuditLog).filter
        (fun r => r.tenantID = t && r.version = 1) = [] := by
      simp [← hr.tenantID, ht]
    refine h.frame (boundaryOf_congr rfl t) ?_ ?_ ?_ ?_ (fun _ hm => hm) fun _ hm => hm
    · rw [hhead]; rfl
    · rw [hhead]; rfl
    · rw [hhot, hnew, List.append_nil]
    · intro n
      have hiff := hdel n
      rw [Bool.eq_iff_iff, hiff]
      simp [ht]

theorem boundaryOf_setBoundary (db : AuditTables) (b : AuditBoundary) (t : String) :
    (db.setBoundary b).boundaryOf t = if b.tenantID = t then b else db.boundaryOf t := by
  rw [boundaryOf_eq, boundaryOf_eq, AuditTables.setBoundary, Table.get?_put]
  split <;> rfl

theorem inRange_iff {lo hi : Nat} (h : links.seq r ≠ 0) :
    inRange lo hi r = true ↔ lo < links.seq r ∧ links.seq r ≤ hi := by
  unfold inRange
  simp only [links] at h ⊢
  cases hs : r.sequence with
  | none => rw [hs] at h; exact absurd rfl h
  | some n => simp

/-- The rows of the table, as records of the chain. -/
theorem Linked.perm (h : Linked db log old t cs) :
    ((db.hot t).map AuditLog.strip).Perm (cs.filter fun c => db.delivered t (links.seq c)) := by
  have hcs : cs.Nodup := (Links.leads_sorted h.leads).imp fun hlt heq => by
    rw [heq] at hlt
    exact Nat.lt_irrefl _ hlt
  have hrows : ((db.hot t).map AuditLog.strip).Nodup := by
    refine List.pairwise_map.2 ((db.logs.apart.filter _).imp_of_mem fun {a b} ha hb hab heq => ?_)
    -- equal records have one number, and the table has it once
    have htenant : a.strip.tenantID = b.strip.tenantID := congrArg AuditLog.tenantID heq
    have hseq : a.strip.sequence = b.strip.sequence := congrArg AuditLog.sequence heq
    have hnone := hab.sequence htenant hseq
    have hmem := ((h.hot b.strip).1 ⟨b, hb, rfl⟩).1
    have hpos := (Links.seq_of_mem h.leads hmem).1
    have hzero : links.seq b.strip = 0 := by
      change b.sequence.getD 0 = 0
      rw [hnone]
      rfl
    omega
  refine (List.perm_ext_iff_of_nodup hrows (hcs.filter _)).2 fun x => ?_
  rw [List.mem_map, List.mem_filter]
  exact h.hot x

/-- The rows of the table in a range, as records of the chain. -/
theorem Linked.range (h : Linked db log old t cs) (lo hi : Nat) :
    (db.range t lo hi).map AuditLog.strip =
      (cs.filter fun c => db.delivered t (links.seq c)).filter (inRange lo hi) :=
  range_eq h.perm ((Links.leads_sorted h.leads).filter _)

theorem leads_strip : links.Leads p (xs.map AuditLog.strip) q ↔ links.Leads p xs q :=
  Links.leads_map (fun _ => rfl) (fun _ => rfl) fun _ => rfl

theorem leads_archived : links.Leads p (xs.map AuditLog.archived) q ↔ links.Leads p xs q :=
  Links.leads_map (fun _ => rfl) (fun _ => rfl) fun _ => rfl

/-- A purge takes the records next to the boundary off the chain. -/
theorem Linked.purged (h : Linked db log old t cs) (hp : Purges pl keys t a db db') :
    ∃ ys zs, cs = ys ++ zs ∧ links.Leads (a.base.sequence, a.base.hash) ys
        (a.end_.sequence, a.end_.hash) ∧
      links.Leads (a.end_.sequence, a.end_.hash) zs ((db.headOf t).sequence, (db.headOf t).hash) ∧
      ∀ y ∈ ys, db.delivered t (links.seq y) = true := by
  obtain ⟨-, -, -, hleads⟩ := verifyEvents_iff.1 hp.rows
  have hys := leads_strip.2 hleads
  rw [h.range] at hys
  have hcs := h.leads
  rw [hp.sequence, hp.hash] at hcs
  obtain ⟨zs, hsplit, hzs⟩ := Links.leads_initial hcs hys
    (List.filter_sublist.trans List.filter_sublist)
  refine ⟨_, zs, hsplit, hys, hzs, fun y hy => ?_⟩
  exact (List.mem_filter.1 (List.mem_filter.1 hy).1).2

theorem hot_purge (hp : Purges pl keys tid a db db') (t : String) :
    db'.hot t = (db.hot t).filter fun r => !a.covers tid r := by
  rw [hp.after]
  change ((db.logs.rows.filter fun r => !a.covers tid r).filter _) = _
  rw [AuditTables.hot, List.filter_comm]

theorem linked_purge (hp : Purges pl keys tid a db db') (h : Linked db log old t cs) :
    ∃ cs', Linked db' log old t cs' := by
  have hhot := hot_purge hp t
  have hhead : db'.headOf t = db.headOf t := headOf_congr (by rw [hp.after]; rfl) t
  have hd : ∀ n, db'.delivered t n = db.delivered t n :=
    delivered_congr (by rw [hp.after]; rfl) t
  have hb : db'.boundaryOf t = if tid = t then ⟨tid, a.end_.sequence, a.end_.hash⟩
      else db.boundaryOf t := by
    rw [hp.after, boundaryOf_setBoundary, boundaryOf_tenantID]
    rfl
  by_cases ht : tid = t
  · subst ht
    obtain ⟨ys, zs, rfl, hys, hzs, hydel⟩ := h.purged hp
    rw [if_pos rfl] at hb
    have hmem : ∀ {z}, z ∈ zs → z ∈ ys ++ zs := fun hz => List.mem_append_right _ hz
    refine ⟨zs, ?_, fun c hc => h.clean c (hmem hc), fun c hc => h.tenantID c (hmem hc),
      fun c hc => h.version c (hmem hc), fun c hc => h.source c (hmem hc), ?_, ?_, ?_⟩
    · rw [hb, hhead]
      exact hzs
    · intro x
      rw [hhot, hd]
      constructor
      · rintro ⟨r, hr, rfl⟩
        obtain ⟨hr, hcov⟩ := List.mem_filter.1 hr
        obtain ⟨hx, hdx⟩ := (h.hot r.strip).1 ⟨r, hr, rfl⟩
        refine ⟨(List.mem_append.1 hx).resolve_left fun hy => ?_, hdx⟩
        -- a record before the new boundary is covered
        have hrange := Links.seq_of_mem hys hy
        obtain ⟨-, hver⟩ := List.mem_filter.1 hr
        have hin : inRange a.base.sequence a.end_.sequence r = true :=
          (inRange_iff (show links.seq r ≠ 0 from by
            have : links.seq r = links.seq r.strip := rfl
            omega)).2 hrange
        simp only [AuditArchive.covers, hver, hin, Bool.and_self, Bool.not_true,
          Bool.false_eq_true] at hcov
      · rintro ⟨hx, hdx⟩
        obtain ⟨r, hr, rfl⟩ := (h.hot x).2 ⟨hmem hx, hdx⟩
        refine ⟨r, List.mem_filter.2 ⟨hr, ?_⟩, rfl⟩
        have hlater := (Links.seq_of_mem hzs hx).1
        have hout : inRange a.base.sequence a.end_.sequence r = false := by
          rw [Bool.eq_false_iff]
          intro hin
          have hseq : links.seq r.strip = links.seq r := rfl
          have := ((inRange_iff (by omega)).1 hin).2
          omega
        simp [AuditArchive.covers, hout]
    · intro c hc hw
      exact h.waiting c (hmem hc) (by rw [← hd]; exact hw)
    · intro n hlo hhi
      rw [hb] at hhi
      rw [hd]
      by_cases hn : n ≤ a.base.sequence
      · exact h.archived n hlo (by rw [hp.sequence]; exact hn)
      · obtain ⟨y, hy, hyn⟩ := Links.exists_seq hys (Nat.lt_of_not_le hn) hhi
        rw [← hyn]
        exact hydel y hy
  · rw [if_neg ht] at hb
    have hsame : db'.hot t = db.hot t := by
      rw [hhot, List.filter_eq_self]
      intro r hr
      have htr : r.tenantID = t := by
        have := (List.mem_filter.1 hr).2
        simp only [Tenants.same_eq, Bool.and_eq_true, decide_eq_true_eq] at this
        exact this.1
      simp [AuditArchive.covers, htr, Ne.symm ht]
    exact ⟨cs, h.frame hb (by rw [hhead]) (by rw [hhead]) hsame hd (fun _ hm => hm) fun _ hm => hm⟩

/-- The rows a restore has inserted carry what was verified. -/
theorem restored_row {events new : List AuditLog} (hver : ∀ e ∈ events, Verified pl keys tid e)
    (hnew : new.map AuditLog.strip = events.map AuditLog.archived) (hr : r ∈ new) :
    r.tenantID = tid ∧ r.version = 1 := by
  have hmem : r.strip ∈ events.map AuditLog.archived := by
    rw [← hnew]
    exact List.mem_map_of_mem hr
  obtain ⟨e, he, hre⟩ := List.mem_map.1 hmem
  have hv := hver e he
  obtain ⟨key, -, hsigned⟩ := Keys.verify_iff.1 hv.verify
  have ht : e.archived.tenantID = r.strip.tenantID := congrArg AuditLog.tenantID hre
  have hn : e.archived.version = r.strip.version := congrArg AuditLog.version hre
  exact ⟨ht.symm.trans hv.tenantID, hn.symm.trans hsigned.version⟩

/-- The number of a record that a restore puts back is delivered. -/
theorem Linked.restored_delivered (h : Linked db log old t cs) (hr : Restores pl keys t a db db') :
    ∀ y ∈ a.events.map AuditLog.archived, db.delivered t (links.seq y) = true := by
  obtain ⟨-, -, -, hleads⟩ := verifyEvents_iff.1 hr.archived
  intro y hy
  obtain ⟨hlo, hhi⟩ := Links.seq_of_mem (leads_archived.2 hleads) hy
  exact h.archived _ (by omega) (by rw [hr.sequence]; exact hhi)

/-- A restore puts its records back next to the boundary. -/
theorem linked_restore_same (hr : Restores pl keys t a db db') (h : Linked db log old t cs) :
    Linked db' log (old ++ a.events.map AuditLog.archived) t
      (a.events.map AuditLog.archived ++ cs) := by
  have hdel := h.restored_delivered hr
  obtain ⟨logs, hlogs, hafter⟩ := hr.after
  rw [boundaryOf_tenantID] at hafter
  subst hafter
  obtain ⟨new, hrows, hnew, -⟩ := restore_rows hlogs
  obtain ⟨-, -, hver, hleads⟩ := verifyEvents_iff.1 hr.archived
  have hb : ({ db with logs := logs }.setBoundary ⟨t, a.base.sequence, a.base.hash⟩).boundaryOf t =
      ⟨t, a.base.sequence, a.base.hash⟩ := by
    rw [boundaryOf_setBoundary, if_pos rfl]
  have hd : ∀ n, ({ db with logs := logs }.setBoundary
      ⟨t, a.base.sequence, a.base.hash⟩).delivered t n = db.delivered t n :=
    delivered_congr rfl t
  have hall : (new.filter fun r => r.tenantID = t && r.version = 1) = new := by
    rw [List.filter_eq_self]
    intro r hm
    simp [restored_row hver hnew hm]
  have hhot := hot_append hrows t
  rw [hall] at hhot
  have hle := Links.leads_length hleads
  have hcs := h.leads
  rw [hr.sequence, hr.hash] at hcs
  refine ⟨?_, ?_, ?_, ?_, ?_, ?_, ?_, ?_⟩
  · rw [hb]
    exact Links.leads_append.2 ⟨_, leads_archived.2 hleads, hcs⟩
  · intro c hc
    rcases List.mem_append.1 hc with hc | hc
    · obtain ⟨e, -, rfl⟩ := List.mem_map.1 hc
      rfl
    · exact h.clean c hc
  · intro c hc
    rcases List.mem_append.1 hc with hc | hc
    · obtain ⟨e, he, rfl⟩ := List.mem_map.1 hc
      exact (hver e he).tenantID
    · exact h.tenantID c hc
  · intro c hc
    rcases List.mem_append.1 hc with hc | hc
    · obtain ⟨e, he, rfl⟩ := List.mem_map.1 hc
      obtain ⟨key, -, hsigned⟩ := Keys.verify_iff.1 (hver e he).verify
      exact hsigned.version
    · exact h.version c hc
  · intro c hc
    rcases List.mem_append.1 hc with hc | hc
    · exact .inr (List.mem_append_right _ hc)
    · exact (h.source c hc).imp_right fun hm => List.mem_append_left _ hm
  · intro x
    rw [hd, List.mem_append]
    change (∃ r ∈ ({ db with logs := logs } : AuditTables).hot t, r.strip = x) ↔ _
    rw [hhot]
    constructor
    · rintro ⟨r, hm, rfl⟩
      rcases List.mem_append.1 hm with hm | hm
      · obtain ⟨hx, hdx⟩ := (h.hot r.strip).1 ⟨r, hm, rfl⟩
        exact ⟨.inr hx, hdx⟩
      · have hx : r.strip ∈ a.events.map AuditLog.archived := by
          rw [← hnew]
          exact List.mem_map_of_mem hm
        exact ⟨.inl hx, hdel _ hx⟩
    · rintro ⟨hx | hx, hdx⟩
      · rw [← hnew] at hx
        obtain ⟨r, hm, rfl⟩ := List.mem_map.1 hx
        exact ⟨r, List.mem_append_right _ hm, rfl⟩
      · obtain ⟨r, hm, rfl⟩ := (h.hot x).2 ⟨hx, hdx⟩
        exact ⟨r, List.mem_append_left _ hm, rfl⟩
  · intro c hc hw
    rw [hd] at hw
    rcases List.mem_append.1 hc with hc | hc
    · rw [hdel c hc] at hw
      cases hw
    · exact h.waiting c hc hw
  · intro n hlo hhi
    rw [hb] at hhi
    refine h.archived n hlo ?_
    rw [hr.sequence]
    simp only at hle hhi
    omega

theorem linked_restore (hr : Restores pl keys tid a db db') (h : Linked db log old t cs) :
    ∃ cs', Linked db' log (old ++ a.events.map AuditLog.archived) t cs' := by
  by_cases ht : tid = t
  · subst ht
    exact ⟨_, linked_restore_same hr h⟩
  · obtain ⟨logs, hlogs, hafter⟩ := hr.after
    rw [boundaryOf_tenantID] at hafter
    subst hafter
    obtain ⟨new, hrows, hnew, -⟩ := restore_rows hlogs
    obtain ⟨-, -, hver, -⟩ := verifyEvents_iff.1 hr.archived
    have hb := boundaryOf_setBoundary { db with logs := logs }
      ⟨tid, a.base.sequence, a.base.hash⟩ t
    rw [if_neg ht] at hb
    have hhot := hot_append hrows t
    have hother : (new.filter fun r => r.tenantID = t && r.version = 1) = [] := by
      rw [List.filter_eq_nil_iff]
      intro r hm
      simp [restored_row hver hnew hm, ht]
    rw [hother, List.append_nil] at hhot
    exact ⟨cs, h.frame hb rfl rfl hhot (delivered_congr rfl t) (fun _ hm => hm)
      (List.subset_append_left _ _)⟩

theorem anonymized_of_clean (hv : r.strip.version = 1) (hc : r.strip.archived = r.strip) :
    r.anonymized = r := by
  cases r
  simp only [AuditLog.strip, AuditLog.archived, AuditLog.mk.injEq, true_and, and_true] at hv hc
  obtain ⟨hemail, hip, hdetail⟩ := hc
  subst hemail hip hdetail
  simp [AuditLog.anonymized, hv]

/-- The rows of the chain have no personal text to erase. -/
theorem hot_anonymize (h : Linked db log old t cs) (tenant : String) (userID : Nat) :
    (anonymizeUser tenant userID db).hot t = db.hot t := by
  change (db.logs.rows.map _).filter _ = _
  rw [List.filter_map]
  have hfilter : ((fun r : AuditLog => Tenants.same r.tenantID t && decide (r.version = 1)) ∘
      fun r => if r.userID = some userID ∧ Tenants.same r.tenantID tenant then r.anonymized
        else r) = fun r => Tenants.same r.tenantID t && decide (r.version = 1) := by
    funext r
    simp only [Function.comp_apply]
    split <;> rfl
  rw [hfilter]
  conv_rhs => rw [← List.map_id (db.hot t)]
  refine List.map_congr_left fun r hm => ?_
  have hx := ((h.hot r.strip).1 ⟨r, hm, rfl⟩).1
  split
  · exact anonymized_of_clean (h.version _ hx) (h.clean _ hx)
  · rfl

/-- The rows are of version 1, or from before the durable log. -/
theorem Logged.rows_change (hc : Change pl repo db es rs db') (h : Logged pl db log old) :
    ∀ r ∈ db'.logs.rows, r.version = 1 ∨ (r.version = 0 ∧ r.eventID = "" ∧ r.sequence = none) := by
  cases hc with
  | admission ha => rw [ha.logs]; exact h.rows
  | requeue hq => rw [hq.logs]; exact h.rows
  | deliver hd =>
    obtain ⟨he, -, logs, hrows, rfl⟩ := h.inserts hd
    intro r hr
    change r ∈ logs.rows at hr
    rw [hrows] at hr
    rcases List.mem_append.1 hr with hr | hr
    · exact h.rows r hr
    · rw [List.mem_singleton.1 hr]
      exact .inl (h.ledger.evidence _ he).version
  | purge hp =>
    rw [hp.after]
    intro r hr
    exact h.rows r (List.mem_filter.1 hr).1
  | restore hr =>
    rename_i tid a
    obtain ⟨logs, hlogs, rfl⟩ := hr.after
    obtain ⟨new, hrows, hnew, -⟩ := restore_rows hlogs
    obtain ⟨-, -, hver, -⟩ := verifyEvents_iff.1 hr.archived
    intro r hm
    change r ∈ logs.rows at hm
    rw [hrows] at hm
    rcases List.mem_append.1 hm with hm | hm
    · exact h.rows r hm
    · exact .inl (restored_row hver hnew hm).2
  | anonymize =>
    intro r hr
    obtain ⟨s, hs, rfl⟩ := List.mem_map.1 hr
    have hrow := h.rows s hs
    split <;> exact hrow

theorem logged_change (hc : Change pl repo db es rs db') (h : Logged pl db log old) :
    Logged pl db' (log ++ es) (old ++ rs) := by
  refine ⟨ledgered_change hc h.ledger, h.rows_change hc, fun t => ?_⟩
  obtain ⟨cs, hcs⟩ := h.chain t
  cases hc with
  | admission ha =>
    rw [List.append_nil]
    exact linked_admission ha h.ledger hcs
  | requeue hq =>
    rw [List.append_nil, List.append_nil]
    exact ⟨cs, hcs.frame (boundaryOf_congr hq.boundaries t) (by rw [headOf_congr hq.heads])
      (by rw [headOf_congr hq.heads]) (hot_congr hq.logs t) (delivered_requeue hq t)
      (fun _ hm => hm) fun _ hm => hm⟩
  | deliver hd =>
    rw [List.append_nil, List.append_nil]
    obtain ⟨he, hr, logs, hrows, rfl⟩ := h.inserts hd
    exact ⟨cs, linked_deliver h.ledger hd.mem hd.state he hr hrows hcs⟩
  | purge hp =>
    rw [List.append_nil, List.append_nil]
    exact linked_purge hp hcs
  | restore hr =>
    rw [List.append_nil]
    exact linked_restore hr hcs
  | anonymize tenant userID =>
    rw [List.append_nil, List.append_nil]
    exact ⟨cs, hcs.frame (boundaryOf_congr rfl t) rfl rfl (hot_anonymize hcs tenant userID)
      (delivered_congr rfl t) (fun _ hm => hm) fun _ hm => hm⟩

end Changes

theorem boundaryOf_fresh (h : db.Fresh) (t : String) :
    db.boundaryOf t = ⟨t, 0, genesisAuditHash⟩ := by
  have hnone : db.boundaries.get? t = none := by
    rw [Table.get?_eq_none_iff]
    simp [h.boundaries]
  rw [boundaryOf_eq, hnone]
  rfl

theorem logged_fresh (h : db.Fresh) : Logged pl db [] [] where
  ledger := ledgered_fresh h
  rows r hr := .inr (h.logs r hr)
  chain t := by
    have hhot : db.hot t = [] := by
      refine List.filter_eq_nil_iff.2 fun r hr => ?_
      simp [(h.logs r hr).1]
    refine ⟨[], ?_, ?_, ?_, ?_, ?_, ?_, ?_, ?_⟩
    · rw [boundaryOf_fresh h, headOf_fresh h]
      rfl
    · exact fun c hc => by cases hc
    · exact fun c hc => by cases hc
    · exact fun c hc => by cases hc
    · exact fun c hc => by cases hc
    · simp [hhot]
    · exact fun c hc => by cases hc
    · intro n hlo hhi
      rw [boundaryOf_fresh h] at hhi
      simp only at hhi
      omega

/-- **In every state the rows of `audit_logs` are the delivered records of a chain** from the
boundary to the head, for every tenant. -/
theorem logged_run {s₀ : Store β} (h₀ : s₀.tables.Fresh) (steps : List (AuditStep β ρ)) :
    Logged pl (auditRun pl maxPending s₀ steps).state.tables
      (committed (auditRun pl maxPending s₀ steps)) (restored (auditRun pl maxPending s₀ steps)) :=
  run_induct (fun _ hc h => logged_change hc h) (logged_fresh h₀) steps

end FinnAuth.Audit
