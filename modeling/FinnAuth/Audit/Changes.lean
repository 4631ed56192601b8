import FinnAuth.Audit.Archive

/-!
# What a transaction can do to the audit tables

Every transaction of the repository makes one of six changes to the audit tables, or none: it admits
an event, moves rows that wait, delivers a row, purges or restores an archive, or erases personal
text. `Change` says what each of them finds and leaves; the invariants of the log are proved about
the changes, not about the transactions.

Results:
* `admitEvent_ok`, `claim_change`, `deliver_ok`, `failClaim_change`, `requeueDead_change`: each
  transaction makes its change;
* `run_rel`: what every call of an operation body does, the body does;
* **`run_changes`**: a body makes a sequence of changes, one admission for every event it recorded.
-/

namespace FinnAuth.Audit

open Lib

variable {pl : Platform} {repo : AuditRepository}

/-! ## Admission -/

variable {db db' : AuditTables} {o : AuditOutbox} {a : Admission} {e : AuditLog}

/-- An event is appended to the chain of its tenant and waits in the outbox. -/
structure Admits (pl : Platform) (repo : AuditRepository) (db : AuditTables) (e : AuditLog)
    (db' : AuditTables) : Prop where
  evidence : Evidence e
  sequence : e.sequence = some ((db.headOf e.tenantID).sequence + 1)
  prevHash : e.prevHash = (db.headOf e.tenantID).hash
  keyID : e.keyID = repo.keys.current
  signed : Keys.SignedWith pl repo.keys.signingKey e
  capacity : (db.headOf e.tenantID).pending < repo.maxPending
  outbox : ∃ payload now, marshal pl e = some payload ∧
    db'.outbox.rows = db.outbox.rows ++ [e.queued payload now]
  heads : ∀ t, db'.headOf t =
    if e.tenantID = t then ⟨t, (db.headOf t).sequence + 1, e.recordHash, (db.headOf t).pending + 1⟩
    else db.headOf t
  boundaries : db'.boundaries = db.boundaries
  logs : db'.logs = db.logs

theorem enqueue_eq_some [Tenants] (h : db.enqueue o = some db') :
    ∃ outbox, db.outbox.insert o = some outbox ∧ db' = { db with outbox := outbox } := by
  unfold AuditTables.enqueue at h
  split at h
  · cases h
  · obtain ⟨outbox, hi, rfl⟩ := Option.map_eq_some_iff.1 h
    exact ⟨outbox, hi, rfl⟩

theorem headOf_setHead (db : AuditTables) (h : AuditHead) (t : String) :
    (db.setHead h).headOf t = if h.tenantID = t then h else db.headOf t := by
  rw [headOf_eq, headOf_eq, AuditTables.setHead, Table.get?_put]
  split <;> rfl

/-- The event and the tables of an admission that succeeds. -/
theorem admitEvent_spec [Tenants] {fresh : Nat} (h : admitEvent pl repo a fresh db = .ok (e, db')) :
    ∃ c payload outbox, capture pl a.ctx a.capturedAt fresh a.entry = some c ∧
      e = repo.chain pl (db.headOf c.tenantID) c ∧
      (db.headOf c.tenantID).pending < repo.maxPending ∧ marshal pl e = some payload ∧
      db.outbox.insert (e.queued payload a.queuedAt) = some outbox ∧
      db' = { db with outbox := outbox }.setHead ⟨(db.headOf c.tenantID).tenantID,
        (db.headOf c.tenantID).sequence + 1, e.recordHash,
        (db.headOf c.tenantID).pending + 1⟩ := by
  unfold admitEvent at h
  split at h
  · cases h
  rename_i c hc
  split at h
  · cases h
  split at h
  · cases h
  split at h
  · cases h
  rename_i hcap
  simp only at h
  split at h
  · cases h
  rename_i payload hpayload
  split at h
  · cases h
  rename_i db₁ hq
  split at h
  · cases h
  cases h
  obtain ⟨outbox, hi, rfl⟩ := enqueue_eq_some hq
  exact ⟨c, payload, outbox, hc, rfl, Nat.lt_of_not_le hcap, hpayload, hi, rfl⟩

theorem admitEvent_ok {fresh : Nat} (h : admitEvent pl repo a fresh db = .ok (e, db')) :
    Admits pl repo db e db' := by
  obtain ⟨c, payload, outbox, hc, rfl, hcap, hpayload, hi, rfl⟩ := admitEvent_spec h
  obtain ⟨hev, -⟩ := evidence_capture hc
  have hsigned : Keys.SignedWith pl repo.keys.signingKey (repo.chain pl (db.headOf c.tenantID) c) :=
    Keys.signedWith_sign hev.version (Nat.succ_ne_zero _)
  refine ⟨⟨hev.id, hev.version, hev.eventID, hev.email, hev.ipAddress, hev.detail⟩, rfl, rfl, rfl,
    hsigned, hcap, ⟨payload, a.queuedAt, hpayload, (Table.insert_eq_some hi).2⟩, ?_,
    rfl, rfl⟩
  intro t
  rw [headOf_setHead, headOf_tenantID]
  change (if c.tenantID = t then _ else _) = if c.tenantID = t then _ else _
  split
  · rename_i ht
    subst ht
    rfl
  · rfl

/-! ## Rows that wait -/

/-- The row is the receipt of the same event, and as delivered as before. -/
structure AuditOutbox.Keeps (o o' : AuditOutbox) : Prop where
  eventID : o'.eventID = o.eventID
  tenantID : o'.tenantID = o.tenantID
  sequence : o'.sequence = o.sequence
  hash : o'.hash = o.hash
  keyID : o'.keyID = o.keyID
  payload : o'.payload = o.payload
  state : o'.state = .delivered ↔ o.state = .delivered

theorem AuditOutbox.Keeps.refl (o : AuditOutbox) : o.Keeps o :=
  ⟨rfl, rfl, rfl, rfl, rfl, rfl, Iff.rfl⟩

/-- Rows of the outbox move on, none of them to or from delivery. -/
structure Requeues (db db' : AuditTables) : Prop where
  outbox : db.outbox.Moves AuditOutbox.Keeps db'.outbox
  heads : db'.heads = db.heads
  boundaries : db'.boundaries = db.boundaries
  logs : db'.logs = db.logs

theorem requeues_update {p : AuditOutbox → Bool} {f : AuditOutbox → AuditOutbox}
    {hf : ∀ o, (f o).eventID = o.eventID} (h : ∀ o ∈ db.outbox.rows, p o = true → o.Keeps (f o)) :
    Requeues db (db.updateOutbox p f hf) :=
  ⟨Table.moves_of_rows rfl AuditOutbox.Keeps.refl h, rfl, rfl, rfl⟩

/-! ## Delivery -/

/-- A row is delivered: the event of its payload stands in `audit_logs`, because it was inserted or
because it was there. -/
structure Delivers [Tenants] (pl : Platform) (repo : AuditRepository) (db : AuditTables)
    (row : AuditOutbox) (e : AuditLog) (db' : AuditTables) : Prop where
  mem : row ∈ db.outbox.rows
  state : row.state = .leased
  decoded : unmarshal pl row.payload = some e
  describes : row.describes e = true
  verify : repo.keys.verify pl e = true
  after : ∃ logs, db' = { db with logs := logs }.acknowledge row ∧
    (db.logs.create e = some logs ∨
      logs = db.logs ∧ ∃ prior ∈ db.logs.rows, prior.eventID = e.eventID ∧
        canonical prior = canonical e ∧ prior.recordHash = e.recordHash)

/-! ## The changes -/

/-- A change of the audit tables by the repository of one process, with the events it admits and the
ones it restores. -/
inductive Change (pl : Platform) (repo : AuditRepository) :
    AuditTables → List AuditLog → List AuditLog → AuditTables → Prop where
  | admission {db db' : AuditTables} {e : AuditLog} (h : Admits pl repo db e db') :
      Change pl repo db [e] [] db'
  | requeue {db db' : AuditTables} (h : Requeues db db') : Change pl repo db [] [] db'
  | deliver {db db' : AuditTables} {row : AuditOutbox} {e : AuditLog}
      (h : Delivers pl repo db row e db') : Change pl repo db [] [] db'
  | purge {db db' : AuditTables} {tid : String} {a : AuditArchive}
      (h : Purges pl repo.keys tid a db db') : Change pl repo db [] [] db'
  | restore {db db' : AuditTables} {tid : String} {a : AuditArchive}
      (h : Restores pl repo.keys tid a db db') :
      Change pl repo db [] (a.events.map AuditLog.archived) db'
  | anonymize (db : AuditTables) (tenant : String) (userID : Nat) :
      Change pl repo db [] [] (anonymizeUser tenant userID db)

/-- A sequence of changes. -/
inductive Changes (pl : Platform) (repo : AuditRepository) :
    AuditTables → List AuditLog → List AuditLog → AuditTables → Prop where
  | refl (db : AuditTables) : Changes pl repo db [] [] db
  | head {db db' db'' : AuditTables} {es rs es' rs' : List AuditLog}
      (h : Change pl repo db es rs db') (hs : Changes pl repo db' es' rs' db'') :
      Changes pl repo db (es ++ es') (rs ++ rs') db''

theorem Change.changes {es rs : List AuditLog} (h : Change pl repo db es rs db') :
    Changes pl repo db es rs db' := by
  have hs := Changes.head h (.refl db')
  rwa [List.append_nil, List.append_nil] at hs

theorem Changes.trans {db db' db'' : AuditTables} {es rs es' rs' : List AuditLog}
    (h : Changes pl repo db es rs db') (h' : Changes pl repo db' es' rs' db'') :
    Changes pl repo db (es ++ es') (rs ++ rs') db'' := by
  induction h with
  | refl db => exact h'
  | head hc _ ih => rw [List.append_assoc, List.append_assoc]; exact .head hc (ih h')

/-- **What every change keeps, a sequence of them keeps.** The invariant may speak of the events
admitted and of the ones restored so far. -/
theorem Changes.induct {I : AuditTables → List AuditLog → List AuditLog → Prop}
    (hI : ∀ {db db' es rs log old}, Change pl repo db es rs db' → I db log old →
      I db' (log ++ es) (old ++ rs)) {es rs log old : List AuditLog}
    (h : Changes pl repo db es rs db') (hdb : I db log old) : I db' (log ++ es) (old ++ rs) := by
  induction h generalizing log old with
  | refl db => rwa [List.append_nil, List.append_nil]
  | head hc _ ih =>
    rw [← List.append_assoc, ← List.append_assoc]
    exact ih (hI hc hdb)

/-! ## Each transaction makes its change -/

section Transactions

variable {db db' : AuditTables} {now : Int} {c : AuditOutbox}

theorem mem_of_earliest {l : List AuditOutbox} (h : earliest l = some o) : o ∈ l := by
  induction l generalizing o with
  | nil => cases h
  | cons p l ih =>
    unfold earliest at h
    split at h
    · cases h
      exact List.mem_cons_self
    · rename_i q hq
      split at h
      · cases h
        exact List.mem_cons_self
      · cases h
        exact List.mem_cons_of_mem _ (ih hq)

/-- The row a claim finds is due. -/
theorem claimable_spec {locked : String → Bool} {row : AuditOutbox}
    (h : db.claimable now locked = some row) : row ∈ db.outbox.rows ∧ row.due now = true := by
  have hmem := List.mem_filter.1 (mem_of_earliest h)
  exact ⟨hmem.1, (Bool.and_eq_true _ _ ▸ hmem.2).1⟩

theorem due_waits (h : o.due now = true) : o.state ≠ .delivered := by
  intro hs
  simp [AuditOutbox.due, hs] at h

theorem claimed_waits (now : Int) (token : String) (o : AuditOutbox) :
    (o.claimed now token).state ≠ .delivered := by
  unfold AuditOutbox.claimed
  simp only
  split <;> decide

theorem claim_snd (db : AuditTables) (now : Int) (locked : String → Bool) (token : String) :
    (claim now locked token db).2 = db ∨ ∃ row, db.claimable now locked = some row ∧
      (claim now locked token db).2 = db.updateOutbox (·.eventID = row.eventID)
        (AuditOutbox.claimed now token) fun _ => rfl := by
  unfold claim
  split
  · exact .inl rfl
  · rename_i row hrow
    refine .inr ⟨row, hrow, ?_⟩
    split <;> rfl

theorem claim_change (now : Int) (locked : String → Bool) (token : String) :
    Requeues db (claim now locked token db).2 := by
  rcases claim_snd db now locked token with h | ⟨row, hrow, h⟩
  · rw [h]
    exact ⟨Table.Moves.refl AuditOutbox.Keeps.refl _, rfl, rfl, rfl⟩
  · rw [h]
    obtain ⟨hmem, hdue⟩ := claimable_spec hrow
    refine requeues_update fun o ho hp => ⟨rfl, rfl, rfl, rfl, rfl, rfl, ?_⟩
    obtain rfl := db.outbox.eq_of_key_eq ho hmem (by simpa using hp)
    exact iff_of_false (claimed_waits now token o) (due_waits hdue)

theorem failClaim_change (c : AuditOutbox) (now : Int) : Requeues db (failClaim c now db) := by
  refine requeues_update fun o _ hp => ⟨rfl, rfl, rfl, rfl, rfl, rfl, ?_⟩
  simp only [Bool.and_eq_true, decide_eq_true_eq] at hp
  refine iff_of_false ?_ (by rw [hp.1.2]; decide)
  unfold AuditOutbox.failed
  simp only
  split <;> decide

theorem requeueDead_change [Tenants] {tenant id : String}
    (h : requeueDead tenant id now db = .ok ((), db')) : Requeues db db' := by
  unfold requeueDead at h
  split at h
  · cases h
    refine requeues_update fun o _ hp => ⟨rfl, rfl, rfl, rfl, rfl, rfl, ?_⟩
    simp only [AuditOutbox.deadOf, Bool.and_eq_true, decide_eq_true_eq] at hp
    exact iff_of_false (by simp [AuditOutbox.requeued]) (by rw [hp.2]; decide)
  · cases h

/-- A delivery that succeeds found the row delivered already, or delivers it. -/
theorem deliver_ok [Tenants] (h : deliver pl repo c now db = .ok ((), db')) :
    db' = db ∨ ∃ row e, c.heldBy now row = true ∧ row.eventID = c.eventID ∧
      Delivers pl repo db row e db' := by
  unfold deliver at h
  split at h
  · cases h
  rename_i row hrow
  obtain ⟨hmem, hid⟩ := (db.outbox.get?_eq_some_iff).1 hrow
  split at h
  · cases h
    exact .inl rfl
  split at h
  · cases h
  rename_i hheld
  have hheld : c.heldBy now row = true := by simpa using hheld
  have hstate : row.state = .leased := by
    simp only [AuditOutbox.heldBy, Bool.and_eq_true, decide_eq_true_eq] at hheld
    exact hheld.1.1
  split at h
  · cases h
  rename_i e hdec
  split at h
  · cases h
  rename_i hdesc
  split at h
  · cases h
  rename_i hver
  simp only [Bool.not_eq_true', Bool.not_eq_false] at hdesc hver
  refine .inr ⟨row, e, hheld, hid, hmem, hstate, hdec, hdesc, hver, ?_⟩
  split at h
  · rename_i prior hprior
    have hpmem := List.mem_of_find?_eq_some hprior
    have hpid := List.find?_some hprior
    split at h
    · cases h
    rename_i hsame
    simp only [not_or, not_not] at hsame
    cases h
    exact ⟨db.logs, rfl, .inr ⟨rfl, prior, hpmem, by simpa using hpid, hsame⟩⟩
  · split at h
    · cases h
    rename_i logs hlogs
    cases h
    exact ⟨logs, rfl, .inl hlogs⟩

theorem deliver_changes (h : deliver pl repo c now db = .ok ((), db')) :
    Changes pl repo db [] [] db' := by
  rcases deliver_ok h with rfl | ⟨row, e, -, -, hd⟩
  · exact .refl _
  · exact (Change.deliver hd).changes

end Transactions

/-! ## Operation bodies -/

section Bodies

variable {β ρ : Type}

theorem admittedOf_append (ms ms' : List Mark) :
    admittedOf (ms ++ ms') = admittedOf ms ++ admittedOf ms' := List.filterMap_append ..

/-- What a call of a body added to the marks and changed in the tables. -/
def Grows (pl : Platform) (repo : AuditRepository) (t t' : Transaction β) : Prop :=
  ∃ ms, t'.marks = t.marks ++ ms ∧ Changes pl repo t.tables (admittedOf ms) [] t'.tables

theorem Grows.refl (t : Transaction β) : Grows pl repo t t :=
  ⟨[], (List.append_nil _).symm, .refl _⟩

theorem Grows.trans {t t' t'' : Transaction β} (h : Grows pl repo t t')
    (h' : Grows pl repo t' t'') : Grows pl repo t t'' := by
  obtain ⟨ms, hms, hc⟩ := h
  obtain ⟨ms', hms', hc'⟩ := h'
  refine ⟨ms ++ ms', by rw [hms', hms, List.append_assoc], ?_⟩
  rw [admittedOf_append]
  exact hc.trans hc'

theorem grows_admitEvent (t : Transaction β) (a : Admission) :
    Grows pl repo t (t.admitEvent pl repo a).2 := by
  unfold Transaction.admitEvent
  split
  · exact ⟨[], (List.append_nil _).symm, .refl _⟩
  · rename_i e tables h
    exact ⟨[.admitted e], rfl, (Change.admission (admitEvent_ok h)).changes⟩

/-- **What every call of a body does, the body does.** -/
theorem run_rel {R : Transaction β → Transaction β → Prop} (hrefl : ∀ t, R t t)
    (htrans : ∀ {t t' t''}, R t t' → R t' t'' → R t t'')
    (hbiz : ∀ t biz, R t { t with biz := biz })
    (hnew : ∀ t a, R t (t.admitEvent pl repo a).2)
    (hlatch : ∀ t, R t
      { t with op := { t.op with failure := true }, marks := t.marks ++ [.refused] })
    (herase : ∀ t tenant userID,
      R t { t with tables := Audit.anonymizeUser tenant userID t.tables })
    (body : Body β ρ) (t : Transaction β) : R t (body.run pl repo t).2 := by
  have hrecord : ∀ t a, R t (t.record pl repo a) := by
    intro t a
    have h := hnew t a
    unfold Transaction.record
    split
    · rename_i heq
      rw [heq] at h
      exact h
    · rename_i heq
      rw [heq] at h
      exact htrans h (hlatch _)
  induction body generalizing t with
  | done => exact hrefl t
  | sql f next ih =>
    unfold Body.run
    split
    · exact ih _ t
    · exact htrans (hbiz t _) (ih _ _)
  | record a next ih => exact htrans (hrecord t a) (ih _)
  | admitEvent a next ih => exact htrans (hnew t a) (ih _ _)
  | anonymizeUser tenant userID fault next ih =>
    unfold Body.run
    split
    · exact ih _ t
    · exact htrans (herase t tenant userID) (ih _ _)
  | nested body denial next ihb ihn => exact htrans (ihb t) (ihn _ _)

/-- **A body makes a sequence of changes**, one admission for every event it recorded. -/
theorem run_changes (body : Body β ρ) (t : Transaction β) :
    Grows pl repo t (body.run pl repo t).2 :=
  run_rel Grows.refl Grows.trans (fun _ _ => ⟨[], (List.append_nil _).symm, .refl _⟩)
    grows_admitEvent (fun _ => ⟨[.refused], rfl, .refl _⟩)
    (fun t tenant userID =>
      ⟨[], (List.append_nil _).symm, (Change.anonymize t.tables tenant userID).changes⟩) body t

end Bodies

end FinnAuth.Audit
