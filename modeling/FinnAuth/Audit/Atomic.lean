import FinnAuth.Audit.Ledger

/-!
# Operations are all or nothing

`AuditOperation` runs a service body in one transaction and decides by the latch of the operation
and the result of the body whether it commits. Nested operations share the latch and bodies may
swallow errors, so what the latch holds at the end is proved by induction over the body: it tells
whether a `Record` failed, how many events were admitted and whether one of them is a success.

After a commit the waiting rows are dispatched, unless that is left to the worker; an event that was
delivered there still has its row in the outbox.

Results:
* `run_latched`: the latch of an operation says what became of its events;
* **`operation_atomic`**: an operation commits all it did or nothing, as its result tells.
-/

namespace FinnAuth.Audit

open Lib

variable {β ρ : Type} {pl : Platform} {repo : AuditRepository}

/-! ## The latch -/

variable {t : Transaction β} {result : Except Err Unit} {denial : Err → Bool}
  {es rs log : List AuditLog} {db db' : AuditTables}

/-- The latch agrees with what became of the events. -/
structure Transaction.Latched (t : Transaction β) : Prop where
  failure : t.op.failure = true ↔ .refused ∈ t.marks
  admissions : t.op.admissions = (admittedOf t.marks).length
  successful : t.op.successful = (admittedOf t.marks).any (·.success)

theorem admittedOf_admitted (ms : List Mark) (e : AuditLog) :
    admittedOf (ms ++ [.admitted e]) = admittedOf ms ++ [e] := admittedOf_append ..

theorem admittedOf_refused (ms : List Mark) : admittedOf (ms ++ [.refused]) = admittedOf ms := by
  rw [admittedOf_append]
  exact List.append_nil _

theorem latched_begin (s : Store β) : s.begin.Latched :=
  ⟨by simp [Store.begin], rfl, rfl⟩

theorem Transaction.Latched.same {t t' : Transaction β} (h : t.Latched) (hop : t'.op = t.op)
    (hmarks : t'.marks = t.marks) : t'.Latched := by
  refine ⟨?_, ?_, ?_⟩
  · rw [hop, hmarks]; exact h.failure
  · rw [hop, hmarks]; exact h.admissions
  · rw [hop, hmarks]; exact h.successful

theorem latched_admitEvent (h : t.Latched) (a : Admission) :
    (t.admitEvent pl repo a).2.Latched := by
  unfold Transaction.admitEvent
  split
  · exact h.same rfl rfl
  · refine ⟨?_, ?_, ?_⟩
    · simp [h.failure]
    · simp [admittedOf_admitted, h.admissions]
    · simp [admittedOf_admitted, h.successful]

theorem latched_refused (h : t.Latched) :
    ({ t with op := { t.op with failure := true }, marks := t.marks ++ [.refused] } :
      Transaction β).Latched := by
  refine ⟨by simp, ?_, ?_⟩
  · simpa [admittedOf_refused] using h.admissions
  · simpa [admittedOf_refused] using h.successful

/-- **The latch says what became of the events**, whatever the body did with the errors. -/
theorem run_latched (body : Body β ρ) (h : t.Latched) : (body.run pl repo t).2.Latched :=
  run_rel (R := fun t t' => t.Latched → t'.Latched) (fun _ h => h) (fun h h' ht => h' (h ht))
    (fun _ _ h => h.same rfl rfl) (fun _ a h => latched_admitEvent h a)
    (fun _ h => latched_refused h) (fun _ _ _ h => h.same rfl rfl) body t h

/-- The evidence of the operation is a denial: there is some, and none of it is a success. -/
def Transaction.denies (t : Transaction β) : Bool :=
  !(admittedOf t.marks).isEmpty && (admittedOf t.marks).all fun e => !e.success

theorem Transaction.Latched.denialMayCommit (h : t.Latched) : t.op.denialMayCommit = t.denies := by
  unfold Operation.denialMayCommit Transaction.denies
  rw [h.admissions, h.successful]
  cases admittedOf t.marks with
  | nil => rfl
  | cons e es => simp [List.not_any_eq_all_not]

/-! ## Events that stay -/

/-- Every one of the events has its row in the outbox. -/
def Recorded (pl : Platform) (db : AuditTables) (log : List AuditLog) : Prop :=
  ∀ e ∈ log, ∃ o ∈ db.outbox.rows, Receipt pl e o

theorem recorded_change (hc : Change pl repo db es rs db') (h : Recorded pl db log) :
    Recorded pl db' (log ++ es) := by
  cases hc with
  | admission ha =>
    obtain ⟨payload, now, hpayload, hrows⟩ := ha.outbox
    intro e he
    rw [hrows]
    rcases List.mem_append.1 he with he | he
    · obtain ⟨o, ho, hr⟩ := h e he
      exact ⟨o, List.mem_append_left _ ho, hr⟩
    · rw [List.mem_singleton.1 he]
      exact ⟨_, List.mem_append_right _ (List.mem_singleton.2 rfl),
        receipt_queued ha.sequence hpayload⟩
  | requeue hq =>
    rw [List.append_nil]
    intro e he
    obtain ⟨o, ho, hr⟩ := h e he
    obtain ⟨o', ho', hk⟩ := hq.outbox.get? (fun hk => hk.eventID)
      ((db.outbox.get?_eq_some_iff).2 ⟨ho, rfl⟩)
    exact ⟨o', ((db'.outbox.get?_eq_some_iff).1 ho').1, hr.keeps hk⟩
  | deliver hd =>
    rename_i row e'
    obtain ⟨logs, rfl, -⟩ := hd.after
    rw [List.append_nil]
    intro e he
    obtain ⟨o, ho, hr⟩ := h e he
    refine ⟨_, (Table.mem_update db.outbox (·.eventID = row.eventID) AuditOutbox.acknowledged
      (fun _ => rfl) _).2 ⟨o, ho, rfl⟩, ?_⟩
    split
    · exact hr.acknowledged
    · exact hr
  | purge hp => rw [List.append_nil, hp.after]; exact h
  | restore hr =>
    obtain ⟨logs, -, rfl⟩ := hr.after
    rw [List.append_nil]
    exact h
  | anonymize => rw [List.append_nil]; exact h

theorem Changes.recorded (hc : Changes pl repo db es rs db') (h : Recorded pl db log) :
    Recorded pl db' (log ++ es) := by
  induction hc generalizing log with
  | refl db => rwa [List.append_nil]
  | head hch _ ih =>
    rw [← List.append_assoc]
    exact ih (recorded_change hch h)

theorem dispatch_changes (pl : Platform) (repo : AuditRepository) (turns : List Turn) (fresh : Nat)
    (db : AuditTables) :
    Changes pl repo db [] [] (dispatch pl repo turns fresh db).2.2 := by
  induction turns generalizing fresh db with
  | nil => exact .refl _
  | cons turn turns ih =>
    have hclaim : Changes pl repo db [] [] (claim turn.claimAt turn.locked (pl.uuid fresh) db).2 :=
      (Change.requeue (claim_change ..)).changes
    unfold dispatch
    split
    · rename_i heq
      rw [heq] at hclaim
      exact hclaim
    · rename_i c db₁ heq
      rw [heq] at hclaim
      split
      · exact hclaim.trans (Change.requeue (failClaim_change c turn.failAt)).changes
      · rename_i db₂ hok
        exact (hclaim.trans (deliver_changes hok)).trans (ih (fresh + 1) db₂)

theorem recorded_run (body : Body β ρ) (s : Store β) :
    Recorded pl (body.run pl repo s.begin).2.tables
      (admittedOf (body.run pl repo s.begin).2.marks) := by
  have hgrows : Grows pl repo s.begin (body.run pl repo s.begin).2 := run_changes body s.begin
  obtain ⟨ms, hms, hc⟩ := hgrows
  have hmarks : (body.run pl repo s.begin).2.marks = ms := by rw [hms]; rfl
  rw [hmarks]
  exact Changes.recorded hc (show Recorded pl s.begin.tables [] from fun e he => (by cases he))

/-! ## The outcome -/

/-- The database is as it was; UUIDs may have been drawn. -/
def Store.Unchanged (s s' : Store β) : Prop := s'.biz = s.biz ∧ s'.tables = s.tables

/-- The writes of the transaction and its events are in the database, some of the events perhaps
delivered. -/
structure Transaction.Committed (pl : Platform) (repo : AuditRepository) (t : Transaction β)
    (s' : Store β) : Prop where
  biz : s'.biz = t.biz
  tables : Changes pl repo t.tables [] [] s'.tables
  events : Recorded pl s'.tables (admittedOf t.marks)

/-- What an operation returns and leaves, by the verdict on its transaction. -/
theorem auditOperation_cases (pl : Platform) (repo : AuditRepository) (body : Body β ρ)
    (denial : Err → Bool) (commitFails async : Bool) (turns : List Turn) (s : Store β) :
    (∃ err, (body.run pl repo s.begin).2.verdict (body.run pl repo s.begin).1 denial commitFails =
        some err ∧
      (auditOperation pl repo body denial commitFails async turns s).1 =
        .error (rollbackError (body.run pl repo s.begin).1 err) ∧
      s.Unchanged (auditOperation pl repo body denial commitFails async turns s).2) ∨
    ((body.run pl repo s.begin).2.verdict (body.run pl repo s.begin).1 denial commitFails = none ∧
      (auditOperation pl repo body denial commitFails async turns s).1 =
        (body.run pl repo s.begin).1 ∧
      (body.run pl repo s.begin).2.Committed pl repo
        (auditOperation pl repo body denial commitFails async turns s).2) := by
  have hrecorded : Recorded pl (body.run pl repo s.begin).2.tables _ := recorded_run body s
  cases hv : (body.run pl repo s.begin).2.verdict (body.run pl repo s.begin).1 denial
    commitFails with
  | some err =>
    refine .inl ⟨err, rfl, ?_⟩
    simp only [auditOperation, operate, hv]
    exact ⟨trivial, rfl, rfl⟩
  | none =>
    refine .inr ⟨rfl, ?_⟩
    simp only [auditOperation, operate, hv]
    split
    · exact ⟨rfl, rfl, .refl _, hrecorded⟩
    · have hd := dispatch_changes pl repo (turns.take 1000) (body.run pl repo s.begin).2.fresh
        (body.run pl repo s.begin).2.tables
      have hstill := hd.recorded hrecorded
      rw [List.append_nil] at hstill
      exact ⟨rfl, rfl, hd, hstill⟩

/-- When the transaction is rolled back, and with which error. -/
theorem verdict_eq_some {commitFails : Bool} {err : Err}
    (h : t.verdict result denial commitFails = some err) :
    (t.op.failure = true ∧ err = .unavailable) ∨ (t.op.failure = false ∧ (err = .db ∨
      ∃ e, result = .error e ∧ err = e ∧ (denial e = false ∨ t.op.denialMayCommit = false))) := by
  unfold Transaction.verdict at h
  split at h
  · rename_i hf
    exact .inl ⟨hf, (Option.some.inj h).symm⟩
  rename_i hf
  refine .inr ⟨by simpa using hf, ?_⟩
  split at h
  · split at h
    · exact .inl (Option.some.inj h).symm
    · cases h
  · rename_i e
    split at h
    · rename_i hno
      refine .inr ⟨e, rfl, (Option.some.inj h).symm, ?_⟩
      simpa using hno
    · split at h
      · exact .inl (Option.some.inj h).symm
      · cases h

/-- When the transaction commits. -/
theorem verdict_eq_none {commitFails : Bool} (h : t.verdict result denial commitFails = none) :
    t.op.failure = false ∧
      ∀ e, result = .error e → denial e = true ∧ t.op.denialMayCommit = true := by
  unfold Transaction.verdict at h
  split at h
  · cases h
  rename_i hf
  refine ⟨by simpa using hf, fun e he => ?_⟩
  subst he
  simp only at h
  split at h
  · cases h
  · rename_i hyes
    simpa using hyes

/-- The error of a rolled back operation: the one of the body, or one that is no denial. -/
theorem rollbackError_cases (result : Except Err Unit) (err : Err) :
    rollbackError result err = .unavailable ∨ rollbackError result err = err := by
  unfold rollbackError
  split
  · exact .inl rfl
  · split
    · exact .inl rfl
    · exact .inr rfl

/-- **An operation is all or nothing.** For every body, with `t` its transaction at the end:
* if the operation returns nil, no `Record` failed and all writes and events are committed;
* if a `Record` failed, it returns `ErrUnavailable` and the database is unchanged;
* if it returns a denial, the writes are committed when there is evidence and none of it is a
  success, and the database is unchanged otherwise;
* after any other error the database is unchanged.

The errors of the transaction itself must not count as denials. -/
theorem operation_atomic (body : Body β ρ) {denial : Err → Bool}
    (hunavailable : denial .unavailable = false) (hdb : denial .db = false)
    (commitFails async : Bool) (turns : List Turn) (s : Store β) {t : Transaction β}
    (ht : t = (body.run pl repo s.begin).2) {result : Except Err Unit} {s' : Store β}
    (hout : auditOperation pl repo body denial commitFails async turns s = (result, s')) :
    (result = .ok () → .refused ∉ t.marks ∧ t.Committed pl repo s') ∧
    (.refused ∈ t.marks → result = .error .unavailable ∧ s.Unchanged s') ∧
    (∀ e, result = .error e → denial e = true →
      (t.denies = true → t.Committed pl repo s') ∧ (t.denies = false → s.Unchanged s')) ∧
    ∀ e, result = .error e → denial e = false → s.Unchanged s' := by
  have hlatched : t.Latched := by
    rw [ht]
    exact run_latched body (latched_begin s)
  have hdenies := hlatched.denialMayCommit
  have hcases := auditOperation_cases pl repo body denial commitFails async turns s
  rw [hout, ← ht] at hcases
  rcases hcases with ⟨err, hv, hresult, hunchanged⟩ | ⟨hv, hresult, hcommitted⟩
  · simp only at hresult hunchanged
    refine ⟨fun hok => ?_, fun hrefused => ⟨?_, hunchanged⟩, fun e he hden => ⟨fun hd => ?_,
      fun _ => hunchanged⟩, fun _ _ _ => hunchanged⟩
    · rw [hok] at hresult
      cases hresult
    · rcases verdict_eq_some hv with ⟨-, rfl⟩ | ⟨hf, -⟩
      · rw [hresult]
        rcases rollbackError_cases (body.run pl repo s.begin).1 .unavailable with h | h <;> rw [h]
      · rw [hlatched.failure.2 hrefused] at hf
        cases hf
    · -- a denial that is rolled back is one of the body, without the evidence
      exfalso
      rw [he] at hresult
      have heq : e = rollbackError _ err := Except.error.inj hresult
      rcases rollbackError_cases (body.run pl repo s.begin).1 err with h | h
      · rw [heq, h, hunavailable] at hden
        cases hden
      rw [heq, h] at hden
      rcases verdict_eq_some hv with ⟨-, rfl⟩ | ⟨-, rfl | ⟨e', -, rfl, hno | hno⟩⟩
      · rw [hunavailable] at hden
        cases hden
      · rw [hdb] at hden
        cases hden
      · rw [hno] at hden
        cases hden
      · rw [hdenies, hd] at hno
        cases hno
  · simp only at hresult hcommitted
    obtain ⟨hf, hcommit⟩ := verdict_eq_none hv
    have hnone : .refused ∉ t.marks := by
      intro hrefused
      rw [hlatched.failure.2 hrefused] at hf
      cases hf
    refine ⟨fun _ => ⟨hnone, hcommitted⟩, fun hrefused => absurd hrefused hnone,
      fun e he hden => ⟨fun _ => hcommitted, fun hd => ?_⟩, fun e he hden => ?_⟩
    · have hmay := (hcommit e (hresult ▸ he)).2
      rw [hdenies, hd] at hmay
      cases hmay
    · have hyes := (hcommit e (hresult ▸ he)).1
      rw [hden] at hyes
      cases hyes

/-- A failed login: a counter is written, the denial recorded and the error returned. -/
def Body.sample : Body Nat Unit :=
  .sql (fun n => .ok ((), n + 1)) fun _ =>
    .record { Admission.sample with entry := { AuditLog.sample with
      tenantID := "", eventID := "", success := false } } (.done (.error .invalidCredentials))

/-- The database before the failed login. -/
def Store.sampleCounter : Store Nat := { Store.sample with biz := 0 }

/-- The failed login is denied, and its counter is committed. -/
theorem operation_atomic_denial :
    (auditOperation .plain ⟨.sample, 1⟩ .sample auditDenial false true [] .sampleCounter).1 =
        .error .invalidCredentials ∧
      (auditOperation .plain ⟨.sample, 1⟩ .sample auditDenial false true [] .sampleCounter).2.biz =
        1 := by
  have hresult : (auditOperation .plain ⟨.sample, 1⟩ .sample auditDenial false true []
      .sampleCounter).1 = .error .invalidCredentials := rfl
  obtain ⟨-, -, hdenial, -⟩ := @operation_atomic Nat Unit .plain ⟨.sample, 1⟩ .sample
    auditDenial (by decide) (by decide) false true [] .sampleCounter _ rfl _ _
    (Prod.ext hresult rfl)
  exact ⟨hresult, ((hdenial _ rfl (by decide)).1 rfl).biz.trans rfl⟩

end FinnAuth.Audit
