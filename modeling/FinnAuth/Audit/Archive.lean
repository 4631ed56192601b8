import FinnAuth.Audit.Outbox

/-!
# Checkpoints and archives

`internal/repositories/audit_archive.go`: the check of a list of rows against two checkpoints, the
check of a tenant's whole chain, and the archives that leave the table and come back. An archive is
verified whenever it is used, so nothing about it is assumed.

Results:
* **`verifyEvents_iff`**: what an accepted list is: the rows verify one by one and lead from one
  checkpoint to the other;
* `purgeArchive_ok`, `restoreArchive_ok`, `restore_rows`: what a purge and a restore that succeed
  have done.
-/

namespace FinnAuth.Audit

open Lib

/-- `RetentionPolicy`. -/
structure RetentionPolicy where
  approval : String
  enabled : Bool
  legalHold : Bool
  before : Int
  maxRows : Int
  deriving DecidableEq, Repr

/-- `AuditArchive`. -/
structure AuditArchive where
  base : Checkpoint
  end_ : Checkpoint
  events : List AuditLog
  deriving DecidableEq, Repr

/-- The marker older erasures left in a signed row is dropped. -/
def AuditLog.withoutMarker (e : AuditLog) : AuditLog :=
  if e.version = 1 ∧ e.email = legacyAuditErasureMarker then { e with email := "" } else e

/-- `normalizeArchivedAncillary`: personal text other than the marker is an error. -/
def normalizeArchivedAncillary (e : AuditLog) : Except Err AuditLog :=
  if e.withoutMarker.email ≠ "" ∨ e.withoutMarker.ipAddress ≠ "" ∨ e.withoutMarker.detail ≠ "" then
    .error .integrity
  else .ok e.withoutMarker

section

variable [Tenants] (pl : Platform) (keys : Keys)

/-- `AuditRepository.Checkpoint`: where the chain of a tenant stands. -/
def headCheckpoint (tid : String) (db : AuditTables) : Checkpoint :=
  keys.checkpoint pl (db.headOf tid).tenantID (db.headOf tid).sequence (db.headOf tid).hash

/-- The loop of `verifyEvents`, from a position to the one behind the rows. -/
def walk (tid : String) : Nat × String → List AuditLog → Option (Nat × String)
  | p, [] => some p
  | p, e :: rows =>
    if e.tenantID ≠ tid ∨ e.sequence ≠ some (p.1 + 1) ∨ e.prevHash ≠ p.2 ∨ !keys.verify pl e then
      none
    else walk tid (p.1 + 1, e.recordHash) rows

/-- `AuditRepository.verifyEvents`. -/
def verifyEvents (tid : String) (base end_ : Checkpoint) (rows : List AuditLog) : Except Err Unit :=
  if base.tenant ≠ tid ∨ end_.tenant ≠ tid ∨ base.sequence > end_.sequence then .error .integrity
  else if !keys.verifyCheckpoint pl base || !keys.verifyCheckpoint pl end_ then .error .integrity
  else if walk pl keys tid (base.sequence, base.hash) rows = some (end_.sequence, end_.hash) then
    .ok ()
  else .error .integrity

/-- `AuditRepository.VerifyAgainst`. -/
def verifyAgainst (tid : String) (base end_ : Checkpoint) (db : AuditTables) : Except Err Unit :=
  verifyEvents pl keys tid base end_ (db.range tid base.sequence end_.sequence)

/-- `AuditRepository.VerifyChain`, for a request bound to the tenant `tid`. -/
def verifyChain (tid requested : String) (db : AuditTables) : Except Err Bool :=
  if requested ≠ "" ∧ requested ≠ tid then .error .recordNotFound
  else if db.logs.rows.any fun r => Tenants.same r.tenantID tid && r.version ≠ 1 then .error .legacy
  else
    let b := db.boundaryOf tid
    let base := keys.checkpoint pl tid b.sequence b.hash
    match verifyAgainst pl keys tid base (headCheckpoint pl keys tid db) db with
    | .ok _ => .ok true
    | .error e => .error e

/-- The events a policy lets go: a prefix, so that a cutoff leaves no gap. -/
def RetentionPolicy.admits (p : RetentionPolicy) (e : AuditLog) : Bool := e.createdAt < p.before

/-- `AuditRepository.Archive`. -/
def archive (tid : String) (p : RetentionPolicy) (base : Checkpoint) (db : AuditTables) :
    Except Err AuditArchive :=
  if !p.enabled || p.legalHold || p.approval = "" || p.maxRows < 1 || p.maxRows > 1000 ||
      p.before = zeroTime then .error .policy
  else if base.tenant ≠ tid || !keys.verifyCheckpoint pl base then .error .integrity
  else
    let found := bySequence ((db.hot tid).filter fun r => r.sequence.any (base.sequence < ·))
    match ((found.take p.maxRows.toNat).takeWhile p.admits).mapM normalizeArchivedAncillary with
    | .error e => .error e
    | .ok events =>
      let end_ := match events.getLast? with
        | none => base
        | some e => keys.checkpoint pl tid (e.sequence.getD 0) e.recordHash
      match verifyEvents pl keys tid base end_ events with
      | .error e => .error e
      | .ok _ => .ok ⟨base, end_, events⟩

/-- The rows of an archive in the table. -/
def AuditArchive.covers (tid : String) (a : AuditArchive) (r : AuditLog) : Bool :=
  Tenants.same r.tenantID tid && r.version = 1 && inRange a.base.sequence a.end_.sequence r

/-- The boundary moves. -/
def AuditTables.setBoundary (db : AuditTables) (b : AuditBoundary) : AuditTables :=
  { db with boundaries := db.boundaries.put b }

/-- `AuditRepository.PurgeArchive`. -/
def purgeArchive (tid : String) (p : RetentionPolicy) (a : AuditArchive) (trusted : Checkpoint) :
    Tx Unit := fun db =>
  if !p.enabled || p.legalHold || p.approval = "" || p.maxRows < 1 ||
      (a.events.length : Int) > p.maxRows || trusted ≠ a.end_ || p.before = zeroTime then
    .error .policy
  else
    match verifyEvents pl keys tid a.base a.end_ a.events with
    | .error e => .error e
    | .ok _ =>
      if !a.events.all p.admits then .error .policy
      else if (db.heads.first? fun h => Tenants.same h.tenantID tid).isNone then
        .error .recordNotFound
      else if (db.boundaryOf tid).sequence ≠ a.base.sequence ∨
          (db.boundaryOf tid).hash ≠ a.base.hash then .error .integrity
      else
        match verifyEvents pl keys tid a.base a.end_
            (db.range tid a.base.sequence a.end_.sequence) with
        | .error e => .error e
        | .ok _ => .ok ((), { db with logs := db.logs.delete (a.covers tid) }.setBoundary
            ⟨(db.boundaryOf tid).tenantID, a.end_.sequence, a.end_.hash⟩)

/-- The rows of an archive are inserted one by one, with new ids. -/
def LogTable.restore (t : LogTable) : List AuditLog → Except Err LogTable
  | [] => .ok t
  | e :: events =>
    match normalizeArchivedAncillary { e with id := 0 } with
    | .error err => .error err
    | .ok e =>
      match t.create e with
      | none => .error (.duplicatedKey "audit_logs")
      | some t => t.restore events

/-- `AuditRepository.RestoreArchive`. -/
def restoreArchive (tid : String) (a : AuditArchive) (trusted : Checkpoint) : Tx Unit := fun db =>
  if trusted ≠ a.end_ ∨ a.events.length > 1000 then .error .integrity
  else
    match verifyEvents pl keys tid a.base a.end_ a.events with
    | .error e => .error e
    | .ok _ =>
      match db.heads.first? fun h => Tenants.same h.tenantID tid,
          db.boundaries.first? fun b => Tenants.same b.tenantID tid with
      | some h, some b =>
        if b.sequence ≠ a.end_.sequence ∨ b.hash ≠ a.end_.hash ∨
            h.sequence < a.end_.sequence then .error .integrity
        else
          match db.logs.restore a.events with
          | .error e => .error e
          | .ok logs => .ok ((), { db with logs := logs }.setBoundary
              ⟨b.tenantID, a.base.sequence, a.base.hash⟩)
      | _, _ => .error .recordNotFound

end

/-! ## Accepted lists -/

section

variable {pl : Platform} {keys : Keys} {tid : String} {rows : List AuditLog} {db db' : AuditTables}
  {base end_ trusted : Checkpoint} {a : AuditArchive}

/-- A row of a verified chain of the tenant. -/
structure Verified (pl : Platform) (keys : Keys) (tid : String) (e : AuditLog) : Prop where
  tenantID : e.tenantID = tid
  verify : keys.verify pl e = true

theorem walk_iff {p q : Nat × String} : walk pl keys tid p rows = some q ↔
      (∀ e ∈ rows, Verified pl keys tid e) ∧ links.Leads p rows q := by
  induction rows generalizing p with
  | nil => simp [walk, Links.Leads]
  | cons e rows ih =>
    unfold walk
    split
    · rename_i hbad
      refine ⟨fun h => (by cases h), ?_⟩
      rintro ⟨hall, hseq, hprev, -⟩
      have hv := hall e List.mem_cons_self
      have hs : e.sequence = some (p.1 + 1) := by
        change e.sequence.getD 0 = p.1 + 1 at hseq
        cases hsome : e.sequence with
        | none => rw [hsome] at hseq; cases hseq
        | some n => rw [hsome] at hseq; exact congrArg some hseq
      rcases hbad with hbad | hbad | hbad | hbad
      · exact absurd hv.tenantID hbad
      · exact absurd hs hbad
      · exact absurd hprev hbad
      · simp [hv.verify] at hbad
    · rename_i hgood
      simp only [not_or, not_not, Bool.not_eq_true', Bool.not_eq_false] at hgood
      obtain ⟨ht, hs, hp, hv⟩ := hgood
      rw [ih, List.forall_mem_cons]
      constructor
      · rintro ⟨hall, hleads⟩
        exact ⟨⟨⟨ht, hv⟩, hall⟩, by simp [links, hs], hp, hleads⟩
      · rintro ⟨⟨-, hall⟩, -, -, hleads⟩
        exact ⟨hall, hleads⟩

/-- **What an accepted list is.** -/
theorem verifyEvents_iff : verifyEvents pl keys tid base end_ rows = .ok () ↔
      (base.tenant = tid ∧ end_.tenant = tid) ∧
      (keys.verifyCheckpoint pl base = true ∧ keys.verifyCheckpoint pl end_ = true) ∧
      (∀ e ∈ rows, Verified pl keys tid e) ∧
      links.Leads (base.sequence, base.hash) rows (end_.sequence, end_.hash) := by
  unfold verifyEvents
  split
  · rename_i hbad
    refine ⟨fun h => (by cases h), ?_⟩
    rintro ⟨⟨hb, he⟩, -, -, hleads⟩
    have hlen := Links.leads_length hleads
    rcases hbad with hbad | hbad | hbad
    · exact absurd hb hbad
    · exact absurd he hbad
    · simp only at hlen; omega
  rename_i htenant
  simp only [not_or, not_not] at htenant
  split
  · rename_i hbad
    refine ⟨fun h => (by cases h), ?_⟩
    rintro ⟨-, ⟨hb, he⟩, -⟩
    simp [hb, he] at hbad
  rename_i hcheck
  simp only [Bool.or_eq_true, Bool.not_eq_true', not_or, Bool.not_eq_false] at hcheck
  split
  · rename_i hwalk
    exact ⟨fun _ => ⟨⟨htenant.1, htenant.2.1⟩, hcheck, walk_iff.1 hwalk⟩, fun _ => rfl⟩
  · rename_i hwalk
    exact ⟨fun h => (by cases h), fun h => absurd (walk_iff.2 h.2.2) hwalk⟩

theorem verifyEvents_error (h : verifyEvents pl keys tid base end_ rows ≠ .ok ()) :
    verifyEvents pl keys tid base end_ rows = .error .integrity := by
  unfold verifyEvents at h ⊢
  split_ifs at h ⊢ <;> first | rfl | exact absurd rfl h

theorem verifyChain_eq [Tenants] {requested : String} (hreq : requested = "" ∨ requested = tid)
    (hlegacy : (db.logs.rows.any fun r => Tenants.same r.tenantID tid && r.version ≠ 1) = false) :
    verifyChain pl keys tid requested db =
      match verifyEvents pl keys tid
        (keys.checkpoint pl tid (db.boundaryOf tid).sequence (db.boundaryOf tid).hash)
        (headCheckpoint pl keys tid db)
        (db.range tid (db.boundaryOf tid).sequence (db.headOf tid).sequence) with
      | .ok _ => .ok true
      | .error e => .error e := by
  have hreq' : ¬ (requested ≠ "" ∧ requested ≠ tid) := by tauto
  unfold verifyChain verifyAgainst
  rw [if_neg hreq', hlegacy]
  rfl

/-! ## What the transactions do -/

/-- A purge that succeeds found the rows of the archive at the boundary and deleted them. -/
structure Purges [Tenants] (pl : Platform) (keys : Keys) (tid : String) (a : AuditArchive)
    (db db' : AuditTables) : Prop where
  archived : verifyEvents pl keys tid a.base a.end_ a.events = .ok ()
  sequence : (db.boundaryOf tid).sequence = a.base.sequence
  hash : (db.boundaryOf tid).hash = a.base.hash
  rows : verifyEvents pl keys tid a.base a.end_
    (db.range tid a.base.sequence a.end_.sequence) = .ok ()
  after : db' = { db with logs := db.logs.delete (a.covers tid) }.setBoundary
    ⟨(db.boundaryOf tid).tenantID, a.end_.sequence, a.end_.hash⟩

theorem purgeArchive_ok [Tenants] {p : RetentionPolicy}
    (h : purgeArchive pl keys tid p a trusted db = .ok ((), db')) :
    Purges pl keys tid a db db' := by
  unfold purgeArchive at h
  split at h
  · cases h
  split at h
  · cases h
  rename_i harch
  split at h
  · cases h
  split at h
  · cases h
  split at h
  · cases h
  rename_i hb
  simp only [not_or, not_not] at hb
  split at h
  · cases h
  rename_i hrows
  cases h
  exact ⟨harch, hb.1, hb.2, hrows, rfl⟩

/-- A restore that succeeds found the boundary at the end of the archive and inserted its rows. -/
structure Restores [Tenants] (pl : Platform) (keys : Keys) (tid : String) (a : AuditArchive)
    (db db' : AuditTables) : Prop where
  archived : verifyEvents pl keys tid a.base a.end_ a.events = .ok ()
  sequence : (db.boundaryOf tid).sequence = a.end_.sequence
  hash : (db.boundaryOf tid).hash = a.end_.hash
  after : ∃ logs, db.logs.restore a.events = .ok logs ∧
    db' = { db with logs := logs }.setBoundary
      ⟨(db.boundaryOf tid).tenantID, a.base.sequence, a.base.hash⟩

theorem restoreArchive_ok [Tenants] (h : restoreArchive pl keys tid a trusted db = .ok ((), db')) :
    Restores pl keys tid a db db' := by
  unfold restoreArchive at h
  split at h
  · cases h
  split at h
  · cases h
  rename_i harch
  split at h
  · rename_i hd b hhead hbound
    split at h
    · cases h
    rename_i hb
    simp only [not_or, not_not] at hb
    have hof : db.boundaryOf tid = b := by rw [AuditTables.boundaryOf, hbound]; rfl
    split at h
    · cases h
    rename_i logs hlogs
    cases h
    exact ⟨harch, by rw [hof]; exact hb.1, by rw [hof]; exact hb.2.1, logs, hlogs, by rw [hof]⟩
  · cases h

/-- An event as a restore inserts it, before it gets its id. -/
def AuditLog.archived (e : AuditLog) : AuditLog :=
  { e with id := 0, email := "", ipAddress := "", detail := "" }

theorem normalize_ok {e n : AuditLog} (h : normalizeArchivedAncillary e = .ok n) :
    n = { e with email := "", ipAddress := "", detail := "" } := by
  unfold normalizeArchivedAncillary at h
  split at h
  · cases h
  rename_i hclean
  simp only [not_or, not_not] at hclean
  cases h
  -- the marker is the only thing that can have gone
  have hmark : e.withoutMarker = { e with email := e.withoutMarker.email } := by
    unfold AuditLog.withoutMarker
    split <;> rfl
  rw [hmark] at hclean ⊢
  obtain ⟨hemail, hip, hdetail⟩ := hclean
  rw [hemail, hip, hdetail]

/-- The rows of a table after a restore: the archived events come last, with new ids. -/
theorem restore_rows [Tenants] {t t' : LogTable} {events : List AuditLog}
    (h : t.restore events = .ok t') :
    ∃ new, t'.rows = t.rows ++ new ∧ new.map AuditLog.strip = events.map AuditLog.archived ∧
      ∀ r ∈ new, t.next ≤ r.id := by
  induction events generalizing t with
  | nil =>
    cases h
    exact ⟨[], (List.append_nil _).symm, rfl, fun r hr => by cases hr⟩
  | cons e events ih =>
    unfold LogTable.restore at h
    split at h
    · cases h
    rename_i n hn
    split at h
    · cases h
    rename_i t₁ ht₁
    obtain ⟨-, hrows, hnext⟩ := LogTable.create_eq_some ht₁
    obtain ⟨new, hnew, hstrip, hids⟩ := ih h
    refine ⟨{ n with id := t.next } :: new, ?_, ?_, ?_⟩
    · rw [hnew, hrows, List.append_assoc]
      rfl
    · rw [List.map_cons, List.map_cons, hstrip, normalize_ok hn]
      rfl
    · intro r hr
      rcases List.mem_cons.1 hr with rfl | hr
      · exact Nat.le_refl _
      · have := hids r hr
        omega

end

end FinnAuth.Audit
