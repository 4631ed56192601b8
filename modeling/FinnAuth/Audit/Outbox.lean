import FinnAuth.Audit.Tables
import FinnAuth.World
import Mathlib.Algebra.Group.Int.Defs
import Mathlib.Algebra.Group.Nat.Defs

/-!
# The outbox

`internal/repositories/audit_outbox.go`: `Admit` signs an event and stores it under the lock of the
tenant's head, `Claim` leases a waiting row to a worker, `Deliver` moves it into `audit_logs`,
`FailClaim` and `RequeueDead` give it back, and `AuditOperation` binds a service body and its
evidence to one transaction.

A transaction is a function of the tables that returns the new ones or an error; with an error
nothing has happened. Clock readings, drawn UUIDs, rows locked by other transactions and failing
statements are arguments, so a statement about all of them covers every environment.

An operation body is a tree of the calls a service can make with the context of the operation: SQL
on the other tables, `Record`, `Admit`, `AnonymizeUser` and nested operations. What follows a call
is a function of its result, so a body may go on after an error.
-/

namespace FinnAuth.Audit

open Lib

/-- `AuditRepository` in one process. -/
structure AuditRepository where
  keys : Keys
  maxPending : Nat

/-- A transaction: the tables after it, or an error and a rollback. -/
abbrev Tx (α : Type) := AuditTables → Except Err (α × AuditTables)

/-! ## Admission -/

/-- Where the SQL of an admission fails. -/
inductive Fault : Type where
  | statement
  | headUpdate
  deriving DecidableEq, Repr

/-- A call of `Admit`: the context and the entry, the two clock readings, and what goes wrong. -/
structure Admission where
  ctx : Context
  entry : AuditLog
  capturedAt : Int
  queuedAt : Int
  fault : Option Fault

/-- The outbox row of a signed event. -/
def AuditLog.queued (e : AuditLog) (payload : String) (now : Int) : AuditOutbox where
  eventID := e.eventID
  tenantID := e.tenantID
  sequence := e.sequence.getD 0
  hash := e.recordHash
  keyID := e.keyID
  payload := payload
  state := .pending
  attempts := 0
  availableAt := now
  leaseUntil := none
  leaseToken := ""
  lastError := ""
  createdAt := e.createdAt

/-- `INSERT INTO audit_outboxes`: the event id and the sequence number of a tenant are unique. -/
def AuditTables.enqueue [Tenants] (db : AuditTables) (o : AuditOutbox) : Option AuditTables :=
  if db.outbox.rows.any fun p => Tenants.same p.tenantID o.tenantID && p.sequence = o.sequence
  then none
  else (db.outbox.insert o).map fun outbox => { db with outbox := outbox }

/-- The head moves on. -/
def AuditTables.setHead (db : AuditTables) (h : AuditHead) : AuditTables :=
  { db with heads := db.heads.put h }

/-- The next event of the chain with this head, signed. -/
def AuditRepository.chain (pl : Platform) (repo : AuditRepository) (h : AuditHead) (e : AuditLog) :
    AuditLog :=
  repo.keys.sign pl { e with sequence := some (h.sequence + 1), prevHash := h.hash }

/-- `AuditRepository.Admit`; the event that was stored comes with it. -/
def admitEvent [Tenants] (pl : Platform) (repo : AuditRepository) (a : Admission) (fresh : Nat) :
    Tx AuditLog :=
  fun db =>
    match capture pl a.ctx a.capturedAt fresh a.entry with
    | none => .error .unavailable
    | some e =>
      if a.fault = some .statement then .error .unavailable
      else if (db.outbox.get? e.eventID).isSome then .error .unavailable
      else if (db.headOf e.tenantID).pending ≥ repo.maxPending then .error .unavailable
      else
        let h := db.headOf e.tenantID
        let e := repo.chain pl h e
        match marshal pl e with
        | none => .error .unavailable
        | some payload =>
          match db.enqueue (e.queued payload a.queuedAt) with
          | none => .error .unavailable
          | some db =>
            if a.fault = some .headUpdate then .error .db
            else .ok (e, db.setHead ⟨h.tenantID, h.sequence + 1, e.recordHash, h.pending + 1⟩)

/-! ## Delivery -/

/-- `auditLease`. -/
def auditLease : Int := 30 * 1000000000

/-- `auditMaxAttempts`. -/
def auditMaxAttempts : Nat := 8

/-- The row waits, or its lease has run out. -/
def AuditOutbox.due (now : Int) (o : AuditOutbox) : Bool :=
  (o.state = .pending && o.availableAt ≤ now) || (o.state = .leased && o.leaseUntil.any (· ≤ now))

/-- `ORDER BY available_at, event_id LIMIT 1`. -/
def earliest : List AuditOutbox → Option AuditOutbox
  | [] => none
  | o :: os =>
    match earliest os with
    | none => some o
    | some p =>
      if o.availableAt < p.availableAt ∨ (o.availableAt = p.availableAt ∧ o.eventID ≤ p.eventID)
      then some o else some p

/-- The row as a claim saves it. -/
def AuditOutbox.claimed (now : Int) (token : String) (o : AuditOutbox) : AuditOutbox :=
  { o with
    state := if o.attempts + 1 > auditMaxAttempts then .dead else .leased
    leaseToken := token
    leaseUntil := some (now + auditLease)
    attempts := o.attempts + 1
    lastError := if o.attempts + 1 > auditMaxAttempts then "lease_exhausted" else o.lastError }

/-- `UPDATE audit_outboxes`. -/
def AuditTables.updateOutbox (db : AuditTables) (p : AuditOutbox → Bool)
    (f : AuditOutbox → AuditOutbox) (hf : ∀ o, (f o).eventID = o.eventID) : AuditTables :=
  { db with outbox := db.outbox.update p f hf }

/-- The row a claim finds; the rows that other transactions have locked are skipped. -/
def AuditTables.claimable (db : AuditTables) (now : Int) (locked : String → Bool) :
    Option AuditOutbox :=
  earliest (db.outbox.rows.filter fun o => o.due now && !locked o.eventID)

/-- `AuditRepository.Claim`: the row goes to the worker unless it has used up its attempts. -/
def claim (now : Int) (locked : String → Bool) (token : String) (db : AuditTables) :
    Option AuditOutbox × AuditTables :=
  match db.claimable now locked with
  | none => (none, db)
  | some row =>
    let db' := db.updateOutbox (·.eventID = row.eventID) (AuditOutbox.claimed now token)
      fun _ => rfl
    if (row.claimed now token).state = .dead then (none, db')
    else (some (row.claimed now token), db')

/-- The row after its delivery: only the receipt is left. -/
def AuditOutbox.acknowledged (o : AuditOutbox) : AuditOutbox :=
  { o with
    state := .delivered, payload := "", leaseToken := "", leaseUntil := none, lastError := "" }

/-- One event fewer is pending and the row is delivered. -/
def AuditTables.acknowledge [Tenants] (db : AuditTables) (row : AuditOutbox) : AuditTables :=
  let heads := db.heads.update (fun h => Tenants.same h.tenantID row.tenantID && h.pending > 0)
    (fun h => { h with pending := h.pending - 1 }) fun _ => rfl
  { db with heads := heads }.updateOutbox (·.eventID = row.eventID) AuditOutbox.acknowledged
    fun _ => rfl

/-- The claim still holds the row at the time `now`. -/
def AuditOutbox.heldBy (claim : AuditOutbox) (now : Int) (row : AuditOutbox) : Bool :=
  row.state = .leased && row.leaseToken = claim.leaseToken && row.leaseUntil.any (now < ·)

/-- The decoded event is the one of the row. -/
def AuditOutbox.describes (row : AuditOutbox) (e : AuditLog) : Bool :=
  e.eventID = row.eventID && e.tenantID = row.tenantID && e.sequence = some row.sequence &&
    e.recordHash = row.hash && e.keyID = row.keyID

/-- `AuditRepository.Deliver` at the time `now`. -/
def deliver [Tenants] (pl : Platform) (repo : AuditRepository) (claim : AuditOutbox) (now : Int) :
    Tx Unit :=
  fun db =>
    match db.outbox.get? claim.eventID with
    | none => .error .recordNotFound
    | some row =>
      if row.state = .delivered then .ok ((), db)
      else if !claim.heldBy now row then .error .unavailable
      else
        match unmarshal pl row.payload with
        | none => .error .integrity
        | some e =>
          if !row.describes e then .error .integrity
          else if !repo.keys.verify pl e then .error .integrity
          else
            match db.logs.rows.find? (·.eventID = e.eventID) with
            | some prior =>
              -- a row that is already there is accepted only if it is this event
              if canonical prior ≠ canonical e ∨ prior.recordHash ≠ e.recordHash then
                .error .integrity
              else .ok ((), db.acknowledge row)
            | none =>
              match db.logs.create e with
              | none => .error (.duplicatedKey "audit_logs")
              | some logs => .ok ((), { db with logs := logs }.acknowledge row)

/-- The row after a failed attempt of the claim `c`. -/
def AuditOutbox.failed (c : AuditOutbox) (now : Int) (o : AuditOutbox) : AuditOutbox :=
  { o with
    state := if c.attempts ≥ auditMaxAttempts then .dead else .pending
    availableAt := now + 1000000000 * 2 ^ min c.attempts 8
    leaseUntil := none
    leaseToken := ""
    lastError := "delivery_failed" }

/-- `AuditRepository.FailClaim`: a claim that no longer holds the row changes nothing. -/
def failClaim (c : AuditOutbox) (now : Int) (db : AuditTables) : AuditTables :=
  db.updateOutbox
    (fun o => o.eventID = c.eventID && o.state = .leased && o.leaseToken = c.leaseToken)
    (AuditOutbox.failed c now) fun _ => rfl

/-- The row after an operator requeued it. -/
def AuditOutbox.requeued (now : Int) (o : AuditOutbox) : AuditOutbox :=
  { o with state := .pending, attempts := 0, availableAt := now, lastError := "" }

/-- The dead row of a tenant with this event id. -/
def AuditOutbox.deadOf [Tenants] (tenant id : String) (o : AuditOutbox) : Bool :=
  Tenants.same o.tenantID tenant && o.eventID = id && o.state = .dead

/-- `AuditRepository.RequeueDead`. -/
def requeueDead [Tenants] (tenant id : String) (now : Int) : Tx Unit := fun db =>
  if db.outbox.rows.any (AuditOutbox.deadOf tenant id) then
    .ok ((), db.updateOutbox (AuditOutbox.deadOf tenant id) (AuditOutbox.requeued now) fun _ => rfl)
  else .error .recordNotFound

/-- What one round of `Dispatch` meets: its three clock readings and the locked rows. -/
structure Turn where
  claimAt : Int
  deliverAt : Int
  failAt : Int
  locked : String → Bool

/-- `AuditRepository.Dispatch`: the delivered rows are counted, the first error ends it. -/
def dispatch [Tenants] (pl : Platform) (repo : AuditRepository) :
    List Turn → Nat → AuditTables → (Nat × Option Err) × Nat × AuditTables
  | [], fresh, db => ((0, none), fresh, db)
  | t :: ts, fresh, db =>
    match claim t.claimAt t.locked (pl.uuid fresh) db with
    | (none, db) => ((0, none), fresh + 1, db)
    | (some c, db) =>
      match deliver pl repo c t.deliverAt db with
      | .error e => ((0, some e), fresh + 1, failClaim c t.failAt db)
      | .ok (_, db) =>
        let rest := dispatch pl repo ts (fresh + 1) db
        ((rest.1.1 + 1, rest.1.2), rest.2)

/-! ## Erasure -/

/-- `legacyAuditErasureMarker`. -/
def legacyAuditErasureMarker : String := "anonymized@gdpr.local"

/-- The row without its personal text. -/
def AuditLog.anonymized (r : AuditLog) : AuditLog :=
  { r with email := if r.version = 1 then "" else legacyAuditErasureMarker
           ipAddress := "", detail := "" }

/-- `AuditRepository.AnonymizeUser`. -/
def anonymizeUser [Tenants] (tenant : String) (userID : Nat) (db : AuditTables) : AuditTables :=
  let logs := db.logs.update
    (fun r => if r.userID = some userID ∧ Tenants.same r.tenantID tenant then r.anonymized else r)
    (fun r => by split <;> rfl) (fun r => by split <;> rfl) (fun r => by split <;> rfl)
    fun r => by split <;> rfl
  { db with logs := logs }

/-! ## Operations -/

/-- A service body with the context of an operation. `β` is the rest of the database, `ρ` what its
queries return. -/
inductive Body (β ρ : Type) : Type where
  | done (result : Except Err Unit)
  | sql (f : β → Except Err (ρ × β)) (next : Except Err ρ → Body β ρ)
  | record (a : Admission) (next : Body β ρ)
  | admitEvent (a : Admission) (next : Except Err Unit → Body β ρ)
  | anonymizeUser (tenant : String) (userID : Nat) (fault : Option Err)
      (next : Except Err Unit → Body β ρ)
  | nested (body : Body β ρ) (denial : Err → Bool) (next : Except Err Unit → Body β ρ)

/-- What an admission call of a body came to. -/
inductive Mark : Type where
  | admitted (e : AuditLog)
  /-- a `Record` that failed -/
  | refused

/-- The running transaction: the database as it sees it, the UUIDs drawn, the latch of the operation
and, for the record, what its admissions came to. -/
structure Transaction (β : Type) where
  biz : β
  tables : AuditTables
  fresh : Nat
  op : Operation
  marks : List Mark

section Operation

variable [Tenants] {β ρ : Type} (pl : Platform) (repo : AuditRepository)

/-- `Admit` in the operation. -/
def Transaction.admitEvent (t : Transaction β) (a : Admission) : Except Err Unit × Transaction β :=
  match Audit.admitEvent pl repo a t.fresh t.tables with
  | .error err => (.error err, { t with fresh := t.fresh + 2 })
  | .ok (e, tables) =>
    (.ok (), { t with
      tables := tables
      fresh := t.fresh + 2
      op := { t.op with
        admissions := t.op.admissions + 1
        successful := t.op.successful || e.success }
      marks := t.marks ++ [.admitted e] })

/-- `AuditRepository.Record` in the operation: a failure is latched. -/
def Transaction.record (t : Transaction β) (a : Admission) : Transaction β :=
  match t.admitEvent pl repo a with
  | (.ok _, t) => t
  | (.error _, t) => { t with op := { t.op with failure := true }, marks := t.marks ++ [.refused] }

/-- The body runs. A nested operation is the body alone, with the same latch. -/
def Body.run : Body β ρ → Transaction β → Except Err Unit × Transaction β
  | .done result, t => (result, t)
  | .sql f next, t =>
    match f t.biz with
    | .error e => (next (.error e)).run t
    | .ok (r, biz) => (next (.ok r)).run { t with biz := biz }
  | .record a next, t => next.run (t.record pl repo a)
  | .admitEvent a next, t => (next (t.admitEvent pl repo a).1).run (t.admitEvent pl repo a).2
  | .anonymizeUser tenant userID fault next, t =>
    match fault with
    | some e => (next (.error e)).run t
    | none => (next (.ok ())).run { t with tables := Audit.anonymizeUser tenant userID t.tables }
  | .nested body _ next, t => (next (body.run t).1).run (body.run t).2

/-- The whole database, and the UUIDs drawn so far. -/
structure Store (β : Type) where
  biz : β
  tables : AuditTables
  fresh : Nat

/-- The transaction at its start. -/
def Store.begin (s : Store β) : Transaction β := ⟨s.biz, s.tables, s.fresh, {}, []⟩

/-- What the transaction of an operation ends with: an error and a rollback, or a commit. -/
def Transaction.verdict (t : Transaction β) (result : Except Err Unit) (denial : Err → Bool)
    (commitFails : Bool) : Option Err :=
  if t.op.failure then some .unavailable
  else match result with
    | .ok _ => if commitFails then some .db else none
    | .error e =>
      if !denial e || !t.op.denialMayCommit then some e
      else if commitFails then some .db else none

/-- The error of an operation that was rolled back with `err`. -/
def rollbackError (result : Except Err Unit) (err : Err) : Err :=
  match result with
  | .ok _ => .unavailable
  | .error _ => if err.root = .unavailable then .unavailable else err

/-- The events among the marks. -/
def admittedOf (marks : List Mark) : List AuditLog :=
  marks.filterMap fun m => match m with
    | .admitted e => some e
    | .refused => none

/-- The transaction of `AuditRepository.AuditOperation`: the result, the database after it and the
events that were committed, `none` after a rollback. -/
def operate (body : Body β ρ) (denial : Err → Bool) (commitFails : Bool) (s : Store β) :
    Except Err Unit × Store β × Option (List AuditLog) :=
  let (result, t) := body.run pl repo s.begin
  match t.verdict result denial commitFails with
  | some err => (.error (rollbackError result err), { s with fresh := t.fresh }, none)
  | none => (result, ⟨t.biz, t.tables, t.fresh⟩, some (admittedOf t.marks))

/-- `AuditRepository.AuditOperation`. Without asynchronous delivery the committed events are
dispatched at once; what becomes of that is ignored. -/
def auditOperation (body : Body β ρ) (denial : Err → Bool) (commitFails async : Bool)
    (turns : List Turn) (s : Store β) : Except Err Unit × Store β :=
  match operate pl repo body denial commitFails s with
  | (result, s', none) => (result, s')
  | (result, s', some _) =>
    if async then (result, s')
    else
      let out := dispatch pl repo (turns.take 1000) s'.fresh s'.tables
      (result, { s' with tables := out.2.2, fresh := out.2.1 })

end Operation

end FinnAuth.Audit
