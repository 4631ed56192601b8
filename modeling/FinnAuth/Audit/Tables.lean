import Mathlib.Data.List.Sort
import FinnAuth.Audit.Event
import FinnAuth.Lib.Table

/-!
# The audit tables

`audit_heads`, `audit_outboxes`, `audit_boundaries` and `audit_logs` with their keys, and the
statements the repository runs on them. The auto-increment of `audit_logs` and its two unique
indexes are fields of `LogTable`, so a table that violates them cannot be built. Rows from before
the durable log have version 0, no event id and no sequence number.

The columns compare a `tenant_id` as the collation `Tenants` says; a statement that names no
collation is about columns that compare texts.

Results:
* `LogTable`: every row has an id below the next one, and no two rows share an event id or a
  sequence number of one tenant;
* **`range_eq`**: what the query of a range returns is determined by the rows, whatever their order.
-/

namespace FinnAuth.Audit

open Lib

/-! ## Rows -/

/-- The states of an outbox row. -/
inductive OutboxState : Type where
  | pending
  | leased
  | dead
  | delivered
  deriving DecidableEq, Repr

/-- `models.AuditOutbox`. -/
structure AuditOutbox where
  eventID : String
  tenantID : String
  sequence : Nat
  hash : String
  keyID : String
  payload : String
  state : OutboxState
  attempts : Nat
  availableAt : Int
  leaseUntil : Option Int
  leaseToken : String
  lastError : String
  createdAt : Int
  deriving DecidableEq, Repr

/-- `models.AuditHead`. -/
structure AuditHead where
  tenantID : String
  sequence : Nat
  hash : String
  pending : Nat
  deriving DecidableEq, Repr

/-- `models.AuditBoundary`. -/
structure AuditBoundary where
  tenantID : String
  sequence : Nat
  hash : String
  deriving DecidableEq, Repr

/-! ## Texts in a column -/

/-- When a column takes two texts for one. -/
structure Collation where
  same : String → String → Bool
  refl : ∀ s, same s s = true
  symm : ∀ {s t}, same s t = true → same t s = true
  trans : ∀ {s t u}, same s t = true → same t u = true → same s u = true

/-- The collation that takes a text for itself only. -/
def Collation.binary : Collation where
  same s t := s = t
  refl _ := decide_eq_true rfl
  symm h := decide_eq_true (of_decide_eq_true h).symm
  trans h h' := decide_eq_true ((of_decide_eq_true h).trans (of_decide_eq_true h'))

/-- A collation that ignores case. -/
def Collation.caseless : Collation where
  same s t := s.toList.map Char.toLower = t.toList.map Char.toLower
  refl _ := decide_eq_true rfl
  symm h := decide_eq_true (of_decide_eq_true h).symm
  trans h h' := decide_eq_true ((of_decide_eq_true h).trans (of_decide_eq_true h'))

/-- The collation of the `tenant_id` columns. -/
class Tenants where
  column : Collation

/-- Where no other is named, the columns compare texts. -/
instance Tenants.binary : Tenants := ⟨.binary⟩

/-- Columns that ignore case. -/
abbrev Tenants.caseless : Tenants := ⟨.caseless⟩

/-- The columns take the ids for one. -/
def Tenants.same [Tenants] (s t : String) : Bool := Tenants.column.same s t

@[simp] theorem Tenants.same_eq (s t : String) : Tenants.same s t = decide (s = t) := rfl

/-! ## `audit_logs` -/

/-- The unique indexes let the two rows stand side by side; a `NULL` is never equal to another. -/
structure AuditLog.Apart (a b : AuditLog) : Prop where
  id : a.id ≠ b.id
  eventID : a.eventID = b.eventID → b.eventID = ""
  sequence : a.tenantID = b.tenantID → a.sequence = b.sequence → b.sequence = none

instance (a b : AuditLog) : Decidable (a.Apart b) :=
  decidable_of_iff (a.id ≠ b.id ∧ (a.eventID = b.eventID → b.eventID = "") ∧
      (a.tenantID = b.tenantID → a.sequence = b.sequence → b.sequence = none))
    ⟨fun h => ⟨h.1, h.2.1, h.2.2⟩, fun h => ⟨h.1, h.2, h.3⟩⟩

/-- The table with its counter. -/
structure LogTable where
  rows : List AuditLog
  next : Nat
  fresh : ∀ r ∈ rows, r.id < next
  apart : rows.Pairwise AuditLog.Apart

namespace LogTable

variable {t t' : LogTable} {e : AuditLog}

/-- `INSERT` with a new id, refused by the unique indexes. -/
def create [Tenants] (t : LogTable) (e : AuditLog) : Option LogTable :=
  if t.rows.any fun r => Tenants.same r.tenantID e.tenantID && r.sequence = e.sequence &&
      e.sequence.isSome then none
  else if h : ∀ r ∈ t.rows, r.Apart { e with id := t.next } then
    some {
      rows := t.rows ++ [{ e with id := t.next }]
      next := t.next + 1
      fresh := by
        intro r hr
        rcases List.mem_append.1 hr with hr | hr
        · exact Nat.lt_succ_of_lt (t.fresh r hr)
        · rw [List.mem_singleton.1 hr]
          exact Nat.lt_succ_self t.next
      apart := by
        rw [List.pairwise_append]
        refine ⟨t.apart, List.pairwise_singleton .., ?_⟩
        rintro r hr _ hs
        rw [List.mem_singleton.1 hs]
        exact h r hr }
  else none

/-- `DELETE … WHERE p`. -/
def delete (t : LogTable) (p : AuditLog → Bool) : LogTable where
  rows := t.rows.filter fun r => !p r
  next := t.next
  fresh r hr := t.fresh r (List.mem_filter.1 hr).1
  apart := t.apart.filter _

/-- An `UPDATE` that leaves the indexed columns alone. -/
def update (t : LogTable) (f : AuditLog → AuditLog) (hid : ∀ r, (f r).id = r.id)
    (hevent : ∀ r, (f r).eventID = r.eventID) (htenant : ∀ r, (f r).tenantID = r.tenantID)
    (hseq : ∀ r, (f r).sequence = r.sequence) : LogTable where
  rows := t.rows.map f
  next := t.next
  fresh := by
    intro r hr
    obtain ⟨s, hs, rfl⟩ := List.mem_map.1 hr
    rw [hid]
    exact t.fresh s hs
  apart := by
    refine List.pairwise_map.2 (t.apart.imp fun {a b} h => ⟨?_, ?_, ?_⟩)
    · rw [hid, hid]; exact h.id
    · rw [hevent, hevent]; exact h.eventID
    · rw [htenant, htenant, hseq, hseq]; exact h.sequence

theorem ext_rows (h : t.rows = t'.rows) (hnext : t.next = t'.next) : t = t' := by
  cases t
  cases t'
  cases h
  cases hnext
  rfl

theorem create_eq_some [Tenants] (h : t.create e = some t') :
    (∀ r ∈ t.rows, r.Apart { e with id := t.next }) ∧
      t'.rows = t.rows ++ [{ e with id := t.next }] ∧ t'.next = t.next + 1 := by
  unfold create at h
  split at h
  · cases h
  split at h
  · rename_i hap
    cases h
    exact ⟨hap, rfl, rfl⟩
  · cases h

/-- Where the indexes have nothing against it, the row is inserted. -/
theorem create_of_apart (h : ∀ r ∈ t.rows, r.Apart { e with id := t.next }) :
    ∃ t', t.create e = some t' := by
  have hfree : ¬ (t.rows.any fun r => Tenants.same r.tenantID e.tenantID &&
      r.sequence = e.sequence && e.sequence.isSome) := by
    intro hany
    obtain ⟨r, hr, hsame⟩ := List.any_eq_true.1 hany
    simp only [Tenants.same_eq, Bool.and_eq_true, decide_eq_true_eq] at hsame
    have hnone : e.sequence = none := (h r hr).sequence hsame.1.1 hsame.1.2
    simp [hnone] at hsame
  unfold create
  rw [if_neg hfree, dif_pos h]
  exact ⟨_, rfl⟩

end LogTable

/-! ## The database -/

/-- The audit tables. -/
structure AuditTables where
  heads : Table AuditHead.tenantID
  outbox : Table AuditOutbox.eventID
  boundaries : Table AuditBoundary.tenantID
  logs : LogTable

namespace AuditTables

variable [Tenants] (db : AuditTables)

/-- The head of a tenant, as `Admit` creates it if there is none. -/
def headOf (tenant : String) : AuditHead :=
  (db.heads.first? fun h => Tenants.same h.tenantID tenant).getD ⟨tenant, 0, genesisAuditHash, 0⟩

/-- The boundary of a tenant: everything up to it has left the table. -/
def boundaryOf (tenant : String) : AuditBoundary :=
  (db.boundaries.first? fun b => Tenants.same b.tenantID tenant).getD ⟨tenant, 0, genesisAuditHash⟩

/-- The outbox rows of a tenant. -/
def receiptsOf (tenant : String) : List AuditOutbox :=
  db.outbox.rows.filter fun o => Tenants.same o.tenantID tenant

/-- The signed rows of a tenant. -/
def hot (tenant : String) : List AuditLog :=
  db.logs.rows.filter fun r => Tenants.same r.tenantID tenant && r.version = 1

end AuditTables

theorem headOf_eq (db : AuditTables) (t : String) :
    db.headOf t = (db.heads.get? t).getD ⟨t, 0, genesisAuditHash, 0⟩ := rfl

theorem boundaryOf_eq (db : AuditTables) (t : String) :
    db.boundaryOf t = (db.boundaries.get? t).getD ⟨t, 0, genesisAuditHash⟩ := rfl

theorem headOf_tenantID (db : AuditTables) (t : String) : (db.headOf t).tenantID = t := by
  rw [headOf_eq]
  cases h : db.heads.get? t with
  | none => rfl
  | some hd => exact ((db.heads.get?_eq_some_iff).1 h).2

theorem boundaryOf_tenantID (db : AuditTables) (t : String) : (db.boundaryOf t).tenantID = t := by
  rw [boundaryOf_eq]
  cases h : db.boundaries.get? t with
  | none => rfl
  | some b => exact ((db.boundaries.get?_eq_some_iff).1 h).2

/-- The rows with a sequence number above `lo` and up to `hi`; `NULL` is in no range. -/
def inRange (lo hi : Nat) (r : AuditLog) : Bool :=
  r.sequence.any fun n => lo < n && n ≤ hi

/-- `ORDER BY sequence`. -/
def bySequence (rows : List AuditLog) : List AuditLog :=
  rows.insertionSort fun a b => a.sequence.getD 0 ≤ b.sequence.getD 0

/-- The signed rows of a tenant with a sequence number in the range, in order. -/
def AuditTables.range [Tenants] (db : AuditTables) (tenant : String) (lo hi : Nat) :
    List AuditLog :=
  bySequence ((db.hot tenant).filter (inRange lo hi))

/-- A row without its id. -/
def AuditLog.strip (e : AuditLog) : AuditLog := { e with id := 0 }

theorem bySequence_perm (rows : List AuditLog) : (bySequence rows).Perm rows :=
  List.perm_insertionSort _ rows

theorem bySequence_sorted (rows : List AuditLog) :
    (bySequence rows).Pairwise fun a b => a.sequence.getD 0 ≤ b.sequence.getD 0 := by
  have : Std.Total fun a b : AuditLog => a.sequence.getD 0 ≤ b.sequence.getD 0 :=
    ⟨fun a b => Nat.le_total _ _⟩
  have : IsTrans AuditLog fun a b => a.sequence.getD 0 ≤ b.sequence.getD 0 :=
    ⟨fun a b c => Nat.le_trans⟩
  exact List.pairwise_insertionSort _ rows

/-- **The query of a range returns the chain it is about**, if that is what the rows hold. -/
theorem range_eq {db : AuditTables} {tenant : String} {lo hi : Nat} {xs : List AuditLog}
    (hperm : ((db.hot tenant).map AuditLog.strip).Perm xs)
    (hsorted : xs.Pairwise fun a b => links.seq a < links.seq b) :
    (db.range tenant lo hi).map AuditLog.strip = xs.filter (inRange lo hi) := by
  have hp : ((db.range tenant lo hi).map AuditLog.strip).Perm (xs.filter (inRange lo hi)) := by
    have hmap : ((db.hot tenant).filter (inRange lo hi)).map AuditLog.strip =
        ((db.hot tenant).map AuditLog.strip).filter (inRange lo hi) := by
      rw [List.filter_map]
      rfl
    refine ((bySequence_perm _).map _).trans ?_
    rw [hmap]
    exact hperm.filter _
  have hle : ((db.range tenant lo hi).map AuditLog.strip).Pairwise
      fun a b => links.seq a ≤ links.seq b :=
    List.pairwise_map.2 (bySequence_sorted _)
  have hlt := hsorted.filter (inRange lo hi)
  refine List.Perm.eq_of_pairwise ?_ hle (hlt.imp fun h => Nat.le_of_lt h) hp
  -- two rows of the chain with one number are one row
  have hnodup : ((xs.filter (inRange lo hi)).map links.seq).Nodup :=
    List.pairwise_map.2 (hlt.imp fun h => Nat.ne_of_lt h)
  intro a b ha hb hab hba
  exact List.inj_on_of_nodup_map hnodup (hp.subset ha) hb (Nat.le_antisymm hab hba)

end FinnAuth.Audit
