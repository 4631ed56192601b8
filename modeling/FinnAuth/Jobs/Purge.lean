import Mathlib.Data.List.Perm.Basic

/-!
# Deleting in batches

`batchedDelete` (`batched_delete.go`), which the clean-up jobs use: `DELETE … LIMIT` until a
statement removes less than a full batch. The other models delete the matching rows in one step.

Results:
* **`batched_is_plain`**: the loop ends, and has done what one statement without a limit does.
-/

namespace FinnAuth.Jobs

variable {α : Type}

/-- `purgeBatchSize` -/
def purgeBatchSize : Nat := 1000

/-- The database under the loop: the order in which a statement meets the rows, and which statements
fail. Statements are numbered from the last possible one. -/
structure Engine (α : Type) where
  scan : Nat → List α → List α
  scan_perm : ∀ i l, (scan i l).Perm l
  fails : Nat → Bool

/-- `DELETE … WHERE p LIMIT n` -/
def deleteLimit (p : α → Bool) : Nat → List α → List α
  | 0, l => l
  | _ + 1, [] => []
  | n + 1, a :: l => if p a then deleteLimit p n l else a :: deleteLimit p (n + 1) l

/-- `batchedDelete`: the total, whether it ended without an error, and the rows that are left;
`none` if the loop goes on for longer than `fuel` statements. -/
def batchedDelete (db : Engine α) (p : α → Bool) : Nat → Nat → List α → Option (Nat × Bool × List α)
  | 0, _, _ => none
  | fuel + 1, total, rows =>
    if db.fails fuel then some (total, false, rows)
    else
      let affected := min purgeBatchSize (rows.countP p)
      let left := deleteLimit p purgeBatchSize (db.scan fuel rows)
      if affected < purgeBatchSize then some (total + affected, true, left)
      else batchedDelete db p fuel (total + affected) left

theorem deleteLimit_spec (p : α → Bool) (n : Nat) (l : List α) :
    (deleteLimit p n l).countP p = l.countP p - n ∧
      (deleteLimit p n l).filter (fun a => !p a) = l.filter fun a => !p a := by
  induction l generalizing n with
  | nil => cases n <;> simp [deleteLimit]
  | cons a l ih =>
    cases n with
    | zero => simp [deleteLimit]
    | succ n =>
      by_cases ha : p a = true
      · simp [deleteLimit, ha, ih n]
      · simp [deleteLimit, ha, ih (n + 1)]

/-- **Batches are one statement.** The loop ends. It counts the rows it removed, and removes only
rows that match, in whatever order the database meets them and also if a statement fails; without
a failure all of them are gone. -/
theorem batched_is_plain (db : Engine α) (p : α → Bool) (rows : List α) (total : Nat)
    {fuel : Nat} (hfuel : rows.countP p < fuel) :
    ∃ n ok left, batchedDelete db p fuel total rows = some (total + n, ok, left) ∧
      left.countP p + n = rows.countP p ∧
      (left.filter fun a => !p a).Perm (rows.filter fun a => !p a) ∧
      (ok = true → left.Perm (rows.filter fun a => !p a)) := by
  induction fuel generalizing rows total with
  | zero => exact absurd hfuel (Nat.not_lt_zero _)
  | succ fuel ih =>
    obtain ⟨hcount, hfilter⟩ := deleteLimit_spec p purgeBatchSize (db.scan fuel rows)
    rw [(db.scan_perm fuel rows).countP_eq] at hcount
    have hkept := hfilter ▸ (db.scan_perm fuel rows).filter fun a => !p a
    unfold batchedDelete
    split
    · exact ⟨0, false, rows, rfl, rfl, .refl _, fun h => by cases h⟩
    · simp only []
      split
      · rename_i hlast
        have hnone : (deleteLimit p purgeBatchSize (db.scan fuel rows)).countP p = 0 := by omega
        refine ⟨_, true, _, rfl, by omega, hkept, fun _ => ?_⟩
        rwa [List.filter_eq_self.2 fun a ha => by simpa using List.countP_eq_zero.1 hnone a ha]
          at hkept
      · rename_i hfull
        have hpos : 0 < purgeBatchSize := by decide
        obtain ⟨n, ok, left, heq, hleft, hsame, hok⟩ :=
          ih (deleteLimit p purgeBatchSize (db.scan fuel rows)) _ (by omega)
        refine ⟨_, ok, left, by rw [heq, Nat.add_assoc], by omega, hsame.trans hkept,
          fun h => (hok h).trans hkept⟩

theorem batched_is_plain_three :
    let db : Engine Nat := ⟨fun _ l => l, fun _ _ => .refl _, fun _ => false⟩
    ∃ n ok left, batchedDelete db (· < 3) 3 0 [1, 3, 2] = some (0 + n, ok, left) ∧
      (ok = true → left.Perm [3]) := by
  obtain ⟨n, ok, left, heq, -, -, hok⟩ := batched_is_plain
    (⟨fun _ l => l, fun _ _ => .refl _, fun _ => false⟩ : Engine Nat) (· < 3) [1, 3, 2] 0
    (show _ < 3 by decide)
  exact ⟨n, ok, left, heq, hok⟩

end FinnAuth.Jobs
