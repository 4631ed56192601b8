import Mathlib.Data.List.Nodup
import Mathlib.Data.List.Range

/-!
# Chains of records

Records that carry a number, the digest of the record before them and a digest of their own. A list
of them leads from one position to another, a position being the number and the digest of the last
record so far.

Results:
* `leads_append`, `leads_seqs`: chains compose, and their numbers have no gap;
* `leads_initial`: a chain among the records of another one is how that one begins;
* **`leads_unique`**: where the digest determines the record, two chains with the same end and the
  same first number are the same, record by record. The argument runs from the end: the last
  digests agree, so the last records do, and with them the digests before them.
-/

namespace FinnAuth.Lib

/-- How the records of a chain are numbered and linked. -/
structure Links (α η : Type) where
  seq : α → Nat
  prev : α → η
  digest : α → η

namespace Links

variable {α η : Type} (L : Links α η)

/-- The records lead from the position `p` to the position `q`. -/
def Leads : Nat × η → List α → Nat × η → Prop
  | p, [], q => p = q
  | p, x :: xs, q => L.seq x = p.1 + 1 ∧ L.prev x = p.2 ∧ Leads (p.1 + 1, L.digest x) xs q

variable {L} {p q : Nat × η} {xs ys : List α} {n : Nat} {x : α}

theorem leads_append :
    L.Leads p (xs ++ ys) q ↔ ∃ r, L.Leads p xs r ∧ L.Leads r ys q := by
  induction xs generalizing p with
  | nil => exact ⟨fun h => ⟨p, rfl, h⟩, by rintro ⟨r, rfl, h⟩; exact h⟩
  | cons x xs ih =>
    constructor
    · rintro ⟨hs, hp, h⟩
      obtain ⟨r, hr, h⟩ := ih.1 h
      exact ⟨r, ⟨hs, hp, hr⟩, h⟩
    · rintro ⟨r, ⟨hs, hp, hr⟩, h⟩
      exact ⟨hs, hp, ih.2 ⟨r, hr, h⟩⟩

theorem leads_concat : L.Leads p (xs ++ [x]) q ↔
      ∃ r, L.Leads p xs r ∧ L.seq x = r.1 + 1 ∧ L.prev x = r.2 ∧ (r.1 + 1, L.digest x) = q :=
  leads_append

theorem leads_length (h : L.Leads p xs q) : q.1 = p.1 + xs.length := by
  induction xs generalizing p with
  | nil => rw [show p = q from h]; rfl
  | cons x xs ih =>
    have := ih h.2.2
    rw [List.length_cons]
    omega

/-- **The numbers have no gap.** -/
theorem leads_seqs (h : L.Leads p xs q) : xs.map L.seq = List.range' (p.1 + 1) xs.length := by
  induction xs generalizing p with
  | nil => rfl
  | cons x xs ih =>
    rw [List.map_cons, List.length_cons, List.range'_succ, ih h.2.2, h.1]

theorem seq_of_mem (h : L.Leads p xs q) (hx : x ∈ xs) : p.1 < L.seq x ∧ L.seq x ≤ q.1 := by
  have hmem := List.mem_map_of_mem (f := L.seq) hx
  rw [leads_seqs h, List.mem_range'_1] at hmem
  have := leads_length h
  omega

/-- Records of one chain with the same number are the same. -/
theorem eq_of_seq_eq (h : L.Leads p xs q) {x y : α} (hx : x ∈ xs) (hy : y ∈ xs)
    (hxy : L.seq x = L.seq y) : x = y := by
  have hnodup : (xs.map L.seq).Nodup := by
    rw [leads_seqs h]
    exact List.nodup_range'
  exact List.inj_on_of_nodup_map hnodup hx hy hxy

/-- Every number on the way has its record. -/
theorem exists_seq (h : L.Leads p xs q) (hlo : p.1 < n) (hhi : n ≤ q.1) :
    ∃ x ∈ xs, L.seq x = n := by
  have hlen := leads_length h
  have hmem : n ∈ xs.map L.seq := by
    rw [leads_seqs h, List.mem_range'_1]
    omega
  obtain ⟨x, hx, hn⟩ := List.mem_map.1 hmem
  exact ⟨x, hx, hn⟩

theorem leads_sorted (h : L.Leads p xs q) : xs.Pairwise fun x y => L.seq x < L.seq y := by
  have hlt : (xs.map L.seq).Pairwise (· < ·) := by
    rw [leads_seqs h]
    exact List.pairwise_lt_range'
  exact List.pairwise_map.1 hlt

/-- A chain among the records of another one, from the same start, is how that one begins. -/
theorem leads_initial {r : Nat × η} (hx : L.Leads p xs q) (hy : L.Leads p ys r)
    (hsub : ys.Sublist xs) : ∃ zs, xs = ys ++ zs ∧ L.Leads r zs q := by
  induction ys generalizing p xs with
  | nil =>
    obtain rfl : p = r := hy
    exact ⟨xs, rfl, hx⟩
  | cons y ys ih =>
    cases xs with
    | nil => cases hsub
    | cons x xs =>
      cases hsub with
      | cons _ hsub =>
        -- a record further on has a higher number
        have hlater := (seq_of_mem hx.2.2 (hsub.subset List.mem_cons_self)).1
        have hnext := hy.1
        omega
      | cons_cons _ hsub =>
        obtain ⟨zs, rfl, hz⟩ := ih hx.2.2 hy.2.2 hsub
        exact ⟨zs, rfl, hz⟩

/-- A chain passes through every number on its way. -/
theorem leads_split (h : L.Leads p xs q) (hlo : p.1 ≤ n) (hhi : n ≤ q.1) :
    ∃ ys zs d, xs = ys ++ zs ∧ L.Leads p ys (n, d) ∧ L.Leads (n, d) zs q := by
  induction xs generalizing p with
  | nil =>
    obtain rfl : p = q := h
    exact ⟨[], [], p.2, rfl, Prod.ext (Nat.le_antisymm hlo hhi) rfl,
      Prod.ext (Nat.le_antisymm hhi hlo) rfl⟩
  | cons x xs ih =>
    rcases Nat.eq_or_lt_of_le hlo with rfl | hlt
    · exact ⟨[], x :: xs, p.2, rfl, rfl, h⟩
    · obtain ⟨ys, zs, d, rfl, hys, hzs⟩ := ih h.2.2 hlt
      exact ⟨x :: ys, zs, d, rfl, ⟨h.1, h.2.1, hys⟩, hzs⟩

/-- Only numbers, links and digests matter. -/
theorem leads_map {f : α → α} (hseq : ∀ x, L.seq (f x) = L.seq x)
    (hprev : ∀ x, L.prev (f x) = L.prev x) (hdigest : ∀ x, L.digest (f x) = L.digest x) :
    L.Leads p (xs.map f) q ↔ L.Leads p xs q := by
  induction xs generalizing p with
  | nil => rfl
  | cons x xs ih =>
    simp only [List.map_cons, Leads, hseq, hprev, hdigest, ih]

/-- **The end of a chain determines it**, where equal digests mean related records with the same
record before them. -/
theorem leads_unique {P : α → Prop} {R : α → α → Prop}
    (hR : ∀ x y, P x → P y → L.digest x = L.digest y → R x y ∧ L.prev x = L.prev y) {h h' : η}
    (hx : ∀ x ∈ xs, P x) (hy : ∀ y ∈ ys, P y) (hxs : L.Leads (n, h) xs q)
    (hys : L.Leads (n, h') ys q) : List.Forall₂ R xs ys := by
  have hlen : xs.length = ys.length := by
    have := leads_length hxs
    have := leads_length hys
    omega
  induction xs using List.reverseRecOn generalizing ys q with
  | nil =>
    obtain rfl : ys = [] := List.eq_nil_of_length_eq_zero hlen.symm
    exact .nil
  | append_singleton xs x ih =>
    rcases List.eq_nil_or_concat' ys with rfl | ⟨ys, y, rfl⟩
    · simp at hlen
    obtain ⟨r, hxr, hsx, hpx, rfl⟩ := leads_concat.1 hxs
    obtain ⟨r', hyr, hsy, hpy, hq⟩ := leads_concat.1 hys
    obtain ⟨hn, hd⟩ := Prod.mk.inj hq
    obtain ⟨hrel, hprev⟩ := hR x y (hx x (by simp)) (hy y (by simp)) hd.symm
    have hr : r = r' := Prod.ext (by omega) (by rw [← hpx, ← hpy, hprev])
    subst hr
    have hlen' : xs.length = ys.length := by simpa using hlen
    have hinit := ih (fun z hz => hx z (List.mem_append_left _ hz))
      (fun z hz => hy z (List.mem_append_left _ hz)) hxr hyr hlen'
    exact List.rel_append hinit (.cons hrel .nil)

end Links

end FinnAuth.Lib
