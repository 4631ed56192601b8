import Mathlib.Data.List.Nodup
import Mathlib.Data.List.Count

/-!
# Tables with a primary key

`Table key` is a list of rows in insertion order in which no two rows share a key: the constraint
is a field, so that a table that violates it cannot be built. Updates name the rows they touch and
carry the proof that they leave the key alone.

Results:
* **`get?_eq_some_iff`**: the row with a key is unique;
* `mem_update`, `mem_insert`, `mem_delete`, `get?_put`: the rows after a statement;
* `restrict_update`, `restrict_delete`, `restrict_insert`: a statement outside a part of the table
  leaves that part;
* `Moves`: the same rows, each as a relation allows;
* **`countP_modify`**: how the number of rows with a property changes when the row with one key
  is rewritten. A compare-and-set on a flag is such a statement.
-/

namespace FinnAuth.Lib

variable {α κ : Type} {key : α → κ}

/-- Rows without a duplicate key. -/
structure Table (key : α → κ) where
  rows : List α
  nodup : (rows.map key).Nodup

namespace Table

variable {t t' : Table key} {p q : α → Bool} {a b : α} {f : α → α} {hf : ∀ a, key (f a) = key a}

/-- The table without rows. -/
def empty : Table key := ⟨[], List.nodup_nil⟩

/-- The first row, in insertion order, with the property. -/
def first? (t : Table key) (p : α → Bool) : Option α := t.rows.find? p

/-- The row with the key. -/
def get? [DecidableEq κ] (t : Table key) (k : κ) : Option α := t.rows.find? fun a => key a = k

/-- `INSERT`: refused when the key is taken. -/
def insert [DecidableEq κ] (t : Table key) (a : α) : Option (Table key) :=
  if h : key a ∈ t.rows.map key then none
  else some ⟨t.rows ++ [a], by
    rw [List.map_append, List.map_singleton, List.nodup_append]
    refine ⟨t.nodup, List.nodup_singleton _, ?_⟩
    rintro x hx y hy rfl
    exact h (List.mem_singleton.1 hy ▸ hx)⟩

/-- `UPDATE … WHERE p`, for a change that leaves the key alone. -/
def update (t : Table key) (p : α → Bool) (f : α → α) (hf : ∀ a, key (f a) = key a) :
    Table key :=
  ⟨t.rows.map fun a => if p a then f a else a, by
    have h : (t.rows.map fun a => if p a then f a else a).map key = t.rows.map key := by
      rw [List.map_map]
      refine List.map_congr_left fun a _ => ?_
      simp only [Function.comp]
      split
      · exact hf a
      · rfl
    rw [h]
    exact t.nodup⟩

/-- The row takes the place of the one with its key, or comes last. -/
def put [DecidableEq κ] (t : Table key) (a : α) : Table key :=
  (t.insert a).getD (t.update (fun b => key b = key a) (fun b => if key b = key a then a else b)
    fun b => by split <;> simp_all)

/-- `DELETE … WHERE p`. -/
def delete (t : Table key) (p : α → Bool) : Table key :=
  ⟨t.rows.filter fun a => !p a, t.nodup.sublist (List.filter_sublist.map key)⟩

/-! ## Membership -/

theorem eq_of_key_eq (t : Table key) (ha : a ∈ t.rows) (hb : b ∈ t.rows) (h : key a = key b) :
    a = b :=
  List.inj_on_of_nodup_map t.nodup ha hb h

theorem mem_of_first? (h : t.first? p = some a) : a ∈ t.rows ∧ p a = true :=
  ⟨List.mem_of_find?_eq_some h, List.find?_some h⟩

theorem first?_eq_none_iff : t.first? p = none ↔ ∀ a ∈ t.rows, p a = false := by
  simp [first?, List.find?_eq_none]

theorem first?_congr (h : ∀ a ∈ t.rows, p a = q a) : t.first? p = t.first? q := by
  unfold first?
  rw [← List.head?_filter, ← List.head?_filter, List.filter_congr h]

@[simp] theorem mem_update (t : Table key) (p : α → Bool) (f : α → α)
    (hf : ∀ a, key (f a) = key a) (b : α) :
    b ∈ (t.update p f hf).rows ↔ ∃ a ∈ t.rows, (if p a then f a else a) = b := by
  simp [update]

@[simp] theorem mem_delete (t : Table key) (p : α → Bool) (b : α) :
    b ∈ (t.delete p).rows ↔ b ∈ t.rows ∧ p b = false := by
  simp [delete]

theorem ext_rows (h : t.rows = t'.rows) : t = t' := by
  cases t
  cases t'
  cases h
  rfl

theorem update_congr (h : ∀ a ∈ t.rows, p a = q a) : t.update p f hf = t.update q f hf :=
  ext_rows (List.map_congr_left fun a ha => by rw [h a ha])

/-- A statement that finds no row changes nothing. -/
theorem update_eq_self (h : ∀ a ∈ t.rows, p a = false) : t.update p f hf = t := by
  refine ext_rows ?_
  conv_rhs => rw [← List.map_id t.rows]
  refine List.map_congr_left fun a ha => ?_
  rw [h a ha]
  rfl

/-! ## Part of a table -/

/-- The rows with the property. -/
def restrict (t : Table key) (q : α → Bool) : Table key :=
  ⟨t.rows.filter q, t.nodup.sublist (List.filter_sublist.map key)⟩

@[simp] theorem rows_restrict (t : Table key) (q : α → Bool) :
    (t.restrict q).rows = t.rows.filter q := rfl

/-- An update outside the part leaves the part. -/
theorem restrict_update (h : ∀ a ∈ t.rows, p a = true → q a = false ∧ q (f a) = false) :
    (t.update p f hf).restrict q = t.restrict q := by
  refine ext_rows ?_
  change (t.rows.map fun a => if p a then f a else a).filter q = t.rows.filter q
  generalize t.rows = rows at h
  induction rows with
  | nil => rfl
  | cons a rows ih =>
    rw [List.map_cons, List.filter_cons, List.filter_cons,
      ih fun b hb => h b (List.mem_cons_of_mem a hb)]
    by_cases hp : p a = true
    · obtain ⟨hq, hqf⟩ := h a List.mem_cons_self hp
      simp only [hp, hq, hqf, if_true, Bool.false_eq_true, if_false]
    · rw [if_neg hp]

/-- A deletion outside the part leaves the part. -/
theorem restrict_delete (h : ∀ a ∈ t.rows, p a = true → q a = false) :
    (t.delete p).restrict q = t.restrict q := by
  refine ext_rows ?_
  change (t.rows.filter fun a => !p a).filter q = t.rows.filter q
  rw [List.filter_filter]
  refine List.filter_congr fun a ha => ?_
  cases hp : p a with
  | false => simp
  | true => simp [h a ha hp]

/-! ## Rows that move on -/

/-- Every member of a list has its partner in the list that goes along with it. -/
theorem exists_of_forall₂ {γ δ : Type} {Q : γ → δ → Prop} {l : List γ} {l' : List δ}
    (h : List.Forall₂ Q l l') {c : γ} (hc : c ∈ l) : ∃ d ∈ l', Q c d := by
  induction h with
  | nil => cases hc
  | cons hcd _ ih =>
    rcases List.mem_cons.1 hc with rfl | hc
    · exact ⟨_, List.mem_cons_self, hcd⟩
    · obtain ⟨d, hd, hq⟩ := ih hc
      exact ⟨d, List.mem_cons_of_mem _ hd, hq⟩

/-- The same rows in the same order, each related to what it was. -/
def Moves (R : α → α → Prop) (t t' : Table key) : Prop := List.Forall₂ R t.rows t'.rows

/-- The row is as it was, or the change `f` was made. -/
def Once (f : α → α) (a b : α) : Prop := b = a ∨ b = f a

theorem Once.trans (hf : ∀ a, f (f a) = f a) {a b c : α} (h : Once f a b) (h' : Once f b c) :
    Once f a c := by
  rcases h with rfl | rfl
  · exact h'
  · exact .inr (h'.elim (fun h => h) fun h => h.trans (hf a))

section Moves

variable {R : α → α → Prop}

theorem Moves.refl (hR : ∀ a, R a a) (t : Table key) : t.Moves R t :=
  List.forall₂_same.2 fun a _ => hR a

theorem Moves.trans {t t' t'' : Table key} (h : t.Moves R t') (h' : t'.Moves R t'')
    (hR : ∀ {a b c}, R a b → R b c → R a c) : t.Moves R t'' := by
  unfold Moves at *
  generalize t.rows = l, t'.rows = l', t''.rows = l'' at *
  induction h generalizing l'' with
  | nil => exact h'
  | cons hab _ ih =>
    cases h' with
    | cons hbc htail => exact .cons (hR hab hbc) (ih _ htail)

/-- An `UPDATE`, by the rows after it. -/
theorem moves_of_rows (h : t'.rows = t.rows.map fun a => if p a then f a else a) (hR : ∀ a, R a a)
    (hpf : ∀ a ∈ t.rows, p a = true → R a (f a)) : t.Moves R t' := by
  unfold Moves
  rw [h]
  refine List.forall₂_map_right_iff.2 (List.forall₂_same.2 fun a ha => ?_)
  split
  · rename_i hp
    exact hpf a ha hp
  · exact hR a

/-- A list that goes along with the rows goes along with them as they move on. -/
theorem Moves.forall₂ {γ : Type} {Q : γ → α → Prop} {l : List γ} (h : t.Moves R t')
    (hQ : ∀ {c a b}, Q c a → R a b → Q c b) (hl : List.Forall₂ Q l t.rows) :
    List.Forall₂ Q l t'.rows := by
  unfold Moves at h
  generalize t.rows = rows, t'.rows = rows' at *
  induction h generalizing l with
  | nil => exact hl
  | cons hab _ ih =>
    cases hl with
    | cons hca htail => exact .cons (hQ hca hab) (ih htail)

/-- A property that the rows keep one by one has the same count. -/
theorem Moves.countP (h : t.Moves R t') (hq : ∀ {a b}, R a b → q b = q a) :
    t'.rows.countP q = t.rows.countP q := by
  unfold Moves at h
  generalize t.rows = rows, t'.rows = rows' at *
  induction h with
  | nil => rfl
  | cons hab _ ih => rw [List.countP_cons, List.countP_cons, ih, hq hab]

theorem Moves.any (h : t.Moves R t') (hq : ∀ {a b}, R a b → q b = q a) :
    t'.rows.any q = t.rows.any q := by
  unfold Moves at h
  generalize t.rows = rows, t'.rows = rows' at *
  induction h with
  | nil => rfl
  | cons hab _ ih => rw [List.any_cons, List.any_cons, ih, hq hab]

end Moves

variable [DecidableEq κ] {k : κ}

/-- **The row with a key is unique.** -/
theorem get?_eq_some_iff (t : Table key) : t.get? k = some a ↔ a ∈ t.rows ∧ key a = k := by
  constructor
  · intro h
    exact ⟨List.mem_of_find?_eq_some h, by simpa using List.find?_some h⟩
  · rintro ⟨ha, rfl⟩
    cases h : t.get? (key a) with
    | none => exact absurd (List.find?_eq_none.1 h a ha) (by simp)
    | some b =>
      have hb : b ∈ t.rows := List.mem_of_find?_eq_some h
      have hk : key b = key a := by simpa using List.find?_some h
      rw [t.eq_of_key_eq hb ha hk]

theorem get?_eq_none_iff (t : Table key) : t.get? k = none ↔ ∀ a ∈ t.rows, key a ≠ k := by
  simp [get?, List.find?_eq_none]

/-- The row with a key, after the rows moved on and kept their keys. -/
theorem Moves.get? {R : α → α → Prop} (h : t.Moves R t') (hR : ∀ {a b}, R a b → key b = key a)
    (ha : t.get? k = some a) : ∃ b, t'.get? k = some b ∧ R a b := by
  obtain ⟨hmem, hk⟩ := (t.get?_eq_some_iff).1 ha
  obtain ⟨b, hb, hr⟩ := exists_of_forall₂ h hmem
  exact ⟨b, (t'.get?_eq_some_iff).2 ⟨hb, (hR hr).trans hk⟩, hr⟩

theorem insert_eq_some (h : t.insert a = some t') :
    key a ∉ t.rows.map key ∧ t'.rows = t.rows ++ [a] := by
  unfold insert at h
  split at h
  · simp at h
  · rename_i hk
    exact ⟨hk, by rw [← Option.some.inj h]⟩

theorem insert_of_fresh (h : key a ∉ t.rows.map key) :
    ∃ t', t.insert a = some t' ∧ t'.rows = t.rows ++ [a] := by
  unfold insert
  rw [dif_neg h]
  exact ⟨_, rfl, rfl⟩

/-- An insertion outside the part leaves the part. -/
theorem restrict_insert (h : t.insert a = some t') (hq : q a = false) :
    t'.restrict q = t.restrict q := by
  refine ext_rows ?_
  rw [rows_restrict, rows_restrict, (insert_eq_some h).2, List.filter_append,
    List.filter_cons_of_neg (by simp [hq]), List.filter_nil, List.append_nil]

/-- A row that goes into the table goes into a part of it. -/
theorem exists_insert_restrict (h : t.insert a = some t') (q : α → Bool) :
    ∃ t'', (t.restrict q).insert a = some t'' := by
  have hfresh : key a ∉ (t.restrict q).rows.map key := fun hmem =>
    (insert_eq_some h).1 ((List.filter_sublist.map key).subset hmem)
  obtain ⟨t'', ht, -⟩ := insert_of_fresh hfresh
  exact ⟨t'', ht⟩

theorem mem_insert (h : t.insert a = some t') : b ∈ t'.rows ↔ b ∈ t.rows ∨ b = a := by
  rw [(insert_eq_some h).2]
  simp

/-- The rows after an `INSERT` that is skipped when the key is taken. -/
theorem mem_insert_getD (h : b ∈ ((t.insert a).getD t).rows) : b ∈ t.rows ∨ b = a := by
  cases hi : t.insert a with
  | none =>
    rw [hi] at h
    exact .inl h
  | some t' =>
    rw [hi] at h
    exact (mem_insert hi).1 h

/-- Such an `INSERT` drops no row. -/
theorem mem_insert_getD_of_mem (h : b ∈ t.rows) : b ∈ ((t.insert a).getD t).rows := by
  cases hi : t.insert a with
  | none => exact h
  | some t' => exact (mem_insert hi).2 (.inl h)

/-- After it, a row with the key is there. -/
theorem exists_insert_getD (t : Table key) (a : α) :
    ∃ b ∈ ((t.insert a).getD t).rows, key b = key a := by
  cases hi : t.insert a with
  | none =>
    unfold insert at hi
    split at hi
    · rename_i hk
      obtain ⟨b, hb, hkb⟩ := List.mem_map.1 hk
      exact ⟨b, hb, hkb⟩
    · cases hi
  | some t' => exact ⟨a, (mem_insert hi).2 (.inr rfl), rfl⟩

/-- The row with key `k` after an update is the old one, rewritten if the statement names it. -/
theorem get?_update (t : Table key) (p : α → Bool) (f : α → α) (hf : ∀ a, key (f a) = key a)
    (k : κ) : (t.update p f hf).get? k = (t.get? k).map fun a => if p a then f a else a := by
  cases h : t.get? k with
  | none =>
    rw [Option.map_none, get?_eq_none_iff]
    intro b hb
    obtain ⟨a, ha, rfl⟩ := (mem_update t p f hf b).1 hb
    have := (t.get?_eq_none_iff).1 h a ha
    split
    · rwa [hf]
    · exact this
  | some a =>
    obtain ⟨ha, hk⟩ := (t.get?_eq_some_iff).1 h
    rw [Option.map_some, get?_eq_some_iff]
    refine ⟨(mem_update t p f hf _).2 ⟨a, ha, rfl⟩, ?_⟩
    split
    · rw [hf, hk]
    · exact hk

theorem get?_insert (h : t.insert a = some t') (k : κ) :
    t'.get? k = if key a = k then some a else t.get? k := by
  obtain ⟨hk, hrows⟩ := insert_eq_some h
  split
  · rename_i hak
    exact (t'.get?_eq_some_iff).2 ⟨(mem_insert h).2 (.inr rfl), hak⟩
  · rename_i hak
    simp [get?, hrows, List.find?_append, hak]

theorem get?_put (t : Table key) (a : α) (k : κ) :
    (t.put a).get? k = if key a = k then some a else t.get? k := by
  unfold put
  cases h : t.insert a with
  | some t' => exact get?_insert h k
  | none =>
    have hmem : key a ∈ t.rows.map key := by
      by_contra hfresh
      obtain ⟨t', ht', -⟩ := insert_of_fresh hfresh
      rw [h] at ht'
      cases ht'
    obtain ⟨b, hb, hkb⟩ := List.mem_map.1 hmem
    rw [Option.getD_none, get?_update]
    split
    · rename_i hk
      rw [(t.get?_eq_some_iff).2 ⟨hb, hkb.trans hk⟩]
      simp [hkb]
    · rename_i hk
      cases hget : t.get? k with
      | none => rfl
      | some c =>
        have hc : key c ≠ key a := fun hca => hk (hca ▸ ((t.get?_eq_some_iff).1 hget).2)
        simp [hc]

theorem mem_put (h : b ∈ (t.put a).rows) : b = a ∨ b ∈ t.rows := by
  have hget := ((t.put a).get?_eq_some_iff).2 ⟨h, rfl⟩
  rw [get?_put] at hget
  split at hget
  · exact .inl (Option.some.inj hget).symm
  · exact .inr ((t.get?_eq_some_iff).1 hget).1

/-! ## Counting -/

/-- Rewriting the one row with key `k` changes a count by that row's old and new value only. -/
theorem countP_modify (q : α → Bool) (f : α → α) (k : κ) :
    ∀ (l : List α), (l.map key).Nodup → ∀ a ∈ l, key a = k →
      (l.map fun b => if key b = k then f b else b).countP q + (if q a then 1 else 0) =
        l.countP q + (if q (f a) then 1 else 0)
  | [], _, _, ha, _ => absurd ha (List.not_mem_nil)
  | b :: l, hn, a, ha, hk => by
    rw [List.map_cons, List.nodup_cons] at hn
    rw [List.map_cons, List.countP_cons, List.countP_cons]
    rcases List.mem_cons.1 ha with rfl | ha
    · -- the row itself: no later row has its key
      have hrest : (l.map fun b => if key b = k then f b else b) = l := by
        conv_rhs => rw [← List.map_id l]
        refine List.map_congr_left fun c hc => ?_
        have : key c ≠ k := fun h => hn.1 (List.mem_map.2 ⟨c, hc, by rw [h, hk]⟩)
        rw [if_neg this, id]
      rw [hrest, if_pos hk]
      omega
    · have hb : key b ≠ k := fun h => hn.1 (List.mem_map.2 ⟨a, ha, by rw [h, hk]⟩)
      have ih := countP_modify q f k l hn.2 a ha hk
      rw [if_neg hb]
      omega

end Table

end FinnAuth.Lib
