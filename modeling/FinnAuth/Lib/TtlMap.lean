import Mathlib.Logic.Function.Basic

/-!
# A key-value map with expiry times

The single-process store: every operation is one critical section, entries may carry an expiry
time and an expired entry counts as absent wherever it is met. `live` is the abstract content: the
values a reader can still see at a given time.

Results:
* `get_fst`, `take_fst`: a reader gets the live value;
* `get_data_ne`, `setNX_data_ne`, …: an operation leaves the other keys alone;
* `seen_get`, `setNX_of_seen`, …: what an operation does, by the entry it meets.
-/

namespace FinnAuth.Lib

variable {now : Nat}

/-- A stored value: a number (a counter) or a text. -/
inductive Val : Type where
  | int (n : Int)
  | str (s : String)
  deriving DecidableEq, Repr

/-- `fmt.Sprint` of a value. -/
def Val.text : Val → String
  | .int n => n.repr
  | .str s => s

/-- A value and the moment it expires; `none` never expires. -/
structure Entry where
  value : Val
  exp : Option Nat
  deriving DecidableEq, Repr

/-- `now.After(e.exp)` for an entry with an expiry. -/
def Entry.expired (e : Entry) (now : Nat) : Bool :=
  match e.exp with
  | none => false
  | some t => t < now

/-- What has expired stays so. -/
theorem Entry.expired_mono {e : Entry} {now t : Nat} (h : e.expired now = true) (ht : now ≤ t) :
    e.expired t = true := by
  unfold Entry.expired at h ⊢
  split at h
  · cases h
  · simp only [decide_eq_true_eq] at h ⊢
    omega

/-- The map. -/
structure TtlMap (κ : Type) where
  data : κ → Option Entry

namespace TtlMap

variable {κ : Type} [DecidableEq κ]

/-- The expiry of a write at `now`: a zero `ttl` means none. -/
def expiry (now ttl : Nat) : Option Nat := if 0 < ttl then some (now + ttl) else none

def empty : TtlMap κ := ⟨fun _ => none⟩

def put (m : TtlMap κ) (k : κ) (e : Option Entry) : TtlMap κ :=
  ⟨Function.update m.data k e⟩

/-- The value at `k` and the map, from which an expired entry is reaped. -/
def get (m : TtlMap κ) (now : Nat) (k : κ) : Option Val × TtlMap κ :=
  match m.data k with
  | none => (none, m)
  | some e => if e.expired now then (none, m.put k none) else (some e.value, m)

/-- Returns and deletes the value in one step. -/
def take (m : TtlMap κ) (now : Nat) (k : κ) : Option Val × TtlMap κ :=
  match m.data k with
  | none => (none, m)
  | some e => (if e.expired now then none else some e.value, m.put k none)

def set (m : TtlMap κ) (now : Nat) (k : κ) (v : Val) (ttl : Nat) : TtlMap κ :=
  m.put k (some ⟨v, expiry now ttl⟩)

/-- Writes only if nothing unexpired is there; says whether it wrote. -/
def setNX (m : TtlMap κ) (now : Nat) (k : κ) (v : Val) (ttl : Nat) : Bool × TtlMap κ :=
  match m.data k with
  | none => (true, m.set now k v ttl)
  | some e => if e.expired now then (true, m.set now k v ttl) else (false, m)

/-- Adds to a counter, with the addition `add`. The expiry is that of the first write of the window.
-/
def incrWith (add : Int → Int → Int) (m : TtlMap κ) (now : Nat) (k : κ) (delta : Int) (ttl : Nat) :
    Int × TtlMap κ :=
  match m.data k with
  | none => (delta, m.set now k (.int delta) ttl)
  | some e =>
    if e.expired now then (delta, m.set now k (.int delta) ttl)
    else
      let current := match e.value with
        | .int n => n
        | .str _ => 0
      (add current delta, m.put k (some ⟨.int (add current delta), e.exp⟩))

/-- Adds to a counter that does not overflow. -/
def incrBy (m : TtlMap κ) (now : Nat) (k : κ) (delta : Int) (ttl : Nat) : Int × TtlMap κ :=
  m.incrWith (· + ·) now k delta ttl

def delete (m : TtlMap κ) (k : κ) : TtlMap κ := m.put k none

/-- Gives the entry a new life; a zero `ttl` takes its expiry away. -/
def renew (m : TtlMap κ) (now : Nat) (k : κ) (ttl : Nat) : Bool × TtlMap κ :=
  match m.data k with
  | none => (false, m)
  | some e => if e.expired now then (false, m) else (true, m.put k (some ⟨e.value, expiry now ttl⟩))

/-- Extends the life of the entry if its value is `owner`; a zero `ttl` leaves it as it is. -/
def renewIfOwner (m : TtlMap κ) (now : Nat) (k : κ) (owner : String) (ttl : Nat) :
    Bool × TtlMap κ :=
  match m.data k with
  | none => (false, m)
  | some e =>
    if e.expired now then (false, m)
    else if e.value.text ≠ owner then (false, m)
    else (true, if 0 < ttl then m.put k (some { e with exp := some (now + ttl) }) else m)

/-- Deletes the entry if its value is `owner`, expired or not. -/
def deleteIfOwner (m : TtlMap κ) (k : κ) (owner : String) : Bool × TtlMap κ :=
  match m.data k with
  | none => (false, m)
  | some e => if e.value.text ≠ owner then (false, m) else (true, m.put k none)

/-- Drops those of the chosen keys that have expired. -/
def sweep (m : TtlMap κ) (now : Nat) (chosen : κ → Bool) : TtlMap κ :=
  ⟨fun k => (m.data k).filter fun e => !(chosen k && e.expired now)⟩

/-! ## The abstract content -/

/-- What a reader sees at `now`. -/
def live (m : TtlMap κ) (now : Nat) (k : κ) : Option Val :=
  match m.data k with
  | none => none
  | some e => if e.expired now then none else some e.value

/-- The entry a reader meets at `now`, with its expiry. -/
def seen (m : TtlMap κ) (now : Nat) (k : κ) : Option Entry :=
  (m.data k).filter fun e => !e.expired now

@[simp] theorem put_data_self (m : TtlMap κ) (k : κ) (e : Option Entry) :
    (m.put k e).data k = e := by
  simp [put]

@[simp] theorem put_data_ne (m : TtlMap κ) {k k' : κ} (e : Option Entry) (h : k' ≠ k) :
    (m.put k e).data k' = m.data k' := by
  simp [put, h]

@[simp] theorem put_data (m : TtlMap κ) (k : κ) : m.put k (m.data k) = m := by
  simp [put]

@[simp] theorem get_fst (m : TtlMap κ) (now : Nat) (k : κ) : (m.get now k).1 = m.live now k := by
  unfold get live
  split
  · rfl
  · split <;> rfl

@[simp] theorem take_fst (m : TtlMap κ) (now : Nat) (k : κ) : (m.take now k).1 = m.live now k := by
  unfold take live
  split <;> rfl

omit [DecidableEq κ] in
/-- What a reader sees is there. -/
theorem data_of_live {m : TtlMap κ} {v : Val} (h : m.live now k = some v) :
    ∃ e, m.data k = some e ∧ e.value = v := by
  unfold live at h
  split at h
  · cases h
  · rename_i e he
    split at h
    · cases h
    · exact ⟨e, he, Option.some.inj h⟩

/-- What was taken is gone. -/
theorem take_data_self (m : TtlMap κ) (now : Nat) (k : κ) : (m.take now k).2.data k = none := by
  unfold take
  split
  · assumption
  · exact put_data_self m k none

/-! ## The other keys -/

variable {m : TtlMap κ} {k k' : κ}

theorem get_data_ne (now : Nat) (h : k' ≠ k) : (m.get now k).2.data k' = m.data k' := by
  unfold get
  split
  · rfl
  · split
    · exact put_data_ne m none h
    · rfl

theorem take_data_ne (now : Nat) (h : k' ≠ k) : (m.take now k).2.data k' = m.data k' := by
  unfold take
  split
  · rfl
  · exact put_data_ne m none h

theorem set_data_ne (now : Nat) (v : Val) (ttl : Nat) (h : k' ≠ k) :
    (m.set now k v ttl).data k' = m.data k' :=
  put_data_ne m _ h

theorem setNX_data_ne (now : Nat) (v : Val) (ttl : Nat) (h : k' ≠ k) :
    (m.setNX now k v ttl).2.data k' = m.data k' := by
  unfold setNX
  split
  · exact set_data_ne now v ttl h
  · split
    · exact set_data_ne now v ttl h
    · rfl

theorem incrBy_data_ne (now : Nat) (delta : Int) (ttl : Nat) (h : k' ≠ k) :
    (m.incrBy now k delta ttl).2.data k' = m.data k' := by
  unfold incrBy incrWith
  split
  · exact set_data_ne now _ ttl h
  · split
    · exact set_data_ne now _ ttl h
    · exact put_data_ne m _ h

theorem delete_data_ne (h : k' ≠ k) : (m.delete k).data k' = m.data k' :=
  put_data_ne m none h

/-! ## The operations by what they meet -/

omit [DecidableEq κ] in
theorem seen_eq_some {m : TtlMap κ} {e : Entry} :
    m.seen now k = some e ↔ m.data k = some e ∧ e.expired now = false := by
  simp [seen, Option.filter_eq_some_iff]

section Seen

variable {now t ttl : Nat} {e : Entry} {v : Val} {delta : Int} {owner : String}

@[simp] theorem seen_put_self (m : TtlMap κ) (k : κ) (o : Option Entry) :
    (m.put k o).seen now k = o.filter fun e => !e.expired now := by
  simp [seen]

@[simp] theorem seen_put_ne (o : Option Entry) (h : k' ≠ k) :
    (m.put k o).seen now k' = m.seen now k' := by
  simp [seen, h]

omit [DecidableEq κ] in
/-- Later, the entries that are left. -/
theorem seen_later (ht : now ≤ t) :
    m.seen t k = (m.seen now k).filter fun e => !e.expired t := by
  unfold seen
  cases hd : m.data k with
  | none => rfl
  | some e =>
    by_cases hexp : e.expired now = true
    · simp [Option.filter, hexp, e.expired_mono hexp ht]
    · simp [Option.filter, hexp]

theorem get_of_seen (m : TtlMap κ) (now : Nat) (k : κ) :
    (m.get now k).1 = (m.seen now k).map Entry.value := by
  unfold get seen
  cases m.data k with
  | none => rfl
  | some e => by_cases hexp : e.expired now = true <;> simp [Option.filter, hexp]

theorem seen_get (k' : κ) : (m.get now k).2.seen now k' = m.seen now k' := by
  by_cases hk : k' = k
  · subst hk
    unfold get
    split
    · rfl
    · rename_i e he
      split
      · rename_i hexp
        simp [seen, he, Option.filter, hexp]
      · rfl
  · simp only [seen, get_data_ne now hk]

theorem take_of_seen (m : TtlMap κ) (now : Nat) (k : κ) :
    (m.take now k).1 = (m.seen now k).map Entry.value := by
  unfold take seen
  cases m.data k with
  | none => rfl
  | some e => by_cases hexp : e.expired now = true <;> simp [Option.filter, hexp]

theorem seen_take (k' : κ) : (m.take now k).2.seen now k' = (m.put k none).seen now k' := by
  by_cases hk : k' = k
  · subst hk
    simp [seen, take_data_self]
  · simp only [seen, take_data_ne now hk, put_data_ne m none hk]

theorem setNX_of_seen (m : TtlMap κ) (now : Nat) (k : κ) (v : Val) (ttl : Nat) :
    m.setNX now k v ttl = match m.seen now k with
      | none => (true, m.set now k v ttl)
      | some _ => (false, m) := by
  unfold setNX seen
  cases m.data k with
  | none => rfl
  | some e => by_cases hexp : e.expired now = true <;> simp [Option.filter, hexp]

theorem incrWith_of_seen (add : Int → Int → Int) (m : TtlMap κ) (now : Nat) (k : κ) (delta : Int)
    (ttl : Nat) : m.incrWith add now k delta ttl = match m.seen now k with
      | none => (delta, m.set now k (.int delta) ttl)
      | some ⟨.int n, x⟩ => (add n delta, m.put k (some ⟨.int (add n delta), x⟩))
      | some ⟨.str _, x⟩ => (add 0 delta, m.put k (some ⟨.int (add 0 delta), x⟩)) := by
  unfold incrWith seen
  cases m.data k with
  | none => rfl
  | some e =>
    obtain ⟨v, x⟩ := e
    by_cases hexp : (⟨v, x⟩ : Entry).expired now = true <;> cases v <;> simp [Option.filter, hexp]

theorem renewIfOwner_of_seen (m : TtlMap κ) (now : Nat) (k : κ) (owner : String) (ttl : Nat) :
    m.renewIfOwner now k owner ttl = match m.seen now k with
      | none => (false, m)
      | some e => if e.value.text ≠ owner then (false, m)
        else (true, if 0 < ttl then m.put k (some { e with exp := some (now + ttl) }) else m) := by
  unfold renewIfOwner seen
  cases m.data k with
  | none => rfl
  | some e => by_cases hexp : e.expired now = true <;> simp [Option.filter, hexp]

omit [DecidableEq κ] in
/-- A sweep drops nothing that a reader could meet. -/
theorem seen_sweep (chosen : κ → Bool) (k : κ) :
    (m.sweep now chosen).seen now k = m.seen now k := by
  unfold seen sweep
  cases hd : m.data k with
  | none => simp [hd]
  | some e =>
    by_cases hexp : e.expired now = true
    · cases hk : chosen k <;> simp [hd, Option.filter, hexp, hk]
    · simp [hd, Option.filter, hexp]

end Seen

end TtlMap

end FinnAuth.Lib
