import FinnAuth.Store.Redis

/-!
# The two stores are interchangeable

`InMemoryStore` keeps an expired entry until somebody meets it or a sweep comes along, and a counter
keeps the expiry of its first increment because the code copies it. `RedisStore` has no expired
keys, and its script sets the expiry of a counter when the sum equals the increment. With positive
increments that happens for the first one of a window and for no other, as long as the sums are
exact Lua numbers.

Results:
* `Rel`, `rel_call`, `rel_sweep`: at any time the two stores show the same texts with the same
  expiries;
* **`stores_interchangeable`**: any admissible sequence of calls returns the same results, whatever
  sweeps run in between;
* **`stores_differ`**: beyond 2⁵³ the script rounds, so the two return different sums, and it sets
  the expiry again.
-/

namespace FinnAuth.Store

open Lib

variable {κ : Type} [DecidableEq κ]

/-! ## Sequences of calls -/

/-- A call at a time, or a sweep of the in-memory store that picks some of the keys. -/
inductive Step (κ : Type) : Type where
  | call (now : Nat) (op : Op κ)
  | sweep (now : Nat) (chosen : κ → Bool)

/-- The results of `InMemoryStore`. -/
def memoryRun : TtlMap κ → List (Step κ) → List Res
  | _, [] => []
  | m, .sweep now chosen :: ss => memoryRun (m.sweep now chosen) ss
  | m, .call now op :: ss =>
    (InMemoryStore.call m now op).1 :: memoryRun (InMemoryStore.call m now op).2 ss

/-- The results of `RedisStore`, which nobody sweeps. -/
def redisRun : Redis κ → List (Step κ) → List Res
  | _, [] => []
  | r, .sweep _ _ :: ss => redisRun r ss
  | r, .call now op :: ss =>
    (RedisStore.call r now op).1 :: redisRun (RedisStore.call r now op).2 ss

/-- The call uses the key as `counter` says, and adds positive amounts only. -/
def Op.fits (counter : κ → Bool) : Op κ → Bool
  | .get _ => true
  | .take _ => true
  | .set k _ _ => !counter k
  | .setNX k _ _ => !counter k
  | .incrBy k delta _ => counter k && 0 < delta
  | .delete _ => true
  | .renewIfOwner k _ _ => !counter k

/-- The counter an increment finds. -/
def counterAt (m : TtlMap κ) (now : Nat) (k : κ) : Int :=
  match m.live now k with
  | some (.int n) => n
  | _ => 0

/-- What the call finds under its key and what it adds are together no sum beyond 2⁵³. -/
def Op.exact (m : TtlMap κ) (now : Nat) : Op κ → Bool
  | .incrBy k delta _ => counterAt m now k + delta ≤ 2 ^ 53
  | _ => true

/-- Times do not decrease, keys are used as `counter` says, and no counter is to grow beyond 2⁵³. -/
def Admissible (counter : κ → Bool) : Nat → TtlMap κ → List (Step κ) → Prop
  | _, _, [] => True
  | last, m, .sweep now chosen :: ss => last ≤ now ∧ Admissible counter now (m.sweep now chosen) ss
  | last, m, .call now op :: ss => last ≤ now ∧ op.fits counter = true ∧
      op.exact m now = true ∧
        Admissible counter now (InMemoryStore.call m now op).2 ss

instance (counter : κ → Bool) : (last : Nat) → (m : TtlMap κ) → (ss : List (Step κ)) →
    Decidable (Admissible counter last m ss)
  | _, _, [] => .isTrue trivial
  | _, m, .sweep now chosen :: ss =>
    have : Decidable (Admissible counter now (m.sweep now chosen) ss) :=
      instDecidableAdmissible counter now (m.sweep now chosen) ss
    inferInstanceAs (Decidable (_ ∧ _))
  | _, m, .call now op :: ss =>
    have : Decidable (Admissible counter now (InMemoryStore.call m now op).2 ss) :=
      instDecidableAdmissible counter now (InMemoryStore.call m now op).2 ss
    inferInstanceAs (Decidable (_ ∧ _ ∧ _ ∧ _))

/-! ## The relation -/

/-- An entry as Redis has it. -/
def item (e : Entry) : Item := ⟨e.value.text, e.exp⟩

/-- A counter holds a positive number that a double can hold, another key a text. -/
def Typed (isCounter : Bool) : Val → Prop
  | .int n => isCounter = true ∧ 0 < n ∧ n ≤ 2 ^ 53
  | .str _ => isCounter = false

/-- At the time `now` both stores show the same. -/
structure Rel (counter : κ → Bool) (now : Nat) (m : TtlMap κ) (r : Redis κ) : Prop where
  same : ∀ k, r.lookup now k = (m.seen now k).map item
  typed : ∀ k, ∀ e ∈ m.seen now k, Typed (counter k) e.value

variable {counter : κ → Bool} {now t ttl : Nat} {m m' : TtlMap κ} {r : Redis κ} {k : κ}

theorem item_gone (e : Entry) : (item e).gone now = e.expired now := rfl

theorem filter_item (o : Option Entry) :
    (o.map item).filter (fun i => !i.gone now) = (o.filter fun e => !e.expired now).map item := by
  cases o with
  | none => rfl
  | some e => by_cases h : e.expired now = true <;> simp [Option.filter, item_gone, h]

omit [DecidableEq κ] in
theorem lookup_later (ht : now ≤ t) :
    r.lookup t k = (r.lookup now k).filter fun i => !i.gone t := by
  unfold Redis.lookup
  cases r.data k with
  | none => rfl
  | some i =>
    have hmono : i.gone now = true → i.gone t = true := by
      unfold Item.gone
      split
      · exact id
      · simp only [decide_eq_true_eq]
        omega
    by_cases h : i.gone now = true
    · simp [Option.filter, h, hmono h]
    · simp [Option.filter, h]

theorem lookup_put_self (r : Redis κ) (k : κ) (o : Option Item) :
    (r.put k o).lookup now k = o.filter fun i => !i.gone now := by
  simp [Redis.put, Redis.lookup]

theorem lookup_put_ne {k' : κ} (o : Option Item) (h : k' ≠ k) :
    (r.put k o).lookup now k' = r.lookup now k' := by
  simp [Redis.put, Redis.lookup, h]

omit [DecidableEq κ] in
theorem rel_empty (counter : κ → Bool) : Rel counter 0 .empty .empty where
  same _ := rfl
  typed _ e h := by cases h

omit [DecidableEq κ] in
/-- Time passes. -/
theorem Rel.later (h : Rel counter now m r) (ht : now ≤ t) : Rel counter t m r where
  same k := by rw [lookup_later ht, h.same, TtlMap.seen_later ht, filter_item]
  typed k e he := by
    rw [TtlMap.seen_later ht] at he
    exact h.typed k e (Option.mem_filter_iff.1 he).1

omit [DecidableEq κ] in
/-- A change that no reader of the in-memory store notices. -/
theorem Rel.of_seen (h : Rel counter now m r) (hm : ∀ k, m'.seen now k = m.seen now k) :
    Rel counter now m' r where
  same k := by rw [hm, h.same]
  typed k e he := h.typed k e (hm k ▸ he)

/-- Both stores write the same at `k`. -/
theorem Rel.put (h : Rel counter now m r) (k : κ) {o : Option Entry}
    (ho : ∀ e ∈ o, Typed (counter k) e.value) :
    Rel counter now (m.put k o) (r.put k (o.map item)) where
  same k' := by
    by_cases hk : k' = k
    · subst hk
      rw [lookup_put_self, TtlMap.seen_put_self, filter_item]
    · rw [lookup_put_ne _ hk, TtlMap.seen_put_ne _ hk, h.same]
  typed k' e he := by
    by_cases hk : k' = k
    · subst hk
      rw [TtlMap.seen_put_self] at he
      exact ho e (Option.mem_filter_iff.1 he).1
    · rw [TtlMap.seen_put_ne _ hk] at he
      exact h.typed k' e he

/-! ## One call -/

/-- Both stores took the call alike. -/
def Agrees (counter : κ → Bool) (now : Nat) (a : Res × TtlMap κ) (b : Res × Redis κ) : Prop :=
  a.1.render = b.1 ∧ Rel counter now a.2 b.2

omit [DecidableEq κ] in
theorem redis_get (h : Rel counter now m r) (k : κ) :
    r.get now k = (m.seen now k).map fun e => e.value.text := by
  unfold Redis.get
  rw [h.same, Option.map_map]
  rfl

theorem agrees_get (h : Rel counter now m r) (k : κ) :
    Agrees counter now (InMemoryStore.call m now (.get k)) (RedisStore.call r now (.get k)) := by
  refine ⟨?_, h.of_seen fun k' => TtlMap.seen_get k'⟩
  simp only [InMemoryStore.call, RedisStore.call, Res.render]
  rw [TtlMap.get_of_seen, redis_get h, Option.map_map, Option.map_map]
  rfl

theorem agrees_take (h : Rel counter now m r) (k : κ) :
    Agrees counter now (InMemoryStore.call m now (.take k)) (RedisStore.call r now (.take k)) := by
  have hget := redis_get h k
  refine ⟨?_, ?_⟩
  · simp only [InMemoryStore.call, RedisStore.call, Res.render]
    rw [TtlMap.take_of_seen]
    unfold getDelScript
    rw [hget]
    cases m.seen now k <;> rfl
  · have hput : Rel counter now (m.put k none) (r.put k none) :=
      h.put k fun _ he => by cases he
    have hmem : Rel counter now (InMemoryStore.call m now (.take k)).2 (r.put k none) :=
      hput.of_seen fun k' => TtlMap.seen_take k'
    simp only [RedisStore.call]
    unfold getDelScript
    cases hseen : m.seen now k with
    | none =>
      -- nothing to delete: what the in-memory store drops had expired
      rw [hget, hseen]
      refine h.of_seen fun k' => (TtlMap.seen_take k').trans ?_
      by_cases hk : k' = k
      · subst hk
        simp [hseen]
      · exact TtlMap.seen_put_ne none hk
    | some e =>
      rw [hget, hseen]
      exact hmem

theorem agrees_set (h : Rel counter now m r) (v : String) (ttl : Nat) (hk : counter k = false) :
    Agrees counter now (InMemoryStore.call m now (.set k v ttl))
      (RedisStore.call r now (.set k v ttl)) := by
  refine ⟨rfl, ?_⟩
  refine h.put k (o := some ⟨.str v, TtlMap.expiry now ttl⟩) fun e he => ?_
  obtain rfl := Option.some.inj he
  exact hk

theorem agrees_setNX (h : Rel counter now m r) (v : String) (ttl : Nat) (hk : counter k = false) :
    Agrees counter now (InMemoryStore.call m now (.setNX k v ttl))
      (RedisStore.call r now (.setNX k v ttl)) := by
  simp only [InMemoryStore.call, RedisStore.call, Redis.setNX]
  rw [TtlMap.setNX_of_seen, h.same]
  cases m.seen now k with
  | none => exact ⟨rfl, (agrees_set h v ttl hk).2⟩
  | some e => exact ⟨rfl, h⟩

theorem agrees_delete (h : Rel counter now m r) (k : κ) :
    Agrees counter now (InMemoryStore.call m now (.delete k))
      (RedisStore.call r now (.delete k)) :=
  ⟨rfl, h.put k (o := none) fun _ he => by cases he⟩

theorem agrees_renewIfOwner (h : Rel counter now m r) (owner : String) (ttl : Nat) :
    Agrees counter now (InMemoryStore.call m now (.renewIfOwner k owner ttl))
      (RedisStore.call r now (.renewIfOwner k owner ttl)) := by
  have hscript : renewIfOwnerScript r now k owner ttl = (m.seen now k).elim (0, r) fun e =>
      if e.value.text ≠ owner then (0, r)
        else (1, if 0 < ttl then r.put k (some ⟨e.value.text, some (now + ttl)⟩) else r) := by
    unfold renewIfOwnerScript Redis.pexpire
    rw [redis_get h, h.same]
    cases m.seen now k with
    | none => rfl
    | some e =>
      by_cases howner : e.value.text = owner
      · by_cases httl : 0 < ttl <;> simp [howner, httl, item]
      · simp [howner]
  simp only [InMemoryStore.call, RedisStore.call]
  rw [TtlMap.renewIfOwner_of_seen, hscript]
  cases hseen : m.seen now k with
  | none => exact ⟨rfl, h⟩
  | some e =>
    rw [Option.elim_some]
    by_cases howner : e.value.text = owner
    · by_cases httl : 0 < ttl
      · simp only [howner, ne_eq, not_true_eq_false, ↓reduceIte, httl]
        refine ⟨rfl, ?_⟩
        have hrel := h.put k (o := some { e with exp := some (now + ttl) }) fun e' he' => by
          obtain rfl := Option.some.inj he'
          exact h.typed k e hseen
        simpa [item, howner] using hrel
      · simp only [howner, ne_eq, not_true_eq_false, ↓reduceIte, httl]
        exact ⟨rfl, h⟩
    · simp only [howner, ne_eq, not_false_eq_true, ↓reduceIte]
      exact ⟨rfl, h⟩

/-- **The counter script**: the sum equals the increment for the first one of a window only. -/
theorem agrees_incrBy (h : Rel counter now m r) {delta : Int} (ttl : Nat) (hk : counter k = true)
    (hpos : 0 < delta) (hsmall : counterAt m now k + delta ≤ 2 ^ 53) :
    Agrees counter now (InMemoryStore.call m now (.incrBy k delta ttl))
      (RedisStore.call r now (.incrBy k delta ttl)) := by
  simp only [InMemoryStore.call, InMemoryStore.incrBy, RedisStore.call, incrWithExpireScript,
    Redis.incrBy]
  rw [counterAt, ← TtlMap.get_fst, TtlMap.get_of_seen] at hsmall
  rw [TtlMap.incrWith_of_seen, h.same]
  cases hseen : m.seen now k with
  | none =>
    have hsmall : 0 + delta ≤ 2 ^ 53 := by simpa [hseen] using hsmall
    have hlua : luaNumber delta = delta := luaNumber_small (by omega)
    have htyped : ∀ e ∈ some (⟨.int delta, TtlMap.expiry now ttl⟩ : Entry),
        Typed (counter k) e.value := by
      intro e he
      obtain rfl := Option.some.inj he
      exact ⟨hk, hpos, by omega⟩
    have hrel := h.put k htyped
    refine ⟨by simp [hlua, Res.render], ?_⟩
    -- `PEXPIRE` follows unless there is no expiry to set
    by_cases httl : 0 < ttl
    · have hagain : ∀ i : Item, (r.put k (some ⟨delta.repr, none⟩)).put k (some i) =
          r.put k (some i) := by
        intro i
        simp [Redis.put]
      simp only [Option.map_none, httl, true_and, ↓reduceIte, Redis.pexpire, lookup_put_self,
        Option.filter_some, Item.gone, Bool.not_false]
      rw [hagain]
      simpa [TtlMap.set, TtlMap.expiry, httl, item, Val.text] using hrel
    · simpa [TtlMap.set, TtlMap.expiry, httl, item, Val.text] using hrel
  | some e =>
    have htyped := h.typed k e hseen
    obtain ⟨v, x⟩ := e
    cases v with
    | str s =>
      rw [hk] at htyped
      cases htyped
    | int n =>
      obtain ⟨-, hn, hle⟩ := htyped
      have hsmall : n + delta ≤ 2 ^ 53 := by simpa [hseen] using hsmall
      have hsum : addInt64 n delta = n + delta := addInt64_small (by omega) (by omega)
      have hparse : parseInt64 n.repr = some n := by
        obtain ⟨j, rfl⟩ := Int.eq_ofNat_of_zero_le (Int.le_of_lt hn)
        exact parseInt64_repr (by omega)
      have hlua : luaNumber (n + delta) = n + delta := luaNumber_small (by omega)
      have hluad : luaNumber delta = delta := luaNumber_small (by omega)
      have hne : ¬ n + delta = delta := by omega
      have hrange : -(2 ^ 63) ≤ n + delta ∧ n + delta < 2 ^ 63 := by omega
      have hnew : ∀ e ∈ some (⟨.int (n + delta), x⟩ : Entry), Typed (counter k) e.value := by
        intro e he
        obtain rfl := Option.some.inj he
        exact ⟨hk, by omega, hsmall⟩
      simp only [hsum, Option.map_some, item, Val.text, hparse, hrange, and_self, ↓reduceIte,
        hlua, hluad, hne, and_false]
      exact ⟨rfl, h.put k hnew⟩

/-- **One call**, on stores that show the same. -/
theorem rel_call (h : Rel counter now m r) {op : Op κ} (hfits : op.fits counter = true)
    (hsmall : op.exact m now = true) :
    Agrees counter now (InMemoryStore.call m now op) (RedisStore.call r now op) := by
  cases op with
  | get k => exact agrees_get h k
  | take k => exact agrees_take h k
  | set k v ttl => exact agrees_set h v ttl (by simpa [Op.fits] using hfits)
  | setNX k v ttl => exact agrees_setNX h v ttl (by simpa [Op.fits] using hfits)
  | incrBy k delta ttl =>
    obtain ⟨hk, hpos⟩ : counter k = true ∧ 0 < delta := by simpa [Op.fits] using hfits
    exact agrees_incrBy h ttl hk hpos (by simpa [Op.exact] using hsmall)
  | delete k => exact agrees_delete h k
  | renewIfOwner k owner ttl => exact agrees_renewIfOwner h owner ttl

omit [DecidableEq κ] in
/-- A sweep. -/
theorem rel_sweep (h : Rel counter now m r) (chosen : κ → Bool) :
    Rel counter now (m.sweep now chosen) r :=
  h.of_seen fun k => TtlMap.seen_sweep chosen k

/-! ## Whole sequences -/

theorem run_agrees (ss : List (Step κ)) :
    ∀ {last : Nat} {m : TtlMap κ} {r : Redis κ}, Rel counter last m r →
      Admissible counter last m ss → (memoryRun m ss).map Res.render = redisRun r ss := by
  induction ss with
  | nil => exact fun _ _ => rfl
  | cons s ss ih =>
    intro last m r h hadm
    cases s with
    | sweep now chosen => exact ih (rel_sweep (h.later hadm.1) chosen) hadm.2
    | call =>
      obtain ⟨ht, hfits, hsmall, hrest⟩ := hadm
      obtain ⟨hres, hrel⟩ := rel_call (h.later ht) hfits hsmall
      simp only [memoryRun, redisRun, List.map_cons]
      rw [hres, ih hrel hrest]

/-- **The two stores return the same results**, up to the rendering of counters, for any admissible
calls from the start with any sweeps of the in-memory store in between. -/
theorem stores_interchangeable (counter : κ → Bool) (ss : List (Step κ))
    (h : Admissible counter 0 .empty ss) :
    (memoryRun .empty ss).map Res.render = redisRun .empty ss :=
  run_agrees ss (rel_empty counter) h

/-- A counter window that runs out between two sweeps, and a lock that is renewed. -/
def windowAndLock : List (Step String) :=
  [.call 0 (.incrBy "ip" 1 1000), .call 400 (.incrBy "ip" 2 1000), .sweep 900 fun _ => true,
    .call 1000 (.get "ip"), .call 1001 (.incrBy "ip" 1 1000), .call 1001 (.setNX "lock" "a" 50),
    .call 1050 (.renewIfOwner "lock" "a" 50), .call 1052 (.setNX "lock" "b" 50),
    .sweep 1200 fun k => k = "lock", .call 1200 (.take "lock")]

theorem stores_interchangeable_windowAndLock :
    redisRun .empty windowAndLock =
      [.count 1, .count 3, .found (some (.str "3")), .count 1, .yes true, .yes true, .yes false,
        .found none] ∧
    (memoryRun .empty windowAndLock).map Res.render = redisRun .empty windowAndLock :=
  ⟨by decide +kernel, stores_interchangeable (fun k => k = "ip") windowAndLock (by decide +kernel)⟩

/-- A counter that grows past 2⁵³, well within 64 bits. -/
def pastDoubles : List (Step String) :=
  [.call 0 (.incrBy "n" 1 1000), .call 600 (.incrBy "n" (2 ^ 60) 1000), .call 1500 (.get "n")]

/-- **A sum that a double cannot hold**: the script returns it rounded. The old value disappears in
the rounding, so the increment counts as the first of a window, and the key outlives the window it
was opened for. -/
theorem stores_differ :
    (pastDoubles.all fun s => match s with
      | .call _ op => op.fits fun _ => true
      | .sweep _ _ => false) = true ∧
    (memoryRun .empty pastDoubles).map Res.render =
      [.count 1, .count 1152921504606846977, .found none] ∧
    redisRun .empty pastDoubles =
      [.count 1, .count 1152921504606846976, .found (some (.str "1152921504606846977"))] := by
  decide +kernel

end FinnAuth.Store
