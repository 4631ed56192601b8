import Mathlib.Data.List.Dedup
import FinnAuth.Store.Redis

/-!
# Expired entries are unobservable

All nine operations of `InMemoryStore` and its `sweep`, which drops expired entries in batches. An
operation looks at the entry under its key only, and eight of them treat an expired entry as absent.
`DeleteIfOwner` does not look at the expiry: it reports that it released a lock that had run out,
unless a sweep was faster.

The values of the store are of type `any`. A value other than an `int64` is known by the text
`fmt.Sprint` makes of it.

Results:
* `perform_eq`: an operation is a function of the entry under its key;
* `Swept`, `swept_perform`, `swept_sweep`: the maps with and without sweeps differ by expired
  entries;
* **`sweeps_unobservable_iff`**: sweeps change no result of a sequence of calls if and only if none
  of the calls releases an expired lock.
-/

namespace FinnAuth.Store

open Lib

variable {κ : Type} [DecidableEq κ]

/-! ## The operations -/

variable {m : TtlMap κ}

/-- A call of `InMemoryStore`. -/
inductive MemoryOp (κ : Type) : Type where
  | get (key : κ)
  | take (key : κ)
  | set (key : κ) (value : Val) (ttl : Nat)
  | setNX (key : κ) (value : Val) (ttl : Nat)
  | incrBy (key : κ) (delta : Int) (ttl : Nat)
  | delete (key : κ)
  | renew (key : κ) (ttl : Nat)
  | renewIfOwner (key : κ) (owner : String) (ttl : Nat)
  | deleteIfOwner (key : κ) (owner : String)

variable {op : MemoryOp κ}

/-- The key of the call. -/
def MemoryOp.key : MemoryOp κ → κ
  | .get k => k
  | .take k => k
  | .set k _ _ => k
  | .setNX k _ _ => k
  | .incrBy k _ _ => k
  | .delete k => k
  | .renew k _ => k
  | .renewIfOwner k _ _ => k
  | .deleteIfOwner k _ => k

/-- The call at the time `now`. -/
def InMemoryStore.perform (m : TtlMap κ) (now : Nat) : MemoryOp κ → Res × TtlMap κ
  | .get k => (.found (m.get now k).1, (m.get now k).2)
  | .take k => (.found (m.take now k).1, (m.take now k).2)
  | .set k v ttl => (.done, m.set now k v ttl)
  | .setNX k v ttl => (.yes (m.setNX now k v ttl).1, (m.setNX now k v ttl).2)
  | .incrBy k delta ttl =>
    (.count (InMemoryStore.incrBy m now k delta ttl).1, (InMemoryStore.incrBy m now k delta ttl).2)
  | .delete k => (.done, m.delete k)
  | .renew k ttl => (.yes (m.renew now k ttl).1, (m.renew now k ttl).2)
  | .renewIfOwner k owner ttl =>
    (.yes (m.renewIfOwner now k owner ttl).1, (m.renewIfOwner now k owner ttl).2)
  | .deleteIfOwner k owner => (.yes (m.deleteIfOwner k owner).1, (m.deleteIfOwner k owner).2)

/-- `batchSize` of `sweep`. -/
def batchSize : Nat := 1000

/-- The keys a sweep collects; `order` is how the loop meets the keys of the map. -/
def InMemoryStore.toDelete (m : TtlMap κ) (now : Nat) (order : List κ) : List κ :=
  (order.filter fun k => (m.data k).any (·.expired now)).take batchSize

/-- `InMemoryStore.sweep`. -/
def InMemoryStore.sweep (m : TtlMap κ) (now : Nat) (order : List κ) : TtlMap κ :=
  (InMemoryStore.toDelete m now order).foldl TtlMap.delete m

/-! ## One key -/

/-- What the call returns, and what it leaves under its key, by what it finds there. -/
def MemoryOp.act (now : Nat) : MemoryOp κ → Option Entry → Res × Option Entry
  | .get _, none => (.found none, none)
  | .get _, some e => if e.expired now then (.found none, none) else (.found (some e.value), some e)
  | .take _, none => (.found none, none)
  | .take _, some e => (.found (if e.expired now then none else some e.value), none)
  | .set _ v ttl, _ => (.done, some ⟨v, TtlMap.expiry now ttl⟩)
  | .setNX _ v ttl, none => (.yes true, some ⟨v, TtlMap.expiry now ttl⟩)
  | .setNX _ v ttl, some e =>
    if e.expired now then (.yes true, some ⟨v, TtlMap.expiry now ttl⟩) else (.yes false, some e)
  | .incrBy _ delta ttl, none => (.count delta, some ⟨.int delta, TtlMap.expiry now ttl⟩)
  | .incrBy _ delta ttl, some e =>
    if e.expired now then (.count delta, some ⟨.int delta, TtlMap.expiry now ttl⟩)
    else
      let current := match e.value with
        | .int n => n
        | .str _ => 0
      (.count (addInt64 current delta), some ⟨.int (addInt64 current delta), e.exp⟩)
  | .delete _, _ => (.done, none)
  | .renew _ _, none => (.yes false, none)
  | .renew _ ttl, some e =>
    if e.expired now then (.yes false, some e)
    else (.yes true, some ⟨e.value, TtlMap.expiry now ttl⟩)
  | .renewIfOwner _ _ _, none => (.yes false, none)
  | .renewIfOwner _ owner ttl, some e =>
    if e.expired now then (.yes false, some e)
    else if e.value.text ≠ owner then (.yes false, some e)
    else (.yes true, some (if 0 < ttl then { e with exp := some (now + ttl) } else e))
  | .deleteIfOwner _ _, none => (.yes false, none)
  | .deleteIfOwner _ owner, some e =>
    if e.value.text ≠ owner then (.yes false, some e) else (.yes true, none)

/-- **An operation is a function of the entry under its key.** -/
theorem perform_eq (m : TtlMap κ) (now : Nat) (op : MemoryOp κ) :
    InMemoryStore.perform m now op =
      ((op.act now (m.data op.key)).1, m.put op.key (op.act now (m.data op.key)).2) := by
  have hsame : ∀ {k : κ} {o : Option Entry}, m.data k = o → m.put k o = m := by
    rintro k _ rfl
    exact TtlMap.put_data m k
  cases op with
  | get k =>
    simp only [InMemoryStore.perform, TtlMap.get, MemoryOp.key]
    cases h : m.data k with
    | none => simp [MemoryOp.act, hsame h]
    | some e => by_cases hexp : e.expired now = true <;> simp [MemoryOp.act, hexp, hsame h]
  | take k =>
    simp only [InMemoryStore.perform, TtlMap.take, MemoryOp.key]
    cases h : m.data k with
    | none => simp [MemoryOp.act, hsame h]
    | some e => simp [MemoryOp.act]
  | set => rfl
  | setNX k =>
    simp only [InMemoryStore.perform, TtlMap.setNX, TtlMap.set, MemoryOp.key]
    cases h : m.data k with
    | none => simp [MemoryOp.act]
    | some e => by_cases hexp : e.expired now = true <;> simp [MemoryOp.act, hexp, hsame h]
  | incrBy k =>
    simp only [InMemoryStore.perform, InMemoryStore.incrBy, TtlMap.incrWith, TtlMap.set,
      MemoryOp.key]
    cases h : m.data k with
    | none => simp [MemoryOp.act]
    | some e =>
      obtain ⟨v, x⟩ := e
      by_cases hexp : (⟨v, x⟩ : Entry).expired now = true <;> cases v <;> simp [MemoryOp.act, hexp]
  | delete k => rfl
  | renew k ttl =>
    simp only [InMemoryStore.perform, TtlMap.renew, MemoryOp.key]
    cases h : m.data k with
    | none => simp [MemoryOp.act, hsame h]
    | some e => by_cases hexp : e.expired now = true <;> simp [MemoryOp.act, hexp, hsame h]
  | renewIfOwner k owner ttl =>
    simp only [InMemoryStore.perform, TtlMap.renewIfOwner, MemoryOp.key]
    cases h : m.data k with
    | none => simp [MemoryOp.act, hsame h]
    | some e =>
      by_cases hexp : e.expired now = true
      · simp [MemoryOp.act, hexp, hsame h]
      · by_cases howner : e.value.text = owner
        · by_cases httl : 0 < ttl <;> simp [MemoryOp.act, hexp, howner, httl, hsame h]
        · simp [MemoryOp.act, hexp, howner, hsame h]
  | deleteIfOwner k owner =>
    simp only [InMemoryStore.perform, TtlMap.deleteIfOwner, MemoryOp.key]
    cases h : m.data k with
    | none => simp [MemoryOp.act, hsame h]
    | some e => by_cases howner : e.value.text = owner <;> simp [MemoryOp.act, howner, hsame h]

/-- The call releases an expired lock: it deletes for its owner an entry that has run out. -/
def MemoryOp.late (now : Nat) (m : TtlMap κ) : MemoryOp κ → Bool
  | .deleteIfOwner k owner => (m.data k).any fun e => e.expired now && e.value.text = owner
  | _ => false

omit [DecidableEq κ] in
/-- An expired entry is as good as none, unless it is a lock that is released: the result is the
same, and the entry that is left, if it is not the same, is the expired one. -/
theorem act_expired {now : Nat} {e : Entry} (hd : m.data op.key = some e)
    (hexp : e.expired now = true) (hlate : op.late now m = false) :
    (op.act now (some e)).1 = (op.act now none).1 ∧
      ((op.act now (some e)).2 = (op.act now none).2 ∨
        (op.act now (some e)).2 = some e ∧ (op.act now none).2 = none) := by
  cases op with
  | deleteIfOwner k owner =>
    have hne : e.value.text ≠ owner := by
      intro heq
      simp only [MemoryOp.key] at hd
      simp [MemoryOp.late, hd, hexp, heq] at hlate
    simp [MemoryOp.act, hne]
  | renewIfOwner => simp [MemoryOp.act, hexp]
  | renew => simp [MemoryOp.act, hexp]
  | _ => simp [MemoryOp.act, hexp]

/-! ## With and without sweeps -/

/-- `m'` is `m` without some entries that have expired by `now`. -/
def Swept (now : Nat) (m m' : TtlMap κ) : Prop :=
  ∀ k, m'.data k = m.data k ∨ m'.data k = none ∧ ∃ e, m.data k = some e ∧ e.expired now = true

section Swept

variable {now t : Nat} {m m' : TtlMap κ}

omit [DecidableEq κ] in
theorem Swept.refl (now : Nat) (m : TtlMap κ) : Swept now m m := fun _ => .inl rfl

omit [DecidableEq κ] in
theorem Swept.later (h : Swept now m m') (ht : now ≤ t) : Swept t m m' := fun k =>
  (h k).imp_right fun ⟨hnone, e, he, hexp⟩ => ⟨hnone, e, he, e.expired_mono hexp ht⟩

/-- A sweep drops further entries that have expired. -/
theorem swept_sweep (h : Swept now m m') (order : List κ) :
    Swept now m (InMemoryStore.sweep m' now order) := by
  have hexpired : ∀ k ∈ InMemoryStore.toDelete m' now order,
      ∃ e, m'.data k = some e ∧ e.expired now = true := by
    intro k hk
    have hfound := (List.mem_filter.1 (List.mem_of_mem_take hk)).2
    simpa [Option.any_eq_true] using hfound
  -- the deletions one after another; what is still to come was expired at the start
  suffices hfold : ∀ (ks : List κ) (m'' : TtlMap κ), Swept now m m'' →
      (∀ k ∈ ks, ∃ e, m'.data k = some e ∧ e.expired now = true) →
      Swept now m (ks.foldl TtlMap.delete m'') from hfold _ m' h hexpired
  intro ks
  induction ks with
  | nil => exact fun m'' h'' _ => h''
  | cons k ks ih =>
    intro m'' h'' hks
    refine ih (m''.delete k) (fun k' => ?_) fun k' hk' => hks k' (List.mem_cons_of_mem _ hk')
    by_cases hk : k' = k
    · subst hk
      obtain ⟨e, he, hexp⟩ := hks k' List.mem_cons_self
      rcases h k' with hsame | ⟨hnone, -⟩
      · exact .inr ⟨TtlMap.put_data_self .., e, hsame ▸ he, hexp⟩
      · rw [hnone] at he
        cases he
    · rw [TtlMap.delete, TtlMap.put_data_ne m'' none hk]
      exact h'' k'

/-- **One call returns the same with and without sweeps.** -/
theorem swept_perform (h : Swept now m m') (hlate : op.late now m = false) :
    (InMemoryStore.perform m' now op).1 = (InMemoryStore.perform m now op).1 ∧
      Swept now (InMemoryStore.perform m now op).2 (InMemoryStore.perform m' now op).2 := by
  rw [perform_eq, perform_eq]
  have hother : ∀ {o o' : Option Entry},
      (o' = o ∨ o' = none ∧ ∃ e, o = some e ∧ e.expired now = true) →
      Swept now (m.put op.key o) (m'.put op.key o') := by
    intro o o' ho k
    by_cases hk : k = op.key
    · subst hk
      rw [TtlMap.put_data_self, TtlMap.put_data_self]
      exact ho
    · rw [TtlMap.put_data_ne m _ hk, TtlMap.put_data_ne m' _ hk]
      exact h k
  rcases h op.key with hsame | ⟨hnone, e, he, hexp⟩
  · rw [hsame]
    exact ⟨rfl, hother (.inl rfl)⟩
  · obtain ⟨hres, hleft⟩ := act_expired he hexp hlate
    rw [hnone, he]
    exact ⟨hres.symm, hother (hleft.imp Eq.symm fun ⟨hold, hgone⟩ => ⟨hgone, e, hold, hexp⟩)⟩

end Swept

/-! ## Sequences -/

/-- A call or a sweep, with its time. -/
inductive Event (κ : Type) : Type where
  | call (now : Nat) (op : MemoryOp κ)
  | sweep (now : Nat) (order : List κ)

/-- The results of the calls. -/
def results : TtlMap κ → List (Event κ) → List Res
  | _, [] => []
  | m, .call now op :: es =>
    (InMemoryStore.perform m now op).1 :: results (InMemoryStore.perform m now op).2 es
  | m, .sweep now order :: es => results (InMemoryStore.sweep m now order) es

/-- The calls among the events. -/
def calls : List (Event κ) → List (Nat × MemoryOp κ)
  | [] => []
  | .call now op :: es => (now, op) :: calls es
  | .sweep _ _ :: es => calls es

/-- The calls alone, as events. -/
def plain (cs : List (Nat × MemoryOp κ)) : List (Event κ) := cs.map fun c => .call c.1 c.2

/-- Times do not decrease, and the loop of a sweep meets every key of the map once. -/
def Timed : Nat → TtlMap κ → List (Event κ) → Prop
  | _, _, [] => True
  | last, m, .call now op :: es => last ≤ now ∧ Timed now (InMemoryStore.perform m now op).2 es
  | last, m, .sweep now order :: es =>
    last ≤ now ∧ order.Nodup ∧ (∀ k, (m.data k).isSome → k ∈ order) ∧
      Timed now (InMemoryStore.sweep m now order) es

/-- No call releases an expired lock. -/
def Prompt : TtlMap κ → List (Nat × MemoryOp κ) → Prop
  | _, [] => True
  | m, (now, op) :: cs =>
    op.late now m = false ∧ Prompt (InMemoryStore.perform m now op).2 cs

instance : (m : TtlMap κ) → (cs : List (Nat × MemoryOp κ)) → Decidable (Prompt m cs)
  | _, [] => .isTrue trivial
  | m, (now, op) :: cs =>
    have := instDecidablePrompt (InMemoryStore.perform m now op).2 cs
    inferInstanceAs (Decidable (_ ∧ _))

/-- **A run with sweeps returns what the run without them returns**, where no call releases an
expired lock. -/
theorem results_swept (es : List (Event κ)) : ∀ {last : Nat} {m m' : TtlMap κ}, Swept last m m' →
    Timed last m' es → Prompt m (calls es) → results m' es = results m (plain (calls es)) := by
  induction es with
  | nil => exact fun _ _ _ => rfl
  | cons ev es ih =>
    intro last m m' hswept htimed hprompt
    cases ev with
    | call =>
      obtain ⟨hres, hnext⟩ := swept_perform (hswept.later htimed.1) hprompt.1
      simp only [results, calls, plain, List.map_cons]
      rw [hres, ih hnext htimed.2 hprompt.2]
      rfl
    | sweep now order =>
      exact ih (swept_sweep (hswept.later htimed.1) order) htimed.2.2.2 hprompt

/-! ## A sweep that is noticed -/

theorem timed_plain {cs : List (Nat × MemoryOp κ)} :
    ∀ {last : Nat} {m : TtlMap κ}, (∀ c ∈ cs, last ≤ c.1) →
      cs.Pairwise (fun c c' => c.1 ≤ c'.1) → Timed last m (plain cs) := by
  induction cs with
  | nil => exact fun _ _ => trivial
  | cons c cs ih =>
    intro last m hlast hsorted
    obtain ⟨hlater, hrest⟩ := List.pairwise_cons.1 hsorted
    exact ⟨hlast c List.mem_cons_self, ih hlater hrest⟩

omit [DecidableEq κ] in
@[simp] theorem calls_plain (cs : List (Nat × MemoryOp κ)) : calls (plain cs) = cs := by
  induction cs with
  | nil => rfl
  | cons c cs ih => exact congrArg _ ih

/-- The sweep that meets an expired key first drops it. -/
theorem sweep_drops {now : Nat} {k : κ} {e : Entry} (hd : m.data k = some e)
    (hexp : e.expired now = true) (order : List κ) :
    (InMemoryStore.sweep m now (k :: order)).data k = none := by
  have hfirst : InMemoryStore.toDelete m now (k :: order) =
      k :: ((order.filter fun k => (m.data k).any (·.expired now)).take (batchSize - 1)) := by
    rw [InMemoryStore.toDelete, List.filter_cons_of_pos (by simp [hd, hexp])]
    rfl
  have hstays : ∀ (ks : List κ) (m' : TtlMap κ), m'.data k = none →
      (ks.foldl TtlMap.delete m').data k = none := by
    intro ks
    induction ks with
    | nil => exact fun _ h => h
    | cons k' ks ih =>
      intro m' h
      refine ih _ ?_
      by_cases hk : k = k'
      · subst hk
        exact TtlMap.put_data_self ..
      · rw [TtlMap.delete, TtlMap.put_data_ne m' none hk]
        exact h
  rw [InMemoryStore.sweep, hfirst, List.foldl_cons]
  exact hstays _ _ (TtlMap.put_data_self ..)

/-- **Where a call releases an expired lock, a sweep right before it changes its result.** `keys`
are the keys the map may have. -/
theorem noticed_of_late (cs : List (Nat × MemoryOp κ)) :
    ∀ {last : Nat} {m : TtlMap κ} (keys : List κ), (∀ k, (m.data k).isSome → k ∈ keys) →
      (∀ c ∈ cs, last ≤ c.1) → cs.Pairwise (fun c c' => c.1 ≤ c'.1) → ¬ Prompt m cs →
      ∃ es, calls es = cs ∧ Timed last m es ∧ results m es ≠ results m (plain cs) := by
  induction cs with
  | nil => exact fun _ _ _ _ hlate => absurd trivial hlate
  | cons c cs ih =>
    intro last m keys hkeys hlast hsorted hlate
    obtain ⟨now, op⟩ := c
    obtain ⟨hlater, hrest⟩ := List.pairwise_cons.1 hsorted
    by_cases hop : op.late now m = true
    · cases op with
      | deleteIfOwner k owner =>
        obtain ⟨e, hd, hexp, howner⟩ : ∃ e, m.data k = some e ∧ e.expired now = true ∧
            e.value.text = owner := by
          simpa [MemoryOp.late, Option.any_eq_true] using hop
        refine ⟨.sweep now (k :: keys.dedup.filter (· ≠ k)) ::
          plain ((now, .deleteIfOwner k owner) :: cs), by simp [calls], ⟨hlast _ List.mem_cons_self,
            ?_, fun k' hk' => ?_, ?_⟩, ?_⟩
        · exact List.nodup_cons.2 ⟨by simp, (List.nodup_dedup keys).filter _⟩
        · by_cases hk : k' = k
          · exact hk ▸ List.mem_cons_self
          · exact List.mem_cons_of_mem _ (by simp [hk, hkeys k' hk'])
        · refine timed_plain (fun c hc => ?_) hsorted
          rcases List.mem_cons.1 hc with rfl | hc
          · exact Nat.le_refl _
          · exact hlater c hc
        · have hgone := sweep_drops hd hexp (keys.dedup.filter (· ≠ k))
          simp only [results, plain, List.map_cons, perform_eq, MemoryOp.key, hgone, hd,
            MemoryOp.act, howner, ne_eq, not_true_eq_false, if_false]
          simp
      | _ => cases hop
    · -- the call is prompt, so a later one is not
      have hprompt : ¬ Prompt (InMemoryStore.perform m now op).2 cs := fun h =>
        hlate ⟨Bool.eq_false_iff.2 hop, h⟩
      have hkeys' : ∀ k, ((InMemoryStore.perform m now op).2.data k).isSome →
          k ∈ op.key :: keys := by
        intro k hk
        rw [perform_eq] at hk
        by_cases hkey : k = op.key
        · exact hkey ▸ List.mem_cons_self
        · rw [TtlMap.put_data_ne m _ hkey] at hk
          exact List.mem_cons_of_mem _ (hkeys k hk)
      obtain ⟨es, hcalls, htimed, hne⟩ := ih (op.key :: keys) hkeys' hlater hrest hprompt
      refine ⟨.call now op :: es, by rw [calls, hcalls], ⟨hlast _ List.mem_cons_self, htimed⟩, ?_⟩
      exact fun heq => hne (List.cons.inj heq).2

/-- **When sweeps are unobservable.** For every sequence of calls of a new store at times that do
not decrease: inserting sweeps, anywhere and in any number, changes no result if and only if no call
deletes for its owner an entry that has expired. -/
theorem sweeps_unobservable_iff {cs : List (Nat × MemoryOp κ)}
    (hsorted : cs.Pairwise fun c c' => c.1 ≤ c'.1) :
    (∀ es, calls es = cs → Timed 0 .empty es → results .empty es = results .empty (plain cs)) ↔
      Prompt .empty cs := by
  constructor
  · intro hsame
    by_contra hlate
    obtain ⟨es, hcalls, htimed, hne⟩ := @noticed_of_late κ _ cs 0 .empty []
      (fun k hk => by cases hk) (fun _ _ => Nat.zero_le _) hsorted hlate
    exact hne (hsame es hcalls htimed)
  · rintro hprompt es rfl htimed
    exact results_swept es (.refl 0 .empty) htimed hprompt

/-- A lock that is taken, renewed and released in time. -/
def promptRelease : List (Nat × MemoryOp String) :=
  [(0, .setNX "lock" (.str "a") 10), (8, .renewIfOwner "lock" "a" 10),
    (15, .deleteIfOwner "lock" "a"), (16, .incrBy "n" 1 5), (30, .incrBy "n" 1 5)]

/-- Its results are the same with any sweeps. -/
theorem sweeps_unobservable_sample :
    results .empty (plain promptRelease) =
      [.yes true, .yes true, .yes true, .count 1, .count 1] ∧
    ∀ es, calls es = promptRelease → Timed 0 .empty es →
      results .empty es = results .empty (plain promptRelease) :=
  ⟨by decide +kernel, (sweeps_unobservable_iff (by decide)).2 (by decide +kernel)⟩

/-- A lock that is released after it has expired. -/
def lateRelease : List (Nat × MemoryOp String) :=
  [(0, .setNX "lock" (.str "a") 10), (20, .deleteIfOwner "lock" "a")]

/-- The release reports success, and reports failure when a sweep comes first. -/
theorem sweep_noticed :
    calls [.call 0 (.setNX "lock" (.str "a") 10), .sweep 15 ["lock"],
        .call 20 (.deleteIfOwner "lock" "a")] = lateRelease ∧
      results .empty (plain lateRelease) = [.yes true, .yes true] ∧
      results .empty [.call 0 (.setNX "lock" (.str "a") 10), .sweep 15 ["lock"],
        .call 20 (.deleteIfOwner "lock" "a")] = [.yes true, .yes false] :=
  ⟨rfl, by decide +kernel, by decide +kernel⟩

end FinnAuth.Store
