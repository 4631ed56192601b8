import FinnAuth.Lib.Run
import FinnAuth.Lib.TtlMap

/-!
# Leader election for background jobs

`internal/jobs/leader.go`: replicas share a lock key in the store. On every tick of its interval a
replica asks `isLeader`, which claims the key with `SetNX`, or renews it if its value is still the
replica's own id, and runs the job if the answer is yes. `releaseLock` deletes the key when the loop
stops, again only if it is the replica's own.

* A store request is one atomic step at the time of the store. It may be lost on its way, or its
  answer may be (`Fate`); the store client reports both as "no". A request that its caller gave up
  on may still arrive later (`late`).
* A replica that restarts is a new replica: its id is drawn at construction (`uuid.NewString`). The
  ids are distinct.
* The job runs in the loop of its replica, so the replica asks again, or stops, only after the job
  has ended.

Out of scope: stores without owner-checked operations (test fakes), `RUN_JOBS`, and the interval,
since a tick may come at any time.

Results:
* `Held`, `Inv`: while a grant runs, the key is its holder's;
* **`leader_lease`**: grants to different replicas lie more than the lifetime of the lock apart
  unless the first one released it; jobs that end within the lifetime do not overlap; nobody extends
  or deletes the lock of another. -/

namespace FinnAuth.Jobs

open Lib

/-! ## The replicas -/

/-- One job: the name, the lifetime of its lock and the ids of the replicas. -/
structure Config where
  name : String
  lockTTL : Nat
  self : Nat → String
  self_injective : ∀ p q, self p = self q → p = q

/-- `lockKey` -/
def Config.lockKey (c : Config) : String := "jobs:leader:" ++ c.name

/-- Where the loop of a replica stands. -/
inductive Phase : Type where
  /-- not constructed yet -/
  | off
  /-- between two ticks -/
  | idle
  /-- in `isLeader`, after a `SetNX` that did not answer yes -/
  | renewing
  /-- in the job, which `isLeader` granted at the time `since` -/
  | running (since : Nat)
  /-- stopped or crashed -/
  | stopped
  deriving DecidableEq, Repr

/-- The requests of a replica. -/
inductive Request : Type where
  | setNX
  | renewIfOwner
  | deleteIfOwner
  deriving DecidableEq, Repr

/-- What becomes of a request. -/
inductive Fate : Type where
  | delivered
  | answerLost
  | requestLost
  deriving DecidableEq, Repr

structure State where
  store : TtlMap String
  now : Nat
  phase : Nat → Phase

inductive Event : Type where
  /-- the store's clock moves on -/
  | wait (ms : Nat)
  /-- the store drops expired keys -/
  | sweep (chosen : String → Bool)
  | start (p : Nat)
  /-- a tick: `isLeader` sends `SetNX` -/
  | setNX (p : Nat) (fate : Fate)
  /-- `isLeader` goes on with `RenewIfOwner` -/
  | renewIfOwner (p : Nat) (fate : Fate)
  /-- the job ends -/
  | finish (p : Nat)
  /-- `releaseLock`, and the loop ends -/
  | stop (p : Nat) (fate : Fate)
  | crash (p : Nat)
  /-- a request whose sender has given up on it arrives -/
  | late (p : Nat) (req : Request)

/-- What an event shows. -/
inductive Reply : Type where
  | nothing
  /-- `isLeader` returned true to the replica -/
  | granted (p : Nat)
  /-- the lock of the replica was deleted by `releaseLock` -/
  | released (p : Nat)
  deriving DecidableEq, Repr

def State.goto (s : State) (p : Nat) (ph : Phase) : State :=
  { s with phase := Function.update s.phase p ph }

/-- The store carries out a request of the replica. -/
def State.execute (c : Config) (s : State) (p : Nat) : Request → Bool × TtlMap String
  | .setNX => s.store.setNX s.now c.lockKey (.str (c.self p)) c.lockTTL
  | .renewIfOwner => s.store.renewIfOwner s.now c.lockKey (c.self p) c.lockTTL
  | .deleteIfOwner => s.store.deleteIfOwner c.lockKey (c.self p)

/-- A question of `isLeader`: a yes that arrives starts the job, otherwise the replica goes on with
`next`. -/
def State.ask (c : Config) (s : State) (p : Nat) (req : Request) (next : Phase) :
    Fate → Reply × State
  | .requestLost => (.nothing, s.goto p next)
  | .answerLost => (.nothing, { s.goto p next with store := (s.execute c p req).2 })
  | .delivered =>
    if (s.execute c p req).1 then
      (.granted p, { s.goto p (.running s.now) with store := (s.execute c p req).2 })
    else (.nothing, { s.goto p next with store := (s.execute c p req).2 })

/-- A request that nobody waits for. -/
def State.absorb (c : Config) (s : State) (p : Nat) (req : Request) : Reply × State :=
  (if req = .deleteIfOwner ∧ (s.execute c p req).1 = true then .released p else .nothing,
    { s with store := (s.execute c p req).2 })

/-- One event; an event that cannot happen now changes nothing. -/
def act (c : Config) : Event → State → Reply × State
  | .wait ms, s => (.nothing, { s with now := s.now + ms })
  | .sweep chosen, s => (.nothing, { s with store := s.store.sweep s.now chosen })
  | .start p, s => (.nothing, if s.phase p = .off then s.goto p .idle else s)
  | .setNX p fate, s =>
    if s.phase p = .idle then s.ask c p .setNX .renewing fate else (.nothing, s)
  | .renewIfOwner p fate, s =>
    if s.phase p = .renewing then s.ask c p .renewIfOwner .idle fate else (.nothing, s)
  | .finish p, s =>
    match s.phase p with
    | .running _ => (.nothing, s.goto p .idle)
    | _ => (.nothing, s)
  | .stop p fate, s =>
    if s.phase p = .idle then
      match fate with
      | .requestLost => (.nothing, s.goto p .stopped)
      | _ => (s.goto p .stopped).absorb c p .deleteIfOwner
    else (.nothing, s)
  | .crash p, s => (.nothing, if s.phase p = .off then s else s.goto p .stopped)
  | .late p req, s =>
    if req = .deleteIfOwner ∧ s.phase p ≠ .stopped then (.nothing, s) else s.absorb c p req

/-- The replica an event belongs to. -/
def Event.replica? : Event → Option Nat
  | .wait _ => none
  | .sweep _ => none
  | .start p => some p
  | .setNX p _ => some p
  | .renewIfOwner p _ => some p
  | .finish p => some p
  | .stop p _ => some p
  | .crash p => some p
  | .late p _ => some p

/-- Nobody started, an empty store. -/
def State.init : State := ⟨.empty, 0, fun _ => .off⟩

abbrev Trace := Run State Event Reply

/-- The run of the events `es`. -/
def run (c : Config) (es : List Event) : Trace := (Run.init State.init).exec (act c) es

/-! ## The lock -/

variable {c : Config} {s : State} {p q t : Nat} {req : Request} {m : TtlMap String} {P : Nat → Prop}

/-- The key is the replica's, until `t` at least. -/
def Held (c : Config) (m : TtlMap String) (p t : Nat) : Prop :=
  ∃ e, m.data c.lockKey = some e ∧ e.value.text = c.self p ∧ ∀ x ∈ e.exp, t ≤ x

/-- Only one replica holds the key. -/
theorem Held.unique {t' : Nat} (hp : Held c m p t) (hq : Held c m q t') : p = q := by
  obtain ⟨e, he, hv, -⟩ := hp
  obtain ⟨e', he', hv', -⟩ := hq
  obtain rfl := Option.some.inj (he.symm.trans he')
  exact c.self_injective p q (hv.symm.trans hv')

/-- A held key is there until then. -/
theorem Held.seen {now : Nat} (h : Held c m p t) (ht : now ≤ t) :
    ∃ e, m.seen now c.lockKey = some e ∧ e.value.text = c.self p ∧ ∀ x ∈ e.exp, t ≤ x := by
  obtain ⟨e, he, hv, hexp⟩ := h
  refine ⟨e, TtlMap.seen_eq_some.2 ⟨he, ?_⟩, hv, hexp⟩
  unfold Entry.expired
  split
  · rfl
  · rename_i x hx
    have := hexp x hx
    simp only [decide_eq_false_iff_not]
    omega

theorem held_put {e : Entry} (hv : e.value.text = c.self p) (hexp : ∀ x ∈ e.exp, t ≤ x) :
    Held c (m.put c.lockKey (some e)) p t :=
  ⟨e, TtlMap.put_data_self _ _ _, hv, hexp⟩

/-- A new expiry is a whole lifetime away. -/
theorem le_expiry (now ttl : Nat) : ∀ x ∈ TtlMap.expiry now ttl, now + ttl ≤ x := by
  intro x hx
  unfold TtlMap.expiry at hx
  split at hx
  · exact Nat.le_of_eq (Option.some.inj hx)
  · cases hx

/-- What `RenewIfOwner` does at the lock key. -/
theorem execute_renewIfOwner (c : Config) (s : State) (q : Nat) :
    s.execute c q .renewIfOwner = match s.store.seen s.now c.lockKey with
      | none => (false, s.store)
      | some e => if e.value.text ≠ c.self q then (false, s.store)
        else (true, if 0 < c.lockTTL then
            s.store.put c.lockKey (some { e with exp := some (s.now + c.lockTTL) })
          else s.store) :=
  TtlMap.renewIfOwner_of_seen ..

/-- **Requests respect a lock that is held**, whosever they are, the deletion by its holder apart.
-/
theorem execute_held (h : Held c s.store p t) (hnow : s.now ≤ t) (ht : t ≤ s.now + c.lockTTL)
    (hown : req = .deleteIfOwner → p ≠ q) : Held c (s.execute c q req).2 p t := by
  obtain ⟨e, hseen, hv, hexp⟩ := h.seen hnow
  cases req with
  | setNX =>
    unfold State.execute
    simp only [TtlMap.setNX_of_seen, hseen]
    exact h
  | renewIfOwner =>
    simp only [execute_renewIfOwner, hseen]
    split
    · exact h
    · split
      · -- the holder itself renews, and only ever further into the future
        refine held_put hv fun x hx => ?_
        obtain rfl := Option.some.inj hx
        exact ht
      · exact h
  | deleteIfOwner =>
    have hne : e.value.text ≠ c.self q := by
      rw [hv]
      exact fun heq => hown rfl (c.self_injective p q heq)
    simp only [State.execute, TtlMap.deleteIfOwner, (TtlMap.seen_eq_some.1 hseen).1]
    rw [if_pos hne]
    exact h

/-- A yes of `isLeader` gives the replica the key for a whole lifetime. -/
theorem execute_granted (hreq : req ≠ .deleteIfOwner) (h : (s.execute c q req).1 = true) :
    Held c (s.execute c q req).2 q (s.now + c.lockTTL) := by
  cases req with
  | setNX =>
    unfold State.execute at h ⊢
    simp only [TtlMap.setNX_of_seen] at h ⊢
    split at h
    · exact held_put rfl (le_expiry _ _)
    · cases h
  | renewIfOwner =>
    rw [execute_renewIfOwner] at h ⊢
    cases hseen : s.store.seen s.now c.lockKey with
    | none => simp only [hseen, Bool.false_eq_true] at h
    | some e =>
      simp only [hseen] at h ⊢
      split
      · rename_i hv
        rw [if_pos hv] at h
        cases h
      · rename_i hv
        rw [not_not] at hv
        split
        · exact held_put hv fun x hx => Nat.le_of_eq (Option.some.inj hx)
        · -- without a lifetime the key stays as it is, and it had not expired
          obtain ⟨hdata, hexp⟩ := TtlMap.seen_eq_some.1 hseen
          refine ⟨e, hdata, hv, fun x hx => ?_⟩
          have hx' : e.exp = some x := hx
          simp only [Entry.expired, hx', decide_eq_false_iff_not] at hexp
          omega
  | deleteIfOwner => exact absurd rfl hreq

/-- A yes means that nobody else's lock was running. -/
theorem execute_granted_past (hreq : req ≠ .deleteIfOwner) (h : (s.execute c q req).1 = true)
    (hp : Held c s.store p t) (hne : p ≠ q) : t < s.now := by
  by_contra hnow
  obtain ⟨e, hseen, hv, -⟩ := hp.seen (Nat.le_of_not_lt hnow)
  cases req with
  | setNX =>
    unfold State.execute at h
    simp only [TtlMap.setNX_of_seen, hseen, Bool.false_eq_true] at h
  | renewIfOwner =>
    have hother : e.value.text ≠ c.self q := by
      rw [hv]
      exact fun heq => hne (c.self_injective p q heq)
    simp only [execute_renewIfOwner, hseen] at h
    rw [if_pos hother] at h
    cases h
  | deleteIfOwner => exact hreq rfl

/-- A deletion that found nothing of the replica's changes nothing. -/
theorem execute_deleteIfOwner_false (h : (s.execute c q .deleteIfOwner).1 = false) :
    (s.execute c q .deleteIfOwner).2 = s.store := by
  unfold State.execute TtlMap.deleteIfOwner at h ⊢
  cases hd : s.store.data c.lockKey with
  | none => rfl
  | some e =>
    simp only [hd] at h ⊢
    split
    · rfl
    · rename_i hv
      rw [if_neg hv] at h
      cases h

/-! ## What an event does -/

/-- From `s` to `s'` the replicas of `P` keep their locks and start no job. -/
structure Kept (c : Config) (s s' : State) (P : Nat → Prop) : Prop where
  now : s.now ≤ s'.now
  held : ∀ p t, P p → s.now ≤ t → t ≤ s.now + c.lockTTL → Held c s.store p t → Held c s'.store p t
  running : ∀ p t, P p → s'.phase p = .running t → s.phase p = .running t

/-- What an event can do. -/
inductive Effect (c : Config) (s : State) : Reply × State → Prop where
  | quiet {s' : State} : Kept c s s' (fun _ => True) → Effect c s (.nothing, s')
  | granted {q : Nat} {s' : State} :
      Kept c s s' (· ≠ q) → s'.now = s.now → s'.phase q = .running s.now →
      Held c s'.store q (s.now + c.lockTTL) →
      (∀ p t, p ≠ q → Held c s.store p t → t < s.now) → Effect c s (.granted q, s')
  | released {q : Nat} {s' : State} :
      Kept c s s' (· ≠ q) → (∀ t, s'.phase q ≠ .running t) → Effect c s (.released q, s')

/-- A change of phase, to anything but a job. -/
theorem kept_goto (ph : Phase) (hph : ∀ t, ph ≠ .running t) :
    Kept c s (s.goto q ph) (fun _ => True) := by
  refine ⟨Nat.le_refl _, fun _ _ _ _ _ h => h, fun p t _ h => ?_⟩
  by_cases hpq : p = q
  · subst hpq
    simp only [State.goto, Function.update_self] at h
    exact absurd h (hph t)
  · simpa [State.goto, hpq] using h

theorem kept_refl (P : Nat → Prop) : Kept c s s P :=
  ⟨Nat.le_refl _, fun _ _ _ _ _ h => h, fun _ _ _ h => h⟩

/-- A change of phase and a request. -/
theorem kept_execute {ph : Phase} (hph : ∀ t, P q → ph ≠ .running t)
    (hreq : req = .deleteIfOwner → ∀ p, P p → p ≠ q) :
    Kept c s { s.goto q ph with store := (s.execute c q req).2 } P := by
  refine ⟨Nat.le_refl _, fun p t hp hnow ht h => execute_held h hnow ht fun hr => hreq hr p hp,
    fun p t hp h => ?_⟩
  by_cases hpq : p = q
  · subst hpq
    simp only [State.goto, Function.update_self] at h
    exact absurd h (hph t hp)
  · simpa [State.goto, hpq] using h

theorem effect_ask {next : Phase} (hreq : req ≠ .deleteIfOwner) (hnext : ∀ t, next ≠ .running t)
    (fate : Fate) : Effect c s (s.ask c q req next fate) := by
  have hkept : Kept c s { s.goto q next with store := (s.execute c q req).2 } (fun _ => True) :=
    kept_execute (fun t _ => hnext t) (fun h => absurd h hreq)
  cases fate with
  | requestLost => exact .quiet (kept_goto next hnext)
  | answerLost => exact .quiet hkept
  | delivered =>
    simp only [State.ask]
    split
    · rename_i hyes
      refine .granted ?_ rfl ?_ (execute_granted hreq hyes) fun p t hne hp =>
        execute_granted_past hreq hyes hp hne
      · exact kept_execute (fun t h => absurd rfl h) (fun h => absurd h hreq)
      · simp [State.goto]
    · exact .quiet hkept

/-- A request that nobody waits for; a deletion comes from a replica that runs no job. -/
theorem effect_absorb {s' : State} (hstore : s'.store = s.store) (hnow : s'.now = s.now)
    (hrun : ∀ p t, s'.phase p = .running t → s.phase p = .running t)
    (hreq : req = .deleteIfOwner → ∀ t, s'.phase q ≠ .running t) :
    Effect c s (s'.absorb c q req) := by
  have hexec : s'.execute c q req = s.execute c q req := by
    unfold State.execute
    rw [hstore, hnow]
  unfold State.absorb
  rw [hexec]
  split
  · rename_i hdel
    refine .released ⟨Nat.le_of_eq hnow.symm, fun p t hp h₁ h₂ h => ?_, fun p t _ => hrun p t⟩
      (hreq hdel.1)
    exact execute_held h h₁ h₂ fun _ => hp
  · rename_i hdel
    refine .quiet ⟨Nat.le_of_eq hnow.symm, fun p t _ h₁ h₂ h => ?_, fun p t _ => hrun p t⟩
    by_cases hr : req = .deleteIfOwner
    · subst hr
      have hno : (s.execute c q .deleteIfOwner).1 = false := by simpa using hdel
      simpa only [execute_deleteIfOwner_false hno] using h
    · exact execute_held h h₁ h₂ fun h => absurd h hr

/-- **What an event can do.** -/
theorem act_effect (c : Config) (e : Event) (s : State) : Effect c s (act c e s) := by
  cases e with
  | wait ms => exact .quiet ⟨Nat.le_add_right _ _, fun _ _ _ _ _ h => h, fun _ _ _ h => h⟩
  | sweep chosen =>
    refine .quiet ⟨Nat.le_refl _, fun p t _ hnow _ h => ?_, fun _ _ _ h => h⟩
    obtain ⟨e, hseen, hv, hexp⟩ := h.seen hnow
    rw [← TtlMap.seen_sweep chosen] at hseen
    exact ⟨e, (TtlMap.seen_eq_some.1 hseen).1, hv, hexp⟩
  | start p =>
    refine .quiet ?_
    split
    · exact kept_goto _ (fun t h => by cases h)
    · exact kept_refl _
  | setNX p fate =>
    simp only [act]
    split
    · exact effect_ask (by decide) (fun t h => by cases h) fate
    · exact .quiet (kept_refl _)
  | renewIfOwner p fate =>
    simp only [act]
    split
    · exact effect_ask (by decide) (fun t h => by cases h) fate
    · exact .quiet (kept_refl _)
  | finish p =>
    simp only [act]
    split
    · exact .quiet (kept_goto _ (fun t h => by cases h))
    · exact .quiet (kept_refl _)
  | stop p fate =>
    have hkept : Kept c s (s.goto p .stopped) (fun _ => True) := kept_goto _ (fun t h => by cases h)
    have hstop : Effect c s ((s.goto p .stopped).absorb c p .deleteIfOwner) :=
      effect_absorb rfl rfl (fun p t => hkept.running p t trivial)
        (fun _ t h => by simp [State.goto] at h)
    simp only [act]
    split
    · cases fate with
      | requestLost => exact .quiet hkept
      | answerLost => exact hstop
      | delivered => exact hstop
    · exact .quiet (kept_refl _)
  | crash p =>
    refine .quiet ?_
    split
    · exact kept_refl _
    · exact kept_goto _ (fun t h => by cases h)
  | late =>
    simp only [act]
    split
    · exact .quiet (kept_refl _)
    · rename_i hlate
      refine effect_absorb rfl rfl (fun _ _ h => h) fun hreq t h => hlate ⟨hreq, ?_⟩
      rw [h]
      exact fun h => by cases h

/-! ## Grants -/

/-- The time of the last grant to the replica, if it has not released the lock since. -/
def lease (p : Nat) : List (Record State Event Reply) → Option Nat
  | [] => none
  | x :: h =>
    match x.reply with
    | .nothing => lease p h
    | .granted q => if q = p then some x.before.now else lease p h
    | .released q => if q = p then none else lease p h

/-- What holds along a run. -/
structure Inv (c : Config) (r : Trace) : Prop where
  /-- the clock only moves on -/
  clock : ∀ x b, x :: b <:+ r.hist → ∀ y ∈ b, y.before.now ≤ x.before.now
  past : ∀ x ∈ r.hist, x.before.now ≤ r.state.now
  /-- a lease that runs is in the store -/
  held : ∀ p t, lease p r.hist = some t →
    t ≤ r.state.now ∧ (r.state.now ≤ t + c.lockTTL → Held c r.state.store p (t + c.lockTTL))
  /-- a job runs on the last grant of its replica -/
  running : ∀ p t, r.state.phase p = .running t → lease p r.hist = some t
  /-- no grant came while the lease of another ran -/
  apart : ∀ x b, x :: b <:+ r.hist → ∀ q, x.reply = .granted q →
    ∀ p t, p ≠ q → lease p b = some t → t + c.lockTTL < x.before.now

theorem inv_init (c : Config) : Inv c (Run.init State.init) := by
  refine ⟨fun x b h => ?_, fun x h => (by cases h), fun p t h => (by cases h),
    fun p t h => (by cases h), fun x b h => ?_⟩
  · exact absurd (List.suffix_nil.1 h) (List.cons_ne_nil _ _)
  · exact absurd (List.suffix_nil.1 h) (List.cons_ne_nil _ _)

/-- The last grant is no earlier than any grant that was not released. -/
theorem lease_of_grant {x : Record State Event Reply} (hx : x.reply = .granted p) :
    ∀ {m b : List (Record State Event Reply)}, (∀ y ∈ m, y.reply ≠ .released p) →
      (∀ y ∈ m, x.before.now ≤ y.before.now) →
      ∃ t, lease p (m ++ x :: b) = some t ∧ x.before.now ≤ t := by
  intro m
  induction m with
  | nil =>
    intro b _ _
    exact ⟨x.before.now, by simp [lease, hx], Nat.le_refl _⟩
  | cons y m ih =>
    intro b hrel hle
    obtain ⟨t, ht, hxt⟩ := ih (b := b) (fun z hz => hrel z (List.mem_cons_of_mem _ hz))
      (fun z hz => hle z (List.mem_cons_of_mem _ hz))
    simp only [List.cons_append, lease]
    cases hy : y.reply with
    | nothing => exact ⟨t, ht, hxt⟩
    | granted q =>
      by_cases hq : q = p
      · exact ⟨y.before.now, if_pos hq, hle y List.mem_cons_self⟩
      · exact ⟨t, (if_neg hq).trans ht, hxt⟩
    | released q =>
      have hq : q ≠ p := fun h => hrel y List.mem_cons_self (h ▸ hy)
      exact ⟨t, (if_neg hq).trans ht, hxt⟩

/-- A lease whose replica keeps its lock goes on. -/
theorem Inv.lease_kept {r : Trace} {s' : State} (hi : Inv c r) (hk : Kept c r.state s' P) (hp : P p)
    (hl : lease p r.hist = some t) :
    t ≤ s'.now ∧ (s'.now ≤ t + c.lockTTL → Held c s'.store p (t + c.lockTTL)) := by
  obtain ⟨ht, hheld⟩ := hi.held p t hl
  refine ⟨Nat.le_trans ht hk.now, fun hnow => ?_⟩
  have hbefore : r.state.now ≤ t + c.lockTTL := Nat.le_trans hk.now hnow
  exact hk.held p _ hp hbefore (Nat.add_le_add_right ht _) (hheld hbefore)

theorem Effect.now_le {res : Reply × State} (h : Effect c s res) : s.now ≤ res.2.now := by
  cases h with
  | quiet hk => exact hk.now
  | granted hk => exact hk.now
  | released hk => exact hk.now

/-- Every event keeps the invariant. -/
theorem inv_step (r : Trace) (e : Event) (hi : Inv c r) : Inv c (r.step (act c) e) := by
  have heff := act_effect c e r.state
  unfold Run.step
  generalize act c e r.state = res at heff ⊢
  refine ⟨fun x b hb y hy => ?_, fun x hx => ?_, fun p t hl => ?_, fun p t hrun => ?_,
    fun x b hb q hq p t hne hl => ?_⟩
  · -- the clock
    rcases List.suffix_cons_iff.1 hb with heq | hb
    · obtain ⟨rfl, rfl⟩ := List.cons.inj heq
      exact hi.past y hy
    · exact hi.clock x b hb y hy
  · rcases List.mem_cons.1 hx with rfl | hx
    · exact heff.now_le
    · exact Nat.le_trans (hi.past x hx) heff.now_le
  · -- leases
    cases heff with
    | quiet hk => exact hi.lease_kept hk trivial hl
    | @granted q s' hk hnow _ hheld _ =>
      by_cases hq : q = p
      · obtain rfl : r.state.now = t := by simpa [lease, hq] using hl
        subst hq
        exact ⟨Nat.le_of_eq hnow.symm, fun _ => hheld⟩
      · exact hi.lease_kept hk (Ne.symm hq) (by simpa [lease, hq] using hl)
    | @released q s' hk _ =>
      have hq : q ≠ p := fun hq => by simp [lease, hq] at hl
      exact hi.lease_kept hk (Ne.symm hq) (by simpa [lease, hq] using hl)
  · -- jobs
    cases heff with
    | quiet hk => exact hi.running p t (hk.running p t trivial hrun)
    | @granted q s' hk _ hself _ _ =>
      by_cases hq : q = p
      · subst hq
        obtain rfl : r.state.now = t := Phase.running.inj (hself.symm.trans hrun)
        simp [lease]
      · simpa [lease, hq] using hi.running p t (hk.running p t (Ne.symm hq) hrun)
    | @released q s' hk hself =>
      have hq : q ≠ p := fun hq => hself t (hq ▸ hrun)
      simpa [lease, hq] using hi.running p t (hk.running p t (Ne.symm hq) hrun)
  · -- a new grant finds every other lease run out
    rcases List.suffix_cons_iff.1 hb with heq | hb
    · obtain ⟨rfl, rfl⟩ := List.cons.inj heq
      cases heff with
      | quiet => cases hq
      | released => cases hq
      | granted _ _ _ _ hpast =>
        obtain rfl := Reply.granted.inj hq
        by_contra hnow
        have hrun := (hi.held p t hl).2 (Nat.le_of_not_lt hnow)
        exact hnow (hpast p _ hne hrun)
    · exact hi.apart x b hb q hq p t hne hl

/-- Every run keeps the invariant. -/
theorem inv_run (c : Config) (es : List Event) : Inv c (run c es) :=
  Run.exec_induct inv_step es (inv_init c)

/-! ## The locks of others -/

/-- What an event does to the store: nothing, a sweep, or a request of the event's own replica. -/
theorem act_store (c : Config) (e : Event) (s : State) :
    (act c e s).2.store = s.store ∨
      (∃ chosen, (act c e s).2.store = s.store.sweep s.now chosen) ∨
        ∃ q req, e.replica? = some q ∧ (act c e s).2.store = (s.execute c q req).2 := by
  have hask : ∀ q req next fate, (s.ask c q req next fate).2.store = s.store ∨
      (s.ask c q req next fate).2.store = (s.execute c q req).2 := by
    intro q req next fate
    cases fate with
    | requestLost => exact .inl rfl
    | answerLost => exact .inr rfl
    | delivered =>
      simp only [State.ask]
      split <;> exact .inr rfl
  cases e with
  | wait ms => exact .inl rfl
  | sweep chosen => exact .inr (.inl ⟨chosen, rfl⟩)
  | start p =>
    simp only [act]
    split <;> exact .inl rfl
  | setNX p fate =>
    simp only [act]
    split
    · exact (hask p .setNX .renewing fate).imp id fun h => .inr ⟨p, .setNX, rfl, h⟩
    · exact .inl rfl
  | renewIfOwner p fate =>
    simp only [act]
    split
    · exact (hask p .renewIfOwner .idle fate).imp id fun h => .inr ⟨p, .renewIfOwner, rfl, h⟩
    · exact .inl rfl
  | finish p =>
    simp only [act]
    split <;> exact .inl rfl
  | stop p fate =>
    simp only [act]
    split
    · cases fate with
      | requestLost => exact .inl rfl
      | answerLost => exact .inr (.inr ⟨p, .deleteIfOwner, rfl, rfl⟩)
      | delivered => exact .inr (.inr ⟨p, .deleteIfOwner, rfl, rfl⟩)
    · exact .inl rfl
  | crash p =>
    simp only [act]
    split <;> exact .inl rfl
  | late p req =>
    simp only [act]
    split
    · exact .inl rfl
    · exact .inr (.inr ⟨p, req, rfl, rfl⟩)

/-- Requests leave the lock of another as it is. -/
theorem execute_data {entry : Entry} (hseen : s.store.seen s.now c.lockKey = some entry)
    (hown : entry.value.text = c.self p) (hne : q ≠ p) :
    (s.execute c q req).2.data c.lockKey = some entry := by
  have hdata := (TtlMap.seen_eq_some.1 hseen).1
  have hother : entry.value.text ≠ c.self q := by
    rw [hown]
    exact fun h => hne (c.self_injective p q h).symm
  cases req with
  | setNX =>
    unfold State.execute
    simpa only [TtlMap.setNX_of_seen, hseen] using hdata
  | renewIfOwner =>
    simp only [execute_renewIfOwner, hseen]
    rwa [if_pos hother]
  | deleteIfOwner =>
    simp only [State.execute, TtlMap.deleteIfOwner, hdata]
    rwa [if_pos hother]

/-- An event leaves the lock of another replica as it is: owner, expiry and all. -/
theorem act_data {e : Event} {entry : Entry} (hseen : s.store.seen s.now c.lockKey = some entry)
    (hown : entry.value.text = c.self p) (hother : e.replica? ≠ some p) :
    (act c e s).2.store.data c.lockKey = some entry := by
  rcases act_store c e s with h | ⟨chosen, h⟩ | ⟨q, req, hq, h⟩
  · rw [h]
    exact (TtlMap.seen_eq_some.1 hseen).1
  · rw [h]
    exact (TtlMap.seen_eq_some.1 ((TtlMap.seen_sweep chosen _).trans hseen)).1
  · rw [h]
    exact execute_data hseen hown fun hqp => hother (hqp ▸ hq)

/-! ## The lease -/

/-- **Leader lease safety.** In every run: if `isLeader` said yes to `p` (the call `x`) and later to
another replica `q` (the call `y`), and `p` did not release the lock in between, then more than a
lifetime of the lock lies between the two; jobs within the lifetime of their grants run on one
replica; and an event of another replica leaves a running lock as it is. -/
theorem leader_lease (c : Config) (es : List Event) :
    (∀ y m x b p q, y :: (m ++ x :: b) <:+ (run c es).hist →
      x.reply = .granted p → y.reply = .granted q → p ≠ q → (∀ z ∈ m, z.reply ≠ .released p) →
        x.before.now + c.lockTTL < y.before.now) ∧
    (∀ p q tp tq, (run c es).state.phase p = .running tp → (run c es).state.phase q = .running tq →
      (run c es).state.now ≤ tp + c.lockTTL → (run c es).state.now ≤ tq + c.lockTTL → p = q) ∧
    (∀ e p entry, (run c es).state.store.seen (run c es).state.now c.lockKey = some entry →
      entry.value.text = c.self p → e.replica? ≠ some p →
        (act c e (run c es).state).2.store.data c.lockKey = some entry) := by
  have hi := inv_run c es
  refine ⟨fun y m x b p q hsuf hx hy hne hrel => ?_, fun p q tp tq hp hq hnp hnq => ?_,
    fun e p entry hseen hown hother => act_data hseen hown hother⟩
  · have hclock : ∀ z ∈ m, x.before.now ≤ z.before.now := by
      intro z hz
      obtain ⟨m₁, m₂, rfl⟩ := List.append_of_mem hz
      refine hi.clock z (m₂ ++ x :: b) (List.IsSuffix.trans ⟨y :: m₁, by simp⟩ hsuf) x ?_
      simp
    obtain ⟨t, ht, hxt⟩ := lease_of_grant (b := b) hx hrel hclock
    have hapart := hi.apart y _ hsuf q hy p t hne ht
    omega
  · have hheldp := (hi.held p tp (hi.running p tp hp)).2 hnp
    have hheldq := (hi.held q tq (hi.running q tq hq)).2 hnq
    exact hheldp.unique hheldq

/-- Two replicas of one job. -/
def twoReplicas : Config where
  name := "purge"
  lockTTL := 30
  self p := String.ofList (List.replicate p 'a')
  self_injective p q h := by
    have := congrArg List.length (String.ofList_injective h)
    simpa using this

/-- The first replica becomes the leader and crashes in its job; the second takes over as soon as
the lock has expired, and no sooner. -/
def takeover : List Event :=
  [.start 0, .start 1, .setNX 0 .delivered, .wait 30, .setNX 1 .delivered,
    .renewIfOwner 1 .delivered, .crash 0, .wait 1, .setNX 1 .delivered]

theorem leader_lease_takeover :
    ((run twoReplicas takeover).hist.map fun x => (x.before.now, x.reply)) =
      [(31, .granted 1), (30, .nothing), (30, .nothing), (30, .nothing), (30, .nothing),
        (0, .nothing), (0, .granted 0), (0, .nothing), (0, .nothing)] ∧
    ∀ p q tp tq, (run twoReplicas takeover).state.phase p = .running tp →
      (run twoReplicas takeover).state.phase q = .running tq →
      (run twoReplicas takeover).state.now ≤ tp + 30 →
      (run twoReplicas takeover).state.now ≤ tq + 30 → p = q :=
  ⟨by decide, (leader_lease twoReplicas takeover).2.1⟩

end FinnAuth.Jobs
