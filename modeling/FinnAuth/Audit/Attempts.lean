import FinnAuth.Audit.Delivery

/-!
# Delivery attempts are bounded

`Claim` counts an attempt in the row and hands it out only up to `auditMaxAttempts`; the worker's
copy carries the same count, and `FailClaim` decides by the copy whether the row is dead. Between
the claim and its return other workers may claim, deliver and return the row. The copy decides only
while its token is still in the row, and while it is, row and copy are equal.

Results:
* `perform_fate`: what a step can do to the row of an event;
* `leased_run`: a leased row is the copy the last claim handed out;
* **`attempts_bounded`**: an event is handed out at most eight times before a requeue; after the
  eighth time the return of its lease, or the next claim that finds it, makes it dead; and a dead
  event is neither handed out nor delivered before a requeue.
-/

namespace FinnAuth.Audit

open Lib

variable {β ρ : Type} {pl : Platform} {maxPending : Nat}

/-! ## One step and one row -/

variable {reply : AuditReply} {step : AuditStep β ρ} {r : AuditRun β ρ} {s : Store β}
  {o c : AuditOutbox} {now : Int} {locked : String → Bool}

/-- What a step does to the row of an event: nothing, or it queues, claims, delivers, returns or
requeues it. `token` is the one a claim draws. -/
inductive Fate (id token : String) (action : Action β ρ) (reply : AuditReply) :
    Option AuditOutbox → Option AuditOutbox → Prop where
  | same (o : Option AuditOutbox) (hout : ∀ c, reply.claimed = some c → c.eventID ≠ id) :
      Fate id token action reply o o
  | queued {o : AuditOutbox} (hstate : o.state = .pending) (hattempts : o.attempts = 0)
      (hout : reply.claimed = none) : Fate id token action reply none (some o)
  | claimed {now : Int} {o : AuditOutbox} (hdue : o.due now = true)
      (hout : reply.claimed =
        if o.attempts + 1 > auditMaxAttempts then none else some (o.claimed now token)) :
      Fate id token action reply (some o) (some (o.claimed now token))
  | delivered {o : AuditOutbox} (hleased : o.state = .leased) (hout : reply.claimed = none) :
      Fate id token action reply (some o) (some o.acknowledged)
  | failed {c o : AuditOutbox} {now : Int} (hfail : action = .failClaim c now)
      (hid : c.eventID = id) (hleased : o.state = .leased) (htoken : o.leaseToken = c.leaseToken)
      (hout : reply.claimed = none) :
      Fate id token action reply (some o) (some (AuditOutbox.failed c now o))
  | requeued {o : AuditOutbox} {tenant : String} {now : Int}
      (hrequeue : action = .requeueDead tenant id now) (hok : reply.result = .ok ())
      (hdead : o.state = .dead) (hout : reply.claimed = none) :
      Fate id token action reply (some o) (some (o.requeued now))

/-- Rows are only added, and an added row waits without an attempt. -/
def Adds (db db' : AuditTables) : Prop :=
  ∀ id, db'.outbox.get? id = db.outbox.get? id ∨
    db.outbox.get? id = none ∧ ∃ o, db'.outbox.get? id = some o ∧ o.state = .pending ∧
      o.attempts = 0

section Adds

variable {db db' db'' : AuditTables}

theorem adds_of_outbox (h : db'.outbox = db.outbox) : Adds db db' :=
  fun id => .inl (by rw [h])

theorem Adds.trans (h : Adds db db') (h' : Adds db' db'') : Adds db db'' := by
  intro id
  rcases h id with hsame | ⟨hnone, o, hsome, hnew⟩
  · rw [← hsame]
    exact h' id
  · rcases h' id with hsame' | ⟨hnone', -⟩
    · exact .inr ⟨hnone, o, hsame'.trans hsome, hnew⟩
    · rw [hsome] at hnone'
      cases hnone'

theorem adds_admitEvent {repo : AuditRepository} {a : Admission} {fresh : Nat} {e : AuditLog}
    (h : admitEvent pl repo a fresh db = .ok (e, db')) : Adds db db' := by
  obtain ⟨payload, now, -, hrows⟩ := (admitEvent_ok h).outbox
  intro id
  have hget : db'.outbox.get? id =
      (db.outbox.get? id).or ([e.queued payload now].find? (·.eventID = id)) := by
    rw [Table.get?, hrows, List.find?_append]
    rfl
  cases hold : db.outbox.get? id with
  | some o => exact .inl (by rw [hget, hold]; rfl)
  | none =>
    rw [hget, hold, Option.none_or]
    by_cases hid : e.eventID = id
    · exact .inr ⟨rfl, e.queued payload now, by simp [AuditLog.queued, hid], rfl, rfl⟩
    · exact .inl (by simp [AuditLog.queued, hid])

theorem adds_run (pl : Platform) (repo : AuditRepository) (body : Body β ρ) (t : Transaction β) :
    Adds t.tables (body.run pl repo t).2.tables := by
  refine run_rel (R := fun t t' : Transaction β => Adds t.tables t'.tables)
    (fun t => adds_of_outbox rfl) (fun h h' => h.trans h') (fun t _ => adds_of_outbox rfl)
    (fun t a => ?_) (fun t => adds_of_outbox rfl) (fun t _ _ => adds_of_outbox rfl) body t
  unfold Transaction.admitEvent
  split
  · exact adds_of_outbox rfl
  · rename_i h
    exact adds_admitEvent h

/-- A step that only adds rows. -/
theorem Adds.fate (h : Adds db db') (id token : String) (action : Action β ρ)
    (hout : reply.claimed = none) :
    Fate id token action reply (db.outbox.get? id) (db'.outbox.get? id) := by
  rcases h id with hsame | ⟨hnone, o, hsome, hstate, hattempts⟩
  · rw [hsame]
    exact .same _ fun c hc => by rw [hout] at hc; cases hc
  · rw [hnone, hsome]
    exact .queued hstate hattempts hout

end Adds

section Steps

variable {s : Store β} {id token : String} {action : Action β ρ} {db : AuditTables}

theorem fate_of_outbox {db db' : AuditTables} (h : db'.outbox = db.outbox)
    (hout : reply.claimed = none) :
    Fate id token action reply (db.outbox.get? id) (db'.outbox.get? id) :=
  (adds_of_outbox h).fate id token action hout

/-- The row of an event after an update, by what the statement does to a row it names. -/
theorem fate_update (db : AuditTables) (p : AuditOutbox → Bool) (f : AuditOutbox → AuditOutbox)
    (hf : ∀ o, (f o).eventID = o.eventID)
    (hsame : ∀ o ∈ db.outbox.rows, o.eventID = id → p o = false →
      ∀ c, reply.claimed = some c → c.eventID ≠ id)
    (hnone : db.outbox.get? id = none → ∀ c, reply.claimed = some c → c.eventID ≠ id)
    (hstep : ∀ o ∈ db.outbox.rows, o.eventID = id → p o = true →
      Fate id token action reply (some o) (some (f o))) :
    Fate id token action reply (db.outbox.get? id) ((db.updateOutbox p f hf).outbox.get? id) := by
  have hget : (db.updateOutbox p f hf).outbox.get? id =
      (db.outbox.get? id).map fun o => if p o then f o else o :=
    Table.get?_update db.outbox p f hf id
  rw [hget]
  cases ho : db.outbox.get? id with
  | none => exact .same none (hnone ho)
  | some o =>
    obtain ⟨hmem, hid⟩ := (db.outbox.get?_eq_some_iff).1 ho
    rw [Option.map_some]
    split
    · rename_i hp
      exact hstep o hmem hid hp
    · rename_i hp
      exact .same _ (hsame o hmem hid (Bool.not_eq_true _ ▸ hp))

theorem fate_claim (hout : reply.claimed = (claim now locked token db).1) :
    Fate id token action reply (db.outbox.get? id)
      ((claim now locked token db).2.outbox.get? id) := by
  cases hrow : db.claimable now locked with
  | none =>
    have hnone : claim now locked token db = (none, db) := by rw [claim, hrow]
    rw [hnone] at hout ⊢
    exact fate_of_outbox rfl hout
  | some row =>
    obtain ⟨hmem, hdue⟩ := claimable_spec hrow
    have hclaim : claim now locked token db =
        (if row.attempts + 1 > auditMaxAttempts then none else some (row.claimed now token),
          db.updateOutbox (·.eventID = row.eventID) (AuditOutbox.claimed now token)
            fun _ => rfl) := by
      rw [claim, hrow]
      by_cases hmax : row.attempts + 1 > auditMaxAttempts
      · simp [AuditOutbox.claimed, hmax]
      · simp [AuditOutbox.claimed, hmax]
    rw [hclaim] at hout ⊢
    -- what is handed out is the row that was found
    have hid : ∀ c, reply.claimed = some c → c.eventID = row.eventID := by
      intro c hc
      rw [hout] at hc
      split at hc
      · cases hc
      · cases hc
        rfl
    refine fate_update db _ _ _ (fun o ho hoid hp c hc heq => ?_) (fun hnone c hc heq => ?_)
      fun o ho hoid hp => ?_
    · simp only [decide_eq_false_iff_not] at hp
      exact hp (hoid.trans (heq.symm.trans (hid c hc)))
    · exact (db.outbox.get?_eq_none_iff).1 hnone row hmem ((hid c hc).symm.trans heq)
    · obtain rfl := db.outbox.eq_of_key_eq ho hmem (by simpa using hp)
      exact .claimed hdue hout

theorem fate_commit {t : Tx Unit} (hout : reply.claimed = none)
    (ht : ∀ db', t s.tables = .ok ((), db') →
      Fate id token action reply (s.tables.outbox.get? id) (db'.outbox.get? id)) :
    Fate id token action reply (s.tables.outbox.get? id)
      ((s.commit t).2.tables.outbox.get? id) := by
  unfold Store.commit
  split
  · rename_i tables hok
    exact ht tables hok
  · exact fate_of_outbox rfl hout

theorem fate_acknowledge {logs : LogTable} {row : AuditOutbox} (hmem : row ∈ db.outbox.rows)
    (hleased : row.state = .leased) (hout : reply.claimed = none) :
    Fate id token action reply (db.outbox.get? id)
      (({ db with logs := logs }.acknowledge row).outbox.get? id) := by
  have hnone : ∀ c, reply.claimed = some c → c.eventID ≠ id := fun c hc => by
    rw [hout] at hc; cases hc
  refine fate_update db _ AuditOutbox.acknowledged (fun _ => rfl) (fun _ _ _ _ => hnone)
    (fun _ => hnone) fun o ho _ hp => ?_
  obtain rfl := db.outbox.eq_of_key_eq ho hmem (by simpa using hp)
  exact .delivered hleased hout

/-- **What a step can do to the row of an event.** -/
theorem perform_fate (pl : Platform) (maxPending : Nat) (id : String) (step : AuditStep β ρ)
    (s : Store β) :
    Fate id (pl.uuid s.fresh) step.action (perform pl maxPending step s).1
      (s.tables.outbox.get? id) ((perform pl maxPending step s).2.tables.outbox.get? id) := by
  obtain ⟨keys, action⟩ := step
  cases action with
  | operation body =>
    have hadds : Adds s.tables _ := adds_run pl ⟨keys, maxPending⟩ body s.begin
    simp only [perform, operate]
    split
    · exact fate_of_outbox rfl rfl
    · exact Adds.fate hadds id _ _ rfl
  | admission a =>
    simp only [perform]
    split
    · rename_i h
      exact (adds_admitEvent h).fate id _ _ rfl
    · exact fate_of_outbox rfl rfl
  | claim => exact fate_claim rfl
  | deliver =>
    refine fate_commit rfl fun db' hok => ?_
    rcases deliver_ok hok with rfl | ⟨row, e, -, -, hd⟩
    · exact fate_of_outbox rfl rfl
    · obtain ⟨logs, rfl, -⟩ := hd.after
      exact fate_acknowledge hd.mem hd.state rfl
  | failClaim c now =>
    refine fate_update s.tables _ _ _ (fun _ _ _ _ c hc => by cases hc) (fun _ c hc => by cases hc)
      fun o _ hid hp => ?_
    simp only [Bool.and_eq_true, decide_eq_true_eq] at hp
    exact .failed rfl (hp.1.1.symm.trans hid) hp.1.2 hp.2 rfl
  | requeueDead tenant id' now =>
    simp only [perform]
    cases hok : requeueDead tenant id' now s.tables with
    | error err =>
      simp only [Store.commit, hok]
      exact fate_of_outbox rfl rfl
    | ok out =>
      obtain ⟨_, db'⟩ := out
      simp only [Store.commit, hok]
      unfold requeueDead at hok
      split at hok
      · cases hok
        refine fate_update s.tables _ _ _ (fun _ _ _ _ c hc => by cases hc)
          (fun _ c hc => by cases hc) fun o _ hid hp => ?_
        simp only [AuditOutbox.deadOf, Bool.and_eq_true, decide_eq_true_eq] at hp
        exact .requeued (by rw [← hid, hp.1.2]) rfl hp.2 rfl
      · cases hok
  | archive =>
    simp only [perform]
    split <;> exact fate_of_outbox rfl rfl
  | purgeArchive =>
    refine fate_commit rfl fun db' hok => ?_
    rw [(purgeArchive_ok hok).after]
    exact fate_of_outbox rfl rfl
  | restoreArchive =>
    simp only [perform]
    split
    · rename_i hok
      obtain ⟨logs, -, rfl⟩ := (restoreArchive_ok hok).after
      exact fate_of_outbox rfl rfl
    · exact fate_of_outbox rfl rfl
  | anonymizeUser => exact fate_of_outbox rfl rfl
  | crash => exact fate_of_outbox rfl rfl

end Steps

/-! ## Hand-outs -/

/-- A step of a run with what came of it. -/
abbrev AuditRecord (β ρ : Type) := Record (Store β) (AuditStep β ρ) AuditReply

/-- The step requeued the event. -/
def requeues (id : String) (x : AuditRecord β ρ) : Bool :=
  match x.input.action, x.reply.result with
  | .requeueDead _ id' _, .ok _ => id' = id
  | _, _ => false

/-- The step handed the event out. -/
def handsOut (id : String) (x : AuditRecord β ρ) : Bool := x.reply.claimed.any (·.eventID = id)

/-- How often the event was handed out since it was admitted or last requeued; the newest step comes
first. -/
def handouts (id : String) : List (AuditRecord β ρ) → Nat
  | [] => 0
  | x :: older =>
    if requeues id x then 0 else handouts id older + if handsOut id x then 1 else 0

/-- The attempts counted in the row of the event. -/
def AuditTables.tried (db : AuditTables) (id : String) : Nat :=
  (db.outbox.get? id).elim 0 AuditOutbox.attempts

theorem handsOut_eq_false {id : String} {x : AuditRecord β ρ}
    (h : ∀ c, x.reply.claimed = some c → c.eventID ≠ id) : handsOut id x = false := by
  unfold handsOut
  cases hc : x.reply.claimed with
  | none => rfl
  | some c => simpa using h c hc

/-- A step counts its hand-out in the row, and hands out nothing beyond the bound. -/
theorem handouts_step {id : String} (step : AuditStep β ρ)
    (h : handouts id r.hist ≤ min auditMaxAttempts (r.state.tables.tried id)) :
    handouts id (r.step (perform pl maxPending) step).hist ≤
      min auditMaxAttempts ((r.step (perform pl maxPending) step).state.tables.tried id) := by
  have hfate := perform_fate pl maxPending id step r.state
  unfold AuditTables.tried at h ⊢
  rw [Run.step_hist, Run.step_state, handouts]
  split
  · exact Nat.zero_le _
  rename_i hplain
  generalize r.state.tables.outbox.get? id = o at h hfate
  generalize (perform pl maxPending step r.state).2.tables.outbox.get? id = o' at hfate ⊢
  cases hfate with
  | same _ hout => rwa [handsOut_eq_false hout]
  | queued _ hattempts hout =>
    rw [handsOut_eq_false fun c hc => by rw [hout] at hc; cases hc]
    exact h.trans (by simp)
  | claimed hdue hout =>
    rename_i now o
    by_cases hmax : o.attempts + 1 > auditMaxAttempts
    · rw [if_pos hmax] at hout
      rw [handsOut_eq_false fun c hc => by rw [hout] at hc; cases hc]
      simp only [Option.elim_some, AuditOutbox.claimed, Bool.false_eq_true, if_false] at h ⊢
      omega
    · simp only [Option.elim_some, AuditOutbox.claimed] at h ⊢
      split <;> omega
  | delivered _ hout =>
    rwa [handsOut_eq_false fun c hc => by rw [hout] at hc; cases hc]
  | failed _ _ _ _ hout =>
    rwa [handsOut_eq_false fun c hc => by rw [hout] at hc; cases hc]
  | requeued hrequeue hok _ _ => exact absurd (by simp [requeues, hrequeue, hok]) hplain

/-- **The hand-outs since the last requeue are counted in the row, up to the bound.** -/
theorem handouts_run (s : Store β) (steps : List (AuditStep β ρ)) (id : String) :
    handouts id (auditRun pl maxPending s steps).hist ≤
      min auditMaxAttempts ((auditRun pl maxPending s steps).state.tables.tried id) :=
  Run.exec_induct
    (I := fun r : AuditRun β ρ =>
      handouts id r.hist ≤ min auditMaxAttempts (r.state.tables.tried id))
    (fun _ step h => handouts_step step h) steps (Nat.zero_le _)

/-! ## Leases -/

/-- The run has handed out the claim. -/
def HandedOut (c : AuditOutbox) (r : AuditRun β ρ) : Prop := ∃ x ∈ r.hist, x.reply.claimed = some c

/-- A worker returns only what it was handed out. -/
def Returned (step : AuditStep β ρ) (r : AuditRun β ρ) : Prop :=
  ∀ c now, step.action = .failClaim c now → HandedOut c r

/-- What the rows and the claims of a run have to do with each other. -/
structure Leased (pl : Platform) (r : AuditRun β ρ) : Prop where
  /-- a leased row is a claim that was handed out -/
  leased : ∀ o ∈ r.state.tables.outbox.rows, o.state = .leased → HandedOut o r
  drawn : ∀ c, HandedOut c r → ∃ n < r.state.fresh, c.leaseToken = pl.uuid n
  unique : ∀ c c', HandedOut c r → HandedOut c' r → c.leaseToken = c'.leaseToken → c = c'
  /-- a row that waits has an attempt left -/
  pending : ∀ o ∈ r.state.tables.outbox.rows, o.state = .pending → o.attempts < auditMaxAttempts

theorem handedOut_step : HandedOut c (r.step (perform pl maxPending) step) ↔
      (perform pl maxPending step r.state).1.claimed = some c ∨ HandedOut c r := by
  simp [HandedOut]

/-- What a step hands out carries a new token. -/
theorem claimed_token (h : (perform pl maxPending step s).1.claimed = some c) :
    c.leaseToken = pl.uuid s.fresh ∧ s.fresh < (perform pl maxPending step s).2.fresh := by
  obtain ⟨keys, action⟩ := step
  cases action with
  | claim => exact ⟨claim_token h, Nat.lt_succ_self _⟩
  | admission a => simp only [perform] at h; split at h <;> cases h
  | archive => simp only [perform] at h; split at h <;> cases h
  | restoreArchive => simp only [perform] at h; split at h <;> cases h
  | _ => cases h

theorem leased_step (h : Leased pl r) (hstep : Returned step r) :
    Leased pl (r.step (perform pl maxPending) step) := by
  have hfresh : r.state.fresh ≤ (perform pl maxPending step r.state).2.fresh :=
    fresh_perform step r.state
  refine ⟨fun o ho hs => ?_, fun c hc => ?_, fun c c' hc hc' htoken => ?_, fun o ho hs => ?_⟩
  · have hget : (perform pl maxPending step r.state).2.tables.outbox.get? o.eventID = some o :=
      (Table.get?_eq_some_iff _).2 ⟨ho, rfl⟩
    have hfate := perform_fate pl maxPending o.eventID step r.state
    rw [hget] at hfate
    rw [handedOut_step]
    generalize hold : r.state.tables.outbox.get? o.eventID = p at hfate
    cases hfate with
    | same _ _ => exact .inr (h.leased o ((Table.get?_eq_some_iff _).1 hold).1 hs)
    | queued hstate _ _ => rw [hstate] at hs; cases hs
    | claimed hdue hout =>
      rw [if_neg] at hout
      · exact .inl hout
      · intro hmax
        simp [AuditOutbox.claimed, hmax] at hs
    | delivered _ _ => cases hs
    | failed => simp only [AuditOutbox.failed] at hs; split at hs <;> cases hs
    | requeued => cases hs
  · rcases handedOut_step.1 hc with hc | hc
    · exact ⟨r.state.fresh, (claimed_token hc).2, (claimed_token hc).1⟩
    · obtain ⟨n, hn, htoken⟩ := h.drawn c hc
      exact ⟨n, Nat.lt_of_lt_of_le hn hfresh, htoken⟩
  · -- a claim of the past does not carry the token of this step
    have hnew : ∀ c c', (perform pl maxPending step r.state).1.claimed = some c →
        HandedOut c' r → c.leaseToken ≠ c'.leaseToken := by
      intro c c' hc hc' hsame
      obtain ⟨n, hn, htoken⟩ := h.drawn c' hc'
      rw [(claimed_token hc).1, htoken] at hsame
      exact absurd (pl.uuid_injective hsame) (Nat.ne_of_gt hn)
    rcases handedOut_step.1 hc with hc | hc <;> rcases handedOut_step.1 hc' with hc' | hc'
    · exact Option.some.inj (hc.symm.trans hc')
    · exact absurd htoken (hnew c c' hc hc')
    · exact absurd htoken.symm (hnew c' c hc' hc)
    · exact h.unique c c' hc hc' htoken
  · have hget : (perform pl maxPending step r.state).2.tables.outbox.get? o.eventID = some o :=
      (Table.get?_eq_some_iff _).2 ⟨ho, rfl⟩
    have hfate := perform_fate pl maxPending o.eventID step r.state
    rw [hget] at hfate
    generalize hold : r.state.tables.outbox.get? o.eventID = p at hfate
    cases hfate with
    | same _ _ => exact h.pending o ((Table.get?_eq_some_iff _).1 hold).1 hs
    | queued _ hattempts _ => rw [hattempts]; decide
    | claimed _ _ => simp only [AuditOutbox.claimed] at hs; split at hs <;> cases hs
    | delivered _ _ => cases hs
    | failed hfail hid hleased htoken hout =>
      -- the copy that decides is the row
      rename_i c p now
      obtain rfl : c = p := h.unique c p (hstep c now hfail)
        (h.leased p ((Table.get?_eq_some_iff _).1 hold).1 hleased) htoken.symm
      simp only [AuditOutbox.failed] at hs
      split at hs
      · cases hs
      · rename_i hlt
        exact Nat.lt_of_not_le hlt
    | requeued => exact (by decide : 0 < auditMaxAttempts)

/-- **A leased row is the copy the last claim handed out**, in every run whose workers return what
they were handed out. -/
theorem leased_run {s₀ : Store β} (h₀ : s₀.tables.Fresh) {steps : List (AuditStep β ρ)}
    (h : (Run.init s₀ : AuditRun β ρ).Meets (perform pl maxPending) Returned steps) :
    Leased pl (auditRun pl maxPending s₀ steps) := by
  refine Run.exec_induct_meets (I := Leased pl) (fun _ _ h hstep => leased_step h hstep) steps
    ⟨?_, ?_, ?_, ?_⟩ h
  · intro o ho
    rw [show (Run.init s₀ : AuditRun β ρ).state.tables.outbox.rows = [] from h₀.outbox] at ho
    cases ho
  · rintro c ⟨x, hx, -⟩
    cases hx
  · rintro c c' ⟨x, hx, -⟩
    cases hx
  · intro o ho
    rw [show (Run.init s₀ : AuditRun β ρ).state.tables.outbox.rows = [] from h₀.outbox] at ho
    cases ho

/-! ## Dead rows -/

/-- A dead row stays as it is, and its event is not handed out, until it is requeued. -/
theorem dead_run (ho : o ∈ s.tables.outbox.rows) (hdead : o.state = .dead)
    (steps : List (AuditStep β ρ))
    (hplain : ∀ x ∈ (auditRun pl maxPending s steps).hist, requeues o.eventID x = false) :
    o ∈ (auditRun pl maxPending s steps).state.tables.outbox.rows ∧
      ∀ x ∈ (auditRun pl maxPending s steps).hist, handsOut o.eventID x = false := by
  refine Run.exec_induct
    (I := fun r : AuditRun β ρ => (∀ x ∈ r.hist, requeues o.eventID x = false) →
      o ∈ r.state.tables.outbox.rows ∧ ∀ x ∈ r.hist, handsOut o.eventID x = false)
    (fun r step ih hplain => ?_) steps (fun _ => ⟨ho, fun x hx => by cases hx⟩) hplain
  obtain ⟨hmem, hnone⟩ := ih fun x hx => hplain x (List.mem_cons_of_mem _ hx)
  have hnow := hplain _ List.mem_cons_self
  have hfate := perform_fate pl maxPending o.eventID step r.state
  rw [(Table.get?_eq_some_iff _).2 ⟨hmem, rfl⟩] at hfate
  generalize hnew : (perform pl maxPending step r.state).2.tables.outbox.get? o.eventID = o'
    at hfate
  cases hfate with
  | same _ hout =>
    refine ⟨((Table.get?_eq_some_iff _).1 hnew).1, fun x hx => ?_⟩
    rcases List.mem_cons.1 hx with rfl | hx
    · exact handsOut_eq_false hout
    · exact hnone x hx
  | claimed hdue _ => simp [AuditOutbox.due, hdead] at hdue
  | delivered hleased _ => rw [hdead] at hleased; cases hleased
  | failed _ _ hleased _ _ => rw [hdead] at hleased; cases hleased
  | requeued hrequeue hok _ _ => simp [requeues, hrequeue, hok] at hnow

/-! ## The bound -/

/-- After the step the row of the event is dead. -/
def Buries (pl : Platform) (maxPending : Nat) (id : String) (step : AuditStep β ρ) (s : Store β) :
    Prop :=
  ∃ o ∈ (perform pl maxPending step s).2.tables.outbox.rows, o.eventID = id ∧ o.state = .dead

/-- The return of a lease after the last attempt makes the row dead. -/
theorem buries_failClaim {keys : Keys} (ho : o ∈ s.tables.outbox.rows) (hleased : o.state = .leased)
    (hmax : auditMaxAttempts ≤ o.attempts) :
    Buries pl maxPending o.eventID (⟨keys, .failClaim o now⟩ : AuditStep β ρ) s := by
  refine ⟨AuditOutbox.failed o now o, ?_, rfl, by simp [AuditOutbox.failed, hmax]⟩
  refine (Table.mem_update s.tables.outbox _ (AuditOutbox.failed o now) (fun _ => rfl) _).2
    ⟨o, ho, ?_⟩
  rw [if_pos (by simp [hleased])]

/-- The claim that finds a row after the last attempt makes it dead and hands out nothing. -/
theorem buries_claim {keys : Keys} (hrow : s.tables.claimable now locked = some o)
    (hmax : auditMaxAttempts ≤ o.attempts) :
    (perform pl maxPending (⟨keys, .claim now locked⟩ : AuditStep β ρ) s).1.claimed = none ∧
      Buries pl maxPending o.eventID (⟨keys, .claim now locked⟩ : AuditStep β ρ) s := by
  have hstate : (o.claimed now (pl.uuid s.fresh)).state = .dead := by
    simp [AuditOutbox.claimed, Nat.lt_succ_of_le hmax]
  have hclaim : claim now locked (pl.uuid s.fresh) s.tables = (none,
      s.tables.updateOutbox (·.eventID = o.eventID) (AuditOutbox.claimed now (pl.uuid s.fresh))
        fun _ => rfl) := by
    rw [claim, hrow]
    simp only [hstate, if_true]
  simp only [Buries, perform, hclaim]
  refine ⟨trivial, o.claimed now (pl.uuid s.fresh), ?_, rfl, hstate⟩
  exact (Table.mem_update s.tables.outbox _ (AuditOutbox.claimed now (pl.uuid s.fresh))
    (fun _ => rfl) _).2 ⟨o, (claimable_spec hrow).1, by simp⟩

/-- **Delivery attempts are bounded.** In every run, an event is handed out at most eight times
since its admission or its last requeue. If the workers return only what they were handed out, an
event that was handed out eight times and is not delivered is dead, or its row is the last claim
handed out: the return of that claim makes it dead, and so does any claim that finds it, which hands
out nothing. A dead row stays as it is and is not handed out until it is requeued. -/
theorem attempts_bounded {s₀ : Store β} (h₀ : s₀.tables.Fresh) (steps : List (AuditStep β ρ))
    {r : AuditRun β ρ} (hr : r = auditRun pl maxPending s₀ steps) :
    (∀ id, handouts id r.hist ≤ auditMaxAttempts) ∧
    ((Run.init s₀ : AuditRun β ρ).Meets (perform pl maxPending) Returned steps →
      ∀ o ∈ r.state.tables.outbox.rows, handouts o.eventID r.hist = auditMaxAttempts →
        o.state = .delivered ∨ o.state = .dead ∨
        (o.state = .leased ∧ HandedOut o r ∧
          (∀ c, HandedOut c r → c.leaseToken = o.leaseToken → ∀ keys now,
            Buries pl maxPending o.eventID (⟨keys, .failClaim c now⟩ : AuditStep β ρ) r.state) ∧
          ∀ keys now locked, r.state.tables.claimable now locked = some o →
            (perform pl maxPending (⟨keys, .claim now locked⟩ : AuditStep β ρ)
              r.state).1.claimed = none ∧
            Buries pl maxPending o.eventID (⟨keys, .claim now locked⟩ : AuditStep β ρ) r.state)) ∧
    ∀ o ∈ r.state.tables.outbox.rows, o.state = .dead → ∀ later : List (AuditStep β ρ),
      (∀ x ∈ (auditRun pl maxPending r.state later).hist, requeues o.eventID x = false) →
      o ∈ (auditRun pl maxPending r.state later).state.tables.outbox.rows ∧
        ∀ x ∈ (auditRun pl maxPending r.state later).hist, handsOut o.eventID x = false := by
  subst hr
  refine ⟨fun id => (handouts_run s₀ steps id).trans (Nat.min_le_left _ _),
    fun hworkers o ho hall => ?_, fun o ho hdead later hplain => dead_run ho hdead later hplain⟩
  have hleases : Leased pl (auditRun pl maxPending s₀ steps) := leased_run h₀ hworkers
  have hmax : auditMaxAttempts ≤ o.attempts := by
    have hcount : handouts o.eventID (auditRun pl maxPending s₀ steps).hist ≤ _ :=
      handouts_run s₀ steps o.eventID
    rw [AuditTables.tried, (Table.get?_eq_some_iff _).2 ⟨ho, rfl⟩, Option.elim_some] at hcount
    omega
  cases hstate : o.state with
  | delivered => exact .inl rfl
  | dead => exact .inr (.inl rfl)
  | pending => exact absurd hmax (Nat.not_le_of_lt (hleases.pending o ho hstate))
  | leased =>
    have hout := hleases.leased o ho hstate
    refine .inr (.inr ⟨rfl, hout, fun c hc htoken keys now => ?_,
      fun keys now locked hrow => buries_claim hrow hmax⟩)
    obtain rfl := hleases.unique c o hc hout htoken
    exact buries_failClaim ho hstate hmax

/-- An event is admitted, and eight workers claim it in turn and crash. -/
def sampleAttempts : List (AuditStep Unit Unit) :=
  ⟨.sample, .admission .sample⟩ ::
    (List.range 8).map fun n => ⟨.sample, .claim (1000000 + 2 * auditLease * n) fun _ => false⟩

/-- The row after these steps: the eighth lease. -/
def sampleLease : AuditOutbox :=
  (auditRun .plain 1 .sample sampleAttempts).state.tables.outbox.rows.headD sampleClaim

/-- The event of `sampleAttempts` was handed out eight times, and the return of the eighth lease
makes it dead. -/
theorem attempts_bounded_sample :
    handouts sampleLease.eventID (auditRun .plain 1 .sample sampleAttempts).hist = 8 ∧
      Buries .plain 1 sampleLease.eventID
        (⟨.sample, .failClaim sampleLease 0⟩ : AuditStep Unit Unit)
        (auditRun .plain 1 .sample sampleAttempts).state := by
  have hrows : (auditRun .plain 1 .sample sampleAttempts).state.tables.outbox.rows =
      [sampleLease] := rfl
  have hall : handouts sampleLease.eventID (auditRun .plain 1 .sample sampleAttempts).hist =
      auditMaxAttempts := by decide +kernel
  have hmeets : (Run.init .sample : AuditRun Unit Unit).Meets (perform .plain 1) Returned
      sampleAttempts := by
    refine Run.meets_of_forall sampleAttempts (fun step hstep r c now hfail => ?_) _
    simp only [sampleAttempts, List.mem_cons, List.mem_map] at hstep
    rcases hstep with rfl | ⟨n, -, rfl⟩ <;> cases hfail
  obtain ⟨-, hlast, -⟩ := @attempts_bounded Unit Unit .plain 1 .sample fresh_sample
    sampleAttempts _ rfl
  have hstate : sampleLease.state = .leased := by decide +kernel
  rcases hlast hmeets sampleLease (by rw [hrows]; simp) hall with h | h | ⟨-, hout, hfail, -⟩
  · rw [hstate] at h
    cases h
  · rw [hstate] at h
    cases h
  · exact ⟨hall, hfail sampleLease hout rfl .sample 0⟩

end FinnAuth.Audit
