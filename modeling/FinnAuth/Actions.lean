import FinnAuth.Repositories

/-!
# What the actions of a service function do

The rules for the building blocks of `World.lean` and `Repositories.lean`: `wp` for a call that
runs alone, and `Acts` for what a single action can do, whoever runs in between. Every action
leaves the clock alone, only uses up random values, and makes at most one change to the database,
the mails and the signed tokens. A `Footprint` says which ones.

Results:
* `wp_repo`, `wp_kv`, `wp_notify`, …: the transformer on each building block;
* **`each_repo`**, `each_notify`, …: their footprints;
* **`ran_of_each`**: the footprint of every action is the footprint of the run;
* **`wp_runAuditOperation`**, `within_audit`: an audit operation is its body followed by the
  commit or the rollback, and a rollback leaves no trace in the database.
-/

namespace FinnAuth

open Lib Prog

variable {α β : Type}

/-! ## Running alone -/

variable {w : World} {f : DB → Except Err α × Option Stmt} {Q : Except Err α → World → Prop}
  {p : M α} {l : Call} {ctx : Ctx} {e : AuditLog} {before : DB}

@[simp] theorem wp_throw (e : Err) (Q : Except Err α → World → Prop) (w : World) :
    wp (throw e : M α) Q w ↔ Q (.error e) w := Iff.rfl

theorem wp_refuse (c : Bool) (e : Err) (Q : Except Err Unit → World → Prop) (w : World) :
    wp (refuse c e) Q w ↔ (c = true → Q (.error e) w) ∧ (c = false → Q (.ok ()) w) := by
  cases c <;> simp [refuse]

theorem wp_doIf (c : Bool) (p : M Unit) (Q : Except Err Unit → World → Prop) (w : World) :
    wp (doIf c p) Q w ↔ (c = true → wp p Q w) ∧ (c = false → Q (.ok ()) w) := by
  cases c <;> simp [doIf]

theorem wp_refuseAfter (c : Bool) (p : M Unit) (e : Err) (Q : Except Err Unit → World → Prop)
    (w : World) :
    wp (refuseAfter c p e) Q w ↔
      (c = true → wp (p.bind fun _ => .fail e) Q w) ∧ (c = false → Q (.ok ()) w) := by
  cases c <;> simp [refuseAfter]

theorem wp_wrap (s : String) (p : M α) (Q : Except Err α → World → Prop) (w : World) :
    wp (wrap s p) Q w ↔
      wp p (fun r w' => Q (r.mapError (.wrapped s)) w') w := by
  simp only [wrap, bind_def, wp_bind, wp_attempt, thenWp_ok]
  unfold wp
  rcases (p.run w).1 with _ | a
  · rfl
  · rfl

theorem wp_ignore (p : M α) (Q : Except Err Unit → World → Prop) (w : World) :
    wp (ignore p) Q w ↔ wp p (fun _ w' => Q (.ok ()) w') w := by
  simp only [ignore, bind_def, wp_bind, wp_attempt, thenWp_ok]
  rfl

theorem wp_call (l : Call) (f : World → α × World) (Q : Except Err α → World → Prop) (w : World) :
    wp (call l f) Q w ↔ Q (.ok (f w).1) (f w).2 := by
  simp only [call, wp_atomic]

theorem wp_kvAs (l : Call) (f : TtlMap StoreKey → Nat → α × TtlMap StoreKey)
    (Q : Except Err α → World → Prop) (w : World) :
    wp (kvAs l f) Q w ↔
      Q (.ok (f w.store w.now).1) { w with store := (f w.store w.now).2 } := by
  simp only [kvAs, wp_call]

theorem wp_kv (f : TtlMap StoreKey → Nat → α × TtlMap StoreKey)
    (Q : Except Err α → World → Prop) (w : World) :
    wp (kv f) Q w ↔
      Q (.ok (f w.store w.now).1) { w with store := (f w.store w.now).2 } :=
  wp_kvAs .other f Q w

@[simp] theorem wp_getNowAs (l : Call) (Q : Except Err Nat → World → Prop) (w : World) :
    wp (getNowAs l) Q w ↔ Q (.ok w.now) w := by
  simp only [getNowAs, wp_call]

@[simp] theorem wp_getNow (Q : Except Err Nat → World → Prop) (w : World) :
    wp getNow Q w ↔ Q (.ok w.now) w :=
  wp_getNowAs .other Q w

@[simp] theorem wp_draw (Q : Except Err Nat → World → Prop) (w : World) :
    wp draw Q w ↔ Q (.ok w.entropy) { w with entropy := w.entropy + 1 } := by
  simp only [draw, wp_call]

@[simp] theorem fault_db (w : World) : w.fault.2.db = w.db := by
  unfold World.fault; split <;> rfl

@[simp] theorem fault_now (w : World) : w.fault.2.now = w.now := by
  unfold World.fault; split <;> rfl

@[simp] theorem fault_outbox (w : World) : w.fault.2.outbox = w.outbox := by
  unfold World.fault; split <;> rfl

@[simp] theorem fault_entropy (w : World) : w.fault.2.entropy = w.entropy := by
  unfold World.fault; split <;> rfl

@[simp] theorem fault_signed (w : World) : w.fault.2.signed = w.signed := by
  unfold World.fault; split <;> rfl

/-- What a repository call does to the state: at most one statement. -/
structure Executes (o : Option Stmt) (w w' : World) : Prop where
  db : w'.db = w.db.execOpt o
  now : w'.now = w.now
  store : w'.store = w.store
  signed : w'.signed = w.signed
  entropy : w'.entropy = w.entropy
  outbox : w'.outbox = w.outbox
  op : w'.op = w.op
  calm : w.Calm → w'.Calm

/-- The result and the next state of a repository call. -/
def repoStep (f : DB → Except Err α × Option Stmt) (w : World) : Except Err α × World :=
  if w.fault.1 then (.error .db, w.fault.2)
  else ((f w.fault.2.db).1,
    { w.fault.2 with db := w.fault.2.db.execOpt (f w.fault.2.db).2 })

theorem executes_fault (w : World) : Executes none w w.fault.2 := by
  unfold World.fault
  split
  · exact ⟨rfl, rfl, rfl, rfl, rfl, rfl, rfl, fun h => h⟩
  · rename_i b bs hw
    exact ⟨rfl, rfl, rfl, rfl, rfl, rfl, rfl, fun h => by simp [h.faults] at hw⟩

theorem repoStep_fault (h : w.fault.1 = true) :
    (repoStep f w).1 = .error .db ∧ Executes none w (repoStep f w).2 := by
  rw [repoStep, if_pos h]
  exact ⟨rfl, executes_fault w⟩

theorem repoStep_ok (h : w.fault.1 = false) :
    (repoStep f w).1 = (f w.db).1 ∧ Executes (f w.db).2 w (repoStep f w).2 := by
  have hex := executes_fault w
  have hdb : w.fault.2.db = w.db := hex.db
  rw [repoStep, if_neg (by simp [h]), hdb]
  exact ⟨rfl, rfl, hex.now, hex.store, hex.signed, hex.entropy, hex.outbox, hex.op,
    fun hc => ⟨(hex.calm hc).faults, (hex.calm hc).failure⟩⟩

/-- A repository call fails and changes nothing, or it decides on the database as it finds it and
hands over its statement. -/
theorem repo_cases (f : DB → Except Err α × Option Stmt) (w : World) :
    ∃ o, ((repoStep f w).1 = .error .db ∧ o = none ∨ f w.db = ((repoStep f w).1, o)) ∧
      Executes o w (repoStep f w).2 := by
  by_cases hf : w.fault.1 = true
  · exact ⟨none, .inl ⟨(repoStep_fault hf).1, rfl⟩, (repoStep_fault hf).2⟩
  · obtain ⟨hr, hex⟩ := repoStep_ok (f := f) (by simpa using hf)
    exact ⟨(f w.db).2, .inr (by rw [hr]), hex⟩

/-- A repository call, by what it decides and what it does to the state. -/
theorem wp_executes
    (h : ∀ r o w', r = .error .db ∧ o = none ∨ f w.db = (r, o) → Executes o w w' → Q r w') :
    wp (repo l f) Q w := by
  obtain ⟨o, hro, hex⟩ := repo_cases f w
  rw [repo, wp_atomic]
  exact h _ o _ hro hex

/-- A repository call: it fails, or it runs its statement on the world after the draw. -/
theorem wp_repo (l : Call) (f : DB → Except Err α × Option Stmt)
    (Q : Except Err α → World → Prop) (w : World) :
    wp (repo l f) Q w ↔
      (w.fault.1 = true → Q (.error .db) w.fault.2) ∧
      (w.fault.1 = false →
        Q (f w.db).1 { w.fault.2 with db := w.db.execOpt (f w.db).2 }) := by
  simp only [repo, wp_atomic]
  cases w.fault.1 <;> simp [fault_db]

/-- The same, by what the call decides on the database it finds. -/
theorem wp_repo_of (hfail : Q (.error .db) w.fault.2)
    (h : ∀ r o, f w.db = (r, o) → Q r { w.fault.2 with db := w.db.execOpt o }) :
    wp (repo l f) Q w :=
  (wp_repo l f Q w).2 ⟨fun _ => hfail, fun _ => h _ _ rfl⟩

theorem wp_query (l : Call) (f : DB → α) (Q : Except Err α → World → Prop) (w : World) :
    wp (query l f) Q w ↔
      (w.fault.1 = true → Q (.error .db) w.fault.2) ∧
      (w.fault.1 = false → Q (.ok (f w.db)) w.fault.2) := by
  have hdb : { w.fault.2 with db := w.db } = w.fault.2 := by
    unfold World.fault; split <;> rfl
  simp only [query, wp_repo, DB.execOpt, hdb]

theorem wp_notify (m : Mail) (Q : Except Err Unit → World → Prop) (w : World) :
    wp (notify m) Q w ↔
      (w.fault.1 = true → Q (.error .smtp) w.fault.2) ∧
      (w.fault.1 = false →
        Q (.ok ()) { w.fault.2 with outbox := w.fault.2.outbox ++ [m] }) := by
  simp only [notify, wp_atomic]
  cases w.fault.1 <;> simp

/-- An audit operation is its body, then the commit or the rollback. -/
theorem wp_runAuditOperation (p : M α) (Q : Except Err α → World → Prop) (w : World) :
    wp (runAuditOperation p) Q w ↔
      wp p (fun r w₁ => Q (closeAudit w.db r w₁).1 (closeAudit w.db r w₁).2)
        { w with op := {} } := by
  have h : wp (runAuditOperation p) Q w ↔
      wp (p.attempt.bind fun r => .atomic .other (closeAudit w.db r)) Q { w with op := {} } :=
    Iff.rfl
  rw [h, wp_bind, wp_attempt]
  simp only [thenWp_ok, wp_atomic]

/-- The results that may be committed. -/
def Commits : Except Err α → Prop
  | .ok _ => True
  | .error e => auditDenial e = true

/-- The operation commits and returns what its body returned, or it fails and leaves no trace in
the database. -/
theorem closeAudit_cases (before : DB) (r : Except Err α) (w : World) :
    (closeAudit before r w = (r, w.fault.2) ∧ Commits r) ∨
      ∃ e, closeAudit before r w = (.error e, { w.fault.2 with db := before }) := by
  unfold closeAudit
  rcases w.fault with ⟨failed, w'⟩
  simp only
  split
  · exact .inr ⟨_, rfl⟩
  rcases r with e | a
  · simp only
    split
    · rename_i h
      exact .inl ⟨rfl, ((Bool.and_eq_true _ _).mp h).1⟩
    · exact .inr ⟨e, rfl⟩
  · exact .inl ⟨rfl, trivial⟩

/-- The database after an audit operation is that of its body, or the one before. -/
theorem wp_audit_db {I : Except Err α → DB → Prop}
    (h : wp p (fun r w₁ => Commits r → I r w₁.db) { w with op := {} })
    (hb : ∀ e, I (.error e) w.db) : wp (runAuditOperation p) (fun r w' => I r w'.db) w := by
  rw [wp_runAuditOperation]
  refine wp_mono h fun r w₁ h₁ => ?_
  rcases closeAudit_cases w.db r w₁ with ⟨hc, hr⟩ | ⟨e, hc⟩
  · rw [hc, fault_db]
    exact h₁ hr
  · rw [hc]
    exact hb e

/-! ## Without failures -/

theorem fault_nil (h : w.faults = []) : w.fault = (false, w) := by
  unfold World.fault
  rw [h]

theorem World.Calm.fault (h : w.Calm) : w.fault = (false, w) := fault_nil h.faults

theorem wp_repo_calm (h : w.faults = []) :
    wp (repo l f) Q w ↔ Q (f w.db).1 { w with db := w.db.execOpt (f w.db).2 } := by
  rw [wp_repo, fault_nil h]
  simp

theorem wp_query_calm {f : DB → α} (h : w.faults = []) :
    wp (query l f) Q w ↔ Q (.ok (f w.db)) w := by
  rw [wp_query, fault_nil h]
  simp

theorem wp_notify_calm {m : Mail} {Q : Except Err Unit → World → Prop} (h : w.faults = []) :
    wp (notify m) Q w ↔ Q (.ok ()) { w with outbox := w.outbox ++ [m] } := by
  rw [wp_notify, fault_nil h]
  simp

/-- Without failures an event is admitted. -/
theorem wp_record_calm (hw : w.faults = []) {Q : Except Err Unit → World → Prop} :
    wp (record ctx e) Q w ↔ Q (.ok ()) { w with
      db := w.db.exec (.insertAudit { e with tenantID := ctx.tenant })
      op := { w.op with admissions := w.op.admissions + 1
                        successful := w.op.successful || e.success } } := by
  rw [record, wp_call]
  simp [fault_nil hw]

theorem closeAudit_ok {a : α} (h : w.Calm) : closeAudit before (.ok a) w = (.ok a, w) := by
  simp [closeAudit, h.fault, h.failure]

theorem closeAudit_denied {e : Err} (h : w.Calm) (he : auditDenial e = true)
    (hop : w.op.denialMayCommit = true) :
    closeAudit before (.error e : Except Err α) w = (.error e, w) := by
  simp [closeAudit, h.fault, h.failure, he, hop]

theorem closeAudit_undone {e : Err} (h : w.Calm)
    (he : (auditDenial e && w.op.denialMayCommit) = false) :
    closeAudit before (.error e : Except Err α) w = (.error e, { w with db := before }) := by
  simp [closeAudit, h.fault, h.failure, he]

/-! ## What one action can do -/

/-- What a function may do: the labels of its actions, its statements, the mails it sends and the
store keys it reads or writes. -/
structure Footprint where
  label : Call → Prop
  stmt : Stmt → Prop
  mail : Mail → Prop
  key : StoreKey → Prop

variable {F : Footprint}

/-- What every footprint here contains: unlabelled calls and those that only mark a place, reads of
a user row, keys without authority. -/
structure Footprint.Basic (F : Footprint) : Prop where
  other : F.label .other
  site : ∀ s, F.label (.site s)
  findUser : ∀ id, F.label (.findUser id)
  key : ∀ k, k.plain = true → F.key k

/-- The part of it that functions outside the TOTP service need. -/
structure Footprint.Core (F : Footprint) : Prop where
  other : F.label .other
  findUser : ∀ id, F.label (.findUser id)
  key : ∀ k, (k.plain && !k.factor) = true → F.key k

theorem Footprint.Basic.core (h : F.Basic) : F.Core where
  other := h.other
  findUser := h.findUser
  key k hk := h.key k ((Bool.and_eq_true _ _).mp hk).1

instance {F : Footprint} : Coe F.Basic F.Core := ⟨Footprint.Basic.core⟩

/-- What most footprints contain: also audit rows, and mails without a token. -/
structure Footprint.Quiet (F : Footprint) : Prop extends F.Basic where
  audit : ∀ e, F.stmt (.insertAudit e)
  mail : ∀ m, m.token? = none → F.mail m

instance {F : Footprint} : Coe F.Quiet F.Basic := ⟨Footprint.Quiet.toBasic⟩

/-- The part of it that functions outside the TOTP service need. -/
structure Footprint.Calm (F : Footprint) : Prop extends F.Core where
  audit : ∀ e, F.stmt (.insertAudit e)
  mail : ∀ m, m.token? = none → F.mail m

theorem Footprint.Quiet.calm (h : F.Quiet) : F.Calm where
  toCore := h.toBasic.core
  audit := h.audit
  mail := h.mail

instance {F : Footprint} : Coe F.Quiet F.Calm := ⟨Footprint.Quiet.calm⟩

instance {F : Footprint} : Coe F.Calm F.Core := ⟨Footprint.Calm.toCore⟩

/-- No restriction at all. -/
def anything : Footprint := ⟨fun _ => True, fun _ => True, fun _ => True, fun _ => True⟩

theorem anything_quiet : anything.Quiet where
  other := trivial
  site _ := trivial
  findUser _ := trivial
  key _ _ := trivial
  audit _ := trivial
  mail _ _ := trivial

/-- One action within the footprint. -/
structure Acts (F : Footprint) (l : Call) (w w' : World) : Prop where
  label : F.label l
  now : w'.now = w.now
  entropy : w.entropy ≤ w'.entropy
  signed : w'.signed = w.signed ∨ ∃ c, l = .sign c ∧ w'.signed = w.signed ++ [c]
  outbox : w'.outbox = w.outbox ∨ ∃ m, F.mail m ∧ w'.outbox = w.outbox ++ [m]
  store : ∀ k, ¬ F.key k → w'.store.data k = w.store.data k
  db : w'.db = w.db ∨ ∃ s, F.stmt s ∧ w'.db = w.db.exec s
  calm : w.Calm → w'.Calm
  op : (∃ e, F.stmt (.insertAudit e)) ∨ w'.op = w.op
  latch : w.op.latched = true → w'.op.latched = true

variable {F : Footprint} {P : Call → World → World → Prop} {w' : World} {c : Bool} {I : DB → Prop}

theorem acts_refl (hl : F.label l) (w : World) : Acts F l w w :=
  ⟨hl, rfl, Nat.le.refl, .inl rfl, .inl rfl, fun _ _ => rfl, .inl rfl, id, .inr rfl, id⟩

theorem acts_fault (hl : F.label l) (w : World) : Acts F l w w.fault.2 := by
  unfold World.fault
  split
  · exact acts_refl hl w
  · rename_i b bs hw
    exact ⟨hl, rfl, Nat.le.refl, .inl rfl, .inl rfl, fun _ _ => rfl, .inl rfl,
      fun h => by simp [h.faults] at hw, .inr rfl, id⟩

/-- **The footprint of a repository call** is its label and its statement. -/
theorem each_repo (hl : F.label l) (hs : ∀ db s, (f db).2 = some s → F.stmt s) :
    Each (Acts F) (repo l f) := by
  refine each_atomic fun w => ?_
  have h := acts_fault hl w
  have hdb := fault_db w
  rcases hw : w.fault with ⟨failed, w'⟩
  rw [hw] at h hdb
  simp only at h hdb ⊢
  split
  · exact h
  · refine ⟨hl, h.now, h.entropy, h.signed, h.outbox, h.store, ?_, fun hc => ?_, h.op, h.latch⟩
    · rw [hdb]
      cases ho : (f w.db).2 with
      | none => exact .inl rfl
      | some s => exact .inr ⟨s, hs _ _ ho, rfl⟩
    · exact ⟨(h.calm hc).faults, (h.calm hc).failure⟩

theorem each_query {f : DB → α} (hl : F.label l) : Each (Acts F) (query l f) :=
  each_repo hl (by simp)

theorem each_ownedWrite {id : UserID} {s : DB → Stmt} (hl : F.label l) (hs : ∀ db, F.stmt (s db)) :
    Each (Acts F) (ownedWrite l ctx id s) := by
  refine each_repo hl fun db s' h => ?_
  split at h
  · exact Option.some.inj h ▸ hs db
  · simp at h

theorem each_usersUpdate {id : UserID} {w : UserWrite} (hl : F.label l)
    (hs : F.stmt (.updateUser ctx id w)) : Each (Acts F) (usersUpdate l ctx id w) :=
  each_ownedWrite hl fun _ => hs

theorem each_usersUpdateUnique {user : User} {conflict : DB → Option String} {w : UserWrite}
    (ho : F.label .other) (hs : F.stmt (.updateUser ctx user.id w)) :
    Each (Acts F) (usersUpdateUnique ctx user conflict w) := by
  refine each_repo ho fun db s h => ?_
  split at h
  · simp at h
  · split at h
    · simp at h
    · exact Option.some.inj h ▸ hs

theorem each_kvAs {f : TtlMap StoreKey → Nat → α × TtlMap StoreKey} (hl : F.label l)
    (hk : ∀ m now k, ¬ F.key k → (f m now).2.data k = m.data k) : Each (Acts F) (kvAs l f) :=
  each_atomic fun w => ⟨hl, rfl, Nat.le.refl, .inl rfl, .inl rfl, hk w.store w.now, .inl rfl,
    fun h => ⟨h.faults, h.failure⟩, .inr rfl, id⟩

theorem each_kv {f : TtlMap StoreKey → Nat → α × TtlMap StoreKey} (ho : F.label .other)
    (hk : ∀ m now k, ¬ F.key k → (f m now).2.data k = m.data k) : Each (Acts F) (kv f) :=
  each_kvAs ho hk

theorem ne_of_key {k k' : StoreKey} (hk : F.key k) (hk' : ¬ F.key k') : k' ≠ k :=
  fun h => hk' (h ▸ hk)

theorem each_storeCounterValueAs {k : StoreKey} (hl : F.label l) (hk : F.key k) :
    Each (Acts F) (storeCounterValueAs l k) :=
  each_bind (each_kvAs hl fun _ now _ hn => TtlMap.get_data_ne now (ne_of_key hk hn))
    fun _ => trivial

section Store

variable {k : StoreKey} (ho : F.label .other) (hk : F.key k)
include ho hk

variable {ttl : Nat}

theorem each_storeIncrBy {d : Int} : Each (Acts F) (storeIncrBy k d ttl) :=
  each_kv ho fun _ now _ hn => TtlMap.incrBy_data_ne now d ttl (ne_of_key hk hn)

theorem each_storeSet {v : Val} : Each (Acts F) (storeSet k v ttl) :=
  each_kv ho fun _ now _ hn => TtlMap.set_data_ne now v ttl (ne_of_key hk hn)

theorem each_storeSetNX {v : Val} : Each (Acts F) (storeSetNX k v ttl) :=
  each_kv ho fun _ now _ hn => TtlMap.setNX_data_ne now v ttl (ne_of_key hk hn)

theorem each_storeGet : Each (Acts F) (storeGet k) :=
  each_kv ho fun _ now _ hn => TtlMap.get_data_ne now (ne_of_key hk hn)

theorem each_storeTake : Each (Acts F) (storeTake k) :=
  each_kv ho fun _ now _ hn => TtlMap.take_data_ne now (ne_of_key hk hn)

theorem each_storeDelete : Each (Acts F) (storeDelete k) :=
  each_kv ho fun _ _ _ hn => TtlMap.delete_data_ne (ne_of_key hk hn)

theorem each_storeCounterValue : Each (Acts F) (storeCounterValue k) :=
  each_storeCounterValueAs ho hk

end Store

theorem each_getNowAs (hl : F.label l) : Each (Acts F) (getNowAs l) :=
  each_atomic fun w => acts_refl hl w

theorem each_getNow (ho : F.label .other) : Each (Acts F) getNow := each_getNowAs ho

theorem each_draw (ho : F.label .other) : Each (Acts F) draw :=
  each_atomic fun _ => ⟨ho, rfl, Nat.le_succ _, .inl rfl, .inl rfl, fun _ _ => rfl, .inl rfl,
    fun h => ⟨h.faults, h.failure⟩, .inr rfl, id⟩

theorem each_notify {m : Mail} (ho : F.label .other) (hm : F.mail m) :
    Each (Acts F) (notify m) := by
  refine each_atomic fun w => ?_
  have h := acts_fault ho w
  have hout := fault_outbox w
  rcases hw : w.fault with ⟨failed, w'⟩
  rw [hw] at h hout
  simp only at h hout ⊢
  split
  · exact h
  · exact ⟨ho, h.now, h.entropy, h.signed, .inr ⟨m, hm, by rw [hout]⟩, h.store, h.db,
      fun hc => ⟨(h.calm hc).faults, (h.calm hc).failure⟩, h.op, h.latch⟩

theorem each_record (hq : F.Calm) : Each (Acts F) (record ctx e) := by
  refine each_atomic fun w => ?_
  have h := acts_fault hq.other w
  have hdb := fault_db w
  simp only
  rcases hw : w.fault with ⟨failed, w'⟩
  rw [hw] at h hdb
  split
  · rename_i hf
    refine ⟨hq.other, h.now, h.entropy, h.signed, h.outbox, h.store, h.db, fun hc => ?_,
      .inl ⟨e, hq.audit e⟩, fun _ => rfl⟩
    rw [hc.fault] at hw
    cases hw
    simp at hf
  · refine ⟨hq.other, h.now, h.entropy, h.signed, h.outbox, h.store,
      .inr ⟨_, hq.audit _, by rw [← hdb]⟩, fun hc => ⟨(h.calm hc).faults, (h.calm hc).failure⟩,
      .inl ⟨e, hq.audit e⟩, fun hl => ?_⟩
    have hl' := h.latch hl
    simp only [Operation.latched, Bool.or_eq_true] at hl' ⊢
    exact hl'.imp_right .inl

theorem each_throw (e : Err) : Each P (throw e : M α) := trivial

theorem each_refuse (c : Bool) (e : Err) : Each P (refuse c e) := by
  cases c <;> trivial

theorem each_doIf {p : M Unit} (hp : Each P p) : Each P (doIf c p) := by
  cases c
  · trivial
  · exact hp

theorem each_refuseAfter {p : M Unit} {e : Err} (hp : Each P p) : Each P (refuseAfter c p e) := by
  cases c
  · trivial
  · exact each_bind hp fun _ => trivial

theorem each_wrap {s : String} (hp : Each P p) : Each P (wrap s p) := by
  refine each_bind (each_attempt hp) fun r => ?_
  cases r <;> trivial

theorem each_ignore (hp : Each P p) : Each P (ignore p) :=
  each_bind (each_attempt hp) fun _ => trivial

/-! ## What a whole run can do -/

/-- One statement of the footprint. -/
def Footprint.Exec (F : Footprint) (db db' : DB) : Prop := ∃ s, F.stmt s ∧ db' = db.exec s

/-- A run within the footprint. -/
structure Ran (F : Footprint) (w w' : World) : Prop where
  now : w'.now = w.now
  entropy : w.entropy ≤ w'.entropy
  signed : ∃ cs, w'.signed = w.signed ++ cs ∧ ∀ c ∈ cs, F.label (.sign c)
  outbox : ∃ ms, w'.outbox = w.outbox ++ ms ∧ ∀ m ∈ ms, F.mail m
  store : ∀ k, ¬ F.key k → w'.store.data k = w.store.data k
  db : Relation.ReflTransGen F.Exec w.db w'.db
  calm : w.Calm → w'.Calm

theorem Ran.refl (w : World) : Ran F w w :=
  ⟨rfl, Nat.le.refl, ⟨[], by simp, by simp⟩, ⟨[], by simp, by simp⟩, fun _ _ => rfl, .refl, id⟩

theorem Ran.trans {w w' w'' : World} (h : Ran F w w') (h' : Ran F w' w'') : Ran F w w'' := by
  obtain ⟨cs, hcs, hc⟩ := h.signed
  obtain ⟨cs', hcs', hc'⟩ := h'.signed
  obtain ⟨ms, hms, hm⟩ := h.outbox
  obtain ⟨ms', hms', hm'⟩ := h'.outbox
  refine ⟨h'.now.trans h.now, Nat.le_trans h.entropy h'.entropy, ⟨cs ++ cs', ?_, ?_⟩,
    ⟨ms ++ ms', ?_, ?_⟩, fun k hk => (h'.store k hk).trans (h.store k hk), h.db.trans h'.db,
    fun hc => h'.calm (h.calm hc)⟩
  · rw [hcs', hcs, List.append_assoc]
  · exact fun c hmem => (List.mem_append.1 hmem).elim (hc c) (hc' c)
  · rw [hms', hms, List.append_assoc]
  · exact fun m hmem => (List.mem_append.1 hmem).elim (hm m) (hm' m)

/-- A run within a footprint is one within any larger footprint. -/
theorem Ran.mono {F' : Footprint} (h : Ran F w w')
    (hl : ∀ c, F.label (.sign c) → F'.label (.sign c)) (hs : ∀ s, F.stmt s → F'.stmt s)
    (hm : ∀ m, F.mail m → F'.mail m) (hk : ∀ k, F.key k → F'.key k) : Ran F' w w' := by
  obtain ⟨cs, hcs, hc⟩ := h.signed
  obtain ⟨ms, hms, hmem⟩ := h.outbox
  have hexec : F.Exec ≤ F'.Exec := fun _ _ ⟨s, h, heq⟩ => ⟨s, hs s h, heq⟩
  exact ⟨h.now, h.entropy, ⟨cs, hcs, fun c hc' => hl c (hc c hc')⟩,
    ⟨ms, hms, fun m hm' => hm m (hmem m hm')⟩, fun k hk' => h.store k fun h => hk' (hk k h),
    Relation.ReflTransGen.mono hexec _ _ h.db, h.calm⟩

theorem Acts.ran (h : Acts F l w w') : Ran F w w' := by
  refine ⟨h.now, h.entropy, ?_, ?_, h.store, ?_, h.calm⟩
  · rcases h.signed with hs | ⟨c, hl, hs⟩
    · exact ⟨[], by simpa using hs, by simp⟩
    · exact ⟨[c], hs, by simpa using hl ▸ h.label⟩
  · rcases h.outbox with hs | ⟨m, hm, hs⟩
    · exact ⟨[], by simpa using hs, by simp⟩
    · exact ⟨[m], hs, by simpa using hm⟩
  · rcases h.db with hd | hd
    · rw [hd]
    · exact .single hd

theorem exec_keeps {db db' : DB} (h : Relation.ReflTransGen F.Exec db db')
    (hI : ∀ db s, F.stmt s → I db → I (db.exec s)) (hdb : I db) : I db' := by
  induction h with
  | refl => exact hdb
  | tail _ hs ih =>
    obtain ⟨s, hs, rfl⟩ := hs
    exact hI _ s hs ih

/-- What every statement of the footprint keeps, the run keeps. -/
theorem Ran.keeps (h : Ran F w w') (hI : ∀ db s, F.stmt s → I db → I (db.exec s)) (hw : I w.db) :
    I w'.db :=
  exec_keeps h.db hI hw

/-- A part of the database that no statement of the footprint changes. -/
theorem Ran.same {γ : Type} {f : DB → γ} (h : Ran F w w')
    (hf : ∀ db s, F.stmt s → f (db.exec s) = f db) : f w'.db = f w.db :=
  h.keeps (fun db s hs hI => (hf db s hs).trans hI) rfl

/-- The function stays within the footprint whenever it runs alone. -/
def Within (F : Footprint) (p : M α) : Prop := ∀ w, Ran F w (p.run w).2

/-- **The footprint of every action is the footprint of the run.** -/
theorem within_of_each (h : Each (Acts F) p) : Within F p :=
  fun w => run_of_each Ran.refl Ran.trans (h.mono fun _ _ _ ha => ha.ran) w

/-- A function that records nothing leaves the running operation alone. -/
theorem op_of_each (h : Each (Acts F) p) (hno : ∀ e, ¬ F.stmt (.insertAudit e)) (w : World) :
    (p.run w).2.op = w.op := by
  refine run_of_each (R := fun w w' : World => w'.op = w.op) (fun _ => rfl)
    (fun h h' => h'.trans h) (h.mono fun _ _ _ ha => ?_) w
  rcases ha.op with ⟨e, he⟩ | hop
  · exact absurd he (hno e)
  · exact hop

theorem within_bind {f : α → M β} (hp : Within F p) (hf : ∀ a, Within F (f a)) :
    Within F (p.bind f) := by
  intro w
  have h := hp w
  rw [run_bind]
  rcases hr : p.run w with ⟨e | a, w'⟩
  · rwa [hr] at h
  · rw [hr] at h
    exact h.trans (hf a w')

theorem wp_of_within (h : Within F p) (hQ : ∀ r w', Ran F w w' → Q r w') : wp p Q w :=
  hQ _ _ (h w)

/-- Recording an event never fails the caller. -/
theorem wp_record (hq : F.Quiet) {Q : Except Err Unit → World → Prop}
    (hQ : ∀ w', Ran F w w' → Q (.ok ()) w') : wp (record ctx e) Q w := by
  exact hQ _ (by simpa [record, call, run_atomic] using within_of_each (each_record hq) w)

theorem ran_fault (w : World) : Ran F w w.fault.2 := by
  unfold World.fault
  split
  · exact .refl w
  · rename_i b bs hw
    exact ⟨rfl, Nat.le.refl, ⟨[], by simp, by simp⟩, ⟨[], by simp, by simp⟩, fun _ _ => rfl, .refl,
      fun h => by simp [h.faults] at hw⟩

theorem ran_op (w : World) (op : Operation) (h : op.failure = false) :
    Ran F w { w with op := op } :=
  ⟨rfl, Nat.le.refl, ⟨[], by simp, by simp⟩, ⟨[], by simp, by simp⟩, fun _ _ => rfl, .refl,
    fun hc => ⟨hc.faults, h⟩⟩

/-- **An audit operation stays within the footprint of its body**: a rollback leaves no trace in
the database. -/
theorem ran_audit (h : Ran F { w with op := {} } (p.run { w with op := {} }).2) :
    Ran F w ((runAuditOperation p).run w).2 := by
  have hw : wp (runAuditOperation p) (fun _ w' => Ran F w w') w := by
    rw [wp_runAuditOperation]
    refine wp_mono (show wp p (fun _ w₁ => Ran F { w with op := {} } w₁) _ from h) fun r w₁ h₁ => ?_
    have h₂ : Ran F w w₁.fault.2 := ((ran_op w {} rfl).trans h₁).trans (ran_fault w₁)
    rcases closeAudit_cases w.db r w₁ with ⟨hc, -⟩ | ⟨e, hc⟩
    · rw [hc]
      exact h₂
    · rw [hc]
      exact ⟨h₂.now, h₂.entropy, h₂.signed, h₂.outbox, h₂.store, .refl,
        fun h => ⟨(h₂.calm h).faults, (h₂.calm h).failure⟩⟩
  exact hw

theorem within_audit (hp : Within F p) : Within F (runAuditOperation p) :=
  fun _ => ran_audit (hp _)

theorem within_admitBeforeExternal (hq : F.Quiet) : Within F (admitBeforeExternal ctx e) :=
  within_audit (within_of_each (each_record hq))

/-- Without failures the evidence is admitted. -/
theorem wp_admitBeforeExternal (hq : F.Quiet) {Q : Except Err Unit → World → Prop}
    (hw : w.faults = []) (hQ : ∀ w', Ran F w w' → w'.Calm → Q (.ok ()) w') :
    wp (admitBeforeExternal ctx e) Q w := by
  rw [admitBeforeExternal, wp_runAuditOperation]
  refine wp_record hq fun w₁ h₁ => ?_
  have hcalm : w₁.Calm := h₁.calm ⟨hw, rfl⟩
  rw [closeAudit_ok hcalm]
  exact hQ w₁ ((ran_op w {} rfl).trans h₁) hcalm

/-! ## Successful results -/

/-- If the function succeeds, its result and the state after it are as `Q` says. -/
def Gives (Q : α → World → Prop) (p : M α) (w : World) : Prop :=
  wp p (fun r w' => ∀ a, r = .ok a → Q a w') w

section Gives

variable {P : α → World → Prop} {Q : β → World → Prop} {w : World}

theorem gives_ret {b : β} (h : Q b w) : Gives Q (.ret b) w := fun _ hb => by cases hb; exact h

theorem gives_fail (e : Err) : Gives Q (.fail e) w := fun _ h => by cases h

theorem Gives.mono {Q' : β → World → Prop} {p : M β} (h : Gives Q p w)
    (hQ : ∀ b w', Q b w' → Q' b w') : Gives Q' p w :=
  wp_mono h fun _ _ h' b hb => hQ b _ (h' b hb)

theorem gives_seq {f : α → M β} (h : Gives (fun a w' => Gives Q (f a) w') p w) :
    Gives Q (p >>= f) w := by
  refine wp_seq (wp_mono h fun r w₁ h₁ => ?_)
  cases r with
  | error e => exact fun _ h => by cases h
  | ok a => exact h₁ a rfl

theorem gives_then {f : α → M β} (hp : Gives P p w) (hf : ∀ a w', P a w' → Gives Q (f a) w') :
    Gives Q (p >>= f) w :=
  gives_seq (hp.mono hf)

/-- What comes before stays within a footprint. -/
theorem gives_after {f : α → M β} (hp : Each (Acts F) p)
    (hf : ∀ a w', Ran F w w' → Gives Q (f a) w') : Gives Q (p >>= f) w :=
  gives_seq (wp_of_within (within_of_each hp) fun _ w' h a _ => hf a w' h)

/-- What comes after stays within a footprint. -/
theorem gives_before {f : α → M β} (hp : Gives P p w) (hf : ∀ a, Each (Acts F) (f a))
    (hQ : ∀ a b w₁ w', P a w₁ → Ran F w₁ w' → Q b w') : Gives Q (p >>= f) w :=
  gives_then hp fun a w₁ ha =>
    wp_of_within (within_of_each (hf a)) fun _ w' h b _ => hQ a b w₁ w' ha h

theorem gives_refuse {Q : Unit → World → Prop} {e : Err} (h : c = false → Q () w) :
    Gives Q (refuse c e) w := by
  cases c with
  | true => exact gives_fail e
  | false => exact gives_ret (h rfl)

theorem gives_failAfter (e : Err) : Gives Q (p >>= fun _ => .fail e) w := by
  have hfails : Gives (fun _ w' => Gives Q (.fail e) w') p w := fun _ _ => gives_fail e
  exact gives_seq hfails

theorem gives_refuseAfter {Q : Unit → World → Prop} {p : M Unit} {e : Err}
    (h : c = false → Q () w) : Gives Q (refuseAfter c p e) w := by
  cases c with
  | true => exact gives_failAfter e
  | false => exact gives_ret (h rfl)

/-- A call whose error is looked at. -/
theorem gives_attempt {f : Except Err α → M β} (h : wp p (fun r w' => Gives Q (f r) w') w) :
    Gives Q (p.attempt >>= f) w :=
  wp_seq ((wp_attempt _ _ _).2 h)

/-- A repository call that succeeds handed over its statement. -/
theorem gives_repo {f : DB → Except Err β × Option Stmt}
    (h : ∀ b o w', f w.db = (.ok b, o) → Executes o w w' → Q b w') : Gives Q (repo l f) w := by
  refine wp_executes fun r o w' hr hex b hb => ?_
  subst hb
  rcases hr with ⟨hr, -⟩ | hr
  · cases hr
  · exact h b o w' hr hex

/-- An audit operation that succeeds has committed. -/
theorem gives_audit {p : M β} (h : Gives Q p { w with op := {} })
    (hQ : ∀ b w', Q b w' → Q b w'.fault.2) : Gives Q (runAuditOperation p) w := by
  unfold Gives
  rw [wp_runAuditOperation]
  refine wp_mono h fun r w₁ h₁ b hb => ?_
  rcases closeAudit_cases w.db r w₁ with ⟨hc, -⟩ | ⟨e, hc⟩
  · rw [hc] at hb ⊢
    exact hQ b w₁ (h₁ b hb)
  · rw [hc] at hb
    cases hb

end Gives

/-! ## Invariants of the database inside a call -/

/-- The function keeps the invariant, and its result is as `P` says. -/
def Yields (I : DB → Prop) (P : α → Prop) (p : M α) : Prop :=
  ∀ w, I w.db → wp p (fun r w' => I w'.db ∧ ∀ a, r = .ok a → P a) w

section Yields

variable {I : DB → Prop} {P : α → Prop} {Q : β → Prop}

theorem yields_ret {a : α} (h : P a) : Yields I P (.ret a) := by
  intro w hw
  exact ⟨hw, fun _ ha => by cases ha; exact h⟩

theorem yields_fail (e : Err) : Yields I P (.fail e) := by
  intro w hw
  exact ⟨hw, fun _ h => by cases h⟩

theorem yields_bind {f : α → M β} (hp : Yields I P p) (hf : ∀ a, P a → Yields I Q (f a)) :
    Yields I Q (p >>= f) := by
  intro w hw
  refine wp_seq (wp_mono (hp w hw) fun r w₁ h₁ => ?_)
  cases r with
  | error e => exact ⟨h₁.1, fun _ h => by cases h⟩
  | ok a => exact hf a (h₁.2 a rfl) w₁ h₁.1

theorem yields_of_each (hI : ∀ db s, F.stmt s → I db → I (db.exec s)) (h : Each (Acts F) p) :
    Yields I (fun _ => True) p := by
  intro w hw
  exact wp_of_within (within_of_each h) fun _ _ hr => ⟨hr.keeps hI hw, fun _ _ => trivial⟩

theorem yields_wrap {s : String} (hp : Yields I P p) : Yields I P (wrap s p) := by
  intro w hw
  rw [wp_wrap]
  refine wp_mono (hp w hw) fun r w' h => ⟨h.1, fun a ha => ?_⟩
  cases r with
  | error e => cases ha
  | ok b => exact h.2 a ha

theorem yields_query {f : DB → α} (h : ∀ db, I db → P (f db)) : Yields I P (query l f) := by
  intro w hw
  refine wp_executes fun r o w' hr hex => ?_
  rcases hr with ⟨rfl, rfl⟩ | hr
  · exact ⟨by rw [hex.db]; exact hw, fun _ h => by cases h⟩
  · cases hr
    refine ⟨by rw [hex.db]; exact hw, fun a ha => ?_⟩
    cases ha
    exact h _ hw

theorem yields_audit (hp : Yields I P p) : Yields I P (runAuditOperation p) := by
  intro w hw
  rw [wp_runAuditOperation]
  refine wp_mono (hp { w with op := {} } hw) fun r w₁ h₁ => ?_
  rcases closeAudit_cases w.db r w₁ with ⟨hc, -⟩ | ⟨e, hc⟩
  · rw [hc, fault_db]
    exact h₁
  · rw [hc]
    exact ⟨hw, fun _ h => by cases h⟩

end Yields

end FinnAuth
