import FinnAuth.Lib.Tx
import FinnAuth.Actions

/-!
# Service calls in their own transactions

`AuditRepository.AuditOperation` (`audit_outbox.go`) runs a service body in one SQL transaction. Run
alone that is `runAuditOperation`. Side by side with others, `auditTx` is the same body as a program
whose statements stay its own until it ends: a query sees what the others have committed and the
call's own statements on top, and the last action commits them or drops them. The store, the mails
and the signed tokens are shared at once, and the error latch belongs to the call.

A statement is noted and carried out at the commit. The database would run it at once and keep its
row locked until the commit, which is the same for a statement that another transaction's commit
cannot turn into a refusal; a compare-and-set is not covered here.

Results:
* **`run_auditTx`**: with nobody in between, `auditTx` is `runAuditOperation`;
* `safe_auditTx`, **`safeTx_repo_fault`**, `safeTx_acts`: the rules for a pool of such calls.
-/

namespace FinnAuth

open Lib Prog Protocol

/-- An action of a call in its own transaction: a call of the body, or the end of the operation
after a body that returned a result or an error. -/
inductive TxCall : Type where
  | call (l : Call)
  | close (ok : Bool)
  deriving DecidableEq, Repr

/-- What a transaction keeps to itself. -/
def txPart : Part World (DB × Operation) where
  get w := (w.db, w.op)
  set x w := { w with db := x.1, op := x.2 }
  get_set _ _ := rfl
  set_get _ := rfl
  set_set _ _ _ := rfl

/-- The statements and admissions noted so far. -/
abbrev Noted := DB × Operation → DB × Operation

/-- Nothing noted yet: `database.BindOperation` starts with an empty operation. -/
def opened : Noted := fun x => (x.1, {})

/-- A history of calls in transactions. -/
abbrev TxShared := View World TxCall Outside

variable {α β : Type} {r : Except Err α}

/-- The end of the transaction: the noted statements are committed or dropped, as `closeAudit`
decides. -/
def closeTx (c : Noted) (r : Except Err α) (w : World) : Except Err α × World :=
  ((closeAudit w.db r (txPart.own c w)).1,
    { (closeAudit w.db r (txPart.own c w)).2 with op := w.op })

/-- `AuditOperation` around a service body, side by side with others. -/
def auditTx (p : M α) : Prog World TxCall Err α :=
  p.inTx txPart .call opened >>= fun x => .atomic (.close x.1.isOk) (closeTx x.2 x.1)

/-- **Alone, a call in its transaction is the audit operation** of its body. -/
theorem run_auditTx (p : M α) (w : World) :
    (auditTx p).run w =
      (((runAuditOperation p).run w).1, { ((runAuditOperation p).run w).2 with op := w.op }) := by
  obtain ⟨c, hrun, hc⟩ := run_inTx txPart TxCall.call p opened w
  have hown : txPart.own opened w = { w with op := {} } := rfl
  rw [hown] at hrun hc
  have hbody : (runAuditOperation p).run w =
      closeAudit w.db (p.run { w with op := {} }).1 (p.run { w with op := {} }).2 := by
    have hact : (runAuditOperation p).run w =
      (p.attempt.bind fun r => .atomic .other (closeAudit w.db r)).run { w with op := {} } := rfl
    rw [hact, run_bind, run_attempt]
    simp only [run_atomic]
  have hend : txPart.own c (txPart.set (txPart.get w) (p.run { w with op := {} }).2) =
      (p.run { w with op := {} }).2 := by
    rw [Part.own, txPart.get_set, txPart.set_set, hc, txPart.set_get]
  rw [hbody]
  change ((p.inTx txPart TxCall.call opened).bind _).run w = _
  rw [run_bind, hrun]
  simp only [run_atomic, closeTx, hend]
  rfl

/-! ## The end of a transaction -/

/-- The end of a transaction commits what was noted, or changes nothing and returns an error. -/
theorem closeTx_cases (c : Noted) (r : Except Err α) (w : World) :
    ((closeTx c r w).1 = r ∧ (closeTx c r w).2.db = (c (w.db, w.op)).1 ∧
      (∀ e, r = .error e → (c (w.db, w.op)).2.denialMayCommit = true)) ∨
    ((closeTx c r w).2.db = w.db ∧ ∃ e, (closeTx c r w).1 = .error e) := by
  unfold closeTx closeAudit
  have hdb := fault_db (txPart.own c w)
  have hop : (txPart.own c w).fault.2.op = (c (w.db, w.op)).2 := by
    unfold World.fault; split <;> rfl
  rcases hw : (txPart.own c w).fault with ⟨failed, w'⟩
  rw [hw] at hdb hop
  simp only at hdb hop ⊢
  split
  · exact .inr ⟨rfl, _, rfl⟩
  rcases r with e | a
  · simp only
    split
    · rename_i h
      simp only [Bool.and_eq_true] at h
      exact .inl ⟨rfl, hdb, fun _ _ => hop ▸ h.2⟩
    · exact .inr ⟨rfl, e, rfl⟩
  · exact .inl ⟨rfl, hdb, fun _ h => by cases h⟩

/-- The part of the next fault in a transaction is that of the shared state. -/
theorem fault_set (x : DB × Operation) (w : World) :
    (txPart.set x w).fault = (w.fault.1, txPart.set x w.fault.2) := by
  unfold World.fault
  cases h : w.faults with
  | nil => simp [txPart, h]
  | cons b bs => simp [txPart, h]

theorem fault_get (w : World) : txPart.get w.fault.2 = txPart.get w := by
  unfold World.fault
  split <;> rfl

/-- Beyond the database the end of a transaction changes nothing. -/
theorem closeTx_rest (c : Noted) (r : Except Err α) (w : World) :
    ∃ d, (closeTx c r w).2 = txPart.set (d, w.op) w.fault.2 := by
  simp only [closeTx, closeAudit, Part.own, fault_set]
  split
  · exact ⟨_, rfl⟩
  · rcases r with e | a
    · simp only
      split <;> exact ⟨_, rfl⟩
    · exact ⟨_, rfl⟩

theorem closeTx_outbox (c : Noted) (r : Except Err α) (w : World) :
    (closeTx c r w).2.outbox = w.outbox := by
  obtain ⟨d, hd⟩ := closeTx_rest c r w
  rw [hd]
  exact fault_outbox w

theorem closeTx_signed (c : Noted) (r : Except Err α) (w : World) :
    (closeTx c r w).2.signed = w.signed := by
  obtain ⟨d, hd⟩ := closeTx_rest c r w
  rw [hd]
  exact (executes_fault w).signed

theorem closeTx_faults {c : Noted} {w : World} (h : w.faults = []) :
    (closeTx c r w).2.faults = [] := by
  obtain ⟨d, hd⟩ := closeTx_rest c r w
  rw [hd, fault_nil h]
  exact h

/-- A failed admission ends in `ErrUnavailable`. -/
theorem closeTx_failed {c : Noted} {w : World} (h : (c (w.db, w.op)).2.failure = true) :
    (closeTx c r w).1 = .error .unavailable := by
  have hop : (txPart.own c w).fault.2.op = (c (w.db, w.op)).2 := by
    unfold World.fault; split <;> rfl
  simp only [closeTx, closeAudit, hop, h, Bool.true_or, if_true]

/-! ## Rules for a pool -/

variable {S : Protocol World TxCall Outside} {i : Nat} {v : TxShared} {c : Noted} {F : Footprint}
  {f : DB → Except Err α × Option Stmt} {A : TxShared → Prop} {p : M α}
  {Q : Except Err α → Noted → TxShared → Prop} {e : AuditLog}

/-- The protocol along a whole call: its body, then the commit or the rollback. -/
theorem safe_auditTx {η : Type} {S : Protocol World TxCall η} {v : View World TxCall η}
    {Q : Except Err α → View World TxCall η → Prop}
    (h : S.SafeTx txPart .call i
      (fun r c v => S.Safe i Q (.atomic (.close r.isOk) (closeTx c r)) v) p opened v) :
    S.Safe i Q (auditTx p) v := by
  refine safe_bind h (fun x v' hx => ?_) fun e v' hx => ?_
  · obtain ⟨r, c, hx, h⟩ := hx
    obtain rfl := Except.ok.inj hx
    exact h
  · obtain ⟨_, _, hx, _⟩ := hx
    cases hx

/-- What the rest `f` of a body owes, as a postcondition of the part before it. -/
def thenTx (S : Protocol World TxCall Outside) (i : Nat) (f : α → M β)
    (Q : Except Err β → Noted → TxShared → Prop) : Except Err α → Noted → TxShared → Prop
  | .ok a, c, v => S.SafeTx txPart .call i Q (f a) c v
  | .error e, c, v => Q (.error e) c v

theorem safeTx_seq {Q : Except Err β → Noted → TxShared → Prop} {f : α → M β}
    (h : S.SafeTx txPart .call i (thenTx S i f Q) p c v) :
    S.SafeTx txPart .call i Q (p >>= f) c v :=
  safeTx_bind h (fun _ _ _ h => h) fun _ _ _ h => h

/-- An action inside a transaction leaves the committed database alone. -/
structure Inside (w w' : World) : Prop where
  db : w'.db = w.db
  op : w'.op = w.op
  faults : w'.faults = w.faults

/-- The noted changes after a repository call that does not fail. -/
def Noted.after (c : Noted) (f : DB → Except Err α × Option Stmt) : Noted :=
  fun x => ((c x).1.execOpt (f (c x).1).2, (c x).2)

/-- **A repository call inside a transaction**: it fails, or it decides on what the call sees and
its statement is noted. The others see neither. -/
theorem safeTx_repo_fault {l : Call} (hA : A v) (hst : S.Stable i A)
    (h : ∀ v', S.inv v' → A v' → S.ok i (.call l) v' →
      S.Step i v' (v'.act i (.call l) fun w => w.fault.2) ∧
        (v'.state.fault.1 = true → Q (.error .db) c (v'.act i (.call l) fun w => w.fault.2)) ∧
        (v'.state.fault.1 = false → Q (f (c (v'.state.db, v'.state.op)).1).1 (c.after f)
          (v'.act i (.call l) fun w => w.fault.2))) : S.SafeTx txPart .call i Q (repo l f) c v := by
  refine safeTx_atomic hA hst fun v' hi hA hok => ?_
  have hrepo : ∀ x, repoStep f (txPart.set (c x) v'.state) =
      if v'.state.fault.1 then (.error .db, txPart.set (c x) v'.state.fault.2)
      else ((f (c x).1).1, txPart.set (c.after f x) v'.state.fault.2) := by
    intro x
    simp only [repoStep, fault_set]
    rfl
  have hback : ∀ y, txPart.set (txPart.get v'.state) (txPart.set y v'.state.fault.2) =
      v'.state.fault.2 := by
    intro y
    rw [txPart.set_set, ← fault_get, txPart.set_get]
  have hact : v'.act i (.call l) (fun s => txPart.set (txPart.get s)
      (repoStep f (txPart.own c s)).2) = v'.act i (.call l) fun w => w.fault.2 := by
    have hstate : txPart.set (txPart.get v'.state) (repoStep f (txPart.own c v'.state)).2 =
        v'.state.fault.2 := by
      rw [Part.own, hrepo]
      split <;> exact hback _
    simp only [View.act, hstate]
  obtain ⟨hs, hfail, hdone⟩ := h v' hi hA hok
  rw [← hact] at hs hfail hdone
  refine ⟨hs, ?_⟩
  change Q (repoStep f (txPart.own c v'.state)).1
    (fun x => txPart.get (repoStep f (txPart.set (c x) v'.state)).2) _
  simp only [Part.own, hrepo]
  cases hf : v'.state.fault.1 with
  | true => exact hfail hf
  | false => exact hdone hf

/-- The same where no call fails. -/
theorem safeTx_repo {l : Call} (hA : A v) (hst : S.Stable i A)
    (hcalm : ∀ v, S.inv v → v.state.faults = [])
    (h : ∀ v', S.inv v' → A v' → S.ok i (.call l) v' →
      S.Step i v' (v'.act i (.call l) id) ∧
        Q (f (c (v'.state.db, v'.state.op)).1).1 (c.after f) (v'.act i (.call l) id)) :
    S.SafeTx txPart .call i Q (repo l f) c v := by
  refine safeTx_repo_fault hA hst fun v' hi hA hok => ?_
  have hnil := fault_nil (hcalm v' hi)
  have hact : v'.act i (.call l) (fun w => w.fault.2) = v'.act i (.call l) id := by
    simp only [View.act, hnil, id]
  obtain ⟨hs, hq⟩ := h v' hi hA hok
  rw [hact, hnil]
  exact ⟨hs, fun hf => (by cases hf), fun _ => hq⟩

/-- The noted changes after an event was recorded. -/
def Noted.recorded (c : Noted) (ctx : Ctx) (e : AuditLog) : Noted :=
  fun x => ((c x).1.exec (.insertAudit { e with tenantID := ctx.tenant }),
    { (c x).2 with admissions := (c x).2.admissions + 1
                   successful := (c x).2.successful || e.success })

/-- An event recorded inside a transaction, where no call fails. -/
theorem safeTx_record {Q : Except Err Unit → Noted → TxShared → Prop} {ctx : Ctx} (hA : A v)
    (hst : S.Stable i A) (hcalm : ∀ v, S.inv v → v.state.faults = [])
    (h : ∀ v', S.inv v' → A v' → S.Step i v' (v'.act i (.call .other) id) ∧
      Q (.ok ()) (c.recorded ctx e) (v'.act i (.call .other) id)) :
    S.SafeTx txPart .call i Q (record ctx e) c v := by
  refine safeTx_atomic hA hst fun v' hi hA _ => ?_
  have hf : ∀ x, (txPart.set (c x) v'.state).fault = (false, txPart.set (c x) v'.state) :=
    fun x => fault_nil (hcalm v' hi)
  have hact : ∀ g, g v'.state = v'.state →
      v'.act i (.call .other) g = v'.act i (.call .other) id := by
    intro g hg
    simp only [View.act, hg, id]
  obtain ⟨hs, hq⟩ := h v' hi hA
  rw [hact]
  · simp only [Part.own, hf]
    exact ⟨hs, hq⟩
  · simp only [Part.own, hf]
    rfl

/-- What an action within the footprint does to the noted changes. -/
structure Notes (F : Footprint) (c c' : Noted) : Prop where
  db : ∀ x, (c' x).1 = (c x).1 ∨ ∃ s, F.stmt s ∧ (c' x).1 = (c x).1.exec s
  latch : ∀ x, (c x).2.latched = true → (c' x).2.latched = true

/-- No admission of the call has failed. -/
def Noted.Calm (c : Noted) : Prop := ∀ x, (c x).2.failure = false

theorem opened_calm : opened.Calm := fun _ => rfl

theorem Noted.Calm.after (h : c.Calm) : (c.after f).Calm := h

theorem Noted.Calm.recorded {ctx : Ctx} (h : c.Calm) : (c.recorded ctx e).Calm := h

/-- **A stretch of a body within a footprint**, where no call fails: the committed database stays,
and a fact about the noted changes that the statements of the footprint keep is kept. -/
theorem safeTx_acts {J : Noted → Prop} (hp : Each (Acts F) p) (hA : A v) (hst : S.Stable i A)
    (hc : c.Calm) (hJ : J c) (hcalm : ∀ v, S.inv v → v.state.faults = [])
    (hstep : ∀ l g v', S.inv v' → A v' → Inside v'.state (g v'.state) →
      S.Step i v' (v'.act i (.call l) g) ∧ A (v'.act i (.call l) g))
    (hnote : ∀ c c', J c → Notes F c c' → J c') :
    S.SafeTx txPart .call i (fun _ c' v' => A v' ∧ Noted.Calm c' ∧ J c') p c v := by
  refine (safeTx_each (A := A) (J := fun c => Noted.Calm c ∧ J c) hp hA ⟨hc, hJ⟩ hst ?_).mono
    fun _ _ _ h => h
  intro l f c v' hi hA hcJ hf _
  obtain ⟨hc, hJ⟩ := hcJ
  have hfaults := hcalm v' hi
  have hcalm' : ∀ x, (f (txPart.set (c x) v'.state)).Calm :=
    fun x => (hf (txPart.set (c x) v'.state)).calm ⟨hfaults, hc x⟩
  have hin : Inside v'.state (txPart.set (txPart.get v'.state) (f (txPart.own c v'.state))) :=
    ⟨rfl, rfl, ((hcalm' _).faults).trans hfaults.symm⟩
  obtain ⟨hs, hA'⟩ := hstep l (fun s => txPart.set (txPart.get s) (f (txPart.own c s))) v' hi hA hin
  refine ⟨hs, hA', fun x => (hcalm' x).failure, hnote c _ hJ ⟨fun x => ?_, fun x => ?_⟩⟩
  · exact (hf (txPart.set (c x) v'.state)).db
  · exact (hf (txPart.set (c x) v'.state)).latch

end FinnAuth
