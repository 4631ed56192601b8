import FinnAuth.Lib.Pool

/-!
# Programs inside a transaction

A transaction keeps one part of the shared state to itself until it commits. `Part` names that part;
`inTx` runs a program in a transaction: every action reads the committed part with the program's own
changes on top, its effect on the part is only noted, and its effect on the rest of the state is
shared at once. What has been noted is a function of the committed part, so that it can be applied
to whatever is committed at the end.

Results:
* **`run_inTx`**: with nobody in between, the program does in a transaction what it does alone;
* `safeTx_bind`, `safeTx_attempt`, **`safeTx_atomic`**, `safeTx_each`: the rules of `Pool.lean` for
  a program inside a transaction.
-/

namespace FinnAuth.Lib

/-- A part `δ` of a state `σ` that can be read and replaced. -/
structure Part (σ δ : Type) where
  get : σ → δ
  set : δ → σ → σ
  get_set : ∀ d s, get (set d s) = d
  set_get : ∀ s, set (get s) s = s
  set_set : ∀ d e s, set d (set e s) = set d s

variable {σ ℓ ℓ' ε δ η α β : Type}

/-- The state as the transaction with the noted changes `c` sees it. -/
def Part.own (L : Part σ δ) (c : δ → δ) (s : σ) : σ := L.set (c (L.get s)) s

namespace Prog

variable (L : Part σ δ) (lab : ℓ → ℓ')

/-- The program under other labels. -/
def relabel : Prog σ ℓ ε α → Prog σ ℓ' ε α
  | ret a => ret a
  | fail e => fail e
  | act l f k => act (lab l) f fun s => relabel (k s)

/-- The program inside a transaction that has noted the changes `c`. It ends with the result of the
program and with what is to be committed. -/
def inTx : Prog σ ℓ ε α → (δ → δ) → Prog σ ℓ' ε (Except ε α × (δ → δ))
  | ret a, c => ret (.ok a, c)
  | fail e, c => ret (.error e, c)
  | act l f k, c =>
    act (lab l) (fun s => L.set (L.get s) (f (L.own c s))) fun s =>
      inTx (k (L.own c s)) fun d => L.get (f (L.set (c d) s))

/-- **Alone, a program does in a transaction what it does outside**: the same result, the same
effect on the rest of the state, and the part it would have left is what it has noted. -/
theorem run_inTx (p : Prog σ ℓ ε α) (c : δ → δ) (s : σ) :
    ∃ c', (p.inTx L lab c).run s =
        (.ok ((p.run (L.own c s)).1, c'), L.set (L.get s) (p.run (L.own c s)).2) ∧
      c' (L.get s) = L.get (p.run (L.own c s)).2 := by
  induction p generalizing c s with
  | ret a => exact ⟨c, by simp [inTx, run, Part.own, L.set_set, L.set_get], (L.get_set _ _).symm⟩
  | fail e => exact ⟨c, by simp [inTx, run, Part.own, L.set_set, L.set_get], (L.get_set _ _).symm⟩
  | act l f k ih =>
    -- after the action the transaction sees what the program alone would see
    have hget : L.get (L.set (L.get s) (f (L.own c s))) = L.get s := L.get_set _ _
    have hown : L.own (fun d => L.get (f (L.set (c d) s))) (L.set (L.get s) (f (L.own c s))) =
        f (L.own c s) := by
      rw [Part.own, hget, L.set_set]
      exact L.set_get _
    obtain ⟨c', hrun, hc'⟩ := ih (L.own c s) (fun d => L.get (f (L.set (c d) s)))
      (L.set (L.get s) (f (L.own c s)))
    rw [hown, hget] at hrun hc'
    exact ⟨c', hrun, hc'⟩

theorem inTx_bind (p : Prog σ ℓ ε α) (f : α → Prog σ ℓ ε β) (c : δ → δ) :
    (p.bind f).inTx L lab c = (p.inTx L lab c).bind fun x =>
      match x with
      | (.ok a, c') => (f a).inTx L lab c'
      | (.error e, c') => ret (.error e, c') := by
  induction p generalizing c with
  | ret a => rfl
  | fail e => rfl
  | act l g k ih => simp only [bind, inTx, ih]

theorem inTx_attempt (p : Prog σ ℓ ε α) (c : δ → δ) :
    p.attempt.inTx L lab c = (p.inTx L lab c).bind fun x => ret (.ok x.1, x.2) := by
  induction p generalizing c with
  | ret a => rfl
  | fail e => rfl
  | act l g k ih => simp only [attempt, bind, inTx, ih]

end Prog

/-! ## Transactions in a pool -/

namespace Protocol

open Prog

variable {S : Protocol σ ℓ' η} {L : Part σ δ} {lab : ℓ → ℓ'} {i : Nat} {c : δ → δ}
  {v : View σ ℓ' η}

/-- Program `i` keeps the protocol while `p` runs in its transaction, and ends with a result and
noted changes as `Q` says. -/
def SafeTx (S : Protocol σ ℓ' η) (L : Part σ δ) (lab : ℓ → ℓ') (i : Nat)
    (Q : Except ε α → (δ → δ) → View σ ℓ' η → Prop) (p : Prog σ ℓ ε α) (c : δ → δ)
    (v : View σ ℓ' η) : Prop :=
  S.Safe i (fun r v' => ∃ a c', r = .ok (a, c') ∧ Q a c' v') (p.inTx L lab c) v

variable {Q : Except ε α → (δ → δ) → View σ ℓ' η → Prop} {p : Prog σ ℓ ε α} {A : View σ ℓ' η → Prop}
  {P : ℓ → σ → σ → Prop}

theorem safeTx_ret {a : α} (h : Q (.ok a) c v) :
    S.SafeTx L lab i Q (ret a : Prog σ ℓ ε α) c v :=
  ⟨_, _, rfl, h⟩

theorem safeTx_fail {e : ε} (h : Q (.error e) c v) :
    S.SafeTx L lab i Q (fail e : Prog σ ℓ ε α) c v :=
  ⟨_, _, rfl, h⟩

theorem SafeTx.mono {Q' : Except ε α → (δ → δ) → View σ ℓ' η → Prop} (h : S.SafeTx L lab i Q p c v)
    (hQ : ∀ r c' v', Q r c' v' → Q' r c' v') : S.SafeTx L lab i Q' p c v := by
  refine Safe.mono h fun r v' hr => ?_
  obtain ⟨a, c', rfl, h⟩ := hr
  exact ⟨a, c', rfl, hQ a c' v' h⟩

theorem safeTx_bind {Q' : Except ε β → (δ → δ) → View σ ℓ' η → Prop} {f : α → Prog σ ℓ ε β}
    (hp : S.SafeTx L lab i Q p c v)
    (hok : ∀ a c' v', Q (.ok a) c' v' → S.SafeTx L lab i Q' (f a) c' v')
    (herr : ∀ e c' v', Q (.error e) c' v' → Q' (.error e) c' v') :
    S.SafeTx L lab i Q' (p.bind f) c v := by
  unfold SafeTx
  rw [inTx_bind]
  refine safe_bind hp (fun x v' hx => ?_) fun e v' hx => ?_
  · obtain ⟨a, c', hx, h⟩ := hx
    obtain rfl := Except.ok.inj hx
    cases a with
    | ok a => exact hok a c' v' h
    | error e => exact ⟨_, _, rfl, herr e c' v' h⟩
  · obtain ⟨_, _, hx, _⟩ := hx
    cases hx

theorem safeTx_attempt {Q : Except ε (Except ε α) → (δ → δ) → View σ ℓ' η → Prop}
    (hp : S.SafeTx L lab i (fun r c' v' => Q (.ok r) c' v') p c v) :
    S.SafeTx L lab i Q p.attempt c v := by
  unfold SafeTx
  rw [inTx_attempt]
  refine safe_bind hp (fun x v' hx => ?_) fun e v' hx => ?_
  · obtain ⟨a, c', hx, h⟩ := hx
    obtain rfl := Except.ok.inj hx
    exact ⟨_, _, rfl, h⟩
  · obtain ⟨_, _, hx, _⟩ := hx
    cases hx

theorem safeTx_ofExcept {r : Except ε α} (h : Q r c v) :
    S.SafeTx L lab i Q (ofExcept r : Prog σ ℓ ε α) c v := by
  cases r with
  | ok a => exact safeTx_ret h
  | error e => exact safeTx_fail h

/-- **One atomic action of a transaction** under a stable assertion: it decides on what the
transaction sees, and notes what it would have done to any committed part. -/
theorem safeTx_atomic {l : ℓ} {f : σ → Except ε α × σ} (hA : A v) (hst : S.Stable i A)
    (h : ∀ v', S.inv v' → A v' → S.ok i (lab l) v' →
      S.Step i v' (v'.act i (lab l) fun s => L.set (L.get s) (f (L.own c s)).2) ∧
        Q (f (L.own c v'.state)).1 (fun d => L.get (f (L.set (c d) v'.state)).2)
          (v'.act i (lab l) fun s => L.set (L.get s) (f (L.own c s)).2)) :
    S.SafeTx L lab i Q (atomic l f) c v := by
  intro v' hr hi hok
  obtain ⟨hs, hq⟩ := h v' hi (hst hA hr) hok
  exact ⟨hs, safeTx_ofExcept hq⟩

/-- A stretch of actions that keep the protocol, an assertion on the view and a fact about the noted
changes. -/
theorem safeTx_each {J : (δ → δ) → Prop} (hp : p.Each P) (hA : A v) (hJ : J c) (hst : S.Stable i A)
    (h : ∀ l (f : σ → σ) c v', S.inv v' → A v' → J c → (∀ s, P l s (f s)) → S.ok i (lab l) v' →
      S.Step i v' (v'.act i (lab l) fun s => L.set (L.get s) (f (L.own c s))) ∧
        A (v'.act i (lab l) fun s => L.set (L.get s) (f (L.own c s))) ∧
        J fun d => L.get (f (L.set (c d) v'.state))) :
    S.SafeTx L lab i (fun _ c' v' => A v' ∧ J c') p c v := by
  induction p generalizing c v with
  | ret a => exact safeTx_ret ⟨hA, hJ⟩
  | fail e => exact safeTx_fail ⟨hA, hJ⟩
  | act l f k ih =>
    intro v' hr hi hok
    obtain ⟨hs, hA', hJ'⟩ := h l f c v' hi (hst hA hr) hJ hp.1 hok
    exact ⟨hs, ih _ (hp.2 _) hA' hJ'⟩

/-- A program outside any transaction, under other labels. -/
theorem safe_relabel (hp : p.Each P) (hA : A v) (hst : S.Stable i A)
    (h : ∀ l f v', S.inv v' → A v' → P l v'.state (f v'.state) → S.ok i (lab l) v' →
      S.Step i v' (v'.act i (lab l) f) ∧ A (v'.act i (lab l) f)) :
    S.Safe i (fun _ v' => A v') (p.relabel lab) v := by
  induction p generalizing v with
  | ret a => exact hA
  | fail e => exact hA
  | act l f k ih =>
    intro v' hr hi hok
    obtain ⟨hs, hA'⟩ := h l f v' hi (hst hA hr) (hp.1 v'.state) hok
    exact ⟨hs, ih _ (hp.2 v'.state) hA'⟩

end Protocol

end FinnAuth.Lib
