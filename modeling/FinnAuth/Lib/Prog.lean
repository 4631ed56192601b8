import Mathlib.Logic.Relation

/-!
# Programs of atomic actions over a shared state

`Prog σ ℓ ε α` is a sequential program that shares the state `σ` with others: it returns a value,
fails with an error, or performs one atomic action and goes on. An action carries a label, the
state change it makes and the continuation, which sees the state the action was taken in. The
same program is read in two ways:

* alone, from start to end: `run`, with the predicate transformer `wp`;
* one action at a time, with other programs in between: that is `Pool.lean`.

Results:
* **`wp_bind`**, `wp_atomic`, `wp_attempt`: the transformer computes through the program text;
* `each_bind_returns`: what the rest of a program does, on the results it can be given;
* **`run_of_each`**: what every single action does, the whole run does (`Each`), for a reflexive
  and transitive relation. This is how a frame condition is proved of a long program without
  walking its branches.
-/

namespace FinnAuth.Lib

/-- A program over the shared state `σ` with labels `ℓ`, errors `ε` and result `α`. -/
inductive Prog (σ ℓ ε α : Type) : Type where
  | ret (a : α)
  | fail (e : ε)
  | act (l : ℓ) (f : σ → σ) (k : σ → Prog σ ℓ ε α)

namespace Prog

variable {σ ℓ ε α β : Type} {p : Prog σ ℓ ε α} {f : α → Prog σ ℓ ε β} {s : σ}
  {Q Q' : Except ε α → σ → Prop}

/-- Sequencing: a failure skips the rest. -/
def bind : Prog σ ℓ ε α → (α → Prog σ ℓ ε β) → Prog σ ℓ ε β
  | ret a, f => f a
  | fail e, _ => fail e
  | act l g k, f => act l g fun s => bind (k s) f

instance : Monad (Prog σ ℓ ε) where
  pure := ret
  bind := bind

/-- The error of a program as a value: `err` in hand instead of an early return. -/
def attempt : Prog σ ℓ ε α → Prog σ ℓ ε (Except ε α)
  | ret a => ret (.ok a)
  | fail e => ret (.error e)
  | act l g k => act l g fun s => attempt (k s)

/-- A computed result. -/
def ofExcept : Except ε α → Prog σ ℓ ε α
  | .ok a => ret a
  | .error e => fail e

/-- One atomic action that computes its result and the next state. -/
def atomic (l : ℓ) (f : σ → Except ε α × σ) : Prog σ ℓ ε α :=
  act l (fun s => (f s).2) fun s => ofExcept (f s).1

/-- The program has returned a value. -/
def isRet : Prog σ ℓ ε α → Bool
  | ret _ => true
  | fail _ => false
  | act _ _ _ => false

/-- What the program has returned. -/
def value? : Prog σ ℓ ε α → Option α
  | ret a => some a
  | fail _ => none
  | act _ _ _ => none

/-- The whole program, with nobody in between. -/
def run : Prog σ ℓ ε α → σ → Except ε α × σ
  | ret a, s => (.ok a, s)
  | fail e, s => (.error e, s)
  | act _ f k, s => run (k s) (f s)

/-- The result and the state after the run satisfy `Q`. -/
def wp (p : Prog σ ℓ ε α) (Q : Except ε α → σ → Prop) (s : σ) : Prop :=
  Q (p.run s).1 (p.run s).2

/-! ## The shape of a program -/

@[simp] theorem pure_def (a : α) : (pure a : Prog σ ℓ ε α) = ret a := rfl

@[simp] theorem bind_def (p : Prog σ ℓ ε α) (f : α → Prog σ ℓ ε β) : p >>= f = bind p f := rfl

@[simp] theorem bind_ret (a : α) (f : α → Prog σ ℓ ε β) : bind (ret a) f = f a := rfl

@[simp] theorem bind_fail (e : ε) (f : α → Prog σ ℓ ε β) : bind (fail e) f = fail e := rfl

@[simp] theorem bind_act (l : ℓ) (g : σ → σ) (k : σ → Prog σ ℓ ε α) (f : α → Prog σ ℓ ε β) :
    bind (act l g k) f = act l g fun s => bind (k s) f := rfl

theorem bind_assoc {γ : Type} (p : Prog σ ℓ ε α) (f : α → Prog σ ℓ ε β) (g : β → Prog σ ℓ ε γ) :
    bind (bind p f) g = bind p fun a => bind (f a) g := by
  induction p with
  | ret a => rfl
  | fail e => rfl
  | act l h k ih => exact congrArg (act l h) (funext ih)

@[simp] theorem ofExcept_ok (a : α) : ofExcept (.ok a) = (ret a : Prog σ ℓ ε α) := rfl

@[simp] theorem ofExcept_error (e : ε) : ofExcept (.error e) = (fail e : Prog σ ℓ ε α) := rfl

/-! ## Running a program alone -/

theorem run_bind (p : Prog σ ℓ ε α) (f : α → Prog σ ℓ ε β) (s : σ) :
    (bind p f).run s =
      match p.run s with
      | (.ok a, s') => (f a).run s'
      | (.error e, s') => (.error e, s') := by
  induction p generalizing s with
  | ret a => rfl
  | fail e => rfl
  | act l g k ih => exact ih s (g s)

theorem run_bind_of_ok {a : α} {s s' : σ} (h : p.run s = (.ok a, s')) :
    (bind p f).run s = (f a).run s' := by
  rw [run_bind, h]

/-- The first part of a program that succeeds has succeeded. -/
theorem ok_of_run_bind {b : β} {s s' : σ} (h : (bind p f).run s = (.ok b, s')) :
    ∃ a s₁, p.run s = (.ok a, s₁) ∧ (f a).run s₁ = (.ok b, s') := by
  rw [run_bind] at h
  rcases hp : p.run s with ⟨_ | a, s₁⟩
  · rw [hp] at h
    cases h
  · rw [hp] at h
    exact ⟨a, s₁, rfl, h⟩

theorem run_attempt (p : Prog σ ℓ ε α) (s : σ) :
    (attempt p).run s = (.ok (p.run s).1, (p.run s).2) := by
  induction p generalizing s with
  | ret a => rfl
  | fail e => rfl
  | act l g k ih => exact ih s (g s)

@[simp] theorem run_ofExcept (r : Except ε α) (s : σ) :
    (ofExcept r : Prog σ ℓ ε α).run s = (r, s) := by
  cases r <;> rfl

@[simp] theorem run_atomic (l : ℓ) (f : σ → Except ε α × σ) (s : σ) :
    (atomic l f).run s = f s := by
  simp [atomic, run]

/-! ## The transformer -/

@[simp] theorem wp_ret (a : α) (Q : Except ε α → σ → Prop) (s : σ) :
    wp (ret a : Prog σ ℓ ε α) Q s ↔ Q (.ok a) s := Iff.rfl

@[simp] theorem wp_fail (e : ε) (Q : Except ε α → σ → Prop) (s : σ) :
    wp (fail e : Prog σ ℓ ε α) Q s ↔ Q (.error e) s := Iff.rfl

@[simp] theorem wp_ofExcept (r : Except ε α) (Q : Except ε α → σ → Prop) (s : σ) :
    wp (ofExcept r : Prog σ ℓ ε α) Q s ↔ Q r s := by
  unfold wp; rw [run_ofExcept]

@[simp] theorem wp_atomic (l : ℓ) (f : σ → Except ε α × σ) (Q : Except ε α → σ → Prop) (s : σ) :
    wp (atomic l f) Q s ↔ Q (f s).1 (f s).2 := by
  unfold wp; rw [run_atomic]

/-- The postcondition that a bind hands to its first part. -/
def thenWp (f : α → Prog σ ℓ ε β) (Q : Except ε β → σ → Prop) : Except ε α → σ → Prop
  | .ok a, s => wp (f a) Q s
  | .error e, s => Q (.error e) s

@[simp] theorem thenWp_ok (f : α → Prog σ ℓ ε β) (Q : Except ε β → σ → Prop) (a : α) (s : σ) :
    thenWp f Q (.ok a) s ↔ wp (f a) Q s := Iff.rfl

@[simp] theorem thenWp_error (f : α → Prog σ ℓ ε β) (Q : Except ε β → σ → Prop) (e : ε) (s : σ) :
    thenWp f Q (.error e) s ↔ Q (.error e) s := Iff.rfl

/-- **The transformer computes through a bind.** -/
theorem wp_bind (p : Prog σ ℓ ε α) (f : α → Prog σ ℓ ε β) (Q : Except ε β → σ → Prop) (s : σ) :
    wp (bind p f) Q s ↔ wp p (thenWp f Q) s := by
  unfold wp
  rw [run_bind]
  rcases p.run s with ⟨_ | a, s'⟩
  · rfl
  · rfl

/-- The same rule, read backwards. -/
theorem wp_seq {Q : Except ε β → σ → Prop} (h : wp p (thenWp f Q) s) : wp (p >>= f) Q s :=
  (wp_bind p f Q s).2 h

theorem wp_attempt (p : Prog σ ℓ ε α) (Q : Except ε (Except ε α) → σ → Prop) (s : σ) :
    wp (attempt p) Q s ↔ wp p (fun r s' => Q (.ok r) s') s := by
  unfold wp
  rw [run_attempt]

theorem wp_mono (h : wp p Q s) (hQ : ∀ r s', Q r s' → Q' r s') : wp p Q' s :=
  hQ _ _ h

theorem wp_and (h : wp p Q s) (h' : wp p Q' s) : wp p (fun r s' => Q r s' ∧ Q' r s') s :=
  ⟨h, h'⟩

/-! ## What every action does -/

/-- Every action of the program, on every branch and from every state, satisfies `P`. -/
def Each (P : ℓ → σ → σ → Prop) : Prog σ ℓ ε α → Prop
  | ret _ => True
  | fail _ => True
  | act l f k => (∀ s, P l s (f s)) ∧ ∀ s, Each P (k s)

variable {P : ℓ → σ → σ → Prop} {l : ℓ} {P' : ℓ → σ → σ → Prop}

@[simp] theorem each_ret (a : α) : Each P (ret a : Prog σ ℓ ε α) := trivial

@[simp] theorem each_fail (e : ε) : Each P (fail e : Prog σ ℓ ε α) := trivial

@[simp] theorem each_ofExcept (r : Except ε α) : Each P (ofExcept r : Prog σ ℓ ε α) := by
  cases r <;> trivial

theorem each_bind (hp : Each P p) (hf : ∀ a, Each P (f a)) : Each P (bind p f) := by
  induction p with
  | ret a => exact hf a
  | fail e => trivial
  | act l g k ih => exact ⟨hp.1, fun s => ih s (hp.2 s)⟩

theorem each_attempt (hp : Each P p) : Each P (attempt p) := by
  induction p with
  | ret a => trivial
  | fail e => trivial
  | act l g k ih => exact ⟨hp.1, fun s => ih s (hp.2 s)⟩

theorem each_atomic {f : σ → Except ε α × σ} (h : ∀ s, P l s (f s).2) : Each P (atomic l f) :=
  ⟨h, fun _ => each_ofExcept _⟩

/-- What follows an atomic action works on a result of that action. -/
theorem each_bind_atomic {f : σ → Except ε α × σ} {g : α → Prog σ ℓ ε β} (h : ∀ s, P l s (f s).2)
    (hg : ∀ s a, (f s).1 = .ok a → Each P (g a)) : Each P (bind (atomic l f) g) := by
  refine ⟨h, fun s => ?_⟩
  simp only
  cases hr : (f s).1 with
  | error e => trivial
  | ok a => exact hg s a hr

theorem each_ite {c : Prop} [Decidable c] {p q : Prog σ ℓ ε α} (hp : Each P p) (hq : Each P q) :
    Each P (if c then p else q) := by
  split <;> assumption

theorem each_any (p : Prog σ ℓ ε α) : Each (fun _ _ _ => True) p := by
  induction p with
  | ret a => trivial
  | fail e => trivial
  | act l g k ih => exact ⟨fun _ => trivial, ih⟩

theorem Each.mono (h : Each P p) (hP : ∀ l s s', P l s s' → P' l s s') : Each P' p := by
  induction p with
  | ret a => trivial
  | fail e => trivial
  | act l g k ih => exact ⟨fun s => hP _ _ _ (h.1 s), fun s => ih s (h.2 s)⟩

theorem Each.and (h : Each P p) (h' : Each P' p) : Each (fun l s s' => P l s s' ∧ P' l s s') p := by
  induction p with
  | ret a => trivial
  | fail e => trivial
  | act l g k ih => exact ⟨fun s => ⟨h.1 s, h'.1 s⟩, fun s => ih s (h.2 s) (h'.2 s)⟩

/-! ## What every result is -/

/-- Every result of the program is as `R` says, whatever states its actions meet. -/
def Returns (R : α → Prop) : Prog σ ℓ ε α → Prop
  | ret a => R a
  | fail _ => True
  | act _ _ k => ∀ s, Returns R (k s)

variable {R : α → Prop} {R' : β → Prop}

theorem returns_atomic {f : σ → Except ε α × σ} (h : ∀ s a, (f s).1 = .ok a → R a) :
    Returns R (atomic l f) := by
  intro s
  simp only
  cases hr : (f s).1 with
  | error e => trivial
  | ok a => exact h s a hr

theorem returns_bind (hp : Returns R p) (hf : ∀ a, R a → Returns R' (f a)) :
    Returns R' (bind p f) := by
  induction p with
  | ret a => exact hf a hp
  | fail e => trivial
  | act l g k ih => exact fun s => ih s (hp s)

theorem Returns.mono {R' : α → Prop} (h : Returns R p) (hR : ∀ a, R a → R' a) : Returns R' p := by
  induction p with
  | ret a => exact hR a h
  | fail e => trivial
  | act l g k ih => exact fun s => ih s (h s)

theorem returns_attempt (hp : Returns R p) : Returns (fun r => ∀ a, r = .ok a → R a) p.attempt := by
  induction p with
  | ret a => exact fun _ h => Except.ok.inj h ▸ hp
  | fail e => exact fun _ h => nomatch h
  | act l g k ih => exact fun s => ih s (hp s)

theorem returns_trivial (p : Prog σ ℓ ε α) : Returns (fun _ => True) p := by
  induction p with
  | ret a => trivial
  | fail e => trivial
  | act l g k ih => exact ih

/-- The rest of a program works on a result of the part before it. -/
theorem each_bind_returns (hp : Each P p) (hr : Returns R p) (hf : ∀ a, R a → Each P (f a)) :
    Each P (bind p f) := by
  induction p with
  | ret a => exact hf a hr
  | fail e => trivial
  | act l g k ih => exact ⟨hp.1, fun s => ih s (hp.2 s) (hr s)⟩

/-- Every error of the program is as `E` says, whatever states its actions meet. -/
def Fails (E : ε → Prop) : Prog σ ℓ ε α → Prop
  | ret _ => True
  | fail e => E e
  | act _ _ k => ∀ s, Fails E (k s)

variable {E : ε → Prop}

theorem fails_atomic {f : σ → Except ε α × σ} (h : ∀ s e, (f s).1 = .error e → E e) :
    Fails E (atomic l f) := by
  intro s
  simp only
  cases hr : (f s).1 with
  | error e => exact h s e hr
  | ok a => trivial

theorem fails_bind (hp : Fails E p) (hf : ∀ a, Fails E (f a)) : Fails E (bind p f) := by
  induction p with
  | ret a => exact hf a
  | fail e => exact hp
  | act l g k ih => exact fun s => ih s (hp s)

theorem wp_of_fails (h : Fails E p) (s : σ) : wp p (fun r _ => ∀ e, r = .error e → E e) s := by
  induction p generalizing s with
  | ret a => exact fun _ he => nomatch he
  | fail e => exact fun _ he => Except.error.inj he ▸ h
  | act l g k ih => exact ih s (h s) (g s)

/-! ## Whole runs -/

/-- **What every action does, the run does**, for a reflexive and transitive relation. -/
theorem run_of_each {R : σ → σ → Prop} (hr : ∀ s, R s s) (ht : ∀ {a b c}, R a b → R b c → R a c)
    (h : Each (fun _ => R) p) (s : σ) : R s (p.run s).2 := by
  induction p generalizing s with
  | ret a => exact hr s
  | fail e => exact hr s
  | act l g k ih => exact ht (h.1 s) (ih s (h.2 s) (g s))

end Prog

end FinnAuth.Lib
