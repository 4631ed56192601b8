import FinnAuth.Lib.Prog

/-!
# Two runs of one program

`Twin Q p s s'` compares the run of `p` from `s` with its run from `s'`: both end with the same
result, in states related as `Q` says. What an observer of results can learn about the state is what
no such pair of states hides.

Results:
* **`twin_bind`**, `twin_atomic`: the comparison along the program text;
* `Twin.observe`: the runs agree up to their comparison, and an observer cannot tell the rest apart.
-/

namespace FinnAuth.Lib.Prog

variable {σ ℓ ε α β ο : Type} {s s' : σ} {p : Prog σ ℓ ε α} {Q : Except ε α → σ → σ → Prop}
  {f : α → Prog σ ℓ ε β}

/-- Both runs end with one result, in states as `Q` says. -/
def Twin (Q : Except ε α → σ → σ → Prop) (p : Prog σ ℓ ε α) (s s' : σ) : Prop :=
  (p.run s).1 = (p.run s').1 ∧ Q (p.run s).1 (p.run s).2 (p.run s').2

/-- What the rest `f` of a program owes, as a postcondition of the part before it. -/
def thenTwin (f : α → Prog σ ℓ ε β) (Q : Except ε β → σ → σ → Prop) : Except ε α → σ → σ → Prop
  | .ok a, t, t' => Twin Q (f a) t t'
  | .error e, t, t' => Q (.error e) t t'

theorem twin_bind {Q : Except ε β → σ → σ → Prop} (h : Twin (thenTwin f Q) p s s') :
    Twin Q (p.bind f) s s' := by
  obtain ⟨hr, hq⟩ := h
  unfold Twin
  rw [run_bind, run_bind]
  rcases hp : p.run s with ⟨r, t⟩
  rcases hp' : p.run s' with ⟨r', t'⟩
  rw [hp, hp'] at hr hq
  obtain rfl : r = r' := hr
  cases r with
  | ok a => exact hq
  | error e => exact ⟨rfl, hq⟩

theorem twin_atomic {l : ℓ} {f : σ → Except ε α × σ} (hr : (f s).1 = (f s').1)
    (hq : Q (f s).1 (f s).2 (f s').2) : Twin Q (atomic l f) s s' := by
  unfold Twin
  rw [run_atomic, run_atomic]
  exact ⟨hr, hq⟩

/-- Up to here the runs agree; what is observed of the rest is the same. -/
theorem Twin.observe {obs : Except ε β → ο} (h : Twin Q p s s')
    (hf : ∀ a t t', Q (.ok a) t t' → obs ((f a).run t).1 = obs ((f a).run t').1) :
    obs ((p.bind f).run s).1 = obs ((p.bind f).run s').1 := by
  obtain ⟨hr, hq⟩ := h
  rw [run_bind, run_bind]
  rcases hp : p.run s with ⟨r, t⟩
  rcases hp' : p.run s' with ⟨r', t'⟩
  rw [hp, hp'] at hr hq
  obtain rfl : r = r' := hr
  cases r with
  | ok a => exact hf a t t' hq
  | error e => rfl

end FinnAuth.Lib.Prog
