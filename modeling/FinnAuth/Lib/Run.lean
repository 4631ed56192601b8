/-!
# Runs of calls one after another

A run is a state with its history: every call with its reply and the states before and after it.
Properties of whole runs are read off the history, so no ghost state is needed.

Results:
* `Run.exec_induct`: what every call keeps holds after every run;
* `Run.exec_induct_meets`: the same for the runs whose calls all meet a condition.
-/

namespace FinnAuth.Lib

/-- One call of a run. -/
structure Record (σ ι ρ : Type) where
  input : ι
  before : σ
  reply : ρ
  after : σ

/-- A state and how it came about, the newest call first. -/
structure Run (σ ι ρ : Type) where
  state : σ
  hist : List (Record σ ι ρ)

namespace Run

variable {σ ι ρ : Type} (f : ι → σ → ρ × σ)

/-- The run before the first call. -/
def init (s : σ) : Run σ ι ρ := ⟨s, []⟩

/-- One more call. -/
def step (r : Run σ ι ρ) (i : ι) : Run σ ι ρ :=
  ⟨(f i r.state).2, ⟨i, r.state, (f i r.state).1, (f i r.state).2⟩ :: r.hist⟩

/-- A sequence of calls. -/
def exec : Run σ ι ρ → List ι → Run σ ι ρ
  | r, [] => r
  | r, i :: is => exec (r.step f i) is

/-- Every call meets the condition `ok` in the run it is made in. -/
def Meets (ok : ι → Run σ ι ρ → Prop) : Run σ ι ρ → List ι → Prop
  | _, [] => True
  | r, i :: is => ok i r ∧ Meets ok (r.step f i) is

instance instDecidableMeets (ok : ι → Run σ ι ρ → Prop) [h : ∀ i r, Decidable (ok i r)] :
    (r : Run σ ι ρ) → (is : List ι) → Decidable (r.Meets f ok is)
  | _, [] => .isTrue trivial
  | r, i :: is =>
    have := instDecidableMeets ok (r.step f i) is
    inferInstanceAs (Decidable (_ ∧ _))

variable {f} {ok : ι → Run σ ι ρ → Prop} {I : Run σ ι ρ → Prop} {x : Record σ ι ρ}

@[simp] theorem step_state (r : Run σ ι ρ) (i : ι) : (r.step f i).state = (f i r.state).2 := rfl

@[simp] theorem step_hist (r : Run σ ι ρ) (i : ι) :
    (r.step f i).hist = ⟨i, r.state, (f i r.state).1, (f i r.state).2⟩ :: r.hist := rfl

/-- What has happened stays in the history. -/
theorem mem_exec_hist (is : List ι) : ∀ {r : Run σ ι ρ}, x ∈ r.hist → x ∈ (r.exec f is).hist := by
  induction is with
  | nil => exact fun h => h
  | cons i is ih => exact fun h => ih (List.mem_cons_of_mem _ h)

/-- The calls of the history are the ones that were made, with what came of them. -/
theorem made_of_mem (is : List ι) : ∀ {r : Run σ ι ρ}, x ∈ (r.exec f is).hist →
      x ∈ r.hist ∨ (x.input ∈ is ∧ f x.input x.before = (x.reply, x.after)) := by
  induction is with
  | nil => exact fun h => .inl h
  | cons i is ih =>
    intro r h
    rcases ih h with h | h
    · rcases List.mem_cons.1 h with rfl | h
      · exact .inr ⟨List.mem_cons_self, rfl⟩
      · exact .inl h
    · exact .inr ⟨List.mem_cons_of_mem _ h.1, h.2⟩

theorem exec_append (is js : List ι) :
    ∀ r : Run σ ι ρ, r.exec f (is ++ js) = (r.exec f is).exec f js := by
  induction is with
  | nil => exact fun _ => rfl
  | cons i is ih => exact fun r => ih (r.step f i)

theorem exec_concat (i : ι) (is : List ι) (r : Run σ ι ρ) :
    r.exec f (is ++ [i]) = (r.exec f is).step f i :=
  exec_append is [i] r

/-- Where a run goes depends on its state, not on how it came about. -/
theorem exec_state_congr (is : List ι) :
    ∀ {r r' : Run σ ι ρ}, r.state = r'.state → (r.exec f is).state = (r'.exec f is).state := by
  induction is with
  | nil => exact fun h => h
  | cons i is ih =>
    intro r r' h
    refine ih ?_
    rw [step_state, step_state, h]

/-- **Induction over runs whose calls meet a condition.** -/
theorem exec_induct_meets (hstep : ∀ r i, I r → ok i r → I (r.step f i)) (is : List ι) :
    ∀ {r : Run σ ι ρ}, I r → r.Meets f ok is → I (r.exec f is) := by
  induction is with
  | nil => exact fun h _ => h
  | cons i is ih => exact fun h hm => ih (hstep _ i h hm.1) hm.2

/-- A condition that the calls meet in any run. -/
theorem meets_of_forall (is : List ι) (h : ∀ i ∈ is, ∀ r, ok i r) :
    ∀ r : Run σ ι ρ, r.Meets f ok is := by
  induction is with
  | nil => exact fun _ => trivial
  | cons i is ih =>
    exact fun r => ⟨h i List.mem_cons_self r,
      ih (fun j hj => h j (List.mem_cons_of_mem _ hj)) _⟩

/-- **Induction over runs.** -/
theorem exec_induct (hstep : ∀ r i, I r → I (r.step f i)) (is : List ι) :
    ∀ {r : Run σ ι ρ}, I r → I (r.exec f is) := by
  induction is with
  | nil => exact fun h => h
  | cons i is ih => exact fun h => ih (hstep _ i h)

end Run

end FinnAuth.Lib
