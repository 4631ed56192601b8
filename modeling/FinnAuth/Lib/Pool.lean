import FinnAuth.Lib.Prog

/-!
# Any number of programs, interleaved action by action

A pool holds a shared state, its history and the programs in flight. One move starts a program,
lets one program take its next action, or applies a change from outside (the clock, a background
job, a lost cache). The history records every action with the states before and after it, so that
"who has done what" is read off it and needs no ghost variables.

A `Protocol` states what such a pool keeps: an invariant of state and history, for each program
what it relies on the others to keep, and which actions and outside changes a run may contain.
`Safe` checks one program against it, one action at a time.

Results:
* **`Protocol.exec_good`**: if every program is safe when it starts, the invariant holds in every
  state of every admissible run, and a finished program's postcondition holds from then on;
* `safe_bind`, `safe_atomic`, **`safe_quiet`**: the rules that build `Safe` from the program text;
* `View.Always`: an invariant that may be asked of any moment of the past.
-/

namespace FinnAuth.Lib

/-- One entry of a history: an action of program `i`, or an outside change, with the states before
and after. -/
inductive Ev (σ ℓ η : Type) : Type where
  | act (i : Nat) (l : ℓ) (pre post : σ)
  | env (e : η) (pre post : σ)

/-- The program an entry belongs to. -/
def Ev.thread? {σ ℓ η : Type} : Ev σ ℓ η → Option Nat
  | act i _ _ _ => some i
  | env _ _ _ => none

/-- The state an entry was taken in. -/
def Ev.pre {σ ℓ η : Type} : Ev σ ℓ η → σ
  | act _ _ pre _ => pre
  | env _ pre _ => pre

/-- The state an entry left. -/
def Ev.post {σ ℓ η : Type} : Ev σ ℓ η → σ
  | act _ _ _ post => post
  | env _ _ post => post

/-- What all programs share: the state, and the history with the newest entry first. -/
structure View (σ ℓ η : Type) where
  state : σ
  hist : List (Ev σ ℓ η)

/-- One program in flight: the request it serves, the view at its start, what is left of it. -/
structure Thread (σ ℓ η ε α ι : Type) where
  job : ι
  start : View σ ℓ η
  prog : Prog σ ℓ ε α

/-- The shared view and the programs, in the order they were started. -/
structure Pool (σ ℓ η ε α ι : Type) where
  view : View σ ℓ η
  threads : List (Thread σ ℓ η ε α ι)

/-- One move of a pool. -/
inductive Move (η ι : Type) : Type where
  | spawn (j : ι)
  | sched (i : Nat)
  | env (e : η)

section Exec

variable {σ ℓ η ε α ι : Type}

/-- Program `i` performs the change `f` under the label `l`. -/
def View.act (v : View σ ℓ η) (i : Nat) (l : ℓ) (f : σ → σ) : View σ ℓ η :=
  ⟨f v.state, .act i l v.state (f v.state) :: v.hist⟩

/-- The outside change `e`. -/
def View.env (v : View σ ℓ η) (e : η) (f : σ → σ) : View σ ℓ η :=
  ⟨f v.state, .env e v.state (f v.state) :: v.hist⟩

@[simp] theorem View.act_state (v : View σ ℓ η) (i : Nat) (l : ℓ) (f : σ → σ) :
    (v.act i l f).state = f v.state := rfl

@[simp] theorem View.act_hist (v : View σ ℓ η) (i : Nat) (l : ℓ) (f : σ → σ) :
    (v.act i l f).hist = .act i l v.state (f v.state) :: v.hist := rfl

@[simp] theorem View.env_state (v : View σ ℓ η) (e : η) (f : σ → σ) :
    (v.env e f).state = f v.state := rfl

@[simp] theorem View.env_hist (v : View σ ℓ η) (e : η) (f : σ → σ) :
    (v.env e f).hist = .env e v.state (f v.state) :: v.hist := rfl

/-- A pool with nothing in flight. -/
def Pool.init (s : σ) : Pool σ ℓ η ε α ι := ⟨⟨s, []⟩, []⟩

/-- Program `i` takes its next action; a finished or missing program does nothing. -/
def Pool.sched (c : Pool σ ℓ η ε α ι) (i : Nat) : Pool σ ℓ η ε α ι :=
  match c.threads[i]? with
  | none => c
  | some t =>
    match t.prog with
    | .ret _ => c
    | .fail _ => c
    | .act l f k =>
      { view := c.view.act i l f
        threads := c.threads.set i { t with prog := k c.view.state } }

/-- One move, for the programs `code` and the outside changes `env`. -/
def Pool.move (code : ι → Prog σ ℓ ε α) (env : η → σ → σ) (c : Pool σ ℓ η ε α ι) :
    Move η ι → Pool σ ℓ η ε α ι
  | .spawn j => { c with threads := c.threads ++ [⟨j, c.view, code j⟩] }
  | .sched i => c.sched i
  | .env e => { c with view := c.view.env e (env e) }

/-- A whole run. -/
def Pool.exec (code : ι → Prog σ ℓ ε α) (env : η → σ → σ) :
    Pool σ ℓ η ε α ι → List (Move η ι) → Pool σ ℓ η ε α ι
  | c, [] => c
  | c, m :: ms => Pool.exec code env (c.move code env m) ms

/-- The label and the view of the action that `sched i` would take. -/
def Pool.next? (c : Pool σ ℓ η ε α ι) (i : Nat) : Option ℓ :=
  match c.threads[i]? with
  | some ⟨_, _, .act l _ _⟩ => some l
  | _ => none

end Exec

/-! ## The past of a view -/

section Past

variable {σ ℓ η : Type} {I : View σ ℓ η → Prop} {v : View σ ℓ η} {f : σ → σ}

/-- `I` holds, and held at every entry of the history when it was made. -/
def View.Always (I : View σ ℓ η → Prop) (v : View σ ℓ η) : Prop :=
  I v ∧ ∀ x b, x :: b <:+ v.hist → I ⟨x.pre, b⟩

theorem View.always_init {s : σ} (h : I ⟨s, []⟩) : (⟨s, []⟩ : View σ ℓ η).Always I :=
  ⟨h, fun _ _ hb => absurd (List.suffix_nil.1 hb) (List.cons_ne_nil _ _)⟩

theorem View.Always.act {i : Nat} {l : ℓ} (h : v.Always I) (hI : I (v.act i l f)) :
    (v.act i l f).Always I := by
  refine ⟨hI, fun x b hb => ?_⟩
  rcases List.suffix_cons_iff.1 hb with heq | hb
  · obtain ⟨rfl, rfl⟩ := List.cons.inj heq
    exact h.1
  · exact h.2 x b hb

theorem View.Always.env {e : η} (h : v.Always I) (hI : I (v.env e f)) : (v.env e f).Always I := by
  refine ⟨hI, fun x b hb => ?_⟩
  rcases List.suffix_cons_iff.1 hb with heq | hb
  · obtain ⟨rfl, rfl⟩ := List.cons.inj heq
    exact h.1
  · exact h.2 x b hb

theorem View.grown_refl (_ : Nat) (v : View σ ℓ η) : v.hist <:+ v.hist := List.suffix_refl _

theorem View.grown_trans (_ : Nat) {a b c : View σ ℓ η} (h : a.hist <:+ b.hist)
    (h' : b.hist <:+ c.hist) : a.hist <:+ c.hist :=
  h.trans h'

/-- Every entry has a past. -/
theorem exists_suffix {γ : Type} {h : List γ} {x : γ} (hx : x ∈ h) : ∃ b, x :: b <:+ h := by
  obtain ⟨a, b, rfl⟩ := List.append_of_mem hx
  exact ⟨b, List.suffix_append _ _⟩

/-- Of two entries of a history one is older, or they are the same. -/
theorem older_or_newer {γ : Type} {h : List γ} {x y : γ} (hx : x ∈ h) (hy : y ∈ h) :
    x = y ∨ (∃ b, x :: b <:+ h ∧ y ∈ b) ∨ ∃ b, y :: b <:+ h ∧ x ∈ b := by
  obtain ⟨b, hb⟩ := exists_suffix hx
  obtain ⟨c, hc⟩ := exists_suffix hy
  rcases List.suffix_or_suffix_of_suffix hb hc with hle | hle
  · rcases List.suffix_cons_iff.1 hle with heq | hle
    · exact .inl (List.cons.inj heq).1
    · exact .inr (.inr ⟨c, hc, hle.subset List.mem_cons_self⟩)
  · rcases List.suffix_cons_iff.1 hle with heq | hle
    · exact .inl (List.cons.inj heq).1.symm
    · exact .inr (.inl ⟨b, hb, hle.subset List.mem_cons_self⟩)

end Past

/-! ## Protocols -/

/-- What a pool keeps: the invariant, what program `i` relies on, and the moves a run may have. -/
structure Protocol (σ ℓ η : Type) where
  inv : View σ ℓ η → Prop
  rely : Nat → View σ ℓ η → View σ ℓ η → Prop
  ok : Nat → ℓ → View σ ℓ η → Prop
  okEnv : η → View σ ℓ η → Prop
  rely_refl : ∀ i v, rely i v v
  rely_trans : ∀ i {a b c}, rely i a b → rely i b c → rely i a c

namespace Protocol

variable {σ ℓ η ε α β ι : Type} (S : Protocol σ ℓ η)

/-- What an action of program `i` owes: the invariant, and what the others rely on. -/
structure Step (i : Nat) (v v' : View σ ℓ η) : Prop where
  inv : S.inv v'
  rely : ∀ j, j ≠ i → S.rely j v v'

/-- Program `i`, standing at `p`, keeps the protocol to its end and ends in `Q`: at its next
action the others may have moved the view along `rely`. -/
def Safe (i : Nat) (Q : Except ε α → View σ ℓ η → Prop) : Prog σ ℓ ε α → View σ ℓ η → Prop
  | .ret a, v => Q (.ok a) v
  | .fail e, v => Q (.error e) v
  | .act l f k, v =>
    ∀ v', S.rely i v v' → S.inv v' → S.ok i l v' →
      S.Step i v' (v'.act i l f) ∧ Safe i Q (k v'.state) (v'.act i l f)

/-- A fact the others cannot disturb. -/
def Stable (i : Nat) (A : View σ ℓ η → Prop) : Prop :=
  ∀ ⦃v v'⦄, A v → S.rely i v v' → A v'

variable {S} {i : Nat} {Q : Except ε α → View σ ℓ η → Prop} {v : View σ ℓ η} {p : Prog σ ℓ ε α}
  {A : View σ ℓ η → Prop} {Q' : Except ε α → View σ ℓ η → Prop} {P : ℓ → σ → σ → Prop}

theorem Safe.mono (h : S.Safe i Q p v) (hQ : ∀ r v', Q r v' → Q' r v') : S.Safe i Q' p v := by
  induction p generalizing v with
  | ret a => exact hQ _ _ h
  | fail e => exact hQ _ _ h
  | act l f k ih =>
    intro v' hr hi hok
    obtain ⟨hs, hk⟩ := h v' hr hi hok
    exact ⟨hs, ih _ hk⟩

theorem safe_and (h : S.Safe i Q p v) (h' : S.Safe i Q' p v) :
    S.Safe i (fun r v' => Q r v' ∧ Q' r v') p v := by
  induction p generalizing v with
  | ret a => exact ⟨h, h'⟩
  | fail e => exact ⟨h, h'⟩
  | act l f k ih =>
    intro v' hr hi hok
    obtain ⟨hs, hk⟩ := h v' hr hi hok
    exact ⟨hs, ih _ hk (h' v' hr hi hok).2⟩

/-- What every result of the program is. -/
theorem safe_returns {R : α → Prop} (h : S.Safe i Q p v) (hr : p.Returns R) :
    S.Safe i (fun r v' => Q r v' ∧ ∀ a, r = .ok a → R a) p v := by
  induction p generalizing v with
  | ret a => exact ⟨h, fun _ ha => Except.ok.inj ha ▸ hr⟩
  | fail e => exact ⟨h, fun _ ha => by cases ha⟩
  | act l f k ih =>
    intro v' hrel hi hok
    obtain ⟨hs, hk⟩ := h v' hrel hi hok
    exact ⟨hs, ih _ hk (hr _)⟩

/-- A program that waits stays safe. -/
theorem Safe.rely {v v' : View σ ℓ η} (h : S.Safe i Q p v) (hQ : ∀ r, S.Stable i (Q r))
    (hr : S.rely i v v') : S.Safe i Q p v' := by
  cases p with
  | ret a => exact hQ _ h hr
  | fail e => exact hQ _ h hr
  | act => exact fun v'' hr' hi hok => h v'' (S.rely_trans i hr hr') hi hok

theorem safe_bind {Q' : Except ε β → View σ ℓ η → Prop} {f : α → Prog σ ℓ ε β} (hp : S.Safe i Q p v)
    (hok : ∀ a v', Q (.ok a) v' → S.Safe i Q' (f a) v')
    (herr : ∀ e v', Q (.error e) v' → Q' (.error e) v') : S.Safe i Q' (p.bind f) v := by
  induction p generalizing v with
  | ret a => exact hok a v hp
  | fail e => exact herr e v hp
  | act l g k ih =>
    intro v' hr hi ho
    obtain ⟨hs, hk⟩ := hp v' hr hi ho
    exact ⟨hs, ih _ hk⟩

theorem safe_attempt {Q : Except ε (Except ε α) → View σ ℓ η → Prop}
    (hp : S.Safe i (fun r v' => Q (.ok r) v') p v) : S.Safe i Q p.attempt v := by
  induction p generalizing v with
  | ret a => exact hp
  | fail e => exact hp
  | act l g k ih =>
    intro v' hr hi ho
    obtain ⟨hs, hk⟩ := hp v' hr hi ho
    exact ⟨hs, ih _ hk⟩

theorem safe_ofExcept {r : Except ε α} (h : Q r v) : S.Safe i Q (Prog.ofExcept r) v := by
  cases r <;> exact h

/-- One atomic action under a stable assertion `A`. -/
theorem safe_atomic {l : ℓ} {f : σ → Except ε α × σ} (hA : A v) (hst : S.Stable i A)
    (h : ∀ v', S.inv v' → A v' → S.ok i l v' →
      S.Step i v' (v'.act i l fun s => (f s).2) ∧
        Q (f v'.state).1 (v'.act i l fun s => (f s).2)) : S.Safe i Q (Prog.atomic l f) v := by
  intro v' hr hi hok
  obtain ⟨hs, hq⟩ := h v' hi (hst hA hr) hok
  exact ⟨hs, safe_ofExcept hq⟩

/-- **A program all of whose actions keep the protocol and the assertion `A` is safe**, whatever
its branches are. -/
theorem safe_each (hp : p.Each P) (hA : A v) (hst : S.Stable i A)
    (h : ∀ l f v', S.inv v' → A v' → P l v'.state (f v'.state) → S.ok i l v' →
      S.Step i v' (v'.act i l f) ∧ A (v'.act i l f)) : S.Safe i (fun _ v' => A v') p v := by
  induction p generalizing v with
  | ret a => exact hA
  | fail e => exact hA
  | act l f k ih =>
    intro v' hr hi hok
    obtain ⟨hs, hA'⟩ := h l f v' hi (hst hA hr) (hp.1 v'.state) hok
    exact ⟨hs, ih _ (hp.2 v'.state) hA'⟩

/-- An action that owes nobody anything: the invariant stays and no program, its own included,
loses what it relies on. -/
def Quiet (S : Protocol σ ℓ η) (i : Nat) (l : ℓ) (f : σ → σ) (v : View σ ℓ η) : Prop :=
  S.inv (v.act i l f) ∧ ∀ j, S.rely j v (v.act i l f)

theorem Quiet.step {l : ℓ} {f : σ → σ} (h : S.Quiet i l f v) : S.Step i v (v.act i l f) :=
  ⟨h.1, fun j _ => h.2 j⟩

/-- **A program of quiet actions keeps every stable assertion**, whatever its branches are. -/
theorem safe_quiet (hp : p.Each P) (hA : A v) (hst : S.Stable i A)
    (h : ∀ l f v', S.inv v' → P l v'.state (f v'.state) → S.ok i l v' → S.Quiet i l f v') :
    S.Safe i (fun _ v' => A v') p v := by
  refine safe_each hp hA hst fun l f v' hi hA hP hok => ?_
  have hq := h l f v' hi hP hok
  exact ⟨hq.step, hst hA (hq.2 i)⟩

theorem Stable.and {A B : View σ ℓ η → Prop} (hA : S.Stable i A) (hB : S.Stable i B) :
    S.Stable i fun v => A v ∧ B v :=
  fun _ _ h hr => ⟨hA h.1 hr, hB h.2 hr⟩

/-! ## Whole runs -/

/-- A run all of whose moves the protocol admits. -/
def Admits (S : Protocol σ ℓ η) (code : ι → Prog σ ℓ ε α) (env : η → σ → σ) :
    Pool σ ℓ η ε α ι → List (Move η ι) → Prop
  | _, [] => True
  | c, m :: ms =>
    (match m with
      | .spawn _ => True
      | .sched i => ∀ l ∈ c.next? i, S.ok i l c.view
      | .env e => S.okEnv e c.view) ∧
    Admits S code env (c.move code env m) ms

instance instDecidableAdmits (S : Protocol σ ℓ η) (code : ι → Prog σ ℓ ε α) (env : η → σ → σ)
    [hok : ∀ i l v, Decidable (S.ok i l v)] [henv : ∀ e v, Decidable (S.okEnv e v)] :
    (c : Pool σ ℓ η ε α ι) → (ms : List (Move η ι)) → Decidable (S.Admits code env c ms)
  | _, [] => .isTrue trivial
  | c, m :: ms =>
    have : Decidable (match m with
        | .spawn _ => True
        | .sched i => ∀ l ∈ c.next? i, S.ok i l c.view
        | .env e => S.okEnv e c.view) :=
      match m with
      | .spawn _ => .isTrue trivial
      | .sched i => inferInstanceAs (Decidable (∀ l ∈ c.next? i, S.ok i l c.view))
      | .env e => henv e c.view
    have : Decidable (S.Admits code env (c.move code env m) ms) :=
      instDecidableAdmits S code env (c.move code env m) ms
    inferInstanceAs (Decidable (_ ∧ _))

/-- What a protocol needs of the programs and the outside changes. -/
structure Sound (S : Protocol σ ℓ η) (code : ι → Prog σ ℓ ε α) (env : η → σ → σ)
    (Q : Nat → ι → View σ ℓ η → Except ε α → View σ ℓ η → Prop) : Prop where
  env : ∀ e v, S.inv v → S.okEnv e v →
    S.inv (v.env e (env e)) ∧ ∀ i, S.rely i v (v.env e (env e))
  start : ∀ i j v, S.inv v → (∀ x ∈ v.hist, x.thread? ≠ some i) → S.Safe i (Q i j v) (code j) v
  stable : ∀ i j v r, S.Stable i (Q i j v r)

/-- A pool in order: the invariant holds, the history names started programs only, and every
program in flight is safe. -/
structure Good (S : Protocol σ ℓ η)
    (Q : Nat → ι → View σ ℓ η → Except ε α → View σ ℓ η → Prop) (c : Pool σ ℓ η ε α ι) : Prop where
  inv : S.inv c.view
  started : ∀ x ∈ c.view.hist, ∀ i, x.thread? = some i → i < c.threads.length
  safe : ∀ i t, c.threads[i]? = some t → S.Safe i (Q i t.job t.start) t.prog c.view

variable {code : ι → Prog σ ℓ ε α} {env : η → σ → σ}
  {Q : Nat → ι → View σ ℓ η → Except ε α → View σ ℓ η → Prop} {c : Pool σ ℓ η ε α ι}

theorem good_init {s : σ} (h : S.inv ⟨s, []⟩) : S.Good Q (Pool.init s) where
  inv := h
  started := by simp [Pool.init]
  safe := by simp [Pool.init]

theorem good_spawn (hS : S.Sound code env Q) (h : S.Good Q c) (j : ι) :
    S.Good Q (c.move code env (.spawn j)) where
  inv := h.inv
  started := by
    intro x hx i hi
    have := h.started x hx i hi
    simp only [Pool.move, List.length_append, List.length_singleton]
    omega
  safe := by
    intro i t ht
    simp only [Pool.move, List.getElem?_append] at ht
    split at ht
    · exact h.safe i t ht
    · rename_i hi
      rw [List.getElem?_singleton] at ht
      split at ht
      · obtain rfl := Option.some.inj ht
        refine hS.start i j c.view h.inv fun x hx hxi => ?_
        exact absurd (h.started x hx i hxi) hi
      · simp at ht

theorem good_env (hS : S.Sound code env Q) (h : S.Good Q c) (e : η) (he : S.okEnv e c.view) :
    S.Good Q (c.move code env (.env e)) where
  inv := (hS.env e c.view h.inv he).1
  started := by
    intro x hx i hi
    rcases List.mem_cons.1 hx with rfl | hx
    · simp [Ev.thread?] at hi
    · exact h.started x hx i hi
  safe := fun i t ht =>
    (h.safe i t ht).rely (fun r => hS.stable i t.job t.start r) ((hS.env e c.view h.inv he).2 i)

theorem good_sched (hS : S.Sound code env Q) (h : S.Good Q c) (i : Nat)
    (hok : ∀ l ∈ c.next? i, S.ok i l c.view) : S.Good Q (c.sched i) := by
  unfold Pool.sched
  split
  · exact h
  rename_i t ht
  split
  · exact h
  · exact h
  rename_i l f k hp
  have hi : i < c.threads.length := (List.getElem?_eq_some_iff.1 ht).1
  have hnext : c.next? i = some l := by
    obtain ⟨job, start, prog⟩ := t
    subst hp
    simp [Pool.next?, ht]
  have hsafe := h.safe i t ht
  rw [hp] at hsafe
  obtain ⟨hstep, hk⟩ := hsafe c.view (S.rely_refl i c.view) h.inv (hok l hnext)
  refine ⟨hstep.inv, ?_, ?_⟩
  · intro x hx j hj
    rw [List.length_set]
    rcases List.mem_cons.1 hx with rfl | hx
    · obtain rfl := Option.some.inj hj
      exact hi
    · exact h.started x hx j hj
  · intro j u hu
    -- the program that moved goes on from its new view; the others wait
    rw [List.getElem?_set] at hu
    split at hu
    · rename_i hij
      subst hij
      obtain rfl := Option.some.inj hu
      exact hk
    · rename_i hij
      exact (h.safe j u hu).rely (fun r => hS.stable j u.job u.start r)
        (hstep.rely j (Ne.symm hij))

/-- **In every admissible run the invariant holds and every program stays safe.** -/
theorem exec_good (hS : S.Sound code env Q) (ms : List (Move η ι)) :
    ∀ {c : Pool σ ℓ η ε α ι}, S.Good Q c → S.Admits code env c ms →
      S.Good Q (c.exec code env ms) := by
  induction ms with
  | nil => exact fun h _ => h
  | cons m ms ih =>
    intro c h hm
    refine ih ?_ hm.2
    cases m with
    | spawn j => exact good_spawn hS h j
    | sched i => exact good_sched hS h i hm.1
    | env e => exact good_env hS h e hm.1

/-- A protocol that allows every action and every outside change admits every run. -/
theorem admits_all (hok : ∀ i l v, S.ok i l v) (henv : ∀ e v, S.okEnv e v)
    (ms : List (Move η ι)) : ∀ c : Pool σ ℓ η ε α ι, S.Admits code env c ms := by
  induction ms with
  | nil => exact fun _ => trivial
  | cons m ms ih =>
    intro c
    refine ⟨?_, ih _⟩
    cases m with
    | spawn j => trivial
    | sched i => exact fun l _ => hok i l c.view
    | env e => exact henv e c.view

/-- A finished program's postcondition holds. -/
theorem Good.returned (h : S.Good Q c) {i : Nat} {t : Thread σ ℓ η ε α ι} {a : α}
    (ht : c.threads[i]? = some t) (hp : t.prog = .ret a) :
    Q i t.job t.start (.ok a) c.view := by
  have := h.safe i t ht
  rw [hp] at this
  exact this

end Protocol

end FinnAuth.Lib
