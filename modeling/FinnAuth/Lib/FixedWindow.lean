/-!
# Fixed windows

A limit per fixed window, where a window begins with the first event after the last one is over.

Results:
* `InWindow.within_le`: no period as long as a window has more than two windows' worth of events.
-/

namespace FinnAuth.Lib

/-- How many of the moments fall into the period of length `w` from `a` on. -/
def within (a w : Nat) (ps : List Nat) : Nat := ps.countP fun t => decide (a ≤ t ∧ t ≤ a + w)

/-- Between two windows: at most `b` moments are less than `w` ago, and all are past. -/
def Idle (b w now : Nat) (ps : List Nat) : Prop :=
  ∃ last old, ps = last ++ old ∧ last.length ≤ b ∧ (∀ t ∈ last, t < now) ∧ ∀ t ∈ old, t + w < now

/-- In a window that began at `s`: the moments `cur` are in it, and what was before is as `Idle`
says of `s`. -/
def InWindow (b w s : Nat) (cur ps : List Nat) : Prop :=
  ∃ before, ps = cur ++ before ∧ Idle b w s before ∧ cur.length ≤ b ∧ ∀ t ∈ cur, t ≤ s + w

variable {a b w s now now' : Nat} {cur ps : List Nat}

theorem idle_nil : Idle b w now [] :=
  ⟨[], [], rfl, Nat.zero_le _, fun _ ht => (by cases ht), fun _ ht => by cases ht⟩

theorem Idle.later (h : Idle b w now ps) (hnow : now ≤ now') : Idle b w now' ps := by
  obtain ⟨last, old, rfl, hlast, hpast, hold⟩ := h
  exact ⟨last, old, rfl, hlast, fun t ht => Nat.lt_of_lt_of_le (hpast t ht) hnow,
    fun t ht => Nat.lt_of_lt_of_le (hold t ht) hnow⟩

/-- A window that is over. -/
theorem InWindow.idle (h : InWindow b w s cur ps) (hover : s + w < now) : Idle b w now ps := by
  obtain ⟨_, rfl, ⟨last, old, rfl, -, hpast, hold⟩, hcur, hin⟩ := h
  refine ⟨cur, _, rfl, hcur, fun t ht => Nat.lt_of_le_of_lt (hin t ht) hover, fun t ht => ?_⟩
  rcases List.mem_append.1 ht with ht | ht
  · have := hpast t ht
    omega
  · have := hold t ht
    omega

theorem Idle.begin (h : Idle b w s ps) : InWindow b w s [] ps :=
  ⟨ps, rfl, h, Nat.zero_le _, fun _ ht => by cases ht⟩

/-- One more moment in a window. -/
theorem InWindow.more (h : InWindow b w s cur ps) (hb : cur.length < b) (hin : now ≤ s + w) :
    InWindow b w s (now :: cur) (now :: ps) := by
  obtain ⟨before, rfl, hbefore, -, hcur⟩ := h
  exact ⟨before, rfl, hbefore, hb, List.forall_mem_cons.2 ⟨hin, hcur⟩⟩

theorem InWindow.within_le (h : InWindow b w s cur ps) (ha : s ≤ a + w) :
    within a w ps ≤ 2 * b := by
  obtain ⟨_, rfl, ⟨last, old, rfl, hlast, -, hold⟩, hcur, -⟩ := h
  have hnone : within a w old = 0 := by
    refine List.countP_eq_zero.2 fun t ht => ?_
    have := hold t ht
    simp only [decide_eq_true_eq]
    omega
  have hcount : within a w (cur ++ (last ++ old)) ≤ cur.length + last.length := by
    unfold within at hnone ⊢
    rw [List.countP_append, List.countP_append, hnone]
    exact Nat.add_le_add List.countP_le_length List.countP_le_length
  omega

theorem within_cons_of_lt (h : a + w < now) : within a w (now :: ps) = within a w ps := by
  simp [within, Nat.not_le.2 h]

end FinnAuth.Lib
