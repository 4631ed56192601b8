import FinnAuth.Lib.FixedWindow
import FinnAuth.Lib.Run
import FinnAuth.Lib.TtlMap

/-!
# The rate limiter on the shared counter

`RateLimiter.Handler` (`rate_limit.go`) counts the requests of an address in the shared store. The
counter keeps the expiry of its first increment, so the limit is one of fixed windows that begin
with a request; a client can use up two of them back to back.

An address is in the form `CanonicalIP` gives it. When the store is down `IncrBy` answers 0 and the
token bucket of the process decides; its answer is part of the event. The length of the window is
what `NewRateLimiter` computes from `rps` and `burst`; it is a second or more.

Results:
* **`rate_bound`**: in no period as long as the window do more than two bursts pass.
-/

namespace FinnAuth.Http

open Lib

/-- `RateLimiter` with a shared store. -/
structure RateLimiter where
  burst : Int
  window : Nat
  window_pos : 0 < window

/-- The clock and the shared store. -/
structure Counters where
  now : Nat := 0
  store : TtlMap String := .empty

inductive Verdict : Type where
  | passed
  /-- 429 -/
  | tooMany
  /-- the token bucket decided -/
  | bucket (allowed : Bool)
  | quiet
  deriving DecidableEq, Repr

inductive Traffic : Type where
  | request (ip : String) (up bucket : Bool)
  | wait (d : Nat)
  | sweep (chosen : String → Bool)

namespace RateLimiter

variable (rl : RateLimiter)

/-- `Handler` -/
def handler (ip : String) (up bucket : Bool) (c : Counters) : Verdict × Counters :=
  if up then
    let r := c.store.incrBy c.now ("rate:ip:" ++ ip) 1 rl.window
    (if 0 < r.1 then (if rl.burst < r.1 then .tooMany else .passed) else .bucket bucket,
      { c with store := r.2 })
  else (.bucket bucket, c)

def step : Traffic → Counters → Verdict × Counters
  | .request ip up bucket, c => rl.handler ip up bucket c
  | .wait d, c => (.quiet, { c with now := c.now + d })
  | .sweep chosen, c => (.quiet, { c with store := c.store.sweep c.now chosen })

/-- The moments at which requests of an address passed on the shared counter, the newest first. -/
def passes (ip : String) : List (Record Counters Traffic Verdict) → List Nat
  | [] => []
  | x :: hist =>
    match x.input, x.reply with
    | .request ip' _ _, .passed =>
      if ip' = ip then x.before.now :: passes ip hist else passes ip hist
    | _, _ => passes ip hist

/-- What the counter of an address says about its passes. -/
def Tracks (now : Nat) (ps : List Nat) : Option Entry → Prop
  | none => Idle rl.burst.toNat rl.window now ps
  | some e => ∃ s cur, ∃ n : Nat, e = ⟨.int n, some (s + rl.window)⟩ ∧ s ≤ now ∧ cur.length ≤ n ∧
      InWindow rl.burst.toNat rl.window s cur ps

variable {rl} {ip : String} {c : Counters} {ps : List Nat}

theorem tracks_later {now now' : Nat} {o : Option Entry} (h : rl.Tracks now ps o)
    (hnow : now ≤ now') : rl.Tracks now' ps (o.filter fun e => !e.expired now') := by
  cases o with
  | none => exact Idle.later h hnow
  | some e =>
    obtain ⟨s, cur, n, rfl, hs, hn, hin⟩ := h
    by_cases hover : s + rl.window < now'
    · rw [Option.filter_some, if_neg (by simp [Entry.expired, hover])]
      exact hin.idle hover
    · rw [Option.filter_some, if_pos (by simp [Entry.expired, hover])]
      exact ⟨s, cur, n, rfl, Nat.le_trans hs hnow, hn, hin⟩

/-- The passes after an increment that gave `n`. -/
def counted (rl : RateLimiter) (now n : Nat) (ps : List Nat) : List Nat :=
  if (n : Int) ≤ rl.burst then now :: ps else ps

/-- A counter that stands at `n` after the increment, in the window from `s` on. -/
theorem tracks_counted {now s n : Nat} {cur : List Nat} (hs : s ≤ now) (hin : now ≤ s + rl.window)
    (hn : cur.length < n) (h : InWindow rl.burst.toNat rl.window s cur ps) :
    rl.Tracks now (rl.counted now n ps) (some ⟨.int n, some (s + rl.window)⟩) ∧
      ((n : Int) ≤ rl.burst → ∀ a, now ≤ a + rl.window →
        within a rl.window (now :: ps) ≤ 2 * rl.burst.toNat) := by
  by_cases hpass : (n : Int) ≤ rl.burst
  · have hmore := h.more (show cur.length < rl.burst.toNat by omega) hin
    refine ⟨?_, fun _ a ha => hmore.within_le (Nat.le_trans hs ha)⟩
    rw [counted, if_pos hpass]
    exact ⟨s, now :: cur, n, rfl, hs, hn, hmore⟩
  · refine ⟨?_, fun h => absurd h hpass⟩
    rw [counted, if_neg hpass]
    exact ⟨s, cur, n, rfl, hs, Nat.le_of_lt hn, h⟩

theorem seen_fresh (store : TtlMap String) (k : String) (v : Val) (now s w : Nat)
    (h : now ≤ s + w) : (store.put k (some ⟨v, some (s + w)⟩)).seen now k =
      some ⟨v, some (s + w)⟩ := by
  simp [Option.filter, Entry.expired, Nat.not_lt.2 h]

/-- One request on the shared counter. -/
theorem tracks_incr {now : Nat} {store : TtlMap String} {k : String}
    (h : rl.Tracks now ps (store.seen now k)) :
    ∃ n : Nat, 0 < n ∧ (store.incrBy now k 1 rl.window).1 = n ∧
      rl.Tracks now (rl.counted now n ps) ((store.incrBy now k 1 rl.window).2.seen now k) ∧
      ((n : Int) ≤ rl.burst → ∀ a, now ≤ a + rl.window →
        within a rl.window (now :: ps) ≤ 2 * rl.burst.toNat) := by
  rw [TtlMap.incrBy, TtlMap.incrWith_of_seen]
  cases hseen : store.seen now k with
  | none =>
    rw [hseen] at h
    refine ⟨1, Nat.one_pos, rfl, ?_⟩
    have hexp : TtlMap.expiry now rl.window = some (now + rl.window) := if_pos rl.window_pos
    simp only [TtlMap.set, hexp, seen_fresh _ _ _ _ _ _ (Nat.le_add_right now rl.window)]
    have hempty : ([] : List Nat).length < 1 := Nat.one_pos
    exact tracks_counted (Nat.le_refl _) (Nat.le_add_right _ _) hempty (Idle.begin h)
  | some e =>
    rw [hseen] at h
    obtain ⟨s, cur, n, rfl, hs, hn, hin⟩ := h
    have hlive : now ≤ s + rl.window := by
      have := (TtlMap.seen_eq_some.1 hseen).2
      simpa [Entry.expired] using this
    refine ⟨n + 1, Nat.succ_pos n, rfl, ?_⟩
    simp only [seen_fresh _ _ _ _ _ _ hlive]
    exact tracks_counted hs hlive (Nat.lt_succ_of_le hn) hin

/-- What every event keeps. -/
def Keeps (rl : RateLimiter) (ip : String) (r : Run Counters Traffic Verdict) : Prop :=
  rl.Tracks r.state.now (passes ip r.hist) (r.state.store.seen r.state.now ("rate:ip:" ++ ip)) ∧
    ∀ a, within a rl.window (passes ip r.hist) ≤ 2 * rl.burst.toNat

theorem passes_request (r : Run Counters Traffic Verdict) (ip' : String) (up bucket : Bool) :
    passes ip (r.step rl.step (.request ip' up bucket)).hist =
      if (rl.handler ip' up bucket r.state).1 = .passed ∧ ip' = ip then
        r.state.now :: passes ip r.hist else passes ip r.hist := by
  rw [Run.step_hist, passes]
  simp only [step]
  split
  · rename_i hin hrep
    cases hin
    simp [hrep]
  · rename_i hnot
    rw [if_neg fun h => hnot _ _ _ rfl h.1]

theorem keeps_step {r : Run Counters Traffic Verdict} (e : Traffic) (h : rl.Keeps ip r) :
    rl.Keeps ip (r.step rl.step e) := by
  cases e with
  | request ip' up bucket =>
    cases up with
    | false => exact h
    | true =>
      by_cases hip : ip' = ip
      · subst hip
        obtain ⟨n, hpos, hn, htracks, hwithin⟩ := tracks_incr (k := "rate:ip:" ++ ip') h.1
        have hps : passes ip' (r.step rl.step (.request ip' true bucket)).hist =
            rl.counted r.state.now n (passes ip' r.hist) := by
          simp only [passes_request, handler, if_true, hn, counted]
          rw [if_pos (Int.natCast_pos.2 hpos)]
          by_cases hpass : (n : Int) ≤ rl.burst
          · simp [hpass, Int.not_lt.2 hpass]
          · simp [hpass, Int.not_le.1 hpass]
        unfold Keeps
        rw [hps]
        refine ⟨htracks, fun a => ?_⟩
        unfold counted
        split
        · rename_i hpass
          by_cases ha : r.state.now ≤ a + rl.window
          · exact hwithin hpass a ha
          · rw [within_cons_of_lt (Nat.not_le.1 ha)]
            exact h.2 a
        · exact h.2 a
      · have hkey : "rate:ip:" ++ ip ≠ "rate:ip:" ++ ip' := fun heq =>
          hip ((String.append_right_inj _).1 heq).symm
        unfold Keeps
        rw [passes_request, if_neg fun h => hip h.2, Run.step_state]
        refine ⟨?_, h.2⟩
        simp only [step, handler, if_true, TtlMap.seen, TtlMap.incrBy_data_ne _ _ _ hkey]
        exact h.1
  | wait d =>
    refine ⟨?_, h.2⟩
    have := tracks_later h.1 (Nat.le_add_right r.state.now d)
    rwa [← TtlMap.seen_later (Nat.le_add_right _ _)] at this
  | sweep chosen =>
    refine ⟨?_, h.2⟩
    exact (TtlMap.seen_sweep chosen _).symm ▸ h.1

/-- **Two bursts.** In no period as long as the window do more than twice `burst` requests of an
address pass on the shared counter, whatever other requests, pauses, outages of the store and sweeps
there are. -/
theorem rate_bound (rl : RateLimiter) (ip : String) (es : List Traffic) (a : Nat) :
    within a rl.window (passes ip ((Run.init {}).exec rl.step es).hist) ≤ 2 * rl.burst.toNat := by
  have hinit : rl.Keeps ip (Run.init {}) := ⟨idle_nil, fun _ => Nat.zero_le _⟩
  exact (Run.exec_induct (fun _ e h => keeps_step e h) es hinit).2 a

/-- A burst of two, used up over one window and again at the start of the next: the third request
of each is refused, and three that pass lie in one period. -/
theorem rate_bound_two_windows :
    let rl : RateLimiter := ⟨2, 1000, by decide⟩
    let ask : Traffic := .request "10.0.0.1" true false
    let es := [ask, .wait 1000, ask, ask, .wait 1, ask, ask, ask]
    let ps := passes "10.0.0.1" ((Run.init {}).exec rl.step es).hist
    ps = [1001, 1001, 1000, 0] ∧ within 1000 rl.window ps ≤ 2 * rl.burst.toNat :=
  ⟨rfl, rate_bound _ _ _ _⟩

end RateLimiter

end FinnAuth.Http
