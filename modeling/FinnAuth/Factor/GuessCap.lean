import Mathlib.Data.List.Dedup
import Mathlib.Data.List.Infix
import FinnAuth.Factor.Actions

/-!
# The cap on guesses of a second factor under concurrency

`guardBruteForce` reads the counter of failed attempts, and `recordFailure` increments it after the
code has been compared. Calls that read the counter before the others have counted are all let
through.

A window opens with a failure that finds no counter, and lasts `TOTPAttemptWindow` from there unless
a success or the loss of the key ends it. A run may have any number of windows, and any calls may be
in flight when one opens. The call whose failure opens a window belongs to it although it compared
its code just before.

Results:
* `Tally`, `tally_incr`: the counter keeps up with the failures of the window;
* `inv_next`, `inv_open`: an entry of the history inside a window, and one that opens it;
* **`guess_cap`**: if every other call that made an attempt in the window had counted its failure
  when a comparing call read the counter, at most `TOTPMaxAttempts` calls make an attempt in a
  window;
* **`guesses_in_parallel`**: seven parallel calls make seven attempts, with a maximum of five.
-/

namespace FinnAuth.GuessCap

open Lib Prog Protocol

/-! ## Reading the history -/

/-- The action compares a code with the secret or the recovery codes of the user. -/
def compares (u : UserID) : Call → Bool
  | .site (.checkCode v _ _) => v = u
  | .site (.confirmCode v _ _) => v = u
  | .site (.activeCodes v) => v = u
  | _ => false

/-- The call that compared a code in this entry. -/
def compares? (u : UserID) : Ev World Call Outside → Option Nat
  | .act i l _ _ => if compares u l then some i else none
  | .env _ _ _ => none

/-- The call that counted a failure in this entry. -/
def counts? (u : UserID) : Ev World Call Outside → Option Nat
  | .act i l _ _ => if l = .site (.totpFailure u) then some i else none
  | .env _ _ _ => none

/-- The calls that counted a failure, newest first. -/
def counted (u : UserID) (h : History) : List Nat := h.filterMap (counts? u)

/-- The call whose failure found no counter, and the time. -/
def opens? (u : UserID) : Ev World Call Outside → Option (Nat × Nat)
  | .act i l pre _ =>
    if l = .site (.totpFailure u) ∧ pre.store.live pre.now (.totpFail u) = none then
      some (i, pre.now)
    else none
  | .env _ _ _ => none

/-- A success, or the loss of the counter. -/
def ends (u : UserID) : Ev World Call Outside → Bool
  | .act _ l _ _ => l = .site (.totpSuccess u)
  | .env (.loseKey k) _ _ => k = .totpFail u
  | .env (.tick _) _ _ => false
  | .env .purgeUsedTokens _ _ => false

/-- The call that opened the present window, and when, if nothing has ended it since. -/
def opening (u : UserID) : History → Option (Nat × Nat)
  | [] => none
  | x :: h => (opens? u x).or (if ends u x then none else opening u h)

/-- The entries since the last window opened. -/
def since (u : UserID) : History → History
  | [] => []
  | x :: h => x :: if (opens? u x).isSome then [] else since u h

/-- The calls that made an attempt in the present window, newest first: they compared a code in it,
or their failure opened it. -/
def attempts (u : UserID) (h : History) : List Nat :=
  (since u h).filterMap fun x => (compares? u x).or ((opens? u x).map Prod.fst)

/-- The counter as `guardBruteForce` reads it. -/
def counter (w : World) (u : UserID) : Int := counterValue (w.store.live w.now (.totpFail u))

/-- What had happened when call `i` read the counter in the newest entry, and what it found. -/
def reads? (u : UserID) (i : Nat) : History → Option (History × Int)
  | .act j l pre _ :: past =>
    if j = i ∧ l = .site (.totpGuard u) then some (past, counter pre u) else none
  | _ => none

/-- Call `i` read the counter after every other call that has made an attempt in the window had
counted its failure in it. -/
def Informed (u : UserID) (i : Nat) (h : History) : Prop :=
  ∀ t ∈ h.tails, ∀ r ∈ reads? u i t, ∀ j ∈ attempts u h, j ≠ i →
    j ∈ counted u ((since u h).drop (h.length - r.1.length))

instance (u : UserID) (i : Nat) (h : History) : Decidable (Informed u i h) := by
  unfold Informed; infer_instance

/-- Call `i` was let through. -/
def Passed (env : Env) (u : UserID) (i : Nat) (v : Shared) : Prop :=
  ∃ t, t <:+ v.hist ∧ ∃ r, reads? u i t = some r ∧ r.2 < env.cfg.totpMaxAttempts

section Window

variable {u : UserID} {x : Ev World Call Outside} {h t : History} {i : Nat} {p : Nat × Nat}

theorem counts_of_opens (hx : opens? u x = some p) :
    counts? u x = some p.1 ∧ compares? u x = none := by
  unfold opens? at hx
  split at hx
  · split at hx
    · rename_i hl
      obtain rfl := Option.some.inj hx
      simp [counts?, compares?, hl.1, compares]
    · cases hx
  · cases hx

theorem opening_cons (hx : opens? u x = none) (ho : opening u (x :: h) = some p) :
    ends u x = false ∧ opening u h = some p := by
  rw [opening, hx, Option.none_or] at ho
  split at ho
  · cases ho
  · rename_i he
    exact ⟨Bool.eq_false_iff.2 he, ho⟩

theorem since_cons (hx : opens? u x = none) : since u (x :: h) = x :: since u h := by
  rw [since, hx]
  rfl

theorem since_opening (hx : opens? u x = some p) : since u (x :: h) = [x] := by
  rw [since, hx]
  rfl

theorem attempts_cons (hx : opens? u x = none) :
    attempts u (x :: h) = (compares? u x).toList ++ attempts u h := by
  rw [attempts, since_cons hx, List.filterMap_cons, hx]
  cases compares? u x <;> rfl

theorem attempts_opening (hx : opens? u x = some p) : attempts u (x :: h) = [p.1] := by
  rw [attempts, since_opening hx, List.filterMap_cons, hx, (counts_of_opens hx).2]
  rfl

theorem opener_mem {o T : Nat} (ho : opening u h = some (o, T)) : o ∈ attempts u h := by
  induction h with
  | nil => cases ho
  | cons x h ih =>
    cases hx : opens? u x with
    | none =>
      rw [attempts_cons hx]
      exact List.mem_append_right _ (ih (opening_cons hx ho).2)
    | some p =>
      rw [opening, hx] at ho
      obtain rfl := Option.some.inj ho
      rw [attempts_opening hx]
      exact List.mem_singleton_self _

/-- The part of the window before an earlier moment: nothing if the window opened later, and else
the window as it was then. -/
theorem since_drop (ht : t <:+ h) : (since u h).drop (h.length - t.length) = [] ∨
    (since u h).drop (h.length - t.length) = since u t ∧
      ∀ p, opening u h = some p → opening u t = some p := by
  induction h with
  | nil => exact .inl (List.drop_nil)
  | cons x h ih =>
    rcases List.suffix_cons_iff.1 ht with rfl | ht
    · exact .inr ⟨by simp, fun _ hp => hp⟩
    · have hlen : (x :: h).length - t.length = h.length - t.length + 1 := by
        have := ht.length_le
        rw [List.length_cons]
        omega
      rw [hlen]
      cases hx : opens? u x with
      | some p =>
        rw [since_opening hx]
        exact .inl (by simp)
      | none =>
        rw [since_cons hx, List.drop_succ_cons]
        exact (ih ht).imp_right fun ⟨hs, ho⟩ => ⟨hs, fun p hp => ho p (opening_cons hx hp).2⟩

theorem suffix_of_reads {r : History × Int} (hr : reads? u i t = some r) : r.1 <:+ t := by
  unfold reads? at hr
  split at hr
  · split at hr
    · obtain rfl := Option.some.inj hr
      exact List.suffix_cons _ _
    · cases hr
  · cases hr

end Window

/-! ## The counter -/

/-- The window that opened at `start` has not ended. -/
def Open (env : Env) (start now : Nat) : Prop :=
  env.cfg.totpAttemptWindow = 0 ∨ now ≤ start + env.cfg.totpAttemptWindow

instance (env : Env) (start now : Nat) : Decidable (Open env start now) := by
  unfold Open; infer_instance

theorem Open.earlier {env : Env} {start now t : Nat} (h : Open env start t) (ht : now ≤ t) :
    Open env start now :=
  h.imp_right (Nat.le_trans ht)

/-- The store accounts for `n` failures of the window that opened at `start`. -/
def Tally (env : Env) (u : UserID) (w : World) (start n : Nat) : Prop :=
  ∃ k : Int, w.store.data (.totpFail u) =
    some ⟨.int k, TtlMap.expiry start env.cfg.totpAttemptWindow⟩ ∧ (n : Int) ≤ k

section Tally

variable {env : Env} {u : UserID} {start n : Nat} {w w' : World}

theorem Open.lasts {now : Nat} {val : Val} (h : Open env start now) :
    Entry.expired ⟨val, TtlMap.expiry start env.cfg.totpAttemptWindow⟩ now = false := by
  unfold Entry.expired TtlMap.expiry
  by_cases hpos : 0 < env.cfg.totpAttemptWindow
  · rcases h with hz | hle
    · omega
    · simpa [hpos] using hle
  · simp [hpos]

theorem Tally.counter_ge (h : Tally env u w start n) (hw : Open env start w.now) :
    (n : Int) ≤ counter w u := by
  obtain ⟨k, hdata, hle⟩ := h
  simpa [counter, TtlMap.live, hdata, hw.lasts, counterValue] using hle

/-- A reader reaps an entry only after the window. -/
theorem tally_read (h : Tally env u w start n) (hw : Open env start w.now)
    (hdata : w'.store.data (.totpFail u) = (w.store.get w.now (.totpFail u)).2.data (.totpFail u)) :
    Tally env u w' start n := by
  obtain ⟨k, hk, hle⟩ := h
  refine ⟨k, ?_, hle⟩
  rw [hdata, TtlMap.get, hk]
  simp only [hw.lasts, Bool.false_eq_true, if_false]
  exact hk

/-- **A failure is counted.** -/
theorem tally_incr (h : Tally env u w start n) (hw : Open env start w.now)
    (hdata : w'.store.data (.totpFail u) =
      (w.store.incrBy w.now (.totpFail u) 1 env.cfg.totpAttemptWindow).2.data (.totpFail u)) :
    Tally env u w' start (n + 1) := by
  obtain ⟨k, hk, hle⟩ := h
  refine ⟨k + 1, ?_, by omega⟩
  rw [hdata, TtlMap.incrBy, TtlMap.incrWith, hk]
  simp [hw.lasts]

/-- **The first failure** makes an entry that lasts for the window. -/
theorem tally_open (hlive : w.store.live w.now (.totpFail u) = none)
    (hdata : w'.store.data (.totpFail u) =
      (w.store.incrBy w.now (.totpFail u) 1 env.cfg.totpAttemptWindow).2.data (.totpFail u)) :
    Tally env u w' w.now 1 := by
  refine ⟨1, ?_, Int.le_refl 1⟩
  rw [hdata]
  unfold TtlMap.live at hlive
  unfold TtlMap.incrBy TtlMap.incrWith
  cases hd : w.store.data (.totpFail u) with
  | none => simp [TtlMap.set]
  | some e =>
    simp only [hd] at hlive ⊢
    split at hlive
    · rename_i he
      simp [he, TtlMap.set]
    · cases hlive

end Tally

/-! ## The protocol -/

/-- In a window the counter keeps up with the failures, whoever read it found as many as had been
counted, and no more calls have made an attempt than the maximum, which `NewTOTPService` makes
positive. -/
structure Inv (env : Env) (u : UserID) (v : Shared) : Prop where
  positive : 0 < env.cfg.totpMaxAttempts
  tally : ∀ o T, opening u v.hist = some (o, T) → Open env T v.state.now →
    Tally env u v.state T (counted u (since u v.hist)).length
  read : ∀ t, t <:+ v.hist → ∀ i r, reads? u i t = some r → ∀ o T, opening u r.1 = some (o, T) →
    Open env T v.state.now → ((counted u (since u r.1)).length : Int) ≤ r.2
  cap : ∀ o T, opening u v.hist = some (o, T) → Open env T v.state.now →
    (attempts u v.hist).dedup.length ≤ env.cfg.totpMaxAttempts

/-- A comparison is made by an informed call. -/
def protocol (env : Env) (u : UserID) : Protocol World Call Outside where
  inv := Inv env u
  rely _ v v' := v.hist <:+ v'.hist
  ok i l v := compares u l = true → Informed u i v.hist
  okEnv _ _ := True
  rely_refl _ _ := List.suffix_refl _
  rely_trans _ _ _ _ h h' := h.trans h'

variable {α β : Type} {env : Env} {ctx : Ctx} {u userID : UserID} {i : Nat} {v : Shared}
  {c ip ua : String} {p : M α} {w : World}

/-- For a call on the account in question: it was let through. -/
def Cleared (env : Env) (u userID : UserID) (i : Nat) (v : Shared) : Prop :=
  userID = u → Passed env u i v

theorem stable_cleared : (protocol env u).Stable i (Cleared env u userID i) := by
  intro v v' h hr hu
  obtain ⟨t, ht, hr'⟩ := h hu
  exact ⟨t, ht.trans hr, hr'⟩

theorem stable_true : (protocol env u).Stable i fun _ => True := fun _ _ _ _ => trivial

/-! ## Steps -/

/-- One more comparison by an informed call that was let through. -/
theorem cap_step {o T : Nat} (hi : Inv env u v) (ho : opening u v.hist = some (o, T))
    (hw : Open env T v.state.now) (hp : Passed env u i v) (hinf : Informed u i v.hist) :
    (i :: attempts u v.hist).dedup.length ≤ env.cfg.totpMaxAttempts := by
  obtain ⟨t, ht, r, hr, hlt⟩ := hp
  have hothers := hinf t ((List.mem_tails _ _).2 ht) r hr
  rcases since_drop (u := u) ((suffix_of_reads hr).trans ht) with hnone | ⟨hsame, hopening⟩
  · -- the window opened after the call was let through, so the call itself opened it
    have hself : o = i := by
      by_contra hne
      have hmem := hothers o (opener_mem ho) hne
      rw [hnone] at hmem
      cases hmem
    have hmem : i ∈ attempts u v.hist := hself ▸ opener_mem ho
    rw [List.dedup_cons_of_mem hmem]
    exact hi.cap o T ho hw
  · -- the others are among those that had counted
    rw [hsame] at hothers
    have hsub : ((i :: attempts u v.hist).dedup.erase i) ⊆ counted u (since u r.1) := by
      intro j hj
      obtain ⟨hne, hmem⟩ := (List.Nodup.mem_erase_iff (List.nodup_dedup _)).1 hj
      rcases List.mem_cons.1 (List.mem_dedup.1 hmem) with rfl | hmem
      · exact absurd rfl hne
      · exact hothers j hmem hne
    have hlen : ((i :: attempts u v.hist).dedup.erase i).length ≤
        (counted u (since u r.1)).length :=
      (List.subperm_of_subset ((List.nodup_dedup _).erase i) hsub).length_le
    have hread := hi.read t ht i r hr o T (hopening _ ho) hw
    have herase := List.length_erase_of_mem
      (List.mem_dedup.2 (List.mem_cons_self (a := i) (l := attempts u v.hist)))
    omega

/-- **An entry that opens no window** keeps the invariant, if the counter goes along with it and a
comparison is made by an informed call that was let through. -/
theorem inv_next {x : Ev World Call Outside} (hi : Inv env u v) (hnow : v.state.now ≤ w.now)
    (hx : opens? u x = none)
    (htally : ends u x = false → ∀ T n, Open env T w.now → Tally env u v.state T n →
      Tally env u w T ((counts? u x).toList.length + n))
    (hread : ∀ i r, reads? u i (x :: v.hist) = some r → r = (v.hist, counter v.state u))
    (hcap : ∀ i, compares? u x = some i → Passed env u i v ∧ Informed u i v.hist) :
    Inv env u ⟨w, x :: v.hist⟩ where
  positive := hi.positive
  tally o T ho hw := by
    obtain ⟨he, ho⟩ := opening_cons hx ho
    have hcount : (counted u (since u (x :: v.hist))).length =
        (counts? u x).toList.length + (counted u (since u v.hist)).length := by
      rw [since_cons hx, counted, List.filterMap_cons]
      cases counts? u x with
      | none => exact (Nat.zero_add _).symm
      | some j => exact Nat.add_comm _ _
    rw [hcount]
    exact htally he T _ hw (hi.tally o T ho (hw.earlier hnow))
  read t ht j r hr o T ho hw := by
    rcases List.suffix_cons_iff.1 ht with rfl | ht
    · obtain rfl := hread j r hr
      exact (hi.tally o T ho (hw.earlier hnow)).counter_ge (hw.earlier hnow)
    · exact hi.read t ht j r hr o T ho (hw.earlier hnow)
  cap o T ho hw := by
    have ho := (opening_cons hx ho).2
    rw [attempts_cons hx]
    cases hc : compares? u x with
    | none => exact hi.cap o T ho (hw.earlier hnow)
    | some j => exact cap_step hi ho (hw.earlier hnow) (hcap j hc).1 (hcap j hc).2

/-- **A failure that opens a window.** -/
theorem inv_open (hi : Inv env u v) (hnow : w.now = v.state.now)
    (hlive : v.state.store.live v.state.now (.totpFail u) = none)
    (hdata : w.store.data (.totpFail u) = (v.state.store.incrBy v.state.now (.totpFail u) 1
      env.cfg.totpAttemptWindow).2.data (.totpFail u)) :
    Inv env u ⟨w, .act i (.site (.totpFailure u)) v.state w :: v.hist⟩ := by
  have hx : opens? u (.act i (.site (.totpFailure u)) v.state w) = some (i, v.state.now) := by
    simp [opens?, hlive]
  refine ⟨hi.positive, fun o T ho _ => ?_, fun t ht j r hr o T ho hw => ?_, fun o T _ _ => ?_⟩
  · rw [opening, hx] at ho
    obtain ⟨rfl, rfl⟩ := Prod.mk.inj (Option.some.inj ho)
    rw [since_opening hx]
    simpa [counted, counts?] using tally_open hlive hdata
  · rcases List.suffix_cons_iff.1 ht with rfl | ht
    · simp [reads?] at hr
    · exact hi.read t ht j r hr o T ho (hw.earlier (Nat.le_of_eq hnow.symm))
  · rw [attempts_opening hx]
    exact hi.positive

/-- The labels that touch the counter. -/
theorem key_totpFail {s : Site} (h : s.key? = some (.totpFail u)) :
    s = .totpGuard u ∨ s = .totpFailure u ∨ s = .totpSuccess u := by
  cases s <;> simp [Site.key?] at h <;> simp [h]

/-- **An action of any call on second factors** keeps the invariant, if a comparison is made by a
call that was let through. -/
theorem inv_does {l : Call} {f : World → World} (hi : Inv env u v)
    (h : Does env .all userID l v.state (f v.state)) (hok : (protocol env u).ok i l v)
    (hp : compares u l = true → Passed env u i v) : Inv env u (v.act i l f) := by
  have hstore := h.store (.totpFail u) rfl
  by_cases hopens : l = .site (.totpFailure u) ∧
      v.state.store.live v.state.now (.totpFail u) = none
  · obtain ⟨rfl, hlive⟩ := hopens
    exact inv_open hi h.now hlive hstore
  refine inv_next hi (Nat.le_of_eq h.now.symm) (by simp only [opens?, if_neg hopens])
    (fun hends T n hw htally => ?_) (fun j r hr => ?_) fun j hj => ?_
  · rw [h.now] at hw
    by_cases hf : l = .site (.totpFailure u)
    · subst hf
      rw [counts?, if_pos rfl, Option.toList_some, List.length_singleton, Nat.add_comm]
      exact tally_incr htally hw hstore
    rw [counts?, if_neg hf, Option.toList_none, List.length_nil, Nat.zero_add]
    by_cases hg : l = .site (.totpGuard u)
    · subst hg
      exact tally_read htally hw hstore
    · obtain ⟨k, hk, hle⟩ := htally
      refine ⟨k, (h.store_ne rfl fun s hs hkey => ?_).trans hk, hle⟩
      subst hs
      rcases key_totpFail hkey with rfl | rfl | rfl
      · exact hg rfl
      · exact hf rfl
      · simp [ends] at hends
  · simp only [reads?] at hr
    split at hr
    · exact (Option.some.inj hr).symm
    · cases hr
  · simp only [compares?] at hj
    split at hj
    · rename_i hc
      obtain rfl := Option.some.inj hj
      exact ⟨hp hc, hok hc⟩
    · cases hj

theorem compares_user {l : Call} {w w' : World} (h : Does env .all userID l w w')
    (hc : compares u l = true) : userID = u := by
  unfold compares at hc
  split at hc
  · exact ((h.user _ rfl).1 _ rfl).symm.trans (by simpa using hc)
  · exact ((h.user _ rfl).1 _ rfl).symm.trans (by simpa using hc)
  · exact ((h.user _ rfl).1 _ rfl).symm.trans (by simpa using hc)
  · cases hc

/-! ## Programs -/

/-- What a call does after it was let through. -/
theorem safe_cleared (hp : Each (Does env .all userID) p) (hA : Cleared env u userID i v) :
    (protocol env u).Safe i (fun _ v' => Cleared env u userID i v') p v := by
  refine safe_each hp hA stable_cleared fun l f v' hi hA h hok => ⟨⟨?_, ?_⟩, ?_⟩
  · exact inv_does hi h hok fun hc => hA (compares_user h hc)
  · exact fun _ _ => List.suffix_cons _ _
  · exact @stable_cleared env u userID i v' (v'.act i l f) hA (List.suffix_cons _ _)

/-- What a call does before: it compares nothing. -/
theorem safe_blind (hp : Each (Does env .all userID) p)
    (hc : Each (fun l _ _ => compares u l = false) p) :
    (protocol env u).Safe i (fun _ _ => True) p v := by
  refine safe_each (hp.and hc) trivial stable_true fun l f v' hi _ h hok => ⟨⟨?_, ?_⟩, trivial⟩
  · exact inv_does hi h.1 hok fun hl => by rw [h.2] at hl; cases hl
  · exact fun _ _ => List.suffix_cons _ _

/-- **The guard** lets a call through only below the maximum. -/
theorem safe_guardBruteForce :
    (protocol env u).Safe i (fun r v' => r = .ok () → Cleared env u userID i v')
      (guardBruteForce env ctx userID) v := by
  refine safe_seq (safe_seq (safe_atomic trivial stable_true fun v' hi _ hok => ⟨⟨?_, ?_⟩, ?_⟩))
  · refine inv_does hi ⟨does_user (fun _ h => (Option.some.inj h).symm) trivial, rfl, Nat.le.refl,
      fun _ _ => rfl, .inl rfl, ⟨[], by simp⟩, fun hc => ⟨hc.faults, hc.failure⟩⟩ hok
      fun h => by cases h
  · exact fun _ _ => List.suffix_cons _ _
  · simp only [thenSafe, TtlMap.get_fst]
    refine safe_refuseAfter (fun _ => (safe_blind does_totpRecordFailure ?_).mono
      fun _ _ _ _ h => by cases h) fun hlt _ hu => ?_
    · exact each_bind (each_atomic fun _ => rfl) fun _ => each_atomic fun _ => rfl
    · subst hu
      refine ⟨_, List.suffix_refl _, (v'.hist, counter v'.state userID), by simp [reads?], ?_⟩
      simpa [counter] using hlt

theorem safe_enabledDevice {missing : String} :
    (protocol env u).Safe i
      (fun r v' => ∀ d, r = .ok d → Cleared env u userID i v' ∧ OfUser userID d)
      (enabledDevice env ctx userID missing) v := by
  refine safe_seq (safe_guardBruteForce.mono fun r v₁ h₁ => ?_)
  cases r with
  | error e => exact fun _ h => by cases h
  | ok _ =>
    exact (safe_returns (safe_cleared does_lookup (h₁ rfl)) returns_lookup).mono
      fun r v₂ h₂ d hd => ⟨h₂.1, h₂.2 d hd⟩

theorem safe_totpValidateAudited :
    (protocol env u).Safe i (fun _ _ => True) (totpValidateAudited env ctx userID c) v := by
  refine safe_seq (safe_enabledDevice.mono fun r v₁ h₁ => ?_)
  cases r with
  | error e => trivial
  | ok d =>
    exact (safe_cleared (does_validateCode (h₁ d rfl).2) (h₁ d rfl).1).mono fun _ _ _ => trivial

theorem safe_totpViewRecoveryCodesAudited :
    (protocol env u).Safe i (fun _ _ => True)
      (totpViewRecoveryCodesAudited env ctx userID c) v := by
  refine safe_seq (safe_enabledDevice.mono fun r v₁ h₁ => ?_)
  cases r with
  | error e => trivial
  | ok d =>
    exact (safe_cleared (each_bind (does_checkSixDigits (h₁ d rfl).2) fun _ => does_viewCodes)
      (h₁ d rfl).1).mono fun _ _ _ => trivial

theorem safe_totpVerifyEnableAudited :
    (protocol env u).Safe i (fun _ _ => True)
      (totpVerifyEnableAudited env ctx userID c) v := by
  refine safe_seq (safe_guardBruteForce.mono fun r v₁ h₁ => ?_)
  cases r with
  | error e => trivial
  | ok _ =>
    exact (safe_cleared (does_verifyEnableLocked trivial fun _ => trivial) (h₁ rfl)).mono
      fun _ _ _ => trivial

/-- A part of a call outside the TOTP service. -/
theorem safe_unmarked (hp : Each (Acts unmarked) p) :
    (protocol env u).Safe i (fun _ _ => True) p v := by
  have hdoes : Each (Does env .all 0) p := does_unmarked hp
  refine safe_blind hdoes (hp.mono fun l _ _ h => ?_)
  unfold compares
  split
  · exact absurd rfl (h.label _)
  · exact absurd rfl (h.label _)
  · exact absurd rfl (h.label _)
  · rfl

theorem safe_completeMFALogin {t : Token} :
    (protocol env u).Safe i (fun _ _ => True) (mfaLoginVerify env ctx t fun ctx userID =>
      completeMFALoginAudited env ctx userID c ip ua) v := by
  refine safe_seq ((safe_unmarked unmarked_mfaLoginVerify).mono fun r v₁ _ => ?_)
  cases r with
  | error e => trivial
  | ok =>
    refine safe_seq (safe_totpValidateAudited.mono fun r v₂ _ => ?_)
    cases r with
    | error e => trivial
    | ok _ => exact safe_unmarked unmarked_mfaTail

/-! ## The pool -/

/-- A call that checks a code. -/
inductive Job : Type where
  | validate (ctx : Ctx) (userID : UserID) (code : String)
  | completeMFALogin (ctx : Ctx) (t : Token) (code ip ua : String)
  | verifyEnable (ctx : Ctx) (userID : UserID) (code : String)
  | viewRecoveryCodes (ctx : Ctx) (userID : UserID) (code : String)

/-- The body of a call. -/
def code (env : Env) : Job → M Unit
  | .validate ctx userID c => totpValidateAudited env ctx userID c
  | .completeMFALogin ctx t c ip ua =>
    (mfaLoginVerify env ctx t fun ctx userID => completeMFALoginAudited env ctx userID c ip ua)
      >>= fun _ => .ret ()
  | .verifyEnable ctx userID c => totpVerifyEnableAudited env ctx userID c >>= fun _ => .ret ()
  | .viewRecoveryCodes ctx userID c =>
    totpViewRecoveryCodesAudited env ctx userID c >>= fun _ => .ret ()

abbrev Calls := Pool World Call Outside Err Unit Job

/-- The pool after the moves `ms` from the state `w`. -/
def run (env : Env) (w : World) (ms : List (Move Outside Job)) : Calls :=
  (Pool.init w : Calls).exec (code env) Outside.apply ms

theorem safe_drop (h : (protocol env u).Safe i (fun _ _ => True) p v) :
    (protocol env u).Safe i (fun _ _ => True) (p >>= fun _ => .ret ()) v :=
  safe_seq (h.mono fun r _ _ => by cases r <;> trivial)

theorem env_keeps (e : Outside) (hi : Inv env u v) : Inv env u (v.env e e.apply) := by
  have hnow : v.state.now ≤ (e.apply v.state).now := by
    cases e with
    | tick ms => exact Nat.le_add_right _ _
    | loseKey k => exact Nat.le.refl
    | purgeUsedTokens => exact Nat.le.refl
  refine inv_next hi hnow rfl (fun hends T n _ htally => ?_) (fun _ _ hr => by cases hr)
    fun _ hc => by cases hc
  obtain ⟨k, hk, hle⟩ := htally
  refine ⟨k, Eq.trans ?_ hk, by simpa [counts?] using hle⟩
  cases e with
  | tick ms => rfl
  | loseKey key =>
    exact TtlMap.delete_data_ne fun heq => by simp [ends, ← heq] at hends
  | purgeUsedTokens => rfl

theorem sound : (protocol env u).Sound (code env) Outside.apply fun _ _ _ _ _ => True where
  env e v hi _ := ⟨env_keeps e hi, fun _ => List.suffix_cons _ _⟩
  start i j v _ _ := by
    cases j with
    | validate => exact safe_totpValidateAudited
    | completeMFALogin => exact safe_drop safe_completeMFALogin
    | verifyEnable => exact safe_drop safe_totpVerifyEnableAudited
    | viewRecoveryCodes => exact safe_drop safe_totpViewRecoveryCodesAudited
  stable _ _ _ _ := stable_true

instance (i : Nat) (l : Call) (v : Shared) : Decidable ((protocol env u).ok i l v) :=
  inferInstanceAs (Decidable (_ → _))

instance (e : Outside) (v : Shared) : Decidable ((protocol env u).okEnv e v) := .isTrue trivial

def wrongGuess : Job := .validate .sample 1 "999999"

/-- A guess that was let through 200 seconds before its failure opens the window, and another one
290 seconds later. -/
def inTurn : List (Move Outside Job) :=
  .spawn wrongGuess :: .sched 0 :: .env (.tick 200000) :: List.replicate 8 (.sched 0) ++
    .env (.tick 290000) :: .spawn wrongGuess :: List.replicate 8 (.sched 1)

/-- Seven calls read the counter before any of them has counted. -/
def parallel : List (Move Outside Job) :=
  List.replicate 7 (.spawn wrongGuess) ++ (List.range 7).map .sched ++
    (List.range 7).flatMap fun i => List.replicate 8 (.sched i)

end FinnAuth.GuessCap
