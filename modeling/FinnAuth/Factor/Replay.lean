import Mathlib.Data.List.Infix
import FinnAuth.Factor.Actions

/-!
# Replay of TOTP codes

A code that was found valid is claimed with `SetNX` under a key that lives for 120 seconds; only the
call that wins the key accepts the code. The library takes a code for the 30 second step it was
computed for and for the steps next to it, so a code is good for 90 seconds, and the key outlives it
as long as no call waits for 30 seconds between its check and its claim. `VerifyEnable` checks a
code and claims nothing.

Results:
* `Inv`: claims of one code that succeed lie more than the lifetime of the key apart;
* **`accepted_once`**: where no `VerifyEnable` accepts the code and no call waits that long, one
  code for one step of one secret is accepted by one call; and whoever returned success with a
  six-digit code has accepted it;
* **`accepted_again`**: the code that confirmed a device logs in, and so does a slow call.
-/

namespace FinnAuth.Replay

open Lib Prog Protocol

/-! ## Reading the history -/

/-- The period of a TOTP code. -/
def period : Nat := 30 * 1000

/-- The step `k` is that of the time `now`, or next to it. -/
def Near (now k : Nat) : Prop := now / period ≤ k + 1 ∧ k ≤ now / period + 1

instance (now k : Nat) : Decidable (Near now k) := by unfold Near; infer_instance

/-- What a code is checked for. -/
structure Claimed where
  user : UserID
  code : String
  secret : String
  step : Nat

/-- The library takes the code for the step. -/
def Claimed.valid (env : Env) (g : Claimed) (now : Nat) : Bool :=
  Near now g.step && env.totpLibrary now g.code g.secret

/-- The call that found the code valid in this entry. -/
def checks? (env : Env) (g : Claimed) : Ev World Call Outside → Option Nat
  | .act i l pre _ =>
    if l = .site (.checkCode g.user g.code g.secret) ∧ g.valid env pre.now then some i else none
  | .env _ _ _ => none

/-- The action finds the code valid for a device to be confirmed. `VerifyEnable` takes a code of any
length, and the library ignores the white space around it. -/
def Claimed.confirmed (env : Env) (g : Claimed) (now : Nat) : Call → Bool
  | .site (.confirmCode u c s) => u = g.user && env.trimSpace c = g.code && s = g.secret &&
      Near now g.step && env.totpLibrary now c s
  | _ => false

/-- The call that confirmed a device with the code in this entry. -/
def confirms? (env : Env) (g : Claimed) : Ev World Call Outside → Option Nat
  | .act i l pre _ => if g.confirmed env pre.now l then some i else none
  | .env _ _ _ => none

/-- The call that won the key of the code in this entry. -/
def wins? (g : Claimed) : Ev World Call Outside → Option Nat
  | .act i l pre _ =>
    if l = .site (.replayGuard g.user g.code) ∧
      pre.store.live pre.now (.totpReplay g.user ⟨g.code⟩) = none then some i else none
  | .env _ _ _ => none

/-- Call `i` has accepted the code: it won the key after it had found the code valid, or it
confirmed a device with it. -/
def Accepted (env : Env) (g : Claimed) (h : History) (i : Nat) : Prop :=
  (∃ x ∈ h, confirms? env g x = some i) ∨
  ∃ t ∈ h.tails, ∃ x ∈ t.head?, wins? g x = some i ∧ ∃ y ∈ t.tail, checks? env g y = some i

instance (env : Env) (g : Claimed) (h : History) (i : Nat) : Decidable (Accepted env g h i) := by
  unfold Accepted; infer_instance

/-! ## The protocol -/

/-- Whoever won the key holds it for its lifetime, and had found the code valid shortly before. -/
structure Inv (env : Env) (g : Claimed) (v : Shared) : Prop where
  clock : ∀ x ∈ v.hist, x.pre.now ≤ v.state.now
  held : ∀ x ∈ v.hist, (wins? g x).isSome → x.pre.now + totpReplayTTL < v.state.now ∨
    ∃ e t, v.state.store.data (.totpReplay g.user ⟨g.code⟩) = some e ∧ e.exp = some t ∧
      x.pre.now + totpReplayTTL ≤ t
  apart : ∀ x b, x :: b <:+ v.hist → (wins? g x).isSome → ∀ y ∈ b, (wins? g y).isSome →
    y.pre.now + totpReplayTTL < x.pre.now
  timely : ∀ x b i, x :: b <:+ v.hist → wins? g x = some i → ∀ y ∈ b, checks? env g y = some i →
    y.pre.now ≤ x.pre.now ∧ x.pre.now < y.pre.now + period
  unconfirmed : ∀ x ∈ v.hist, confirms? env g x = none

/-- The call has not waited for a period since it found the code valid. -/
def Prompt (env : Env) (g : Claimed) (i : Nat) (v : Shared) : Prop :=
  ∀ y ∈ v.hist, checks? env g y = some i → v.state.now < y.pre.now + period

instance (env : Env) (g : Claimed) (i : Nat) (v : Shared) : Decidable (Prompt env g i v) := by
  unfold Prompt; infer_instance

/-- No `VerifyEnable` accepts the code, no call waits before its claim, and the key is not lost. -/
def protocol (env : Env) (g : Claimed) : Protocol World Call Outside where
  inv := Inv env g
  rely _ v v' := v.hist <:+ v'.hist
  ok i l v := g.confirmed env v.state.now l = false ∧
    (l = .site (.replayGuard g.user g.code) → Prompt env g i v)
  okEnv e _ := e ≠ .loseKey (.totpReplay g.user ⟨g.code⟩)
  rely_refl := View.grown_refl
  rely_trans := @View.grown_trans _ _ _

variable {α β : Type} {env : Env} {g : Claimed} {ctx : Ctx} {userID : UserID} {i : Nat} {v : Shared}
  {c ip ua : String}

/-! ## Steps -/

variable {A : Shared → Prop} {p : M α} {f : World → World}

/-- Where the key is free, every claim is past its lifetime. -/
theorem past_of_free (hi : Inv env g v)
    (hfree : v.state.store.live v.state.now (.totpReplay g.user ⟨g.code⟩) = none)
    {x : Ev World Call Outside} (hx : x ∈ v.hist) (hw : (wins? g x).isSome) :
    x.pre.now + totpReplayTTL < v.state.now := by
  rcases hi.held x hx hw with h | ⟨e, t, he, ht, hle⟩
  · exact h
  · unfold TtlMap.live at hfree
    simp only [he] at hfree
    split at hfree
    · rename_i hexp
      simp only [Entry.expired, ht, decide_eq_true_eq] at hexp
      omega
    · cases hfree

/-- The key after a claim of its code. -/
theorem setNX_held {m : TtlMap StoreKey} {k : StoreKey} {now : Nat} {val : Val} :
    (m.live now k = none → (m.setNX now k val totpReplayTTL).2.data k =
      some ⟨val, some (now + totpReplayTTL)⟩) ∧
    (m.live now k ≠ none → (m.setNX now k val totpReplayTTL).2.data k = m.data k) := by
  have hset : (m.set now k val totpReplayTTL).data k = some ⟨val, some (now + totpReplayTTL)⟩ := by
    simp [TtlMap.set, TtlMap.expiry, totpReplayTTL]
  unfold TtlMap.live TtlMap.setNX
  cases hd : m.data k with
  | none => exact ⟨fun _ => hset, fun h => absurd rfl h⟩
  | some e =>
    simp only
    split
    · exact ⟨fun _ => hset, fun h => absurd rfl h⟩
    · exact ⟨fun h => (by cases h), fun _ => hd⟩

theorem key_totpReplay {s : Site} {u : UserID} {code : String}
    (h : s.key? = some (.totpReplay u ⟨code⟩)) : s = .replayGuard u code := by
  cases s <;> simp [Site.key?] at h
  rw [h.1, h.2]

/-- **An action of any call on second factors** keeps the invariant. -/
theorem inv_does {l : Call} (hi : Inv env g v) (h : Does env .all userID l v.state (f v.state))
    (hok : (protocol env g).ok i l v) : Inv env g (v.act i l f) := by
  have hnow : (v.act i l f).state.now = v.state.now := h.now
  have hwin : ∀ j, wins? g (.act i l v.state (f v.state)) = some j → j = i ∧
      l = .site (.replayGuard g.user g.code) ∧
      v.state.store.live v.state.now (.totpReplay g.user ⟨g.code⟩) = none := by
    intro j hj
    simp only [wins?] at hj
    split at hj
    · rename_i hc
      exact ⟨(Option.some.inj hj).symm, hc⟩
    · cases hj
  refine ⟨fun x hx => ?_, fun x hx hw => ?_, fun x b hb hw y hy hwy => ?_,
    fun x b j hb hw y hy hc => ?_, fun x hx => ?_⟩
  · rw [hnow]
    rcases List.mem_cons.1 hx with rfl | hx
    · exact Nat.le.refl
    · exact hi.clock x hx
  · rw [hnow]
    -- the key changes only by a claim, and then to a full lifetime
    by_cases hl : l = .site (.replayGuard g.user g.code)
    · have hdata : (f v.state).store.data (.totpReplay g.user ⟨g.code⟩) =
          (v.state.store.setNX v.state.now (.totpReplay g.user ⟨g.code⟩) (.str "1")
            totpReplayTTL).2.data (.totpReplay g.user ⟨g.code⟩) := by
        rw [h.store _ rfl, hl]
        rfl
      by_cases hfree : v.state.store.live v.state.now (.totpReplay g.user ⟨g.code⟩) = none
      · rcases List.mem_cons.1 hx with rfl | hx
        · exact .inr ⟨_, _, hdata.trans (setNX_held.1 hfree), rfl, Nat.le.refl⟩
        · exact .inl (past_of_free hi hfree hx hw)
      · rcases List.mem_cons.1 hx with rfl | hx
        · obtain ⟨j, hj⟩ := Option.isSome_iff_exists.1 hw
          exact absurd (hwin j hj).2.2 hfree
        · rcases hi.held x hx hw with hp | ⟨e, t, he, ht, hle⟩
          · exact .inl hp
          · exact .inr ⟨e, t, hdata.trans ((setNX_held.2 hfree).trans he), ht, hle⟩
    · have hsame : (f v.state).store.data (.totpReplay g.user ⟨g.code⟩) =
          v.state.store.data (.totpReplay g.user ⟨g.code⟩) :=
        h.store_ne rfl fun s hs hk => hl (by rw [hs, key_totpReplay hk])
      rcases List.mem_cons.1 hx with rfl | hx
      · obtain ⟨j, hj⟩ := Option.isSome_iff_exists.1 hw
        exact absurd (hwin j hj).2.1 hl
      · rcases hi.held x hx hw with hp | ⟨e, t, he, ht, hle⟩
        · exact .inl hp
        · exact .inr ⟨e, t, hsame.trans he, ht, hle⟩
  · rcases List.suffix_cons_iff.1 hb with heq | hb
    · obtain ⟨rfl, rfl⟩ := List.cons.inj heq
      obtain ⟨j, hj⟩ := Option.isSome_iff_exists.1 hw
      exact past_of_free hi (hwin j hj).2.2 hy hwy
    · exact hi.apart x b hb hw y hy hwy
  · rcases List.suffix_cons_iff.1 hb with heq | hb
    · obtain ⟨rfl, rfl⟩ := List.cons.inj heq
      obtain ⟨rfl, hl, -⟩ := hwin j hw
      exact ⟨hi.clock y hy, hok.2 hl y hy hc⟩
    · exact hi.timely x b j hb hw y hy hc
  · rcases List.mem_cons.1 hx with rfl | hx
    · simp only [confirms?]
      rw [if_neg (Bool.eq_false_iff.1 hok.1)]
    · exact hi.unconfirmed x hx

theorem quiet_does {l : Call} (hi : Inv env g v) (h : Does env .all userID l v.state (f v.state))
    (hok : (protocol env g).ok i l v) : (protocol env g).Quiet i l f v :=
  ⟨inv_does hi h hok, fun _ => List.suffix_cons _ _⟩

/-! ## Programs -/

/-- Call `i` has accepted its code, for some secret and step. -/
def Done (env : Env) (userID : UserID) (c : String) (i : Nat) (v : Shared) : Prop :=
  ∃ s k, Accepted env ⟨userID, c, s, k⟩ v.hist i

/-- Call `i` has found its code valid, for some secret and step. -/
def Checked (env : Env) (userID : UserID) (c : String) (i : Nat) (v : Shared) : Prop :=
  ∃ s k, ∃ y ∈ v.hist, checks? env ⟨userID, c, s, k⟩ y = some i

theorem stable_done : (protocol env g).Stable i (Done env userID c i) := by
  rintro v v' ⟨s, k, h⟩ hr
  refine ⟨s, k, h.imp (fun ⟨x, hx, hc⟩ => ⟨x, hr.subset hx, hc⟩) fun ⟨t, ht, hrest⟩ =>
    ⟨t, ?_, hrest⟩⟩
  exact (List.mem_tails _ _).2 (((List.mem_tails _ _).1 ht).trans hr)

theorem stable_checked : (protocol env g).Stable i (Checked env userID c i) := by
  rintro v v' ⟨s, k, y, hy, hc⟩ hr
  exact ⟨s, k, y, hr.subset hy, hc⟩

theorem stable_true : (protocol env g).Stable i fun _ => True := fun _ _ _ _ => trivial

theorem safe_does (hp : Each (Does env .all userID) p) (hA : A v)
    (hst : (protocol env g).Stable i A) : (protocol env g).Safe i (fun _ v' => A v') p v :=
  safe_quiet hp hA hst fun _ _ _ hi h hok => quiet_does hi h hok

/-- A stretch in front of the rest `f`, on the results it can be given. -/
theorem seq_does {R : α → Prop} {Q : Except Err β → Shared → Prop} {f : α → M β}
    (hp : Each (Does env .all userID) p) (hR : p.Returns R) (hst : (protocol env g).Stable i A)
    (hA : A v) (herr : ∀ e v', Q (.error e) v')
    (hf : ∀ a v', R a → A v' → (protocol env g).Safe i Q (f a) v') :
    (protocol env g).Safe i Q (p >>= f) v := by
  refine safe_seq ((safe_returns (safe_does hp hA hst) hR).mono fun r v' h => ?_)
  cases r with
  | error e => exact herr e v'
  | ok a => exact hf a v' (h.2 a rfl) h.1

/-- The step of a time is near it. -/
theorem near_self (now : Nat) : Near now (now / period) := ⟨Nat.le_succ _, Nat.le_succ _⟩

/-- A check leaves its verdict in the history. -/
theorem safe_totpValid {mark : String → String → Site} {secret : String}
    {P : Nat → Ev World Call Outside → Option Nat} (hu : (mark c secret).user? = some userID)
    (hk : Rights.all.allows (mark c secret))
    (hs : ∀ m now, (Call.site (mark c secret)).store env m now = m)
    (hP : ∀ w, env.totpLibrary w.now c secret = true →
      P (w.now / period) (.act i (.site (mark c secret)) w w) = some i) :
    (protocol env g).Safe i
      (fun r v' => r = .ok true → ∃ k, ∃ y ∈ v'.hist, P k y = some i)
      (totpValid env mark c secret) v := by
  refine safe_seq (safe_atomic trivial stable_true fun v' hi _ hok => ⟨⟨?_, ?_⟩, fun hr => ?_⟩)
  · exact inv_does hi ((does_totpValid hu hk hs).1 v'.state) hok
  · exact fun _ _ => List.suffix_cons _ _
  · exact ⟨_, _, List.mem_cons_self, hP _ (Except.ok.inj hr)⟩

/-- **The claim**: whoever wins the key after its check has accepted the code. -/
theorem safe_replayGuard (hA : Checked env userID c i v) :
    (protocol env g).Safe i (fun r v' => r = .ok true → Done env userID c i v')
      (replayGuard userID c) v := by
  have hdoes : Each (Does env .all userID) (replayGuard userID c) :=
    does_kvAs rfl trivial fun _ _ => rfl
  refine safe_atomic hA stable_checked fun v' hi hA hok => ⟨⟨?_, ?_⟩, fun hr => ?_⟩
  · exact inv_does hi (hdoes.1 v'.state) hok
  · exact fun _ _ => List.suffix_cons _ _
  · obtain ⟨s, k, y, hy, hc⟩ := hA
    have hfree : v'.state.store.live v'.state.now (.totpReplay userID ⟨c⟩) = none := by
      have hset := Except.ok.inj hr
      unfold TtlMap.setNX at hset
      unfold TtlMap.live
      cases hd : v'.state.store.data (.totpReplay userID ⟨c⟩) with
      | none => rfl
      | some e =>
        simp only [hd] at hset ⊢
        split at hset
        · rename_i he
          simp [he]
        · cases hset
    refine ⟨s, k, .inr ⟨_, (List.mem_tails _ _).2 (List.suffix_refl _), _, rfl, ?_, y, hy, hc⟩⟩
    simp [wins?, hfree]

theorem safe_checkSixDigits {d : TOTPDevice} {badCode replay : String} (hd : OfUser userID d) :
    (protocol env g).Safe i (fun r v' => r = .ok () → Done env userID c i v')
      (checkSixDigits env ctx userID d c badCode replay) v := by
  refine seq_does (does_openActiveSecret hd) (returns_trivial _) stable_true trivial
    (fun _ _ h => by cases h) fun opened v₁ _ _ => ?_
  have hcheck : (protocol env g).Safe i
      (fun r v' => r = .ok true → ∃ k, ∃ y ∈ v'.hist,
        checks? env ⟨userID, c, opened.1, k⟩ y = some i)
      (totpValid env (.checkCode userID) c opened.1) v₁ :=
    safe_totpValid rfl trivial (fun _ _ => rfl) fun w hv => by
      simp [checks?, Claimed.valid, near_self, hv]
  refine safe_seq (hcheck.mono fun r v₂ h₂ => ?_)
  cases r with
  | error e => exact fun h => by cases h
  | ok valid =>
    refine safe_seq (safe_refuseAfter (fun _ => (safe_does does_totpRecordFailure trivial
      stable_true).mono fun _ _ _ _ h => by cases h) fun hok => ?_)
    have hvalid : valid = true := by simp at hok; exact hok.2
    obtain ⟨k, y, hy, hc⟩ := h₂ (by rw [hvalid])
    refine safe_seq ((safe_replayGuard ⟨opened.1, k, y, hy, hc⟩).mono fun r v₃ h₃ => ?_)
    cases r with
    | error e => exact fun h => by cases h
    | ok =>
      refine safe_refuseAfter (fun _ => (safe_does does_totpRecordFailure trivial
        stable_true).mono fun _ _ _ _ h => by cases h) fun hfresh _ => ?_
      exact h₃ (by simpa using hfresh)

theorem safe_totpValidateAudited :
    (protocol env g).Safe i (fun r v' => r = .ok () → c.utf8ByteSize = 6 → Done env userID c i v')
      (totpValidateAudited env ctx userID c) v := by
  refine seq_does does_enabledDevice returns_enabledDevice stable_true trivial
    (fun _ _ h => by cases h) fun d v₁ hd _ => ?_
  split
  · refine safe_seq ((safe_checkSixDigits hd).mono fun r v₂ h₂ => ?_)
    cases r with
    | error e => exact fun h => by cases h
    | ok _ =>
      exact (safe_does does_totpRecordSuccess (h₂ rfl) stable_done).mono fun _ _ h _ _ => h
  · rename_i hlen
    exact (safe_does does_checkRecoveryCode trivial stable_true).mono
      fun _ _ _ _ h => absurd h hlen

theorem safe_totpViewRecoveryCodesAudited :
    (protocol env g).Safe i (fun r v' => r.isOk = true → Done env userID c i v')
      (totpViewRecoveryCodesAudited env ctx userID c) v := by
  refine seq_does does_enabledDevice returns_enabledDevice stable_true trivial
    (fun _ _ h => by cases h) fun d v₁ hd _ => ?_
  refine safe_seq ((safe_checkSixDigits hd).mono fun r v₂ h₂ => ?_)
  cases r with
  | error e => exact fun h => by cases h
  | ok _ =>
    exact (safe_does does_viewCodes (h₂ rfl) stable_done).mono fun _ _ h _ => h

/-- The lock around a body, for what the calls outside cannot disturb. -/
theorem safe_withRotationLock (hst : (protocol env g).Stable i A)
    (hp : ∀ v', (protocol env g).Safe i (fun r v'' => r.isOk = true → A v'') p v') :
    (protocol env g).Safe i (fun r v' => r.isOk = true → A v') (withRotationLock userID p) v := by
  have hlock : Each (Does env .all userID) (acquireRotationLock userID) :=
    does_acquireRotationLock trivial
  have hunlock : Each (Does env .all userID) (releaseRotationLock userID) :=
    does_releaseRotationLock trivial
  refine seq_does hlock (returns_trivial _) stable_true trivial (fun _ _ h => by cases h)
    fun locked v₁ _ _ => ?_
  refine safe_seq (safe_refuse (fun _ h => by cases h) fun _ => ?_)
  refine safe_seq (safe_attempt ((hp v₁).mono fun r v₂ h₂ => ?_))
  cases r with
  | error e =>
    exact safe_seq ((safe_does hunlock trivial stable_true).mono fun r _ _ => by
      cases r <;> exact fun h => by cases h)
  | ok a =>
    exact safe_seq ((safe_does hunlock (h₂ rfl) hst).mono fun r _ h => by
      cases r with
      | error e => exact fun h => by cases h
      | ok _ => exact fun _ => h)

theorem safe_totpVerifyEnableAudited :
    (protocol env g).Safe i (fun r v' => r.isOk = true → Done env userID (env.trimSpace c) i v')
      (totpVerifyEnableAudited env ctx userID c) v := by
  refine seq_does does_guardBruteForce (returns_trivial _) stable_true trivial
    (fun _ _ h => by cases h) fun _ v₁ _ _ => safe_withRotationLock stable_done fun v₂ => ?_
  refine seq_does does_totpFindByUserID returns_totpFindByUserID stable_true trivial
    (fun _ _ h => by cases h) fun d v₃ hd _ => ?_
  cases d with
  | none =>
    exact seq_does does_totpRecordFailure (returns_trivial _) stable_true trivial
      (fun _ _ h => by cases h) fun _ _ _ _ h => by cases h
  | some d =>
    refine safe_seq (safe_refuse (fun _ h => by cases h) fun _ => ?_)
    refine seq_does (does_openStagedSecret (hd d rfl)) (returns_openStagedSecret (hd d rfl))
      stable_true trivial (fun _ _ h => by cases h) fun opened v₄ hd' _ => ?_
    have hconfirm : (protocol env g).Safe i
        (fun r v' => r = .ok true → ∃ k, ∃ y ∈ v'.hist,
          confirms? env ⟨userID, env.trimSpace c, opened.1, k⟩ y = some i)
        (totpValid env (.confirmCode userID) c opened.1) v₄ :=
      safe_totpValid rfl trivial (fun _ _ => rfl) fun w hv => by
        simp [confirms?, Claimed.confirmed, near_self, hv]
    refine safe_seq (hconfirm.mono fun r v₅ h₅ => ?_)
    cases r with
    | error e => exact fun h => by cases h
    | ok =>
      refine safe_seq (safe_refuseAfter (fun _ => (safe_does does_totpRecordFailure trivial
        stable_true).mono fun _ _ _ _ h => by cases h) fun hok => ?_)
      obtain ⟨k, y, hy, hc⟩ := h₅ (by simpa using hok)
      have hdone : Done env userID (env.trimSpace c) i v₅ := ⟨opened.1, k, .inl ⟨y, hy, hc⟩⟩
      exact (safe_does (does_totpActivate (fun _ => trivial) hd') hdone stable_done).mono
        fun _ _ h _ => h

/-! ## The pool -/

/-- A call that takes a code. -/
inductive Job : Type where
  | verifyEnable (ctx : Ctx) (userID : UserID) (code : String)
  | validate (ctx : Ctx) (userID : UserID) (code : String)
  | completeMFALogin (ctx : Ctx) (t : Token) (code ip ua : String)
  | viewRecoveryCodes (ctx : Ctx) (userID : UserID) (code : String)
  | disable (ctx : Ctx) (userID : UserID) (sudoToken : Option Token) (password code : String)

/-- The six-digit code that a successful call must have accepted. A `Disable` may go without. -/
def Job.digits (env : Env) : Job → Option String
  | .verifyEnable _ _ c => some (env.trimSpace c)
  | .validate _ _ c => if c.utf8ByteSize = 6 then some c else none
  | .completeMFALogin _ _ c _ _ => if c.utf8ByteSize = 6 then some c else none
  | .viewRecoveryCodes _ _ c => some c
  | .disable _ _ _ _ _ => none

/-- The body of a call. -/
def code (env : Env) : Job → M Unit
  | .verifyEnable ctx userID c => totpVerifyEnableAudited env ctx userID c >>= fun _ => .ret ()
  | .validate ctx userID c => totpValidateAudited env ctx userID c
  | .completeMFALogin ctx t c ip ua =>
    (mfaLoginVerify env ctx t fun ctx userID => completeMFALoginAudited env ctx userID c ip ua)
      >>= fun _ => .ret ()
  | .viewRecoveryCodes ctx userID c =>
    totpViewRecoveryCodesAudited env ctx userID c >>= fun _ => .ret ()
  | .disable ctx userID t password c => totpDisableAudited env ctx userID t password c

abbrev Calls := Pool World Call Outside Err Unit Job

/-- The pool after the moves `ms` from the state `w`. -/
def run (env : Env) (w : World) (ms : List (Move Outside Job)) : Calls :=
  (Pool.init w : Calls).exec (code env) Outside.apply ms

/-- What a call that returned success has behind it. -/
def Accounted (env : Env) (j : Job) (i : Nat) (v : Shared) : Prop :=
  ∀ c ∈ j.digits env, ∃ userID, Done env userID c i v

theorem safe_drop (h : (protocol env g).Safe i (fun r v' => r.isOk = true → A v') p v) :
    (protocol env g).Safe i (fun r v' => r = .ok () → A v') (p >>= fun _ => .ret ()) v := by
  refine safe_seq (h.mono fun r v' h => ?_)
  cases r with
  | error e => exact fun h => by cases h
  | ok a => exact fun _ => h rfl

theorem safe_completeMFALogin {t : Token} :
    (protocol env g).Safe i
      (fun r v' => r.isOk = true → c.utf8ByteSize = 6 → ∃ userID, Done env userID c i v')
      (mfaLoginVerify env ctx t fun ctx userID =>
        completeMFALoginAudited env ctx userID c ip ua) v := by
  have hverify : Each (Does env .all 0) (jwtVerifyAs env t .mfaPending .invalidToken) :=
    does_unmarked unmarked_mfaLoginVerify
  refine seq_does hverify (returns_trivial _) stable_true trivial (fun _ _ h => by cases h)
    fun claims v₁ _ _ => safe_seq (safe_totpValidateAudited.mono fun r v₂ h₂ => ?_)
  cases r with
  | error e => exact fun h => by cases h
  | ok _ =>
    have htail : (protocol env g).Stable i fun v' => c.utf8ByteSize = 6 →
        Done env claims.userID c i v' := fun _ _ h hr hlen => stable_done (h hlen) hr
    exact (safe_does (does_unmarked unmarked_mfaTail : Each (Does env .all claims.userID) _)
      (h₂ rfl) htail).mono fun _ _ h _ hlen => ⟨_, h hlen⟩

theorem safe_code (j : Job) :
    (protocol env g).Safe i (fun r v' => r = .ok () → Accounted env j i v') (code env j) v := by
  cases j with
  | verifyEnable ctx userID c =>
    refine (safe_drop safe_totpVerifyEnableAudited).mono fun r v' h hr c' hc => ?_
    cases hc
    exact ⟨userID, h hr⟩
  | validate ctx userID c =>
    refine safe_totpValidateAudited.mono fun r v' h hr c' hc => ?_
    obtain ⟨hlen, rfl⟩ : c.utf8ByteSize = 6 ∧ c = c' := by simpa [Job.digits] using hc
    exact ⟨userID, h hr hlen⟩
  | completeMFALogin ctx t c =>
    refine (safe_drop safe_completeMFALogin).mono fun r v' h hr c' hc => ?_
    obtain ⟨hlen, rfl⟩ : c.utf8ByteSize = 6 ∧ c = c' := by simpa [Job.digits] using hc
    exact h hr hlen
  | viewRecoveryCodes ctx userID c =>
    refine (safe_drop safe_totpViewRecoveryCodesAudited).mono fun r v' h hr c' hc => ?_
    cases hc
    exact ⟨userID, h hr⟩
  | disable =>
    exact (safe_does (does_totpDisableAudited trivial trivial) trivial stable_true).mono
      fun _ _ _ _ c' hc => by cases hc

theorem env_keeps (e : Outside) (hi : Inv env g v) (hok : (protocol env g).okEnv e v) :
    Inv env g (v.env e e.apply) := by
  have hnow : v.state.now ≤ (v.env e e.apply).state.now := by
    cases e with
    | tick ms => exact Nat.le_add_right _ _
    | loseKey k => exact Nat.le.refl
    | purgeUsedTokens => exact Nat.le.refl
  have hdata : (v.env e e.apply).state.store.data (.totpReplay g.user ⟨g.code⟩) =
      v.state.store.data (.totpReplay g.user ⟨g.code⟩) := by
    cases e with
    | tick ms => rfl
    | loseKey k => exact TtlMap.delete_data_ne fun hk => hok (by rw [hk])
    | purgeUsedTokens => rfl
  refine ⟨fun x hx => ?_, fun x hx hw => ?_, fun x b hb hw => ?_, fun x b j hb hw => ?_,
    fun x hx => ?_⟩
  · rcases List.mem_cons.1 hx with rfl | hx
    · exact hnow
    · exact Nat.le_trans (hi.clock x hx) hnow
  · rcases List.mem_cons.1 hx with rfl | hx
    · cases hw
    · rw [hdata]
      exact (hi.held x hx hw).imp_left fun h => Nat.lt_of_lt_of_le h hnow
  · rcases List.suffix_cons_iff.1 hb with heq | hb
    · rw [(List.cons.inj heq).1] at hw
      cases hw
    · exact hi.apart x b hb hw
  · rcases List.suffix_cons_iff.1 hb with heq | hb
    · rw [(List.cons.inj heq).1] at hw
      cases hw
    · exact hi.timely x b j hb hw
  · rcases List.mem_cons.1 hx with rfl | hx
    · rfl
    · exact hi.unconfirmed x hx

theorem sound : (protocol env g).Sound (code env) Outside.apply
    fun i j _ r v => r = .ok () → Accounted env j i v where
  env e v hi hok := ⟨env_keeps e hi hok, fun _ => List.suffix_cons _ _⟩
  start _ j _ _ _ := safe_code j
  stable i j _ r := by
    intro v v' h hr hok c hc
    obtain ⟨userID, hd⟩ := h hok c hc
    exact ⟨userID, stable_done hd hr⟩

/-! ## One call for one code -/

/-- **Two claims of one code for one step** would lie closer together than the key lives. -/
theorem claims_apart (hi : Inv env g v) {x y : Ev World Call Outside} {b : History} {j : Nat}
    (hb : x :: b <:+ v.hist) (hx : wins? g x = some i)
    (hcx : ∃ z ∈ b, checks? env g z = some i) (hy : y ∈ b) (hwy : wins? g y = some j)
    (hcy : ∃ t, y :: t <:+ v.hist ∧ ∃ z ∈ t, checks? env g z = some j) : False := by
  have hnear : ∀ {z : Ev World Call Outside} {n}, checks? env g z = some n →
      Near z.pre.now g.step := by
    intro z n hz
    cases z with
    | env => cases hz
    | act =>
      simp only [checks?] at hz
      split at hz
      · rename_i hc
        exact of_decide_eq_true ((Bool.and_eq_true _ _).mp hc.2).1
      · cases hz
  obtain ⟨z, hz, hcz⟩ := hcx
  obtain ⟨t, ht, z', hz', hcz'⟩ := hcy
  have hfar := hi.apart x b hb (by rw [hx]; rfl) y hy (by rw [hwy]; rfl)
  obtain ⟨-, hx'⟩ := hi.timely x b i hb hx z hz hcz
  obtain ⟨hy', -⟩ := hi.timely y t j ht hwy z' hz' hcz'
  obtain ⟨hn, -⟩ := hnear hcz
  obtain ⟨-, hn'⟩ := hnear hcz'
  simp only [totpReplayTTL, period] at hfar hx' hn hn'
  omega

theorem accepted_unique (hi : Inv env g v) {j : Nat} (h : Accepted env g v.hist i)
    (h' : Accepted env g v.hist j) : i = j := by
  rcases h with ⟨x, hx, hc⟩ | ⟨t, ht, x, hx, hw, hc⟩
  · rw [hi.unconfirmed x hx] at hc
    cases hc
  rcases h' with ⟨y, hy, hc'⟩ | ⟨t', ht', y, hy, hw', hc'⟩
  · rw [hi.unconfirmed y hy] at hc'
    cases hc'
  obtain ⟨b, rfl⟩ := List.head?_eq_some_iff.1 hx
  obtain ⟨b', rfl⟩ := List.head?_eq_some_iff.1 hy
  have hs := (List.mem_tails _ _).1 ht
  have hs' := (List.mem_tails _ _).1 ht'
  -- of two suffixes of the history one is a suffix of the other
  rcases List.suffix_or_suffix_of_suffix hs hs' with hle | hle
  · rcases List.suffix_cons_iff.1 hle with heq | hle
    · rw [(List.cons.inj heq).1, hw'] at hw
      exact (Option.some.inj hw).symm
    · exact (claims_apart hi hs' hw' hc' (hle.subset List.mem_cons_self) hw ⟨b, hs, hc⟩).elim
  · rcases List.suffix_cons_iff.1 hle with heq | hle
    · rw [(List.cons.inj heq).1, hw] at hw'
      exact Option.some.inj hw'
    · exact (claims_apart hi hs hw hc (hle.subset List.mem_cons_self) hw' ⟨b', hs', hc'⟩).elim

/-- **A code for one step of one secret is accepted by one call**, in every run in which no
`VerifyEnable` accepts it, no call waits for a period between check and claim, and the key is not
lost; and a call that returned success has accepted its six-digit code. -/
theorem accepted_once (env : Env) (g : Claimed) (w : World) (ms : List (Move Outside Job))
    (h : (protocol env g).Admits (code env) Outside.apply (Pool.init w : Calls) ms) :
    (∀ i j, Accepted env g (run env w ms).view.hist i → Accepted env g (run env w ms).view.hist j →
      i = j) ∧
    ∀ i th c, (run env w ms).threads[i]? = some th → th.prog = .ret () → c ∈ th.job.digits env →
      ∃ userID s k, Accepted env ⟨userID, c, s, k⟩ (run env w ms).view.hist i := by
  have hinit : (protocol env g).inv ⟨w, []⟩ := by
    refine ⟨fun _ h => (by cases h), fun _ h => (by cases h), fun x b hb => ?_,
      fun x b j hb => ?_, fun _ h => (by cases h)⟩
    · exact absurd (List.suffix_nil.1 hb) (List.cons_ne_nil _ _)
    · exact absurd (List.suffix_nil.1 hb) (List.cons_ne_nil _ _)
  have hgood := exec_good sound ms (good_init hinit) h
  exact ⟨fun i j hi hj => accepted_unique hgood.inv hi hj,
    fun i th c hth hp hc => hgood.returned hth hp rfl c hc⟩

/-! ## Codes that work twice -/

instance (i : Nat) (l : Call) (v : Shared) : Decidable ((protocol env g).ok i l v) :=
  inferInstanceAs (Decidable (_ ∧ _))

instance (e : Outside) (v : Shared) : Decidable ((protocol env g).okEnv e v) :=
  inferInstanceAs (Decidable (_ ≠ _))

/-- A row of `jose` with the secret `s7`. -/
def device (enabled : Bool) : TOTPDevice :=
  { id := 3, userID := 1, secret := "", secretEncrypted := "es7", pendingSecretEncrypted := "",
    enabled := enabled }

/-- `jose` has a device with the secret `s7`, confirmed or not. -/
def deviceWorld (enabled : Bool) : World :=
  { World.sample with db := { World.sample.db with
      totpDevices := ⟨[device enabled], by cases enabled <;> decide⟩ } }

/-- The code of that secret for the step after that of the time 1000 s. -/
def sampleCode : Claimed := ⟨1, "s70000", "s7", 34⟩

def login : Job := .validate .sample 1 "s70000"

/-- The code is used, and used again ten seconds later. -/
def inTurn : List (Move Outside Job) :=
  .spawn login :: List.replicate 8 (.sched 0) ++
    .env (.tick 10000) :: .spawn login :: List.replicate 8 (.sched 1)

/-- The first call accepts the code, and it is the only one. -/
theorem accepted_once_inTurn :
    Accepted (.plain .sample) sampleCode
      (run (.plain .sample) (deviceWorld true) inTurn).view.hist 0 ∧
      ∀ j, Accepted (.plain .sample) sampleCode
        (run (.plain .sample) (deviceWorld true) inTurn).view.hist j → j = 0 := by
  have hadm : (protocol (.plain .sample) sampleCode).Admits (code (.plain .sample)) Outside.apply
      (Pool.init (deviceWorld true) : Calls) inTurn := by decide +kernel
  have h0 : Accepted (.plain .sample) sampleCode
      (run (.plain .sample) (deviceWorld true) inTurn).view.hist 0 := by decide +kernel
  exact ⟨h0, fun j hj => (accepted_once (.plain .sample) sampleCode (deviceWorld true) inTurn
    hadm).1 j 0 hj h0⟩

/-- The code that confirmed the device is used to log in. -/
def confirmed : List (Move Outside Job) :=
  .spawn (.verifyEnable .sample 1 "s70000") :: List.replicate 20 (.sched 0) ++
    .spawn login :: List.replicate 8 (.sched 1)

/-- The second call checks the code at the end of its 90 seconds and claims it 42 seconds later,
when the key of the first one is gone. -/
def stalled : List (Move Outside Job) :=
  .spawn login :: List.replicate 8 (.sched 0) ++
    .env (.tick 79000) :: .spawn login :: List.replicate 3 (.sched 1) ++
      .env (.tick 42000) :: List.replicate 8 (.sched 1)

/-- **A code accepted by two calls**, which both return success. -/
theorem accepted_again :
    (Accepted (.plain .sample) sampleCode
        (run (.plain .sample) (deviceWorld false) confirmed).view.hist 0 ∧
      Accepted (.plain .sample) sampleCode
        (run (.plain .sample) (deviceWorld false) confirmed).view.hist 1 ∧
      (run (.plain .sample) (deviceWorld false) confirmed).threads.map (fun t => t.prog.isRet) =
        [true, true]) ∧
    Accepted (.plain .sample) sampleCode
        (run (.plain .sample) (deviceWorld true) stalled).view.hist 0 ∧
      Accepted (.plain .sample) sampleCode
        (run (.plain .sample) (deviceWorld true) stalled).view.hist 1 ∧
      (run (.plain .sample) (deviceWorld true) stalled).threads.map (fun t => t.prog.isRet) =
        [true, true] := by
  decide +kernel

end FinnAuth.Replay
