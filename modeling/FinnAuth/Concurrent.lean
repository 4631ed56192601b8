import FinnAuth.Lib.Pool
import FinnAuth.Actions
import FinnAuth.Identity

/-!
# Service calls side by side

The rules for service functions in a pool. Their repository calls are the atomic actions, as in a
deployment where several processes share one database; between two of them anything another call
does may happen, and so may the outside changes below.

Results:
* `safe_seq`: the program text read from its end, as `wp_seq` reads it for a call that runs alone;
* **`safe_repo`**: a repository call, seen as the one statement it hands over.
-/

namespace FinnAuth

open Lib Prog Protocol

/-- A history of service calls. -/
abbrev History := List (Ev World Call Outside)

/-- The shared view of a pool of service calls. -/
abbrev Shared := View World Call Outside

variable {α β : Type} {S : Protocol World Call Outside} {i : Nat} {v : Shared}

/-! ## Control flow -/

variable {A : Shared → Prop} {p : M α} {e : Err} {Q : Except Err Unit → Shared → Prop} {f : α → M β}

/-- What the rest `f` of a program owes, as a postcondition of the part before it. -/
def thenSafe (S : Protocol World Call Outside) (i : Nat) (f : α → M β)
    (Q : Except Err β → Shared → Prop) : Except Err α → Shared → Prop
  | .ok a, v => S.Safe i Q (f a) v
  | .error e, v => Q (.error e) v

theorem safe_seq {Q : Except Err β → Shared → Prop} (h : S.Safe i (thenSafe S i f Q) p v) :
    S.Safe i Q (p >>= f) v :=
  safe_bind h (fun _ _ h => h) fun _ _ h => h

theorem safe_refuse {c : Bool} (herr : c = true → Q (.error e) v) (hok : c = false → Q (.ok ()) v) :
    S.Safe i Q (refuse c e) v := by
  cases c with
  | true => exact herr rfl
  | false => exact hok rfl

/-- The refusal of `refuseAfter` comes with the error `e` or with that of `p`. -/
theorem safe_refuseAfter {c : Bool} {p : M Unit}
    (herr : c = true → S.Safe i (fun _ v' => ∀ e', Q (.error e') v') p v)
    (hok : c = false → Q (.ok ()) v) : S.Safe i Q (refuseAfter c p e) v := by
  cases c with
  | true => exact safe_seq ((herr rfl).mono fun r v' h => by cases r <;> exact h _)
  | false => exact hok rfl

theorem safe_wrap {Q : Except Err α → Shared → Prop} {s : String}
    (h : S.Safe i (fun r v' => Q (r.mapError (.wrapped s)) v') p v) : S.Safe i Q (wrap s p) v := by
  refine safe_seq (safe_attempt (h.mono fun r v' h => ?_))
  cases r <;> exact h

/-- A stretch of quiet actions, in front of the rest `f`. -/
theorem safe_quiet_seq {P : Call → World → World → Prop} {Q : Except Err β → Shared → Prop}
    (hp : Each P p) (hA : A v) (hst : S.Stable i A)
    (hquiet : ∀ l g v', S.inv v' → P l v'.state (g v'.state) → S.ok i l v' → S.Quiet i l g v')
    (herr : ∀ e v', A v' → Q (.error e) v') (hf : ∀ a v', A v' → S.Safe i Q (f a) v') :
    S.Safe i Q (p >>= f) v := by
  refine safe_seq ((safe_quiet hp hA hst hquiet).mono fun r v' hA => ?_)
  cases r with
  | ok a => exact hf a v' hA
  | error e => exact herr e v' hA

/-! ## Repository calls -/

/-- **A repository call under a stable assertion**: it fails and changes nothing, or it decides on
the database as it finds it and hands over its statement. -/
theorem safe_repo {Q : Except Err α → Shared → Prop} {l : Call}
    {f : DB → Except Err α × Option Stmt} (hA : A v) (hst : S.Stable i A)
    (h : ∀ v' r o g, S.inv v' → A v' → S.ok i l v' →
      (r = .error .db ∧ o = none ∨ f v'.state.db = (r, o)) → Executes o v'.state (g v'.state) →
        S.Step i v' (v'.act i l g) ∧ Q r (v'.act i l g)) : S.Safe i Q (repo l f) v := by
  refine safe_atomic hA hst fun v' hi hA hok => ?_
  obtain ⟨o, hro, hex⟩ := repo_cases f v'.state
  exact h v' _ o _ hi hA hok hro hex

/-! ## Signed tokens -/

/-- `Verify` as one read of the state. -/
theorem jwtVerify_eq (env : Env) (t : Token) : jwtVerify env t =
    .atomic .other fun w => ((match w.signed[t]? with
      | none => .error .jwtInvalidToken
      | some c => if c.accepted env w.now then .ok c else .error .jwtInvalidToken), w) := by
  unfold jwtVerify
  congr 1
  funext w
  cases w.signed[t]? with
  | none => rfl
  | some c =>
    simp only
    split <;> rfl

/-- The claims that `Verify` accepts are those of the signed token. -/
theorem safe_jwtVerifyAs {env : Env} {t : Token} {want : TokenType} (hA : A v) (hst : S.Stable i A)
    (hq : ∀ v', S.inv v' → S.Quiet i .other (fun w => w) v') :
    S.Safe i (fun r v' => A v' ∧ ∀ c, r = .ok c → v'.state.signed[t]? = some c)
      (jwtVerifyAs env t want e) v := by
  have hfail : ∀ (v' : Shared) (e : Err), A v' →
      A v' ∧ ∀ c, (.error e : Except Err Claims) = .ok c → v'.state.signed[t]? = some c :=
    fun _ _ h => ⟨h, fun _ h => by cases h⟩
  refine safe_seq (safe_attempt ?_)
  rw [jwtVerify_eq]
  refine safe_atomic hA hst fun v' hi hA _ => ?_
  have hA' : A (v'.act i .other fun w => w) := hst hA ((hq v' hi).2 i)
  refine ⟨(hq v' hi).step, ?_⟩
  cases hc : v'.state.signed[t]? with
  | none => exact hfail _ _ hA'
  | some c =>
    simp only
    split
    · change S.Safe i _ (if c.type = want then .ret c else .fail e) _
      split
      · refine ⟨hA', fun c' h => ?_⟩
        cases h
        exact hc
      · exact hfail _ _ hA'
    · exact hfail _ _ hA'

end FinnAuth
