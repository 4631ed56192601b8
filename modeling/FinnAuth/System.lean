import FinnAuth.Footprint.Calls

/-!
# The whole system

Runs in which the public calls of `Api.lean` and the administrative ones follow one another, with
time, lost keys and the clean-up jobs in between. A property of the database that holds along every
run is checked on the statements a step may hand over (`advance_keeps`); the table of
`Footprint/Calls.lean` says which these are.

Results:
* **`advance_keeps`**: what the statements of a step and the clean-up keep, the step keeps;
* `advance_calm`, `advance_entropy`, `advance_pwdVersion`, `advance_authEpoch`: what no step
  undoes.
-/

namespace FinnAuth

open Lib Prog

/-- What can happen next. -/
inductive Step : Type where
  | event (ev : Event)
  | admin (ctx : Ctx) (a : AdminRequest)

/-- The step and the state after it. -/
def advance (env : Env) : Step → World → Reply × World
  | .event ev, w => respond env ev w
  | .admin ctx a, w => (noPair (serveAdmin ctx a)).run w

/-- A run of the system. -/
abbrev SystemRun := Run World Step Reply

/-- The run of the steps from the state `w`. -/
def systemRun (env : Env) (w : World) (steps : List Step) : SystemRun :=
  (Run.init w : SystemRun).exec (advance env) steps

/-- A public call as a step. -/
abbrev Step.call (ctx : Ctx) (r : Request) : Step := .event (.call ctx r)

/-- What a step may do in the state `w`; the changes from outside are not made by a call. -/
def Step.footprint (w : World) : Step → Footprint
  | .event (.call _ r) => r.footprint w
  | .event _ => ⟨fun _ => False, fun _ => False, fun _ => False, fun _ => True⟩
  | .admin _ a => a.footprint

/-- A property that the clean-up jobs do not touch. -/
def SurvivesPurge (I : DB → Prop) : Prop :=
  ∀ db now, I db → I (db.purgeUsedTokens now) ∧ I (db.purgeRefreshTokens now)

variable {env : Env} {w : World} {s : Step}

/-- **What the statements of a step and the clean-up keep, the step keeps.** -/
theorem advance_keeps {I : DB → Prop} (hpurge : SurvivesPurge I)
    (hI : ∀ db x, (s.footprint w).stmt x → I db → I (db.exec x)) (hw : I w.db) :
    I (advance env s w).2.db := by
  cases s with
  | admin ctx a =>
    rw [advance, run_noPair]
    exact (admin_ran ctx a w).keeps hI hw
  | event ev =>
    cases ev with
    | call ctx r => exact (serve_ran env ctx r w).keeps hI hw
    | purgeRefreshTokens => exact (hpurge _ _ hw).2
    | outside o =>
      cases o with
      | tick ms => exact hw
      | loseKey k => exact hw
      | purgeUsedTokens => exact (hpurge _ _ hw).1

theorem advance_calm (h : w.Calm) : (advance env s w).2.Calm := by
  cases s with
  | admin ctx a =>
    rw [advance, run_noPair]
    exact (admin_ran ctx a w).calm h
  | event ev =>
    cases ev with
    | call ctx r => exact (serve_ran env ctx r w).calm h
    | purgeRefreshTokens => exact ⟨h.faults, h.failure⟩
    | outside o => cases o <;> exact ⟨h.faults, h.failure⟩

theorem advance_entropy : w.entropy ≤ (advance env s w).2.entropy := by
  cases s with
  | admin ctx a =>
    rw [advance, run_noPair]
    exact (admin_ran ctx a w).entropy
  | event ev =>
    cases ev with
    | call ctx r => exact (serve_ran env ctx r w).entropy
    | purgeRefreshTokens => exact Nat.le_refl _
    | outside o => cases o <;> exact Nat.le_refl _

/-- No step lowers a password version. -/
theorem advance_pwdVersion (u : UserID) :
    w.db.pwdVersion u ≤ (advance env s w).2.db.pwdVersion u :=
  advance_keeps (I := fun db => w.db.pwdVersion u ≤ db.pwdVersion u)
    (fun _ _ h => ⟨h, h⟩) (fun db x _ h => Nat.le_trans h (pwdVersion_exec db x u))
    (Nat.le_refl _)

/-- Nor an authorisation epoch. -/
theorem advance_authEpoch (u : UserID) :
    w.db.authEpoch u ≤ (advance env s w).2.db.authEpoch u :=
  advance_keeps (I := fun db => w.db.authEpoch u ≤ db.authEpoch u)
    (fun _ _ h => ⟨h, h⟩) (fun db x _ h => Nat.le_trans h (authEpoch_exec db x u))
    (Nat.le_refl _)

/-- The state with other failures ahead. -/
def World.withFaults (w : World) (faults : List Bool) : World := { w with faults := faults }

end FinnAuth
