import FinnAuth.Footprint.Totp
import FinnAuth.Users

/-!
# The rollback of `VerifyEnable`

`verifyEnableAudited` saves the activated device first and draws the recovery codes after it. When
the codes fail it undoes the activation by hand, with one more save. The undo swaps the two sealed
columns back and switches a fresh enrolment off again. It does not bring back what the activation
dropped or what was changed before it: the legacy plaintext, which a confirmed rotation wipes, and a
seal that could not be opened and was replaced on the way.

The failing codes are any: the random source or the cipher fails in some iteration, or the store of
the batch does. The function runs outside an audit transaction, each statement on its own.

Results:
* `accepted_row`: the row in hand when a code was accepted, next to the stored one;
* `saved_row`: the columns of the stored row after a save;
* **`rollback_restores_iff`**: the rollback restores the row iff a rotation found no legacy
  plaintext on an active device, or a fresh enrolment could open its seal;
* **`rollback_loses_legacy`**: the active secret of a legacy device is gone after it.
-/

namespace FinnAuth

open Lib Prog

variable {env : Env} {ctx : Ctx} {u : UserID} {code : String} {w : World}

/-! ## The parts of the call -/

variable {d row : TOTPDevice} {db : DB} {w₁ : World} {fails : Option Nat}

/-- `newRecoveryCodes`, when the random source or the cipher fails in the iteration after `k` codes;
`none` when neither does. -/
def recoveryCodesUntil (env : Env) (ctx : Ctx) (u : UserID) : Option Nat → M (List String)
  | none => newRecoveryCodes env ctx u
  | some k => do
    let _ ← drawRecoveryCodes env u k
    .fail .crypto

/-- `verifyEnableAudited` from the accepted code on, with the recovery codes from `codes`. -/
def activateWith (ctx : Ctx) (u : UserID) (codes : M (List String)) (d : TOTPDevice) :
    M (List String) := do
  totpSave ctx (activate d)
  codes.attempt >>= fun r => match r with
    | .ok codes => do
      totpRecordSuccess ctx u "totp_enabled" "totp enabled"
      pure codes
    | .error e => do
      ignore (totpSave ctx (deactivate d))
      .fail (.wrapped "generate recovery codes" e)

/-- The section of `verifyEnableAudited` up to the accepted code, for whom `next` goes on. -/
def confirmThen {α : Type} (env : Env) (ctx : Ctx) (u : UserID) (code : String)
    (next : TOTPDevice → M α) : M α := do
  match ← totpFindByUserID ctx u with
  | none => do
    totpRecordFailure env ctx u "no pending device"
    .fail .invalidCode
  | some d => do
    refuse (d.enabled && d.pendingSecretEncrypted = "") .invalidInput
    let (secret, d) ← openStagedSecret env ctx d
    let valid ← totpValid env (.confirmCode u) code secret
    refuseAfter (!valid) (totpRecordFailure env ctx u "bad enable code") .invalidCode
    next d

/-- `verifyEnableAudited` with failing recovery codes. -/
def verifyEnableUntil (env : Env) (ctx : Ctx) (u : UserID) (code : String) (fails : Option Nat) :
    M (List String) := do
  guardBruteForce env ctx u
  withRotationLock u
    (confirmThen env ctx u code (activateWith ctx u (recoveryCodesUntil env ctx u fails)))

/-- When neither the random source nor the cipher fails it is the function itself. -/
theorem verifyEnableUntil_none :
    verifyEnableUntil env ctx u code none = totpVerifyEnableAudited env ctx u code := rfl

/-- `verifyEnableAudited` up to the accepted code: the row it goes on with. -/
def acceptCode (env : Env) (ctx : Ctx) (u : UserID) (code : String) : M TOTPDevice := do
  guardBruteForce env ctx u
  let locked ← acquireRotationLock u
  refuse (!locked) .rateLimited
  confirmThen env ctx u code .ret

/-- The call of `verifyEnableAudited` that starts in `w` accepts its code, its recovery codes fail,
and the rollback write succeeds. -/
def RolledBack (env : Env) (ctx : Ctx) (u : UserID) (code : String) (fails : Option Nat)
    (w : World) : Prop :=
  ∃ d w₁ w₂ w₃ w₄ e, (acceptCode env ctx u code).run w = (.ok d, w₁) ∧
    (totpSave ctx (activate d)).run w₁ = (.ok (), w₂) ∧
    (recoveryCodesUntil env ctx u fails).run w₂ = (.error e, w₃) ∧
    (totpSave ctx (deactivate d)).run w₃ = (.ok (), w₄)

theorem confirmThen_eq {α : Type} (next : TOTPDevice → M α) :
    confirmThen env ctx u code next = (confirmThen env ctx u code .ret).bind next := by
  simp only [confirmThen, bind_def, bind_assoc]
  congr 1
  funext row
  cases row with
  | none => simp only [bind_assoc, bind_fail]
  | some d => simp only [bind_assoc, bind_ret]

/-- After the accepted code the rest runs, and then the lock is released. -/
theorem verifyEnableUntil_db (h : (acceptCode env ctx u code).run w = (.ok d, w₁)) :
    ((verifyEnableUntil env ctx u code fails).run w).2.db =
      ((activateWith ctx u (recoveryCodesUntil env ctx u fails) d).run w₁).2.db := by
  obtain ⟨_, wg, hguard, h⟩ := ok_of_run_bind h
  obtain ⟨locked, wl, hlock, h⟩ := ok_of_run_bind h
  obtain ⟨_, wr, hrefuse, h⟩ := ok_of_run_bind h
  have hsection : (confirmThen env ctx u code
      (activateWith ctx u (recoveryCodesUntil env ctx u fails))).run wr =
        (activateWith ctx u (recoveryCodesUntil env ctx u fails) d).run w₁ := by
    rw [confirmThen_eq, run_bind_of_ok h]
  have hall : (verifyEnableUntil env ctx u code fails).run w = ((confirmThen env ctx u code
      (activateWith ctx u (recoveryCodesUntil env ctx u fails))).attempt.bind fun r =>
        (releaseRotationLock u).bind fun _ => .ofExcept r).run wr := by
    rw [verifyEnableUntil, bind_def, run_bind_of_ok hguard, withRotationLock, bind_def,
      run_bind_of_ok hlock, bind_def, run_bind_of_ok hrefuse]
    rfl
  rw [hall, run_bind, run_attempt, hsection]
  generalize (activateWith ctx u (recoveryCodesUntil env ctx u fails) d).run w₁ = x
  obtain ⟨r, w'⟩ := x
  cases r with
  | ok => rfl
  | error e => rfl

/-- The rollback is the last write of the call. -/
theorem db_of_rolledBack {w₁ w₂ w₃ w₄ : World} {e : Err}
    (haccept : (acceptCode env ctx u code).run w = (.ok d, w₁))
    (hactivate : (totpSave ctx (activate d)).run w₁ = (.ok (), w₂))
    (hcodes : (recoveryCodesUntil env ctx u fails).run w₂ = (.error e, w₃))
    (hrollback : (totpSave ctx (deactivate d)).run w₃ = (.ok (), w₄)) :
    ((verifyEnableUntil env ctx u code fails).run w).2.db = w₄.db := by
  rw [verifyEnableUntil_db haccept]
  simp only [activateWith, bind_def, run_bind, hactivate, run_attempt, hcodes, ignore, hrollback]
  rfl

/-! ## The row that was accepted -/

/-- The row in hand after an accepted code, for the stored row `row`: a rotation leaves it as it is,
a fresh enrolment may have sealed its plaintext again. -/
inductive Accepted (env : Env) (row : TOTPDevice) : TOTPDevice → Prop where
  | rotation (h : row.pendingSecretEncrypted ≠ "") : Accepted env row row
  | enrolment (h : row.pendingSecretEncrypted = "") (hoff : row.enabled = false)
      (hopen : row.secretEncrypted = "" ∨ (env.decrypt row.secretEncrypted).isSome) :
      Accepted env row row
  | resealed (h : row.pendingSecretEncrypted = "") (hoff : row.enabled = false)
      (hne : row.secretEncrypted ≠ "") (hlost : env.decrypt row.secretEncrypted = none)
      (nonce : Nat) :
      Accepted env row { row with secretEncrypted := env.encrypt nonce row.secret }

theorem gives_sealText {plain : String} :
    Gives (fun sealed _ => ∃ nonce, sealed = env.encrypt nonce plain) (sealText env plain) w := by
  unfold Gives
  intro sealed h
  cases h
  exact ⟨w.entropy, rfl⟩

theorem gives_openStagedSecret (hguard : (row.enabled && row.pendingSecretEncrypted = "") = false) :
    Gives (fun x _ => Accepted env row x.2) (openStagedSecret env ctx row) w := by
  unfold openStagedSecret
  split
  · rename_i h
    split
    · exact gives_ret (.rotation h)
    · exact gives_fail _
  · rename_i h
    have hnone : row.pendingSecretEncrypted = "" := not_not.1 h
    have hoff : row.enabled = false := by simpa [hnone] using hguard
    unfold openActiveSecret
    split
    · rename_i hempty
      exact gives_ret (.enrolment hnone hoff (.inl hempty))
    · rename_i hne
      split
      · rename_i plain hplain
        exact gives_ret (.enrolment hnone hoff (.inr (by simp [hplain])))
      · rename_i hlost
        split
        · exact gives_fail _
        · refine gives_then gives_sealText fun sealed w₁ ⟨nonce, hsealed⟩ => ?_
          subst hsealed
          exact gives_after (F := anything) (each_ignore (each_totpSave anything_quiet
            (fun _ => trivial) trivial)) fun _ _ _ => gives_ret (.resealed hnone hoff hne hlost _)

/-- The guard only reads. -/
theorem gives_guardBruteForce :
    Gives (fun _ w' => w'.db = w.db) (guardBruteForce env ctx u) w := by
  refine gives_seq ?_
  unfold Gives
  exact fun _ _ => gives_refuseAfter fun _ => rfl

theorem gives_acquireRotationLock :
    Gives (fun _ w' => w'.db = w.db) (acquireRotationLock u) w := by
  unfold Gives
  exact fun _ _ => rfl

/-- **The row in hand when a code was accepted**, next to the stored one. -/
theorem accepted_row (hrow : w.db.totpByUserID ctx u = some row)
    (h : (acceptCode env ctx u code).run w = (.ok d, w₁)) : Accepted env row d := by
  have hgives : Gives (fun d _ => Accepted env row d) (acceptCode env ctx u code) w := by
    refine gives_then gives_guardBruteForce fun _ wg hg => ?_
    refine gives_then gives_acquireRotationLock fun locked wl hl => ?_
    refine gives_seq (gives_refuse fun _ => ?_)
    have hfind : Gives (fun x _ => x = some row) (totpFindByUserID ctx u) wl := by
      unfold totpFindByUserID query
      refine gives_repo fun x o w' hx _ => ?_
      cases hx
      rw [hl, hg]
      exact hrow
    refine gives_then hfind fun x wf hx => ?_
    subst hx
    refine gives_seq (gives_refuse fun hguard => ?_)
    refine gives_then (gives_openStagedSecret hguard) fun x wo hx => ?_
    exact gives_after (F := anything) (each_totpValid anything_quiet) fun valid wv _ =>
      gives_seq (gives_refuseAfter fun _ => gives_ret hx)
  have hd : ∀ d', ((acceptCode env ctx u code).run w).1 = .ok d' → Accepted env row d' := hgives
  exact hd d (by rw [h])

/-! ## The row that was saved -/

/-- The device rows have the same flag and secrets. -/
structure SameColumns (d d' : TOTPDevice) : Prop where
  enabled : d'.enabled = d.enabled
  secret : d'.secret = d.secret
  secretEncrypted : d'.secretEncrypted = d.secretEncrypted
  pendingSecretEncrypted : d'.pendingSecretEncrypted = d.pendingSecretEncrypted

theorem totpByUserID_of_owns (h : db.owns ctx u = true) :
    db.totpByUserID ctx u = db.totpDevices.get? u := by
  unfold DB.totpByUserID Table.first? Table.get?
  congr 1
  funext d
  by_cases hd : d.userID = u
  · simp [hd, h]
  · simp [hd]

theorem row_insertDevice (h : d.userID ∉ db.totpDevices.rows.map TOTPDevice.userID) :
    (db.exec (.insertDevice d)).totpDevices.get? d.userID = some d := by
  obtain ⟨t, ht, -⟩ := Table.insert_of_fresh h
  change ((db.totpDevices.insert d).getD db.totpDevices).get? d.userID = some d
  rw [ht, Option.getD_some, Table.get?_insert ht, if_pos rfl]

theorem row_updateDevice
    (h : (db.totpDevices.rows.any fun r => r.id = d.id && r.userID = d.userID) = true) :
    ∃ row, (db.exec (.updateDevice d)).totpDevices.get? d.userID = some row ∧
      SameColumns d row := by
  obtain ⟨r, hr, hid⟩ := List.any_eq_true.1 h
  simp only [Bool.and_eq_true, decide_eq_true_eq] at hid
  have hget : db.totpDevices.get? d.userID = some r :=
    (Table.get?_eq_some_iff _).2 ⟨hr, hid.2⟩
  refine ⟨{ d with id := r.id, userID := r.userID }, ?_, ⟨rfl, rfl, rfl, rfl⟩⟩
  simp [DB.exec, Table.get?_update, hget, hid]

/-- **The stored row after a save** has the columns that were saved. -/
theorem saved_row {w' : World} (h : (totpSave ctx d).run w = (.ok (), w')) :
    ∃ row, w'.db.totpByUserID ctx d.userID = some row ∧ SameColumns d row := by
  have hgives : Gives (fun _ w' => ∃ row, w'.db.totpByUserID ctx d.userID = some row ∧
      SameColumns d row) (totpSave ctx d) w := by
    refine gives_seq ?_
    unfold Gives
    rw [wp_draw]
    intro n _
    refine gives_repo fun _ o w' hf hex => ?_
    cases ho : w.db.owns ctx d.userID with
    | false => simp [ho] at hf
    | true =>
      have ho' : w'.db.owns ctx d.userID = true := by
        rw [hex.db]
        cases o with
        | none => exact ho
        | some s => exact owns_exec s ho
      rw [totpByUserID_of_owns ho', hex.db]
      simp only [ho, Bool.not_true, Bool.false_eq_true, if_false] at hf
      split at hf
      · split at hf
        · cases hf
        · rename_i hfresh
          cases hf
          exact ⟨_, row_insertDevice hfresh, rfl, rfl, rfl, rfl⟩
      · split at hf
        · rename_i hany
          cases hf
          exact row_updateDevice hany
        · cases hf
  have hrow : ∀ a, ((totpSave ctx d).run w).1 = .ok a →
      ∃ row, ((totpSave ctx d).run w).2.db.totpByUserID ctx d.userID = some row ∧
        SameColumns d row := hgives
  rw [h] at hrow
  exact hrow () rfl

/-! ## The rollback -/

/-- The secret that `openActiveSecret` finds, if any. -/
def activeSecret (env : Env) (d : TOTPDevice) : Option String :=
  if d.secretEncrypted = "" then some d.secret
  else (env.decrypt d.secretEncrypted).or (if d.secret = "" then none else some d.secret)

/-- The rollback restored the row: the columns are those before the call, and so is the active
secret. -/
structure Restored (env : Env) (before after : TOTPDevice) : Prop extends
    SameColumns before after where
  active : activeSecret env after = activeSecret env before

theorem restored_iff {before after : TOTPDevice} :
    Restored env before after ↔ SameColumns before after := by
  refine ⟨fun h => h.toSameColumns, fun h => ⟨h, ?_⟩⟩
  unfold activeSecret
  rw [h.secret, h.secretEncrypted]

/-- The rows whose activation the rollback undoes: a rotation of an active device without legacy
plaintext, or an enrolment whose seal is empty or can be opened. -/
def RollbackSafe (env : Env) (row : TOTPDevice) : Prop :=
  if row.pendingSecretEncrypted ≠ "" then row.secret = "" ∧ row.enabled = true
  else row.secretEncrypted = "" ∨ (env.decrypt row.secretEncrypted).isSome

/-- The undo of an activation, next to the row before it. -/
theorem deactivate_iff (h : Accepted env row d) :
    SameColumns row (deactivate d) ↔ RollbackSafe env row := by
  cases h with
  | rotation h =>
    rw [RollbackSafe, if_pos h, deactivate, if_pos h, activate, if_pos h]
    refine ⟨fun hs => ⟨hs.secret.symm, hs.enabled.symm⟩, fun hs => ?_⟩
    exact ⟨hs.2.symm, hs.1.symm, rfl, rfl⟩
  | enrolment h hoff hopen =>
    rw [RollbackSafe, if_neg (not_not.2 h), deactivate, if_neg (not_not.2 h), activate,
      if_neg (not_not.2 h)]
    exact iff_of_true ⟨hoff.symm, rfl, rfl, rfl⟩ hopen
  | resealed h hoff hne hlost nonce =>
    rw [RollbackSafe, if_neg (not_not.2 h), deactivate, if_neg (not_not.2 h), activate,
      if_neg (not_not.2 h)]
    refine iff_of_false (fun hs => ?_) (by simp [hne, hlost])
    -- the new seal can be opened, the old one could not
    have hseal : env.encrypt nonce row.secret = row.secretEncrypted := hs.secretEncrypted
    have hopens := env.decrypt_encrypt nonce row.secret
    rw [hseal, hlost] at hopens
    cases hopens

theorem userID_deactivate (h : Accepted env row d) : (deactivate d).userID = row.userID := by
  have hd : d.userID = row.userID := by cases h <;> rfl
  rw [← hd]
  unfold deactivate activate
  split
  · rfl
  · rfl

/-- **The rollback restores the device iff** a rotation found an active device without legacy
plaintext, or a fresh enrolment could open its seal. -/
theorem rollback_restores_iff {row : TOTPDevice} {fails : Option Nat}
    (hrow : w.db.totpByUserID ctx u = some row) (h : RolledBack env ctx u code fails w) :
    (∃ row', ((verifyEnableUntil env ctx u code fails).run w).2.db.totpByUserID ctx u = some row' ∧
      Restored env row row') ↔ RollbackSafe env row := by
  obtain ⟨d, w₁, w₂, w₃, w₄, e, haccept, hactivate, hcodes, hrollback⟩ := h
  have haccepted := accepted_row hrow haccept
  have huser : row.userID = u := by
    simpa using ((Bool.and_eq_true _ _).mp (Table.mem_of_first? hrow).2).1
  obtain ⟨row', hrow', hsame⟩ := saved_row hrollback
  rw [userID_deactivate haccepted, huser] at hrow'
  rw [db_of_rolledBack haccept hactivate hcodes hrollback, hrow', ← deactivate_iff haccepted]
  simp only [Option.some.injEq, exists_eq_left', restored_iff]
  constructor
  · intro h
    exact ⟨hsame.enabled.symm.trans h.enabled, hsame.secret.symm.trans h.secret,
      hsame.secretEncrypted.symm.trans h.secretEncrypted,
      hsame.pendingSecretEncrypted.symm.trans h.pendingSecretEncrypted⟩
  · intro h
    exact ⟨hsame.enabled.trans h.enabled, hsame.secret.trans h.secret,
      hsame.secretEncrypted.trans h.secretEncrypted,
      hsame.pendingSecretEncrypted.trans h.pendingSecretEncrypted⟩

/-- The sample world with the device `d`, in which the third database action fails. -/
def World.withDevice (d : TOTPDevice) : World :=
  { World.sample with
    db := { World.sample.db with totpDevices := ⟨[d], by simp⟩ }
    faults := [false, false, true] }

/-- An active device in the middle of a rotation to the secret `fresh`. -/
def TOTPDevice.rotating (secret secretEncrypted : String) : TOTPDevice :=
  { id := 7, userID := 1, secret := secret, secretEncrypted := secretEncrypted,
    pendingSecretEncrypted := "efresh", enabled := true }

/-- A sealed device in a rotation: storing the recovery codes fails, and the rollback restores the
row. -/
theorem rollback_restores_sealed :
    let env := Env.plain Config.sample
    let w := World.withDevice (.rotating "" "eold")
    RolledBack env Ctx.sample 1 "fresh0" none w ∧
      ∃ row', ((verifyEnableUntil env Ctx.sample 1 "fresh0" none).run w).2.db.totpByUserID
        Ctx.sample 1 = some row' ∧ Restored env (.rotating "" "eold") row' := by
  intro env w
  have hrow : w.db.totpByUserID Ctx.sample 1 = some (.rotating "" "eold") := by decide +kernel
  have hback : RolledBack env Ctx.sample 1 "fresh0" none w :=
    ⟨.rotating "" "eold", _, _, _, _, .db, Prod.ext (by decide +kernel) rfl,
      Prod.ext (by decide +kernel) rfl, Prod.ext (by decide +kernel) rfl,
      Prod.ext (by decide +kernel) rfl⟩
  exact ⟨hback, (rollback_restores_iff hrow hback).2 ⟨rfl, rfl⟩⟩

/-- **A legacy device in a rotation**: storing the recovery codes fails, the rollback write
succeeds, and the device is left on with an empty active secret. -/
theorem rollback_loses_legacy :
    let env := Env.plain Config.sample
    let w := World.withDevice (.rotating "legacy" "")
    let w' := ((totpVerifyEnableAudited env Ctx.sample 1 "fresh0").run w).2
    RolledBack env Ctx.sample 1 "fresh0" none w ∧
      w'.db.totpByUserID Ctx.sample 1 = some (.rotating "" "") ∧
      activeSecret env (.rotating "legacy" "") = some "legacy" ∧
      activeSecret env (.rotating "" "") = some "" := by
  intro env w w'
  refine ⟨?_, by decide +kernel, by decide +kernel, by decide +kernel⟩
  exact ⟨.rotating "legacy" "", _, _, _, _, .db, Prod.ext (by decide +kernel) rfl,
    Prod.ext (by decide +kernel) rfl, Prod.ext (by decide +kernel) rfl,
    Prod.ext (by decide +kernel) rfl⟩

end FinnAuth
