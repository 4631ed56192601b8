import FinnAuth.Concurrent
import FinnAuth.Footprint.Account

/-!
# What the actions of the TOTP service do, by their labels

A pool of calls is argued about from its history, and the history shows labels. `Does` says what an
action with a given label does to the three store keys and the two tables of the second factors; an
action without one of these labels leaves them alone. Every call on second factors is made of such
actions, so a protocol for such calls has one case per label and never looks at a program text
again, except where a result decides how the call goes on. `Rights` says which of them a call can
take at all: only enrolment takes the rotation lock, only enrolment and regeneration store codes,
only disabling and erasure switch a device off.

Results:
* `Does.store_ne`: the keys an action leaves alone;
* **`does_totpValidateAudited`**, `does_totpVerifyEnableAudited`, …: the calls.
-/

namespace FinnAuth

open Lib Prog

/-! ## Labels -/

variable {l : Call} {k : StoreKey}

/-- Statements on the two tables of the second factors. -/
def Stmt.onFactors : Stmt → Bool
  | .insertDevice _ => true
  | .updateDevice _ => true
  | .disableDevice _ => true
  | .replaceCodes _ _ => true
  | .useCode _ _ => true
  | _ => false

/-- What a stretch of a call may do besides reading and checking codes: take the rotation lock,
switch the device off, and replace the recovery codes by the batches that meet `batch`. -/
structure Rights where
  lock : Prop
  disable : Prop
  batch : List RecoveryCode → Prop

/-- Everything. -/
def Rights.all : Rights := ⟨True, True, fun _ => True⟩

/-- The labels that need a right. -/
def Rights.allows (K : Rights) : Site → Prop
  | .rotationLock _ => K.lock
  | .rotationUnlock _ => K.lock
  | .disableDevice _ => K.disable
  | .replaceCodes _ => ∃ codes, K.batch codes
  | _ => True

theorem exec_recoveryCodes {s : Stmt} (h : s.onFactors = false) (db : DB) :
    (db.exec s).recoveryCodes = db.recoveryCodes := by
  cases s <;> first | rfl | cases h

/-- The statements an action may hand over. -/
def Call.writes (K : Rights) : Call → Stmt → Prop
  | .site (.saveDevice u), s => ∃ d, d.userID = u ∧ (s = .insertDevice d ∨ s = .updateDevice d)
  | .site (.disableDevice u), s => s = .disableDevice u
  | .site (.markCode id), s => ∃ now, s = .useCode id now
  | .site (.replaceCodes u), s =>
    ∃ codes, K.batch codes ∧ (∀ c ∈ codes, c.userID = u) ∧ s = .replaceCodes u codes
  | _, s => s.onFactors = false

/-- What an action does to the keys of the TOTP service. -/
def Call.store (env : Env) : Call → TtlMap StoreKey → Nat → TtlMap StoreKey
  | .site (.totpGuard u), m, now => (m.get now (.totpFail u)).2
  | .site (.totpFailure u), m, now =>
    (m.incrBy now (.totpFail u) 1 env.cfg.totpAttemptWindow).2
  | .site (.totpSuccess u), m, _ => m.delete (.totpFail u)
  | .site (.replayGuard u code), m, now =>
    (m.setNX now (.totpReplay u ⟨code⟩) (.str "1") totpReplayTTL).2
  | .site (.rotationLock u), m, now =>
    (m.setNX now (.totpRotateLock u) (.str "1") rotationLockTTL).2
  | .site (.rotationUnlock u), m, _ => m.delete (.totpRotateLock u)
  | _, m, _ => m

/-- The user a label names. -/
def Site.user? : Site → Option UserID
  | .failedAttempt u => some u
  | .totpGuard u => some u
  | .totpFailure u => some u
  | .totpSuccess u => some u
  | .checkCode u _ _ => some u
  | .confirmCode u _ _ => some u
  | .replayGuard u _ => some u
  | .activeCodes u => some u
  | .markCode _ => none
  | .replaceCodes u => some u
  | .saveDevice u => some u
  | .disableDevice u => some u
  | .rotationLock u => some u
  | .rotationUnlock u => some u

/-- An action of a call for the user `u` that does what its label says and has the right to it. -/
structure Does (env : Env) (K : Rights) (u : UserID) (l : Call) (w w' : World) : Prop where
  user : ∀ s, l = .site s → (∀ v ∈ s.user?, v = u) ∧ K.allows s
  now : w'.now = w.now
  entropy : w.entropy ≤ w'.entropy
  store : ∀ k, k.factor = true → w'.store.data k = (l.store env w.store w.now).data k
  db : w'.db = w.db ∨ ∃ s, l.writes K s ∧ w'.db = w.db.exec s
  signed : ∃ cs, w'.signed = w.signed ++ cs
  calm : w.Calm → w'.Calm

/-- The key a label touches. -/
def Site.key? : Site → Option StoreKey
  | .totpGuard u => some (.totpFail u)
  | .totpFailure u => some (.totpFail u)
  | .totpSuccess u => some (.totpFail u)
  | .replayGuard u code => some (.totpReplay u ⟨code⟩)
  | .rotationLock u => some (.totpRotateLock u)
  | .rotationUnlock u => some (.totpRotateLock u)
  | _ => none

theorem Call.store_ne {env : Env} {m : TtlMap StoreKey} {now : Nat}
    (h : ∀ s, l = .site s → s.key? ≠ some k) : (l.store env m now).data k = m.data k := by
  unfold Call.store
  split
  · exact TtlMap.get_data_ne now fun hk => h _ rfl (congrArg some hk.symm)
  · exact TtlMap.incrBy_data_ne now _ _ fun hk => h _ rfl (congrArg some hk.symm)
  · exact TtlMap.delete_data_ne fun hk => h _ rfl (congrArg some hk.symm)
  · exact TtlMap.setNX_data_ne now _ _ fun hk => h _ rfl (congrArg some hk.symm)
  · exact TtlMap.setNX_data_ne now _ _ fun hk => h _ rfl (congrArg some hk.symm)
  · exact TtlMap.delete_data_ne fun hk => h _ rfl (congrArg some hk.symm)
  · rfl

/-- A label that names another key, or none, leaves the key alone. -/
theorem Does.store_ne {env : Env} {K : Rights} {u : UserID} {w w' : World} (h : Does env K u l w w')
    (hk : k.factor = true) (hl : ∀ s, l = .site s → s.key? ≠ some k) :
    w'.store.data k = w.store.data k :=
  (h.store k hk).trans (Call.store_ne hl)

/-! ## Building blocks -/

variable {α : Type} {env : Env} {K : Rights} {ctx : Ctx} {userID : UserID} {user : User}
  {ip ua code missing password : String} {d : TOTPDevice} {t : Option Token}

/-- Everything outside the TOTP service. -/
def unmarked : Footprint where
  label l := ∀ s, l ≠ .site s
  stmt s := s.onFactors = false
  mail _ := True
  key k := k.factor = false

theorem unmarked_calm : unmarked.Calm where
  other _ h := by cases h
  findUser _ _ h := by cases h
  key k h := by simpa [unmarked] using ((Bool.and_eq_true _ _).mp h).2
  audit _ := rfl
  mail _ _ := trivial

theorem unmarked_issues : unmarked.Issues user where
  sign _ _ _ _ _ h := by cases h
  sessionCreate _ _ h := by cases h
  tokenCreate _ _ _ h := by cases h
  touchSession _ _ _ _ _ _ _ := rfl
  insertSession _ _ := rfl
  insertToken _ _ := rfl
  loginAlert _ _ _ := trivial

theorem unmarked_revokes : unmarked.Revokes := ⟨fun _ => rfl, fun _ => rfl⟩

theorem unmarked_compare (u : User) : unmarked.label (.comparePassword u) := fun _ h => by cases h

/-- What a label outside the service says. -/
theorem Call.writes_unmarked (h : ∀ s, l ≠ .site s) (s : Stmt) :
    l.writes K s ↔ s.onFactors = false := by
  cases l with
  | site s => exact absurd rfl (h s)
  | _ => exact Iff.rfl

theorem Call.store_unmarked (h : ∀ s, l ≠ .site s) (m : TtlMap StoreKey) (now : Nat) :
    l.store env m now = m := by
  cases l with
  | site s => exact absurd rfl (h s)
  | _ => rfl

theorem Acts.does {w w' : World} (h : Acts unmarked l w w') : Does env K userID l w w' where
  user s hl := absurd hl (h.label s)
  now := h.now
  entropy := h.entropy
  store k hk := by
    rw [Call.store_unmarked h.label]
    exact h.store k (by simp [unmarked, hk])
  db := h.db.imp_right fun ⟨s, hs, hdb⟩ => ⟨s, (Call.writes_unmarked h.label s).2 hs, hdb⟩
  signed := by
    rcases h.signed with hs | ⟨c, -, hs⟩
    · exact ⟨[], by simpa using hs⟩
    · exact ⟨[c], hs⟩
  calm := h.calm

theorem does_user {s : Site} (h : ∀ v ∈ s.user?, v = userID) (hk : K.allows s) :
    ∀ s', Call.site s = .site s' → (∀ v ∈ s'.user?, v = userID) ∧ K.allows s' := by
  rintro _ ⟨⟩
  exact ⟨h, hk⟩

/-- A stretch outside the service. -/
theorem does_unmarked {p : M α} (h : Each (Acts unmarked) p) : Each (Does env K userID) p :=
  h.mono fun _ _ _ ha => ha.does

theorem does_kvAs {s : Site} {f : TtlMap StoreKey → Nat → α × TtlMap StoreKey}
    (hu : s.user? = some userID) (hk : K.allows s)
    (h : ∀ m now, (f m now).2 = (Call.site s).store env m now) :
    Each (Does env K userID) (kvAs (.site s) f) :=
  each_atomic fun w => ⟨does_user (by simp [hu]) hk, rfl, Nat.le.refl,
    fun k _ => congrArg (TtlMap.data · k) (h w.store w.now), .inl rfl, ⟨[], by simp⟩,
    fun hc => ⟨hc.faults, hc.failure⟩⟩

/-- A repository call whose label moves no key. -/
theorem does_repo {l : Site} {f : DB → Except Err α × Option Stmt} (hu : ∀ v ∈ l.user?, v = userID)
    (hk : K.allows l) (hl : ∀ m now, (Call.site l).store env m now = m)
    (hs : ∀ db s, (f db).2 = some s → (Call.site l).writes K s) :
    Each (Does env K userID) (repo (.site l) f) := by
  refine each_atomic fun w => ?_
  obtain ⟨o, hro, hex⟩ := repo_cases f w
  refine ⟨does_user hu hk, hex.now, Nat.le_of_eq hex.entropy.symm, fun k _ => ?_, ?_,
    ⟨[], hex.signed.trans (List.append_nil _).symm⟩, hex.calm⟩
  · rw [hl]
    exact congrArg (TtlMap.data · k) hex.store
  · cases o with
    | none => exact .inl hex.db
    | some s =>
      rcases hro with ⟨-, hno⟩ | hro
      · cases hno
      · exact .inr ⟨s, hs w.db s (by rw [hro]), hex.db⟩

/-! ## Counters, locks and codes -/

theorem does_record {e : AuditLog} : Each (Does env K userID) (record ctx e) :=
  does_unmarked (each_record unmarked_calm)

theorem does_totpRecordSuccess {event detail : String} :
    Each (Does env K userID) (totpRecordSuccess ctx userID event detail) :=
  each_bind (does_kvAs rfl trivial fun _ _ => rfl) fun _ => does_record

theorem does_totpRecordFailure {detail : String} :
    Each (Does env K userID) (totpRecordFailure env ctx userID detail) :=
  each_bind (does_kvAs rfl trivial fun _ _ => rfl) fun _ => does_record

theorem does_guardBruteForce : Each (Does env K userID) (guardBruteForce env ctx userID) :=
  each_bind (each_bind (does_kvAs rfl trivial fun _ _ => rfl) fun _ => trivial) fun _ =>
    each_refuseAfter does_totpRecordFailure

theorem does_acquireRotationLock (hl : K.lock) :
    Each (Does env K userID) (acquireRotationLock userID) :=
  does_kvAs rfl hl fun _ _ => rfl

theorem does_releaseRotationLock (hl : K.lock) :
    Each (Does env K userID) (releaseRotationLock userID) :=
  does_kvAs rfl hl fun _ _ => rfl

theorem does_withRotationLock {p : M α} (hl : K.lock) (hp : Each (Does env K userID) p) :
    Each (Does env K userID) (withRotationLock userID p) :=
  each_bind (does_acquireRotationLock hl) fun _ => each_bind (each_refuse _ _) fun _ =>
    each_bind (each_attempt hp) fun r =>
      each_bind (does_releaseRotationLock hl) fun _ => each_ofExcept r

theorem does_totpValid {mark : String → String → Site} {secret : String}
    (hu : (mark code secret).user? = some userID) (hk : K.allows (mark code secret))
    (hs : ∀ m now, (Call.site (mark code secret)).store env m now = m) :
    Each (Does env K userID) (totpValid env mark code secret) :=
  each_bind (each_atomic fun w => ⟨does_user (by simp [hu]) hk, rfl, Nat.le.refl,
    fun k _ => congrArg (TtlMap.data · k) (hs w.store w.now).symm, .inl rfl, ⟨[], by simp⟩, id⟩)
      fun _ => trivial

theorem does_draw : Each (Does env K userID) draw := does_unmarked (each_draw unmarked_calm.other)

theorem does_sealText {plain : String} : Each (Does env K userID) (sealText env plain) :=
  does_unmarked (each_sealText unmarked_calm)

theorem does_totpFindByUserID : Each (Does env K userID) (totpFindByUserID ctx userID) :=
  does_unmarked (each_totpFindByUserID unmarked_calm)

/-- The row of the user, if there is one. -/
def OfUser (userID : UserID) (d : TOTPDevice) : Prop := d.userID = userID

theorem returns_totpFindByUserID :
    (totpFindByUserID ctx userID).Returns fun o => ∀ d ∈ o, OfUser userID d := by
  refine returns_atomic fun w a h d hd => ?_
  simp only at h
  split at h
  · cases h
  · obtain rfl := Except.ok.inj h
    simpa [OfUser] using ((Bool.and_eq_true _ _).mp (Table.mem_of_first? hd).2).1

theorem does_totpSave (hd : OfUser userID d) : Each (Does env K userID) (totpSave ctx d) := by
  refine each_bind does_draw fun newID => does_repo (by simpa [Site.user?, OfUser] using hd) trivial
    (fun _ _ => rfl) fun db s h => ?_
  split at h
  · cases h
  · split at h
    · split at h
      · cases h
      · exact ⟨{ d with id := newID + 1 }, rfl, .inl (Option.some.inj h).symm⟩
    · split at h
      · exact ⟨d, rfl, .inr (Option.some.inj h).symm⟩
      · cases h

theorem does_totpReplaceRecoveryCodes {codes : List RecoveryCode} (hb : K.batch codes) :
    Each (Does env K userID) (totpReplaceRecoveryCodes ctx userID codes) := by
  refine does_repo (by simp [Site.user?]) ⟨codes, hb⟩ (fun _ _ => rfl) fun db s h => ?_
  split at h
  · cases h
  · rename_i hc
    simp only [Bool.or_eq_true, not_or, List.any_eq_true, not_exists, not_and,
      decide_eq_true_eq, ne_eq, Decidable.not_not] at hc
    exact ⟨codes, hb, hc.2, (Option.some.inj h).symm⟩

theorem does_newRecoveryCodes (hb : ∀ codes, K.batch codes) :
    Each (Does env K userID) (newRecoveryCodes env ctx userID) :=
  each_bind (does_unmarked (each_drawRecoveryCodes unmarked_calm _)) fun _ =>
    each_bind (does_totpReplaceRecoveryCodes (hb _)) fun _ => trivial

theorem does_totpActiveRecoveryCodes :
    Each (Does env K userID) (totpActiveRecoveryCodes ctx userID) := by
  unfold totpActiveRecoveryCodes query
  exact does_repo (by simp [Site.user?]) trivial (fun _ _ => rfl) fun _ _ h => by cases h

theorem does_totpMarkRecoveryCodeUsed {id now : Nat} :
    Each (Does env K userID) (totpMarkRecoveryCodeUsed ctx id now) := by
  refine does_repo (by simp [Site.user?]) trivial (fun _ _ => rfl) fun db s h => ?_
  split at h
  · exact ⟨now, (Option.some.inj h).symm⟩
  · cases h

theorem does_totpDisable (hd : K.disable) : Each (Does env K userID) (totpDisable ctx userID) := by
  unfold totpDisable ownedWrite
  refine does_repo (by simp [Site.user?]) hd (fun _ _ => rfl) fun db s h => ?_
  split at h
  · exact (Option.some.inj h).symm
  · cases h

/-! ## Enrolment -/

theorem does_openActiveSecret (hd : OfUser userID d) :
    Each (Does env K userID) (openActiveSecret env ctx d) := by
  refine each_ite trivial ?_
  split
  · trivial
  · exact each_ite trivial (each_bind does_sealText fun _ =>
      each_bind (each_ignore (does_totpSave (by exact hd))) fun _ => trivial)

theorem does_openStagedSecret (hd : OfUser userID d) :
    Each (Does env K userID) (openStagedSecret env ctx d) := by
  refine each_ite ?_ (does_openActiveSecret hd)
  split <;> trivial

/-- The row in hand stays a row of the user. -/
theorem returns_openActiveSecret (hd : OfUser userID d) :
    (openActiveSecret env ctx d).Returns fun r => OfUser userID r.2 := by
  unfold openActiveSecret
  split
  · exact hd
  · split
    · exact hd
    · split
      · trivial
      · exact returns_bind (returns_trivial _) fun _ _ =>
          returns_bind (returns_trivial _) fun _ _ => hd

theorem returns_openStagedSecret (hd : OfUser userID d) :
    (openStagedSecret env ctx d).Returns fun r => OfUser userID r.2 := by
  unfold openStagedSecret
  split
  · split
    · exact hd
    · trivial
  · exact returns_openActiveSecret hd

theorem ofUser_activate (hd : OfUser userID d) : OfUser userID (activate d) := by
  unfold activate
  split <;> exact hd

theorem ofUser_deactivate (hd : OfUser userID d) : OfUser userID (deactivate d) := by
  unfold deactivate
  split <;> exact ofUser_activate hd

theorem does_totpActivate (hb : ∀ codes, K.batch codes) (hd : OfUser userID d) :
    Each (Does env K userID) (totpActivate env ctx userID d) := by
  refine each_bind (does_totpSave (ofUser_activate hd)) fun _ =>
    each_bind (each_attempt (does_newRecoveryCodes hb)) fun r => ?_
  rcases r with e | codes
  · exact each_bind (each_ignore (does_totpSave (ofUser_deactivate hd))) fun _ => trivial
  · exact each_bind does_totpRecordSuccess fun _ => trivial

/-- `verifyEnableAudited` inside the lock. -/
theorem does_verifyEnableLocked (hl : K.lock) (hb : ∀ codes, K.batch codes) :
    Each (Does env K userID)
    (withRotationLock userID (totpFindByUserID ctx userID >>= fun d => match d with
      | none => totpRecordFailure env ctx userID "no pending device" >>= fun _ => .fail .invalidCode
      | some d => refuse (d.enabled && d.pendingSecretEncrypted = "") .invalidInput >>= fun _ =>
        openStagedSecret env ctx d >>= fun (secret, d) =>
          totpValid env (.confirmCode userID) code secret >>= fun valid =>
            refuseAfter (!valid) (totpRecordFailure env ctx userID "bad enable code") .invalidCode
              >>= fun _ => totpActivate env ctx userID d)) := by
  refine does_withRotationLock hl (each_bind_returns does_totpFindByUserID returns_totpFindByUserID
    fun d hd => ?_)
  rcases d with _ | d
  · exact each_bind does_totpRecordFailure fun _ => trivial
  · exact each_bind (each_refuse _ _) fun _ => each_bind_returns (does_openStagedSecret (hd d rfl))
      (returns_openStagedSecret (hd d rfl)) fun _ hd' =>
        each_bind (does_totpValid rfl trivial fun _ _ => rfl) fun _ =>
          each_bind (each_refuseAfter does_totpRecordFailure) fun _ => does_totpActivate hb hd'

/-! ## Validation -/

theorem does_checkSixDigits {badCode replay : String} (hd : OfUser userID d) :
    Each (Does env K userID) (checkSixDigits env ctx userID d code badCode replay) :=
  each_bind (does_openActiveSecret hd) fun _ =>
    each_bind (does_totpValid rfl trivial fun _ _ => rfl) fun _ =>
    each_bind (each_refuseAfter does_totpRecordFailure) fun _ =>
      each_bind (does_kvAs rfl trivial fun _ _ => rfl) fun _ =>
        each_refuseAfter does_totpRecordFailure

theorem does_checkRecoveryCode :
    Each (Does env K userID) (checkRecoveryCode env ctx userID code) := by
  refine each_bind does_totpActiveRecoveryCodes fun codes => ?_
  split
  · exact each_bind does_totpRecordFailure fun _ => trivial
  · refine each_bind (does_unmarked (each_getNow unmarked_calm.other)) fun now =>
      each_bind (each_attempt does_totpMarkRecoveryCodeUsed) fun r => ?_
    split
    · exact does_totpRecordSuccess
    · exact each_bind does_totpRecordFailure fun _ => trivial
    · trivial

/-- What follows the guard of `Validate` and `ViewRecoveryCodes`. -/
theorem does_lookup :
    Each (Does env K userID) (totpFindByUserID ctx userID >>= fun d =>
      match d.filter (·.enabled) with
      | none => totpRecordFailure env ctx userID missing >>= fun _ => .fail .invalidCode
      | some d => .ret d) := by
  refine each_bind does_totpFindByUserID fun d => ?_
  split
  · exact each_bind does_totpRecordFailure fun _ => trivial
  · trivial

theorem returns_lookup : (totpFindByUserID ctx userID >>= fun d => match d.filter (·.enabled) with
      | none => totpRecordFailure env ctx userID missing >>= fun _ => .fail .invalidCode
      | some d => .ret d : M TOTPDevice).Returns (OfUser userID) := by
  refine returns_bind returns_totpFindByUserID fun d hd => ?_
  split
  · exact returns_bind (returns_trivial _) fun _ _ => trivial
  · rename_i x hx
    exact hd x (Option.filter_eq_some_iff.1 hx).1

theorem does_enabledDevice : Each (Does env K userID) (enabledDevice env ctx userID missing) :=
  each_bind does_guardBruteForce fun _ => does_lookup

theorem returns_enabledDevice : (enabledDevice env ctx userID missing).Returns (OfUser userID) :=
  returns_bind (returns_trivial _) fun _ _ => returns_lookup

/-- `validateAudited` after the lookup of the device. -/
theorem does_validateCode (hd : OfUser userID d) : Each (Does env K userID)
    (if code.utf8ByteSize = 6 then
        checkSixDigits env ctx userID d code "bad totp code" "totp replay" >>= fun _ =>
          totpRecordSuccess ctx userID "totp_validated" "totp validated"
      else checkRecoveryCode env ctx userID code) :=
  each_ite (each_bind (does_checkSixDigits hd) fun _ => does_totpRecordSuccess)
    does_checkRecoveryCode

theorem does_totpValidateAudited :
    Each (Does env K userID) (totpValidateAudited env ctx userID code) :=
  each_bind_returns does_enabledDevice returns_enabledDevice fun _ hd => does_validateCode hd

/-- `viewRecoveryCodesAudited` after the check of the code. -/
theorem does_viewCodes : Each (Does env K userID)
    (totpActiveRecoveryCodes ctx userID >>= fun rows =>
      totpRecordSuccess ctx userID "recovery_codes_viewed" "recovery codes viewed" >>= fun _ =>
        (pure (rows.filterMap fun c =>
          if c.codeEncrypted = "" then none else env.decrypt c.codeEncrypted) : M (List String))) :=
  each_bind does_totpActiveRecoveryCodes fun _ => each_bind does_totpRecordSuccess fun _ => trivial

/-! ## The end of a login, disabling, erasure -/

/-- `completeMFALoginAudited` after the code. -/
theorem unmarked_mfaTail : Each (Acts unmarked)
    (usersFindByID ctx userID >>= fun found => match found with
      | none => throw .invalidToken
      | some user => refuse (!user.isActive || user.adminSuspended) .invalidToken >>= fun _ =>
        issueTokenPair env ctx user ip ua none >>= fun pair =>
          record ctx { auditEvent "login" true with
            userID := some user.id, email := user.email, ipAddress := ip,
            detail := "mfa-complete" } >>= fun _ =>
            record ctx { auditEvent "token_issued" true with userID := some user.id } >>= fun _ =>
              (pure (pair, fromUser user) : M (TokenPair × UserProfile))) := by
  refine each_bind (each_usersFindByID unmarked_calm) fun user => ?_
  rcases user with _ | user
  · exact each_throw _
  · exact each_bind (each_refuse _ _) fun _ =>
      each_bind (each_issueTokenPair unmarked_calm unmarked_issues) fun _ =>
        each_bind (each_record unmarked_calm) fun _ =>
          each_bind (each_record unmarked_calm) fun _ => each_ret _

theorem unmarked_mfaLoginVerify {t : Token} :
    Each (Acts unmarked) (jwtVerifyAs env t .mfaPending .invalidToken) :=
  each_jwtVerifyAs unmarked_calm

/-- `disableAudited` after the authorisation. -/
theorem does_disableTail (hd : K.disable) (hb : K.batch []) : Each (Does env K userID)
    (wrap "totp disable" (totpDisable ctx userID) >>= fun _ =>
      wrap "totp disable: delete recovery codes" (totpReplaceRecoveryCodes ctx userID []) >>=
        fun _ => ignore (usersBumpPwdVersion ctx userID) >>= fun _ =>
          totpRecordSuccess ctx userID "totp_disabled" "mfa device disabled" >>= fun _ =>
            alertDisabled ctx userID) :=
  each_bind (each_wrap (does_totpDisable hd)) fun _ =>
    each_bind (each_wrap (does_totpReplaceRecoveryCodes hb)) fun _ =>
      each_bind (each_ignore (does_unmarked (each_usersUpdate unmarked_calm.other rfl))) fun _ =>
        each_bind does_totpRecordSuccess fun _ => does_unmarked (each_alertDisabled unmarked_calm)

theorem does_authorizeDisable :
    Each (Does env K userID) (authorizeDisable env ctx userID t password code) := by
  refine each_bind (does_unmarked (each_sudoProven unmarked_calm)) fun _ => each_ite trivial
    (each_bind (each_refuse _ _) fun _ =>
      each_bind (each_attempt (does_unmarked (each_usersFindByID unmarked_calm))) fun r => ?_)
  rcases r with _ | _ | user
  · trivial
  · trivial
  · refine each_bind (does_unmarked (each_comparePassword (unmarked_compare user))) fun _ =>
      each_bind (each_refuse _ _) fun _ => each_bind (each_refuse _ _) fun _ =>
        each_bind (each_attempt does_totpValidateAudited) fun r => ?_
    rcases r with _ | _ <;> trivial

theorem does_totpDisableAudited (hd : K.disable) (hb : K.batch []) :
    Each (Does env K userID) (totpDisableAudited env ctx userID t password code) := by
  refine each_bind (each_wrap does_totpFindByUserID) fun d => ?_
  split
  · trivial
  · exact each_bind does_authorizeDisable fun _ => does_disableTail hd hb

theorem does_eraseAccountAudited {jti : Option Uuid} (hd : K.disable) (hb : K.batch []) :
    Each (Does env K userID) (eraseAccountAudited env ctx userID t password jti ip) := by
  refine each_bind (does_unmarked (each_usersFindByID unmarked_calm)) fun user => ?_
  rcases user with _ | user
  · trivial
  · refine each_bind (does_unmarked (each_verifySudoOrPassword unmarked_calm
      (unmarked_compare user))) fun _ => each_bind does_draw fun _ =>
        each_bind (does_unmarked (each_usersUpdateUnique unmarked_calm.other rfl)) fun _ =>
          each_bind ?_ fun _ => does_unmarked (each_bind (each_containUser unmarked_calm
            unmarked_revokes rfl) fun _ => each_bind (each_denylistAccessToken unmarked_calm)
              fun _ => each_bind (each_record unmarked_calm) fun _ =>
                each_ignore (each_notify unmarked_calm.other trivial))
    refine each_bind (each_ignore (does_totpDisable hd)) fun _ =>
      each_bind (each_ignore (does_totpReplaceRecoveryCodes hb)) fun _ => does_unmarked ?_
    exact each_bind (each_ignore (each_ownedWrite unmarked_calm.other fun _ => rfl)) fun _ =>
      each_bind (each_ignore (each_repo unmarked_calm.other fun _ _ h => by cases h; rfl)) fun _ =>
        each_ignore (each_repo unmarked_calm.other fun _ _ h => by cases h; rfl)

end FinnAuth
