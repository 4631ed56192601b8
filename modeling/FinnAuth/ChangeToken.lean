import FinnAuth.EmailChange
import FinnAuth.Registration

/-!
# The change-email token

The payload behind a token is `id:old:new`, and `ConfirmChangeEmail` splits it at every colon. An
email address may have a colon inside a quoted local part, and the request validator lets it
through: the payload then falls into more than three pieces, and a token that was just mailed is
invalid. Without a colon in the two addresses the token carries exactly what was put in.

Results:
* `parsePayload_iff`: the payload is readable iff neither address has a colon;
* `confirm_acts`: what the confirmation of a readable token does;
* **`change_token_iff`**: the token that was staged is good for its hour, for exactly the user and
  the two addresses it was staged for, iff neither address has a colon;
* **`quoted_token_refused`**: the token for a quoted address is refused.
-/

namespace FinnAuth

open Lib Prog

variable {env : Env} {ctx : Ctx} {u : UserID} {w : World}

/-! ## The payload -/

variable {user : User} {Q : Except Err Unit → World → Prop} {ip new old : String}

theorem isDigit_toString (n : Nat) : ∀ c ∈ (toString n).toList, '0' ≤ c ∧ c ≤ '9' := by
  intro c hc
  have hmem : c ∈ Nat.toDigits 10 n := by simpa using hc
  have hdigit : c.isDigit = true := Nat.isDigit_of_mem_toDigits (by decide) (by decide) hmem
  simpa [Char.isDigit, Char.le_def] using hdigit

theorem parseUint_of_lt {n : Nat} (h : n < 2 ^ 64) : parseUint (toString n) = some n := by
  have hne : (toString n).toList ≠ [] := by simp [Nat.toDigits_ne_nil]
  have hall : (toString n).toList.all (fun c => '0' ≤ c && c ≤ '9') = true :=
    List.all_eq_true.2 fun c hc => by simpa using isDigit_toString n c hc
  unfold parseUint
  rw [hall, foldl_toString]
  simp only [ne_eq, hne, not_false_eq_true, decide_true, Bool.and_self, if_true, if_pos h]

/-- A text with the separator falls into several pieces. -/
theorem notMem_of_one_piece {xs : List Char} (h : (xs.splitOn ':').length = 1) : ':' ∉ xs := by
  intro hmem
  obtain ⟨as, bs, rfl⟩ := List.append_of_mem hmem
  have ha := List.length_pos_of_ne_nil (List.splitOn_ne_nil ':' as)
  have hb := List.length_pos_of_ne_nil (List.splitOn_ne_nil ':' bs)
  rw [List.splitOn_append_cons_self, List.length_append] at h
  omega

/-- **The payload is readable iff neither address has a colon.** -/
theorem parsePayload_iff {id : UserID} (hid : id < 2 ^ 64) :
    parsePayload (changeEmailPayload id old new) = some (id, old, new) ↔
      ':' ∉ old.toList ∧ ':' ∉ new.toList := by
  constructor
  · intro h
    obtain ⟨-, hold, hnew⟩ := pieces_of_parsePayload h
    exact ⟨notMem_of_one_piece hold, notMem_of_one_piece hnew⟩
  · rintro ⟨hold, hnew⟩
    have hdigits : ':' ∉ (toString id).toList := fun h =>
      absurd (isDigit_toString id ':' h).2 (by decide)
    unfold parsePayload splitColon
    rw [splitOn_payload, List.splitOn_eq_singleton hdigits, List.splitOn_eq_singleton hold,
      List.splitOn_eq_singleton hnew]
    simp only [List.cons_append, List.nil_append, List.map_cons, List.map_nil,
      String.ofList_toList, parseUint_of_lt hid, Option.map_some]

/-! ## What a confirmation does -/

/-- The alert that a confirmed change sends. -/
def changedAlert (old new : String) : Mail :=
  .securityAlert old "email_changed" ("Your account email was successfully updated to " ++ new
    ++ ". All existing sessions were revoked.")

/-- The evidence of a confirmed change. -/
def changedEvidence (ctx : Ctx) (u : UserID) (old new ip : String) : AuditLog :=
  { tenantID := ctx.tenant, userID := some u, email := new, event := "email_changed",
    ipAddress := ip, success := true, detail := "email changed from " ++ old }

theorem revokedToken_id (t : RefreshToken) : { t with revoked := true }.id = t.id := rfl

theorem revokedSession_id (s : Session) : { s with revoked := true }.id = s.id := rfl

/-- The database after the address of `u` was changed from `old` to `new`: the row of the user has
the new address and a new version, what the user was signed in with is revoked, and the change is
on record. -/
def DB.emailChanged (db : DB) (ctx : Ctx) (u : UserID) (old new ip : String) : DB :=
  { db with
    users := db.users.update (fun row => row.id = u && row.tenantID = ctx.tenant)
      (fun row => { row with
        email := new, isEmailVerified := true, pwdVersion := row.pwdVersion + 1 }) fun _ => rfl
    refreshTokens := db.refreshTokens.update (fun t => t.userID = u)
      (fun t => { t with revoked := true }) revokedToken_id
    sessions := db.sessions.update (fun s => s.userID = u && s.tenantID = ctx.tenant)
      (fun s => { s with revoked := true }) revokedSession_id
    auditLogs := db.auditLogs ++ [changedEvidence ctx u old new ip] }

/-- The confirmation acted on exactly the user `u`, the old and the new address. -/
structure ActsOn (ctx : Ctx) (u : UserID) (old new ip : String) (w w' : World) : Prop where
  row : ∃ user, w.db.userByID ctx u = some user ∧ user.email = old
  db : w'.db = w.db.emailChanged ctx u old new ip
  outbox : w'.outbox = w.outbox ++ [changedAlert old new]

/-- The statements of `applyChangeEmail`, one after another. -/
theorem emailChanged_eq {db : DB} (ho : db.owns ctx u = true) :
    let db₁ := db.exec (.updateUser ctx u (.email new true))
    let db₂ := db₁.exec (.revokeTokens (db₁.activeTokenOf ctx u))
    let db₃ := db₂.exec (.revokeSessions (activeSessionOf ctx u))
    let db₄ := db₃.exec (.updateUser ctx u .bumpPwdVersion)
    db₄.exec (.insertAudit (changedEvidence ctx u old new ip)) =
      db.emailChanged ctx u old new ip := by
  intro db₁ db₂ db₃ db₄
  have ho₁ : db₁.owns ctx u = true := owns_exec _ ho
  have husers : db₄.users = (db.emailChanged ctx u old new ip).users := by
    refine Table.ext_rows ?_
    change List.map _ (List.map _ _) = List.map _ _
    rw [List.map_map]
    refine List.map_congr_left fun row _ => ?_
    by_cases h : row.id = u ∧ row.tenantID = ctx.tenant
    · simp [UserWrite.apply, h]
    · simp [h]
  -- a token or session that was revoked before stays so
  have htokens : db₄.refreshTokens = (db.emailChanged ctx u old new ip).refreshTokens := by
    refine Table.ext_rows (List.map_congr_left fun t _ => ?_)
    by_cases h : t.userID = u
    · cases hr : t.revoked
      · simp [DB.activeTokenOf, h, ho₁, hr]
      · rcases t
        cases hr
        simp [DB.activeTokenOf]
    · simp [DB.activeTokenOf, h]
  have hsessions : db₄.sessions = (db.emailChanged ctx u old new ip).sessions := by
    refine Table.ext_rows (List.map_congr_left fun s _ => ?_)
    by_cases h : s.userID = u ∧ s.tenantID = ctx.tenant
    · cases hr : s.revoked
      · simp [activeSessionOf, h, hr]
      · rcases s
        cases hr
        simp [activeSessionOf]
    · simp [activeSessionOf, h]
  change { db with users := db₄.users, refreshTokens := db₄.refreshTokens,
                   sessions := db₄.sessions, auditLogs := _ } = _
  rw [husers, htokens, hsessions]
  rfl

/-- A write to a row of the tenant, without failures. -/
theorem wp_ownedWrite_calm {l : Call} {s : DB → Stmt} (hw : w.faults = [])
    (ho : w.db.owns ctx u = true) :
    wp (ownedWrite l ctx u s) Q w ↔ Q (.ok ()) { w with db := w.db.exec (s w.db) } := by
  rw [ownedWrite, wp_repo_calm hw, if_pos ho]
  rfl

theorem wp_containUser_calm (hw : w.faults = []) (ho : w.db.owns ctx u = true)
    (hQ : ∀ m, Q (.ok ()) { w with
      store := m
      db := ((w.db.exec (.revokeTokens (w.db.activeTokenOf ctx u))).exec
        (.revokeSessions (activeSessionOf ctx u))).exec (.updateUser ctx u .bumpPwdVersion) }) :
    wp (containUser ctx u) Q w := by
  refine wp_seq ?_
  rw [wp_ignore, tokensRevokeAllForUser, wp_ownedWrite_calm hw ho, thenWp_ok]
  refine wp_seq ?_
  rw [wp_ignore, sessionsRevokeAllForUser, wp_ownedWrite_calm (by exact hw) (owns_exec _ ho),
    thenWp_ok]
  rw [wp_ignore, bumpPwdVersion]
  refine wp_seq ?_
  have ho₂ : ((w.db.exec (.revokeTokens (w.db.activeTokenOf ctx u))).exec
      (.revokeSessions (activeSessionOf ctx u))).owns ctx u = true := owns_exec _ (owns_exec _ ho)
  rw [usersBumpPwdVersion, usersUpdate, wp_ownedWrite_calm (by exact hw) (by exact ho₂), thenWp_ok,
    storeDelete, wp_kv]
  exact hQ _

/-- **What `applyChangeEmail` does** without failures, for an address that is free. -/
theorem wp_applyChangeEmail_calm (hc : w.Calm) (huser : w.db.userByID ctx u = some user)
    (hfree : w.db.userByEmail env ctx new = none) (hold : user.email = old) :
    wp (applyChangeEmail env ctx u old new ip)
      (fun r w' => r = .ok () ∧ w'.Calm ∧ ActsOn ctx u old new ip w w') w := by
  obtain ⟨hmem, hid, ht⟩ := DB.userByID_spec huser
  have ho : w.db.owns ctx u = true := by simp [DB.owns, huser]
  have htaken : w.db.taken env ctx user.id (·.email) new = false := taken_eq_false hfree
  refine wp_seq ?_
  rw [usersFindByEmail, wp_query_calm hc.faults, hfree, thenWp_ok]
  refine wp_seq ?_
  rw [wp_refuse]
  refine ⟨fun h => (by cases h), fun _ => ?_⟩
  rw [thenWp_ok]
  refine wp_seq ?_
  rw [usersFindByID, wp_query_calm hc.faults, huser, thenWp_ok]
  refine wp_seq ?_
  rw [usersUpdateEmail, usersUpdateUnique, wp_repo_calm hc.faults]
  subst hid
  simp only [ht, ho, htaken, ne_eq, not_true_eq_false, decide_false, Bool.and_false, Bool.not_true,
    Bool.or_self, Bool.false_eq_true, if_false, thenWp_ok]
  refine wp_seq (wp_containUser_calm (by exact hc.faults) (owns_exec _ ho) fun m => ?_)
  rw [thenWp_ok]
  refine wp_seq ?_
  rw [wp_ignore, wp_notify_calm (by exact hc.faults), thenWp_ok,
    wp_record_calm (by exact hc.faults)]
  exact ⟨rfl, ⟨hc.faults, hc.failure⟩, ⟨user, huser, hold⟩, emailChanged_eq ho, rfl⟩

/-- The token `t` is honoured: its confirmation succeeds and acts on exactly `u`, `old` and
`new`. -/
def Honoured (env : Env) (ctx : Ctx) (u : UserID) (old new : String) (t : Uuid) (ip : String)
    (w : World) : Prop :=
  ((confirmChangeEmail env ctx (some t) ip).run w).1 = .ok () ∧
    ActsOn ctx u old new ip w ((confirmChangeEmail env ctx (some t) ip).run w).2

section Confirm

variable {old new ip payload : String} {t : Uuid}

/-- **A readable token is honoured**, for a free address and without failures. -/
theorem confirm_acts (hw : w.faults = [])
    (hlive : w.store.live w.now (.changeEmail t) = some (.str payload))
    (hparse : parsePayload payload = some (u, old, new)) (huser : w.db.userByID ctx u = some user)
    (hfree : w.db.userByEmail env ctx new = none) (hold : user.email = old) :
    Honoured env ctx u old new t ip w := by
  change wp (confirmChangeEmail env ctx (some t) ip)
    (fun r w' => r = .ok () ∧ ActsOn ctx u old new ip w w') w
  rw [confirmChangeEmail, wp_runAuditOperation]
  refine wp_seq ?_
  rw [storeTake, wp_kv, TtlMap.take_fst, thenWp_ok, show ({ w with op := {} } : World).store.live
    ({ w with op := {} } : World).now (.changeEmail t) = _ from hlive]
  simp only [hparse]
  refine wp_mono (wp_applyChangeEmail_calm ⟨hw, rfl⟩ huser hfree hold) ?_
  rintro r w' ⟨rfl, hc, hacts⟩
  rw [closeAudit_ok hc]
  exact ⟨rfl, hacts.row, hacts.db, hacts.outbox⟩

theorem confirm_unreadable (hlive : w.store.live w.now (.changeEmail t) = some (.str payload))
    (hparse : parsePayload payload = none) : ¬ Honoured env ctx u old new t ip w := by
  have hwp : wp (confirmChangeEmail env ctx (some t) ip) (fun r _ => r ≠ .ok ()) w := by
    rw [confirmChangeEmail, wp_runAuditOperation]
    refine wp_seq ?_
    rw [storeTake, wp_kv, TtlMap.take_fst, thenWp_ok, show ({ w with op := {} } : World).store.live
      ({ w with op := {} } : World).now (.changeEmail t) = _ from hlive]
    simp only [hparse, throw, wp_fail]
    rcases closeAudit_cases w.db (.error .invalidToken : Except Err Unit) _ with ⟨hc, -⟩ | ⟨e, hc⟩
    · rw [hc]
      exact fun h => by cases h
    · rw [hc]
      exact fun h => by cases h
  exact fun h => hwp h.1

end Confirm

/-! ## The token that was staged -/

/-- The state `ms` milliseconds after the request. -/
def afterRequest (env : Env) (ctx : Ctx) (u : UserID) (password raw ip : String) (ms : Nat)
    (w : World) : World :=
  (Outside.tick ms).apply ((requestChangeEmail env ctx u password raw ip).run w).2

/-- A request leaves the accounts and the clock alone. -/
theorem request_ran (password raw ip : String) (w : World) :
    ((requestChangeEmail env ctx u password raw ip).run w).2.db.users = w.db.users ∧
      ((requestChangeEmail env ctx u password raw ip).run w).2.now = w.now := by
  have hquiet : Footprint.Quiet { evidenceOnly with key := fun _ => True } :=
    ⟨⟨trivial, fun _ => trivial, fun _ => trivial, fun _ _ => trivial⟩, fun e => ⟨e, rfl⟩,
      fun _ _ => trivial⟩
  have hran : Ran { evidenceOnly with key := fun _ => True } w
      ((requestChangeEmail env ctx u password raw ip).run w).2 :=
    within_requestChangeEmail hquiet (fun _ => trivial) (fun _ => trivial) (fun _ _ => trivial) w
  exact ⟨hran.same fun _ _ hs => by obtain ⟨e, rfl⟩ := hs; rfl, hran.now⟩

/-- What a reader of the store finds under the token that was staged, for an hour. -/
theorem live_afterRequest {password raw ip : String} {t : Uuid} {ms : Nat}
    (hdata : (afterRequest env ctx u password raw ip ms w).store.data (.changeEmail t) =
      some ⟨.str (changeEmailPayload u user.email (env.normalize raw)),
        TtlMap.expiry w.now changeEmailTTL⟩) (hms : ms ≤ changeEmailTTL) :
    (afterRequest env ctx u password raw ip ms w).store.live
      (afterRequest env ctx u password raw ip ms w).now (.changeEmail t) =
        some (.str (changeEmailPayload u user.email (env.normalize raw))) := by
  have hnow : (afterRequest env ctx u password raw ip ms w).now = w.now + ms :=
    congrArg (· + ms) (request_ran password raw ip w).2
  have hlater : ¬ w.now + changeEmailTTL < w.now + ms := by omega
  unfold TtlMap.live
  rw [hdata, hnow]
  simp only [Entry.expired, TtlMap.expiry, show 0 < changeEmailTTL by decide, if_true, hlater,
    decide_false, Bool.false_eq_true, if_false]

/-- **The token that a request staged is honoured within its hour iff neither address has a
colon.** Failures may strike the request, but none comes after it. -/
theorem change_token_iff {password raw ip ip' : String} {user : User} {t : Uuid} {ms : Nat}
    (hid : u < 2 ^ 64) (huser : w.db.userByID ctx u = some user)
    (hstaged : (afterRequest env ctx u password raw ip ms w).store.data (.changeEmail t) ≠
      w.store.data (.changeEmail t))
    (hcalm : (afterRequest env ctx u password raw ip ms w).faults = [])
    (hms : ms ≤ changeEmailTTL) :
    Honoured env ctx u user.email (env.normalize raw) t ip'
        (afterRequest env ctx u password raw ip ms w) ↔
      ':' ∉ user.email.toList ∧ ':' ∉ (env.normalize raw).toList := by
  obtain ⟨hfree, hdata⟩ : w.db.userByEmail env ctx (env.normalize raw) = none ∧
      (afterRequest env ctx u password raw ip ms w).store.data (.changeEmail t) =
        some ⟨.str (changeEmailPayload u user.email (env.normalize raw)),
          TtlMap.expiry w.now changeEmailTTL⟩ := by
    rcases stagesAs_request password raw ip t w with hsame | ⟨-, -, user', huser', hfree, hdata⟩
    · exact absurd hsame hstaged
    · obtain rfl : user = user' := Option.some.inj (huser.symm.trans huser')
      exact ⟨hfree, hdata⟩
  have husers : (afterRequest env ctx u password raw ip ms w).db.users = w.db.users :=
    (request_ran password raw ip w).1
  have huser' : (afterRequest env ctx u password raw ip ms w).db.userByID ctx u = some user := by
    rw [← huser, DB.userByID, DB.userByID, husers]
  have hfree' : (afterRequest env ctx u password raw ip ms w).db.userByEmail env ctx
      (env.normalize raw) = none := by
    rw [← hfree, DB.userByEmail, DB.userByEmail, husers]
  have hlive := live_afterRequest hdata hms
  rw [← parsePayload_iff hid]
  constructor
  · intro h
    cases hparse : parsePayload (changeEmailPayload u user.email (env.normalize raw)) with
    | none => exact absurd h (confirm_unreadable hlive hparse)
    | some x =>
      obtain ⟨uid, old, new⟩ := x
      obtain ⟨rfl, rfl, rfl⟩ := parsePayload_eq hparse
      rfl
  · exact fun hparse => confirm_acts hcalm hlive hparse huser' hfree' rfl

/-- The sample user moves to another address, at the end of the hour. -/
theorem change_token_sample :
    let env := Env.plain Config.sample
    let w := afterRequest env Ctx.sample 1 "password1" "Jo@x.io" "ip" changeEmailTTL World.sample
    w.store.data (.changeEmail 100) ≠ none ∧ w.faults = [] ∧
      Honoured env Ctx.sample 1 "jose@x.io" "jo@x.io" 100 "ip" w := by
  intro env w
  have hstaged : w.store.data (.changeEmail 100) ≠ none := by decide +kernel
  have hcalm : w.faults = [] := by decide +kernel
  have huser : World.sample.db.userByID Ctx.sample 1 = some (User.sample 1 "jose" "jose@x.io") :=
    rfl
  have hnew : env.normalize "Jo@x.io" = "jo@x.io" := by decide +kernel
  have hhonoured : Honoured env Ctx.sample 1 "jose@x.io" (env.normalize "Jo@x.io") 100 "ip" w :=
    (change_token_iff (by decide) huser hstaged hcalm Nat.le.refl).2 (by decide +kernel)
  rw [hnew] at hhonoured
  exact ⟨hstaged, hcalm, hhonoured⟩

/-- **A quoted address with a colon**, which is a valid one: the request succeeds and stages the
token, and the token is invalid. -/
theorem quoted_token_refused :
    let env := Env.plain Config.sample
    let w := afterRequest env Ctx.sample 1 "password1" "\"a:b\"@x.io" "ip" 0 World.sample
    ((requestChangeEmail env Ctx.sample 1 "password1" "\"a:b\"@x.io" "ip").run
        World.sample).1 = .ok () ∧
      w.outbox.head? = some (.emailVerification "\"a:b\"@x.io" (.changeEmail 100)) ∧
      ((confirmChangeEmail env Ctx.sample (some 100) "ip").run w).1 = .error .invalidToken := by
  decide +kernel

end FinnAuth
