import FinnAuth.Alarm
import FinnAuth.Authority
import FinnAuth.System
import FinnAuth.Versions

/-!
# Revoked access tokens

An access token names what it rests on: the versions of the row it was built from, its session and
its own id. The versions only grow, a revoked session stays revoked and a revocation is never
deleted, so whatever a call takes away from a token is gone for good. What is left is that every
call that is meant to end tokens takes something away from each of them.

Results:
* **`voided_run`**: claims without one of these stay without it, in every run;
* `voided_user`, `voided_session`, `voided_reuse`, `voided_logout`: what each call takes away;
* **`revoked_forever`**: after such a call the tokens it is meant to end never pass again.
-/

namespace FinnAuth

open Lib Prog

variable {env : Env} {ctx : Ctx} {ip : String} {w : World}

/-! ## What cannot come back -/

variable {c : Claims} {s : Step} {sid : Uuid} {before : List Step}

/-- Something the claims rest on is gone. -/
inductive Voided (db : DB) (c : Claims) : Prop where
  | pwdVersion (h : c.pwdVer < db.pwdVersion c.userID)
  | authEpoch (h : c.authEpoch < db.authEpoch c.userID)
  | session {s : Session} (hs : s ∈ db.sessions.rows) (hsid : c.sid = some s.id)
      (hr : s.revoked = true)
  | access {r : AccessRevocation} (hr : r ∈ db.accessRevocations.rows)
      (ht : r.tenantID = c.tenantID) (hjti : c.id = some r.jti)

/-- Claims that pass rest on everything they name. -/
theorem Voided.not_passes (h : Voided w.db c) : ¬ Passes w c := by
  intro hp
  obtain ⟨sid, jti, user, hb⟩ := hp.backed
  have hrow := userRow_of_userByID hb.row
  cases h with
  | pwdVersion h =>
    rw [pwdVersion_of_row hrow, hb.pwdVersion] at h
    exact Nat.lt_irrefl _ h
  | authEpoch h =>
    rw [authEpoch_of_row hrow, hb.authEpoch] at h
    exact Nat.lt_irrefl _ h
  | session hs hsid hr =>
    obtain ⟨s', hs', hid, -, -, hr'⟩ := hb.session
    rw [hb.sid_eq] at hsid
    cases hsid
    obtain rfl := w.db.sessions.eq_of_key_eq hs hs' hid.symm
    rw [hr] at hr'
    cases hr'
  | access hr ht hjti =>
    rw [hb.jti_eq] at hjti
    cases hjti
    exact hb.unrevoked _ hr ht rfl

theorem accessRevocations_exec {db : DB} {r : AccessRevocation} (x : Stmt)
    (h : r ∈ db.accessRevocations.rows) : r ∈ (db.exec x).accessRevocations.rows := by
  cases x with
  | insertAccessRevocation r' => exact Table.mem_insert_getD_of_mem h
  | _ => exact h

theorem voided_exec {db : DB} (x : Stmt) (h : Voided db c) : Voided (db.exec x) c := by
  cases h with
  | pwdVersion h => exact .pwdVersion (Nat.lt_of_lt_of_le h (pwdVersion_exec db x c.userID))
  | authEpoch h => exact .authEpoch (Nat.lt_of_lt_of_le h (authEpoch_exec db x c.userID))
  | session hs hsid hr =>
    obtain ⟨s', hs', ho⟩ := session_stays x hs
    exact .session hs' (hsid.trans (congrArg some ho.id.symm)) (ho.revoked hr)
  | access hr ht hjti => exact .access (accessRevocations_exec x hr) ht hjti

theorem voided_purge : SurvivesPurge (Voided · c) := by
  intro db now h
  constructor
  all_goals
    cases h with
    | pwdVersion h => exact .pwdVersion h
    | authEpoch h => exact .authEpoch h
    | session hs hsid hr => exact .session hs hsid hr
    | access hr ht hjti => exact .access hr ht hjti

theorem Ran.voided {F : Footprint} {w w' : World} (h : Ran F w w') (hv : Voided w.db c) :
    Voided w'.db c :=
  h.keeps (I := (Voided · c)) (fun _ x _ => voided_exec x) hv

/-- **What a token lost it never gets back**, whatever follows. -/
theorem voided_run (h : Voided w.db c) (later : List Step) :
    Voided (systemRun env w later).state.db c :=
  Run.exec_induct (I := fun r : SystemRun => Voided r.state.db c)
    (fun _ _ h => advance_keeps voided_purge (fun _ x _ => voided_exec x) h) later h

/-! ## All tokens of a user -/

/-- The step is meant to end every access token of the user. -/
def Step.endsTokens (w : World) (u : UserID) : Step → Prop
  | .event (.call ctx r) => r.endsTokens ctx w u
  | .event _ => False
  | .admin _ a => a.endsTokens u

/-- A step of this kind that succeeds outdates every row read before it. -/
theorem outdates_step {u : UserID} (hc : w.Calm) (hs : s.endsTokens w u)
    (hok : ∃ pair, (advance env s w).1 = .ok pair) :
    w.db.pwdVersion u < (advance env s w).2.db.pwdVersion u ∨
      w.db.authEpoch u < (advance env s w).2.db.authEpoch u := by
  obtain ⟨pair, hpair⟩ := hok
  cases s with
  | event ev =>
    cases ev with
    | call ctx r =>
      have hraises : Raises u (serve env ctx r) w := raises_serve hc.faults hs
      exact .inl (hraises pair hpair)
    | outside o => exact hs.elim
    | purgeRefreshTokens => exact hs.elim
  | admin ctx a =>
    have hgives : Gives (fun _ w' => w.db.pwdVersion u < w'.db.pwdVersion u ∨
        w.db.authEpoch u < w'.db.authEpoch u) (noPair (serveAdmin ctx a)) w :=
      gives_then (raises_admin hs) fun _ _ h => gives_ret h
    exact hgives pair hpair

/-- A state the run has been in. -/
def Visited (run : SystemRun) (w : World) : Prop :=
  w = run.state ∨ ∃ x ∈ run.hist, w = x.before

/-- The versions of the claims are those of a row of their user that was read during the run. -/
def BuiltFrom (run : SystemRun) (c : Claims) : Prop :=
  ∃ w row, Visited run w ∧ w.db.userRow? c.userID = some row ∧ c.pwdVer = row.pwdVersion ∧
    c.authEpoch = row.authEpoch

/-- Versions read during a run are not above the live ones. -/
theorem visited_le (w₀ : World) (steps : List Step) (u : UserID) :
    ∀ w, Visited (systemRun env w₀ steps) w →
      w.db.pwdVersion u ≤ (systemRun env w₀ steps).state.db.pwdVersion u ∧
        w.db.authEpoch u ≤ (systemRun env w₀ steps).state.db.authEpoch u := by
  refine Run.exec_induct (I := fun r : SystemRun => ∀ w, Visited r w →
    w.db.pwdVersion u ≤ r.state.db.pwdVersion u ∧ w.db.authEpoch u ≤ r.state.db.authEpoch u)
    (fun r s ih w hw => ?_) steps ?_
  · have hstep : r.state.db.pwdVersion u ≤ (advance env s r.state).2.db.pwdVersion u ∧
        r.state.db.authEpoch u ≤ (advance env s r.state).2.db.authEpoch u :=
      ⟨advance_pwdVersion u, advance_authEpoch u⟩
    rcases hw with rfl | ⟨x, hx, rfl⟩
    · exact ⟨Nat.le_refl _, Nat.le_refl _⟩
    · have hbefore : Visited r x.before := by
        rcases List.mem_cons.1 hx with rfl | hx
        · exact .inl rfl
        · exact .inr ⟨x, hx, rfl⟩
      obtain ⟨hv, he⟩ := ih _ hbefore
      exact ⟨Nat.le_trans hv hstep.1, Nat.le_trans he hstep.2⟩
  · rintro w (rfl | ⟨x, hx, -⟩)
    · exact ⟨Nat.le_refl _, Nat.le_refl _⟩
    · cases hx

theorem voided_user {w₀ : World} (hc : (systemRun env w₀ before).state.Calm)
    (hs : s.endsTokens (systemRun env w₀ before).state c.userID)
    (hok : ∃ pair, (advance env s (systemRun env w₀ before).state).1 = .ok pair)
    (hbuilt : BuiltFrom (systemRun env w₀ before) c) :
    Voided (advance env s (systemRun env w₀ before).state).2.db c := by
  obtain ⟨w, row, hw, hrow, hver, hepoch⟩ := hbuilt
  obtain ⟨hv, he⟩ := visited_le w₀ before c.userID w hw
  rw [pwdVersion_of_row hrow, ← hver] at hv
  rw [authEpoch_of_row hrow, ← hepoch] at he
  rcases outdates_step hc hs hok with h | h
  · exact .pwdVersion (Nat.lt_of_le_of_lt hv h)
  · exact .authEpoch (Nat.lt_of_le_of_lt he h)

/-! ## One session -/

theorem gives_sessionsRevokeByID {userID : UserID} :
    Gives (fun _ w' => ∃ s ∈ w'.db.sessions.rows, s.id = sid ∧ s.revoked = true)
      (sessionsRevokeByID ctx sid userID) w := by
  refine gives_repo fun _ o w₁ h hex => ?_
  split at h
  · rename_i hany
    cases h
    obtain ⟨s, hs, hp⟩ := List.any_eq_true.1 hany
    have hid : s.id = sid := by
      simp only [Bool.and_eq_true, decide_eq_true_eq] at hp
      exact hp.1
    rw [hex.db]
    refine ⟨_, List.mem_map_of_mem hs, ?_⟩
    rw [if_pos hp]
    exact ⟨hid, rfl⟩
  · cases h

theorem voided_session {userID : UserID} (hsid : c.sid = some sid) :
    Gives (fun _ w' => Voided w'.db c) (serve env ctx (.revokeSession sid userID ip)) w := by
  have hbody : Gives (fun _ w' => Voided w'.db c)
      (revokeSessionAudited env ctx sid userID ip) { w with op := {} } := by
    refine gives_after (F := anything) (each_wrap (each_sessionsFindByID anything_quiet))
      fun sess w₁ _ => ?_
    split
    · exact gives_fail _
    rename_i sess hsess
    refine gives_before (F := anything) (P := fun _ w' => Voided w'.db c)
      (gives_attempt (wp_mono gives_sessionsRevokeByID fun r w₂ h₂ => ?_)) (fun _ => ?_)
      fun _ _ _ _ hv h => h.voided hv
    · split
      · obtain ⟨s, hs, hid, hr⟩ := h₂ () rfl
        exact gives_ret (.session hs (by rw [hid]; exact hsid) hr)
      · exact gives_fail _
      · exact gives_fail _
    exact each_bind (each_wrap (each_tokensRevokeBySession anything_quiet anything_revokes))
      fun _ => each_bind (each_denylistSession anything_quiet) fun _ => each_record anything_quiet
  exact gives_then (gives_audit hbody fun _ _ h => by rwa [fault_db]) fun _ _ h => gives_ret h

/-- **An alarm leaves the session revoked**, if it was not before. -/
theorem voided_reuse {tok sid : Uuid} {ua : String} {rt : RefreshToken} (hw : Good w)
    (hc : w.faults = []) (hrt : w.db.tokenByHash ctx ⟨tok⟩ = some rt)
    (hsid : rt.sessionID = some sid) (hcs : c.sid = some sid)
    (halarm : Alarm w (advance env (.call ctx (.refresh tok ip ua)) w).2) :
    Voided (advance env (.call ctx (.refresh tok ip ua)) w).2.db c := by
  have hstate : (advance env (.call ctx (.refresh tok ip ua)) w).2 =
      ((refresh env ctx tok ip ua).run w).2 := by
    change ((refresh env ctx tok ip ua >>= fun p => .ret (some p)).run w).2 = _
    rw [bind_def, run_bind]
    rcases (refresh env ctx tok ip ua).run w with ⟨_ | _, _⟩ <;> rfl
  rw [hstate] at halarm ⊢
  have hended : ((refresh env ctx tok ip ua).run w).2.db.Ended sid →
      Voided ((refresh env ctx tok ip ua).run w).2.db c := by
    rintro ⟨⟨s, hs, hid, hr⟩, -⟩
    exact .session hs (by rw [hid]; exact hcs) hr
  by_cases hlate : Late ctx tok w
  · have hwp : wp (refresh env ctx tok ip ua) _ w := wp_refresh_late hw hc hlate
    exact hended (hwp.2 rt hrt sid hsid)
  by_cases hrev : RevokedBefore ctx tok w
  · obtain ⟨rt', hrt', hcause⟩ := hrev
    obtain rfl : rt = rt' := Option.some.inj (hrt.symm.trans hrt')
    obtain ⟨hmem, hp⟩ := Table.mem_of_first? hrt
    simp only [Bool.and_eq_true, decide_eq_true_eq] at hp
    obtain ⟨s, hs, hsid', -⟩ := hw.tidy.linked rt hmem
    rw [hsid] at hsid'
    cases hsid'
    rcases hcause with hr | ⟨s', hs', hid, hr⟩
    · have ht : ctx.tenant = s.tenantID := (owns_family hw.tidy hmem hs hsid).1 hp.2
      have hwp : wp (refresh env ctx tok ip ua) _ w :=
        wp_refresh_revoked hw hc hmem hp.1 hr hs hsid ht
      exact hended hwp.2
    · -- the session was revoked before and stays so
      have hvoid : Voided w.db c := .session hs' (hcs.trans (hsid.symm.trans hid)) hr
      have hran := serve_ran env ctx (.refresh tok ip ua) w
      rw [← hstate]
      exact hran.voided hvoid
  · have hwp : wp (refresh env ctx tok ip ua) _ w := wp_refresh_unalarmed hrev hlate
    exact absurd halarm hwp.1.not_alarm

/-! ## One token -/

theorem gives_revokeCaller {jti : Uuid} (ht : c.tenantID = ctx.tenant) (hjti : c.id = some jti) :
    Gives (fun _ w' => Voided w'.db c) (revokeCaller ctx (some jti)) w := by
  refine gives_after (F := anything) (each_getNow trivial) fun now w₁ _ => ?_
  have hrevoke : Gives (fun _ w' => Voided w'.db c)
      (revokeAccess ctx jti (now + keyDrain * 1000)) w₁ := by
    refine gives_repo fun _ o w₂ h hex => ?_
    cases h
    rw [hex.db]
    obtain ⟨r, hr, hkey⟩ := w₁.db.accessRevocations.exists_insert_getD
      ⟨ctx.tenant, jti, now + keyDrain * 1000⟩
    obtain ⟨hten, hid⟩ := Prod.mk.inj hkey
    exact .access hr (hten.trans ht.symm) (hjti.trans (congrArg some hid.symm))
  refine wp_seq ?_
  rw [wp_attempt]
  refine wp_mono hrevoke fun r w₂ h₂ => ?_
  cases r with
  | ok a => exact gives_ret (h₂ a rfl)
  | error e => exact gives_fail _

theorem voided_logout {tok jti : Uuid} (ht : c.tenantID = ctx.tenant) (hjti : c.id = some jti) :
    Gives (fun _ w' => Voided w'.db c) (serve env ctx (.logout tok (some jti) ip)) w := by
  have hbody : Gives (fun _ w' => Voided w'.db c)
      (logoutAudited env ctx tok (some jti) ip) { w with op := {} } := by
    refine gives_before (F := anything) (gives_revokeCaller ht hjti) (fun _ => ?_)
      fun _ _ _ _ hv h => h.voided hv
    refine each_bind (each_denylistAccessToken anything_quiet.toBasic) fun _ =>
      each_bind (each_wrap (each_query trivial)) fun rt => ?_
    split
    · exact each_doIf (each_record anything_quiet)
    · exact each_logoutActive anything_quiet anything_revokes anything_consumes
  exact gives_then (gives_audit hbody fun _ _ h => by rwa [fault_db]) fun _ _ h => gives_ret h

/-! ## Every state of a run -/

theorem admin_tame {a : AdminRequest} {x : Stmt} (h : a.may x.kind = true) : tame.stmt x := by
  constructor
  · rintro s rfl
    cases a <;> simp [AdminRequest.may, AdminRequest.kinds, Stmt.kind, revokeKinds] at h
  · rintro t rfl
    cases a <;> simp [AdminRequest.may, AdminRequest.kinds, Stmt.kind, revokeKinds] at h

theorem advance_next (hw : Good w) : Next w (advance env s w).2 := by
  cases s with
  | event ev => exact respond_next env ev hw
  | admin ctx a =>
    rw [advance, run_noPair]
    have hran := admin_ran ctx a w
    refine next_settled hw ?_ hran.entropy
    exact hran.keeps (I := Settled w.db)
      (fun _ _ hx hd => hd.trans (settled_exec (admin_tame hx.1))) (Settled.refl _)

theorem good_systemRun (h : NoSessions w) (steps : List Step) :
    Good (systemRun env w steps).state :=
  Run.exec_induct (I := fun r : SystemRun => Good r.state)
    (fun _ _ hr => (advance_next hr).good) steps h.good

/-! ## The claim -/

/-- The next step of the run is meant to end the token with these claims, and did what it was asked
to: `Refresh` answers a reuse with an error, all the others succeed. -/
inductive Revokes (env : Env) (run : SystemRun) (c : Claims) : Step → Prop where
  | user {s : Step} (hs : s.endsTokens run.state c.userID) (hbuilt : BuiltFrom run c)
      (hok : ∃ pair, (advance env s run.state).1 = .ok pair) : Revokes env run c s
  | session {ctx : Ctx} {sid : Uuid} {userID : UserID} {ip : String} (hsid : c.sid = some sid)
      (hok : ∃ pair, (advance env (.call ctx (.revokeSession sid userID ip)) run.state).1 =
        .ok pair) :
      Revokes env run c (.call ctx (.revokeSession sid userID ip))
  | reuse {ctx : Ctx} {tok : Uuid} {ip ua : String} {rt : RefreshToken}
      (hrt : run.state.db.tokenByHash ctx ⟨tok⟩ = some rt) (hsid : c.sid = rt.sessionID)
      (halarm : Alarm run.state (advance env (.call ctx (.refresh tok ip ua)) run.state).2) :
      Revokes env run c (.call ctx (.refresh tok ip ua))
  | logout {ctx : Ctx} {tok jti : Uuid} {ip : String} (ht : c.tenantID = ctx.tenant)
      (hjti : c.id = some jti)
      (hok : ∃ pair, (advance env (.call ctx (.logout tok (some jti) ip)) run.state).1 =
        .ok pair) :
      Revokes env run c (.call ctx (.logout tok (some jti) ip))

theorem Revokes.voided {w₀ : World} (h₀ : NoSessions w₀) (hc : (systemRun env w₀ before).state.Calm)
    (h : Revokes env (systemRun env w₀ before) c s) :
    Voided (advance env s (systemRun env w₀ before).state).2.db c := by
  cases h with
  | user hs hbuilt hok => exact voided_user hc hs hok hbuilt
  | session hsid hok =>
    obtain ⟨pair, hpair⟩ := hok
    exact voided_session hsid pair hpair
  | reuse hrt hsid halarm =>
    have hgood : Good (systemRun env w₀ before).state := good_systemRun h₀ before
    obtain ⟨hmem, -⟩ := Table.mem_of_first? hrt
    obtain ⟨s, -, hrow, -⟩ := hgood.tidy.linked _ hmem
    exact voided_reuse hgood hc.faults hrt hrow (hsid.trans hrow) halarm
  | logout ht hjti hok =>
    obtain ⟨pair, hpair⟩ := hok
    exact voided_logout ht hjti pair hpair

/-- **Revocation is complete and permanent.** Once a call that is meant to end a token has done so,
the authority never lets its claims pass again, whatever follows and whatever fails later. -/
theorem revoked_forever (env : Env) {w₀ : World} (h₀ : NoSessions w₀) (before : List Step)
    {s : Step} {c : Claims} (hc : (systemRun env w₀ before).state.Calm)
    (h : Revokes env (systemRun env w₀ before) c s) (faults : List Bool) (later : List Step) :
    ¬ Passes (systemRun env
      ((advance env s (systemRun env w₀ before).state).2.withFaults faults) later).state c :=
  (voided_run (w := (advance env s (systemRun env w₀ before).state).2.withFaults faults)
    (h.voided h₀ hc) later).not_passes

/-- A login of `jose`. -/
def sampleLogin : Step := .call .sample (.login "jose@x.io" "password1" "" "ip" "ua")

/-- The claims of the access token of the first login of `jose`. -/
def sampleAccess : Claims :=
  ((advance (.plain .sample) sampleLogin .sample).2.signed.head?).getD
    (baseClaims 0 0 "" "" .access 0)

/-- `jose` logs in, logs out everywhere and logs in again. The first access token passed before the
logout; it does not after it, nor after the second login. -/
theorem revoked_forever_jose :
    Passes (systemRun (.plain .sample) .sample [sampleLogin]).state sampleAccess ∧
      ¬ Passes (systemRun (.plain .sample)
        ((advance (.plain .sample) (.call .sample (.logoutAll 1 "ip"))
          (systemRun (.plain .sample) .sample [sampleLogin]).state).2.withFaults [])
        [sampleLogin]).state sampleAccess := by
  refine ⟨by decide +kernel, ?_⟩
  refine revoked_forever (.plain .sample) noSessions_sample [sampleLogin]
    ⟨by decide +kernel, by decide +kernel⟩ (.user ?_ ?_ ?_) [] [sampleLogin]
  · show 1 = sampleAccess.userID
    decide +kernel
  · exact ⟨_, _, .inl rfl, rfl, by decide +kernel, by decide +kernel⟩
  · exact ⟨none, by decide +kernel⟩

end FinnAuth
