import FinnAuth.GoogleLink
import FinnAuth.System

/-!
# The last way into an account

An account is entered with a password, a linked identity or a passkey. `unlinkAudited`
(`oauth_service.go`) refuses to remove a link that is the only way left; `revokeAudited`
(`passkey_service.go`) removes a passkey without looking. So a Google account with a passkey can
first be unlinked, on the strength of the passkey, and then lose the passkey.

Results:
* `sparing`: the statements after which no account is locked out that was not before;
* **`unlink_spares`**, `revoke_spares`: the two removals;
* **`no_self_lockout`**: if a passkey is revoked only while another way in is left, no account is
  locked out in any run;
* **`google_account_locked_out`**: without the condition one is.
-/

namespace FinnAuth

open Lib Prog

/-! ## Ways in -/

/-- Nothing is left to enter the account with. -/
def Stranded (db : DB) (u : User) : Prop :=
  u.password = "" ∧ (∀ i ∈ db.oauthIdentities.rows, i.userID ≠ u.id) ∧
    ∀ c ∈ db.passkeys.rows, c.userID = u.id → c.revoked = true

instance (db : DB) (u : User) : Decidable (Stranded db u) := by
  unfold Stranded; infer_instance

/-- Every active account can be entered. -/
def NoneStranded (db : DB) : Prop :=
  ∀ u ∈ db.users.rows, u.isActive = true → ¬ Stranded db u

instance (db : DB) : Decidable (NoneStranded db) := by
  unfold NoneStranded; infer_instance

/-- The account keeps a way in without the passkey `id`. -/
def OtherWay (db : DB) (u : User) (id : Nat) : Prop :=
  u.password ≠ "" ∨ (∃ i ∈ db.oauthIdentities.rows, i.userID = u.id) ∨
    ∃ c ∈ db.passkeys.rows, c.userID = u.id ∧ c.revoked = false ∧ c.id ≠ id

instance (db : DB) (u : User) (id : Nat) : Decidable (OtherWay db u id) := by
  unfold OtherWay; infer_instance

variable {env : Env} {ctx : Ctx} {w : World} {db db' : DB} {u : User} {ip ua : String}
  {userID : UserID}

theorem not_stranded_iff : ¬ Stranded db u ↔ u.password ≠ "" ∨
    (∃ i ∈ db.oauthIdentities.rows, i.userID = u.id) ∨
      ∃ c ∈ db.passkeys.rows, c.userID = u.id ∧ c.revoked = false := by
  constructor
  · intro h
    by_contra hno
    simp only [not_or, not_exists, not_and, not_not] at hno
    exact h ⟨hno.1, hno.2.1, fun c hc hu => by simpa using hno.2.2 c hc hu⟩
  · rintro (hp | ⟨i, hi, hu⟩ | ⟨c, hc, hu, hr⟩) ⟨hp', hi', hc'⟩
    · exact hp hp'
    · exact hi' i hi hu
    · rw [hc' c hc hu] at hr
      cases hr

/-- A way in that is still there. -/
theorem stranded_mono {v : User} (hid : v.id = u.id) (hpw : v.password = "" → u.password = "")
    (hlinks : ∀ i ∈ db.oauthIdentities.rows, i.userID = u.id → i ∈ db'.oauthIdentities.rows)
    (hkeys : ∀ c ∈ db.passkeys.rows, c.userID = u.id → c.revoked = false →
      ∃ c' ∈ db'.passkeys.rows, c'.userID = u.id ∧ c'.revoked = false)
    (h : Stranded db' v) : Stranded db u := by
  obtain ⟨hp, hi, hc⟩ := h
  refine ⟨hpw hp, fun i hmem hu => hi i (hlinks i hmem hu) (hu.trans hid.symm),
    fun c hmem hu => ?_⟩
  by_contra hr
  obtain ⟨c', hmem', hu', hr'⟩ := hkeys c hmem hu (by simpa using hr)
  rw [hc c' hmem' (hu'.trans hid.symm)] at hr'
  cases hr'

theorem noneStranded_same (h : NoneStranded db) (hs : SameAccounts db db') : NoneStranded db' := by
  unfold NoneStranded Stranded at h ⊢
  rw [hs.users, hs.links, hs.passkeys]
  exact h

/-- The same users, and no way in is gone. -/
theorem noneStranded_more (h : NoneStranded db) (husers : db'.users = db.users)
    (hlinks : ∀ i ∈ db.oauthIdentities.rows, i ∈ db'.oauthIdentities.rows)
    (hkeys : ∀ c ∈ db.passkeys.rows, c.revoked = false →
      ∃ c' ∈ db'.passkeys.rows, c'.userID = c.userID ∧ c'.revoked = false) :
    NoneStranded db' := by
  intro u hu hactive hstranded
  rw [husers] at hu
  refine h u hu hactive (stranded_mono rfl id (fun i hi _ => hlinks i hi) (fun c hc hcu hr => ?_)
    hstranded)
  obtain ⟨c', hc', hu', hr'⟩ := hkeys c hc hr
  exact ⟨c', hc', hu'.trans hcu, hr'⟩

/-! ## Statements that lock nobody out -/

/-- After the statements of this footprint no account is locked out that was not before. -/
def sparing : Footprint where
  label _ := True
  stmt s := ∀ db : DB, NoneStranded db → NoneStranded (db.exec s)
  mail _ := True
  key _ := True

theorem sparing_quiet : sparing.Quiet where
  other := trivial
  site _ := trivial
  findUser _ := trivial
  audit _ _ h := noneStranded_same h ⟨rfl, rfl, rfl⟩
  mail _ _ := trivial
  key _ _ := trivial

theorem sparing_insertUser (hu : u.password ≠ "") : sparing.stmt (.insertUser u) := by
  intro db h v hv hactive hstranded
  rcases Table.mem_insert_getD hv with hv | rfl
  · exact h v hv hactive hstranded
  · exact hu hstranded.1

/-- A write to a user row that keeps or sets a password and reactivates nobody. -/
theorem sparing_updateUser {id : UserID} {x : UserWrite}
    (hpw : ∀ u, (x.apply u).password = "" → u.password = "")
    (hactive : ∀ u, (x.apply u).isActive = true → u.isActive = true) :
    sparing.stmt (.updateUser ctx id x) := by
  intro db h v hv hva hstranded
  obtain ⟨u, hu, rfl⟩ := (Table.mem_update _ _ _ x.apply_id _).1 hv
  split at hva
  · rename_i hp
    rw [if_pos hp] at hstranded
    exact h u hu (hactive u hva) (stranded_mono (x.apply_id u) (hpw u) (fun i hi _ => hi)
      (fun c hc hcu hr => ⟨c, hc, hcu, hr⟩) hstranded)
  · rename_i hp
    rw [if_neg hp] at hstranded
    exact h u hu hva hstranded

theorem sparing_insertPasskey (c : PasskeyCredential) : sparing.stmt (.insertPasskey c) :=
  fun _ h => noneStranded_more h rfl (fun _ hi => hi)
    fun c hc hr => ⟨c, Table.mem_insert_getD_of_mem hc, rfl, hr⟩

/-! ## The calls -/

theorem spares_audit {α : Type} {p : M α} (hp : Each (Acts sparing) p) (h : NoneStranded w.db) :
    NoneStranded ((runAuditOperation p).run w).2.db :=
  (within_audit (within_of_each hp) w).keeps (fun db _ hs => hs db) h

theorem handleCallback_spares {reply : GoogleReply} {state : Option Uuid}
    (h : NoneStranded w.db) :
    wp (handleCallback env ctx reply state ip ua) (fun _ w' => NoneStranded w'.db) w := by
  have henters : ∀ {sub email : String} {u : User} {db' : DB},
      Enters env ctx sub email u w.db db' → NoneStranded db' := by
    intro sub email u db' he v hv hactive hstranded
    rcases he.users v hv with hv | rfl
    · refine h v hv hactive (stranded_mono rfl id (fun i hi _ => he.links i hi)
        (fun c hc hcu hr => ⟨c, he.passkeys ▸ hc, hcu, hr⟩) hstranded)
    · exact hstranded.2.1 _ he.link rfl
  refine wp_audit_db (I := fun _ db => NoneStranded db) ?_ fun _ => h
  refine wp_handleCallbackAudited_enters (fun e w' he hcommit => ?_) fun r w' c u _ he _ _ _ =>
    henters he
  rcases he with hno | hsame | ⟨c, u, -, he⟩
  · rw [Commits, hno] at hcommit
    cases hcommit
  · exact noneStranded_same h hsame
  · exact henters he

/-- Removing the links of an account that has another way in. -/
theorem noneStranded_deleteIdentities {p : OAuthIdentity → Bool} (userID : UserID)
    (h : NoneStranded db) (hp : ∀ i, p i = true → i.userID = userID)
    (hother : ∀ u ∈ db.users.rows, u.id = userID → u.password ≠ "" ∨
      ∃ c ∈ db.passkeys.rows, c.userID = u.id ∧ c.revoked = false) :
    NoneStranded (db.exec (.deleteIdentities p)) := by
  intro u hu hactive
  by_cases hid : u.id = userID
  · rw [not_stranded_iff]
    exact (hother u hu hid).imp_right .inr
  · -- the links of the others stay
    have hkept : ∀ i ∈ db.oauthIdentities.rows, i.userID = u.id →
        i ∈ (db.exec (.deleteIdentities p)).oauthIdentities.rows := by
      refine fun i hi hiu => (Table.mem_delete _ _ _).2 ⟨hi, ?_⟩
      by_contra hpi
      exact hid (hiu.symm.trans (hp i (by simpa using hpi)))
    exact fun hstranded => h u hu hactive (stranded_mono rfl id hkept
      (fun c hc hcu hr => ⟨c, hc, hcu, hr⟩) hstranded)

theorem wp_sparing {α : Type} {p : M α} (hp : Each (Acts sparing) p)
    {Q : Except Err α → World → Prop} (h : NoneStranded w.db)
    (hQ : ∀ r w', NoneStranded w'.db → Q r w') : wp p Q w :=
  wp_of_within (within_of_each hp) fun r w' hran => hQ r w' (hran.keeps (fun db _ hs => hs db) h)

/-- **`Unlink` never removes the last way in.** -/
theorem unlink_spares {provider : String} (h : NoneStranded w.db) :
    wp (unlink ctx userID provider ip) (fun _ w' => NoneStranded w'.db) w := by
  refine wp_audit_db (I := fun _ db => NoneStranded db) ?_ fun _ => h
  refine wp_seq (wp_apart (each_query trivial) fun r w₁ h₁ => ?_)
  have hn₁ := noneStranded_same h h₁
  rcases r with e | _ | ident
  · exact fun _ => hn₁
  · exact fun _ => hn₁
  rw [thenWp_ok]
  refine wp_seq ?_
  rw [usersFindByID, wp_query]
  refine ⟨fun _ _ => by simpa using hn₁, fun _ => ?_⟩
  cases hu : w₁.db.userByID ctx userID with
  | none =>
    rw [thenWp_ok, wp_throw]
    exact fun _ => by simpa using hn₁
  | some user =>
    obtain ⟨hmem, hid, -⟩ := DB.userByID_spec hu
    rw [thenWp_ok]
    refine wp_seq (wp_mono (Q := fun r w₂ => w₂.db = w₁.db ∧ ∃ b, r = .ok b ∧ (b = true →
      ∃ c ∈ w₁.db.passkeys.rows, c.userID = userID ∧ c.revoked = false)) ?_ ?_)
    · -- a failed lookup counts as no passkey
      simp only [bind_def, wp_bind, wp_attempt, passkeysListByUser, wp_query, thenWp_ok, wp_ret,
        fault_db]
      refine ⟨fun _ => ⟨trivial, false, rfl, by simp⟩, fun _ => ⟨trivial, _, rfl, fun hk => ?_⟩⟩
      obtain ⟨c, hc, hu, hr, -⟩ : ∃ c ∈ w₁.db.passkeys.rows, c.userID = userID ∧
          c.revoked = false ∧ w₁.db.owns ctx c.userID = true := by simpa using hk
      exact ⟨c, hc, hu, hr⟩
    rintro r w₂ ⟨hdb, hasPasskey, rfl, hkey⟩
    simp only [thenWp_ok, bind_def, wp_bind, wp_refuse, thenWp_error]
    refine ⟨fun _ _ => hdb ▸ hn₁, fun hguard => ?_⟩
    refine wp_executes fun r o w₃ hro hex => ?_
    have hn₃ : NoneStranded w₃.db := by
      rw [hex.db, hdb]
      rcases hro with ⟨-, rfl⟩ | hf
      · exact hn₁
      obtain ⟨-, rfl⟩ := Prod.mk.inj hf
      refine noneStranded_deleteIdentities userID hn₁ (fun i hi => ?_) fun u hu huid => ?_
      · simp only [Bool.and_eq_true, decide_eq_true_eq] at hi
        exact hi.1.1
      · obtain rfl := w₁.db.users.eq_of_key_eq hmem hu (hid.trans huid.symm)
        simp only [Bool.and_eq_false_iff, decide_eq_false_iff_not, Bool.not_eq_false'] at hguard
        rw [hid]
        exact hguard.imp_right hkey
    rcases r with e | _
    · exact fun _ => hn₃
    · exact wp_sparing (each_bind (each_record sparing_quiet) fun _ =>
        each_ignore (each_notify trivial trivial)) hn₃ fun _ _ h _ => h

/-- Revoking the passkey of an account that has another way in. -/
theorem noneStranded_revokePasskeys {p : PasskeyCredential → Bool} {id : Nat} (h : NoneStranded db)
    (hp : ∀ c, p c = true → c.id = id ∧ c.userID = userID)
    (hother : ∀ u ∈ db.users.rows, u.id = userID → u.isActive = true → OtherWay db u id) :
    NoneStranded (db.exec (.revokePasskeys p)) := by
  have hkept : ∀ c ∈ db.passkeys.rows, p c = false →
      c ∈ (db.exec (.revokePasskeys p)).passkeys.rows := by
    intro c hc hpc
    have hsame : (if p c = true then { c with revoked := true } else c) = c := by simp [hpc]
    exact List.mem_map.2 ⟨c, hc, hsame⟩
  intro u hu hactive
  by_cases hid : u.id = userID
  · rw [not_stranded_iff]
    refine (hother u hu hid hactive).imp_right (Or.imp_right fun ⟨c, hc, hcu, hr, hne⟩ => ?_)
    refine ⟨c, hkept c hc ?_, hcu, hr⟩
    by_contra hpc
    exact hne (hp c (by simpa using hpc)).1
  · have hkeys : ∀ c ∈ db.passkeys.rows, c.userID = u.id → c.revoked = false →
        ∃ c' ∈ (db.exec (.revokePasskeys p)).passkeys.rows, c'.userID = u.id ∧
          c'.revoked = false := by
      refine fun c hc hcu hr => ⟨c, hkept c hc ?_, hcu, hr⟩
      by_contra hpc
      exact hid (hcu.symm.trans (hp c (by simpa using hpc)).2)
    intro hstranded
    refine h u hu hactive (stranded_mono rfl (fun h => h) ?_ hkeys hstranded)
    exact fun i hi _ => hi

/-- `Revoke` of a passkey that is not the last way in. -/
theorem revoke_spares {id : Nat} (h : NoneStranded w.db)
    (hother : ∀ u ∈ w.db.users.rows, u.id = userID → u.isActive = true → OtherWay w.db u id) :
    wp (passkeyRevoke ctx id userID) (fun _ w' => NoneStranded w'.db) w := by
  refine wp_audit_db (I := fun _ db => NoneStranded db) ?_ fun _ => h
  refine wp_seq ?_
  simp only [bind_def, wp_bind, wp_attempt]
  refine wp_executes fun r o w₁ hro hex => ?_
  have hn₁ : NoneStranded w₁.db := by
    rw [hex.db]
    rcases hro with ⟨-, rfl⟩ | hf
    · exact h
    simp only at hf
    split at hf
    · obtain ⟨-, rfl⟩ := Prod.mk.inj hf
      refine noneStranded_revokePasskeys h (fun c hc => ?_) hother
      simp only [Bool.and_eq_true, decide_eq_true_eq] at hc
      exact ⟨hc.1.1.1, hc.1.1.2⟩
    · obtain ⟨-, rfl⟩ := Prod.mk.inj hf
      exact h
  rcases r with e | _
  · exact fun _ => hn₁
  · exact wp_sparing (each_record sparing_quiet) hn₁ fun _ _ h _ => h

/-! ## Runs -/

/-- The calls that give an account a way in or take one, what has to come before them, and what
happens in between. -/
def Step.managesAccess : Step → Bool
  | .event (.call _ r) =>
    match r with
    | .register _ | .oauthBeginLogin | .handleCallback .. | .setPassword ..
    | .passkeyBeginRegistration _ | .passkeyFinishRegistration .. | .passkeyRevoke ..
    | .unlink .. => true
    | _ => false
  | .event _ => true
  | .admin _ _ => false

/-- The passkey a step revokes, and its owner. -/
def Step.revokes? : Step → Option (Nat × UserID)
  | .event (.call _ (.passkeyRevoke id userID)) => some (id, userID)
  | _ => none

/-- A passkey is revoked only while the account keeps another way in. -/
def LeavesWay (s : Step) (w : World) : Prop :=
  ∀ x ∈ s.revokes?, ∀ u ∈ w.db.users.rows, u.id = x.2 → u.isActive = true → OtherWay w.db u x.1

instance (s : Step) (w : World) : Decidable (LeavesWay s w) := by
  unfold LeavesWay; infer_instance

/-- A successful removal of a way in. -/
def Removes (x : Record World Step Reply) : Prop :=
  x.reply.isOk = true ∧
    ((∃ ctx userID provider ip, x.input = .call ctx (.unlink userID provider ip)) ∨
      ∃ ctx id userID, x.input = .call ctx (.passkeyRevoke id userID))

/-- **One step locks nobody out.** -/
theorem advance_spares (env : Env) {s : Step} (hs : s.managesAccess = true)
    (hleaves : LeavesWay s w) (h : NoneStranded w.db) : NoneStranded (advance env s w).2.db := by
  cases s with
  | admin => cases hs
  | event ev =>
    cases ev with
    | purgeRefreshTokens => exact noneStranded_same h ⟨rfl, rfl, rfl⟩
    | outside o => cases o <;> exact noneStranded_same h ⟨rfl, rfl, rfl⟩
    | call ctx r =>
      change NoneStranded ((serve env ctx r).run w).2.db
      cases r with
      | register i =>
        rw [serve, run_noPair]
        exact spares_audit (each_registerAudited sparing_quiet (fun _ => sparing_insertUser)
          (fun _ _ => trivial) fun _ _ => trivial) h
      | setPassword =>
        rw [serve, run_noPair]
        refine spares_audit (each_setPasswordAudited sparing_quiet (fun hashed hne => ?_) ?_) h
        · exact sparing_updateUser (fun u hp => absurd hp hne) fun _ h => h
        · exact sparing_updateUser (fun _ h => h) fun _ h => h
      | oauthBeginLogin =>
        rw [serve, run_noPair]
        exact wp_sparing (each_oauthBeginLogin sparing_quiet fun _ => trivial) h fun _ _ h => h
      | handleCallback reply state ip ua =>
        have hwp : wp (serve env ctx (.handleCallback reply state ip ua))
            (fun _ w' => NoneStranded w'.db) w := by
          refine wp_seq (wp_mono (handleCallback_spares h) fun r w' h' => ?_)
          cases r <;> exact h'
        exact hwp
      | passkeyBeginRegistration =>
        rw [serve, run_noPair]
        exact wp_sparing (each_passkeyBeginRegistration sparing_quiet trivial) h fun _ _ h => h
      | passkeyFinishRegistration =>
        rw [serve, run_noPair]
        exact spares_audit (each_passkeyFinishRegistrationAudited sparing_quiet trivial
          sparing_insertPasskey) h
      | unlink =>
        rw [serve, run_noPair]
        exact unlink_spares h
      | passkeyRevoke id userID =>
        rw [serve, run_noPair]
        exact revoke_spares h (hleaves (id, userID) rfl)
      | _ => cases hs

/-- **No self-lockout**: in a run of these calls in which a passkey is revoked only while its
account keeps another way in, every active account can be entered after every successful removal,
and at the end. -/
theorem no_self_lockout (env : Env) (w : World) (hw : NoneStranded w.db) (steps : List Step)
    (hm : (Run.init w : SystemRun).Meets (advance env)
      (fun s r => s.managesAccess = true ∧ LeavesWay s r.state) steps) :
    (∀ x ∈ (systemRun env w steps).hist, Removes x → NoneStranded x.after.db) ∧
      NoneStranded (systemRun env w steps).state.db := by
  have hrun := Run.exec_induct_meets (f := advance env)
    (I := fun r => (∀ x ∈ r.hist, NoneStranded x.after.db) ∧ NoneStranded r.state.db)
    (fun r s hr hok => ?_) steps ⟨fun _ h => (by cases h), hw⟩ hm
  · exact ⟨fun x hx _ => hrun.1 x hx, hrun.2⟩
  · have hnext := advance_spares env hok.1 hok.2 hr.2
    refine ⟨fun x hx => ?_, hnext⟩
    rcases List.mem_cons.1 hx with rfl | hx
    · exact hnext
    · exact hr.1 x hx

/-! ## A Google account with a passkey -/

/-- `ann` signs in with Google and registers a passkey. -/
def annWithPasskey : List Step :=
  [.call .sample .oauthBeginLogin,
    .call .sample
      (.handleCallback (.claims ⟨"g1", "ann@x.io", true, "Ann", "101"⟩) (some 100) "" ""),
    .call .sample (.passkeyBeginRegistration 104),
    .call .sample (.passkeyFinishRegistration 104 ⟨"108", 77, 0⟩ "key" "")]

/-- Revoking the passkey is fine while the Google account is linked. -/
theorem no_self_lockout_linked :
    ((systemRun (.plain .sample) .sample
      (annWithPasskey ++ [.call .sample (.passkeyRevoke 110 104)])).hist.map
        fun x => x.reply.isOk) = [true, true, true, true, true] ∧
    NoneStranded (systemRun (.plain .sample) .sample
      (annWithPasskey ++ [.call .sample (.passkeyRevoke 110 104)])).state.db :=
  ⟨by decide +kernel,
    (no_self_lockout (.plain .sample) .sample (by decide) _ (by decide +kernel)).2⟩

/-- **The last way in is gone**: the Google account is unlinked on the strength of the passkey, and
then the passkey is revoked. -/
theorem google_account_locked_out :
    ∃ x ∈ (systemRun (.plain .sample) .sample (annWithPasskey ++
      [.call .sample (.unlink 104 "google" ""), .call .sample (.passkeyRevoke 110 104)])).hist,
      x.reply.isOk = true ∧ x.input = .call .sample (.passkeyRevoke 110 104) ∧
        NoneStranded x.before.db ∧ ¬ NoneStranded x.after.db := by
  rw [List.append_cons, systemRun, Run.exec_concat]
  exact ⟨_, List.mem_cons_self, by decide +kernel, rfl, by decide +kernel, by decide +kernel⟩

end FinnAuth
