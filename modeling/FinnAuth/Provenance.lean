import FinnAuth.Footprint.Totp

/-!
# Where an enabled TOTP secret comes from

Six operations and three secret columns: `Enable` stages a fresh secret, `VerifyEnable` promotes
what is staged, `Disable` blanks the row. The history keeps, for each user, the secrets `Enable`
returned since the last `Disable` that switched an enabled device off, and an enabled device
should work with one of those.

`VerifyEnable` has no notion of "nothing is staged": on a row whose three columns are blank it
falls through to the legacy plaintext column, reads the empty string and checks the code against
that. So the property holds as long as nobody submits the code of the empty secret for a blank
row, and fails otherwise.

Results:
* **`Enrolment.run_provenance`**: in every run in which no confirmation meets a blank row with a
  code of the empty secret, every enabled device works with a staged secret;
* `blank_row_activated`: enrol, disable, and confirm with the code of the empty secret.
-/

namespace FinnAuth

open Lib Prog

/-! ## Calls and history -/

/-- A call of the service, or the passing of time between two calls. -/
inductive TotpCall : Type where
  | enable (ctx : Ctx) (userID : UserID) (sudoToken : Option Token)
  | verifyEnable (ctx : Ctx) (userID : UserID) (code : String)
  | validate (ctx : Ctx) (userID : UserID) (code : String)
  | viewRecoveryCodes (ctx : Ctx) (userID : UserID) (code : String)
  | regenerateRecoveryCodes (ctx : Ctx) (userID : UserID)
  | disable (ctx : Ctx) (userID : UserID) (sudoToken : Option Token) (password code : String)
  | tick (ms : Nat)

/-- The world, and for each user the secrets `Enable` generated since the last `Disable` that took
effect. -/
structure Enrolment where
  world : World
  secrets : UserID → List String

/-- The user's device is on. -/
def DB.totpEnabled (db : DB) (userID : UserID) : Bool :=
  db.totpDevices.rows.any fun d => d.userID = userID && d.enabled

/-- The secret a code is checked against: `openActiveSecret` without its side effect. -/
def TOTPDevice.activeSecret (env : Env) (d : TOTPDevice) : Option String :=
  if d.secretEncrypted = "" then some d.secret
  else match env.decrypt d.secretEncrypted with
    | some plain => some plain
    | none => if d.secret = "" then none else some d.secret

namespace Enrolment

/-- What an `Enable` that returned `r` adds to the history. -/
def staged (secrets : UserID → List String) (userID : UserID) :
    Except Err String → UserID → List String
  | .ok secret => Function.update secrets userID (secret :: secrets userID)
  | .error _ => secrets

/-- What a `Disable` that returned `r` removes from the history: everything, if it switched an
enabled device off. -/
def dropped (secrets : UserID → List String) (userID : UserID) (before after : DB) :
    Except Err Unit → UserID → List String
  | .ok () =>
    if before.totpEnabled userID && !after.totpEnabled userID then
      Function.update secrets userID [] else secrets
  | .error _ => secrets

/-- One call. -/
def step (env : Env) (s : Enrolment) : TotpCall → Enrolment
  | .enable ctx u t =>
    let (r, w) := (TOTPService.enable env ctx u t).run s.world
    ⟨w, staged s.secrets u r⟩
  | .verifyEnable ctx u code =>
    ⟨((TOTPService.verifyEnable env ctx u code).run s.world).2, s.secrets⟩
  | .validate ctx u code => ⟨((TOTPService.validate env ctx u code).run s.world).2, s.secrets⟩
  | .viewRecoveryCodes ctx u code =>
    ⟨((TOTPService.viewRecoveryCodes env ctx u code).run s.world).2, s.secrets⟩
  | .regenerateRecoveryCodes ctx u =>
    ⟨((TOTPService.regenerateRecoveryCodes env ctx u).run s.world).2, s.secrets⟩
  | .disable ctx u t password code =>
    let (r, w) := (TOTPService.disable env ctx u t password code).run s.world
    ⟨w, dropped s.secrets u s.world.db w.db r⟩
  | .tick ms => ⟨{ s.world with now := s.world.now + ms }, s.secrets⟩

/-- Calls one after another. -/
def run (env : Env) (s : Enrolment) (calls : List TotpCall) : Enrolment :=
  calls.foldl (step env) s

/-- Every enabled device works with a non-empty secret of the history. -/
def Provenance (env : Env) (s : Enrolment) : Prop :=
  ∀ d ∈ s.world.db.totpDevices.rows, d.enabled = true →
    ∃ secret ∈ s.secrets d.userID, secret ≠ "" ∧ d.activeSecret env = some secret

/-- A row with nothing staged: off, and all three columns empty. -/
structure Blank (d : TOTPDevice) : Prop where
  enabled : d.enabled = false
  secret : d.secret = ""
  secretEncrypted : d.secretEncrypted = ""
  pendingSecretEncrypted : d.pendingSecretEncrypted = ""

/-- No confirmation of a blank row with a code of the empty secret. -/
def Confirms (env : Env) (s : Enrolment) : TotpCall → Prop
  | .verifyEnable _ u code => ∀ d ∈ s.world.db.totpDevices.rows, d.userID = u → Blank d →
      env.totpLibrary s.world.now code "" = false
  | _ => True

/-- Every call of the run meets `Confirms` in the state it is made in. -/
def AllConfirm (env : Env) : Enrolment → List TotpCall → Prop
  | _, [] => True
  | s, c :: cs => Confirms env s c ∧ AllConfirm env (s.step env c) cs

instance (env : Env) (s : Enrolment) : Decidable (Provenance env s) :=
  inferInstanceAs (Decidable (∀ d ∈ s.world.db.totpDevices.rows, d.enabled = true →
    ∃ secret ∈ s.secrets d.userID, secret ≠ "" ∧ d.activeSecret env = some secret))

instance (d : TOTPDevice) : Decidable (Blank d) :=
  decidable_of_iff (d.enabled = false ∧ d.secret = "" ∧ d.secretEncrypted = "" ∧
    d.pendingSecretEncrypted = "")
    ⟨fun ⟨a, b, c, e⟩ => ⟨a, b, c, e⟩, fun ⟨a, b, c, e⟩ => ⟨a, b, c, e⟩⟩

instance (env : Env) (s : Enrolment) (c : TotpCall) : Decidable (Confirms env s c) :=
  match c with
  | .verifyEnable _ u code => inferInstanceAs (Decidable (∀ d ∈ s.world.db.totpDevices.rows,
      d.userID = u → Blank d → env.totpLibrary s.world.now code "" = false))
  | .enable .. | .validate .. | .viewRecoveryCodes .. | .regenerateRecoveryCodes .. | .disable ..
  | .tick _ => isTrue trivial

instance decidableAllConfirm (env : Env) :
    (s : Enrolment) → (calls : List TotpCall) → Decidable (AllConfirm env s calls)
  | _, [] => isTrue trivial
  | s, c :: cs =>
    haveI := decidableAllConfirm env (s.step env c) cs
    inferInstanceAs (Decidable (Confirms env s c ∧ AllConfirm env (s.step env c) cs))

/-! ## The invariant of a row -/

/-- A ciphertext column: empty, or a non-empty secret of the history. -/
def Sealed (env : Env) (known : List String) (c : String) : Prop :=
  c = "" ∨ ∃ s ∈ known, s ≠ "" ∧ env.decrypt c = some s

/-- What every row meets between two calls. -/
structure RowOk (env : Env) (known : List String) (d : TOTPDevice) : Prop where
  secret : d.secret = ""
  active : Sealed env known d.secretEncrypted
  pending : Sealed env known d.pendingSecretEncrypted
  enabled : d.enabled = true → d.secretEncrypted ≠ ""
  rotating : d.pendingSecretEncrypted ≠ "" → d.enabled = true

/-- Every row of the table meets it. -/
def RowsOk (env : Env) (secrets : UserID → List String) (db : DB) : Prop :=
  ∀ d ∈ db.totpDevices.rows, RowOk env (secrets d.userID) d

variable {env : Env} {ctx : Ctx} {u : UserID} {secrets : UserID → List String}
  {Q : Except Err Unit → World → Prop} {w : World} {known : List String} {d : TOTPDevice}
  {code : String} {t : Option Token} {db db' : DB} {α : Type} {secrets' : UserID → List String}
  {p : M α} {s : Enrolment}

theorem RowOk.mono {known known' : List String} (h : RowOk env known d)
    (hk : ∀ s ∈ known, s ∈ known') : RowOk env known' d where
  secret := h.secret
  active := h.active.imp_right fun ⟨s, hs, h⟩ => ⟨s, hk s hs, h⟩
  pending := h.pending.imp_right fun ⟨s, hs, h⟩ => ⟨s, hk s hs, h⟩
  enabled := h.enabled
  rotating := h.rotating

theorem RowOk.of_blank (h : Blank d) : RowOk env known d where
  secret := h.secret
  active := .inl h.secretEncrypted
  pending := .inl h.pendingSecretEncrypted
  enabled he := by simp [h.enabled] at he
  rotating hp := absurd h.pendingSecretEncrypted hp

/-- An enabled row works with a secret of the history. -/
theorem RowOk.activeSecret (h : RowOk env known d) (he : d.enabled = true) :
    ∃ s ∈ known, s ≠ "" ∧ d.activeSecret env = some s := by
  rcases h.active with hc | ⟨s, hs, hne, hdec⟩
  · exact absurd hc (h.enabled he)
  · refine ⟨s, hs, hne, ?_⟩
    rw [TOTPDevice.activeSecret, if_neg (h.enabled he), hdec]

/-! ## Calls that leave the table alone -/

/-- Everything but the writes to the device table. -/
def keepDevices : Footprint where
  label _ := True
  stmt s := ∀ db : DB, (db.exec s).totpDevices = db.totpDevices
  mail _ := True
  key _ := True

theorem keepDevices_quiet : keepDevices.Quiet where
  other := trivial
  site _ := trivial
  findUser _ := trivial
  audit _ _ := rfl
  mail _ _ := trivial
  key _ _ := trivial

/-- The device table and the clock are as before. -/
structure Same (w w' : World) : Prop where
  devices : w'.db.totpDevices = w.db.totpDevices
  now : w'.now = w.now

theorem Same.trans {w w' w'' : World} (h : Same w w') (h' : Same w' w'') : Same w w'' :=
  ⟨h'.devices.trans h.devices, h'.now.trans h.now⟩

theorem rowsOk_congr (h : db'.totpDevices = db.totpDevices) (hdb : RowsOk env secrets db) :
    RowsOk env secrets db' := by
  rw [RowsOk, h]
  exact hdb

theorem Same.rowsOk {w w' : World} (h : Same w w') (hw : RowsOk env secrets w.db) :
    RowsOk env secrets w'.db :=
  rowsOk_congr h.devices hw

theorem wp_same (hp : Each (Acts keepDevices) p) {Q : Except Err α → World → Prop}
    (hQ : ∀ r w', Same w w' → Q r w') : wp p Q w :=
  wp_of_within (within_of_each hp) fun r w' h => hQ r w' ⟨h.same fun db _ hs => hs db, h.now⟩

theorem wp_record_same {e : AuditLog} (hQ : ∀ w', Same w w' → Q (.ok ()) w') :
    wp (record ctx e) Q w :=
  wp_record keepDevices_quiet fun w' h => hQ w' ⟨h.same fun db _ hs => hs db, h.now⟩

theorem wp_totpFind {Q : Except Err (Option TOTPDevice) → World → Prop}
    (herr : ∀ e w', Same w w' → Q (.error e) w')
    (hok : ∀ d w', Same w w' → (∀ x, d = some x → x ∈ w.db.totpDevices.rows ∧ x.userID = u) →
      Q (.ok d) w') : wp (totpFindByUserID ctx u) Q w := by
  rw [totpFindByUserID, wp_query]
  refine ⟨fun _ => herr _ _ ⟨by simp, by simp⟩, fun _ => hok _ _ ⟨by simp, by simp⟩ ?_⟩
  intro x hx
  obtain ⟨hmem, hp⟩ := Table.mem_of_first? hx
  exact ⟨hmem, by simpa using (Bool.and_eq_true _ _).mp hp |>.1⟩

/-- The body of a locked section sees the table the call started with. -/
theorem wp_withRotationLock {g : Except Err α → UserID → List String}
    (herr : ∀ e, RowsOk env (g (.error e)) w.db)
    (hp : ∀ w', Same w w' → wp p (fun r w₁ => RowsOk env (g r) w₁.db) w') :
    wp (withRotationLock u p) (fun r w' => RowsOk env (g r) w'.db) w := by
  simp only [withRotationLock, bind_def, wp_bind]
  refine wp_same (each_storeSetNX trivial trivial) fun r w₁ h₁ => ?_
  rcases r with e | locked
  · exact h₁.rowsOk (herr e)
  simp only [thenWp_ok, wp_bind, wp_refuse]
  refine ⟨fun _ => h₁.rowsOk (herr _), fun _ => ?_⟩
  rw [wp_attempt]
  refine wp_mono (hp w₁ h₁) fun r w₂ h₂ => ?_
  rw [thenWp_ok, wp_bind, releaseRotationLock, wp_kvAs, thenWp_ok, wp_ofExcept]
  exact h₂

/-! ## Writes -/

/-- The rows after `d` was saved: the old ones, and the columns of `d`. -/
def Saved (d : TOTPDevice) (db db' : DB) : Prop :=
  ∀ r ∈ db'.totpDevices.rows, r ∈ db.totpDevices.rows ∨ ∃ id, r = { d with id := id }

theorem saved_insertDevice (d : TOTPDevice) (id : Nat) (db : DB) :
    Saved d db (db.exec (.insertDevice { d with id := id })) := by
  intro r hr
  exact (Table.mem_insert_getD hr).imp_right fun h => ⟨id, h⟩

theorem saved_updateDevice (d : TOTPDevice) (db : DB) :
    Saved d db (db.exec (.updateDevice d)) := by
  intro r hr
  simp only [DB.exec, Table.mem_update] at hr
  obtain ⟨x, hx, rfl⟩ := hr
  split
  · rename_i h
    have hu : x.userID = d.userID := by simpa using ((Bool.and_eq_true _ _).mp h).2
    exact .inr ⟨x.id, by rw [hu]⟩
  · exact .inl hx

theorem wp_totpSave (herr : ∀ e w', Same w w' → Q (.error e) w')
    (hok : ∀ w', w'.now = w.now → Saved d w.db w'.db → Q (.ok ()) w') :
    wp (totpSave ctx d) Q w := by
  simp only [totpSave, bind_def, wp_bind, wp_draw, thenWp_ok, totpUpsert, wp_repo]
  refine ⟨fun _ => herr _ _ ⟨by simp, by simp⟩, fun _ => ?_⟩
  split
  · exact herr _ _ ⟨rfl, by simp⟩
  · split
    · split
      · exact herr _ _ ⟨rfl, by simp⟩
      · exact hok _ (by simp) (saved_insertDevice d _ w.db)
    · split
      · exact hok _ (by simp) (saved_updateDevice d w.db)
      · exact herr _ _ ⟨rfl, by simp⟩

theorem Saved.rowsOk (h : Saved d db db') (hdb : RowsOk env secrets db)
    (hs : ∀ v, ∀ s ∈ secrets v, s ∈ secrets' v) (hd : RowOk env (secrets' d.userID) d) :
    RowsOk env secrets' db' := by
  intro r hr
  rcases h r hr with hr | ⟨id, rfl⟩
  · exact (hdb r hr).mono (hs _)
  · exact ⟨hd.secret, hd.active, hd.pending, hd.enabled, hd.rotating⟩

/-! ## Enable -/

theorem mem_staged {r : Except Err String} {v : UserID} {s : String} (h : s ∈ secrets v) :
    s ∈ staged secrets u r v := by
  rcases r with e | secret
  · exact h
  · by_cases hv : v = u
    · subst hv
      simpa [staged] using .inr h
    · simpa [staged, hv] using h

theorem stageSecret_ok {old : Option TOTPDevice} {secret sealed : String}
    (hold : ∀ d, old = some d → RowOk env (secrets u) d ∧ d.userID = u)
    (hne : secret ≠ "") (hsealed : sealed ≠ "") (hdec : env.decrypt sealed = some secret) :
    (stageSecret u old sealed).userID = u ∧
      RowOk env (secret :: secrets u) (stageSecret u old sealed) := by
  have hnew : Sealed env (secret :: secrets u) sealed :=
    .inr ⟨secret, List.mem_cons_self, hne, hdec⟩
  rcases old with _ | d
  · exact ⟨rfl, rfl, hnew, .inl rfl, fun _ => hsealed, fun h => absurd rfl h⟩
  · obtain ⟨hd, hu⟩ := hold d rfl
    have hd' : RowOk env (secret :: secrets u) d := hd.mono fun _ hs => List.mem_cons_of_mem _ hs
    unfold stageSecret
    by_cases he : d.enabled
    · simp only [he, if_true]
      exact ⟨hu, hd.secret, hd'.active, hnew, fun _ => hd.enabled he, fun _ => rfl⟩
    · simp only [he]
      exact ⟨hu, rfl, hnew, .inl rfl, fun _ => hsealed, fun h => absurd rfl h⟩

theorem wp_totpEnableAudited (hw : RowsOk env secrets w.db) :
    wp (totpEnableAudited env ctx u t) (fun r w' => RowsOk env (staged secrets u r) w'.db) w := by
  refine wp_withRotationLock (fun _ => hw) fun w₁ h₁ => ?_
  rw [bind_def, wp_bind]
  refine wp_totpFind (fun e w₂ h₂ => (h₁.trans h₂).rowsOk hw) fun old w₂ h₂ hold => ?_
  have hw₂ : RowsOk env secrets w₂.db := (h₁.trans h₂).rowsOk hw
  have hold' : ∀ d, old = some d → RowOk env (secrets u) d ∧ d.userID = u := by
    intro d hd
    obtain ⟨hmem, hu⟩ := hold d hd
    exact ⟨hu ▸ hw₂ d (h₂.devices ▸ hmem), hu⟩
  obtain ⟨hu, hrow⟩ := stageSecret_ok hold' (env.totpSecret_ne_empty w₂.entropy)
    (env.encrypt_ne_empty (w₂.entropy + 1) _) (env.decrypt_encrypt (w₂.entropy + 1) _)
  simp only [thenWp_ok, bind_def, wp_bind, sealText, wp_draw, pure_def, wp_ret]
  refine wp_same (each_doIf (each_verifySudoToken keepDevices_quiet)) fun r w₃ h₃ => ?_
  have hw₃ : RowsOk env secrets w₃.db := Same.rowsOk ⟨h₃.devices, h₃.now⟩ hw₂
  rcases r with e | _
  · exact hw₃
  rw [thenWp_ok, wp_bind]
  refine wp_totpSave (fun e w₄ h₄ => h₄.rowsOk hw₃) fun w₄ _ hsaved => ?_
  rw [thenWp_ok, wp_bind]
  refine wp_record_same fun w₅ h₅ => ?_
  rw [thenWp_ok, wp_ret]
  refine h₅.rowsOk (hsaved.rowsOk hw₃ (fun v s hs => mem_staged hs) ?_)
  rw [hu]
  simpa [staged] using hrow

/-! ## VerifyEnable -/

/-- The active secret is opened without a write; without a ciphertext it is the empty string. -/
theorem openActiveSecret_eq (ctx : Ctx) (h : RowOk env known d) :
    ∃ s, openActiveSecret env ctx d = .ret (s, d) ∧ (d.secretEncrypted = "" → s = "") := by
  unfold openActiveSecret
  by_cases ha : d.secretEncrypted = ""
  · exact ⟨d.secret, by rw [if_pos ha], fun _ => h.secret⟩
  · rcases h.active with ha' | ⟨s, -, -, hdec⟩
    · exact absurd ha' ha
    · exact ⟨s, by rw [if_neg ha, hdec], fun ha' => absurd ha' ha⟩

/-- With nothing staged and nothing active, the secret in hand is the empty string. -/
theorem openStagedSecret_eq (ctx : Ctx) (h : RowOk env known d) :
    ∃ s, openStagedSecret env ctx d = .ret (s, d) ∧
      (d.pendingSecretEncrypted = "" → d.secretEncrypted = "" → s = "") := by
  unfold openStagedSecret
  by_cases hp : d.pendingSecretEncrypted = ""
  · obtain ⟨s, hs, hempty⟩ := openActiveSecret_eq ctx h
    exact ⟨s, by rw [if_neg (not_not.2 hp), hs], fun _ => hempty⟩
  · rcases h.pending with hp' | ⟨s, -, -, hdec⟩
    · exact absurd hp' hp
    · exact ⟨s, by rw [if_pos hp, hdec], fun hp' _ => absurd hp' hp⟩

theorem activate_ok (h : RowOk env known d)
    (hs : d.pendingSecretEncrypted = "" → d.secretEncrypted ≠ "") :
    RowOk env known (activate d) := by
  unfold activate
  by_cases hp : d.pendingSecretEncrypted = ""
  · rw [if_neg (not_not.2 hp)]
    exact ⟨h.secret, h.active, h.pending, fun _ => hs hp, fun _ => rfl⟩
  · rw [if_pos hp]
    exact ⟨rfl, h.pending, .inl rfl, fun _ => hp, fun h => absurd rfl h⟩

theorem deactivate_ok (h : RowOk env known d) : RowOk env known (deactivate d) := by
  unfold deactivate activate
  by_cases hp : d.pendingSecretEncrypted = ""
  · simp only [hp, ne_eq, not_true_eq_false, if_false]
    exact ⟨h.secret, h.active, .inl rfl, fun he => by simp at he, fun h => absurd rfl h⟩
  · simp only [hp, ne_eq, not_false_eq_true, if_true]
    exact ⟨rfl, h.active, h.pending, fun _ => h.enabled (h.rotating hp), fun _ => rfl⟩

theorem activate_userID (d : TOTPDevice) : (activate d).userID = d.userID := by
  unfold activate
  split <;> rfl

theorem deactivate_userID (d : TOTPDevice) : (deactivate d).userID = d.userID := by
  unfold deactivate
  split <;> exact activate_userID d

theorem wp_totpActivate (hw : RowsOk env secrets w.db) (hd : RowOk env (secrets d.userID) d)
    (hs : d.pendingSecretEncrypted = "" → d.secretEncrypted ≠ "") :
    wp (totpActivate env ctx u d) (fun _ w' => RowsOk env secrets w'.db) w := by
  have hon := activate_ok hd hs
  have hoff := deactivate_ok hd
  rw [← activate_userID d] at hon
  rw [← deactivate_userID d] at hoff
  rw [totpActivate, bind_def, wp_bind]
  refine wp_totpSave (fun e w₁ h₁ => h₁.rowsOk hw) fun w₁ _ hsaved => ?_
  have hw₁ := hsaved.rowsOk hw (fun _ _ hs => hs) hon
  rw [thenWp_ok, bind_def, wp_bind, wp_attempt]
  refine wp_same (each_newRecoveryCodes keepDevices_quiet fun _ _ => rfl) fun r w₂ h₂ => ?_
  rw [thenWp_ok]
  rcases r with e | codes
  · simp only [bind_def, wp_bind, wp_ignore]
    refine wp_totpSave (fun e w₃ h₃ => h₃.rowsOk (h₂.rowsOk hw₁)) fun w₃ _ hsaved' => ?_
    exact hsaved'.rowsOk (h₂.rowsOk hw₁) (fun _ _ hs => hs) hoff
  · exact wp_same (each_bind (each_totpRecordSuccess keepDevices_quiet) fun _ => each_ret _)
      fun r w₃ h₃ => h₃.rowsOk (h₂.rowsOk hw₁)

theorem wp_totpVerifyEnableAudited (hw : RowsOk env secrets w.db)
    (hc : ∀ d ∈ w.db.totpDevices.rows, d.userID = u → Blank d →
      env.totpLibrary w.now code "" = false) :
    wp (totpVerifyEnableAudited env ctx u code) (fun _ w' => RowsOk env secrets w'.db) w := by
  rw [totpVerifyEnableAudited, bind_def, wp_bind]
  refine wp_same (each_guardBruteForce keepDevices_quiet) fun r w₁ h₁ => ?_
  rcases r with e | _
  · exact h₁.rowsOk hw
  refine wp_withRotationLock (g := fun _ => secrets) (fun _ => h₁.rowsOk hw) fun w₂ h₂ => ?_
  have h₂ := h₁.trans h₂
  rw [bind_def, wp_bind]
  refine wp_totpFind (fun e w₃ h₃ => (h₂.trans h₃).rowsOk hw) fun d w₃ h₃ hd => ?_
  have hw₃ : RowsOk env secrets w₃.db := (h₂.trans h₃).rowsOk hw
  rcases d with _ | d
  · exact wp_same (each_bind (each_totpRecordFailure keepDevices_quiet) fun _ => each_fail _)
      fun r w₄ h₄ => h₄.rowsOk hw₃
  obtain ⟨hmem, hu⟩ := hd d rfl
  have hrow : RowOk env (secrets d.userID) d := hw d (h₂.devices ▸ hmem)
  obtain ⟨s, hopen, hempty⟩ := openStagedSecret_eq ctx hrow
  simp only [bind_def, wp_bind, wp_refuse, hopen, wp_ret, thenWp_ok, thenWp_error, totpValid,
    wp_getNowAs, pure_def, wp_refuseAfter]
  refine ⟨fun _ => hw₃, fun hoff => ⟨fun _ => ?_, fun hvalid => ?_⟩⟩
  · refine wp_same (each_totpRecordFailure keepDevices_quiet) fun r w₄ h₄ => ?_
    rcases r with e | _ <;> exact h₄.rowsOk hw₃
  refine wp_totpActivate hw₃ hrow fun hp ha => ?_
  -- nothing staged and nothing active: the row is blank, and the code was one of the empty secret
  have hblank : Blank d := by
    refine ⟨?_, hrow.secret, ha, hp⟩
    simpa [hp] using hoff
  have := hc d (h₂.devices ▸ hmem) hu hblank
  rw [hempty hp ha, (h₂.trans h₃).now, this] at hvalid
  simp at hvalid

/-! ## Codes -/

theorem wp_enabledDevice {missing : String} {Q : Except Err TOTPDevice → World → Prop}
    (herr : ∀ e w', Same w w' → Q (.error e) w')
    (hok : ∀ d w', Same w w' → d ∈ w.db.totpDevices.rows → Q (.ok d) w') :
    wp (enabledDevice env ctx u missing) Q w := by
  rw [enabledDevice, bind_def, wp_bind]
  refine wp_same (each_guardBruteForce keepDevices_quiet) fun r w₁ h₁ => ?_
  rcases r with e | _
  · exact herr e w₁ h₁
  rw [thenWp_ok, bind_def, wp_bind]
  refine wp_totpFind (fun e w₂ h₂ => herr e w₂ (h₁.trans h₂)) fun d w₂ h₂ hd => ?_
  rw [thenWp_ok]
  split
  · rw [bind_def, wp_bind]
    refine wp_same (each_totpRecordFailure keepDevices_quiet) fun r w₃ h₃ => ?_
    rcases r with e | _ <;> exact herr _ w₃ ((h₁.trans h₂).trans h₃)
  · rename_i x hx
    have hx : d = some x := (Option.filter_eq_some_iff.1 hx).1
    exact hok x w₂ (h₁.trans h₂) (h₁.devices ▸ (hd x hx).1)

theorem wp_checkSixDigits {code badCode replay : String} (h : RowOk env known d)
    (hQ : ∀ r w', Same w w' → Q r w') :
    wp (checkSixDigits env ctx u d code badCode replay) Q w := by
  obtain ⟨s, hopen, -⟩ := openActiveSecret_eq ctx h
  rw [checkSixDigits, hopen, bind_def, bind_ret]
  exact wp_same (each_bind (each_totpValid keepDevices_quiet) fun _ =>
    each_bind (each_refuseAfter (each_totpRecordFailure keepDevices_quiet)) fun _ =>
      each_bind (each_replayGuard keepDevices_quiet) fun _ =>
        each_refuseAfter (each_totpRecordFailure keepDevices_quiet)) hQ

theorem wp_totpValidateAudited (hw : RowsOk env secrets w.db) (hQ : ∀ r w', Same w w' → Q r w') :
    wp (totpValidateAudited env ctx u code) Q w := by
  rw [totpValidateAudited, bind_def, wp_bind]
  refine wp_enabledDevice (fun e w₁ h₁ => hQ _ w₁ h₁) fun d w₁ h₁ hd => ?_
  rw [thenWp_ok]
  split
  · rw [bind_def, wp_bind]
    refine wp_checkSixDigits (hw d hd) fun r w₂ h₂ => ?_
    rcases r with e | _
    · exact hQ _ w₂ (h₁.trans h₂)
    · exact wp_same (each_totpRecordSuccess keepDevices_quiet) fun r w₃ h₃ =>
        hQ r w₃ ((h₁.trans h₂).trans h₃)
  · exact wp_same (each_checkRecoveryCode keepDevices_quiet fun _ _ _ => rfl) fun r w₂ h₂ =>
      hQ r w₂ (h₁.trans h₂)

theorem wp_totpViewRecoveryCodesAudited {Q : Except Err (List String) → World → Prop}
    (hw : RowsOk env secrets w.db) (hQ : ∀ r w', Same w w' → Q r w') :
    wp (totpViewRecoveryCodesAudited env ctx u code) Q w := by
  rw [totpViewRecoveryCodesAudited, bind_def, wp_bind]
  refine wp_enabledDevice (fun e w₁ h₁ => hQ _ w₁ h₁) fun d w₁ h₁ hd => ?_
  rw [thenWp_ok, bind_def, wp_bind]
  refine wp_checkSixDigits (hw d hd) fun r w₂ h₂ => ?_
  rcases r with e | _
  · exact hQ _ w₂ (h₁.trans h₂)
  · exact wp_same (each_bind (each_query trivial) fun _ =>
      each_bind (each_totpRecordSuccess keepDevices_quiet) fun _ => each_ret _) fun r w₃ h₃ =>
        hQ r w₃ ((h₁.trans h₂).trans h₃)

/-! ## Disable -/

/-- The user's rows are blank, the others are old. -/
def Cleared (u : UserID) (db db' : DB) : Prop :=
  ∀ d ∈ db'.totpDevices.rows, (d ∈ db.totpDevices.rows ∧ d.userID ≠ u) ∨ (Blank d ∧ d.userID = u)

theorem cleared_disableDevice (u : UserID) (db : DB) :
    Cleared u db (db.exec (.disableDevice u)) := by
  intro d hd
  simp only [DB.exec, Table.mem_update] at hd
  obtain ⟨x, hx, rfl⟩ := hd
  by_cases hu : x.userID = u
  · simp only [hu, decide_true, if_true]
    exact .inr ⟨⟨rfl, rfl, rfl, rfl⟩, trivial⟩
  · simp only [hu, decide_false]
    exact .inl ⟨hx, hu⟩

theorem Cleared.rowsOk (h : Cleared u db db') (hdb : RowsOk env secrets db)
    (hs : ∀ v, v ≠ u → secrets' v = secrets v) : RowsOk env secrets' db' := by
  intro d hd
  rcases h d hd with ⟨hmem, hu⟩ | ⟨hb, -⟩
  · rw [hs _ hu]
    exact hdb d hmem
  · exact .of_blank hb

theorem wp_authorizeDisable {password code : String} (hw : RowsOk env secrets w.db)
    (hQ : ∀ r w', Same w w' → Q r w') : wp (authorizeDisable env ctx u t password code) Q w := by
  rw [authorizeDisable, bind_def, wp_bind]
  refine wp_same (each_sudoProven keepDevices_quiet) fun r w₁ h₁ => ?_
  rcases r with e | proven
  · exact hQ _ w₁ h₁
  rw [thenWp_ok]
  split
  · exact hQ _ w₁ h₁
  simp only [bind_def, wp_bind, wp_refuse, thenWp_error, thenWp_ok, wp_attempt]
  refine ⟨fun _ => hQ _ w₁ h₁, fun _ => ?_⟩
  refine wp_same (each_usersFindByID keepDevices_quiet) fun r w₂ h₂ => ?_
  have h₂ := h₁.trans h₂
  rcases r with e | _ | user
  · exact hQ _ w₂ h₂
  · exact hQ _ w₂ h₂
  simp only [wp_bind, comparePassword, wp_call, thenWp_ok, wp_refuse, thenWp_error, wp_attempt]
  refine ⟨fun _ => hQ _ w₂ h₂, fun _ => ⟨fun _ => hQ _ w₂ h₂, fun _ => ?_⟩⟩
  refine wp_totpValidateAudited (h₂.rowsOk hw) fun r w₃ h₃ => ?_
  rcases r with e | _ <;> exact hQ _ w₃ (h₂.trans h₃)

/-- A `Disable` that returns nil left the table alone or cleared the user's row. -/
theorem wp_totpDisableAudited {password code : String} (hw : RowsOk env secrets w.db) :
    wp (totpDisableAudited env ctx u t password code)
      (fun _ w' => w'.db.totpDevices = w.db.totpDevices ∨ Cleared u w.db w'.db) w := by
  rw [totpDisableAudited, bind_def, wp_bind, wp_wrap]
  refine wp_totpFind (fun e w₁ h₁ => .inl h₁.devices) fun d w₁ h₁ _ => ?_
  simp only [Except.mapError, thenWp_ok]
  split
  · exact .inl h₁.devices
  rw [bind_def, wp_bind]
  refine wp_authorizeDisable (h₁.rowsOk hw) fun r w₂ h₂ => ?_
  have h₂ := h₁.trans h₂
  rcases r with e | _
  · exact .inl h₂.devices
  simp only [thenWp_ok, bind_def, wp_bind, wp_wrap, totpDisable, ownedWrite, wp_repo]
  refine ⟨fun _ => .inl (by simpa using h₂.devices), fun _ => ?_⟩
  split
  · -- the row is blank from here on: what follows leaves the table alone
    simp only [Except.mapError, thenWp_ok]
    refine wp_same (each_bind (each_wrap (each_totpReplaceRecoveryCodes keepDevices_quiet
      fun _ => rfl)) fun _ => each_bind (each_ignore (each_usersUpdate trivial fun _ => rfl))
        fun _ => each_bind (each_totpRecordSuccess keepDevices_quiet) fun _ =>
          each_alertDisabled keepDevices_quiet) fun r w₃ h₃ => .inr fun d hd => ?_
    have hclear := cleared_disableDevice u w₂.db d (h₃.devices ▸ hd)
    rwa [h₂.devices] at hclear
  · exact .inl h₂.devices

theorem totpEnabled_congr (h : db'.totpDevices = db.totpDevices) :
    db'.totpEnabled u = db.totpEnabled u := by
  rw [DB.totpEnabled, h, DB.totpEnabled]

theorem rowsOk_dropped {r : Except Err Unit} (hdb : RowsOk env secrets db)
    (h : db'.totpDevices = db.totpDevices ∨ Cleared u db db') :
    RowsOk env (dropped secrets u db db' r) db' := by
  have hother : ∀ v, v ≠ u → dropped secrets u db db' r v = secrets v := by
    intro v hv
    rcases r with e | _
    · rfl
    · unfold dropped
      split
      · exact Function.update_of_ne hv _ _
      · rfl
  rcases h with h | h
  · -- the table did not change, so nothing was switched off
    have hsame : dropped secrets u db db' r = secrets := by
      rcases r with e | _
      · rfl
      · unfold dropped
        rw [totpEnabled_congr h, Bool.and_not_self, if_neg Bool.false_ne_true]
    rw [hsame]
    exact rowsOk_congr h hdb
  · exact h.rowsOk hdb hother

/-! ## Steps and runs -/

/-- An operation that keeps the table keeps the invariant, whether it commits or not. -/
theorem rowsOk_audit (hw : RowsOk env secrets w.db)
    (hp : ∀ w₀, RowsOk env secrets w₀.db → wp p (fun _ w' => RowsOk env secrets w'.db) w₀) :
    RowsOk env secrets ((runAuditOperation p).run w).2.db :=
  wp_audit_db (I := fun _ db => RowsOk env secrets db)
    (wp_mono (hp { w with op := {} } hw) fun _ _ h _ => h) fun _ => hw

/-- **One call keeps the invariant**, unless it confirms a blank row. -/
theorem step_rowsOk {c : TotpCall} (hs : RowsOk env s.secrets s.world.db) (hc : Confirms env s c) :
    RowsOk env (s.step env c).secrets (s.step env c).world.db := by
  cases c with
  | enable ctx u t =>
    exact wp_audit_db (I := fun r db => RowsOk env (staged s.secrets u r) db)
      (wp_mono (wp_totpEnableAudited (w := { s.world with op := {} }) hs) fun _ _ h _ => h)
      fun _ => hs
  | verifyEnable =>
    exact wp_audit_db (I := fun _ db => RowsOk env s.secrets db)
      (wp_mono (wp_totpVerifyEnableAudited (w := { s.world with op := {} }) hs hc) fun _ _ h _ => h)
      fun _ => hs
  | validate =>
    exact rowsOk_audit hs fun w₀ h₀ => wp_totpValidateAudited h₀ fun _ _ h => h.rowsOk h₀
  | viewRecoveryCodes =>
    exact rowsOk_audit hs fun w₀ h₀ => wp_totpViewRecoveryCodesAudited h₀ fun _ _ h => h.rowsOk h₀
  | regenerateRecoveryCodes =>
    exact rowsOk_audit hs fun w₀ h₀ => wp_same
      (each_totpRegenerateRecoveryCodesAudited keepDevices_quiet fun _ _ => rfl)
      fun _ _ h => h.rowsOk h₀
  | disable ctx u =>
    refine wp_audit_db (I := fun r db => RowsOk env (dropped s.secrets u s.world.db db r) db)
      (wp_mono (wp_totpDisableAudited (w := { s.world with op := {} }) hs) fun r w₁ h _ => ?_)
      fun _ => hs
    exact rowsOk_dropped hs h
  | tick ms => exact hs

theorem run_rowsOk {calls : List TotpCall} (hs : RowsOk env s.secrets s.world.db)
    (hc : AllConfirm env s calls) :
    RowsOk env (s.run env calls).secrets (s.run env calls).world.db := by
  induction calls generalizing s with
  | nil => exact hs
  | cons c cs ih => exact ih (step_rowsOk hs hc.1) hc.2

/-- **An enabled device works with a secret that `Enable` staged**, in every state of every run
that starts without devices and confirms no blank row with a code of the empty secret. -/
theorem run_provenance (env : Env) (w : World) (hw : w.db.totpDevices.rows = [])
    (calls : List TotpCall) (hc : AllConfirm env ⟨w, fun _ => []⟩ calls) :
    Provenance env (run env ⟨w, fun _ => []⟩ calls) := by
  intro d hd he
  have hrows : RowsOk env (fun _ => []) w.db := fun d hd => by simp [hw] at hd
  exact (run_rowsOk hrows hc d hd).activeSecret he

/-- Enrolment with the code of the staged secret `s100`. -/
theorem run_provenance_enrolled :
    (run (.plain .sample) ⟨.sample, fun _ => []⟩
      [.enable .sample 1 none, .verifyEnable .sample 1 "s10000"]).world.db.totpEnabled 1 = true ∧
    Provenance (.plain .sample) (run (.plain .sample) ⟨.sample, fun _ => []⟩
      [.enable .sample 1 none, .verifyEnable .sample 1 "s10000"]) :=
  ⟨by decide +kernel, run_provenance (.plain .sample) .sample rfl _ (by decide +kernel)⟩

/-- Enrol, disable, and confirm once more with the code of the empty secret: the device is on and
anybody knows its secret. -/
theorem blank_row_activated :
    World.sample.db.totpDevices.rows = [] ∧
      ¬ Provenance (.plain .sample) (run (.plain .sample) ⟨.sample, fun _ => []⟩
        [.enable .sample 1 none, .verifyEnable .sample 1 "s10000",
          .disable .sample 1 none "password1" "s10000", .verifyEnable .sample 1 "000000"]) := by
  decide +kernel

end Enrolment

end FinnAuth
