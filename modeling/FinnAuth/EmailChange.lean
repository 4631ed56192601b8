import FinnAuth.FailedCalls
import FinnAuth.System
import FinnAuth.Versions

/-!
# Staged email changes

`RequestChangeEmail` checks the password and stages the change for an hour under a random token;
`ConfirmChangeEmail` carries it out for whoever presents the token. Nothing ties the staged change
to the credential it was authorised by: a new password does not cancel it, and neither does the end
of the account. It is current when the user's `pwd_version` has not moved since the staging.

Results:
* `parsePayload_eq`: what is read out of a payload is what was put in;
* `staged_step`: an entry under an old token is the one that was staged;
* `same_of_version`: a call that leaves the version alone leaves the address alone;
* **`confirm_current`**: at an unchanged version the confirmed change is the one that was
  authorised, with nothing in between;
* **`confirm_after_passwordChange`**: without that condition it is not.
-/

namespace FinnAuth

open Lib Prog

variable {env : Env} {ctx : Ctx} {u : UserID} {w : World}

/-! ## The payload -/

variable {e ip new old : String} {t : Uuid} {w' w₁ : World}

/-- The digits of a number read back. -/
theorem foldl_toString (n : Nat) :
    (toString n).toList.foldl (fun n c => n * 10 + (c.toNat - '0'.toNat)) 0 = n := by
  have hdigits : (toString n).toList = Nat.toDigits 10 n := by simp
  have hparse := Nat.ofDigitChars_ten_toDigits (n := n)
  simp only [Nat.ofDigitChars, Nat.mul_comm 10] at hparse
  rw [hdigits]
  exact hparse

theorem parseUint_toString {n m : Nat} (h : parseUint (toString n) = some m) : m = n := by
  unfold parseUint at h
  split at h
  · simp only [foldl_toString] at h
    split at h
    · exact (Option.some.inj h).symm
    · cases h
  · cases h

/-- A text without the separator, by its pieces. -/
theorem eq_of_splitOn {xs ys : List Char} (h : xs.splitOn ':' = [ys]) : xs = ys := by
  have hx : [':'].intercalate (xs.splitOn ':') = xs := List.intercalate_splitOn ':'
  rw [h] at hx
  simpa using hx.symm

/-- The pieces of a payload are those of its parts. -/
theorem splitOn_payload (id : UserID) (old new : String) :
    (changeEmailPayload id old new).toList.splitOn ':' =
      (toString id).toList.splitOn ':' ++ (old.toList.splitOn ':' ++ new.toList.splitOn ':') := by
  rw [← List.splitOn_append_cons_self, ← List.splitOn_append_cons_self]
  simp [changeEmailPayload]

/-- A payload that was read has three pieces, one from each part. -/
theorem pieces_of_parsePayload {id : UserID} {x : UserID × String × String}
    (h : parsePayload (changeEmailPayload id old new) = some x) :
    ((toString id).toList.splitOn ':').length = 1 ∧ (old.toList.splitOn ':').length = 1 ∧
      (new.toList.splitOn ':').length = 1 := by
  have hlen : ((changeEmailPayload id old new).toList.splitOn ':').length = 3 := by
    unfold parsePayload splitColon at h
    split at h
    · rename_i heq
      simpa using congrArg List.length heq
    · cases h
  rw [splitOn_payload, List.length_append, List.length_append] at hlen
  have hpos : ∀ s : List Char, 0 < (s.splitOn ':').length := fun s =>
    List.length_pos_of_ne_nil (List.splitOn_ne_nil _ s)
  have hid := hpos (toString id).toList
  have hold := hpos old.toList
  have hnew := hpos new.toList
  omega

/-- **What is read out of a payload is what was put in.** An address with a colon makes the payload
unreadable. -/
theorem parsePayload_eq {id uid : UserID} {old new old' new' : String}
    (h : parsePayload (changeEmailPayload id old new) = some (uid, old', new')) :
    uid = id ∧ old' = old ∧ new' = new := by
  obtain ⟨ha, hb, hc⟩ := pieces_of_parsePayload h
  obtain ⟨a, ha⟩ := List.length_eq_one_iff.1 ha
  obtain ⟨b, hb⟩ := List.length_eq_one_iff.1 hb
  obtain ⟨c, hc⟩ := List.length_eq_one_iff.1 hc
  unfold parsePayload splitColon at h
  rw [splitOn_payload, ha, hb, hc] at h
  simp only [List.cons_append, List.nil_append, List.map_cons, List.map_nil,
    Option.map_eq_some_iff, Prod.mk.injEq] at h
  obtain ⟨n, hn, rfl, rfl, rfl⟩ := h
  rw [← eq_of_splitOn ha, String.ofList_toList] at hn
  rw [← eq_of_splitOn hb, ← eq_of_splitOn hc, String.ofList_toList, String.ofList_toList]
  exact ⟨parseUint_toString hn, rfl, rfl⟩

/-! ## The staged entry -/

/-- Any statement and mail, but only keys without authority. -/
def plainKeys : Footprint := ⟨fun _ => True, fun _ => True, fun _ => True, fun k => k.plain = true⟩

theorem plainKeys_quiet : plainKeys.Quiet :=
  ⟨⟨trivial, fun _ => trivial, fun _ => trivial, fun _ h => h⟩, fun _ => trivial,
    fun _ _ => trivial⟩

theorem Ran.staged (h : Ran plainKeys w w') (t : Uuid) :
    w'.store.data (.changeEmail t) = w.store.data (.changeEmail t) :=
  h.store _ (by simp [plainKeys, StoreKey.plain])

/-- What a request does to the entry of `t`: nothing, or it stages the change under a fresh
token. -/
def StagesAt (ctx : Ctx) (u : UserID) (t : Uuid) (w w' : World) : Prop :=
  w'.store.data (.changeEmail t) = w.store.data (.changeEmail t) ∨
    w.entropy ≤ t ∧ t < w'.entropy ∧ ∃ user new exp, w.db.userByID ctx u = some user ∧
      w'.store.data (.changeEmail t) = some ⟨.str (changeEmailPayload u user.email new), exp⟩

/-- Evidence is the only statement, and only keys without authority are touched. -/
def evidenceOnly : Footprint := { plainKeys with stmt := fun s => ∃ e, s = .insertAudit e }

theorem evidenceOnly_quiet : evidenceOnly.Quiet :=
  ⟨⟨trivial, fun _ => trivial, fun _ => trivial, fun _ h => h⟩, fun e => ⟨e, rfl⟩,
    fun _ _ => trivial⟩

theorem Ran.evidence (h : Ran evidenceOnly w w') : Ran plainKeys w w' ∧ w'.db.users = w.db.users :=
  ⟨h.mono (fun _ _ => trivial) (fun _ _ => trivial) (fun _ _ => trivial) fun _ hk => hk,
    h.same fun _ _ hs => by obtain ⟨e, rfl⟩ := hs; rfl⟩

/-- What a request for the address `new` does to the entry of `t`, in full: what it stages is for
the row that it read and for an address that nobody has. -/
def StagesAs (env : Env) (ctx : Ctx) (u : UserID) (new : String) (t : Uuid) (w w' : World) : Prop :=
  w'.store.data (.changeEmail t) = w.store.data (.changeEmail t) ∨
    w.entropy ≤ t ∧ t < w'.entropy ∧ ∃ user, w.db.userByID ctx u = some user ∧
      w.db.userByEmail env ctx new = none ∧
      w'.store.data (.changeEmail t) =
        some ⟨.str (changeEmailPayload u user.email new), TtlMap.expiry w.now changeEmailTTL⟩

theorem StagesAs.stagesAt (h : StagesAs env ctx u new t w w') : StagesAt ctx u t w w' := by
  rcases h with h | ⟨hle, hlt, user, huser, -, hdata⟩
  · exact .inl h
  · exact .inr ⟨hle, hlt, user, new, _, huser, hdata⟩

/-- The staging itself, for a user row that was read in the state `w`. -/
theorem wp_stageChangeEmail {user : User} (huser : w.db.userByID ctx u = some user)
    (hfree : w.db.userByEmail env ctx new = none) (h₁ : Ran evidenceOnly w w₁) :
    wp (stageChangeEmail ctx user new) (fun _ w' => StagesAs env ctx u new t w w') w₁ := by
  refine wp_seq ?_
  rw [wp_draw, thenWp_ok]
  refine wp_seq ?_
  rw [storeSet, wp_kv, thenWp_ok]
  have hrest : Within plainKeys (admitBeforeExternal ctx
      { auditEvent "email_change_requested" true with userID := some user.id } >>= fun _ =>
        ignore (notify (.emailVerification new (.changeEmail w₁.entropy))) >>= fun _ =>
          ignore (notify (.securityAlert user.email "email_change_requested"
            ("A request was made to change your email address to " ++ new
              ++ ". If you did not make this request, secure your account immediately.")))) :=
    within_bind (within_admitBeforeExternal plainKeys_quiet) fun _ =>
      within_of_each (each_bind (each_ignore (each_notify trivial trivial)) fun _ =>
        each_ignore (each_notify trivial trivial))
  refine wp_of_within hrest fun _ w' h' => ?_
  have hid := (DB.userByID_spec huser).2.1
  by_cases ht : t = w₁.entropy
  · subst ht
    refine .inr ⟨h₁.entropy, Nat.lt_of_lt_of_le (Nat.lt_succ_self _) h'.entropy, user, huser, hfree,
      ?_⟩
    rw [h'.staged, ← hid, ← h₁.now]
    exact TtlMap.put_data_self _ _ _
  · refine .inl ?_
    rw [h'.staged, ← h₁.evidence.1.staged t]
    exact TtlMap.set_data_ne _ _ _ fun h => ht (StoreKey.changeEmail.inj h)

/-- A part before the staging. -/
theorem stagesAs_seq {α β : Type} {p : M α} {f : α → M β} (hp : Each (Acts evidenceOnly) p)
    (h₁ : Ran evidenceOnly w w₁)
    (hf : ∀ a w₂, Ran evidenceOnly w w₂ → wp (f a) (fun _ w' => StagesAs env ctx u new t w w') w₂) :
    wp (p >>= f) (fun _ w' => StagesAs env ctx u new t w w') w₁ := by
  refine wp_seq (wp_of_within (within_of_each hp) fun r w₂ h₂ => ?_)
  cases r with
  | error e => exact .inl ((h₁.trans h₂).evidence.1.staged t)
  | ok a => exact hf a w₂ (h₁.trans h₂)

/-- A read before the staging, of what the evidence leaves alone. -/
theorem stagesAs_query {α β : Type} {l : Call} {g : DB → α} {f : α → M β}
    (hl : ∀ db db' : DB, db.users = db'.users → g db = g db') (h₁ : Ran evidenceOnly w w₁)
    (hf : ∀ w₂, Ran evidenceOnly w w₂ →
      wp (f (g w.db)) (fun _ w' => StagesAs env ctx u new t w w') w₂) :
    wp (query l g >>= f) (fun _ w' => StagesAs env ctx u new t w w') w₁ := by
  refine wp_seq ?_
  have h₂ : Ran evidenceOnly w w₁.fault.2 := h₁.trans (ran_fault w₁)
  rw [wp_query]
  refine ⟨fun _ => .inl (h₂.evidence.1.staged t), fun _ => ?_⟩
  rw [thenWp_ok, hl w₁.db w.db h₁.evidence.2]
  exact hf _ h₂

/-- A refusal before the staging. -/
theorem stagesAs_refuse {β : Type} {c : Bool} {e : Err} {f : Unit → M β}
    (h₁ : Ran evidenceOnly w w₁)
    (hf : c = false → wp (f ()) (fun _ w' => StagesAs env ctx u new t w w') w₁) :
    wp (refuse c e >>= f) (fun _ w' => StagesAs env ctx u new t w w') w₁ := by
  refine wp_seq ?_
  rw [wp_refuse]
  exact ⟨fun _ => .inl (h₁.evidence.1.staged t), hf⟩

theorem stagesAs_request (password raw ip : String) (t : Uuid) (w : World) :
    StagesAs env ctx u (env.normalize raw) t w
      ((requestChangeEmail env ctx u password raw ip).run w).2 := by
  change wp (requestChangeEmail env ctx u password raw ip)
    (fun _ w' => StagesAs env ctx u (env.normalize raw) t w w') w
  refine stagesAs_query (fun _ _ h => by simp only [DB.userByID, h]) (.refl w) fun w₁ h₁ => ?_
  cases huser : w.db.userByID ctx u with
  | none => exact .inl (h₁.evidence.1.staged t)
  | some user =>
    refine stagesAs_seq (each_comparePassword trivial) h₁ fun _ w₂ h₂ => ?_
    refine stagesAs_refuse h₂ fun _ => stagesAs_refuse h₂ fun _ => ?_
    refine stagesAs_seq (each_changeEmailThrottle evidenceOnly_quiet) h₂ fun _ w₃ h₃ => ?_
    refine stagesAs_refuse h₃ fun _ => ?_
    refine stagesAs_query (fun _ _ h => by simp only [DB.userByEmail, h]) h₃ fun w₄ h₄ => ?_
    refine stagesAs_refuse h₄ fun hfree => ?_
    exact wp_stageChangeEmail huser (Option.not_isSome_iff_eq_none.1 (by simpa using hfree)) h₄

theorem stagesAt_request (env : Env) (ctx : Ctx) (u : UserID) (password new ip : String) (t : Uuid)
    (w : World) :
    StagesAt ctx u t w ((serve env ctx (.requestChangeEmail u password new ip)).run w).2 := by
  rw [serve, run_noPair]
  exact (stagesAs_request password new ip t w).stagesAt

/-- A confirmation can only take an entry away. -/
theorem confirm_takes {t : Option Uuid} (k : Uuid) (w : World) :
    let w' := ((serve env ctx (.confirmChangeEmail t ip)).run w).2
    w'.store.data (.changeEmail k) = w.store.data (.changeEmail k) ∨
      w'.store.data (.changeEmail k) = none := by
  intro w'
  by_cases ht : t = some k
  · refine .inr ?_
    subst ht
    have hwp : wp (confirmChangeEmail env ctx (some k) ip)
        (fun _ w' => w'.store.data (.changeEmail k) = none) w := by
      rw [confirmChangeEmail, wp_runAuditOperation]
      refine wp_mono (Q := fun _ w₁ => w₁.store.data (.changeEmail k) = none) ?_ ?_
      · refine wp_seq ?_
        rw [storeTake, wp_kv, thenWp_ok]
        have htaken := TtlMap.take_data_self w.store w.now (.changeEmail k)
        split
        · split
          · exact htaken
          · refine wp_of_within (within_of_each (each_applyChangeEmail plainKeys_quiet
              ⟨fun _ => trivial, fun _ => trivial⟩ (fun _ _ => trivial) trivial)) fun _ w₁ h => ?_
            exact (h.staged k).trans htaken
        · exact htaken
      · intro r w₁ h₁
        have hstore := (executes_fault w₁).store
        rcases closeAudit_cases w.db r w₁ with ⟨hc, -⟩ | ⟨e, hc⟩
        · rw [hc, hstore]
          exact h₁
        · rw [hc]
          exact (congrArg (fun m => m.data (.changeEmail k)) hstore).trans h₁
    exact (congrArg (fun w : World => w.store.data (.changeEmail k)) (run_noPair _ w)).trans hwp
  · refine .inl ((serve_ran env ctx _ w).store _ ?_)
    rintro (hp | ⟨v, rfl, hv⟩)
    · cases hp
    · exact ht (congrArg some (StoreKey.changeEmail.inj hv).symm)

/-- **An entry under an old token is the one that was staged**, whatever happened since. -/
theorem staged_step {s : Step} {e : Entry} (ht : t < w.entropy)
    (h : (advance env s w).2.store.data (.changeEmail t) = some e) :
    w.store.data (.changeEmail t) = some e := by
  cases s with
  | admin ctx a =>
    rw [advance, run_noPair] at h
    exact ((admin_ran ctx a w).store _ fun hp => by cases hp).symm.trans h
  | event ev =>
    cases ev with
    | purgeRefreshTokens => exact h
    | outside o =>
      cases o with
      | tick ms => exact h
      | purgeUsedTokens => exact h
      | loseKey k =>
        by_cases hk : StoreKey.changeEmail t = k
        · subst hk
          exact absurd ((TtlMap.put_data_self _ _ _).symm.trans h) (by simp)
        · exact (TtlMap.delete_data_ne hk).symm.trans h
    | call ctx r =>
      have hkept : ¬ r.touches (.changeEmail t) → w.store.data (.changeEmail t) = some e := by
        intro hr
        refine ((serve_ran env ctx r w).store _ ?_).symm.trans h
        rintro (hp | hk)
        · cases hp
        · exact hr hk
      cases r with
      | requestChangeEmail u password new ip =>
        rcases stagesAt_request env ctx u password new ip t w with hs | ⟨hle, -⟩
        · exact hs.symm.trans h
        · exact absurd ht (Nat.not_lt.2 hle)
      | confirmChangeEmail k ip =>
        rcases confirm_takes t w with hs | hs
        · exact hs.symm.trans h
        · exact absurd (hs.symm.trans h) (by simp)
      | _ => exact hkept (by simp [Request.touches])

/-! ## The address of the row -/

/-- The row of the user carries the address. -/
def DB.hasEmail (db : DB) (u : UserID) (e : String) : Prop :=
  ∃ row, db.userRow? u = some row ∧ row.email = e

theorem UserWrite.apply_email {x : UserWrite} (h : x.kind ≠ .email) (h' : x.kind ≠ .erase)
    (user : User) : (x.apply user).email = user.email := by
  cases x with
  | email e v => exact absurd rfl h
  | erase e n => exact absurd rfl h'
  | _ => rfl

theorem hasEmail_exec {db : DB} {x : Stmt} (h : db.hasEmail u e)
    (hx : ∀ ctx y, x.userWrite? = some (ctx, u, y) → y.kind ≠ .email ∧ y.kind ≠ .erase) :
    (db.exec x).hasEmail u e := by
  obtain ⟨row, hrow, he⟩ := h
  obtain ⟨row', hrow', he'⟩ := userRow_keeps (P := fun a b => b.email = a.email) x hrow rfl
    fun ctx y hy => UserWrite.apply_email (hx ctx y hy).1 (hx ctx y hy).2 row
  exact ⟨row', hrow', he'.trans he⟩

theorem hasEmail_of_mild {db db' : DB} (h : Mild env db db') (he : db.hasEmail u e) :
    db'.hasEmail u e := by
  obtain ⟨row, hrow, hemail⟩ := he
  have hkey : ∀ {a b : User}, a.Relocked b → b.id = a.id := fun h => by rw [h]
  obtain ⟨row', hrow', hr⟩ := h.users.get? hkey hrow
  exact ⟨row', hrow', by rw [hr]; exact hemail⟩

/-- The call replaces what a change of the user's email was authorised by, if it succeeds. -/
def Request.replaces (w : World) (u : UserID) : Request → Prop
  | .changePassword v _ _ _ => v = u
  | .resetPassword t _ _ => w.signedFor t u
  | .confirmChangeEmail t _ => w.stagedFor t u
  | .deactivateAccount v _ _ _ _ => v = u
  | .eraseAccount v _ _ _ _ => v = u
  | _ => False

/-- Such a call committed. -/
def Replaced (u : UserID) (x : Record World Step Reply) : Prop :=
  ∃ ctx r pair, x.input = .call ctx r ∧ r.replaces x.before u ∧ x.reply = .ok pair

theorem endsTokens_of_replaces {r : Request} (h : r.replaces w u) : r.endsTokens ctx w u := by
  cases r with
  | changePassword => exact h
  | resetPassword => exact h
  | confirmChangeEmail t ip => exact h
  | deactivateAccount => exact h
  | eraseAccount => exact h
  | _ => exact h.elim

/-- Only a confirmation and an erasure write an address. -/
theorem endsTokens_of_email {r : Request} (h : r.may .email = true ∨ r.may .erase = true)
    (hw : r.writesTo w u) : r.endsTokens ctx w u := by
  cases r with
  | confirmChangeEmail t ip => exact hw
  | eraseAccount => exact hw
  | _ => rcases h with h | h <;> cases h

theorem admin_email {a : AdminRequest} (h : a.may .email = true ∨ a.may .erase = true) :
    False := by
  cases a <;> rcases h with h | h <;> cases h

/-- **A step that leaves the version alone** replaces no credential and leaves the address alone. -/
theorem same_of_version {s : Step} (hc : w.Calm)
    (hv : (advance env s w).2.db.pwdVersion u = w.db.pwdVersion u) (he : w.db.hasEmail u e) :
    ¬ Replaced u ⟨s, w, (advance env s w).1, (advance env s w).2⟩ ∧
      (advance env s w).2.db.hasEmail u e := by
  have hraise : ∀ {ctx r pair}, s = .call ctx r → (advance env s w).1 = .ok pair →
      ¬ r.endsTokens ctx w u := by
    rintro ctx r pair rfl hok hends
    have hraises : Raises u (serve env ctx r) w := raises_serve hc.faults hends
    have hlt : w.db.pwdVersion u < (advance env (.call ctx r) w).2.db.pwdVersion u :=
      hraises pair hok
    omega
  refine ⟨fun ⟨ctx, r, pair, hs, hr, hok⟩ => hraise hs hok (endsTokens_of_replaces hr), ?_⟩
  by_cases hfailed : ∃ ctx r err, s = .call ctx r ∧ (advance env s w).1 = .error err
  · obtain ⟨ctx, r, err, rfl, herr⟩ := hfailed
    exact hasEmail_of_mild (leaves_serve env ctx r w err herr) he
  refine advance_keeps (I := fun db => db.hasEmail u e) (fun _ _ h => ⟨h, h⟩)
    (fun db x hx h => hasEmail_exec h ?_) he
  intro c y hy
  have hkind := kind_of_userWrite hy
  cases s with
  | admin => exact ⟨fun h => admin_email (.inl (h ▸ hkind ▸ hx.1)),
      fun h => admin_email (.inr (h ▸ hkind ▸ hx.1))⟩
  | event ev =>
    cases ev with
    | outside o => exact hx.elim
    | purgeRefreshTokens => exact hx.elim
    | call ctx r =>
      have hto : r.writesTo w u := hx.2 _ _ _ hy
      cases hreply : (advance env (.call ctx r) w).1 with
      | error err => exact absurd ⟨ctx, r, err, rfl, hreply⟩ hfailed
      | ok pair =>
        exact ⟨fun h => hraise rfl hreply (endsTokens_of_email (.inl (h ▸ hkind ▸ hx.1)) hto),
          fun h => hraise rfl hreply (endsTokens_of_email (.inr (h ▸ hkind ▸ hx.1)) hto)⟩

/-! ## Confirmation -/

/-- What holds between the staging of a change by `u`, at version `v` and address `old`, and its
confirmation. -/
structure Pending (u : UserID) (v : Nat) (old : String) (t : Uuid) (e : Entry) (r : SystemRun) :
    Prop where
  calm : r.state.Calm
  fresh : t < r.state.entropy
  entry : ∀ e', r.state.store.data (.changeEmail t) = some e' → e' = e
  version : v ≤ r.state.db.pwdVersion u
  current : r.state.db.pwdVersion u = v →
    (∀ x ∈ r.hist, ¬ Replaced u x) ∧ r.state.db.hasEmail u old

theorem pending_step {v : Nat} {e : Entry} {r : SystemRun} (h : Pending u v old t e r) (s : Step) :
    Pending u v old t e (r.step (advance env) s) where
  calm := advance_calm h.calm
  fresh := Nat.lt_of_lt_of_le h.fresh advance_entropy
  entry e' he := h.entry e' (staged_step h.fresh he)
  version := Nat.le_trans h.version (advance_pwdVersion u)
  current hv := by
    have hmono : r.state.db.pwdVersion u ≤ (advance env s r.state).2.db.pwdVersion u :=
      advance_pwdVersion u
    have hsame : r.state.db.pwdVersion u = v :=
      Nat.le_antisymm (Nat.le_trans hmono (Nat.le_of_eq hv)) h.version
    obtain ⟨hhist, hemail⟩ := h.current hsame
    obtain ⟨hnew, hemail'⟩ := same_of_version h.calm (hv.trans hsame.symm) hemail
    refine ⟨fun x hx => ?_, hemail'⟩
    rcases List.mem_cons.1 hx with rfl | hx
    · exact hnew
    · exact hhist x hx

/-- Statements that leave every address alone. -/
def keepsEmail : Footprint :=
  { plainKeys with stmt := fun x => x.kind ≠ .email ∧ x.kind ≠ .erase }

theorem keepsEmail_quiet : keepsEmail.Quiet :=
  ⟨⟨trivial, fun _ => trivial, fun _ => trivial, fun _ h => h⟩,
    fun _ => ⟨by simp [Stmt.kind], by simp [Stmt.kind]⟩, fun _ _ => trivial⟩

theorem Ran.hasEmail (h : Ran keepsEmail w w') (he : w.db.hasEmail u e) : w'.db.hasEmail u e :=
  h.keeps (I := fun db => db.hasEmail u e) (fun _ _ hx he => hasEmail_exec he fun _ _ hy =>
    (kind_of_userWrite hy).symm ▸ hx) he

theorem gives_applyChangeEmail :
    Gives (fun _ w' => w'.db.hasEmail u new) (applyChangeEmail env ctx u old new ip) w := by
  refine gives_after (F := anything) (each_usersFindByEmail anything_quiet) fun _ w₁ _ =>
    gives_after (F := anything) (each_refuse _ _) fun _ w₂ _ =>
      gives_user (fun _ => gives_fail _) fun user w₃ huser _ => ?_
  have hid := (DB.userByID_spec huser).2.1
  have hwrite : Gives (fun _ w' => w'.db.hasEmail u new)
      (usersUpdateEmail env ctx { user with email := new, isEmailVerified := true }) w₃ :=
    gives_usersUpdateUnique.mono fun _ _ ⟨row, _, h, _⟩ => ⟨_, hid ▸ h, rfl⟩
  refine gives_before (F := keepsEmail) hwrite (fun _ => ?_) fun _ _ _ _ he h => h.hasEmail he
  exact each_bind (each_containUser keepsEmail_quiet ⟨by simp [keepsEmail, Stmt.kind],
    by simp [keepsEmail, Stmt.kind]⟩ (by simp [keepsEmail, Stmt.kind, UserWrite.kind])) fun _ =>
      each_bind (each_ignore (each_notify trivial trivial)) fun _ => each_record keepsEmail_quiet

/-- What the store holds under the token `t` for a confirmation, and the row after it. -/
def Confirms (t : Uuid) (w w' : World) : Prop :=
  ∃ payload v old new, w.store.live w.now (.changeEmail t) = some (.str payload) ∧
    parsePayload payload = some (v, old, new) ∧ w'.db.hasEmail v new

/-- A confirmation that succeeds carries out what it finds under its token. -/
theorem gives_confirmChangeEmail :
    Gives (fun _ w' => Confirms t w w') (serve env ctx (.confirmChangeEmail (some t) ip)) w := by
  have hbody : Gives (fun _ w' => Confirms t w w')
      (confirmChangeEmailAudited env ctx (some t) ip) { w with op := {} } := by
    refine gives_seq ?_
    unfold Gives
    rw [storeTake, wp_kv, TtlMap.take_fst]
    intro v hv
    cases hv
    cases hlive : w.store.live w.now (.changeEmail t) with
    | none => exact gives_fail _
    | some v =>
      cases v with
      | int n => exact gives_fail _
      | str payload =>
        simp only
        cases hparse : parsePayload payload with
        | none => exact gives_fail _
        | some x =>
          obtain ⟨v, old, new⟩ := x
          exact gives_applyChangeEmail.mono fun _ _ h => ⟨payload, v, old, new, hlive, hparse, h⟩
  refine gives_then (gives_audit hbody ?_) fun _ _ h => gives_ret h
  rintro _ w' ⟨payload, v, old, new, hlive, hparse, h⟩
  exact ⟨payload, v, old, new, hlive, hparse, by rwa [fault_db]⟩

/-- A request of `u` in the state `w` put the payload into the store under the token `t`. -/
def Stages (env : Env) (u : UserID) (t : Uuid) (payload : String) (w w' : World) : Prop :=
  ∃ ctx password new ip,
    w' = (advance env (.call ctx (.requestChangeEmail u password new ip)) w).2 ∧
    w.store.live w.now (.changeEmail t) = none ∧
    w'.store.live w'.now (.changeEmail t) = some (.str payload)

/-- What was staged, and that nothing has become of it yet. -/
theorem pending_of_stages {payload : String} {w₁ w₂ : World} (hc : w₁.Calm)
    (h : Stages env u t payload w₁ w₂) : ∃ old new exp,
      payload = changeEmailPayload u old new ∧
      Pending u (w₁.db.pwdVersion u) old t ⟨.str payload, exp⟩ (Run.init w₂) := by
  obtain ⟨ctx, password, new, ip, rfl, hfree, hstaged⟩ := h
  have hnow : (advance env (.call ctx (.requestChangeEmail u password new ip)) w₁).2.now = w₁.now :=
    (serve_ran env ctx _ w₁).now
  rcases stagesAt_request env ctx u password new ip t w₁ with
    hsame | ⟨-, hlt, user, new', exp, huser, hdata⟩
  · have : (advance env (.call ctx (.requestChangeEmail u password new ip)) w₁).2.store.live
        w₁.now (.changeEmail t) = none := by
      unfold TtlMap.live at hfree ⊢
      rw [show (advance env (.call ctx (.requestChangeEmail u password new ip)) w₁).2.store.data
        (.changeEmail t) = _ from hsame]
      exact hfree
    rw [hnow, this] at hstaged
    cases hstaged
  · obtain ⟨e, he, hv⟩ := TtlMap.data_of_live hstaged
    obtain rfl : e = ⟨.str (changeEmailPayload u user.email new'), exp⟩ :=
      Option.some.inj (he.symm.trans hdata)
    cases hv
    have hrow := userRow_of_userByID huser
    refine ⟨user.email, new', exp, rfl, advance_calm hc, hlt, fun e' he' => ?_,
      advance_pwdVersion u, fun hver => ⟨fun _ hx => (by cases hx), ?_⟩⟩
    · exact Option.some.inj (he'.symm.trans hdata)
    · exact (same_of_version hc hver ⟨user, hrow, rfl⟩).2

/-- **At an unchanged version a confirmed change is the one that was authorised**: nothing replaced
the credential in between, and the address is changed from the one of the payload to the new one.
Time, other calls for the same user and other staged changes may come in between. -/
theorem confirm_current (env : Env) {u : UserID} {t : Uuid} {payload : String} {w₁ w₂ : World}
    (hc : w₁.Calm) (hs : Stages env u t payload w₁ w₂) (mid : List Step) {ctx : Ctx} {ip : String}
    (hok : ∃ pair, (advance env (.call ctx (.confirmChangeEmail (some t) ip))
      (systemRun env w₂ mid).state).1 = .ok pair)
    (hver : (systemRun env w₂ mid).state.db.pwdVersion u = w₁.db.pwdVersion u) :
    (∀ x ∈ (systemRun env w₂ mid).hist, ¬ Replaced u x) ∧
      ∃ old new, parsePayload payload = some (u, old, new) ∧
        (systemRun env w₂ mid).state.db.hasEmail u old ∧
        (advance env (.call ctx (.confirmChangeEmail (some t) ip))
          (systemRun env w₂ mid).state).2.db.hasEmail u new := by
  obtain ⟨old, new, exp, rfl, hp⟩ := pending_of_stages hc hs
  have hrun : Pending u (w₁.db.pwdVersion u) old t ⟨.str (changeEmailPayload u old new), exp⟩
      (systemRun env w₂ mid) :=
    Run.exec_induct (I := Pending u (w₁.db.pwdVersion u) old t _)
      (fun _ s h => pending_step h s) mid hp
  obtain ⟨hhist, hemail⟩ := hrun.current hver
  have hgives : Gives (fun _ w' => Confirms t (systemRun env w₂ mid).state w')
    (serve env ctx (.confirmChangeEmail (some t) ip)) _ := gives_confirmChangeEmail
  obtain ⟨pair, hpair⟩ := hok
  obtain ⟨payload, v, old', new', hlive, hparse, hafter⟩ := hgives pair hpair
  obtain ⟨e, he, hval⟩ := TtlMap.data_of_live hlive
  obtain rfl := hrun.entry e he
  cases hval
  obtain ⟨rfl, rfl, rfl⟩ := parsePayload_eq hparse
  exact ⟨hhist, old', new', hparse, hemail, hafter⟩

/-- The request of `jose` for a new address. -/
def sampleRequest (new : String) : Step :=
  .call .sample (.requestChangeEmail 1 "password1" new "10.0.0.1")

/-- The state after it. -/
def sampleStaged : World := (advance (.plain .sample) (sampleRequest "new@x.io") .sample).2

theorem stages_sample :
    Stages (.plain .sample) 1 100 "1:jose@x.io:new@x.io" .sample sampleStaged :=
  ⟨.sample, "password1", "new@x.io", "10.0.0.1", rfl, by decide +kernel, by decide +kernel⟩

/-- A confirmation after ten minutes and a login. -/
theorem confirm_after_login :
    let r := systemRun (.plain .sample) sampleStaged
      [.event (.outside (.tick 600000)),
        .call .sample (.login "jose@x.io" "password1" "" "ip" "ua")]
    (∀ x ∈ r.hist, ¬ Replaced 1 x) ∧
      ∃ old new, parsePayload "1:jose@x.io:new@x.io" = some (1, old, new) ∧
        r.state.db.hasEmail 1 old ∧
        (advance (.plain .sample) (.call .sample (.confirmChangeEmail (some 100) "10.0.0.1"))
          r.state).2.db.hasEmail 1 new :=
  confirm_current (.plain .sample) ⟨rfl, rfl⟩ stages_sample _ ⟨none, by decide +kernel⟩
    (by decide +kernel)

/-- **A staged change outlives its credential.** While it waits, another change is staged and
confirmed and the password is replaced; the confirmation succeeds all the same, and the address it
replaces is not the one of its payload. -/
theorem confirm_after_passwordChange :
    let r := systemRun (.plain .sample) sampleStaged
      [sampleRequest "other@x.io", .call .sample (.confirmChangeEmail (some 101) "10.0.0.1"),
        .call .sample (.changePassword 1 "password1" "password2" "10.0.0.1")]
    Stages (.plain .sample) 1 100 "1:jose@x.io:new@x.io" .sample sampleStaged ∧
      (advance (.plain .sample) (.call .sample (.confirmChangeEmail (some 100) "10.0.0.1"))
        r.state).1 = .ok none ∧
      (∃ x ∈ r.hist, Replaced 1 x) ∧ ¬ r.state.db.hasEmail 1 "jose@x.io" := by
  refine ⟨stages_sample, by decide +kernel, ?_, ?_⟩
  · refine ⟨_, List.mem_cons_self, .sample, _, none, rfl, rfl, by decide +kernel⟩
  · rintro ⟨row, hrow, he⟩
    have hemail : ((systemRun (.plain .sample) sampleStaged
        [sampleRequest "other@x.io", .call .sample (.confirmChangeEmail (some 101) "10.0.0.1"),
          .call .sample (.changePassword 1 "password1" "password2" "10.0.0.1")]).state.db.userRow?
        1).map (·.email) = some "other@x.io" := by decide +kernel
    rw [hrow] at hemail
    exact absurd (he.symm.trans (Option.some.inj hemail)) (by decide)

end FinnAuth
