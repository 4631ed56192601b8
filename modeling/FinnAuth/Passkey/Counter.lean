import FinnAuth.Transaction
import FinnAuth.Footprint.Account

/-!
# Passkey sign counters under concurrency

`finishAuthenticationAudited` (`passkey_service.go`) loads the credential rows, lets the library
compare the presented counter with the loaded one, and writes the presented counter with
`TouchUsage` (`passkey_repository.go`), whatever is stored by then. All of it runs in the call's own
transaction, so that two calls can load the same counter before either of them commits.

The pool has the two requests of a login with one credential, `BeginAuthentication` and
`FinishAuthentication`. No repository call fails: `completeAuthentication` drops the error of
`TouchUsage`, and a login whose counter was not stored can be repeated.

Results:
* `safe_close`: what the commit of a login does to the stored counter;
* **`passkey_counter_serial`**: if no login commits after another one has changed the counter under
  it, the counter never decreases and no two logins succeed with the same non-zero counter;
* **`passkey_counter_crossing`**: two logins that cross, with 7 and 6 and with 6 and 6.
-/

namespace FinnAuth.PasskeyCounter

open Lib Prog Protocol

/-! ## The pool -/

/-- The sign counter stored for the credential. -/
def stored (cid : Nat) (w : World) : Option Nat :=
  (w.db.passkeys.first? fun p => p.credentialID = cid).map (·.signCount)

/-- A request of a login with one credential. -/
inductive Job : Type where
  | beginAuthentication (ctx : Ctx) (userID : UserID)
  | finishAuthentication (ctx : Ctx) (userID : UserID) (challenge : String) (signCount : Nat)
      (ip ua : String)

/-- What a request returns. -/
inductive Reply : Type where
  | challenge (c : String)
  | tokens (pair : TokenPair) (profile : UserProfile)

/-- The program of a request with the credential `cid`. -/
def code (env : Env) (cid : Nat) : Job → Prog World TxCall Err Reply
  | .beginAuthentication ctx userID =>
    (passkeyBeginAuthentication env ctx userID).relabel .call >>= fun c => .ret (.challenge c)
  | .finishAuthentication ctx userID challenge signCount ip ua =>
    auditTx (passkeyFinishAuthenticationAudited env ctx userID ⟨challenge, cid, signCount⟩ ip ua)
      >>= fun x => .ret (.tokens x.1 x.2)

/-- A pool of such requests. -/
abbrev Calls := Pool World TxCall Outside Err Reply Job

/-- A run of requests, one action at a time. -/
def run (env : Env) (cid : Nat) (w : World) (ms : List (Move Outside Job)) : Calls :=
  (Pool.init w : Calls).exec (code env cid) Outside.apply ms

/-- The stored counter is what it was at every action the call `i` has taken. -/
def Undisturbed (cid i : Nat) (v : TxShared) : Prop :=
  ∀ x ∈ v.hist, x.thread? = some i → stored cid x.pre = stored cid v.state

instance (cid i : Nat) (v : TxShared) : Decidable (Undisturbed cid i v) := by
  unfold Undisturbed; infer_instance

/-- `credential_id` is a unique index. -/
def Distinct (db : DB) : Prop := (db.passkeys.rows.map (·.credentialID)).Nodup

/-! ## Rows as they move on -/

/-- A credential before and after: the counter, the last use and the revocation may have changed. -/
structure SameKey (p q : PasskeyCredential) : Prop where
  id : q.id = p.id
  userID : q.userID = p.userID
  credentialID : q.credentialID = p.credentialID

theorem SameKey.refl (p : PasskeyCredential) : SameKey p p := ⟨rfl, rfl, rfl⟩

theorem SameKey.trans {p q r : PasskeyCredential} (h : SameKey p q) (h' : SameKey q r) :
    SameKey p r :=
  ⟨h'.id.trans h.id, h'.userID.trans h.userID, h'.credentialID.trans h.credentialID⟩

/-- A later state: the same users and credentials, and no smaller counter. -/
structure Later (cid : Nat) (w w' : World) : Prop where
  users : w'.db.users = w.db.users
  keys : w.db.passkeys.Moves SameKey w'.db.passkeys
  grows : ∀ n, stored cid w = some n → ∃ m, stored cid w' = some m ∧ n ≤ m

variable {α : Type} {cid i sc : Nat} {env : Env} {ctx : Ctx} {userID : UserID} {w w' w'' : World}
  {v v' : TxShared} {row : PasskeyCredential} {c c' : Noted} {ip ua : String} {f : World → World}
  {l : TxCall} {A : TxShared → Prop} {r : Except Err α} {e : AuditLog}

theorem Later.trans (h : Later cid w w') (h' : Later cid w' w'') : Later cid w w'' where
  users := h'.users.trans h.users
  keys := h.keys.trans h'.keys SameKey.trans
  grows n hn := by
    obtain ⟨m, hm, hle⟩ := h.grows n hn
    obtain ⟨k, hk, hle'⟩ := h'.grows m hm
    exact ⟨k, hk, Nat.le_trans hle hle'⟩

theorem later_of_same (hu : w'.db.users = w.db.users) (hp : w'.db.passkeys = w.db.passkeys) :
    Later cid w w' where
  users := hu
  keys := by rw [hp]; exact .refl SameKey.refl _
  grows n hn := ⟨n, by unfold stored at hn ⊢; rw [hp]; exact hn, Nat.le.refl⟩

theorem later_of_db (h : w'.db = w.db) : Later cid w w' :=
  later_of_same (congrArg DB.users h) (congrArg DB.passkeys h)

theorem distinct_of_moves {d d' : DB} (hd : Distinct d)
    (h : d.passkeys.Moves SameKey d'.passkeys) : Distinct d' := by
  have hmap : d'.passkeys.rows.map (·.credentialID) = d.passkeys.rows.map (·.credentialID) := by
    unfold Table.Moves at h
    generalize d.passkeys.rows = rows, d'.passkeys.rows = rows' at h
    induction h with
    | nil => rfl
    | cons hpq _ ih => rw [List.map_cons, List.map_cons, ih, hpq.credentialID]
  unfold Distinct
  rw [hmap]
  exact hd

/-- The index finds the row. -/
theorem eq_of_credentialID {d : DB} (hd : Distinct d) {p q : PasskeyCredential}
    (hp : p ∈ d.passkeys.rows) (hq : q ∈ d.passkeys.rows) (h : p.credentialID = q.credentialID) :
    p = q :=
  List.inj_on_of_nodup_map hd hp hq h

theorem stored_of_mem (hd : Distinct w.db) (hp : row ∈ w.db.passkeys.rows)
    (hc : row.credentialID = cid) : stored cid w = some row.signCount := by
  unfold stored
  cases hf : w.db.passkeys.first? fun p => p.credentialID = cid with
  | none => exact absurd (Table.first?_eq_none_iff.1 hf row hp) (by simp [hc])
  | some q =>
    obtain ⟨hq, hqc⟩ := Table.mem_of_first? hf
    rw [eq_of_credentialID hd hq hp (by simpa [hc] using hqc)]
    rfl

theorem owns_of_users {d d' : DB} (h : d'.users = d.users) : d'.owns ctx userID = d.owns ctx userID
    := by
  unfold DB.owns DB.userByID
  rw [h]

/-! ## The protocol -/

/-- No call fails, the index holds, and every entry so far left a state that this one is later
than. -/
structure Inv (cid : Nat) (v : TxShared) : Prop where
  calm : v.state.Calm
  distinct : Distinct v.state.db
  since : ∀ x ∈ v.hist, Later cid x.pre x.post ∧ Later cid x.post v.state

/-- A login commits only while the counter is what it was throughout the call. -/
def protocol (cid : Nat) : Protocol World TxCall Outside where
  inv := View.Always (Inv cid)
  rely _ v v' := v.hist ⊆ v'.hist
  ok i l v := l = .close true → Undisturbed cid i v
  okEnv _ _ := True
  rely_refl _ _ := List.Subset.refl _
  rely_trans _ _ _ _ h h' := List.Subset.trans h h'

instance (cid : Nat) (i : Nat) (l : TxCall) (v : TxShared) : Decidable ((protocol cid).ok i l v) :=
  inferInstanceAs (Decidable (_ → _))

instance (cid : Nat) (e : Outside) (v : TxShared) : Decidable ((protocol cid).okEnv e v) :=
  .isTrue trivial

theorem since_cons {x : Ev World TxCall Outside} (hi : Inv cid v) (hpre : x.pre = v.state)
    (hl : Later cid x.pre x.post) :
    ∀ y ∈ x :: v.hist, Later cid y.pre y.post ∧ Later cid y.post x.post := by
  intro y hy
  rcases List.mem_cons.1 hy with rfl | hy
  · exact ⟨hl, later_of_db rfl⟩
  · exact ⟨(hi.since y hy).1, (hi.since y hy).2.trans (hpre ▸ hl)⟩

/-- What an action owes. -/
theorem step_act (hi : (protocol cid).inv v) (hc : (f v.state).Calm)
    (hl : Later cid v.state (f v.state)) : (protocol cid).Step i v (v.act i l f) where
  inv := View.Always.act hi
    ⟨hc, distinct_of_moves hi.1.distinct hl.keys,
      since_cons (x := .act i l v.state (f v.state)) hi.1 rfl hl⟩
  rely _ _ := List.subset_cons_self _ _

theorem step_inside (hi : (protocol cid).inv v) (hin : Inside v.state (f v.state)) :
    (protocol cid).Step i v (v.act i l f) :=
  step_act hi ⟨hin.faults.trans hi.1.calm.faults, hin.op ▸ hi.1.calm.failure⟩ (later_of_db hin.db)

theorem step_read (hi : (protocol cid).inv v) : (protocol cid).Step i v (v.act i l id) :=
  step_inside hi ⟨rfl, rfl, rfl⟩

theorem faults_of_inv (v : TxShared) (hi : (protocol cid).inv v) : v.state.faults = [] :=
  hi.1.calm.faults

/-! ## What a login has noted -/

/-- The statements of no call so far. -/
def reader : Footprint := ⟨fun _ => True, fun _ => False, fun _ => True, fun _ => True⟩

theorem reader_basic : reader.Basic :=
  ⟨trivial, fun _ => trivial, fun _ => trivial, fun _ _ => trivial⟩

/-- Statements on other tables than the users and the credentials. -/
def bystander : Footprint where
  label _ := True
  stmt s := ∀ db : DB, (db.exec s).users = db.users ∧ (db.exec s).passkeys = db.passkeys
  mail _ := True
  key _ := True

theorem bystander_quiet : bystander.Quiet :=
  ⟨⟨trivial, fun _ => trivial, fun _ => trivial, fun _ _ => trivial⟩,
    fun _ _ => ⟨rfl, rfl⟩, fun _ _ => trivial⟩

theorem bystander_issues (user : User) : bystander.Issues user :=
  ⟨fun _ _ _ _ => trivial, fun _ => trivial, fun _ _ => trivial, fun _ _ _ _ _ _ _ _ => ⟨rfl, rfl⟩,
    fun _ _ _ => ⟨rfl, rfl⟩, fun _ _ _ => ⟨rfl, rfl⟩, fun _ _ _ => trivial⟩

/-- Nothing is noted for the database. -/
def Unwritten (c : Noted) : Prop := ∀ x, (c x).1 = x.1

/-- What is noted leaves every counter. -/
def Keeps (c : Noted) : Prop :=
  ∀ x, (c x).1.users = x.1.users ∧
    x.1.passkeys.Moves (fun p q => SameKey p q ∧ q.signCount = p.signCount) (c x).1.passkeys

/-- What is noted sets the counter of the row, if the tenant owns it. -/
def Touches (ctx : Ctx) (id sc : Nat) (c : Noted) : Prop :=
  ∀ x, (c x).1.users = x.1.users ∧
    ((∃ p ∈ x.1.passkeys.rows, p.id = id ∧ x.1.owns ctx p.userID = true) →
      ∃ t, (c x).1.passkeys = (x.1.exec (.touchPasskey id sc t)).passkeys)

/-- There is evidence of a success: a refusal does not commit. -/
def Witnessed (c : Noted) : Prop := ∀ x, (c x).2.latched = true

theorem unwritten_opened : Unwritten opened := fun _ => rfl

theorem Unwritten.notes (h : Unwritten c) (hn : Notes reader c c') : Unwritten c' := by
  intro x
  rcases hn.db x with heq | ⟨s, hs, -⟩
  · exact heq.trans (h x)
  · cases hs

theorem Unwritten.keeps (h : Unwritten c) : Keeps c := by
  intro x
  rw [h x]
  exact ⟨rfl, .refl (fun p => ⟨.refl p, rfl⟩) _⟩

theorem notes_apart (hn : Notes bystander c c') (x : DB × Operation) :
    (c' x).1.users = (c x).1.users ∧ (c' x).1.passkeys = (c x).1.passkeys := by
  rcases hn.db x with heq | ⟨s, hs, heq⟩
  · rw [heq]
    exact ⟨rfl, rfl⟩
  · rw [heq]
    exact hs _

theorem Keeps.notes (h : Keeps c) (hn : Notes bystander c c') : Keeps c' := by
  intro x
  rw [(notes_apart hn x).1, (notes_apart hn x).2]
  exact h x

theorem Touches.notes {id : Nat} (h : Touches ctx id sc c) (hn : Notes bystander c c') :
    Touches ctx id sc c' := by
  intro x
  rw [(notes_apart hn x).1, (notes_apart hn x).2]
  exact h x

theorem Witnessed.notes (h : Witnessed c) (hn : Notes bystander c c') : Witnessed c' :=
  fun x => hn.latch x (h x)

/-- A stretch of a body, with what it keeps of the noted changes. -/
theorem safeTx_stretch {F : Footprint} {J : Noted → Prop} {p : M α} (hp : Each (Acts F) p)
    (hA : A v) (hst : (protocol cid).Stable i A) (hc : c.Calm) (hJ : J c)
    (hnote : ∀ c c', J c → Notes F c c' → J c') :
    (protocol cid).SafeTx txPart .call i (fun _ c' v' => A v' ∧ Noted.Calm c' ∧ J c') p c v := by
  refine safeTx_acts hp hA hst hc hJ faults_of_inv (fun l g v' hi hA hin => ?_) hnote
  exact ⟨step_inside hi hin, hst hA (List.subset_cons_self _ _)⟩

/-! ## Loading the credential -/

/-- The call `i` has read the row, as the tenant's, with the counter that was stored then. -/
def Loaded (cid i : Nat) (ctx : Ctx) (row : PasskeyCredential) (v : TxShared) : Prop :=
  row.credentialID = cid ∧ ∃ x ∈ v.hist, x.thread? = some i ∧
    stored cid x.pre = some row.signCount ∧ row ∈ x.post.db.passkeys.rows ∧
    x.post.db.owns ctx row.userID = true

theorem stable_loaded : (protocol cid).Stable i (Loaded cid i ctx row) := by
  rintro v v' ⟨hc, x, hx, h⟩ hr
  exact ⟨hc, x, hr hx, h⟩

theorem Loaded.next (h : Loaded cid i ctx row v) : Loaded cid i ctx row (v.act i l f) :=
  stable_loaded h (List.subset_cons_self _ _)

/-- The row is still there, and still the tenant's. -/
theorem Loaded.now (hi : Inv cid v) (h : Loaded cid i ctx row v) :
    ∃ p ∈ v.state.db.passkeys.rows, SameKey row p ∧ v.state.db.owns ctx p.userID = true := by
  obtain ⟨-, x, hx, -, -, hrow, howns⟩ := h
  have hlater := (hi.since x hx).2
  obtain ⟨p, hp, hsame⟩ := Table.exists_of_forall₂ hlater.keys hrow
  refine ⟨p, hp, hsame, ?_⟩
  rw [owns_of_users hlater.users, hsame.userID]
  exact howns

/-- A query of a call that has written nothing. -/
theorem safeTx_query {Q : Except Err α → Noted → TxShared → Prop} {l : Call} {f : DB → α}
    (hu : Unwritten c) (hA : A v) (hst : (protocol cid).Stable i A)
    (h : ∀ v', Inv cid v' → A v' → Q (.ok (f v'.state.db)) c (v'.act i (.call l) id)) :
    (protocol cid).SafeTx txPart .call i Q (query l f) c v := by
  refine safeTx_repo hA hst faults_of_inv fun v' hi hA _ => ⟨step_read hi, ?_⟩
  rw [hu (v'.state.db, v'.state.op)]
  exact h v' hi.1 hA

/-- `loadUser` returns the user and rows that are loaded. -/
theorem safeTx_loadUser (hc : c.Calm) (hu : Unwritten c) :
    (protocol cid).SafeTx txPart .call i
      (fun r c' v' => Noted.Calm c' ∧ Unwritten c' ∧ ∀ u rows, r = .ok (u, rows) → u.id = userID ∧
        ∀ row ∈ rows, row.credentialID = cid → row.userID = userID ∧ Loaded cid i ctx row v')
      (loadUser ctx userID) c v := by
  have hfail : ∀ (e : Err) (v' : TxShared), Noted.Calm c ∧ Unwritten c ∧ ∀ u rows,
      (.error e : Except Err (User × List PasskeyCredential)) = .ok (u, rows) → u.id = userID ∧
        ∀ row ∈ rows, row.credentialID = cid → row.userID = userID ∧ Loaded cid i ctx row v' :=
    fun _ _ => ⟨hc, hu, fun _ _ h => by cases h⟩
  have htriv : (protocol cid).Stable i fun _ => True := fun _ _ _ _ => trivial
  refine safeTx_seq (safeTx_query hu trivial htriv fun v' hi _ => ?_)
  cases huser : v'.state.db.userByID ctx userID with
  | none => exact safeTx_fail (hfail _ _)
  | some user =>
    have hid : user.id = userID := (DB.userByID_spec huser).2.1
    refine safeTx_seq ?_
    unfold refuse
    split
    · exact safeTx_fail (hfail _ _)
    refine safeTx_ret (safeTx_seq (safeTx_query hu trivial htriv fun v' hi _ => ?_))
    refine safeTx_ret ⟨hc, hu, fun u rows hr => ?_⟩
    obtain ⟨rfl, rfl⟩ := Prod.mk.inj (Except.ok.inj hr)
    refine ⟨hid, fun row hrow hcid => ?_⟩
    simp only [List.mem_reverse, List.mem_filter, Bool.and_eq_true, decide_eq_true_eq] at hrow
    obtain ⟨hmem, ⟨huid, -⟩, howns⟩ := hrow
    exact ⟨huid, hcid, _, List.mem_cons_self, rfl, stored_of_mem hi.distinct hmem hcid, hmem, howns⟩

/-- `rowIDByCredential` finds the row that was loaded. -/
theorem safeTx_rowIDByCredential (hc : c.Calm) (hu : Unwritten c) (hl : Loaded cid i ctx row v)
    (huser : row.userID = userID) :
    (protocol cid).SafeTx txPart .call i
      (fun r c' v' => Loaded cid i ctx row v' ∧ Noted.Calm c' ∧ Unwritten c' ∧ r = .ok row.id)
      (rowIDByCredential ctx userID row.credentialID) c v := by
  refine safeTx_seq (safeTx_attempt (safeTx_query hu hl stable_loaded fun v' hi hl => ?_))
  simp only [thenTx]
  obtain ⟨p, hp, hsame, howns⟩ := hl.now hi
  have hfirst : (v'.state.db.passkeys.first? fun q =>
      q.credentialID = row.credentialID && v'.state.db.owns ctx q.userID) = some p := by
    cases hf : v'.state.db.passkeys.first? fun q =>
        q.credentialID = row.credentialID && v'.state.db.owns ctx q.userID with
    | none =>
      exact absurd (Table.first?_eq_none_iff.1 hf p hp) (by simp [hsame.credentialID, howns])
    | some q =>
      obtain ⟨hq, hqc⟩ := Table.mem_of_first? hf
      simp only [Bool.and_eq_true, decide_eq_true_eq] at hqc
      rw [eq_of_credentialID hi.distinct hq hp (hqc.1.trans hsame.credentialID.symm)]
  rw [hfirst]
  simp only
  rw [if_pos (hsame.userID.trans huser), hsame.id]
  exact safeTx_ret ⟨hl.next, hc, hu, rfl⟩

/-! ## The body -/

/-- How the body of a login ends: with the presented counter noted for a row it has loaded and found
good, or with an error that leaves every counter or cannot commit. -/
def Ends (cid i : Nat) (ctx : Ctx) (sc : Nat) (r : Except Err α) (c : Noted) (v : TxShared) :
    Prop :=
  match r with
  | .ok _ => ∃ row, Loaded cid i ctx row v ∧ cloneWarning row.signCount sc = false ∧
      Touches ctx row.id sc c
  | .error _ => Keeps c ∨ c.Calm ∧ Witnessed c

theorem stable_ends : (protocol cid).Stable i fun v => Ends cid i ctx sc r c v := by
  intro v v' h hr
  cases r with
  | ok a =>
    obtain ⟨row, hl, h⟩ := h
    exact ⟨row, stable_loaded hl hr, h⟩
  | error e => exact h

/-- A clone is refused and its row revoked: no counter changes. -/
theorem safeTx_clone {id : Nat} {err : Err} (hc : c.Calm) (hu : Unwritten c) :
    (protocol cid).SafeTx txPart .call i (Ends (α := α) cid i ctx sc)
      (ignore (passkeysRevokeByID ctx id userID) >>= fun _ => record ctx e >>= fun _ => throw err)
      c v := by
  have htriv : (protocol cid).Stable i fun _ => True := fun _ _ _ _ => trivial
  refine safeTx_seq (safeTx_seq (safeTx_attempt
    (safeTx_repo trivial htriv faults_of_inv fun v' hi _ _ => ⟨step_read hi, ?_⟩)))
  refine safeTx_ret (safeTx_seq ((safeTx_stretch (J := Keeps) (each_record bystander_quiet) trivial
    htriv hc.after ?_ fun _ _ => Keeps.notes).mono fun r c' v' h => ?_))
  · intro x
    simp only [Noted.after, hu x]
    split
    · exact ⟨rfl, Table.moves_of_rows rfl (fun p => ⟨.refl p, rfl⟩)
        fun p _ _ => ⟨⟨rfl, rfl, rfl⟩, rfl⟩⟩
    · exact ⟨rfl, .refl (fun p => ⟨.refl p, rfl⟩) _⟩
  · cases r with
    | ok a => exact safeTx_fail (.inl h.2.2)
    | error e => exact .inl h.2.2

/-- A login with a counter that has grown, or that stays zero: the presented counter is noted. -/
theorem safeTx_touch {now : Nat} {user : User} (he : e.success = true)
    (hcl : cloneWarning row.signCount sc = false) (hl : Loaded cid i ctx row v) (hc : c.Calm)
    (hu : Unwritten c) : (protocol cid).SafeTx txPart .call i (Ends cid i ctx sc)
      (ignore (passkeysTouchUsage ctx row.id sc now) >>= fun _ => record ctx e >>= fun _ =>
        issuePasskeyTokenPairAudited env ctx user ip ua) c v := by
  refine safeTx_seq (safeTx_seq (safeTx_attempt
    (safeTx_repo hl stable_loaded faults_of_inv fun v' hi hl _ => ⟨step_read hi, ?_⟩)))
  refine safeTx_ret (safeTx_seq (safeTx_record hl.next stable_loaded faults_of_inv
    fun v'' hi hl => ⟨step_read hi, ?_⟩))
  refine (safeTx_stretch (J := fun c => Touches ctx row.id sc c ∧ Witnessed c)
    (each_issuePasskeyTokenPairAudited bystander_quiet (bystander_issues user)) hl.next
    stable_loaded hc.after.recorded ⟨fun x => ?_, fun x => ?_⟩
    fun _ _ h hn => ⟨h.1.notes hn, h.2.notes hn⟩).mono fun r c' v' h => ?_
  · -- the statement, carried out on whatever is committed
    simp only [Noted.recorded, Noted.after, hu x]
    split
    · exact ⟨rfl, fun _ => ⟨now, rfl⟩⟩
    · rename_i hno
      refine ⟨rfl, fun ⟨p, hp, hid, howns⟩ => absurd ?_ hno⟩
      exact List.any_eq_true.2 ⟨p, hp, by simp [hid, howns]⟩
  · simp [Noted.recorded, Operation.latched, he]
  · obtain ⟨hl, hc, ht, hw⟩ := h
    cases r with
    | ok a => exact ⟨row, hl, hcl, ht⟩
    | error e => exact .inr ⟨hc, hw⟩

theorem safeTx_completeAuthentication {user : User} (hl : Loaded cid i ctx row v) (hc : c.Calm)
    (hu : Unwritten c) (huser : row.userID = user.id) :
    (protocol cid).SafeTx txPart .call i (Ends cid i ctx sc)
      (completeAuthentication env ctx user row sc ip ua) c v := by
  unfold completeAuthentication
  cases hcl : cloneWarning row.signCount sc with
  | true =>
    refine safeTx_seq ((safeTx_rowIDByCredential hc hu hl huser).mono fun r c' v' h => ?_)
    obtain ⟨-, hc', hu', rfl⟩ := h
    exact safeTx_clone hc' hu'
  | false =>
    refine safeTx_seq ((safeTx_rowIDByCredential hc hu hl huser).mono fun r c' v' h => ?_)
    obtain ⟨hl', hc', hu', rfl⟩ := h
    refine safeTx_seq ((safeTx_stretch (J := Unwritten) (each_getNow reader_basic.other) hl'
      stable_loaded hc' hu' fun _ _ => Unwritten.notes).mono fun r c' v' h => ?_)
    obtain ⟨hl', hc', hu'⟩ := h
    cases r with
    | error e => exact .inl hu'.keeps
    | ok now => exact safeTx_touch rfl hcl hl' hc' hu'

theorem safeTx_finish {challenge : String} :
    (protocol cid).SafeTx txPart .call i (Ends cid i ctx sc)
      (passkeyFinishAuthenticationAudited env ctx userID ⟨challenge, cid, sc⟩ ip ua) opened v := by
  have htriv : (protocol cid).Stable i fun _ => True := fun _ _ _ _ => trivial
  refine safeTx_seq ((safeTx_stretch (J := Unwritten) (each_takeChallenge reader_basic trivial)
    trivial htriv opened_calm unwritten_opened fun _ _ => Unwritten.notes).mono fun r c v h => ?_)
  cases r with
  | error e => exact .inl h.2.2.keeps
  | ok =>
    refine safeTx_seq ((safeTx_loadUser h.2.1 h.2.2).mono fun r c' v' h => ?_)
    obtain ⟨hc, hu, hrows⟩ := h
    cases r with
    | error e => exact .inl hu.keeps
    | ok loaded =>
      obtain ⟨user, rows⟩ := loaded
      obtain ⟨hid, hrows⟩ := hrows user rows rfl
      simp only [thenTx]
      split
      · exact safeTx_fail (.inl hu.keeps)
      · rename_i row hfind
        have hmem := List.mem_of_find?_eq_some hfind
        have hcid : row.credentialID = cid := by
          have := List.find?_some hfind
          simp only [Bool.and_eq_true, decide_eq_true_eq] at this
          exact this.1
        obtain ⟨huser, hl⟩ := hrows row hmem hcid
        exact safeTx_completeAuthentication hl hc hu (huser.trans hid.symm)

/-! ## The commit -/

/-- The call `i` has raised the stored counter to the presented one, or presented zero. -/
def Settled (cid i sc : Nat) (v : TxShared) : Prop :=
  ∃ x ∈ v.hist, x.thread? = some i ∧ ∃ n, stored cid x.pre = some n ∧ stored cid x.post = some sc ∧
    (n < sc ∨ sc = 0)

theorem lt_or_zero {n : Nat} (h : cloneWarning n sc = false) : n < sc ∨ n = 0 ∧ sc = 0 := by
  simp only [cloneWarning, Bool.and_eq_false_iff, decide_eq_false_iff_not, Bool.or_eq_false_iff,
    not_not] at h
  omega

/-- What the commit of a noted counter does. -/
theorem later_of_touches (hi : Inv cid v) (hl : Loaded cid i ctx row v)
    (ht : Touches ctx row.id sc c) (hn : stored cid v.state = some row.signCount)
    (hle : row.signCount ≤ sc) (hdb : w'.db = (c (v.state.db, v.state.op)).1) :
    Later cid v.state w' ∧ stored cid w' = some sc := by
  obtain ⟨p, hp, hsame, howns⟩ := hl.now hi
  obtain ⟨husers, htouch⟩ := ht (v.state.db, v.state.op)
  obtain ⟨t, htouch⟩ := htouch ⟨p, hp, hsame.id, howns⟩
  rw [← hdb] at husers htouch
  have hrows : w'.db.passkeys.rows = v.state.db.passkeys.rows.map fun a =>
      if decide (a.id = row.id) = true then { a with signCount := sc, lastUsedAt := some t }
      else a :=
    congrArg Table.rows htouch
  have hkeys : v.state.db.passkeys.Moves SameKey w'.db.passkeys :=
    Table.moves_of_rows hrows SameKey.refl fun _ _ _ => ⟨rfl, rfl, rfl⟩
  have hmem : { p with signCount := sc, lastUsedAt := some t } ∈ w'.db.passkeys.rows := by
    rw [hrows]
    exact List.mem_map.2 ⟨p, hp, if_pos (decide_eq_true hsame.id)⟩
  have hstored : stored cid w' = some sc :=
    stored_of_mem (distinct_of_moves hi.distinct hkeys) hmem (hsame.credentialID.trans hl.1)
  refine ⟨⟨husers, hkeys, fun n hn' => ⟨sc, hstored, ?_⟩⟩, hstored⟩
  rw [hn] at hn'
  exact Option.some.inj hn' ▸ hle

/-- A commit that leaves every counter. -/
theorem later_of_keeps (hi : Inv cid v) (hk : Keeps c)
    (hdb : w'.db = (c (v.state.db, v.state.op)).1) : Later cid v.state w' := by
  obtain ⟨husers, hmoves⟩ := hk (v.state.db, v.state.op)
  rw [← hdb] at husers hmoves
  have hkeys : v.state.db.passkeys.Moves SameKey w'.db.passkeys :=
    List.Forall₂.imp (fun _ _ h => h.1) hmoves
  refine ⟨husers, hkeys, fun n hn => ⟨n, ?_, Nat.le.refl⟩⟩
  obtain ⟨p, hp, hn⟩ := Option.map_eq_some_iff.1 hn
  obtain ⟨hmem, hcid⟩ := Table.mem_of_first? hp
  obtain ⟨q, hq, hsame, hcount⟩ := Table.exists_of_forall₂ hmoves hmem
  rw [stored_of_mem (distinct_of_moves hi.distinct hkeys) hq
    (hsame.credentialID.trans (by simpa using hcid)), hcount, hn]

/-- **The end of a login**: its commit raises the counter to the presented one, or keeps it. -/
theorem safe_close (h : Ends cid i ctx sc r c v) :
    (protocol cid).Safe i (fun r v => ∀ a, r = .ok a → Settled cid i sc v)
      (.atomic (.close r.isOk) (closeTx c r)) v := by
  refine safe_atomic h stable_ends fun v' hi h hok => ?_
  have hcalm : (closeTx c r v'.state).2.Calm :=
    ⟨closeTx_faults hi.1.calm.faults, hi.1.calm.failure⟩
  rcases closeTx_cases c r v'.state with ⟨hr, hdb, hdenied⟩ | ⟨hdb, e, hr⟩
  · cases r with
    | ok a =>
      obtain ⟨row, hl, hcl, ht⟩ := h
      obtain ⟨-, x, hx, hxi, hxs, -⟩ := id hl
      have hn : stored cid v'.state = some row.signCount := (hok rfl x hx hxi).symm.trans hxs
      have hlt := lt_or_zero hcl
      obtain ⟨hlater, hstored⟩ := later_of_touches hi.1 hl ht hn (by omega) hdb
      exact ⟨step_act hi hcalm hlater, fun _ _ =>
        ⟨_, List.mem_cons_self, rfl, row.signCount, hn, hstored, by omega⟩⟩
    | error e =>
      have hlater : Later cid v'.state (closeTx c (.error e : Except Err α) v'.state).2 := by
        rcases h with hk | ⟨hc, hw⟩
        · exact later_of_keeps hi.1 hk hdb
        · -- after evidence of a success a refusal is rolled back
          have hmay := hdenied e rfl
          have hfail := hc (v'.state.db, v'.state.op)
          have hlatch := hw (v'.state.db, v'.state.op)
          simp [Operation.latched, hfail] at hlatch
          simp [Operation.denialMayCommit, hlatch] at hmay
      exact ⟨step_act hi hcalm hlater, fun _ h => by rw [hr] at h; cases h⟩
  · exact ⟨step_act hi hcalm (later_of_db hdb), fun _ h => by rw [hr] at h; cases h⟩

/-! ## Whole runs -/

/-- What a request that has returned has done. -/
def Done (cid i : Nat) : Job → TxShared → Prop
  | .beginAuthentication _ _, _ => True
  | .finishAuthentication _ _ _ sc _ _, v => Settled cid i sc v

theorem stable_done (j : Job) : (protocol cid).Stable i (Done cid i j) := by
  intro v v' h hr
  cases j with
  | beginAuthentication => trivial
  | finishAuthentication =>
    obtain ⟨x, hx, h⟩ := h
    exact ⟨x, hr hx, h⟩

theorem safe_code (j : Job) :
    (protocol cid).Safe i (fun r v => ∀ a, r = .ok a → Done cid i j v) (code env cid j) v := by
  cases j with
  | beginAuthentication =>
    refine safe_bind (safe_relabel (A := fun _ => True) (P := Acts reader)
      (each_passkeyBeginAuthentication reader_basic trivial) trivial (fun _ _ _ _ => trivial)
      fun l f v' hi _ hacts _ => ⟨step_act hi (hacts.calm hi.1.calm) (later_of_db ?_), trivial⟩)
      (fun _ _ _ _ _ => trivial) fun _ _ _ _ _ => trivial
    rcases hacts.db with hdb | ⟨s, hs, -⟩
    · exact hdb
    · cases hs
  | finishAuthentication =>
    refine safe_bind (safe_auditTx (safeTx_finish.mono fun r c v h => safe_close h))
      (fun a v' h _ _ => h a rfl) fun e v' _ _ h => by cases h

theorem sound (env : Env) : (protocol cid).Sound (code env cid) Outside.apply
    fun i j _ r v => ∀ a, r = .ok a → Done cid i j v where
  env e v hi _ := by
    have hl : Later cid v.state (e.apply v.state) := by cases e <;> exact later_of_same rfl rfl
    have hc : (e.apply v.state).Calm := by
      cases e <;> exact ⟨hi.1.calm.faults, hi.1.calm.failure⟩
    exact ⟨View.Always.env hi ⟨hc, distinct_of_moves hi.1.distinct hl.keys,
      since_cons (x := .env e v.state (e.apply v.state)) hi.1 rfl hl⟩,
      fun _ => List.subset_cons_self _ _⟩
  start _ j _ _ _ := safe_code j
  stable _ j _ _ _ _ h hr a ha := stable_done j (h a ha) hr

/-- The counter of a login that has succeeded. -/
def succeeded? (t : Thread World TxCall Outside Err Reply Job) : Option Nat :=
  match t.job, t.prog with
  | .finishAuthentication _ _ _ sc _ _, .ret _ => some sc
  | _, _ => none

theorem settled_of_succeeded {p : Calls} {t : Thread World TxCall Outside Err Reply Job}
    (hg : (protocol cid).Good (fun i j _ r v => ∀ a, r = .ok a → Done cid i j v) p)
    (ht : p.threads[i]? = some t) (hs : succeeded? t = some sc) : Settled cid i sc p.view := by
  unfold succeeded? at hs
  split at hs
  · rename_i hjob hprog
    obtain rfl := Option.some.inj hs
    have hdone := hg.returned ht hprog _ rfl
    rw [hjob] at hdone
    exact hdone
  · cases hs

/-- Two calls that have raised the counter to the same value have both presented zero. -/
theorem eq_zero_of_settled {j : Nat} (hi : (protocol cid).inv v) (hij : i ≠ j)
    (h : Settled cid i sc v) (h' : Settled cid j sc v) : sc = 0 := by
  -- the counter that the older one left was there when the newer one committed
  have hlast : ∀ x b y n, x :: b <:+ v.hist → y ∈ b → stored cid y.post = some sc →
      stored cid x.pre = some n → n < sc ∨ sc = 0 → sc = 0 := by
    intro x b y n hb hy hys hxs hn
    obtain ⟨m, hm, hle⟩ := ((hi.2 x b hb).since y hy).2.grows sc hys
    rw [hxs] at hm
    obtain rfl := Option.some.inj hm
    omega
  obtain ⟨x, hx, hxi, n, hxn, hxs, hn⟩ := h
  obtain ⟨y, hy, hyj, m, hym, hys, hm⟩ := h'
  rcases older_or_newer hx hy with rfl | ⟨b, hb, hmem⟩ | ⟨b, hb, hmem⟩
  · rw [hxi] at hyj
    exact absurd (Option.some.inj hyj) hij
  · exact hlast x b y n hb hmem hys hxn hn
  · exact hlast y b x m hb hmem hxs hym hm

/-- **Passkey counters of logins in turn**: if every login commits while the stored counter is what
it was at each of its actions, and no repository call fails, the stored counter never decreases and
no two logins that succeed have presented the same non-zero counter. -/
theorem passkey_counter_serial (env : Env) (cid : Nat) (w : World) (hw : w.Calm)
    (hd : Distinct w.db) (ms : List (Move Outside Job))
    (hm : (protocol cid).Admits (code env cid) Outside.apply (Pool.init w : Calls) ms) :
    (∀ x ∈ (run env cid w ms).view.hist, ∀ n, stored cid x.pre = some n →
      ∃ m, stored cid x.post = some m ∧ n ≤ m) ∧
    ∀ (i j : Nat) t t' sc, i ≠ j →
      (run env cid w ms).threads[i]? = some t → (run env cid w ms).threads[j]? = some t' →
      succeeded? t = some sc → succeeded? t' = some sc → sc = 0 := by
  have hinit : (protocol cid).inv ⟨w, []⟩ :=
    View.always_init ⟨hw, hd, fun _ h => by cases h⟩
  have hgood := exec_good (sound env) ms (good_init hinit) hm
  refine ⟨fun x hx => (hgood.inv.1.since x hx).1.grows, ?_⟩
  intro i j t t' sc hij ht ht' hs hs'
  exact eq_zero_of_settled hgood.inv hij (settled_of_succeeded hgood ht hs)
    (settled_of_succeeded hgood ht' hs')

/-! ## Logins in turn, and logins that cross -/

/-- `jose` has one passkey, with the counter 5. -/
def keyWorld : World :=
  { World.sample with db := { World.sample.db with
      passkeys := ⟨[⟨9, 1, 77, 5, "key", none, false⟩], by decide⟩ } }

/-- The call `i` starts and takes `n` actions. -/
def started (i : Nat) (j : Job) (n : Nat) : List (Move Outside Job) :=
  .spawn j :: List.replicate n (.sched i)

/-- Two logins, one after the other. -/
def inTurn : List (Move Outside Job) :=
  [started 0 (.beginAuthentication .sample 1) 4,
    started 1 (.finishAuthentication .sample 1 "100" 6 "" "") 25,
    started 2 (.beginAuthentication .sample 1) 4,
    started 3 (.finishAuthentication .sample 1 "105" 7 "" "") 25].flatten

/-- In turn the counter goes from 5 to 6 and 7. -/
theorem passkey_counter_serial_inTurn :
    stored 77 (run (.plain .sample) 77 keyWorld inTurn).view.state = some 7 ∧
    ∀ x ∈ (run (.plain .sample) 77 keyWorld inTurn).view.hist, ∀ n, stored 77 x.pre = some n →
      ∃ m, stored 77 x.post = some m ∧ n ≤ m :=
  ⟨by decide +kernel, (passkey_counter_serial (.plain .sample) 77 keyWorld ⟨rfl, rfl⟩
    (by unfold Distinct; decide) inTurn (by decide +kernel)).1⟩

/-- Both logins have loaded the counter before the first one commits. -/
def crossing (n m : Nat) : List (Move Outside Job) :=
  [started 0 (.beginAuthentication .sample 1) 4,
    started 1 (.finishAuthentication .sample 1 "100" n "" "") 3,
    started 2 (.beginAuthentication .sample 1) 4,
    started 3 (.finishAuthentication .sample 1 "101" m "" "") 3,
    List.replicate 22 (.sched 1), List.replicate 22 (.sched 3)].flatten

/-- **Logins that cross**: with 7 and 6 the stored counter goes from 7 to 6, and with 6 and 6 both
succeed. -/
theorem passkey_counter_crossing :
    (∃ x ∈ (run (.plain .sample) 77 keyWorld (crossing 7 6)).view.hist,
      stored 77 x.pre = some 7 ∧ stored 77 x.post = some 6) ∧
    ((run (.plain .sample) 77 keyWorld (crossing 6 6)).threads.map fun t => t.prog.isRet) =
      [true, true, true, true] := by
  decide +kernel

end FinnAuth.PasskeyCounter
