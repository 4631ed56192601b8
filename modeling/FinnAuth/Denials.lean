import FinnAuth.Footprint.Calls

/-!
# What may be left of a failed call

A service body runs in one transaction. An error rolls it back, with one exception: a denial whose
evidence was admitted is committed, with everything the body wrote before it. `Mild` says what may
be left then: lockout counters, revocations, the re-seal of a legacy secret, and evidence.

A body keeps the promise in one of three ways, and goes from one to the next as it proceeds: it has
made only mild writes so far; it has admitted nothing, so that a denial does not commit (`tacit`);
it has admitted a success or failed to admit something, so that no denial commits (`latched`).

Results:
* `mild_exec`, `mild_reseal`: the mild writes;
* `ends_mild`, `ends_tacit`, `ends_latched`: the three phases;
* **`mild_of_ends`**: what the end of the operation makes of them.
-/

namespace FinnAuth

open Lib Prog

variable {α β : Type} {env : Env} {ctx : Ctx} {ip ua : String}

/-! ## What a failed call may leave -/

variable {db : DB}

/-- The row differs in its lockout columns only. -/
def User.Relocked (u u' : User) : Prop :=
  u' = { u with failedLoginAttempts := u'.failedLoginAttempts, lockedUntil := u'.lockedUntil }

/-- The row was revoked, or is as it was. -/
def Session.Revokes : Session → Session → Prop := Table.Once fun s => { s with revoked := true }

def RefreshToken.Revokes : RefreshToken → RefreshToken → Prop :=
  Table.Once fun t => { t with revoked := true }

def PasskeyCredential.Revokes : PasskeyCredential → PasskeyCredential → Prop :=
  Table.Once fun c => { c with revoked := true }

/-- The legacy secret, whose sealed copy cannot be opened, was sealed again. -/
def TOTPDevice.Reseals (env : Env) (d d' : TOTPDevice) : Prop :=
  d' = d ∨ d.secret ≠ "" ∧ env.decrypt d.secretEncrypted = none ∧
    ∃ nonce, d' = { d with secretEncrypted := env.encrypt nonce d.secret }

/-- **What a failed call may leave in the database.** No table has a new row but the evidence and
the revocations of access tokens, and no row changed but as said. -/
structure Mild (env : Env) (db db' : DB) : Prop where
  users : db.users.Moves User.Relocked db'.users
  sessions : db.sessions.Moves Session.Revokes db'.sessions
  refreshTokens : db.refreshTokens.Moves RefreshToken.Revokes db'.refreshTokens
  usedTokens : db'.usedTokens = db.usedTokens
  totpDevices : db.totpDevices.Moves (TOTPDevice.Reseals env) db'.totpDevices
  recoveryCodes : db'.recoveryCodes = db.recoveryCodes
  oauthIdentities : db'.oauthIdentities = db.oauthIdentities
  passkeys : db.passkeys.Moves PasskeyCredential.Revokes db'.passkeys
  accessRevocations : ∀ r ∈ db.accessRevocations.rows, r ∈ db'.accessRevocations.rows
  tenants : db'.tenants = db.tenants
  permissions : db'.permissions = db.permissions
  roles : db'.roles = db.roles
  rolePermissions : db'.rolePermissions = db.rolePermissions
  userRoles : db'.userRoles = db.userRoles
  auditLogs : db.auditLogs <+: db'.auditLogs

theorem User.Relocked.refl (u : User) : u.Relocked u := rfl

theorem User.Relocked.trans {a b c : User} (h : a.Relocked b) (h' : b.Relocked c) :
    a.Relocked c := by
  unfold Relocked at *
  rw [h', h]

theorem TOTPDevice.Reseals.trans {a b c : TOTPDevice} (h : a.Reseals env b)
    (h' : b.Reseals env c) : a.Reseals env c := by
  rcases h with rfl | ⟨hs, hd, n, rfl⟩
  · exact h'
  · rcases h' with rfl | ⟨-, hd', -⟩
    · exact .inr ⟨hs, hd, n, rfl⟩
    · -- what was sealed can be opened
      rw [env.decrypt_encrypt] at hd'
      cases hd'

theorem Session.Revokes.trans {a b c : Session} : a.Revokes b → b.Revokes c → a.Revokes c :=
  Table.Once.trans (f := fun s : Session => { s with revoked := true }) fun _ => rfl

theorem RefreshToken.Revokes.trans {a b c : RefreshToken} :
    a.Revokes b → b.Revokes c → a.Revokes c :=
  Table.Once.trans (f := fun t : RefreshToken => { t with revoked := true }) fun _ => rfl

theorem PasskeyCredential.Revokes.trans {a b c : PasskeyCredential} :
    a.Revokes b → b.Revokes c → a.Revokes c :=
  Table.Once.trans (f := fun c : PasskeyCredential => { c with revoked := true }) fun _ => rfl

theorem Mild.refl (db : DB) : Mild env db db where
  users := .refl User.Relocked.refl _
  sessions := .refl (fun _ => .inl rfl) _
  refreshTokens := .refl (fun _ => .inl rfl) _
  usedTokens := rfl
  totpDevices := .refl (fun _ => .inl rfl) _
  recoveryCodes := rfl
  oauthIdentities := rfl
  passkeys := .refl (fun _ => .inl rfl) _
  accessRevocations _ h := h
  tenants := rfl
  permissions := rfl
  roles := rfl
  rolePermissions := rfl
  userRoles := rfl
  auditLogs := List.prefix_rfl

theorem Mild.trans {a b c : DB} (h : Mild env a b) (h' : Mild env b c) : Mild env a c where
  users := h.users.trans h'.users User.Relocked.trans
  sessions := h.sessions.trans h'.sessions Session.Revokes.trans
  refreshTokens := h.refreshTokens.trans h'.refreshTokens RefreshToken.Revokes.trans
  usedTokens := h'.usedTokens.trans h.usedTokens
  totpDevices := h.totpDevices.trans h'.totpDevices TOTPDevice.Reseals.trans
  recoveryCodes := h'.recoveryCodes.trans h.recoveryCodes
  oauthIdentities := h'.oauthIdentities.trans h.oauthIdentities
  passkeys := h.passkeys.trans h'.passkeys PasskeyCredential.Revokes.trans
  accessRevocations r hr := h'.accessRevocations r (h.accessRevocations r hr)
  tenants := h'.tenants.trans h.tenants
  permissions := h'.permissions.trans h.permissions
  roles := h'.roles.trans h.roles
  rolePermissions := h'.rolePermissions.trans h.rolePermissions
  userRoles := h'.userRoles.trans h.userRoles
  auditLogs := h.auditLogs.trans h'.auditLogs

/-! ## Mild statements -/

/-- Evidence, lockout counters and revocations. -/
def mildKinds : List Kind :=
  [.audit, .failedAttempt, .resetFailed, .revokeSessions, .casToken, .revokeTokens,
    .accessRevocation, .revokePasskeys]

theorem mild_updateUser {id : UserID} {x : UserWrite} (hx : ∀ u : User, u.Relocked (x.apply u)) :
    Mild env db (db.updateUser ctx id x) :=
  { Mild.refl db with users := Table.moves_of_rows rfl User.Relocked.refl fun u _ _ => hx u }

theorem mild_revokeSessions (p : Session → Bool) : Mild env db (db.revokeSessions p) :=
  { Mild.refl db with
    sessions := Table.moves_of_rows rfl (fun _ => .inl rfl) fun _ _ _ => .inr rfl }

theorem mild_revokeTokens (p : RefreshToken → Bool) : Mild env db (db.revokeTokens p) :=
  { Mild.refl db with
    refreshTokens := Table.moves_of_rows rfl (fun _ => .inl rfl) fun _ _ _ => .inr rfl }

theorem mild_exec {s : Stmt} (h : s.kind ∈ mildKinds) : Mild env db (db.exec s) := by
  cases s with
  | updateUser ctx id x =>
    cases x with
    | failedAttempt t => exact mild_updateUser fun _ => rfl
    | resetFailed => exact mild_updateUser fun _ => rfl
    | _ => exact absurd h (by simp [Stmt.kind, UserWrite.kind, mildKinds])
  | revokeSessions p => exact mild_revokeSessions p
  | casToken id => exact mild_revokeTokens _
  | revokeTokens p => exact mild_revokeTokens p
  | insertAccessRevocation r =>
    refine { Mild.refl db with accessRevocations := fun x hx => ?_ }
    simp only [DB.exec]
    cases hi : db.accessRevocations.insert r with
    | none => exact hx
    | some t => exact (Table.mem_insert hi).2 (.inl hx)
  | insertAudit e => exact { Mild.refl db with auditLogs := List.prefix_append _ _ }
  | revokePasskeys p =>
    exact { Mild.refl db with
      passkeys := Table.moves_of_rows rfl (fun _ => .inl rfl) fun _ _ _ => .inr rfl }
  | _ => exact absurd h (by simp [Stmt.kind, mildKinds])

/-- The update of a stored device by its own row with the secret sealed again. -/
theorem mild_reseal {d : TOTPDevice} {nonce : Nat} (hd : d ∈ db.totpDevices.rows)
    (hs : d.secret ≠ "") (hopen : env.decrypt d.secretEncrypted = none) : Mild env db
      (db.exec (.updateDevice { d with secretEncrypted := env.encrypt nonce d.secret })) := by
  refine { (Mild.refl db : Mild env db db) with
    totpDevices := Table.moves_of_rows rfl (fun _ => .inl rfl) fun r hr hp => ?_ }
  simp only [Bool.and_eq_true, decide_eq_true_eq] at hp
  obtain rfl : r = d := db.totpDevices.eq_of_key_eq hr hd hp.2
  exact .inr ⟨hs, hopen, nonce, rfl⟩

/-- Any label, mail and key, and the mild statements. -/
def mild : Footprint where
  label _ := True
  stmt s := s.kind ∈ mildKinds
  mail _ := True
  key _ := True

theorem mild_quiet : mild.Quiet :=
  ⟨⟨trivial, fun _ => trivial, fun _ => trivial, fun _ _ => trivial⟩,
    fun _ => by simp [mild, Stmt.kind, mildKinds], fun _ _ => trivial⟩

theorem mild_revokes : mild.Revokes :=
  ⟨fun _ => by simp [mild, Stmt.kind, mildKinds], fun _ => by simp [mild, Stmt.kind, mildKinds]⟩

theorem mild_consumes : mild.Consumes :=
  ⟨fun _ => trivial, fun _ => by simp [mild, Stmt.kind, mildKinds]⟩

theorem Ran.mild {w w' : World} (h : Ran FinnAuth.mild w w') : Mild env w.db w'.db :=
  h.keeps (I := Mild env w.db) (fun _ _ hs hd => hd.trans (mild_exec hs)) (.refl _)

/-! ## How a body may end -/

/-- An error comes after mild writes only, or in an operation that is rolled back. -/
def Outcome (env : Env) (db : DB) (P : α → World → Prop) : Except Err α → World → Prop
  | .ok a, w => P a w
  | .error _, w => Mild env db w.db ∨ w.op.undone = true

/-- The body ends so, and with `P` if it succeeds. -/
def Ends (env : Env) (db : DB) (P : α → World → Prop) (p : M α) (w : World) : Prop :=
  wp p (Outcome env db P) w

variable {db : DB} {P : α → World → Prop} {w : World} {p : M α} {e : Err}

theorem latched_undone {o : Operation} (h : o.latched = true) : o.undone = true := by
  simp only [Operation.latched, Operation.undone, Operation.denialMayCommit, Bool.or_eq_true,
    Bool.not_eq_true', Bool.and_eq_false_iff, Bool.not_eq_false'] at *
  exact h.imp_right .inr

theorem ends_seq {Q : β → World → Prop} {f : α → M β}
    (h : Ends env db (fun a w' => Ends env db Q (f a) w') p w) : Ends env db Q (p >>= f) w := by
  refine wp_seq (wp_mono h fun r w' h' => ?_)
  cases r with
  | error e => exact h'
  | ok a => exact h'

theorem ends_ret {a : α} (h : P a w) : Ends env db P (.ret a) w := h

theorem ends_fail (h : Mild env db w.db ∨ w.op.undone = true) : Ends env db P (.fail e) w := h

/-- **The first phase**: only mild writes. -/
theorem ends_mild (hp : Each (Acts mild) p) (hw : Mild env db w.db)
    (h : ∀ a w', Mild env db w'.db → P a w') : Ends env db P p w := by
  refine wp_of_within (within_of_each hp) fun r w' hr => ?_
  have hm : Mild env db w'.db := hw.trans hr.mild
  cases r with
  | error e => exact .inl hm
  | ok a => exact h a w' hm

/-- Any statement but the evidence. -/
def tacit : Footprint where
  label _ := True
  stmt s := s.kind ≠ .audit
  mail _ := True
  key _ := True

theorem tacit_basic : tacit.Basic :=
  ⟨trivial, fun _ => trivial, fun _ => trivial, fun _ _ => trivial⟩

theorem tacit_op (hp : Each (Acts tacit) p) (w : World) : (p.run w).2.op = w.op :=
  op_of_each hp (fun _ h => h rfl) w

/-- **The second phase**: nothing is admitted, and an error leaves nothing behind. -/
theorem ends_tacit (hp : Each (Acts tacit) p) (hw : w.op.undone = true)
    (h : ∀ a w', w'.op.undone = true → P a w') : Ends env db P p w := by
  have hop := tacit_op hp w
  unfold Ends wp
  cases hr : (p.run w).1 with
  | error e =>
    refine .inr ?_
    rw [hop]
    exact hw
  | ok a => exact h a _ (by rw [hop]; exact hw)

/-- **The third phase**: no denial can commit any more, whatever is written. -/
theorem ends_latched (hp : Each (Acts anything) p) (hw : w.op.latched = true) (h : ∀ a w', P a w') :
    Ends env db P p w := by
  have hl : (p.run w).2.op.latched = true :=
    run_of_each (R := fun w w' : World => w.op.latched = true → w'.op.latched = true)
      (fun _ h => h) (fun h h' hl => h' (h hl)) (hp.mono fun _ _ _ ha => ha.latch) w hw
  unfold Ends wp
  cases (p.run w).1 with
  | error e => exact .inr (latched_undone hl)
  | ok a => exact h a _

/-- Evidence of a success starts the third phase. -/
theorem ends_evidence {P : Unit → World → Prop} {e : AuditLog} (he : e.success = true)
    (h : ∀ w', w'.op.latched = true → P () w') : Ends env db P (record ctx e) w := by
  unfold Ends
  rw [record, wp_call]
  refine h _ ?_
  simp only
  split
  · rfl
  · simp [Operation.latched, he]

/-- Mild writes without evidence. -/
def gentle : Footprint where
  label _ := True
  stmt s := s.kind ∈ mildKinds ∧ s.kind ≠ .audit
  mail _ := True
  key _ := True

theorem gentle_basic : gentle.Basic :=
  ⟨trivial, fun _ => trivial, fun _ => trivial, fun _ _ => trivial⟩

/-- Nothing was admitted so far and all writes were mild. -/
structure Clean (env : Env) (db : DB) (w : World) : Prop where
  mild : Mild env db w.db
  op : w.op = {}

theorem Clean.undone (h : Clean env db w) : w.op.undone = true := by
  rw [h.op]
  rfl

/-- A stretch of the first phase without evidence. -/
theorem ends_gentle (hp : Each (Acts gentle) p) (hw : Clean env db w)
    (h : ∀ a w', Clean env db w' → P a w') : Ends env db P p w := by
  have hop : (p.run w).2.op = w.op := op_of_each hp (fun _ h => h.2 rfl) w
  have hrun := within_of_each hp w
  have hm : Mild env db (p.run w).2.db :=
    hrun.keeps (I := Mild env db) (fun _ _ hs hd => hd.trans (mild_exec hs.1)) hw.mild
  unfold Ends wp
  cases (p.run w).1 with
  | error e => exact .inl hm
  | ok a => exact h a _ ⟨hm, hop.trans hw.op⟩

/-- No statement at all. -/
def idle : Footprint := ⟨fun _ => True, fun _ => False, fun _ => True, fun _ => True⟩

/-- A stretch that leaves the database alone. -/
theorem ends_idle (hp : Each (Acts idle) p) (hw : Clean env db w)
    (h : ∀ a w', w'.db = w.db → Clean env db w' → P a w') : Ends env db P p w := by
  have hop : (p.run w).2.op = w.op := op_of_each hp (fun _ h => h) w
  have hdb : (p.run w).2.db = w.db := (within_of_each hp w).same (f := id) fun _ _ h => h.elim
  unfold Ends wp
  cases (p.run w).1 with
  | error e => exact .inl (by rw [hdb]; exact hw.mild)
  | ok a => exact h a _ hdb ⟨by rw [hdb]; exact hw.mild, hop.trans hw.op⟩

theorem ends_refuse {P : Unit → World → Prop} {c : Bool}
    (hw : Mild env db w.db ∨ w.op.undone = true) (h : P () w) : Ends env db P (refuse c e) w := by
  cases c
  · exact h
  · exact hw

/-- A refusal with its evidence. -/
theorem ends_refuseAfter {P : Unit → World → Prop} {c : Bool} {p : M Unit} (hp : Each (Acts mild) p)
    (hw : Mild env db w.db) (h : P () w) : Ends env db P (refuseAfter c p e) w := by
  cases c
  · exact h
  · exact ends_seq (ends_mild hp hw fun _ _ hm => ends_fail (.inl hm))

/-- A read in the first phase. -/
theorem ends_query {l : Call} {f : DB → α} (hw : Clean env db w)
    (h : ∀ w', w'.db = w.db → Clean env db w' → P (f w.db) w') :
    Ends env db P (query l f) w := by
  refine wp_executes fun r o w' hr hex => ?_
  have hdb : o = none → w'.db = w.db := fun ho => by rw [hex.db, ho, DB.execOpt]
  rcases hr with ⟨rfl, ho⟩ | hr
  · exact .inl (by rw [hdb ho]; exact hw.mild)
  · cases hr
    exact h w' (hdb rfl) ⟨by rw [hdb rfl]; exact hw.mild, hex.op.trans hw.op⟩

/-- **The end of the operation**: a failed call has left mild writes, or nothing. -/
theorem mild_of_ends (h : Ends env w.db P p { w with op := {} }) :
    wp (runAuditOperation p) (fun r w' => ∀ e, r = .error e → Mild env w.db w'.db) w := by
  rw [wp_runAuditOperation]
  refine wp_mono h fun r w₁ h₁ e he => ?_
  have hop : w₁.fault.2.op = w₁.op := (executes_fault w₁).op
  unfold closeAudit at he ⊢
  rcases hw₁ : w₁.fault with ⟨failed, w₂⟩
  have hdb : w₂.db = w₁.db := by simpa [hw₁] using fault_db w₁
  rw [hw₁] at he hop
  simp only at he hop ⊢
  by_cases hfail : (w₂.op.failure || failed) = true
  · rw [if_pos hfail]
    exact .refl _
  · rw [if_neg hfail] at he ⊢
    cases r with
    | ok a => cases he
    | error e' =>
      simp only at he ⊢
      by_cases hcommit : (auditDenial e' && w₂.op.denialMayCommit) = true
      · -- the evidence of a denial is committed
        rw [if_pos hcommit]
        rcases h₁ with hm | hu
        · simpa [hdb] using hm
        · simp only [Bool.or_eq_true, not_or, Bool.not_eq_true, Bool.and_eq_true] at hfail hcommit
          rw [← hop, Operation.undone, hfail.1, hcommit.2] at hu
          cases hu
      · rw [if_neg hcommit]
        exact .refl _

end FinnAuth
