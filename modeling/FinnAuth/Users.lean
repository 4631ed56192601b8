import FinnAuth.Actions

/-!
# The user rows under every statement

Which column of a `users` row a statement can change is said once, by `userRow_exec`: an existing
row stays as it is or gets one `UserWrite`, and a new row comes from an insert on a free key. What
the columns keep (versions grow, an inactive account stays inactive) follows from the writes alone.

Results:
* **`userRow_exec`**, `userRow_new`: what a statement does to a row;
* `owns_exec`: a row stays, in its tenant;
* `pwdVersion_exec`, `authEpoch_exec`: no statement lowers a version.
-/

namespace FinnAuth

open Lib

variable {id : UserID} {db : DB} {u : User} {ctx : Ctx} {F : Footprint} {w w' : World}

/-- The write a statement makes to a user row: the tenant it is scoped to, the row, the columns. -/
def Stmt.userWrite? : Stmt → Option (Ctx × UserID × UserWrite)
  | .updateUser ctx id w => some (ctx, id, w)
  | .credentialChange ctx id hashed => some (ctx, id, .credential hashed)
  | .suspend ctx id => some (ctx, id, .suspend)
  | .assignRole ctx id _ => some (ctx, id, .bumpAuthEpoch)
  | _ => none

/-- The row with this id, in whatever tenant. -/
def DB.userRow? (db : DB) (id : UserID) : Option User := db.users.get? id

theorem userRow_of_userByID (h : db.userByID ctx id = some u) : db.userRow? id = some u := by
  obtain ⟨hu, hid, -⟩ := DB.userByID_spec h
  exact (Table.get?_eq_some_iff _).2 ⟨hu, hid⟩

theorem userRow_of_mem (h : u ∈ db.users.rows) : db.userRow? u.id = some u :=
  (Table.get?_eq_some_iff _).2 ⟨h, rfl⟩

theorem userRow_spec (h : db.userRow? id = some u) : u ∈ db.users.rows ∧ u.id = id :=
  (Table.get?_eq_some_iff _).1 h

theorem userRow_updateUser {id uid : UserID} {w : UserWrite} (h : db.userRow? id = some u) :
    (db.updateUser ctx uid w).userRow? id = some u ∨
      uid = id ∧ ctx.tenant = u.tenantID ∧
        (db.updateUser ctx uid w).userRow? id = some (w.apply u) := by
  have hid := (userRow_spec h).2
  unfold DB.userRow? at h ⊢
  simp only [DB.updateUser, Table.get?_update, h, Option.map_some]
  split
  · rename_i hp
    simp only [Bool.and_eq_true, decide_eq_true_eq] at hp
    exact .inr ⟨hp.1.symm.trans hid, hp.2.symm, rfl⟩
  · exact .inl rfl

/-- **What a statement does to a row**: nothing, or one write by its own tenant. -/
theorem userRow_exec (s : Stmt) (h : db.userRow? id = some u) :
    (db.exec s).userRow? id = some u ∨ ∃ ctx w, s.userWrite? = some (ctx, id, w) ∧
      ctx.tenant = u.tenantID ∧ (db.exec s).userRow? id = some (w.apply u) := by
  have hupd : ∀ {db' : DB} {ctx uid w}, s.userWrite? = some (ctx, uid, w) →
      db'.users = (db.updateUser ctx uid w).users → db'.userRow? id = some u ∨
        ∃ ctx w, s.userWrite? = some (ctx, id, w) ∧ ctx.tenant = u.tenantID ∧
          db'.userRow? id = some (w.apply u) := by
    intro db' ctx uid w hs hdb
    have hrow : db'.userRow? id = (db.updateUser ctx uid w).userRow? id := by
      unfold DB.userRow?
      rw [hdb]
    have hcases : (db.updateUser ctx uid w).userRow? id = some u ∨ uid = id ∧
        ctx.tenant = u.tenantID ∧ (db.updateUser ctx uid w).userRow? id = some (w.apply u) :=
      userRow_updateUser h
    rw [hrow]
    rcases hcases with h' | ⟨rfl, ht, h'⟩
    · exact .inl h'
    · exact .inr ⟨ctx, w, hs, ht, h'⟩
  cases s with
  | insertUser x =>
    refine .inl ?_
    unfold DB.userRow? at h ⊢
    simp only [DB.exec]
    cases hins : db.users.insert x with
    | none => exact h
    | some t =>
      rw [Option.getD_some, Table.get?_insert hins]
      split
      · -- the key of the insert is free
        rename_i hid
        obtain ⟨hu, hk⟩ := (Table.get?_eq_some_iff _).1 h
        exact absurd (List.mem_map.2 ⟨u, hu, hk.trans hid.symm⟩) (Table.insert_eq_some hins).1
      · exact h
  | updateUser => exact hupd rfl rfl
  | credentialChange => exact hupd rfl rfl
  | suspend => exact hupd rfl rfl
  | assignRole => exact hupd rfl rfl
  | _ => exact .inl h

/-- A row appears by an insert. -/
theorem userRow_new {s : Stmt} (h : db.userRow? id = none) (h' : (db.exec s).userRow? id = some u) :
    s = .insertUser u ∧ u.id = id := by
  have hupd : ∀ {db' : DB} {ctx uid w}, db'.users = (db.updateUser ctx uid w).users →
      db'.userRow? id ≠ some u := by
    intro db' ctx uid w hdb
    unfold DB.userRow? at h ⊢
    simp only [hdb, DB.updateUser, Table.get?_update, h, Option.map_none]
    exact fun hh => by cases hh
  cases s with
  | insertUser x =>
    unfold DB.userRow? at h h'
    simp only [DB.exec] at h'
    cases hins : db.users.insert x with
    | none =>
      rw [hins, Option.getD_none, h] at h'
      cases h'
    | some t =>
      rw [hins, Option.getD_some, Table.get?_insert hins] at h'
      split at h'
      · rename_i hid
        cases h'
        exact ⟨rfl, hid⟩
      · rw [h] at h'
        cases h'
  | updateUser => exact absurd h' (hupd rfl)
  | credentialChange => exact absurd h' (hupd rfl)
  | suspend => exact absurd h' (hupd rfl)
  | assignRole => exact absurd h' (hupd rfl)
  | _ =>
    rw [show (DB.exec db _).userRow? id = db.userRow? id from rfl, h] at h'
    cases h'

/-- What every write keeps of a row, every statement keeps. -/
theorem userRow_keeps {P : User → User → Prop} (s : Stmt) (h : db.userRow? id = some u)
    (hrefl : P u u) (hwrite : ∀ ctx w, s.userWrite? = some (ctx, id, w) → P u (w.apply u)) :
    ∃ u', (db.exec s).userRow? id = some u' ∧ P u u' := by
  rcases userRow_exec s h with h' | ⟨ctx, w, hs, -, h'⟩
  · exact ⟨u, h', hrefl⟩
  · exact ⟨w.apply u, h', hwrite ctx w hs⟩

/-- The row a write is made to has the columns of the write. -/
theorem userRow_write {w : UserWrite} {s : Stmt} (hs : s.userWrite? = some (ctx, id, w))
    (h : db.userByID ctx id = some u) : (db.exec s).userRow? id = some (w.apply u) := by
  obtain ⟨-, hid, ht⟩ := DB.userByID_spec h
  have hrow := userRow_of_userByID h
  have hupd : (db.updateUser ctx id w).userRow? id = some (w.apply u) := by
    unfold DB.userRow? at hrow ⊢
    simp [DB.updateUser, Table.get?_update, hrow, hid, ht]
  cases s with
  | updateUser => cases hs; exact hupd
  | credentialChange => cases hs; exact hupd
  | suspend c i => cases hs; exact hupd
  | assignRole => cases hs; exact hupd
  | _ => cases hs

/-- A row stays, in its tenant. -/
theorem owns_exec (s : Stmt) (h : db.owns ctx id = true) : (db.exec s).owns ctx id = true := by
  obtain ⟨u, hu, rfl, ht⟩ := DB.owns_iff.1 h
  obtain ⟨u', h', hid, ht'⟩ := userRow_keeps
    (P := fun u u' => u'.id = u.id ∧ u'.tenantID = u.tenantID) s (userRow_of_mem hu) ⟨rfl, rfl⟩
    fun _ w _ => ⟨w.apply_id u, w.apply_tenantID u⟩
  exact DB.owns_iff.2 ⟨u', (userRow_spec h').1, hid, ht'.trans ht⟩

theorem Ran.owns (h : Ran F w w') (ho : w.db.owns ctx id = true) : w'.db.owns ctx id = true :=
  h.keeps (I := fun db => db.owns ctx id = true) (fun _ s _ => owns_exec s) ho

/-! ## Calls on a row that succeed -/

section Gives

variable {α : Type} {Q : α → World → Prop} {ctx : Ctx} {id : UserID} {w : World}

/-- The rest after the lookup of a row. -/
theorem gives_user {f : Option User → M α} (hnone : ∀ w', Gives Q (f none) w')
    (hsome : ∀ user w', w.db.userByID ctx id = some user → Executes none w w' →
      Gives Q (f (some user)) w') : Gives Q (usersFindByID ctx id >>= f) w := by
  refine gives_seq ?_
  unfold usersFindByID query
  refine gives_repo fun a o w₁ ha hex => ?_
  cases ha
  simp only
  cases hu : w.db.userByID ctx id with
  | none => exact hnone w₁
  | some user => exact hsome user w₁ hu hex

theorem gives_usersUpdateUnique {user : User} {conflict : DB → Option String} {x : UserWrite} :
    Gives (fun _ w' => ∃ row, w.db.userByID ctx user.id = some row ∧
      w'.db.userRow? user.id = some (x.apply row) ∧ (w.Calm → w'.Calm))
      (usersUpdateUnique ctx user conflict x) w := by
  refine gives_repo fun _ o w₁ h hex => ?_
  split at h
  · cases h
  · rename_i hc
    split at h
    · cases h
    · cases h
      have ho : w.db.owns ctx user.id = true := by
        simp only [Bool.or_eq_true, not_or, Bool.not_eq_true, Bool.not_eq_false'] at hc
        exact hc.2
      obtain ⟨row, hrow⟩ := Option.isSome_iff_exists.1 ho
      rw [hex.db]
      exact ⟨row, hrow, userRow_write rfl hrow, hex.calm⟩

end Gives

/-! ## Versions -/

/-- The password version of the user, 0 without a row. -/
def DB.pwdVersion (db : DB) (id : UserID) : Nat := ((db.users.get? id).map User.pwdVersion).getD 0

theorem pwdVersion_of_row (h : db.userRow? id = some u) : db.pwdVersion id = u.pwdVersion := by
  unfold DB.userRow? at h
  rw [DB.pwdVersion, h]
  rfl

theorem pwdVersion_of_userByID (h : db.userByID ctx id = some u) :
    db.pwdVersion id = u.pwdVersion :=
  pwdVersion_of_row (userRow_of_userByID h)

theorem UserWrite.pwdVersion_le (w : UserWrite) (u : User) :
    u.pwdVersion ≤ (w.apply u).pwdVersion := by
  cases w <;> simp [UserWrite.apply]

theorem UserWrite.authEpoch_le (w : UserWrite) (u : User) :
    u.authEpoch ≤ (w.apply u).authEpoch := by
  cases w <;> simp [UserWrite.apply]

/-- No statement lowers a column that no write lowers. -/
theorem column_exec {f : User → Nat} (hf : ∀ (x : UserWrite) u, f u ≤ f (x.apply u)) (db : DB)
    (s : Stmt) (id : UserID) :
    ((db.users.get? id).map f).getD 0 ≤ (((db.exec s).users.get? id).map f).getD 0 := by
  cases h : db.userRow? id with
  | none =>
    unfold DB.userRow? at h
    rw [h]
    exact Nat.zero_le _
  | some u =>
    obtain ⟨u', h', hle⟩ := userRow_keeps (P := fun u u' => f u ≤ f u') s h
      (Nat.le_refl _) fun _ w _ => hf w u
    unfold DB.userRow? at h h'
    rw [h, h']
    exact hle

/-- **No statement lowers a password version.** -/
theorem pwdVersion_exec (db : DB) (s : Stmt) (id : UserID) :
    db.pwdVersion id ≤ (db.exec s).pwdVersion id :=
  column_exec UserWrite.pwdVersion_le db s id

/-- The authorisation epoch of the user, 0 without a row. -/
def DB.authEpoch (db : DB) (id : UserID) : Nat := ((db.users.get? id).map User.authEpoch).getD 0

theorem authEpoch_of_row (h : db.userRow? id = some u) : db.authEpoch id = u.authEpoch := by
  unfold DB.userRow? at h
  rw [DB.authEpoch, h]
  rfl

/-- Nor an epoch. -/
theorem authEpoch_exec (db : DB) (s : Stmt) (id : UserID) :
    db.authEpoch id ≤ (db.exec s).authEpoch id :=
  column_exec UserWrite.authEpoch_le db s id

theorem pwdVersion_execOpt (db : DB) (o : Option Stmt) (id : UserID) :
    db.pwdVersion id ≤ (db.execOpt o).pwdVersion id := by
  cases o with
  | none => exact Nat.le_refl _
  | some s => exact pwdVersion_exec db s id

theorem Acts.pwdVersion {l : Call} (h : Acts F l w w') (id : UserID) :
    w.db.pwdVersion id ≤ w'.db.pwdVersion id := by
  rcases h.db with hd | ⟨s, -, hd⟩
  · exact Nat.le_of_eq (by rw [hd])
  · rw [hd]
    exact pwdVersion_exec _ s id

theorem Ran.pwdVersion (h : Ran F w w') (id : UserID) : w.db.pwdVersion id ≤ w'.db.pwdVersion id :=
  h.keeps (I := fun db => w.db.pwdVersion id ≤ db.pwdVersion id)
    (fun db s _ hle => Nat.le_trans hle (pwdVersion_exec db s id)) (Nat.le_refl _)

end FinnAuth
