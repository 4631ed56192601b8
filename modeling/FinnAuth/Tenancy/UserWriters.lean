import FinnAuth.Lib.Run
import FinnAuth.Tenancy.Scope

/-!
# The writers of the `users` rows

Fourteen calls write `users`: twelve methods of the repository, the assignment of a role and
`Authority.Suspend`. Each is one `UPDATE` on the row with an id in the tenant of its context, in a
transaction of its own, which holds the row until it commits. An interleaving of such calls is
therefore, as far as `users` goes, a sequence of them, in which a call may also fail for a reason
of its own; before each call the other tables may have been changed in any way.

The structs the calls are handed are arbitrary. `UserWriter.owned` is the list of columns a writer
may change; the tests on stale snapshots expect these and no others.

Results:
* `users_perform`: what a call does to `users`;
* `updateRow_exec`: a writer of the service model is the statement it is there;
* **`user_writers_safe`**: in every run each call writes its own columns on its own row, and the
  security state of a row only moves forward.
-/

namespace FinnAuth.Tenancy

open Lib

/-! ## The writers -/

/-- `Authority.Suspend`. -/
def suspend (d : Dialect) (ctx : Ctx) (id : UserID) : Method Unit :=
  transaction (andThen
    (userSlot.updateFound d ctx .inactive (fun u => u.id = id) (fun u => u.id = id)
      UserWrite.suspend.apply (UserWrite.apply_id _))
    (sessionSlot.update d ctx (fun s => s.userID = id) SessionRepository.revoke
      SessionRepository.revoke_id))

/-- A call of a writer with its arguments. -/
inductive UserWriter : Type where
  | update (user : User)
  | updateEmail (user : User)
  | deactivate (id : UserID)
  | erase (user : User)
  | updatePassword (user : User) (hashedPassword : String)
  | incrementFailedAttempts (user : User) (lockUntil : Option Nat)
  | resetFailedAttempts (user : User)
  | setEmailVerified (user : User) (verified : Bool)
  | bumpPwdVersion (id : UserID)
  | credentialChangeTx (id : UserID) (hashedPassword : String)
  | setFirstPassword (id : UserID) (hashedPassword : String)
  | setLock (id : UserID) (lockedUntil : Option Nat)
  | suspend (id : UserID)
  | assignRoleToUser (id : UserID) (roleID : Nat)

namespace UserWriter

/-- The call under the context. -/
def perform (d : Dialect) (ctx : Ctx) : UserWriter → Method Unit
  | update user => UserRepository.update d ctx user
  | updateEmail user => UserRepository.updateEmail d ctx user
  | deactivate id => UserRepository.deactivate d ctx id
  | erase user => UserRepository.erase d ctx user
  | updatePassword user hashed => UserRepository.updatePassword d ctx user hashed
  | incrementFailedAttempts user lockUntil =>
    UserRepository.incrementFailedAttempts d ctx user lockUntil
  | resetFailedAttempts user => UserRepository.resetFailedAttempts d ctx user
  | setEmailVerified user verified => UserRepository.setEmailVerified d ctx user verified
  | bumpPwdVersion id => UserRepository.bumpPwdVersion d ctx id
  | credentialChangeTx id hashed =>
    UserRepository.credentialChangeTx d ctx id hashed (revokeRefresh d ctx id)
  | setFirstPassword id hashed => (UserRepository.setFirstPassword d ctx id hashed).map fun _ => ()
  | setLock id lockedUntil => UserRepository.setLock d ctx id lockedUntil
  | suspend id => Tenancy.suspend d ctx id
  | assignRoleToUser id roleID => RBACRepository.assignRoleToUser d ctx id roleID

/-- The id the call is given. -/
def target : UserWriter → UserID
  | update user | updateEmail user | erase user | updatePassword user _
  | incrementFailedAttempts user _ | resetFailedAttempts user | setEmailVerified user _ => user.id
  | deactivate id | bumpPwdVersion id | credentialChangeTx id _ | setFirstPassword id _
  | setLock id _ | suspend id | assignRoleToUser id _ => id

/-- The columns the `UPDATE` sets. -/
def change : UserWriter → User → User
  | update user => fun u => { u with username := user.username, fullName := user.fullName }
  | updateEmail user => (UserWrite.email user.email user.isEmailVerified).apply
  | deactivate _ => UserWrite.deactivate.apply
  | erase user => (UserWrite.erase user.email user.username).apply
  | updatePassword _ hashed => fun u => { u with password := hashed }
  | incrementFailedAttempts _ lockUntil => (UserWrite.failedAttempt lockUntil).apply
  | resetFailedAttempts _ => UserWrite.resetFailed.apply
  | setEmailVerified _ verified => (UserWrite.emailVerified verified).apply
  | bumpPwdVersion _ => UserWrite.bumpPwdVersion.apply
  | credentialChangeTx _ hashed => (UserWrite.credential hashed).apply
  | setFirstPassword _ hashed => (UserWrite.firstPassword hashed).apply
  | setLock _ lockedUntil => (UserWrite.lock lockedUntil).apply
  | suspend _ => UserWrite.suspend.apply
  | assignRoleToUser _ _ => UserWrite.bumpAuthEpoch.apply

/-- The condition of the `UPDATE` besides id and tenant. -/
def guard (d : Dialect) : UserWriter → User → Bool
  | setFirstPassword _ _, u => d.collate u.password ""
  | _, _ => true

theorem change_id (w : UserWriter) (u : User) : (w.change u).id = u.id := by
  cases w <;> rfl

end UserWriter

section Effect

variable {d : Dialect} {ctx : Ctx} {T : Tables} {t : Table User.id}

/-- The `UPDATE` of the writer on the table. -/
def UserWriter.write (d : Dialect) (ctx : Ctx) (w : UserWriter) (t : Table User.id) :
    Table User.id :=
  t.update (fun u => ofTenant d ctx u.tenantID && (u.id = w.target && w.guard d u)) w.change
    w.change_id

theorem users_scopeTenant {α : Type} {requested : String} {m : Method α}
    (h : (m T).2.users = T.users ∨ (m T).2.users = t) :
    (scopeTenant ctx requested m T).2.users = T.users ∨
      (scopeTenant ctx requested m T).2.users = t := by
  unfold scopeTenant
  split
  · exact .inl rfl
  · exact h

theorem users_updateRow {id : UserID} {email username : Option String} {f : User → User}
    {hf : ∀ u, (f u).id = u.id} :
    (UserRepository.updateRow d ctx id email username f hf T).2.users = T.users ∨
      (UserRepository.updateRow d ctx id email username f hf T).2.users =
        T.users.update (fun u => ofTenant d ctx u.tenantID && (u.id = id && true)) f hf := by
  simp only [Bool.and_true]
  unfold UserRepository.updateRow
  split
  · exact .inl rfl
  · split
    · exact .inl rfl
    · exact .inr rfl

/-- With byte-wise comparison, an update without a unique index is the statement of the service
model. -/
theorem updateRow_exec (ctx : Ctx) (id : UserID) (w : UserWrite) (T : Tables) :
    (UserRepository.updateRow bytes ctx id none none w.apply w.apply_id T).2.toDB =
      T.toDB.exec (.updateUser ctx id w) := by
  have hsame : (fun u : User => ofTenant bytes ctx u.tenantID && decide (u.id = id)) =
      fun u => decide (u.id = id) && decide (u.tenantID = ctx.tenant) := by
    funext u
    exact Bool.and_comm _ _
  unfold UserRepository.updateRow
  split
  · rename_i hnone
    have hfind : ∀ u ∈ T.users.rows, (decide (u.id = id) && decide (u.tenantID = ctx.tenant)) =
        false := by
      rw [List.isEmpty_iff, Slot.rows, List.filter_eq_nil_iff] at hnone
      intro u hu
      rw [← congrFun hsame u]
      simpa only [userSlot, Bool.not_eq_true] using hnone u hu
    rw [DB.exec, DB.updateUser, Table.update_eq_self hfind]
  · have hconflict : UserRepository.conflict bytes ctx id none none T = none := rfl
    rw [hconflict]
    simp only [Slot.update, userSlot, hsame, DB.exec, DB.updateUser]

/-- A transaction whose later statements leave `users`. -/
theorem users_transaction {m n : Method Unit} (hm : (m T).2.users = T.users ∨ (m T).2.users = t)
    (hn : ∀ T', (n T').2.users = T'.users) : (transaction (andThen m n) T).2.users = T.users ∨
      (transaction (andThen m n) T).2.users = t := by
  rcases transaction_snd (andThen m n) T with h | h <;> rw [h]
  · exact .inl rfl
  · unfold andThen
    split
    · rename_i h
      rwa [h] at hm
    · rename_i h
      rw [h] at hm
      rw [hn]
      exact hm

/-- **What a call does to `users`**: nothing, or its `UPDATE`. -/
theorem users_perform (d : Dialect) (ctx : Ctx) (T : Tables) (w : UserWriter) :
    (w.perform d ctx T).2.users = T.users ∨
      (w.perform d ctx T).2.users = w.write d ctx T.users := by
  cases w with
  | update user => exact users_scopeTenant users_updateRow
  | updateEmail user => exact users_scopeTenant users_updateRow
  | erase user => exact users_scopeTenant users_updateRow
  | deactivate id => exact users_updateRow
  | updatePassword => exact users_updateRow
  | incrementFailedAttempts => exact users_updateRow
  | resetFailedAttempts user => exact users_updateRow
  | setEmailVerified => exact users_updateRow
  | bumpPwdVersion id => exact users_updateRow
  | setLock => exact users_updateRow
  | credentialChangeTx => exact users_transaction users_updateRow fun _ => rfl
  | setFirstPassword => exact .inr rfl
  | suspend id =>
    refine users_transaction ?_ fun _ => rfl
    unfold Slot.updateFound
    split
    · exact .inl rfl
    · refine .inr ?_
      simp only [UserWriter.write, UserWriter.target, UserWriter.guard, Bool.and_true]
      rfl
  | assignRoleToUser id =>
    change (requireOwner d ctx id _ T).2.users = _ ∨ (requireOwner d ctx id _ T).2.users = _
    unfold requireOwner
    split
    · dsimp only
      split
      · exact .inl rfl
      · split
        · exact .inl rfl
        · refine .inr ?_
          simp only [UserWriter.write, UserWriter.target, UserWriter.guard, Bool.and_true]
          rfl
    · exact .inl rfl

end Effect

/-! ## Columns -/

/-- The columns of `users`. -/
inductive Column : Type where
  | id
  | tenantID
  | username
  | email
  | password
  | fullName
  | role
  | isActive
  | isEmailVerified
  | failedLoginAttempts
  | lockedUntil
  | authEpoch
  | adminSuspended
  | pwdVersion
  deriving DecidableEq

/-- The rows have the same value in the column. -/
def Column.Agree (u v : User) : Column → Prop
  | id => u.id = v.id
  | tenantID => u.tenantID = v.tenantID
  | username => u.username = v.username
  | email => u.email = v.email
  | password => u.password = v.password
  | fullName => u.fullName = v.fullName
  | role => u.role = v.role
  | isActive => u.isActive = v.isActive
  | isEmailVerified => u.isEmailVerified = v.isEmailVerified
  | failedLoginAttempts => u.failedLoginAttempts = v.failedLoginAttempts
  | lockedUntil => u.lockedUntil = v.lockedUntil
  | authEpoch => u.authEpoch = v.authEpoch
  | adminSuspended => u.adminSuspended = v.adminSuspended
  | pwdVersion => u.pwdVersion = v.pwdVersion

/-- The columns a writer owns. -/
def UserWriter.owned : UserWriter → List Column
  | update _ => [.username, .fullName]
  | updateEmail _ => [.email, .isEmailVerified]
  | deactivate _ => [.isActive]
  | erase _ => [.email, .username, .password, .fullName, .isActive, .isEmailVerified]
  | updatePassword _ _ => [.password]
  | incrementFailedAttempts _ _ => [.failedLoginAttempts, .lockedUntil]
  | resetFailedAttempts _ => [.failedLoginAttempts, .lockedUntil]
  | setEmailVerified _ _ => [.isEmailVerified]
  | bumpPwdVersion _ => [.pwdVersion]
  | credentialChangeTx _ _ => [.password, .failedLoginAttempts, .lockedUntil, .pwdVersion]
  | setFirstPassword _ _ => [.password]
  | setLock _ _ => [.lockedUntil, .failedLoginAttempts]
  | suspend _ => [.adminSuspended, .authEpoch, .pwdVersion]
  | assignRoleToUser _ _ => [.authEpoch]

theorem UserWriter.change_agree (w : UserWriter) (u : User) (c : Column) (hc : c ∉ w.owned) :
    c.Agree u (w.change u) := by
  cases w <;> cases c <;> first | rfl | exact absurd (by simp [owned]) hc

/-- The security state of the row has not moved back. -/
structure Forward (u v : User) : Prop where
  id : v.id = u.id
  pwdVersion : u.pwdVersion ≤ v.pwdVersion
  authEpoch : u.authEpoch ≤ v.authEpoch
  adminSuspended : u.adminSuspended = true → v.adminSuspended = true
  isActive : u.isActive = false → v.isActive = false

theorem Forward.refl (u : User) : Forward u u :=
  ⟨rfl, Nat.le_refl _, Nat.le_refl _, fun h => h, fun h => h⟩

theorem Forward.trans {u v w : User} (h : Forward u v) (h' : Forward v w) : Forward u w :=
  ⟨h'.id.trans h.id, Nat.le_trans h.pwdVersion h'.pwdVersion, Nat.le_trans h.authEpoch h'.authEpoch,
    fun hu => h'.adminSuspended (h.adminSuspended hu), fun hu => h'.isActive (h.isActive hu)⟩

theorem UserWriter.change_forward (w : UserWriter) (u : User) : Forward u (w.change u) := by
  refine ⟨w.change_id u, ?_, ?_, ?_, ?_⟩ <;> cases w <;>
    first | exact Nat.le_refl _ | exact Nat.le_succ _ | exact fun h => h | exact fun _ => rfl

/-! ## Runs -/

/-- A call of a writer in a run. `commits` is whether nothing from outside makes it fail, and
`between` is what happens to the other tables before it. -/
structure WriterCall where
  ctx : Ctx
  writer : UserWriter
  commits : Bool
  between : Tables → Tables
  users_between : ∀ T, (between T).users = T.users

/-- One call of a run. -/
def WriterCall.take (d : Dialect) (c : WriterCall) (T : Tables) : Except Err Unit × Tables :=
  if c.commits then c.writer.perform d c.ctx (c.between T) else (.error .db, c.between T)

/-- What a call may do to a row: nothing, or on the row with its id in its tenant, change columns
it owns; and a first password only where none is stored. -/
def WriterCall.May (d : Dialect) (c : WriterCall) (u v : User) : Prop :=
  v = u ∨
    u.id = c.writer.target ∧ ofTenant d c.ctx u.tenantID = true ∧
    (∀ column, column ∉ c.writer.owned → column.Agree u v) ∧
    (∀ id hashed, c.writer = .setFirstPassword id hashed → storedPassword u.password = true →
      u.password = "") ∧ Forward u v

theorem WriterCall.May.forward {d : Dialect} {c : WriterCall} {u v : User} (h : c.May d u v) :
    Forward u v := by
  rcases h with rfl | h
  · exact .refl v
  · exact h.2.2.2.2

/-- The `UPDATE` of a writer does what the call may do. -/
theorem moves_write (d : Dialect) (c : WriterCall) (t : Table User.id) :
    t.Moves (c.May d) (c.writer.write d c.ctx t) := by
  refine Table.moves_of_rows rfl (fun _ => .inl rfl) fun u _ hu => .inr ?_
  simp only [Bool.and_eq_true, decide_eq_true_eq] at hu
  obtain ⟨ht, hid, hguard⟩ := hu
  refine ⟨hid, ht, c.writer.change_agree u, fun id hashed hw hstored => ?_,
    c.writer.change_forward u⟩
  rw [hw] at hguard
  exact d.empty hstored hguard

/-- The step: a call does to `users` what it may do. -/
theorem moves_take (d : Dialect) (c : WriterCall) (T : Tables) :
    T.users.Moves (c.May d) (c.take d T).2.users := by
  have hsame : T.users.Moves (c.May d) T.users := .refl (fun _ => .inl rfl) _
  unfold WriterCall.take
  split
  · rcases users_perform d c.ctx (c.between T) c.writer with h | h
    · rw [h, c.users_between]
      exact hsame
    · rw [h, c.users_between]
      exact moves_write d c T.users
  · rw [c.users_between]
    exact hsame

/-- A run of calls. -/
def writerRun (d : Dialect) (T : Tables) (calls : List WriterCall) :
    Run Tables WriterCall (Except Err Unit) :=
  (Run.init T).exec (WriterCall.take d) calls

/-- The run: rows only move forward. -/
theorem moves_writerRun (d : Dialect) (T : Tables) (calls : List WriterCall) :
    T.users.Moves Forward (writerRun d T calls).state.users := by
  refine Run.exec_induct
    (I := fun r : Run Tables WriterCall _ => T.users.Moves Forward r.state.users)
    (fun r c hr => ?_) calls (.refl Forward.refl _)
  have hstep : r.state.users.Moves Forward (r.step (WriterCall.take d) c).state.users :=
    List.Forall₂.imp (fun _ _ h => WriterCall.May.forward h) (moves_take d c r.state)
  exact hr.trans hstep Forward.trans

/-- **Stale user snapshots never restore security state.** In every run of the fourteen writers,
under any tenants and with any structs: every call keeps the rows of `users` in their order and does
to each what it may do (only the row with its id in its tenant, only columns it owns, a first
password only over an empty one); and over the whole run no row's `pwd_version` or `auth_epoch`
decreases, `admin_suspended` is never taken back, and an account that is not active stays so. -/
theorem user_writers_safe (d : Dialect) (T : Tables) (calls : List WriterCall) :
    (∀ x ∈ (writerRun d T calls).hist,
      x.before.users.Moves (x.input.May d) x.after.users) ∧
    T.users.Moves Forward (writerRun d T calls).state.users := by
  refine ⟨fun x hx => ?_, moves_writerRun d T calls⟩
  rcases Run.made_of_mem calls hx with hx | ⟨-, hmade⟩
  · cases hx
  · have := moves_take d x.input x.before
    rwa [hmade] at this

/-- An account before anything happened to it. -/
def snapshot : User :=
  { id := 1, tenantID := "a", username := "ann", email := "ann@a", password := "",
    fullName := "Ann", role := roleUser, isActive := true, isEmailVerified := true,
    failedLoginAttempts := 0,
    lockedUntil := none, authEpoch := 0, adminSuspended := false, pwdVersion := 0 }

/-- The account is suspended and deactivated, then the snapshot is written back. -/
def staleCalls : List WriterCall :=
  [.suspend 1, .deactivate 1, .update snapshot, .updateEmail snapshot].map fun w =>
    { ctx := ⟨"a"⟩, writer := w, commits := true, between := id, users_between := fun _ => rfl }

def snapshotTables : Tables :=
  { DB.empty with users := ⟨[snapshot], by decide⟩, trustedDevices := .empty }

theorem user_writers_safe_snapshot :
    (writerRun bytes snapshotTables staleCalls).hist.length = 4 ∧
    snapshotTables.users.Moves Forward (writerRun bytes snapshotTables staleCalls).state.users :=
  ⟨rfl, (user_writers_safe bytes snapshotTables staleCalls).2⟩

/-- The suspension and the deactivation are still there. -/
example : (writerRun bytes snapshotTables staleCalls).state.users.rows =
    [{ snapshot with adminSuspended := true, isActive := false, authEpoch := 1,
                     pwdVersion := 1 }] := by
  decide +kernel

end FinnAuth.Tenancy
