import FinnAuth.Concurrent
import FinnAuth.Footprint.Login
import FinnAuth.Users

/-!
# The lockout after failed logins under concurrency

Any number of `Login` calls run side by side, one repository call at a time. The counter is
incremented in SQL, but `recordFailedLogin` decides whether to lock on the row that the call looked
up at its beginning. Two calls that both looked it up two attempts below the maximum carry the
counter to the maximum, and neither locks.

Results:
* `guarded_exec`: what a statement owes the account;
* **`lockout_holds`**: as long as a call that brings the counter to the maximum has seen it one
  below, an account at the maximum is locked;
* **`lockout_evaded`**: two parallel guesses reach the maximum without a lock.
-/

namespace FinnAuth.Lockout

open Lib Prog Protocol

/-! ## The account -/

/-- The failed attempts counted on the row. -/
def attempts (db : DB) (u : UserID) : Nat := ((db.userRow? u).map User.failedLoginAttempts).getD 0

/-- The row is below the maximum or locked. -/
def Fenced (max : Nat) (row : User) : Prop :=
  max ≤ row.failedLoginAttempts → row.lockedUntil.isSome = true

/-- The account is below the maximum or locked. -/
def Guarded (max : Nat) (u : UserID) (db : DB) : Prop :=
  ∀ row, db.userRow? u = some row → Fenced max row

instance (max : Nat) (u : UserID) (db : DB) : Decidable (Guarded max u db) :=
  match h : db.userRow? u with
  | none => .isTrue fun row hrow => by rw [h] at hrow; cases hrow
  | some row =>
    decidable_of_iff (max ≤ row.failedLoginAttempts → row.lockedUntil.isSome = true)
      ⟨fun hf row' hrow => by rw [h] at hrow; cases hrow; exact hf, fun hg => hg row h⟩

theorem attempts_of_row {db : DB} {u : UserID} {row : User} (h : db.userRow? u = some row) :
    attempts db u = row.failedLoginAttempts := by
  simp [attempts, h]

/-- What a statement owes the account: it adds no user, and a row it writes ends up fenced. -/
theorem guarded_exec {max : Nat} {u : UserID} {db : DB} {s : Stmt} (h : Guarded max u db)
    (hs : ∀ x, s ≠ .insertUser x)
    (hw : ∀ ctx x row, s.userWrite? = some (ctx, u, x) → db.userRow? u = some row →
      Fenced max (x.apply row)) : Guarded max u (db.exec s) := by
  intro row' hrow'
  cases hrow : db.userRow? u with
  | none => exact absurd (userRow_new hrow hrow').1 (hs row')
  | some row =>
    rcases userRow_exec s hrow with hsame | ⟨ctx, x, hx, -, hnew⟩
    · obtain rfl := Option.some.inj (hsame.symm.trans hrow')
      exact h row hrow
    · obtain rfl := Option.some.inj (hnew.symm.trans hrow')
      exact hw ctx x row hx hrow

/-! ## The protocol -/

/-- The state in which call `i` took this action. -/
def seen? (i : Nat) : Ev World Call Outside → Option World
  | .act j _ pre _ => if j = i then some pre else none
  | .env _ _ _ => none

/-- If the next attempt reaches the maximum, it would have done so ever since the call began. -/
def UpToDate (max : Nat) (u : UserID) (i : Nat) (v : Shared) : Prop :=
  max ≤ attempts v.state.db u + 1 →
    ∀ x ∈ v.hist, ∀ w ∈ seen? i x, max ≤ attempts w.db u + 1

/-- The counter grows only by calls that are up to date. -/
def protocol (max : Nat) (u : UserID) : Protocol World Call Outside where
  inv v := Guarded max u v.state.db
  rely _ v v' := v.hist <:+ v'.hist
  ok i l v := l = .site (.failedAttempt u) → UpToDate max u i v
  okEnv _ _ := True
  rely_refl := View.grown_refl
  rely_trans := @View.grown_trans _ _ _

/-- Call `i` has found this row. -/
def Saw (i : Nat) (user : User) (v : Shared) : Prop :=
  ∃ x ∈ v.hist, ∃ w, seen? i x = some w ∧ w.db.userRow? user.id = some user

variable {α β : Type} {env : Env} {ctx : Ctx} {max : Nat} {u : UserID} {i : Nat} {v : Shared}
  {user : User} {email ip ua : String}

theorem stable_saw : (protocol max u).Stable i (Saw i user) := by
  rintro v v' ⟨x, hx, hw⟩ hr
  exact ⟨x, hr.subset hx, hw⟩

theorem stable_true : (protocol max u).Stable i fun _ => True := fun _ _ _ _ => trivial

/-! ## Actions that leave the account fenced -/

/-- Statements that add no user and fence whatever row they write. -/
def fencing (max : Nat) (u : UserID) : Footprint where
  label _ := True
  stmt s := (∀ x, s ≠ .insertUser x) ∧
    ∀ ctx x, s.userWrite? = some (ctx, u, x) → ∀ row, Fenced max (x.apply row)
  mail _ := True
  key _ := True

theorem fencing_plain {s : Stmt} (hi : ∀ x, s ≠ .insertUser x) (hu : s.userWrite? = none) :
    (fencing max u).stmt s :=
  ⟨hi, fun _ _ h => by rw [hu] at h; cases h⟩

theorem fencing_quiet : (fencing max u).Quiet :=
  ⟨⟨trivial, fun _ => trivial, fun _ => trivial, fun _ _ => trivial⟩,
    fun _ => fencing_plain (fun _ h => by cases h) rfl, fun _ _ => trivial⟩

theorem fencing_issues : (fencing max u).Issues user where
  sign _ _ _ _ := trivial
  sessionCreate _ := trivial
  tokenCreate _ _ := trivial
  touchSession _ _ _ _ _ _ _ := fencing_plain (fun _ h => by cases h) rfl
  insertSession _ _ := fencing_plain (fun _ h => by cases h) rfl
  insertToken _ _ := fencing_plain (fun _ h => by cases h) rfl
  loginAlert _ _ _ := trivial

/-- A reset puts the counter back to zero, which is below the maximum. -/
theorem fencing_reset {id : UserID} (hmax : 0 < max) :
    (fencing max u).stmt (.updateUser ctx id .resetFailed) := by
  refine ⟨fun _ h => (by cases h), fun c x h row hle => ?_⟩
  cases h
  exact absurd hle (Nat.not_le.2 hmax)

theorem quiet_of_fencing {l : Call} {f : World → World} (hi : Guarded max u v.state.db)
    (h : Acts (fencing max u) l v.state (f v.state)) : (protocol max u).Quiet i l f v := by
  refine ⟨?_, fun _ => List.suffix_cons _ _⟩
  change Guarded max u (f v.state).db
  rcases h.db with hdb | ⟨s, hs, hdb⟩
  · rw [hdb]
    exact hi
  · rw [hdb]
    exact guarded_exec hi hs.1 fun ctx x row hx _ => hs.2 ctx x hx row

/-- A part of a call that leaves the account fenced. -/
theorem safe_fencing {p : M α} (hp : Each (Acts (fencing max u)) p) :
    (protocol max u).Safe i (fun _ _ => True) p v :=
  safe_quiet hp trivial stable_true fun _ _ _ hi h _ => quiet_of_fencing hi h

/-- Such a part, in front of the rest `f`. -/
theorem seq_fencing {A : Shared → Prop} {p : M α} {f : α → M β}
    (hp : Each (Acts (fencing max u)) p) (hst : (protocol max u).Stable i A) (hA : A v)
    (hf : ∀ a v', A v' → (protocol max u).Safe i (fun _ _ => True) (f a) v') :
    (protocol max u).Safe i (fun _ _ => True) (p >>= f) v :=
  safe_quiet_seq hp hA hst (fun _ _ _ hi h _ => quiet_of_fencing hi h) (fun _ _ _ => trivial) hf

/-! ## The failed login -/

/-- A call that reaches the maximum by the row it found locks. -/
def Locks (max : Nat) (user : User) (lockUntil : Option Nat) : Prop :=
  max ≤ user.failedLoginAttempts + 1 → lockUntil.isSome = true

theorem seq_lockoutEnd {f : Option Nat → M β} (hA : Saw i user v)
    (hf : ∀ t v', Locks env.cfg.maxLoginAttempts user t → Saw i user v' →
      (protocol max u).Safe i (fun _ _ => True) (f t) v') :
    (protocol max u).Safe i (fun _ _ => True) (lockoutEnd env user >>= f) v := by
  unfold lockoutEnd
  split
  · have hcount : Each (Acts (fencing max u)) (lockoutCount env user) :=
      each_ite (each_storeIncrBy trivial trivial) trivial
    refine safe_seq (safe_quiet_seq hcount hA stable_saw
      (fun _ _ _ hi h _ => quiet_of_fencing hi h) (fun _ _ _ => trivial) fun count v₁ h₁ => ?_)
    refine safe_quiet_seq (each_getNow trivial) h₁ stable_saw
      (fun _ _ _ hi h _ => quiet_of_fencing hi h) (fun _ _ _ => trivial) fun now v₂ h₂ => ?_
    exact hf _ v₂ (fun _ => rfl) h₂
  · rename_i hlt
    exact hf none v (fun hle => absurd hle hlt) hA

/-- **The counter**: the row that was found is as good as the current one at the maximum. -/
theorem safe_failedAttempt {t : Option Nat} (hA : Saw i user v) (ht : Locks max user t) :
    (protocol max u).Safe i (fun _ _ => True) (usersIncrementFailedAttempts ctx user.id t) v := by
  unfold usersIncrementFailedAttempts usersUpdate ownedWrite
  refine safe_repo hA stable_saw fun v' r o g hi hA hok hro hex => ⟨⟨?_, ?_⟩, trivial⟩
  · change Guarded max u (g v'.state).db
    rw [hex.db]
    rcases hro with ⟨-, rfl⟩ | hro
    · exact hi
    split at hro
    · cases hro
      refine guarded_exec hi (fun _ h => by cases h) fun c x row hx hrow hle => ?_
      cases hx
      -- the count is the current one, the decision that of the row found earlier
      obtain ⟨y, hy, w, hw, hfound⟩ := hA
      have hnow : max ≤ attempts v'.state.db user.id + 1 := by
        rw [attempts_of_row hrow]
        exact hle
      have hthen := hok rfl hnow y hy w hw
      rw [attempts_of_row hfound] at hthen
      obtain ⟨e, he⟩ := Option.isSome_iff_exists.1 (ht hthen)
      simp [UserWrite.apply, he]
    · cases hro
      exact hi
  · exact fun _ _ => List.suffix_cons _ _

theorem safe_recordFailedLogin (hA : Saw i user v) :
    (protocol env.cfg.maxLoginAttempts u).Safe i (fun _ _ => True)
      (recordFailedLogin env ctx user email ip) v := by
  refine seq_lockoutEnd hA fun t v₁ ht h₁ => ?_
  refine safe_seq (safe_seq (safe_attempt ((safe_failedAttempt h₁ ht).mono fun r v₂ _ => ?_)))
  exact safe_fencing (each_bind (each_recordLoginFailIP fencing_quiet.toBasic) fun _ =>
    each_bind (each_recordLoginFailAccount fencing_quiet.toBasic) fun _ =>
      each_record fencing_quiet.calm)

/-! ## Login -/

/-- The lookup leaves its result in the history. -/
theorem safe_findByEmail :
    (protocol max u).Safe i (fun r v' => ∀ user, r = .ok (some user) → Saw i user v')
      (usersFindByEmail env ctx email) v := by
  unfold usersFindByEmail query
  refine safe_repo trivial stable_true fun v' r o g hi _ _ hro hex => ?_
  have hnone : o = none := by
    rcases hro with ⟨-, h⟩ | h
    · exact h
    · cases h; rfl
  subst hnone
  refine ⟨⟨?_, fun _ _ => List.suffix_cons _ _⟩, fun user hr => ?_⟩
  · change Guarded max u (g v'.state).db
    rw [hex.db]
    exact hi
  · rcases hro with ⟨h, -⟩ | h
    · rw [h] at hr
      cases hr
    · have hfind : v'.state.db.userByEmail env ctx email = some user := by
        rw [hr] at h
        simpa using congrArg Prod.fst h
      refine ⟨_, List.mem_cons_self, v'.state, by simp [seen?], ?_⟩
      exact userRow_of_mem (Table.mem_of_first? hfind).1

theorem safe_loginAudited {password captcha : String} (hmax : 0 < env.cfg.maxLoginAttempts) :
    (protocol env.cfg.maxLoginAttempts u).Safe i (fun _ _ => True)
      (loginAudited env ctx email password captcha ip ua) v := by
  refine seq_fencing (each_loginLimits fencing_quiet.toBasic) stable_true trivial fun _ v₁ _ => ?_
  refine safe_seq (safe_wrap (safe_findByEmail.mono fun r v₂ h₂ => ?_))
  cases r with
  | error e => trivial
  | ok found =>
    cases found with
    | none => exact safe_fencing (each_unknownUser fencing_quiet)
    | some user =>
      refine seq_fencing (each_loginGates fencing_quiet) stable_saw (h₂ user rfl) fun _ v₃ h₃ => ?_
      refine seq_fencing (each_comparePassword trivial) stable_saw h₃ fun matches_ v₄ h₄ => ?_
      refine safe_seq (safe_refuseAfter (fun _ => (safe_recordFailedLogin h₄).mono
        fun _ _ _ _ => trivial) fun _ => ?_)
      exact safe_fencing (each_bind (each_usersUpdate trivial (fencing_reset hmax)) fun _ =>
        each_bind (each_storeDelete trivial trivial) fun _ =>
          each_checkMFAOrIssueTokensAudited fencing_quiet fencing_issues fun _ _ _ => trivial)

/-! ## The pool -/

/-- A `Login` call. -/
structure Job where
  ctx : Ctx
  email : String
  password : String
  captcha : String
  ip : String
  ua : String

/-- The body of a call. -/
def code (env : Env) (j : Job) : M LoginResult :=
  loginAudited env j.ctx j.email j.password j.captcha j.ip j.ua

abbrev Calls := Pool World Call Outside Err LoginResult Job

/-- The pool after the moves `ms` from the state `w`. -/
def run (env : Env) (w : World) (ms : List (Move Outside Job)) : Calls :=
  (Pool.init w : Calls).exec (code env) Outside.apply ms

theorem sound (hmax : 0 < env.cfg.maxLoginAttempts) :
    (protocol env.cfg.maxLoginAttempts u).Sound (code env) Outside.apply
      fun _ _ _ _ _ => True where
  env e v hi _ := by
    refine ⟨?_, fun _ => List.suffix_cons _ _⟩
    cases e <;> exact hi
  start _ _ _ _ _ := safe_loginAudited hmax
  stable _ _ _ _ := stable_true

/-- **An account at the maximum is locked**, in every state of every run in which a call that brings
the counter to the maximum has seen it one below from its beginning. -/
theorem lockout_holds (env : Env) (u : UserID) (w : World) (ms : List (Move Outside Job))
    (hmax : 0 < env.cfg.maxLoginAttempts) (hw : Guarded env.cfg.maxLoginAttempts u w.db)
    (h : (protocol env.cfg.maxLoginAttempts u).Admits (code env) Outside.apply
      (Pool.init w : Calls) ms) :
    Guarded env.cfg.maxLoginAttempts u (run env w ms).view.state.db :=
  (exec_good (sound hmax) ms (good_init hw) h).inv

/-! ## Parallel guesses -/

instance (i : Nat) (v : Shared) : Decidable (UpToDate max u i v) := by
  unfold UpToDate; infer_instance

instance (i : Nat) (l : Call) (v : Shared) : Decidable ((protocol max u).ok i l v) :=
  inferInstanceAs (Decidable (_ → _))

instance (e : Outside) (v : Shared) : Decidable ((protocol max u).okEnv e v) := .isTrue trivial

/-- `jose` has three failed attempts, two below the maximum. -/
def guessedWorld : World :=
  { World.sample with db := { World.sample.db with
      users := ⟨[{ User.sample 1 "jose" "jose@x.io" with failedLoginAttempts := 3 }], by decide⟩ } }

def wrongGuess : Job := ⟨.sample, "jose@x.io", "guess", "", "ip", "ua"⟩

/-- One guess after the other. -/
def inTurn : List (Move Outside Job) :=
  .spawn wrongGuess :: List.replicate 12 (.sched 0) ++
    .spawn wrongGuess :: List.replicate 12 (.sched 1)

/-- In turn, the second guess locks the account. -/
theorem lockout_holds_inTurn :
    attempts (run (.plain .sample) guessedWorld inTurn).view.state.db 1 = 5 ∧
      Guarded 5 1 (run (.plain .sample) guessedWorld inTurn).view.state.db :=
  ⟨by decide +kernel, lockout_holds (.plain .sample) 1 guessedWorld inTurn (by decide)
    (by decide +kernel) (by decide +kernel)⟩

/-- Both guesses look the row up before either counts. -/
def parallel : List (Move Outside Job) :=
  .spawn wrongGuess :: .spawn wrongGuess :: List.replicate 4 (.sched 0) ++
    List.replicate 12 (.sched 1) ++ List.replicate 12 (.sched 0)

/-- **Five attempts and no lock**. -/
theorem lockout_evaded :
    ((run (.plain .sample) guessedWorld parallel).view.state.db.userRow? 1).map
        (fun row => (row.failedLoginAttempts, row.lockedUntil)) = some (5, none) ∧
      ¬ Guarded Config.sample.maxLoginAttempts 1
        (run (.plain .sample) guessedWorld parallel).view.state.db := by
  decide +kernel

end FinnAuth.Lockout
