import FinnAuth.Lib.Pool
import FinnAuth.Database

/-!
# The state the service runs in

`World` is everything a request can read or change: the SQL database, the key-value store, the
clock, the mails handed to the notifier, the tokens signed so far and the supply of random values.
`Env` is what is fixed for a deployment: the configuration and the libraries the service calls
(bcrypt, the TOTP library, AES-GCM, the column collation), with the laws the proofs use.

A service function is a `Prog` over `World` whose actions are the repository calls, the store
calls and the reads of the clock, each atomic. Whether a repository call or a mail fails is drawn
from the list `faults`, so that a statement about every list covers every pattern of failures.

Results:
* `Env.plain`: a transparent instance of the libraries, on which the model runs.
-/

namespace FinnAuth

open Lib

/-! ## The deployment -/

/-- The knobs of `config.JWTConfig`, `config.AuthConfig` and `config.RateLimitConfig` that the
services read. -/
structure Config where
  accessTTL : Nat
  refreshTTL : Nat
  resetTTL : Nat
  verifyTTL : Nat
  mfaPendingTTL : Nat
  sudoTTL : Nat
  maxLoginAttempts : Nat
  loginLockoutDuration : Nat
  maxLockoutMultiplier : Nat
  requireEmailVerified : Bool
  notifyNewIPLogin : Bool
  totpMaxAttempts : Nat
  totpAttemptWindow : Nat
  recoveryCodeCount : Nat
  loginPerAccountMax : Nat
  loginWindow : Nat
  registerPerIPMax : Nat
  registerWindow : Nat
  verifyResendPerEmailMax : Nat
  verifyResendWindow : Nat
  verifyResendGlobalMax : Nat
  verifyResendGlobalWindow : Nat
  verifyResendPerIPMax : Nat
  verifyResendPerIPWindow : Nat
  loginCaptchaAfterFails : Nat
  minPasswordScore : Nat
  deriving Repr

/-- What a deployment fixes: the configuration and the libraries. A `Nat` argument named `salt`,
`nonce` or `draw` is the random value the library reads. -/
structure Env where
  cfg : Config
  /-- `bcrypt.CompareHashAndPassword(hash, plain) == nil` -/
  bcryptMatch : String → String → Bool
  /-- `bcrypt.GenerateFromPassword` -/
  bcryptHash : (salt : Nat) → String → String
  /-- the `pquerna/otp` check of a code against a secret at a time -/
  totpLibrary : (now : Nat) → (code secret : String) → Bool
  /-- the secret `totp.Generate` draws -/
  totpSecret : (draw : Nat) → String
  /-- AES-256-GCM with the active key -/
  encrypt : (nonce : Nat) → String → String
  decrypt : String → Option String
  /-- one recovery code, hex encoded -/
  recoveryCode : (draw : Nat) → String
  /-- the text of a UUID -/
  uuidText : Uuid → String
  /-- equality of two values of a `utf8mb4` column without a binary collation -/
  collate : String → String → Bool
  toLower : String → String
  trimSpace : String → String
  passwordScore : String → List String → Nat
  breached : String → Bool
  canonicalIP : String → String
  captchaOk : String → Bool
  deviceParse : String → String
  resolveLocation : String → String
  /-- six hex characters for a taken username -/
  randomSuffix : (draw : Nat) → String
  bcrypt_empty : ∀ plain, bcryptMatch "" plain = false
  bcryptHash_ne_empty : ∀ salt plain, bcryptHash salt plain ≠ ""
  totpSecret_ne_empty : ∀ draw, totpSecret draw ≠ ""
  decrypt_encrypt : ∀ nonce s, decrypt (encrypt nonce s) = some s
  encrypt_ne_empty : ∀ nonce s, encrypt nonce s ≠ ""
  collate_refl : ∀ s, collate s s = true
  collate_symm : ∀ {s t}, collate s t = true → collate t s = true
  collate_trans : ∀ {s t u}, collate s t = true → collate t u = true → collate s u = true

/-- `hash.MaxPasswordBytes`. -/
def maxPasswordBytes : Nat := 72

/-- `hash.CheckPassword`. -/
def Env.checkPassword (env : Env) (hash plain : String) : Bool :=
  if plain.utf8ByteSize > maxPasswordBytes then false else env.bcryptMatch hash plain

theorem Env.checkPassword_empty (env : Env) (plain : String) :
    env.checkPassword "" plain = false := by
  unfold checkPassword
  split
  · rfl
  · exact env.bcrypt_empty plain

/-! ## The state -/

/-- The keys of the store. The source formats them into strings; each format is a constructor. -/
inductive StoreKey : Type where
  | loginAcct (email : String)
  | loginFail (ip : String)
  | regIP (ip : String)
  | regDupGlobal
  | regDupIP (ip : String)
  | regDupEmail (email : String)
  | verifyResendGlobal
  | verifyResendIP (ip : String)
  | verifyResend (email : String)
  | chgEmailGlobal
  | chgEmailIP (ip : String)
  | chgEmail (email : String)
  | changeEmail (token : Uuid)
  | jti (id : Uuid)
  | denylistJTI (id : Uuid)
  | denylistSID (id : Uuid)
  | pwdVer (tenantID : String) (userID : UserID)
  | lockouts (userID : UserID)
  | knownIP (userID : UserID) (ip : String)
  | totpFail (userID : UserID)
  | totpReplay (userID : UserID) (code : Digest String)
  | totpRotateLock (userID : UserID)
  | oauthState (state : Uuid)
  | passkeyAuth (userID : UserID)
  | passkeyReg (userID : UserID)
  deriving DecidableEq, Repr

/-- The keys that carry no authority: counters, locks, denylists and caches. The others are what a
client proves something with: a staged email change, a spent token, a login state, a challenge. -/
def StoreKey.plain : StoreKey → Bool
  | changeEmail _ => false
  | jti _ => false
  | oauthState _ => false
  | passkeyAuth _ => false
  | passkeyReg _ => false
  | _ => true

/-- The keys of the TOTP service: the failed attempts, the claimed codes and the rotation lock. -/
def StoreKey.factor : StoreKey → Bool
  | totpFail _ => true
  | totpReplay _ _ => true
  | totpRotateLock _ => true
  | _ => false

/-- `database.Operation`: the error latch and the admissions of the running audit operation. -/
structure Operation where
  failure : Bool := false
  admissions : Nat := 0
  successful : Bool := false
  deriving DecidableEq, Repr

/-- `DenialMayCommit`: only explicit denial evidence may commit a denied operation. -/
def Operation.denialMayCommit (o : Operation) : Bool := o.admissions > 0 && !o.successful

/-- A failed admission or evidence of a success: no denial can commit any more. -/
def Operation.latched (o : Operation) : Bool := o.failure || o.successful

/-- An error now leaves nothing of the operation behind. -/
def Operation.undone (o : Operation) : Bool := o.failure || !o.denialMayCommit

/-- Everything a request can read or change. -/
structure World where
  db : DB
  store : TtlMap StoreKey
  now : Nat
  faults : List Bool
  outbox : List Mail
  entropy : Nat
  signed : List Claims
  op : Operation

/-- No call will fail and no admission has failed. -/
structure World.Calm (w : World) : Prop where
  faults : w.faults = []
  failure : w.op.failure = false

/-! ## Actions -/

/-- Places in the text of the login and TOTP calls that a history has to tell apart. -/
inductive Site : Type where
  /-- `UserRepository.IncrementFailedAttempts` -/
  | failedAttempt (userID : UserID)
  /-- `guardBruteForce` reads the counter -/
  | totpGuard (userID : UserID)
  /-- `recordFailure` counts -/
  | totpFailure (userID : UserID)
  /-- `recordSuccess` clears the counter -/
  | totpSuccess (userID : UserID)
  /-- a code compared with the active secret of the user -/
  | checkCode (userID : UserID) (code secret : String)
  /-- a code compared with the secret that `VerifyEnable` confirms -/
  | confirmCode (userID : UserID) (code secret : String)
  /-- `replayGuard` claims the code -/
  | replayGuard (userID : UserID) (code : String)
  /-- `TOTPRepository.ActiveRecoveryCodes` -/
  | activeCodes (userID : UserID)
  /-- `TOTPRepository.MarkRecoveryCodeUsed` -/
  | markCode (id : Nat)
  /-- `TOTPRepository.ReplaceRecoveryCodes` -/
  | replaceCodes (userID : UserID)
  /-- `TOTPRepository.Upsert` -/
  | saveDevice (userID : UserID)
  /-- `TOTPRepository.Disable` -/
  | disableDevice (userID : UserID)
  /-- `acquireRotationLock` -/
  | rotationLock (userID : UserID)
  /-- `releaseRotationLock` -/
  | rotationUnlock (userID : UserID)
  deriving DecidableEq, Repr

/-- What an atomic action is, where a history has to tell; everything else is `other`. -/
inductive Call : Type where
  | other
  | site (s : Site)
  /-- `UserRepository.FindByID` -/
  | findUser (userID : UserID)
  /-- a password compared with the hash of the row `u`, which was read before -/
  | comparePassword (u : User)
  /-- the manager signs a token with these claims -/
  | sign (c : Claims)
  /-- `UserRepository.CredentialChangeTx`, on the strength of the reset token `jti` if any -/
  | credentialChange (userID : UserID) (jti : Option Uuid)
  /-- `UserRepository.SetEmailVerified` on the strength of the token `jti` -/
  | emailVerified (userID : UserID) (jti : Option Uuid)
  /-- `UsedTokenRepository.IsUsed` -/
  | isUsed (jti : Uuid)
  /-- `UsedTokenRepository.MarkUsed` -/
  | markUsed (jti : Uuid)
  /-- `SessionRepository.Create` -/
  | sessionCreate (id : Uuid)
  /-- `RefreshTokenRepository.Revoke` on the row `id` -/
  | tokenRevoke (id : Nat)
  /-- `RefreshTokenRepository.Create`, next to the access token `access` -/
  | tokenCreate (sessionID : Option Uuid) (access : Token)
  deriving DecidableEq, Repr

/-- A service function. -/
abbrev M (α : Type) := Prog World Call Err α

/-- `return …, err`. -/
def throw {α : Type} (e : Err) : M α := .fail e

/-- `if c { return …, err }`. -/
def refuse (c : Bool) (e : Err) : M Unit := if c then .fail e else .ret ()

/-- `if c { p }`. -/
def doIf (c : Bool) (p : M Unit) : M Unit := if c then p else .ret ()

/-- `if c { p; return …, err }`. -/
def refuseAfter (c : Bool) (p : M Unit) (e : Err) : M Unit :=
  if c then p >>= fun _ => .fail e else .ret ()

/-- `fmt.Errorf("ctx: %w", err)` around the error of a call. -/
def wrap {α : Type} (ctx : String) (p : M α) : M α :=
  p.attempt >>= fun r => match r with
    | .ok a => .ret a
    | .error e => .fail (.wrapped ctx e)

/-- A call whose error is dropped: `_ = f()`. -/
def ignore {α : Type} (p : M α) : M Unit := p.attempt >>= fun _ => .ret ()

/-- A call that cannot fail. -/
def call {α : Type} (l : Call) (f : World → α × World) : M α :=
  .atomic l fun w => (.ok (f w).1, (f w).2)

/-- Takes the next outcome from `faults`: `true` is a failure. -/
def World.fault (w : World) : Bool × World :=
  match w.faults with
  | [] => (false, w)
  | b :: bs => (b, { w with faults := bs })

/-- Carries out at most one statement. -/
def DB.execOpt (db : DB) : Option Stmt → DB
  | none => db
  | some s => db.exec s

/-- A repository call: it reads the database and hands over at most one statement, or the
connection fails. -/
def repo {α : Type} (l : Call) (f : DB → Except Err α × Option Stmt) : M α :=
  .atomic l fun w =>
    let (failed, w) := w.fault
    if failed then (.error .db, w)
    else ((f w.db).1, { w with db := w.db.execOpt (f w.db).2 })

/-- A store call under a label. -/
def kvAs {α : Type} (l : Call) (f : TtlMap StoreKey → Nat → α × TtlMap StoreKey) : M α :=
  call l fun w => ((f w.store w.now).1, { w with store := (f w.store w.now).2 })

/-- A store call. -/
def kv {α : Type} (f : TtlMap StoreKey → Nat → α × TtlMap StoreKey) : M α := kvAs .other f

/-- `time.Now()`, under a label. -/
def getNowAs (l : Call) : M Nat := call l fun w => (w.now, w)

/-- `time.Now()`. -/
def getNow : M Nat := getNowAs .other

/-- A fresh random value. -/
def draw : M Nat := call .other fun w => (w.entropy, { w with entropy := w.entropy + 1 })

/-- A call of the notifier: the mail is handed over, or the delivery fails. -/
def notify (m : Mail) : M Unit :=
  .atomic .other fun w =>
    let (failed, w) := w.fault
    if failed then (.error .smtp, w) else (.ok (), { w with outbox := w.outbox ++ [m] })

/-! ## The store calls -/

def storeIncrBy (k : StoreKey) (delta : Int) (ttl : Nat) : M Int :=
  kv fun m now => m.incrBy now k delta ttl

def storeSet (k : StoreKey) (v : Val) (ttl : Nat) : M Unit :=
  kv fun m now => ((), m.set now k v ttl)

def storeSetNX (k : StoreKey) (v : Val) (ttl : Nat) : M Bool :=
  kv fun m now => m.setNX now k v ttl

def storeGet (k : StoreKey) : M (Option Val) := kv fun m now => m.get now k

def storeTake (k : StoreKey) : M (Option Val) := kv fun m now => m.take now k

def storeDelete (k : StoreKey) : M Unit := kv fun m _ => ((), m.delete k)

/-- The number in a counter; the in-memory store keeps counters as numbers. -/
def counterValue : Option Val → Int
  | some (.int n) => n
  | _ => 0

/-- `storeCounterValue`, under a label. -/
def storeCounterValueAs (l : Call) (k : StoreKey) : M Int :=
  kvAs l (fun m now => m.get now k) >>= fun v => .ret (counterValue v)

/-- `storeCounterValue`. -/
def storeCounterValue (k : StoreKey) : M Int := storeCounterValueAs .other k

/-! ## Audit -/

/-- `AuditRepo.Record`: admits the event in the running operation, or latches the failure. -/
def record (ctx : Ctx) (e : AuditLog) : M Unit :=
  call .other fun w =>
    let (failed, w) := w.fault
    if failed then ((), { w with op := { w.op with failure := true } })
    else ((), { w with
      db := w.db.exec (.insertAudit { e with tenantID := ctx.tenant })
      op := { w.op with admissions := w.op.admissions + 1
                        successful := w.op.successful || e.success } })

/-- An audit event with only its name and outcome set. -/
def auditEvent (event : String) (success : Bool) : AuditLog :=
  { tenantID := "", userID := none, email := "", event := event, ipAddress := "",
    success := success, detail := "" }

/-- The end of an audit operation whose body returned `r`: a failed admission, an error that is no
denial, and a denial without evidence of its own roll the database back to `before`. -/
def closeAudit {α : Type} (before : DB) (r : Except Err α) (w : World) : Except Err α × World :=
  let (commitFailed, w) := w.fault
  if w.op.failure || commitFailed then (.error .unavailable, { w with db := before })
  else match r with
    | .ok a => (.ok a, w)
    | .error e =>
      if auditDenial e && w.op.denialMayCommit then (.error e, w)
      else (.error e, { w with db := before })

/-- `AuditRepository.AuditOperation` around a service body. The store, the mails and the random
values are outside the transaction. -/
def runAuditOperation {α : Type} (p : M α) : M α :=
  .act .other (fun w => { w with op := {} }) fun w₀ => do
    let r ← p.attempt
    .atomic .other (closeAudit w₀.db r)

/-- `admitBeforeExternal`: the evidence is committed before anything leaves the process. -/
def admitBeforeExternal (ctx : Ctx) (e : AuditLog) : M Unit :=
  runAuditOperation (record ctx e)

/-! ## Between calls -/

/-- What happens between service calls: time passes, the volatile store loses a key (eviction,
flush, restart), the clean-up job of `cmd/server/main.go` deletes used tokens past their expiry. -/
inductive Outside : Type where
  | tick (ms : Nat)
  | loseKey (k : StoreKey)
  | purgeUsedTokens
  deriving DecidableEq, Repr

/-- The effect of an outside change. -/
def Outside.apply : Outside → World → World
  | tick ms, w => { w with now := w.now + ms }
  | loseKey k, w => { w with store := w.store.delete k }
  | purgeUsedTokens, w => { w with db := w.db.purgeUsedTokens w.now }

/-! ## A transparent deployment -/

/-- Lower case without the acute accent on `e`: a small piece of `utf8mb4_0900_ai_ci`. -/
def foldChar (c : Char) : Char := if c = 'é' then 'e' else c.toLower

/-- Libraries one can see through: a hash and a ciphertext show their input, a TOTP code is the
first six characters of its secret, whatever the time. -/
def Env.plain (cfg : Config) : Env where
  cfg := cfg
  bcryptMatch hash plain := hash = "h" ++ plain
  bcryptHash _ plain := "h" ++ plain
  totpLibrary _ code secret := code = String.ofList ((secret.toList ++ "000000".toList).take 6)
  totpSecret draw := "s" ++ toString draw
  encrypt _ s := "e" ++ s
  decrypt s :=
    match s.toList with
    | 'e' :: cs => some (String.ofList cs)
    | _ => none
  recoveryCode draw := "recovery" ++ toString draw
  uuidText := toString
  collate s t := s.toList.map foldChar = t.toList.map foldChar
  toLower s := String.ofList (s.toList.map Char.toLower)
  trimSpace s := s
  passwordScore _ _ := 4
  breached _ := false
  canonicalIP ip := ip
  captchaOk _ := true
  deviceParse ua := ua
  resolveLocation _ := ""
  randomSuffix := toString
  bcrypt_empty plain := by
    have h : "" ≠ "h" ++ plain := fun h => by simpa using congrArg String.toList h
    exact decide_eq_false h
  bcryptHash_ne_empty _ plain h := by simpa using congrArg String.toList h
  totpSecret_ne_empty draw h := by simpa using congrArg String.toList h
  decrypt_encrypt _ s := by simp
  encrypt_ne_empty _ s h := by simpa using congrArg String.toList h
  collate_refl _ := decide_eq_true rfl
  collate_symm h := decide_eq_true (of_decide_eq_true h).symm
  collate_trans h h' := decide_eq_true ((of_decide_eq_true h).trans (of_decide_eq_true h'))

/-- The defaults of `config.Load`, in milliseconds, with one recovery code. -/
def Config.sample : Config :=
  { accessTTL := 900000, refreshTTL := 604800000, resetTTL := 900000, verifyTTL := 86400000,
    mfaPendingTTL := 300000, sudoTTL := 300000, maxLoginAttempts := 5,
    loginLockoutDuration := 900000, maxLockoutMultiplier := 4, requireEmailVerified := false,
    notifyNewIPLogin := false, totpMaxAttempts := 5, totpAttemptWindow := 300000,
    recoveryCodeCount := 1, loginPerAccountMax := 10, loginWindow := 900000,
    registerPerIPMax := 5, registerWindow := 3600000, verifyResendPerEmailMax := 3,
    verifyResendWindow := 3600000, verifyResendGlobalMax := 100,
    verifyResendGlobalWindow := 3600000, verifyResendPerIPMax := 10,
    verifyResendPerIPWindow := 3600000, loginCaptchaAfterFails := 3, minPasswordScore := 0 }

/-- A verified user of the default tenant with the password `password1`. -/
def User.sample (id : UserID) (username email : String) : User :=
  { id := id, tenantID := defaultTenantID, username := username, email := email,
    password := "hpassword1", fullName := "", role := roleUser, isActive := true,
    isEmailVerified := true, failedLoginAttempts := 0, lockedUntil := none, authEpoch := 0,
    adminSuspended := false, pwdVersion := 0 }

/-- The default tenant with the user `jose`, and nothing else. -/
def World.sample : World :=
  { db := { DB.empty with
      users := ⟨[User.sample 1 "jose" "jose@x.io"], by decide⟩
      tenants := ⟨[⟨defaultTenantID, true⟩], by decide⟩ }
    store := .empty, now := 1000000, faults := [], outbox := [], entropy := 100, signed := [],
    op := {} }

/-- A request bound to the default tenant. -/
def Ctx.sample : Ctx := ⟨defaultTenantID⟩

end FinnAuth
