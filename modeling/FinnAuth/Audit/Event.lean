import FinnAuth.Lib.Chain
import FinnAuth.Lib.JsonText

/-!
# Audit events

`models.AuditLog` with all its columns, and `internal/audit`: what `Capture` keeps of an entry, the
canonical text that is signed, the JSON text that waits in the outbox, and the key ring that signs
and verifies. HMAC-SHA256, the UUIDs and the text form of a time are libraries and come with the
`Platform`.

Times are nanoseconds since 1970. Texts are sequences of code points: an entry whose text is not
valid UTF-8 is outside the model.

Results:
* **`canonical_injective`**: the canonical text determines every signed field;
* **`unmarshal_marshal`**: an event comes out of its payload as it went in;
* `verify_iff`, `signedWith_sign`: what a ring signs it verifies.
-/

namespace FinnAuth.Audit

open Lib Json
open JsonText (readObject readObject_writeObject writeArray_injective)

/-! ## The platform -/

/-- The libraries the repository calls, with the laws the proofs use. -/
structure Platform where
  /-- HMAC-SHA256, hex encoded -/
  mac : (key payload : String) → String
  /-- the `n`-th UUID drawn -/
  uuid : Nat → String
  /-- `uuid.Parse` finds no error -/
  uuidParse : String → Bool
  /-- `time.Time.MarshalJSON`; a year of five digits has no text -/
  timeText : Int → Option String
  parseTime : String → Option Int
  uuid_injective : Function.Injective uuid
  uuid_ne_empty : ∀ n, uuid n ≠ ""
  uuidParse_uuid : ∀ n, uuidParse (uuid n) = true
  parseTime_timeText : ∀ {t s}, timeText t = some s → parseTime s = some t

variable {pl : Platform}

theorem Platform.plain_parseTime {t : Int} {s : String}
    (h : some (writeObject [("t", .num t)]) = some s) :
    (match readObject s with
      | some [("t", .num t)] => some t
      | _ => none) = some t := by
  cases h
  rw [readObject_writeObject]
  rfl

/-- A transparent platform, on which the model runs: a MAC shows its key and its payload, and the
other texts are JSON. -/
def Platform.plain : Platform where
  mac key payload := writeArray [.str key, .str payload]
  uuid n := writeArray [.num n]
  uuidParse s := s ≠ ""
  timeText t := some (writeObject [("t", .num t)])
  parseTime s :=
    match readObject s with
    | some [("t", .num t)] => some t
    | _ => none
  uuid_injective := by
    intro m n h
    have hnum := writeArray_injective h
    simp only [List.cons.injEq, Scalar.num.injEq, and_true] at hnum
    omega
  uuid_ne_empty n := by simp [writeArray]
  uuidParse_uuid n := by simp [writeArray]
  parseTime_timeText := @Platform.plain_parseTime

/-- HMAC-SHA256 has no collisions, across keys and payloads. -/
def Platform.CollisionFree (pl : Platform) : Prop :=
  ∀ key key' payload payload', pl.mac key payload = pl.mac key' payload' →
    key = key' ∧ payload = payload'

theorem Platform.plain_collisionFree : Platform.plain.CollisionFree := by
  intro key key' payload payload' h
  have := writeArray_injective h
  simpa using this

/-! ## The record -/

/-- `models.AuditLog`. -/
structure AuditLog where
  id : Nat
  tenantID : String
  userID : Option Nat
  email : String
  event : String
  ipAddress : String
  success : Bool
  detail : String
  prevHash : String
  recordHash : String
  createdAt : Int
  version : Nat
  eventID : String
  sequence : Option Nat
  keyID : String
  actorKind : String
  actorID : Nat
  requestID : String
  action : String
  deriving DecidableEq, Repr

/-- `time.Time.UnixMilli`. -/
def unixMilli (t : Int) : Int := t / 1000000

/-- What the request brings along: the bound tenant, the authenticated actor if any, whether the
process acts for itself, and the correlation id. -/
structure Context where
  tenant : String
  actor : Option Nat
  system : Bool
  correlation : String
  deriving DecidableEq, Repr

/-- The actor as the evidence names it. -/
def Context.actorFields (ctx : Context) : String × Nat :=
  match ctx.actor with
  | some (id + 1) => ("authenticated", id + 1)
  | _ => (if ctx.system then "system" else "unauthenticated", 0)

/-- The id the caller gave the entry, or the UUID `fresh`. -/
def AuditLog.givenID (pl : Platform) (fresh : Nat) (entry : AuditLog) : String :=
  if entry.eventID = "" then pl.uuid fresh else entry.eventID

theorem givenID_ne_empty (pl : Platform) (fresh : Nat) (entry : AuditLog) :
    entry.givenID pl fresh ≠ "" := by
  unfold AuditLog.givenID
  split
  · exact pl.uuid_ne_empty fresh
  · assumption

/-- `audit.Capture` at the time `now`; the UUIDs `fresh` and `fresh + 1` are drawn. Free text, email
and address are dropped. -/
def capture (pl : Platform) (ctx : Context) (now : Int) (fresh : Nat) (entry : AuditLog) :
    Option AuditLog :=
  if entry.event = "" ∨ entry.event.utf8ByteSize > 40 ∨ entry.action.utf8ByteSize > 40 then none
  else if ctx.tenant.utf8ByteSize > 36 ∨
      (entry.tenantID ≠ "" ∧ entry.tenantID ≠ ctx.tenant) then none
  else if pl.uuidParse (entry.givenID pl fresh) then
    some { entry with
      id := 0
      tenantID := ctx.tenant
      version := 1
      eventID := entry.givenID pl fresh
      createdAt := unixMilli now * 1000000
      actorKind := ctx.actorFields.1
      actorID := ctx.actorFields.2
      requestID := if pl.uuidParse ctx.correlation then ctx.correlation else pl.uuid (fresh + 1)
      email := "", ipAddress := "", detail := "", prevHash := "", recordHash := ""
      sequence := none, keyID := "" }
  else none

/-- An event as `Capture` leaves it and every later step keeps it: version 1, with an id, without a
row and without personal text. -/
structure Evidence (e : AuditLog) : Prop where
  id : e.id = 0
  version : e.version = 1
  eventID : e.eventID ≠ ""
  email : e.email = ""
  ipAddress : e.ipAddress = ""
  detail : e.detail = ""

theorem evidence_capture {ctx : Context} {now : Int} {fresh : Nat} {entry e : AuditLog}
    (h : capture pl ctx now fresh entry = some e) : Evidence e ∧ e.tenantID = ctx.tenant := by
  unfold capture at h
  split at h
  · cases h
  split at h
  · cases h
  split at h
  · cases h
    exact ⟨⟨rfl, rfl, givenID_ne_empty pl fresh entry, rfl, rfl, rfl⟩, rfl⟩
  · cases h

/-! ## The canonical text -/

/-- The fields under the signature. A user id of 0 and none are the same to it. -/
def AuditLog.signed (e : AuditLog) : List Scalar :=
  [.str "finn.audit.event.v1", .num e.version, .str e.eventID, .str e.tenantID,
    .num (e.sequence.getD 0 : Nat), .str e.prevHash, .str e.keyID, .num (unixMilli e.createdAt),
    .str e.actorKind, .num e.actorID, .num (e.userID.getD 0 : Nat), .str e.requestID, .str e.event,
    .str e.action, .bool e.success]

/-- `audit.Canonical`. -/
def canonical (e : AuditLog) : String := writeArray e.signed

/-- The two events agree on every signed field. -/
structure SameSigned (e e' : AuditLog) : Prop where
  version : e.version = e'.version
  eventID : e.eventID = e'.eventID
  tenantID : e.tenantID = e'.tenantID
  sequence : e.sequence.getD 0 = e'.sequence.getD 0
  prevHash : e.prevHash = e'.prevHash
  keyID : e.keyID = e'.keyID
  createdAt : unixMilli e.createdAt = unixMilli e'.createdAt
  actorKind : e.actorKind = e'.actorKind
  actorID : e.actorID = e'.actorID
  userID : e.userID.getD 0 = e'.userID.getD 0
  requestID : e.requestID = e'.requestID
  event : e.event = e'.event
  action : e.action = e'.action
  success : e.success = e'.success

/-- **The canonical text determines every signed field.** -/
theorem canonical_injective {e e' : AuditLog} (h : canonical e = canonical e') :
    SameSigned e e' := by
  have hsigned : e.signed = e'.signed := writeArray_injective h
  simp only [AuditLog.signed, List.cons.injEq, Scalar.str.injEq, Scalar.num.injEq,
    Scalar.bool.injEq, Int.natCast_inj, and_true, true_and] at hsigned
  obtain ⟨h₁, h₂, h₃, h₄, h₅, h₆, h₇, h₈, h₉, h₁₀, h₁₁, h₁₂, h₁₃, h₁₄⟩ := hsigned
  exact ⟨h₁, h₂, h₃, h₄, h₅, h₆, h₇, h₈, h₉, h₁₀, h₁₁, h₁₂, h₁₃, h₁₄⟩

/-! ## The payload -/

/-- A member with `omitempty`. -/
def optional (key : String) (s : String) : List (String × Scalar) :=
  if s = "" then [] else [(key, .str s)]

def optionalNum (key : String) (n : Option Nat) : List (String × Scalar) :=
  n.elim [] fun n => [(key, .num n)]

/-- The members `encoding/json` writes for an event whose time has the text `createdAt`. -/
def members (createdAt : String) (e : AuditLog) : List (String × Scalar) :=
  [("id", .num e.id), ("tenantId", .str e.tenantID),
    ("userId", e.userID.elim .null fun u => .num u), ("email", .str e.email),
    ("event", .str e.event), ("ipAddress", .str e.ipAddress), ("success", .bool e.success),
    ("detail", .str e.detail)] ++
  optional "prevHash" e.prevHash ++ optional "recordHash" e.recordHash ++
  [("createdAt", .str createdAt), ("version", .num e.version)] ++
  optional "eventId" e.eventID ++
  optionalNum "sequence" e.sequence ++
  optional "keyId" e.keyID ++ optional "actorKind" e.actorKind ++
  optionalNum "actorId" (if e.actorID = 0 then none else some e.actorID) ++
  optional "requestId" e.requestID ++ optional "action" e.action

/-- `json.Marshal` of an event. -/
def marshal (pl : Platform) (e : AuditLog) : Option String :=
  (pl.timeText e.createdAt).map fun createdAt => writeObject (members createdAt e)

/-! A missing member and `null` leave a field at its zero value; a value of another type is an
error. -/

def strField (ms : List (String × Scalar)) (key : String) : Option String :=
  match get? key ms with
  | none => some ""
  | some .null => some ""
  | some (.str s) => some s
  | some _ => none

def natField? (ms : List (String × Scalar)) (key : String) : Option (Option Nat) :=
  match get? key ms with
  | none => some none
  | some .null => some none
  | some (.num (.ofNat n)) => some (some n)
  | some _ => none

def natField (ms : List (String × Scalar)) (key : String) : Option Nat :=
  (natField? ms key).map (·.getD 0)

def boolField (ms : List (String × Scalar)) (key : String) : Option Bool :=
  match get? key ms with
  | none => some false
  | some .null => some false
  | some (.bool b) => some b
  | some _ => none

/-- The zero `time.Time`: the first of January of the year 1. -/
def zeroTime : Int := -62135596800 * 1000000000

def timeField (pl : Platform) (ms : List (String × Scalar)) (key : String) : Option Int :=
  match get? key ms with
  | none => some zeroTime
  | some .null => some zeroTime
  | some (.str s) => pl.parseTime s
  | some _ => none

/-- `json.Unmarshal` into an event. -/
def unmarshal (pl : Platform) (payload : String) : Option AuditLog := do
  let ms ← readObject payload
  some {
    id := ← natField ms "id"
    tenantID := ← strField ms "tenantId"
    userID := ← natField? ms "userId"
    email := ← strField ms "email"
    event := ← strField ms "event"
    ipAddress := ← strField ms "ipAddress"
    success := ← boolField ms "success"
    detail := ← strField ms "detail"
    prevHash := ← strField ms "prevHash"
    recordHash := ← strField ms "recordHash"
    createdAt := ← timeField pl ms "createdAt"
    version := ← natField ms "version"
    eventID := ← strField ms "eventId"
    sequence := ← natField? ms "sequence"
    keyID := ← strField ms "keyId"
    actorKind := ← strField ms "actorKind"
    actorID := ← natField ms "actorId"
    requestID := ← strField ms "requestId"
    action := ← strField ms "action" }

@[simp] theorem get?_optional (k key s : String) :
    get? k (optional key s) = if key = k ∧ s ≠ "" then some (.str s) else none := by
  unfold optional
  split
  · rename_i hs
    simp [hs]
  · rename_i hs
    simp [hs]

@[simp] theorem get?_optionalNum (k key : String) (n : Option Nat) :
    get? k (optionalNum key n) = if key = k then n.map fun n => .num n else none := by
  cases n with
  | none => simp [optionalNum]
  | some n => simp [optionalNum]

section Fields

variable {ms : List (String × Scalar)} {key : String}

theorem strField_some {s : String} (h : get? key ms = some (.str s)) :
    strField ms key = some s := by
  rw [strField, h]

/-- A member that is left out when it is empty reads as empty. -/
theorem strField_optional {s : String}
    (h : get? key ms = if s = "" then none else some (.str s)) : strField ms key = some s := by
  rw [strField, h]
  by_cases hs : s = ""
  · rw [if_pos hs, hs]
  · rw [if_neg hs]

theorem natField?_map {n : Option Nat} (h : get? key ms = n.map fun n => .num n) :
    natField? ms key = some n := by
  rw [natField?, h]
  cases n <;> rfl

theorem natField_some {n : Nat} (h : get? key ms = some (.num n)) : natField ms key = some n := by
  rw [natField, natField?_map (n := some n) h]
  rfl

theorem natField_optional {n : Nat}
    (h : get? key ms = (if n = 0 then none else some n).map fun n => .num n) :
    natField ms key = some n := by
  rw [natField, natField?_map h]
  by_cases hn : n = 0
  · rw [if_pos hn, hn]; rfl
  · rw [if_neg hn]; rfl

end Fields

/-- **An event comes out of its payload as it went in.** -/
theorem unmarshal_marshal {e : AuditLog} {payload : String} (h : marshal pl e = some payload) :
    unmarshal pl payload = some e := by
  obtain ⟨createdAt, htext, rfl⟩ := Option.map_eq_some_iff.1 h
  have huser : natField? (members createdAt e) "userId" = some e.userID := by
    rw [natField?]
    cases hu : e.userID <;> simp [members, hu]
  have hsuccess : boolField (members createdAt e) "success" = some e.success := by
    simp [boolField, members]
  have htime : timeField pl (members createdAt e) "createdAt" = some e.createdAt := by
    simp [timeField, members, pl.parseTime_timeText htext]
  unfold unmarshal
  rw [readObject_writeObject, Option.bind_eq_bind, Option.bind_some, huser, hsuccess, htime]
  rw [natField_some (n := e.id) (by simp [members]),
    strField_some (s := e.tenantID) (by simp [members]),
    strField_some (s := e.email) (by simp [members]),
    strField_some (s := e.event) (by simp [members]),
    strField_some (s := e.ipAddress) (by simp [members]),
    strField_some (s := e.detail) (by simp [members]),
    strField_optional (s := e.prevHash) (by simp [members]),
    strField_optional (s := e.recordHash) (by simp [members]),
    natField_some (n := e.version) (by simp [members]),
    strField_optional (s := e.eventID) (by simp [members]),
    natField?_map (n := e.sequence) (by simp [members]),
    strField_optional (s := e.keyID) (by simp [members]),
    strField_optional (s := e.actorKind) (by simp [members]),
    natField_optional (n := e.actorID) (by simp [members]),
    strField_optional (s := e.requestID) (by simp [members]),
    strField_optional (s := e.action) (by simp [members])]
  rfl

/-! ## The key ring -/

/-- `audit.Keys`, as `NewKeyRing` builds it: both current keys are in the ring. -/
structure Keys where
  current : String
  signing : List (String × String)
  checkpoints : List (String × String)
  checkpointCurrent : String
  current_held : (signing.lookup current).isSome
  checkpoint_held : (checkpoints.lookup checkpointCurrent).isSome

namespace Keys

variable (pl : Platform) (keys : Keys)

/-- The key that signs. -/
def signingKey : String := (keys.signing.lookup keys.current).get keys.current_held

def checkpointKey : String :=
  (keys.checkpoints.lookup keys.checkpointCurrent).get keys.checkpoint_held

theorem lookup_current : keys.signing.lookup keys.current = some keys.signingKey := by
  simp [signingKey]

theorem lookup_checkpoint :
    keys.checkpoints.lookup keys.checkpointCurrent = some keys.checkpointKey := by
  simp [checkpointKey]

/-- `Keys.Sign`. -/
def sign (e : AuditLog) : AuditLog :=
  { e with
    keyID := keys.current
    recordHash := pl.mac keys.signingKey (canonical { e with keyID := keys.current }) }

/-- `Keys.Verify` finds no error. -/
def verify (e : AuditLog) : Bool :=
  match keys.signing.lookup e.keyID with
  | none => false
  | some key =>
    e.version = 1 && e.sequence.any (· ≠ 0) && pl.mac key (canonical e) = e.recordHash

/-- The event carries the MAC under this key. -/
structure SignedWith (key : String) (e : AuditLog) : Prop where
  version : e.version = 1
  sequence : e.sequence.getD 0 ≠ 0
  mac : pl.mac key (canonical e) = e.recordHash

variable {pl} {keys} {e : AuditLog}

theorem verify_iff : keys.verify pl e = true ↔
    ∃ key, keys.signing.lookup e.keyID = some key ∧ SignedWith pl key e := by
  unfold verify
  split
  · rename_i h
    simp [h]
  · rename_i key h
    have hseq : e.sequence.any (· ≠ 0) = true ↔ e.sequence.getD 0 ≠ 0 := by
      cases e.sequence <;> simp
    simp only [Bool.and_eq_true, decide_eq_true_eq, hseq, h, Option.some.injEq]
    constructor
    · rintro ⟨⟨hv, hs⟩, hm⟩
      exact ⟨key, rfl, hv, hs, hm⟩
    · rintro ⟨_, rfl, hv, hs, hm⟩
      exact ⟨⟨hv, hs⟩, hm⟩

/-- **What a ring signs it verifies.** -/
theorem signedWith_sign (hv : e.version = 1) (hs : e.sequence.getD 0 ≠ 0) :
    SignedWith pl keys.signingKey (keys.sign pl e) :=
  ⟨hv, hs, rfl⟩

end Keys

/-! ## Checkpoints -/

/-- `audit.Checkpoint`. -/
structure Checkpoint where
  tenant : String
  sequence : Nat
  hash : String
  keyID : String
  mac : String
  deriving DecidableEq, Repr

/-- `checkpointBytes`. -/
def checkpointBytes (c : Checkpoint) : String :=
  writeArray [.str "finn.audit.checkpoint.v1", .str c.tenant, .num c.sequence, .str c.hash,
    .str c.keyID]

/-- `Keys.Checkpoint`. -/
def Keys.checkpoint (pl : Platform) (keys : Keys) (tenant : String) (sequence : Nat)
    (hash : String) : Checkpoint :=
  let c : Checkpoint := ⟨tenant, sequence, hash, keys.checkpointCurrent, ""⟩
  { c with mac := pl.mac keys.checkpointKey (checkpointBytes c) }

/-- `Keys.VerifyCheckpoint` finds no error. -/
def Keys.verifyCheckpoint (pl : Platform) (keys : Keys) (c : Checkpoint) : Bool :=
  match keys.checkpoints.lookup c.keyID with
  | none => false
  | some key => pl.mac key (checkpointBytes c) = c.mac

theorem Keys.verifyCheckpoint_checkpoint (pl : Platform) (keys : Keys) (tenant : String)
    (sequence : Nat) (hash : String) :
    keys.verifyCheckpoint pl (keys.checkpoint pl tenant sequence hash) = true := by
  have hkey : keys.checkpoints.lookup (keys.checkpoint pl tenant sequence hash).keyID =
      some keys.checkpointKey := keys.lookup_checkpoint
  unfold verifyCheckpoint
  rw [hkey]
  exact decide_eq_true rfl

/-! ## The chain -/

/-- `GenesisAuditHash`. -/
def genesisAuditHash : String :=
  "0000000000000000000000000000000000000000000000000000000000000000"

/-- Events are linked by number and hash. -/
def links : Links AuditLog String where
  seq e := e.sequence.getD 0
  prev e := e.prevHash
  digest e := e.recordHash

end FinnAuth.Audit
