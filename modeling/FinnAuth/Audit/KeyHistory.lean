import FinnAuth.Audit.Outbox
import FinnAuth.Audit.Tamper
import FinnAuth.Lib.Base64

/-!
# The key history

`NewKeyRing` builds a ring from a configuration of encoded keys, and `ValidateKeyHistory` refuses a
ring that lacks a key which signed rows still need. It asks the database for nine distinct key ids
of either table. A ring has at most eight keys, so nine ids are never all in it, and with fewer the
database has shown every id there is.

Which ids are distinct is up to the collation of the column: the migrations declare none, and the
default one of the server takes two ids that differ in case for one.

Results:
* `newKeyRing_length`: a ring has at most eight signing keys;
* `exists_answer_iff`: when the database may return ids that are all in the ring;
* **`key_history_exact_iff`**: the check is exact if and only if no id without a key hides behind
  one with a key.
-/

namespace FinnAuth.Audit

open Lib Base64

/-! ## The ring -/

variable {keys : Keys} {others : List (String × String)} {ids : List String}

/-- The two words do not occur in a key. -/
def guessable : List (List UInt8) := [utf8 "default".toList, utf8 "secret".toList]

/-- `strings.ToLower` on bytes. Only ASCII letters have their lower case among the letters of
`guessable`. -/
def lower (b : UInt8) : UInt8 := if 65 ≤ b ∧ b ≤ 90 then b + 32 else b

/-- `strings.Contains`. -/
def containsWord (word bs : List UInt8) : Bool := bs.tails.any word.isPrefixOf

/-- Bytes as a text, one character for each. -/
def keyText (bs : List UInt8) : String := String.ofList (bs.map fun b => Char.ofNat b.toNat)

/-- `decodeKey`. -/
def decodeKey (encoded : String) : Option String :=
  match decodePadded encoded.toList with
  | none => none
  | some b =>
    if encodePadded b ≠ encoded.toList ∨ b.length < 32 ∨ b.length > 128 ∨
        b = List.replicate b.length (b.headD 0) ∨
        guessable.any (containsWord · (b.map lower)) then none
    else if b.eraseDups.length < 16 then none
    else some (keyText b)

/-- What `NewKeyRing` fails with: `ErrUnavailable`, or a checkpoint key that signs. -/
inductive KeyRingError : Type where
  | unavailable
  | notSeparate
  deriving DecidableEq, Repr

/-- A map from key ids to encoded keys. -/
abbrev KeyMap := Table (Prod.fst : String × String → String)

/-- The keys of a configuration; none of them is among `others`. -/
def decodeKeys (others : List (String × String)) :
    List (String × String) → Except KeyRingError (List (String × String))
  | [] => .ok []
  | (id, value) :: rest =>
    match decodeKey value with
    | none => .error .unavailable
    | some key =>
      if id = "" ∨ id.utf8ByteSize > 64 then .error .unavailable
      else if others.any (·.2 = key) then .error .notSeparate
      else
        match decodeKeys others rest with
        | .error e => .error e
        | .ok keys => .ok ((id, key) :: keys)

/-- `NewKeyRing`. -/
def newKeyRing (current : String) (encoded : KeyMap) (checkpointID : String)
    (checkpoints : KeyMap) : Except KeyRingError Keys :=
  if current = "" ∨ current.utf8ByteSize > 64 ∨ encoded.rows.length > 8 then .error .unavailable
  else
    match decodeKeys [] encoded.rows with
    | .error e => .error e
    | .ok signing =>
      if hcurrent : (signing.lookup current).isSome then
        if checkpointID = "" ∨ checkpoints.rows.length > 8 then .error .unavailable
        else
          match decodeKeys signing checkpoints.rows with
          | .error e => .error e
          | .ok decoded =>
            if hcheckpoint : (decoded.lookup checkpointID).isSome then
              .ok ⟨current, signing, decoded, checkpointID, hcurrent, hcheckpoint⟩
            else .error .unavailable
      else .error .unavailable

/-- `Keys.HasKey`. -/
def Keys.hasKey (keys : Keys) (id : String) : Bool := (keys.signing.lookup id).isSome

theorem decodeKeys_length :
    ∀ {encoded keys : List (String × String)}, decodeKeys others encoded = .ok keys →
      keys.length = encoded.length
  | [], keys, h => by cases h; rfl
  | (id, value) :: rest, keys, h => by
    unfold decodeKeys at h
    split at h
    · cases h
    split at h
    · cases h
    split at h
    · cases h
    split at h
    · cases h
    rename_i ks hks
    cases h
    rw [List.length_cons, List.length_cons, decodeKeys_length hks]

/-- **A ring has at most eight signing keys.** -/
theorem newKeyRing_length {current checkpointID : String} {encoded checkpoints : KeyMap}
    (h : newKeyRing current encoded checkpointID checkpoints = .ok keys) :
    keys.signing.length ≤ 8 := by
  unfold newKeyRing at h
  split at h
  · cases h
  rename_i hlimit
  split at h
  · cases h
  rename_i signing hsigning
  split at h
  · split at h
    · cases h
    split at h
    · cases h
    split at h
    · cases h
      have := decodeKeys_length hsigning
      simp only
      omega
    · cases h
  · cases h

theorem Keys.mem_of_hasKey {id : String} (h : keys.hasKey id = true) :
    id ∈ keys.signing.map Prod.fst := by
  unfold Keys.hasKey at h
  generalize keys.signing = l at h ⊢
  induction l with
  | nil => cases h
  | cons p l ih =>
    rw [List.lookup_cons] at h
    rw [List.map_cons, List.mem_cons]
    split at h
    · rename_i heq
      exact .inl (by simpa using heq)
    · exact .inr (ih h)

/-- Distinct ids that are all in the ring are no more than its keys. -/
theorem held_length (hnodup : ids.Nodup) (hheld : ∀ id ∈ ids, keys.hasKey id = true) :
    ids.length ≤ keys.signing.length := by
  have hsub : ids ⊆ keys.signing.map Prod.fst := fun id hid => Keys.mem_of_hasKey (hheld id hid)
  have hle := hnodup.length_le_of_subset hsub
  rwa [List.length_map] at hle

/-! ## The query -/

/-- What `SELECT DISTINCT key_id … LIMIT 9` may return where the rows have the key ids `stored`:
some of them, no two the same, and one for each of them if there are fewer than nine. -/
structure Answer (co : Collation) (stored ids : List String) : Prop where
  subset : ids ⊆ stored
  distinct : ids.Pairwise fun a b => ¬ co.same a b = true
  limit : ids.length ≤ 9
  complete : ids.length < 9 → ∀ id ∈ stored, ∃ id' ∈ ids, co.same id id' = true

/-- The ids of the signed rows of `audit_logs`. -/
def AuditTables.logKeyIDs (db : AuditTables) : List String :=
  (db.logs.rows.filter (·.version = 1)).map AuditLog.keyID

/-- The ids of the outbox rows that are not delivered. -/
def AuditTables.outboxKeyIDs (db : AuditTables) : List String :=
  (db.outbox.rows.filter (·.state ≠ .delivered)).map AuditOutbox.keyID

/-- One round of the loop of `ValidateKeyHistory`: the query failed, or returned these ids. -/
def checkKeyIDs (keys : Keys) : Option (List String) → Except Err Unit
  | none => .error .unavailable
  | some ids => if ids.all keys.hasKey then .ok () else .error .unavailable

/-- `AuditRepository.ValidateKeyHistory`, with what its two queries return. -/
def validateKeyHistory (keys : Keys) (logIDs outboxIDs : Option (List String)) :
    Except Err Unit :=
  match checkKeyIDs keys logIDs with
  | .error e => .error e
  | .ok _ => checkKeyIDs keys outboxIDs

theorem validateKeyHistory_ok {logIDs outboxIDs : List String} :
    validateKeyHistory keys (some logIDs) (some outboxIDs) = .ok () ↔
      (∀ id ∈ logIDs, keys.hasKey id = true) ∧ ∀ id ∈ outboxIDs, keys.hasKey id = true := by
  simp only [validateKeyHistory, checkKeyIDs, ← List.all_eq_true]
  cases logIDs.all keys.hasKey <;> simp

/-! ## Exactness -/

section Exact

variable {co : Collation} {keys : Keys}

/-- Every stored id is the same to the column as a stored one with a key. -/
def Covered (co : Collation) (keys : Keys) (stored : List String) : Prop :=
  ∀ id ∈ stored, ∃ id' ∈ stored, co.same id id' = true ∧ keys.hasKey id' = true

/-- Ids that are not the same to the column are distinct. -/
theorem nodup_of_distinct (h : ids.Pairwise fun a b => ¬ co.same a b = true) : ids.Nodup := by
  refine h.imp fun {a b} hne heq => hne ?_
  rw [heq]
  exact co.refl b

/-- One id for every class of ids that are the same to the column. -/
theorem representatives (co : Collation) (stored : List String) :
    ∃ ids, ids ⊆ stored ∧ ids.Pairwise (fun a b => ¬ co.same a b = true) ∧
      ∀ id ∈ stored, ∃ id' ∈ ids, co.same id id' = true := by
  refine ⟨stored.pwFilter fun a b => ¬ co.same a b = true, List.pwFilter_subset _,
    List.pairwise_pwFilter _, fun id hid => ?_⟩
  by_contra hnone
  have hall : ∀ id' ∈ stored, ¬ co.same id id' = true := by
    refine (List.forall_mem_pwFilter (fun hac => ?_) id stored).1 fun id' hid' hsame =>
      hnone ⟨id', hid', hsame⟩
    by_contra hboth
    simp only [not_or, not_not] at hboth
    exact hac (co.trans hboth.1 hboth.2)
  exact hall id hid (co.refl id)

/-- **The database may return ids that are all in the ring** if and only if every stored id is the
same to the column as a stored one in the ring: nine distinct ids are too many for a ring. -/
theorem exists_answer_iff (h8 : keys.signing.length ≤ 8) {stored : List String} :
    (∃ ids, Answer co stored ids ∧ ∀ id ∈ ids, keys.hasKey id = true) ↔
      Covered co keys stored := by
  constructor
  · rintro ⟨ids, hanswer, hheld⟩ id hid
    have hlength := held_length (nodup_of_distinct hanswer.distinct) hheld
    obtain ⟨id', hid', hsame⟩ := hanswer.complete (by omega) id hid
    exact ⟨id', hanswer.subset hid', hsame, hheld id' hid'⟩
  · intro hcovered
    obtain ⟨ids, hsub, hdistinct, hall⟩ := representatives co (stored.filter keys.hasKey)
    have hheld : ∀ id ∈ ids, keys.hasKey id = true := fun id hid =>
      (List.mem_filter.1 (hsub hid)).2
    have hlength := held_length (nodup_of_distinct hdistinct) hheld
    refine ⟨ids, ⟨fun id hid => (List.mem_filter.1 (hsub hid)).1, hdistinct, by omega,
      fun _ id hid => ?_⟩, hheld⟩
    obtain ⟨id', hid', hsame, hkey⟩ := hcovered id hid
    obtain ⟨id'', hid'', hsame'⟩ := hall id' (List.mem_filter.2 ⟨hid', hkey⟩)
    exact ⟨id'', hid'', co.trans hsame hsame'⟩

/-- The key id of every signed row and of every row that waits is in the ring. -/
def Keys.Suffices (keys : Keys) (db : AuditTables) : Prop :=
  (∀ id ∈ db.logKeyIDs, keys.hasKey id = true) ∧ ∀ id ∈ db.outboxKeyIDs, keys.hasKey id = true

/-- Whatever the database returns, the check succeeds if and only if the ring has the keys. -/
def HistoryExact (co : Collation) (keys : Keys) (db : AuditTables) : Prop :=
  ∀ logIDs outboxIDs, Answer co db.logKeyIDs logIDs → Answer co db.outboxKeyIDs outboxIDs →
    (validateKeyHistory keys (some logIDs) (some outboxIDs) = .ok () ↔ keys.Suffices db)

theorem historyExact_iff (h8 : keys.signing.length ≤ 8) (db : AuditTables) :
    HistoryExact co keys db ↔
      (Covered co keys db.logKeyIDs → Covered co keys db.outboxKeyIDs → keys.Suffices db) := by
  constructor
  · intro hexact hlogs houtbox
    obtain ⟨logIDs, hlog, hlogHeld⟩ := (exists_answer_iff h8).2 hlogs
    obtain ⟨outboxIDs, hout, houtHeld⟩ := (exists_answer_iff h8).2 houtbox
    exact (hexact logIDs outboxIDs hlog hout).1 (validateKeyHistory_ok.2 ⟨hlogHeld, houtHeld⟩)
  · intro hcond logIDs outboxIDs hlog hout
    rw [validateKeyHistory_ok]
    constructor
    · rintro ⟨hlogHeld, houtHeld⟩
      exact hcond ((exists_answer_iff h8).1 ⟨logIDs, hlog, hlogHeld⟩)
        ((exists_answer_iff h8).1 ⟨outboxIDs, hout, houtHeld⟩)
    · rintro ⟨hlogs, houtbox⟩
      exact ⟨fun id hid => hlogs id (hlog.subset hid), fun id hid => houtbox id (hout.subset hid)⟩

/-- **When the key history check is exact.** For every ring `NewKeyRing` builds, every database and
every collation, whatever ids the database returns: the check is exact if and only if the ring has
all the keys whenever every id is the same to the column as one with a key. -/
theorem key_history_exact_iff {current checkpointID : String} {encoded checkpoints : KeyMap}
    (hring : newKeyRing current encoded checkpointID checkpoints = .ok keys) (db : AuditTables) :
    HistoryExact co keys db ↔
      (Covered co keys db.logKeyIDs → Covered co keys db.outboxKeyIDs → keys.Suffices db) :=
  historyExact_iff (newKeyRing_length hring) db

end Exact

/-! ## Two ids that differ in case -/

/-- A configuration with the signing key `k1`. -/
def KeyMap.sampleSigning : KeyMap :=
  ⟨[("k1", "AAECAwQFBgcICQoLDA0ODxAREhMUFRYXGBkaGxwdHh8=")], by decide⟩

def KeyMap.sampleCheckpoints : KeyMap :=
  ⟨[("c1", "ICEiIyQlJicoKSorLC0uLzAxMjM0NTY3ODk6Ozw9Pj8=")], by decide⟩

/-- The bytes from `n` on, as many as a key of the samples has. -/
def sampleKey (n : Nat) : String := keyText ((List.range 32).map fun i => UInt8.ofNat (n + i))

/-- The ring of the configuration. -/
def Keys.configured : Keys where
  current := "k1"
  signing := [("k1", sampleKey 0)]
  checkpoints := [("c1", sampleKey 32)]
  checkpointCurrent := "c1"
  current_held := rfl
  checkpoint_held := rfl

theorem decodeKeys_single {id value key : String} (hid : ¬ (id = "" ∨ id.utf8ByteSize > 64))
    (hkey : decodeKey value = some key) (hother : others.any (·.2 = key) = false) :
    decodeKeys others [(id, value)] = .ok [(id, key)] := by
  simp only [decodeKeys, hkey, hid, hother, if_false, Bool.false_eq_true]

theorem newKeyRing_sample :
    newKeyRing "k1" .sampleSigning "c1" .sampleCheckpoints = .ok .configured := by
  have hsigning : decodeKeys [] KeyMap.sampleSigning.rows = .ok [("k1", sampleKey 0)] :=
    decodeKeys_single (by decide) (by decide +kernel) rfl
  have hcheckpoints : decodeKeys [("k1", sampleKey 0)] KeyMap.sampleCheckpoints.rows =
      .ok [("c1", sampleKey 32)] :=
    decodeKeys_single (by decide) (by decide +kernel) (by decide +kernel)
  unfold newKeyRing
  rw [if_neg (by decide), hsigning]
  have hcurrent : (List.lookup "k1" [("k1", sampleKey 0)]).isSome = true := rfl
  have hcheckpoint : (List.lookup "c1" [("c1", sampleKey 32)]).isSome = true := rfl
  simp only [hcurrent, dif_pos]
  rw [if_neg (by decide), hcheckpoints]
  rfl

/-- A signed row of `audit_logs`. -/
def AuditLog.signedBy (n : Nat) (keyID : String) : AuditLog :=
  { AuditLog.sample with id := n, eventID := toString n, sequence := some n, keyID := keyID }

/-- A database with two signed rows and an empty outbox. -/
def AuditTables.twoRows (keyID keyID' : String) : AuditTables where
  heads := .empty
  outbox := .empty
  boundaries := .empty
  logs :=
    { rows := [AuditLog.signedBy 1 keyID, AuditLog.signedBy 2 keyID']
      next := 3
      fresh := by simp [AuditLog.signedBy]
      apart := List.pairwise_pair.2 ⟨(by decide : 1 ≠ 2),
        fun h => absurd h (by decide : toString 1 ≠ toString 2),
        fun _ h => absurd h (by decide : some 1 ≠ some 2)⟩ }

/-- With two rows of the key `k1` the check is exact. -/
theorem key_history_exact_sample :
    newKeyRing "k1" .sampleSigning "c1" .sampleCheckpoints = .ok .configured ∧
      HistoryExact .caseless .configured (.twoRows "k1" "k1") := by
  refine ⟨newKeyRing_sample, (key_history_exact_iff newKeyRing_sample _).2 fun _ _ => ⟨?_, ?_⟩⟩
  · intro id hid
    have hk : id = "k1" := by
      simpa [AuditTables.logKeyIDs, AuditTables.twoRows, AuditLog.signedBy, AuditLog.sample,
        Keys.sign] using hid
    rw [hk]
    rfl
  · intro id hid
    cases hid

/-- The ring has the key `k1`, the rows need `k1` and `K1`, and the column takes the two for one:
the database may return `k1` alone, and the check finds nothing missing. -/
theorem key_history_misses_case :
    newKeyRing "k1" .sampleSigning "c1" .sampleCheckpoints = .ok .configured ∧
      Answer .caseless (AuditTables.twoRows "k1" "K1").logKeyIDs ["k1"] ∧
      Answer .caseless (AuditTables.twoRows "k1" "K1").outboxKeyIDs [] ∧
      validateKeyHistory .configured (some ["k1"]) (some []) = .ok () ∧
      ¬ Keys.configured.Suffices (.twoRows "k1" "K1") := by
  have hstored : (AuditTables.twoRows "k1" "K1").logKeyIDs = ["k1", "K1"] := by
    simp [AuditTables.logKeyIDs, AuditTables.twoRows, AuditLog.signedBy, AuditLog.sample, Keys.sign]
  refine ⟨newKeyRing_sample, ⟨by simp [hstored], List.pairwise_singleton .., by simp, ?_⟩,
    ⟨List.nil_subset _, .nil, by simp, fun _ id hid => by cases hid⟩, rfl, fun hall => ?_⟩
  · rw [hstored]
    decide +kernel
  · have hheld := hall.1 "K1" (by simp [hstored])
    cases hheld

end FinnAuth.Audit
