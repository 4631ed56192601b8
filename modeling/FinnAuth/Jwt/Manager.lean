import FinnAuth.Jwt.Claims

/-!
# The token manager

`internal/jwt`: the strict manager that deployments use, its key configuration, the access tokens it
issues and how it verifies them.

* Times are in nanoseconds of Unix time. The clock is the 64-bit `UnixNano`; what is computed from
  it is not bounded. A `NumericDate` is cut to whole seconds.
* The fresh identifier of a token (`uuid.NewString`) is an argument; it is not empty.
* The parser is the library's: header and payload are decoded, the algorithm must be HS256, the
  signature must match, and the registered times and the issuer are checked with a leeway of 30 s.

Out of scope: the legacy constructors and their fallback for tokens without a key id.

Results:
* `JWTManager`: the key ids of a manager are valid and distinct, by construction;
* `verify_ok`: what the strict `Verify` accepts.
-/

namespace FinnAuth.Jwt

open Lib JsonText

def second : Int := 1000000000

/-- `MaxAccessTTL` -/
def maxAccessTTL : Int := 900 * second

/-- `MaxSkew` -/
def maxSkew : Int := 30 * second

/-- `KeyDrain` -/
def keyDrain : Int := maxAccessTTL + maxSkew

/-- `Issuer` -/
def issuer : String := "finnapigo"

/-- `FinnAudience` -/
def finnAudience : String := "finnapigo-api"

/-- `JakeAudience` -/
def jakeAudience : String := "jakeai-service"

/-- `TokenTypeAccess` -/
def tokenTypeAccess : String := "access"

/-- What `time.Now()` can show. -/
abbrev Moment := Fin (2 ^ 63)

/-- The text of a fresh identifier. -/
structure Uuid where
  text : String
  nonempty : text ≠ ""

inductive JwtError : Type where
  | invalidToken
  | unknownKeyID
  /-- an error of the parser -/
  | parser
  deriving DecidableEq, Repr

/-! ## Keys -/

/-- `KeyConfig`; no last issuance is the zero time. -/
structure KeyConfig where
  algorithm : String
  currentID : String
  currentSecret : String
  previousID : String
  previousSecret : String
  previousLastIssued : Option Int
  deriving DecidableEq, Repr

/-- `DecodeStrongKey` -/
def decodeStrongKey (value : String) : Except String (List UInt8) :=
  match Base64.decodePadded value.toList with
  | none => .error "key must encode at least 32 random bytes as base64"
  | some b =>
    if b.length < 32 ∨ Base64.encodePadded b ≠ value.toList then
      .error "key must encode at least 32 random bytes as base64"
    else if b.dedup.length < 16 then .error "key material has insufficient diversity"
    else .ok b

/-- `validKeyID` -/
def validKeyID (s : String) : Bool :=
  !(s.utf8ByteSize = 0 || s.utf8ByteSize > 64) &&
    s.toList.all fun c =>
      "abcdefghijklmnopqrstuvwxyzABCDEFGHIJKLMNOPQRSTUVWXYZ0123456789-_".toList.contains c

structure PreviousKey where
  id : String
  key : List UInt8
  retires : Int

/-- `JWTManager` under the strict policy. -/
structure JWTManager where
  current : List UInt8
  currentKid : String
  previous : Option PreviousKey
  valid : validKeyID currentKid = true
  distinct : ∀ p ∈ previous, p.id ≠ currentKid

/-- `NewConfiguredJWTManager`, at the time `now`. -/
def newConfiguredJWTManager (now : Int) (c : KeyConfig) : Except String JWTManager :=
  if h : c.algorithm = "HS256" ∧ validKeyID c.currentID = true then
    match decodeStrongKey c.currentSecret with
    | .error e => .error e
    | .ok current =>
      if c.previousSecret = "" then
        if c.previousID ≠ "" ∨ c.previousLastIssued.isSome then
          .error "incomplete previous key configuration"
        else .ok ⟨current, c.currentID, none, h.2, by simp⟩
      else
        match decodeStrongKey c.previousSecret with
        | .error e => .error e
        | .ok previous =>
          match c.previousLastIssued with
          | none => .error "distinct previous key and past last-issuance timestamp required"
          | some last =>
            if h' : validKeyID c.previousID = true ∧ c.previousID ≠ c.currentID ∧
                c.previousSecret ≠ c.currentSecret ∧ last ≤ now then
              .ok ⟨current, c.currentID, some ⟨c.previousID, previous, last + keyDrain⟩, h.2, by
                simpa using h'.2.1⟩
            else .error "distinct previous key and past last-issuance timestamp required"
  else .error "HS256 and explicit current key ID required"

namespace JWTManager

variable (pl : Platform) (m : JWTManager)

/-- `m.keys` -/
def keys (kid : String) : Option (List UInt8) :=
  if kid = m.currentKid then some m.current
  else (m.previous.filter fun p => p.id = kid).map (·.key)

/-! ## Issuing -/

/-- `jwt.NewNumericDate` of a moment, in seconds. -/
def numericDate (t : Int) : Int := t / second

/-- `baseClaims` -/
def baseClaims (now : Moment) (userID : Nat) (role email tokenType : String) (ttl : Int) :
    Claims where
  userID := userID
  role := role
  email := email
  type := tokenType
  pwdVer := 0
  authEpoch := 0
  contractVersion := 0
  sid := ""
  tenantID := ""
  permissions := none
  issuer := issuer
  subject := userID.repr
  audience := []
  expiresAt := some (numericDate (now.val + ttl))
  notBefore := some (numericDate now.val)
  issuedAt := some (numericDate now.val)
  id := ""

/-- A member with `omitempty`. -/
def omitempty (empty : Bool) (name : String) (v : Flat) : List (String × Flat) :=
  if empty then [] else [(name, v)]

def optional (name s : String) : List (String × Flat) := omitempty (s = "") name (.str s)

def optionalDate (name : String) (d : Option Int) : List (String × Flat) :=
  d.elim [] fun t => [(name, .num t)]

/-- The members `json.Marshal` writes for claims. -/
def members (c : Claims) : List (String × Flat) :=
  [("uid", .num c.userID)] ++ optional "role" c.role ++ optional "email" c.email ++
  [("type", .str c.type), ("pwdver", .num c.pwdVer), ("auth_epoch", .num c.authEpoch)] ++
  omitempty (c.contractVersion = 0) "contract_ver" (.num c.contractVersion) ++
  optional "sid" c.sid ++ optional "tid" c.tenantID ++
  [("perms", c.permissions.elim .null .strs)] ++ optional "iss" c.issuer ++
  optional "sub" c.subject ++ omitempty (c.audience = []) "aud" (.strs c.audience) ++
  optionalDate "exp" c.expiresAt ++ optionalDate "nbf" c.notBefore ++
  optionalDate "iat" c.issuedAt ++ optional "jti" c.id

/-- The header of an issued token; `json.Marshal` sorts the names of a map. -/
def header : List (String × Flat) :=
  [("alg", .str "HS256"), ("kid", .str m.currentKid), ("typ", .str "JWT")]

/-- `sign` -/
def sign (c : Claims) : String :=
  let input :=
    encodeSegment (writeObject m.header) ++ '.' :: encodeSegment (writeObject (members c))
  String.ofList (input ++ '.' :: Base64.encode .url (pl.mac m.current input))

/-- The arguments of `IssueAccessV1`, with the ranges of their types. -/
structure AccessV1 where
  userID : Nat
  role : String
  email : String
  ttl : Int
  pwdVer : Int
  authEpoch : Int
  sid : String
  tid : String
  perms : List String
  userID_lt : userID < 2 ^ 64
  pwdVer_range : -(2 ^ 63) ≤ pwdVer ∧ pwdVer < 2 ^ 63
  authEpoch_range : -(2 ^ 63) ≤ authEpoch ∧ authEpoch < 2 ^ 63

/-- The claims `IssueAccessV1` signs. -/
def accessClaims (now : Moment) (jti : Uuid) (a : AccessV1) : Claims :=
  { baseClaims now a.userID a.role a.email tokenTypeAccess a.ttl with
    contractVersion := 1
    pwdVer := a.pwdVer
    authEpoch := a.authEpoch
    id := jti.text
    sid := a.sid
    tenantID := a.tid
    permissions := some a.perms
    audience :=
      if a.perms.any fun p => p = "chat:read" || p = "chat:write" then [finnAudience, jakeAudience]
      else [finnAudience] }

/-- `IssueAccessV1` -/
def issueAccessV1 (now : Moment) (jti : Uuid) (a : AccessV1) : Except JwtError String :=
  if a.userID = 0 ∨ a.sid = "" ∨ a.tid = "" ∨ a.pwdVer < 0 ∨ a.authEpoch < 0 ∨ a.ttl ≤ 0 ∨
      maxAccessTTL < a.ttl then .error .invalidToken
  else .ok (m.sign pl (accessClaims now jti a))

/-! ## The parser -/

/-- The methods the library registers. -/
def signingMethods : List String :=
  ["HS256", "HS384", "HS512", "RS256", "RS384", "RS512", "ES256", "ES384", "ES512",
    "PS256", "PS384", "PS512", "EdDSA", "none"]

/-- A value of a decoded map: the last one of the name. -/
def mapValue (ms : List (String × Value)) (name : String) : Option Value := ms.reverse.lookup name

/-- A string of a decoded map, `""` if it is not one. -/
def mapString (ms : List (String × Value)) (name : String) : String :=
  match mapValue ms name with
  | some (.str s) => s
  | _ => ""

/-- `ParseUnverified` with a decoder for the payload: the header and the claims. -/
def parseUnverified {α : Type} (decode : Value → Option α) (token : String) :
    Option (List (String × Value) × α) :=
  match parts token with
  | [h, p, _] => do
    let header ← ((segment h).bind document).bind membersOf
    let claims ← ((segment p).bind document).bind decode
    if signingMethods.contains (mapString header "alg") then some (header, claims) else none
  | _ => none

/-- `peekKid` -/
def peekKid (token : String) : String :=
  match parseUnverified membersOf token with
  | some (header, _) => mapString header "kid"
  | none => ""

/-- `SigningMethodHMAC.Verify` of the third segment over the first two. -/
def signed (key : List UInt8) (token : String) : Bool :=
  match parts token with
  | [h, p, s] => Base64.decode .url s = some (pl.mac key (h ++ '.' :: p))
  | _ => false

/-- The checks of the library's validator: `exp` is required and not past, `nbf` and `iat` are not
in the future, each with the leeway, and the issuer is ours. -/
def validate (now : Int) (c : Claims) : Bool :=
  c.expiresAt.any (fun t => now < t * second + maxSkew) &&
  c.notBefore.all (fun t => t * second - maxSkew ≤ now) &&
  c.issuedAt.all (fun t => t * second - maxSkew ≤ now) && c.issuer = issuer

/-! ## `validateAccess` -/

/-- Names that must be there with a value. -/
def requiredNames : List String :=
  ["contract_ver", "iss", "aud", "sub", "uid", "type", "tid", "exp", "iat", "nbf", "jti", "sid",
    "pwdver", "auth_epoch", "perms"]

/-- Names of other contracts. -/
def foreignNames : List String := ["tenant_id", "permissions", "roles", "scopes", "id"]

/-- Names that hold an integer that is not negative. -/
def integerNames : List String :=
  ["contract_ver", "uid", "pwdver", "auth_epoch", "exp", "iat", "nbf"]

def isNull : Value → Bool
  | .null => true
  | _ => false

/-- A present value is not `null`. -/
def present (v : Option Value) : Bool := v.any fun v => !isNull v

def isString : Value → Bool
  | .str _ => true
  | _ => false

/-- `json.Unmarshal` into an `int64`, and the sign. -/
def nonNegative (v : Option Value) : Bool :=
  match v with
  | some (.num n) => (parseInt64 n).any fun k => 0 ≤ k
  | some .null => true
  | _ => false

/-- The checks on the raw members. -/
def rawValid (raw : List (String × Value)) : Bool :=
  requiredNames.all (fun name => present (raw.lookup name)) &&
  foreignNames.all (fun name => (raw.lookup name).isNone) &&
  integerNames.all (fun name => nonNegative (raw.lookup name)) &&
  match raw.lookup "perms" with
  | some (.arr vs) => vs.all isString
  | _ => false

/-- The checks on the typed claims. -/
def claimsValid (c : Claims) : Bool :=
  c.contractVersion = 1 && c.issuer = issuer && c.type = tokenTypeAccess && c.userID ≠ 0 &&
  c.subject = c.userID.repr && pl.trimSpace c.tenantID ≠ "" && c.id ≠ "" && c.sid ≠ "" &&
  c.permissions.isSome && 0 ≤ c.pwdVer && 0 ≤ c.authEpoch

/-- The checks on the dates, among themselves and against the clock. -/
def datesValid (now : Int) (c : Claims) : Bool :=
  match c.expiresAt, c.issuedAt, c.notBefore with
  | some exp, some iat, some nbf =>
    let exp := exp * second
    let iat := iat * second
    let nbf := nbf * second
    0 < exp - iat && exp - iat ≤ maxAccessTTL && iat ≤ nbf && nbf ≤ exp &&
      iat ≤ now + maxSkew && nbf ≤ now + maxSkew && now < exp + maxSkew
  | _, _, _ => false

/-- The loop over the audiences: which ones were seen, and whether the asked one was. -/
def audiences (audience : String) : List String → Bool → Bool → Bool → Bool
  | [], hasAudience, hasFinn, _ => hasAudience && hasFinn
  | a :: rest, hasAudience, hasFinn, hasJake =>
    if a = finnAudience then
      !hasFinn && audiences audience rest (hasAudience || a = audience) true hasJake
    else if a = jakeAudience then
      !hasJake && audiences audience rest (hasAudience || a = audience) hasFinn true
    else false

/-- The checks on the audiences. -/
def audienceValid (audience : String) (c : Claims) : Bool :=
  (c.audience.length = 1 || c.audience.length = 2) &&
    audiences audience c.audience false false false

/-- `validateAccess` -/
def validateAccess (now : Int) (token : String) (c : Claims) (audience : String) : Bool :=
  match parts token with
  | [h, p, _] =>
    match (segment p).bind uniqueObject, (segment h).bind uniqueObject with
    | some raw, some _ =>
      rawValid raw && claimsValid pl c && datesValid now c && audienceValid audience c
    | _, _ => false
  | _ => false

/-! ## Verifying -/

/-- The checks on a token for one purpose. -/
def purposeValid (c : Claims) : Bool :=
  c.tenantID ≠ "" && c.userID ≠ 0 && c.subject = c.userID.repr &&
    c.audience = ["finnapigo-purpose:" ++ c.type] && c.issuedAt.isSome && c.notBefore.isSome

/-- `parse` -/
def parse (now : Int) (token : String) (key : List UInt8) : Except JwtError Claims :=
  match parseUnverified (unmarshalClaims pl) token with
  | none => .error .parser
  | some (header, c) =>
    if mapString header "alg" ≠ "HS256" ∨ signed pl key token = false ∨ validate now c = false then
      .error .parser
    else if c.type = tokenTypeAccess then
      if validateAccess pl now token c finnAudience then .ok c else .error .invalidToken
    else if purposeValid c then .ok c else .error .invalidToken

/-- `Verify` -/
def verify (now : Int) (token : String) : Except JwtError Claims :=
  if validateTokenNames pl token = false then .error .invalidToken
  else
    let kid := peekKid token
    if kid = "" then .error .unknownKeyID
    else if m.previous.any fun p => kid = p.id && p.retires ≤ now then .error .unknownKeyID
    else
      match m.keys kid with
      | none => .error .unknownKeyID
      | some key => parse pl now token key

/-- `VerifyAccessV1` -/
def verifyAccessV1 (now : Int) (token audience : String) : Except JwtError Claims :=
  if audience ≠ finnAudience ∧ audience ≠ jakeAudience then .error .invalidToken
  else
    match m.verify pl now token with
    | .error e => .error e
    | .ok c => if validateAccess pl now token c audience then .ok c else .error .invalidToken

/-! ## What is accepted -/

variable {pl m} {now : Int} {token : String} {key : List UInt8} {c : Claims}

/-- What `parse` accepts. -/
structure Parses (pl : Platform) (now : Int) (token : String) (key : List UInt8) (c : Claims) :
    Prop where
  header : ∃ header, parseUnverified (unmarshalClaims pl) token = some (header, c) ∧
    mapString header "alg" = "HS256"
  signed : signed pl key token = true
  valid : validate now c = true
  access : c.type = tokenTypeAccess → validateAccess pl now token c finnAudience = true
  purpose : c.type ≠ tokenTypeAccess → purposeValid c = true

theorem parse_ok : parse pl now token key = .ok c ↔ Parses pl now token key c := by
  unfold parse
  constructor
  · intro h
    split at h
    · cases h
    · rename_i header c' hparse
      split at h
      · cases h
      · rename_i hchecks
        simp only [not_or, not_not, Bool.not_eq_false] at hchecks
        obtain ⟨halg, hsigned, hvalid⟩ := hchecks
        split at h
        · rename_i htype
          split at h
          · rename_i haccess
            obtain rfl := Except.ok.inj h
            exact ⟨⟨header, hparse, halg⟩, hsigned, hvalid, fun _ => haccess,
              fun h => absurd htype h⟩
          · cases h
        · rename_i htype
          split at h
          · rename_i hpurpose
            obtain rfl := Except.ok.inj h
            exact ⟨⟨header, hparse, halg⟩, hsigned, hvalid, fun h => absurd h htype,
              fun _ => hpurpose⟩
          · cases h
  · rintro ⟨⟨header, hparse, halg⟩, hsigned, hvalid, haccess, hpurpose⟩
    simp only [hparse, halg, hsigned, hvalid, ne_eq, not_true_eq_false, Bool.true_eq_false, or_self,
      if_false]
    by_cases htype : c.type = tokenTypeAccess
    · simp [htype, haccess htype]
    · simp [htype, hpurpose htype]

/-- What the strict `Verify` accepts. -/
structure Verifies (pl : Platform) (m : JWTManager) (now : Int) (token : String) (c : Claims) :
    Prop where
  names : validateTokenNames pl token = true
  kid : peekKid token ≠ ""
  unretired : ∀ p ∈ m.previous, peekKid token = p.id → now < p.retires
  key : ∃ key, m.keys (peekKid token) = some key ∧ Parses pl now token key c

/-- **What the strict `Verify` accepts.** -/
theorem verify_ok : m.verify pl now token = .ok c ↔ Verifies pl m now token c := by
  unfold verify
  simp only []
  constructor
  · intro h
    split at h
    · cases h
    · rename_i hnames
      split at h
      · cases h
      · rename_i hkid
        split at h
        · cases h
        · rename_i hretired
          split at h
          · cases h
          · rename_i key hkey
            refine ⟨by simpa using hnames, hkid, fun p hp heq => ?_, key, hkey, parse_ok.1 h⟩
            by_contra hnow
            refine hretired ?_
            rw [Option.mem_def.1 hp, Option.any_some]
            simpa [heq] using Int.not_lt.1 hnow
  · rintro ⟨hnames, hkid, hretired, key, hkey, hparse⟩
    have hret : ¬ (m.previous.any fun p => peekKid token = p.id && p.retires ≤ now) = true := by
      intro h
      cases hp : m.previous with
      | none => simp [hp] at h
      | some p =>
        simp only [hp, Option.any_some, Bool.and_eq_true, decide_eq_true_eq] at h
        exact absurd (hretired p hp h.1) (Int.not_lt.2 h.2)
    rw [if_neg (by simp [hnames]), if_neg hkid, if_neg hret, hkey]
    exact parse_ok.2 hparse

end JWTManager

end FinnAuth.Jwt
