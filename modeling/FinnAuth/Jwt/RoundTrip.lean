import FinnAuth.Jwt.Manager

/-!
# Issued tokens

What becomes of a token that the manager signs: its segments, its two objects, its typed claims, and
what `Verify` says of it.

Results:
* `exactClaims_members`: claims survive encoding and decoding;
* `verify_sign`: when a signed token is accepted, and as what;
* **`access_round_trip`**: an access token is accepted with its own values at the moment of issuance
  exactly if a second ends within its lifetime.
-/

namespace FinnAuth.Jwt

open Lib JsonText

variable {a : AccessV1} {now : Moment} {jti : Uuid} {pl : Platform}

namespace JWTManager

variable {pl : Platform} {m : JWTManager} {c : Claims}

/-! ## The segments -/

variable {m' : JWTManager} {c' : Claims} {α : Type}

/-- The members as they are read back. -/
def values (ms : List (String × Flat)) : List (String × Value) := ms.map fun x => (x.1, x.2.value)

theorem lookup_values (ms : List (String × Flat)) (name : String) :
    (values ms).lookup name = (ms.lookup name).map Flat.value := by
  induction ms with
  | nil => rfl
  | cons x ms ih =>
    obtain ⟨k, v⟩ := x
    by_cases hk : name == k
    · simp [values, List.lookup_cons, hk]
    · simpa [values, List.lookup_cons, hk] using ih

/-- The text that is signed. -/
def signingString (m : JWTManager) (c : Claims) : List Char :=
  encodeSegment (writeObject m.header) ++ '.' :: encodeSegment (writeObject (members c))

theorem splitOn_three {h p t : List Char} (hh : '.' ∉ h) (hp : '.' ∉ p) (ht : '.' ∉ t) :
    (h ++ '.' :: (p ++ '.' :: t)).splitOn '.' = [h, p, t] := by
  have hdot : ∀ l ∈ [h, p, t], '.' ∉ l := by
    simpa using ⟨hh, hp, ht⟩
  have hsplit := List.splitOn_intercalate '.' hdot (by simp)
  simpa [List.intercalate] using hsplit

theorem parts_sign : parts (m.sign pl c) =
    [encodeSegment (writeObject m.header), encodeSegment (writeObject (members c)),
      Base64.encode .url (pl.mac m.current (signingString m c))] := by
  unfold parts sign
  simp only [String.toList_ofList, List.append_assoc, List.cons_append]
  exact splitOn_three (dot_notMem_encodeSegment _) (dot_notMem_encodeSegment _)
    fun h => (Base64.mem_encode h).2.2.1 rfl

theorem signed_sign : signed pl m.current (m.sign pl c) = true := by
  simp [signed, parts_sign, Base64.decode_encode, signingString]

/-! ## Names -/

/-- The names of the claims in the order they are written. -/
def writtenNames : List String :=
  ["uid", "role", "email", "type", "pwdver", "auth_epoch", "contract_ver", "sid", "tid", "perms",
    "iss", "sub", "aud", "exp", "nbf", "iat", "jti"]

theorem omitempty_sublist (empty : Bool) (name : String) (v : Flat) :
    ((omitempty empty name v).map Prod.fst).Sublist [name] := by
  cases empty <;> simp [omitempty]

theorem optionalDate_sublist (name : String) (d : Option Int) :
    ((optionalDate name d).map Prod.fst).Sublist [name] := by
  cases d <;> simp [optionalDate]

theorem members_sublist (c : Claims) : ((members c).map Prod.fst).Sublist writtenNames := by
  unfold members optional
  simp only [List.map_append]
  exact (((((((((((((((List.Sublist.refl ["uid"]).append (omitempty_sublist _ "role" _)).append
    (omitempty_sublist _ "email" _)).append
      (List.Sublist.refl ["type", "pwdver", "auth_epoch"])).append
    (omitempty_sublist _ "contract_ver" _)).append (omitempty_sublist _ "sid" _)).append
    (omitempty_sublist _ "tid" _)).append (List.Sublist.refl ["perms"])).append
    (omitempty_sublist _ "iss" _)).append (omitempty_sublist _ "sub" _)).append
    (omitempty_sublist _ "aud" _)).append (optionalDate_sublist "exp" _)).append
    (optionalDate_sublist "nbf" _)).append (optionalDate_sublist "iat" _)).append
    (omitempty_sublist _ "jti" _))

/-- Lower case, character by character. -/
def lower (s : String) : List Char := s.toList.map Char.toLower

theorem lower_of_equalFold {a b : String} (ha : ∀ x ∈ a.toList, x.toNat < 128)
    (hb : ∀ x ∈ b.toList, x.toNat < 128) (h : equalFold pl a b = true) : lower a = lower b := by
  simp only [equalFold, decide_eq_true_eq] at h
  unfold lower
  generalize a.toList = as at ha h
  generalize b.toList = bs at hb h
  induction as generalizing bs with
  | nil =>
    cases bs with
    | nil => rfl
    | cons _ _ => simp at h
  | cons x as ih =>
    cases bs with
    | nil => simp at h
    | cons y bs =>
      obtain ⟨hxy, h⟩ := List.cons.inj h
      rw [List.map_cons, List.map_cons,
        pl.fold_ascii x y (ha x List.mem_cons_self) (hb y List.mem_cons_self) hxy,
        ih (fun z hz => ha z (List.mem_cons_of_mem _ hz)) bs
          (fun z hz => hb z (List.mem_cons_of_mem _ hz)) h]

/-- ASCII names that differ by more than case are exact. -/
theorem namesExact_of_mem (written : List String) {names : List String} {ms : List (String × Value)}
    (hms : ∀ x ∈ ms, x.1 ∈ written)
    (hascii : (written ++ names).all fun n => n.toList.all fun x => x.toNat < 128)
    (hlower : ∀ n ∈ written, ∀ n' ∈ names, lower n = lower n' → n = n') :
    namesExact pl names ms = true := by
  refine List.all_eq_true.2 fun x hx => List.all_eq_true.2 fun n hn => ?_
  simp only [Bool.not_eq_true', Bool.and_eq_false_iff, decide_eq_false_iff_not, not_not]
  simp only [List.all_eq_true, decide_eq_true_eq] at hascii
  by_cases hfold : equalFold pl x.1 n = true
  · refine .inl (hlower x.1 (hms x hx) n hn (lower_of_equalFold ?_ ?_ hfold))
    · exact hascii x.1 (List.mem_append_left _ (hms x hx))
    · exact hascii n (List.mem_append_right _ hn)
  · exact .inr (by simpa using hfold)

theorem values_names (ms : List (String × Flat)) : (values ms).map Prod.fst = ms.map Prod.fst := by
  simp [values]

theorem namesExact_members : namesExact pl payloadNames (values (members c)) = true := by
  refine namesExact_of_mem writtenNames (fun x hx => ?_) (by decide) (by decide)
  have hmem : x.1 ∈ (members c).map Prod.fst := values_names (members c) ▸ List.mem_map_of_mem hx
  exact (members_sublist c).subset hmem

theorem namesExact_header : namesExact pl headerNames (values m.header) = true :=
  namesExact_of_mem ["alg", "kid", "typ"]
    (fun x hx => by
      simp only [values, header, List.map_cons, List.map_nil, List.mem_cons, List.not_mem_nil,
        or_false] at hx
      rcases hx with rfl | rfl | rfl <;> simp) (by decide) (by decide)

theorem nodup_members : ((values (members c)).map Prod.fst).Nodup := by
  rw [values_names]
  exact (members_sublist c).nodup (by decide)

theorem nodup_header : ((values m.header).map Prod.fst).Nodup := by
  simp [values, header]

theorem uniqueObject_members : uniqueObject (writeObject (members c)) = some (values (members c)) :=
  uniqueObject_iff.2 ⟨document_write _, nodup_members⟩

theorem uniqueObject_header : uniqueObject (writeObject m.header) = some (values m.header) :=
  uniqueObject_iff.2 ⟨document_write _, nodup_header⟩

theorem validateTokenNames_sign : validateTokenNames pl (m.sign pl c) = true := by
  simp [validateTokenNames, parts_sign, validateSegment, uniqueObject_members, uniqueObject_header,
    namesExact_members, namesExact_header]

/-! ## The typed claims -/

/-- The numbers of the claims fit their types, and the dates are exact. -/
structure Fits (c : Claims) : Prop where
  userID : c.userID < 2 ^ 64
  pwdVer : -(2 ^ 63) ≤ c.pwdVer ∧ c.pwdVer < 2 ^ 63
  authEpoch : -(2 ^ 63) ≤ c.authEpoch ∧ c.authEpoch < 2 ^ 63
  contractVersion : -(2 ^ 63) ≤ c.contractVersion ∧ c.contractVersion < 2 ^ 63
  expiresAt : ∀ d ∈ c.expiresAt, 0 ≤ d ∧ d ≤ 2 ^ 53
  notBefore : ∀ d ∈ c.notBefore, 0 ≤ d ∧ d ≤ 2 ^ 53
  issuedAt : ∀ d ∈ c.issuedAt, 0 ≤ d ∧ d ≤ 2 ^ 53

theorem lookup_single (k name : String) (v : α) :
    [(name, v)].lookup k = if k = name then some v else none := by
  by_cases hk : k = name
  · simp [hk]
  · have hbeq : (k == name) = false := by simpa using hk
    simp [List.lookup_cons, hk, hbeq]

@[simp] theorem lookup_omitempty (k : String) (empty : Bool) (name : String) (v : Flat) :
    (omitempty empty name v).lookup k = if k = name ∧ empty = false then some v else none := by
  cases empty with
  | true => simp [omitempty]
  | false => simp [omitempty, lookup_single]

@[simp] theorem lookup_optionalDate (k name : String) (d : Option Int) :
    (optionalDate name d).lookup k = if k = name then d.map .num else none := by
  cases d with
  | none => simp [optionalDate]
  | some t => simp [optionalDate, lookup_single]

/-- Where each name stands in the members of claims. -/
structure Lookups (c : Claims) (ms : List (String × Flat)) : Prop where
  uid : ms.lookup "uid" = some (.num c.userID)
  role : ms.lookup "role" = if c.role = "" then none else some (.str c.role)
  email : ms.lookup "email" = if c.email = "" then none else some (.str c.email)
  type : ms.lookup "type" = some (.str c.type)
  pwdver : ms.lookup "pwdver" = some (.num c.pwdVer)
  auth_epoch : ms.lookup "auth_epoch" = some (.num c.authEpoch)
  contract_ver : ms.lookup "contract_ver" =
    if c.contractVersion = 0 then none else some (.num c.contractVersion)
  sid : ms.lookup "sid" = if c.sid = "" then none else some (.str c.sid)
  tid : ms.lookup "tid" = if c.tenantID = "" then none else some (.str c.tenantID)
  perms : ms.lookup "perms" = some (c.permissions.elim .null .strs)
  iss : ms.lookup "iss" = if c.issuer = "" then none else some (.str c.issuer)
  sub : ms.lookup "sub" = if c.subject = "" then none else some (.str c.subject)
  aud : ms.lookup "aud" = if c.audience = [] then none else some (.strs c.audience)
  exp : ms.lookup "exp" = c.expiresAt.map .num
  nbf : ms.lookup "nbf" = c.notBefore.map .num
  iat : ms.lookup "iat" = c.issuedAt.map .num
  jti : ms.lookup "jti" = if c.id = "" then none else some (.str c.id)

theorem lookups_members (c : Claims) : Lookups c (members c) := by
  constructor <;> simp [members, optional, List.lookup_append, List.lookup_cons]

/-- No other name stands there. -/
theorem lookup_foreign (c : Claims) {name : String} (h : name ∉ writtenNames) :
    (members c).lookup name = none := by
  refine List.lookup_eq_none_iff.2 fun x hx => ?_
  have hmem : x.1 ∈ writtenNames := (members_sublist c).subset (List.mem_map_of_mem hx)
  have hne : name ≠ x.1 := fun heq => h (heq ▸ hmem)
  simpa using hne

section Fields

variable {ms : List (String × Flat)} {name : String}

theorem exactField_values (into : α → Value → Option α) (zero : α) :
    exactField (values ms) name into zero = match ms.lookup name with
      | none => some zero
      | some v => into zero v.value := by
  unfold exactField
  rw [lookup_values]
  cases ms.lookup name <;> rfl

theorem strField {s : String} (h : ms.lookup name = if s = "" then none else some (.str s)) :
    exactField (values ms) name strInto "" = some s := by
  rw [exactField_values, h]
  by_cases hs : s = ""
  · simp [hs]
  · simp [hs, Flat.value, strInto]

theorem strField_some {s : String} (h : ms.lookup name = some (.str s)) :
    exactField (values ms) name strInto "" = some s := by
  rw [exactField_values, h]
  rfl

theorem int?_ofInt (n : Int) : Number.int? (.ofInt n) = some n := by
  unfold Number.int? Number.ofInt
  by_cases hn : n < 0
  · simp only [and_self, if_true, hn, decide_true, Option.some.injEq]
    omega
  · simp only [and_self, if_true, hn, decide_false, Bool.false_eq_true, if_false,
      Option.some.injEq]
    omega

theorem intField {n : Int} (h : ms.lookup name = some (.num n)) (hn : -(2 ^ 63) ≤ n ∧ n < 2 ^ 63) :
    exactField (values ms) name intInto 0 = some n := by
  rw [exactField_values, h]
  simp only [Flat.value, intInto, parseInt64, int?_ofInt]
  simpa using hn

theorem dateField {d : Option Int} (h : ms.lookup name = d.map .num)
    (hd : ∀ t ∈ d, 0 ≤ t ∧ t ≤ 2 ^ 53) :
    exactField (values ms) name (dateInto pl) none = some d := by
  rw [exactField_values, h]
  cases d with
  | none => rfl
  | some t =>
    obtain ⟨h₀, h₁⟩ := hd t rfl
    have hsec := pl.seconds_whole t.toNat (by omega)
    rw [Int.toNat_of_nonneg h₀] at hsec
    simp [Flat.value, dateInto, hsec]

end Fields

theorem mapM_strItem (ss : List String) : (ss.map Value.str).mapM strItem = some ss := by
  induction ss with
  | nil => rfl
  | cons s ss ih =>
    rw [List.map_cons, List.mapM_cons, ih]
    rfl

theorem mapM_audItem (ss : List String) : (ss.map Value.str).mapM audItem = some ss := by
  induction ss with
  | nil => rfl
  | cons s ss ih =>
    rw [List.map_cons, List.mapM_cons, ih]
    rfl

/-- **Claims survive encoding and decoding.** -/
theorem exactClaims_members (h : Fits c) : exactClaims pl (values (members c)) = some c := by
  have at_ := lookups_members c
  have huser : exactField (values (members c)) "uid" uintInto 0 = some c.userID := by
    rw [exactField_values, at_.uid]
    simpa [Flat.value, uintInto, parseUint64, Number.ofInt] using h.userID
  have hversion : exactField (values (members c)) "contract_ver" intInto 0 =
      some c.contractVersion := by
    by_cases hc : c.contractVersion = 0
    · rw [exactField_values, at_.contract_ver, if_pos hc, hc]
    · exact intField (at_.contract_ver.trans (if_neg hc)) h.contractVersion
  have hperms : exactField (values (members c)) "perms" strsInto none = some c.permissions := by
    rw [exactField_values, at_.perms]
    cases c.permissions with
    | none => rfl
    | some ps => simp only [Option.elim, Flat.value, strsInto, mapM_strItem, Option.map_some]
  have haud : exactField (values (members c)) "aud" audInto [] = some c.audience := by
    by_cases hc : c.audience = []
    · rw [exactField_values, at_.aud, if_pos hc, hc]
    · rw [exactField_values, at_.aud, if_neg hc]
      simp only [Flat.value, audInto, mapM_audItem]
  unfold exactClaims claimsFrom
  beta_reduce
  rw [huser, hversion, hperms, haud, strField at_.role, strField at_.email, strField_some at_.type,
    intField at_.pwdver h.pwdVer, intField at_.auth_epoch h.authEpoch, strField at_.sid,
    strField at_.tid, strField at_.iss, strField at_.sub, dateField at_.exp h.expiresAt,
    dateField at_.nbf h.notBefore, dateField at_.iat h.issuedAt, strField at_.jti]
  rfl

/-! ## Verifying a signed token -/

theorem mapString_header_alg : mapString (values m.header) "alg" = "HS256" := by
  simp [mapString, mapValue, values, header, Flat.value, List.lookup_cons]

theorem mapString_header_kid : mapString (values m.header) "kid" = m.currentKid := by
  simp [mapString, mapValue, values, header, Flat.value, List.lookup_cons]

theorem parseUnverified_sign (decode : Value → Option α) : parseUnverified decode (m.sign pl c) =
      (decode (.obj (values (members c)))).map fun a => (values m.header, a) := by
  have hmethod : "HS256" ∈ signingMethods := by decide
  have hheader : document (writeObject m.header) = some (.obj (values m.header)) := document_write _
  have hpayload : document (writeObject (members c)) = some (.obj (values (members c))) :=
    document_write _
  unfold parseUnverified
  simp only [parts_sign, segment_encodeSegment, hheader, hpayload, Option.bind_some, membersOf,
    Option.bind_eq_bind, mapString_header_alg, List.contains_iff_mem, hmethod, if_true]
  cases decode (.obj (values (members c))) <;> rfl

theorem peekKid_sign : peekKid (m.sign pl c) = m.currentKid := by
  unfold peekKid
  rw [parseUnverified_sign]
  exact mapString_header_kid

theorem currentKid_ne (m : JWTManager) : m.currentKid ≠ "" := by
  intro h
  have hvalid := m.valid
  rw [h] at hvalid
  exact absurd hvalid (by decide)

theorem keys_currentKid (m : JWTManager) : m.keys m.currentKid = some m.current := by
  simp [keys]

theorem validateAccess_sign (now : Int) (audience : String) (c' : Claims) :
    validateAccess pl now (m.sign pl c) c' audience =
      (rawValid (values (members c)) && claimsValid pl c' && datesValid now c' &&
        audienceValid audience c') := by
  simp only [validateAccess, parts_sign, segment_encodeSegment, Option.bind_some,
    uniqueObject_members, uniqueObject_header]

/-- **When a signed token is accepted, and as what**, by any manager that has the key. -/
theorem verify_sign (hkey : m'.keys m.currentKid = some m.current) (hfits : Fits c) {now : Int} :
    m'.verify pl now (m.sign pl c) = .ok c' ↔
      c' = c ∧ (∀ p ∈ m'.previous, m.currentKid = p.id → now < p.retires) ∧
        validate now c = true ∧
        (c.type = tokenTypeAccess → validateAccess pl now (m.sign pl c) c finnAudience = true) ∧
        (c.type ≠ tokenTypeAccess → purposeValid c = true) := by
  have hclaims : unmarshalClaims pl (.obj (values (members c))) = some c :=
    (unmarshalClaims_exact namesExact_members nodup_members).trans (exactClaims_members hfits)
  have hparse : parseUnverified (unmarshalClaims pl) (m.sign pl c) = some (values m.header, c) := by
    rw [parseUnverified_sign, hclaims]
    rfl
  rw [verify_ok]
  constructor
  · intro h
    obtain ⟨key, -, hp⟩ := h.key
    obtain ⟨header, hheader, -⟩ := hp.header
    obtain ⟨-, rfl⟩ := Prod.mk.inj (Option.some.inj (hparse.symm.trans hheader))
    have hretired := h.unretired
    rw [peekKid_sign] at hretired
    exact ⟨rfl, hretired, hp.valid, hp.access, hp.purpose⟩
  · rintro ⟨rfl, hretired, hvalid, haccess, hpurpose⟩
    refine ⟨validateTokenNames_sign, ?_, ?_, m.current, ?_, ?_⟩
    · rw [peekKid_sign]
      exact m.currentKid_ne
    · rw [peekKid_sign]
      exact hretired
    · rw [peekKid_sign]
      exact hkey
    · exact ⟨⟨_, hparse, mapString_header_alg⟩, signed_sign, hvalid, haccess, hpurpose⟩

/-! ## Access tokens -/

/-- What is asked of the arguments of `IssueAccessV1`; the lifetime is one that the startup policy
admits. -/
structure Admissible (pl : Platform) (a : AccessV1) : Prop where
  userID : 1 ≤ a.userID ∧ a.userID ≤ 2 ^ 63 - 1
  pwdVer : 0 ≤ a.pwdVer
  authEpoch : 0 ≤ a.authEpoch
  sid : a.sid ≠ ""
  tid : pl.trimSpace a.tid ≠ ""
  ttl : 0 < a.ttl ∧ a.ttl ≤ maxAccessTTL

theorem Admissible.tid_ne (h : Admissible pl a) : a.tid ≠ "" := fun heq =>
  h.tid (heq ▸ pl.trimSpace_empty)

theorem numericDate_bounds (now : Moment) {ttl : Int} (h : 0 ≤ ttl ∧ ttl ≤ maxAccessTTL) :
    0 ≤ numericDate (now.val + ttl) ∧ numericDate (now.val + ttl) ≤ 2 ^ 53 := by
  have hnow := now.isLt
  unfold numericDate second
  unfold maxAccessTTL second at h
  omega

theorem fits_accessClaims (httl : 0 < a.ttl ∧ a.ttl ≤ maxAccessTTL) (now : Moment) (jti : Uuid) :
    Fits (accessClaims now jti a) := by
  have hexp := numericDate_bounds now ⟨Int.le_of_lt httl.1, httl.2⟩
  have hiat : 0 ≤ numericDate (now.val + 0) ∧ numericDate (now.val + 0) ≤ 2 ^ 53 :=
    numericDate_bounds now (by decide)
  rw [Int.add_zero] at hiat
  refine ⟨a.userID_lt, a.pwdVer_range, a.authEpoch_range, ?_, ?_, ?_, ?_⟩
  · show -(2 ^ 63) ≤ (1 : Int) ∧ (1 : Int) < 2 ^ 63
    omega
  · rintro d ⟨⟩
    exact hexp
  · rintro d ⟨⟩
    exact hiat
  · rintro d ⟨⟩
    exact hiat

theorem nonNegative_num {n : Int} (h : 0 ≤ n ∧ n < 2 ^ 63) :
    nonNegative (some (Flat.num n).value) = true := by
  have hlow : -(2 ^ 63) ≤ n := by omega
  have hfilter : parseInt64 (.ofInt n) = some n := by
    simp only [parseInt64, int?_ofInt]
    simpa using ⟨hlow, h.2⟩
  simp [nonNegative, Flat.value, hfilter, h.1]

theorem repr_ne (n : Nat) : n.repr ≠ "" := by
  intro h
  have hlist := congrArg String.toList h
  simp [Nat.repr, Nat.toDigits_ne_nil] at hlist

theorem audience_accessClaims (now : Moment) (jti : Uuid) (a : AccessV1) :
    (accessClaims now jti a).audience = [finnAudience, jakeAudience] ∨
      (accessClaims now jti a).audience = [finnAudience] := by
  unfold accessClaims
  simp only []
  split
  · exact .inl rfl
  · exact .inr rfl

/-- Claims that say everything the access contract asks for. -/
structure Complete (c : Claims) (exp iat nbf : Int) (perms : List String) : Prop where
  fits : Fits c
  contractVersion : 0 < c.contractVersion
  userID : c.userID < 2 ^ 63
  pwdVer : 0 ≤ c.pwdVer
  authEpoch : 0 ≤ c.authEpoch
  sid : c.sid ≠ ""
  tenantID : c.tenantID ≠ ""
  issuer : c.issuer ≠ ""
  subject : c.subject ≠ ""
  id : c.id ≠ ""
  audience : c.audience ≠ []
  permissions : c.permissions = some perms
  expiresAt : c.expiresAt = some exp
  issuedAt : c.issuedAt = some iat
  notBefore : c.notBefore = some nbf

theorem rawValid_members {exp iat nbf : Int} {perms : List String}
    (h : Complete c exp iat nbf perms) : rawValid (values (members c)) = true := by
  have at_ := lookups_members c
  have hversion : c.contractVersion ≠ 0 := Int.ne_of_gt h.contractVersion
  have hfits := h.fits
  have hexp := hfits.expiresAt exp h.expiresAt
  have hiat := hfits.issuedAt iat h.issuedAt
  have hnbf := hfits.notBefore nbf h.notBefore
  have huser := h.userID
  have hpresent : requiredNames.all (fun name => present ((values (members c)).lookup name)) =
      true := by
    simp [requiredNames, lookup_values, at_.uid, at_.type, at_.pwdver, at_.auth_epoch,
      at_.contract_ver, at_.sid, at_.tid, at_.perms, at_.iss, at_.sub, at_.aud, at_.exp, at_.nbf,
      at_.iat, at_.jti, hversion, h.sid, h.tenantID, h.issuer, h.subject, h.id, h.audience,
      h.permissions, h.expiresAt, h.issuedAt, h.notBefore, present, Flat.value, isNull]
  have hforeign : foreignNames.all (fun name => ((values (members c)).lookup name).isNone) =
      true := by
    refine List.all_eq_true.2 fun name hname => ?_
    have hnot : ∀ n ∈ foreignNames, n ∉ writtenNames := by decide
    rw [lookup_values, lookup_foreign c (hnot name hname)]
    rfl
  have hinteger : integerNames.all (fun name => nonNegative ((values (members c)).lookup name)) =
      true := by
    simp only [integerNames, List.all_cons, List.all_nil, lookup_values, at_.uid, at_.pwdver,
      at_.auth_epoch, at_.contract_ver, at_.exp, at_.nbf, at_.iat, if_neg hversion, h.expiresAt,
      h.issuedAt, h.notBefore, Option.map_some]
    rw [nonNegative_num ⟨Int.le_of_lt h.contractVersion, hfits.contractVersion.2⟩,
      nonNegative_num (n := c.userID) (by omega), nonNegative_num ⟨h.pwdVer, hfits.pwdVer.2⟩,
      nonNegative_num ⟨h.authEpoch, hfits.authEpoch.2⟩, nonNegative_num (n := exp) (by omega),
      nonNegative_num (n := iat) (by omega), nonNegative_num (n := nbf) (by omega)]
    rfl
  have hperms : (values (members c)).lookup "perms" = some (.arr (perms.map .str)) := by
    rw [lookup_values, at_.perms, h.permissions]
    rfl
  unfold rawValid
  rw [hpresent, hforeign, hinteger, hperms]
  simp [isString]

theorem complete_accessClaims (h : Admissible pl a) (now : Moment) (jti : Uuid) :
    Complete (accessClaims now jti a) (numericDate (now.val + a.ttl)) (numericDate now.val)
      (numericDate now.val) a.perms where
  fits := fits_accessClaims h.ttl now jti
  contractVersion := show (0 : Int) < 1 by decide
  userID := by
    have := h.userID
    show a.userID < 2 ^ 63
    omega
  pwdVer := h.pwdVer
  authEpoch := h.authEpoch
  sid := h.sid
  tenantID := h.tid_ne
  issuer := show issuer ≠ "" by decide
  subject := repr_ne _
  id := jti.nonempty
  audience := by
    rcases audience_accessClaims now jti a with heq | heq <;> simp [heq]
  permissions := rfl
  expiresAt := rfl
  issuedAt := rfl
  notBefore := rfl

theorem claimsValid_accessClaims (h : Admissible pl a) (now : Moment) (jti : Uuid) :
    claimsValid pl (accessClaims now jti a) = true := by
  have huser : a.userID ≠ 0 := by
    have := h.userID
    omega
  simp [claimsValid, accessClaims, baseClaims, huser, h.tid, h.sid, h.pwdVer, h.authEpoch,
    jti.nonempty]

/-- Some permission concerns the chat. -/
def chats (a : AccessV1) : Prop := "chat:read" ∈ a.perms ∨ "chat:write" ∈ a.perms

theorem audienceValid_finn (now : Moment) (jti : Uuid) (a : AccessV1) :
    audienceValid finnAudience (accessClaims now jti a) = true := by
  unfold audienceValid
  rcases audience_accessClaims now jti a with heq | heq <;> rw [heq] <;> decide

theorem audienceValid_jake (now : Moment) (jti : Uuid) (a : AccessV1) :
    audienceValid jakeAudience (accessClaims now jti a) = true ↔ chats a := by
  have hchats : (a.perms.any fun p => p = "chat:read" || p = "chat:write") = true ↔ chats a := by
    simp only [List.any_eq_true, Bool.or_eq_true, decide_eq_true_eq, chats]
    constructor
    · rintro ⟨p, hp, rfl | rfl⟩
      · exact .inl hp
      · exact .inr hp
    · rintro (hp | hp)
      · exact ⟨_, hp, .inl rfl⟩
      · exact ⟨_, hp, .inr rfl⟩
  have hboth : audiences jakeAudience [finnAudience, jakeAudience] false false false = true := by
    decide
  have hone : audiences jakeAudience [finnAudience] false false false = false := by decide
  unfold audienceValid accessClaims
  by_cases hc : chats a
  · rw [if_pos (hchats.2 hc), hboth]
    exact iff_of_true rfl hc
  · rw [if_neg (fun h => hc (hchats.1 h)), hone]
    exact iff_of_false Bool.false_ne_true hc

/-- The checks of the library on an access token. -/
theorem validate_accessClaims (t : Int) (now : Moment) (jti : Uuid) (a : AccessV1) :
    validate t (accessClaims now jti a) = true ↔
      t < numericDate (now.val + a.ttl) * second + maxSkew ∧
        numericDate now.val * second - maxSkew ≤ t := by
  have hiss : (accessClaims now jti a).issuer = issuer := rfl
  have hexp : (accessClaims now jti a).expiresAt = some (numericDate (now.val + a.ttl)) := rfl
  have hnbf : (accessClaims now jti a).notBefore = some (numericDate now.val) := rfl
  have hiat : (accessClaims now jti a).issuedAt = some (numericDate now.val) := rfl
  simp [validate, hiss, hexp, hnbf, hiat]

/-- The checks of `validateAccess` on the dates: the token must live for some whole seconds. -/
theorem datesValid_accessClaims (h : Admissible pl a) (t : Int) (now : Moment) (jti : Uuid) :
    datesValid t (accessClaims now jti a) = true ↔
      second ≤ now.val % second + a.ttl ∧ numericDate now.val * second ≤ t + maxSkew ∧
        t < numericDate (now.val + a.ttl) * second + maxSkew := by
  have hexp : (accessClaims now jti a).expiresAt = some (numericDate (now.val + a.ttl)) := rfl
  have hnbf : (accessClaims now jti a).notBefore = some (numericDate now.val) := rfl
  have hiat : (accessClaims now jti a).issuedAt = some (numericDate now.val) := rfl
  have httl := h.ttl
  simp only [datesValid, hexp, hnbf, hiat, Bool.and_eq_true, decide_eq_true_eq]
  unfold maxAccessTTL second at httl
  unfold numericDate maxSkew maxAccessTTL second
  omega

/-- When a manager that has the key accepts an access token. -/
theorem verify_access (hkey : m'.keys m.currentKid = some m.current) (h : Admissible pl a)
    {t : Int} : m'.verify pl t (m.sign pl (accessClaims now jti a)) = .ok c' ↔
      c' = accessClaims now jti a ∧ (∀ p ∈ m'.previous, m.currentKid = p.id → t < p.retires) ∧
        second ≤ now.val % second + a.ttl ∧ numericDate now.val * second ≤ t + maxSkew ∧
        t < numericDate (now.val + a.ttl) * second + maxSkew := by
  have htype : (accessClaims now jti a).type = tokenTypeAccess := rfl
  rw [verify_sign hkey (fits_accessClaims h.ttl now jti), validateAccess_sign,
    rawValid_members (complete_accessClaims h now jti), claimsValid_accessClaims h now jti,
    audienceValid_finn, validate_accessClaims]
  simp only [htype, forall_const, ne_eq, not_true_eq_false, false_implies, Bool.true_and,
    Bool.and_true, datesValid_accessClaims h]
  constructor
  · rintro ⟨hc, hretired, -, hdates, -⟩
    exact ⟨hc, hretired, hdates⟩
  · rintro ⟨hc, hretired, hdates⟩
    exact ⟨hc, hretired, ⟨hdates.2.2, Int.sub_right_le_of_le_add hdates.2.1⟩, hdates, trivial⟩

/-- The same with the audience. -/
theorem verifyAccessV1_access {t : Int} {audience : String} (h : Admissible pl a)
    (hkey : m'.keys m.currentKid = some m.current)
    (haud : audience = finnAudience ∨ audience = jakeAudience) :
    m'.verifyAccessV1 pl t (m.sign pl (accessClaims now jti a)) audience = .ok c' ↔
      m'.verify pl t (m.sign pl (accessClaims now jti a)) = .ok c' ∧
        audienceValid audience (accessClaims now jti a) = true := by
  have hknown : ¬ (audience ≠ finnAudience ∧ audience ≠ jakeAudience) := by
    rintro ⟨h₁, h₂⟩
    exact haud.elim h₁ h₂
  unfold verifyAccessV1
  rw [if_neg hknown]
  cases hv : m'.verify pl t (m.sign pl (accessClaims now jti a)) with
  | error e => simp
  | ok c₀ =>
    obtain ⟨rfl, -, hdates⟩ := (verify_access hkey h).1 hv
    have haccess : validateAccess pl t (m.sign pl (accessClaims now jti a)) (accessClaims now jti a)
        audience = _ := validateAccess_sign t audience (accessClaims now jti a)
    rw [rawValid_members (complete_accessClaims h now jti), claimsValid_accessClaims h now jti,
      (datesValid_accessClaims h t now jti).2 hdates] at haccess
    simp only [haccess, Bool.true_and, Bool.and_true]
    cases audienceValid audience (accessClaims now jti a) <;> simp

/-- The claims carry the values of the call. -/
structure Carries (c : Claims) (a : AccessV1) : Prop where
  userID : c.userID = a.userID
  role : c.role = a.role
  email : c.email = a.email
  pwdVer : c.pwdVer = a.pwdVer
  authEpoch : c.authEpoch = a.authEpoch
  sid : c.sid = a.sid
  tenantID : c.tenantID = a.tid
  permissions : c.permissions = some a.perms

theorem issueAccessV1_ok (h : Admissible pl a) (now : Moment) (jti : Uuid) :
    m.issueAccessV1 pl now jti a = .ok (m.sign pl (accessClaims now jti a)) := by
  have huser := h.userID
  have hpwd := h.pwdVer
  have hepoch := h.authEpoch
  have httl := h.ttl
  unfold issueAccessV1
  refine if_neg ?_
  rintro (h₁ | h₁ | h₁ | h₁ | h₁ | h₁ | h₁)
  · omega
  · exact h.sid h₁
  · exact h.tid_ne h₁
  all_goals omega

end JWTManager

open JWTManager

/-- An access token comes back at the moment of issuance, with the audiences it should have. -/
def ComesBack (pl : Platform) (m : JWTManager) (now : Moment) (jti : Uuid) (a : AccessV1) : Prop :=
  ∃ token c, m.issueAccessV1 pl now jti a = .ok token ∧
    m.verifyAccessV1 pl now.val token finnAudience = .ok c ∧ Carries c a ∧
    ((∃ c', m.verifyAccessV1 pl now.val token jakeAudience = .ok c') ↔
      "chat:read" ∈ a.perms ∨ "chat:write" ∈ a.perms)

/-- A token that comes back has some whole seconds to live. -/
theorem second_of_comesBack {m : JWTManager} (h : Admissible pl a)
    (hback : ComesBack pl m now jti a) : second ≤ now.val % second + a.ttl := by
  obtain ⟨token, c, hissue, hfinn, -⟩ := hback
  obtain rfl := Except.ok.inj (hissue.symm.trans (issueAccessV1_ok h now jti))
  have hverify := ((verifyAccessV1_access h m.keys_currentKid (.inl rfl)).1 hfinn).1
  exact ((verify_access m.keys_currentKid h).1 hverify).2.2.1

/-- A token with some whole seconds to live is accepted at the moment of issuance. -/
theorem verify_issued (m : JWTManager) (h : Admissible pl a) (jti : Uuid)
    (hsecond : second ≤ now.val % second + a.ttl) :
    m.verify pl now.val (m.sign pl (accessClaims now jti a)) = .ok (accessClaims now jti a) := by
  have httl := h.ttl
  refine (verify_access m.keys_currentKid h).2 ⟨rfl, fun p hp heq => ?_, hsecond, ?_, ?_⟩
  · exact absurd heq.symm (m.distinct p hp)
  all_goals
    unfold numericDate maxSkew second
    omega

/-- **Access tokens come back exactly if a second ends within their lifetime.** `NewNumericDate`
cuts the dates of a token to whole seconds; if both ends of its life fall into one second,
`validateAccess` finds that it never lived. -/
theorem access_round_trip (pl : Platform) (m : JWTManager) (now : Moment) (jti : Uuid)
    (a : AccessV1) (h : Admissible pl a) :
    ComesBack pl m now jti a ↔ second ≤ now.val % second + a.ttl := by
  have hkey := m.keys_currentKid
  refine ⟨second_of_comesBack h, fun hsecond => ?_⟩
  have hverify := verify_issued m h jti hsecond
  refine ⟨_, accessClaims now jti a, issueAccessV1_ok h now jti, ?_, ?_, ?_⟩
  · exact (verifyAccessV1_access h hkey (.inl rfl)).2 ⟨hverify, audienceValid_finn now jti a⟩
  · exact ⟨rfl, rfl, rfl, rfl, rfl, rfl, rfl, rfl⟩
  · constructor
    · rintro ⟨c', hc'⟩
      have hjake := ((verifyAccessV1_access h hkey (.inr rfl)).1 hc').2
      exact (audienceValid_jake now jti a).1 hjake
    · intro hchats
      exact ⟨_, (verifyAccessV1_access h hkey (.inr rfl)).2
        ⟨hverify, (audienceValid_jake now jti a).2 hchats⟩⟩

/-! ## Two lifetimes -/

/-- A manager with one key. -/
def oneKey : JWTManager := ⟨List.replicate 32 7, "k1", none, by decide, by simp⟩

/-- A session of user 7 with a lifetime. -/
def session (ttl : Int) : AccessV1 :=
  ⟨7, "user", "ada@example.com", ttl, 3, 1, "s-1", "t-1", ["chat:read"], by decide, by decide,
    by decide⟩

theorem admissible_session {ttl : Int} (h : 0 < ttl ∧ ttl ≤ maxAccessTTL) :
    Admissible .plain (session ttl) :=
  ⟨by simp [session], by simp [session], by simp [session], by simp [session],
    by simp [session, Platform.plain], h⟩

/-- One second after the epoch, sharp. -/
def sharp : Moment := ⟨1000000000, by decide⟩

def someUuid : Uuid := ⟨"j-1", by decide⟩

theorem access_round_trip_quarter :
    ComesBack .plain oneKey sharp someUuid (session (900 * second)) :=
  (access_round_trip .plain oneKey sharp someUuid (session (900 * second))
    (admissible_session (by decide))).2 (by decide)

/-- A lifetime of half a second, counted from the start of a second, is admitted at startup and
issued, but no token of it is ever accepted. -/
theorem half_second_lost : ∃ (pl : Platform) (m : JWTManager) (now : Moment) (jti : Uuid)
    (a : AccessV1), Admissible pl a ∧ (∃ token, m.issueAccessV1 pl now jti a = .ok token) ∧
      ¬ ComesBack pl m now jti a := by
  have hadm : Admissible .plain (session 500000000) := admissible_session (by decide)
  refine ⟨.plain, oneKey, sharp, someUuid, session 500000000, hadm,
    ⟨_, issueAccessV1_ok hadm _ _⟩, ?_⟩
  intro hback
  exact absurd (second_of_comesBack hadm hback) (by decide)

end FinnAuth.Jwt
