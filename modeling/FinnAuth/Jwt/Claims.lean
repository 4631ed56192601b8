import FinnAuth.Lib.Base64
import FinnAuth.Lib.JsonText
import Mathlib.Algebra.Group.Int.Defs
import Mathlib.Algebra.Group.Nat.Defs
import Mathlib.Data.List.Nodup

/-!
# Token texts and typed claims

`internal/jwt`: how a token is taken apart. Two readers look at the same bytes. `uniqueObject` walks
the tokens of a `json.Decoder` and keeps every member under its own name; it refuses duplicates and
trailing data. The typed decoder of `Claims` takes any member whose name is a field's up to case
folding, the last one winning. `validateTokenNames` refuses the tokens on which they could differ.

* A token is a string of characters: one that is not UTF-8 has a segment that is not base 64, so it
  is refused whatever else it holds.
* `fold` is the folding of `strings.EqualFold` and of the decoder, one character at a time.
* A member that holds `null` leaves a number or a string as it was and empties a pointer or a slice.
* `NumericDate` goes through a floating point number (`seconds`); whole numbers up to 2^53 are
  exact.

Out of scope: the wording of the library's errors, and the legacy managers of the unit tests.

Results:
* **`uniqueObject_iff`**: `uniqueObject` accepts the texts of one JSON object without duplicate
  names, and returns its members;
* **`unmarshalClaims_exact`**: where the names are exact, the typed claims are the exactly named
  members.
-/

namespace FinnAuth.Jwt

open Lib JsonText
open Json (Reader)

variable {ms : List (String × Value)}

/-- The library functions that are taken as they are. -/
structure Platform where
  /-- the case folding of a character -/
  fold : Char → Char
  /-- in ASCII only the two cases of a letter are folded together -/
  fold_ascii : ∀ a b : Char, a.toNat < 128 → b.toNat < 128 → fold a = fold b → a.toLower = b.toLower
  /-- `strings.TrimSpace` -/
  trimSpace : String → String
  trimSpace_empty : trimSpace "" = ""
  /-- HMAC-SHA256 of a text under a key -/
  mac : List UInt8 → List Char → List UInt8
  /-- the moment of a JSON number in whole seconds; `none` is out of range -/
  seconds : Number → Option Int
  seconds_whole : ∀ n : Nat, n ≤ 2 ^ 53 → seconds (.ofInt n) = some (n : Int)

/-! ## Segments -/

variable {pl : Platform}

/-- `strings.Split(token, ".")` -/
def parts (token : String) : List (List Char) := token.toList.splitOn '.'

/-- The text of a segment: `base64.RawURLEncoding.DecodeString`. -/
def segment (cs : List Char) : Option (List Char) := (Base64.decode .url cs).map Base64.runes

/-- `EncodeSegment` -/
def encodeSegment (text : List Char) : List Char := Base64.encode .url (Base64.utf8 text)

@[simp] theorem segment_encodeSegment (text : List Char) :
    segment (encodeSegment text) = some text := by
  simp [segment, encodeSegment, Base64.decode_encode, Base64.runes_utf8]

theorem dot_notMem_encodeSegment (text : List Char) : '.' ∉ encodeSegment text := fun h =>
  (Base64.mem_encode h).2.2.1 rfl

/-! ## The object reader -/

/-- `d.Token()` where a name may stand: right after the opening brace, or after a value, where a
comma comes first. -/
def nameToken (first : Bool) : Reader String := fun cs =>
  match first, skip cs with
  | true, '"' :: rest => readString rest
  | false, ',' :: rest =>
    match skip rest with
    | '"' :: rest => readString rest
    | _ => none
  | _, _ => none

/-- The loop of `uniqueObject`; `out` is the map so far. -/
def uniqueMembers (read : Reader Value) :
    Nat → Bool → List (String × Value) → Reader (List (String × Value))
  | 0, _, _, _ => none
  | n + 1, first, out, cs =>
    match skip cs with
    | [] => none
    | c :: rest =>
      -- `d.More()` is false at either bracket, and only the brace is a token here
      if c = ']' then none
      else if c = '\x7d' then some (out, rest)
      else
        (nameToken first cs).bind fun name =>
          if (out.lookup name.1).isSome then none
          else (readColon read name.2).bind fun value =>
            uniqueMembers read n false (out ++ [(name.1, value.1)]) value.2

/-- `uniqueObject` -/
def uniqueObject (text : List Char) : Option (List (String × Value)) :=
  match skip text with
  | '\x7b' :: rest =>
    (uniqueMembers (readValue text.length) (rest.length + 1) true [] rest).bind fun p =>
      if skip p.2 = [] then some p.1 else none
  | _ => none

section Object

variable {read : Reader Value} {out res : List (String × Value)} {cs rest : List Char}
  {name : String × List Char}

/-- One turn of the loop, after the first member. -/
theorem nameToken_false (h : nameToken false cs = some name) :
    ∃ r, skip cs = ',' :: r ∧ ∀ v, readColon read name.2 = some v →
      readMember read r = some ((name.1, v.1), v.2) := by
  unfold nameToken at h
  split at h
  · rename_i heq _
    cases heq
  · rename_i r _ hskip
    refine ⟨r, hskip, fun v hv => ?_⟩
    split at h
    · rename_i s hs
      simp only [readMember, hs, h, Option.bind_some, hv, Option.map_some]
    · cases h
  · cases h

theorem nameToken_true (h : nameToken true cs = some name) :
    ∀ v, readColon read name.2 = some v → readMember read cs = some ((name.1, v.1), v.2) := by
  unfold nameToken at h
  split at h
  · rename_i s _ hskip
    intro v hv
    simp only [readMember, hskip, h, Option.bind_some, hv, Option.map_some]
  · rename_i heq _
    cases heq
  · cases h

/-- What a turn that goes on has read. -/
theorem uniqueMembers_succ {n : Nat} {first : Bool}
    (h : uniqueMembers read (n + 1) first out cs = some (res, rest)) :
    (skip cs = '\x7d' :: rest ∧ res = out) ∨
      ∃ c tl name v, skip cs = c :: tl ∧ c ≠ '\x7d' ∧ nameToken first cs = some name ∧
        out.lookup name.1 = none ∧ readColon read name.2 = some v ∧
        uniqueMembers read n false (out ++ [(name.1, v.1)]) v.2 = some (res, rest) := by
  rw [uniqueMembers] at h
  split at h
  · cases h
  · rename_i c tl hskip
    split at h
    · cases h
    · split at h
      · rename_i hc
        obtain ⟨rfl, rfl⟩ := Prod.mk.inj (Option.some.inj h)
        exact .inl ⟨hc ▸ hskip, rfl⟩
      · rename_i hc
        obtain ⟨name, hname, h⟩ := Option.bind_eq_some_iff.1 h
        split at h
        · cases h
        · rename_i hnew
          obtain ⟨v, hv, h⟩ := Option.bind_eq_some_iff.1 h
          exact .inr ⟨c, tl, name, v, hskip, hc, hname, Option.not_isSome_iff_eq_none.1 hnew, hv, h⟩

/-- The loop reads the items of an object. -/
theorem readItems_of_uniqueMembers (n : Nat) :
    ∀ {out cs}, uniqueMembers read (n + 1) false out cs = some (res, rest) →
      ∃ ms, res = out ++ ms ∧ ((ms = [] ∧ skip cs = '\x7d' :: rest) ∨
        ∃ r, skip cs = ',' :: r ∧ readItems (readMember read) '\x7d' n r = some (ms, rest)) := by
  induction n with
  | zero =>
    intro out cs h
    rcases uniqueMembers_succ h with ⟨hskip, rfl⟩ | ⟨_, _, _, _, _, _, _, _, _, h⟩
    · exact ⟨[], (List.append_nil _).symm, .inl ⟨rfl, hskip⟩⟩
    · cases h
  | succ n ih =>
    intro out cs h
    rcases uniqueMembers_succ h with ⟨hskip, rfl⟩ | ⟨_, _, name, v, _, _, hname, _, hv, h⟩
    · exact ⟨[], (List.append_nil _).symm, .inl ⟨rfl, hskip⟩⟩
    · obtain ⟨r, hr, hmember⟩ := nameToken_false hname
      obtain ⟨ms, hres, hrest⟩ := ih h
      refine ⟨(name.1, v.1) :: ms, by simpa using hres, .inr ⟨r, hr, ?_⟩⟩
      rw [readItems, hmember v hv]
      rcases hrest with ⟨rfl, hclose⟩ | ⟨r', hcomma, hitems⟩
      · simp [hclose]
      · simp [hcomma, hitems]

/-- The names of the map stay apart. -/
theorem nodup_of_uniqueMembers (n : Nat) :
    ∀ {first out cs}, uniqueMembers read n first out cs = some (res, rest) →
      (out.map Prod.fst).Nodup → (res.map Prod.fst).Nodup := by
  induction n with
  | zero =>
    intro first out cs h
    cases h
  | succ n ih =>
    intro first out cs h hout
    rcases uniqueMembers_succ h with ⟨_, rfl⟩ | ⟨_, _, name, v, _, _, _, hnew, _, h⟩
    · exact hout
    · refine ih h ?_
      have hnot : name.1 ∉ out.map Prod.fst := by
        intro hmem
        obtain ⟨m, hm, heq⟩ := List.mem_map.1 hmem
        have := List.lookup_eq_none_iff.1 hnew m hm
        simp [heq] at this
      rw [List.map_append, List.nodup_append]
      refine ⟨hout, by simp, ?_⟩
      rintro a ha b hb rfl
      simp only [List.map_cons, List.map_nil, List.mem_singleton] at hb
      exact hnot (hb ▸ ha)

/-- A turn of the loop at a member with a new name. -/
theorem uniqueMembers_member {n : Nat} {first : Bool} {m : (String × Value) × List Char}
    {r : List Char} (hm : readMember read r = some m) (hnew : m.1.1 ∉ out.map Prod.fst)
    (hfirst : if first then cs = r else skip cs = ',' :: r) :
    uniqueMembers read (n + 1) first out cs = uniqueMembers read n false (out ++ [m.1]) m.2 := by
  obtain ⟨r', name, hr', hname, hv, hm₁⟩ := readMember_some hm
  have hlookup : out.lookup name.1 = none := by
    refine List.lookup_eq_none_iff.2 fun x hx => ?_
    have hne : m.1.1 ≠ x.1 := fun heq => hnew (heq ▸ List.mem_map_of_mem hx)
    simpa [hm₁] using hne
  have hpair : (name.1, m.1.2) = m.1 := by rw [← hm₁]
  rw [uniqueMembers]
  cases first with
  | true =>
    obtain rfl : cs = r := hfirst
    simp [hr', nameToken, hname, hlookup, hv, hpair]
  | false =>
    have hskip : skip cs = ',' :: r := hfirst
    simp [hskip, nameToken, hr', hname, hlookup, hv, hpair]

/-- The loop takes the items of an object whose names are new. -/
theorem uniqueMembers_of_readItems (n : Nat) :
    ∀ {first out cs r}, readItems (readMember read) '\x7d' n r = some (res, rest) →
      (out.map Prod.fst ++ res.map Prod.fst).Nodup →
      (if first then cs = r else skip cs = ',' :: r) →
      uniqueMembers read (n + 1) first out cs = some (out ++ res, rest) := by
  induction n generalizing res with
  | zero =>
    intro first out cs r h
    cases h
  | succ n ih =>
    intro first out cs r h hnodup hfirst
    obtain ⟨m, hm, h⟩ := Option.bind_eq_some_iff.1 h
    split at h
    · cases h
    · rename_i c tl hskip
      split at h
      · rename_i hc
        obtain ⟨⟨ms, tl'⟩, hitems, h⟩ := Option.map_eq_some_iff.1 h
        obtain ⟨rfl, rfl⟩ := Prod.mk.inj h
        have hnew : m.1.1 ∉ out.map Prod.fst := fun hmem =>
          (List.nodup_append.1 hnodup).2.2 _ hmem _ (by simp) rfl
        have hnext : uniqueMembers read (n + 1) false (out ++ [m.1]) m.2 =
            some (out ++ [m.1] ++ ms, tl') := by
          refine ih hitems (by simpa using hnodup) ?_
          exact hc ▸ hskip
        rw [uniqueMembers_member hm hnew hfirst, hnext]
        simp
      · split at h
        · rename_i hc
          obtain ⟨rfl, rfl⟩ := Prod.mk.inj (Option.some.inj h)
          have hnew : m.1.1 ∉ out.map Prod.fst := fun hmem =>
            (List.nodup_append.1 hnodup).2.2 _ hmem _ (by simp) rfl
          rw [uniqueMembers_member hm hnew hfirst, uniqueMembers, hskip, hc]
          simp
        · cases h

end Object

/-- The loop and the grammar, after the opening brace. -/
theorem uniqueMembers_iff {read : Reader Value} {cs rest : List Char} :
    uniqueMembers read (cs.length + 1) true [] cs = some (ms, rest) ↔
      readList (readMember read) '\x7d' cs = some (ms, rest) ∧ (ms.map Prod.fst).Nodup := by
  constructor
  · intro hloop
    refine ⟨?_, nodup_of_uniqueMembers _ hloop List.nodup_nil⟩
    unfold readList
    rcases uniqueMembers_succ hloop with
      ⟨hclose, rfl⟩ | ⟨c, tl', name, v, hc, hne, hname, _, hv, hloop⟩
    · simp [hclose]
    · simp only [hc, if_neg hne]
      have hmember := nameToken_true hname v hv
      cases hlen : cs.length with
      | zero =>
        rw [hlen] at hloop
        cases hloop
      | succ n =>
        rw [hlen] at hloop
        obtain ⟨ms', hres, hrest⟩ := readItems_of_uniqueMembers n hloop
        rw [readItems, hmember]
        rcases hrest with ⟨rfl, hclose⟩ | ⟨r', hcomma, hitems⟩
        · simpa [hclose] using hres.symm
        · simpa [hcomma, hitems] using hres.symm
  · rintro ⟨hlist, hnodup⟩
    unfold readList at hlist
    split at hlist
    · cases hlist
    · rename_i c tl hskip
      split at hlist
      · rename_i hc
        obtain ⟨rfl, rfl⟩ := Prod.mk.inj (Option.some.inj hlist)
        rw [uniqueMembers, hskip, hc]
        simp
      · exact uniqueMembers_of_readItems _ hlist (by simpa using hnodup) rfl

/-- **`uniqueObject` accepts the texts of one JSON object without duplicate names.** -/
theorem uniqueObject_iff {text : List Char} :
    uniqueObject text = some ms ↔ document text = some (.obj ms) ∧ (ms.map Prod.fst).Nodup := by
  rw [document_obj]
  constructor
  · intro h
    unfold uniqueObject at h
    split at h
    · rename_i rest hskip
      obtain ⟨⟨res, tl⟩, hloop, h⟩ := Option.bind_eq_some_iff.1 h
      split at h
      · rename_i htl
        obtain rfl : res = ms := Option.some.inj h
        obtain ⟨hlist, hnodup⟩ := uniqueMembers_iff.1 hloop
        exact ⟨⟨rest, tl, hskip, hlist, htl⟩, hnodup⟩
      · cases h
    · cases h
  · rintro ⟨⟨rest, tl, hskip, hlist, htl⟩, hnodup⟩
    unfold uniqueObject
    rw [hskip]
    simp [uniqueMembers_iff.2 ⟨hlist, hnodup⟩, htl]

/-! ## Typed claims -/

/-- `Claims`, with the registered claims it embeds. Dates are in seconds. -/
structure Claims where
  userID : Nat
  role : String
  email : String
  type : String
  pwdVer : Int
  authEpoch : Int
  contractVersion : Int
  sid : String
  tenantID : String
  permissions : Option (List String)
  issuer : String
  subject : String
  audience : List String
  expiresAt : Option Int
  notBefore : Option Int
  issuedAt : Option Int
  id : String
  deriving DecidableEq, Repr

/-! Decoding a value into a field that already holds something; `none` is an error. -/

/-- The value of a number without fraction and exponent. -/
def Number.int? (n : Number) : Option Int :=
  if n.fraction = [] ∧ n.exponent = [] then
    some (if n.negative then -(n.whole : Int) else n.whole)
  else none

/-- `strconv.ParseInt` of a literal. -/
def parseInt64 (n : Number) : Option Int :=
  (Number.int? n).filter fun k => -(2 ^ 63) ≤ k && k < 2 ^ 63

/-- `strconv.ParseUint` of a literal. -/
def parseUint64 (n : Number) : Option Nat :=
  if n.fraction = [] ∧ n.exponent = [] ∧ n.negative = false ∧ n.whole < 2 ^ 64 then some n.whole
  else none

/-- A platform that folds ASCII only and reads whole dates, to run the model on. -/
def Platform.plain : Platform where
  fold := Char.toLower
  fold_ascii _ _ _ _ h := h
  trimSpace s := s
  trimSpace_empty := rfl
  mac key text := [UInt8.ofNat (key.length + text.length)]
  seconds := Number.int?
  seconds_whole n _ := by
    have hnot : ¬ ((n : Int) < 0) := by omega
    simp [Number.int?, Number.ofInt, hnot]

def uintInto : Nat → Value → Option Nat
  | old, .null => some old
  | _, .num n => parseUint64 n
  | _, _ => none

def intInto : Int → Value → Option Int
  | old, .null => some old
  | _, .num n => parseInt64 n
  | _, _ => none

def strInto : String → Value → Option String
  | old, .null => some old
  | _, .str s => some s
  | _, _ => none

/-- An element of a `[]string`. -/
def strItem : Value → Option String
  | .null => some ""
  | .str s => some s
  | _ => none

def strsInto : Option (List String) → Value → Option (Option (List String))
  | _, .null => some none
  | _, .arr vs => (vs.mapM strItem).map some
  | _, _ => none

/-- An element of a `ClaimStrings`. -/
def audItem : Value → Option String
  | .str s => some s
  | _ => none

/-- `ClaimStrings.UnmarshalJSON` -/
def audInto : List String → Value → Option (List String)
  | old, .null => some old
  | _, .str s => some [s]
  | _, .arr vs => vs.mapM audItem
  | _, _ => none

/-- `NumericDate.UnmarshalJSON`, which goes through a `json.Number`: a string with a number in it
will do. -/
def dateInto (pl : Platform) : Option Int → Value → Option (Option Int)
  | _, .null => some none
  | _, .num n => (pl.seconds n).map some
  | _, .str s =>
    match readNumber s.toList with
    | some (n, []) => (pl.seconds n).map some
    | _ => none
  | _, _ => none

/-- The claims, when `field name into zero` is the field of that name. -/
def claimsFrom (pl : Platform)
    (field : {α : Type} → String → (α → Value → Option α) → α → Option α) : Option Claims := do
  some {
    userID := ← field "uid" uintInto 0
    role := ← field "role" strInto ""
    email := ← field "email" strInto ""
    type := ← field "type" strInto ""
    pwdVer := ← field "pwdver" intInto 0
    authEpoch := ← field "auth_epoch" intInto 0
    contractVersion := ← field "contract_ver" intInto 0
    sid := ← field "sid" strInto ""
    tenantID := ← field "tid" strInto ""
    permissions := ← field "perms" strsInto none
    issuer := ← field "iss" strInto ""
    subject := ← field "sub" strInto ""
    audience := ← field "aud" audInto []
    expiresAt := ← field "exp" (dateInto pl) none
    notBefore := ← field "nbf" (dateInto pl) none
    issuedAt := ← field "iat" (dateInto pl) none
    id := ← field "jti" strInto "" }

/-- `strings.EqualFold` -/
def equalFold (pl : Platform) (a b : String) : Bool :=
  a.toList.map pl.fold = b.toList.map pl.fold

/-- The field of the decoder: all members of the name up to folding, in order. Members of different
fields do not touch each other. -/
def foldedField (pl : Platform) (ms : List (String × Value)) {α : Type} (name : String)
    (into : α → Value → Option α) (zero : α) : Option α :=
  (ms.filter fun m => equalFold pl m.1 name).foldlM (fun a m => into a m.2) zero

/-- `json.Unmarshal` into a map. -/
def membersOf : Value → Option (List (String × Value))
  | .obj ms => some ms
  | .null => some []
  | _ => none

/-- `json.Unmarshal` into `Claims`. -/
def unmarshalClaims (pl : Platform) (v : Value) : Option Claims :=
  (membersOf v).bind fun ms => claimsFrom pl (foldedField pl ms)

/-- The field as the exactly named member has it. -/
def exactField (ms : List (String × Value)) {α : Type} (name : String)
    (into : α → Value → Option α) (zero : α) : Option α :=
  match ms.lookup name with
  | none => some zero
  | some v => into zero v

/-- The typed claims of the exactly named members. -/
def exactClaims (pl : Platform) (ms : List (String × Value)) : Option Claims :=
  claimsFrom pl (exactField ms)

/-! ## Names -/

/-- The protected names of the header. -/
def headerNames : List String :=
  ["alg", "kid", "typ", "cty", "crit", "jku", "jwk", "x5u", "x5c", "x5t", "x5t#S256", "b64"]

/-- The names of the typed claims. -/
def claimNames : List String :=
  ["contract_ver", "iss", "aud", "sub", "uid", "type", "tid", "exp", "iat", "nbf", "jti", "sid",
    "pwdver", "auth_epoch", "perms", "role", "email"]

/-- The protected names of the payload. -/
def payloadNames : List String :=
  claimNames ++ ["tenant_id", "permissions", "roles", "scopes", "id"]

/-- No member is named like a protected one up to folding, but for that very name. -/
def namesExact (pl : Platform) (names : List String) (ms : List (String × Value)) : Bool :=
  ms.all fun m => names.all fun canonical => !(m.1 ≠ canonical && equalFold pl m.1 canonical)

/-- A segment of `validateTokenNames`. -/
def validateSegment (pl : Platform) (names : List String) (cs : List Char) : Bool :=
  match (segment cs).bind uniqueObject with
  | none => false
  | some ms => namesExact pl names ms

/-- `validateTokenNames` -/
def validateTokenNames (pl : Platform) (token : String) : Bool :=
  match parts token with
  | [header, payload, _] =>
    validateSegment pl headerNames header && validateSegment pl payloadNames payload
  | _ => false

section Names

variable {pl : Platform} {ms : List (String × Value)} {name : String} {names : List String}

theorem filter_name (hnodup : (ms.map Prod.fst).Nodup) :
    ms.filter (fun m => decide (m.1 = name)) =
      ((ms.lookup name).map fun v => (name, v)).toList := by
  induction ms with
  | nil => rfl
  | cons m ms ih =>
    obtain ⟨k, v⟩ := m
    rw [List.map_cons, List.nodup_cons] at hnodup
    by_cases hk : k = name
    · subst hk
      have hnone : ms.filter (fun m => decide (m.1 = k)) = [] := by
        refine List.filter_eq_nil_iff.2 fun m hm heq => hnodup.1 ?_
        exact List.mem_map.2 ⟨m, hm, by simpa using heq⟩
      simp [hnone]
    · have hk' : (name == k) = false := by simpa using Ne.symm hk
      simp [List.lookup_cons, hk, hk', ih hnodup.2]

/-- Where the names are exact, folding finds the exactly named member alone. -/
theorem filter_fold (hexact : namesExact pl names ms = true) (hname : name ∈ names) :
    ms.filter (fun m => equalFold pl m.1 name) = ms.filter (fun m => decide (m.1 = name)) := by
  refine List.filter_congr fun m hm => ?_
  have h := List.all_eq_true.1 (List.all_eq_true.1 hexact m hm) name hname
  by_cases heq : m.1 = name
  · simp [heq, equalFold]
  · simpa [heq] using h

theorem foldedField_exact (hexact : namesExact pl names ms = true)
    (hnodup : (ms.map Prod.fst).Nodup) (hname : name ∈ names) {α : Type}
    (into : α → Value → Option α) (zero : α) :
    foldedField pl ms name into zero = exactField ms name into zero := by
  unfold foldedField exactField
  rw [filter_fold hexact hname, filter_name hnodup]
  cases ms.lookup name with
  | none => rfl
  | some v => simp

end Names

/-- Readers that agree on the claims' names give the same claims. -/
theorem claimsFrom_congr (pl : Platform)
    {field field' : {α : Type} → String → (α → Value → Option α) → α → Option α}
    (h : ∀ name ∈ claimNames, ∀ {α : Type} (into : α → Value → Option α) (zero : α),
      field name into zero = field' name into zero) :
    claimsFrom pl field = claimsFrom pl field' := by
  unfold claimsFrom
  beta_reduce
  rw [h "uid" (by decide), h "role" (by decide), h "email" (by decide), h "type" (by decide),
    h "pwdver" (by decide), h "auth_epoch" (by decide), h "contract_ver" (by decide),
    h "sid" (by decide), h "tid" (by decide), h "perms" (by decide), h "iss" (by decide),
    h "sub" (by decide), h "aud" (by decide), h "exp" (by decide), h "nbf" (by decide),
    h "iat" (by decide), h "jti" (by decide)]

/-- **Where the names are exact, the typed claims are the exactly named members.** -/
theorem unmarshalClaims_exact (hexact : namesExact pl payloadNames ms = true)
    (hnodup : (ms.map Prod.fst).Nodup) : unmarshalClaims pl (.obj ms) = exactClaims pl ms :=
  claimsFrom_congr pl fun _ hname _ into zero =>
    foldedField_exact hexact hnodup (List.mem_append_left _ hname) into zero

/-- Members that agree on the claims' names give the same claims. -/
theorem exactClaims_congr {ms ms' : List (String × Value)}
    (h : ∀ name ∈ claimNames, ms.lookup name = ms'.lookup name) :
    exactClaims pl ms = exactClaims pl ms' :=
  claimsFrom_congr pl fun name hname _ into zero => by
    unfold exactField
    rw [h name hname]

end FinnAuth.Jwt
