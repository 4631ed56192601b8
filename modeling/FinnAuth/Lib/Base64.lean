import Mathlib.Data.List.Basic

/-!
# Base 64 and UTF-8

`encoding/base64` with its standard and URL alphabets and Go's lenient reading of UTF-8, by which a
byte that starts no character becomes the replacement character.

* As in Go, line breaks in a text are skipped, and bits left over at its end are not looked at.
* `runes` reads UTF-8 with the core library's decoder of one character, which refuses surrogates and
  overlong forms as `utf8.DecodeRune` does.

Results:
* **`decode_encode`**: bytes are read back, and `mem_encode`: no other characters are written;
* **`runes_utf8`**: characters are read back.
-/

namespace FinnAuth.Lib.Base64

/-- `StdEncoding` and `URLEncoding`. -/
inductive Alphabet : Type where
  | std
  | url
  deriving DecidableEq, Repr

namespace Alphabet

/-- The last two digits. -/
def last : Alphabet → Char × Char
  | std => ('+', '/')
  | url => ('-', '_')

/-- The digit of a number below 64. -/
def digit (a : Alphabet) (n : Nat) : Char :=
  if n < 26 then Char.ofNat (65 + n)
  else if n < 52 then Char.ofNat (71 + n)
  else if n < 62 then Char.ofNat (n - 4)
  else if n = 62 then a.last.1
  else a.last.2

def value? (a : Alphabet) (c : Char) : Option Nat :=
  if 65 ≤ c.toNat ∧ c.toNat ≤ 90 then some (c.toNat - 65)
  else if 97 ≤ c.toNat ∧ c.toNat ≤ 122 then some (c.toNat - 71)
  else if 48 ≤ c.toNat ∧ c.toNat ≤ 57 then some (c.toNat + 4)
  else if c = a.last.1 then some 62
  else if c = a.last.2 then some 63
  else none

theorem value_digit (a : Alphabet) : ∀ n < 64, a.value? (a.digit n) = some n := by
  cases a <;> decide

theorem digit_ne (a : Alphabet) : ∀ n < 64,
    a.digit n ≠ '\n' ∧ a.digit n ≠ '\r' ∧ a.digit n ≠ '.' ∧ a.digit n ≠ '=' := by
  cases a <;> decide

end Alphabet

/-! ## Sextets -/

/-- The bytes in groups of six bits, the last one filled up with zeros. -/
def sextets : List UInt8 → List Nat
  | [] => []
  | [a] => [a.toNat / 4, a.toNat % 4 * 16]
  | [a, b] => [a.toNat / 4, a.toNat % 4 * 16 + b.toNat / 16, b.toNat % 16 * 4]
  | a :: b :: c :: rest =>
    a.toNat / 4 :: (a.toNat % 4 * 16 + b.toNat / 16) :: (b.toNat % 16 * 4 + c.toNat / 64) ::
      c.toNat % 64 :: sextets rest

/-- The bytes of groups of six bits. -/
def octets : List Nat → Option (List UInt8)
  | [] => some []
  | [_] => none
  | [x, y] => some [UInt8.ofNat (4 * x + y / 16)]
  | [x, y, z] => some [UInt8.ofNat (4 * x + y / 16), UInt8.ofNat (y % 16 * 16 + z / 4)]
  | x :: y :: z :: w :: rest =>
    (octets rest).map fun bs =>
      UInt8.ofNat (4 * x + y / 16) :: UInt8.ofNat (y % 16 * 16 + z / 4) ::
        UInt8.ofNat (z % 4 * 64 + w) :: bs

theorem sextets_lt (bs : List UInt8) : ∀ n ∈ sextets bs, n < 64 := by
  induction bs using sextets.induct with
  | case1 => simp [sextets]
  | case2 a =>
    have := a.toNat_lt
    simp only [sextets, List.mem_cons, List.not_mem_nil, or_false, forall_eq_or_imp, forall_eq]
    omega
  | case3 a b =>
    have := a.toNat_lt
    have := b.toNat_lt
    simp only [sextets, List.mem_cons, List.not_mem_nil, or_false, forall_eq_or_imp, forall_eq]
    omega
  | case4 a b c rest ih =>
    have := a.toNat_lt
    have := b.toNat_lt
    have := c.toNat_lt
    simp only [sextets, List.mem_cons, forall_eq_or_imp]
    refine ⟨by omega, by omega, by omega, by omega, ih⟩

theorem ofNat_eq {n : Nat} {a : UInt8} (h : n = a.toNat) : UInt8.ofNat n = a := by
  rw [h, UInt8.ofNat_toNat]

theorem octets_sextets (bs : List UInt8) : octets (sextets bs) = some bs := by
  induction bs using sextets.induct with
  | case1 => rfl
  | case2 a =>
    have := a.toNat_lt
    simp only [sextets, octets, ofNat_eq (a := a) (n := 4 * (a.toNat / 4) + a.toNat % 4 * 16 / 16)
      (by omega)]
  | case3 a b =>
    have := a.toNat_lt
    have := b.toNat_lt
    simp only [sextets, octets]
    rw [ofNat_eq (a := a) (by omega), ofNat_eq (a := b) (by omega)]
  | case4 a b c rest ih =>
    have := a.toNat_lt
    have := b.toNat_lt
    have := c.toNat_lt
    simp only [sextets, octets, ih, Option.map_some]
    rw [ofNat_eq (a := a) (by omega), ofNat_eq (a := b) (by omega), ofNat_eq (a := c) (by omega)]

/-! ## Texts -/

/-- `EncodeToString` without padding. -/
def encode (a : Alphabet) (bs : List UInt8) : List Char := (sextets bs).map a.digit

def isBreak (c : Char) : Bool := c = '\n' || c = '\r'

/-- `DecodeString` without padding. -/
def decode (a : Alphabet) (cs : List Char) : Option (List UInt8) :=
  ((cs.filter fun c => !isBreak c).mapM a.value?).bind octets

/-- `StdEncoding.EncodeToString` -/
def encodePadded (bs : List UInt8) : List Char :=
  encode .std bs ++ List.replicate ((3 - bs.length % 3) % 3) '='

/-- `StdEncoding.DecodeString` -/
def decodePadded (cs : List Char) : Option (List UInt8) :=
  let body := cs.filter fun c => !isBreak c
  if body.length % 4 ≠ 0 then none
  else if body.drop (body.length - 2) = ['=', '='] then decode .std (body.take (body.length - 2))
  else if body.drop (body.length - 1) = ['='] then decode .std (body.take (body.length - 1))
  else decode .std body

/-- The characters of an encoded text are digits. -/
theorem mem_encode {a : Alphabet} {bs : List UInt8} {c : Char} (h : c ∈ encode a bs) :
    c ≠ '\n' ∧ c ≠ '\r' ∧ c ≠ '.' ∧ c ≠ '=' := by
  obtain ⟨n, hn, rfl⟩ := List.mem_map.1 h
  exact a.digit_ne n (sextets_lt bs n hn)

theorem mapM_value (a : Alphabet) {ns : List Nat} (h : ∀ n ∈ ns, n < 64) :
    (ns.map a.digit).mapM a.value? = some ns := by
  induction ns with
  | nil => rfl
  | cons n ns ih =>
    rw [List.map_cons, List.mapM_cons, a.value_digit n (h n List.mem_cons_self),
      ih fun m hm => h m (List.mem_cons_of_mem _ hm)]
    rfl

/-- **Bytes are read back.** -/
theorem decode_encode (a : Alphabet) (bs : List UInt8) : decode a (encode a bs) = some bs := by
  have hclean : (encode a bs).filter (fun c => !isBreak c) = encode a bs := by
    refine List.filter_eq_self.2 fun c hc => ?_
    obtain ⟨hn, hr, -, -⟩ := mem_encode hc
    simp [isBreak, hn, hr]
  unfold decode
  rw [hclean, encode, mapM_value a (sextets_lt bs)]
  exact octets_sextets bs

/-! ## UTF-8 -/

/-- The bytes of characters. -/
def utf8 (cs : List Char) : List UInt8 := cs.flatMap String.utf8EncodeChar

/-- The replacement character. -/
def runeError : Char := Char.ofNat 0xFFFD

/-- The characters of at most `n` steps of `utf8.DecodeRune`. -/
def runesIn : Nat → List UInt8 → List Char
  | _, [] => []
  | 0, _ :: _ => []
  | n + 1, b :: bs =>
    match (b :: bs).toByteArray.utf8DecodeChar? 0 with
    | some c => c :: runesIn n ((b :: bs).drop c.utf8Size)
    | none => runeError :: runesIn n bs

/-- The characters of bytes. -/
def runes (bs : List UInt8) : List Char := runesIn bs.length bs

theorem runesIn_utf8 (cs : List Char) : ∀ n, (utf8 cs).length ≤ n → runesIn n (utf8 cs) = cs := by
  induction cs with
  | nil =>
    intro n _
    cases n <;> rfl
  | cons c cs ih =>
    intro n hn
    have hsplit : utf8 (c :: cs) = String.utf8EncodeChar c ++ utf8 cs := rfl
    have hsize : (String.utf8EncodeChar c).length = c.utf8Size := String.length_utf8EncodeChar c
    have hpos : 0 < c.utf8Size := Char.utf8Size_pos c
    have hdecode : (utf8 (c :: cs)).toByteArray.utf8DecodeChar? 0 = some c := by
      rw [hsplit, List.toByteArray_append]
      exact ByteArray.utf8DecodeChar?_utf8EncodeChar_append
    have hdrop : (utf8 (c :: cs)).drop c.utf8Size = utf8 cs := by
      rw [hsplit, ← hsize, List.drop_left]
    have hlen : (utf8 (c :: cs)).length = c.utf8Size + (utf8 cs).length := by
      rw [hsplit, List.length_append, hsize]
    obtain ⟨n, rfl⟩ : ∃ m, n = m + 1 := ⟨n - 1, by omega⟩
    cases hbs : utf8 (c :: cs) with
    | nil =>
      rw [hbs] at hlen
      simp only [List.length_nil] at hlen
      omega
    | cons b bs =>
      rw [hbs] at hdecode hdrop
      rw [runesIn, hdecode]
      simp only [hdrop]
      rw [ih n (by omega)]

/-- **Characters are read back.** -/
theorem runes_utf8 (cs : List Char) : runes (utf8 cs) = cs :=
  runesIn_utf8 cs _ (Nat.le_refl _)

example : String.ofList (encode .url (utf8 "Lean!".toList)) = "TGVhbiE" := by decide +kernel

end FinnAuth.Lib.Base64
