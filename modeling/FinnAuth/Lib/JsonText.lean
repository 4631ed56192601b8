import FinnAuth.Lib.Json

/-!
# JSON texts as Go reads them

The grammar of `encoding/json` over characters: white space, escapes with surrogate pairs, numbers
with fractions and exponents, nested arrays and objects. `document` is what `json.Unmarshal` sees of
a text, the members of an object in order and with their duplicates.

* Characters stand for bytes: outside strings every byte of the grammar is ASCII, so it does not
  matter that the bytes of a text are read as characters first (`Base64.runes`).
* `readValue n` reads values nested less than `n` deep. A text nests no deeper than it is long; the
  limit of 10000 that Go sets is left out.

Results:
* `document_obj`: which texts are objects;
* `finds_scalar`, `finds_flat`: writers and readers, part by part;
* **`document_write`**, **`readObject_writeObject`**: an object of numbers, strings and lists of
  strings, or of scalars, is read back;
* `writeArray_injective`: the text of an array of scalars determines it.
-/

variable {cs : List Char} {c : Char}

namespace FinnAuth.Lib.JsonText

open Json

/-- A number as it is spelt: sign, whole part, fraction and exponent. -/
structure Number where
  negative : Bool
  whole : Nat
  fraction : List Char
  exponent : List Char
  deriving DecidableEq, Repr

inductive Value : Type where
  | null
  | bool (b : Bool)
  | num (n : Number)
  | str (s : String)
  | arr (items : List Value)
  | obj (members : List (String × Value))

/-- `isSpace` of the scanner. -/
def isSpace (c : Char) : Bool := c = ' ' || c = '\t' || c = '\r' || c = '\n'

def skip (cs : List Char) : List Char := cs.dropWhile isSpace

theorem skip_cons (h : isSpace c = false) : skip (c :: cs) = c :: cs := by
  simp [skip, h]

/-! ## Strings -/

/-- A part of a string: a character, or the 16 bits of a numbered escape. -/
inductive Piece : Type where
  | char (c : Char)
  | unit (u : Nat)
  deriving DecidableEq, Repr

def hexValue? (c : Char) : Option Nat :=
  if 48 ≤ c.toNat ∧ c.toNat ≤ 57 then some (c.toNat - 48)
  else if 97 ≤ c.toNat ∧ c.toNat ≤ 102 then some (c.toNat - 87)
  else if 65 ≤ c.toNat ∧ c.toNat ≤ 70 then some (c.toNat - 55)
  else none

/-- `getu4` -/
def unit? (a b c d : Char) : Option Nat := do
  let a ← hexValue? a
  let b ← hexValue? b
  let c ← hexValue? c
  let d ← hexValue? d
  some (4096 * a + 256 * b + 16 * c + d)

/-- The character of a two-character escape. -/
def unescape? (x : Char) : Option Char :=
  if x = '/' then some '/' else (shorts.find? (·.2 = x)).map Prod.fst

/-- The parts of a string after its opening quote. -/
def readPieces : Reader (List Piece)
  | [] => none
  | c :: rest =>
    if c = '"' then some ([], rest)
    else if c.toNat < 32 then none
    else if c = '\\' then
      match rest with
      | [] => none
      | x :: rest =>
        if x = 'u' then
          match rest with
          | h₁ :: h₂ :: h₃ :: h₄ :: rest =>
            (unit? h₁ h₂ h₃ h₄).bind fun u => (readPieces rest).map fun p => (.unit u :: p.1, p.2)
          | _ => none
        else (unescape? x).bind fun y => (readPieces rest).map fun p => (.char y :: p.1, p.2)
    else (readPieces rest).map fun p => (.char c :: p.1, p.2)

def isHigh (u : Nat) : Bool := 0xD800 ≤ u && u < 0xDC00
def isLow (u : Nat) : Bool := 0xDC00 ≤ u && u < 0xE000

/-- The characters of the parts: two surrogates make one, a lone one is replaced. -/
def unquote : List Piece → List Char
  | [] => []
  | .char c :: ps => c :: unquote ps
  | .unit u :: .unit v :: ps =>
    if isHigh u && isLow v then
      Char.ofNat (0x10000 + (u - 0xD800) * 1024 + (v - 0xDC00)) :: unquote ps
    else if isHigh u || isLow u then Char.ofNat 0xFFFD :: unquote (.unit v :: ps)
    else Char.ofNat u :: unquote (.unit v :: ps)
  | .unit u :: ps =>
    (if isHigh u || isLow u then Char.ofNat 0xFFFD else Char.ofNat u) :: unquote ps

/-- A string after its opening quote. -/
def readString : Reader String := fun cs =>
  (readPieces cs).map fun p => (String.ofList (unquote p.1), p.2)

/-! ## Numbers -/

/-- One digit or more. -/
def readDigits : Reader (List Char) := fun cs =>
  if cs.takeWhile Char.isDigit = [] then none
  else some (cs.takeWhile Char.isDigit, cs.dropWhile Char.isDigit)

/-- A whole number, with no zeros in front. -/
def readWhole : Reader Nat := fun cs =>
  (readDigits cs).bind fun p =>
    if Nat.toDigits 10 (Nat.ofDigitChars 10 p.1 0) = p.1 then
      some (Nat.ofDigitChars 10 p.1 0, p.2)
    else none

def readFraction : Reader (List Char)
  | '.' :: rest => readDigits rest
  | cs => some ([], cs)

/-- The exponent with its sign. -/
def readExponent : Reader (List Char) := fun cs =>
  match cs with
  | c :: rest =>
    if c = 'e' ∨ c = 'E' then
      match rest with
      | '-' :: rest => (readDigits rest).map fun p => ('-' :: p.1, p.2)
      | '+' :: rest => readDigits rest
      | rest => readDigits rest
    else some ([], cs)
  | [] => some ([], cs)

def readNumber : Reader Number := fun cs =>
  let (negative, cs) := match cs with
    | '-' :: rest => (true, rest)
    | cs => (false, cs)
  (readWhole cs).bind fun w => (readFraction w.2).bind fun f => (readExponent f.2).map fun e =>
    (⟨negative, w.1, f.1, e.1⟩, e.2)

/-! ## Values -/

section List

variable {α : Type}

/-- The items of a list that has some; the number bounds how many. -/
def readItems (read : Reader α) (close : Char) : Nat → Reader (List α)
  | 0, _ => none
  | n + 1, cs =>
    (read cs).bind fun p =>
      match skip p.2 with
      | [] => none
      | c :: rest =>
        if c = ',' then (readItems read close n rest).map fun q => (p.1 :: q.1, q.2)
        else if c = close then some ([p.1], rest)
        else none

def readList (read : Reader α) (close : Char) : Reader (List α) := fun cs =>
  match skip cs with
  | [] => none
  | c :: rest => if c = close then some ([], rest) else readItems read close cs.length cs

/-- A colon and a value. -/
def readColon (read : Reader α) : Reader α := fun cs =>
  match skip cs with
  | ':' :: rest => read rest
  | _ => none

def readMember (read : Reader α) : Reader (String × α) := fun cs =>
  match skip cs with
  | '"' :: rest =>
    (readString rest).bind fun k => (readColon read k.2).map fun v => ((k.1, v.1), v.2)
  | _ => none

end List

variable {ms : List (String × Value)}

/-- The rest of a word. -/
def readWord (word : List Char) (v : Value) : Reader Value := fun cs =>
  if cs.take word.length = word then some (v, cs.drop word.length) else none

def readValue : Nat → Reader Value
  | 0, _ => none
  | n + 1, cs =>
    match skip cs with
    | [] => none
    | c :: rest =>
      if c = '"' then (readString rest).map fun p => (.str p.1, p.2)
      else if c = '[' then (readList (readValue n) ']' rest).map fun p => (.arr p.1, p.2)
      else if c = '\x7b' then
        (readList (readMember (readValue n)) '\x7d' rest).map fun p => (.obj p.1, p.2)
      else if c = 'n' then readWord ['u', 'l', 'l'] .null rest
      else if c = 't' then readWord ['r', 'u', 'e'] (.bool true) rest
      else if c = 'f' then readWord ['a', 'l', 's', 'e'] (.bool false) rest
      else (readNumber (c :: rest)).map fun p => (.num p.1, p.2)

/-- The value of a text that holds one value and nothing else. -/
def document (cs : List Char) : Option Value :=
  (readValue (cs.length + 1) cs).bind fun p => if skip p.2 = [] then some p.1 else none

/-! ## Objects -/

/-- A member as its name and its value. -/
theorem readMember_some {read : Reader Value} {cs : List Char} {m : (String × Value) × List Char}
    (h : readMember read cs = some m) :
    ∃ r name, skip cs = '"' :: r ∧ readString r = some name ∧
      readColon read name.2 = some (m.1.2, m.2) ∧ m.1.1 = name.1 := by
  unfold readMember at h
  split at h
  · rename_i r hskip
    obtain ⟨name, hname, h⟩ := Option.bind_eq_some_iff.1 h
    obtain ⟨v, hv, rfl⟩ := Option.map_eq_some_iff.1 h
    exact ⟨r, name, hskip, hname, hv, rfl⟩
  · cases h

theorem readWord_eq {word : List Char} {v v' : Value} {cs rest : List Char}
    (h : readWord word v cs = some (v', rest)) : v' = v := by
  unfold readWord at h
  split at h
  · exact (Prod.mk.inj (Option.some.inj h)).1.symm
  · cases h

/-- A value that is an object starts with a brace. -/
theorem readValue_obj {n : Nat} {cs tl : List Char}
    (h : readValue (n + 1) cs = some (.obj ms, tl)) : ∃ rest, skip cs = '\x7b' :: rest ∧
      readList (readMember (readValue n)) '\x7d' rest = some (ms, tl) := by
  rw [readValue] at h
  split at h
  · cases h
  · rename_i c rest hskip
    split at h
    · obtain ⟨_, _, h⟩ := Option.map_eq_some_iff.1 h
      cases h
    · split at h
      · obtain ⟨_, _, h⟩ := Option.map_eq_some_iff.1 h
        cases h
      · split at h
        · rename_i hc
          obtain ⟨p, hp, h⟩ := Option.map_eq_some_iff.1 h
          obtain ⟨hms, rfl⟩ := Prod.mk.inj h
          obtain rfl := Value.obj.inj hms
          exact ⟨rest, hc ▸ hskip, hp⟩
        · split at h
          · cases readWord_eq h
          · split at h
            · cases readWord_eq h
            · split at h
              · cases readWord_eq h
              · obtain ⟨_, _, h⟩ := Option.map_eq_some_iff.1 h
                cases h

/-- A text that is an object starts with a brace. -/
theorem document_obj {text : List Char} :
    document text = some (.obj ms) ↔ ∃ rest tl, skip text = '\x7b' :: rest ∧
      readList (readMember (readValue text.length)) '\x7d' rest = some (ms, tl) ∧ skip tl = [] := by
  constructor
  · intro h
    obtain ⟨⟨v, tl⟩, hread, h⟩ := Option.bind_eq_some_iff.1 h
    split at h
    · rename_i htl
      obtain rfl := Option.some.inj h
      obtain ⟨rest, hskip, hlist⟩ := readValue_obj hread
      exact ⟨rest, tl, hskip, hlist, htl⟩
    · cases h
  · rintro ⟨rest, tl, hskip, hlist, htl⟩
    unfold document
    rw [readValue, hskip]
    simpa [hlist] using htl

/-! ## Reading back -/

/-- What may follow a value. -/
def Ends (cs : List Char) : Prop := ∀ c ∈ cs.head?, c = ',' ∨ c = ']' ∨ c = '\x7d'

theorem ends_cons {c : Char} {cs : List Char} (h : c = ',' ∨ c = ']' ∨ c = '\x7d') :
    Ends (c :: cs) := by
  intro d hd
  cases hd
  exact h

/-- The part that `escape` makes of a character. -/
def piece (c : Char) : Piece :=
  if (shorts.lookup c).isNone && numbered c then .unit c.toNat else .char c

theorem hexValue_hexDigit : ∀ n < 16, hexValue? (hexDigit n) = some n := by decide

theorem unit_digits (h : c.toNat < 0xD800) :
    unit? (hexDigit (c.toNat / 4096)) (hexDigit (c.toNat / 256 % 16))
      (hexDigit (c.toNat / 16 % 16)) (hexDigit (c.toNat % 16)) = some c.toNat := by
  have h₁ := hexValue_hexDigit (c.toNat / 4096) (by omega)
  have h₂ := hexValue_hexDigit (c.toNat / 256 % 16) (by omega)
  have h₃ := hexValue_hexDigit (c.toNat / 16 % 16) (by omega)
  have h₄ := hexValue_hexDigit (c.toNat % 16) (by omega)
  have hsum : 4096 * (c.toNat / 4096) + 256 * (c.toNat / 256 % 16) + 16 * (c.toNat / 16 % 16) +
      c.toNat % 16 = c.toNat := by omega
  unfold unit?
  simp only [h₁, h₂, h₃, h₄, Option.bind_eq_bind, Option.bind_some, hsum]

theorem unescape_short : ∀ p ∈ shorts, unescape? p.2 = some p.1 ∧ p.2 ≠ 'u' := by decide

/-- A written character is read as its part. -/
theorem readPieces_escape (c : Char) (rest : List Char) :
    readPieces (escape c ++ rest) = (readPieces rest).map fun p => (piece c :: p.1, p.2) := by
  unfold escape
  split
  · rename_i x hx
    obtain ⟨hun, hu⟩ := unescape_short _ (mem_of_lookup hx)
    have hpiece : piece c = .char c := by simp [piece, hx]
    rw [readPieces.eq_def]
    simp [hu, hun, hpiece]
  · rename_i hnone
    split
    · rename_i hnum
      have hpiece : piece c = .unit c.toNat := by simp [piece, hnone, hnum]
      rw [readPieces.eq_def]
      simp [unit_digits (numbered_small hnum), hpiece]
    · rename_i hnum
      -- neither a quote nor a backslash: those have a short escape
      have hq : c ≠ '"' := by rintro rfl; simp [shorts] at hnone
      have hb : c ≠ '\\' := by rintro rfl; simp [shorts] at hnone
      have hpiece : piece c = .char c := by simp [piece, hnum]
      have hctl : ¬ c.toNat < 32 := by
        intro h
        simp [numbered, h] at hnum
      rw [List.cons_append, readPieces.eq_def]
      simp only [if_neg hq, if_neg hb, if_neg hctl, List.nil_append, hpiece]

theorem readPieces_write (cs rest : List Char) :
    readPieces (cs.flatMap escape ++ '"' :: rest) = some (cs.map piece, rest) := by
  induction cs with
  | nil =>
    rw [List.flatMap_nil, List.nil_append, readPieces.eq_def]
    simp
  | cons c cs ih =>
    rw [List.flatMap_cons, List.append_assoc, readPieces_escape, ih]
    rfl

/-- No numbered escape of the encoder is a surrogate. -/
theorem numbered_plain (h : numbered c = true) : (isHigh c.toNat || isLow c.toNat) = false := by
  have hlt := numbered_small h
  simp only [isHigh, isLow, Bool.or_eq_false_iff, Bool.and_eq_false_iff, decide_eq_false_iff_not]
  omega

theorem unquote_unit {u : Nat} (h : (isHigh u || isLow u) = false) (ps : List Piece) :
    unquote (.unit u :: ps) = Char.ofNat u :: unquote ps := by
  obtain ⟨hhigh, hlow⟩ := Bool.or_eq_false_iff.1 h
  rw [unquote.eq_def]
  split
  · rename_i heq
    cases heq
  · rename_i heq
    cases heq
  · rename_i heq
    cases heq
    simp [hhigh, hlow]
  · rename_i heq
    cases heq
    simp [hhigh, hlow]

theorem unquote_piece (cs : List Char) : unquote (cs.map piece) = cs := by
  induction cs with
  | nil => rfl
  | cons c cs ih =>
    rw [List.map_cons]
    by_cases hc : ((shorts.lookup c).isNone && numbered c) = true
    · have hplain := numbered_plain (Bool.and_eq_true_iff.1 hc).2
      rw [piece, if_pos hc, unquote_unit hplain, ih, Char.ofNat_toNat]
    · rw [piece, if_neg hc, unquote, ih]

/-- A written string is read back. -/
theorem readString_write (s : String) (rest : List Char) :
    readString (s.toList.flatMap escape ++ '"' :: rest) = some (s, rest) := by
  unfold readString
  rw [readPieces_write]
  simp [unquote_piece]

/-- A whole number as it is spelt. -/
def Number.ofInt (n : Int) : Number := ⟨n < 0, n.natAbs, [], []⟩

theorem digit_of_ends {rest : List Char} (h : Ends rest) : ∀ c ∈ rest.head?, c.isDigit = false := by
  intro c hc
  rcases h c hc with rfl | rfl | rfl <;> decide

theorem readWhole_write (n : Nat) {rest : List Char} (h : Ends rest) :
    readWhole (Nat.toDigits 10 n ++ rest) = some (n, rest) := by
  have hdigits : ∀ c ∈ Nat.toDigits 10 n, c.isDigit = true := fun c hc =>
    Nat.isDigit_of_mem_toDigits (by decide) (by decide) hc
  have htake : (Nat.toDigits 10 n ++ rest).takeWhile Char.isDigit = Nat.toDigits 10 n := by
    rw [List.takeWhile_append_of_pos hdigits]
    cases rest with
    | nil => simp
    | cons c cs => simp [digit_of_ends h c rfl]
  have hdrop : (Nat.toDigits 10 n ++ rest).dropWhile Char.isDigit = rest := by
    rw [List.dropWhile_append_of_pos hdigits]
    cases rest with
    | nil => rfl
    | cons c cs => simp [digit_of_ends h c rfl]
  unfold readWhole readDigits
  rw [htake, hdrop, if_neg Nat.toDigits_ne_nil]
  simp only [Option.bind_some, Nat.ofDigitChars_ten_toDigits, if_true]

theorem readFraction_ends {rest : List Char} (h : Ends rest) :
    readFraction rest = some ([], rest) := by
  unfold readFraction
  split
  · exact absurd (h '.' rfl) (by decide)
  · rfl

theorem readExponent_ends {rest : List Char} (h : Ends rest) :
    readExponent rest = some ([], rest) := by
  unfold readExponent
  split
  · rename_i c cs
    have hc : ¬ (c = 'e' ∨ c = 'E') := by
      rcases h c rfl with rfl | rfl | rfl <;> decide
    rw [if_neg hc]
  · rfl

theorem readNumber_write (n : Int) {rest : List Char} (h : Ends rest) :
    readNumber (writeScalar (.num n) ++ rest) = some (.ofInt n, rest) := by
  cases n with
  | ofNat n =>
    obtain ⟨c, cs, hn, hc⟩ := toDigits_head n
    have hwhole := readWhole_write n h
    have hminus : c ≠ '-' := by rintro rfl; exact absurd hc (by decide)
    simp only [writeScalar]
    rw [hn, List.cons_append] at hwhole ⊢
    unfold readNumber
    split
    rename_i negative cs' heq
    split at heq
    · rename_i rest' hcons
      exact absurd (List.cons.inj hcons).1 hminus
    · cases heq
      rw [hwhole]
      simp only [Option.bind_some, readFraction_ends h, readExponent_ends h, Option.map_some]
      rfl
  | negSucc n =>
    have hwhole := readWhole_write (n + 1) h
    simp only [writeScalar, List.cons_append, readNumber]
    rw [hwhole]
    simp only [Option.bind_some, readFraction_ends h, readExponent_ends h, Option.map_some]
    simp [Number.ofInt]

/-! ## Flat objects -/

/-- The values a flat object holds. -/
inductive Flat : Type where
  | null
  | num (n : Int)
  | str (s : String)
  | strs (ss : List String)
  deriving DecidableEq, Repr

def Flat.value : Flat → Value
  | .null => .null
  | .num n => .num (.ofInt n)
  | .str s => .str s
  | .strs ss => .arr (ss.map .str)

def writeText (s : String) : List Char := writeScalar (.str s)

def writeFlat : Flat → List Char
  | .null => writeScalar .null
  | .num n => writeScalar (.num n)
  | .str s => writeText s
  | .strs ss => '[' :: writeItems writeText ']' ss

/-- A member with its value. -/
def member {α : Type} (write : α → List Char) (m : String × α) : List Char :=
  writeText m.1 ++ ':' :: write m.2

/-- The text of an object, its members in order. -/
def writeObject (ms : List (String × Flat)) : List Char :=
  '\x7b' :: writeItems (member writeFlat) '\x7d' ms

section Undoes

variable {α β : Type} {read : Reader β} {write : α → List Char} {f : α → β} {close : Char}

/-- A reader that finds `f a` where the writer put `a`. -/
def Finds (read : Reader β) (write : α → List Char) (f : α → β) : Prop :=
  ∀ a rest, Ends rest → read (write a ++ rest) = some (f a, rest)

/-- What is written starts with neither white space nor the end of a list. -/
def Starts (write : α → List Char) : Prop :=
  ∀ a, ∃ c cs, write a = c :: cs ∧ isSpace c = false ∧ c ≠ ']' ∧ c ≠ '\x7d'

/-- The two brackets that end a list. -/
def Closing (c : Char) : Prop := c = ']' ∨ c = '\x7d'

theorem Closing.ends (h : Closing close) (cs : List Char) : Ends (close :: cs) := ends_cons (.inr h)

theorem Closing.ne (h : Closing close) : close ≠ ',' ∧ isSpace close = false := by
  rcases h with rfl | rfl <;> decide

theorem readItems_write (hread : Finds read write f) (hclose : Closing close) (a : α) (l : List α)
    (rest : List Char) (n : Nat) (hn : l.length < n) :
    readItems read close n (writeItems write close (a :: l) ++ rest) =
      some ((a :: l).map f, rest) := by
  obtain ⟨hcomma, hspace⟩ := hclose.ne
  induction l generalizing a n with
  | nil =>
    obtain ⟨n, rfl⟩ : ∃ m, n = m + 1 := ⟨n - 1, by omega⟩
    have hr := hread a (close :: rest) (hclose.ends rest)
    simp only [writeItems, List.append_assoc, List.cons_append, List.nil_append, readItems, hr,
      Option.bind_some, skip_cons hspace, if_neg hcomma, if_true]
    rfl
  | cons b l ih =>
    obtain ⟨n, rfl⟩ : ∃ m, n = m + 1 := ⟨n - 1, by omega⟩
    have hr := hread a (',' :: (writeItems write close (b :: l) ++ rest)) (ends_cons (.inl rfl))
    have hskip : isSpace ',' = false := by decide
    simp only [writeItems, List.append_assoc, List.cons_append, readItems, hr, Option.bind_some,
      skip_cons hskip, if_true]
    rw [ih b n (by simpa using hn)]
    rfl

theorem readList_write (hread : Finds read write f) (hstart : Starts write)
    (hclose : Closing close) (l : List α) (rest : List Char) :
    readList read close (writeItems write close l ++ rest) = some (l.map f, rest) := by
  cases l with
  | nil => simp [readList, writeItems, skip_cons hclose.ne.2]
  | cons a l =>
    have hne : ∀ a, ∃ c cs, write a = c :: cs ∧ c ≠ close := by
      intro a
      obtain ⟨c, cs, hc, -, h₁, h₂⟩ := hstart a
      rcases hclose with rfl | rfl
      · exact ⟨c, cs, hc, h₁⟩
      · exact ⟨c, cs, hc, h₂⟩
    have hlen := length_le_writeItems hne (a :: l)
    obtain ⟨c, cs, hc, hspace, h₁, h₂⟩ := hstart a
    obtain ⟨tl, htl⟩ : ∃ tl, writeItems write close (a :: l) ++ rest = c :: tl := by
      cases l <;> simp [writeItems, hc]
    have hnot : c ≠ close := by rcases hclose with rfl | rfl <;> assumption
    have hitems := readItems_write hread hclose a l rest (c :: tl).length (by
      rw [← htl, List.length_append]
      simp only [List.length_cons] at hlen
      omega)
    unfold readList
    rw [htl] at hitems ⊢
    simp only [skip_cons hspace, if_neg hnot, hitems]

end Undoes

theorem starts_text : Starts writeText := fun _ => ⟨_, _, rfl, by decide, by decide, by decide⟩

theorem writeText_append (s : String) (rest : List Char) :
    writeText s ++ rest = '"' :: (s.toList.flatMap escape ++ '"' :: rest) := by
  simp [writeText, writeScalar]

theorem finds_text (n : Nat) : Finds (readValue (n + 1)) writeText .str := by
  intro s rest _
  have hspace : isSpace '"' = false := by decide
  rw [writeText_append, readValue]
  simp only [skip_cons hspace, if_true, readString_write, Option.map_some]

theorem digit_not_space (h : c.isDigit = true ∨ c = '-') : isSpace c = false := by
  by_contra hs
  simp only [isSpace, Bool.not_eq_false, Bool.or_eq_true, decide_eq_true_eq] at hs
  rcases hs with ((rfl | rfl) | rfl) | rfl <;> exact absurd h (by decide)

/-- A text that starts like a number is one. -/
theorem readValue_number (n : Nat) (h : c.isDigit = true ∨ c = '-') :
    readValue (n + 1) (c :: cs) = (readNumber (c :: cs)).map fun p => (.num p.1, p.2) := by
  have hnot : c ≠ '"' ∧ c ≠ '[' ∧ c ≠ '\x7b' ∧ c ≠ 'n' ∧ c ≠ 't' ∧ c ≠ 'f' := by
    refine ⟨?_, ?_, ?_, ?_, ?_, ?_⟩
    all_goals rintro rfl; exact absurd h (by decide)
  obtain ⟨h₁, h₂, h₃, h₄, h₅, h₆⟩ := hnot
  rw [readValue]
  simp only [skip_cons (digit_not_space h), if_neg h₁, if_neg h₂, if_neg h₃, if_neg h₄,
    if_neg h₅, if_neg h₆]

/-- The value of a scalar. -/
def scalarValue : Scalar → Value
  | .null => .null
  | .bool b => .bool b
  | .num n => .num (.ofInt n)
  | .str s => .str s

/-- The text of a number starts like one. -/
theorem writeScalar_num (k : Int) :
    ∃ c cs, writeScalar (.num k) = c :: cs ∧ (c.isDigit = true ∨ c = '-') := by
  cases k with
  | ofNat k =>
    obtain ⟨c, cs, hk, hc⟩ := toDigits_head k
    exact ⟨c, cs, hk, .inl hc⟩
  | negSucc k => exact ⟨_, _, rfl, .inr rfl⟩

theorem finds_scalar (n : Nat) : Finds (readValue (n + 1)) writeScalar scalarValue := by
  intro v rest hrest
  cases v with
  | null =>
    have hspace : isSpace 'n' = false := by decide
    simp only [writeScalar, List.cons_append, List.nil_append]
    rw [readValue]
    simp [skip_cons hspace, readWord, scalarValue]
  | bool b =>
    have ht : isSpace 't' = false := by decide
    have hf : isSpace 'f' = false := by decide
    cases b with
    | true =>
      simp only [writeScalar, List.cons_append, List.nil_append]
      rw [readValue]
      simp [skip_cons ht, readWord, scalarValue]
    | false =>
      simp only [writeScalar, List.cons_append, List.nil_append]
      rw [readValue]
      simp [skip_cons hf, readWord, scalarValue]
  | num k =>
    have hnum := readNumber_write k hrest
    obtain ⟨c, cs, hc, hdigit⟩ := writeScalar_num k
    rw [hc, List.cons_append] at hnum ⊢
    rw [readValue_number n hdigit, hnum]
    rfl
  | str s => exact finds_text n s rest hrest

theorem finds_flat (n : Nat) : Finds (readValue (n + 2)) writeFlat Flat.value := by
  intro v rest hrest
  cases v with
  | null => exact finds_scalar (n + 1) .null rest hrest
  | num k => exact finds_scalar (n + 1) (.num k) rest hrest
  | str s => exact finds_scalar (n + 1) (.str s) rest hrest
  | strs ss =>
    have hspace : isSpace '[' = false := by decide
    have hquote : '[' ≠ '"' := by decide
    have hlist := readList_write (finds_text n) starts_text (.inl rfl) ss rest
    simp only [writeFlat, Flat.value, List.cons_append]
    rw [readValue]
    simp only [skip_cons hspace, if_neg hquote, if_true, hlist, Option.map_some]

section Members

variable {α : Type} {write : α → List Char} {f : α → Value}

theorem finds_member {n : Nat} (h : Finds (readValue n) write f) :
    Finds (readMember (readValue n)) (member write) fun m => (m.1, f m.2) := by
  rintro ⟨k, v⟩ rest hrest
  have hquote : isSpace '"' = false := by decide
  have hcolon : isSpace ':' = false := by decide
  have hv := h v rest hrest
  unfold member readMember
  rw [List.append_assoc, writeText_append]
  simp only [skip_cons hquote, readString_write, Option.bind_some, List.cons_append, readColon,
    skip_cons hcolon, hv, Option.map_some]

theorem document_members (hfind : ∀ n, Finds (readValue (n + 2)) write f) (ms : List (String × α)) :
    document ('\x7b' :: writeItems (member write) '\x7d' ms) =
      some (.obj (ms.map fun m => (m.1, f m.2))) := by
  have hspace : isSpace '\x7b' = false := by decide
  have hquote : '\x7b' ≠ '"' := by decide
  have harr : '\x7b' ≠ '[' := by decide
  have hstart : Starts (member write) := fun _ => ⟨_, _, rfl, by decide, by decide, by decide⟩
  have hlen : 0 < (writeItems (member write) '\x7d' ms).length := by
    have := length_le_writeItems (fun m => ⟨_, _, rfl, by decide⟩ :
      ∀ m : String × α, ∃ c cs, member write m = c :: cs ∧ c ≠ '\x7d') ms
    omega
  obtain ⟨n, hn⟩ : ∃ n, ('\x7b' :: writeItems (member write) '\x7d' ms).length = n + 2 :=
    ⟨(writeItems (member write) '\x7d' ms).length - 1, by simp only [List.length_cons]; omega⟩
  have hlist := readList_write (finds_member (hfind n)) hstart (.inr rfl) ms []
  rw [List.append_nil] at hlist
  unfold document
  rw [hn, readValue]
  simp only [skip_cons hspace, if_neg hquote, if_neg harr, if_true, hlist, Option.map_some,
    Option.bind_some]
  rfl

end Members

/-- **An object is read back.** -/
theorem document_write (ms : List (String × Flat)) :
    document (writeObject ms) = some (.obj (ms.map fun m => (m.1, m.2.value))) :=
  document_members finds_flat ms

/-! ## Scalars -/

/-- A value that is a scalar; a number with a fraction or an exponent is none. -/
def scalar? : Value → Option Scalar
  | .null => some .null
  | .bool b => some (.bool b)
  | .num n =>
    if n.fraction = [] ∧ n.exponent = [] then
      some (.num (if n.negative then -n.whole else n.whole))
    else none
  | .str s => some (.str s)
  | .arr _ => none
  | .obj _ => none

theorem scalar?_value (s : Scalar) : scalar? (scalarValue s) = some s := by
  cases s with
  | num n =>
    simp only [scalarValue, scalar?, Number.ofInt, and_self, if_true, decide_eq_true_eq]
    congr 2
    split <;> omega
  | _ => rfl

/-- The members of a text that is an object of scalars and nothing else. -/
def readObject (s : String) : Option (List (String × Scalar)) :=
  match document s.toList with
  | some (.obj ms) => ms.mapM fun m => (scalar? m.2).map fun v => (m.1, v)
  | _ => none

/-- **An object of scalars is read back.** -/
theorem readObject_writeObject (l : List (String × Scalar)) :
    readObject (Json.writeObject l) = some l := by
  have hdoc : document (Json.writeObject l).toList =
      some (.obj (l.map fun m => (m.1, scalarValue m.2))) := by
    rw [Json.writeObject, String.toList_ofList]
    exact document_members (fun n => finds_scalar (n + 1)) l
  have hmembers : (l.map fun m => (m.1, scalarValue m.2)).mapM
      (fun m => (scalar? m.2).map fun v => (m.1, v)) = some l := by
    clear hdoc
    induction l with
    | nil => rfl
    | cons m l ih => simp [List.mapM_cons, scalar?_value, ih]
  simp only [readObject, hdoc, hmembers]

theorem starts_scalar : Starts writeScalar := by
  intro s
  cases s with
  | num n =>
    obtain ⟨c, cs, hn, hc⟩ := writeScalar_num n
    refine ⟨c, cs, hn, digit_not_space hc, ?_, ?_⟩ <;> (rintro rfl; exact absurd hc (by decide))
  | bool b => cases b <;> exact ⟨_, _, rfl, by decide, by decide, by decide⟩
  | _ => exact ⟨_, _, rfl, by decide, by decide, by decide⟩

/-- **The text of an array of scalars determines it.** -/
theorem writeArray_injective {l l' : List Scalar} (h : writeArray l = writeArray l') : l = l' := by
  have hread : ∀ l, readList (readValue 1) ']' (writeItems writeScalar ']' l ++ []) =
      some (l.map scalarValue, []) :=
    fun l => readList_write (finds_scalar 0) starts_scalar (.inl rfl) l []
  have hitems : writeItems writeScalar ']' l = writeItems writeScalar ']' l' :=
    (List.cons.inj (String.ofList_injective h)).2
  have hvalues : l.map scalarValue = l'.map scalarValue := by
    have hl := hread l
    rw [hitems, hread l'] at hl
    exact (Prod.mk.inj (Option.some.inj hl)).1.symm
  refine List.map_injective_iff.2 (fun a b hab => ?_) hvalues
  exact Option.some.inj ((scalar?_value a).symm.trans (hab ▸ scalar?_value b))

end FinnAuth.Lib.JsonText
