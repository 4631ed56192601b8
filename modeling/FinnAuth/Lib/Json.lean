import Mathlib.Data.List.Basic

/-!
# Flat JSON texts

The compact texts of an array or an object of scalars, with the escapes of Go's encoder. They are
read back in `JsonText.lean`; `get?` finds a member of what was read.

Out of scope: nested documents, fractions and white space between tokens, which the encoder does
not write.
-/

namespace FinnAuth.Lib.Json

/-- A scalar of a document. -/
inductive Scalar : Type where
  | null
  | bool (b : Bool)
  | num (n : Int)
  | str (s : String)
  deriving DecidableEq, Repr

/-- A reader takes a value off the front of a text. -/
abbrev Reader (α : Type) := List Char → Option (α × List Char)

/-! ## Characters -/

def hexDigit (n : Nat) : Char := if n < 10 then Char.ofNat (48 + n) else Char.ofNat (87 + n)

/-- The characters with an escape of two characters, and its second one. -/
def shorts : List (Char × Char) :=
  [('"', '"'), ('\\', '\\'), (Char.ofNat 8, 'b'), (Char.ofNat 12, 'f'), ('\n', 'n'), ('\r', 'r'),
    ('\t', 't')]

/-- The characters written by their number: the other controls, what HTML could read, and the two
line separators. -/
def numbered (c : Char) : Bool :=
  c.toNat < 32 || c = '<' || c = '>' || c = '&' || c.toNat = 0x2028 || c.toNat = 0x2029

/-- A character inside a string. -/
def escape (c : Char) : List Char :=
  match shorts.lookup c with
  | some x => ['\\', x]
  | none =>
    if numbered c then
      ['\\', 'u', hexDigit (c.toNat / 4096), hexDigit (c.toNat / 256 % 16),
        hexDigit (c.toNat / 16 % 16), hexDigit (c.toNat % 16)]
    else [c]

theorem mem_of_lookup {c x : Char} {l : List (Char × Char)} (h : l.lookup c = some x) :
    (c, x) ∈ l := by
  induction l with
  | nil => cases h
  | cons p l ih =>
    rw [List.lookup_cons] at h
    split at h
    · rename_i hc
      cases h
      simp only [beq_iff_eq] at hc
      exact hc ▸ List.mem_cons_self
    · exact List.mem_cons_of_mem _ (ih h)

theorem numbered_small {c : Char} (h : numbered c = true) : c.toNat < 0xD800 := by
  simp only [numbered, Bool.or_eq_true, decide_eq_true_eq] at h
  rcases h with ((((h | h) | h) | h) | h) | h
  · omega
  all_goals first | (subst h; decide) | omega

/-! ## Scalars -/

def writeScalar : Scalar → List Char
  | .null => ['n', 'u', 'l', 'l']
  | .bool true => ['t', 'r', 'u', 'e']
  | .bool false => ['f', 'a', 'l', 's', 'e']
  | .num (.ofNat n) => Nat.toDigits 10 n
  | .num (.negSucc n) => '-' :: Nat.toDigits 10 (n + 1)
  | .str s => '"' :: (s.toList.flatMap escape ++ ['"'])

/-- The text of a number starts with a digit. -/
theorem toDigits_head (n : Nat) : ∃ c cs, Nat.toDigits 10 n = c :: cs ∧ c.isDigit = true := by
  cases h : Nat.toDigits 10 n with
  | nil => exact absurd h Nat.toDigits_ne_nil
  | cons c cs =>
    refine ⟨c, cs, rfl, ?_⟩
    exact Nat.isDigit_of_mem_toDigits (b := 10) (n := n) (by decide) (by decide)
      (h ▸ List.mem_cons_self)

/-! ## Lists -/

section List

variable {α : Type} {write : α → List Char} {close : Char}

/-- The items of a list, with commas between them and `close` at the end. -/
def writeItems (write : α → List Char) (close : Char) : List α → List Char
  | [] => [close]
  | [a] => write a ++ [close]
  | a :: b :: l => write a ++ ',' :: writeItems write close (b :: l)

theorem length_le_writeItems (hne : ∀ a, ∃ c cs, write a = c :: cs ∧ c ≠ close) (l : List α) :
    l.length < (writeItems write close l).length := by
  induction l with
  | nil => simp [writeItems]
  | cons a l ih =>
    obtain ⟨c, cs, hc, -⟩ := hne a
    cases l with
    | nil => simp [writeItems, hc]
    | cons b l =>
      simp only [writeItems, hc, List.length_cons, List.length_append] at ih ⊢
      omega

end List

/-! ## Arrays and objects -/

/-- The text of an array. -/
def writeArray (l : List Scalar) : String :=
  String.ofList ('[' :: writeItems writeScalar ']' l)

def writeMember (m : String × Scalar) : List Char :=
  writeScalar (.str m.1) ++ ':' :: writeScalar m.2

/-- The text of an object, its members in order. -/
def writeObject (l : List (String × Scalar)) : String :=
  String.ofList ('\x7b' :: writeItems writeMember '\x7d' l)

/-! ## Members -/

/-- The value of the first member with the key. -/
def get? (key : String) : List (String × Scalar) → Option Scalar
  | [] => none
  | m :: ms => if m.1 = key then some m.2 else get? key ms

@[simp] theorem get?_nil (key : String) : get? key [] = none := rfl

@[simp] theorem get?_cons (key : String) (m : String × Scalar) (ms : List (String × Scalar)) :
    get? key (m :: ms) = if m.1 = key then some m.2 else get? key ms := rfl

@[simp] theorem get?_append (key : String) (ms ms' : List (String × Scalar)) :
    get? key (ms ++ ms') = (get? key ms).or (get? key ms') := by
  induction ms with
  | nil => rfl
  | cons m ms ih =>
    rw [List.cons_append, get?_cons, get?_cons]
    split
    · rfl
    · exact ih

end FinnAuth.Lib.Json
