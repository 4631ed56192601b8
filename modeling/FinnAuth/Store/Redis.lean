import FinnAuth.Lib.TtlMap
import Mathlib.Algebra.Group.Int.Defs
import Mathlib.Algebra.Group.Nat.Defs

/-!
# The two stores

`internal/store`: `InMemoryStore` (`store.go`) is a map with expiry times, `RedisStore` (`redis.go`)
sends commands and Lua scripts to a Redis server. Both are written here over whole milliseconds, for
any type of keys.

* Redis keeps texts. `INCRBY` reads the decimal text of a 64-bit integer and writes one back; a key
  whose expiry millisecond is past is not there.
* A Lua number is a double. What `redis.call` returns to a script, what `tonumber` makes of an
  argument and what a script returns all pass through one, so an integer beyond 2⁵³ is rounded to
  the nearest double (`luaNumber`).
* `Take`, `IncrBy` and `RenewIfOwner` are one script each, which runs at one time.

Out of scope: failures of the backend, the clock and the mutex of the in-memory store, and of
`RedisStore` also `Renew`, which nobody calls, and `DeleteIfOwner`, which frees the leader's lock.
-/

namespace FinnAuth.Store

open Lib

/-! ## The interface -/

/-- A call of the interface, `Delete` and the owner-checked renewal included. -/
inductive Op (κ : Type) : Type where
  | get (key : κ)
  | take (key : κ)
  | set (key : κ) (value : String) (ttl : Nat)
  | setNX (key : κ) (value : String) (ttl : Nat)
  | incrBy (key : κ) (delta : Int) (ttl : Nat)
  | delete (key : κ)
  | renewIfOwner (key : κ) (owner : String) (ttl : Nat)

/-- What a call returns. -/
inductive Res : Type where
  | found (value : Option Val)
  | done
  | yes (b : Bool)
  | count (n : Int)
  deriving DecidableEq, Repr

/-- The result with every value as text. -/
def Res.render : Res → Res
  | .found v => .found (v.map fun x => .str x.text)
  | r => r

variable {κ : Type} [DecidableEq κ]

/-- The sum of two `int64`, which wraps around. -/
def addInt64 (a b : Int) : Int := (a + b).bmod (2 ^ 64)

theorem addInt64_small {a b : Int} (h : -(2 ^ 63) ≤ a + b) (h' : a + b < 2 ^ 63) :
    addInt64 a b = a + b :=
  Int.bmod_eq_of_le h h'

/-- `InMemoryStore.IncrBy` -/
def InMemoryStore.incrBy (m : TtlMap κ) (now : Nat) (k : κ) (delta : Int) (ttl : Nat) :
    Int × TtlMap κ :=
  m.incrWith addInt64 now k delta ttl

/-- A call of `InMemoryStore` at the time `now`. -/
def InMemoryStore.call (m : TtlMap κ) (now : Nat) : Op κ → Res × TtlMap κ
  | .get k => (.found (m.get now k).1, (m.get now k).2)
  | .take k => (.found (m.take now k).1, (m.take now k).2)
  | .set k v ttl => (.done, m.set now k (.str v) ttl)
  | .setNX k v ttl => (.yes (m.setNX now k (.str v) ttl).1, (m.setNX now k (.str v) ttl).2)
  | .incrBy k delta ttl =>
    (.count (InMemoryStore.incrBy m now k delta ttl).1, (InMemoryStore.incrBy m now k delta ttl).2)
  | .delete k => (.done, m.delete k)
  | .renewIfOwner k owner ttl =>
    (.yes (m.renewIfOwner now k owner ttl).1, (m.renewIfOwner now k owner ttl).2)

/-! ## Numbers -/

/-- The double nearest to a natural number, ties to even. -/
def roundDouble (n : Nat) : Nat :=
  if n ≤ 2 ^ 53 then n
  else
    let unit := 2 ^ (n.log2 - 52)
    let q := n / unit
    let r := n % unit
    if unit < 2 * r ∨ (unit = 2 * r ∧ q % 2 = 1) then (q + 1) * unit else q * unit

/-- An integer as a Lua number. -/
def luaNumber (n : Int) : Int := n.sign * roundDouble n.natAbs

theorem luaNumber_small {n : Int} (h : n.natAbs ≤ 2 ^ 53) : luaNumber n = n := by
  unfold luaNumber roundDouble
  rw [if_pos h]
  exact Int.sign_mul_natAbs n

/-- The number whose decimal text this is. -/
def decimal? (ds : List Char) : Option Nat :=
  if Nat.toDigits 10 (Nat.ofDigitChars 10 ds 0) = ds then some (Nat.ofDigitChars 10 ds 0) else none

/-- `string2ll`: the 64-bit integer whose decimal text this is. -/
def parseInt64 (s : String) : Option Int :=
  let n : Option Int := match s.toList with
    | '-' :: ds => ((decimal? ds).filter (· ≠ 0)).map fun n : Nat => -(n : Int)
    | ds => (decimal? ds).map fun n : Nat => (n : Int)
  n.filter fun n => -(2 ^ 63) ≤ n && n < 2 ^ 63

theorem decimal_toDigits (n : Nat) : decimal? (Nat.toDigits 10 n) = some n := by
  simp [decimal?, Nat.ofDigitChars_ten_toDigits]

theorem parseInt64_repr {n : Nat} (h : n < 2 ^ 63) : parseInt64 (Int.repr n) = some (n : Int) := by
  have hlist : (Int.repr n).toList = Nat.toDigits 10 n := by simp [Int.repr, Nat.repr]
  have hhead : ∀ ds, Nat.toDigits 10 n ≠ '-' :: ds := by
    intro ds heq
    have hdigit : '-'.isDigit = true := Nat.isDigit_of_mem_toDigits (b := 10) (n := n) (by decide)
      (by decide) (by rw [heq]; exact List.mem_cons_self)
    exact absurd hdigit (by decide)
  unfold parseInt64
  rw [hlist]
  split
  · rename_i ds heq
    exact absurd heq (hhead ds)
  · rw [decimal_toDigits]
    simp only [Option.map_some, Option.filter_some]
    rw [if_pos]
    simp only [Bool.and_eq_true, decide_eq_true_eq]
    omega

/-! ## Redis -/

/-- A stored text and its expiry millisecond. -/
structure Item where
  value : String
  expireAt : Option Nat
  deriving DecidableEq, Repr

/-- The time is past the expiry millisecond. -/
def Item.gone (i : Item) (now : Nat) : Bool :=
  match i.expireAt with
  | none => false
  | some t => t < now

/-- The keys of a server. -/
structure Redis (κ : Type) where
  data : κ → Option Item

namespace Redis

def empty : Redis κ := ⟨fun _ => none⟩

def put (r : Redis κ) (k : κ) (i : Option Item) : Redis κ := ⟨Function.update r.data k i⟩

/-- The key as a command at `now` finds it. -/
def lookup (r : Redis κ) (now : Nat) (k : κ) : Option Item := (r.data k).filter fun i => !i.gone now

/-- `GET` -/
def get (r : Redis κ) (now : Nat) (k : κ) : Option String := (r.lookup now k).map Item.value

/-- `DEL`: how many keys were removed. -/
def del (r : Redis κ) (now : Nat) (k : κ) : Int × Redis κ :=
  (if (r.lookup now k).isSome then 1 else 0, r.put k none)

/-- `SET`, with `PX ttl` unless `ttl` is zero. -/
def set (r : Redis κ) (now : Nat) (k : κ) (value : String) (ttl : Nat) : Redis κ :=
  r.put k (some ⟨value, TtlMap.expiry now ttl⟩)

/-- `SET … NX` -/
def setNX (r : Redis κ) (now : Nat) (k : κ) (value : String) (ttl : Nat) : Bool × Redis κ :=
  match r.lookup now k with
  | none => (true, r.set now k value ttl)
  | some _ => (false, r)

/-- `INCRBY`: a missing key counts as zero and gets no expiry, another keeps its own. An error for a
text that is no integer, and for a sum out of range. -/
def incrBy (r : Redis κ) (now : Nat) (k : κ) (delta : Int) : Option (Int × Redis κ) :=
  match r.lookup now k with
  | none => some (delta, r.put k (some ⟨delta.repr, none⟩))
  | some i =>
    match parseInt64 i.value with
    | none => none
    | some n =>
      if -(2 ^ 63) ≤ n + delta ∧ n + delta < 2 ^ 63 then
        some (n + delta, r.put k (some ⟨(n + delta).repr, i.expireAt⟩))
      else none

/-- `PEXPIRE` -/
def pexpire (r : Redis κ) (now : Nat) (k : κ) (ms : Nat) : Int × Redis κ :=
  match r.lookup now k with
  | none => (0, r)
  | some i => (1, r.put k (some { i with expireAt := some (now + ms) }))

end Redis

/-! ## The scripts -/

/-- `incrWithExpireScript`: the result of `INCRBY` and the argument are compared as Lua numbers, and
the result goes out as one. -/
def incrWithExpireScript (r : Redis κ) (now : Nat) (k : κ) (delta : Int) (ttl : Nat) :
    Option (Int × Redis κ) :=
  match r.incrBy now k delta with
  | none => none
  | some (n, r) =>
    some (luaNumber n,
      if 0 < ttl ∧ luaNumber n = luaNumber delta then (r.pexpire now k ttl).2 else r)

/-- `getDelScript` -/
def getDelScript (r : Redis κ) (now : Nat) (k : κ) : Option String × Redis κ :=
  match r.get now k with
  | none => (none, r)
  | some v => (some v, (r.del now k).2)

/-- `renewIfOwnerScript` -/
def renewIfOwnerScript (r : Redis κ) (now : Nat) (k : κ) (owner : String) (ttl : Nat) :
    Int × Redis κ :=
  if r.get now k = some owner then if 0 < ttl then r.pexpire now k ttl else (1, r) else (0, r)

/-- A call of `RedisStore` at the time `now`. An error of the `IncrBy` script returns zero. -/
def RedisStore.call (r : Redis κ) (now : Nat) : Op κ → Res × Redis κ
  | .get k => (.found ((r.get now k).map .str), r)
  | .take k => (.found ((getDelScript r now k).1.map .str), (getDelScript r now k).2)
  | .set k v ttl => (.done, r.set now k v ttl)
  | .setNX k v ttl => (.yes (r.setNX now k v ttl).1, (r.setNX now k v ttl).2)
  | .incrBy k delta ttl =>
    match incrWithExpireScript r now k delta ttl with
    | none => (.count 0, r)
    | some (n, r) => (.count n, r)
  | .delete k => (.done, (r.del now k).2)
  | .renewIfOwner k owner ttl =>
    (.yes ((renewIfOwnerScript r now k owner ttl).1 = 1), (renewIfOwnerScript r now k owner ttl).2)

end FinnAuth.Store
