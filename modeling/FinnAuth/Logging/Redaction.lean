import Mathlib.Data.List.Basic

/-!
# Redaction of log attributes

`internal/logging/redact.go`: a handler that wraps a `slog` sink and replaces the values of
attributes with secret keys. An attribute value is a scalar, a group of attributes, or a
`LogValuer`, which becomes one of the others when somebody resolves it. `redactAttr` looks into
groups but resolves nothing, and the sink resolves what it writes: the group a `LogValuer` stands
for is never looked into.

The sink is modelled by the leaves it writes, each with the keys of the group attributes around it.
The names of `WithGroup` are not attributes; they are kept apart.

Results:
* `plain_redactAttr`: the leaves that are not secret reach the sink unchanged, always;
* `masked_redactAttr_iff`: the secret ones are masked iff none is behind a `LogValuer`;
* `redacts_chain`: what the sink of a chain holds is what went through the chain, redacted;
* **`redaction_complete_iff`**: the same for every chain of handlers and every record;
* **`valuer_leaks`**: a password behind a `LogValuer` reaches the sink.
-/

namespace FinnAuth.Logging

/-! ## Attributes -/

mutual

/-- `slog.Attr`. -/
inductive Attr : Type where
  | mk (key : String) (value : Value)

/-- `slog.Value`: the text of a value that is neither a group nor a `LogValuer`, a group, or a
`LogValuer` with the value it resolves to. -/
inductive Value : Type where
  | scalar (text : String)
  | group (attrs : List Attr)
  | valuer (resolved : Value)

end

/-- `Value.isEmptyGroup`. -/
def Value.isEmptyGroup : Value → Bool
  | .group [] => true
  | _ => false

def Attr.isEmptyGroup : Attr → Bool
  | ⟨_, value⟩ => value.isEmptyGroup

/-- `slog.Group`: empty groups among the members are dropped. -/
def slogGroup (key : String) (members : List Attr) : Attr :=
  ⟨key, .group (members.filter fun m => !m.isEmptyGroup)⟩

/-! ## Redaction -/

/-- The substitute for the value of a secret attribute. -/
def redacted : String := "[REDACTED]"

def secretKeys : List String :=
  ["authorization", "access_token", "refresh_token", "id_token", "bearer", "password", "passwd",
    "pwd", "secret", "client_secret", "secret_key", "private_key", "api_key", "apikey", "token",
    "jwt", "code", "totp", "totp_code", "recovery_code", "cookie", "set_cookie", "credentials",
    "dsn"]

section Redact

-- `strings.ToLower`
variable (toLower : String → String)

/-- The key is in `secretKeys`, ignoring case. -/
def secretKey (key : String) : Bool := toLower key ∈ secretKeys

mutual

def redactAttr : Attr → Attr
  | ⟨key, value⟩ =>
    if secretKey toLower key then ⟨key, .scalar redacted⟩
    else match value with
      | .group members => slogGroup key (redactAttrs members)
      | value => ⟨key, value⟩

/-- `redactAttr` on every member of a slice. -/
def redactAttrs : List Attr → List Attr
  | [] => []
  | a :: as => redactAttr a :: redactAttrs as

end

end Redact

/-! ## The sink -/

/-- A value that the sink writes: the names of `WithGroup`, the keys of the group attributes around
it, its own key, and its text. -/
structure Leaf where
  groups : List String
  path : List String
  key : String
  text : String
  deriving DecidableEq, Repr

mutual

/-- The leaves of a value under its key: a `LogValuer` is resolved, a group is opened. -/
def Value.leaves (groups path : List String) (key : String) : Value → List Leaf
  | .scalar text => [⟨groups, path, key, text⟩]
  | .group attrs => leavesOf groups (path ++ [key]) attrs
  | .valuer resolved => resolved.leaves groups path key

def Attr.leaves (groups path : List String) : Attr → List Leaf
  | ⟨key, value⟩ => value.leaves groups path key

/-- The leaves of attributes, in order. -/
def leavesOf (groups path : List String) : List Attr → List Leaf
  | [] => []
  | a :: as => a.leaves groups path ++ leavesOf groups path as

end

/-- What a record says besides its attributes. -/
structure Header where
  time : Nat
  level : Int
  message : String
  pc : Nat
  deriving DecidableEq, Repr

/-- `slog.Record`. -/
structure Record where
  header : Header
  attrs : List Attr

/-- `Record.AddAttrs`: empty groups are left out. -/
def Record.addAttrs (r : Record) (attrs : List Attr) : Record :=
  { r with attrs := r.attrs ++ attrs.filter fun a => !a.isEmptyGroup }

/-- What the sink writes for a record. -/
structure Line where
  header : Header
  leaves : List Leaf
  deriving DecidableEq, Repr

/-- A sink: the open groups, and the leaves of the attributes that were attached to it. -/
structure Sink where
  groups : List String
  attached : List Leaf

def Sink.withAttrs (s : Sink) (attrs : List Attr) : Sink :=
  { s with attached := s.attached ++ leavesOf s.groups [] attrs }

def Sink.withGroup (s : Sink) (name : String) : Sink := { s with groups := s.groups ++ [name] }

def Sink.handle (s : Sink) (r : Record) : Line :=
  ⟨r.header, s.attached ++ leavesOf s.groups [] r.attrs⟩

/-! ## The handler -/

/-- `RedactingHandler`. -/
structure RedactingHandler where
  next : Sink

/-- `NewRedactingHandler`. -/
def newRedactingHandler (next : Sink) : RedactingHandler := ⟨next⟩

namespace RedactingHandler

variable (toLower : String → String)

/-- `Handle`: the record is rebuilt attribute by attribute. -/
def handle (h : RedactingHandler) (r : Record) : Line :=
  h.next.handle
    (r.attrs.foldl (fun clean a => clean.addAttrs [redactAttr toLower a]) ⟨r.header, []⟩)

def withAttrs (h : RedactingHandler) (attrs : List Attr) : RedactingHandler :=
  ⟨h.next.withAttrs (attrs.map (redactAttr toLower))⟩

def withGroup (h : RedactingHandler) (name : String) : RedactingHandler := ⟨h.next.withGroup name⟩

end RedactingHandler

/-- A call by which a logger derives a handler from another. -/
inductive Derive : Type where
  | withAttrs (attrs : List Attr)
  | withGroup (name : String)

def Sink.derive (s : Sink) : Derive → Sink
  | .withAttrs attrs => s.withAttrs attrs
  | .withGroup name => s.withGroup name

def RedactingHandler.derive (toLower : String → String) (h : RedactingHandler) :
    Derive → RedactingHandler
  | .withAttrs attrs => h.withAttrs toLower attrs
  | .withGroup name => h.withGroup name

/-- The attributes that were attached by the calls. -/
def attachedBy (calls : List Derive) : List Attr :=
  calls.flatMap fun
    | .withAttrs attrs => attrs
    | .withGroup _ => []

/-! ## Secret leaves -/

section Secret

variable (toLower : String → String)

/-- The leaf's own key, or the key of a group attribute around it, is secret. -/
def Leaf.secret (ℓ : Leaf) : Bool := secretKey toLower ℓ.key || ℓ.path.any (secretKey toLower)

/-- The leaves that are not secret. -/
def plain (ls : List Leaf) : List Leaf := ls.filter fun ℓ => !ℓ.secret toLower

/-- No secret leaf has its text. -/
def Masked (ls : List Leaf) : Prop := ∀ ℓ ∈ ls, ℓ.secret toLower = true → ℓ.text = redacted

mutual

/-- What a `LogValuer` in the attribute stands for has no secret leaf, unless the `LogValuer` is
itself under a secret key. -/
def Attr.Veiled : Attr → Prop
  | ⟨key, value⟩ => secretKey toLower key = true ∨ match value with
    | .scalar _ => True
    | .group members => AllVeiled members
    | .valuer resolved => Masked toLower (resolved.leaves [] [] key)

def AllVeiled : List Attr → Prop
  | [] => True
  | a :: as => a.Veiled ∧ AllVeiled as

end

/-- **Redaction is complete** on the line: of what the bare sink would have written, everything that
is not secret is there as it was, and the secret texts are not. -/
structure Complete (line bare : Line) : Prop where
  header : line.header = bare.header
  plain : plain toLower line.leaves = plain toLower bare.leaves
  masked : Masked toLower line.leaves

end Secret

variable {toLower : String → String} {groups path : List String} {key : String} {as : List Attr}
  {ℓ : Leaf} {h : RedactingHandler}

theorem allVeiled_iff : AllVeiled toLower as ↔ ∀ a ∈ as, a.Veiled toLower := by
  induction as with
  | nil => simp [AllVeiled]
  | cons a as ih => simp [AllVeiled, ih]

theorem leaves_emptyGroup {a : Attr} (h : a.isEmptyGroup = true) : a.leaves groups path = [] := by
  obtain ⟨key, value⟩ := a
  cases value with
  | group attrs =>
    cases attrs with
    | nil => simp [Attr.leaves, Value.leaves, leavesOf]
    | cons _ _ => cases h
  | _ => cases h

/-- Empty groups have no leaves. -/
theorem leavesOf_filter (as : List Attr) :
    leavesOf groups path (as.filter fun a => !a.isEmptyGroup) = leavesOf groups path as := by
  induction as with
  | nil => rfl
  | cons a as ih =>
    cases h : a.isEmptyGroup
    · simp [h, leavesOf, ih]
    · simp [h, leavesOf, ih, leaves_emptyGroup h]

theorem redactAttrs_eq_map (as : List Attr) :
    redactAttrs toLower as = as.map (redactAttr toLower) := by
  induction as with
  | nil => simp [redactAttrs]
  | cons a as ih => simp [redactAttrs, ih]

/-! ## Where a leaf stands -/

mutual

/-- A leaf under a key has the key, or is in the group of the key. -/
theorem Value.under_key : ∀ (v : Value) (path : List String) (key : String),
    ℓ ∈ v.leaves groups path key → path <+: ℓ.path ∧ (ℓ.key = key ∨ key ∈ ℓ.path)
  | .scalar text, path, key, h => by
    simp only [Value.leaves, List.mem_singleton] at h
    subst h
    exact ⟨List.prefix_refl _, .inl rfl⟩
  | .group attrs, path, key, h => by
    have hpath : path ++ [key] <+: ℓ.path := under_path attrs _ h
    exact ⟨(List.prefix_append _ _).trans hpath, .inr (hpath.subset (by simp))⟩
  | .valuer resolved, path, key, h => by
    exact Value.under_key resolved path key h

theorem under_path : ∀ (as : List Attr) (path : List String),
    ℓ ∈ leavesOf groups path as → path <+: ℓ.path
  | [], path, h => by cases h
  | ⟨key, value⟩ :: as, path, h => by
    rcases List.mem_append.1 h with h | h
    · exact (Value.under_key value path key h).1
    · exact under_path as path h

end

/-- The leaf with what stands around it. -/
def Leaf.within (groups path : List String) (ℓ : Leaf) : Leaf :=
  { ℓ with groups := groups, path := path ++ ℓ.path }

mutual

/-- What stands around a value stands around its leaves. -/
theorem Value.leaves_within : ∀ (v : Value) (groups path : List String) (key : String),
    v.leaves groups path key = (v.leaves [] [] key).map (Leaf.within groups path)
  | .scalar text, groups, path, key => by simp [Value.leaves, Leaf.within]
  | .group attrs, groups, path, key => by
    rw [Value.leaves, Value.leaves, leavesOf_within attrs groups (path ++ [key]),
      leavesOf_within attrs [] ([] ++ [key]), List.map_map]
    refine List.map_congr_left fun ℓ _ => ?_
    simp [Leaf.within]
  | .valuer resolved, groups, path, key => by
    exact Value.leaves_within resolved groups path key

theorem leavesOf_within : ∀ (as : List Attr) (groups path : List String),
    leavesOf groups path as = (leavesOf [] [] as).map (Leaf.within groups path)
  | [], groups, path => rfl
  | ⟨key, value⟩ :: as, groups, path => by
    rw [leavesOf, leavesOf, List.map_append, leavesOf_within as groups path, Attr.leaves,
      Attr.leaves, Value.leaves_within value groups path key]

end

/-! ## Redacting an attribute -/

section Attribute

variable {key : String} {path : List String} {v : Value}

theorem redactAttr_secret (h : secretKey toLower key = true) :
    redactAttr toLower ⟨key, v⟩ = ⟨key, .scalar redacted⟩ := by
  cases v <;> simp [redactAttr, h]

theorem redactAttr_group {members : List Attr} (h : secretKey toLower key = false) :
    redactAttr toLower ⟨key, .group members⟩ = slogGroup key (redactAttrs toLower members) := by
  simp [redactAttr, h]

theorem redactAttr_scalar {text : String} (h : secretKey toLower key = false) :
    redactAttr toLower ⟨key, .scalar text⟩ = ⟨key, .scalar text⟩ := by
  simp [redactAttr, h]

/-- A `LogValuer` is passed on as it is. -/
theorem redactAttr_valuer (h : secretKey toLower key = false) :
    redactAttr toLower ⟨key, .valuer v⟩ = ⟨key, .valuer v⟩ := by
  simp [redactAttr, h]

theorem veiled_of_secretKey (h : secretKey toLower key = true) : Attr.Veiled toLower ⟨key, v⟩ := by
  cases v <;> simp [Attr.Veiled, h]

@[simp] theorem plain_append (ls ls' : List Leaf) :
    plain toLower (ls ++ ls') = plain toLower ls ++ plain toLower ls' :=
  List.filter_append ..

@[simp] theorem masked_append {ls ls' : List Leaf} :
    Masked toLower (ls ++ ls') ↔ Masked toLower ls ∧ Masked toLower ls' := by
  simp only [Masked, List.mem_append, or_imp, forall_and]

/-- Under a secret key nothing is plain. -/
theorem plain_of_secretKey (h : secretKey toLower key = true) :
    plain toLower (v.leaves groups path key) = [] := by
  refine List.filter_eq_nil_iff.2 fun ℓ hℓ => ?_
  rcases (Value.under_key v path key hℓ).2 with hkey | hpath
  · simp [Leaf.secret, hkey, h]
  · have hany : ℓ.path.any (secretKey toLower) = true := List.any_eq_true.2 ⟨key, hpath, h⟩
    simp [Leaf.secret, hany]

theorem secret_within (h : path.any (secretKey toLower) = false) :
    (ℓ.within groups path).secret toLower = ℓ.secret toLower := by
  simp only [Leaf.secret, Leaf.within, List.any_append, h, Bool.false_or]

/-- What stands around a value does not matter as long as it is not secret. -/
theorem masked_within (h : path.any (secretKey toLower) = false) :
    Masked toLower (v.leaves groups path key) ↔ Masked toLower (v.leaves [] [] key) := by
  rw [Value.leaves_within]
  simp only [Masked, List.forall_mem_map, secret_within h]
  rfl

end Attribute

mutual

/-- **The leaves that are not secret reach the sink unchanged.** -/
theorem plain_redactAttr : ∀ (a : Attr) (path : List String),
    plain toLower ((redactAttr toLower a).leaves groups path) =
      plain toLower (a.leaves groups path)
  | ⟨key, value⟩, path => by
    cases hkey : secretKey toLower key with
    | true =>
      rw [redactAttr_secret hkey, Attr.leaves, Attr.leaves, plain_of_secretKey hkey,
        plain_of_secretKey hkey]
    | false =>
      cases value with
      | scalar text => rw [redactAttr_scalar hkey]
      | valuer => rw [redactAttr_valuer hkey]
      | group members =>
        rw [redactAttr_group hkey, slogGroup, Attr.leaves, Attr.leaves, Value.leaves, Value.leaves,
          leavesOf_filter]
        exact plain_redactAttrs members (path ++ [key])

theorem plain_redactAttrs : ∀ (as : List Attr) (path : List String),
    plain toLower (leavesOf groups path (redactAttrs toLower as)) =
      plain toLower (leavesOf groups path as)
  | [], path => by rw [redactAttrs]
  | a :: as, path => by
    rw [redactAttrs, leavesOf, leavesOf, plain_append, plain_append, plain_redactAttr a path,
      plain_redactAttrs as path]

end

mutual

/-- **The secret leaves are masked iff none is behind a `LogValuer`.** -/
theorem masked_redactAttr_iff : ∀ (a : Attr) (path : List String),
    path.any (secretKey toLower) = false →
      (Masked toLower ((redactAttr toLower a).leaves groups path) ↔ a.Veiled toLower)
  | ⟨key, value⟩, path, hpath => by
    cases hkey : secretKey toLower key with
    | true =>
      rw [redactAttr_secret hkey, Attr.leaves, Value.leaves]
      exact iff_of_true (by simp [Masked]) (veiled_of_secretKey hkey)
    | false =>
      cases value with
      | scalar text =>
        have hplain : (Leaf.mk groups path key text).secret toLower = false := by
          rw [Leaf.secret, hkey, hpath, Bool.or_self]
        rw [redactAttr_scalar hkey, Attr.leaves, Value.leaves, Attr.Veiled]
        simp [Masked, hplain]
      | valuer =>
        rw [redactAttr_valuer hkey, Attr.leaves, Value.leaves, Attr.Veiled, masked_within hpath]
        simp [hkey]
      | group members =>
        rw [redactAttr_group hkey, slogGroup, Attr.leaves, Value.leaves, leavesOf_filter,
          Attr.Veiled, masked_redactAttrs_iff members (path ++ [key]) (by simp [hpath, hkey])]
        simp [hkey]

theorem masked_redactAttrs_iff : ∀ (as : List Attr) (path : List String),
    path.any (secretKey toLower) = false →
      (Masked toLower (leavesOf groups path (redactAttrs toLower as)) ↔ AllVeiled toLower as)
  | [], path, _ => by simp [redactAttrs, leavesOf, AllVeiled, Masked]
  | a :: as, path, hpath => by
    rw [redactAttrs, leavesOf, masked_append, AllVeiled, masked_redactAttr_iff a path hpath,
      masked_redactAttrs_iff as path hpath]

end

/-! ## Chains of handlers -/

/-- A handler derived from `h` by the calls. -/
def RedactingHandler.chain (toLower : String → String) (h : RedactingHandler)
    (calls : List Derive) : RedactingHandler :=
  calls.foldl (RedactingHandler.derive toLower) h

/-- The bare sink after the same calls. -/
def Sink.chain (s : Sink) (calls : List Derive) : Sink := calls.foldl Sink.derive s

/-- The sink behind a handler next to the bare one: `as` are the attributes that went through. -/
structure Redacts (toLower : String → String) (h : RedactingHandler) (s : Sink) (as : List Attr) :
    Prop where
  groups : h.next.groups = s.groups
  plain : plain toLower h.next.attached = plain toLower s.attached
  masked : Masked toLower h.next.attached ↔ AllVeiled toLower as

theorem allVeiled_append {as bs : List Attr} :
    AllVeiled toLower (as ++ bs) ↔ AllVeiled toLower as ∧ AllVeiled toLower bs := by
  simp only [allVeiled_iff, List.mem_append, or_imp, forall_and]

theorem redacts_derive {s : Sink} (hr : Redacts toLower h s as) (call : Derive) :
    Redacts toLower (h.derive toLower call) (s.derive call) (as ++ attachedBy [call]) := by
  cases call with
  | withGroup name =>
    rw [show attachedBy [.withGroup name] = [] from rfl, List.append_nil]
    exact ⟨congrArg (· ++ [name]) hr.groups, hr.plain, hr.masked⟩
  | withAttrs attrs =>
    have hnew : (h.derive toLower (.withAttrs attrs)).next.attached =
        h.next.attached ++ leavesOf s.groups [] (redactAttrs toLower attrs) := by
      rw [redactAttrs_eq_map, ← hr.groups]
      rfl
    refine ⟨hr.groups, ?_, ?_⟩
    · rw [hnew, plain_append, hr.plain, plain_redactAttrs]
      exact (plain_append _ _).symm
    · rw [hnew, masked_append, hr.masked, masked_redactAttrs_iff attrs [] rfl, allVeiled_append]
      simp [attachedBy]

/-- **What the sink of a chain holds** is what went through the chain, redacted. -/
theorem redacts_chain {s : Sink} (hr : Redacts toLower h s as) (calls : List Derive) :
    Redacts toLower (h.chain toLower calls) (s.chain calls) (as ++ attachedBy calls) := by
  induction calls generalizing h s as with
  | nil =>
    rw [show attachedBy [] = [] from rfl, List.append_nil]
    exact hr
  | cons call calls ih =>
    have hcons : attachedBy (call :: calls) = attachedBy [call] ++ attachedBy calls := by
      simp [attachedBy]
    rw [hcons, ← List.append_assoc]
    exact ih (redacts_derive hr call)

/-- The record that `Handle` rebuilds. -/
theorem foldl_addAttrs (as : List Attr) (r : Record) :
    as.foldl (fun clean a => clean.addAttrs [redactAttr toLower a]) r =
      r.addAttrs (redactAttrs toLower as) := by
  induction as generalizing r with
  | nil => simp [redactAttrs, Record.addAttrs]
  | cons a as ih =>
    rw [List.foldl_cons, ih, redactAttrs]
    simp only [Record.addAttrs, List.append_assoc]
    rw [← List.filter_append, List.singleton_append]

theorem handle_eq (h : RedactingHandler) (r : Record) :
    h.handle toLower r =
      ⟨r.header, h.next.attached ++ leavesOf h.next.groups [] (redactAttrs toLower r.attrs)⟩ := by
  rw [RedactingHandler.handle, foldl_addAttrs, Sink.handle, Record.addAttrs, List.nil_append,
    leavesOf_filter]

/-- **Redaction is complete on a record iff no secret leaf is behind a `LogValuer`**, of the record
or of the attributes that were attached on the way. -/
theorem redaction_complete_iff (toLower : String → String) (groups : List String)
    (calls : List Derive) (r : Record) :
    Complete toLower
        (((newRedactingHandler ⟨groups, []⟩).chain toLower calls).handle toLower r)
        ((Sink.chain ⟨groups, []⟩ calls).handle r) ↔
      ∀ a ∈ attachedBy calls ++ r.attrs, a.Veiled toLower := by
  have hnew : Redacts toLower (newRedactingHandler ⟨groups, []⟩) ⟨groups, []⟩ [] :=
    ⟨rfl, rfl, by simp [newRedactingHandler, Masked, AllVeiled]⟩
  have hchain := redacts_chain hnew calls
  rw [← allVeiled_iff, allVeiled_append, handle_eq, hchain.groups]
  constructor
  · intro h
    obtain ⟨hattached, hrecord⟩ := masked_append.1 h.masked
    exact ⟨hchain.masked.1 hattached, (masked_redactAttrs_iff r.attrs [] rfl).1 hrecord⟩
  · rintro ⟨hattached, hrecord⟩
    refine ⟨rfl, ?_, masked_append.2
      ⟨hchain.masked.2 hattached, (masked_redactAttrs_iff r.attrs [] rfl).2 hrecord⟩⟩
    rw [plain_append, hchain.plain, plain_redactAttrs]
    exact (plain_append _ _).symm

/-- The password of a user that logs itself, behind a `LogValuer` with the key `user`. -/
def leakyUser : Attr :=
  ⟨"user", .valuer (.group [⟨"name", .scalar "jose"⟩, ⟨"password", .scalar "hunter2"⟩])⟩

/-- **A password behind a `LogValuer` reaches the sink.** -/
theorem valuer_leaks :
    let r : Record := ⟨⟨0, 0, "login", 0⟩, [leakyUser]⟩
    let line := (newRedactingHandler ⟨[], []⟩).handle String.toLower r
    line.leaves = [⟨[], ["user"], "name", "jose"⟩, ⟨[], ["user"], "password", "hunter2"⟩] ∧
      ¬ Complete String.toLower line (Sink.handle ⟨[], []⟩ r) := by
  intro r line
  have hleaves : line.leaves =
      [⟨[], ["user"], "name", "jose"⟩, ⟨[], ["user"], "password", "hunter2"⟩] := by decide +kernel
  refine ⟨hleaves, fun h => ?_⟩
  have hmasked := h.masked
  rw [hleaves] at hmasked
  have htext : "hunter2" = redacted :=
    hmasked ⟨[], ["user"], "password", "hunter2"⟩ (by simp) (by decide +kernel)
  exact absurd htext (by decide)

end FinnAuth.Logging
