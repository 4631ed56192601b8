import FinnAuth.Tenancy.Repositories

/-!
# What it is to keep to a tenant

`rowsOf d ctx T` holds the rows a tenant owns and nothing else; `view d ctx T` is what the tenant
can see, its rows and the global permission catalogue.

A method called under a tenant is `Isolated` when it leaves `rowsOf` of every other tenant, creates
no session for another tenant's user, answers as it would on `view` alone, and returns and counts
rows of the tenant only. The one thing that shows through is the error of a unique index that is
shared by all tenants. A `Slot` is `Lawful` when its scope is the tenant's part of the table; what
`Create`, `Update` and `Delete` do is then shown once for all tables.

Results:
* `isolated_requireOwner`, `isolated_andThen`, `isolated_transaction`: how methods are put together;
* `Slot.isolated_create`, `Slot.isolated_updateFound`, `Slot.isolated_delete`, `Slot.isolated_find`:
  the operations of a lawful slot;
* `lawful_user`, `lawful_role`, `lawful_session`, `lawful_owned`: the tables are lawful.
-/

namespace FinnAuth.Tenancy

open Lib

/-! ## The rows of a tenant -/

variable {T' : Tables} {id : UserID} {d : Dialect}

/-- The rows the tenant owns: by `tenant_id`, or through the user or the role. -/
def rowsOf (d : Dialect) (ctx : Ctx) (T : Tables) : Tables :=
  { T with
    users := T.users.restrict (userSlot.owned d ctx T)
    sessions := T.sessions.restrict (sessionSlot.owned d ctx T)
    refreshTokens := T.refreshTokens.restrict (tokenSlot.owned d ctx T)
    totpDevices := T.totpDevices.restrict (deviceSlot.owned d ctx T)
    recoveryCodes := T.recoveryCodes.restrict (codeSlot.owned d ctx T)
    oauthIdentities := T.oauthIdentities.restrict (identitySlot.owned d ctx T)
    passkeys := T.passkeys.restrict (passkeySlot.owned d ctx T)
    trustedDevices := T.trustedDevices.restrict (trustedSlot.owned d ctx T)
    roles := T.roles.restrict (roleSlot.owned d ctx T)
    rolePermissions := T.rolePermissions.filter fun l => ownsRole d ctx T l.1
    userRoles := T.userRoles.filter fun g => owns d ctx T g.1
    permissions := .empty }

/-- The rows of the tenant and the permission catalogue. -/
def view (d : Dialect) (ctx : Ctx) (T : Tables) : Tables :=
  { rowsOf d ctx T with permissions := T.permissions }

/-- The database tells the tenants apart. -/
def Apart (d : Dialect) (A B : Ctx) : Prop := d.collate A.tenant B.tenant = false

section Owners

variable {d : Dialect} {A B ctx : Ctx} {T T' : Tables}

theorem ofTenant_apart (hAB : Apart d A B) {tenantID : String} (h : ofTenant d A tenantID = true) :
    ofTenant d B tenantID = false := by
  by_contra hB
  have hB : d.collate tenantID B.tenant = true := by simpa [ofTenant] using hB
  have hAB' : d.collate A.tenant B.tenant = true := d.trans (d.symm h) hB
  rw [hAB] at hAB'
  cases hAB'

theorem ofTenant_self (d : Dialect) (ctx : Ctx) : ofTenant d ctx ctx.tenant = true :=
  d.refl ctx.tenant

theorem owns_iff :
    owns d ctx T id = true ↔ ∃ u ∈ T.users.rows, u.id = id ∧ ofTenant d ctx u.tenantID = true := by
  simp [owns]

theorem ownsRole_iff {id : Nat} :
    ownsRole d ctx T id = true ↔
      ∃ r ∈ T.roles.rows, r.id = id ∧ ofTenant d ctx r.tenantID = true := by
  simp [ownsRole]

/-- A user is of one tenant. -/
theorem owns_apart (hAB : Apart d A B) (h : owns d A T id = true) : owns d B T id = false := by
  by_contra hB
  obtain ⟨u, hu, hid, ht⟩ := owns_iff.1 h
  obtain ⟨v, hv, hid', ht'⟩ := owns_iff.1 (by simpa using hB)
  rw [T.users.eq_of_key_eq hu hv (hid.trans hid'.symm)] at ht
  rw [ofTenant_apart hAB ht] at ht'
  cases ht'

/-- Which users are the tenant's follows from its part of `users`. -/
theorem owns_congr (h : T'.users.restrict (userSlot.owned d ctx T') =
    T.users.restrict (userSlot.owned d ctx T)) (id : UserID) :
    owns d ctx T' id = owns d ctx T id := by
  have key : ∀ T : Tables, owns d ctx T id =
      (T.users.restrict (userSlot.owned d ctx T)).rows.any (·.id = id) := fun T => by
    simp only [owns, Table.rows_restrict, List.any_filter, userSlot, Bool.and_comm]
  rw [key, key, h]

theorem ownsRole_congr (h : T'.roles.restrict (roleSlot.owned d ctx T') =
    T.roles.restrict (roleSlot.owned d ctx T)) (id : Nat) :
    ownsRole d ctx T' id = ownsRole d ctx T id := by
  have key : ∀ T : Tables, ownsRole d ctx T id =
      (T.roles.restrict (roleSlot.owned d ctx T)).rows.any (·.id = id) := fun T => by
    simp only [ownsRole, Table.rows_restrict, List.any_filter, roleSlot, Bool.and_comm]
  rw [key, key, h]

@[simp] theorem owns_view (id : UserID) : owns d ctx (view d ctx T) id = owns d ctx T id := by
  refine owns_congr (Table.ext_rows ?_) id
  simp only [view, rowsOf, Table.rows_restrict, List.filter_filter, userSlot, Bool.and_self]

@[simp] theorem ownsRole_view (id : Nat) :
    ownsRole d ctx (view d ctx T) id = ownsRole d ctx T id := by
  refine ownsRole_congr (Table.ext_rows ?_) id
  simp only [view, rowsOf, Table.rows_restrict, List.filter_filter, roleSlot, Bool.and_self]

end Owners

/-! ## Isolated methods -/

/-- Every session is an old one, or of a user of the tenant. -/
def Hosted (d : Dialect) (ctx : Ctx) (T T' : Tables) : Prop :=
  ∀ s ∈ T'.sessions.rows, s.id ∈ T.sessions.rows.map Session.id ∨ owns d ctx T s.userID = true

theorem Hosted.of_sessions {ctx : Ctx} {T T' : Tables} (h : T'.sessions = T.sessions) :
    Hosted d ctx T T' := fun _ hs =>
  .inl (List.mem_map_of_mem (h ▸ hs))

theorem Hosted.of_kept {ctx : Ctx} {T T' T'' : Tables} (h : Hosted d ctx T T')
    (hkept : ∀ s ∈ T''.sessions.rows,
      ∃ s' ∈ T'.sessions.rows, s'.id = s.id ∧ s'.userID = s.userID) :
    Hosted d ctx T T'' := fun s hs => by
  obtain ⟨s', hs', hid, huser⟩ := hkept s hs
  rw [← hid, ← huser]
  exact h s' hs'

/-- The method, called under the tenant on `T`, keeps to the tenant; what it returns is `W`. -/
structure Isolated {α : Type} (d : Dialect) (ctx : Ctx) (T : Tables) (W : α → Prop)
    (m : Method α) : Prop where
  frame : ∀ B, Apart d ctx B → rowsOf d B (m T).2 = rowsOf d B T
  hosted : Hosted d ctx T (m T).2
  answer : (m (view d ctx T)).1 = (m T).1 ∨ ∃ index, (m T).1 = .error (.duplicatedKey index)
  within : ∀ r, (m T).1 = .ok r → W r

section Combinators

variable {α : Type} {d : Dialect} {ctx : Ctx} {T : Tables} {W : α → Prop} {m : Method α}
  {n : Method α}

/-- A read that does not look beyond the view. -/
theorem isolated_reads {f : Tables → α} (h : f (view d ctx T) = f T) (hW : W (f T)) :
    Isolated d ctx T W (reads f) where
  frame _ _ := rfl
  hosted := .of_sessions rfl
  answer := .inl (congrArg Except.ok h)
  within _ hr := by
    cases hr
    exact hW

/-- A refusal. -/
theorem isolated_refusal {e : Err} : Isolated d ctx T W fun T => (.error e, T) where
  frame _ _ := rfl
  hosted := .of_sessions rfl
  answer := .inl rfl
  within _ hr := by cases hr

/-- Only the tables and the view count. -/
theorem Isolated.congr {m' : Method α} (h : Isolated d ctx T W m) (hT : m' T = m T)
    (hv : m' (view d ctx T) = m (view d ctx T)) : Isolated d ctx T W m' := by
  obtain ⟨hframe, hhost, hans, hin⟩ := h
  rw [← hT] at hframe hhost hans hin
  rw [← hv] at hans
  exact ⟨hframe, hhost, hans, hin⟩

theorem isolated_scopeTenant {requested : String} (h : Isolated d ctx T W m) :
    Isolated d ctx T W (scopeTenant ctx requested m) := by
  by_cases hr : (requested ≠ "" && requested ≠ ctx.tenant) = true
  · exact isolated_refusal.congr (if_pos hr) (if_pos hr)
  · exact h.congr (if_neg hr) (if_neg hr)

theorem isolated_requireOwner (h : owns d ctx T id = true → Isolated d ctx T W m) :
    Isolated d ctx T W (requireOwner d ctx id m) := by
  by_cases howns : owns d ctx T id = true
  · exact (h howns).congr (if_pos howns) (if_pos ((owns_view id).trans howns))
  · exact isolated_refusal.congr (if_neg howns) (if_neg fun hv => howns (owns_view id ▸ hv))

theorem andThen_ok {m : Method Unit} (h : m T = (.ok (), T')) : andThen m n T = n T' := by
  simp only [andThen, h]

theorem andThen_error {m : Method Unit} {e : Err} (h : m T = (.error e, T')) :
    andThen m n T = (.error e, T') := by
  simp only [andThen, h]

/-- One statement after another: what the second does is left to show for the tables the first
leaves. -/
theorem isolated_andThen {m : Method Unit} (hm : Isolated d ctx T (fun _ => True) m)
    (hn : ∀ T', m T = (.ok (), T') →
      (∀ B, Apart d ctx B → rowsOf d B (n T').2 = rowsOf d B T') ∧ Hosted d ctx T (n T').2 ∧
        ∀ r, (n T').1 = .ok r → W r)
    (hans : ∀ T' V, m T = (.ok (), T') → m (view d ctx T) = (.ok (), V) →
      (n V).1 = (n T').1 ∨ ∃ index, (n T').1 = .error (.duplicatedKey index)) :
    Isolated d ctx T W (andThen m n) := by
  obtain ⟨hframe, hhost, hanswer, -⟩ := hm
  rcases hT : m T with ⟨r, T'⟩
  rcases hV : m (view d ctx T) with ⟨rv, V⟩
  rw [hT] at hframe hhost hanswer
  rw [hV] at hanswer
  cases r with
  | error e =>
    refine ⟨?_, ?_, ?_, ?_⟩ <;> rw [andThen_error hT]
    · exact hframe
    · exact hhost
    · rcases hanswer with hview | ⟨index, hview⟩
      · have hV' : m (view d ctx T) = (.error e, V) := by rw [hV, show rv = .error e from hview]
        rw [andThen_error hV']
        exact .inl rfl
      · cases hview
        exact .inr ⟨index, rfl⟩
    · intro _ hr
      cases hr
  | ok _ =>
    obtain ⟨hnframe, hnhost, hnin⟩ := hn T' hT
    refine ⟨?_, ?_, ?_, ?_⟩ <;> rw [andThen_ok hT]
    · exact fun B hB => (hnframe B hB).trans (hframe B hB)
    · exact hnhost
    · rcases hanswer with hview | ⟨_, hview⟩
      · have hV' : m (view d ctx T) = (.ok (), V) := by rw [hV, show rv = .ok () from hview]
        rw [andThen_ok hV']
        exact hans T' V hT hV'
      · cases hview
    · exact hnin

theorem transaction_fst (m : Method α) (T : Tables) : (transaction m T).1 = (m T).1 := by
  unfold transaction
  split <;> simp only [*]

/-- A transaction leaves the tables as they were, or as its body does. -/
theorem transaction_snd (m : Method α) (T : Tables) :
    (transaction m T).2 = T ∨ (transaction m T).2 = (m T).2 := by
  unfold transaction
  split
  · exact .inl rfl
  · simp only [*, or_true]

theorem isolated_transaction (h : Isolated d ctx T W m) :
    Isolated d ctx T W (transaction m) where
  frame B hB := by
    rcases transaction_snd m T with h' | h' <;> rw [h']
    exact h.frame B hB
  hosted := by
    rcases transaction_snd m T with h' | h' <;> rw [h']
    · exact .of_sessions rfl
    · exact h.hosted
  answer := by
    rw [transaction_fst, transaction_fst]
    exact h.answer
  within r hr := h.within r (transaction_fst m T ▸ hr)

theorem Isolated.map {β : Type} {W' : β → Prop} {f : α → β} (h : Isolated d ctx T W m)
    (hW : ∀ a, W a → W' (f a)) : Isolated d ctx T W' (m.map f) where
  frame := h.frame
  hosted := h.hosted
  answer := by
    rcases h.answer with hans | ⟨index, hans⟩
    · exact .inl (congrArg (Except.map f) hans)
    · exact .inr ⟨index, congrArg (Except.map f) hans⟩
  within r hr := by
    cases hm : (m T).1 with
    | error e => simp [Method.map, hm, Except.map] at hr
    | ok a =>
      simp only [Method.map, hm, Except.map, Except.ok.injEq] at hr
      exact hr ▸ hW a (h.within a hm)

end Combinators

/-! ## Lawful tables -/

/-- The scope of the table is the tenant's part of it. -/
structure Slot.Lawful {α κ : Type} {key : α → κ} (s : Slot key) : Prop where
  /-- a change outside the part of a tenant leaves the tenant -/
  frame : ∀ {d B T t}, t.restrict (s.owned d B T) = (s.get T).restrict (s.owned d B T) →
    rowsOf d B (s.set T t) = rowsOf d B T
  apart : ∀ {d A B T r}, Apart d A B → s.owned d A T r = true → s.owned d B T r = false
  view : ∀ d ctx T, s.get (view d ctx T) = (s.get T).restrict (s.owned d ctx T)
  owned_view : ∀ d ctx T, s.owned d ctx (Tenancy.view d ctx T) = s.owned d ctx T
  /-- no session appears unless as a row of the table -/
  hosted : ∀ {d ctx T t}, (∀ r ∈ t.rows, key r ∈ (s.get T).rows.map key) →
    Hosted d ctx T (s.set T t)

section Lawful

variable {α κ : Type} {key : α → κ} {s : Slot key} {d : Dialect} {ctx : Ctx} {T : Tables}
  {p : α → Bool} {conflict : Tables → Option String} {f : α → α}

/-- The tenant's rows are all in its view. -/
theorem Slot.rows_view (hs : s.Lawful) (d : Dialect) (ctx : Ctx) (T : Tables) (p : α → Bool) :
    s.rows d ctx (view d ctx T) p = s.rows d ctx T p := by
  unfold Slot.rows
  rw [hs.view, hs.owned_view, Table.rows_restrict, List.filter_filter]
  refine List.filter_congr fun r _ => ?_
  cases s.owned d ctx T r <;> simp

/-- A row of the table that is the tenant's. -/
def Slot.Has (s : Slot key) (d : Dialect) (ctx : Ctx) (T : Tables) (r : α) : Prop :=
  r ∈ (s.get T).rows ∧ s.owned d ctx T r = true

theorem Slot.has_of_mem_rows {r : α} (h : r ∈ s.rows d ctx T p) : s.Has d ctx T r := by
  obtain ⟨hmem, hp⟩ := List.mem_filter.1 h
  exact ⟨hmem, (Bool.and_eq_true_iff.1 hp).1⟩

theorem Slot.isolated_find (hs : s.Lawful) (le : α → α → Bool) (p : α → Bool) :
    Isolated d ctx T (fun rows => ∀ r ∈ rows, s.Has d ctx T r) (s.find d ctx le p) :=
  isolated_reads (by rw [s.rows_view hs]) fun _ hr =>
    Slot.has_of_mem_rows (List.mem_mergeSort.1 hr)

theorem Slot.isolated_first (hs : s.Lawful) (p : α → Bool) :
    Isolated d ctx T (fun row => ∀ r ∈ row, s.Has d ctx T r) (s.first d ctx p) :=
  isolated_reads (by rw [s.rows_view hs]) fun _ hr =>
    Slot.has_of_mem_rows (List.mem_mergeSort.1 (List.mem_of_mem_head? hr))

/-- A new row that is no other tenant's. -/
theorem Slot.isolated_create [DecidableEq κ] (hs : s.Lawful) {row : α}
    (hconflict : conflict T = none → conflict (view d ctx T) = none)
    (hrow : ∀ B, Apart d ctx B → s.owned d B T row = false)
    (hhost : ∀ t, (s.get T).insert row = some t → Hosted d ctx T (s.set T t)) :
    Isolated d ctx T (fun _ => True) (s.create conflict row) := by
  cases hc : conflict T with
  | some index =>
    have hT : s.create conflict row T = (.error (.duplicatedKey index), T) := by
      simp only [Slot.create, hc]
    exact ⟨fun _ _ => by rw [hT], by rw [hT]; exact .of_sessions rfl,
      .inr ⟨index, by rw [hT]⟩, fun _ _ => trivial⟩
  | none =>
    cases hi : (s.get T).insert row with
    | none =>
      have hT : s.create conflict row T = (.error (.duplicatedKey "PRIMARY"), T) := by
        simp only [Slot.create, hc, hi]
      exact ⟨fun _ _ => by rw [hT], by rw [hT]; exact .of_sessions rfl,
        .inr ⟨"PRIMARY", by rw [hT]⟩, fun _ _ => trivial⟩
    | some t =>
      have hT : s.create conflict row T = (.ok (), s.set T t) := by
        simp only [Slot.create, hc, hi]
      obtain ⟨t', ht'⟩ := Table.exists_insert_restrict hi (s.owned d ctx T)
      refine ⟨fun B hB => ?_, ?_, .inl ?_, fun _ _ => trivial⟩
      · rw [hT]
        exact hs.frame (Table.restrict_insert hi (hrow B hB))
      · rw [hT]
        exact hhost t hi
      · rw [hT]
        simp only [Slot.create, hconflict hc, hs.view, ht']

theorem Slot.create_ok [DecidableEq κ] {row : α} (h : s.create conflict row T = (.ok (), T')) :
    ∃ t, (s.get T).insert row = some t ∧ T' = s.set T t := by
  unfold Slot.create at h
  split at h
  · cases h
  · split at h
    · cases h
    · rename_i t hi
      cases h
      exact ⟨t, hi, rfl⟩

/-- An update of the tenant's rows that leaves every row with its owner. -/
theorem Slot.isolated_update (hs : s.Lawful) {hf : ∀ a, key (f a) = key a}
    (howned : ∀ B r, s.owned d B T (f r) = s.owned d B T r) :
    Isolated d ctx T (fun _ => True) (s.update d ctx p f hf) where
  frame B hB := by
    refine hs.frame (Table.restrict_update fun r _ hp => ?_)
    have hr : s.owned d B T r = false := hs.apart hB (Bool.and_eq_true_iff.1 hp).1
    exact ⟨hr, (howned B r).trans hr⟩
  hosted := by
    refine hs.hosted fun r hr => ?_
    obtain ⟨r', hr', rfl⟩ := (Table.mem_update _ _ _ _ _).1 hr
    refine List.mem_map.2 ⟨r', hr', ?_⟩
    split
    · exact (hf r').symm
    · rfl
  answer := .inl rfl
  within _ _ := trivial

theorem Slot.isolated_updateFound (hs : s.Lawful) {missing : Err} {found p : α → Bool}
    {hf : ∀ a, key (f a) = key a} (howned : ∀ B r, s.owned d B T (f r) = s.owned d B T r) :
    Isolated d ctx T (fun _ => True) (s.updateFound d ctx missing found p f hf) := by
  have hview := s.rows_view hs d ctx T found
  by_cases h : (s.rows d ctx T found).isEmpty = true
  · exact isolated_refusal.congr (if_pos h) (if_pos (hview ▸ h))
  · exact (s.isolated_update hs howned).congr (if_neg h) (if_neg (hview ▸ h))

theorem Slot.isolated_delete (hs : s.Lawful) :
    Isolated d ctx T (fun _ => True) (s.delete d ctx p) where
  frame _ hB := hs.frame (Table.restrict_delete fun _ _ hp =>
    hs.apart hB (Bool.and_eq_true_iff.1 hp).1)
  hosted := hs.hosted fun _ hr =>
    List.mem_map_of_mem ((Table.mem_delete _ _ _).1 hr).1
  answer := .inl rfl
  within _ _ := trivial

end Lawful

/-! ## The tables -/

/-- Replacing `users` leaves a tenant whose users stay. -/
theorem lawful_user : userSlot.Lawful where
  frame {d B T t} h := by
    have howns : ∀ id, owns d B { T with users := t } id = owns d B T id :=
      owns_congr h
    have h' : t.restrict (userSlot.owned d B T) = T.users.restrict (userSlot.owned d B T) := h
    simp only [rowsOf, tokenSlot, deviceSlot, codeSlot, identitySlot, passkeySlot, trustedSlot,
      userSlot, howns] at h' ⊢
    rw [h']
    rfl
  apart hAB h := ofTenant_apart hAB h
  view _ _ _ := rfl
  owned_view _ _ _ := rfl
  hosted _ := .of_sessions rfl

/-- Replacing `roles` leaves a tenant whose roles stay. -/
theorem lawful_role : roleSlot.Lawful where
  frame {d B T t} h := by
    have howns : ∀ id, ownsRole d B { T with roles := t } id = ownsRole d B T id :=
      ownsRole_congr h
    have h' : t.restrict (roleSlot.owned d B T) = T.roles.restrict (roleSlot.owned d B T) := h
    simp only [rowsOf, roleSlot, howns] at h' ⊢
    rw [h']
    rfl
  apart hAB h := ofTenant_apart hAB h
  view _ _ _ := rfl
  owned_view _ _ _ := rfl
  hosted _ := .of_sessions rfl

/-- No other table's rows depend on this one. -/
theorem frame_of_set {α κ : Type} {key : α → κ} {s : Slot key} {B : Ctx} {T : Tables}
    {t : Table key}
    (hset : rowsOf d B (s.set T t) = s.set (rowsOf d B T) (t.restrict (s.owned d B T)))
    (hget : s.set (rowsOf d B T) ((s.get T).restrict (s.owned d B T)) = rowsOf d B T)
    (h : t.restrict (s.owned d B T) = (s.get T).restrict (s.owned d B T)) :
    rowsOf d B (s.set T t) = rowsOf d B T := by
  rw [hset, h, hget]

theorem lawful_session : sessionSlot.Lawful where
  frame := frame_of_set rfl rfl
  apart hAB h := ofTenant_apart hAB h
  view _ _ _ := rfl
  owned_view _ _ _ := rfl
  hosted h := fun r hr => .inl (h r hr)

/-- The tables scoped by `ownedRows`. -/
theorem lawful_owned {α κ : Type} {key : α → κ} {s : Slot key} (user : α → UserID)
    (howned : ∀ d ctx T r, s.owned d ctx T r = owns d ctx T (user r))
    (hset : ∀ d B T t, rowsOf d B (s.set T t) = s.set (rowsOf d B T) (t.restrict (s.owned d B T)))
    (hget : ∀ d B T, s.set (rowsOf d B T) ((s.get T).restrict (s.owned d B T)) = rowsOf d B T)
    (hview : ∀ d ctx T, s.get (view d ctx T) = (s.get T).restrict (s.owned d ctx T))
    (hsessions : ∀ T t, (s.set T t).sessions = T.sessions) : s.Lawful where
  frame := frame_of_set (hset _ _ _ _) (hget _ _ _)
  apart hAB h := by
    rw [howned] at h ⊢
    exact owns_apart hAB h
  view := hview
  owned_view d ctx T := by
    funext r
    rw [howned, howned, owns_view]
  hosted _ := .of_sessions (hsessions _ _)

theorem lawful_token : tokenSlot.Lawful :=
  lawful_owned RefreshToken.userID (fun _ _ _ _ => rfl) (fun _ _ _ _ => rfl) (fun _ _ _ => rfl)
    (fun _ _ _ => rfl) fun _ _ => rfl

theorem lawful_device : deviceSlot.Lawful :=
  lawful_owned TOTPDevice.userID (fun _ _ _ _ => rfl) (fun _ _ _ _ => rfl) (fun _ _ _ => rfl)
    (fun _ _ _ => rfl) fun _ _ => rfl

theorem lawful_code : codeSlot.Lawful :=
  lawful_owned RecoveryCode.userID (fun _ _ _ _ => rfl) (fun _ _ _ _ => rfl) (fun _ _ _ => rfl)
    (fun _ _ _ => rfl) fun _ _ => rfl

theorem lawful_identity : identitySlot.Lawful :=
  lawful_owned OAuthIdentity.userID (fun _ _ _ _ => rfl) (fun _ _ _ _ => rfl) (fun _ _ _ => rfl)
    (fun _ _ _ => rfl) fun _ _ => rfl

theorem lawful_passkey : passkeySlot.Lawful :=
  lawful_owned PasskeyCredential.userID (fun _ _ _ _ => rfl) (fun _ _ _ _ => rfl)
    (fun _ _ _ => rfl) (fun _ _ _ => rfl) fun _ _ => rfl

theorem lawful_trusted : trustedSlot.Lawful :=
  lawful_owned TrustedDevice.userID (fun _ _ _ _ => rfl) (fun _ _ _ _ => rfl) (fun _ _ _ => rfl)
    (fun _ _ _ => rfl) fun _ _ => rfl

end FinnAuth.Tenancy
