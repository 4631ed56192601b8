import FinnAuth.Repositories

/-!
# Session families

A login opens a session, and the refresh tokens that descend from it form its family. This module
says what a statement does to families: apart from the two inserts, every statement of the
repositories only revokes (`shrinks_exec`).

Results:
* **`families_shrinks`**, `families_insertSession`, `families_insertToken`: what keeps a family
  down to one unrevoked token;
* `live_cas`: the compare-and-set takes the unrevoked token away.
-/

namespace FinnAuth

open Lib

variable {db db' : DB} {sid : Uuid} {t : RefreshToken} {s s' : Session}

/-- The number of unrevoked refresh tokens of the session `sid`. -/
def DB.live (db : DB) (sid : Uuid) : Nat :=
  db.refreshTokens.rows.countP fun t => t.sessionID = some sid && !t.revoked

/-- There is a session row `sid`. -/
def DB.hasSession (db : DB) (sid : Uuid) : Prop := ∃ s ∈ db.sessions.rows, s.id = sid

instance (db : DB) (sid : Uuid) : Decidable (db.hasSession sid) := by
  unfold DB.hasSession; infer_instance

/-- The token row `id` is there and unrevoked. -/
def DB.activeToken (db : DB) (id : Nat) : Prop :=
  ∃ t ∈ db.refreshTokens.rows, t.id = id ∧ t.revoked = false

/-- Families in order: a token value is stored once, a token belongs to a session that is there,
and a family has at most one unrevoked token. -/
structure Families (db : DB) : Prop where
  hash : ∀ t ∈ db.refreshTokens.rows, ∀ t' ∈ db.refreshTokens.rows,
    t.tokenHash = t'.tokenHash → t = t'
  linked : ∀ t ∈ db.refreshTokens.rows, ∀ sid, t.sessionID = some sid → db.hasSession sid
  single : ∀ sid, db.live sid ≤ 1

theorem exists_of_live_pos (h : 0 < db.live sid) :
    ∃ t ∈ db.refreshTokens.rows, t.sessionID = some sid ∧ t.revoked = false := by
  obtain ⟨t, ht, hp⟩ := List.countP_pos_iff.1 h
  exact ⟨t, ht, by simpa using hp⟩

/-- A family with an unrevoked token has its session. -/
theorem Families.hasSession_of_live (h : Families db) (hl : 0 < db.live sid) :
    db.hasSession sid := by
  obtain ⟨t, ht, hsid, _⟩ := exists_of_live_pos hl
  exact h.linked t ht sid hsid

/-! ## Growing older -/

/-- The row `s` later: owner and expiry are fixed and a revocation stays. -/
structure Session.Older (s s' : Session) : Prop where
  id : s'.id = s.id
  userID : s'.userID = s.userID
  tenantID : s'.tenantID = s.tenantID
  expiresAt : s'.expiresAt = s.expiresAt
  revoked : s.revoked = true → s'.revoked = true

theorem Session.Older.refl (s : Session) : s.Older s := ⟨rfl, rfl, rfl, rfl, fun h => h⟩

theorem Session.Older.trans {s s' s'' : Session} (h : s.Older s') (h' : s'.Older s'') :
    s.Older s'' :=
  ⟨h'.id.trans h.id, h'.userID.trans h.userID, h'.tenantID.trans h.tenantID,
    h'.expiresAt.trans h.expiresAt, h'.revoked ∘ h.revoked⟩

/-- The row `t` later: only a revocation can have come. -/
structure RefreshToken.Older (t t' : RefreshToken) : Prop where
  id : t'.id = t.id
  tokenHash : t'.tokenHash = t.tokenHash
  sessionID : t'.sessionID = t.sessionID
  userID : t'.userID = t.userID
  expiresAt : t'.expiresAt = t.expiresAt
  revoked : t.revoked = true → t'.revoked = true

theorem RefreshToken.Older.refl (t : RefreshToken) : t.Older t :=
  ⟨rfl, rfl, rfl, rfl, rfl, fun h => h⟩

theorem RefreshToken.Older.trans {t t' t'' : RefreshToken} (h : t.Older t') (h' : t'.Older t'') :
    t.Older t'' :=
  ⟨h'.id.trans h.id, h'.tokenHash.trans h.tokenHash, h'.sessionID.trans h.sessionID,
    h'.userID.trans h.userID, h'.expiresAt.trans h.expiresAt, h'.revoked ∘ h.revoked⟩

/-- Rows stay and grow older. -/
structure Ages (db db' : DB) : Prop where
  token : ∀ t ∈ db.refreshTokens.rows, ∃ t' ∈ db'.refreshTokens.rows, t.Older t'
  session : ∀ s ∈ db.sessions.rows, ∃ s' ∈ db'.sessions.rows, s.Older s'

theorem Ages.refl (db : DB) : Ages db db where
  token := fun t ht => ⟨t, ht, .refl t⟩
  session := fun s hs => ⟨s, hs, .refl s⟩

theorem Ages.trans {a b c : DB} (h : Ages a b) (h' : Ages b c) : Ages a c where
  token := by
    intro t ht
    obtain ⟨t₁, ht₁, ho₁⟩ := h.token t ht
    obtain ⟨t₂, ht₂, ho₂⟩ := h'.token t₁ ht₁
    exact ⟨t₂, ht₂, ho₁.trans ho₂⟩
  session := by
    intro s hs
    obtain ⟨s₁, hs₁, ho₁⟩ := h.session s hs
    obtain ⟨s₂, hs₂, ho₂⟩ := h'.session s₁ hs₁
    exact ⟨s₂, hs₂, ho₁.trans ho₂⟩

theorem Ages.hasSession (h : Ages db db') (hs : db.hasSession sid) : db'.hasSession sid := by
  obtain ⟨s, hs, rfl⟩ := hs
  obtain ⟨s', hs', ho⟩ := h.session s hs
  exact ⟨s', hs', ho.id⟩

/-- A session that is unrevoked later was unrevoked before. -/
theorem Ages.unrevoked (h : Ages db db') (hs : s ∈ db.sessions.rows) (hs' : s' ∈ db'.sessions.rows)
    (hid : s'.id = s.id) (hr : s'.revoked = false) : s.revoked = false := by
  obtain ⟨s₁, hs₁, ho⟩ := h.session s hs
  obtain rfl := db'.sessions.eq_of_key_eq hs₁ hs' (ho.id.trans hid.symm)
  cases hrev : s.revoked with
  | false => rfl
  | true => rw [ho.revoked hrev] at hr; cases hr

/-- A revoked token row stays there, revoked. -/
theorem Ages.revoked {id : Nat} (h : Ages db db')
    (ht : ∃ t ∈ db.refreshTokens.rows, t.id = id ∧ t.revoked = true) :
    ∃ t ∈ db'.refreshTokens.rows, t.id = id ∧ t.revoked = true := by
  obtain ⟨t, ht, hid, hr⟩ := ht
  obtain ⟨t', ht', ho⟩ := h.token t ht
  exact ⟨t', ht', ho.id.trans hid, ho.revoked hr⟩

/-! ## Statements that only revoke -/

/-- No row comes or goes; a token row can only be revoked and a session only grow older. -/
structure Shrinks (db db' : DB) : Prop where
  tokens : ∃ p : RefreshToken → Bool, db'.refreshTokens.rows =
    db.refreshTokens.rows.map fun t => if p t then { t with revoked := true } else t
  sessions : ∃ g : Session → Session, db'.sessions.rows = db.sessions.rows.map g ∧
    ∀ s : Session, s.Older (g s)

/-- An update of sessions that keeps ids and revocations, next to a revocation of tokens. -/
theorem shrinks_sessions {p : Session → Bool} {f : Session → Session} (q : RefreshToken → Bool)
    (ht : db'.refreshTokens.rows =
      db.refreshTokens.rows.map fun t => if q t then { t with revoked := true } else t)
    (hs : db'.sessions.rows = db.sessions.rows.map fun s => if p s then f s else s)
    (hf : ∀ s : Session, s.Older (f s)) : Shrinks db db' where
  tokens := ⟨q, ht⟩
  sessions := by
    refine ⟨_, hs, fun s => ?_⟩
    by_cases hp : p s = true
    · rw [if_pos hp]
      exact hf s
    · rw [if_neg hp]
      exact .refl s

/-- A revocation of tokens alone. -/
theorem shrinks_tokens (q : RefreshToken → Bool)
    (ht : db'.refreshTokens.rows =
      db.refreshTokens.rows.map fun t => if q t then { t with revoked := true } else t)
    (hs : db'.sessions = db.sessions) : Shrinks db db' where
  tokens := ⟨q, ht⟩
  sessions := ⟨id, by simp [hs], .refl⟩

theorem shrinks_of_eq (ht : db'.refreshTokens = db.refreshTokens)
    (hs : db'.sessions = db.sessions) : Shrinks db db' :=
  shrinks_tokens (fun _ => false) (by simp [ht]) hs

/-- **Apart from the inserts of a session and of a refresh token, a statement only revokes.** -/
theorem shrinks_exec (db : DB) (st : Stmt) (hs : ∀ s, st ≠ .insertSession s)
    (ht : ∀ t, st ≠ .insertToken t) : Shrinks db (db.exec st) := by
  have hnone : db.refreshTokens.rows = db.refreshTokens.rows.map fun t =>
      if false then { t with revoked := true } else t := by simp
  cases st with
  | insertSession s => exact absurd rfl (hs s)
  | insertToken t => exact absurd rfl (ht t)
  | credentialChange ctx id =>
    exact shrinks_sessions (db.activeTokenOf ctx id) rfl rfl
      fun _ => ⟨rfl, rfl, rfl, rfl, fun _ => rfl⟩
  | touchSession =>
    exact shrinks_sessions (fun _ => false) hnone rfl fun _ => ⟨rfl, rfl, rfl, rfl, fun h => h⟩
  | revokeSessions p =>
    exact shrinks_sessions (fun _ => false) hnone rfl fun _ => ⟨rfl, rfl, rfl, rfl, fun _ => rfl⟩
  | suspend =>
    exact shrinks_sessions (fun _ => false) hnone rfl fun _ => ⟨rfl, rfl, rfl, rfl, fun _ => rfl⟩
  | casToken id => exact shrinks_tokens (fun t => t.id = id) rfl rfl
  | revokeTokens p => exact shrinks_tokens p rfl rfl
  | _ => exact shrinks_of_eq rfl rfl

section Shrinks

variable {db db' : DB} (h : Shrinks db db')

include h

theorem Shrinks.ages : Ages db db' where
  token := by
    intro t ht
    obtain ⟨p, hp⟩ := h.tokens
    refine ⟨_, hp ▸ List.mem_map_of_mem ht, ?_⟩
    split
    · exact ⟨rfl, rfl, rfl, rfl, rfl, fun _ => rfl⟩
    · exact .refl t
  session := by
    intro s hs
    obtain ⟨g, hg, hkeep⟩ := h.sessions
    exact ⟨g s, hg ▸ List.mem_map_of_mem hs, hkeep s⟩

theorem Shrinks.live_le (sid : Uuid) : db'.live sid ≤ db.live sid := by
  obtain ⟨p, hp⟩ := h.tokens
  unfold DB.live
  rw [hp, List.countP_map]
  refine List.countP_mono_left fun t _ ht => ?_
  by_cases hpt : p t = true
  · simp [hpt] at ht
  · simpa [hpt] using ht

theorem Shrinks.hasSession_iff (sid : Uuid) : db'.hasSession sid ↔ db.hasSession sid := by
  obtain ⟨g, hg, hkeep⟩ := h.sessions
  simp [DB.hasSession, hg, fun s => (hkeep s).id]

/-- A token row of the new state is one of the old state. -/
theorem Shrinks.token_before (ht : t ∈ db'.refreshTokens.rows) :
    ∃ t₀ ∈ db.refreshTokens.rows, t₀.Older t := by
  obtain ⟨p, hp⟩ := h.tokens
  rw [hp] at ht
  obtain ⟨t₀, ht₀, rfl⟩ := List.mem_map.1 ht
  refine ⟨t₀, ht₀, ?_⟩
  split
  · exact ⟨rfl, rfl, rfl, rfl, rfl, fun _ => rfl⟩
  · exact .refl t₀

theorem Shrinks.session_before (hs : s ∈ db'.sessions.rows) :
    ∃ s₀ ∈ db.sessions.rows, s₀.Older s := by
  obtain ⟨g, hg, hkeep⟩ := h.sessions
  rw [hg] at hs
  obtain ⟨s₀, hs₀, rfl⟩ := List.mem_map.1 hs
  exact ⟨s₀, hs₀, hkeep s₀⟩

/-- **Revocations keep families in order.** -/
theorem families_shrinks (hf : Families db) : Families db' where
  hash := by
    intro t ht t' ht' heq
    obtain ⟨t₀, ht₀, ho⟩ := h.token_before ht
    obtain ⟨t₁, ht₁, ho'⟩ := h.token_before ht'
    have h01 : t₀ = t₁ := hf.hash t₀ ht₀ t₁ ht₁ (by rw [← ho.tokenHash, ← ho'.tokenHash, heq])
    exact db'.refreshTokens.eq_of_key_eq ht ht' (by rw [ho.id, ho'.id, h01])
  linked := by
    intro t ht sid hsid
    obtain ⟨t₀, ht₀, ho⟩ := h.token_before ht
    exact (h.hasSession_iff sid).2 (hf.linked t₀ ht₀ sid (ho.sessionID ▸ hsid))
  single := fun sid => Nat.le_trans (h.live_le sid) (hf.single sid)

end Shrinks

/-- **Where a session comes from**: an older row, or its insert. -/
theorem session_exec {st : Stmt} (h : s' ∈ (db.exec st).sessions.rows) :
    (∃ s ∈ db.sessions.rows, s.Older s') ∨ st = .insertSession s' := by
  by_cases hs : ∃ s, st = .insertSession s
  · obtain ⟨s, rfl⟩ := hs
    rcases Table.mem_insert_getD h with h | rfl
    · exact .inl ⟨s', h, .refl s'⟩
    · exact .inr rfl
  by_cases ht : ∃ t, st = .insertToken t
  · obtain ⟨t, rfl⟩ := ht
    exact .inl ⟨s', h, .refl s'⟩
  · exact .inl ((shrinks_exec db st (fun s hst => hs ⟨s, hst⟩)
      fun t hst => ht ⟨t, hst⟩).session_before h)

/-- A session stays, whatever the statement. -/
theorem session_stays (st : Stmt) (h : s ∈ db.sessions.rows) :
    ∃ s' ∈ (db.exec st).sessions.rows, s.Older s' := by
  by_cases hs : ∃ x, st = .insertSession x
  · obtain ⟨x, rfl⟩ := hs
    exact ⟨s, Table.mem_insert_getD_of_mem h, .refl s⟩
  by_cases ht : ∃ t, st = .insertToken t
  · obtain ⟨t, rfl⟩ := ht
    exact ⟨s, h, .refl s⟩
  · exact (shrinks_exec db st (fun x hst => hs ⟨x, hst⟩) fun t hst => ht ⟨t, hst⟩).ages.session s h

/-! ## The compare-and-set -/

theorem live_cas (ht : t ∈ db.refreshTokens.rows) (hsid : t.sessionID = some sid)
    (hr : t.revoked = false) : (db.exec (.casToken t.id)).live sid < db.live sid := by
  have h := Table.countP_modify (fun t => t.sessionID = some sid && !t.revoked)
    (fun t => { t with revoked := true }) t.id db.refreshTokens.rows db.refreshTokens.nodup t ht rfl
  simp only [hsid, hr, decide_true, Bool.not_false, Bool.and_self, if_true, Bool.not_true,
    Bool.and_false, Bool.false_eq_true, if_false] at h
  simp only [DB.live, DB.exec, DB.revokeTokens, Table.update, decide_eq_true_eq]
  omega

/-! ## The inserts -/

section InsertSession

variable {db : DB} {s : Session} (hfresh : ¬ db.hasSession s.id)

include hfresh

theorem insertSession_rows :
    (db.exec (.insertSession s)).sessions.rows = db.sessions.rows ++ [s] := by
  have hkey : s.id ∉ db.sessions.rows.map Session.id := by
    simpa [DB.hasSession] using hfresh
  obtain ⟨t', ht', hrows⟩ := Table.insert_of_fresh hkey
  simp [DB.exec, ht', hrows]

theorem mem_insertSession : s ∈ (db.exec (.insertSession s)).sessions.rows := by
  rw [insertSession_rows hfresh]
  exact List.mem_append_right _ (List.mem_singleton.2 rfl)

theorem insertSession_hasSession (sid : Uuid) :
    (db.exec (.insertSession s)).hasSession sid ↔ db.hasSession sid ∨ sid = s.id := by
  simp only [DB.hasSession, insertSession_rows hfresh, List.mem_append, List.mem_singleton]
  constructor
  · rintro ⟨x, hx | rfl, rfl⟩
    · exact .inl ⟨x, hx, rfl⟩
    · exact .inr rfl
  · rintro (⟨x, hx, rfl⟩ | rfl)
    · exact ⟨x, .inl hx, rfl⟩
    · exact ⟨s, .inr rfl, rfl⟩

theorem ages_insertSession : Ages db (db.exec (.insertSession s)) where
  token := (Ages.refl db).token
  session := by
    intro x hx
    exact ⟨x, by rw [insertSession_rows hfresh]; exact List.mem_append_left _ hx, .refl x⟩

/-- A new session has an empty family. -/
theorem families_insertSession (hf : Families db) :
    Families (db.exec (.insertSession s)) ∧ db.live s.id = 0 := by
  refine ⟨⟨hf.hash, fun t ht sid hsid => ?_, hf.single⟩, ?_⟩
  · exact (insertSession_hasSession hfresh sid).2 (.inl (hf.linked t ht sid hsid))
  · by_contra hpos
    exact hfresh (hf.hasSession_of_live (Nat.pos_of_ne_zero hpos))

end InsertSession

section InsertToken

variable {db : DB} {t : RefreshToken} (hid : t.id ∉ db.refreshTokens.rows.map RefreshToken.id)

include hid

theorem insertToken_rows :
    (db.exec (.insertToken t)).refreshTokens.rows = db.refreshTokens.rows ++ [t] := by
  obtain ⟨t', ht', hrows⟩ := Table.insert_of_fresh hid
  simp [DB.exec, ht', hrows]

theorem mem_insertToken : t ∈ (db.exec (.insertToken t)).refreshTokens.rows := by
  rw [insertToken_rows hid]
  exact List.mem_append_right _ (List.mem_singleton.2 rfl)

theorem live_insertToken (hr : t.revoked = false) (sid : Uuid) :
    (db.exec (.insertToken t)).live sid =
      db.live sid + if t.sessionID = some sid then 1 else 0 := by
  simp [DB.live, insertToken_rows hid, List.countP_append, List.countP_singleton, hr]

theorem ages_insertToken : Ages db (db.exec (.insertToken t)) where
  token := by
    intro x hx
    exact ⟨x, by rw [insertToken_rows hid]; exact List.mem_append_left _ hx, .refl x⟩
  session := (Ages.refl db).session

/-- **A token joins a family in order** when its value is new, its session is there and the family
has no unrevoked token left. -/
theorem families_insertToken (hf : Families db) (hr : t.revoked = false)
    (hsid : t.sessionID = some sid) (hhash : ∀ x ∈ db.refreshTokens.rows, x.tokenHash ≠ t.tokenHash)
    (hs : db.hasSession sid) (hlive : db.live sid = 0) : Families (db.exec (.insertToken t)) where
  hash := by
    intro x hx y hy heq
    rw [insertToken_rows hid, List.mem_append, List.mem_singleton] at hx hy
    rcases hx with hx | rfl <;> rcases hy with hy | rfl
    · exact hf.hash x hx y hy heq
    · exact absurd heq (hhash x hx)
    · exact absurd heq.symm (hhash y hy)
    · rfl
  linked := by
    intro x hx sid' hsid'
    rw [insertToken_rows hid, List.mem_append, List.mem_singleton] at hx
    rcases hx with hx | rfl
    · exact hf.linked x hx sid' hsid'
    · obtain rfl := Option.some.inj (hsid.symm.trans hsid')
      exact hs
  single := by
    intro sid'
    rw [live_insertToken hid hr]
    by_cases hss : t.sessionID = some sid'
    · obtain rfl := Option.some.inj (hsid.symm.trans hss)
      rw [if_pos hss]
      omega
    · rw [if_neg hss]
      exact hf.single sid'

end InsertToken

end FinnAuth
