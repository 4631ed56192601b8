import FinnAuth.Concurrent
import FinnAuth.Families
import FinnAuth.Footprint.Account

/-!
# Rotation under concurrency

Any number of `Refresh`, `Login`, `RevokeSession`, `Logout`, `LogoutAll` and password calls run side
by side, one repository call at a time, with any pattern of failing calls. A rotation takes the old
token away with one call and stores its successor with a later one; in between the family is in
nobody's row, and only the caller that won the compare-and-set may refill it. `holder` reads that
caller off the history, and the invariant counts it together with the unrevoked tokens.

Results:
* `inv_shrinks`, `step_sessionCreate`, `step_tokenCreate`: what each kind of statement keeps;
* **`rotation_safe`**: a refresh token is exchanged at most once, a family never has two unrevoked
  tokens, and a call that starts after the revocation of a session returns no pair for it.
-/

namespace FinnAuth.Rotation

open Lib Prog Protocol

/-! ## Reading the history -/

/-- The caller that may refill the family `sid`: it took the last unrevoked token away, or it
opened the session, and nothing has been stored since. -/
def holder : History → Uuid → Option Nat
  | [], _ => none
  | .env _ _ _ :: h, sid => holder h sid
  | .act i _ pre post :: h, sid =>
    if post.db.live sid < pre.db.live sid ∨ ¬ pre.db.hasSession sid ∧ post.db.hasSession sid then
      some i
    else if pre.db.live sid < post.db.live sid then none
    else holder h sid

/-- The entry in which caller `i` revokes the token row `id`. -/
def Takes (i id : Nat) : Ev World Call Outside → Prop
  | .act j _ pre post => j = i ∧ pre.db.activeToken id ∧ ¬ post.db.activeToken id
  | .env _ _ _ => False

/-- Caller `i` has revoked the token row `id`. -/
def Took (h : History) (i id : Nat) : Prop := ∃ x ∈ h, Takes i id x

/-! ## The protocol -/

/-- A later view: more history, older rows. -/
structure Later (v v' : Shared) : Prop where
  hist : v.hist <:+ v'.hist
  ages : Ages v.state.db v'.state.db

/-- Families are in order; a family with a holder has no unrevoked token; and a token row has been
revoked by one caller at most. -/
structure Inv (v : Shared) : Prop where
  families : Families v.state.db
  held : ∀ sid i, holder v.hist sid = some i →
    v.state.db.live sid = 0 ∧ v.state.db.hasSession sid
  took : ∀ i id, Took v.hist i id →
    ∃ t ∈ v.state.db.refreshTokens.rows, t.id = id ∧ t.revoked = true
  once : ∀ i j id, Took v.hist i id → Took v.hist j id → i = j

/-- A caller relies on time going one way and on keeping the families it holds. -/
def protocol : Protocol World Call Outside where
  inv := Inv
  rely i v v' := Later v v' ∧ ∀ sid, holder v.hist sid = some i → holder v'.hist sid = some i
  ok _ _ _ := True
  okEnv _ _ := True
  rely_refl _ _ := ⟨⟨List.suffix_refl _, Ages.refl _⟩, fun _ h => h⟩
  rely_trans _ _ _ _ h h' :=
    ⟨⟨h.1.hist.trans h'.1.hist, h.1.ages.trans h'.1.ages⟩, fun sid hs => h'.2 sid (h.2 sid hs)⟩

/-- A fact that time does not undo. -/
def Lasting (A : Shared → Prop) : Prop := ∀ ⦃v v'⦄, A v → Later v v' → A v'

theorem Lasting.stable {A : Shared → Prop} (h : Lasting A) (i : Nat) : protocol.Stable i A :=
  fun _ _ hA hr => h hA hr.1

theorem Lasting.and {A B : Shared → Prop} (hA : Lasting A) (hB : Lasting B) :
    Lasting fun v => A v ∧ B v :=
  fun _ _ h hl => ⟨hA h.1 hl, hB h.2 hl⟩

theorem lasting_later (u : Shared) : Lasting (Later u) :=
  fun _ _ h h' => ⟨h.hist.trans h'.hist, h.ages.trans h'.ages⟩

theorem lasting_took (i id : Nat) : Lasting fun v => Took v.hist i id := by
  rintro v v' ⟨x, hx, ht⟩ h
  exact ⟨x, h.hist.subset hx, ht⟩

/-- The row `rt` that was read is still there, perhaps revoked by now. -/
def Known (rt : RefreshToken) (v : Shared) : Prop :=
  ∃ t ∈ v.state.db.refreshTokens.rows,
    t.id = rt.id ∧ t.tokenHash = rt.tokenHash ∧ t.sessionID = rt.sessionID

theorem lasting_known (rt : RefreshToken) : Lasting (Known rt) := by
  rintro v v' ⟨t, ht, hid, hh, hs⟩ h
  obtain ⟨t', ht', ho⟩ := h.ages.token t ht
  exact ⟨t', ht', ho.id.trans hid, ho.tokenHash.trans hh, ho.sessionID.trans hs⟩

theorem stable_holder (i : Nat) (sid : Uuid) :
    protocol.Stable i fun v => holder v.hist sid = some i :=
  fun _ _ h hr => hr.2 sid h

/-! ## Steps -/

section Step

variable {v : Shared} {i : Nat} {l : Call} {g : World → World}

theorem later_act (h : Ages v.state.db (g v.state).db) : Later v (v.act i l g) :=
  ⟨List.suffix_cons _ _, h⟩

/-- The part of the invariant about single rows needs no more than `Ages`. -/
theorem inv_act (hi : Inv v) (ha : Ages v.state.db (g v.state).db)
    (hf : Families (g v.state).db)
    (hheld : ∀ sid j, holder (v.act i l g).hist sid = some j →
      (g v.state).db.live sid = 0 ∧ (g v.state).db.hasSession sid) : Inv (v.act i l g) where
  families := hf
  held := hheld
  took := by
    rintro j id ⟨x, hx, ht⟩
    rcases List.mem_cons.1 hx with rfl | hx
    · obtain ⟨-, ⟨t, htm, hid, -⟩, hgone⟩ := ht
      obtain ⟨t', ht', ho⟩ := ha.token t htm
      refine ⟨t', ht', ho.id.trans hid, ?_⟩
      by_contra hr
      exact hgone ⟨t', ht', ho.id.trans hid, by simpa using hr⟩
    · exact ha.revoked (hi.took j id ⟨x, hx, ht⟩)
  once := by
    -- a row that is unrevoked now has not been taken before
    have hfresh : ∀ j id, Took v.hist j id → ¬ v.state.db.activeToken id := by
      rintro j id ht ⟨t, htm, hid, hr⟩
      obtain ⟨t', ht', hid', hr'⟩ := hi.took j id ht
      obtain rfl := v.state.db.refreshTokens.eq_of_key_eq htm ht' (hid.trans hid'.symm)
      rw [hr] at hr'
      cases hr'
    rintro j k id ⟨x, hx, hj⟩ ⟨y, hy, hk⟩
    rcases List.mem_cons.1 hx with rfl | hx <;> rcases List.mem_cons.1 hy with rfl | hy
    · exact hj.1.symm.trans hk.1
    · exact absurd hj.2.1 (hfresh k id ⟨y, hy, hk⟩)
    · exact absurd hk.2.1 (hfresh j id ⟨x, hx, hj⟩)
    · exact hi.once j k id ⟨x, hx, hj⟩ ⟨y, hy, hk⟩

theorem holder_shrinks (h : Shrinks v.state.db (g v.state).db) (sid : Uuid) :
    holder (v.act i l g).hist sid =
      if (g v.state).db.live sid < v.state.db.live sid then some i else holder v.hist sid := by
  have hle := h.live_le sid
  have hs := h.hasSession_iff sid
  have hnew : ¬ (¬ v.state.db.hasSession sid ∧ (g v.state).db.hasSession sid) :=
    fun hn => hn.1 (hs.1 hn.2)
  simp only [View.act_hist, holder, hnew, or_false, if_neg (Nat.not_lt.2 hle)]

/-- **A statement that only revokes is quiet**: a family with a holder has nothing to revoke. -/
theorem quiet_shrinks (hi : Inv v) (h : Shrinks v.state.db (g v.state).db) :
    protocol.Quiet i l g v := by
  refine ⟨inv_act hi h.ages (families_shrinks h hi.families) fun sid j hj => ?_, fun j => ?_⟩
  · rw [holder_shrinks h] at hj
    have hle := h.live_le sid
    have hone := hi.families.single sid
    split at hj
    · rename_i hlt
      have hpos : 0 < v.state.db.live sid := by omega
      exact ⟨by omega, (h.hasSession_iff sid).2 (hi.families.hasSession_of_live hpos)⟩
    · obtain ⟨hlive, hs⟩ := hi.held sid j hj
      exact ⟨by omega, (h.hasSession_iff sid).2 hs⟩
  · refine ⟨later_act h.ages, fun sid hj => ?_⟩
    have hlive := (hi.held sid j hj).1
    rw [holder_shrinks h, if_neg (by omega)]
    exact hj

/-- **Opening a session**: the caller holds the new family. -/
theorem step_sessionCreate {s : Session} (hi : Inv v) (hfresh : ¬ v.state.db.hasSession s.id)
    (hdb : (g v.state).db = v.state.db.exec (.insertSession s)) :
    protocol.Step i v (v.act i l g) ∧ holder (v.act i l g).hist s.id = some i := by
  have hhas := insertSession_hasSession hfresh
  have hlive : ∀ sid, (v.state.db.exec (.insertSession s)).live sid = v.state.db.live sid :=
    fun _ => rfl
  have hholder : ∀ sid, holder (v.act i l g).hist sid =
      if sid = s.id then some i else holder v.hist sid := by
    intro sid
    simp only [View.act_hist, holder, hdb, hlive, hhas, Nat.lt_irrefl, false_or, if_false]
    by_cases hsid : sid = s.id
    · rw [if_pos hsid, if_pos ⟨hsid ▸ hfresh, .inr hsid⟩]
    · rw [if_neg hsid, if_neg (by rintro ⟨hn, hy | hy⟩ <;> contradiction)]
  obtain ⟨hfam, hempty⟩ := families_insertSession hfresh hi.families
  have hages := ages_insertSession hfresh
  rw [← hdb] at hfam hages
  refine ⟨⟨inv_act hi hages hfam fun sid j hj => ?_, fun j hji => ?_⟩, by rw [hholder, if_pos rfl]⟩
  · rw [hholder] at hj
    rw [hdb, hlive, hhas]
    split at hj
    · rename_i hsid
      exact ⟨hsid ▸ hempty, .inr hsid⟩
    · obtain ⟨h0, hs⟩ := hi.held sid j hj
      exact ⟨h0, .inl hs⟩
  · refine ⟨later_act hages, fun sid hj => ?_⟩
    rw [hholder, if_neg]
    · exact hj
    · rintro rfl
      exact hfresh (hi.held _ j hj).2

/-- **Storing the successor**: the holder refills its family and holds it no longer. -/
theorem step_tokenCreate {t : RefreshToken} {sid : Uuid} (hi : Inv v)
    (hown : holder v.hist sid = some i) (hsid : t.sessionID = some sid) (hr : t.revoked = false)
    (hhash : ∀ x ∈ v.state.db.refreshTokens.rows, x.tokenHash ≠ t.tokenHash)
    (hid : t.id ∉ v.state.db.refreshTokens.rows.map RefreshToken.id)
    (hdb : (g v.state).db = v.state.db.exec (.insertToken t)) :
    protocol.Step i v (v.act i l g) := by
  obtain ⟨hempty, hses⟩ := hi.held sid i hown
  have hlive := live_insertToken hid hr
  have hfam := families_insertToken hid hi.families hr hsid hhash hses hempty
  have hages := ages_insertToken hid
  have hhas : ∀ sid', (v.state.db.exec (.insertToken t)).hasSession sid' ↔
      v.state.db.hasSession sid' := fun _ => Iff.rfl
  have hholder : ∀ sid', holder (v.act i l g).hist sid' =
      if sid' = sid then none else holder v.hist sid' := by
    intro sid'
    simp only [View.act_hist, holder, hdb, hlive, hhas, hsid, Option.some.injEq]
    by_cases hss : sid' = sid
    · subst hss
      simp
    · simp [Ne.symm hss, hss]
  rw [← hdb] at hfam hages
  refine ⟨inv_act hi hages hfam fun sid' j hj => ?_, fun j hji => ⟨later_act hages, ?_⟩⟩
  · rw [hholder] at hj
    split at hj
    · cases hj
    · rename_i hss
      rw [hdb, hlive, hhas, hsid, if_neg (by simpa using Ne.symm hss)]
      exact hi.held sid' j hj
  · intro sid' hj
    rw [hholder, if_neg]
    · exact hj
    · rintro rfl
      exact hji (Option.some.inj (hj.symm.trans hown))

end Step

/-! ## Programs -/

section Programs

variable {α β : Type} {env : Env} {ctx : Ctx} {ip ua : String} {i : Nat} {v : Shared}
  {A : Shared → Prop} {rt : RefreshToken} {user : User} {l : Call} {reuse : Option Uuid}

theorem quiet_of_tame {f : World → World} (hi : Inv v) (h : Acts tame l v.state (f v.state)) :
    protocol.Quiet i l f v := by
  refine quiet_shrinks hi ?_
  rcases h.db with hdb | ⟨s, hs, hdb⟩
  · rw [hdb]
    exact shrinks_of_eq rfl rfl
  · rw [hdb]
    exact shrinks_exec _ s hs.1 hs.2

theorem safe_tame {p : M α} (hp : Each (Acts tame) p) (hst : protocol.Stable i A) (hA : A v) :
    protocol.Safe i (fun _ v' => A v') p v :=
  safe_quiet hp hA hst fun _ _ _ hi h _ => quiet_of_tame hi h

/-- A tame stretch in front of the rest `f`. -/
theorem seq_tame {p : M α} {f : α → M β} {Q : Except Err β → Shared → Prop}
    (hp : Each (Acts tame) p) (hst : protocol.Stable i A) (hA : A v)
    (herr : ∀ e v', A v' → Q (.error e) v')
    (hf : ∀ a v', A v' → protocol.Safe i Q (f a) v') : protocol.Safe i Q (p >>= f) v := by
  refine safe_seq ((safe_tame hp hst hA).mono fun r v' hA => ?_)
  cases r with
  | ok a => exact hf a v' hA
  | error e => exact herr e v' hA

/-- A repository call that hands over nothing is quiet. -/
theorem quiet_none {g : World → World} (hi : Inv v) (h : Executes none v.state (g v.state)) :
    protocol.Quiet i l g v := by
  refine quiet_shrinks hi ?_
  rw [h.db]
  exact shrinks_of_eq rfl rfl

/-- A query under a stable assertion; it leaves the database as it read it. -/
theorem safe_query {f : DB → α} {Q : Except Err α → Shared → Prop} (hst : protocol.Stable i A)
    (hA : A v) (herr : ∀ v', A v' → Q (.error .db) v')
    (hok : ∀ v', A v' → Q (.ok (f v'.state.db)) v') : protocol.Safe i Q (query l f) v := by
  refine safe_repo hA hst fun u r o g hi hu _ hro hex => ?_
  have ho : o = none := by
    rcases hro with ⟨-, rfl⟩ | hro
    · rfl
    · cases hro; rfl
  subst ho
  have hq := quiet_none (i := i) (l := l) hi hex
  have hA' : A (u.act i l g) := hst hu (hq.2 i)
  refine ⟨hq.step, ?_⟩
  rcases hro with ⟨rfl, -⟩ | hro
  · exact herr _ hA'
  · cases hro
    have hdb : (g u.state).db = u.state.db := hex.db
    exact hdb ▸ hok _ hA'

/-! ### Refresh -/

/-- The session of `rt` was unrevoked in the view `u`, as far as it was there. -/
def Open (u : Shared) (sid : Uuid) : Prop :=
  ∀ s ∈ u.state.db.sessions.rows, s.id = sid → s.revoked = false

theorem safe_checkFamily {u : Shared} (hA : Later u v) :
    protocol.Safe i (fun r _ => r = .ok () → ∀ sid, rt.sessionID = some sid → Open u sid)
      (checkFamily env ctx rt ip) v := by
  unfold checkFamily
  split
  · rename_i hsid
    intro _ sid h
    rw [hsid] at h
    cases h
  rename_i sid hsid
  have hst := (lasting_later u).stable i
  refine safe_seq (safe_wrap (safe_query hst hA (fun v' _ h => by cases h) fun v' hA => ?_))
  cases hs : v'.state.db.sessionByID ctx sid with
  | none => exact fun h => by cases h
  | some sess =>
    refine seq_tame (each_getNow tame_quiet.other) hst hA (fun e _ _ h => by cases h)
      fun now v₁ hA₁ => safe_refuseAfter (fun _ => ?_) fun hc _ sid' hsid' s hsm hid => ?_
    · exact (safe_tame (each_handleTokenReuse tame_quiet tame_revokes) hst hA₁).mono
        fun _ _ _ e h => by cases h
    · -- the row that passed the check is a later version of `s`
      obtain ⟨hmem, hp⟩ := Table.mem_of_first? hs
      simp only [Bool.and_eq_true, decide_eq_true_eq] at hp
      simp only [Bool.or_eq_false_iff] at hc
      obtain rfl := Option.some.inj (hsid.symm.trans hsid')
      exact hA.ages.unrevoked hsm hmem (hp.1.trans hid.symm) hc.1

/-- Caller `i` has taken the row `rt` and holds its family. -/
def Won (i : Nat) (rt : RefreshToken) (v : Shared) : Prop :=
  Took v.hist i rt.id ∧ ∀ sid, rt.sessionID = some sid → holder v.hist sid = some i

/-- The row that the compare-and-set has hit is unrevoked no more. -/
theorem not_activeToken_cas (db : DB) (id : Nat) : ¬ (db.exec (.casToken id)).activeToken id := by
  rintro ⟨x, hx, hid, hr⟩
  simp only [DB.exec, DB.revokeTokens, Table.mem_update, decide_eq_true_eq] at hx
  obtain ⟨y, -, rfl⟩ := hx
  by_cases hy : y.id = id
  · rw [if_pos hy] at hr
    cases hr
  · rw [if_neg hy] at hid
    exact hy hid

/-- **Winning the compare-and-set** takes the token row and makes the caller the holder. -/
theorem safe_tokensRevoke (hlast : Lasting A) (hA : A v) (hk : Known rt v) :
    protocol.Safe i (fun r v' => A v' ∧ (r = .ok () → Won i rt v')) (tokensRevoke ctx rt.id) v := by
  have hst := (hlast.and (lasting_known rt)).stable i
  refine safe_repo ⟨hA, hk⟩ hst fun u r o g hi hu _ hro hex => ?_
  have hsh : Shrinks u.state.db (g u.state).db := by
    rw [hex.db]
    rcases hro with ⟨-, rfl⟩ | hro
    · exact shrinks_of_eq rfl rfl
    · split at hro <;> cases hro
      · exact shrinks_exec _ (.casToken rt.id) (by simp) (by simp)
      · exact shrinks_of_eq rfl rfl
  have hq := quiet_shrinks (i := i) (l := .tokenRevoke rt.id) hi hsh
  refine ⟨hq.step, hlast hu.1 (hq.2 i).1, ?_⟩
  rintro rfl
  rcases hro with ⟨hro, -⟩ | hro
  · cases hro
  split at hro
  · rename_i hany
    cases hro
    obtain ⟨t, ht, hp⟩ := List.any_eq_true.1 hany
    simp only [Bool.and_eq_true, decide_eq_true_eq, Bool.not_eq_true'] at hp
    obtain ⟨t', ht', hid', -, hs'⟩ := hu.2
    obtain rfl := u.state.db.refreshTokens.eq_of_key_eq ht ht' (hp.1.1.trans hid'.symm)
    have hdb : (g u.state).db = u.state.db.exec (.casToken rt.id) := hex.db
    refine ⟨⟨_, List.mem_cons_self, rfl, ⟨t, ht, hp.1.1, hp.2⟩, ?_⟩, fun sid hsid => ?_⟩
    · rw [hdb]
      exact not_activeToken_cas _ _
    · rw [holder_shrinks hsh, hdb, if_pos]
      rw [← hid']
      exact live_cas ht (hs'.trans hsid) hp.2
  · cases hro

theorem safe_consumeToken (hlast : Lasting A) (hA : A v) (hk : Known rt v) :
    protocol.Safe i (fun r v' => A v' ∧ (r = .ok () → Won i rt v'))
      (consumeToken env ctx rt ip) v := by
  refine safe_seq (safe_attempt ((safe_tokensRevoke hlast hA hk).mono fun r v' h => ?_))
  simp only [thenSafe]
  split
  · exact ⟨h.1, fun _ => h.2 rfl⟩
  · refine seq_tame (each_handleTokenReuse tame_quiet tame_revokes) (hlast.stable i) h.1 ?_ ?_
    · exact fun _ _ hA => ⟨hA, fun h => by cases h⟩
    · exact fun _ _ hA => ⟨hA, fun h => by cases h⟩
  · exact ⟨h.1, fun h => by cases h⟩

/-! ### Issuing -/

/-- The session of a new pair is held by the caller: it held it before, or it opened it. -/
theorem safe_issueSession (hlast : Lasting A) (hA : A v)
    (hown : ∀ sid, reuse = some sid → holder v.hist sid = some i) :
    protocol.Safe i (fun r v' => ∀ sid, r = .ok sid → A v' ∧ holder v'.hist sid = some i ∧
      (reuse = some sid ∨ ¬ v.state.db.hasSession sid))
      (issueSession env ctx user ip ua reuse) v := by
  cases reuse with
  | some sid =>
    have hst := (hlast.stable i).and (stable_holder i sid)
    refine seq_tame (each_getNow tame_quiet.other) hst ⟨hA, hown sid rfl⟩
      (fun _ _ _ _ h => by cases h) fun now v₁ h₁ => ?_
    refine seq_tame (each_ignore (each_sessionsTouch tame_quiet (by simp [tame]))) hst h₁
      (fun _ _ _ _ h => by cases h) fun _ v₂ h₂ sid' h => ?_
    cases h
    exact ⟨h₂.1, h₂.2, .inl rfl⟩
  | none =>
    have hlast' := hlast.and (lasting_later v)
    have hst := hlast'.stable i
    have hv : Later v v := ⟨List.suffix_refl _, Ages.refl _⟩
    refine seq_tame (each_draw tame_quiet.other) hst ⟨hA, hv⟩ (fun _ _ _ _ h => by cases h)
      fun sid v₁ h₁ => ?_
    refine seq_tame (each_getNow tame_quiet.other) hst h₁ (fun _ _ _ _ h => by cases h)
      fun now v₂ h₂ => ?_
    refine safe_seq (safe_repo h₂ hst fun u r o g hi hu _ hro hex => ?_)
    have hfail : o = none → protocol.Step i u (u.act i (.sessionCreate sid) g) := by
      rintro rfl
      exact (quiet_none hi hex).step
    rcases hro with ⟨rfl, ho⟩ | hro
    · exact ⟨hfail ho, fun _ h => by cases h⟩
    split at hro
    · cases hro
      exact ⟨hfail rfl, fun _ h => by cases h⟩
    split at hro
    · cases hro
      exact ⟨hfail rfl, fun _ h => by cases h⟩
    · rename_i hfresh
      cases hro
      have hno : ¬ u.state.db.hasSession sid := by
        simpa [DB.hasSession] using hfresh
      obtain ⟨hstep, hhold⟩ := step_sessionCreate (l := .sessionCreate sid) hi hno hex.db
      have hages : Ages u.state.db (g u.state).db := by
        rw [hex.db]
        exact ages_insertSession hno
      refine ⟨hstep, fun sid' h => ?_⟩
      cases h
      exact ⟨hlast hu.1 (later_act hages), hhold, .inr fun h => hno (hu.2.ages.hasSession h)⟩

/-- A stored refresh token with this value, in the family `sid`. -/
def Stored (plain sid : Uuid) (v : Shared) : Prop :=
  ∃ t ∈ v.state.db.refreshTokens.rows, t.tokenHash = ⟨plain⟩ ∧ t.sessionID = some sid

theorem lasting_stored (plain sid : Uuid) : Lasting (Stored plain sid) := by
  rintro v v' ⟨t, ht, hh, hs⟩ h
  obtain ⟨t', ht', ho⟩ := h.ages.token t ht
  exact ⟨t', ht', ho.tokenHash.trans hh, ho.sessionID.trans hs⟩

theorem safe_issueRefresh {sid : Uuid} {access : Token} (hlast : Lasting A) (hA : A v)
    (hown : holder v.hist sid = some i) :
    protocol.Safe i (fun r v' => ∀ pair, r = .ok pair → A v' ∧ Stored pair.refreshToken sid v')
      (issueRefresh env ctx user ip ua sid access) v := by
  have hst := (hlast.stable i).and (stable_holder i sid)
  refine seq_tame (each_draw tame_quiet.other) hst ⟨hA, hown⟩ (fun _ _ _ _ h => by cases h)
    fun plain v₁ h₁ => ?_
  refine seq_tame (each_draw tame_quiet.other) hst h₁ (fun _ _ _ _ h => by cases h)
    fun rowID v₂ h₂ => ?_
  refine seq_tame (each_getNow tame_quiet.other) hst h₂ (fun _ _ _ _ h => by cases h)
    fun now v₃ h₃ => ?_
  refine safe_seq (safe_repo h₃ hst fun u r o g hi hu _ hro hex => ?_)
  have hfail : o = none → protocol.Step i u (u.act i (.tokenCreate (some sid) access) g) := by
    rintro rfl
    exact (quiet_none hi hex).step
  rcases hro with ⟨rfl, ho⟩ | hro
  · exact ⟨hfail ho, fun _ h => by cases h⟩
  split at hro
  · cases hro
    exact ⟨hfail rfl, fun _ h => by cases h⟩
  split at hro
  · cases hro
    exact ⟨hfail rfl, fun _ h => by cases h⟩
  rename_i hhash
  split at hro
  · cases hro
    exact ⟨hfail rfl, fun _ h => by cases h⟩
  · rename_i hid
    cases hro
    have hnew : ∀ x ∈ u.state.db.refreshTokens.rows, x.tokenHash ≠ ⟨plain⟩ := by
      simpa using hhash
    refine ⟨step_tokenCreate hi hu.2 rfl rfl hnew hid hex.db, fun pair h => ?_⟩
    cases h
    have hages := ages_insertToken hid
    have hmem := mem_insertToken hid
    have hdb : (g u.state).db = u.state.db.exec (.insertToken _) := hex.db
    rw [← hdb] at hages hmem
    exact ⟨hlast hu.1 (later_act hages), _, hmem, rfl, rfl⟩

/-- **A pair is issued into a family the caller holds, or into a new one.** -/
theorem safe_issueTokenPair (hlast : Lasting A) (hA : A v)
    (hown : ∀ sid, reuse = some sid → holder v.hist sid = some i) :
    protocol.Safe i (fun r v' => ∀ pair, r = .ok pair → A v' ∧ ∃ sid,
      Stored pair.refreshToken sid v' ∧ (reuse = some sid ∨ ¬ v.state.db.hasSession sid))
      (issueTokenPair env ctx user ip ua reuse) v := by
  have herr : ∀ (e : Err) (v' : Shared), A v' → ∀ pair : TokenPair, .error e = Except.ok pair →
      A v' ∧ ∃ sid, Stored pair.refreshToken sid v' ∧
        (reuse = some sid ∨ ¬ v.state.db.hasSession sid) := fun _ _ _ _ h => by cases h
  -- nothing before the session gives up the family, and the view only grows older
  have hlast' := hlast.and (lasting_later v)
  have hst : protocol.Stable i fun u => (A u ∧ Later v u) ∧
      ∀ sid, reuse = some sid → holder u.hist sid = some i :=
    (hlast'.stable i).and fun _ _ h hr sid hsid => hr.2 sid (h sid hsid)
  refine seq_tame (each_refuse _ _) hst ⟨⟨hA, ⟨List.suffix_refl _, Ages.refl _⟩⟩, hown⟩
    (fun e v' h => herr e v' h.1.1) fun _ v₁ h₁ => ?_
  refine seq_tame (each_refuse _ _) hst h₁ (fun e v' h => herr e v' h.1.1) fun _ v₂ h₂ => ?_
  refine seq_tame (each_bind (each_attempt (each_query tame_quiet.other)) fun r => ?_) hst h₂
    (fun e v' h => herr e v' h.1.1) fun perms v₃ h₃ => ?_
  · rcases r with _ | _ <;> trivial
  refine safe_seq ((safe_issueSession hlast' h₃.1 h₃.2).mono fun r v₄ h₄ => ?_)
  cases r with
  | error e => exact fun _ h => by cases h
  | ok sid =>
    obtain ⟨hA₄, hown₄, hsid⟩ := h₄ sid rfl
    have hsid' : reuse = some sid ∨ ¬ v.state.db.hasSession sid :=
      hsid.imp_right fun hno h => hno (h₃.1.2.ages.hasSession h)
    refine seq_tame (each_issueAccess tame_quiet fun _ _ _ _ => trivial)
      ((hlast.stable i).and (stable_holder i sid)) ⟨hA₄.1, hown₄⟩
      (fun e v' h => herr e v' h.1) fun access v₅ h₅ => ?_
    refine safe_seq ((safe_issueRefresh hlast h₅.1 h₅.2).mono fun r v₆ h₆ => ?_)
    cases r with
    | error e => exact fun _ h => by cases h
    | ok pair =>
      refine seq_tame (each_maybeNotifyNewIPLogin tame_quiet fun _ _ _ => trivial)
        ((hlast.and (lasting_stored pair.refreshToken sid)).stable i) (h₆ pair rfl)
        (fun e v' h => herr e v' h.1) fun _ v₇ h₇ pair' h => ?_
      cases h
      exact ⟨h₇.1, sid, h₇.2, hsid'⟩

/-! ### Whole calls -/

/-- What a successful `Refresh` of `token` leaves behind: its row was taken by this caller, and the
new token is stored in a family that was open when the call started. -/
structure Exchanged (i : Nat) (start : Shared) (token : Uuid) (pair : TokenPair) (v : Shared) :
    Prop where
  old : ∃ t ∈ v.state.db.refreshTokens.rows, t.tokenHash = ⟨token⟩ ∧ Took v.hist i t.id
  new : ∃ sid, Stored pair.refreshToken sid v ∧ Open start sid

theorem lasting_exchanged (i : Nat) (start : Shared) (token : Uuid) (pair : TokenPair) :
    Lasting (Exchanged i start token pair) := by
  rintro v v' ⟨⟨t, ht, hh, htook⟩, sid, hst, ho⟩ h
  obtain ⟨t', ht', holder⟩ := h.ages.token t ht
  refine ⟨⟨t', ht', holder.tokenHash.trans hh, ?_⟩, sid, lasting_stored _ _ hst h, ho⟩
  rw [holder.id]
  exact lasting_took i t.id htook h

theorem safe_rotate {start : Shared} {token : Uuid} (hl : Later start v) (hk : Known rt v)
    (htok : rt.tokenHash = ⟨token⟩) :
    protocol.Safe i (fun r v' => ∀ pair, r = .ok pair → Exchanged i start token pair v')
      (rotate env ctx rt user ip ua) v := by
  have hlast := (lasting_later start).and (lasting_known rt)
  refine safe_seq ((safe_and (safe_tame (each_checkFamily tame_quiet tame_revokes)
    (hlast.stable i) ⟨hl, hk⟩) (safe_checkFamily hl)).mono fun r v₁ h₁ => ?_)
  cases r with
  | error e => exact fun _ h => by cases h
  | ok _ =>
    obtain ⟨hA₁, hopen⟩ := h₁
    refine safe_seq ((safe_consumeToken hlast hA₁ hA₁.2).mono fun r v₂ h₂ => ?_)
    cases r with
    | error e => exact fun _ h => by cases h
    | ok _ =>
      obtain ⟨htook, hown⟩ := h₂.2 rfl
      have hlast' := hlast.and (lasting_took i rt.id)
      refine safe_seq ((safe_issueTokenPair hlast' ⟨h₂.1, htook⟩ hown).mono fun r v₃ h₃ => ?_)
      cases r with
      | error e => exact fun _ h => by cases h
      | ok pair =>
        obtain ⟨⟨⟨-, t, ht, hid, hh, -⟩, htook₃⟩, sid, hstored, hsid⟩ := h₃ pair rfl
        have hex : Exchanged i start token pair v₃ := by
          refine ⟨⟨t, ht, hh.trans htok, hid ▸ htook₃⟩, sid, hstored, ?_⟩
          rcases hsid with hsid | hnew
          · exact hopen rfl sid hsid
          · -- a family opened by this call was not there at its start
            exact fun s hs hids => absurd (h₂.1.1.ages.hasSession ⟨s, hs, hids⟩) hnew
        refine seq_tame (each_record tame_quiet) ((lasting_exchanged _ _ _ _).stable i) hex
          (fun _ _ _ _ h => by cases h) fun _ v₄ h₄ pair' h => ?_
        cases h
        exact h₄

/-- **`Refresh` against the protocol.** -/
theorem safe_refresh {token : Uuid} :
    protocol.Safe i (fun r v' => ∀ pair, r = .ok pair → Exchanged i v token pair v')
      (refreshAudited env ctx token ip ua) v := by
  have herr : ∀ (e : Err) (v' : Shared) (pair : TokenPair), .error e = Except.ok pair →
      Exchanged i v token pair v' := fun _ _ _ h => by cases h
  refine safe_seq (safe_wrap (safe_query ((lasting_later v).stable i)
    ⟨List.suffix_refl _, Ages.refl _⟩ (fun v' _ => herr _ v') fun v₁ h₁ => ?_))
  cases hrt : v₁.state.db.tokenByHash ctx ⟨token⟩ with
  | none => exact herr _ v₁
  | some rt =>
    obtain ⟨hmem, hp⟩ := Table.mem_of_first? hrt
    simp only [Bool.and_eq_true, decide_eq_true_eq] at hp
    have hst := ((lasting_later v).and (lasting_known rt)).stable i
    refine seq_tame (each_refuseAfter (each_handleTokenReuse tame_quiet tame_revokes)) hst
      ⟨h₁, rt, hmem, rfl, rfl, rfl⟩ (fun e v' _ => herr e v') fun _ v₂ h₂ => ?_
    refine seq_tame (each_getNow tame_quiet.other) hst h₂ (fun e v' _ => herr e v')
      fun now v₃ h₃ => ?_
    refine seq_tame (each_refuseAfter (each_ignore (each_tokensRevoke tame_consumes))) hst h₃
      (fun e v' _ => herr e v') fun _ v₄ h₄ => ?_
    refine seq_tame (each_usersFindByID tame_quiet) hst h₄ (fun e v' _ => herr e v')
      fun user v₅ h₅ => ?_
    cases user with
    | none => exact herr _ v₅
    | some user =>
      exact seq_tame (each_refuse _ _) hst h₅ (fun e v' _ => herr e v') fun _ v₆ h₆ =>
        safe_rotate h₆.1 h₆.2 hp.1

/-- A login only adds a family of its own. -/
theorem safe_login {email password captcha : String} :
    protocol.Safe i (fun _ _ => True) (loginAudited env ctx email password captcha ip ua) v := by
  have htrue : Lasting fun _ => True := fun _ _ _ _ => trivial
  have hst := htrue.stable i
  refine seq_tame (each_loginLimits tame_quiet) hst trivial (fun _ _ _ => trivial) fun _ v₁ _ => ?_
  refine seq_tame (each_wrap (each_usersFindByEmail tame_quiet)) hst trivial (fun _ _ _ => trivial)
    fun user v₂ _ => ?_
  cases user with
  | none => exact safe_tame (each_unknownUser tame_quiet) hst trivial
  | some user =>
    refine seq_tame (each_loginGates tame_quiet) hst trivial (fun _ _ _ => trivial) fun _ v₃ _ => ?_
    refine seq_tame (each_comparePassword trivial) hst trivial (fun _ _ _ => trivial)
      fun _ v₄ _ => ?_
    refine seq_tame (each_refuseAfter (each_recordFailedLogin tame_quiet fun _ => by simp [tame]))
      hst trivial (fun _ _ _ => trivial) fun _ v₅ _ => ?_
    refine seq_tame (each_usersUpdate trivial (by simp [tame])) hst trivial (fun _ _ _ => trivial)
      fun _ v₆ _ => ?_
    refine seq_tame (each_storeDelete trivial trivial) hst trivial (fun _ _ _ => trivial)
      fun _ v₇ _ => ?_
    refine seq_tame (each_refuse _ _) hst trivial (fun _ _ _ => trivial) fun _ v₈ _ => ?_
    refine seq_tame (each_wrap (each_totpFindByUserID tame_quiet)) hst trivial
      (fun _ _ _ => trivial) fun device v₉ _ => ?_
    split
    · exact safe_tame (each_bind (each_jwtIssue tame_quiet fun _ _ _ => trivial) fun _ =>
        each_bind (each_record tame_quiet) fun _ => each_ret _) hst trivial
    · refine safe_seq ((safe_issueTokenPair htrue trivial fun _ h => by cases h).mono
        fun r v₁₀ _ => ?_)
      cases r with
      | error e => trivial
      | ok pair =>
        exact seq_tame (each_record tame_quiet) hst trivial (fun _ _ _ => trivial)
          fun _ _ _ => trivial

end Programs

/-! ## The pool -/

/-- The calls that run side by side. -/
inductive Job : Type where
  | refresh (ctx : Ctx) (refreshToken : Uuid) (ip ua : String)
  | login (ctx : Ctx) (email password captchaToken ip ua : String)
  | revokeSession (ctx : Ctx) (sessionID : Uuid) (userID : UserID) (ip : String)
  | logout (ctx : Ctx) (refreshToken : Uuid) (accessJTI : Option Uuid) (ip : String)
  | logoutAll (ctx : Ctx) (userID : UserID) (ip : String)
  | changePassword (ctx : Ctx) (userID : UserID) (oldPassword newPassword ip : String)
  | resetPassword (ctx : Ctx) (token : Token) (newPassword ip : String)
  | setPassword (ctx : Ctx) (userID : UserID) (newPassword ip : String)

/-- The body of a call; only the pair of a `Refresh` is looked at. -/
def code (env : Env) : Job → M (Option TokenPair)
  | .refresh ctx t ip ua => refreshAudited env ctx t ip ua >>= fun pair => .ret (some pair)
  | .login ctx email password captcha ip ua =>
    loginAudited env ctx email password captcha ip ua >>= fun _ => .ret none
  | .revokeSession ctx sid userID ip =>
    revokeSessionAudited env ctx sid userID ip >>= fun _ => .ret none
  | .logout ctx t jti ip => logoutAudited env ctx t jti ip >>= fun _ => .ret none
  | .logoutAll ctx userID ip => logoutAllAudited ctx userID ip >>= fun _ => .ret none
  | .changePassword ctx userID old new ip =>
    changePasswordAudited env ctx userID old new ip >>= fun _ => .ret none
  | .resetPassword ctx t new ip => resetPasswordAudited env ctx t new ip >>= fun _ => .ret none
  | .setPassword ctx userID new ip =>
    setPasswordAudited env ctx userID new ip >>= fun _ => .ret none

/-- A pool of such calls. -/
abbrev Calls := Pool World Call Outside Err (Option TokenPair) Job

/-- The pool after the moves `ms` from the state `w`. -/
def run (env : Env) (w : World) (ms : List (Move Outside Job)) : Calls :=
  (Pool.init w : Calls).exec (code env) Outside.apply ms

/-- Call `i` was a `Refresh` of `token` that started in the view `start` and returned `pair`. -/
def Returned (c : Calls) (i : Nat) (token : Uuid) (start : Shared) (pair : TokenPair) : Prop :=
  ∃ ctx ip ua, c.threads[i]? = some ⟨.refresh ctx token ip ua, start, .ret (some pair)⟩

/-- What rotation promises of a pool. -/
structure RotationSafe (c : Calls) : Prop where
  /-- a refresh token is exchanged for one pair at most -/
  exchangedOnce : ∀ i j token start start' pair pair', Returned c i token start pair →
    Returned c j token start' pair' → i = j
  /-- a family has at most one unrevoked token -/
  single : ∀ sid, c.view.state.db.live sid ≤ 1
  /-- the new token is stored, in a family whose session was not revoked when the call started -/
  family : ∀ i token start pair, Returned c i token start pair →
    ∃ t ∈ c.view.state.db.refreshTokens.rows, t.tokenHash = ⟨pair.refreshToken⟩ ∧
      ∃ sid, t.sessionID = some sid ∧
        ∀ s ∈ start.state.db.sessions.rows, s.id = sid → s.revoked = false

/-- The postcondition of a call. -/
def post (i : Nat) : Job → Shared → Except Err (Option TokenPair) → Shared → Prop
  | .refresh _ token _ _, start, .ok (some pair), v => Exchanged i start token pair v
  | _, _, _, _ => True

theorem post_stable (i : Nat) (j : Job) (start : Shared) (r : Except Err (Option TokenPair)) :
    protocol.Stable i (post i j start r) := by
  intro v v' h hr
  unfold post at h ⊢
  split
  · exact lasting_exchanged _ _ _ _ h hr.1
  · trivial

/-- A call whose result is not looked at. -/
theorem safe_unit {α : Type} {i : Nat} {p : M α} (hp : Each (Acts tame) p) :
    protocol.Safe i (fun _ _ => True) (p >>= fun _ => (.ret none : M (Option TokenPair))) v :=
  safe_tame (each_bind hp fun _ => each_ret _) (fun _ _ _ _ => trivial) trivial

theorem safe_code (env : Env) (i : Nat) (j : Job) (v : Shared) :
    protocol.Safe i (post i j v) (code env j) v := by
  have htrue : ∀ {j : Job} {p : M (Option TokenPair)}, (∀ c t ip ua, j ≠ .refresh c t ip ua) →
      protocol.Safe i (fun _ _ => True) p v → protocol.Safe i (post i j v) p v := by
    intro j p hj hp
    refine hp.mono fun r v' _ => ?_
    unfold post
    split
    · exact absurd rfl (hj _ _ _ _)
    · trivial
  have hcred : ∀ ctx id hashed, tame.stmt (.credentialChange ctx id hashed) := by simp [tame]
  cases j with
  | refresh =>
    refine safe_seq (safe_refresh.mono fun r v' h => ?_)
    cases r with
    | error e => trivial
    | ok pair => exact h pair rfl
  | login =>
    refine htrue (by simp) (safe_seq (safe_login.mono fun r v' _ => ?_))
    cases r <;> trivial
  | revokeSession =>
    exact htrue (by simp) (safe_unit (each_revokeSessionAudited tame_quiet tame_revokes))
  | logout =>
    exact htrue (by simp) (safe_unit (each_logoutAudited tame_quiet tame_revokes tame_consumes
      fun _ => by simp [tame]))
  | logoutAll =>
    exact htrue (by simp) (safe_unit (each_logoutAllAudited tame_quiet tame_revokes
      (by simp [tame])))
  | changePassword ctx userID =>
    exact htrue (by simp) (safe_unit (each_changePasswordAudited tame_quiet (fun _ => trivial)
      trivial (hcred ctx userID)))
  | resetPassword =>
    exact htrue (by simp) (safe_unit (each_resetPasswordAudited tame_quiet tame_spends
      (fun _ _ => trivial) hcred))
  | setPassword =>
    exact htrue (by simp) (safe_unit (each_setPasswordAudited tame_quiet
      (fun _ _ => by simp [tame]) (by simp [tame])))

/-- No outside change touches sessions or refresh tokens. -/
theorem env_quiet (e : Outside) (v : Shared) (hi : Inv v) :
    Inv (v.env e e.apply) ∧ ∀ i, protocol.rely i v (v.env e e.apply) := by
  have ht : (e.apply v.state).db.refreshTokens = v.state.db.refreshTokens := by cases e <;> rfl
  have hs : (e.apply v.state).db.sessions = v.state.db.sessions := by cases e <;> rfl
  have hsh : Shrinks v.state.db (e.apply v.state).db := shrinks_of_eq ht hs
  have htook : ∀ i id, Took (v.env e e.apply).hist i id → Took v.hist i id := by
    rintro i id ⟨x, hx, htk⟩
    rcases List.mem_cons.1 hx with rfl | hx
    · exact htk.elim
    · exact ⟨x, hx, htk⟩
  refine ⟨⟨families_shrinks hsh hi.families, fun sid i h => ?_, fun i id h => ?_,
    fun i j id h h' => hi.once i j id (htook i id h) (htook j id h')⟩, fun i => ?_⟩
  · obtain ⟨hl, hses⟩ := hi.held sid i h
    exact ⟨Nat.le_zero.1 (hl ▸ hsh.live_le sid), (hsh.hasSession_iff sid).2 hses⟩
  · exact hsh.ages.revoked (hi.took i id (htook i id h))
  · exact ⟨⟨List.suffix_cons _ _, hsh.ages⟩, fun _ h => h⟩

theorem sound (env : Env) : protocol.Sound (code env) Outside.apply post where
  env e v hi _ := env_quiet e v hi
  start i j v _ _ := safe_code env i j v
  stable := post_stable

/-- **Rotation is safe under concurrency**: from any state with families in order, under any
interleaving of the calls, any failures and any outside changes. -/
theorem rotation_safe (env : Env) {w : World} (h : Families w.db) (ms : List (Move Outside Job)) :
    RotationSafe (run env w ms) := by
  have hinit : protocol.inv ⟨w, []⟩ := by
    refine ⟨h, fun sid i hh => ?_, ?_, ?_⟩
    · simp [holder] at hh
    · rintro i id ⟨x, hx, -⟩
      simp at hx
    · rintro i j id ⟨x, hx, -⟩
      simp at hx
  have hgood := exec_good (sound env) ms (good_init hinit)
    (admits_all (fun _ _ _ => trivial) (fun _ _ => trivial) ms _)
  have hpost : ∀ {i token start pair}, Returned (run env w ms) i token start pair →
      Exchanged i start token pair (run env w ms).view := by
    rintro i token start pair ⟨ctx, ip, ua, ht⟩
    exact hgood.returned ht rfl
  refine ⟨fun i j token start start' pair pair' hi hj => ?_, hgood.inv.families.single,
    fun i token start pair hi => ?_⟩
  · -- both callers took the one row with this value
    obtain ⟨t, ht, hh, htook⟩ := (hpost hi).old
    obtain ⟨t', ht', hh', htook'⟩ := (hpost hj).old
    obtain rfl := hgood.inv.families.hash t ht t' ht' (hh.trans hh'.symm)
    exact hgood.inv.once i j t.id htook htook'
  · obtain ⟨sid, ⟨t, ht, hh, hsid⟩, hopen⟩ := (hpost hi).new
    exact ⟨t, ht, hh, sid, hsid, hopen⟩

/-- A login, then two calls with its refresh token: the second reads the row before the first has
rotated it and goes on afterwards. -/
def race : List (Move Outside Job) :=
  .spawn (.login .sample "jose@x.io" "password1" "" "ip" "ua") :: List.replicate 25 (.sched 0) ++
    .spawn (.refresh .sample 102 "ip" "ua") :: .spawn (.refresh .sample 102 "ip" "ua") ::
      .sched 2 :: List.replicate 40 (.sched 1) ++ List.replicate 40 (.sched 2)

/-- In that run the first call gets a pair and the second one is refused. -/
theorem rotation_safe_race :
    Families World.sample.db ∧ RotationSafe (run (Env.plain .sample) World.sample race) ∧
      ((run (Env.plain .sample) World.sample race).threads.map fun t =>
        match t.prog with
        | .ret (some pair) => some pair.refreshToken
        | _ => none) = [none, some 105, none] := by
  have h : Families World.sample.db := by
    refine ⟨fun t ht => ?_, fun t ht => ?_, fun sid => ?_⟩
    · exact absurd ht List.not_mem_nil
    · exact absurd ht List.not_mem_nil
    · exact Nat.zero_le 1
  exact ⟨h, rotation_safe _ h race, by decide +kernel⟩

end FinnAuth.Rotation
