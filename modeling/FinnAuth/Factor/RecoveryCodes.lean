import Mathlib.Data.List.Infix
import FinnAuth.Factor.Actions

/-!
# Recovery codes

A recovery code is a row with the hash of the code. `Validate` reads the unused rows, picks the one
that matches and marks it with a compare-and-set on its id (`totp_repository.go`,
`MarkRecoveryCodeUsed`). `ReplaceRecoveryCodes` deletes all rows of the user and stores a new batch
in one transaction; `newRecoveryCodes` and `Disable` end in it. Between the read and the mark of one
call, whole batches of other calls may come and go.

Who drew a row's id and code is read off the history: a draw is an entry between whose states the
random source moved on. Only the call that drew them stores them, and it does so once, so a row that
is gone does not come back.

Results:
* `Inv`, `inv_act`: every row ever stored has an id and a code of its own;
* **`recovery_codes_once`**: a code is accepted once, and never after its batch was replaced; calls
  that return codes, accept one or disable a device have the entries that say so;
* **`outlived_disable`**: a `Disable` that finds the device off returns `nil` and replaces nothing,
  and a code that an overtaken `VerifyEnable` stored is accepted after it.
-/

namespace FinnAuth.RecoveryCodes

open Lib Prog Protocol

/-! ## Reading the history -/

/-- The stored recovery codes. -/
abbrev rows (w : World) : List RecoveryCode := w.db.recoveryCodes.rows

/-- The user has a row of the code `s`, used or not. -/
def Stores (u : UserID) (s : String) (w : World) : Prop :=
  ∃ c ∈ rows w, c.userID = u ∧ c.codeHash = ⟨s⟩

instance (u : UserID) (s : String) (w : World) : Decidable (Stores u s w) := by
  unfold Stores; infer_instance

/-- In this entry the call `i` marked an unused row of the code `s`. -/
def Accepts (u : UserID) (s : String) (i : Nat) : Ev World Call Outside → Prop
  | .act j l pre post => j = i ∧ ∃ c ∈ rows post, l = .site (.markCode c.id) ∧ c.userID = u ∧
      c.codeHash = ⟨s⟩ ∧ c.usedAt.isSome ∧ { c with usedAt := none } ∈ rows pre
  | .env _ _ _ => False

instance (u : UserID) (s : String) (i : Nat) : DecidablePred (Accepts u s i)
  | .act _ _ _ _ => inferInstanceAs (Decidable (_ ∧ _))
  | .env _ _ _ => .isFalse id

/-- In this entry the call `i` replaced the codes of the user: none of the rows it met is left. -/
def Replaces (u : UserID) (i : Nat) : Ev World Call Outside → Prop
  | .act j l pre post => j = i ∧ l = .site (.replaceCodes u) ∧
      ∀ c ∈ rows pre, c.userID = u → ∀ c' ∈ rows post, c'.id ≠ c.id
  | .env _ _ _ => False

/-- An entry of `ReplaceRecoveryCodes`, successful or not. -/
def IsReplace (i : Nat) : Ev World Call Outside → Prop
  | .act j l _ _ => j = i ∧ ∃ u, l = .site (.replaceCodes u)
  | .env _ _ _ => False

/-- An entry of `TOTPRepository.Disable`. -/
def IsOff (u : UserID) (i : Nat) : Ev World Call Outside → Prop
  | .act j l _ _ => j = i ∧ l = .site (.disableDevice u)
  | .env _ _ _ => False

/-- The call `i` drew the value `n`. -/
def Drew (h : History) (i n : Nat) : Prop :=
  ∃ x ∈ h, x.thread? = some i ∧ x.pre.entropy ≤ n ∧ n < x.post.entropy

/-- The row was stored at the start or in some later state. -/
def Seen (w₀ : World) (h : History) (c : RecoveryCode) : Prop :=
  c ∈ rows w₀ ∨ ∃ z ∈ h, c ∈ rows z.post

/-- One row before and after it was marked. -/
structure Same (c c' : RecoveryCode) : Prop where
  id : c.id = c'.id
  userID : c.userID = c'.userID
  codeHash : c.codeHash = c'.codeHash

/-- Where the row comes from: the start, or a call that drew its id and its code and came to store
them. -/
def Born (env : Env) (w₀ : World) (h : History) (c : RecoveryCode) : Prop :=
  (c.id < w₀.entropy ∧ ∃ n < w₀.entropy, c.codeHash = ⟨env.recoveryCode n⟩) ∨
  ∃ i, Drew h i c.id ∧ (∃ n, c.codeHash = ⟨env.recoveryCode n⟩ ∧ Drew h i n) ∧
    ∃ x ∈ h, IsReplace i x

/-- The row has nothing in common with any row so far. -/
def Fresh (w₀ : World) (h : History) (c' : RecoveryCode) : Prop :=
  ∀ c, Seen w₀ h c → c.id ≠ c'.id ∧ c.codeHash ≠ c'.codeHash

variable {α β : Type} {env : Env} {w₀ : World} {K : Rights} {ctx : Ctx} {userID u : UserID}
  {i lo n : Nat} {v : Shared} {h h' : History} {c c' : RecoveryCode} {s ip ua : String}
  {f : World → World} {A : Shared → Prop} {batch : List (String × RecoveryCode)} {l : Call}
  {p : M α} {codes : List String} {Q : Except Err β → Shared → Prop}

theorem Same.refl (c : RecoveryCode) : Same c c := ⟨rfl, rfl, rfl⟩

theorem Same.symm (h : Same c c') : Same c' c := ⟨h.id.symm, h.userID.symm, h.codeHash.symm⟩

theorem Same.trans {c'' : RecoveryCode} (h : Same c c') (h' : Same c' c'') : Same c c'' :=
  ⟨h.id.trans h'.id, h.userID.trans h'.userID, h.codeHash.trans h'.codeHash⟩

theorem Drew.mono (hd : Drew h i n) (hs : h ⊆ h') : Drew h' i n := by
  obtain ⟨x, hx, hd⟩ := hd
  exact ⟨x, hs hx, hd⟩

theorem Born.mono (hb : Born env w₀ h c) (hs : h ⊆ h') (hc : Same c c') :
    Born env w₀ h' c' := by
  obtain ⟨hid, -, hhash⟩ := hc
  unfold Born
  rw [← hid, ← hhash]
  refine hb.imp_right fun ⟨i, hdrew, ⟨n, hn, hdrewn⟩, x, hx, hrep⟩ => ?_
  exact ⟨i, hdrew.mono hs, ⟨n, hn, hdrewn.mono hs⟩, x, hs hx, hrep⟩

/-! ## The invariant -/

/-- Ids and codes name their row for good: what was accepted stays used while it is stored, and what
was replaced is not stored. -/
structure Inv (env : Env) (w₀ : World) (v : Shared) : Prop where
  lower : w₀.entropy ≤ v.state.entropy
  drawn : ∀ x ∈ v.hist, w₀.entropy ≤ x.pre.entropy ∧ x.post.entropy ≤ v.state.entropy
  current : ∀ c ∈ rows v.state, Seen w₀ v.hist c
  born : ∀ c, Seen w₀ v.hist c → Born env w₀ v.hist c
  unique : ∀ c c', Seen w₀ v.hist c → Seen w₀ v.hist c' →
    c.id = c'.id ∨ c.codeHash = c'.codeHash → Same c c'
  spent : ∀ x ∈ v.hist, ∀ u s i, Accepts u s i x →
    ∀ c ∈ rows v.state, c.codeHash = ⟨s⟩ → c.usedAt.isSome
  gone : ∀ y b, y :: b <:+ v.hist → ∀ u i, Replaces u i y →
    ∀ c, Seen w₀ b c → c.userID = u → ∀ c' ∈ rows v.state, c'.codeHash ≠ c.codeHash

/-- What a step may do to the rows: it keeps some, marks some, and adds rows of its own. -/
structure Carries (env : Env) (w₀ : World) (h h' : History) (w w' : World) : Prop where
  each : ∀ c' ∈ rows w', (∃ c ∈ rows w, Same c c' ∧ (c.usedAt.isSome → c'.usedAt.isSome)) ∨
    (Fresh w₀ h c' ∧ Born env w₀ h' c')
  distinct : ∀ c ∈ rows w', ∀ c' ∈ rows w', Fresh w₀ h c → Fresh w₀ h c' →
    c.codeHash = c'.codeHash → c = c'

/-- A row seen after a step was seen before, or the step added it. -/
theorem seen_act (hi : Inv env w₀ v)
    (hc : Carries env w₀ v.hist (v.act i l f).hist v.state (f v.state))
    (hs : Seen w₀ (v.act i l f).hist c) :
    (∃ c₀, Seen w₀ v.hist c₀ ∧ Same c₀ c) ∨ (Fresh w₀ v.hist c ∧ c ∈ rows (f v.state)) := by
  rcases hs with hs | ⟨z, hz, hcz⟩
  · exact .inl ⟨c, .inl hs, .refl c⟩
  rcases List.mem_cons.1 hz with rfl | hz
  · rcases hc.each c hcz with ⟨c₀, hc₀, hsame, -⟩ | ⟨hf, -⟩
    · exact .inl ⟨c₀, hi.current c₀ hc₀, hsame⟩
    · exact .inr ⟨hf, hcz⟩
  · exact .inl ⟨c, .inr ⟨z, hz, hcz⟩, .refl c⟩

/-- **A step that carries the rows over keeps the invariant.** -/
theorem inv_act (hi : Inv env w₀ v) (he : v.state.entropy ≤ (f v.state).entropy)
    (hc : Carries env w₀ v.hist (v.act i l f).hist v.state (f v.state)) :
    Inv env w₀ (v.act i l f) where
  lower := Nat.le_trans hi.lower he
  drawn := by
    intro x hx
    rcases List.mem_cons.1 hx with rfl | hx
    · exact ⟨hi.lower, Nat.le.refl⟩
    · exact ⟨(hi.drawn x hx).1, Nat.le_trans (hi.drawn x hx).2 he⟩
  current c hcur := .inr ⟨_, List.mem_cons_self, hcur⟩
  born := by
    intro c hs
    rcases hs with hs | ⟨z, hz, hcz⟩
    · exact (hi.born c (.inl hs)).mono (List.subset_cons_self _ _) (.refl c)
    rcases List.mem_cons.1 hz with rfl | hz
    · rcases hc.each c hcz with ⟨c₀, hc₀, hsame, -⟩ | ⟨-, hb⟩
      · exact (hi.born c₀ (hi.current c₀ hc₀)).mono (List.subset_cons_self _ _) hsame
      · exact hb
    · exact (hi.born c (.inr ⟨z, hz, hcz⟩)).mono (List.subset_cons_self _ _) (.refl c)
  unique := by
    intro c c' hs hs' heq
    rcases seen_act hi hc hs with ⟨c₀, hc₀, hsame⟩ | ⟨hf, hmem⟩
    · rcases seen_act hi hc hs' with ⟨c₁, hc₁, hsame'⟩ | ⟨hf', -⟩
      · rw [← hsame.id, ← hsame.codeHash, ← hsame'.id, ← hsame'.codeHash] at heq
        exact hsame.symm.trans ((hi.unique c₀ c₁ hc₀ hc₁ heq).trans hsame')
      · obtain ⟨hid, hhash⟩ := hf' c₀ hc₀
        rw [← hsame.id, ← hsame.codeHash] at heq
        exact (heq.elim hid hhash).elim
    · rcases seen_act hi hc hs' with ⟨c₁, hc₁, hsame'⟩ | ⟨hf', hmem'⟩
      · obtain ⟨hid, hhash⟩ := hf c₁ hc₁
        rw [← hsame'.id, ← hsame'.codeHash] at heq
        exact (heq.elim (fun h => hid h.symm) fun h => hhash h.symm).elim
      · rcases heq with hid | hhash
        · rw [(f v.state).db.recoveryCodes.eq_of_key_eq hmem hmem' hid]
          exact .refl c'
        · rw [hc.distinct c hmem c' hmem' hf hf' hhash]
          exact .refl c'
  spent := by
    intro x hx u s i' hacc c' hc' hhash
    rcases List.mem_cons.1 hx with rfl | hx
    · -- the row that was marked is the one row of the code
      obtain ⟨-, c₁, hc₁, -, -, hhash₁, hused, hc₀⟩ := hacc
      rcases hc.each c' hc' with ⟨c₂, hc₂, hsame, -⟩ | ⟨hf, -⟩
      · have hone : Same c₂ { c₁ with usedAt := none } :=
          hi.unique c₂ _ (hi.current c₂ hc₂) (hi.current _ hc₀)
            (.inr (by rw [hsame.codeHash, hhash, ← hhash₁]))
        have heq : c' = c₁ := (f v.state).db.recoveryCodes.eq_of_key_eq hc' hc₁
          (hsame.id.symm.trans hone.id)
        rw [heq]
        exact hused
      · exact absurd (hhash₁.trans hhash.symm) (hf _ (hi.current _ hc₀)).2
    · rcases hc.each c' hc' with ⟨c₂, hc₂, hsame, hkeep⟩ | ⟨hf, -⟩
      · exact hkeep (hi.spent x hx u s i' hacc c₂ hc₂ (by rw [hsame.codeHash, hhash]))
      · -- the accepted row was seen when it was accepted, so no new row has its code
        cases x with
        | env => cases hacc
        | act =>
          obtain ⟨-, c₁, hc₁, -, -, hhash₁, -⟩ := hacc
          exact absurd (hhash₁.trans hhash.symm) (hf c₁ (.inr ⟨_, hx, hc₁⟩)).2
  gone := by
    intro y b hb u i' hrep c hs hu c' hc'
    rcases List.suffix_cons_iff.1 hb with heq | hb
    · obtain ⟨rfl, rfl⟩ := List.cons.inj heq
      intro hhash
      rcases hc.each c' hc' with ⟨c₂, hc₂, hsame, -⟩ | ⟨hf, -⟩
      · have hone : Same c₂ c := hi.unique c₂ c (hi.current c₂ hc₂) hs
          (.inr (hsame.codeHash.trans hhash))
        exact hrep.2.2 c₂ hc₂ (hone.userID.trans hu) c' hc' hsame.id.symm
      · exact (hf c hs).2 hhash.symm
    · rcases hc.each c' hc' with ⟨c₂, hc₂, hsame, -⟩ | ⟨hf, -⟩
      · rw [← hsame.codeHash]
        exact hi.gone y b hb u i' hrep c hs hu c₂ hc₂
      · have hsub : b ⊆ v.hist := fun z hz => hb.subset (List.mem_cons_of_mem y hz)
        exact fun hhash => (hf c (hs.imp_right fun ⟨z, hz, hcz⟩ => ⟨z, hsub hz, hcz⟩)).2 hhash.symm

/-! ## Steps -/

/-- Deletes batches, stores none. -/
def clears : Rights := ⟨True, True, fun codes => codes = []⟩

/-- The rows after an action that stores no batch are rows of before. -/
theorem rows_does {w w' : World} (hK : ∀ codes, K.batch codes → codes = [])
    (hd : Does env K userID l w w') (hc' : c' ∈ rows w') :
    ∃ c ∈ rows w, Same c c' ∧ (c.usedAt.isSome → c'.usedAt.isSome) := by
  have hsame : w'.db.recoveryCodes = w.db.recoveryCodes →
      ∃ c ∈ rows w, Same c c' ∧ (c.usedAt.isSome → c'.usedAt.isSome) := by
    intro heq
    refine ⟨c', ?_, .refl c', id⟩
    unfold rows at hc' ⊢
    rw [← heq]
    exact hc'
  rcases hd.db with hdb | ⟨s, hs, hdb⟩
  · exact hsame (congrArg DB.recoveryCodes hdb)
  unfold Call.writes at hs
  split at hs
  · obtain ⟨d, -, rfl | rfl⟩ := hs
    · exact hsame (by rw [hdb]; rfl)
    · exact hsame (by rw [hdb]; rfl)
  · subst hs
    exact hsame (by rw [hdb]; rfl)
  · obtain ⟨now, rfl⟩ := hs
    unfold rows at hc'
    rw [hdb] at hc'
    simp only [DB.exec, Table.mem_update] at hc'
    obtain ⟨c, hc, rfl⟩ := hc'
    refine ⟨c, hc, ?_⟩
    split
    · exact ⟨⟨rfl, rfl, rfl⟩, fun _ => rfl⟩
    · exact ⟨.refl c, id⟩
  · obtain ⟨codes, hb, -, rfl⟩ := hs
    obtain rfl := hK codes hb
    unfold rows at hc'
    rw [hdb] at hc'
    exact ⟨c', ((Table.mem_delete _ _ _).1 hc').1, .refl c', id⟩
  · exact hsame ((congrArg DB.recoveryCodes hdb).trans (exec_recoveryCodes hs _))

/-- Where every row is one of before, nothing is new. -/
theorem carries_old {w w' : World} (hi : Inv env w₀ v) (hw : v.state = w)
    (hold : ∀ c' ∈ rows w', ∃ c ∈ rows w, Same c c' ∧ (c.usedAt.isSome → c'.usedAt.isSome)) :
    Carries env w₀ v.hist h' w w' where
  each c' hc' := .inl (hold c' hc')
  distinct := by
    intro c hc c' _ hf
    obtain ⟨c₀, hc₀, hsame, -⟩ := hold c hc
    exact absurd hsame.id (hf c₀ (hi.current c₀ (by rw [hw]; exact hc₀))).1

/-- A value is drawn by one call. -/
theorem drew_unique {n j : Nat} (hv : v.Always (Inv env w₀)) (hd : Drew v.hist i n)
    (hd' : Drew v.hist j n) : i = j := by
  obtain ⟨x, hx, hxi, hlo, hhi⟩ := hd
  obtain ⟨y, hy, hyj, hlo', hhi'⟩ := hd'
  rcases older_or_newer hx hy with rfl | ⟨b, hb, hyb⟩ | ⟨b, hb, hxb⟩
  · exact Option.some.inj (hxi.symm.trans hyj)
  · have := ((hv.2 x b hb).drawn y hyb).2
    simp only at this
    omega
  · have := ((hv.2 y b hb).drawn x hxb).2
    simp only at this
    omega

/-! ## The protocol -/

/-- Nobody else acts for the call `i`, and the random source moves on. No run is excluded. -/
def protocol (env : Env) (w₀ : World) : Protocol World Call Outside where
  inv v := v.Always (Inv env w₀)
  rely i v v' := (∃ l, v'.hist = l ++ v.hist ∧ ∀ x ∈ l, x.thread? ≠ some i) ∧
    v.state.entropy ≤ v'.state.entropy
  ok _ _ _ := True
  okEnv _ _ := True
  rely_refl _ _ := ⟨⟨[], rfl, fun _ h => by cases h⟩, Nat.le.refl⟩
  rely_trans i a b c hab hbc := by
    obtain ⟨⟨l, hl, hli⟩, he⟩ := hab
    obtain ⟨⟨l', hl', hli'⟩, he'⟩ := hbc
    refine ⟨⟨l' ++ l, by rw [hl', hl, List.append_assoc], fun x hx => ?_⟩, Nat.le_trans he he'⟩
    rcases List.mem_append.1 hx with hx | hx
    · exact hli' x hx
    · exact hli x hx

/-- A fact that stays while the history grows. -/
def Lasting (A : Shared → Prop) : Prop :=
  ∀ ⦃v v' : Shared⦄, A v → v.hist <:+ v'.hist → v.state.entropy ≤ v'.state.entropy → A v'

/-- The call has not come to replace codes. -/
def NotYet (i : Nat) (v : Shared) : Prop := ∀ x ∈ v.hist, ¬ IsReplace i x

/-- The call has not come to switch a device off. -/
def NotOff (i : Nat) (v : Shared) : Prop := ∀ x ∈ v.hist, ∀ u, ¬ IsOff u i x

theorem stable_lasting (hA : Lasting A) : (protocol env w₀).Stable i A := by
  rintro v v' h ⟨⟨l, hl, -⟩, he⟩
  exact hA h ⟨l, hl.symm⟩ he

theorem stable_notYet : (protocol env w₀).Stable i (NotYet i) := by
  rintro v v' h ⟨⟨l, hl, hli⟩, -⟩ x hx hrep
  rw [hl] at hx
  rcases List.mem_append.1 hx with hx | hx
  · cases x with
    | act => exact hli _ hx (congrArg some hrep.1)
    | env => exact hrep
  · exact h x hx hrep

theorem stable_notOff : (protocol env w₀).Stable i (NotOff i) := by
  rintro v v' h ⟨⟨l, hl, hli⟩, -⟩ x hx u hoff
  rw [hl] at hx
  rcases List.mem_append.1 hx with hx | hx
  · cases x with
    | act => exact hli _ hx (congrArg some hoff.1)
    | env => exact hoff
  · exact h x hx u hoff

/-- An action of one call is no action of another. -/
theorem rely_act (he : v.state.entropy ≤ (f v.state).entropy) :
    ∀ j, j ≠ i → (protocol env w₀).rely j v (v.act i l f) := by
  intro j hj
  refine ⟨⟨[_], rfl, fun x hx => ?_⟩, he⟩
  rw [List.mem_singleton.1 hx]
  exact fun h => hj (Option.some.inj h).symm

theorem step_act (hi : (protocol env w₀).inv v) (he : v.state.entropy ≤ (f v.state).entropy)
    (hc : Carries env w₀ v.hist (v.act i l f).hist v.state (f v.state)) :
    (protocol env w₀).Step i v (v.act i l f) :=
  ⟨View.Always.act hi (inv_act hi.1 he hc), rely_act he⟩

theorem step_does (hK : ∀ codes, K.batch codes → codes = []) (hi : (protocol env w₀).inv v)
    (hd : Does env K userID l v.state (f v.state)) : (protocol env w₀).Step i v (v.act i l f) :=
  step_act hi hd.entropy (carries_old hi.1 rfl fun _ hc' => rows_does hK hd hc')

/-- **A stretch that stores no batch**, under an assertion that its own actions keep too. -/
theorem safe_does (hK : ∀ codes, K.batch codes → codes = []) (hp : Each (Does env K userID) p)
    (hA : A v) (hst : (protocol env w₀).Stable i A)
    (hown : ∀ l f v', Does env K userID l v'.state (f v'.state) → A v' → A (v'.act i l f)) :
    (protocol env w₀).Safe i (fun _ v' => A v') p v :=
  safe_each hp hA hst fun l f v' hi hA hd _ => ⟨step_does hK hi hd, hown l f v' hd hA⟩

theorem lasting_own (hA : Lasting A) (hd : Does env K userID l v.state (f v.state)) (h : A v) :
    A (v.act i l f) :=
  hA h (List.suffix_cons _ _) hd.entropy

/-- A stretch in front of what lasts. -/
theorem safe_lasting (hp : Each (Does env clears userID) p) (hA : A v) (hl : Lasting A) :
    (protocol env w₀).Safe i (fun _ v' => A v') p v :=
  safe_does (fun _ h => h) hp hA (stable_lasting hl) fun _ _ _ hd h => lasting_own hl hd h

theorem notYet_own (hK : ∀ codes, ¬ K.batch codes) (hd : Does env K userID l v.state (f v.state))
    (h : NotYet i v) : NotYet i (v.act i l f) := by
  intro x hx hrep
  rcases List.mem_cons.1 hx with rfl | hx
  · obtain ⟨-, u, rfl⟩ := hrep
    obtain ⟨codes, hb⟩ := (hd.user _ rfl).2
    exact hK codes hb
  · exact h x hx hrep

theorem notOff_own (hK : ¬ K.disable) (hd : Does env K userID l v.state (f v.state))
    (h : NotOff i v) : NotOff i (v.act i l f) := by
  intro x hx u hoff
  rcases List.mem_cons.1 hx with rfl | hx
  · obtain ⟨-, rfl⟩ := hoff
    exact hK (hd.user _ rfl).2
  · exact h x hx u hoff

/-- Neither stores nor deletes a batch. -/
def keeps : Rights := ⟨True, True, fun _ => False⟩

/-- A stretch before the call replaces codes. -/
theorem safe_notYet (hp : Each (Does env keeps userID) p) (hA : A v) (hl : Lasting A)
    (hn : NotYet i v) : (protocol env w₀).Safe i (fun _ v' => A v' ∧ NotYet i v') p v :=
  safe_does (fun _ h => False.elim h) hp ⟨hA, hn⟩ ((stable_lasting hl).and stable_notYet)
    fun _ _ _ hd h => ⟨lasting_own hl hd h.1, notYet_own (fun _ h => h) hd h.2⟩

theorem lasting_true : Lasting fun _ => True := fun _ _ _ _ _ => trivial

theorem lasting_and {A B : Shared → Prop} (hA : Lasting A) (hB : Lasting B) :
    Lasting fun v => A v ∧ B v := fun _ _ h hs he => ⟨hA h.1 hs he, hB h.2 hs he⟩

theorem lasting_entropy (n : Nat) : Lasting fun v => n ≤ v.state.entropy :=
  fun _ _ h _ he => Nat.le_trans h he

theorem lasting_drew : Lasting fun v => Drew v.hist i n :=
  fun _ _ h hs _ => h.mono hs.subset

/-- Some entry of the history is as `P` says. -/
theorem lasting_exists {P : Ev World Call Outside → Prop} : Lasting fun v => ∃ x ∈ v.hist, P x :=
  fun _ _ ⟨x, hx, hP⟩ hs _ => ⟨x, hs.subset hx, hP⟩

/-! ## A batch -/

/-- The codes and rows that the call `i` has drawn since the random source stood at `lo`. -/
structure Batch (env : Env) (i : Nat) (u : UserID) (lo : Nat) (batch : List (String × RecoveryCode))
    (v : Shared) : Prop where
  each : ∀ p ∈ batch, p.2.userID = u ∧ p.2.codeHash = ⟨p.1⟩ ∧ (lo ≤ p.2.id ∧ Drew v.hist i p.2.id) ∧
    ∃ n, p.1 = env.recoveryCode n ∧ lo ≤ n ∧ Drew v.hist i n
  ids : (batch.map fun p => p.2.id).Nodup
  codes : (batch.map fun p => p.1).Nodup

theorem lasting_batch : Lasting (Batch env i u lo batch) := by
  rintro v v' ⟨heach, hids, hcodes⟩ hs -
  refine ⟨fun p hp => ?_, hids, hcodes⟩
  obtain ⟨hu, hhash, ⟨hlo, hid⟩, n, hn, hlon, hdn⟩ := heach p hp
  exact ⟨hu, hhash, ⟨hlo, hid.mono hs.subset⟩, n, hn, hlon, hdn.mono hs.subset⟩

theorem batch_cons (hinj : Function.Injective env.recoveryCode) {lo n rowID : Nat} {enc : String}
    (hn : lo ≤ n) (hid : n < rowID) (hdn : Drew v.hist i n) (hdid : Drew v.hist i rowID)
    (hb : Batch env i u (rowID + 1) batch v) : Batch env i u lo
      ((env.recoveryCode n, ⟨rowID, u, ⟨env.recoveryCode n⟩, enc, none⟩) :: batch) v where
  each := by
    intro p hp
    rcases List.mem_cons.1 hp with rfl | hp
    · exact ⟨rfl, rfl, ⟨Nat.le_of_lt (Nat.lt_of_le_of_lt hn hid), hdid⟩, n, rfl, hn, hdn⟩
    · obtain ⟨hu, hhash, ⟨hlo, hd⟩, m, hm, hlom, hdm⟩ := hb.each p hp
      exact ⟨hu, hhash, ⟨by omega, hd⟩, m, hm, by omega, hdm⟩
  ids := by
    refine List.nodup_cons.2 ⟨fun hmem => ?_, hb.ids⟩
    obtain ⟨p, hp, hpid⟩ := List.mem_map.1 hmem
    have := (hb.each p hp).2.2.1.1
    simp only at hpid
    omega
  codes := by
    refine List.nodup_cons.2 ⟨fun hmem => ?_, hb.codes⟩
    obtain ⟨p, hp, hcode⟩ := List.mem_map.1 hmem
    obtain ⟨-, -, -, m, hm, hlom, -⟩ := hb.each p hp
    have : m = n := hinj (hm.symm.trans hcode)
    omega

/-- A draw, in front of what lasts. -/
theorem safe_draw (hA : A v) (hl : Lasting A) (hn : NotYet i v) (hlo : lo ≤ v.state.entropy) :
    (protocol env w₀).Safe i (fun r v' => A v' ∧ NotYet i v' ∧
      ∀ n, r = .ok n → lo ≤ n ∧ n + 1 ≤ v'.state.entropy ∧ Drew v'.hist i n) draw v := by
  have hdoes : Each (Does env keeps 0) draw := does_draw
  have hst := ((stable_lasting (lasting_and hl (lasting_entropy lo))).and stable_notYet :
    (protocol env w₀).Stable i _)
  refine safe_atomic ⟨⟨hA, hlo⟩, hn⟩ hst fun v' hi ⟨⟨hA, hlo⟩, hn⟩ _ => ?_
  have hd := hdoes.1 v'.state
  refine ⟨step_does (fun _ h => False.elim h) hi hd, lasting_own hl hd hA,
    notYet_own (fun _ h => h) hd hn, fun n hr => ?_⟩
  obtain rfl := Except.ok.inj hr
  exact ⟨hlo, Nat.le.refl, _, List.mem_cons_self, rfl, Nat.le.refl, Nat.lt_succ_self _⟩

/-- **The loop of `newRecoveryCodes`** draws ids and codes that differ from each other. -/
theorem safe_drawRecoveryCodes (hinj : Function.Injective env.recoveryCode) (n : Nat) :
    ∀ {v : Shared} {lo : Nat}, lo ≤ v.state.entropy → NotYet i v →
      (protocol env w₀).Safe i
        (fun r v' => NotYet i v' ∧ ∀ batch, r = .ok batch → Batch env i userID lo batch v')
        (drawRecoveryCodes env userID n) v := by
  induction n with
  | zero =>
    intro v lo _ hn
    refine ⟨hn, fun batch hr => ?_⟩
    obtain rfl := Except.ok.inj hr
    exact ⟨fun _ h => (by cases h), List.nodup_nil, List.nodup_nil⟩
  | succ n ih =>
    intro v lo hlo hn
    refine safe_seq ((safe_draw trivial lasting_true hn hlo).mono fun r v₁ h₁ => ?_)
    obtain ⟨-, hn₁, h₁⟩ := h₁
    cases r with
    | error e => exact ⟨hn₁, fun _ h => by cases h⟩
    | ok bytes =>
      obtain ⟨hlo₁, he₁, hd₁⟩ := h₁ bytes rfl
      have hseal : Each (Does env keeps userID) (sealText env (env.recoveryCode bytes)) :=
        does_sealText
      refine safe_seq ((safe_notYet hseal ⟨hd₁, he₁⟩
        (lasting_and lasting_drew (lasting_entropy (bytes + 1))) hn₁).mono fun r v₂ h₂ => ?_)
      obtain ⟨⟨hd₂, he₂⟩, hn₂⟩ := h₂
      cases r with
      | error e => exact ⟨hn₂, fun _ h => by cases h⟩
      | ok =>
        refine safe_seq ((safe_draw hd₂ lasting_drew hn₂ he₂).mono fun r v₃ h₃ => ?_)
        obtain ⟨hd₃, hn₃, h₃⟩ := h₃
        cases r with
        | error e => exact ⟨hn₃, fun _ h => by cases h⟩
        | ok rowID =>
          obtain ⟨hlt, he₃, hdid⟩ := h₃ rowID rfl
          -- the rest draws beyond the two values in hand
          have hrest := ih he₃ hn₃
          have hkept : (protocol env w₀).Safe i
              (fun _ v' => Drew v'.hist i bytes ∧ Drew v'.hist i rowID)
              (drawRecoveryCodes env userID n) v₃ :=
            safe_lasting (does_unmarked (each_drawRecoveryCodes unmarked_calm n) :
              Each (Does env clears userID) _) ⟨hd₃, hdid⟩ (lasting_and lasting_drew lasting_drew)
          refine safe_seq ((safe_and hrest hkept).mono fun r v₄ h₄ => ?_)
          obtain ⟨⟨hn₄, h₄⟩, hd₄, hdid₄⟩ := h₄
          cases r with
          | error e => exact ⟨hn₄, fun _ h => by cases h⟩
          | ok rest =>
            refine ⟨hn₄, fun batch hr => ?_⟩
            obtain rfl := Except.ok.inj hr
            exact batch_cons hinj hlo₁ hlt hd₄ hdid₄ (h₄ rest rfl)

/-- A row that the call drew and has not stored is new to everybody. -/
theorem fresh_of_batch (hinj : Function.Injective env.recoveryCode) (hv : v.Always (Inv env w₀))
    (hn : NotYet i v) (hb : Batch env i u lo batch v) {p : String × RecoveryCode} (hp : p ∈ batch) :
    Fresh w₀ v.hist p.2 := by
  intro c hs
  obtain ⟨-, hhash, ⟨-, hdid⟩, n, hcode, -, hdn⟩ := hb.each p hp
  have hmin : ∀ m, Drew v.hist i m → w₀.entropy ≤ m := by
    rintro m ⟨x, hx, -, hle, -⟩
    exact Nat.le_trans (hv.1.drawn x hx).1 hle
  have hother : ∀ j m, Drew v.hist j m → Drew v.hist i m →
      (∃ x ∈ v.hist, IsReplace j x) → False := by
    rintro j m hj hi ⟨x, hx, hrep⟩
    rw [drew_unique hv hj hi] at hrep
    exact hn x hx hrep
  rcases hv.1.born c hs with ⟨hid, m, hm, hch⟩ | ⟨j, hj, ⟨m, hch, hjm⟩, hrep⟩
  · refine ⟨fun h => ?_, fun h => ?_⟩
    · have := hmin _ hdid
      omega
    · rw [hch, hhash, hcode] at h
      have : m = n := hinj (Digest.mk.inj h)
      have := hmin _ hdn
      omega
  · refine ⟨fun h => hother j c.id hj (h ▸ hdid) hrep, fun h => ?_⟩
    rw [hch, hhash, hcode] at h
    have : m = n := hinj (Digest.mk.inj h)
    exact hother j m hjm (this ▸ hdn) hrep

/-- The codes of the user were replaced by these, by the call `i`. -/
def Replaced (u : UserID) (i : Nat) (codes : List String) (v : Shared) : Prop :=
  ∃ y ∈ v.hist, Replaces u i y ∧ ∀ s ∈ codes, Stores u s y.post

theorem lasting_replaced : Lasting (Replaced u i codes) :=
  fun _ _ ⟨y, hy, h⟩ hs _ => ⟨y, hs.subset hy, h⟩

/-- **`ReplaceRecoveryCodes`**: the rows of before are gone, and the batch is stored. -/
theorem safe_totpReplaceRecoveryCodes (hinj : Function.Injective env.recoveryCode) (hn : NotYet i v)
    (hb : Batch env i userID lo batch v) : (protocol env w₀).Safe i
      (fun r v' => r = .ok () → Replaced userID i (batch.map (·.1)) v')
      (totpReplaceRecoveryCodes ctx userID (batch.map (·.2))) v := by
  refine safe_repo (⟨hn, hb⟩ : NotYet i v ∧ Batch env i userID lo batch v)
    (stable_notYet.and (stable_lasting lasting_batch)) fun v' r o g hi ⟨hn, hb⟩ _ hro hex => ?_
  have hsame : o = none → Carries env w₀ v'.hist
      (v'.act i (.site (.replaceCodes userID)) g).hist v'.state (g v'.state) := by
    rintro rfl
    refine carries_old hi.1 rfl fun c' hc' => ⟨c', ?_, .refl c', id⟩
    unfold rows at hc'
    rwa [hex.db] at hc'
  rcases hro with ⟨rfl, rfl⟩ | hro
  · exact ⟨step_act hi (Nat.le_of_eq hex.entropy.symm) (hsame rfl), fun h => by cases h⟩
  split at hro
  · obtain ⟨rfl, rfl⟩ := Prod.mk.inj hro
    exact ⟨step_act hi (Nat.le_of_eq hex.entropy.symm) (hsame rfl), fun h => by cases h⟩
  obtain ⟨rfl, rfl⟩ := Prod.mk.inj hro
  have hrows : rows (g v'.state) = (insertAll (v'.state.db.recoveryCodes.delete
      fun c => c.userID = userID) (batch.map (·.2))).rows := congrArg (·.recoveryCodes.rows) hex.db
  have hfresh : ∀ c ∈ batch.map (·.2), Fresh w₀ v'.hist c := by
    intro c hc
    obtain ⟨p, hp, rfl⟩ := List.mem_map.1 hc
    exact fresh_of_batch hinj hi hn hb hp
  have hcases : ∀ c ∈ rows (g v'.state),
      (c ∈ rows v'.state ∧ c.userID ≠ userID) ∨ c ∈ batch.map (·.2) := by
    intro c hc
    rw [hrows] at hc
    exact (mem_insertAll hc).imp_left fun h => by simpa using (Table.mem_delete _ _ _).1 h
  have hcarries : Carries env w₀ v'.hist
      (v'.act i (.site (.replaceCodes userID)) g).hist v'.state (g v'.state) := by
    refine ⟨fun c hc => ?_, fun c hc c' hc' hf hf' hhash => ?_⟩
    · rcases hcases c hc with ⟨hc, -⟩ | hc
      · exact .inl ⟨c, hc, .refl c, id⟩
      · refine .inr ⟨hfresh c hc, .inr ⟨i, ?_⟩⟩
        obtain ⟨p, hp, rfl⟩ := List.mem_map.1 hc
        obtain ⟨-, hhash, ⟨-, hid⟩, n, hcode, -, hdn⟩ := hb.each p hp
        have hsub : v'.hist ⊆ (v'.act i (.site (.replaceCodes userID)) g).hist :=
          List.subset_cons_self _ _
        exact ⟨hid.mono hsub, ⟨n, by rw [hhash, hcode], hdn.mono hsub⟩, _, List.mem_cons_self, rfl,
          userID, rfl⟩
    · have hnew : ∀ c ∈ rows (g v'.state), Fresh w₀ v'.hist c → ∃ p ∈ batch, p.2 = c := by
        intro c hc hf
        rcases hcases c hc with ⟨hc, -⟩ | hc
        · exact absurd rfl (hf c (hi.1.current c hc)).1
        · exact List.mem_map.1 hc
      obtain ⟨p, hp, rfl⟩ := hnew c hc hf
      obtain ⟨p', hp', rfl⟩ := hnew c' hc' hf'
      have hcode : p.1 = p'.1 := by
        rw [(hb.each p hp).2.1, (hb.each p' hp').2.1] at hhash
        exact Digest.mk.inj hhash
      rw [List.inj_on_of_nodup_map hb.codes hp hp' hcode]
  refine ⟨step_act hi (Nat.le_of_eq hex.entropy.symm) hcarries, fun _ => ?_⟩
  refine ⟨_, List.mem_cons_self, ⟨rfl, rfl, fun c hc hu c' hc' hid => ?_⟩, fun s hs => ?_⟩
  · rcases hcases c' hc' with ⟨hc', hne⟩ | hc'
    · rw [v'.state.db.recoveryCodes.eq_of_key_eq hc' hc hid] at hne
      exact hne hu
    · exact (hfresh c' hc' c (hi.1.current c hc)).1 hid.symm
  · obtain ⟨p, hp, rfl⟩ := List.mem_map.1 hs
    obtain ⟨hu, hhash, -⟩ := hb.each p hp
    refine ⟨p.2, ?_, hu, hhash⟩
    change p.2 ∈ rows (g v'.state)
    rw [hrows]
    refine mem_insertAll_of_fresh (fun c hc hkey => ?_) (by rw [List.map_map]; exact hb.ids)
      (List.mem_map_of_mem hp)
    obtain ⟨c', hc', hid⟩ := List.mem_map.1 hkey
    exact (hfresh c hc c' (hi.1.current c' ((Table.mem_delete _ _ _).1 hc').1)).1 hid

theorem safe_newRecoveryCodes (hinj : Function.Injective env.recoveryCode) (hn : NotYet i v) :
    (protocol env w₀).Safe i (fun r v' => ∀ codes, r = .ok codes → Replaced userID i codes v')
      (newRecoveryCodes env ctx userID) v := by
  refine safe_bind (safe_drawRecoveryCodes hinj _ (Nat.zero_le _) hn) (fun batch v₁ h₁ => ?_)
    fun _ _ _ => nofun
  refine safe_bind (safe_totpReplaceRecoveryCodes hinj h₁.1 (h₁.2 batch rfl))
    (fun _ v₂ h₂ codes hr => ?_) fun _ _ _ => nofun
  obtain rfl := Except.ok.inj hr
  exact h₂ rfl

/-! ## Accepting a code -/

/-- The call `i` has accepted the code. -/
def Accepted (u : UserID) (s : String) (i : Nat) (v : Shared) : Prop :=
  ∃ x ∈ v.hist, Accepts u s i x

theorem lasting_seen {codes : List RecoveryCode} :
    Lasting fun v => ∀ c ∈ codes, Seen w₀ v.hist c :=
  fun _ _ h hs _ c hc => (h c hc).imp_right fun ⟨z, hz, hcz⟩ => ⟨z, hs.subset hz, hcz⟩

/-- The rows in hand are rows of the user that were stored. -/
theorem safe_totpActiveRecoveryCodes : (protocol env w₀).Safe i
    (fun r v' => ∀ codes, r = .ok codes → ∀ c ∈ codes, Seen w₀ v'.hist c ∧ c.userID = userID)
    (totpActiveRecoveryCodes ctx userID) v := by
  have hdoes : Each (Does env clears userID) (totpActiveRecoveryCodes ctx userID) :=
    does_totpActiveRecoveryCodes
  unfold totpActiveRecoveryCodes query at hdoes ⊢
  refine safe_repo trivial (stable_lasting lasting_true) fun v' r o g hi _ _ hro hex => ?_
  have hrows : rows (g v'.state) = rows v'.state := by
    rcases hro with ⟨-, rfl⟩ | hro
    · exact congrArg (·.recoveryCodes.rows) hex.db
    · obtain ⟨-, rfl⟩ := Prod.mk.inj hro
      exact congrArg (·.recoveryCodes.rows) hex.db
  refine ⟨step_act hi (Nat.le_of_eq hex.entropy.symm) (carries_old hi.1 rfl fun c' hc' =>
    ⟨c', hrows ▸ hc', .refl c', id⟩), fun codes hr c hc => ?_⟩
  rcases hro with ⟨rfl, -⟩ | hro
  · cases hr
  · obtain ⟨rfl, -⟩ := Prod.mk.inj hro
    obtain rfl := Except.ok.inj hr
    simp only [List.mem_filter, Bool.and_eq_true, decide_eq_true_eq] at hc
    exact ⟨.inr ⟨_, List.mem_cons_self, by simpa [Ev.post, hrows] using hc.1⟩, hc.2.1.1⟩

/-- **The compare-and-set**: whoever succeeds has marked a row of the code. -/
theorem safe_totpMarkRecoveryCodeUsed {now : Nat} (hseen : Seen w₀ v.hist c)
    (hu : c.userID = userID) (hhash : c.codeHash = ⟨s⟩) :
    (protocol env w₀).Safe i (fun r v' => r = .ok () → Accepted userID s i v')
      (totpMarkRecoveryCodeUsed ctx c.id now) v := by
  have hdoes : Each (Does env clears userID) (totpMarkRecoveryCodeUsed ctx c.id now) :=
    does_totpMarkRecoveryCodeUsed
  have hlast : Lasting fun v => Seen w₀ v.hist c :=
    fun _ _ h hs _ => h.imp_right fun ⟨z, hz, hcz⟩ => ⟨z, hs.subset hz, hcz⟩
  refine safe_atomic hseen (stable_lasting hlast) fun v' hi hseen _ => ?_
  refine ⟨step_does (fun _ h => h) hi (hdoes.1 v'.state), fun hr => ?_⟩
  simp only at hr
  split at hr
  · cases hr
  rename_i hok
  rw [fault_db] at hr
  split at hr
  · rename_i hany
    obtain ⟨c₀, hc₀, hcond⟩ := List.any_eq_true.1 hany
    simp only [Bool.and_eq_true, decide_eq_true_eq, Option.isNone_iff_eq_none] at hcond
    obtain ⟨⟨hid, -⟩, hunused⟩ := hcond
    -- the row with the id in hand is the row that was read
    have hone : Same c₀ c := hi.1.unique c₀ c (hi.1.current c₀ hc₀) hseen (.inl hid)
    refine ⟨_, List.mem_cons_self, rfl, { c₀ with usedAt := some now }, ?_, ?_,
      hone.userID.trans hu, hone.codeHash.trans hhash, rfl, ?_⟩
    · simp only [rows, hok, Bool.false_eq_true, ↓reduceIte, fault_db, hany, DB.execOpt, DB.exec,
        Table.mem_update]
      exact ⟨c₀, hc₀, by simp [hid]⟩
    · exact congrArg (fun n => Call.site (.markCode n)) hid.symm
    · rw [← hunused]
      exact hc₀
  · cases hr

theorem lasting_accepted : Lasting (Accepted u s i) := lasting_exists

/-- A failure that is recorded and returned. -/
theorem safe_refused {e : Err} (hp : Each (Does env clears userID) p)
    (hQ : ∀ e v', Q (.error e) v') : (protocol env w₀).Safe i Q (p >>= fun _ => .fail e) v :=
  safe_bind (safe_lasting hp trivial lasting_true) (fun _ _ _ => hQ _ _) fun _ _ _ => hQ _ _

theorem safe_checkRecoveryCode :
    (protocol env w₀).Safe i (fun r v' => r = .ok () → Accepted userID s i v')
      (checkRecoveryCode env ctx userID s) v := by
  refine safe_bind safe_totpActiveRecoveryCodes (fun codes v₁ h₁ => ?_) fun _ _ _ => nofun
  split
  · exact safe_refused does_totpRecordFailure fun _ _ => nofun
  · rename_i c hfind
    obtain ⟨hseen, hu⟩ := h₁ codes rfl c (List.mem_of_find?_eq_some hfind)
    have hhash : c.codeHash = ⟨s⟩ := by simpa using List.find?_some hfind
    have hlast : Lasting fun v => ∀ c' ∈ [c], Seen w₀ v.hist c' := lasting_seen
    have hnow : Each (Does env clears userID) getNow :=
      does_unmarked (each_getNow unmarked_calm.other)
    refine safe_bind (safe_lasting hnow (by simpa using hseen) hlast) (fun now v₂ h₂ => ?_)
      fun _ _ _ => nofun
    refine safe_seq (safe_attempt ((safe_totpMarkRecoveryCodeUsed (h₂ c List.mem_cons_self) hu
      hhash).mono fun r v₃ h₃ => ?_))
    simp only [thenSafe]
    split
    · exact (safe_lasting does_totpRecordSuccess (h₃ rfl) lasting_accepted).mono fun _ _ h _ => h
    · exact safe_refused does_totpRecordFailure fun _ _ => nofun
    · exact fun h => by cases h

theorem safe_totpValidateAudited :
    (protocol env w₀).Safe i
      (fun r v' => r = .ok () → s.utf8ByteSize ≠ 6 → Accepted userID s i v')
      (totpValidateAudited env ctx userID s) v := by
  refine safe_bind (safe_returns (safe_lasting does_enabledDevice trivial lasting_true)
    returns_enabledDevice) (fun d v₁ h₁ => ?_) fun _ _ _ => nofun
  split
  · rename_i hlen
    have hd : OfUser userID d := h₁.2 d rfl
    have hsix : Each (Does env clears userID)
        (checkSixDigits env ctx userID d s "bad totp code" "totp replay" >>= fun _ =>
          totpRecordSuccess ctx userID "totp_validated" "totp validated") :=
      each_bind (does_checkSixDigits hd) fun _ => does_totpRecordSuccess
    exact (safe_lasting hsix trivial lasting_true).mono fun _ _ _ _ h => absurd hlen h
  · exact safe_checkRecoveryCode.mono fun _ _ h hr _ => h hr

theorem safe_completeMFALoginAudited :
    (protocol env w₀).Safe i
      (fun r v' => r.isOk = true → s.utf8ByteSize ≠ 6 → Accepted userID s i v')
      (completeMFALoginAudited env ctx userID s ip ua) v := by
  refine safe_bind safe_totpValidateAudited (fun _ v₁ h₁ => ?_) fun _ _ _ => nofun
  have hlast : Lasting fun v => s.utf8ByteSize ≠ 6 → Accepted userID s i v :=
    fun _ _ h hs he hlen => lasting_accepted (h hlen) hs he
  exact (safe_lasting (does_unmarked unmarked_mfaTail : Each (Does env clears userID) _) (h₁ rfl)
    hlast).mono fun _ _ h _ => h

/-! ## Replacing a batch -/

/-- The codes are returned after one more step. -/
theorem safe_handOut (hp : Each (Does env clears userID) p) (h : Replaced u i codes v) :
    (protocol env w₀).Safe i (fun r v' => ∀ codes, r = .ok codes → Replaced u i codes v')
      (p >>= fun _ => .ret codes) v := by
  refine safe_bind (safe_lasting hp h lasting_replaced) (fun _ v' h' codes' hr => ?_)
    fun _ _ _ => nofun
  obtain rfl := Except.ok.inj hr
  exact h'

theorem safe_totpRegenerateRecoveryCodesAudited (hinj : Function.Injective env.recoveryCode)
    (hn : NotYet i v) :
    (protocol env w₀).Safe i (fun r v' => ∀ codes, r = .ok codes → Replaced userID i codes v')
      (totpRegenerateRecoveryCodesAudited env ctx userID) v := by
  refine safe_bind (safe_notYet does_totpFindByUserID trivial lasting_true hn) (fun d v₁ h₁ => ?_)
    fun _ _ _ => nofun
  split
  · exact safe_refused does_totpRecordFailure fun _ _ => nofun
  · refine safe_seq (safe_wrap ((safe_newRecoveryCodes hinj h₁.2).mono fun r v₂ h₂ => ?_))
    cases r with
    | error e => exact fun _ h => by cases h
    | ok codes => exact safe_handOut does_totpRecordSuccess (h₂ codes rfl)

theorem safe_totpActivate (hinj : Function.Injective env.recoveryCode) {d : TOTPDevice}
    (hd : OfUser userID d) (hn : NotYet i v) :
    (protocol env w₀).Safe i (fun r v' => ∀ codes, r = .ok codes → Replaced userID i codes v')
      (totpActivate env ctx userID d) v := by
  refine safe_bind (safe_notYet (does_totpSave (ofUser_activate hd)) trivial lasting_true hn)
    (fun _ v₁ h₁ => ?_) fun _ _ _ => nofun
  refine safe_seq (safe_attempt ((safe_newRecoveryCodes hinj h₁.2).mono fun r v₂ h₂ => ?_))
  cases r with
  | ok codes => exact safe_handOut does_totpRecordSuccess (h₂ codes rfl)
  | error e =>
    exact safe_refused (each_ignore (does_totpSave (ofUser_deactivate hd))) fun _ _ => nofun

/-- A stretch before the call replaces codes, in front of the rest `f`. -/
theorem seq_notYet {R : α → Prop} {f : α → M β} (hp : Each (Does env keeps userID) p)
    (hR : p.Returns R) (hn : NotYet i v) (herr : ∀ e v', Q (.error e) v')
    (hf : ∀ a v', R a → NotYet i v' → (protocol env w₀).Safe i Q (f a) v') :
    (protocol env w₀).Safe i Q (p >>= f) v := by
  exact safe_bind (safe_returns (safe_notYet hp trivial lasting_true hn) hR)
    (fun a v' h => hf a v' (h.2 a rfl) h.1.2) fun e v' _ => herr e v'

/-- The rotation lock around a body that replaces codes. -/
theorem safe_withRotationLock {p : M (List String)} (hn : NotYet i v)
    (hp : ∀ v', NotYet i v' → (protocol env w₀).Safe i
      (fun r v'' => ∀ codes, r = .ok codes → Replaced userID i codes v'') p v') :
    (protocol env w₀).Safe i (fun r v' => ∀ codes, r = .ok codes → Replaced userID i codes v')
      (withRotationLock userID p) v := by
  have hunlock : Each (Does env clears userID) (releaseRotationLock userID) :=
    does_releaseRotationLock trivial
  refine seq_notYet (does_acquireRotationLock trivial) (returns_trivial _) hn
    (fun _ _ _ h => by cases h) fun locked v₁ _ hn₁ => ?_
  refine safe_seq (safe_refuse (fun _ _ h => by cases h) fun _ => ?_)
  refine safe_seq (safe_attempt ((hp v₁ hn₁).mono fun r v₂ h₂ => ?_))
  cases r with
  | error e => exact safe_refused hunlock fun _ _ => nofun
  | ok codes => exact safe_handOut hunlock (h₂ codes rfl)

theorem safe_totpVerifyEnableAudited (hinj : Function.Injective env.recoveryCode)
    (hn : NotYet i v) :
    (protocol env w₀).Safe i (fun r v' => ∀ codes, r = .ok codes → Replaced userID i codes v')
      (totpVerifyEnableAudited env ctx userID s) v := by
  refine seq_notYet does_guardBruteForce (returns_trivial _) hn (fun _ _ _ h => by cases h)
    fun _ v₁ _ hn₁ => safe_withRotationLock hn₁ fun v₂ hn₂ => ?_
  refine seq_notYet does_totpFindByUserID returns_totpFindByUserID hn₂ (fun _ _ _ h => by cases h)
    fun d v₃ hd hn₃ => ?_
  cases d with
  | none =>
    exact seq_notYet does_totpRecordFailure (returns_trivial _) hn₃ (fun _ _ _ h => by cases h)
      fun _ _ _ _ _ h => by cases h
  | some d =>
    refine safe_seq (safe_refuse (fun _ _ h => by cases h) fun _ => ?_)
    refine seq_notYet (does_openStagedSecret (hd d rfl)) (returns_openStagedSecret (hd d rfl)) hn₃
      (fun _ _ _ h => by cases h) fun opened v₄ hd' hn₄ => ?_
    refine seq_notYet (does_totpValid rfl trivial fun _ _ => rfl) (returns_trivial _) hn₄
      (fun _ _ _ h => by cases h) fun valid v₅ _ hn₅ => ?_
    refine seq_notYet (each_refuseAfter does_totpRecordFailure) (returns_trivial _) hn₅
      (fun _ _ _ h => by cases h) fun _ v₆ _ hn₆ => safe_totpActivate hinj hd' hn₆

/-- A `Disable` that came to switch the device off has deleted the codes when it returns. -/
theorem safe_totpDisableAudited (hinj : Function.Injective env.recoveryCode) {t : Option Token}
    {password : String} (hn : NotYet i v) (hoff : NotOff i v) :
    (protocol env w₀).Safe i
      (fun r v' => r = .ok () → NotOff i v' ∨ Replaced userID i [] v')
      (totpDisableAudited env ctx userID t password s) v := by
  have hfind : Each (Does env ⟨True, False, fun _ => False⟩ userID)
      (wrap "totp disable: find device" (totpFindByUserID ctx userID)) :=
    each_wrap does_totpFindByUserID
  refine safe_bind (safe_does (fun _ h => False.elim h) hfind ⟨hn, hoff⟩
    (stable_notYet.and stable_notOff) fun _ _ _ hd h => ⟨notYet_own (fun _ h => h) hd h.1,
      notOff_own (fun h => h) hd h.2⟩) (fun d v₁ h₁ => ?_) fun _ _ _ => nofun
  split
  · exact fun _ => .inl h₁.2
  refine seq_notYet does_authorizeDisable (returns_trivial _) h₁.1 (fun _ _ h => by cases h)
    fun _ v₂ _ hn₂ => ?_
  refine seq_notYet (each_wrap (does_totpDisable trivial)) (returns_trivial _) hn₂
    (fun _ _ h => by cases h) fun _ v₃ _ hn₃ => ?_
  have hempty : Batch env i userID 0 [] v₃ :=
    ⟨fun _ h => (by cases h), List.nodup_nil, List.nodup_nil⟩
  refine safe_seq (safe_wrap ((safe_totpReplaceRecoveryCodes hinj hn₃ hempty).mono
    fun r v₄ h₄ => ?_))
  cases r with
  | error e => exact fun h => by cases h
  | ok _ =>
    have hrest : Each (Does env clears userID) (ignore (usersBumpPwdVersion ctx userID) >>=
        fun _ => totpRecordSuccess ctx userID "totp_disabled" "mfa device disabled" >>=
          fun _ => alertDisabled ctx userID) :=
      each_bind (each_ignore (does_unmarked (each_usersUpdate unmarked_calm.other rfl))) fun _ =>
        each_bind does_totpRecordSuccess fun _ => does_unmarked (each_alertDisabled unmarked_calm)
    exact (safe_lasting hrest (h₄ rfl) lasting_replaced).mono fun _ _ h _ => .inr h

/-! ## The pool -/

/-- A call that uses or replaces recovery codes. -/
inductive Job : Type where
  | validate (ctx : Ctx) (userID : UserID) (code : String)
  | completeMFALogin (ctx : Ctx) (userID : UserID) (code ip ua : String)
  | verifyEnable (ctx : Ctx) (userID : UserID) (code : String)
  | regenerateRecoveryCodes (ctx : Ctx) (userID : UserID)
  | disable (ctx : Ctx) (userID : UserID) (sudoToken : Option Token) (password code : String)
  | eraseAccount (ctx : Ctx) (userID : UserID) (sudoToken : Option Token) (password : String)
      (jti : Option Uuid) (ip : String)

/-- The body of a call; it returns the codes it hands out. -/
def code (env : Env) : Job → M (List String)
  | .validate ctx userID c => totpValidateAudited env ctx userID c >>= fun _ => .ret []
  | .completeMFALogin ctx userID c ip ua =>
    completeMFALoginAudited env ctx userID c ip ua >>= fun _ => .ret []
  | .verifyEnable ctx userID c => totpVerifyEnableAudited env ctx userID c
  | .regenerateRecoveryCodes ctx userID => totpRegenerateRecoveryCodesAudited env ctx userID
  | .disable ctx userID t password c =>
    totpDisableAudited env ctx userID t password c >>= fun _ => .ret []
  | .eraseAccount ctx userID t password jti ip =>
    eraseAccountAudited env ctx userID t password jti ip >>= fun _ => .ret []

abbrev Calls := Pool World Call Outside Err (List String) Job

/-- The pool after the moves `ms` from the state `w`. -/
def run (env : Env) (w : World) (ms : List (Move Outside Job)) : Calls :=
  (Pool.init w : Calls).exec (code env) Outside.apply ms

/-- What the history shows of a call that has returned `codes`: the mark of the code it took, the
replacement by the codes it hands out, and the deletion of the codes of a device it switched off. -/
def Accounted (i : Nat) (codes : List String) (v : Shared) : Job → Prop
  | .validate _ userID c => c.utf8ByteSize ≠ 6 → Accepted userID c i v
  | .completeMFALogin _ userID c _ _ => c.utf8ByteSize ≠ 6 → Accepted userID c i v
  | .verifyEnable _ userID _ => Replaced userID i codes v
  | .regenerateRecoveryCodes _ userID => Replaced userID i codes v
  | .disable _ userID _ _ _ => (∃ x ∈ v.hist, IsOff userID i x) → Replaced userID i [] v
  | .eraseAccount _ _ _ _ _ _ => True

theorem stable_accounted (j : Job) : (protocol env w₀).Stable i fun v => Accounted i codes v j := by
  cases j with
  | validate => exact fun _ _ h hr hlen => stable_lasting lasting_accepted (h hlen) hr
  | completeMFALogin => exact fun _ _ h hr hlen => stable_lasting lasting_accepted (h hlen) hr
  | verifyEnable => exact stable_lasting lasting_replaced
  | regenerateRecoveryCodes => exact stable_lasting lasting_replaced
  | disable =>
    rintro v v' h hr ⟨x, hx, hoff⟩
    refine stable_lasting lasting_replaced (h ?_) hr
    obtain ⟨⟨l, hl, hli⟩, -⟩ := hr
    rw [hl] at hx
    rcases List.mem_append.1 hx with hx | hx
    · cases x with
      | act => exact absurd (congrArg some hoff.1) (hli _ hx)
      | env => exact hoff.elim
    · exact ⟨x, hx, hoff⟩
  | eraseAccount => exact fun _ _ _ _ => trivial

/-- A result that is dropped. -/
theorem safe_drop (h : (protocol env w₀).Safe i (fun r v' => r.isOk = true → A v') p v) :
    (protocol env w₀).Safe i (fun r v' => ∀ codes, r = .ok codes → A v')
      (p >>= fun _ => (.ret [] : M (List String))) v := by
  exact safe_bind h (fun _ _ h _ _ => h rfl) fun _ _ _ => nofun

theorem safe_code (hinj : Function.Injective env.recoveryCode) (j : Job)
    (hfirst : ∀ x ∈ v.hist, x.thread? ≠ some i) :
    (protocol env w₀).Safe i (fun r v' => ∀ codes, r = .ok codes → Accounted i codes v' j)
      (code env j) v := by
  have hn : NotYet i v := by
    intro x hx hrep
    cases x with
    | act => exact hfirst _ hx (congrArg some hrep.1)
    | env => exact hrep
  have hoff : NotOff i v := by
    intro x hx u hoff
    cases x with
    | act => exact hfirst _ hx (congrArg some hoff.1)
    | env => exact hoff
  have hunit : ∀ r : Except Err Unit, r.isOk = true → r = .ok () := by
    rintro (_ | _) h
    · cases h
    · rfl
  cases j with
  | validate => exact safe_drop (safe_totpValidateAudited.mono fun r v' h hr => h (hunit r hr))
  | completeMFALogin => exact safe_drop safe_completeMFALoginAudited
  | verifyEnable => exact safe_totpVerifyEnableAudited hinj hn
  | regenerateRecoveryCodes => exact safe_totpRegenerateRecoveryCodesAudited hinj hn
  | disable ctx userID =>
    refine safe_drop ((safe_totpDisableAudited hinj hn hoff).mono fun r v' h hr => ?_)
    rintro ⟨x, hx, hxoff⟩
    exact (h (hunit r hr)).resolve_left fun hno => hno x hx userID hxoff
  | eraseAccount ctx userID t password jti ip =>
    have hdoes : Each (Does env clears userID)
        (eraseAccountAudited env ctx userID t password jti ip) :=
      does_eraseAccountAudited trivial rfl
    exact safe_drop ((safe_lasting hdoes trivial lasting_true).mono fun _ _ _ _ => trivial)

theorem env_keeps (e : Outside) (hi : (protocol env w₀).inv v) :
    (protocol env w₀).inv (v.env e e.apply) := by
  have hrows : rows (e.apply v.state) = rows v.state := by cases e <;> rfl
  have hent : (e.apply v.state).entropy = v.state.entropy := by cases e <;> rfl
  have hseen : ∀ c, Seen w₀ (v.env e e.apply).hist c → Seen w₀ v.hist c := by
    rintro c (hc | ⟨z, hz, hc⟩)
    · exact .inl hc
    · rcases List.mem_cons.1 hz with rfl | hz
      · exact hi.1.current c (hrows ▸ hc)
      · exact .inr ⟨z, hz, hc⟩
  refine View.Always.env hi ⟨?_, fun x hx => ?_, fun c hc => ?_, fun c hc => ?_,
    fun c c' hc hc' => ?_, fun x hx u s j hacc c hc => ?_, fun y b hb u j hrep c hs hu c' hc' => ?_⟩
  · exact hi.1.lower.trans_eq hent.symm
  · rcases List.mem_cons.1 hx with rfl | hx
    · exact ⟨hi.1.lower, Nat.le.refl⟩
    · exact ⟨(hi.1.drawn x hx).1, (hi.1.drawn x hx).2.trans_eq hent.symm⟩
  · exact .inr ⟨_, List.mem_cons_self, hc⟩
  · exact (hi.1.born c (hseen c hc)).mono (List.subset_cons_self _ _) (.refl c)
  · exact hi.1.unique c c' (hseen c hc) (hseen c' hc')
  · rcases List.mem_cons.1 hx with rfl | hx
    · cases hacc
    · exact hi.1.spent x hx u s j hacc c (hrows ▸ hc)
  · rcases List.suffix_cons_iff.1 hb with heq | hb
    · rw [(List.cons.inj heq).1] at hrep
      cases hrep
    · exact hi.1.gone y b hb u j hrep c hs hu c' (hrows ▸ hc')

theorem sound (hinj : Function.Injective env.recoveryCode) :
    (protocol env w₀).Sound (code env) Outside.apply
      fun i j _ r v => ∀ codes, r = .ok codes → Accounted i codes v j where
  env e v hi _ := by
    refine ⟨env_keeps e hi, fun i => ⟨⟨[_], rfl, fun x hx => ?_⟩, ?_⟩⟩
    · rw [List.mem_singleton.1 hx]
      exact fun h => by cases h
    · cases e <;> exact Nat.le.refl
  start _ j _ _ hfirst := safe_code hinj j hfirst
  stable _ j _ _ _ _ h hr codes hcodes := stable_accounted j (h codes hcodes) hr

/-! ## One call for one code -/

/-- The codes of a state were drawn like any other: each row has an id and a code of its own, and
neither will be drawn again. -/
structure Minted (env : Env) (w : World) : Prop where
  drawn : ∀ c ∈ rows w, c.id < w.entropy ∧ ∃ n < w.entropy, c.codeHash = ⟨env.recoveryCode n⟩
  distinct : ∀ c ∈ rows w, ∀ c' ∈ rows w, c.codeHash = c'.codeHash → c = c'

theorem inv_init (hw : Minted env w₀) : Inv env w₀ ⟨w₀, []⟩ := by
  have hseen : ∀ c, Seen w₀ [] c → c ∈ rows w₀ := by
    rintro c (hc | ⟨z, hz, -⟩)
    · exact hc
    · cases hz
  refine ⟨Nat.le.refl, fun _ h => (by cases h), fun c hc => .inl hc,
    fun c hc => .inl (hw.drawn c (hseen c hc)), fun c c' hc hc' heq => ?_, fun _ h => (by cases h),
    fun y b hb => ?_⟩
  · have hone : c = c' := by
      rcases heq with hid | hhash
      · exact w₀.db.recoveryCodes.eq_of_key_eq (hseen c hc) (hseen c' hc') hid
      · exact hw.distinct c (hseen c hc) c' (hseen c' hc') hhash
    rw [hone]
    exact .refl c'
  · exact absurd (List.suffix_nil.1 hb) (List.cons_ne_nil _ _)

/-- **A recovery code is accepted once, and not after its batch was replaced**: whatever was
accepted before, or was stored before a replacement, is not what is accepted now. And the history
shows what each call that returned has done. -/
theorem recovery_codes_once (env : Env) (hinj : Function.Injective env.recoveryCode) (w : World)
    (hw : Minted env w) (ms : List (Move Outside Job)) :
    (∀ u s x b i, x :: b <:+ (run env w ms).view.hist → Accepts u s i x →
      (∀ y ∈ b, ∀ j, ¬ Accepts u s j y) ∧
      ∀ y b' j, y :: b' <:+ b → Replaces u j y → ¬ Stores u s w ∧ ∀ z ∈ b', ¬ Stores u s z.post) ∧
    ∀ i th codes, (run env w ms).threads[i]? = some th → th.prog = .ret codes →
      Accounted i codes (run env w ms).view th.job := by
  have hadm : (protocol env w).Admits (code env) Outside.apply (Pool.init w : Calls) ms :=
    admits_all (fun _ _ _ => trivial) (fun _ _ => trivial) ms _
  have hgood := exec_good (sound hinj) ms (good_init (View.always_init (inv_init hw))) hadm
  refine ⟨fun u s x b i hb hacc => ?_, fun i th codes hth hp => hgood.returned hth hp codes rfl⟩
  have hi : Inv env w ⟨x.pre, b⟩ := hgood.inv.2 x b hb
  cases x with
  | env => cases hacc
  | act j =>
    obtain ⟨-, c, -, -, hu, hhash, -, hc⟩ := hacc
    refine ⟨fun y hy j hacc' => ?_, fun y b' j hb' hrep => ?_⟩
    · exact absurd (hi.spent y hy u s j hacc' _ hc hhash) (by simp)
    · have hno : ∀ c', Seen w b' c' → c'.userID = u → c'.codeHash ≠ ⟨s⟩ := by
        intro c' hs hu' heq
        exact hi.gone y b' hb' u j hrep c' hs hu' _ hc (hhash.trans heq.symm)
      refine ⟨fun ⟨c', hc', hu', heq⟩ => hno c' (.inl hc') hu' heq,
        fun z hz ⟨c', hc', hu', heq⟩ => hno c' (.inr ⟨z, hz, hc'⟩) hu' heq⟩

/-! ## A batch in use, and one that is overtaken -/

theorem plain_recoveryCode_injective : Function.Injective (Env.plain .sample).recoveryCode := by
  intro a b h
  have hrepr : Nat.repr a = Nat.repr b := (String.append_right_inj "recovery").1 h
  have hdigits : Nat.toDigits 10 a = Nat.toDigits 10 b := by
    simpa [Nat.repr] using congrArg String.toList hrepr
  rw [← Nat.ofDigitChars_ten_toDigits (n := a), hdigits, Nat.ofDigitChars_ten_toDigits]

/-- `jose` has a device with the secret `s7`, confirmed or not, and no codes. -/
def deviceWorld (enabled : Bool) : World :=
  { World.sample with db := { World.sample.db with
      totpDevices := ⟨[⟨3, 1, "", "es7", "", enabled⟩], by cases enabled <;> decide⟩ } }

theorem minted_deviceWorld (enabled : Bool) : Minted (.plain .sample) (deviceWorld enabled) :=
  ⟨fun _ h => (by cases h), fun _ h => (by cases h)⟩

/-- The call `i` starts and takes `n` actions. -/
def started (i : Nat) (j : Job) (n : Nat) : List (Move Outside Job) :=
  .spawn j :: List.replicate n (.sched i)

/-- A code is handed out and used, and used again. -/
def inTurn : List (Move Outside Job) :=
  [started 0 (.regenerateRecoveryCodes .sample 1) 8,
    started 1 (.validate .sample 1 "recovery100") 8,
    started 2 (.validate .sample 1 "recovery100") 8].flatten

/-- The first use is accepted, and it is the only one. -/
theorem recovery_codes_once_inTurn :
    (∃ x ∈ (run (.plain .sample) (deviceWorld true) inTurn).view.hist,
      Accepts 1 "recovery100" 1 x) ∧
    ∀ x b i, x :: b <:+ (run (.plain .sample) (deviceWorld true) inTurn).view.hist →
      Accepts 1 "recovery100" i x → ∀ y ∈ b, ∀ j, ¬ Accepts 1 "recovery100" j y :=
  ⟨by decide +kernel, fun x b i hb hacc => ((recovery_codes_once (.plain .sample)
    plain_recoveryCode_injective (deviceWorld true) (minted_deviceWorld true) inTurn).1
      1 "recovery100" x b i hb hacc).1⟩

/-- Two calls of `VerifyEnable` have checked the code, the second after the lock of the first ran
out. The first one saves the device, is overtaken by a `Disable` with password and code, and stores
its batch; a second `Disable` finds the device off. -/
def overtaken : List (Move Outside Job) :=
  [started 0 (.verifyEnable .sample 1 "s70000") 4, [.env (.tick 11000)],
    started 1 (.verifyEnable .sample 1 "s70000") 4, List.replicate 2 (.sched 0),
    started 2 (.disable .sample 1 none "password1" "s70000") 20, List.replicate 8 (.sched 0),
    started 3 (.disable .sample 1 none "" "") 4].flatten

/-- The second `VerifyEnable` saves the row it had read; until it stores its own batch, a code of
the first one counts. -/
def revived : List (Move Outside Job) :=
  List.replicate 2 (.sched 1) ++ started 4 (.validate .sample 1 "recovery101") 8

/-- **A code that outlives a `Disable`**: three calls have returned, the second `Disable` among
them, and the code that the first call returned is accepted afterwards. -/
theorem outlived_disable :
    ((run (.plain .sample) (deviceWorld false) overtaken).threads.map fun t => t.prog.value?) =
      [some ["recovery101"], none, some [], some []] ∧
    ((run (.plain .sample) (deviceWorld false) (overtaken ++ revived)).threads[4]?.bind
      fun t => t.prog.value?) = some [] ∧
    ∃ x ∈ (run (.plain .sample) (deviceWorld false) (overtaken ++ revived)).view.hist,
      Accepts 1 "recovery101" 4 x := by
  decide +kernel

end FinnAuth.RecoveryCodes
