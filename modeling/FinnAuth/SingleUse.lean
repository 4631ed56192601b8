import FinnAuth.Transaction
import FinnAuth.Concurrent
import FinnAuth.Footprint.Session

/-!
# Single use of mailed tokens under concurrency

Any number of `ResetPassword` and `VerifyEmail` calls run side by side, each in its own transaction,
one action at a time, while store keys get lost and the clean-up job deletes expired rows of
`used_tokens`. The volatile guard can be lost, so what counts is the durable one: `IsUsed`, then
`MarkUsed`, whose answer "already used" nobody looks at, and whose row no other call sees before the
commit. Until then another call may pass the same check. Its own insert would wait for that commit
and then report a duplicate, which is that answer: it may as well be noted and change nothing.

Results:
* `inv_act`: what an action keeps of the history of the durable guard;
* **`single_use`**: as long as a call checks a token only when every other one that passed the check
  had ended before this one began, and the row of the token has not been cleaned away, at most one
  call with the token returns success;
* **`used_twice`**: without that condition two calls do.
-/

namespace FinnAuth.SingleUse

open Lib Prog Protocol

/-! ## Reading the history -/

variable {c : Noted}

/-- A history of calls in transactions. -/
abbrev TxHistory := List (Ev World TxCall Outside)

/-- The token is on record as used. -/
def used (db : DB) (jti : Uuid) : Bool := (db.usedTokens.get? jti).isSome

/-- The token that the action checks. -/
def checks? : TxCall → Option Uuid
  | .call (.isUsed jti) => some jti
  | _ => none

/-- The call that found the token unused in this entry. -/
def clears? (jti : Uuid) : Ev World TxCall Outside → Option Nat
  | .act i (.call (.isUsed k)) pre _ =>
    if k = jti && !pre.fault.1 && !used pre.db jti then some i else none
  | _ => none

/-- The call that committed or rolled back in this entry. -/
def closes? : Ev World TxCall Outside → Option Nat
  | .act i (.close _) _ _ => some i
  | _ => none

/-- The clean-up job deleted the row of the token. -/
def purges (jti : Uuid) : Ev World TxCall Outside → Bool
  | .env .purgeUsedTokens pre post => used pre.db jti && !used post.db jti
  | _ => false

/-- Call `i` has passed the check. -/
def Cleared (h : TxHistory) (jti : Uuid) (i : Nat) : Prop := ∃ x ∈ h, clears? jti x = some i

/-- Call `i` has ended and left no row of the token. -/
def Lost (h : TxHistory) (jti : Uuid) (i : Nat) : Prop :=
  ∃ x ∈ h, closes? x = some i ∧ used x.post.db jti = false

/-- The row of the token has been cleaned away. -/
def Purged (h : TxHistory) (jti : Uuid) : Prop := ∃ x ∈ h, purges jti x = true

/-- What happened before the first action of call `i`. -/
def before (i : Nat) (h : TxHistory) : TxHistory := h.reverse.takeWhile (·.thread? ≠ some i)

/-- Every other call that passed the check had ended before this one began, and the row has not been
cleaned away. -/
def Undisturbed (h : TxHistory) (jti : Uuid) (i : Nat) : Prop :=
  (∀ x ∈ h, ∀ j ∈ clears? jti x, j ≠ i → ∃ y ∈ before i h, closes? y = some j) ∧ ¬ Purged h jti

instance (h : TxHistory) (jti : Uuid) : Decidable (Purged h jti) := by
  unfold Purged; infer_instance

instance (h : TxHistory) (jti : Uuid) (i : Nat) : Decidable (Undisturbed h jti i) := by
  unfold Undisturbed; infer_instance

theorem mem_of_before {i : Nat} {h : TxHistory} {x : Ev World TxCall Outside}
    (hx : x ∈ before i h) : x ∈ h :=
  List.mem_reverse.1 ((List.takeWhile_prefix _).subset hx)

/-! ## The protocol -/

/-- A row that was on record is there unless it was cleaned away, and of two calls that passed the
check one has ended without the row. -/
structure Inv (v : TxShared) : Prop where
  stored : ∀ jti, ∀ x ∈ v.hist, used x.post.db jti = true →
    Purged v.hist jti ∨ used v.state.db jti = true
  once : ∀ jti i j, i ≠ j → Cleared v.hist jti i → Cleared v.hist jti j →
    Lost v.hist jti i ∨ Lost v.hist jti j

/-- More history, in which call `i` does not end, and the same signed tokens. -/
structure Keeps (i : Nat) (v v' : TxShared) : Prop where
  hist : v.hist <:+ v'.hist
  own : ∀ x ∈ v'.hist, closes? x = some i → x ∈ v.hist
  signed : v'.state.signed = v.state.signed

def protocol : Protocol World TxCall Outside where
  inv := Inv
  rely := Keeps
  ok i l v := ∀ jti ∈ checks? l, Undisturbed v.hist jti i
  okEnv _ _ := True
  rely_refl _ _ := ⟨List.suffix_refl _, fun _ h _ => h, rfl⟩
  rely_trans _ _ _ _ h h' :=
    ⟨h.hist.trans h'.hist, fun x hx hg => h.own x (h'.own x hx hg) hg, h'.signed.trans h.signed⟩

/-- Call `i` has the claims `cl` of its token and has not ended. -/
structure Running (t : Token) (cl : Claims) (i : Nat) (v : TxShared) : Prop where
  signed : v.state.signed[t]? = some cl
  running : ∀ x ∈ v.hist, closes? x ≠ some i

theorem stable_not_closed (i : Nat) :
    protocol.Stable i fun v => ∀ x ∈ v.hist, closes? x ≠ some i :=
  fun _ _ h hr x hx hg => h x (hr.own x hx hg) hg

theorem stable_running (t : Token) (cl : Claims) (i : Nat) :
    protocol.Stable i (Running t cl i) :=
  fun _ _ h hr => ⟨hr.signed ▸ h.signed, stable_not_closed i h.running hr⟩

theorem stable_cleared (jti : Uuid) (i : Nat) :
    protocol.Stable i fun v => Cleared v.hist jti i := by
  rintro v v' ⟨x, hx, hc⟩ hr
  exact ⟨x, hr.hist.subset hx, hc⟩

/-! ## Steps -/

section Step

variable {v : TxShared} {i : Nat} {l : TxCall} {g : World → World}

/-- The two duties of an action: records stay, and whoever passes a check finds that the others have
ended without a row. -/
theorem inv_act (hi : Inv v)
    (hstay : ∀ jti, used v.state.db jti = true → used (g v.state).db jti = true)
    (hclear : ∀ jti k, clears? jti (.act i l v.state (g v.state)) = some k →
      ∀ j, j ≠ k → Cleared v.hist jti j → Lost v.hist jti j) : Inv (v.act i l g) := by
  have hold : ∀ {jti j}, Lost v.hist jti j → Lost (v.act i l g).hist jti j :=
    fun ⟨x, hx, hm⟩ => ⟨x, List.mem_cons_of_mem _ hx, hm⟩
  refine ⟨?_, ?_⟩
  · intro jti x hx hu
    rcases List.mem_cons.1 hx with rfl | hx
    · exact .inr hu
    · rcases hi.stored jti x hx hu with ⟨y, hy, hp⟩ | hu
      · exact .inl ⟨y, List.mem_cons_of_mem _ hy, hp⟩
      · exact .inr (hstay jti hu)
  · rintro jti j k hjk ⟨x, hx, hj⟩ ⟨y, hy, hk⟩
    rcases List.mem_cons.1 hx with rfl | hx <;> rcases List.mem_cons.1 hy with rfl | hy
    · exact absurd (Option.some.inj (hj.symm.trans hk)) hjk
    · exact .inr (hold (hclear jti j hj k (Ne.symm hjk) ⟨y, hy, hk⟩))
    · exact .inl (hold (hclear jti k hk j hjk ⟨x, hx, hj⟩))
    · exact (hi.once jti j k hjk ⟨x, hx, hj⟩ ⟨y, hy, hk⟩).imp hold hold

/-- The end of no other call is in the entry. -/
theorem keeps_act {j : Nat} (hg : closes? (.act i l v.state (g v.state)) ≠ some j)
    (hs : (g v.state).signed = v.state.signed) : Keeps j v (v.act i l g) := by
  refine ⟨List.suffix_cons _ _, fun x hx hgx => ?_, hs⟩
  rcases List.mem_cons.1 hx with rfl | hx
  · exact absurd hgx hg
  · exact hx

/-- An action before the end, other than a check. -/
theorem quiet_call {l : Call} (hi : Inv v) (hl : ∀ jti, l ≠ .isUsed jti)
    (hdb : (g v.state).db = v.state.db) (hs : (g v.state).signed = v.state.signed) :
    protocol.Quiet i (.call l) g v := by
  refine ⟨inv_act hi (fun _ h => hdb ▸ h) fun jti k h => ?_,
    fun j => keeps_act (by simp [closes?]) hs⟩
  unfold clears? at h
  split at h
  · rename_i heq
    cases heq
    exact absurd rfl (hl _)
  · cases h

end Step

/-! ## What a call has noted -/

/-- Nothing is noted for the used tokens. -/
def Unmarked (c : Noted) : Prop := ∀ x, (c x).1.usedTokens = x.1.usedTokens

/-- What is noted takes no row away. -/
def Grows (c : Noted) : Prop := ∀ x jti, used x.1 jti = true → used (c x).1 jti = true

/-- The row of the token is noted. -/
def Marks (jti : Uuid) (c : Noted) : Prop := Grows c ∧ ∀ x, used (c x).1 jti = true

/-- Everything but the durable guard and the manager. -/
def apart : Footprint where
  label l := (∀ jti, l ≠ .isUsed jti ∧ l ≠ .markUsed jti) ∧ ∀ c, l ≠ .sign c
  stmt s := ∀ t, s ≠ .insertUsedToken t
  mail _ := True
  key _ := True

theorem apart_quiet : apart.Quiet where
  other := by simp [apart]
  site _ := by simp [apart]
  findUser _ := by simp [apart]
  key _ _ := trivial
  audit _ := by simp [apart]
  mail _ _ := trivial

theorem usedTokens_notes {c c' : Noted} (h : Notes apart c c') (x : DB × Operation) :
    (c' x).1.usedTokens = (c x).1.usedTokens := by
  rcases h.db x with heq | ⟨s, hs, heq⟩
  · rw [heq]
  · rw [heq]
    cases s with
    | insertUsedToken t => exact absurd rfl (hs t)
    | _ => rfl

theorem Unmarked.notes (c c' : Noted) (h : Unmarked c) (hn : Notes apart c c') : Unmarked c' :=
  fun x => (usedTokens_notes hn x).trans (h x)

theorem Unmarked.used_eq (h : Unmarked c) (x : DB × Operation) (jti : Uuid) :
    used (c x).1 jti = used x.1 jti := by
  rw [used, h x, used]

theorem Unmarked.grows (h : Unmarked c) : Grows c :=
  fun x jti hu => (h.used_eq x jti).trans hu

theorem Marks.notes (jti : Uuid) (c c' : Noted) (h : Marks jti c) (hn : Notes apart c c') :
    Marks jti c' := by
  have hsame : ∀ x k, used (c' x).1 k = used (c x).1 k := by
    intro x k
    rw [used, usedTokens_notes hn x, used]
  exact ⟨fun x k hu => (hsame x k).trans (h.1 x k hu), fun x => (hsame x jti).trans (h.2 x)⟩

/-- `MarkUsed` leaves the row of the token behind, and every other one. -/
theorem used_markUsed (db : DB) (jti k : Uuid) (type : TokenType) (userID : UserID) (exp : Nat) :
    used (db.execOpt (if used db jti then none
      else some (.insertUsedToken ⟨jti, type, userID, exp⟩))) k =
        (used db k || decide (k = jti)) := by
  cases hu : used db jti with
  | true =>
    by_cases hk : k = jti
    · simp [DB.execOpt, hk, hu]
    · simp [DB.execOpt, hk]
  | false =>
    have hfresh : jti ∉ db.usedTokens.rows.map UsedToken.jti := by
      have hnone : db.usedTokens.get? jti = none := by simpa [used] using hu
      simpa using (Table.get?_eq_none_iff _).1 hnone
    obtain ⟨t', hins, -⟩ :=
      Table.insert_of_fresh (a := (⟨jti, type, userID, exp⟩ : UsedToken)) hfresh
    simp only [DB.execOpt, DB.exec, used, hins, Option.getD_some, Table.get?_insert hins,
      Bool.false_eq_true, if_false]
    by_cases hk : k = jti
    · simp [hk]
    · simp [hk, Ne.symm hk]

theorem Unmarked.after_markUsed (h : Unmarked c) (jti : Uuid) (type : TokenType) (userID : UserID)
    (exp : Nat) : Marks jti (c.after fun db =>
      if (db.usedTokens.get? jti).isSome then ((.ok false : Except Err Bool), none)
      else (.ok true, some (.insertUsedToken ⟨jti, type, userID, exp⟩))) := by
  have hused : ∀ x k, used ((c x).1.execOpt (if ((c x).1.usedTokens.get? jti).isSome then
      ((.ok false : Except Err Bool), none)
      else (.ok true, some (.insertUsedToken ⟨jti, type, userID, exp⟩))).2) k =
        (used x.1 k || decide (k = jti)) := by
    intro x k
    rw [← h.used_eq x k, ← used_markUsed (c x).1 jti k type userID exp, apply_ite Prod.snd]
    rfl
  refine ⟨fun x k hu => (hused x k).trans ?_, fun x => (hused x jti).trans ?_⟩
  · rw [hu, Bool.true_or]
  · rw [decide_eq_true rfl, Bool.or_true]

/-! ## Programs -/

section Programs

variable {α β : Type} {env : Env} {ctx : Ctx} {i : Nat} {v : TxShared} {c : Noted} {t : Token}
  {cl : Claims} {jti : Uuid}

/-- A stretch apart from the durable guard. -/
theorem safeTx_apart {A : TxShared → Prop} {J : Noted → Prop} {p : M α} (hp : Each (Acts apart) p)
    (hst : protocol.Stable i A) (hnote : ∀ c c', J c → Notes apart c c' → J c') (h : A v ∧ J c) :
    protocol.SafeTx txPart .call i (fun _ c' v' => A v' ∧ J c') p c v := by
  refine safeTx_each hp h.1 h.2 hst fun l f c v' hi hA hJ hf _ => ?_
  have hacts := hf (txPart.own c v'.state)
  have hq : protocol.Quiet i (.call l)
      (fun s => txPart.set (txPart.get s) (f (txPart.own c s))) v' := by
    refine quiet_call hi (fun jti => (hacts.label.1 jti).1) rfl ?_
    rcases hacts.signed with hs | ⟨c, hl, -⟩
    · exact hs
    · exact absurd hl (hacts.label.2 c)
  exact ⟨hq.step, hst hA (hq.2 i), hnote c _ hJ ⟨fun x => (hf (txPart.set (c x) v'.state)).db,
    fun x => (hf (txPart.set (c x) v'.state)).latch⟩⟩

/-- What a body has behind it at its end. -/
def Done (t : Token) (i : Nat) (r : Except Err Unit) (c : Noted) (v : TxShared) : Prop :=
  (∀ x ∈ v.hist, closes? x ≠ some i) ∧ Grows c ∧ (r = .ok () → ∃ cl jti,
    v.state.signed[t]? = some cl ∧ cl.id = some jti ∧ Cleared v.hist jti i ∧ Marks jti c)

theorem done_error {e : Err} (h : Running t cl i v ∧ Unmarked c) : Done t i (.error e) c v :=
  ⟨h.1.running, h.2.grows, fun h => by cases h⟩

/-- A stretch in front of the check, and the rest `f` of the body. -/
theorem seq_apart {p : M α} {f : α → M Unit} (hp : Each (Acts apart) p)
    (h : Running t cl i v ∧ Unmarked c)
    (hf : ∀ a c v, Running t cl i v ∧ Unmarked c →
      protocol.SafeTx txPart .call i (Done t i) (f a) c v) :
    protocol.SafeTx txPart .call i (Done t i) (p >>= f) c v := by
  refine safeTx_seq ((safeTx_apart hp (stable_running t cl i) Unmarked.notes h).mono
    fun r c' v' h' => ?_)
  cases r with
  | ok a => exact hf a c' v' h'
  | error e => exact done_error h'

/-- **The check**: whoever passes it has passed it alone, as far as the others committed. -/
theorem safeTx_isUsed (h : Running t cl i v ∧ Unmarked c) :
    protocol.SafeTx txPart .call i
      (fun r c' v' => (Running t cl i v' ∧ Unmarked c') ∧ (r = .ok false → Cleared v'.hist jti i))
      (usedTokensIsUsed jti) c v := by
  unfold usedTokensIsUsed query
  refine safeTx_repo_fault h.1 (stable_running t cl i) fun v' hi hA hok => ?_
  obtain ⟨hended, hpurged⟩ := hok jti rfl
  have hex := executes_fault v'.state
  have hdb : v'.state.fault.2.db = v'.state.db := hex.db
  have hkeeps : ∀ j, Keeps j v' (v'.act i (.call (.isUsed jti)) fun w => w.fault.2) :=
    fun j => keeps_act (by simp [closes?]) hex.signed
  have hrun := stable_running t cl i hA (hkeeps i)
  refine ⟨⟨inv_act hi (fun _ h => hdb ▸ h) fun k j h j' hj hc => ?_, fun j _ => hkeeps j⟩,
    fun _ => ⟨⟨hrun, h.2⟩, fun h => by cases h⟩, fun hf => ⟨⟨hrun, h.2⟩, fun hr => ?_⟩⟩
  · -- the others have ended; a row they left would be on record
    simp only [clears?] at h
    split at h
    · rename_i hcond
      cases h
      simp only [Bool.and_eq_true, decide_eq_true_eq, Bool.not_eq_true'] at hcond
      obtain ⟨⟨rfl, -⟩, hunused⟩ := hcond
      obtain ⟨x, hx, hcx⟩ := hc
      obtain ⟨y, hy, hclose⟩ := hended x hx j' hcx hj
      refine ⟨y, mem_of_before hy, hclose, ?_⟩
      by_contra hu
      rcases hi.stored jti y (mem_of_before hy) (by simpa using hu) with hp | hu
      · exact hpurged hp
      · rw [hunused] at hu
        cases hu
    · cases h
  · refine ⟨_, List.mem_cons_self, ?_⟩
    have hunused : used v'.state.db jti = false := by
      rw [← h.2.used_eq (v'.state.db, v'.state.op)]
      exact Except.ok.inj hr
    simp [clears?, hf, hunused]

/-- **The mark**: its row is noted afterwards, whoever was first. -/
theorem safeTx_markTokenDurable {type : TokenType} {userID : UserID} {exp : Nat}
    (h : (Running t cl i v ∧ Unmarked c) ∧ Cleared v.hist jti i) :
    protocol.SafeTx txPart .call i
      (fun r c' v' => (Running t cl i v' ∧ Cleared v'.hist jti i) ∧ Grows c' ∧
        (r = .ok () → Marks jti c'))
      (markTokenDurable jti type userID exp) c v := by
  have hst := (stable_running t cl i).and (stable_cleared jti i)
  refine safeTx_seq (safeTx_seq (safeTx_attempt ?_))
  refine safeTx_repo_fault ⟨h.1.1, h.2⟩ hst fun v' hi hA _ => ?_
  have hex := executes_fault v'.state
  have hq : protocol.Quiet i (.call (.markUsed jti)) (fun w => w.fault.2) v' :=
    quiet_call hi (by simp) hex.db hex.signed
  have hA' := hst hA (hq.2 i)
  refine ⟨hq.step, fun _ => ?_, fun _ => ?_⟩
  · exact safeTx_fail ⟨hA', h.1.2.grows, fun h => by cases h⟩
  · have hm := h.1.2.after_markUsed jti type userID exp
    split <;> exact safeTx_ret (safeTx_ret ⟨hA', hm.1, fun _ => hm⟩)

theorem safeTx_consumeSingleUseToken {ttl : Nat} (h : Running t cl i v ∧ Unmarked c) :
    protocol.SafeTx txPart .call i
      (fun r c' v' => (Running t cl i v' ∧ Unmarked c') ∧ (r = .ok true → Cleared v'.hist jti i))
      (consumeSingleUseToken jti ttl) c v := by
  refine safeTx_seq ((safeTx_apart (each_storeSetNX apart_quiet.other trivial)
    (stable_running t cl i) Unmarked.notes h).mono fun r c₁ v₁ h₁ => ?_)
  rcases r with e | fresh
  · exact ⟨h₁, fun h => by cases h⟩
  cases fresh with
  | false => exact safeTx_ret ⟨h₁, fun h => by cases h⟩
  | true =>
    refine safeTx_seq (safeTx_attempt ((safeTx_isUsed h₁).mono fun r c₂ v₂ h₂ => ?_))
    rcases r with e | used
    · exact safeTx_ret ⟨h₂.1, fun h => by cases h⟩
    cases used with
    | false => exact safeTx_ret ⟨h₂.1, fun _ => h₂.2 rfl⟩
    | true => exact safeTx_ret ⟨h₂.1, fun h => by cases h⟩

/-- Spending the token, in front of the effect `p`. -/
theorem seq_spendToken {userID : UserID} {p : M Unit} (h : Running t cl i v ∧ Unmarked c)
    (hid : cl.id = some jti) (hp : Each (Acts apart) p) :
    protocol.SafeTx txPart .call i (Done t i) (spendToken cl jti userID >>= fun _ => p) c v := by
  refine safeTx_seq (safeTx_seq ((safeTx_apart (each_getNow apart_quiet.other)
    (stable_running t cl i) Unmarked.notes h).mono fun r c₁ v₁ h₁ => ?_))
  rcases r with e | now
  · exact done_error h₁
  refine safeTx_seq ((safeTx_consumeSingleUseToken h₁).mono fun r c₂ v₂ h₂ => ?_)
  rcases r with e | ok
  · exact done_error h₂.1
  cases ok with
  | false => exact safeTx_seq (safeTx_fail (done_error h₂.1))
  | true =>
    refine (safeTx_markTokenDurable ⟨h₂.1, h₂.2 rfl⟩).mono fun r c₃ v₃ h₃ => ?_
    rcases r with e | _
    · exact ⟨h₃.1.1.running, h₃.2.1, fun h => by cases h⟩
    refine (safeTx_apart hp ((stable_running t cl i).and (stable_cleared jti i)) (Marks.notes jti)
      ⟨h₃.1, h₃.2.2 rfl⟩).mono fun r c' v' h' => ?_
    exact ⟨h'.1.1.running, h'.2.1, fun _ => ⟨cl, jti, h'.1.1.signed, hid, h'.1.2, h'.2⟩⟩

theorem safeTx_resetPasswordWith {pw ip : String} (h : Running t cl i v ∧ Unmarked c)
    (hid : cl.id = some jti) :
    protocol.SafeTx txPart .call i (Done t i) (resetPasswordWith env ctx cl jti pw ip) c v := by
  refine seq_apart (each_usersFindByID apart_quiet) h fun user c₁ v₁ h₁ => ?_
  cases user with
  | none => exact safeTx_fail (done_error h₁)
  | some user =>
    refine seq_apart each_checkNewPassword h₁ fun _ c₂ v₂ h₂ => ?_
    exact seq_spendToken h₂ hid (each_bind (each_hashPassword apart_quiet) fun _ =>
      each_bind
        (each_applyCredentialChange apart_quiet (by simp [apart]) (by simp [apart])) fun _ =>
        each_record apart_quiet)

theorem safeTx_verifyEmailWith (h : Running t cl i v ∧ Unmarked c) (hid : cl.id = some jti) :
    protocol.SafeTx txPart .call i (Done t i) (verifyEmailWith ctx cl jti) c v := by
  refine seq_apart (each_usersFindByID apart_quiet) h fun user c₁ v₁ h₁ => ?_
  cases user with
  | none => exact safeTx_fail (done_error h₁)
  | some user =>
    exact seq_spendToken h₁ hid (each_bind (each_usersUpdate (by simp [apart]) (by simp [apart]))
      fun _ => each_record apart_quiet)

/-- The claims that `Verify` accepts are those of the signed token, in front of the rest `f`. -/
theorem seq_jwtVerifyAs {want : TokenType} {e : Err} {f : Claims → M Unit}
    (h : ∀ x ∈ v.hist, closes? x ≠ some i)
    (hf : ∀ cl v, Running t cl i v → protocol.SafeTx txPart .call i (Done t i) (f cl) opened v) :
    protocol.SafeTx txPart .call i (Done t i) (jwtVerifyAs env t want e >>= f) opened v := by
  have hfail : ∀ {v : TxShared} {e : Err}, (∀ x ∈ v.hist, closes? x ≠ some i) →
      Done t i (.error e) opened v := fun h => ⟨h, fun _ _ h => h, fun h => by cases h⟩
  unfold jwtVerifyAs
  rw [jwtVerify_eq]
  refine safeTx_seq (safeTx_seq (safeTx_attempt (safeTx_atomic h (stable_not_closed i)
    fun v' hi h _ => ?_)))
  have hq : protocol.Quiet i (.call .other)
      (fun s => txPart.set (txPart.get s) (txPart.own opened s))
      v' := quiet_call hi (by simp) rfl rfl
  have h' := stable_not_closed i h (hq.2 i)
  refine ⟨hq.step, ?_⟩
  simp only [thenTx]
  cases hc : (txPart.own opened v'.state).signed[t]? with
  | none => exact safeTx_fail (hfail h')
  | some cl =>
    by_cases hacc : cl.accepted env (txPart.own opened v'.state).now = true
    · simp only [hacc, if_true]
      by_cases hw : cl.type = want
      · rw [if_pos hw]
        exact safeTx_ret (hf cl (v'.act i (.call .other) fun s =>
          txPart.set (txPart.get s) (txPart.own opened s)) ⟨hc, h'⟩)
      · rw [if_neg hw]
        exact safeTx_fail (hfail h')
    · simp only [hacc]
      exact safeTx_fail (hfail h')

/-- What a successful call with the token `t` has behind it. -/
def Spent (t : Token) (i : Nat) (v : TxShared) : Prop :=
  ∃ cl jti, v.state.signed[t]? = some cl ∧ cl.id = some jti ∧ Cleared v.hist jti i ∧
    ¬ Lost v.hist jti i

theorem stable_spent (t : Token) (i : Nat) : protocol.Stable i (Spent t i) := by
  rintro v v' ⟨cl, jti, hc, hid, hclear, hlost⟩ hr
  refine ⟨cl, jti, hr.signed ▸ hc, hid, stable_cleared jti i hclear hr, ?_⟩
  rintro ⟨x, hx, hclose, hu⟩
  exact hlost ⟨x, hr.own x hx hclose, hclose, hu⟩

/-- **The end of a call**: a success has committed the row. -/
theorem safe_close {r : Except Err Unit} (h : Done t i r c v) :
    protocol.Safe i (fun r v' => r = .ok () → Spent t i v')
      (.atomic (.close r.isOk) (closeTx c r)) v := by
  have hst : protocol.Stable i (Done t i r c) := by
    rintro v v' ⟨hrun, hgrows, hdone⟩ hr
    refine ⟨stable_not_closed i hrun hr, hgrows, fun hok => ?_⟩
    obtain ⟨cl, jti, hc, hid, hclear, hm⟩ := hdone hok
    exact ⟨cl, jti, hr.signed ▸ hc, hid, stable_cleared jti i hclear hr, hm⟩
  refine safe_atomic h hst fun v' hi hA _ => ?_
  obtain ⟨hrun, hgrows, hdone⟩ := hA
  have hsigned := closeTx_signed c r v'.state
  refine ⟨⟨inv_act hi (fun jti hu => ?_) (fun _ _ h => by cases h), fun j hj =>
    keeps_act (by simpa [closes?] using Ne.symm hj) hsigned⟩, fun hok => ?_⟩
  · rcases closeTx_cases c r v'.state with ⟨-, hdb, -⟩ | ⟨hdb, -⟩
    · rw [hdb]
      exact hgrows _ jti hu
    · rw [hdb]
      exact hu
  · rcases closeTx_cases c r v'.state with ⟨hr, hdb, -⟩ | ⟨-, e, he⟩
    · obtain ⟨cl, jti, hc, hid, ⟨x, hx, hcx⟩, hm⟩ := hdone (hr.symm.trans hok)
      refine ⟨cl, jti, hsigned.symm ▸ hc, hid, ⟨x, List.mem_cons_of_mem _ hx, hcx⟩, ?_⟩
      rintro ⟨y, hy, hclose, hu⟩
      rcases List.mem_cons.1 hy with rfl | hy
      · rw [Ev.post, hdb, hm.2] at hu
        cases hu
      · exact hrun y hy hclose
    · rw [he] at hok
      cases hok

end Programs

/-! ## The pool -/

/-- A call with a mailed token. -/
inductive Job : Type where
  | resetPassword (ctx : Ctx) (token : Token) (newPassword ip : String)
  | verifyEmail (ctx : Ctx) (token : Token)

def Job.token : Job → Token
  | .resetPassword _ t _ _ => t
  | .verifyEmail _ t => t

/-- `ResetPassword` and `VerifyEmail`, each body in its own transaction. -/
def code (env : Env) : Job → Prog World TxCall Err Unit
  | .resetPassword ctx t pw ip => auditTx (resetPasswordAudited env ctx t pw ip)
  | .verifyEmail ctx t => auditTx (verifyEmailAudited env ctx t)

theorem safe_code (env : Env) {i : Nat} (j : Job) {v : TxShared}
    (h : ∀ x ∈ v.hist, closes? x ≠ some i) :
    protocol.Safe i (fun r v' => r = .ok () → Spent j.token i v') (code env j) v := by
  have hopened : Unmarked opened := fun _ => rfl
  cases j with
  | resetPassword =>
    refine safe_auditTx ((seq_jwtVerifyAs h fun cl v₁ h₁ => ?_).mono fun r c v' => safe_close)
    cases hid : cl.id with
    | none => exact safeTx_fail (done_error ⟨h₁, hopened⟩)
    | some jti => exact safeTx_resetPasswordWith ⟨h₁, hopened⟩ hid
  | verifyEmail =>
    refine safe_auditTx ((seq_jwtVerifyAs h fun cl v₁ h₁ => ?_).mono fun r c v' => safe_close)
    cases hid : cl.id with
    | none => exact safeTx_fail (done_error ⟨h₁, hopened⟩)
    | some jti => exact safeTx_verifyEmailWith ⟨h₁, hopened⟩ hid

/-- The clean-up job is the only outside change that takes a row away, and it is on record. -/
theorem env_keeps (e : Outside) (v : TxShared) (hi : Inv v) :
    Inv (v.env e e.apply) ∧ ∀ i, Keeps i v (v.env e e.apply) := by
  have hcleared : ∀ {jti i}, Cleared (v.env e e.apply).hist jti i → Cleared v.hist jti i := by
    rintro jti i ⟨x, hx, hc⟩
    rcases List.mem_cons.1 hx with rfl | hx
    · cases hc
    · exact ⟨x, hx, hc⟩
  have hlost : ∀ {jti i}, Lost v.hist jti i → Lost (v.env e e.apply).hist jti i :=
    fun ⟨x, hx, hm⟩ => ⟨x, List.mem_cons_of_mem _ hx, hm⟩
  refine ⟨⟨fun jti x hx hu => ?_, fun jti i j hij hci hcj => ?_⟩, fun i =>
    ⟨List.suffix_cons _ _, fun x hx hg => ?_, by cases e <;> rfl⟩⟩
  · rcases List.mem_cons.1 hx with rfl | hx
    · exact .inr hu
    rcases hi.stored jti x hx hu with ⟨y, hy, hp⟩ | hu
    · exact .inl ⟨y, List.mem_cons_of_mem _ hy, hp⟩
    · by_cases hafter : used (e.apply v.state).db jti = true
      · exact .inr hafter
      · refine .inl ⟨_, List.mem_cons_self, ?_⟩
        cases e with
        | tick ms => exact absurd hu hafter
        | loseKey k => exact absurd hu hafter
        | purgeUsedTokens => simpa [purges, hu] using hafter
  · exact (hi.once jti i j hij (hcleared hci) (hcleared hcj)).imp hlost hlost
  · rcases List.mem_cons.1 hx with rfl | hx
    · cases hg
    · exact hx

theorem sound (env : Env) : protocol.Sound (code env) Outside.apply
    fun i j _ r v => r = .ok () → Spent j.token i v where
  env e v hi _ := env_keeps e v hi
  start i j v _ hnew := by
    refine safe_code env j fun x hx hg => hnew x hx ?_
    unfold closes? at hg
    split at hg
    · exact hg
    · cases hg
  stable i j _ r := by
    intro v v' h hr hok
    exact stable_spent j.token i (h hok) hr

/-- A pool of such calls. -/
abbrev Calls := Pool World TxCall Outside Err Unit Job

/-- The pool after the moves `ms` from the state `w`. -/
def run (env : Env) (w : World) (ms : List (Move Outside Job)) : Calls :=
  (Pool.init w : Calls).exec (code env) Outside.apply ms

/-- Call `i` was made with the token `t` and has returned success. -/
def Succeeded (c : Calls) (t : Token) (i : Nat) : Prop :=
  ∃ th, c.threads[i]? = some th ∧ th.job.token = t ∧ th.prog = .ret ()

/-- **A mailed token works once**, in every run in which a call checks the token only when every
other call that passed the check had committed or rolled back before this one began, and no row of
the token was cleaned away. -/
theorem single_use (env : Env) (w : World) (ms : List (Move Outside Job))
    (h : protocol.Admits (code env) Outside.apply (Pool.init w : Calls) ms) {t : Token} {i j : Nat}
    (hi : Succeeded (run env w ms) t i) (hj : Succeeded (run env w ms) t j) : i = j := by
  have hinit : protocol.inv ⟨w, []⟩ :=
    ⟨fun _ x hx _ => (by cases hx), fun _ _ _ _ ⟨x, hx, _⟩ => by cases hx⟩
  have hgood := exec_good (sound env) ms (good_init hinit) h
  have hspent : ∀ {k}, Succeeded (run env w ms) t k → Spent t k (run env w ms).view := by
    rintro k ⟨th, hth, rfl, hp⟩
    exact hgood.returned hth hp rfl
  obtain ⟨c, jti, hc, hid, hpi⟩ := hspent hi
  obtain ⟨c', jti', hc', hid', hpj⟩ := hspent hj
  obtain rfl := Option.some.inj (hc.symm.trans hc')
  obtain rfl := Option.some.inj (hid.symm.trans hid')
  by_contra hij
  rcases hgood.inv.once jti i j hij hpi.1 hpj.1 with hf | hf
  · exact hpi.2 hf
  · exact hpj.2 hf

/-! ## Two calls with one token -/

instance (c : Calls) (t : Token) (i : Nat) : Decidable (Succeeded c t i) :=
  match h : c.threads[i]? with
  | some ⟨j, st, .ret ()⟩ =>
    if hj : j.token = t then .isTrue ⟨_, h, hj, rfl⟩
    else .isFalse fun ⟨th, hth, ht, _⟩ => by
      rw [h] at hth
      cases hth
      exact hj ht
  | some ⟨j, st, .fail e⟩ => .isFalse fun ⟨th, hth, _, hp⟩ => by
      rw [h] at hth
      cases hth
      cases hp
  | some ⟨j, st, .act l f k⟩ => .isFalse fun ⟨th, hth, _, hp⟩ => by
      rw [h] at hth
      cases hth
      cases hp
  | none => .isFalse fun ⟨th, hth, _, _⟩ => by
      rw [h] at hth
      cases hth

/-- A reset token for `jose`, valid for 900 seconds, is out; its `jti` is 50. -/
def mailedWorld : World :=
  { World.sample with signed := [
      { id := some 50, userID := 1, role := roleUser, email := "jose@x.io", type := .reset,
        tenantID := defaultTenantID, issuedAt := 1000, notBefore := 1000, expiresAt := 1900,
        sid := none, pwdVer := 0, authEpoch := 0, permissions := [] }] }

/-- `ResetPassword` with that token. -/
def resetJob : Job := .resetPassword .sample 0 "password2" "ip"

/-- One call after the other: the second one is refused. -/
def inTurn : List (Move Outside Job) :=
  .spawn resetJob :: List.replicate 12 (.sched 0) ++
    .env (.loseKey (.jti 50)) :: .spawn resetJob :: List.replicate 12 (.sched 1)

instance (i : Nat) (l : TxCall) (v : TxShared) : Decidable (protocol.ok i l v) :=
  inferInstanceAs (Decidable (∀ jti ∈ checks? l, Undisturbed v.hist jti i))

instance (e : Outside) (v : TxShared) : Decidable (protocol.okEnv e v) := .isTrue trivial

/-- In that run the first call succeeds, and it is the only one although the store lost its key. -/
theorem single_use_inTurn : Succeeded (run (.plain .sample) mailedWorld inTurn) 0 0 ∧
    ∀ j, Succeeded (run (.plain .sample) mailedWorld inTurn) 0 j → j = 0 := by
  have hadm : protocol.Admits (code (.plain .sample)) Outside.apply
      (Pool.init mailedWorld : Calls) inTurn := by decide +kernel
  have h0 : Succeeded (run (.plain .sample) mailedWorld inTurn) 0 0 := by decide +kernel
  exact ⟨h0, fun j hj => single_use (.plain .sample) mailedWorld inTurn hadm hj h0⟩

/-- Both calls pass the check before either marks: the store lost the key in between. -/
def race : List (Move Outside Job) :=
  .spawn resetJob :: .spawn resetJob :: List.replicate 5 (.sched 0) ++
    .env (.loseKey (.jti 50)) :: List.replicate 12 (.sched 1) ++ List.replicate 12 (.sched 0)

/-- The second call passes the check when the first has marked and not yet committed. -/
def uncommitted : List (Move Outside Job) :=
  .spawn resetJob :: .spawn resetJob :: List.replicate 6 (.sched 0) ++
    .env (.loseKey (.jti 50)) :: List.replicate 5 (.sched 1) ++ List.replicate 12 (.sched 0) ++
      List.replicate 12 (.sched 1)

/-- The row is cleaned away at the expiry of the token, which is accepted for 30 seconds more. -/
def purgedInSkew : List (Move Outside Job) :=
  .spawn resetJob :: List.replicate 12 (.sched 0) ++
    .env (.tick 900001) :: .env .purgeUsedTokens :: .env (.loseKey (.jti 50)) ::
      .spawn resetJob :: List.replicate 12 (.sched 1)

/-- Both calls return success. -/
def TwoSucceed (ms : List (Move Outside Job)) : Prop :=
  Succeeded (run (.plain .sample) mailedWorld ms) 0 0 ∧
    Succeeded (run (.plain .sample) mailedWorld ms) 0 1

/-- **A token that works twice**: in a race, before a commit, and after the clean-up job. -/
theorem used_twice : TwoSucceed race ∧ TwoSucceed uncommitted ∧ TwoSucceed purgedInSkew := by
  unfold TwoSucceed
  decide +kernel

end FinnAuth.SingleUse
