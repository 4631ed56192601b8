import FinnAuth.Authority
import FinnAuth.Concurrent
import FinnAuth.Footprint.Login

/-!
# Password changes and the logins they should end

Any number of `Login`, `CompleteMFALogin`, `ChangePassword` and `ResetPassword` calls run side by
side. A login proves the password once, by one comparison with a row it has read; a pair that rests
on it carries the password version of a row, and `Authority.Check` compares that version with the
live one. `Login` takes the version from the row it compared with. `CompleteMFALogin` takes it from
a row it reads later, and the `mfa_pending` token in between carries none.

Results:
* **`old_password_ends`**: if no `CompleteMFALogin` reads its user after a password change that came
  after the comparison of the `Login` behind its token, no pair that rests on an old password passes
  the check;
* **`old_password_survives`**: without that condition such a pair passes.
-/

namespace FinnAuth

open Lib Prog Protocol

namespace PasswordChange

/-! ## Reading the history -/

variable {x : Ev World Call Outside} {w w' : World} {h : History} {v : Shared} {uid : UserID}
  {i j : Nat} {t : Token} {p : Nat × UserID}

/-- The call that compared a password in this entry, and the user it compared with. -/
def compares? : Ev World Call Outside → Option (Nat × UserID)
  | .act i (.comparePassword u) _ _ => some (i, u.id)
  | _ => none

/-- The user whose password was changed in this entry. -/
def changes? : Ev World Call Outside → Option UserID
  | .act _ (.credentialChange id _) pre post =>
    if pre.db.pwdVersion id < post.db.pwdVersion id then some id else none
  | _ => none

/-- The call that got the `mfa_pending` token `t` signed in this entry. -/
def mints? (t : Token) : Ev World Call Outside → Option Nat
  | .act i (.sign c) pre _ =>
    if c.type = .mfaPending && pre.signed.length = t then some i else none
  | _ => none

/-- The call that read a user row in this entry, and which. -/
def reads? : Ev World Call Outside → Option (Nat × UserID)
  | .act i (.findUser id) _ _ => some (i, id)
  | _ => none

/-- The states before and after an entry. -/
def pre : Ev World Call Outside → World
  | .act _ _ p _ => p
  | .env _ p _ => p

def post : Ev World Call Outside → World
  | .act _ _ _ p => p
  | .env _ _ p => p

/-- Call `j` compared a password with a row of the user, and the password was changed later. -/
def Stale (j : Nat) (uid : UserID) : History → Prop
  | [] => False
  | y :: h => (changes? y = some uid ∧ ∃ x ∈ h, compares? x = some (j, uid)) ∨ Stale j uid h

instance decidableStale (j : Nat) (uid : UserID) : (h : History) → Decidable (Stale j uid h)
  | [] => .isFalse id
  | y :: h =>
    have := decidableStale j uid h
    inferInstanceAs (Decidable ((changes? y = some uid ∧ ∃ x ∈ h, compares? x = some (j, uid)) ∨
      Stale j uid h))

theorem stale_iff : Stale j uid h ↔ ∃ y h', (y :: h') <:+ h ∧ changes? y = some uid ∧
      ∃ x ∈ h', compares? x = some (j, uid) := by
  induction h with
  | nil => simp [Stale]
  | cons z h ih =>
    constructor
    · rintro (⟨hy, hx⟩ | hs)
      · exact ⟨z, h, List.suffix_refl _, hy, hx⟩
      · obtain ⟨y, h', hsuf, hy, hx⟩ := ih.1 hs
        exact ⟨y, h', hsuf.trans (List.suffix_cons _ _), hy, hx⟩
    · rintro ⟨y, h', hsuf, hy, hx⟩
      rcases List.suffix_cons_iff.1 hsuf with heq | hsuf
      · cases heq
        exact .inl ⟨hy, hx⟩
      · exact .inr (ih.2 ⟨y, h', hsuf, hy, hx⟩)

/-! ## The protocol -/

/-- Password versions and the number of signed tokens only grow. -/
structure Grows (w w' : World) : Prop where
  version : ∀ id, w.db.pwdVersion id ≤ w'.db.pwdVersion id
  signed : w.signed <+: w'.signed

theorem Grows.refl (w : World) : Grows w w := ⟨fun _ => Nat.le_refl _, List.prefix_refl _⟩

theorem Grows.trans {w w' w'' : World} (h : Grows w w') (h' : Grows w' w'') : Grows w w'' :=
  ⟨fun id => Nat.le_trans (h.version id) (h'.version id), h.signed.trans h'.signed⟩

theorem grows_of_acts {F : Footprint} {l : Call} (h : Acts F l w w') : Grows w w' := by
  refine ⟨h.pwdVersion, ?_⟩
  rcases h.signed with hs | ⟨c, -, hs⟩
  · exact hs ▸ List.prefix_refl _
  · exact hs ▸ List.prefix_append _ _

theorem grows_of_executes {o : Option Stmt} (h : Executes o w w') : Grows w w' := by
  refine ⟨fun id => ?_, ?_⟩
  · rw [h.db]
    exact pwdVersion_execOpt _ _ id
  · exact h.signed ▸ List.prefix_refl _

/-- The history is in order: every entry, every pair of entries and the present. -/
structure Inv (v : Shared) : Prop where
  entry : ∀ x ∈ v.hist, Grows (pre x) (post x)
  order : v.hist.Pairwise fun y x => Grows (post x) (pre y)
  present : ∀ x ∈ v.hist, Grows (post x) v.state

/-- More history, with no new comparison of call `i`. -/
structure Keeps (i : Nat) (v v' : Shared) : Prop where
  hist : v.hist <:+ v'.hist
  own : ∀ x ∈ v'.hist, ∀ uid, compares? x = some (i, uid) → x ∈ v.hist
  grows : Grows v.state v'.state

def protocol : Protocol World Call Outside where
  inv := Inv
  rely := Keeps
  ok _ _ _ := True
  okEnv _ _ := True
  rely_refl _ _ := ⟨List.suffix_refl _, fun _ h _ _ => h, .refl _⟩
  rely_trans _ _ _ _ h h' :=
    ⟨h.hist.trans h'.hist, fun x hx uid hc => h.own x (h'.own x hx uid hc) uid hc,
      h.grows.trans h'.grows⟩

/-! ## Steps -/

section Step

variable {v : Shared} {i : Nat} {l : Call} {g : World → World}

theorem inv_push (hi : Inv v) (hpre : pre x = v.state) (hpost : post x = w) (hg : Grows v.state w) :
    Inv ⟨w, x :: v.hist⟩ := by
  refine ⟨?_, List.pairwise_cons.2 ⟨?_, hi.order⟩, ?_⟩
  · rw [List.forall_mem_cons, hpre, hpost]
    exact ⟨hg, hi.entry⟩
  · intro y hy
    rw [hpre]
    exact hi.present y hy
  · rw [List.forall_mem_cons, hpost]
    exact ⟨.refl _, fun y hy => (hi.present y hy).trans hg⟩

theorem inv_act (hi : Inv v) (hg : Grows v.state (g v.state)) : Inv (v.act i l g) :=
  inv_push hi rfl rfl hg

theorem keeps_act (hc : ∀ uid, compares? (.act i l v.state (g v.state)) ≠ some (j, uid))
    (hg : Grows v.state (g v.state)) : Keeps j v (v.act i l g) := by
  refine ⟨List.suffix_cons _ _, fun x hx uid hcx => ?_, hg⟩
  rcases List.mem_cons.1 hx with rfl | hx
  · exact absurd hcx (hc uid)
  · exact hx

theorem compares_ne {p q : World} (h : j ≠ i) (uid : UserID) :
    compares? (.act i l p q) ≠ some (j, uid) := by
  unfold compares?
  split
  · rename_i heq
    cases heq
    exact fun hh => h (by cases hh; rfl)
  · exact fun hh => by cases hh

/-- Every action keeps the history in order. -/
theorem step_of_grows (hi : Inv v) (hg : Grows v.state (g v.state)) :
    protocol.Step i v (v.act i l g) :=
  ⟨inv_act hi hg, fun _ hj => keeps_act (compares_ne hj) hg⟩

/-- An action that compares no password. -/
theorem quiet_of_grows (hi : Inv v) (hl : ∀ u, l ≠ .comparePassword u)
    (hg : Grows v.state (g v.state)) : protocol.Quiet i l g v := by
  refine ⟨inv_act hi hg, fun j => keeps_act (fun uid => ?_) hg⟩
  unfold compares?
  split
  · rename_i heq
    cases heq
    exact absurd rfl (hl _)
  · exact fun hh => by cases hh

end Step

/-! ## Programs -/

section Programs

variable {α β : Type} {env : Env} {ctx : Ctx} {user : User} {i : Nat} {v : Shared}
  {A : Shared → Prop} {ip ua : String} {sid : Uuid} {perms : List String}

/-- Everything but the comparison of a password. -/
def silent : Footprint where
  label l := ∀ u, l ≠ .comparePassword u
  stmt _ := True
  mail _ := True
  key _ := True

theorem silent_quiet : silent.Quiet where
  other := by simp [silent]
  site _ := by simp [silent]
  findUser _ := by simp [silent]
  key _ _ := trivial
  audit _ := trivial
  mail _ _ := trivial

theorem silent_issues (user : User) : silent.Issues user where
  sign _ _ _ _ := by simp [silent]
  sessionCreate _ := by simp [silent]
  tokenCreate _ _ := by simp [silent]
  touchSession _ _ _ _ _ _ _ := trivial
  insertSession _ _ := trivial
  insertToken _ _ := trivial
  loginAlert _ _ _ := trivial

theorem silent_factors : silent.Factors :=
  ⟨fun _ => trivial, fun _ => trivial, fun _ => trivial, fun _ _ => trivial, fun _ _ => trivial⟩

theorem safe_silent {p : M α} (hp : Each (Acts silent) p) (hst : protocol.Stable i A) (hA : A v) :
    protocol.Safe i (fun _ v' => A v') p v :=
  safe_quiet hp hA hst fun _ _ _ hi h _ => quiet_of_grows hi h.label (grows_of_acts h)

/-- A stretch without a comparison, in front of the rest `f`. -/
theorem seq_silent {p : M α} {f : α → M β} {Q : Except Err β → Shared → Prop}
    (hp : Each (Acts silent) p) (hst : protocol.Stable i A) (hA : A v)
    (herr : ∀ e v', A v' → Q (.error e) v')
    (hf : ∀ a v', A v' → protocol.Safe i Q (f a) v') : protocol.Safe i Q (p >>= f) v := by
  refine safe_seq ((safe_silent hp hst hA).mono fun r v' hA => ?_)
  cases r with
  | ok a => exact hf a v' hA
  | error e => exact herr e v' hA

/-- A query without a comparison: what it says of the database it reads stays with the entry. -/
theorem safe_query {l : Call} {f : DB → α} {Q : Except Err α → Shared → Prop}
    (hl : ∀ u, l ≠ .comparePassword u) (hst : protocol.Stable i A) (hA : A v)
    (herr : ∀ v', A v' → Q (.error .db) v')
    (hok : ∀ u w, A u → Grows u.state w → w.db = u.state.db →
      A ⟨w, .act i l u.state w :: u.hist⟩ →
        Q (.ok (f u.state.db)) ⟨w, .act i l u.state w :: u.hist⟩) :
    protocol.Safe i Q (query l f) v := by
  refine safe_repo hA hst fun u r o g hi hu _ hro hex => ?_
  have hq : protocol.Quiet i l g u := quiet_of_grows hi hl (grows_of_executes hex)
  have hA' : A (u.act i l g) := hst hu (hq.2 i)
  refine ⟨hq.step, ?_⟩
  rcases hro with ⟨rfl, -⟩ | hro
  · exact herr _ hA'
  · cases hro
    exact hok u (g u.state) hu (grows_of_executes hex) hex.db hA'

/-! ### Pairs -/

/-- The token `t` was signed for the user with the version of the row `user`. -/
def Signed (user : User) (t : Token) (v : Shared) : Prop :=
  ∃ c, v.state.signed[t]? = some c ∧ c.userID = user.id ∧ c.pwdVer = user.pwdVersion

theorem getElem_of_grows {c : Claims} (h : Grows w w') (hc : w.signed[t]? = some c) :
    w'.signed[t]? = some c := by
  obtain ⟨cs, hcs⟩ := h.signed
  rw [← hcs, List.getElem?_append_left (List.getElem?_eq_some_iff.1 hc).1]
  exact hc

theorem stable_signed (i : Nat) (user : User) (t : Token) :
    protocol.Stable i (Signed user t) := by
  rintro v v' ⟨c, hc, h⟩ hr
  exact ⟨c, getElem_of_grows hr.grows hc, h⟩

theorem safe_sign {c : Claims} (hst : protocol.Stable i A) (hA : A v) :
    protocol.Safe i (fun r v' => A v' ∧ ∀ t, r = .ok t → v'.state.signed[t]? = some c)
      (sign c) v := by
  refine safe_atomic hA hst fun v' hi hA _ => ?_
  have hg : Grows v'.state { v'.state with signed := v'.state.signed ++ [c] } :=
    ⟨fun _ => Nat.le_refl _, List.prefix_append _ _⟩
  have hq : protocol.Quiet i (.sign c)
      (fun w => { w with signed := w.signed ++ [c] }) v' := quiet_of_grows hi (by simp) hg
  refine ⟨hq.step, hst hA (hq.2 i), fun t ht => ?_⟩
  cases ht
  simp [View.act]

theorem safe_jwtIssueAccessV1 {ttl : Nat} {tid : String} (hst : protocol.Stable i A) (hA : A v) :
    protocol.Safe i (fun r v' => A v' ∧ ∀ t, r = .ok t → Signed user t v')
      (jwtIssueAccessV1 user ttl sid tid perms) v := by
  have herr : ∀ (e : Err) (v' : Shared), A v' →
      A v' ∧ ∀ t, (.error e : Except Err Token) = .ok t → Signed user t v' :=
    fun _ _ h => ⟨h, fun _ h => by cases h⟩
  refine seq_silent (each_refuse _ _) hst hA herr fun _ v₁ h₁ => ?_
  refine seq_silent (each_getNow silent_quiet.other) hst h₁ herr fun now v₂ h₂ => ?_
  refine seq_silent (each_draw silent_quiet.other) hst h₂ herr fun jti v₃ h₃ => ?_
  exact (safe_sign hst h₃).mono fun r v' h => ⟨h.1, fun t ht => ⟨_, h.2 t ht, rfl, rfl⟩⟩

theorem safe_issueAccess (hst : protocol.Stable i A) (hA : A v) :
    protocol.Safe i (fun r v' => A v' ∧ ∀ t, r = .ok t → Signed user t v')
      (issueAccess env ctx user sid perms) v := by
  refine safe_seq ((safe_jwtIssueAccessV1 hst hA).mono fun r v₁ h₁ => ?_)
  cases r with
  | error e => exact ⟨h₁.1, fun _ h => by cases h⟩
  | ok access =>
    have hst' := hst.and (stable_signed i user access)
    refine seq_silent (each_jwtVerify silent_quiet) hst' ⟨h₁.1, h₁.2 access rfl⟩
      (fun e v' h => ⟨h.1, fun _ h => by cases h⟩) fun claims v₂ h₂ => ?_
    refine seq_silent (each_attempt (each_accessState silent_quiet)) hst' h₂
      (fun e v' h => ⟨h.1, fun _ h => by cases h⟩) fun r v₃ h₃ => ?_
    cases r with
    | ok _ => exact ⟨h₃.1, fun t ht => by cases ht; exact h₃.2⟩
    | error e =>
      simp only
      split <;> exact ⟨h₃.1, fun _ h => by cases h⟩

theorem safe_issueRefresh {access : Token} (hst : protocol.Stable i A) (hA : A v) :
    protocol.Safe i (fun r v' => A v' ∧ ∀ pair, r = .ok pair → pair.accessToken = access)
      (issueRefresh env ctx user ip ua sid access) v := by
  have herr : ∀ (e : Err) (v' : Shared), A v' →
      A v' ∧ ∀ pair, (.error e : Except Err TokenPair) = .ok pair → pair.accessToken = access :=
    fun _ _ h => ⟨h, fun _ h => by cases h⟩
  have hissues := silent_issues user
  refine seq_silent (each_draw silent_quiet.other) hst hA herr fun plain v₁ h₁ => ?_
  refine seq_silent (each_draw silent_quiet.other) hst h₁ herr fun row v₂ h₂ => ?_
  refine seq_silent (each_getNow silent_quiet.other) hst h₂ herr fun now v₃ h₃ => ?_
  refine seq_silent (each_tokensCreate (hissues.tokenCreate _ _) (hissues.insertToken _ rfl)) hst h₃
    herr fun _ v₄ h₄ => ?_
  exact ⟨h₄, fun pair h => by cases h; rfl⟩

/-- **A pair carries the version of the row it was issued for.** -/
theorem safe_issueTokenPair {reuse : Option Uuid} (hst : protocol.Stable i A) (hA : A v) :
    protocol.Safe i (fun r v' => A v' ∧ ∀ pair, r = .ok pair → Signed user pair.accessToken v')
      (issueTokenPair env ctx user ip ua reuse) v := by
  have herr : ∀ (e : Err) (v' : Shared), A v' →
      A v' ∧ ∀ pair, (.error e : Except Err TokenPair) = .ok pair →
        Signed user pair.accessToken v' :=
    fun _ _ h => ⟨h, fun _ h => by cases h⟩
  have hissues := silent_issues user
  refine seq_silent (each_refuse _ _) hst hA herr fun _ v₁ h₁ => ?_
  refine seq_silent (each_refuse _ _) hst h₁ herr fun _ v₂ h₂ => ?_
  refine seq_silent (each_bind (each_attempt (each_query silent_quiet.other)) fun r => ?_) hst h₂
    herr fun perms v₃ h₃ => ?_
  · cases r <;> trivial
  refine seq_silent (each_issueSession silent_quiet hissues) hst h₃ herr fun sid v₄ h₄ => ?_
  refine safe_seq ((safe_issueAccess hst h₄).mono fun r v₅ h₅ => ?_)
  cases r with
  | error e => exact herr e v₅ h₅.1
  | ok access =>
    have hst' := hst.and (stable_signed i user access)
    refine safe_seq ((safe_issueRefresh hst' ⟨h₅.1, h₅.2 access rfl⟩).mono fun r v₆ h₆ => ?_)
    cases r with
    | error e => exact herr e v₆ h₆.1.1
    | ok pair =>
      obtain rfl := h₆.2 pair rfl
      refine seq_silent (each_maybeNotifyNewIPLogin silent_quiet hissues.loginAlert) hst' h₆.1
        (fun e v' h => herr e v' h.1) fun _ v₇ h₇ => ?_
      exact ⟨h₇.1, fun p h => by cases h; exact h₇.2⟩

/-! ### Login -/

/-- Call `i` has compared passwords only with rows that `P` holds of, at the time. -/
def Compared (i : Nat) (P : UserID → World → Prop) (v : Shared) : Prop :=
  ∀ x ∈ v.hist, ∀ uid, compares? x = some (i, uid) → P uid (pre x)

theorem stable_compared (i : Nat) (P : UserID → World → Prop) :
    protocol.Stable i (Compared i P) :=
  fun _ _ h hr x hx uid hc => h x (hr.own x hx uid hc) uid hc

/-- The row is not newer than the state. -/
def Dated (user : User) (w : World) : Prop := user.pwdVersion ≤ w.db.pwdVersion user.id

theorem stable_dated (i : Nat) (user : User) :
    protocol.Stable i fun v => Dated user v.state :=
  fun _ _ h hr => Nat.le_trans h (hr.grows.version user.id)

/-- What a `Login` that returned `pair` has behind it: the version in the pair is not newer than
any comparison the call made. -/
def LoggedIn (i : Nat) (pair : TokenPair) (v : Shared) : Prop :=
  ∃ c, v.state.signed[pair.accessToken]? = some c ∧
    Compared i (fun uid w => uid = c.userID → c.pwdVer ≤ w.db.pwdVersion uid) v

theorem stable_loggedIn (i : Nat) (pair : TokenPair) : protocol.Stable i (LoggedIn i pair) := by
  rintro v v' ⟨c, hc, h⟩ hr
  exact ⟨c, getElem_of_grows hr.grows hc, stable_compared i _ h hr⟩

theorem dated_of_userByEmail {email : String} (h : w.db.userByEmail env ctx email = some user) :
    Dated user w := by
  have hget : w.db.users.get? user.id = some user :=
    (Table.get?_eq_some_iff _).2 ⟨(Table.mem_of_first? h).1, rfl⟩
  exact Nat.le_of_eq (by rw [DB.pwdVersion, hget]; rfl)

/-- The second half of a login: no comparison any more. -/
theorem safe_checkMFAOrIssueTokens {detail : String}
    (hA : Compared i (fun uid w => uid = user.id ∧ Dated user w) v) :
    protocol.Safe i (fun r v' => ∀ pair profile, r = .ok (.pair pair profile) → LoggedIn i pair v')
      (checkMFAOrIssueTokensAudited env ctx user ip ua detail) v := by
  have hst := stable_compared i fun uid w => uid = user.id ∧ Dated user w
  refine seq_silent (each_refuse _ _) hst hA (fun _ _ _ _ _ h => by cases h) fun _ v₁ h₁ => ?_
  refine seq_silent (each_wrap (each_totpFindByUserID silent_quiet)) hst h₁
    (fun _ _ _ _ _ h => by cases h) fun device v₂ h₂ => ?_
  split
  · refine seq_silent (each_jwtIssue silent_quiet fun _ _ _ => by simp [silent]) hst h₂
      (fun _ _ _ _ _ h => by cases h) fun t v₃ h₃ => ?_
    exact seq_silent (each_record silent_quiet) hst h₃ (fun _ _ _ _ _ h => by cases h)
      fun _ _ _ _ _ h => by cases h
  · refine safe_seq ((safe_issueTokenPair hst h₂).mono fun r v₃ h₃ => ?_)
    cases r with
    | error e => exact fun _ _ h => by cases h
    | ok pair =>
      refine seq_silent (each_record silent_quiet)
        (hst.and (stable_signed i user pair.accessToken)) ⟨h₃.1, h₃.2 pair rfl⟩
        (fun _ _ _ _ _ h => by cases h) fun _ v₄ h₄ => ?_
      intro p profile h
      cases h
      obtain ⟨hcmp, c, hc, huid, hver⟩ := h₄
      refine ⟨c, hc, fun x hx uid hcx heq => ?_⟩
      obtain ⟨rfl, hd⟩ := hcmp x hx uid hcx
      rw [hver]
      exact hd

/-- The one comparison of a login, with a row read before. -/
theorem safe_comparePassword {password : String}
    (hA : Compared i (fun _ _ => False) v ∧ Dated user v.state) :
    protocol.Safe i (fun _ v' => Compared i (fun uid w => uid = user.id ∧ Dated user w) v')
      (comparePassword env user password) v := by
  refine safe_atomic hA ((stable_compared i _).and (stable_dated i user)) fun v' hi hA _ => ?_
  refine ⟨step_of_grows hi (.refl _), fun x hx uid hc => ?_⟩
  rcases List.mem_cons.1 hx with rfl | hx
  · cases hc
    exact ⟨rfl, hA.2⟩
  · exact (hA.1 x hx uid hc).elim

/-- **A login's pair is as old as the row its password was compared with.** -/
theorem safe_login {email password captcha : String} (hA : Compared i (fun _ _ => False) v) :
    protocol.Safe i (fun r v' => ∀ pair profile, r = .ok (.pair pair profile) → LoggedIn i pair v')
      (loginAudited env ctx email password captcha ip ua) v := by
  have hst := stable_compared i fun _ _ => False
  refine seq_silent (each_loginLimits silent_quiet) hst hA (fun _ _ _ _ _ h => by cases h)
    fun _ v₁ h₁ => ?_
  refine safe_seq (safe_wrap (safe_query (by simp) hst h₁ (fun _ _ _ _ h => by cases h)
    fun u w hu hg hdb hA' => ?_))
  cases hfound : u.state.db.userByEmail env ctx (env.normalize email) with
  | none =>
    refine seq_silent (each_recordLoginFailIP silent_quiet) hst hA' (fun _ _ _ _ _ h => by cases h)
      fun _ v₂ h₂ => ?_
    refine seq_silent (each_recordLoginFailAccount silent_quiet) hst h₂
      (fun _ _ _ _ _ h => by cases h) fun _ v₃ h₃ => ?_
    exact seq_silent (each_record silent_quiet) hst h₃ (fun _ _ _ _ _ h => by cases h)
      fun _ _ _ _ _ h => by cases h
  | some user =>
    have hdated : Dated user w :=
      Nat.le_trans (dated_of_userByEmail hfound) (hg.version user.id)
    refine seq_silent (each_loginGates silent_quiet) (hst.and (stable_dated i user))
      ⟨hA', hdated⟩ (fun _ _ _ _ _ h => by cases h) fun _ v₂ h₂ => ?_
    refine safe_seq ((safe_comparePassword h₂).mono fun r v₃ h₃ => ?_)
    have hst' := stable_compared i fun uid w => uid = user.id ∧ Dated user w
    cases r with
    | error e => exact fun _ _ h => by cases h
    | ok ok =>
      refine seq_silent (each_refuseAfter (each_recordFailedLogin silent_quiet fun _ => trivial))
        hst' h₃ (fun _ _ _ _ _ h => by cases h) fun _ v₄ h₄ => ?_
      refine seq_silent (each_usersUpdate silent_quiet.other trivial) hst' h₄
        (fun _ _ _ _ _ h => by cases h) fun _ v₅ h₅ => ?_
      refine seq_silent (each_storeDelete silent_quiet.other trivial) hst' h₅
        (fun _ _ _ _ _ h => by cases h) fun _ v₆ h₆ => ?_
      exact safe_checkMFAOrIssueTokens h₆

/-! ### The second factor -/

/-- What a `CompleteMFALogin` with the token `t` that returned `pair` has behind it: the version in
the pair is that of a read the call made once the token was there. -/
def Completed (i : Nat) (t : Token) (pair : TokenPair) (v : Shared) : Prop :=
  ∃ c, v.state.signed[pair.accessToken]? = some c ∧
    ∃ x ∈ v.hist, reads? x = some (i, c.userID) ∧
      c.pwdVer ≤ (pre x).db.pwdVersion c.userID ∧ t < (pre x).signed.length

theorem stable_completed (i : Nat) (t : Token) (pair : TokenPair) :
    protocol.Stable i (Completed i t pair) := by
  rintro v v' ⟨c, hc, x, hx, h⟩ hr
  exact ⟨c, getElem_of_grows hr.grows hc, x, hr.hist.subset hx, h⟩

/-- The token is there. -/
def There (t : Token) (v : Shared) : Prop := t < v.state.signed.length

theorem stable_there (i : Nat) (t : Token) : protocol.Stable i (There t) :=
  fun _ _ h hr => Nat.lt_of_lt_of_le h hr.grows.signed.length_le

/-- Call `i` read the row `user` once the token was there. -/
def Read (i : Nat) (t : Token) (user : User) (v : Shared) : Prop :=
  ∃ x ∈ v.hist, reads? x = some (i, user.id) ∧ Dated user (pre x) ∧ t < (pre x).signed.length

theorem stable_read (i : Nat) (t : Token) (user : User) : protocol.Stable i (Read i t user) := by
  rintro v v' ⟨x, hx, h⟩ hr
  exact ⟨x, hr.hist.subset hx, h⟩

/-- **A completed second factor is as old as the row it read**, whatever the age of the token. -/
theorem safe_completeMFALogin {userID : UserID} {code : String} (hA : There t v) :
    protocol.Safe i (fun r v' => ∀ pair profile, r = .ok (pair, profile) → Completed i t pair v')
      (completeMFALoginAudited env ctx userID code ip ua) v := by
  refine seq_silent (each_totpValidateAudited silent_quiet silent_factors) (stable_there i t) hA
    (fun _ _ _ _ _ h => by cases h) fun _ v₁ h₁ => ?_
  refine safe_seq (safe_query (by simp) (stable_there i t) h₁ (fun _ _ _ _ h => by cases h)
    fun u w hu hg hdb hA' => ?_)
  cases hfound : u.state.db.userByID ctx userID with
  | none => exact fun _ _ h => by cases h
  | some user =>
    have hid : user.id = userID := (DB.userByID_spec hfound).2.1
    have hread : Read i t user ⟨w, .act i (.findUser userID) u.state w :: u.hist⟩ := by
      refine ⟨_, List.mem_cons_self, by rw [hid]; rfl, ?_, hu⟩
      rw [Dated, hid]
      exact Nat.le_of_eq (pwdVersion_of_userByID hfound).symm
    have hst := stable_read i t user
    refine seq_silent (each_refuse _ _) hst hread (fun _ _ _ _ _ h => by cases h) fun _ v₂ h₂ => ?_
    refine safe_seq ((safe_issueTokenPair hst h₂).mono fun r v₃ h₃ => ?_)
    cases r with
    | error e => exact fun _ _ h => by cases h
    | ok pair =>
      have hst' := hst.and (stable_signed i user pair.accessToken)
      refine seq_silent (each_record silent_quiet) hst' ⟨h₃.1, h₃.2 pair rfl⟩
        (fun _ _ _ _ _ h => by cases h) fun _ v₄ h₄ => ?_
      refine seq_silent (each_record silent_quiet) hst' h₄ (fun _ _ _ _ _ h => by cases h)
        fun _ v₅ h₅ => ?_
      intro p profile h
      cases h
      obtain ⟨⟨x, hx, hr, hd, ht⟩, c, hc, huid, hver⟩ := h₅
      exact ⟨c, hc, x, hx, by rw [huid]; exact hr, by rw [huid, hver]; exact hd, ht⟩

end Programs

/-! ## The pool -/

/-- The calls that run side by side. -/
inductive Job : Type where
  | login (ctx : Ctx) (email password captchaToken ip ua : String)
  | completeMFALogin (ctx : Ctx) (token : Token) (code ip ua : String)
  | changePassword (ctx : Ctx) (userID : UserID) (oldPassword newPassword ip : String)
  | resetPassword (ctx : Ctx) (token : Token) (newPassword ip : String)

/-- The pair of a login that needs no second factor. -/
def pair? : LoginResult → Option TokenPair
  | .pair p _ => some p
  | .mfaPending _ => none

/-- The body of a call. -/
def code (env : Env) : Job → M (Option TokenPair)
  | .login ctx email password captcha ip ua =>
    loginAudited env ctx email password captcha ip ua >>= fun r => .ret (pair? r)
  | .completeMFALogin ctx t code ip ua =>
    mfaLoginVerify env ctx t (fun ctx userID => completeMFALoginAudited env ctx userID code ip ua)
      >>= fun r => .ret (some r.1)
  | .changePassword ctx userID old new ip =>
    changePasswordAudited env ctx userID old new ip >>= fun _ => .ret none
  | .resetPassword ctx t new ip => resetPasswordAudited env ctx t new ip >>= fun _ => .ret none

/-- A pool of such calls. -/
abbrev Calls := Pool World Call Outside Err (Option TokenPair) Job

/-- The pool after the moves `ms` from the state `w`. -/
def run (env : Env) (w : World) (ms : List (Move Outside Job)) : Calls :=
  (Pool.init w : Calls).exec (code env) Outside.apply ms

/-- A pair of the call `i` rests on a password that was changed since: the call compared it itself,
or the call that got its `mfa_pending` token signed did. -/
def Rests (h : History) (i : Nat) (uid : UserID) : Job → Prop
  | .login _ _ _ _ _ _ => Stale i uid h
  | .completeMFALogin _ t _ _ _ => ∃ y ∈ h, ∃ j ∈ mints? t y, Stale j uid h
  | _ => False

/-- Call `i` returned a pair that rests on an old password and still passes the check. -/
def Outlives (c : Calls) (i : Nat) : Prop :=
  ∃ job start pair claims, c.threads[i]? = some ⟨job, start, .ret (some pair)⟩ ∧
    c.view.state.signed[pair.accessToken]? = some claims ∧
      Rests c.view.hist i claims.userID job ∧ Passes c.view.state claims

/-- The `mfa_pending` token of the call `i`, if it is a `CompleteMFALogin`. -/
def mfaToken? (c : Calls) (i : Nat) : Option Token :=
  match c.threads[i]? with
  | some ⟨.completeMFALogin _ t _ _ _, _, _⟩ => some t
  | _ => none

/-- No `CompleteMFALogin` has read its user after a password change that came after the comparison
behind its token. -/
def Timely (token? : Nat → Option Token) : History → Prop
  | [] => True
  | x :: h =>
    (∀ p ∈ reads? x, ∀ t ∈ token? p.1, ∀ y ∈ h, ∀ j ∈ mints? t y, ¬ Stale j p.2 h) ∧
      Timely token? h

instance decidableTimely (token? : Nat → Option Token) :
    (h : History) → Decidable (Timely token? h)
  | [] => .isTrue trivial
  | x :: h =>
    have := decidableTimely token? h
    inferInstanceAs (Decidable ((∀ p ∈ reads? x, ∀ t ∈ token? p.1, ∀ y ∈ h, ∀ j ∈ mints? t y,
      ¬ Stale j p.2 h) ∧ Timely token? h))

theorem Timely.suffix {token? : Nat → Option Token} {h h' : History} (ht : Timely token? h)
    (hs : (x :: h') <:+ h) :
    ∀ p ∈ reads? x, ∀ t ∈ token? p.1, ∀ y ∈ h', ∀ j ∈ mints? t y, ¬ Stale j p.2 h' := by
  induction h with
  | nil => simp at hs
  | cons z h ih =>
    rcases List.suffix_cons_iff.1 hs with heq | hs
    · cases heq
      exact ht.1
    · exact ih ht.2 hs

/-- The postcondition of a call. -/
def postcondition (i : Nat) : Job → Except Err (Option TokenPair) → Shared → Prop
  | .login _ _ _ _ _ _, .ok (some pair), v => LoggedIn i pair v
  | .completeMFALogin _ t _ _ _, .ok (some pair), v => Completed i t pair v
  | _, _, _ => True

theorem stable_postcondition (i : Nat) (j : Job) (r : Except Err (Option TokenPair)) :
    protocol.Stable i (postcondition i j r) := by
  intro v v' h hr
  unfold postcondition at h ⊢
  split
  · exact stable_loggedIn _ _ h hr
  · exact stable_completed _ _ _ h hr
  · trivial

theorem safe_anything {α : Type} {p : M α} (hp : Each (Acts anything) p) :
    protocol.Safe i (fun _ _ => True) p v :=
  safe_each (A := fun _ => True) hp trivial (fun _ _ _ _ => trivial) fun _ _ _ hi _ h _ =>
    ⟨step_of_grows hi (grows_of_acts h), trivial⟩

theorem quiet_verify (v : Shared) (hi : protocol.inv v) : protocol.Quiet i .other (fun w => w) v :=
  quiet_of_grows hi (by simp) (.refl _)

theorem safe_code (env : Env) (j : Job) (h : Compared i (fun _ _ => False) v) :
    protocol.Safe i (postcondition i j) (code env j) v := by
  cases j with
  | login =>
    refine safe_seq ((safe_login h).mono fun r v₁ h₁ => ?_)
    rcases r with e | ⟨pair, profile⟩ | t
    · trivial
    · exact h₁ pair profile rfl
    · trivial
  | completeMFALogin ctx t =>
    refine safe_seq (safe_seq ((safe_jwtVerifyAs (A := fun _ => True) trivial
      (fun _ _ _ _ => trivial) quiet_verify).mono fun r v₁ h₁ => ?_))
    cases r with
    | error e => trivial
    | ok c =>
      have hthere : There t v₁ := (List.getElem?_eq_some_iff.1 (h₁.2 c rfl)).1
      refine (safe_completeMFALogin hthere).mono fun r v₂ h₂ => ?_
      rcases r with e | ⟨pair, profile⟩
      · trivial
      · exact h₂ pair profile rfl
  | changePassword =>
    refine (safe_anything (each_bind (each_changePasswordAudited anything_quiet (fun _ => trivial)
      trivial fun _ => trivial) fun _ => each_ret _)).mono fun r v' _ => ?_
    cases r <;> trivial
  | resetPassword =>
    refine (safe_anything (each_bind (each_resetPasswordAudited anything_quiet
      (fun _ => ⟨trivial, trivial, trivial, fun _ _ => trivial⟩) (fun _ _ => trivial)
      fun _ _ _ => trivial) fun _ => each_ret _)).mono fun r v' _ => ?_
    cases r <;> trivial

theorem env_keeps (e : Outside) (v : Shared) (hi : Inv v) :
    Inv (v.env e e.apply) ∧ ∀ i, Keeps i v (v.env e e.apply) := by
  have hg : Grows v.state (e.apply v.state) := by
    cases e <;> exact ⟨fun _ => Nat.le_refl _, List.prefix_refl _⟩
  refine ⟨inv_push hi rfl rfl hg, fun i => ⟨List.suffix_cons _ _, fun x hx uid hc => ?_, hg⟩⟩
  rcases List.mem_cons.1 hx with rfl | hx
  · cases hc
  · exact hx

theorem sound (env : Env) : protocol.Sound (code env) Outside.apply
    fun i j _ r v => postcondition i j r v where
  env e v hi _ := env_keeps e v hi
  start i j v _ hnew := by
    refine safe_code env j fun x hx uid hc => hnew x hx ?_
    unfold compares? at hc
    split at hc
    · cases hc
      rfl
    · cases hc
  stable i j _ r := stable_postcondition i j r

/-- A password change after an entry leaves the version of the entry behind. -/
theorem version_lt (hi : Inv v) {x y : Ev World Call Outside} (hs : (y :: h) <:+ v.hist)
    (hx : x ∈ h) (hy : changes? y = some uid) :
    (pre x).db.pwdVersion uid < v.state.db.pwdVersion uid := by
  have horder := List.rel_of_pairwise_cons (hi.order.sublist hs.sublist) hx
  have hmem : y ∈ v.hist := hs.subset List.mem_cons_self
  have hstep : (pre y).db.pwdVersion uid < (post y).db.pwdVersion uid := by
    unfold changes? at hy
    split at hy
    · split at hy
      · cases hy
        assumption
      · cases hy
    · cases hy
  have hin := hi.entry x (hs.subset (List.mem_cons_of_mem _ hx))
  have := hin.version uid
  have := horder.version uid
  have := (hi.present y hmem).version uid
  omega

/-- A token that is there at an entry was signed before it. -/
theorem minted_before (hi : Inv v) {m r : Ev World Call Outside} (hs : (r :: h) <:+ v.hist)
    (hr : reads? r = some p) (hlen : t < (pre r).signed.length) (hm : m ∈ v.hist)
    (hj : mints? t m = some j) : m ∈ h := by
  have hmlen : (pre m).signed.length = t := by
    unfold mints? at hj
    split at hj
    · split at hj
      · rename_i hcond
        simp only [Bool.and_eq_true, decide_eq_true_eq] at hcond
        exact hcond.2
      · cases hj
    · cases hj
  obtain ⟨newer, heq⟩ := hs
  rw [← heq, List.mem_append, List.mem_cons] at hm
  rcases hm with hm | rfl | hm
  · -- a newer entry would start with more tokens
    have hord := (List.pairwise_append.1 (heq ▸ hi.order)).2.2 m hm r List.mem_cons_self
    have hgrow := hi.entry r (heq ▸ List.mem_append_right _ List.mem_cons_self)
    have hle := Nat.le_trans hgrow.signed.length_le hord.signed.length_le
    rw [hmlen] at hle
    exact absurd hlen (Nat.not_lt.2 hle)
  · unfold reads? at hr
    split at hr
    · cases hj
    · cases hr
  · exact hm

theorem changes_ne_reads (hc : changes? x = some uid) (hr : reads? x = some p) : False := by
  unfold reads? at hr
  split at hr
  · cases hc
  · cases hr

/-- **A password change ends every login that rests on the old password**, in every run in which
each `CompleteMFALogin` reads its user before any change that came after the comparison behind its
token. -/
theorem old_password_ends (env : Env) (w : World) (ms : List (Move Outside Job))
    (ht : Timely (mfaToken? (run env w ms)) (run env w ms).view.hist) (i : Nat) :
    ¬ Outlives (run env w ms) i := by
  have hinit : protocol.inv ⟨w, []⟩ := ⟨by simp, by simp, by simp⟩
  have hgood := exec_good (sound env) ms (good_init hinit)
    (admits_all (fun _ _ _ => trivial) (fun _ _ => trivial) ms _)
  rintro ⟨job, start, pair, claims, hth, hc, hrests, hpass⟩
  have hver := hpass.pwdVersion
  have hpost := hgood.returned hth rfl
  cases job with
  | login =>
    obtain ⟨c, hc', hcmp⟩ := hpost
    obtain rfl := Option.some.inj (hc.symm.trans hc')
    obtain ⟨y, h, hs, hy, x, hx, hcx⟩ := stale_iff.1 hrests
    have hold := hcmp x (hs.subset (List.mem_cons_of_mem _ hx)) _ hcx rfl
    have hnew := version_lt hgood.inv hs hx hy
    exact absurd (hver ▸ hold) (Nat.not_le.2 hnew)
  | completeMFALogin ctx t =>
    obtain ⟨c, hc', r, hr, hread, hold, hlen⟩ := hpost
    obtain rfl := Option.some.inj (hc.symm.trans hc')
    obtain ⟨m, hm, j, hj, hstale⟩ := hrests
    obtain ⟨newer, older, heq⟩ := List.append_of_mem hr
    have hsr : (r :: older) <:+ (run env w ms).view.hist := ⟨newer, heq.symm⟩
    have htoken : mfaToken? (run env w ms) i = some t := by
      unfold mfaToken?
      rw [show (run env w ms).threads[i]? = _ from hth]
    have hfresh := ht.suffix hsr _ hread t htoken m
      (minted_before hgood.inv hsr hread hlen hm hj) j hj
    obtain ⟨y, h, hs, hy, x, hx, hcx⟩ := stale_iff.1 hstale
    -- the change is not older than the read, so it is newer
    rcases List.suffix_or_suffix_of_suffix hs hsr with hle | hle
    · rcases List.suffix_cons_iff.1 hle with heq | hle
      · cases heq
        exact changes_ne_reads hy hread
      · exact hfresh (stale_iff.2 ⟨y, h, hle, hy, x, hx, hcx⟩)
    · rcases List.suffix_cons_iff.1 hle with heq | hle
      · cases heq
        exact changes_ne_reads hy hread
      · have hnew := version_lt hgood.inv hs (hle.subset List.mem_cons_self) hy
        exact absurd (hver ▸ hold) (Nat.not_le.2 hnew)
  | changePassword => exact hrests
  | resetPassword => exact hrests

/-! ## A second factor on an old password -/

/-- `jose` with an authenticator whose code is `abcdef`. -/
def factorWorld : World :=
  { World.sample with db := { World.sample.db with
      totpDevices := ⟨[⟨1, 1, "", "eabcdef", "", true⟩], by decide⟩ } }

def loginJob : Job := .login .sample "jose@x.io" "password1" "" "ip" "ua"

def completeJob : Job := .completeMFALogin .sample 0 "abcdef" "ip" "ua"

def changeJob : Job := .changePassword .sample 1 "password1" "password2" "ip"

/-- Login, second factor, and then the password change. -/
def changedAfter : List (Move Outside Job) :=
  .spawn loginJob :: List.replicate 20 (.sched 0) ++ .spawn completeJob ::
    List.replicate 40 (.sched 1) ++ .spawn changeJob :: List.replicate 20 (.sched 2)

/-- Login, the password change, and then the second factor. -/
def changedBetween : List (Move Outside Job) :=
  .spawn loginJob :: List.replicate 20 (.sched 0) ++ .spawn changeJob ::
    List.replicate 20 (.sched 1) ++ .spawn completeJob :: List.replicate 40 (.sched 2)

instance (h : History) (i : Nat) (uid : UserID) : (job : Job) → Decidable (Rests h i uid job)
  | .login _ _ _ _ _ _ => inferInstanceAs (Decidable (Stale i uid h))
  | .completeMFALogin _ t _ _ _ =>
    inferInstanceAs (Decidable (∃ y ∈ h, ∃ j ∈ mints? t y, Stale j uid h))
  | .changePassword _ _ _ _ _ => .isFalse id
  | .resetPassword _ _ _ _ => .isFalse id

/-- The claims of the pair that call `i` returned, with its request. -/
def issued? (c : Calls) (i : Nat) : Option (Job × Claims) :=
  match c.threads[i]? with
  | some ⟨job, _, .ret (some pair)⟩ =>
    (c.view.state.signed[pair.accessToken]?).map fun claims => (job, claims)
  | _ => none

theorem outlives_iff (c : Calls) (i : Nat) : Outlives c i ↔
    ∃ p ∈ issued? c i, Rests c.view.hist i p.2.userID p.1 ∧ Passes c.view.state p.2 := by
  constructor
  · rintro ⟨job, start, pair, claims, hth, hc, h⟩
    refine ⟨(job, claims), ?_, h⟩
    simp only [issued?, hth, hc]
    rfl
  · rintro ⟨⟨job, claims⟩, hp, h⟩
    unfold issued? at hp
    split at hp
    · rename_i job' start pair hth
      obtain ⟨claims', hc, heq⟩ := Option.map_eq_some_iff.1 hp
      cases heq
      exact ⟨job, start, pair, claims, hth, hc, h⟩
    · cases hp

instance (c : Calls) (i : Nat) : Decidable (Outlives c i) :=
  decidable_of_iff _ (outlives_iff c i).symm

/-- In the first run call 1 gets a pair, the password changes under it, and the pair ends. -/
theorem old_password_ends_changedAfter :
    (∃ p ∈ issued? (run (.plain .sample) factorWorld changedAfter) 1,
      Rests (run (.plain .sample) factorWorld changedAfter).view.hist 1 p.2.userID p.1) ∧
    ¬ Outlives (run (.plain .sample) factorWorld changedAfter) 1 :=
  ⟨by decide +kernel, old_password_ends _ _ _ (by decide +kernel) 1⟩

/-- **A pair from the old password**: in the second run the change commits before the second factor,
and the pair passes all the same. -/
theorem old_password_survives :
    Outlives (run (.plain .sample) factorWorld changedBetween) 2 := by
  decide +kernel

end PasswordChange

end FinnAuth
