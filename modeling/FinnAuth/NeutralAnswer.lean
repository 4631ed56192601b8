import FinnAuth.Handlers
import FinnAuth.Transaction
import FinnAuth.Lib.Twin
import FinnAuth.Footprint.Session

/-!
# Answers that do not depend on the account

`ForgotPassword` and `ResendVerifyEmail` answer alike whether or not an account has the address. All
they show is decided before the account is looked up: by the request, by the counters of the store
and by whether the audit trail admits the request. The second half is about the order of their
effects: nothing is signed or handed to the notifier before the evidence is committed.

Results:
* `admission_answer`: what is answered once the throttles are passed, from any state;
* `throttle_twin`: the throttles read the store and the clock only;
* `mailing_safe`: a flow keeps the order of its effects, whatever happens in between;
* **`neutral_answers`**: both halves for both flows.
-/

namespace FinnAuth

open Lib Prog Protocol

variable {env : Env} {ctx : Ctx} {w w' : World}

/-! ## The admission -/

variable {p : M Unit} {α : Type} {email : String} {shown : Err → Bool} {e : AuditLog}

/-- The next audit operation with one event fails: its admission or its commit does. -/
def World.auditDown (w : World) : Bool := w.faults.getD 0 false || w.faults.getD 1 false

/-- **The admission** of one event fails exactly if the audit trail is down. -/
theorem wp_admitBeforeExternal_iff {Q : Except Err Unit → World → Prop}
    (hdown : w.auditDown = true → ∀ w', Q (.error .unavailable) w')
    (hup : w.auditDown = false → ∀ w', Q (.ok ()) w') : wp (admitBeforeExternal ctx e) Q w := by
  obtain ⟨db, store, now, faults, outbox, entropy, signed, op⟩ := w
  -- the two outcomes the operation draws: of the admission, then of the commit
  rcases faults with _ | ⟨_ | _, _ | ⟨_ | _, _⟩⟩
  · exact hup rfl _
  · exact hup rfl _
  · exact hup rfl _
  · exact hdown rfl _
  · exact hdown rfl _
  · exact hdown rfl _
  · exact hdown rfl _

/-! ## What is answered -/

/-- Errors that the handlers hide. -/
def Err.Hidden (e : Err) : Prop := e.root ≠ .unavailable ∧ e.root ≠ .rateLimited

theorem fails_query {l : Call} {f : DB → α} : Fails Err.Hidden (query l f) := by
  refine fails_atomic fun w e h => ?_
  simp only at h
  split at h
  · cases h
    exact ⟨nofun, nofun⟩
  · cases h

theorem fails_notify {m : Mail} : Fails Err.Hidden (notify m) := by
  refine fails_atomic fun w e h => ?_
  simp only at h
  split at h
  · cases h
    exact ⟨nofun, nofun⟩
  · cases h

theorem fails_call {E : Err → Prop} {l : Call} {f : World → α × World} : Fails E (call l f) :=
  fails_atomic fun _ _ h => nomatch h

theorem fails_jwtIssue {userID : UserID} {role email : String} {type : TokenType} {ttl : Nat}
    {tenantID : String} : Fails Err.Hidden (jwtIssue userID role email type ttl tenantID) := by
  refine fails_bind ?_ fun _ => fails_bind fails_call fun _ => fails_bind fails_call fun _ =>
    fails_call
  unfold refuse
  split
  · exact ⟨nofun, nofun⟩
  · trivial

/-- Wrapping does not show an error. -/
theorem fails_wrap {s : String} {p : M α} (h : Fails Err.Hidden p) :
    Fails Err.Hidden (wrap s p) := by
  induction p with
  | ret a => trivial
  | fail e => exact h
  | act l g k ih => exact fun w => ih w (h w)

/-- `forgotPassword` after the admission. -/
def forgotSend (env : Env) (ctx : Ctx) (email : String) : M Unit := do
  match ← wrap "forgot-password: find user" (usersFindByEmail env ctx email) with
  | none => pure ()
  | some user => do
    let t ← jwtIssue user.id user.role user.email .reset env.cfg.resetTTL ctx.tenant
    wrap "forgot-password: send" (notify (.passwordReset email t))

/-- `resendVerifyEmail` after the admission. -/
def resendSend (env : Env) (ctx : Ctx) (email : String) : M Unit := do
  match (← wrap "resend-verify: find user" (usersFindByEmail env ctx email)).filter
      (fun u => !u.isEmailVerified) with
  | none => pure ()
  | some user => do
    let t ← jwtIssue user.id user.role user.email .emailVerify env.cfg.verifyTTL ctx.tenant
    wrap "resend-verify: send" (notify (.emailVerification user.email (.jwt t)))

theorem fails_forgotSend : Fails Err.Hidden (forgotSend env ctx email) := by
  refine fails_bind (fails_wrap fails_query) fun found => ?_
  cases found with
  | none => trivial
  | some user => exact fails_bind fails_jwtIssue fun _ => fails_wrap fails_notify

theorem fails_resendSend : Fails Err.Hidden (resendSend env ctx email) := by
  refine fails_bind (fails_wrap fails_query) fun found => ?_
  split
  · trivial
  · exact fails_bind fails_jwtIssue fun _ => fails_wrap fails_notify

theorem neutralAnswer_hidden {message : String} {r : Except Err Unit}
    (hs : ∀ e, shown e = true → e = .unavailable ∨ e = .rateLimited)
    (h : ∀ e, r = .error e → e.Hidden) : neutralAnswer shown message r = ⟨200, message⟩ := by
  cases r with
  | ok u => rfl
  | error e =>
    have hn : shown e.root ≠ true := fun ht => (hs _ ht).elim (h e rfl).1 (h e rfl).2
    exact if_neg hn

theorem answers_alike {answer : Except Err Unit → Response}
    (h : answer (p.run w).1 = answer (p.run w').1) :
    ∃ a, ((p.attempt >>= fun r => pure (answer r)).run w).1 = .ok a ∧
      ((p.attempt >>= fun r => pure (answer r)).run w').1 = .ok a := by
  refine ⟨answer (p.run w).1, ?_, ?_⟩
  · rw [bind_def, run_bind, run_attempt]
    rfl
  · rw [bind_def, run_bind, run_attempt, h]
    rfl

section Answer

variable (shown : Err → Bool) (hs : ∀ e, shown e = true → e = .unavailable ∨ e = .rateLimited)
  (hu : shown .unavailable = true) (message : String) (ctx : Ctx) (e : AuditLog)
include hs hu

/-- **After the throttles** only the audit trail decides on the answer: the rest `p` of the flow
fails with hidden errors only. -/
theorem admission_answer (hp : Fails Err.Hidden p) (w : World) :
    neutralAnswer shown message ((admitBeforeExternal ctx e >>= fun _ => p).run w).1 =
      if w.auditDown then ⟨503, "durable audit unavailable"⟩ else ⟨200, message⟩ := by
  refine wp_seq (Q := fun r _ => neutralAnswer shown message r = _) ?_
  refine wp_admitBeforeExternal_iff (fun h w₁ => ?_) fun h w₁ => ?_
  · rw [if_pos h]
    exact if_pos hu
  · rw [h]
    exact wp_mono (wp_of_fails hp w₁) fun r _ hr => neutralAnswer_hidden hs hr

omit hs in
/-- A flow that ends with the admission. -/
theorem admitted_answer (w : World) :
    neutralAnswer shown message ((admitBeforeExternal ctx e).run w).1 =
      if w.auditDown then ⟨503, "durable audit unavailable"⟩ else ⟨200, message⟩ := by
  change wp _ (fun r _ => neutralAnswer shown message r = _) w
  refine wp_admitBeforeExternal_iff (fun h w₁ => ?_) fun h w₁ => ?_
  · rw [if_pos h]
    exact if_pos hu
  · rw [h]
    rfl

end Answer

/-! ## The throttles -/

/-- Two states with one store and one clock. -/
structure SameStore (w w' : World) : Prop where
  store : w'.store = w.store
  now : w'.now = w.now
  down : w'.auditDown = w.auditDown

/-- A throttle reads the store and the clock, and lets a request pass with no trace elsewhere. -/
theorem throttle_twin {k : StoreKey} {max window : Nat} {applies : Bool} (h : SameStore w w') :
    Twin (fun r t t' => r = .ok () → SameStore t t')
      (throttle ctx k max window applies e) w w' := by
  unfold throttle doIf
  split
  · refine twin_bind (twin_atomic (congrArg Except.ok ?_) ?_)
    · simp only [h.store, h.now]
    · simp only [thenTwin, refuseAfter, decide_eq_true_eq]
      split
      · refine twin_bind (twin_atomic rfl ?_)
        exact ⟨rfl, fun h => by cases h⟩
      · refine ⟨rfl, fun _ => ⟨?_, h.now, h.down⟩⟩
        simp only [run, h.store, h.now]
  · exact ⟨rfl, fun _ => h⟩

theorem resend_answer {message email ip : String} (h : SameStore w w')
    (hs : ∀ e, shown e = true → e = .unavailable ∨ e = .rateLimited)
    (hu : shown .unavailable = true) :
    neutralAnswer shown message ((resendVerifyEmail env ctx email ip).run w).1 =
      neutralAnswer shown message ((resendVerifyEmail env ctx email ip).run w').1 := by
  refine (throttle_twin h).observe fun _ w₁ w₁' h₁ => ?_
  refine (throttle_twin (h₁ rfl)).observe fun _ w₂ w₂' h₂ => ?_
  split
  · rw [admitted_answer shown hu, admitted_answer shown hu, (h₂ rfl).down]
  · refine (throttle_twin (h₂ rfl)).observe fun _ w₃ w₃' h₃ => ?_
    have hanswer := admission_answer shown hs hu message ctx
      (auditEvent "verification_requested" true) (@fails_resendSend env ctx (env.normalize email))
    exact (hanswer w₃).trans ((h₃ rfl).down ▸ (hanswer w₃').symm)

/-! ## The order of effects -/

section Flow

variable {ℓ : Type} (lift : M Unit → Prog World ℓ Err Unit)
  (admitted : AuditLog → Prog World ℓ Err Unit)

/-- `ForgotPassword`, for any reading of its calls and of its admission. -/
def forgotPasswordIn (env : Env) (ctx : Ctx) (rawEmail : String) : Prog World ℓ Err Unit := do
  admitted (auditEvent "password_reset_requested" true)
  lift (forgotSend env ctx (env.normalize rawEmail))

/-- `ResendVerifyEmail`, for any reading of its calls and of its admission. -/
def resendVerifyEmailIn (env : Env) (ctx : Ctx) (rawEmail ip : String) :
    Prog World ℓ Err Unit := do
  let email := env.normalize rawEmail
  lift (throttle ctx .verifyResendGlobal env.cfg.verifyResendGlobalMax
    env.cfg.verifyResendGlobalWindow true (resendBlocked email ip "global cap"))
  lift (throttle ctx (.verifyResendIP (env.canonicalIP ip)) env.cfg.verifyResendPerIPMax
    env.cfg.verifyResendPerIPWindow (ip ≠ "") (resendBlocked email ip "per-ip cap"))
  if isDisposableEmail env email then
    admitted (resendBlocked email ip "disposable domain")
  else do
    lift (throttle ctx (.verifyResend email) env.cfg.verifyResendPerEmailMax
      env.cfg.verifyResendWindow (email ≠ "") (resendBlocked email ip "per-email cap"))
    admitted (auditEvent "verification_requested" true)
    lift (resendSend env ctx email)

end Flow

theorem forgotPassword_eq (env : Env) (ctx : Ctx) (email : String) :
    forgotPassword env ctx email = forgotPasswordIn id (admitBeforeExternal ctx) env ctx email :=
  rfl

theorem resendVerifyEmail_eq (env : Env) (ctx : Ctx) (email ip : String) :
    resendVerifyEmail env ctx email ip =
      resendVerifyEmailIn id (admitBeforeExternal ctx) env ctx email ip := rfl

/-- A request to one of the two flows. -/
inductive Mailing : Type where
  | forgotPassword (ctx : Ctx) (email : String)
  | resendVerifyEmail (ctx : Ctx) (email ip : String)

/-- The flow with its admission in a transaction of its own. -/
def Mailing.code (env : Env) : Mailing → Prog World TxCall Err Unit
  | .forgotPassword ctx email =>
    forgotPasswordIn (relabel .call) (fun e => auditTx (record ctx e)) env ctx email
  | .resendVerifyEmail ctx email ip =>
    resendVerifyEmailIn (relabel .call) (fun e => auditTx (record ctx e)) env ctx email ip

/-- The evidence the request must leave before a token of it does. -/
def Mailing.evidence : Mailing → AuditLog
  | .forgotPassword ctx _ =>
    { auditEvent "password_reset_requested" true with tenantID := ctx.tenant }
  | .resendVerifyEmail ctx _ _ =>
    { auditEvent "verification_requested" true with tenantID := ctx.tenant }

/-- A history in which anything at all may happen between two actions of a flow. -/
abbrev Interfered := View World TxCall (World → World)

/-- The entry signs a token or hands a mail with a token to the notifier. -/
def Emits : Ev World TxCall (World → World) → Prop
  | .act _ l pre post => (∃ c, l = .call (.sign c)) ∨
    ∃ m ∈ post.outbox.drop pre.outbox.length, m.token? ≠ none
  | .env _ _ _ => False

/-- The entry commits the evidence `e` for program `i`. -/
def CommitsFor (i : Nat) (e : AuditLog) : Ev World TxCall (World → World) → Prop
  | .act j l pre post => j = i ∧ l = .close true ∧ post.db = pre.db.exec (.insertAudit e)
  | .env _ _ _ => False

/-- Every entry that emits comes after one in which its program committed the evidence `e`. -/
def Ordered (e : AuditLog) : List (Ev World TxCall (World → World)) → Prop
  | [] => True
  | x :: b => (Emits x → ∃ i, x.thread? = some i ∧ ∃ y ∈ b, CommitsFor i e y) ∧ Ordered e b

/-- A flow keeps the order; nothing is asked of what happens in between. -/
def orderProtocol (e : AuditLog) : Protocol World TxCall (World → World) where
  inv v := Ordered e v.hist
  rely _ v v' := v.hist <:+ v'.hist
  ok _ _ _ := True
  okEnv _ _ := True
  rely_refl _ v := List.suffix_refl v.hist
  rely_trans _ := List.IsSuffix.trans

variable {e event : AuditLog} {i : Nat} {v : Interfered}

/-- Program `i` has committed the evidence. -/
def Evident (e : AuditLog) (i : Nat) (v : Interfered) : Prop := ∃ y ∈ v.hist, CommitsFor i e y

theorem evident_stable : (orderProtocol e).Stable i (Evident e i) :=
  fun _ _ ⟨y, hy, hc⟩ hr => ⟨y, hr.subset hy, hc⟩

theorem order_step {l : TxCall} {f : World → World} (hv : Ordered e v.hist)
    (h : Emits (.act i l v.state (f v.state)) → Evident e i v) :
    (orderProtocol e).Step i v (v.act i l f) where
  inv := ⟨fun hx => ⟨i, rfl, h hx⟩, hv⟩
  rely _ _ := List.suffix_cons _ _

theorem not_emits {l : TxCall} {pre post : World} (hl : ∀ c, l ≠ .call (.sign c))
    (hout : post.outbox = pre.outbox) : ¬ Emits (.act i l pre post) := by
  rintro (⟨c, hc⟩ | ⟨m, hm, -⟩)
  · exact hl c hc
  · rw [hout, List.drop_length] at hm
    cases hm

/-- What the throttles may do: they sign nothing and send no token. -/
def tokenless : Footprint where
  label l := ∀ c, l ≠ .sign c
  stmt _ := True
  mail m := m.token? = none
  key _ := True

theorem tokenless_calm : tokenless.Calm where
  other := nofun
  findUser _ := nofun
  key _ _ := trivial
  audit _ := trivial
  mail _ h := h

theorem safe_tokenless (hp : Each (Acts tokenless) p) :
    (orderProtocol e).Safe i (fun _ _ => True) (p.relabel .call) v := by
  refine safe_relabel (A := fun _ => True) hp trivial (fun _ _ _ _ => trivial) ?_
  intro l f v' hi _ hacts _
  refine ⟨order_step hi fun hx => ?_, trivial⟩
  rcases hx with ⟨c, hl⟩ | ⟨m, hm, htok⟩
  · exact absurd (TxCall.call.inj hl) (hacts.label c)
  · rcases hacts.outbox with h | ⟨m', hm', h⟩
    · rw [h, List.drop_length] at hm
      cases hm
    · rw [h, List.drop_left, List.mem_singleton] at hm
      exact absurd (hm ▸ hm') htok

/-- Once the evidence is committed, the flow may do anything. -/
theorem safe_evident (h : Evident e i v) :
    (orderProtocol e).Safe i (fun _ _ => True) (p.relabel .call) v := by
  refine (safe_relabel (A := Evident e i) (each_any p) h evident_stable ?_).mono
    fun _ _ _ => trivial
  intro l f v' hi hev _ _
  exact ⟨order_step hi fun _ => hev, evident_stable hev (List.suffix_cons _ _)⟩

/-- What one event notes: it is to be inserted, or its admission has failed. -/
theorem safeTx_record_noted {ctx : Ctx} :
    (orderProtocol e).SafeTx txPart .call i (fun r c _ => r = .ok () ∧
        ((∀ x, (c x).2.failure = true) ∨
          ∀ x, (c x).1 = x.1.exec (.insertAudit { event with tenantID := ctx.tenant })))
      (record ctx event) opened v := by
  refine safeTx_atomic (A := fun _ => True) trivial (fun _ _ _ _ => trivial) ?_
  intro v' hi _ _
  -- whether the admission fails does not depend on what the transaction keeps to itself
  refine ⟨order_step hi fun hx => absurd hx (not_emits (fun _ h => nomatch h) ?_), rfl, ?_⟩
  · rcases hf : v'.state.faults with _ | ⟨_ | _, bs⟩ <;> simp [World.fault, txPart, Part.own, hf]
  · rcases hf : v'.state.faults with _ | ⟨_ | _, bs⟩
    · exact .inr fun x => by simp [World.fault, txPart, opened, hf]
    · exact .inr fun x => by simp [World.fault, txPart, opened, hf]
    · exact .inl fun x => by simp [World.fault, txPart, hf]

/-- **The admission in its transaction**: if it succeeds, it has committed the event. -/
theorem safe_admission {ctx : Ctx} : (orderProtocol e).Safe i
      (fun r v' => r = .ok () → Evident { event with tenantID := ctx.tenant } i v')
      (auditTx (record ctx event)) v := by
  refine safe_auditTx (safeTx_record_noted.mono fun r c v' h => ?_)
  obtain ⟨rfl, hc⟩ := h
  refine safe_atomic (A := fun _ => True) trivial (fun _ _ _ _ => trivial) ?_
  intro v' hi _ _
  refine ⟨order_step hi fun hx => absurd hx (not_emits (fun _ h => nomatch h)
    (closeTx_outbox _ _ _)), fun hr => ?_⟩
  refine ⟨_, List.mem_cons_self, rfl, rfl, ?_⟩
  rcases hc with hfail | hnote
  · rw [closeTx_failed (hfail _)] at hr
    cases hr
  · rcases closeTx_cases c (.ok ()) v'.state with ⟨-, hdb, -⟩ | ⟨-, e', herr⟩
    · exact hdb.trans (hnote _)
    · rw [herr] at hr
      cases hr

/-- **A flow keeps the order of its effects**, whatever happens between its actions. -/
theorem mailing_safe (j : Mailing) :
    (orderProtocol j.evidence).Safe i (fun _ _ => True) (j.code env) v := by
  cases j with
  | forgotPassword =>
    exact safe_bind safe_admission (fun _ _ h => safe_evident (h rfl)) fun _ _ _ => trivial
  | resendVerifyEmail ctx email ip =>
    have hthrottle : ∀ {v : Interfered} k max window applies blocked,
        (orderProtocol (Mailing.resendVerifyEmail ctx email ip).evidence).Safe i (fun _ _ => True)
          ((throttle ctx k max window applies blocked).relabel .call) v :=
      fun k max window applies blocked => safe_tokenless (each_throttle tokenless_calm trivial)
    refine safe_bind (hthrottle ..) (fun _ v₁ _ => ?_) fun _ _ _ => trivial
    refine safe_bind (hthrottle ..) (fun _ v₂ _ => ?_) fun _ _ _ => trivial
    split
    · exact safe_admission.mono fun _ _ _ => trivial
    · refine safe_bind (hthrottle ..) (fun _ v₃ _ => ?_) fun _ _ _ => trivial
      exact safe_bind safe_admission (fun _ _ h => safe_evident (h rfl)) fun _ _ _ => trivial

/-- In every run of copies of a flow, with anything in between. -/
theorem mailing_ordered (env : Env) (j : Mailing) (w : World)
    (ms : List (Move (World → World) Unit)) :
    Ordered j.evidence ((Pool.init w).exec (fun _ => j.code env) id ms).view.hist := by
  have hsound : (orderProtocol j.evidence).Sound (fun _ : Unit => j.code env) id
      fun _ _ _ _ _ => True :=
    { env := fun _ _ hi _ => ⟨⟨fun hx => hx.elim, hi⟩, fun _ => List.suffix_cons _ _⟩
      start := fun _ _ _ _ _ => mailing_safe j
      stable := fun _ _ _ _ _ _ _ _ => trivial }
  exact (exec_good hsound ms (good_init trivial)
    (admits_all (fun _ _ _ => trivial) (fun _ _ => trivial) ms _)).inv

/-- **The two flows reveal no account.** For one request, store, clock and state of the audit trail,
the handlers answer the same over any two databases and whatever lookups or deliveries fail. And in
every run, with anything happening between the actions of the flow, a token is signed or handed to
the notifier only after the flow has committed its evidence. -/
theorem neutral_answers (env : Env) (ctx : Ctx) :
    (∀ (req : Except String String) (w w' : World), w'.auditDown = w.auditDown →
      ∃ answer, ((forgotPasswordHandler env ctx req).run w).1 = .ok answer ∧
        ((forgotPasswordHandler env ctx req).run w').1 = .ok answer) ∧
    (∀ (ip : String) (req : Except String String) (w w' : World), SameStore w w' →
      ∃ answer, ((resendVerifyEmailHandler env ctx ip req).run w).1 = .ok answer ∧
        ((resendVerifyEmailHandler env ctx ip req).run w').1 = .ok answer) ∧
    ∀ (j : Mailing) (w : World) (ms : List (Move (World → World) Unit)),
      Ordered j.evidence ((Pool.init w).exec (fun _ => j.code env) id ms).view.hist := by
  refine ⟨fun req w w' h => ?_, fun ip req w w' h => ?_, mailing_ordered env⟩
  · cases req with
    | error e => exact ⟨_, rfl, rfl⟩
    | ok email =>
      have hanswer := admission_answer (· = .unavailable) (by simp) rfl
        "if the email exists, a reset link has been sent" ctx
        (auditEvent "password_reset_requested" true)
        (@fails_forgotSend env ctx (env.normalize email))
      refine answers_alike ?_
      exact (hanswer w).trans (h ▸ (hanswer w').symm)
  · cases req with
    | error e => exact ⟨_, rfl, rfl⟩
    | ok => exact answers_alike (resend_answer h (by simp) rfl)

/-- The sample account against an empty database whose lookups fail. -/
theorem neutral_answers_unknown :
    let w' : World := { World.sample with db := .empty, faults := [false, false, true] }
    SameStore .sample w' ∧
    (∃ answer, ((forgotPasswordHandler (.plain .sample) .sample (.ok "jose@x.io")).run
        .sample).1 = .ok answer ∧
      ((forgotPasswordHandler (.plain .sample) .sample (.ok "jose@x.io")).run w').1 = .ok answer) ∧
    ∃ answer, ((resendVerifyEmailHandler (.plain .sample) .sample "ip" (.ok "jose@x.io")).run
        .sample).1 = .ok answer ∧
      ((resendVerifyEmailHandler (.plain .sample) .sample "ip" (.ok "jose@x.io")).run w').1 =
        .ok answer :=
  have h := neutral_answers (.plain .sample) .sample
  have hsame : SameStore .sample
      { World.sample with db := .empty, faults := [false, false, true] } := ⟨rfl, rfl, rfl⟩
  ⟨hsame, h.1 _ _ _ hsame.down, h.2.1 _ _ _ _ hsame⟩

end FinnAuth
