import Mathlib.Data.List.Basic

/-!
# The mail notifier

`SMTPNotifier` (`smtp_notifier.go`): what goes over the wire when a mail is sent, for every
recipient, subject and body, and for every relay. The relay is the steps that succeed; an error ends
the dialogue. Texts are lists of characters. Out of scope: deadlines, the texts of the errors,
strings that are not UTF-8.

The reader of a message is a lenient one: a line ends at CRLF, at a bare LF or at a bare CR. What it
cannot be made to see, a stricter one does not see either.

Results:
* **`clear_harmless`**: until a handshake has encrypted the channel neither credentials nor mail are
  sent;
* **`mail_exact`**: the envelope has no control characters, and the message reads as the five
  headers and the body. -/

namespace FinnAuth.Smtp

abbrev Text := List Char

/-- No line break. -/
def OneLine (s : Text) : Prop := ∀ c ∈ s, c ≠ '\r' ∧ c ≠ '\n'

/-! ## A reader of messages -/

/-- The first line, and what follows it; `none` if the text ends in it. -/
def readLine : Text → Text × Option Text
  | [] => ([], none)
  | '\r' :: '\n' :: cs => ([], some cs)
  | c :: cs =>
    if c = '\r' ∨ c = '\n' then ([], some cs) else (c :: (readLine cs).1, (readLine cs).2)

/-- The header lines up to the first empty line, and the body. -/
def readMessage : Nat → Text → Option (List Text × Text)
  | 0, _ => none
  | fuel + 1, cs =>
    match readLine cs with
    | (_, none) => none
    | ([], some rest) => some ([], rest)
    | (line, some rest) => (readMessage fuel rest).map fun p => (line :: p.1, p.2)

/-- `strings.Join` of the header lines, an empty line and the body. -/
def joinMessage (headers : List Text) (body : Text) : Text :=
  ['\r', '\n'].intercalate (headers ++ [[], body])

theorem readLine_line {line : Text} (h : OneLine line) (rest : Text) :
    readLine (line ++ '\r' :: '\n' :: rest) = (line, some rest) := by
  induction line with
  | nil => rfl
  | cons c line ih =>
    obtain ⟨hc, hline⟩ := List.forall_mem_cons.1 h
    rw [List.cons_append, readLine, ih hline, if_neg (by simp [hc])]
    intro cs hcr
    exact absurd hcr hc.1

/-- **What is joined of one-line headers reads back.** -/
theorem readMessage_join {headers : List Text} (h : ∀ l ∈ headers, OneLine l ∧ l ≠ []) (body : Text)
    {fuel : Nat} (hfuel : headers.length < fuel) :
    readMessage fuel (joinMessage headers body) = some (headers, body) := by
  induction headers generalizing fuel with
  | nil =>
    obtain ⟨n, rfl⟩ := Nat.exists_eq_succ_of_ne_zero (Nat.ne_zero_of_lt hfuel)
    have hjoin : joinMessage [] body = [] ++ '\r' :: '\n' :: body := by
      simp [joinMessage, List.intercalate]
    rw [hjoin, readMessage, readLine_line fun _ hc => by cases hc]
  | cons line headers ih =>
    obtain ⟨n, rfl⟩ := Nat.exists_eq_succ_of_ne_zero (Nat.ne_zero_of_lt hfuel)
    obtain ⟨⟨hline, hne⟩, hrest⟩ := List.forall_mem_cons.1 h
    have hjoin : joinMessage (line :: headers) body =
        line ++ '\r' :: '\n' :: joinMessage headers body := by
      cases headers <;> simp [joinMessage, List.intercalate]
    rw [hjoin, readMessage, readLine_line hline]
    cases line with
    | nil => exact absurd rfl hne
    | cons => simp only [ih hrest (Nat.lt_of_succ_lt_succ hfuel), Option.map_some]

/-! ## The notifier -/

/-- `validEnvelopeAddr`; the length is in bytes. -/
def validEnvelopeAddr (addr : Text) : Bool :=
  addr ≠ [] && (String.ofList addr).utf8ByteSize ≤ 254 && addr.count '@' = 1 &&
    addr.all fun r => 32 < r.toNat && r.toNat ≠ 127

/-- `validHeaderValue` -/
def validHeaderValue (value : Text) : Bool := value.all fun c => c ≠ '\r' && c ≠ '\n'

/-- `SMTPNotifier` -/
structure SMTPNotifier where
  host : Text
  port : Text
  user : Text
  password : Text
  sender : Text

/-- `n.implicitTLS` -/
def SMTPNotifier.implicitTLS (n : SMTPNotifier) : Bool := n.port = "465".toList

/-- `Enabled` -/
def SMTPNotifier.enabled (n : SMTPNotifier) : Bool := n.host ≠ [] && n.sender ≠ []

/-- The steps of the relay that succeed. -/
structure Relay where
  dial : Bool
  tls : Bool
  client : Bool
  offersStartTLS : Bool
  auth : Bool
  mail : Bool
  rcpt : Bool
  data : Bool
  write : Bool
  close : Bool

/-- What the notifier does on the wire. -/
inductive Wire : Type where
  | dial
  /-- a handshake, at once or after `STARTTLS`, and whether it encrypts the channel -/
  | tls (established : Bool)
  | greet
  | auth (user password : Text)
  | mail (sender : Text)
  | rcpt (recipient : Text)
  | data
  | write (msg : Text)
  | close
  | quit
  deriving DecidableEq, Repr

/-- A step of the dialogue; the rest follows if it succeeds. -/
def attempt (ok : Bool) (w : Wire) (rest : List Wire) : List Wire :=
  w :: if ok then rest else []

/-- The message of `send`. -/
def SMTPNotifier.headers (n : SMTPNotifier) (recipient subject : Text) : List Text :=
  ["From: ".toList ++ n.sender, "To: ".toList ++ recipient, "Subject: ".toList ++ subject,
    "MIME-Version: 1.0".toList, "Content-Type: text/plain; charset=UTF-8".toList]

/-- `send` from `AUTH` on. -/
def SMTPNotifier.transmit (n : SMTPNotifier) (relay : Relay) (recipient msg : Text) : List Wire :=
  let mail := attempt relay.mail (.mail n.sender) <| attempt relay.rcpt (.rcpt recipient) <|
    attempt relay.data .data <| attempt relay.write (.write msg) <|
      attempt relay.close .close [.quit]
  if n.user ≠ [] then attempt relay.auth (.auth n.user n.password) mail else mail

/-- `send` -/
def SMTPNotifier.send (n : SMTPNotifier) (relay : Relay) (recipient subject body : Text) :
    List Wire :=
  if !n.enabled || !validEnvelopeAddr recipient || !validEnvelopeAddr n.sender ||
    !validHeaderValue subject then []
  else
    let transmit := n.transmit relay recipient (joinMessage (n.headers recipient subject) body)
    attempt relay.dial .dial <|
      if n.implicitTLS then
        attempt relay.tls (.tls relay.tls) <| attempt relay.client .greet transmit
      else attempt relay.client .greet <|
        if relay.offersStartTLS then attempt relay.tls (.tls relay.tls) transmit else []

/-- What must not be read on the way. -/
def Wire.confidential : Wire → Bool
  | .auth _ _ | .mail _ | .rcpt _ | .data | .write _ => true
  | .dial | .tls _ | .greet | .close | .quit => false

/-- **Nothing confidential in the clear.** Whatever the relay does, what is sent before a handshake
has encrypted the channel is neither credentials nor mail; where none does, that is all that is
sent. -/
theorem clear_harmless (n : SMTPNotifier) (relay : Relay) (recipient subject body : Text) :
    (((n.send relay recipient subject body).takeWhile (· ≠ .tls true)).any Wire.confidential) =
      false := by
  unfold SMTPNotifier.send
  split
  · simp
  · simp only []
    generalize n.transmit relay recipient (joinMessage (n.headers recipient subject) body) = rest
    cases relay.dial <;> cases relay.tls <;> cases relay.client <;> cases relay.offersStartTLS <;>
      cases n.implicitTLS <;> simp [attempt, Wire.confidential]

/-! ## What arrives -/

variable {n : SMTPNotifier} {relay : Relay} {recipient subject body : Text}

/-- An address on one line and without control characters. -/
def Plain (addr : Text) : Prop := ∀ c ∈ addr, 32 < c.toNat ∧ c.toNat ≠ 127

theorem plain_of_valid (h : validEnvelopeAddr recipient = true) : Plain recipient := by
  simp only [validEnvelopeAddr, Bool.and_eq_true, List.all_eq_true, decide_eq_true_eq] at h
  exact h.2

theorem Plain.oneLine (h : Plain recipient) : OneLine recipient := by
  intro c hc
  constructor
  · rintro rfl
    exact absurd (h _ hc).1 (by decide)
  · rintro rfl
    exact absurd (h _ hc).1 (by decide)

theorem oneLine_of_valid (h : validHeaderValue subject = true) : OneLine subject := by
  simpa [validHeaderValue, OneLine, List.all_eq_true] using h

theorem oneLine_append {s t : Text} (hs : OneLine s) (ht : OneLine t) : OneLine (s ++ t) := by
  intro c hc
  rcases List.mem_append.1 hc with hc | hc
  · exact hs c hc
  · exact ht c hc

theorem oneLine_headers (hrec : Plain recipient) (hsender : Plain n.sender)
    (hsubject : OneLine subject) : ∀ l ∈ n.headers recipient subject, OneLine l ∧ l ≠ [] := by
  have hfixed : ∀ s ∈ ["From: ", "To: ", "Subject: ", "MIME-Version: 1.0",
      "Content-Type: text/plain; charset=UTF-8"], validHeaderValue s.toList = true := by
    decide
  simp only [List.forall_mem_cons] at hfixed
  obtain ⟨hfrom, hto, hsubj, hmime, htype, -⟩ := hfixed
  simp only [SMTPNotifier.headers, List.forall_mem_cons]
  exact ⟨⟨oneLine_append (oneLine_of_valid hfrom) hsender.oneLine, by simp⟩,
    ⟨oneLine_append (oneLine_of_valid hto) hrec.oneLine, by simp⟩,
    ⟨oneLine_append (oneLine_of_valid hsubj) hsubject, by simp⟩,
    ⟨oneLine_of_valid hmime, by simp⟩, ⟨oneLine_of_valid htype, by simp⟩, by simp⟩

theorem forall_attempt {P : Wire → Prop} {ok : Bool} {w : Wire} {rest : List Wire} (hw : P w)
    (hrest : ∀ v ∈ rest, P v) : ∀ v ∈ attempt ok w rest, P v := by
  refine List.forall_mem_cons.2 ⟨hw, ?_⟩
  split
  · exact hrest
  · exact fun _ h => by cases h

/-- What a dialogue can say about a mail. -/
def Wire.About (n : SMTPNotifier) (recipient msg : Text) : Wire → Prop
  | .mail sender => sender = n.sender
  | .rcpt r => r = recipient
  | .write m => m = msg
  | _ => True

theorem about_transmit (n : SMTPNotifier) (relay : Relay) (recipient msg : Text) :
    ∀ w ∈ n.transmit relay recipient msg, w.About n recipient msg := by
  have hmail : ∀ w ∈ attempt relay.mail (.mail n.sender) (attempt relay.rcpt (.rcpt recipient)
      (attempt relay.data .data (attempt relay.write (.write msg)
        (attempt relay.close .close [.quit])))), w.About n recipient msg := by
    refine forall_attempt rfl (forall_attempt rfl (forall_attempt trivial (forall_attempt rfl
      (forall_attempt trivial ?_))))
    exact List.forall_mem_singleton.2 trivial
  unfold SMTPNotifier.transmit
  split
  · exact forall_attempt trivial hmail
  · exact hmail

theorem about_send : ∀ w ∈ n.send relay recipient subject body,
    (validEnvelopeAddr recipient = true ∧ validEnvelopeAddr n.sender = true ∧
      validHeaderValue subject = true) ∧
    w.About n recipient (joinMessage (n.headers recipient subject) body) := by
  intro w hw
  unfold SMTPNotifier.send at hw
  split at hw
  · cases hw
  · rename_i hvalid
    simp only [Bool.not_eq_true, Bool.or_eq_false_iff, Bool.not_eq_false'] at hvalid
    refine ⟨⟨hvalid.1.1.2, hvalid.1.2, hvalid.2⟩, ?_⟩
    revert w
    have htransmit :=
      about_transmit n relay recipient (joinMessage (n.headers recipient subject) body)
    refine forall_attempt trivial ?_
    split
    · exact forall_attempt trivial (forall_attempt trivial htransmit)
    · refine forall_attempt trivial ?_
      split
      · exact forall_attempt trivial htransmit
      · exact fun _ h => by cases h

/-- **No injection.** The addresses of the envelope are the given ones, on one line and without
control characters, and the message that is written reads as its five headers and the body,
whatever recipient, subject and body are. -/
theorem mail_exact (n : SMTPNotifier) (relay : Relay) (recipient subject body : Text) :
    (∀ r, .rcpt r ∈ n.send relay recipient subject body → r = recipient ∧ Plain r) ∧
    (∀ r, .mail r ∈ n.send relay recipient subject body → r = n.sender ∧ Plain r) ∧
    ∀ m, .write m ∈ n.send relay recipient subject body → ∀ fuel > 5,
      readMessage fuel m = some (n.headers recipient subject, body) := by
  refine ⟨fun r hr => ?_, fun r hr => ?_, fun m hm fuel hfuel => ?_⟩
  · obtain ⟨⟨hvalid, -⟩, rfl⟩ := about_send _ hr
    exact ⟨rfl, plain_of_valid hvalid⟩
  · obtain ⟨⟨-, hvalid, -⟩, rfl⟩ := about_send _ hr
    exact ⟨rfl, plain_of_valid hvalid⟩
  · obtain ⟨⟨hrec, hsender, hsubject⟩, rfl⟩ := about_send _ hm
    exact readMessage_join (oneLine_headers (plain_of_valid hrec) (plain_of_valid hsender)
      (oneLine_of_valid hsubject)) body hfuel

end FinnAuth.Smtp
