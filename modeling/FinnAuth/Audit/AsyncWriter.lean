import FinnAuth.Lib.Run
import Mathlib.Algebra.Order.Group.Multiset
import Mathlib.Tactic.Abel

/-!
# The asynchronous audit writer

`AsyncAuditWriter` (`async_audit.go`) takes audit entries off the request path. Without a durable
repository `Record` puts an entry into a bounded channel, a worker collects entries into batches and
inserts them, and what finds no room or is not inserted is counted in `AuditDroppedEntries`. `Close`
lets the worker drain the channel; later entries are written directly, and if that fails nobody
counts them. With a durable repository `Record` admits the entry to the outbox,
and the channel only carries wakeups for the worker that dispatches it.

Any number of `Record` calls run beside the worker. A call is two steps, since it may stop between
its look at `closing` and its `select`; `Close` is two steps for the same reason. A flush is one
step: it shares nothing with the calls but the counter. The tenant stamp and `truncateDetail` are
`prepare`. Out of scope: synchronous mode, the deadline of `Close`, the metrics of the durable
worker.

Results:
* **`entries_accounted`**: an entry is in exactly one place, and the counter counts those lost on
  the way through the channel;
* **`shutdown_complete`**: if no call is in flight when `stopCh` is closed, the worker leaves
  nothing behind, and only a failed direct write is not counted;
* **`no_lost_wakeup`**: while the worker waits, an event it has not dispatched has a call that will
  still wake it.
-/

namespace FinnAuth.Audit

open Lib

variable {ε : Type}

/-! ## The buffered writer -/

/-- `AsyncAuditWriter` in asynchronous mode: the capacity of its channel, the size of a batch and
what `Record` makes of an entry. -/
structure AsyncAuditWriter (ε : Type) where
  bufferSize : Nat
  flushBatch : Nat
  prepare : ε → ε
  flushBatch_pos : 0 < flushBatch

/-- `NewAsyncAuditWriter`; without a buffer the writer is synchronous. -/
def newAsyncAuditWriter (prepare : ε → ε) (bufferSize flushBatch : Int) :
    Option (AsyncAuditWriter ε) :=
  if bufferSize ≤ 0 then none
  else if h : flushBatch ≤ 0 then some ⟨bufferSize.toNat, 64, prepare, by decide⟩
  else some ⟨bufferSize.toNat, flushBatch.toNat, prepare, by omega⟩

namespace AsyncAuditWriter

/-- Where the worker stands. -/
inductive Phase : Type where
  /-- in its loop -/
  | running
  /-- in `drainAndExit` -/
  | draining
  /-- it has drained the channel -/
  | done
  /-- the inserter panicked -/
  | dead
  deriving DecidableEq, Repr

/-- The writer, the table it writes to, and, beside what the program keeps, the entries that were
lost in the channel or the batch and those whose direct write failed. -/
structure State (ε : Type) where
  closing : Bool := false
  stopped : Bool := false
  /-- the calls between their look at `closing` and their `select` -/
  sending : List ε := []
  buffer : List ε := []
  batch : List ε := []
  phase : Phase := .running
  rows : List ε := []
  /-- `AuditDroppedEntries` -/
  dropped : Nat := 0
  lost : List ε := []
  unwritten : List ε := []
  deriving DecidableEq, Repr

/-- One step of a call, of the worker or of `Close`. Where a batch is inserted, the step says how
many of its entries the inserter takes before it fails, and where a call writes its entry itself,
whether that works. -/
inductive Move (ε : Type) : Type where
  | record (e : ε) (written : Bool)
  | send (i : Nat)
  | receive (inserted : Nat)
  | tick (inserted : Nat)
  | stop
  | drain (inserted : Nat)
  | panic (inserted : Nat)
  | setClosing
  | closeStop
  deriving DecidableEq, Repr

/-- `flush`: what `BatchInsert` does not take is lost, and counted. -/
def State.flush (s : State ε) (inserted : Nat) : State ε :=
  { s with
    rows := s.rows ++ s.batch.take inserted
    lost := s.lost ++ s.batch.drop inserted
    dropped := s.dropped + (s.batch.length - (s.batch.take inserted).length)
    batch := [] }

variable (w : AsyncAuditWriter ε)

/-- The worker takes an entry, and flushes a full batch. -/
def accept (inserted : Nat) (s : State ε) (e : ε) (rest : List ε) : State ε :=
  let s := { s with buffer := rest, batch := s.batch ++ [e] }
  if w.flushBatch ≤ s.batch.length then s.flush inserted else s

/-- One step; a step that is not enabled changes nothing. -/
def step (s : State ε) : Move ε → State ε
  | .record e written =>
    if s.closing then
      -- `Record` of the repository logs an error and returns nothing
      if written then { s with rows := s.rows ++ [w.prepare e] }
      else { s with unwritten := s.unwritten ++ [w.prepare e] }
    else { s with sending := s.sending ++ [w.prepare e] }
  | .send i =>
    match s.sending[i]? with
    | none => s
    | some e =>
      let s := { s with sending := s.sending.eraseIdx i }
      if s.buffer.length < w.bufferSize then { s with buffer := s.buffer ++ [e] }
      else { s with dropped := s.dropped + 1, lost := s.lost ++ [e] }
  | .receive inserted =>
    match s.phase, s.buffer with
    | .running, e :: rest => w.accept inserted s e rest
    | _, _ => s
  | .tick inserted => if s.phase = .running then s.flush inserted else s
  | .stop => if s.phase = .running ∧ s.stopped then { s with phase := .draining } else s
  | .drain inserted =>
    match s.phase, s.buffer with
    | .draining, e :: rest => w.accept inserted s e rest
    | .draining, [] => { s.flush inserted with phase := .done }
    | _, _ => s
  | .panic inserted =>
    if s.phase = .running ∨ s.phase = .draining then
      { s with
        rows := s.rows ++ s.batch.take inserted, batch := s.batch.drop inserted, phase := .dead }
    else s
  | .setClosing => { s with closing := true }
  | .closeStop => if s.closing then { s with stopped := true } else s

/-- The entry a step brings in. -/
def Move.entry? : Move ε → Option ε
  | .record e _ => some e
  | _ => none

/-- Everything a step can do. -/
inductive Steps (w : AsyncAuditWriter ε) (s : State ε) : Move ε → State ε → Prop where
  | disabled {m : Move ε} (hm : m.entry? = none) : Steps w s m s
  | direct (e : ε) (hc : s.closing = true) :
    Steps w s (.record e true) { s with rows := s.rows ++ [w.prepare e] }
  | unwritten (e : ε) (hc : s.closing = true) :
    Steps w s (.record e false) { s with unwritten := s.unwritten ++ [w.prepare e] }
  | enter (e : ε) (written : Bool) (hc : ¬ s.closing = true) :
    Steps w s (.record e written) { s with sending := s.sending ++ [w.prepare e] }
  | queue {i : Nat} {e : ε} (he : s.sending[i]? = some e) (hroom : s.buffer.length < w.bufferSize) :
    Steps w s (.send i) { s with sending := s.sending.eraseIdx i, buffer := s.buffer ++ [e] }
  | drop {i : Nat} {e : ε} (he : s.sending[i]? = some e) :
    Steps w s (.send i) { s with
      sending := s.sending.eraseIdx i, dropped := s.dropped + 1, lost := s.lost ++ [e] }
  | accept {m : Move ε} (inserted : Nat) {e : ε} {rest : List ε} (hm : m.entry? = none)
    (hp : s.phase ≠ .done) (hb : s.buffer = e :: rest) : Steps w s m (w.accept inserted s e rest)
  | flush (inserted : Nat) (hp : s.phase ≠ .done) : Steps w s (.tick inserted) (s.flush inserted)
  | stop (hs : s.stopped = true) : Steps w s .stop { s with phase := .draining }
  | finish (inserted : Nat) (hp : s.phase = .draining) (hb : s.buffer = []) :
    Steps w s (.drain inserted) { s.flush inserted with phase := .done }
  | panic (inserted : Nat) : Steps w s (.panic inserted) { s with
      rows := s.rows ++ s.batch.take inserted, batch := s.batch.drop inserted, phase := .dead }
  | close : Steps w s .setClosing { s with closing := true }
  | halt (hc : s.closing = true) : Steps w s .closeStop { s with stopped := true }

theorem steps (w : AsyncAuditWriter ε) (s : State ε) (m : Move ε) :
    Steps w s m (w.step s m) := by
  cases m with
  | record e written =>
    by_cases hc : s.closing = true
    · rw [step, if_pos hc]
      cases written with
      | true => exact .direct e hc
      | false => exact .unwritten e hc
    · rw [step, if_neg hc]
      exact .enter e written hc
  | send i =>
    simp only [step]
    split
    · exact .disabled rfl
    · rename_i e he
      split
      · rename_i hroom
        exact .queue he hroom
      · exact .drop he
  | receive inserted =>
    simp only [step]
    split
    · rename_i hp hb
      exact .accept inserted rfl (by rw [hp]; decide) hb
    · exact .disabled rfl
  | tick inserted =>
    simp only [step]
    split
    · rename_i hp
      exact .flush inserted (by rw [hp]; decide)
    · exact .disabled rfl
  | stop =>
    simp only [step]
    split
    · rename_i hp
      exact .stop hp.2
    · exact .disabled rfl
  | drain inserted =>
    simp only [step]
    split
    · rename_i hp hb
      exact .accept inserted rfl (by rw [hp]; decide) hb
    · rename_i hp hb
      exact .finish inserted hp hb
    · exact .disabled rfl
  | panic inserted =>
    simp only [step]
    split
    · exact .panic inserted
    · exact .disabled rfl
  | setClosing => exact .close
  | closeStop =>
    simp only [step]
    split
    · rename_i hc
      exact .halt hc
    · exact .disabled rfl

/-- The entries, wherever they are. -/
def State.held (s : State ε) : Multiset ε :=
  s.rows + s.lost + s.unwritten + s.batch + s.buffer + s.sending

theorem coe_take_drop (l : List ε) (n : Nat) :
    ((l.take n : List ε) : Multiset ε) + (l.drop n : List ε) = l := by
  rw [Multiset.coe_add, List.take_append_drop]

theorem held_flush (s : State ε) (inserted : Nat) : (s.flush inserted).held = s.held := by
  unfold State.held State.flush
  rw [← coe_take_drop s.batch inserted]
  simp only [← Multiset.coe_add, Multiset.coe_nil, add_zero]
  abel

variable {w} {s : State ε} {e : ε} {rest : List ε} {inserted : Nat}

theorem held_accept (h : s.buffer = e :: rest) : (w.accept inserted s e rest).held = s.held := by
  have hcons : ((e :: rest : List ε) : Multiset ε) = ([e] : List ε) + (rest : List ε) := rfl
  have htaken : State.held { s with buffer := rest, batch := s.batch ++ [e] } = s.held := by
    unfold State.held
    rw [h, hcons, ← Multiset.coe_add]
    abel
  unfold accept
  dsimp only
  split
  · rw [held_flush, htaken]
  · exact htaken

theorem counted_flush (h : s.dropped = s.lost.length) :
    (s.flush inserted).dropped = (s.flush inserted).lost.length := by
  simp only [State.flush, h, List.length_append, List.length_drop, List.length_take]
  omega

/-- **What every step keeps.** -/
structure Inv (w : AsyncAuditWriter ε) (s : State ε) : Prop where
  counted : s.dropped = s.lost.length
  direct : s.closing = false → s.unwritten = []
  room : s.buffer.length ≤ w.bufferSize
  batch : s.batch.length < w.flushBatch

theorem inv_flush (h : Inv w s) : Inv w (s.flush inserted) :=
  ⟨counted_flush h.counted, h.direct, h.room, w.flushBatch_pos⟩

theorem inv_accept (hb : s.buffer = e :: rest) (h : Inv w s) :
    Inv w (w.accept inserted s e rest) := by
  have hroom : rest.length ≤ w.bufferSize := by
    have := h.room
    rw [hb, List.length_cons] at this
    omega
  unfold accept
  dsimp only
  split
  · exact ⟨counted_flush h.counted, h.direct, hroom, w.flushBatch_pos⟩
  · rename_i hfull
    exact ⟨h.counted, h.direct, hroom, Nat.not_le.1 hfull⟩

theorem inv_step (m : Move ε) (h : Inv w s) : Inv w (w.step s m) := by
  have hs := steps w s m
  generalize w.step s m = s' at hs
  cases hs with
  | disabled | direct | enter | stop | halt => exact ⟨h.counted, h.direct, h.room, h.batch⟩
  | unwritten e hc =>
    refine ⟨h.counted, fun hopen => ?_, h.room, h.batch⟩
    rw [hc] at hopen
    cases hopen
  | close => exact ⟨h.counted, fun hopen => (by cases hopen), h.room, h.batch⟩
  | queue he hroom =>
    refine ⟨h.counted, h.direct, ?_, h.batch⟩
    rw [List.length_append, List.length_singleton]
    exact hroom
  | drop he =>
    refine ⟨?_, h.direct, h.room, h.batch⟩
    rw [List.length_append, List.length_singleton, h.counted]
  | accept inserted hm hp hb => exact inv_accept hb h
  | flush => exact inv_flush h
  | finish => exact ⟨counted_flush h.counted, h.direct, h.room, w.flushBatch_pos⟩
  | panic =>
    refine ⟨h.counted, h.direct, h.room, ?_⟩
    have := h.batch
    rw [List.length_drop]
    omega

/-- What `send` takes out. -/
theorem coe_sending {i : Nat} (he : s.sending[i]? = some e) :
    (s.sending : Multiset ε) = ([e] : List ε) + (s.sending.eraseIdx i : List ε) := by
  obtain ⟨hi, rfl⟩ := List.getElem?_eq_some_iff.1 he
  exact Quotient.sound (List.getElem_cons_eraseIdx_perm hi).symm

/-- **A step makes no entry but the one it brings in, and loses none without a trace.** -/
theorem held_step (s : State ε) (m : Move ε) :
    (w.step s m).held = s.held + (m.entry?.toList.map w.prepare : List ε) := by
  have hs := steps w s m
  generalize w.step s m = s' at hs
  cases hs with
  | disabled hm => rw [hm]; exact (add_zero _).symm
  | direct e | unwritten e | enter e =>
    change _ = _ + (([w.prepare e] : List ε) : Multiset ε)
    rw [State.held, State.held, ← Multiset.coe_add]
    abel
  | queue he | drop he =>
    rw [State.held, State.held, coe_sending he, ← Multiset.coe_add]
    abel
  | accept inserted hm hp hb => rw [hm, held_accept hb]; exact (add_zero _).symm
  | flush => rw [held_flush]; exact (add_zero _).symm
  | finish inserted => exact (held_flush s inserted).trans (add_zero _).symm
  | panic inserted =>
    rw [State.held, State.held, ← coe_take_drop s.batch inserted, ← Multiset.coe_add]
    abel
  | stop | close | halt => exact (add_zero _).symm

/-- A run of the writer. -/
def run (w : AsyncAuditWriter ε) (ms : List (Move ε)) : Run (State ε) (Move ε) Unit :=
  (Run.init {}).exec (fun m s => ((), w.step s m)) ms

/-- The entries that the calls of a history came with. -/
def recorded (hist : List (Record (State ε) (Move ε) Unit)) : List ε :=
  hist.filterMap fun x => x.input.entry?

/-- **Every entry is accounted for.** After any steps of any number of calls, of the worker and of
`Close`, the entries that were recorded are the rows of the table, the entries that were lost, those
whose direct write failed and those on their way. The counter says how many were lost, before
`Close` no direct write has failed, and neither the channel nor the batch has outgrown its bound. -/
theorem entries_accounted (w : AsyncAuditWriter ε) (ms : List (Move ε)) :
    (((recorded (w.run ms).hist).map w.prepare : List ε) : Multiset ε) = (w.run ms).state.held ∧
      Inv w (w.run ms).state := by
  refine Run.exec_induct (f := fun m s => ((), w.step s m))
    (I := fun r => (((recorded r.hist).map w.prepare : List ε) : Multiset ε) = r.state.held ∧
      Inv w r.state)
    (fun r m h => ⟨?_, inv_step m h.2⟩) ms ⟨rfl, rfl, fun _ => rfl, Nat.zero_le _, w.flushBatch_pos⟩
  rw [Run.step_state, held_step, ← h.1, Run.step_hist, recorded, List.filterMap_cons, add_comm]
  cases m.entry? <;> rfl

/-! ### Shutdown -/

/-- No call is between its look at `closing` and its `select` when `Close` closes `stopCh`. -/
def Orderly (m : Move ε) (r : Run (State ε) (Move ε) Unit) : Prop :=
  m = .closeStop → r.state.sending = []

instance [DecidableEq ε] (m : Move ε) (r : Run (State ε) (Move ε) Unit) : Decidable (Orderly m r) :=
  inferInstanceAs (Decidable (_ → _))

/-- What an orderly run keeps besides. -/
structure Closed (s : State ε) : Prop where
  sent : s.stopped = true → s.closing = true ∧ s.sending = []
  stopped : s.phase = .draining ∨ s.phase = .done → s.stopped = true
  drained : s.phase = .done → s.batch = [] ∧ s.buffer = []

theorem closed_init : Closed ({} : State ε) :=
  ⟨fun h => (by cases h), fun h => (by rcases h with h | h <;> cases h), fun h => by cases h⟩

theorem closed_accept (hp : s.phase ≠ .done) (h : Closed s) :
    Closed (w.accept inserted s e rest) := by
  unfold accept
  dsimp only
  split
  · exact ⟨h.sent, h.stopped, fun hd => absurd hd hp⟩
  · exact ⟨h.sent, h.stopped, fun hd => absurd hd hp⟩

theorem closed_step {m : Move ε} (hm : m = .closeStop → s.sending = []) (h : Closed s) :
    Closed (w.step s m) := by
  have hs := steps w s m
  generalize w.step s m = s' at hs
  -- with a call in flight `stopCh` is open
  have hopen : ∀ {i : Nat} {e : ε}, s.sending[i]? = some e → ¬ s.stopped = true := by
    intro i e he hs
    rw [(h.sent hs).2] at he
    simp at he
  cases hs with
  | disabled | direct | unwritten => exact ⟨h.sent, h.stopped, h.drained⟩
  | enter e written hc => exact ⟨fun hs => absurd (h.sent hs).1 hc, h.stopped, h.drained⟩
  | queue he =>
    exact ⟨fun hs => absurd hs (hopen he), h.stopped,
      fun hd => absurd (h.stopped (.inr hd)) (hopen he)⟩
  | drop he => exact ⟨fun hs => absurd hs (hopen he), h.stopped, h.drained⟩
  | accept inserted hm hp hb => exact closed_accept hp h
  | flush inserted hp => exact ⟨h.sent, h.stopped, fun hd => absurd hd hp⟩
  | stop hs => exact ⟨h.sent, fun _ => hs, fun hd => by cases hd⟩
  | finish inserted hp hb =>
    exact ⟨h.sent, fun _ => h.stopped (.inl hp), fun _ => ⟨rfl, hb⟩⟩
  | panic =>
    exact ⟨h.sent, fun hd => (by rcases hd with hd | hd <;> cases hd), fun hd => by cases hd⟩
  | close => exact ⟨fun hs => ⟨rfl, (h.sent hs).2⟩, h.stopped, h.drained⟩
  | halt hc => exact ⟨fun _ => ⟨hc, hm rfl⟩, fun _ => rfl, h.drained⟩

/-- **A drained writer leaves nothing behind.** If no call is in flight when `Close` closes
`stopCh`, then once the worker is done every recorded entry is a row, is counted as lost, or came
after `Close` and could not be written directly, whatever calls come later. -/
theorem shutdown_complete (w : AsyncAuditWriter ε) (ms : List (Move ε))
    (hms : (Run.init {}).Meets (fun m s => ((), w.step s m)) Orderly ms)
    (hdone : (w.run ms).state.phase = .done) :
    ((recorded (w.run ms).hist).map w.prepare).Perm
        ((w.run ms).state.rows ++ (w.run ms).state.lost ++ (w.run ms).state.unwritten) ∧
      (w.run ms).state.dropped = (w.run ms).state.lost.length := by
  obtain ⟨hheld, hinv⟩ := entries_accounted w ms
  have hclosed : Closed (w.run ms).state :=
    Run.exec_induct_meets (f := fun m s => ((), w.step s m)) (I := fun r => Closed r.state)
      (fun _ _ h hm => closed_step hm h) ms closed_init hms
  obtain ⟨hbatch, hbuffer⟩ := hclosed.drained hdone
  have hsending := (hclosed.sent (hclosed.stopped (.inr hdone))).2
  refine ⟨Multiset.coe_eq_coe.1 ?_, hinv.counted⟩
  rw [hheld, ← Multiset.coe_add, ← Multiset.coe_add, State.held, hbatch, hbuffer, hsending]
  simp only [Multiset.coe_nil, add_zero]

/-- Five entries: one finds the channel full, and of the two that come after `Close` one cannot be
written. -/
theorem shutdown_complete_five :
    let w : AsyncAuditWriter Nat := ⟨2, 2, id, by decide⟩
    let ms : List (Move Nat) := [.record 1 true, .send 0, .record 2 true, .send 0, .record 3 true,
      .send 0, .receive 0, .setClosing, .record 4 true, .closeStop, .record 5 false,
      .stop, .drain 1, .drain 0]
    ((recorded (w.run ms).hist).map w.prepare).Perm
        ((w.run ms).state.rows ++ (w.run ms).state.lost ++ (w.run ms).state.unwritten) ∧
      (w.run ms).state.dropped = (w.run ms).state.lost.length :=
  shutdown_complete _ _ (by decide) (by decide)

end AsyncAuditWriter

/-! ## The durable writer -/

namespace DurableAuditWriter

/-- Where `durableWorker` stands. -/
inductive Phase : Type where
  /-- in its `select` -/
  | idle
  /-- it took a wakeup or a tick, and has not called `Dispatch` yet -/
  | woken
  | dispatching
  | done
  deriving DecidableEq, Repr

/-- The channel holds at most one wakeup. `unseen` are the events that came into the outbox after
the last `Dispatch` began, and `waking` the calls, each with its events, that have yet to reach
`wakeup`. -/
structure State (ε : Type) where
  wakeup : Bool := false
  phase : Phase := .idle
  unseen : List ε := []
  waking : List (List ε) := []
  deriving DecidableEq, Repr

/-- One step of a call or of the worker. -/
inductive Move (ε : Type) : Type where
  /-- a `Record` admits its event, or an `AuditOperation` commits its events; a rolled back
  operation has none -/
  | commit (es : List ε)
  /-- `wakeup` of the `i`-th call on its way there -/
  | wake (i : Nat)
  | receive
  | tick
  | dispatch
  | dispatched
  /-- the worker finds `stopCh` closed and dispatches once more -/
  | stop
  deriving DecidableEq, Repr

/-- One step; a step that is not enabled changes nothing. -/
def step (s : State ε) : Move ε → State ε
  | .commit es => { s with unseen := s.unseen ++ es, waking := s.waking ++ [es] }
  | .wake i =>
    if i < s.waking.length then { s with wakeup := true, waking := s.waking.eraseIdx i } else s
  | .receive =>
    if s.phase = .idle ∧ s.wakeup then { s with wakeup := false, phase := .woken } else s
  | .tick => if s.phase = .idle then { s with phase := .woken } else s
  | .dispatch => if s.phase = .woken then { s with phase := .dispatching, unseen := [] } else s
  | .dispatched => if s.phase = .dispatching then { s with phase := .idle } else s
  | .stop => if s.phase = .idle then { s with phase := .done, unseen := [] } else s

/-- With no wakeup in the channel and none just taken, every unseen event has a call on its way to
`wakeup`. -/
def Announced (s : State ε) : Prop :=
  s.wakeup = false → s.phase = .idle ∨ s.phase = .dispatching → s.unseen ⊆ s.waking.flatten

theorem announced_step {s : State ε} (m : Move ε) (h : Announced s) : Announced (step s m) := by
  cases m with
  | commit es =>
    intro hw hp
    simp only [step, List.flatten_append, List.flatten_singleton]
    exact List.append_subset.2 ⟨List.subset_append_of_subset_left _ (h hw hp),
      List.subset_append_right _ _⟩
  | wake i =>
    simp only [step]
    split
    · exact fun hw => by cases hw
    · exact h
  | receive | tick =>
    simp only [step]
    split
    · exact fun _ hp => by rcases hp with hp | hp <;> cases hp
    · exact h
  | dispatch | stop =>
    simp only [step]
    split
    · exact fun _ _ => List.nil_subset _
    · exact h
  | dispatched =>
    simp only [step]
    split
    · rename_i hp
      exact fun hw _ => h hw (.inr hp)
    · exact h

/-- A run of the calls and the worker. -/
def run (ms : List (Move ε)) : Run (State ε) (Move ε) Unit :=
  (Run.init {}).exec (fun m s => ((), step s m)) ms

/-- **No wakeup is lost.** However the calls and the worker interleave, and however many wakeups are
dropped because the channel is full: when the worker waits on an empty channel, an event that no
`Dispatch` was begun for belongs to a call that has yet to send its wakeup. -/
theorem no_lost_wakeup (ms : List (Move ε)) (hphase : (run ms).state.phase = .idle)
    (hempty : (run ms).state.wakeup = false) (e : ε) (he : e ∈ (run ms).state.unseen) :
    ∃ es ∈ (run ms).state.waking, e ∈ es := by
  have hann : Announced (run ms).state :=
    Run.exec_induct (f := fun m s => ((), step s m)) (I := fun r => Announced r.state)
      (fun _ m h => announced_step m h) ms fun _ _ => List.nil_subset _
  exact List.mem_flatten.1 (hann hempty (.inl hphase) he)

/-- Two wakeups are merged while the worker dispatches; a third call is still on its way. -/
theorem no_lost_wakeup_three :
    let ms : List (Move Nat) := [.commit [1], .wake 0, .receive, .dispatch, .commit [2, 3],
      .commit [4], .wake 1, .wake 0, .dispatched, .receive, .dispatch, .commit [5], .dispatched]
    ∃ es ∈ (run ms).state.waking, 5 ∈ es :=
  no_lost_wakeup _ (by decide) (by decide) 5 (by decide)

end DurableAuditWriter

end FinnAuth.Audit
