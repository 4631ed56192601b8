import FinnAuth.Audit.Gapless
import FinnAuth.Audit.Tamper

/-!
# Archives go and come back

`PurgeArchive` deletes the rows of an archive that stands at the boundary, `RestoreArchive` inserts
its events again once the boundary is back at its end. Both check the archive, and the purge checks
the rows too: as two checkpoints leave room for one list of rows only, what is deleted is what the
archive lists, and what is inserted later agrees with it.

Between the two anything may happen, further purges and restores included. All that counts is that
the boundary has come back, since no row of the tenant stands below it.

Results:
* **`archive_roundtrip`**: a purge deletes the events of the archive, a restore brings the rows and
  the boundary back, and a call that fails changes nothing.
-/

namespace FinnAuth.Audit

open Lib

variable {β ρ : Type} {pl : Platform} {maxPending : Nat}

/-! ## Agreement -/

variable {a : AuditArchive} {t : String} {keys : Keys} {x y : AuditLog} {db db₁ : AuditTables}
  {p : RetentionPolicy}

theorem Agrees.symm (h : Agrees x y) : Agrees y x where
  signed := ⟨h.signed.version.symm, h.signed.eventID.symm, h.signed.tenantID.symm,
    h.signed.sequence.symm, h.signed.prevHash.symm, h.signed.keyID.symm, h.signed.createdAt.symm,
    h.signed.actorKind.symm, h.signed.actorID.symm, h.signed.userID.symm, h.signed.requestID.symm,
    h.signed.event.symm, h.signed.action.symm, h.signed.success.symm⟩
  sequence := h.sequence.symm
  recordHash := h.recordHash.symm

theorem Agrees.archived (h : Agrees x y) : Agrees x y.archived :=
  ⟨⟨h.signed.version, h.signed.eventID, h.signed.tenantID, h.signed.sequence, h.signed.prevHash,
    h.signed.keyID, h.signed.createdAt, h.signed.actorKind, h.signed.actorID, h.signed.userID,
    h.signed.requestID, h.signed.event, h.signed.action, h.signed.success⟩, h.sequence,
    h.recordHash⟩

theorem Agrees.of_strip (h : Agrees x y.strip) : Agrees x y :=
  ⟨⟨h.signed.version, h.signed.eventID, h.signed.tenantID, h.signed.sequence, h.signed.prevHash,
    h.signed.keyID, h.signed.createdAt, h.signed.actorKind, h.signed.actorID, h.signed.userID,
    h.signed.requestID, h.signed.event, h.signed.action, h.signed.success⟩, h.sequence,
    h.recordHash⟩

/-! ## Ids only grow -/

theorem restore_next {t t' : LogTable} {events : List AuditLog} (h : t.restore events = .ok t') :
    t.next ≤ t'.next := by
  induction events generalizing t with
  | nil => cases h; exact Nat.le_refl _
  | cons e events ih =>
    unfold LogTable.restore at h
    split at h
    · cases h
    split at h
    · cases h
    rename_i t₁ ht₁
    have hnext := (LogTable.create_eq_some ht₁).2.2
    have := ih h
    omega

theorem Changes.next_le {repo : AuditRepository} {db db' : AuditTables} {es rs : List AuditLog}
    (h : Changes pl repo db es rs db') : db.logs.next ≤ db'.logs.next := by
  induction h with
  | refl db => exact Nat.le_refl _
  | head hc _ ih =>
    refine Nat.le_trans ?_ ih
    cases hc with
    | admission ha => rw [ha.logs]
    | requeue hq => rw [hq.logs]
    | deliver hd =>
      obtain ⟨logs, rfl, hcreate | ⟨rfl, -⟩⟩ := hd.after
      · exact (LogTable.create_eq_some hcreate).2.2 ▸ Nat.le_succ _
      · exact Nat.le_refl _
    | purge hp => rw [hp.after]; exact Nat.le_refl _
    | restore hr =>
      obtain ⟨logs, hlogs, rfl⟩ := hr.after
      exact restore_next hlogs
    | anonymize => exact Nat.le_refl _

/-- The ids given out are never given out again in a run. -/
theorem next_le_run (s : Store β) (steps : List (AuditStep β ρ)) :
    s.tables.logs.next ≤ (auditRun pl maxPending s steps).state.tables.logs.next :=
  Run.exec_induct
    (I := fun r : AuditRun β ρ => s.tables.logs.next ≤ r.state.tables.logs.next)
    (fun r i h => Nat.le_trans h (perform_changes i r.state).next_le) steps (Nat.le_refl _)

/-! ## Rows and boundary -/

section Rows

variable {db db' : AuditTables} {log old cs : List AuditLog} {t : String} {keys : Keys}
  {a : AuditArchive} {r : AuditLog}

/-- No row stands below the boundary. -/
theorem Linked.above (h : Linked db log old t cs) (hr : r ∈ db.hot t) :
    (db.boundaryOf t).sequence < links.seq r :=
  (Links.seq_of_mem h.leads ((h.hot r.strip).1 ⟨r, hr, rfl⟩).1).1

theorem Linked.range_zero (h : Linked db log old t cs) (hi : Nat) :
    db.range t 0 hi = db.range t (db.boundaryOf t).sequence hi := by
  unfold AuditTables.range
  congr 1
  refine List.filter_congr fun r hr => ?_
  have habove := h.above hr
  rw [Bool.eq_iff_iff, inRange_iff (by omega), inRange_iff (by omega)]
  omega

/-- What a purge finds in the range of its archive are the events of the archive. -/
theorem Purges.agrees (hmac : pl.CollisionFree) (hp : Purges pl keys t a db db') :
    List.Forall₂ Agrees (db.range t a.base.sequence a.end_.sequence) a.events := by
  obtain ⟨-, -, hrows, hrange⟩ := verifyEvents_iff.1 hp.rows
  obtain ⟨-, -, hevents, harchive⟩ := verifyEvents_iff.1 hp.archived
  exact agrees_of_leads hmac (fun x hx => (hrows x hx).verify) (fun y hy => (hevents y hy).verify)
    hrange harchive

theorem mem_range {lo hi : Nat} : r ∈ db.range t lo hi ↔ r ∈ db.hot t ∧ inRange lo hi r = true := by
  rw [AuditTables.range, (bySequence_perm _).mem_iff, List.mem_filter]

theorem covers_iff (hr : r ∈ db.logs.rows) :
    a.covers t r = true ↔ r ∈ db.range t a.base.sequence a.end_.sequence := by
  rw [mem_range, AuditTables.hot, List.mem_filter]
  simp [AuditArchive.covers, hr]

/-- **A purge deletes the events its archive lists**, and nothing else. -/
theorem Purges.deletes (hmac : pl.CollisionFree) (hp : Purges pl keys t a db db')
    (hr : r ∈ db.logs.rows) : r ∉ db'.logs.rows ↔ ∃ e ∈ a.events, Agrees e r := by
  have hkept : r ∈ db'.logs.rows ↔ a.covers t r = false := by
    rw [hp.after]
    change r ∈ db.logs.rows.filter _ ↔ _
    simp [hr]
  have hagrees := hp.agrees hmac
  rw [hkept, Bool.not_eq_false, covers_iff hr]
  constructor
  · intro hmem
    obtain ⟨e, he, hre⟩ := Table.exists_of_forall₂ hagrees hmem
    exact ⟨e, he, hre.symm⟩
  · rintro ⟨e, he, hre⟩
    -- the row has the tenant, the version and the number of the event
    obtain ⟨-, -, hver, hleads⟩ := verifyEvents_iff.1 hp.archived
    obtain ⟨key, -, hsigned⟩ := Keys.verify_iff.1 (hver e he).verify
    have hseq : links.seq e = links.seq r := congrArg (·.getD 0) hre.sequence
    have hrange := Links.seq_of_mem hleads he
    rw [hseq] at hrange
    refine mem_range.2 ⟨List.mem_filter.2 ⟨hr, ?_⟩, (inRange_iff (by omega)).2 hrange⟩
    simp [← hre.signed.tenantID, ← hre.signed.version, (hver e he).tenantID, hsigned.version]

/-- The rows up to the end of the archive, after it was put back. -/
theorem Linked.restored_range (hr : Restores pl keys t a db db') (h : Linked db log old t cs) :
    (db'.range t 0 a.end_.sequence).map AuditLog.strip = a.events.map AuditLog.archived := by
  have h' := linked_restore_same hr h
  have hout : db'.outbox = db.outbox := by
    obtain ⟨logs, -, rfl⟩ := hr.after
    rfl
  have hdel := h.restored_delivered hr
  obtain ⟨-, -, -, hleads⟩ := verifyEvents_iff.1 hr.archived
  have hcs := h.leads
  rw [hr.sequence, hr.hash] at hcs
  rw [h'.range, List.filter_append, List.filter_append]
  have hback : ((a.events.map AuditLog.archived).filter
      fun c => db'.delivered t (links.seq c)).filter (inRange 0 a.end_.sequence) =
      a.events.map AuditLog.archived := by
    rw [List.filter_eq_self.2 fun y hy => (delivered_congr hout ..).trans (hdel y hy),
      List.filter_eq_self]
    intro y hy
    have hseq := Links.seq_of_mem (leads_archived.2 hleads) hy
    exact (inRange_iff (by omega)).2 ⟨by omega, hseq.2⟩
  have hnewer : (cs.filter fun c => db'.delivered t (links.seq c)).filter
      (inRange 0 a.end_.sequence) = [] := by
    refine List.filter_eq_nil_iff.2 fun c hc => ?_
    have hseq := (Links.seq_of_mem hcs (List.mem_filter.1 hc).1).1
    rw [inRange_iff (by omega)]
    omega
  rw [hback, hnewer, List.append_nil]

end Rows

/-! ## The round trip -/

/-- What a purge of the archive has done to the tables. -/
structure Gone (a : AuditArchive) (db db₁ : AuditTables) : Prop where
  /-- the rows that are gone are the events of the archive -/
  deleted : ∀ r ∈ db.logs.rows, r ∉ db₁.logs.rows ↔ ∃ e ∈ a.events, Agrees e r
  kept : ∀ r ∈ db₁.logs.rows, r ∈ db.logs.rows
  heads : db₁.heads = db.heads
  outbox : db₁.outbox = db.outbox

/-- What the tables hold after the archive was put back; `db` is before its purge, `db₂` and `db₃`
are before and after the restore. -/
structure Back (t : String) (a : AuditArchive) (db db₂ db₃ : AuditTables) : Prop where
  rows : List.Forall₂ Agrees (db.range t 0 a.end_.sequence) (db₃.range t 0 a.end_.sequence)
  clean : ∀ r ∈ db₃.range t 0 a.end_.sequence,
    r.email = "" ∧ r.ipAddress = "" ∧ r.detail = "" ∧ ∀ x ∈ db.logs.rows, x.id ≠ r.id
  boundary : db₃.boundaryOf t = db.boundaryOf t
  heads : db₃.heads = db₂.heads
  outbox : db₃.outbox = db₂.outbox
  /-- nothing else was touched -/
  newer : ∃ new, db₃.logs.rows = db₂.logs.rows ++ new ∧ ∀ r ∈ new, a.covers t r = true

theorem gone_of_purges (hmac : pl.CollisionFree) (hp : Purges pl keys t a db db₁) :
    Gone a db db₁ where
  deleted r hr := hp.deletes hmac hr
  kept r hr := by
    rw [hp.after] at hr
    exact (List.mem_filter.1 hr).1
  heads := by rw [hp.after]; rfl
  outbox := by rw [hp.after]; rfl

theorem back_of_restores (hmac : pl.CollisionFree) {keys keys' : Keys}
    {db db₁ db₂ db₃ : AuditTables} {log old cs log₂ old₂ cs₂ : List AuditLog}
    (hp : Purges pl keys t a db db₁) (h : Linked db log old t cs)
    (hr : Restores pl keys' t a db₂ db₃) (h₂ : Linked db₂ log₂ old₂ t cs₂)
    (hnext : db.logs.next ≤ db₂.logs.next) : Back t a db db₂ db₃ := by
  have hrange := Linked.restored_range hr h₂
  have hagrees : List.Forall₂ Agrees (db.range t 0 a.end_.sequence)
      (a.events.map AuditLog.archived) := by
    rw [h.range_zero, hp.sequence]
    exact List.forall₂_map_right_iff.2 ((hp.agrees hmac).imp fun _ _ hxy => hxy.archived)
  have habove := fun r => h₂.above (r := r)
  rw [hr.sequence] at habove
  obtain ⟨logs, hlogs, hafter⟩ := hr.after
  rw [boundaryOf_tenantID] at hafter
  subst hafter
  obtain ⟨new, hrows, hnew, hids⟩ := restore_rows hlogs
  obtain ⟨-, -, hver, hleads⟩ := verifyEvents_iff.1 hr.archived
  refine ⟨?_, ?_, ?_, rfl, rfl, new, hrows, ?_⟩
  · rw [← hrange, List.forall₂_map_right_iff] at hagrees
    exact hagrees.imp fun _ _ hxy => hxy.of_strip
  · intro r hmem
    obtain ⟨hhot, hin⟩ := mem_range.1 hmem
    -- what stands up to the end of the archive was inserted by the restore
    have hrnew : r ∈ new := by
      obtain ⟨hrow, hver'⟩ := List.mem_filter.1 hhot
      change r ∈ logs.rows at hrow
      rw [hrows] at hrow
      refine (List.mem_append.1 hrow).resolve_left fun hold => ?_
      have hlater := habove r (List.mem_filter.2 ⟨hold, hver'⟩)
      have hupto := ((inRange_iff (by omega)).1 hin).2
      omega
    have hstrip : r.strip ∈ a.events.map AuditLog.archived := by
      rw [← hnew]
      exact List.mem_map_of_mem hrnew
    obtain ⟨e, -, hre⟩ := List.mem_map.1 hstrip
    refine ⟨(congrArg AuditLog.email hre).symm, (congrArg AuditLog.ipAddress hre).symm,
      (congrArg AuditLog.detail hre).symm, fun x hx => ?_⟩
    have hxid := db.logs.fresh x hx
    have hrid := hids r hrnew
    omega
  · rw [boundaryOf_setBoundary, if_pos rfl]
    have ht := boundaryOf_tenantID db t
    have hseq := hp.sequence
    have hhash := hp.hash
    generalize db.boundaryOf t = b at ht hseq hhash
    obtain ⟨tenantID, sequence, hash⟩ := b
    simp only at ht hseq hhash
    rw [ht, hseq, hhash]
  · intro r hm
    have hmem : r.strip ∈ a.events.map AuditLog.archived := by
      rw [← hnew]
      exact List.mem_map_of_mem hm
    have hseq := Links.seq_of_mem (leads_archived.2 hleads) hmem
    have hin : inRange a.base.sequence a.end_.sequence r = true :=
      (inRange_iff (show links.seq r.strip ≠ 0 by omega)).2 hseq
    obtain ⟨ht, hv⟩ := restored_row hver hnew hm
    simp [AuditArchive.covers, ht, hv, hin]

/-- **Archives go and come back.** In every state of a run, a purge that succeeds deletes the events
its archive lists and nothing else; whatever happens then, a restore of the archive that succeeds
leaves rows up to its end that agree with the ones before the purge, with new ids and without
personal text, and the boundary where it was before the purge, and touches neither head nor newer
rows. A purge or a restore that fails changes nothing. -/
theorem archive_roundtrip (hmac : pl.CollisionFree) {s₀ : Store β} (h₀ : s₀.tables.Fresh)
    (steps : List (AuditStep β ρ)) {s : Store β}
    (hs : s = (auditRun pl maxPending s₀ steps).state) (t : String) :
    (∀ ring p a db₁, purgeArchive pl ring t p a a.end_ s.tables = .ok ((), db₁) →
      Gone a s.tables db₁ ∧
      ∀ (mid : List (AuditStep β ρ)) ring' s₂ db₃,
        s₂ = (auditRun pl maxPending s (⟨ring, .purgeArchive t p a a.end_⟩ :: mid)).state →
        restoreArchive pl ring' t a a.end_ s₂.tables = .ok ((), db₃) →
        Back t a s.tables s₂.tables db₃) ∧
    ∀ ring p a trusted (u : Store β),
      ((perform pl maxPending (⟨ring, .purgeArchive t p a trusted⟩ : AuditStep β ρ) u).1.result ≠
          .ok () →
        (perform pl maxPending (⟨ring, .purgeArchive t p a trusted⟩ : AuditStep β ρ) u).2 = u) ∧
      ((perform pl maxPending (⟨ring, .restoreArchive t a trusted⟩ : AuditStep β ρ) u).1.result ≠
          .ok () →
        (perform pl maxPending (⟨ring, .restoreArchive t a trusted⟩ : AuditStep β ρ) u).2 = u) := by
  refine ⟨fun ring p a db₁ hpurge => ?_, fun ring p a trusted u =>
    ⟨fun hfail => ?_, fun hfail => ?_⟩⟩
  · have hp := purgeArchive_ok hpurge
    refine ⟨gone_of_purges hmac hp, fun mid ring' s₂ db₃ hs₂ hrestore => ?_⟩
    have hlogged : Logged pl s.tables _ _ := hs ▸ logged_run h₀ steps
    obtain ⟨cs, hcs⟩ := hlogged.chain t
    -- the states between purge and restore are states of the run too
    have hrun : s₂ = (auditRun pl maxPending s₀
        (steps ++ ⟨ring, .purgeArchive t p a a.end_⟩ :: mid)).state := by
      rw [hs₂, hs, auditRun_append]
      exact Run.exec_state_congr mid rfl
    have hlogged₂ : Logged pl s₂.tables _ _ := hrun ▸ logged_run h₀ _
    obtain ⟨cs₂, hcs₂⟩ := hlogged₂.chain t
    have hnext : s.tables.logs.next ≤ s₂.tables.logs.next := by
      rw [hs₂]
      exact next_le_run s _
    exact back_of_restores hmac hp hcs (restoreArchive_ok hrestore) hcs₂ hnext
  · simp only [perform, Store.commit] at hfail ⊢
    split
    · rename_i hok
      rw [hok] at hfail
      exact absurd rfl hfail
    · rfl
  · simp only [perform] at hfail ⊢
    split
    · rename_i hok
      rw [hok] at hfail
      exact absurd rfl hfail
    · rfl

/-! ## An archive of two events -/

/-- A purge of an archive that stands at the boundary succeeds. -/
theorem purgeArchive_of
    (hpolicy : p.enabled = true ∧ p.legalHold = false ∧ p.approval ≠ "" ∧
      ¬ p.maxRows < 1 ∧ ¬ (a.events.length : Int) > p.maxRows ∧ p.before ≠ zeroTime)
    (harchive : verifyEvents pl keys t a.base a.end_ a.events = .ok ())
    (hbefore : a.events.all p.admits = true)
    (hhead : (db.heads.first? fun h => Tenants.same h.tenantID t).isNone = false)
    (hseq : (db.boundaryOf t).sequence = a.base.sequence)
    (hhash : (db.boundaryOf t).hash = a.base.hash)
    (hrows : db.range t a.base.sequence a.end_.sequence = a.events) :
    purgeArchive pl keys t p a a.end_ db = .ok ((),
      { db with logs := db.logs.delete (a.covers t) }.setBoundary
        ⟨(db.boundaryOf t).tenantID, a.end_.sequence, a.end_.hash⟩) := by
  obtain ⟨henabled, hhold, happroval, hmax, hlength, hzero⟩ := hpolicy
  unfold purgeArchive
  simp only [henabled, hhold, happroval, hmax, hlength, hzero, harchive, hbefore, hhead, hseq,
    hhash,
    hrows, Bool.not_true, Bool.or_false, decide_false, ne_eq, not_true_eq_false, or_self,
    Bool.false_eq_true, if_false]

/-- A restore at the boundary succeeds if its rows find room. -/
theorem restoreArchive_of {h : AuditHead} {b : AuditBoundary} {logs : LogTable}
    (hlength : ¬ a.events.length > 1000)
    (harchive : verifyEvents pl keys t a.base a.end_ a.events = .ok ())
    (hhead : (db.heads.first? fun h => Tenants.same h.tenantID t) = some h)
    (hboundary : (db.boundaries.first? fun b => Tenants.same b.tenantID t) = some b)
    (hseq : b.sequence = a.end_.sequence) (hhash : b.hash = a.end_.hash)
    (hle : ¬ h.sequence < a.end_.sequence) (hlogs : db.logs.restore a.events = .ok logs) :
    restoreArchive pl keys t a a.end_ db = .ok ((),
      { db with logs := logs }.setBoundary ⟨b.tenantID, a.base.sequence, a.base.hash⟩) := by
  unfold restoreArchive
  simp only [hlength, harchive, hhead, hboundary, hseq, hhash, hle, hlogs, ne_eq,
    not_true_eq_false, or_self, if_false]

/-- A policy that lets the events of the first two milliseconds go. -/
def RetentionPolicy.sample : RetentionPolicy := ⟨"approved", true, false, 2000000, 1000⟩

/-- The archive of the two events of `pairDelivered`. -/
def AuditArchive.sample : AuditArchive where
  base := Keys.sample.checkpoint .plain "t" 0 genesisAuditHash
  end_ := Keys.sample.checkpoint .plain "t" 2 (sampleSecond "t").recordHash
  events := [{ sampleFirst with id := 1 }, { sampleSecond "t" with id := 2 }]

theorem accepted_sample : verifyEvents .plain .sample "t" AuditArchive.sample.base
    AuditArchive.sample.end_ AuditArchive.sample.events = .ok () := by
  have hfirst : Keys.sample.verify .plain sampleFirst = true := verify_event rfl
  have hsecond : Keys.sample.verify .plain (sampleSecond "t") = true := verify_event rfl
  refine verifyEvents_iff.2 ⟨⟨rfl, rfl⟩, ⟨Keys.verifyCheckpoint_checkpoint ..,
    Keys.verifyCheckpoint_checkpoint ..⟩, ?_, rfl, rfl, rfl, rfl, rfl⟩
  exact List.forall_mem_cons.2 ⟨⟨rfl, hfirst⟩, List.forall_mem_singleton.2 ⟨rfl, hsecond⟩⟩

/-- The store of `pairDelivered` without the archive. -/
def purgedStore : Store Unit where
  biz := ()
  tables := AuditTables.setBoundary { (pairStore "t").tables with
    logs := (pairStore "t").tables.logs.delete (AuditArchive.sample.covers "t") }
    ⟨"t", 2, (sampleSecond "t").recordHash⟩
  fresh := (pairStore "t").fresh

theorem purge_sample : purgeArchive .plain .sample "t" .sample .sample AuditArchive.sample.end_
    (pairStore "t").tables = .ok ((), purgedStore.tables) :=
  purgeArchive_of ⟨rfl, rfl, by decide, by decide, by decide, by decide⟩ accepted_sample rfl rfl rfl
    rfl rfl

/-- A third event is admitted between purge and restore. -/
def laterStore : Store Unit :=
  (perform .plain 1 (⟨.sample, .admission .sample⟩ : AuditStep Unit Unit) purgedStore).2

theorem perform_purge {ring : Keys} {s : Store β}
    (h : purgeArchive pl ring t p a a.end_ s.tables = .ok ((), db₁)) :
    (perform pl maxPending (⟨ring, .purgeArchive t p a a.end_⟩ : AuditStep β ρ) s).2 =
      { s with tables := db₁ } := by
  simp only [perform, Store.commit, h]

theorem auditRun_two (s : Store β) (a b : AuditStep β ρ) : (auditRun pl maxPending s [a, b]).state =
    (perform pl maxPending b (perform pl maxPending a s).2).2 := rfl

/-- The two events of `pairDelivered` are purged and, after a third one was admitted, put back. -/
theorem archive_roundtrip_sample : ∃ db₁ db₃,
    purgeArchive .plain .sample "t" .sample .sample AuditArchive.sample.end_
        (pairDelivered "t").state.tables = .ok ((), db₁) ∧
      (laterStore.tables.headOf "t").sequence = 3 ∧
      restoreArchive .plain .sample "t" .sample AuditArchive.sample.end_ laterStore.tables =
        .ok ((), db₃) ∧
      Gone .sample (pairDelivered "t").state.tables db₁ ∧
      Back "t" .sample (pairDelivered "t").state.tables laterStore.tables db₃ := by
  have hlater : (auditRun .plain 1 (pairStore "t") [(⟨.sample, .purgeArchive "t" .sample .sample
      AuditArchive.sample.end_⟩ : AuditStep Unit Unit), ⟨.sample, .admission .sample⟩]).state =
      laterStore := by
    rw [auditRun_two, perform_purge purge_sample]
    rfl
  obtain ⟨h, hhead, hsequence⟩ : ∃ h, (laterStore.tables.heads.first? fun h =>
    Tenants.same h.tenantID "t") = some h ∧ h.sequence = 3 := ⟨_, rfl, rfl⟩
  have hboundary : (laterStore.tables.boundaries.first? fun b => Tenants.same b.tenantID "t") =
    some ⟨"t", 2, (sampleSecond "t").recordHash⟩ := rfl
  obtain ⟨logs, hlogs⟩ : ∃ logs, laterStore.tables.logs.restore AuditArchive.sample.events =
    .ok logs := ⟨_, rfl⟩
  have hrestore := restoreArchive_of (by decide) accepted_sample hhead hboundary rfl rfl
    (by rw [hsequence]; decide) hlogs
  obtain ⟨hround, -⟩ := @archive_roundtrip Unit Unit .plain 1 Platform.plain_collisionFree .sample
    fresh_sample _ (pairDelivered "t").state rfl "t"
  rw [pairDelivered_text] at hround ⊢
  obtain ⟨hgone, hback⟩ := hround _ _ _ _ purge_sample
  exact ⟨_, _, purge_sample, rfl, hrestore, hgone, hback _ _ _ _ hlater.symm hrestore⟩

end FinnAuth.Audit
