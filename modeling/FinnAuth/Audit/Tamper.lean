import FinnAuth.Audit.Archive

/-!
# Tamper evidence

Two checkpoints leave room for one list of rows only. The last row carries the hash of the end
checkpoint, the hash determines the signed text, and the signed text holds the hash of the row
before it, so the rows are determined from the end to the start.

What is not signed, the id of the row, the email, the address and the detail, is not protected.

Results:
* **`verifyEvents_unique`**: two accepted lists agree on every signed field, row by row.
-/

namespace FinnAuth.Audit

open Lib

variable {pl : Platform} {keys : Keys} {tid : String}

/-- The two rows agree on every signed field and carry the same hash. -/
structure Agrees (x y : AuditLog) : Prop where
  signed : SameSigned x y
  sequence : x.sequence = y.sequence
  recordHash : x.recordHash = y.recordHash

/-- The MAC of a verified row determines it. -/
theorem agrees_of_hash {ring ring' : Keys} (hmac : pl.CollisionFree) {x y : AuditLog}
    (hx : ring.verify pl x = true) (hy : ring'.verify pl y = true)
    (h : x.recordHash = y.recordHash) : Agrees x y := by
  obtain ⟨key, -, hx⟩ := Keys.verify_iff.1 hx
  obtain ⟨key', -, hy⟩ := Keys.verify_iff.1 hy
  have hcanon : canonical x = canonical y :=
    (hmac _ _ _ _ (by rw [hx.mac, hy.mac, h])).2
  have hsame := canonical_injective hcanon
  refine ⟨hsame, ?_, h⟩
  -- both numbers are there, since neither is 0
  have hseq := hsame.sequence
  have hx0 := hx.sequence
  have hy0 := hy.sequence
  cases hxs : x.sequence with
  | none => rw [hxs] at hx0; exact absurd rfl hx0
  | some m =>
    cases hys : y.sequence with
    | none => rw [hys] at hy0; exact absurd rfl hy0
    | some n => rw [hxs, hys] at hseq; exact congrArg some hseq

/-- Two chains of verified rows with the same end and the same first number agree row by row; the
rings that verified them may differ. -/
theorem agrees_of_leads {ring ring' : Keys} (hmac : pl.CollisionFree) {n : Nat} {h h' : String}
    {q : Nat × String} {xs ys : List AuditLog} (hx : ∀ x ∈ xs, ring.verify pl x = true)
    (hy : ∀ y ∈ ys, ring'.verify pl y = true) (hxs : links.Leads (n, h) xs q)
    (hys : links.Leads (n, h') ys q) : List.Forall₂ Agrees xs ys := by
  let P (e : AuditLog) : Prop := ring.verify pl e = true ∨ ring'.verify pl e = true
  refine Links.leads_unique (P := P) (fun x y hPx hPy hd => ?_) (fun x hm => .inl (hx x hm))
    (fun y hm => .inr (hy y hm)) hxs hys
  have hagrees : Agrees x y := by
    rcases hPx with hPx | hPx <;> rcases hPy with hPy | hPy <;> exact agrees_of_hash hmac hPx hPy hd
  exact ⟨hagrees, hagrees.signed.prevHash⟩

/-- **Two checkpoints leave room for one list of rows only**, up to what is not signed: a list with
a row less, more, out of place or changed is rejected. -/
theorem verifyEvents_unique (hmac : pl.CollisionFree) {base end_ : Checkpoint}
    {xs ys : List AuditLog} (hx : verifyEvents pl keys tid base end_ xs = .ok ())
    (hy : verifyEvents pl keys tid base end_ ys = .ok ()) :
    xs.length = ys.length ∧ List.Forall₂ Agrees xs ys := by
  obtain ⟨-, -, hvx, hxs⟩ := verifyEvents_iff.1 hx
  obtain ⟨-, -, hvy, hys⟩ := verifyEvents_iff.1 hy
  have hall := agrees_of_leads hmac (fun x hm => (hvx x hm).verify)
    (fun y hm => (hvy y hm).verify) hxs hys
  exact ⟨hall.length_eq, hall⟩

/-- A ring with one key of each kind. -/
def Keys.sample : Keys where
  current := "k1"
  signing := [("k1", "signing")]
  checkpoints := [("c1", "checkpoint")]
  checkpointCurrent := "c1"
  current_held := rfl
  checkpoint_held := rfl

/-- The first event of a chain. -/
def AuditLog.sample : AuditLog :=
  Keys.sample.sign .plain
    { id := 0, tenantID := "t", userID := none, email := "", event := "login", ipAddress := ""
      success := true, detail := "", prevHash := genesisAuditHash, recordHash := ""
      createdAt := 1000000, version := 1, eventID := "e1", sequence := some 1, keyID := ""
      actorKind := "unauthenticated", actorID := 0, requestID := "r1", action := "" }

/-- The second one. -/
def AuditLog.sampleAfter : AuditLog :=
  Keys.sample.sign .plain { AuditLog.sample with
    eventID := "e2", sequence := some 2, prevHash := AuditLog.sample.recordHash }

/-- Both events, with these values where nothing is signed. -/
def sampleChain (id : Nat) (detail : String) : List AuditLog :=
  [{ AuditLog.sample with id := id, detail := detail },
    { AuditLog.sampleAfter with id := id + 1, detail := detail }]

/-- The start of the chain. -/
def Checkpoint.sampleBase : Checkpoint := Keys.sample.checkpoint .plain "t" 0 genesisAuditHash

/-- The chain after both events. -/
def Checkpoint.sampleEnd : Checkpoint :=
  Keys.sample.checkpoint .plain "t" 2 AuditLog.sampleAfter.recordHash

theorem verifyEvents_sampleChain (id : Nat) (detail : String) :
    verifyEvents .plain .sample "t" .sampleBase .sampleEnd (sampleChain id detail) = .ok () := by
  have hfirst : Keys.sample.verify .plain .sample = true :=
    Keys.verify_iff.2 ⟨_, Keys.sample.lookup_current, Keys.signedWith_sign rfl (by decide)⟩
  have hafter : Keys.sample.verify .plain .sampleAfter = true :=
    Keys.verify_iff.2 ⟨_, Keys.sample.lookup_current, Keys.signedWith_sign rfl (by decide)⟩
  refine verifyEvents_iff.2 ⟨⟨rfl, rfl⟩, ⟨Keys.verifyCheckpoint_checkpoint ..,
    Keys.verifyCheckpoint_checkpoint ..⟩, ?_, rfl, rfl, rfl, rfl, rfl⟩
  exact List.forall_mem_cons.2 ⟨⟨rfl, hfirst⟩, List.forall_mem_singleton.2 ⟨rfl, hafter⟩⟩

/-- A chain of two events with other ids and a detail is accepted in its place, and agrees with it
on what is signed. -/
theorem verifyEvents_unique_sample :
    verifyEvents .plain .sample "t" .sampleBase .sampleEnd (sampleChain 0 "") = .ok () ∧
      verifyEvents .plain .sample "t" .sampleBase .sampleEnd (sampleChain 7 "seen") = .ok () ∧
      (sampleChain 0 "").length = (sampleChain 7 "seen").length ∧
      List.Forall₂ Agrees (sampleChain 0 "") (sampleChain 7 "seen") := by
  have hx := verifyEvents_sampleChain 0 ""
  have hy := verifyEvents_sampleChain 7 "seen"
  exact ⟨hx, hy, verifyEvents_unique Platform.plain_collisionFree hx hy⟩

end FinnAuth.Audit
