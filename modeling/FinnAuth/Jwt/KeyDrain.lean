import FinnAuth.Jwt.Exact

/-!
# Key rotation

When the key of a manager becomes the previous key of its successor, the successor goes on accepting
the tokens of that key until `KeyDrain` after the last issuance: as long as any of them can live,
their expiry cut to seconds and the skew included. Then it refuses the key id altogether.

Results:
* `newConfigured_ok`: the keys of a configured manager;
* `expiry_of_verify`: an accepted access token was issued less than `KeyDrain` ago;
* **`key_drain`**.
-/

namespace FinnAuth.Jwt

open Lib JsonText JWTManager

variable {m : JWTManager} {pl : Platform} {now : Int} {a : AccessV1}

/-- The keys of a configured manager. -/
structure Configured (c : KeyConfig) (m : JWTManager) : Prop where
  currentKid : m.currentKid = c.currentID
  current : decodeStrongKey c.currentSecret = .ok m.current
  previous : ∀ last, c.previousLastIssued = some last →
    ∃ key, decodeStrongKey c.previousSecret = .ok key ∧
      m.previous = some ⟨c.previousID, key, last + keyDrain⟩

theorem newConfigured_ok {c : KeyConfig} (h : newConfiguredJWTManager now c = .ok m) :
    Configured c m := by
  unfold newConfiguredJWTManager at h
  split at h
  · split at h
    · cases h
    · rename_i current hcurrent
      split at h
      · split at h
        · cases h
        · rename_i hnone
          obtain rfl := Except.ok.inj h
          refine ⟨rfl, hcurrent, fun last hlast => absurd (.inr ?_) hnone⟩
          rw [hlast]
          rfl
      · split at h
        · cases h
        · rename_i previous hprevious
          split at h
          · cases h
          · rename_i last' hlast'
            split at h
            · obtain rfl := Except.ok.inj h
              refine ⟨rfl, hcurrent, fun last hlast => ⟨previous, hprevious, ?_⟩⟩
              obtain rfl := Option.some.inj (hlast'.symm.trans hlast)
              rfl
            · cases h
  · cases h

theorem issueAccessV1_token {t : Moment} {jti : Uuid} {token : String}
    (h : m.issueAccessV1 pl t jti a = .ok token) :
    token = m.sign pl (accessClaims t jti a) ∧ 0 < a.ttl ∧ a.ttl ≤ maxAccessTTL := by
  unfold issueAccessV1 at h
  split at h
  · cases h
  · rename_i hargs
    simp only [not_or, Int.not_le, Int.not_lt] at hargs
    exact ⟨(Except.ok.inj h).symm, hargs.2.2.2.2.2⟩

/-- An accepted access token was issued less than `KeyDrain` ago. -/
theorem expiry_of_verify {t : Moment} {jti : Uuid} {c : Claims}
    (httl : 0 < a.ttl ∧ a.ttl ≤ maxAccessTTL)
    (h : m.verify pl now (m.sign pl (accessClaims t jti a)) = .ok c) : now < t.val + keyDrain := by
  obtain ⟨-, -, hvalid, -, -⟩ := (verify_sign m.keys_currentKid (fits_accessClaims httl t jti)).1 h
  have hexp := ((validate_accessClaims now t jti a).1 hvalid).1
  unfold keyDrain
  unfold numericDate maxSkew second at hexp
  unfold maxAccessTTL maxSkew second at *
  omega

/-- The token names this key in its header. -/
def NamesKey (token kid : String) : Prop :=
  ∃ h p s ms, parts token = [h, p, s] ∧ (segment h).bind document = some (.obj ms) ∧
    ("kid", Value.str kid) ∈ ms

/-- A token is accepted under the key that it names. -/
theorem peekKid_of_namesKey {token kid : String} {c : Claims}
    (hverify : m.verify pl now token = .ok c) (hkid : NamesKey token kid) :
    peekKid token = kid := by
  obtain ⟨header, payload, hobj, -, -, hlookup⟩ := objects_of_verifies (verify_ok.1 hverify)
  obtain ⟨h, p, s, ms, hparts, hdoc, hmem⟩ := hkid
  obtain ⟨h', p', s', hparts', ⟨text, htext, hdoc', hnodup⟩, -⟩ := hobj.segments
  rw [hparts] at hparts'
  obtain ⟨rfl, -⟩ := List.cons.inj hparts'
  rw [htext, Option.bind_some, hdoc'] at hdoc
  obtain rfl := Value.obj.inj (Option.some.inj hdoc)
  rw [(lookup_iff_mem hnodup).2 hmem] at hlookup
  exact (Value.str.inj (Option.some.inj hlookup)).symm

/-- **Key rotation drains exactly.** A manager that has the key of `m` as its previous one accepts
what `m` issued until the last issuance for as long as `m` does, with the same claims; and from
`KeyDrain` after the last issuance on it refuses every token that names the key. -/
theorem key_drain (pl : Platform) {now₀ now₁ last : Int} {cfg cfg' : KeyConfig} {m m' : JWTManager}
    (hm : newConfiguredJWTManager now₀ cfg = .ok m)
    (hm' : newConfiguredJWTManager now₁ cfg' = .ok m')
    (hid : cfg'.previousID = cfg.currentID) (hsecret : cfg'.previousSecret = cfg.currentSecret)
    (hlast : cfg'.previousLastIssued = some last) :
    (∀ (t : Moment) (jti : Uuid) (a : AccessV1) (token : String),
      m.issueAccessV1 pl t jti a = .ok token → (t.val : Int) ≤ last → ∀ (now : Int) (c : Claims),
        (m.verify pl now token = .ok c → m'.verify pl now token = .ok c) ∧
        ∀ audience, m.verifyAccessV1 pl now token audience = .ok c →
          m'.verifyAccessV1 pl now token audience = .ok c) ∧
    ∀ (token : String) (now : Int), NamesKey token cfg'.previousID → last + 930 * second ≤ now →
      ∀ c, m'.verify pl now token ≠ .ok c := by
  have hconf := newConfigured_ok hm
  have hconf' := newConfigured_ok hm'
  obtain ⟨key, hkey, hprevious⟩ := hconf'.previous last hlast
  have hsame : key = m.current := by
    rw [hsecret, hconf.current] at hkey
    exact (Except.ok.inj hkey).symm
  have hkid : cfg'.previousID = m.currentKid := hid.trans hconf.currentKid.symm
  constructor
  · intro t jti a token hissue ht now c
    obtain ⟨rfl, httl⟩ := issueAccessV1_token hissue
    have hfits := fits_accessClaims httl t jti
    have hkeys : m'.keys m.currentKid = some m.current := by
      have hne : m.currentKid ≠ m'.currentKid := by
        rw [← hkid]
        exact m'.distinct _ hprevious
      simp [keys, hne, hprevious, hkid, hsame]
    have hverify : ∀ c, m.verify pl now (m.sign pl (accessClaims t jti a)) = .ok c →
        m'.verify pl now (m.sign pl (accessClaims t jti a)) = .ok c := by
      intro c hc
      have hnow := expiry_of_verify httl hc
      obtain ⟨rfl, -, hchecks⟩ := (verify_sign m.keys_currentKid hfits).1 hc
      refine (verify_sign hkeys hfits).2 ⟨rfl, fun p hp _ => ?_, hchecks⟩
      obtain rfl := Option.some.inj (hprevious.symm.trans hp)
      show now < last + keyDrain
      omega
    refine ⟨hverify c, fun audience hc => ?_⟩
    unfold verifyAccessV1 at hc ⊢
    split at hc
    · cases hc
    · rename_i haud
      rw [if_neg haud]
      split at hc
      · cases hc
      · rename_i c₀ hc₀
        rw [hverify c₀ hc₀]
        exact hc
  · intro token now hnames hnow c hc
    have hpeek := peekKid_of_namesKey hc hnames
    have hunretired := (verify_ok.1 hc).unretired _ hprevious hpeek
    have hdrain : keyDrain = 930 * second := by decide
    simp only [hdrain] at hunretired
    omega

/-- A key of 32 different bytes, and the next one. -/
def firstKey : KeyConfig :=
  ⟨"HS256", "k1", "AAECAwQFBgcICQoLDA0ODxAREhMUFRYXGBkaGxwdHh8=", "", "", none⟩

def secondKey : KeyConfig :=
  ⟨"HS256", "k2", "AQIDBAUGBwgJCgsMDQ4PEBESExQVFhcYGRobHB0eHyA=", "k1",
    "AAECAwQFBgcICQoLDA0ODxAREhMUFRYXGBkaGxwdHh8=", some (2 * second)⟩

theorem ok_of_isSome {ε α : Type} {e : Except ε α} (h : e.toOption.isSome = true) :
    ∃ a, e = .ok a := by
  cases e with
  | error _ => cases h
  | ok a => exact ⟨a, rfl⟩

/-- A token of the first key, accepted by both managers at the moment of issuance. -/
theorem key_drain_k1 : ∃ m m', newConfiguredJWTManager 0 firstKey = .ok m ∧
    newConfiguredJWTManager (3 * second) secondKey = .ok m' ∧
    ∃ token c, m.issueAccessV1 .plain sharp someUuid (session second) = .ok token ∧
      m'.verify .plain sharp.val token = .ok c := by
  obtain ⟨m, hm⟩ := ok_of_isSome (e := newConfiguredJWTManager 0 firstKey) (by decide +kernel)
  obtain ⟨m', hm'⟩ := ok_of_isSome (e := newConfiguredJWTManager (3 * second) secondKey)
    (by decide +kernel)
  have hadm : Admissible .plain (session second) := admissible_session (by decide)
  have hsecond : second ≤ sharp.val % second + (session second).ttl := by decide
  have hissue := issueAccessV1_ok (m := m) hadm sharp someUuid
  have hdrain := (key_drain .plain hm hm' rfl rfl rfl).1 sharp someUuid (session second) _ hissue
    (by decide) sharp.val (accessClaims sharp someUuid (session second))
  exact ⟨m, m', hm, hm', _, _, hissue, hdrain.1 (verify_issued m hadm someUuid hsecond)⟩

end FinnAuth.Jwt
