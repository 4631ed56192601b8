import FinnAuth.Jwt.RoundTrip

/-!
# No parser differential

A token that the strict `Verify` accepts reads the same to everyone: header and payload are single
JSON objects, no name stands twice, and what the code uses of them are the exactly named members.
Members with other names, alike or not, do not matter.

Results:
* `Verifies.objects`: the two objects of an accepted token;
* **`strict_verify_exact`**.
-/

namespace FinnAuth.Jwt

open Lib JsonText JWTManager

/-- The segment is the text of one JSON object with these members, no name twice. -/
def IsObject (cs : List Char) (ms : List (String × Value)) : Prop :=
  ∃ text, segment cs = some text ∧ document text = some (.obj ms) ∧ (ms.map Prod.fst).Nodup

/-- The header and the payload of a token. -/
structure Objects (token : String) (header payload : List (String × Value)) : Prop where
  segments : ∃ h p s, parts token = [h, p, s] ∧ IsObject h header ∧ IsObject p payload

section Lookup

variable {ms : List (String × Value)} {name : String} {v : Value}

theorem lookup_iff_mem (hnodup : (ms.map Prod.fst).Nodup) :
    ms.lookup name = some v ↔ (name, v) ∈ ms := by
  have hfilter : ms.filter (fun m => decide (m.1 = name)) =
      ((ms.lookup name).map fun v => (name, v)).toList := filter_name hnodup
  constructor
  · intro h
    have hmem : (name, v) ∈ ms.filter fun m => decide (m.1 = name) := by
      rw [hfilter, h]
      simp
    exact (List.mem_filter.1 hmem).1
  · intro h
    have hmem : (name, v) ∈ ms.filter fun m => decide (m.1 = name) := List.mem_filter.2 ⟨h, by simp⟩
    rw [hfilter] at hmem
    simpa using hmem

/-- Without duplicates a decoded map has the members as they are. -/
theorem mapValue_eq (hnodup : (ms.map Prod.fst).Nodup) : mapValue ms name = ms.lookup name := by
  have hreverse : (ms.reverse.map Prod.fst).Nodup := by
    rw [List.map_reverse]
    exact List.nodup_reverse.2 hnodup
  refine Option.ext fun v => ?_
  unfold mapValue
  rw [lookup_iff_mem hreverse, lookup_iff_mem hnodup, List.mem_reverse]

theorem lookup_of_mapString {s : String} (hnodup : (ms.map Prod.fst).Nodup)
    (h : mapString ms name = s) (hs : s ≠ "") : ms.lookup name = some (.str s) := by
  unfold mapString at h
  split at h
  · rename_i hv
    rw [← mapValue_eq hnodup, hv, h]
  · exact absurd h.symm hs

end Lookup

variable {pl : Platform} {m : JWTManager} {now : Int} {token : String} {c : Claims} {cs : List Char}

theorem validateSegment_true {names : List String} (h : validateSegment pl names cs = true) :
    ∃ ms, IsObject cs ms ∧ namesExact pl names ms = true := by
  unfold validateSegment at h
  split at h
  · cases h
  · rename_i ms hms
    obtain ⟨text, htext, hobj⟩ := Option.bind_eq_some_iff.1 hms
    obtain ⟨hdoc, hnodup⟩ := uniqueObject_iff.1 hobj
    exact ⟨ms, ⟨text, htext, hdoc, hnodup⟩, h⟩

/-- The members of a segment are determined by it. -/
theorem IsObject.unique {ms ms' : List (String × Value)} (h : IsObject cs ms)
    (h' : IsObject cs ms') : ms = ms' := by
  obtain ⟨text, htext, hdoc, -⟩ := h
  obtain ⟨text', htext', hdoc', -⟩ := h'
  obtain rfl := Option.some.inj (htext.symm.trans htext')
  exact Value.obj.inj (Option.some.inj (hdoc.symm.trans hdoc'))

theorem Objects.unique {header header' payload payload' : List (String × Value)}
    (h : Objects token header payload) (h' : Objects token header' payload') :
    header = header' ∧ payload = payload' := by
  obtain ⟨a, b, s, hparts, ha, hb⟩ := h.segments
  obtain ⟨a', b', s', hparts', ha', hb'⟩ := h'.segments
  rw [hparts] at hparts'
  obtain ⟨rfl, rfl, rfl⟩ := hparts'
  exact ⟨ha.unique ha', hb.unique hb'⟩

/-- What the parser sees of a token with such segments. -/
theorem parseUnverified_objects {α : Type} {decode : Value → Option α} {a : α}
    {header payload seen : List (String × Value)} (hobj : Objects token header payload)
    (h : parseUnverified decode token = some (seen, a)) :
    seen = header ∧ decode (.obj payload) = some a := by
  obtain ⟨hd, p, s, hparts, ⟨text, htext, hdoc, -⟩, ⟨text', htext', hdoc', -⟩⟩ := hobj.segments
  unfold parseUnverified at h
  simp only [hparts, htext, htext', hdoc, hdoc', Option.bind_some, membersOf,
    Option.bind_eq_bind] at h
  obtain ⟨a', ha', h⟩ := Option.bind_eq_some_iff.1 h
  split at h
  · obtain ⟨rfl, rfl⟩ := Prod.mk.inj (Option.some.inj h)
    exact ⟨rfl, ha'⟩
  · cases h

/-- **The two objects of an accepted token**, and what is used of them. -/
theorem objects_of_verifies (h : Verifies pl m now token c) :
    ∃ header payload, Objects token header payload ∧ exactClaims pl payload = some c ∧
      header.lookup "alg" = some (.str "HS256") ∧
      header.lookup "kid" = some (.str (peekKid token)) := by
  obtain ⟨key, -, hparse⟩ := h.key
  have hnames := h.names
  unfold validateTokenNames at hnames
  split at hnames
  · rename_i hd p s hparts
    obtain ⟨hhd, hp⟩ := Bool.and_eq_true_iff.1 hnames
    obtain ⟨header, hheader, -⟩ := validateSegment_true hhd
    obtain ⟨payload, hpayload, hexact⟩ := validateSegment_true hp
    have hobj : Objects token header payload := ⟨hd, p, s, hparts, hheader, hpayload⟩
    obtain ⟨seen, hseen, halg⟩ := hparse.header
    obtain ⟨rfl, hclaims⟩ := parseUnverified_objects hobj hseen
    have hheaderNodup : (seen.map Prod.fst).Nodup := by
      obtain ⟨_, _, _, hnodup⟩ := hheader
      exact hnodup
    have hpayloadNodup : (payload.map Prod.fst).Nodup := by
      obtain ⟨_, _, _, hnodup⟩ := hpayload
      exact hnodup
    refine ⟨seen, payload, hobj, ?_, lookup_of_mapString hheaderNodup halg (by decide), ?_⟩
    · rw [← unmarshalClaims_exact hexact hpayloadNodup]
      exact hclaims
    · -- `peekKid` has read this header too, or it would have found no key id
      have hkid := h.kid
      unfold peekKid at hkid ⊢
      cases hpeek : parseUnverified membersOf token with
      | none =>
        rw [hpeek] at hkid
        exact absurd rfl hkid
      | some p =>
        obtain ⟨seen', ms⟩ := p
        obtain ⟨rfl, -⟩ := parseUnverified_objects hobj hpeek
        rw [hpeek] at hkid
        exact lookup_of_mapString hheaderNodup rfl hkid
  · cases hnames

/-- **A token means one thing**: its claims do not depend on who accepts it, or when. -/
theorem JWTManager.Verifies.unique {m' : JWTManager} {now' : Int} {c' : Claims}
    (h : Verifies pl m now token c) (h' : Verifies pl m' now' token c') : c = c' := by
  obtain ⟨_, _, hobj, hclaims, -⟩ := objects_of_verifies h
  obtain ⟨_, _, hobj', hclaims', -⟩ := objects_of_verifies h'
  obtain ⟨-, rfl⟩ := hobj.unique hobj'
  exact Option.some.inj (hclaims.symm.trans hclaims')

/-- **Strict verification has no parser differential.** Header and payload of an accepted token are
single JSON objects without duplicate names; the typed claims, the algorithm and the key id are
those of the exactly named members; and two accepted tokens whose exactly named members agree have
equal claims. -/
theorem strict_verify_exact (pl : Platform) :
    (∀ (m : JWTManager) (now : Int) (token : String) (c : Claims), m.verify pl now token = .ok c →
      ∃ header payload, Objects token header payload ∧ exactClaims pl payload = some c ∧
        header.lookup "alg" = some (.str "HS256") ∧
        ∃ kid key, header.lookup "kid" = some (.str kid) ∧ m.keys kid = some key ∧
          signed pl key token = true) ∧
    ∀ (m m' : JWTManager) (now now' : Int) (token token' : String) (c c' : Claims)
      (header header' payload payload' : List (String × Value)),
      m.verify pl now token = .ok c → m'.verify pl now' token' = .ok c' →
      Objects token header payload → Objects token' header' payload' →
      (∀ name ∈ claimNames, payload.lookup name = payload'.lookup name) → c = c' := by
  constructor
  · intro m now token c hverify
    have h := verify_ok.1 hverify
    obtain ⟨key, hkey, hparse⟩ := h.key
    obtain ⟨header, payload, hobj, hclaims, halg, hkid⟩ := objects_of_verifies h
    exact ⟨header, payload, hobj, hclaims, halg, peekKid token, key, hkid, hkey, hparse.signed⟩
  · intro m m' now now' token token' c c' header header' payload payload' hv hv' hobj hobj' hagree
    obtain ⟨_, seen, hseen, hclaims, -, -⟩ := objects_of_verifies (verify_ok.1 hv)
    obtain ⟨_, seen', hseen', hclaims', -, -⟩ := objects_of_verifies (verify_ok.1 hv')
    obtain ⟨-, rfl⟩ := hobj.unique hseen
    obtain ⟨-, rfl⟩ := hobj'.unique hseen'
    rw [exactClaims_congr hagree] at hclaims
    exact Option.some.inj (hclaims.symm.trans hclaims')

theorem strict_verify_exact_session : ∃ token c header payload,
    oneKey.verify .plain sharp.val token = .ok c ∧ Objects token header payload ∧
      exactClaims .plain payload = some c := by
  have hadm : Admissible .plain (session second) := admissible_session (by decide)
  have hsecond : second ≤ sharp.val % second + (session second).ttl := by decide
  have hverify := verify_issued oneKey hadm someUuid hsecond
  obtain ⟨header, payload, hobj, hclaims, -⟩ := (strict_verify_exact .plain).1 _ _ _ _ hverify
  exact ⟨_, _, header, payload, hverify, hobj, hclaims⟩

end FinnAuth.Jwt
