import Mathlib.Data.List.Dedup
import FinnAuth.Tenancy.Scope

/-!
# Tenant isolation of the repositories

The methods one by one, as calls with arbitrary arguments. Most are one operation of a lawful slot;
a credential change, a new set of recovery codes, a new role and a grant are transactions.

Results:
* `isolated_credentialChangeTx`, `isolated_replaceRecoveryCodes`, `isolated_createRole`,
  `isolated_assignRoleToUser`: the transactions;
* **`repositories_isolated`**: every method, on every database, with every argument.
-/

namespace FinnAuth.Tenancy

open Lib

/-! ## Methods with more than one statement -/

section Methods

variable {d : Dialect} {ctx : Ctx} {T : Tables} {codes : List RecoveryCode} {id : UserID}
  {links : List (Nat × Nat)} {roleID : Nat} {attached : List Permission} {c : RecoveryCode}

/-- The unique indexes of `users` are per tenant. -/
theorem conflict_view (d : Dialect) (ctx : Ctx) (T : Tables) (id : UserID)
    (email username : Option String) :
    UserRepository.conflict d ctx id email username (view d ctx T) =
      UserRepository.conflict d ctx id email username T := by
  have htaken : ∀ column, UserRepository.taken d ctx (view d ctx T) id column =
      UserRepository.taken d ctx T id column := fun column => by
    funext value
    unfold UserRepository.taken
    rw [userSlot.rows_view lawful_user]
  unfold UserRepository.conflict
  rw [htaken, htaken]

theorem isolated_updateRow {email username : Option String} {f : User → User}
    {hf : ∀ u, (f u).id = u.id} (ht : ∀ u, (f u).tenantID = u.tenantID) :
    Isolated d ctx T (fun _ => True) (UserRepository.updateRow d ctx id email username f hf) := by
  have hupdate : Isolated d ctx T (fun _ => True)
      (userSlot.update d ctx (fun u => u.id = id) f hf) :=
    userSlot.isolated_update lawful_user fun B u => by simp only [userSlot, ht u]
  have hrows := userSlot.rows_view lawful_user d ctx T fun u => u.id = id
  have hview := conflict_view d ctx T id email username
  unfold UserRepository.updateRow
  by_cases h : (userSlot.rows d ctx T fun u => u.id = id).isEmpty = true
  · exact isolated_refusal.congr (if_pos h) (if_pos (hrows ▸ h))
  · cases hc : UserRepository.conflict d ctx id email username T with
    | some index =>
      refine (isolated_refusal (e := .duplicatedKey index)).congr ?_ ?_
      · rw [if_neg h, hc]
      · rw [hrows, if_neg h, hview, hc]
    | none =>
      refine hupdate.congr ?_ ?_
      · rw [if_neg h, hc]
      · rw [hrows, if_neg h, hview, hc]

theorem isolated_revokeTokens (T : Tables) (id : UserID) :
    Isolated d ctx T (fun _ => True) (RefreshTokenRepository.revokeAllForUserTx d ctx id) :=
  tokenSlot.isolated_update lawful_token fun _ _ => rfl

theorem isolated_revokeSessions (T : Tables) (id : UserID) :
    Isolated d ctx T (fun _ => True) (SessionRepository.revokeAllForUserTx d ctx id) :=
  sessionSlot.isolated_update lawful_session fun _ _ => rfl

theorem isolated_credentialChangeTx {hashed : String} : Isolated d ctx T (fun _ => True)
      (UserRepository.credentialChangeTx d ctx id hashed (revokeRefresh d ctx id)) := by
  have hrow : Isolated d ctx T (fun _ => True) (UserRepository.updateRow d ctx id none none
      (UserWrite.credential hashed).apply (UserWrite.apply_id _)) :=
    isolated_updateRow (UserWrite.apply_tenantID _)
  refine isolated_transaction (isolated_andThen hrow (fun T' h => ⟨fun B hB => ?_, ?_,
    fun _ _ => trivial⟩) fun _ _ _ _ => .inl rfl)
  · exact ((isolated_revokeSessions _ id).frame B hB).trans
      ((isolated_revokeTokens T' id).frame B hB)
  · have hT' : Hosted d ctx T T' := by
      have := hrow.hosted
      rwa [h] at this
    refine hT'.of_kept fun s hs => ?_
    obtain ⟨s', hs', rfl⟩ :=
      (Table.mem_update _ _ SessionRepository.revoke (fun _ => rfl) _).1 hs
    refine ⟨s', hs', ?_⟩
    split <;> exact ⟨rfl, rfl⟩

theorem isolated_setFirstPassword {hashed : String} :
    Isolated d ctx T (fun _ => True) (UserRepository.setFirstPassword d ctx id hashed) := by
  have hupdate : Isolated d ctx T (fun _ => True)
      (userSlot.update d ctx (fun u => u.id = id && d.collate u.password "")
        (UserWrite.firstPassword hashed).apply (UserWrite.apply_id _)) :=
    userSlot.isolated_update lawful_user fun _ _ => rfl
  refine ⟨hupdate.frame, hupdate.hosted, .inl ?_, fun _ _ => trivial⟩
  unfold UserRepository.setFirstPassword
  rw [userSlot.rows_view lawful_user]

/-- The users of a page are the tenant's, and no other user is counted. -/
theorem isolated_listPaginated {tenantID search : String} {page limit : Int} :
    Isolated d ctx T
      (fun r => (∀ u ∈ r.1, userSlot.Has d ctx T u) ∧
        r.2 ≤ (userSlot.rows d ctx T fun _ => true).length)
      (UserRepository.listPaginated d ctx tenantID page limit search) := by
  refine isolated_scopeTenant (isolated_reads ?_ ⟨fun u hu => ?_, ?_⟩)
  · simp only [userSlot.rows_view lawful_user]
  · exact Slot.has_of_mem_rows
      (List.mem_mergeSort.1 (List.mem_of_mem_drop (List.mem_of_mem_take hu)))
  · refine List.Sublist.length_le (List.monotone_filter_right _ fun u hu => ?_)
    simp only [Bool.and_eq_true] at hu ⊢
    exact ⟨hu.1, trivial⟩

theorem create_code_of_fresh (h : c.id ∉ T.recoveryCodes.rows.map RecoveryCode.id) :
    ∃ t, T.recoveryCodes.rows ++ [c] = t.rows ∧
      codeSlot.create (fun _ => none) c T = (.ok (), codeSlot.set T t) := by
  obtain ⟨t, hi, hrows⟩ := Table.insert_of_fresh h
  refine ⟨t, hrows.symm, ?_⟩
  simp only [Slot.create, codeSlot, hi]

theorem create_code_of_taken (h : c.id ∈ T.recoveryCodes.rows.map RecoveryCode.id) :
    codeSlot.create (fun _ => none) c T = (.error (.duplicatedKey "PRIMARY"), T) := by
  have hi : T.recoveryCodes.insert c = none := dif_pos h
  simp only [Slot.create, codeSlot, hi]

/-- The codes are the tenant's, so no other tenant notices; a refusal is a taken id. -/
theorem insertCodes_spec (h : ∀ c ∈ codes, owns d ctx T c.userID = true) :
    (∀ B, Apart d ctx B → rowsOf d B (TOTPRepository.insertCodes codes T).2 = rowsOf d B T) ∧
    (TOTPRepository.insertCodes codes T).2.sessions = T.sessions ∧
    ((TOTPRepository.insertCodes codes T).1 = .ok () ∨
      ∃ index, (TOTPRepository.insertCodes codes T).1 = .error (.duplicatedKey index)) := by
  induction codes generalizing T with
  | nil => exact ⟨fun _ _ => rfl, rfl, .inl rfl⟩
  | cons c codes ih =>
    have hcreate : Isolated d ctx T (fun _ => True) (codeSlot.create (fun _ => none) c) :=
      codeSlot.isolated_create lawful_code (fun _ => rfl)
        (fun B hB => owns_apart hB (h c List.mem_cons_self)) fun _ _ => .of_sessions rfl
    unfold TOTPRepository.insertCodes
    by_cases hfresh : c.id ∈ T.recoveryCodes.rows.map RecoveryCode.id
    · rw [andThen_error (create_code_of_taken hfresh)]
      exact ⟨fun _ _ => rfl, rfl, .inr ⟨_, rfl⟩⟩
    · obtain ⟨t, -, hT⟩ := create_code_of_fresh hfresh
      obtain ⟨hframe, hsessions, hans⟩ := ih (T := codeSlot.set T t) fun c' hc' =>
        h c' (List.mem_cons_of_mem c hc')
      rw [andThen_ok hT]
      refine ⟨fun B hB => ?_, hsessions, hans⟩
      have hB' := hcreate.frame B hB
      rw [hT] at hB'
      exact (hframe B hB).trans hB'

/-- Where fewer ids are taken, the codes go in as well. -/
theorem insertCodes_ok_of_subset {T T' : Tables}
    (hsub : T'.recoveryCodes.rows.map RecoveryCode.id ⊆ T.recoveryCodes.rows.map RecoveryCode.id)
    (h : (TOTPRepository.insertCodes codes T).1 = .ok ()) :
    (TOTPRepository.insertCodes codes T').1 = .ok () := by
  induction codes generalizing T T' with
  | nil => rfl
  | cons c codes ih =>
    unfold TOTPRepository.insertCodes at h ⊢
    by_cases hfresh : c.id ∈ T.recoveryCodes.rows.map RecoveryCode.id
    · rw [andThen_error (create_code_of_taken hfresh)] at h
      cases h
    · obtain ⟨t, hrows, hT⟩ := create_code_of_fresh hfresh
      obtain ⟨t', hrows', hT'⟩ := create_code_of_fresh fun hmem => hfresh (hsub hmem)
      rw [andThen_ok hT] at h
      rw [andThen_ok hT']
      refine ih ?_ h
      change t'.rows.map RecoveryCode.id ⊆ t.rows.map RecoveryCode.id
      rw [← hrows, ← hrows', List.map_append, List.map_append]
      exact List.append_subset.2 ⟨fun x hx => List.mem_append_left _ (hsub hx),
        fun x hx => List.mem_append_right _ hx⟩

theorem isolated_replaceRecoveryCodes {userID : UserID} : Isolated d ctx T (fun _ => True)
      (TOTPRepository.replaceRecoveryCodes d ctx userID codes) := by
  refine isolated_requireOwner fun howns => ?_
  split
  · exact isolated_refusal
  · rename_i hcodes
    have hdelete : Isolated d ctx T (fun _ => True)
        (codeSlot.delete d ctx fun r => r.userID = userID) := codeSlot.isolated_delete lawful_code
    have hsame : ∀ T', (codeSlot.delete d ctx (fun r => r.userID = userID) T) = (.ok (), T') →
        ∀ c ∈ codes, owns d ctx T' c.userID = true := by
      rintro _ ⟨⟩ c hc
      have hu : c.userID = userID := by
        by_contra hne
        exact hcodes (List.any_eq_true.2 ⟨c, hc, by simpa using hne⟩)
      rw [hu]
      exact howns
    refine isolated_transaction (isolated_andThen hdelete (fun T' hT' => ?_) fun T' V hT' hV => ?_)
    · obtain ⟨hframe, hsessions, -⟩ := insertCodes_spec (hsame T' hT')
      refine ⟨hframe, .of_sessions (hsessions.trans ?_), fun _ _ => trivial⟩
      cases hT'
      rfl
    · obtain ⟨-, -, hans⟩ := insertCodes_spec (hsame T' hT')
      refine hans.imp_left fun hok => ?_
      rw [hok]
      refine insertCodes_ok_of_subset ?_ hok
      cases hT'
      cases hV
      refine List.Sublist.subset (List.Sublist.map _ ?_)
      change List.Sublist ((T.recoveryCodes.rows.filter (codeSlot.owned d ctx T)).filter fun r =>
        !(codeSlot.owned d ctx (view d ctx T) r && decide (r.userID = userID))) _
      rw [lawful_code.owned_view]
      exact List.filter_sublist.filter _

/-! ### Roles -/

theorem mem_saveLinks {l : Nat × Nat} : l ∈ RBACRepository.saveLinks links roleID attached ↔
      l ∈ links ∨ ∃ p ∈ attached, l = (roleID, p.id) := by
  unfold RBACRepository.saveLinks
  induction attached generalizing links with
  | nil => simp
  | cons p attached ih =>
    rw [List.foldl_cons, ih]
    by_cases hp : (roleID, p.id) ∈ links
    · rw [if_pos hp]
      constructor
      · rintro (h | ⟨q, hq, rfl⟩)
        · exact .inl h
        · exact .inr ⟨q, List.mem_cons_of_mem p hq, rfl⟩
      · rintro (h | ⟨q, hq, rfl⟩)
        · exact .inl h
        · rcases List.mem_cons.1 hq with rfl | hq
          · exact .inl hp
          · exact .inr ⟨q, hq, rfl⟩
    · rw [if_neg hp]
      simp only [List.mem_append, List.mem_cons, List.not_mem_nil, false_or, or_assoc,
        exists_eq_or_imp]

/-- The links of the other roles stay. -/
theorem filter_saveLinks {q : Nat → Bool} (hq : q roleID = false) :
    (RBACRepository.saveLinks links roleID attached).filter (fun l => q l.1) =
      links.filter fun l => q l.1 := by
  unfold RBACRepository.saveLinks
  induction attached generalizing links with
  | nil => rfl
  | cons p attached ih =>
    rw [List.foldl_cons, ih]
    split
    · rfl
    · simp [List.filter_append, hq]

section Grant

variable {roleID : Nat} {attached : List Permission} {permNames : List String}

/-- A tenant that does not own the role does not notice. -/
theorem rowsOf_grantPermissions {B : Ctx} (h : ownsRole d B T roleID = false) :
    rowsOf d B (RBACRepository.grantPermissions d roleID attached permNames T).2 =
      rowsOf d B T := by
  unfold RBACRepository.grantPermissions
  dsimp only
  split
  · rfl
  · have hlinks : ((RBACRepository.saveLinks T.rolePermissions roleID attached ++
        (((RBACRepository.savePermissions d T.permissions attached).rows.filter fun p =>
          permNames.any fun n => d.collate p.name n).map fun p => (roleID, p.id))).filter
            fun l => ownsRole d B T l.1) =
          T.rolePermissions.filter fun l => ownsRole d B T l.1 := by
      rw [List.filter_append, filter_saveLinks h]
      simp [List.filter_map, Function.comp_def, h]
    exact congrArg (fun links => { rowsOf d B T with rolePermissions := links }) hlinks

theorem grantPermissions_sessions :
    (RBACRepository.grantPermissions d roleID attached permNames T).2.sessions = T.sessions := by
  unfold RBACRepository.grantPermissions
  dsimp only
  split <;> rfl

/-- A refusal is a link that is already there. -/
theorem grantPermissions_fst {V : Tables} (hperm : V.permissions = T.permissions)
    (hlinks : V.rolePermissions ⊆ T.rolePermissions) :
    (RBACRepository.grantPermissions d roleID attached permNames V).1 =
        (RBACRepository.grantPermissions d roleID attached permNames T).1 ∨
      ∃ index, (RBACRepository.grantPermissions d roleID attached permNames T).1 =
        .error (.duplicatedKey index) := by
  have hsub : RBACRepository.saveLinks V.rolePermissions roleID attached ⊆
      RBACRepository.saveLinks T.rolePermissions roleID attached := fun l hl =>
    mem_saveLinks.2 ((mem_saveLinks.1 hl).imp_left fun h => hlinks h)
  unfold RBACRepository.grantPermissions
  rw [hperm]
  set perms := (RBACRepository.savePermissions d T.permissions attached).rows.filter fun p =>
    permNames.any fun n => d.collate p.name n
  by_cases hT : (perms.any fun p =>
      (roleID, p.id) ∈ RBACRepository.saveLinks T.rolePermissions roleID attached) = true
  · exact .inr ⟨"PRIMARY", by rw [if_pos hT]⟩
  · have hV : ¬ (perms.any fun p =>
        (roleID, p.id) ∈ RBACRepository.saveLinks V.rolePermissions roleID attached) = true := by
      intro h
      obtain ⟨p, hp, hl⟩ := List.any_eq_true.1 h
      exact hT (List.any_eq_true.2 ⟨p, hp, by simpa using hsub (by simpa using hl)⟩)
    rw [if_neg hT, if_neg hV]
    exact .inl rfl

theorem isolated_createRole {role : Role} {newID : Nat} :
    Isolated d ctx T (fun _ => True)
      (RBACRepository.createRole d ctx role attached permNames newID) := by
  have htaken : RBACRepository.roleTaken d ctx role.name T = none →
      RBACRepository.roleTaken d ctx role.name (view d ctx T) = none := by
    unfold RBACRepository.roleTaken
    rw [roleSlot.rows_view lawful_role]
    exact fun h => h
  have hcreate : Isolated d ctx T (fun _ => True)
      (roleSlot.create (RBACRepository.roleTaken d ctx role.name)
        { role with id := assignID role.id newID, tenantID := ctx.tenant }) :=
    roleSlot.isolated_create lawful_role htaken
      (fun B hB => ofTenant_apart hB (ofTenant_self d ctx)) fun _ _ => .of_sessions rfl
  refine isolated_scopeTenant (isolated_transaction (isolated_andThen hcreate
    (fun T' hT' => ⟨fun B hB => rowsOf_grantPermissions ?_,
      .of_sessions (grantPermissions_sessions.trans ?_), fun _ _ => trivial⟩)
    fun T' V hT' hV => grantPermissions_fst ?_ ?_))
  · -- the id was free, and the new role is of the calling tenant
    obtain ⟨t, hi, rfl⟩ := Slot.create_ok hT'
    by_contra howns
    obtain ⟨r, hr, hid, ht⟩ := ownsRole_iff.1 (by simpa using howns)
    rcases (Table.mem_insert hi).1 hr with hold | rfl
    · exact (Table.insert_eq_some hi).1 (List.mem_map.2 ⟨r, hold, hid⟩)
    · rw [ofTenant_apart hB (ofTenant_self d ctx)] at ht
      cases ht
  · obtain ⟨t, -, rfl⟩ := Slot.create_ok hT'
    rfl
  · obtain ⟨t, -, rfl⟩ := Slot.create_ok hT'
    obtain ⟨t', -, rfl⟩ := Slot.create_ok hV
    rfl
  · obtain ⟨t, -, rfl⟩ := Slot.create_ok hT'
    obtain ⟨t', -, rfl⟩ := Slot.create_ok hV
    exact List.filter_subset_self _

end Grant

theorem isolated_assignRoleToUser {userID roleID : Nat} :
    Isolated d ctx T (fun _ => True)
      (RBACRepository.assignRoleToUser d ctx userID roleID) := by
  refine isolated_requireOwner fun howns => ?_
  have hrows := roleSlot.rows_view lawful_role d ctx T fun r => r.id = roleID
  have hgrant : (userID, roleID) ∈ (view d ctx T).userRoles ↔ (userID, roleID) ∈ T.userRoles := by
    simp [view, rowsOf, howns]
  by_cases hrole : (roleSlot.rows d ctx T fun r => r.id = roleID).isEmpty = true
  · exact isolated_refusal.congr (if_pos hrole) (if_pos (hrows ▸ hrole))
  · by_cases hold : (userID, roleID) ∈ T.userRoles
    · refine (isolated_refusal (e := .duplicatedKey "PRIMARY")).congr ?_ ?_
      · rw [if_neg hrole, if_pos hold]
      · rw [hrows, if_neg hrole, if_pos (hgrant.2 hold)]
    · refine ⟨fun B hB => ?_, ?_, .inl ?_, fun _ _ => trivial⟩
      · rw [if_neg hrole, if_neg hold]
        have hfilter : (T.userRoles ++ [(userID, roleID)]).filter (fun g => owns d B T g.1) =
            T.userRoles.filter fun g => owns d B T g.1 := by
          simp [List.filter_append, owns_apart hB howns]
        have hgrants : rowsOf d B { T with userRoles := T.userRoles ++ [(userID, roleID)] } =
            rowsOf d B T :=
          congrArg (fun grants => { rowsOf d B T with userRoles := grants }) hfilter
        have hbump : Isolated d ctx { T with userRoles := T.userRoles ++ [(userID, roleID)] }
            (fun _ => True) (userSlot.update d ctx (fun u => u.id = userID)
              UserWrite.bumpAuthEpoch.apply (UserWrite.apply_id _)) :=
          userSlot.isolated_update lawful_user fun _ _ => rfl
        exact (hbump.frame B hB).trans hgrants
      · rw [if_neg hrole, if_neg hold]
        exact .of_sessions rfl
      · rw [if_neg hrole, if_neg hold, hrows, if_neg hrole, if_neg fun h => hold (hgrant.1 h)]

theorem flatMap_filter_of_nil {α β : Type} {q : α → Bool} {f : α → List β} {l : List α}
    (h : ∀ a ∈ l, q a = false → f a = []) : (l.filter q).flatMap f = l.flatMap f := by
  induction l with
  | nil => rfl
  | cons a l ih =>
    have ih := ih fun b hb => h b (List.mem_cons_of_mem a hb)
    cases hq : q a with
    | true => rw [List.filter_cons_of_pos hq, List.flatMap_cons, List.flatMap_cons, ih]
    | false =>
      rw [List.filter_cons_of_neg (by simp [hq]), List.flatMap_cons, h a List.mem_cons_self hq, ih,
        List.nil_append]

/-- The join keeps to the tenant's users and roles. -/
theorem granted_view (userID : UserID) :
    RBACRepository.granted d ctx (view d ctx T) userID = RBACRepository.granted d ctx T userID := by
  have hgrants : ∀ roleID, ((view d ctx T).userRoles.filter fun ur => ur.2 = roleID &&
      ur.1 = userID && (owns d ctx (view d ctx T) ur.1 && ownsRole d ctx (view d ctx T) ur.2)) =
        T.userRoles.filter fun ur => ur.2 = roleID && ur.1 = userID &&
          (owns d ctx T ur.1 && ownsRole d ctx T ur.2) := fun roleID => by
    simp only [owns_view, ownsRole_view]
    change (T.userRoles.filter fun g => owns d ctx T g.1).filter _ = _
    rw [List.filter_filter]
    refine List.filter_congr fun ur _ => ?_
    cases owns d ctx T ur.1 <;> simp
  refine List.flatMap_congr fun p _ => ?_
  simp only [hgrants]
  change ((T.rolePermissions.filter fun l => ownsRole d ctx T l.1).filter _).flatMap _ = _
  rw [List.filter_comm, flatMap_filter_of_nil]
  -- a link of another tenant's role joins with no grant
  intro rp _ hrp
  rw [List.map_eq_nil_iff, List.filter_eq_nil_iff]
  intro ur _ hur
  simp only [Bool.and_eq_true, decide_eq_true_eq] at hur
  rw [← hur.1.1, hur.2.2] at hrp
  cases hrp

end Methods

/-! ## Every method -/

/-- What a method returns. -/
inductive Reply : Type where
  | done
  | flag (b : Bool)
  | user (row : Option User)
  | users (rows : List User) (total : Nat)
  | session (row : Option Session)
  | sessions (rows : List Session)
  | token (row : Option RefreshToken)
  | tokens (rows : List RefreshToken)
  | device (row : Option TOTPDevice)
  | codes (rows : List RecoveryCode)
  | identity (row : Option OAuthIdentity)
  | passkey (row : Option PasskeyCredential)
  | passkeys (rows : List PasskeyCredential)
  | trustedDevice (row : Option TrustedDevice)
  | trustedDevices (rows : List TrustedDevice)
  | permissions (rows : List Permission)
  | permissionNames (names : List String)

/-- The rows returned and counted are the tenant's. A permission name comes from the catalogue
through a grant to a user of the tenant and a link of a role of the tenant. -/
def Reply.Within (d : Dialect) (ctx : Ctx) (T : Tables) : Reply → Prop
  | done => True
  | flag _ => True
  | user row => ∀ r ∈ row, userSlot.Has d ctx T r
  | users rows total => (∀ r ∈ rows, userSlot.Has d ctx T r) ∧
      total ≤ (userSlot.rows d ctx T fun _ => true).length
  | session row => ∀ r ∈ row, sessionSlot.Has d ctx T r
  | sessions rows => ∀ r ∈ rows, sessionSlot.Has d ctx T r
  | token row => ∀ r ∈ row, tokenSlot.Has d ctx T r
  | tokens rows => ∀ r ∈ rows, tokenSlot.Has d ctx T r
  | device row => ∀ r ∈ row, deviceSlot.Has d ctx T r
  | codes rows => ∀ r ∈ rows, codeSlot.Has d ctx T r
  | identity row => ∀ r ∈ row, identitySlot.Has d ctx T r
  | passkey row => ∀ r ∈ row, passkeySlot.Has d ctx T r
  | passkeys rows => ∀ r ∈ rows, passkeySlot.Has d ctx T r
  | trustedDevice row => ∀ r ∈ row, trustedSlot.Has d ctx T r
  | trustedDevices rows => ∀ r ∈ rows, trustedSlot.Has d ctx T r
  | permissions _ => True
  | permissionNames names => ∀ n ∈ names, ∃ ur ∈ T.userRoles, ∃ rp ∈ T.rolePermissions,
      ∃ p ∈ T.permissions.rows, owns d ctx T ur.1 = true ∧ ownsRole d ctx T ur.2 = true ∧
        rp = (ur.2, p.id) ∧ n = p.name

/-- A call of one of the methods. -/
inductive RepoCall : Type where
  | userCreate (user : User) (newID : Nat)
  | userFindByID (id : UserID)
  | userFindByEmail (email : String)
  | userFindByUsername (username : String)
  | userUpdate (user : User)
  | userUpdateEmail (user : User)
  | userDeactivate (id : UserID)
  | userErase (user : User)
  | userUpdatePassword (user : User) (hashedPassword : String)
  | userIncrementFailedAttempts (user : User) (lockUntil : Option Nat)
  | userResetFailedAttempts (user : User)
  | userBumpPwdVersion (id : UserID)
  | userCredentialChangeTx (id : UserID) (hashedPassword : String)
  | userSetFirstPassword (id : UserID) (hashedPassword : String)
  | userSetEmailVerified (user : User) (verified : Bool)
  | userListPaginated (tenantID : String) (page limit : Int) (search : String)
  | userSetLock (id : UserID) (lockedUntil : Option Nat)
  | sessionCreate (s : Session)
  | sessionFindByID (id : Uuid)
  | sessionFindActiveByUser (userID : UserID) (now : Nat)
  | sessionFindAllActiveByTenant (tenantID : String) (now : Nat)
  | sessionTouch (id : Uuid) (ip ua deviceName location : String) (at_ : Nat)
  | sessionRevokeByID (id : Uuid) (userID : UserID)
  | sessionRevokeAllForUser (userID : UserID)
  | sessionRevokeAllForUserTx (userID : UserID)
  | tokenCreate (rt : RefreshToken) (newID : Nat)
  | tokenFindByHash (hash : Digest Uuid)
  | tokenFindActiveByUser (userID : UserID) (now : Nat)
  | tokenRevokeByID (id : Nat) (userID : UserID)
  | tokenRevoke (rt : RefreshToken)
  | tokenRevokeAllForUser (userID : UserID)
  | tokenRevokeBySession (sessionID : Option Uuid)
  | tokenRevokeAllForUserTx (userID : UserID)
  | totpUpsert (dev : TOTPDevice) (newID : Nat)
  | totpFindByUserID (userID : UserID)
  | totpDisable (userID : UserID)
  | totpReplaceRecoveryCodes (userID : UserID) (codes : List RecoveryCode)
  | totpActiveRecoveryCodes (userID : UserID)
  | totpMarkRecoveryCodeUsed (c : RecoveryCode) (now : Nat)
  | oauthCreate (identity : OAuthIdentity)
  | oauthFindByProviderAndProviderUserID (provider providerUserID : String)
  | oauthFindByUserIDAndProvider (userID : UserID) (provider : String)
  | oauthDeleteByUserIDAndProvider (userID : UserID) (provider : String)
  | oauthDeleteAllByUserID (userID : UserID)
  | passkeyCreate (pc : PasskeyCredential) (newID : Nat)
  | passkeyFindByCredentialID (credentialID : Nat)
  | passkeyListByUser (userID : UserID) (includeRevoked : Bool)
  | passkeyTouchUsage (id signCount usedAt : Nat)
  | passkeyRevokeByID (id : Nat) (userID : UserID)
  | passkeyRevokeAllForUser (userID : UserID)
  | trustedCreate (dev : TrustedDevice) (newID : Nat)
  | trustedFindByDeviceHash (hash : String) (now : Nat)
  | trustedTouchUsage (id at_ : Nat)
  | trustedListByUser (userID : UserID) (now : Nat)
  | trustedRevoke (id : Nat) (userID : UserID)
  | rbacListPermissions
  | rbacCreateRole (role : Role) (attached : List Permission) (permNames : List String)
      (newID : Nat)
  | rbacAssignRoleToUser (userID roleID : Nat)
  | rbacGetUserPermissions (userID : UserID)
  | rbacUserHasPermission (userID : UserID) (permission : String)

/-- A method without a result. -/
def Method.quiet (m : Method Unit) : Method Reply := m.map fun _ => .done

/-- The call under the context. -/
def RepoCall.perform (d : Dialect) (ctx : Ctx) : RepoCall → Method Reply
  | userCreate user newID => (UserRepository.create d ctx user newID).quiet
  | userFindByID id => (UserRepository.findByID d ctx id).map .user
  | userFindByEmail email => (UserRepository.findByEmail d ctx email).map .user
  | userFindByUsername username => (UserRepository.findByUsername d ctx username).map .user
  | userUpdate user => (UserRepository.update d ctx user).quiet
  | userUpdateEmail user => (UserRepository.updateEmail d ctx user).quiet
  | userDeactivate id => (UserRepository.deactivate d ctx id).quiet
  | userErase user => (UserRepository.erase d ctx user).quiet
  | userUpdatePassword user hashed => (UserRepository.updatePassword d ctx user hashed).quiet
  | userIncrementFailedAttempts user lockUntil =>
    (UserRepository.incrementFailedAttempts d ctx user lockUntil).quiet
  | userResetFailedAttempts user => (UserRepository.resetFailedAttempts d ctx user).quiet
  | userBumpPwdVersion id => (UserRepository.bumpPwdVersion d ctx id).quiet
  | userCredentialChangeTx id hashed =>
    (UserRepository.credentialChangeTx d ctx id hashed (revokeRefresh d ctx id)).quiet
  | userSetFirstPassword id hashed => (UserRepository.setFirstPassword d ctx id hashed).map .flag
  | userSetEmailVerified user verified =>
    (UserRepository.setEmailVerified d ctx user verified).quiet
  | userListPaginated tenantID page limit search =>
    (UserRepository.listPaginated d ctx tenantID page limit search).map fun r => .users r.1 r.2
  | userSetLock id lockedUntil => (UserRepository.setLock d ctx id lockedUntil).quiet
  | sessionCreate s => (SessionRepository.create d ctx s).quiet
  | sessionFindByID id => (SessionRepository.findByID d ctx id).map .session
  | sessionFindActiveByUser userID now =>
    (SessionRepository.findActiveByUser d ctx userID now).map .sessions
  | sessionFindAllActiveByTenant tenantID now =>
    (SessionRepository.findAllActiveByTenant d ctx tenantID now).map .sessions
  | sessionTouch id ip ua deviceName location at_ =>
    (SessionRepository.touch d ctx id ip ua deviceName location at_).quiet
  | sessionRevokeByID id userID => (SessionRepository.revokeByID d ctx id userID).quiet
  | sessionRevokeAllForUser userID => (SessionRepository.revokeAllForUser d ctx userID).quiet
  | sessionRevokeAllForUserTx userID => (SessionRepository.revokeAllForUserTx d ctx userID).quiet
  | tokenCreate rt newID => (RefreshTokenRepository.create d ctx rt newID).quiet
  | tokenFindByHash hash => (RefreshTokenRepository.findByHash d ctx hash).map .token
  | tokenFindActiveByUser userID now =>
    (RefreshTokenRepository.findActiveByUser d ctx userID now).map .tokens
  | tokenRevokeByID id userID => (RefreshTokenRepository.revokeByID d ctx id userID).quiet
  | tokenRevoke rt => (RefreshTokenRepository.revoke d ctx rt).quiet
  | tokenRevokeAllForUser userID => (RefreshTokenRepository.revokeAllForUser d ctx userID).quiet
  | tokenRevokeBySession sessionID =>
    (RefreshTokenRepository.revokeBySession d ctx sessionID).quiet
  | tokenRevokeAllForUserTx userID =>
    (RefreshTokenRepository.revokeAllForUserTx d ctx userID).quiet
  | totpUpsert dev newID => (TOTPRepository.upsert d ctx dev newID).quiet
  | totpFindByUserID userID => (TOTPRepository.findByUserID d ctx userID).map .device
  | totpDisable userID => (TOTPRepository.disable d ctx userID).quiet
  | totpReplaceRecoveryCodes userID codes =>
    (TOTPRepository.replaceRecoveryCodes d ctx userID codes).quiet
  | totpActiveRecoveryCodes userID => (TOTPRepository.activeRecoveryCodes d ctx userID).map .codes
  | totpMarkRecoveryCodeUsed c now => (TOTPRepository.markRecoveryCodeUsed d ctx c now).quiet
  | oauthCreate identity => (OAuthIdentityRepository.create d ctx identity).quiet
  | oauthFindByProviderAndProviderUserID provider providerUserID =>
    (OAuthIdentityRepository.findByProviderAndProviderUserID d ctx provider providerUserID).map
      .identity
  | oauthFindByUserIDAndProvider userID provider =>
    (OAuthIdentityRepository.findByUserIDAndProvider d ctx userID provider).map .identity
  | oauthDeleteByUserIDAndProvider userID provider =>
    (OAuthIdentityRepository.deleteByUserIDAndProvider d ctx userID provider).quiet
  | oauthDeleteAllByUserID userID =>
    (OAuthIdentityRepository.deleteAllByUserID d ctx userID).quiet
  | passkeyCreate pc newID => (PasskeyRepository.create d ctx pc newID).quiet
  | passkeyFindByCredentialID credentialID =>
    (PasskeyRepository.findByCredentialID d ctx credentialID).map .passkey
  | passkeyListByUser userID includeRevoked =>
    (PasskeyRepository.listByUser d ctx userID includeRevoked).map .passkeys
  | passkeyTouchUsage id signCount usedAt =>
    (PasskeyRepository.touchUsage d ctx id signCount usedAt).quiet
  | passkeyRevokeByID id userID => (PasskeyRepository.revokeByID d ctx id userID).quiet
  | passkeyRevokeAllForUser userID => (PasskeyRepository.revokeAllForUser d ctx userID).quiet
  | trustedCreate dev newID => (TrustedDeviceRepository.create d ctx dev newID).quiet
  | trustedFindByDeviceHash hash now =>
    (TrustedDeviceRepository.findByDeviceHash d ctx hash now).map .trustedDevice
  | trustedTouchUsage id at_ => (TrustedDeviceRepository.touchUsage d ctx id at_).quiet
  | trustedListByUser userID now =>
    (TrustedDeviceRepository.listByUser d ctx userID now).map .trustedDevices
  | trustedRevoke id userID => (TrustedDeviceRepository.revoke d ctx id userID).quiet
  | rbacListPermissions => RBACRepository.listPermissions.map .permissions
  | rbacCreateRole role attached permNames newID =>
    (RBACRepository.createRole d ctx role attached permNames newID).quiet
  | rbacAssignRoleToUser userID roleID =>
    (RBACRepository.assignRoleToUser d ctx userID roleID).quiet
  | rbacGetUserPermissions userID =>
    (RBACRepository.getUserPermissions d ctx userID).map .permissionNames
  | rbacUserHasPermission userID permission =>
    (RBACRepository.userHasPermission d ctx userID permission).map .flag

section Perform

variable {d : Dialect} {ctx : Ctx} {T : Tables}

theorem isolated_quiet {m : Method Unit} (h : Isolated d ctx T (fun _ => True) m) :
    Isolated d ctx T (Reply.Within d ctx T) m.quiet :=
  h.map fun _ _ => trivial

/-- A row that is created for a user of the tenant is no other tenant's. -/
theorem isolated_createOwned {α κ : Type} [DecidableEq κ] {key : α → κ} {s : Slot key}
    (hs : s.Lawful) {conflict : Tables → Option String} {row : α} {userID : UserID}
    (hconflict : conflict T = none → conflict (view d ctx T) = none)
    (howned : ∀ B, s.owned d B T row = owns d B T userID)
    (hsessions : ∀ t, (s.set T t).sessions = T.sessions) :
    Isolated d ctx T (fun _ => True) (requireOwner d ctx userID (s.create conflict row)) :=
  isolated_requireOwner fun howns =>
    s.isolated_create hs hconflict (fun B hB => (howned B).trans (owns_apart hB howns))
      fun t _ => .of_sessions (hsessions t)

/-- A unique index that has no such row has none in a part of the table. -/
theorem index_restrict {α κ : Type} {key : α → κ} {t : Table key} {q p : α → Bool}
    {index : String} (h : (if t.rows.any p then some index else none) = none) :
    (if (t.restrict q).rows.any p then some index else none) = none := by
  rw [Table.rows_restrict, List.any_filter]
  split at h
  · cases h
  · rename_i hnone
    rw [if_neg]
    intro hany
    obtain ⟨r, hr, hp⟩ := List.any_eq_true.1 hany
    exact hnone (List.any_eq_true.2 ⟨r, hr, (Bool.and_eq_true_iff.1 hp).2⟩)

theorem isolated_userCreate (user : User) (newID : Nat) :
    Isolated d ctx T (fun _ => True) (UserRepository.create d ctx user newID) :=
  isolated_scopeTenant (userSlot.isolated_create lawful_user
    (fun h => (conflict_view d ctx T _ _ _).trans h)
    (fun _ hB => ofTenant_apart hB (ofTenant_self d ctx)) fun _ _ => .of_sessions rfl)

theorem isolated_sessionCreate (s : Session) :
    Isolated d ctx T (fun _ => True) (SessionRepository.create d ctx s) := by
  refine isolated_scopeTenant (isolated_requireOwner fun howns =>
    sessionSlot.isolated_create lawful_session (fun _ => rfl)
      (fun _ hB => ofTenant_apart hB (ofTenant_self d ctx)) fun t hi r hr => ?_)
  rcases (Table.mem_insert hi).1 hr with hold | rfl
  · exact .inl (List.mem_map_of_mem hold)
  · exact .inr howns

theorem isolated_upsert (dev : TOTPDevice) (newID : Nat) :
    Isolated d ctx T (fun _ => True) (TOTPRepository.upsert d ctx dev newID) := by
  refine isolated_requireOwner fun howns => ?_
  split
  · exact deviceSlot.isolated_create lawful_device index_restrict
      (fun _ hB => owns_apart hB howns) fun _ _ => .of_sessions rfl
  · exact deviceSlot.isolated_updateFound lawful_device fun _ _ => rfl

theorem isolated_getUserPermissions (userID : UserID) :
    Isolated d ctx T (fun names => Reply.Within d ctx T (.permissionNames names))
      (RBACRepository.getUserPermissions d ctx userID) := by
  refine isolated_reads (by rw [granted_view]) fun n hn => ?_
  obtain ⟨p, hp, rfl⟩ := List.mem_map.1 (List.mem_dedup.1 hn)
  obtain ⟨q, hq, hp⟩ := List.mem_flatMap.1 hp
  obtain ⟨rp, hrp, hp⟩ := List.mem_flatMap.1 hp
  obtain ⟨ur, hur, rfl⟩ := List.mem_map.1 hp
  obtain ⟨hrpmem, hrpid⟩ := List.mem_filter.1 hrp
  obtain ⟨hurmem, hcond⟩ := List.mem_filter.1 hur
  simp only [Bool.and_eq_true, decide_eq_true_eq] at hcond hrpid
  exact ⟨ur, hurmem, rp, hrpmem, q, hq, hcond.2.1, hcond.2.2,
    Prod.ext hcond.1.1.symm hrpid, rfl⟩

/-- Every method keeps to the tenant it is called under. -/
theorem isolated_perform (d : Dialect) (ctx : Ctx) (T : Tables) (c : RepoCall) :
    Isolated d ctx T (Reply.Within d ctx T) (c.perform d ctx) := by
  cases c with
  | userCreate user newID => exact isolated_quiet (isolated_userCreate user newID)
  | userFindByID id => exact (userSlot.isolated_first lawful_user _).map fun _ h => h
  | userFindByEmail => exact (userSlot.isolated_first lawful_user _).map fun _ h => h
  | userFindByUsername => exact (userSlot.isolated_first lawful_user _).map fun _ h => h
  | userUpdate user =>
    exact isolated_quiet (isolated_scopeTenant (isolated_updateRow fun _ => rfl))
  | userUpdateEmail user =>
    exact isolated_quiet (isolated_scopeTenant (isolated_updateRow (UserWrite.apply_tenantID _)))
  | userDeactivate id => exact isolated_quiet (isolated_updateRow (UserWrite.apply_tenantID _))
  | userErase user =>
    exact isolated_quiet (isolated_scopeTenant (isolated_updateRow (UserWrite.apply_tenantID _)))
  | userUpdatePassword => exact isolated_quiet (isolated_updateRow fun _ => rfl)
  | userIncrementFailedAttempts =>
    exact isolated_quiet (isolated_updateRow (UserWrite.apply_tenantID _))
  | userResetFailedAttempts user =>
    exact isolated_quiet (isolated_updateRow (UserWrite.apply_tenantID _))
  | userBumpPwdVersion id => exact isolated_quiet (isolated_updateRow (UserWrite.apply_tenantID _))
  | userCredentialChangeTx => exact isolated_quiet isolated_credentialChangeTx
  | userSetFirstPassword => exact isolated_setFirstPassword.map fun _ _ => trivial
  | userSetEmailVerified => exact isolated_quiet (isolated_updateRow (UserWrite.apply_tenantID _))
  | userListPaginated => exact isolated_listPaginated.map fun _ h => h
  | userSetLock => exact isolated_quiet (isolated_updateRow (UserWrite.apply_tenantID _))
  | sessionCreate s => exact isolated_quiet (isolated_sessionCreate s)
  | sessionFindByID id => exact (sessionSlot.isolated_first lawful_session _).map fun _ h => h
  | sessionFindActiveByUser => exact (sessionSlot.isolated_find lawful_session _ _).map fun _ h => h
  | sessionFindAllActiveByTenant =>
    exact (isolated_scopeTenant (sessionSlot.isolated_find lawful_session _ _)).map fun _ h => h
  | sessionTouch =>
    exact isolated_quiet (sessionSlot.isolated_updateFound lawful_session fun _ _ => rfl)
  | sessionRevokeByID =>
    exact isolated_quiet (sessionSlot.isolated_updateFound lawful_session fun _ _ => rfl)
  | sessionRevokeAllForUser userID =>
    exact isolated_quiet (isolated_requireOwner fun _ => isolated_revokeSessions T userID)
  | sessionRevokeAllForUserTx userID => exact isolated_quiet (isolated_revokeSessions T userID)
  | tokenCreate =>
    exact isolated_quiet (isolated_createOwned lawful_token index_restrict (fun _ => rfl)
      fun _ => rfl)
  | tokenFindByHash hash => exact (tokenSlot.isolated_first lawful_token _).map fun _ h => h
  | tokenFindActiveByUser => exact (tokenSlot.isolated_find lawful_token _ _).map fun _ h => h
  | tokenRevokeByID =>
    exact isolated_quiet (tokenSlot.isolated_updateFound lawful_token fun _ _ => rfl)
  | tokenRevoke rt =>
    exact isolated_quiet (tokenSlot.isolated_updateFound lawful_token fun _ _ => rfl)
  | tokenRevokeAllForUser userID =>
    exact isolated_quiet (isolated_requireOwner fun _ => isolated_revokeTokens T userID)
  | tokenRevokeBySession =>
    exact isolated_quiet (tokenSlot.isolated_update lawful_token fun _ _ => rfl)
  | tokenRevokeAllForUserTx userID => exact isolated_quiet (isolated_revokeTokens T userID)
  | totpUpsert dev newID => exact isolated_quiet (isolated_upsert dev newID)
  | totpFindByUserID => exact (deviceSlot.isolated_first lawful_device _).map fun _ h => h
  | totpDisable =>
    exact isolated_quiet (isolated_requireOwner fun _ =>
      deviceSlot.isolated_update lawful_device fun _ _ => rfl)
  | totpReplaceRecoveryCodes => exact isolated_quiet isolated_replaceRecoveryCodes
  | totpActiveRecoveryCodes => exact (codeSlot.isolated_find lawful_code _ _).map fun _ h => h
  | totpMarkRecoveryCodeUsed =>
    exact isolated_quiet (codeSlot.isolated_updateFound lawful_code fun _ _ => rfl)
  | oauthCreate =>
    exact isolated_quiet (isolated_createOwned lawful_identity index_restrict (fun _ => rfl)
      fun _ => rfl)
  | oauthFindByProviderAndProviderUserID =>
    exact (identitySlot.isolated_first lawful_identity _).map fun _ h => h
  | oauthFindByUserIDAndProvider =>
    exact (identitySlot.isolated_first lawful_identity _).map fun _ h => h
  | oauthDeleteByUserIDAndProvider =>
    exact isolated_quiet (identitySlot.isolated_delete lawful_identity)
  | oauthDeleteAllByUserID => exact isolated_quiet (identitySlot.isolated_delete lawful_identity)
  | passkeyCreate =>
    exact isolated_quiet (isolated_createOwned lawful_passkey index_restrict (fun _ => rfl)
      fun _ => rfl)
  | passkeyFindByCredentialID =>
    exact (passkeySlot.isolated_first lawful_passkey _).map fun _ h => h
  | passkeyListByUser => exact (passkeySlot.isolated_find lawful_passkey _ _).map fun _ h => h
  | passkeyTouchUsage =>
    exact isolated_quiet (passkeySlot.isolated_updateFound lawful_passkey fun _ _ => rfl)
  | passkeyRevokeByID =>
    exact isolated_quiet (passkeySlot.isolated_updateFound lawful_passkey fun _ _ => rfl)
  | passkeyRevokeAllForUser =>
    exact isolated_quiet (isolated_requireOwner fun _ =>
      passkeySlot.isolated_update lawful_passkey fun _ _ => rfl)
  | trustedCreate =>
    exact isolated_quiet (isolated_createOwned lawful_trusted index_restrict (fun _ => rfl)
      fun _ => rfl)
  | trustedFindByDeviceHash => exact (trustedSlot.isolated_first lawful_trusted _).map fun _ h => h
  | trustedTouchUsage =>
    exact isolated_quiet (trustedSlot.isolated_updateFound lawful_trusted fun _ _ => rfl)
  | trustedListByUser => exact (trustedSlot.isolated_find lawful_trusted _ _).map fun _ h => h
  | trustedRevoke =>
    exact isolated_quiet (trustedSlot.isolated_updateFound lawful_trusted fun _ _ => rfl)
  | rbacListPermissions => exact (isolated_reads (W := fun _ => True) rfl trivial).map fun _ h => h
  | rbacCreateRole => exact isolated_quiet isolated_createRole
  | rbacAssignRoleToUser => exact isolated_quiet isolated_assignRoleToUser
  | rbacGetUserPermissions userID =>
    exact (isolated_getUserPermissions userID).map fun _ h => h
  | rbacUserHasPermission =>
    refine (isolated_reads (W := fun _ => True) ?_ trivial).map fun _ h => h
    rw [granted_view]

end Perform

/-- **Tenant isolation of the repositories.** Every method, called under a tenant on any database
with any arguments: the rows of every other tenant stay as they are and none appears; a session
that appears is of a user of the tenant; the answer is the one the tenant's own rows and the
catalogue give, unless a unique index that all tenants share refuses; and the rows returned and
counted are the tenant's. -/
theorem repositories_isolated (d : Dialect) (ctx : Ctx) (T : Tables) (c : RepoCall) :
    (∀ B, Apart d ctx B → rowsOf d B (c.perform d ctx T).2 = rowsOf d B T) ∧
    (∀ s ∈ (c.perform d ctx T).2.sessions.rows,
      s.id ∈ T.sessions.rows.map Session.id ∨ owns d ctx T s.userID = true) ∧
    ((c.perform d ctx (view d ctx T)).1 = (c.perform d ctx T).1 ∨
      ∃ index, (c.perform d ctx T).1 = .error (.duplicatedKey index)) ∧
    ∀ r, (c.perform d ctx T).1 = .ok r → r.Within d ctx T := by
  obtain ⟨hframe, hhosted, hanswer, hwithin⟩ := isolated_perform d ctx T c
  exact ⟨hframe, hhosted, hanswer, hwithin⟩

/-- Two tenants with a user each, and a refresh token of the second user. -/
def twoTenants : Tables :=
  { DB.empty with
    users := ⟨[{ id := 1, tenantID := "a", username := "ann", email := "ann@a", password := "",
                 fullName := "", role := roleUser, isActive := true, isEmailVerified := true,
                 failedLoginAttempts := 0, lockedUntil := none, authEpoch := 0,
                 adminSuspended := false, pwdVersion := 0 },
               { id := 2, tenantID := "b", username := "bob", email := "bob@b", password := "",
                 fullName := "", role := roleUser, isActive := true, isEmailVerified := true,
                 failedLoginAttempts := 0, lockedUntil := none, authEpoch := 0,
                 adminSuspended := false, pwdVersion := 0 }], by decide⟩
    refreshTokens := ⟨[{ id := 7, userID := 2, tokenHash := ⟨0⟩, expiresAt := 100, revoked := false,
                         ipAddress := "", userAgent := "", deviceName := "",
                         locationEstimate := "", lastActiveAt := 0, sessionID := none }], by decide⟩
    trustedDevices := .empty }

/-- The first tenant hands in the token of the second. -/
theorem repositories_isolated_foreign_token :
    Apart bytes ⟨"a"⟩ ⟨"b"⟩ ∧
    rowsOf bytes ⟨"b"⟩ ((RepoCall.tokenRevokeByID 7 2).perform bytes ⟨"a"⟩ twoTenants).2 =
      rowsOf bytes ⟨"b"⟩ twoTenants :=
  have apart : Apart bytes ⟨"a"⟩ ⟨"b"⟩ := by unfold Apart; decide
  ⟨apart, (repositories_isolated bytes ⟨"a"⟩ twoTenants (.tokenRevokeByID 7 2)).1 ⟨"b"⟩ apart⟩

end FinnAuth.Tenancy
