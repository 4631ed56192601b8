import FinnAuth.Database
import FinnAuth.Jwt.Exact
import Mathlib.Data.List.TakeDrop

/-!
# The middlewares in front of the handlers

`internal/middleware`: which tenant, user and rights a handler finds in its context. The chain of a
route is `TenantMiddleware`, then `AuthMiddleware` or `MFAPendingMiddleware`, then the gates of the
route (`routes.go`). A middleware passes the context on or answers the request itself.

* A header that is absent is the empty string, as for `GetHeader`.
* The token manager is what it answers at the time of the request; `Manager.ofJWT` is the strict
  one.
* Where the middlewares look at the account, the store and the identity state, these are functions.

Out of scope: the log lines of a denial, and the middlewares that put nothing into the context
(CORS, security headers, and the limiters, which `routes.go` puts on these routes too and which can
refuse a request with 429). So "reaches the handler" is said of a request that no limiter refuses.

Results:
* **`authority_of_tokens`**: behind `AuthMiddleware` the answer and the context depend on the two
  token headers only;
* **`admitted_iff`**: when a request reaches its handler, and with which context;
* **`sudo_route_iff`**: the same for a route that asks for sudo mode under the strict manager;
* **`token_for_one_purpose`**: a token opens one kind of door, for one user of one tenant.
-/

namespace FinnAuth.Http

open Jwt

/-- `SudoHeader` -/
def sudoHeader : String := "X-Sudo-Token"

/-- `TokenTypeMFAPending` -/
def tokenTypeMFAPending : String := "mfa_pending"

/-- `TokenTypeSudo` -/
def tokenTypeSudo : String := "sudo"

/-- What the middlewares read of a request. -/
structure Request where
  host : String
  getHeader : String → String

/-- The values a handler finds: the keys of the gin context and, in the context of the request, the
tenant and the actor. -/
structure Context where
  tenantID : Option String := none
  userID : Option Nat := none
  role : Option String := none
  email : Option String := none
  jti : Option String := none
  sid : Option String := none
  permissions : Option (Option (List String)) := none
  sudoUntil : Option Int := none
  tenant : String := defaultTenantID
  actor : Option Nat := none
  deriving DecidableEq, Repr

structure Answer where
  status : Nat
  message : String
  deriving DecidableEq, Repr

abbrev Middleware := Request → Context → Except Answer Context

/-- The middlewares of a route, one after another. -/
def runChain (mws : List Middleware) (r : Request) (ctx : Context) : Except Answer Context :=
  mws.foldlM (fun ctx mw => mw r ctx) ctx

/-! ## The tenant of a request -/

/-- The functions of `net` and `strings` that `resolveTenant` uses. -/
structure Hosts where
  /-- the host of `net.SplitHostPort`; `none` is an error -/
  splitHostPort : String → Option String
  /-- `net.ParseIP` finds an address -/
  isIP : String → Bool
  toLower : String → String

def paasDomains : List String :=
  ["onrender.com", "fly.dev", "railway.app", "herokuapp.com", "vercel.app"]

def serviceNames : List String :=
  ["www", "api", "auth", "app", "admin", "staging", "dev", "localhost", "finnapigo"]

/-- `resolveTenant` -/
def resolveTenant (pl : Platform) (hosts : Hosts) (r : Request) : String :=
  let headerID := pl.trimSpace (r.getHeader "X-Tenant-ID")
  let headerSlug := pl.trimSpace (r.getHeader "X-Tenant-Slug")
  if headerID ≠ "" then headerID
  else if headerSlug ≠ "" then headerSlug
  else
    let host := hosts.toLower (pl.trimSpace ((hosts.splitHostPort r.host).getD r.host))
    if hosts.isIP host then defaultTenantID
    else
      match (host.toList.splitOn '.').map String.ofList with
      | sub :: second :: third :: rest =>
        let lastTwo := ".".intercalate ((sub :: second :: third :: rest).drop (rest.length + 1))
        if lastTwo ∈ paasDomains ∧ rest = [] then defaultTenantID
        else if sub ∉ serviceNames then sub
        else defaultTenantID
      | _ => defaultTenantID

/-- `TenantMiddleware` -/
def tenantMiddleware (pl : Platform) (hosts : Hosts) : Middleware := fun r ctx =>
  let tenantID := resolveTenant pl hosts r
  let tenantID := if tenantID = "" then defaultTenantID else tenantID
  .ok { ctx with tenantID := some tenantID, tenant := tenantID }

/-! ## Tokens -/

/-- The token manager at the time of a request. -/
structure Manager where
  verify : String → Except JwtError Jwt.Claims
  strict : Bool

/-- The strict manager of `internal/jwt`. -/
def Manager.ofJWT (pl : Platform) (m : JWTManager) (now : Int) : Manager where
  verify := m.verify pl now
  strict := true

inductive StateError : Type where
  /-- `identity.ErrInactive` -/
  | inactive
  | unavailable
  deriving DecidableEq, Repr

inductive VersionError : Type where
  /-- `services.ErrUserNotFound` -/
  | userNotFound
  | unavailable
  deriving DecidableEq, Repr

/-- `authOptions`, and the `VersionSource`. The tenant is that of the context they are called with.
-/
structure AuthOptions where
  /-- the keys on the denylist -/
  denylist : Option (String → Bool) := none
  state : Option (String → Jwt.Claims → Except StateError Unit) := none
  pwdVersion : Option (String → Nat → Except VersionError Int) := none

/-- The token of an `Authorization` header; `none` is the wrong format. -/
def bearer (pl : Platform) (header : String) : Option String :=
  match header.toList.span (· ≠ ' ') with
  | (scheme, _ :: token) =>
    if equalFold pl (String.ofList scheme) "Bearer" ∧ token ≠ [] then some (String.ofList token)
    else none
  | (_, []) => none

/-- The first lines of `AuthMiddleware` and `MFAPendingMiddleware`. -/
def tokenOfType (pl : Platform) (m : Manager) (type : String) (r : Request) :
    Except Answer Jwt.Claims :=
  if r.getHeader "Authorization" = "" then .error ⟨401, "missing authorization header"⟩
  else
    match bearer pl (r.getHeader "Authorization") with
    | none => .error ⟨401, "invalid authorization header format"⟩
    | some token =>
      match m.verify token with
      | .error _ => .error ⟨401, "invalid or expired token"⟩
      | .ok claims =>
        if claims.type = type then .ok claims else .error ⟨401, "invalid token type"⟩

/-- The tenant of a token. -/
def tidOf (claims : Jwt.Claims) : String :=
  if claims.tenantID = "" then defaultTenantID else claims.tenantID

/-- The identity state, which the strict manager must have. -/
def checkState (m : Manager) (opt : AuthOptions) (claims : Jwt.Claims) : Except Answer Unit :=
  match opt.state with
  | none => if m.strict then .error ⟨503, "identity state unavailable"⟩ else .ok ()
  | some state =>
    match state (tidOf claims) claims with
    | .ok _ => .ok ()
    | .error .inactive => .error ⟨401, "inactive credential"⟩
    | .error .unavailable => .error ⟨503, "identity state unavailable"⟩

/-- Without an identity state: the denylist. -/
def checkDenylist (opt : AuthOptions) (claims : Jwt.Claims) : Except Answer Unit :=
  match opt.denylist, opt.state with
  | some listed, none =>
    if claims.id ≠ "" ∧ listed ("denylist:jti:" ++ claims.id) then .error ⟨401, "token revoked"⟩
    else if claims.sid ≠ "" ∧ listed ("denylist:sid:" ++ claims.sid) then
      .error ⟨401, "session revoked"⟩
    else .ok ()
  | _, _ => .ok ()

/-- Without an identity state: the password version. -/
def checkVersion (opt : AuthOptions) (claims : Jwt.Claims) : Except Answer Unit :=
  match opt.pwdVersion, opt.state with
  | some current, none =>
    match current (tidOf claims) claims.userID with
    | .error .userNotFound => .error ⟨401, "invalid subject for tenant"⟩
    | .error .unavailable => .error ⟨503, "account state unavailable"⟩
    | .ok current =>
      if claims.pwdVer < current then .error ⟨401, "credentials changed, please sign in again"⟩
      else .ok ()
  | _, _ => .ok ()

/-- The checks of `AuthMiddleware` after the token. -/
def checkAccount (m : Manager) (opt : AuthOptions) (claims : Jwt.Claims) : Except Answer Unit := do
  checkState m opt claims
  checkDenylist opt claims
  checkVersion opt claims

/-- What `AuthMiddleware` puts into the context. -/
def Context.authenticated (ctx : Context) (claims : Jwt.Claims) : Context :=
  { ctx with
    tenantID := some (tidOf claims), tenant := tidOf claims
    userID := some claims.userID, actor := some claims.userID
    role := some claims.role, email := some claims.email
    jti := some claims.id, sid := some claims.sid
    permissions := some claims.permissions }

/-- `AuthMiddleware` -/
def authMiddleware (pl : Platform) (m : Manager) (opt : AuthOptions) : Middleware := fun r ctx => do
  let claims ← tokenOfType pl m tokenTypeAccess r
  checkAccount m opt claims
  .ok (ctx.authenticated claims)

/-- `MFAPendingMiddleware` -/
def mfaPendingMiddleware (pl : Platform) (m : Manager) : Middleware := fun r ctx => do
  let claims ← tokenOfType pl m tokenTypeMFAPending r
  .ok { ctx with userID := some claims.userID, tenantID := some (tidOf claims),
                 tenant := tidOf claims }

/-! ## The gates behind them -/

/-- The requirements a route adds to `AuthMiddleware`. -/
inductive Gate : Type where
  | role (roles : List String)
  | permission (p : String)
  | sudoMode
  deriving DecidableEq, Repr

/-- `RequireRole` -/
def requireRole (roles : List String) : Middleware := fun _ ctx =>
  match ctx.role with
  | none => .error ⟨401, "authentication required"⟩
  | some role => if role ∈ roles then .ok ctx else .error ⟨403, "insufficient permissions"⟩

/-- `RequirePermission` -/
def requirePermission (permission : String) : Middleware := fun _ ctx =>
  match ctx.userID with
  | none | some 0 => .error ⟨401, "authentication required"⟩
  | some (_ + 1) =>
    if permission ∈ (ctx.permissions.getD none).getD [] then .ok ctx
    else .error ⟨403, "permission denied: " ++ permission ++ " required"⟩

/-- `SudoMiddleware` -/
def sudoMiddleware (m : Manager) : Middleware := fun r ctx =>
  let denied : Except Answer Context := .error ⟨403, "sudo verification required"⟩
  if r.getHeader sudoHeader = "" then denied
  else
    match m.verify (r.getHeader sudoHeader) with
    | .error _ => denied
    | .ok claims =>
      if claims.type ≠ tokenTypeSudo ∨ (m.strict ∧ claims.tenantID ≠ ctx.tenantID.getD "") then
        denied
      else if ctx.userID ≠ some claims.userID then denied
      else
        match claims.expiresAt with
        | none => denied
        | some expiry => .ok { ctx with sudoUntil := some expiry }

def Gate.middleware (m : Manager) : Gate → Middleware
  | .role roles => requireRole roles
  | .permission p => requirePermission p
  | .sudoMode => sudoMiddleware m

/-- The chain of an authenticated route. -/
def authed (pl : Platform) (hosts : Hosts) (m : Manager) (opt : AuthOptions) (gates : List Gate) :
    List Middleware :=
  tenantMiddleware pl hosts :: authMiddleware pl m opt :: gates.map (Gate.middleware m)

/-! ## What passes -/

variable {pl : Platform} {hosts : Hosts} {m : Manager} {opt : AuthOptions} {r r' : Request}
  {ctx ctx' : Context} {claims : Jwt.Claims} {token : String} {jm : JWTManager} {gates : List Gate}
  {now : Int}

theorem bind_ok {ε α β : Type} {x : Except ε α} {f : α → Except ε β} {b : β} :
    (x >>= f) = .ok b ↔ ∃ a, x = .ok a ∧ f a = .ok b := by
  cases x with
  | error e => simp [bind, Except.bind]
  | ok a => simp [bind, Except.bind]

/-- The token a request carries, and what the manager makes of it. -/
def Carries (pl : Platform) (m : Manager) (r : Request) (type : String) (claims : Jwt.Claims) :
    Prop :=
  ∃ token, bearer pl (r.getHeader "Authorization") = some token ∧ m.verify token = .ok claims ∧
    claims.type = type

theorem bearer_empty (pl : Platform) : bearer pl "" = none := rfl

theorem tokenOfType_ok {type : String} :
    tokenOfType pl m type r = .ok claims ↔ Carries pl m r type claims := by
  unfold tokenOfType Carries
  split
  · rename_i hempty
    rw [hempty, bearer_empty]
    simp
  · split
    · rename_i hnone
      rw [hnone]
      simp
    · rename_i token htoken
      rw [htoken]
      split
      · rename_i hverify
        simp [hverify]
      · rename_i claims' hverify
        split
        · rename_i htype
          constructor
          · intro h
            obtain rfl := Except.ok.inj h
            exact ⟨token, rfl, hverify, htype⟩
          · rintro ⟨_, h, hv, -⟩
            obtain rfl := Option.some.inj h
            obtain rfl := Except.ok.inj (hverify.symm.trans hv)
            rfl
        · rename_i htype
          constructor
          · intro h
            cases h
          · rintro ⟨_, h, hv, ht⟩
            obtain rfl := Option.some.inj h
            obtain rfl := Except.ok.inj (hverify.symm.trans hv)
            exact absurd ht htype

theorem sudoMiddleware_ok : sudoMiddleware m r ctx = .ok ctx' ↔
    ∃ proof expiry, r.getHeader sudoHeader ≠ "" ∧ m.verify (r.getHeader sudoHeader) = .ok proof ∧
      proof.type = tokenTypeSudo ∧ (m.strict = true → proof.tenantID = ctx.tenantID.getD "") ∧
      ctx.userID = some proof.userID ∧ proof.expiresAt = some expiry ∧
      ctx' = { ctx with sudoUntil := some expiry } := by
  unfold sudoMiddleware
  constructor
  · intro h
    split at h
    · cases h
    · rename_i hheader
      split at h
      · cases h
      · rename_i proof hverify
        split at h
        · cases h
        · rename_i hpurpose
          simp only [not_or, not_and, not_not] at hpurpose
          split at h
          · cases h
          · rename_i huser
            split at h
            · cases h
            · rename_i expiry hexp
              exact ⟨proof, expiry, hheader, hverify, hpurpose.1, hpurpose.2, not_not.1 huser, hexp,
                (Except.ok.inj h).symm⟩
  · rintro ⟨proof, expiry, hheader, hverify, htype, htenant, huser, hexp, rfl⟩
    have hpurpose : ¬ (proof.type ≠ tokenTypeSudo ∨
        (m.strict = true ∧ proof.tenantID ≠ ctx.tenantID.getD "")) := by
      simp only [not_or, not_and, not_not]
      exact ⟨htype, htenant⟩
    simp only [hheader, hverify, hpurpose, huser, hexp, if_false, ne_eq, not_true_eq_false]

theorem requirePermission_ok {p : String} : requirePermission p r ctx = .ok ctx' ↔
    (∃ n, ctx.userID = some (n + 1)) ∧ p ∈ (ctx.permissions.getD none).getD [] ∧ ctx' = ctx := by
  unfold requirePermission
  constructor
  · intro h
    split at h
    · cases h
    · cases h
    · rename_i n huser
      split at h
      · rename_i hp
        exact ⟨⟨n, huser⟩, hp, (Except.ok.inj h).symm⟩
      · cases h
  · rintro ⟨⟨n, huser⟩, hp, rfl⟩
    rw [huser]
    exact if_pos hp

/-- What a gate asks of the request and of the claims of its access token. -/
def Gate.Passes (m : Manager) (r : Request) (claims : Jwt.Claims) : Gate → Prop
  | .role roles => claims.role ∈ roles
  | .permission p => claims.userID ≠ 0 ∧ p ∈ claims.permissions.getD []
  | .sudoMode => ∃ proof, r.getHeader sudoHeader ≠ "" ∧
      m.verify (r.getHeader sudoHeader) = .ok proof ∧ proof.type = tokenTypeSudo ∧
      (m.strict = true → proof.tenantID = tidOf claims) ∧ proof.userID = claims.userID ∧
      proof.expiresAt.isSome = true

/-- The context shows the identity of an access token, and nothing besides but sudo mode. -/
def Shows (ctx : Context) (claims : Jwt.Claims) : Prop :=
  ∃ sudoUntil, ctx = { ({} : Context).authenticated claims with sudoUntil := sudoUntil }

/-- **One gate.** It passes on the identity it found, and only for what it asks. -/
theorem gate_passes {g : Gate} (hctx : Shows ctx claims) (h : g.middleware m r ctx = .ok ctx') :
    g.Passes m r claims ∧ Shows ctx' claims := by
  cases g with
  | role =>
    obtain ⟨_, rfl⟩ := hctx
    simp only [Gate.middleware, requireRole, Context.authenticated] at h
    split at h
    · rename_i hrole
      exact ⟨hrole, _, (Except.ok.inj h).symm⟩
    · cases h
  | permission p =>
    obtain ⟨_, rfl⟩ := hctx
    obtain ⟨⟨n, huser⟩, hp, rfl⟩ := (requirePermission_ok (r := r)).1 h
    exact ⟨⟨Option.some.inj huser ▸ Nat.succ_ne_zero n, hp⟩, _, rfl⟩
  | sudoMode =>
    obtain ⟨_, rfl⟩ := hctx
    obtain ⟨proof, expiry, hheader, hverify, htype, htenant, huser, hexp, rfl⟩ :=
      sudoMiddleware_ok.1 h
    exact ⟨⟨proof, hheader, hverify, htype, htenant, (Option.some.inj huser).symm,
      by rw [hexp]; rfl⟩, _, rfl⟩

theorem gate_admits {g : Gate} (hctx : Shows ctx claims) (h : g.Passes m r claims) :
    ∃ ctx', g.middleware m r ctx = .ok ctx' := by
  obtain ⟨_, rfl⟩ := hctx
  cases g with
  | role => exact ⟨_, if_pos h⟩
  | permission p =>
    obtain ⟨n, hn⟩ := Nat.exists_eq_succ_of_ne_zero h.1
    exact ⟨_, (requirePermission_ok (r := r)).2 ⟨⟨n, congrArg some hn⟩, h.2, rfl⟩⟩
  | sudoMode =>
    obtain ⟨proof, hheader, hverify, htype, htenant, huser, hexp⟩ := h
    obtain ⟨expiry, hexpiry⟩ := Option.isSome_iff_exists.1 hexp
    exact ⟨_, sudoMiddleware_ok.2 ⟨proof, expiry, hheader, hverify, htype, htenant,
      congrArg some huser.symm, hexpiry, rfl⟩⟩

/-- The gates of a route, one after another. -/
theorem gates_ok (gates : List Gate) (hctx : Shows ctx claims) :
    (∀ ctx', runChain (gates.map (Gate.middleware m)) r ctx = .ok ctx' → Shows ctx' claims) ∧
      ((∃ ctx', runChain (gates.map (Gate.middleware m)) r ctx = .ok ctx') ↔
        ∀ g ∈ gates, g.Passes m r claims) := by
  induction gates generalizing ctx with
  | nil => exact ⟨fun _ h => Except.ok.inj h ▸ hctx, fun _ _ h => (by cases h), fun _ => ⟨ctx, rfl⟩⟩
  | cons g gates ih =>
    simp only [runChain, List.map_cons, List.foldlM_cons, bind_ok]
    refine ⟨?_, ?_, fun h => ?_⟩
    · rintro ctx' ⟨mid, hmid, hrest⟩
      exact (ih (gate_passes hctx hmid).2).1 ctx' hrest
    · rintro ⟨ctx', mid, hmid, hrest⟩
      obtain ⟨hpass, hshows⟩ := gate_passes hctx hmid
      exact List.forall_mem_cons.2 ⟨hpass, (ih hshows).2.1 ⟨ctx', hrest⟩⟩
    · obtain ⟨hpass, hrest⟩ := List.forall_mem_cons.1 h
      obtain ⟨mid, hmid⟩ := gate_admits hctx hpass
      obtain ⟨ctx', hctx'⟩ := (ih (gate_passes hctx hmid).2).2.2 hrest
      exact ⟨ctx', mid, hmid, hctx'⟩

/-- The chain behind `TenantMiddleware`; what that one put into the context is gone. -/
theorem authed_eq (pl : Platform) (hosts : Hosts) (m : Manager) (opt : AuthOptions)
    (gates : List Gate) (r : Request) :
    runChain (authed pl hosts m opt gates) r {} =
      tokenOfType pl m tokenTypeAccess r >>= fun claims => checkAccount m opt claims >>= fun _ =>
        runChain (gates.map (Gate.middleware m)) r (({} : Context).authenticated claims) := by
  unfold runChain authed
  simp only [List.foldlM_cons, authMiddleware, bind_assoc]
  rfl

/-- What an authenticated route lets pass. -/
theorem authed_shows (h : runChain (authed pl hosts m opt gates) r {} = .ok ctx) :
    ∃ claims, Carries pl m r tokenTypeAccess claims ∧ Shows ctx claims := by
  rw [authed_eq] at h
  obtain ⟨claims, hclaims, h⟩ := bind_ok.1 h
  obtain ⟨-, -, h⟩ := bind_ok.1 h
  exact ⟨claims, tokenOfType_ok.1 hclaims, (gates_ok gates ⟨none, rfl⟩).1 ctx h⟩

/-- When it lets a request with an access token pass. -/
theorem authed_iff (hcarries : Carries pl m r tokenTypeAccess claims) :
    (∃ ctx, runChain (authed pl hosts m opt gates) r {} = .ok ctx) ↔
      checkAccount m opt claims = .ok () ∧ ∀ g ∈ gates, g.Passes m r claims := by
  rw [authed_eq]
  have hclaims := tokenOfType_ok.2 hcarries
  have hshows : Shows (({} : Context).authenticated claims) claims := ⟨none, rfl⟩
  have hgates := (gates_ok (r := r) (m := m) gates hshows).2
  constructor
  · rintro ⟨ctx, h⟩
    obtain ⟨claims', hclaims', h⟩ := bind_ok.1 h
    obtain rfl := Except.ok.inj (hclaims.symm.trans hclaims')
    obtain ⟨⟨⟩, hcheck, h⟩ := bind_ok.1 h
    exact ⟨hcheck, hgates.1 ⟨ctx, h⟩⟩
  · rintro ⟨hcheck, hpass⟩
    obtain ⟨ctx, h⟩ := hgates.2 hpass
    exact ⟨ctx, bind_ok.2 ⟨claims, hclaims, bind_ok.2 ⟨(), hcheck, h⟩⟩⟩

/-- **The gate in front of every handler.** What an authenticated route lets pass carries an access
token the manager verifies, and the handler finds the identity of that token. With such a token a
request passes exactly when the account checks and all gates of the route do. -/
theorem admitted_iff (pl : Platform) (hosts : Hosts) (m : Manager) (opt : AuthOptions)
    (gates : List Gate) (r : Request) :
    (∀ ctx, runChain (authed pl hosts m opt gates) r {} = .ok ctx →
      ∃ claims, Carries pl m r tokenTypeAccess claims ∧ Shows ctx claims) ∧
    ∀ claims, Carries pl m r tokenTypeAccess claims →
      ((∃ ctx, runChain (authed pl hosts m opt gates) r {} = .ok ctx) ↔
        checkAccount m opt claims = .ok () ∧ ∀ g ∈ gates, g.Passes m r claims) :=
  ⟨fun _ => authed_shows, fun _ => authed_iff⟩

/-- **Headers select no authority.** Two requests with the same token headers get the same answer,
or reach the handler with the same context, whatever tenant their host and other headers name. -/
theorem authority_of_tokens (pl : Platform) (hosts : Hosts) (m : Manager) (opt : AuthOptions)
    (gates : List Gate) (r r' : Request)
    (hbearer : r.getHeader "Authorization" = r'.getHeader "Authorization")
    (hsudo : r.getHeader sudoHeader = r'.getHeader sudoHeader) :
    runChain (authed pl hosts m opt gates) r {} = runChain (authed pl hosts m opt gates) r' {} := by
  have hgate : ∀ g : Gate, g.middleware m r = g.middleware m r' := by
    intro g
    cases g with
    | role => rfl
    | permission p => rfl
    | sudoMode =>
      funext ctx
      simp only [Gate.middleware, sudoMiddleware, hsudo]
  have hgates : ∀ ctx, runChain (gates.map (Gate.middleware m)) r ctx =
      runChain (gates.map (Gate.middleware m)) r' ctx := by
    intro ctx
    simp only [runChain, List.foldlM_map, hgate]
  simp only [authed_eq, hgates, tokenOfType, hbearer]

/-- A manager that knows one token, and no options. -/
def oneToken : Manager where
  verify token := if token = "a.b.c" then .ok (JWTManager.baseClaims 0 7 "user" "" "access" 0)
    else .error .invalidToken
  strict := false

/-- No host is an address, and none has a port. -/
def plainHosts : Hosts := ⟨fun _ => none, fun _ => false, id⟩

/-- A request with the token, in the tenant that the header names. -/
def tokenIn (tenant : String) : Request where
  host := "auth.example.com"
  getHeader name := if name = "Authorization" then "Bearer a.b.c"
    else if name = "X-Tenant-ID" then tenant else ""

theorem authority_of_tokens_acme :
    runChain (authed .plain plainHosts oneToken {} [.role ["user"]]) (tokenIn "acme") {} =
      runChain (authed .plain plainHosts oneToken {} [.role ["user"]]) (tokenIn "") {} :=
  authority_of_tokens _ _ _ _ _ _ _ rfl rfl

/-! ## The strict manager -/

theorem access_tenant (h : JWTManager.Verifies pl jm now token claims)
    (htype : claims.type = tokenTypeAccess) : claims.tenantID ≠ "" := by
  obtain ⟨key, -, hparse⟩ := h.key
  have haccess := hparse.access htype
  unfold JWTManager.validateAccess at haccess
  split at haccess
  · split at haccess
    · simp only [Bool.and_eq_true, JWTManager.claimsValid, decide_eq_true_eq] at haccess
      intro hempty
      have htrim := haccess.1.1.2.1.1.1.1.1.2
      rw [hempty, pl.trimSpace_empty] at htrim
      exact htrim rfl
    · cases haccess
  · cases haccess

theorem checkAccount_state {state : String → Jwt.Claims → Except StateError Unit} :
    checkAccount m { opt with state := some state } claims = .ok () ↔
      state (tidOf claims) claims = .ok () := by
  cases h : state (tidOf claims) claims with
  | ok => simp [checkAccount, checkState, checkDenylist, checkVersion, h]; rfl
  | error e => cases e <;> simp [checkAccount, checkState, h, bind, Except.bind]

/-- **Sudo mode under the strict manager.** A request reaches the handler of a sudo route exactly
when it carries an access token and a sudo token that the manager verifies, both of one user and one
tenant, and the identity state accepts the credential in that tenant. -/
theorem sudo_route_iff (pl : Platform) (hosts : Hosts) (jm : JWTManager) (now : Int)
    (opt : AuthOptions) (state : String → Jwt.Claims → Except StateError Unit) (r : Request) :
    (∃ ctx, runChain (authed pl hosts (.ofJWT pl jm now) { opt with state := some state }
      [.sudoMode]) r {} = .ok ctx) ↔
    ∃ token claims proof, bearer pl (r.getHeader "Authorization") = some token ∧
      JWTManager.Verifies pl jm now token claims ∧ claims.type = tokenTypeAccess ∧
      JWTManager.Verifies pl jm now (r.getHeader sudoHeader) proof ∧ proof.type = tokenTypeSudo ∧
      proof.userID = claims.userID ∧ proof.tenantID = claims.tenantID ∧
      state claims.tenantID claims = .ok () := by
  constructor
  · rintro ⟨ctx, h⟩
    obtain ⟨claims, hcarries, -⟩ := authed_shows h
    obtain ⟨hcheck, hpass⟩ := (authed_iff hcarries).1 ⟨ctx, h⟩
    obtain ⟨token, htoken, hverify, htype⟩ := hcarries
    obtain ⟨proof, -, hproof, hptype, htenant, huser, -⟩ := hpass _ (List.mem_singleton_self _)
    have haccess := JWTManager.verify_ok.1 hverify
    have htid : tidOf claims = claims.tenantID := if_neg (access_tenant haccess htype)
    rw [checkAccount_state, htid] at hcheck
    exact ⟨token, claims, proof, htoken, haccess, htype, JWTManager.verify_ok.1 hproof,
      hptype, huser, (htenant rfl).trans htid, hcheck⟩
  · rintro ⟨token, claims, proof, htoken, haccess, htype, hproof, hptype, huser, htenant, hstate⟩
    have htid : tidOf claims = claims.tenantID := if_neg (access_tenant haccess htype)
    refine (authed_iff ⟨token, htoken, JWTManager.verify_ok.2 haccess, htype⟩).2
      ⟨checkAccount_state.2 (htid.symm ▸ hstate), ?_⟩
    rw [List.forall_mem_singleton]
    refine ⟨proof, fun hempty => hproof.kid ?_, JWTManager.verify_ok.2 hproof, hptype,
      fun _ => htenant.trans htid.symm, huser, ?_⟩
    · rw [hempty]
      rfl
    · obtain ⟨key, -, hparse⟩ := hproof.key
      have hvalid := hparse.valid
      simp only [JWTManager.validate, Bool.and_eq_true] at hvalid
      cases hexp : proof.expiresAt with
      | none => rw [hexp] at hvalid; cases hvalid.1.1.1
      | some => rfl

/-! ## Token types -/

/-- The doors a token can open. -/
inductive Door : Type where
  | access
  | pending
  | sudoMode
  deriving DecidableEq, Repr

/-- A request with the token at the door reaches the handler, which finds the context. -/
def Opens (pl : Platform) (hosts : Hosts) (m : Manager) (opt : AuthOptions) (gates : List Gate)
    (token : String) (ctx : Context) : Door → Prop
  | .access => ∃ r, bearer pl (r.getHeader "Authorization") = some token ∧
      runChain (authed pl hosts m opt gates) r {} = .ok ctx
  | .pending => ∃ r, bearer pl (r.getHeader "Authorization") = some token ∧
      runChain [tenantMiddleware pl hosts, mfaPendingMiddleware pl m] r {} = .ok ctx
  | .sudoMode => ∃ r, r.getHeader sudoHeader = token ∧ .sudoMode ∈ gates ∧
      runChain (authed pl hosts m opt gates) r {} = .ok ctx

def Door.type : Door → String
  | .access => tokenTypeAccess
  | .pending => tokenTypeMFAPending
  | .sudoMode => tokenTypeSudo

theorem Door.type_injective {d d' : Door} (h : d.type = d'.type) : d = d' := by
  revert h
  cases d <;> cases d' <;> decide

theorem tidOf_ne_empty (claims : Jwt.Claims) : tidOf claims ≠ "" := by
  unfold tidOf
  split
  · decide
  · assumption

/-- The claims of a token that opens a door, and whom the handler finds. -/
theorem claims_of_opens {d : Door} (h : Opens pl hosts (.ofJWT pl jm now) opt gates token ctx d) :
    ∃ claims, JWTManager.Verifies pl jm now token claims ∧ claims.type = d.type ∧
      ctx.userID = some claims.userID ∧ ctx.tenantID = some (tidOf claims) := by
  cases d with
  | access =>
    obtain ⟨r, hb, h⟩ := h
    obtain ⟨claims, ⟨token', hb', hv, ht⟩, _, rfl⟩ := authed_shows h
    obtain rfl := Option.some.inj (hb.symm.trans hb')
    exact ⟨claims, JWTManager.verify_ok.1 hv, ht, rfl, rfl⟩
  | pending =>
    obtain ⟨r, hb, h⟩ := h
    simp only [runChain, List.foldlM_cons, List.foldlM_nil, mfaPendingMiddleware, bind_ok] at h
    obtain ⟨_, -, _, ⟨claims, hclaims, hctx⟩, hend⟩ := h
    obtain rfl := Except.ok.inj hctx
    obtain rfl := Except.ok.inj hend
    obtain ⟨token', hb', hv, ht⟩ := tokenOfType_ok.1 hclaims
    obtain rfl := Option.some.inj (hb.symm.trans hb')
    exact ⟨claims, JWTManager.verify_ok.1 hv, ht, rfl, rfl⟩
  | sudoMode =>
    obtain ⟨r, rfl, hmem, h⟩ := h
    obtain ⟨claims, hcarries, _, rfl⟩ := authed_shows h
    obtain ⟨proof, -, hv, ht, htenant, huser, -⟩ := ((authed_iff hcarries).1 ⟨_, h⟩).2 _ hmem
    -- the sudo token is of the user and the tenant of the access token beside it
    have htid : tidOf proof = tidOf claims := by
      have hproof : proof.tenantID = tidOf claims := htenant rfl
      rw [tidOf, if_neg (hproof ▸ tidOf_ne_empty claims), hproof]
    refine ⟨proof, JWTManager.verify_ok.1 hv, ht, ?_, ?_⟩
    · rw [huser]
      rfl
    · rw [htid]
      rfl

/-- **A token is for one purpose.** A token that has opened a door opens no other one, at any time,
on any route and under any keys, and whenever it is accepted it stands for the same user of the same
tenant. -/
theorem token_for_one_purpose (pl : Platform) (hosts : Hosts) (jm : JWTManager) (now : Int)
    (opt : AuthOptions) (gates : List Gate) (token : String) (ctx : Context) (d : Door)
    (h : Opens pl hosts (.ofJWT pl jm now) opt gates token ctx d) (hosts' : Hosts)
    (jm' : JWTManager)
    (now' : Int) (opt' : AuthOptions) (gates' : List Gate) (ctx' : Context) (d' : Door)
    (h' : Opens pl hosts' (.ofJWT pl jm' now') opt' gates' token ctx' d') :
    d' = d ∧ ctx'.userID = ctx.userID ∧ ctx'.tenantID = ctx.tenantID := by
  obtain ⟨claims, hv, ht, huser, htenant⟩ := claims_of_opens h
  obtain ⟨claims', hv', ht', huser', htenant'⟩ := claims_of_opens h'
  obtain rfl := hv.unique hv'
  exact ⟨Door.type_injective (ht'.symm.trans ht), huser'.trans huser.symm,
    htenant'.trans htenant.symm⟩

theorem verifies_ne_empty (h : JWTManager.Verifies pl jm now token claims) : token ≠ "" := by
  rintro rfl
  exact h.kid rfl

theorem bearer_token (h : token ≠ "") : bearer pl ("Bearer " ++ token) = some token := by
  have hspan : ("Bearer " ++ token).toList.span (· ≠ ' ') =
      ("Bearer".toList, ' ' :: token.toList) := by
    rw [List.span_eq_takeWhile_dropWhile, String.toList_append]
    rfl
  unfold bearer
  simp [equalFold, h]

/-- An access token opens its door while the manager verifies it and the identity state accepts it.
-/
theorem opens_access (hosts : Hosts) (opt : AuthOptions)
    (state : String → Jwt.Claims → Except StateError Unit)
    (h : JWTManager.Verifies pl jm now token claims) (htype : claims.type = tokenTypeAccess)
    (hstate : state (tidOf claims) claims = .ok ()) :
    ∃ ctx, Opens pl hosts (.ofJWT pl jm now) { opt with state := some state } [] token ctx
      .access := by
  have hb : bearer pl ("Bearer " ++ token) = some token := bearer_token (verifies_ne_empty h)
  have hcarries : Carries pl (.ofJWT pl jm now) ⟨"", fun _ => "Bearer " ++ token⟩ tokenTypeAccess
    claims := ⟨token, hb, JWTManager.verify_ok.2 h, htype⟩
  have hpass : ∀ g ∈ ([] : List Gate), g.Passes (.ofJWT pl jm now) ⟨"", fun _ => "Bearer " ++ token⟩
    claims := fun _ hg => by cases hg
  obtain ⟨ctx, hctx⟩ := (authed_iff hcarries).2 ⟨checkAccount_state.2 hstate, hpass⟩
  exact ⟨ctx, _, hb, hctx⟩

/-- The token of a session. -/
def sessionToken : String :=
  oneKey.sign .plain (JWTManager.accessClaims sharp someUuid (session (900 * second)))

theorem verifies_sessionToken {age : Int} (h : 0 ≤ age ∧ age ≤ 600 * second) :
    JWTManager.Verifies .plain oneKey (sharp.val + age) sessionToken
      (JWTManager.accessClaims sharp someUuid (session (900 * second))) := by
  refine JWTManager.verify_ok.1 ((JWTManager.verify_access oneKey.keys_currentKid
    (admissible_session (by decide))).2 ⟨rfl, fun p hp => (by cases hp), by decide, ?_, ?_⟩)
  all_goals
    simp only [sharp, session, JWTManager.numericDate, second, maxSkew] at *
    omega

/-- A session's token opens the access door in its first ten minutes; so it never gives sudo mode
and never passes for a pending login. -/
theorem token_for_one_purpose_session :
    (∀ age, 0 ≤ age → age ≤ 600 * second → ∃ ctx, Opens .plain plainHosts
      (.ofJWT .plain oneKey (sharp.val + age)) { state := some fun _ _ => .ok () } []
      sessionToken ctx .access) ∧
    ∀ hosts jm now opt gates ctx d, d ≠ .access →
      ¬ Opens .plain hosts (.ofJWT .plain jm now) opt gates sessionToken ctx d := by
  have hopens : ∀ age, 0 ≤ age → age ≤ 600 * second → ∃ ctx, Opens .plain plainHosts
      (.ofJWT .plain oneKey (sharp.val + age)) { state := some fun _ _ => .ok () } []
      sessionToken ctx .access :=
    fun age h₀ h₁ => opens_access plainHosts {} _ (verifies_sessionToken ⟨h₀, h₁⟩) rfl rfl
  refine ⟨hopens, ?_⟩
  intro hosts jm now opt gates ctx d hd hopen
  obtain ⟨_, h⟩ := hopens 0 (by decide) (by decide)
  exact hd (token_for_one_purpose _ _ _ _ _ _ _ _ _ h _ _ _ _ _ _ _ hopen).1

end FinnAuth.Http
