import FinnAuth.Lib.Run
import FinnAuth.Service.Session
import FinnAuth.Service.Account
import FinnAuth.Service.Federated

/-!
# The public calls, one after another

Every public call of the authentication, TOTP, Google and passkey services as a value of `Request`,
and runs of such calls with the passage of time, lost store keys and the clean-up jobs in between.
The user id of a call is what the access-token middleware puts into the request; no check of an
access token stands in front of it, so the runs contain those of every client.
-/

namespace FinnAuth

open Lib

/-- A public call. -/
inductive Request : Type where
  | register (in_ : RegisterInput)
  | login (email password captchaToken ip ua : String)
  | completeMFALogin (token : Token) (code ip ua : String)
  | refresh (refreshToken : Uuid) (ip ua : String)
  | logout (refreshToken : Uuid) (accessJTI : Option Uuid) (ip : String)
  | logoutAll (userID : UserID) (ip : String)
  | revokeSession (sessionID : Uuid) (userID : UserID) (ip : String)
  | forgotPassword (email : String)
  | resendVerifyEmail (email ip : String)
  | resetPassword (token : Token) (newPassword ip : String)
  | verifyEmail (token : Token)
  | changePassword (userID : UserID) (oldPassword newPassword ip : String)
  | setPassword (userID : UserID) (newPassword ip : String)
  | requestChangeEmail (userID : UserID) (password newEmail ip : String)
  | confirmChangeEmail (token : Option Uuid) (ip : String)
  | deactivateAccount (userID : UserID) (sudoToken : Option Token) (password : String)
      (accessJTI : Option Uuid) (ip : String)
  | eraseAccount (userID : UserID) (sudoToken : Option Token) (password : String)
      (accessJTI : Option Uuid) (ip : String)
  | totpEnable (userID : UserID) (sudoToken : Option Token)
  | totpVerifyEnable (userID : UserID) (code : String)
  | totpValidate (userID : UserID) (code : String)
  | totpViewRecoveryCodes (userID : UserID) (code : String)
  | totpRegenerateRecoveryCodes (userID : UserID)
  | totpDisable (userID : UserID) (sudoToken : Option Token) (password code : String)
  | oauthBeginLogin
  | handleCallback (reply : GoogleReply) (state : Option Uuid) (ip ua : String)
  | unlink (userID : UserID) (provider ip : String)
  | passkeyBeginRegistration (userID : UserID)
  | passkeyFinishRegistration (userID : UserID) (a : Assertion) (displayName ip : String)
  | passkeyBeginAuthentication (userID : UserID)
  | passkeyFinishAuthentication (userID : UserID) (a : Assertion) (ip ua : String)
  | passkeyRevoke (id : Nat) (userID : UserID)

/-- The pair of a login that needs no second factor. -/
def LoginResult.pair? : LoginResult → Option TokenPair
  | pair p _ => some p
  | mfaPending _ => none

/-- The handler of `POST /mfa/totp/recovery-codes`: the codes, and a sudo token for the caller. -/
def viewRecoveryCodesRoute (env : Env) (ctx : Ctx) (userID : UserID) (code : String) :
    M Token := do
  let _ ← TOTPService.viewRecoveryCodes env ctx userID code
  jwtIssue userID "" "" .sudo env.cfg.sudoTTL ctx.tenant

/-- A call whose result carries no token pair. -/
def noPair {α : Type} (p : M α) : M (Option TokenPair) := p >>= fun _ => .ret none

/-- Serves a call; the reply is the token pair it returned, if any. -/
def serve (env : Env) (ctx : Ctx) : Request → M (Option TokenPair)
  | .register i => noPair (register env ctx i)
  | .login email password captcha ip ua =>
    login env ctx email password captcha ip ua >>= fun r => .ret r.pair?
  | .completeMFALogin t code ip ua =>
    completeMFALogin env ctx t code ip ua >>= fun r => .ret (some r.1)
  | .refresh t ip ua => refresh env ctx t ip ua >>= fun p => .ret (some p)
  | .logout t jti ip => noPair (logout env ctx t jti ip)
  | .logoutAll userID ip => noPair (logoutAll ctx userID ip)
  | .revokeSession sid userID ip => noPair (revokeSession env ctx sid userID ip)
  | .forgotPassword email => noPair (forgotPassword env ctx email)
  | .resendVerifyEmail email ip => noPair (resendVerifyEmail env ctx email ip)
  | .resetPassword t new ip => noPair (resetPassword env ctx t new ip)
  | .verifyEmail t => noPair (verifyEmail env ctx t)
  | .changePassword userID old new ip => noPair (changePassword env ctx userID old new ip)
  | .setPassword userID new ip => noPair (setPassword env ctx userID new ip)
  | .requestChangeEmail userID password email ip =>
    noPair (requestChangeEmail env ctx userID password email ip)
  | .confirmChangeEmail t ip => noPair (confirmChangeEmail env ctx t ip)
  | .deactivateAccount userID t password jti ip =>
    noPair (deactivateAccount env ctx userID t password jti ip)
  | .eraseAccount userID t password jti ip =>
    noPair (eraseAccount env ctx userID t password jti ip)
  | .totpEnable userID t => noPair (TOTPService.enable env ctx userID t)
  | .totpVerifyEnable userID code => noPair (TOTPService.verifyEnable env ctx userID code)
  | .totpValidate userID code => noPair (TOTPService.validate env ctx userID code)
  | .totpViewRecoveryCodes userID code => noPair (viewRecoveryCodesRoute env ctx userID code)
  | .totpRegenerateRecoveryCodes userID =>
    noPair (TOTPService.regenerateRecoveryCodes env ctx userID)
  | .totpDisable userID t password code =>
    noPair (TOTPService.disable env ctx userID t password code)
  | .oauthBeginLogin => noPair (oauthBeginLogin env)
  | .handleCallback reply state ip ua =>
    handleCallback env ctx reply state ip ua >>= fun r => .ret r.pair?
  | .unlink userID provider ip => noPair (unlink ctx userID provider ip)
  | .passkeyBeginRegistration userID => noPair (passkeyBeginRegistration env ctx userID)
  | .passkeyFinishRegistration userID a name ip =>
    noPair (passkeyFinishRegistration ctx userID a name ip)
  | .passkeyBeginAuthentication userID => noPair (passkeyBeginAuthentication env ctx userID)
  | .passkeyFinishAuthentication userID a ip ua =>
    passkeyFinishAuthentication env ctx userID a ip ua >>= fun r => .ret (some r.1)
  | .passkeyRevoke id userID => noPair (passkeyRevoke ctx id userID)

/-- What can happen next: a call in the tenant of its request, an outside change, or the clean-up
of refresh tokens in `cmd/server/main.go`. -/
inductive Event : Type where
  | call (ctx : Ctx) (r : Request)
  | outside (o : Outside)
  | purgeRefreshTokens

/-- The reply of a call: its error, or the pair it returned if any. -/
abbrev Reply := Except Err (Option TokenPair)

/-- The call returned a token pair. -/
def ReturnedPair (r : Reply) : Prop := ∃ pair, r = .ok (some pair)

instance : (r : Reply) → Decidable (ReturnedPair r)
  | .ok (some p) => .isTrue ⟨p, rfl⟩
  | .ok none => .isFalse fun ⟨_, h⟩ => by cases h
  | .error _ => .isFalse fun ⟨_, h⟩ => by cases h

/-- The event and the state after it. -/
def respond (env : Env) : Event → World → Reply × World
  | .call ctx r, w => (serve env ctx r).run w
  | .outside o, w => (.ok none, o.apply w)
  | .purgeRefreshTokens, w => (.ok none, { w with db := w.db.purgeRefreshTokens w.now })

/-- A run of the service. -/
abbrev ServiceRun := Run World Event Reply

/-- The run of the events `es` from the state `w`. -/
def serviceRun (env : Env) (w : World) (es : List Event) : ServiceRun :=
  (Run.init w : ServiceRun).exec (respond env) es

end FinnAuth
