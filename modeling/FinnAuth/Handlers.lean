import FinnAuth.Service.Credential

/-!
# Answers over HTTP

`statusForError` and `respondError` of `internal/handlers/handlers.go`, and the two handlers of
`internal/handlers/auth_handler.go` whose answer must not depend on whether an account exists. A
handler gets the bound request, or the error of the binding, and always answers.
-/

namespace FinnAuth

open Lib

/-- What `response.Respond` writes when there is no data. -/
structure Response where
  code : Nat
  message : String
  deriving DecidableEq, Repr

/-- The text of a sentinel error of `internal/services/errors.go` and of what wraps it. The texts of
drivers and libraries are never shown and left out. -/
def Err.error : Err → String
  | .identityUnavailable => "identity state unavailable"
  | .invalidInput => "invalid input"
  | .passwordTooWeak => "password does not meet complexity requirements"
  | .invalidCredentials => "invalid email or password"
  | .invalidToken => "invalid or expired token"
  | .invalidCode => "invalid or expired code"
  | .accountLocked => "account is temporarily locked due to repeated failed attempts"
  | .accountDisabled => "account is disabled"
  | .emailNotVerified => "email is not verified"
  | .sudoRequired => "sudo verification required"
  | .captchaRequired => "captcha verification required"
  | .userNotFound => "user not found"
  | .totpUnrecoverable => "totp configuration is invalid; please re-enroll MFA"
  | .sessionNotFound => "session not found"
  | .emailExists => "email already registered"
  | .usernameExists => "username already taken"
  | .passwordAlreadySet => "password already set; use change-password instead"
  | .disposableEmail => "disposable email addresses are not allowed"
  | .passwordBreached => "password appears in known data breaches — choose a different one"
  | .rateLimited => "rate limit exceeded, please try again later"
  | .oauthStateInvalid => "invalid or expired oauth state"
  | .oauthEmailNotVerified => "google email is not verified"
  | .oauthCodeExchangeFailed => "failed to exchange authorization code"
  | .oauthTokenVerificationFailed => "failed to verify google id token"
  | .oauthEmailTaken =>
    "an account with this email already exists — verify the email or sign in with your password"
  | .cannotUnlinkOnlyMethod =>
    "cannot unlink the only authentication method without setting a password"
  | .cannotLockSelf => "cannot lock own account"
  | .unavailable => "durable audit unavailable"
  | .wrapped ctx e => ctx ++ ": " ++ e.error
  | _ => ""

/-- `statusForError`: `errors.Is` looks through the wrapping, `err.Error()` shows it. -/
def statusForError (e : Err) : Nat × String :=
  match e.root with
  | .invalidCredentials | .accountLocked | .accountDisabled | .emailNotVerified =>
    (401, "invalid email or password")
  | .invalidToken | .invalidCode => (401, e.error)
  | .sudoRequired => (403, e.error)
  | .totpUnrecoverable => (422, e.error)
  | .userNotFound | .sessionNotFound => (404, e.error)
  | .emailExists | .usernameExists | .passwordAlreadySet => (409, e.error)
  | .invalidInput | .passwordTooWeak | .captchaRequired | .cannotUnlinkOnlyMethod
  | .cannotLockSelf => (400, e.error)
  | .disposableEmail | .passwordBreached => (422, e.error)
  | .oauthStateInvalid => (401, e.error)
  | .oauthEmailNotVerified => (403, e.error)
  | .oauthEmailTaken => (409, e.error)
  | .oauthCodeExchangeFailed | .oauthTokenVerificationFailed => (502, e.error)
  | .unavailable => (503, "durable audit unavailable")
  | .identityUnavailable => (503, "identity state unavailable")
  | .rateLimited => (429, e.error)
  | _ => (500, "internal server error")

/-- `respondError`. -/
def respondError (e : Err) : Response := ⟨(statusForError e).1, (statusForError e).2⟩

/-- The answer of a handler that shows some errors of its service call and hides the others behind
the answer of success. -/
def neutralAnswer (shown : Err → Bool) (message : String) : Except Err Unit → Response
  | .error e => if shown e.root then respondError e else ⟨200, message⟩
  | .ok () => ⟨200, message⟩

/-- `AuthHandler.ForgotPassword`. -/
def forgotPasswordHandler (env : Env) (ctx : Ctx) : Except String String → M Response
  | .error e => pure ⟨400, e⟩
  | .ok email => do
    let r ← (forgotPassword env ctx email).attempt
    pure (neutralAnswer (· = .unavailable) "if the email exists, a reset link has been sent" r)

/-- `AuthHandler.ResendVerifyEmail`, for a client at `ip`. -/
def resendVerifyEmailHandler (env : Env) (ctx : Ctx) (ip : String) :
    Except String String → M Response
  | .error e => pure ⟨400, e⟩
  | .ok email => do
    let r ← (resendVerifyEmail env ctx email ip).attempt
    pure (neutralAnswer (fun e => e = .rateLimited || e = .unavailable)
      "if the email exists, a verification link has been sent" r)

end FinnAuth
