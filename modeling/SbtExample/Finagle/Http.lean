import SbtExample.Foundations.Services

/-! # Authorised requests

The filters of `HttpServer` and `HttpClient`: the server turns exceptions into responses and asks
for a shared secret, the client turns responses into exceptions. The service behind them is a
parameter, as are the text of a stack trace and the reason phrase of a status.
-/
set_option autoImplicit false
set_option maxHeartbeats 250000

namespace SbtExample.Finagle.Http
open Services

structure Status where
  code : ℕ
  deriving DecidableEq

namespace Status
def Ok : Status := ⟨200⟩
def Forbidden : Status := ⟨403⟩
def InternalServerError : Status := ⟨500⟩
end Status

/-- `get` of the header map, and the path. -/
structure Request where
  path : String
  headerMap : String → Option String

structure Response where
  status : Status
  contentString : String
  deriving DecidableEq

/-- The exceptions that the code throws or tells apart. -/
inductive Throwable
  | illegalArgumentException (message : String)
  | invalidRequest
  | exception (message : String)
  | other (name : String)
  deriving DecidableEq

namespace HttpServer
variable {σ : Type} (stackTrace : Throwable → String)

def statusCode : Throwable → Status
  | .illegalArgumentException _ => Status.Forbidden
  | _ => Status.InternalServerError

def errorResponse (error : Throwable) : Response := ⟨statusCode error, stackTrace error⟩

def HandleExceptions : SimpleFilter σ Throwable Request Response := fun request service => do
  match ← service request with
  | .ok response => return .ok response
  | .error error => return .ok (errorResponse stackTrace error)

def unauthorized : Throwable := .illegalArgumentException "You don't know the secret"

def Authorize : SimpleFilter σ Throwable Request Response := fun request continue_ =>
  if request.headerMap "Authorization" = some "openSesame" then continue_ request
  else return .error unauthorized

def Respond : Service σ Throwable Request Response := fun _ =>
  return .ok ⟨Status.Ok, "hello world"⟩

def myService (respond : Service σ Throwable Request Response) :
    Service σ Throwable Request Response :=
  ((HandleExceptions stackTrace).andThen Authorize).andThenService respond

end HttpServer

namespace HttpClient
variable {σ : Type} (reason : Status → String)

def HandleErrors : SimpleFilter σ Throwable Request Response := fun request service => do
  match ← service request with
  | .ok response =>
    if response.status = Status.Ok then return .ok response
    else if response.status = Status.Forbidden then return .error .invalidRequest
    else return .error (.exception (reason response.status))
  | .error error => return .error error

def client (clientWithoutErrorHandling : Service σ Throwable Request Response) :
    Service σ Throwable Request Response :=
  (HandleErrors reason).andThenService clientWithoutErrorHandling

end HttpClient

/-! ## Both sides -/

section Mediation
variable {σ : Type} (stackTrace : Throwable → String) (reason : Status → String)

/-- The request carries the secret. -/
def Authorized (request : Request) : Prop :=
  request.headerMap "Authorization" = some "openSesame"

instance (request : Request) : Decidable (Authorized request) := inferInstanceAs (Decidable (_ = _))

/-- The response of the server to an authorised request. -/
def handled : Except Throwable Response → Except Throwable Response
  | .ok response => .ok response
  | .error error => .ok (HttpServer.errorResponse stackTrace error)

def forbidden : Except Throwable Response :=
  .ok (HttpServer.errorResponse stackTrace HttpServer.unauthorized)

/-- What the client makes of a response. -/
def checked : Except Throwable Response → Except Throwable Response
  | .ok response =>
    if response.status = Status.Ok then .ok response
    else if response.status = Status.Forbidden then .error .invalidRequest
    else .error (.exception (reason response.status))
  | .error error => .error error

/-- What the client sees of the service on an authorised request. -/
def seen : Except Throwable Response → Except Throwable Response
  | .ok response => checked reason (.ok response)
  | .error (.illegalArgumentException _) => .error .invalidRequest
  | .error _ => .error (.exception (reason Status.InternalServerError))

variable (respond : Service σ Throwable Request Response)

theorem handleExceptions_eq (request : Request) (service : Service σ Throwable Request Response) :
    HttpServer.HandleExceptions stackTrace request service
      = handled stackTrace <$> service request := by
  rw [HttpServer.HandleExceptions, map_eq_pure_bind]
  congr 1
  funext answer
  cases answer <;> rfl

theorem handleErrors_eq (request : Request) (service : Service σ Throwable Request Response) :
    HttpClient.HandleErrors reason request service = checked reason <$> service request := by
  rw [HttpClient.HandleErrors, map_eq_pure_bind]
  congr 1
  funext answer
  cases answer with
  | error error => rfl
  | ok response =>
    simp only [checked]
    split_ifs <;> rfl

theorem myService_guards :
    Guards Authorized (handled stackTrace) (forbidden stackTrace)
      (HttpServer.myService stackTrace respond) respond where
  passed request hp := by
    have hauthorize : HttpServer.Authorize request respond = respond request := if_pos hp
    change HttpServer.HandleExceptions stackTrace request _ = _
    rw [handleExceptions_eq, SimpleFilter.andThenService, hauthorize]
  refused request hp := by
    have hauthorize : HttpServer.Authorize request respond
        = (return .error HttpServer.unauthorized) := if_neg hp
    change HttpServer.HandleExceptions stackTrace request _ = _
    rw [handleExceptions_eq, SimpleFilter.andThenService, hauthorize]
    rfl

theorem checked_handled (answer : Except Throwable Response) :
    checked reason (handled stackTrace answer) = seen reason answer := by
  rcases answer with error | response
  · cases error <;> rfl
  · rfl

theorem client_guards :
    Guards Authorized (seen reason) (.error .invalidRequest)
      (HttpClient.client reason (HttpServer.myService stackTrace respond)) respond := by
  have h := (myService_guards stackTrace respond).translate fun request =>
    handleErrors_eq reason request (HttpServer.myService stackTrace respond)
  simp only [checked_handled] at h
  exact h

/-- Whatever the service does and whoever asks: the service is served the authorised requests, in
their order, and nothing else, so that the others leave no trace; the server answers every request
with a response. A client sees an unauthorised request as an invalid one, and an authorised one too
when the service answers that it is forbidden or finds an argument illegal. -/
theorem only_authorised_requests_served (requests : List Request) (s : σ) :
    serve (HttpServer.myService stackTrace respond) requests s
        = (weave Authorized (handled stackTrace) (forbidden stackTrace) requests
            (serve respond (requests.filter Authorized) s).1,
          (serve respond (requests.filter Authorized) s).2) ∧
      serve (HttpClient.client reason (HttpServer.myService stackTrace respond)) requests s
        = (weave Authorized (seen reason) (.error .invalidRequest) requests
            (serve respond (requests.filter Authorized) s).1,
          (serve respond (requests.filter Authorized) s).2) ∧
      ((∀ request s, seen reason (respond request s).1 ≠ .error .invalidRequest) →
        ∀ (i : ℕ) (request : Request), requests[i]? = some request →
          ((serve (HttpClient.client reason (HttpServer.myService stackTrace respond)) requests
              s).1[i]? = some (.error .invalidRequest) ↔ ¬ Authorized request)) :=
  ⟨(myService_guards stackTrace respond).serve_eq requests s,
    (client_guards stackTrace reason respond).serve_eq requests s,
    fun hseen i request hi =>
      (client_guards stackTrace reason respond).refusal_iff hseen requests s i request hi⟩

end Mediation

/-- `Respond` never answers that a request is forbidden. -/
theorem only_authorised_requests_served_respond :
    (serve (HttpClient.client (fun _ => "") (HttpServer.myService (fun _ => "") HttpServer.Respond))
      [⟨"/", fun _ => some "openSesame"⟩, ⟨"/", fun _ => none⟩] ()).1[1]?
        = some (.error .invalidRequest) :=
  ((only_authorised_requests_served (fun _ => "") (fun _ => "") HttpServer.Respond
    [⟨"/", fun _ => some "openSesame"⟩, ⟨"/", fun _ => none⟩] ()).2.2
    (fun _ _ h => by cases h) 1 _ rfl).mpr (by simp [Authorized])

end SbtExample.Finagle.Http
