import Entitlement.Address
import Entitlement.Failure
import Entitlement.Text.Word
import Entitlement.User

/-!
# Settings

What the environment says about a site: where it stores, where it listens, which header names the
subject and which subjects pass every check. Settings are looked at in this order, and the first one
that is wrong decides the failure.
-/

namespace Entitlement

/-- Where a site stores. -/
inductive Backend where
  | memory
  | postgres (url : String)
deriving DecidableEq

structure Settings where
  backend : Backend
  host : String
  port : Nat
  /-- The header that names the subject, in lower case. -/
  subjectHeader : String
  overrides : Overrides
deriving DecidableEq

namespace Settings

/-- The header that names the subject unless the settings say otherwise. -/
def defaultSubjectHeader : String := "x-remote-user"

/-- The subjects of a list between commas, white space around them and blank ones aside. -/
def subjects (list : String) : SortedSet String :=
  .ofList (((Text.split ',' list).filter (! Text.allBlank ·)).map Text.trim)

/-- A setting that has to be there and not blank. -/
def required (environment : String → Option String) (name : String) : Except Failure String :=
  match environment name with
  | none => .error (.settingMissing name)
  | some value => if Text.allBlank value then .error (.settingBlank name) else .ok value

/-- Reads the settings off the environment. -/
def load (environment : String → Option String) : Except Failure Settings := do
  let backend ←
    match (environment "STORAGE_BACKEND").getD "postgres" with
    | "postgres" => do pure (Backend.postgres (← required environment "DATABASE_URL"))
    | "memory" => pure .memory
    | name => .error (.unknownBackend name)
  let header := (environment "AUTH_SUBJECT_HEADER").getD defaultSubjectHeader
  if Text.allBlank header then .error (.settingBlank "AUTH_SUBJECT_HEADER")
  return {
    backend
    host := (environment "API_HOST").getD "127.0.0.1"
    port := ((environment "API_PORT").bind (Text.unsigned? 65535)).getD 3001
    subjectHeader := Text.lower (Text.trim header)
    overrides := {
      superusers := subjects ((environment "SUPERUSER_SUBJECTS").getD "")
      staff := subjects ((environment "STAFF_SUBJECTS").getD "") } }

def listenAddress (settings : Settings) : Except Failure String :=
  match Address.ofText? settings.host with
  | some address => .ok (address.withPort settings.port)
  | none => .error (.badHost settings.host)

end Settings

end Entitlement
