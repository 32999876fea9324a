import DumpLedger.Domain.RichReport
import DumpLedger.Lib.Run

/-!
# Operator sessions

A login answers a token, which the browser sends back as a cookie, and a CSRF token. What is kept
of the token is its digest; a session is over when its time is, when it was logged out, or when
another login took its digest.

The password check, SHA-256 and the random texts are answers of the host.
-/

namespace DumpLedger

open Lib

structure StoredSession where
  csrfDigest : Sha256
  csrfToken : String
  expiresAt : Int
  deriving DecidableEq

structure OperatorSession where
  id : Sha256
  csrfToken : String
  expiresAt : Int
  deriving DecidableEq

structure LoginResult where
  setCookie : String
  csrfToken : String

structure OperatorSessions where
  /-- `verifyOperatorPassword`, against the configured hash. -/
  verifyPassword : String → Bool
  /-- The digest of the UTF-8 bytes of a text. -/
  digest : String → Sha256
  secureCookies : Bool
  ttlMs : Int

/-- A call, with the clock and the random texts that it draws. -/
inductive SessionRequest
  | login (password token csrfToken : String) (now : Int)
  | authenticate (cookieHeader : Option Units) (now : Int)
  | logout (session : OperatorSession) (now : Int)
  deriving DecidableEq

def SessionRequest.now : SessionRequest → Int
  | .login _ _ _ now => now
  | .authenticate _ now => now
  | .logout _ now => now

/-- The entries of the map `#sessions`. -/
abbrev StoredSessions := Sha256 → Option StoredSession

namespace OperatorSessions

def cookieName : String := "dump_ledger_session"

/-- `/^[A-Za-z0-9_-]{16,}$/`. -/
def isSessionToken (value : Units) : Bool :=
  decide (16 ≤ value.length) &&
  value.all fun u => decide (u.toNat < 128) &&
    ((Char.ofNat u.toNat).isAlphanum || u == unitOf '_' || u == unitOf '-')

/-- The first part with the name decides. -/
def valueOfPart (name : Units) : List Units → Option Units
  | [] => none
  | part :: rest =>
    if unitOf '=' ∉ part then valueOfPart name rest
    else if RichReport.trim (part.takeWhile (· ≠ unitOf '=')) = name then
      let value := RichReport.trim ((part.dropWhile (· ≠ unitOf '=')).drop 1)
      if isSessionToken value = true then some value else none
    else valueOfPart name rest

/-- `cookieValue`. -/
def cookieValue (cookieHeader : Option Units) (name : String) : Option String :=
  match cookieHeader with
  | none => none
  | some header => (valueOfPart (utf16 name) (header.splitOn (unitOf ';'))).map toText

variable (s : OperatorSessions)

def secureSuffix : String := if s.secureCookies = true then "; Secure" else ""

/-- `login`. -/
def login (stored : StoredSessions) (password token csrfToken : String) (now : Int) :
    Option LoginResult × StoredSessions :=
  if s.verifyPassword password = true then
    (some
      { csrfToken
        setCookie := s!"{cookieName}={token}; Path=/; Max-Age={s.ttlMs / 1000}; HttpOnly; " ++
          s!"SameSite=Strict{s.secureSuffix}" },
      Function.update stored (s.digest token)
        (some { csrfDigest := s.digest csrfToken, csrfToken, expiresAt := now + s.ttlMs }))
  else (none, stored)

/-- `authenticate`: a session that is over is dropped. -/
def authenticate (stored : StoredSessions) (cookieHeader : Option Units) (now : Int) :
    Option OperatorSession × StoredSessions :=
  match cookieValue cookieHeader cookieName with
  | none => (none, stored)
  | some token =>
    let id := s.digest token
    match stored id with
    | none => (none, stored)
    | some session =>
      if session.expiresAt ≤ now then (none, Function.update stored id none)
      else (some { id, csrfToken := session.csrfToken, expiresAt := session.expiresAt }, stored)

/-- `verifyCsrf`. -/
def verifyCsrf (stored : StoredSessions) (session : OperatorSession) (presented : Option String) :
    Bool :=
  match presented with
  | none => false
  | some presented =>
    match stored session.id with
    | none => false
    | some found => decide (found.csrfDigest = s.digest presented)

/-- `logout`. -/
def logout (stored : StoredSessions) (session : OperatorSession) : String × StoredSessions :=
  (s!"{cookieName}=; Path=/; Max-Age=0; HttpOnly; SameSite=Strict{s.secureSuffix}",
    Function.update stored session.id none)

def step (stored : StoredSessions) : SessionRequest → StoredSessions
  | .login password token csrfToken now => (s.login stored password token csrfToken now).2
  | .authenticate cookieHeader now => (s.authenticate stored cookieHeader now).2
  | .logout session _ => (s.logout stored session).2

/-- The map after calls on one that was empty. -/
def after (requests : List SessionRequest) : StoredSessions :=
  run s.step (fun _ => none) requests

end OperatorSessions

end DumpLedger
