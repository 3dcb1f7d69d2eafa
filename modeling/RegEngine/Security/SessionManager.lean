import RegEngine.Lib.Binary64
import Mathlib.Data.Rat.Floor

/-!
# Sessions of human principals

`app/security/session_manager.py`, and `SessionManagementMiddleware.dispatch` of
`app/security/middleware.py`. Moments are microseconds; a key of Redis is there until its time to live
has run out. Each call happens at one moment.
-/

namespace RegEngine.Security

open Lib

/-- What the sessions need of a `Principal`. -/
structure Principal where
  subject : String
  tenantId : Option String
  tokenId : String

/-- The settings, in seconds. -/
structure Settings where
  sessionIdleTimeoutSeconds : Nat
  sessionAbsoluteTimeoutSeconds : Nat

/-- The hash of a session, and when its time to live runs out. -/
structure Session where
  subject : String
  createdAt : Int
  lastActivityAt : Int
  expiresAt : Int

/-- The keys, by token id. -/
abbrev Sessions : Type := String → Option Session

inductive SessionExpiredError where
  | idleTimeout
  | absoluteTimeout
  deriving DecidableEq, Repr

def SessionExpiredError.reason : SessionExpiredError → String
  | idleTimeout => "idle_timeout"
  | absoluteTimeout => "absolute_timeout"

/-- `timedelta.total_seconds`. -/
def totalSeconds (microseconds : Int) : Rat := (Binary64.ofRat (microseconds / 1000000)).toRat

/-- `int` of a float. -/
def truncate (q : Rat) : Int := if 0 ≤ q then ⌊q⌋ else ⌈q⌉

namespace Sessions

/-- `HGETALL`, `none` for an empty reply. -/
def hgetall (s : Sessions) (tokenId : String) (now : Int) : Option Session :=
  (s tokenId).filter fun x => now ≤ x.expiresAt

def delete (s : Sessions) (tokenId : String) : Sessions := Function.update s tokenId none

/-- `HSET`, then `EXPIRE` in so many seconds; a time that is not positive deletes the key. -/
def hsetExpire (s : Sessions) (tokenId : String) (session : Session) (seconds now : Int) : Sessions :=
  if seconds ≤ 0 then s.delete tokenId
  else Function.update s tokenId (some { session with expiresAt := now + seconds * 1000000 })

end Sessions

/-- `touch_or_create`. -/
def touchOrCreate (settings : Settings) (principal : Principal) (now : Int) (s : Sessions) :
    Except SessionExpiredError Unit × Sessions :=
  let absolute := settings.sessionAbsoluteTimeoutSeconds
  match s.hgetall principal.tokenId now with
  | none =>
    let session : Session :=
      { subject := principal.subject, createdAt := now, lastActivityAt := now, expiresAt := now }
    (.ok (), s.hsetExpire principal.tokenId session absolute now)
  | some raw =>
    if absolute < totalSeconds (now - raw.createdAt) then
      (.error .absoluteTimeout, s.delete principal.tokenId)
    else if settings.sessionIdleTimeoutSeconds < totalSeconds (now - raw.lastActivityAt) then
      (.error .idleTimeout, s.delete principal.tokenId)
    else
      let remaining := absolute - truncate (totalSeconds (now - raw.createdAt))
      (.ok (), s.hsetExpire principal.tokenId { raw with lastActivityAt := now } (max 1 remaining) now)

def revoke (tokenId : String) (s : Sessions) : Sessions := s.delete tokenId

/-- A request goes on to the next handler, or is answered with 401. -/
inductive Response where
  | next
  | unauthorized (reason : String)
  deriving DecidableEq, Repr

/-- `SessionManagementMiddleware.dispatch`. -/
def dispatch (settings : Settings) (principal : Option Principal) (now : Int) (s : Sessions) :
    Response × Sessions :=
  match principal with
  | none => (.next, s)
  | some p =>
    if p.tenantId = none then
      match touchOrCreate settings p now s with
      | (.ok _, s') => (.next, s')
      | (.error e, s') => (.unauthorized e.reason, s')
    else (.next, s)

end RegEngine.Security
