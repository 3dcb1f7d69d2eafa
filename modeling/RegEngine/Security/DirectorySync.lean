import RegEngine.Lib.Python
import RegEngine.Lib.Query
import RegEngine.Security.SessionManager

/-!
# Directory sync

`app/security/directory_sync.py`, `sync_active_sessions` of `app/security/directory_sync_job.py`, and
`authenticate_token` of `app/security/auth.py`. The lookups of the two directories, and the decoding of
tokens, are parameters. Moments are microseconds. The log is left out.
-/

namespace RegEngine.Security

open Lib

inductive Role where
  | complianceOfficer
  | brokerApiClient
  | systemAdmin
  deriving DecidableEq, Repr

namespace Role

def value : Role → String
  | complianceOfficer => "Compliance_Officer"
  | brokerApiClient => "Broker_API_Client"
  | systemAdmin => "System_Admin"

/-- The roles in the order of their values. -/
def sorted : List Role := [brokerApiClient, complianceOfficer, systemAdmin]

/-- `Role(v)`, none for a `ValueError`. -/
def ofValue (v : String) : Option Role := sorted.find? fun r => r.value = v

end Role

/-- `resolve_roles_from_groups`. A role that is none is logged and left out. -/
def resolveRolesFromGroups (groups : List String) (groupRoleMap : String → Option String) : List Role :=
  let resolved := groups.filterMap fun group => (groupRoleMap group).bind Role.ofValue
  Role.sorted.filter fun r => r ∈ resolved

structure DirectorySettings where
  ssoDirectoryGroupRoleMap : String → Option String
  directorySyncOverrideKeyPrefix : String := "regengine:directory_sync_override"
  directorySyncPollIntervalSeconds : Int := 900

def DirectorySettings.overrideKey (settings : DirectorySettings) (subject : String) : String :=
  settings.directorySyncOverrideKeyPrefix ++ ":" ++ subject

/-! ## The cache of overrides -/

/-- A text with the end of its time to live. -/
structure CachedText where
  text : String
  expiresAt : Int

abbrev Overrides : Type := String → Option CachedText

namespace Overrides

def get (s : Overrides) (now : Int) (key : String) : Option String :=
  ((s key).filter fun x => now ≤ x.expiresAt).map (·.text)

/-- `SET` with `EX`; Redis refuses a time that is not positive. -/
def setEx (s : Overrides) (now : Int) (key text : String) (seconds : Int) : Option Overrides :=
  if seconds ≤ 0 then none else some (Function.update s key (some ⟨text, now + seconds * 1000000⟩))

end Overrides

/-! ## `sync_active_sessions` -/

/-- `_active_session_subjects`: of the keys of sessions with their `subject`, the subjects in the order in
which they first occur. The job does not read the token ids. -/
def activeSessionSubjects (sessions : List (String × Option String)) : List String :=
  let subjects := (sessions.filterMap (·.2)).filter fun subject => subject ≠ ""
  firstHits id [] subjects

/-- The two lookups: none on a failure or where the directory is not configured. -/
structure Directories where
  fetchOktaUserGroups : String → Option (List String)
  fetchAzureAdUserGroups : String → Option (List String)

/-- `a or b`, where an empty list is as none. -/
def Directories.groups (d : Directories) (subject : String) : Option (List String) :=
  match d.fetchOktaUserGroups subject with
  | some (group :: groups) => some (group :: groups)
  | some [] | none => d.fetchAzureAdUserGroups subject

section
variable (settings : DirectorySettings) (d : Directories)

/-- What is written for a subject, none where it is passed over. -/
def overrideText (subject : String) : Option (List String) :=
  (d.groups subject).map fun groups =>
    (resolveRolesFromGroups groups settings.ssoDirectoryGroupRoleMap).map Role.value

/-- The cache, with what was written for which subject. -/
structure SyncState where
  overrides : Overrides
  written : List (String × List String) := []

/-- One subject, at this moment. -/
def syncSubject (now : Int) (s : SyncState) (subject : String) : Option SyncState :=
  match overrideText settings d subject with
  | none => some s
  | some values =>
    (s.overrides.setEx now (settings.overrideKey subject) (",".intercalate values)
      (settings.directorySyncPollIntervalSeconds * 3)).map fun overrides =>
        ⟨overrides, s.written ++ [(subject, values)]⟩

/-- `sync_active_sessions`, which comes to each subject at a moment of its own; none where Redis raises. -/
def syncActiveSessions (sessions : List (String × Option String)) (moment : String → Int)
    (overrides : Overrides) : Option SyncState :=
  (activeSessionSubjects sessions).foldlM (fun s subject => syncSubject settings d (moment subject) s subject)
    ⟨overrides, []⟩

end

/-! ## `authenticate_token` -/

/-- The claims of a token, as far as they are passed on. -/
structure TokenPayload where
  sub : String
  roles : List Role
  tenantId : Option String
  jti : String
  authTime : Option Int := none
  amr : List String := []
  min_length : roles ≠ []

structure AuthenticatedPrincipal extends Principal where
  roles : List Role
  authTime : Option Int
  amr : List String

/-- `_directory_sync_override`. `get` is none where the cache is not reached, or not in time. -/
def directorySyncOverride (settings : DirectorySettings) (get : String → Option (Option String))
    (subject : String) : Option (List Role) :=
  match get (settings.overrideKey subject) with
  | some (some raw) =>
    ((Python.split ',' raw).filter fun v => v ≠ "").mapM Role.ofValue
  | some none | none => none

def TokenPayload.principal (payload : TokenPayload) (roles : List Role) : AuthenticatedPrincipal where
  subject := payload.sub
  roles := roles
  tenantId := payload.tenantId
  tokenId := payload.jti
  authTime := payload.authTime
  amr := payload.amr

/-- `authenticate_token`. `decode` is none where `decode_access_token` raises. -/
def authenticateToken (settings : DirectorySettings) (decode : String → Option TokenPayload)
    (get : String → Option (Option String)) (token : String) : Option AuthenticatedPrincipal :=
  if token = "" then none
  else
    (decode token).bind fun payload =>
      if payload.tenantId = none then
        match directorySyncOverride settings get payload.sub with
        | some [] => none
        | some roles => some (payload.principal roles)
        | none => some (payload.principal payload.roles)
      else some (payload.principal payload.roles)

end RegEngine.Security
