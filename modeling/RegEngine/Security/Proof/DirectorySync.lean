import RegEngine.Security.DirectorySync

/-!
# A removal that a directory confirms

What a sync leaves in the cache is told by the answers for each subject alone (`overrides_of_sync`). A
subject for whom no role is found gets the empty text, which `authenticate_token` refuses. But an empty
list of Okta is as no answer, and goes on to Azure AD.
-/

namespace RegEngine.Security

open Lib

variable {settings : DirectorySettings} {d : Directories} {sessions : List (String × Option String)}
  {moment : String → Int} {subject : String}

/-- A lookup succeeded, and none gave a group that maps to a role. -/
structure Removed (settings : DirectorySettings) (d : Directories) (subject : String) : Prop where
  succeeded : d.fetchOktaUserGroups subject ≠ none ∨ d.fetchAzureAdUserGroups subject ≠ none
  okta : ∀ groups ∈ d.fetchOktaUserGroups subject,
    resolveRolesFromGroups groups settings.ssoDirectoryGroupRoleMap = []
  azureAd : ∀ groups ∈ d.fetchAzureAdUserGroups subject,
    resolveRolesFromGroups groups settings.ssoDirectoryGroupRoleMap = []

/-- The end of an override of the subject. -/
def expiry (settings : DirectorySettings) (moment : String → Int) (subject : String) : Int :=
  moment subject + settings.directorySyncPollIntervalSeconds * 3 * 1000000

/-- A removal is enforced, from any cache: no human's token of the subject is accepted until the override
expires. Without an answer the override stays what it was. -/
structure Revokes (settings : DirectorySettings) (d : Directories) (sessions : List (String × Option String))
    (moment : String → Int) (subject : String) : Prop where
  revoked : Removed settings d subject → ∀ before after,
    syncActiveSessions settings d sessions moment before = some after →
    ∀ decode token payload now, decode token = some payload → payload.sub = subject →
      payload.tenantId = none → moment subject ≤ now → now < expiry settings moment subject →
      authenticateToken settings decode (fun key => some (after.overrides.get now key)) token = none
  unwritten : d.fetchOktaUserGroups subject = none → d.fetchAzureAdUserGroups subject = none →
    ∀ before after, syncActiveSessions settings d sessions moment before = some after →
      after.overrides (settings.overrideKey subject) = before (settings.overrideKey subject)

/-! ## A sync -/

theorem overrideKey_inj {subject' : String} :
    settings.overrideKey subject = settings.overrideKey subject' ↔ subject = subject' := by
  unfold DirectorySettings.overrideKey
  rw [String.append_right_inj]

/-- What a subject's turn leaves. -/
theorem overrides_of_syncSubject {now : Int} {s s' : SyncState} (h : syncSubject settings d now s subject = some s')
    (key : String) :
    s'.overrides key = if key = settings.overrideKey subject then
      match overrideText settings d subject with
      | none => s.overrides key
      | some values =>
        some ⟨",".intercalate values, now + settings.directorySyncPollIntervalSeconds * 3 * 1000000⟩
      else s.overrides key := by
  unfold syncSubject at h
  cases htext : overrideText settings d subject with
  | none =>
    simp only [htext, Option.some.injEq] at h
    rw [h]
    split <;> rfl
  | some values =>
    simp only [htext] at h
    obtain ⟨overrides, hset, rfl⟩ := Option.map_eq_some_iff.1 h
    unfold Overrides.setEx at hset
    split at hset
    · cases hset
    · cases hset
      simp only [Function.update_apply]

/-- What the turns of some subjects leave for a subject. -/
theorem overrides_of_foldlM {subjects : List String} (hnodup : subjects.Nodup) {s s' : SyncState}
    (h : subjects.foldlM (fun s subject => syncSubject settings d (moment subject) s subject) s = some s') :
    s'.overrides (settings.overrideKey subject) =
      if subject ∈ subjects then
        match overrideText settings d subject with
        | none => s.overrides (settings.overrideKey subject)
        | some values => some ⟨",".intercalate values, expiry settings moment subject⟩
      else s.overrides (settings.overrideKey subject) := by
  induction subjects generalizing s with
  | nil =>
    cases h
    rw [if_neg List.not_mem_nil]
  | cons first subjects ih =>
    rw [List.foldlM_cons] at h
    obtain ⟨t, hfirst, h⟩ := Option.bind_eq_some_iff.1 h
    obtain ⟨hnotMem, hnodup⟩ := List.nodup_cons.1 hnodup
    have ht := overrides_of_syncSubject hfirst (settings.overrideKey subject)
    simp only [overrideKey_inj] at ht
    rw [ih hnodup h, ht]
    by_cases hsubject : subject = first
    · subst hsubject
      rw [if_neg hnotMem, if_pos rfl, if_pos List.mem_cons_self]
      rfl
    · simp only [List.mem_cons, hsubject, false_or, if_false]

/-- **A sync writes for a subject what the answers for it say**, whatever the cache held. -/
theorem overrides_of_sync {before : Overrides} {after : SyncState}
    (hactive : subject ∈ activeSessionSubjects sessions)
    (h : syncActiveSessions settings d sessions moment before = some after) :
    after.overrides (settings.overrideKey subject) =
      match overrideText settings d subject with
      | none => before (settings.overrideKey subject)
      | some values => some ⟨",".intercalate values, expiry settings moment subject⟩ := by
  have hnodup : (activeSessionSubjects sessions).Nodup := by
    have h := nodup_firstHits id [] ((sessions.filterMap (·.2)).filter fun subject => subject ≠ "")
    rwa [List.map_id] at h
  rw [overrides_of_foldlM hnodup h, if_pos hactive]

/-- With a positive interval nothing raises. -/
theorem exists_sync (hinterval : 0 < settings.directorySyncPollIntervalSeconds) (before : Overrides) :
    ∃ after, syncActiveSessions settings d sessions moment before = some after := by
  unfold syncActiveSessions
  generalize activeSessionSubjects sessions = subjects
  generalize (⟨before, []⟩ : SyncState) = s
  induction subjects generalizing s with
  | nil => exact ⟨s, rfl⟩
  | cons first subjects ih =>
    have hfirst : ∃ t, syncSubject settings d (moment first) s first = some t := by
      unfold syncSubject
      cases overrideText settings d first with
      | none => exact ⟨s, rfl⟩
      | some values =>
        have hpositive : ¬ settings.directorySyncPollIntervalSeconds * 3 ≤ 0 := by omega
        simp only [Overrides.setEx, if_neg hpositive]
        exact ⟨_, rfl⟩
    obtain ⟨t, ht⟩ := hfirst
    obtain ⟨after, hafter⟩ := ih t
    exact ⟨after, by rw [List.foldlM_cons, ht]; exact hafter⟩

/-! ## What the answers say -/

theorem groups_eq_none_iff :
    d.groups subject = none ↔
      d.fetchAzureAdUserGroups subject = none ∧
        (d.fetchOktaUserGroups subject = none ∨ d.fetchOktaUserGroups subject = some []) := by
  unfold Directories.groups
  cases d.fetchOktaUserGroups subject with
  | none => simp
  | some groups => cases groups with
    | nil => simp
    | cons group groups => simp

/-- The groups of a subject are those of a lookup. -/
theorem fetch_of_groups {groups : List String} (h : d.groups subject = some groups) :
    d.fetchOktaUserGroups subject = some groups ∨ d.fetchAzureAdUserGroups subject = some groups := by
  unfold Directories.groups at h
  split at h
  · rename_i hokta
    cases h
    exact .inl hokta
  · exact .inr h
  · exact .inr h

/-- A subject without an answer of Azure AD, which Okta finds in no group, is passed over; any other subject
who was removed gets the override of no role. -/
theorem overrideText_of_removed (h : Removed settings d subject) :
    overrideText settings d subject =
      if d.fetchOktaUserGroups subject = some [] ∧ d.fetchAzureAdUserGroups subject = none then none
      else some [] := by
  unfold overrideText
  cases hgroups : d.groups subject with
  | none =>
    obtain ⟨hazure, hokta⟩ := groups_eq_none_iff.1 hgroups
    have hsome : d.fetchOktaUserGroups subject ≠ none := h.succeeded.resolve_right fun hne => hne hazure
    rw [if_pos ⟨hokta.resolve_left hsome, hazure⟩]
    rfl
  | some groups =>
    have hroles : resolveRolesFromGroups groups settings.ssoDirectoryGroupRoleMap = [] :=
      (fetch_of_groups hgroups).elim (h.okta groups) (h.azureAd groups)
    rw [Option.map_some, hroles, if_neg]
    · rfl
    · intro ⟨hokta, hazure⟩
      rw [groups_eq_none_iff.2 ⟨hazure, .inr hokta⟩] at hgroups
      cases hgroups

theorem removed_of_nil (hokta : d.fetchOktaUserGroups subject = some [])
    (hazure : d.fetchAzureAdUserGroups subject = none) : Removed settings d subject where
  succeeded := .inl (by rw [hokta]; exact Option.some_ne_none _)
  okta groups hgroups := by
    rw [hokta] at hgroups
    cases hgroups
    simp [resolveRolesFromGroups]
  azureAd groups hgroups := by
    rw [hazure] at hgroups
    cases hgroups

/-! ## A token -/

/-- The override of no role refuses every human's token. -/
theorem authenticateToken_of_empty {decode : String → Option TokenPayload} {token : String}
    {payload : TokenPayload} (hdecode : decode token = some payload) (htenant : payload.tenantId = none)
    {get : String → Option (Option String)} (hget : get (settings.overrideKey payload.sub) = some (some "")) :
    authenticateToken settings decode get token = none := by
  have hoverride : directorySyncOverride settings get payload.sub = some [] := by
    unfold directorySyncOverride
    rw [hget]
    rfl
  unfold authenticateToken
  split
  · rfl
  · rw [hdecode, Option.bind_some, if_pos htenant, hoverride]

/-- A token of a compliance officer. -/
def officerToken (subject : String) : TokenPayload where
  sub := subject
  roles := [.complianceOfficer]
  tenantId := none
  jti := "jti-1"
  min_length := List.cons_ne_nil _ _

/-- Without an override it is accepted. -/
theorem authenticateToken_officerToken {get : String → Option (Option String)}
    (hget : get (settings.overrideKey subject) = some none) :
    authenticateToken settings (fun _ => some (officerToken subject)) get "token" =
      some ((officerToken subject).principal [.complianceOfficer]) := by
  have htenant : (officerToken subject).tenantId = none := rfl
  have hoverride : directorySyncOverride settings get (officerToken subject).sub = none := by
    unfold directorySyncOverride
    rw [show get (settings.overrideKey (officerToken subject).sub) = some none from hget]
  unfold authenticateToken
  rw [if_neg (by decide), Option.bind_some, if_pos htenant, hoverride]
  rfl

/-- **A removal is enforced** unless Okta finds the subject in no group and Azure AD gives no answer. -/
theorem revokes_iff (settings : DirectorySettings) (d : Directories)
    (sessions : List (String × Option String)) (moment : String → Int) (subject : String)
    (hactive : subject ∈ activeSessionSubjects sessions) :
    Revokes settings d sessions moment subject ↔
      settings.directorySyncPollIntervalSeconds ≤ 0 ∨
        ¬ (d.fetchOktaUserGroups subject = some [] ∧ d.fetchAzureAdUserGroups subject = none) := by
  constructor
  · intro h
    by_cases hinterval : settings.directorySyncPollIntervalSeconds ≤ 0
    · exact .inl hinterval
    · refine .inr fun ⟨hokta, hazure⟩ => ?_
      have hremoved : Removed settings d subject := removed_of_nil hokta hazure
      have hsync : ∃ after, syncActiveSessions settings d sessions moment (fun _ => none) = some after :=
        exists_sync (Int.not_le.1 hinterval) _
      obtain ⟨after, hafter⟩ := hsync
      have hoverride := overrides_of_sync hactive hafter
      rw [overrideText_of_removed hremoved, if_pos ⟨hokta, hazure⟩] at hoverride
      have hget : after.overrides.get (moment subject) (settings.overrideKey subject) = none := by
        rw [Overrides.get, hoverride]
        rfl
      have hnone := h.revoked hremoved _ after hafter (fun _ => some (officerToken subject)) "token"
        (officerToken subject) (moment subject) rfl rfl rfl le_rfl (by unfold expiry; omega)
      rw [authenticateToken_officerToken (by rw [hget])] at hnone
      cases hnone
  · intro h
    refine ⟨fun hremoved before after hafter decode token payload now hdecode hsub htenant hfrom hto => ?_,
      fun hokta hazure before after hafter => ?_⟩
    · have hinterval : ¬ settings.directorySyncPollIntervalSeconds ≤ 0 := by
        unfold expiry at hto
        omega
      have hoverride := overrides_of_sync hactive hafter
      rw [overrideText_of_removed hremoved, if_neg (h.resolve_left hinterval)] at hoverride
      refine authenticateToken_of_empty hdecode htenant ?_
      rw [hsub, Overrides.get, hoverride, Option.filter_some, if_pos (by simpa using hto.le)]
      rfl
    · rw [overrides_of_sync hactive hafter, overrideText, groups_eq_none_iff.2 ⟨hazure, .inl hokta⟩]
      rfl

/-! ## No group at Okta, and no Azure AD -/

/-- The mapping of the default settings. -/
def defaultSettings : DirectorySettings where
  ssoDirectoryGroupRoleMap group :=
    if group = "SEBI_Compliance_Team" then some "Compliance_Officer"
    else if group = "IT_Audit_Group" then some "System_Admin"
    else none

/-- Okta finds nobody in a group; Azure AD is not configured. -/
def oktaOnly : Directories := ⟨fun _ => some [], fun _ => none⟩

def officerSession : List (String × Option String) := [("regengine:session:jti-1", some "officer@example.in")]

theorem revokes_oktaOnly :
    Revokes defaultSettings oktaOnly officerSession (fun _ => 0) "officer@example.in" ↔
      defaultSettings.directorySyncPollIntervalSeconds ≤ 0 ∨
        ¬ (oktaOnly.fetchOktaUserGroups "officer@example.in" = some [] ∧
          oktaOnly.fetchAzureAdUserGroups "officer@example.in" = none) :=
  revokes_iff _ _ _ _ _ (by decide)

/-- The officer's token is still accepted after the sync. -/
theorem not_forall_revokes :
    ¬ ∀ (settings : DirectorySettings) (d : Directories) (sessions : List (String × Option String))
      (moment : String → Int) (subject : String), subject ∈ activeSessionSubjects sessions →
      Revokes settings d sessions moment subject := by
  intro h
  have hrevokes := h defaultSettings oktaOnly officerSession (fun _ => 0) "officer@example.in" (by decide)
  have hnone := hrevokes.revoked (removed_of_nil rfl rfl) (fun _ => none) ⟨fun _ => none, []⟩ rfl
    (fun _ => some (officerToken "officer@example.in")) "token" (officerToken "officer@example.in") 0 rfl rfl rfl
    le_rfl (by decide)
  rw [authenticateToken_officerToken rfl] at hnone
  cases hnone

end RegEngine.Security
