import DumpLedger.Auth.Sessions

/-!
# Who is logged in

Beside the map of the sessions stands what was granted: each login grants its token, until the
token is granted again or is logged out, and the time of the grant does not pass. The map forgets
a session when it is looked at too late, which nobody can tell as long as the clock does not go
back.

* `Granted` — the login that a token is from
* `agrees_after` — the map has what was granted, and lacks at most what is over
* `verifyCsrf_iff` — which CSRF token a session takes
* `authenticate_iff` — a cookie is a session if and only if its token was granted and is not over
-/

namespace DumpLedger.OperatorSessions

open Lib

variable (s : OperatorSessions)

/-- What was granted, whether its time is over or not. -/
def grants (granted : StoredSessions) : SessionRequest → StoredSessions
  | .login password token csrfToken now =>
    if s.verifyPassword password = true then
      Function.update granted (s.digest token)
        (some { csrfDigest := s.digest csrfToken, csrfToken, expiresAt := now + s.ttlMs })
    else granted
  | .authenticate _ _ => granted
  | .logout session _ => Function.update granted session.id none

/-- A call takes nothing from the sessions of `id`. -/
def Keeps (id : Sha256) : SessionRequest → Prop
  | .login password token _ _ => s.verifyPassword password = true → s.digest token ≠ id
  | .authenticate _ _ => True
  | .logout session _ => session.id ≠ id

/-- The session `found` is of the last login whose token has this digest, and was not logged out. -/
def Granted (requests : List SessionRequest) (id : Sha256) (found : StoredSession) : Prop :=
  ∃ before password token csrfToken now later,
    requests = before ++ .login password token csrfToken now :: later ∧
      s.verifyPassword password = true ∧ s.digest token = id ∧
        found = ⟨s.digest csrfToken, csrfToken, now + s.ttlMs⟩ ∧ ∀ r ∈ later, s.Keeps id r

/-- The clock does not go back, and stands at `now` in the end. -/
def Clocked (requests : List SessionRequest) (now : Int) : Prop :=
  (requests.map SessionRequest.now ++ [now]).Pairwise (· ≤ ·)

variable {s}

theorem grants_of_keeps {granted : StoredSessions} {r : SessionRequest} {id : Sha256}
    (h : s.Keeps id r) : s.grants granted r id = granted id := by
  cases r with
  | login password token csrfToken now =>
    simp only [grants]
    split
    · next hpassword => exact Function.update_of_ne (Ne.symm (h hpassword)) ..
    · rfl
  | authenticate cookieHeader now => rfl
  | logout session now => exact Function.update_of_ne (Ne.symm h) ..

/-- A call that does not keep the sessions of `id` grants one, or takes it. -/
theorem grants_of_not_keeps {granted : StoredSessions} {r : SessionRequest} {id : Sha256}
    (h : ¬ s.Keeps id r) :
    (∃ password token csrfToken now, r = .login password token csrfToken now ∧
      s.verifyPassword password = true ∧ s.digest token = id ∧
        s.grants granted r id = some ⟨s.digest csrfToken, csrfToken, now + s.ttlMs⟩) ∨
      s.grants granted r id = none := by
  cases r with
  | login password token csrfToken now =>
    simp only [Keeps, Classical.not_imp, not_not] at h
    obtain ⟨hpassword, rfl⟩ := h
    refine Or.inl ⟨password, token, csrfToken, now, rfl, hpassword, rfl, ?_⟩
    simp only [grants, if_pos hpassword, Function.update_self]
  | authenticate cookieHeader now => exact absurd trivial h
  | logout session now =>
    simp only [Keeps, not_not] at h
    subst h
    exact Or.inr (Function.update_self ..)

/-- **What is granted after a run** is from the last login that took the digest. -/
theorem run_grants_iff {requests : List SessionRequest} {id : Sha256} {found : StoredSession} :
    run s.grants (fun _ => none) requests id = some found ↔ s.Granted requests id found := by
  induction requests using List.reverseRecOn with
  | nil =>
    simp only [run_nil]
    constructor
    · intro h
      cases h
    · rintro ⟨before, _, _, _, _, later, h, -⟩
      exact absurd h.symm (by simp)
  | append_singleton requests r ih =>
    rw [run_append, run_cons, run_nil]
    by_cases hkeeps : s.Keeps id r
    · rw [grants_of_keeps hkeeps, ih]
      constructor
      · rintro ⟨before, password, token, csrfToken, now, later, rfl, hlogin, hid, hfound, hlater⟩
        refine ⟨before, password, token, csrfToken, now, later ++ [r], by simp, hlogin, hid, hfound,
          ?_⟩
        intro r' hr'
        rcases List.mem_append.mp hr' with hr' | hr'
        · exact hlater r' hr'
        · rw [List.mem_singleton.mp hr']
          exact hkeeps
      · rintro ⟨before, password, token, csrfToken, now, later, heq, hlogin, hid, hfound, hlater⟩
        -- the login is not the last call, which keeps the sessions of its digest
        rcases List.eq_nil_or_concat later with rfl | ⟨rest, r', rfl⟩
        · obtain ⟨-, hr⟩ := List.append_inj' heq rfl
          cases List.singleton_inj.mp hr
          exact absurd hid (hkeeps hlogin)
        · rw [List.concat_eq_append, ← List.cons_append, ← List.append_assoc] at heq
          obtain ⟨rfl, -⟩ := List.append_inj' heq rfl
          exact ⟨before, password, token, csrfToken, now, rest, rfl, hlogin, hid, hfound,
            fun r'' hr'' => hlater r'' (by simp [hr''])⟩
    · constructor
      · intro h
        rcases grants_of_not_keeps hkeeps with
          ⟨password, token, csrfToken, now, rfl, hlogin, hid, hgrant⟩ | hnone
        · rw [hgrant] at h
          cases h
          exact ⟨requests, password, token, csrfToken, now, [], rfl, hlogin, hid, rfl, by simp⟩
        · rw [hnone] at h
          cases h
      · rintro ⟨before, password, token, csrfToken, now, later, heq, hlogin, hid, hfound, hlater⟩
        rcases List.eq_nil_or_concat later with rfl | ⟨rest, r', rfl⟩
        · obtain ⟨-, hr⟩ := List.append_inj' heq rfl
          cases List.singleton_inj.mp hr
          subst hid hfound
          simp only [grants, if_pos hlogin, Function.update_self]
        · rw [List.concat_eq_append, ← List.cons_append, ← List.append_assoc] at heq
          obtain ⟨-, hr⟩ := List.append_inj' heq rfl
          cases List.singleton_inj.mp hr
          exact absurd (hlater r (by simp)) hkeeps

/-- The map has what was granted, or lacks what is over. -/
def Agrees (granted stored : StoredSessions) (now : Int) : Prop :=
  ∀ id, stored id = granted id ∨ stored id = none ∧ ∀ found, granted id = some found →
    found.expiresAt ≤ now

theorem Agrees.later {granted stored : StoredSessions} {now later : Int}
    (h : Agrees granted stored now) (hle : now ≤ later) : Agrees granted stored later :=
  fun id => (h id).imp_right fun hover =>
    ⟨hover.1, fun found hfound => (hover.2 found hfound).trans hle⟩

/-- Both maps are changed at one digest alike. -/
theorem Agrees.update {granted stored : StoredSessions} {now : Int} (h : Agrees granted stored now)
    (id : Sha256) (value : Option StoredSession) :
    Agrees (Function.update granted id value) (Function.update stored id value) now := by
  intro id'
  by_cases hid : id' = id
  · subst hid
    simp only [Function.update_self, true_or]
  · simp only [Function.update_of_ne hid]
    exact h id'

/-- **The step**: the map and what was granted still agree. -/
theorem agrees_step {granted stored : StoredSessions} {r : SessionRequest}
    (h : Agrees granted stored r.now) : Agrees (s.grants granted r) (s.step stored r) r.now := by
  cases r with
  | login password token csrfToken now =>
    simp only [grants, step, login]
    split
    · exact h.update _ _
    · exact h
  | logout session now => exact h.update _ _
  | authenticate cookieHeader now =>
    simp only [grants, step, authenticate]
    split
    · exact h
    · next token htoken =>
      cases hstored : stored (s.digest token) with
      | none => exact h
      | some session =>
        by_cases hover : session.expiresAt ≤ now
        · simp only [if_pos hover]
          intro id
          by_cases hid : id = s.digest token
          · -- the session that is dropped is over
            subst hid
            refine Or.inr ⟨Function.update_self .., fun found hfound => ?_⟩
            rcases h (s.digest token) with heq | ⟨hnone, -⟩
            · rw [hstored, hfound] at heq
              cases heq
              exact hover
            · rw [hstored] at hnone
              cases hnone
          · rw [Function.update_of_ne hid]
            exact h id
        · simp only [if_neg hover]
          exact h

/-- **The map has what was granted**, and lacks at most what is over. -/
theorem agrees_after {requests : List SessionRequest} {now : Int} (h : Clocked requests now) :
    Agrees (run s.grants (fun _ => none) requests) (s.after requests) now := by
  induction requests using List.reverseRecOn generalizing now with
  | nil => exact fun id => Or.inl rfl
  | append_singleton requests r ih =>
    unfold Clocked at h
    rw [List.map_append, List.map_singleton, List.pairwise_append] at h
    obtain ⟨hbefore, -, hlast⟩ := h
    have hr : r.now ≤ now := hlast r.now (by simp) now (by simp)
    unfold after at ih ⊢
    rw [run_append, run_cons, run_nil, run_append, run_cons, run_nil]
    exact (agrees_step (ih hbefore)).later hr

/-- What is not over is in the map if and only if it was granted. -/
theorem Agrees.live_iff {granted stored : StoredSessions} {now : Int}
    (h : Agrees granted stored now) {id : Sha256} {found : StoredSession} :
    stored id = some found ∧ now < found.expiresAt ↔
      granted id = some found ∧ now < found.expiresAt := by
  rcases h id with heq | ⟨hnone, hover⟩
  · rw [heq]
  · constructor
    · rintro ⟨hstored, -⟩
      rw [hnone] at hstored
      cases hstored
    · rintro ⟨hgranted, hlive⟩
      exact absurd (hover found hgranted) (not_le.mpr hlive)

/-! ## Cookies -/

theorem authenticate_eq_some {stored : StoredSessions} {cookieHeader : Option Units} {now : Int}
    {session : OperatorSession} :
    (s.authenticate stored cookieHeader now).1 = some session ↔
      ∃ token found, cookieValue cookieHeader cookieName = some token ∧
        stored (s.digest token) = some found ∧ now < found.expiresAt ∧
          session = ⟨s.digest token, found.csrfToken, found.expiresAt⟩ := by
  unfold authenticate
  cases htoken : cookieValue cookieHeader cookieName with
  | none => simp
  | some token =>
    dsimp only
    cases hstored : stored (s.digest token) with
    | none =>
      constructor
      · intro h
        cases h
      · rintro ⟨token', found, htoken', hfound, -⟩
        cases htoken'
        rw [hstored] at hfound
        cases hfound
    | some found =>
      by_cases hover : found.expiresAt ≤ now
      · simp only [if_pos hover]
        constructor
        · intro h
          cases h
        · rintro ⟨token', found', htoken', hfound, hlive, -⟩
          cases htoken'
          rw [hstored] at hfound
          cases hfound
          exact absurd hover (not_le.mpr hlive)
      · simp only [if_neg hover]
        constructor
        · intro h
          cases h
          exact ⟨token, found, rfl, hstored, not_le.mp hover, rfl⟩
        · rintro ⟨token', found', htoken', hfound, -, rfl⟩
          cases htoken'
          rw [hstored] at hfound
          cases hfound
          rfl

/-- A cookie that is a session leaves the map as it is. -/
theorem authenticate_stored {stored : StoredSessions} {cookieHeader : Option Units} {now : Int}
    {session : OperatorSession} (h : (s.authenticate stored cookieHeader now).1 = some session) :
    (s.authenticate stored cookieHeader now).2 = stored := by
  obtain ⟨token, found, htoken, hfound, hlive, -⟩ := authenticate_eq_some.mp h
  simp only [authenticate, htoken, hfound, if_neg (not_le.mpr hlive)]

/-- **A cookie is a session** if and only if its token is from a login whose time is not over, whose
token no later login took, and whose session was not logged out. -/
theorem authenticate_iff (s : OperatorSessions) {requests : List SessionRequest} {now : Int}
    (h : Clocked requests now) (cookieHeader : Option Units) (session : OperatorSession) :
    (s.authenticate (s.after requests) cookieHeader now).1 = some session ↔
      ∃ token found, cookieValue cookieHeader cookieName = some token ∧
        s.Granted requests (s.digest token) found ∧ now < found.expiresAt ∧
          session = ⟨s.digest token, found.csrfToken, found.expiresAt⟩ := by
  rw [authenticate_eq_some]
  refine exists_congr fun token => exists_congr fun found => and_congr_right fun _ => ?_
  rw [← and_assoc, (agrees_after h).live_iff, run_grants_iff, and_assoc]

namespace Sample

def password : String := "correct horse battery staple"

def token : String := "AAECAwQFBgcICQoLDA0ODxAREhMUFRYXGBkaGxwdHh8"

def csrfToken : String := "ICEiIyQlJicoKSorLC0uLzAxMjM0NTY3ODk6Ozw9Pj8"

/-- The digests of the two random texts. -/
def digest (text : String) : Sha256 :=
  if text = token then
    ⟨"ea866a757e4c38babfa8127cbe9a409d3e1f93a00ff1488ff735fcf917afffd0", by decide⟩
  else ⟨"cf0931e168b49e987503caf18af6fe253b6b3d82a81008c3e8e1ee67c7c8dc55", by decide⟩

def sessions : OperatorSessions where
  verifyPassword presented := decide (presented = password)
  digest := digest
  secureCookies := true
  ttlMs := 28800000

def cookie : Units :=
  utf16 "theme=dark; dump_ledger_session=AAECAwQFBgcICQoLDA0ODxAREhMUFRYXGBkaGxwdHh8"

/-- A login, and a request without a cookie. -/
def requests : List SessionRequest :=
  [.login password token csrfToken 1700000000000, .authenticate none 1700000001000]

def session : OperatorSession := ⟨digest token, csrfToken, 1700028800000⟩

theorem clocked : Clocked requests 1700000002000 := by
  unfold Clocked
  decide

end Sample

theorem authenticate_sample :
    (Sample.sessions.authenticate (Sample.sessions.after Sample.requests) (some Sample.cookie)
      1700000002000).1 = some Sample.session := by
  refine (authenticate_iff Sample.sessions Sample.clocked (some Sample.cookie) Sample.session).mpr
    ⟨Sample.token, ⟨Sample.digest Sample.csrfToken, Sample.csrfToken, 1700028800000⟩,
      by decide +kernel, ?_, by decide, rfl⟩
  refine ⟨[], Sample.password, Sample.token, Sample.csrfToken, 1700000000000,
    [.authenticate none 1700000001000], rfl, rfl, rfl, rfl, ?_⟩
  intro r hr
  rw [List.mem_singleton.mp hr]
  trivial

end DumpLedger.OperatorSessions
