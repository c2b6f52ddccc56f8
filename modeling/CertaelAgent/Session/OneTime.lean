import CertaelAgent.Session.Chaining

/-!
# Challenges of a session

A session remembers the last challenge it has answered and no other one. A challenge that comes
again is therefore answered again exactly when another challenge that can be answered has come in
between.
-/

namespace CertaelAgent.Session

open ProtoWire Protocol

section

variable [Crates]

/-- The call gets a report. -/
def Answered (visit : AgentSession × ReportCall) : Prop :=
  ∃ report, (visit.1.createReport visit.2).1 = .ok report

/-- The call gets a report unless the session remembers the challenge. -/
def Answerable (visit : AgentSession × ReportCall) : Prop :=
  visit.1.Admissible visit.2.challenge visit.2.nowUnix ∧
    ∃ sequence, visit.1.sequence.checkedAdd 1 = some sequence ∧
      ∃ report, signReport (visit.1.nextReport visit.2 sequence) visit.1.signingKey = .ok report

def Remembers (visit : AgentSession × ReportCall) : Prop :=
  visit.1.lastChallengeDigest = some (challengeDigest visit.2.challenge)

/-- No challenge of the run gets two reports. -/
def AnswersOnce (session : AgentSession) (calls : List ReportCall) : Prop :=
  (session.visits calls).Pairwise fun earlier later =>
    later.2.challenge = earlier.2.challenge → Answered earlier → ¬ Answered later

/-- Between two calls with one challenge there is none with another challenge, calls that cannot be
answered left aside. -/
def NoReturn (session : AgentSession) (calls : List ReportCall) : Prop :=
  ∀ before earlier mid later rest,
    session.visits calls = before ++ earlier :: (mid ++ later :: rest) →
    Answerable earlier → Answerable later → later.2.challenge = earlier.2.challenge →
      ∀ visit ∈ mid, Answerable visit → visit.2.challenge = earlier.2.challenge

/-- The session after the calls. -/
def AgentSession.after : AgentSession → List ReportCall → AgentSession
  | session, [] => session
  | session, call :: calls => after (session.createReport call).2 calls

variable {session : AgentSession} {visit : AgentSession × ReportCall} {calls : List ReportCall}

theorem answered_iff : Answered visit ↔ Answerable visit ∧ ¬ Remembers visit := by
  constructor
  · rintro ⟨report, hreport⟩
    have hcreated := createReport_ok hreport
    refine ⟨⟨hcreated.admissible, ?_⟩, hcreated.fresh⟩
    revert hreport
    unfold AgentSession.createReport
    rw [if_neg (not_not.mpr hcreated.admissible), if_neg hcreated.fresh]
    cases visit.1.sequence.checkedAdd 1 with
    | none => intro h; cases h
    | some sequence =>
      dsimp only
      cases hsign : signReport (visit.1.nextReport visit.2 sequence) visit.1.signingKey with
      | error e => intro h; cases h
      | ok signed => exact fun _ => ⟨sequence, rfl, signed, hsign⟩
  · rintro ⟨⟨hadmissible, sequence, hsequence, report, hsign⟩, hfresh⟩
    refine ⟨report, ?_⟩
    have hforgets : visit.1.lastChallengeDigest ≠ some (challengeDigest visit.2.challenge) := hfresh
    unfold AgentSession.createReport
    rw [if_neg (not_not.mpr hadmissible), if_neg hforgets]
    simp only [hsequence, hsign]

theorem last_of_answered (h : Answered visit) :
    (visit.1.createReport visit.2).2.lastChallengeDigest =
      some (challengeDigest visit.2.challenge) := by
  obtain ⟨report, hreport⟩ := h
  rw [(createReport_ok hreport).after_eq]

theorem last_of_not_answered (h : ¬ Answered visit) :
    (visit.1.createReport visit.2).2 = visit.1 := by
  cases hresult : (visit.1.createReport visit.2).1 with
  | error e => exact createReport_error hresult
  | ok report => exact absurd ⟨report, hresult⟩ h

theorem last_of_answerable (h : Answerable visit) :
    (visit.1.createReport visit.2).2.lastChallengeDigest =
      some (challengeDigest visit.2.challenge) := by
  by_cases hanswered : Answered visit
  · exact last_of_answered hanswered
  · rw [last_of_not_answered hanswered]
    by_contra hforgets
    exact hanswered (answered_iff.mpr ⟨h, hforgets⟩)

/-- What a session remembers was remembered before or has been answered since. -/
theorem last_after {digest : Digest} (h : (session.after calls).lastChallengeDigest = some digest) :
    session.lastChallengeDigest = some digest ∨
      ∃ visit ∈ session.visits calls, Answered visit ∧ challengeDigest visit.2.challenge = digest := by
  induction calls generalizing session with
  | nil => exact .inl h
  | cons call calls ih =>
    rcases ih h with hlast | ⟨visit, hmem, hvisit⟩
    · by_cases hanswered : Answered (session, call)
      · rw [last_of_answered hanswered] at hlast
        exact .inr ⟨(session, call), List.mem_cons_self, hanswered, Option.some.inj hlast⟩
      · rw [last_of_not_answered hanswered] at hlast
        exact .inl hlast
    · exact .inr ⟨visit, List.mem_cons_of_mem _ hmem, hvisit⟩

theorem last_kept {challenge : AgentReportChallengeV1}
    (hlast : session.lastChallengeDigest = some (challengeDigest challenge))
    (h : ∀ visit ∈ session.visits calls, Answered visit → visit.2.challenge = challenge) :
    (session.after calls).lastChallengeDigest = some (challengeDigest challenge) := by
  induction calls generalizing session with
  | nil => exact hlast
  | cons call calls ih =>
    apply ih
    · by_cases hanswered : Answered (session, call)
      · have hsame := h (session, call) List.mem_cons_self hanswered
        rw [last_of_answered hanswered, hsame]
      · rw [last_of_not_answered hanswered, hlast]
    · intro visit hmem
      exact h visit (List.mem_cons_of_mem _ hmem)

theorem visits_split {before rest : List (AgentSession × ReportCall)}
    (h : session.visits calls = before ++ visit :: rest) :
    ∃ calls₁ calls₂, calls = calls₁ ++ visit.2 :: calls₂ ∧ before = session.visits calls₁ ∧
      visit.1 = session.after calls₁ ∧ rest = (visit.1.createReport visit.2).2.visits calls₂ := by
  induction calls generalizing session before with
  | nil => simp [AgentSession.visits] at h
  | cons call calls ih =>
    rw [AgentSession.visits] at h
    cases before with
    | nil =>
      obtain ⟨rfl, rfl⟩ := List.cons.inj h
      exact ⟨[], calls, rfl, rfl, rfl, rfl⟩
    | cons head before =>
      obtain ⟨rfl, hbefore⟩ := List.cons.inj h
      obtain ⟨calls₁, calls₂, rfl, rfl, hvisit, hrest⟩ := ih hbefore
      exact ⟨call :: calls₁, calls₂, rfl, rfl, hvisit, hrest⟩

/-! ## Two reports for one challenge -/

theorem answersOnce_of_noReturn (h : NoReturn session calls) : AnswersOnce session calls := by
  induction calls generalizing session with
  | nil => exact List.Pairwise.nil
  | cons call calls ih =>
    apply List.pairwise_cons.mpr
    constructor
    · intro later hmem hsame hearlier hlater
      obtain ⟨mid, rest, hsplit⟩ := List.append_of_mem hmem
      obtain ⟨calls₁, calls₂, -, rfl, hsession, -⟩ := visits_split hsplit
      have hmid := h [] (session, call) _ later rest (congrArg (_ :: ·) hsplit)
        (answered_iff.mp hearlier).1 (answered_iff.mp hlater).1 hsame
      have hkept := last_kept (last_of_answered hearlier) fun visit hvisit hanswered =>
        hmid visit hvisit (answered_iff.mp hanswered).1
      apply (answered_iff.mp hlater).2
      rw [Remembers, hsession, hkept, hsame]
    · apply ih
      intro before earlier mid later rest hsplit
      exact h ((session, call) :: before) earlier mid later rest (congrArg (_ :: ·) hsplit)

/-- Where no two challenges of the run have one digest, a challenge that returns is answered
again. -/
theorem noReturn_of_answersOnce (hfirst : session.lastChallengeDigest = none)
    (hdigest : ∀ call ∈ calls, ∀ other ∈ calls,
      challengeDigest call.challenge = challengeDigest other.challenge →
        call.challenge = other.challenge)
    (h : AnswersOnce session calls) : NoReturn session calls := by
  intro before earlier mid later rest hsplit hearlier hlater hsame visit hmem hvisit
  by_contra hother
  have hcalls : ∀ {v}, v ∈ session.visits calls → v.2 ∈ calls := by
    intro v hv
    obtain ⟨xs, ys, hxs⟩ := List.append_of_mem hv
    obtain ⟨calls₁, calls₂, rfl, -⟩ := visits_split hxs
    simp
  have hdigest : ∀ v ∈ session.visits calls, ∀ w ∈ session.visits calls,
      challengeDigest v.2.challenge = challengeDigest w.2.challenge →
        v.2.challenge = w.2.challenge :=
    fun v hv w hw => hdigest v.2 (hcalls hv) w.2 (hcalls hw)
  obtain ⟨mid₁, mid₂, rfl⟩ := List.append_of_mem hmem
  -- The run up to the other challenge, and the run behind it.
  have hhalves : session.visits calls =
      (before ++ earlier :: (mid₁ ++ [visit])) ++ (mid₂ ++ later :: rest) := by
    simp [hsplit]
  unfold AnswersOnce at h
  rw [hhalves, List.pairwise_append] at h
  have hmemEarlier : earlier ∈ session.visits calls := by simp [hsplit]
  have hmemLater : later ∈ session.visits calls := by simp [hsplit]
  have hmemVisit : visit ∈ session.visits calls := by simp [hsplit]
  -- The challenge has been answered by then.
  obtain ⟨asked, hasked, haskedSame, haskedAnswered⟩ :
      ∃ asked ∈ before ++ earlier :: (mid₁ ++ [visit]),
        asked.2.challenge = earlier.2.challenge ∧ Answered asked := by
    by_cases hanswered : Answered earlier
    · exact ⟨earlier, by simp, rfl, hanswered⟩
    · have hremembers : Remembers earlier := by
        by_contra hforgets
        exact hanswered (answered_iff.mpr ⟨hearlier, hforgets⟩)
      obtain ⟨calls₁, calls₂, -, rfl, hsession, -⟩ := visits_split hsplit
      rw [Remembers, hsession] at hremembers
      rcases last_after hremembers with hlast | ⟨asked, hasked, hanswered, hsameDigest⟩
      · rw [hfirst] at hlast
        cases hlast
      · have hmemAsked : asked ∈ session.visits calls := by
          rw [hsplit]
          exact List.mem_append_left _ hasked
        exact ⟨asked, List.mem_append_left _ hasked,
          hdigest asked hmemAsked earlier hmemEarlier hsameDigest, hanswered⟩
  have hcross := fun v hv => h.2.2 asked hasked v hv
  -- Behind the other challenge it is answered once more.
  by_cases hanswered : Answered later
  · exact hcross later (by simp) (hsame.trans haskedSame.symm) haskedAnswered hanswered
  · have hremembers : Remembers later := by
      by_contra hforgets
      exact hanswered (answered_iff.mpr ⟨hlater, hforgets⟩)
    have hbehind : session.visits calls =
        (before ++ earlier :: mid₁) ++ visit :: (mid₂ ++ later :: rest) := by
      simp [hsplit]
    obtain ⟨calls₁, calls₂, -, -, -, hrest⟩ := visits_split hbehind
    obtain ⟨calls₃, calls₄, -, rfl, hsession, -⟩ := visits_split hrest.symm
    rw [Remembers, hsession] at hremembers
    rcases last_after hremembers with hlast | ⟨again, hagain, hagainAnswered, hsameDigest⟩
    · rw [last_of_answerable hvisit] at hlast
      exact hother ((hdigest visit hmemVisit later hmemLater (Option.some.inj hlast)).trans hsame)
    · have hmemAgain : again ∈ session.visits calls := by
        rw [hbehind]
        simp [hagain]
      have hagainSame := hdigest again hmemAgain later hmemLater hsameDigest
      exact hcross again (List.mem_append_left _ hagain)
        (hagainSame.trans (hsame.trans haskedSame.symm)) haskedAnswered hagainAnswered

/-- In a run of an activated session in which no challenge returns after another one, no challenge
gets two reports; and in a run in which one does return, some challenge gets two, unless two
challenges of the run have one digest. -/
theorem answersOnce_iff_noReturn {signingKey : SigningKey} {grant : AgentLaunchGrantClaimsV1}
    {policy : AgentPolicyClaimsV1} {signedPolicy : SignedAgentPolicyV1} {agentSessionId : String}
    (hactivated :
      AgentSession.activate signingKey grant policy signedPolicy agentSessionId = .ok session)
    (calls : List ReportCall) :
    (NoReturn session calls → AnswersOnce session calls) ∧
      ((∀ call ∈ calls, ∀ other ∈ calls,
        challengeDigest call.challenge = challengeDigest other.challenge →
          call.challenge = other.challenge) →
        AnswersOnce session calls → NoReturn session calls) := by
  obtain ⟨-, -, -, -, hlast⟩ := activate_ok hactivated
  exact ⟨answersOnce_of_noReturn, noReturn_of_answersOnce hlast⟩

end

open SampleSession in
/-- A challenge, the same one at once again, and another one: the repetition is refused. -/
theorem answersOnce_iff_noReturn_sample :
    AnswersOnce session [callAt 9 1700000001, callAt 9 1700000002, callAt 8 1700000002] ∧
      session.accepted [callAt 9 1700000001, callAt 9 1700000002, callAt 8 1700000002] =
        [(callAt 9 1700000001, first), (callAt 8 1700000002, second)] := by
  constructor
  · apply (answersOnce_iff_noReturn activate_session _).1
    intro before earlier mid later rest hsplit _ _ _ visit hvisit _
    cases before with
    | cons asked before =>
      -- too late for a call in between
      have hlen := congrArg List.length hsplit
      simp only [AgentSession.visits, List.cons_append, List.length_append, List.length_cons,
        List.length_nil] at hlen
      have hmid : mid = [] := List.length_eq_zero_iff.mp (by omega)
      rw [hmid] at hvisit
      cases hvisit
    | nil =>
      obtain ⟨rfl, htail⟩ := List.cons.inj hsplit
      cases mid with
      | nil => cases hvisit
      | cons again mid =>
        rw [List.cons_append] at htail
        obtain ⟨rfl, hlast⟩ := List.cons.inj htail
        have hlen := congrArg List.length hlast
        simp only [AgentSession.visits, List.length_append, List.length_cons,
          List.length_nil] at hlen
        have hmid : mid = [] := List.length_eq_zero_iff.mp (by omega)
        rw [hmid, List.mem_singleton] at hvisit
        rw [hvisit]
        rfl
  · decide +kernel

open SampleSession in
/-- The first challenge of the sample gets a second report after another challenge has got one. -/
theorem challenge_answered_twice :
    AgentSession.activate seed grant policy signedPolicy "session" = .ok session ∧
      ¬ AnswersOnce session calls := by
  refine ⟨activate_session, ?_⟩
  intro h
  have hvisits : session.visits calls =
      [(session, callAt 9 1700000001),
        ((session.createReport (callAt 9 1700000001)).2, callAt 8 1700000002),
        (((session.createReport (callAt 9 1700000001)).2.createReport (callAt 8 1700000002)).2,
          callAt 9 1700000003)] := rfl
  unfold AnswersOnce at h
  rw [hvisits] at h
  have hpair := (List.pairwise_cons.mp h).1 _ (List.mem_cons_of_mem _ List.mem_cons_self)
  exact hpair rfl ⟨first, by decide +kernel⟩ ⟨third, by decide +kernel⟩

end CertaelAgent.Session
