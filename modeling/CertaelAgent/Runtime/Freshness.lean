import CertaelAgent.Runtime.Lifetime

/-!
# Challenges that come again

The session loop keeps no record of the challenges it has answered. A report is written for every
challenge frame that passes the checks at the time it arrives, so a challenge is answered once in
a run exactly when its frame is not delivered a second time.
-/

namespace CertaelAgent.Runtime

open ProtoWire Protocol Ipc

section

variable [Crates]

/-- An iteration that answers the challenge with a report. -/
def Replies (state : RuntimeState) (launch : BoundAgentLaunch) (visit : Session × Turn)
    (challenge : AgentReportChallengeV1) : Prop :=
  (∃ frame ∈ framesOf (sessionTurn state launch visit.1 visit.2).emitted,
    frame.messageType = .integrityReport) ∧
  ∃ payload, visit.2.received = .frame ⟨.challenge, payload⟩ ∧
    decodeChallenge payload visit.2.after = .ok challenge

/-- No two iterations of the run reply to one challenge. -/
def AnswersOnce (state : RuntimeState) (launch : BoundAgentLaunch) (session : Session)
    (turns : List Turn) : Prop :=
  (Transcript.visits (sessionTurn state launch) session turns).Pairwise fun earlier later =>
    ∀ challenge, Replies state launch earlier challenge → ¬ Replies state launch later challenge

/-- Two iterations get different frames, unless one of them cannot answer. -/
def FreshFrames (state : RuntimeState) (launch : BoundAgentLaunch) (session : Session)
    (turns : List Turn) : Prop :=
  (Transcript.visits (sessionTurn state launch) session turns).Pairwise fun earlier later =>
    Answerable state launch earlier.1 earlier.2 → Answerable state launch later.1 later.2 →
      earlier.2.received ≠ later.2.received

variable {state : RuntimeState} {launch : BoundAgentLaunch} {session : Session}

theorem Answerable.received {turn : Turn} (h : Answerable state launch session turn) :
    ∃ payload challenge, turn.received = .frame ⟨.challenge, payload⟩ ∧
      decodeChallenge payload turn.after = .ok challenge := by
  obtain ⟨payload, challenge, _, haccepts, _⟩ := h
  exact ⟨payload, challenge, haccepts.received, haccepts.decoded⟩

/-- Two frames that carry one challenge are equal, at whatever times they arrive: the challenge
has one canonical encoding. -/
theorem received_eq_of_replies {earlier later : Session × Turn} {challenge : AgentReportChallengeV1}
    (he : Replies state launch earlier challenge) (hl : Replies state launch later challenge) :
    earlier.2.received = later.2.received := by
  obtain ⟨_, payload, hreceived, hdecoded⟩ := he
  obtain ⟨_, payload', hreceived', hdecoded'⟩ := hl
  obtain ⟨⟨hencode, _⟩, _⟩ := decodeChallenge_ok hdecoded
  obtain ⟨⟨hencode', _⟩, _⟩ := decodeChallenge_ok hdecoded'
  rw [hreceived, hreceived', hencode, hencode']

theorem answersOnce_turns_iff (earlier later : Session × Turn) :
    (∀ challenge, Replies state launch earlier challenge → ¬ Replies state launch later challenge) ↔
      (Answerable state launch earlier.1 earlier.2 → Answerable state launch later.1 later.2 →
        earlier.2.received ≠ later.2.received) := by
  constructor
  · intro h hearlier hlater hsame
    obtain ⟨payload, challenge, hreceived, hdecoded⟩ := hearlier.received
    obtain ⟨payload', challenge', hreceived', hdecoded'⟩ := hlater.received
    have hpayload : payload = payload' := by
      rw [hreceived, hreceived'] at hsame
      simpa using hsame
    subst hpayload
    have hchallenge : challenge' = challenge :=
      (decodeChallenge_ok hdecoded').1.unique (decodeChallenge_ok hdecoded).1
    subst hchallenge
    exact h challenge' ⟨writes_report_iff.mpr hearlier, payload, hreceived, hdecoded⟩
      ⟨writes_report_iff.mpr hlater, payload, hreceived', hdecoded'⟩
  · intro h challenge he hl
    exact h (writes_report_iff.mp he.1) (writes_report_iff.mp hl.1) (received_eq_of_replies he hl)

/-- A run answers every challenge at most once exactly when no challenge frame that it answers is
the repetition of one that it has answered. -/
theorem answersOnce_iff_freshFrames (state : RuntimeState) (launch : BoundAgentLaunch)
    (session : Session) (turns : List Turn) :
    AnswersOnce state launch session turns ↔ FreshFrames state launch session turns := by
  unfold AnswersOnce FreshFrames
  constructor
  · intro h
    exact h.imp fun {earlier later} => (answersOnce_turns_iff earlier later).mp
  · intro h
    exact h.imp fun {earlier later} => (answersOnce_turns_iff earlier later).mpr

end

namespace Sample

def secondSigned : AgentIntegrityReportV1 := { secondReport with signature := secondSignature.1 }

def secondSession : Session := opened.afterReport launch (challengeAt 1001) firstSigned

theorem secondAccepted :
    Accepts launch secondSession (challengeAt 1002) (encode challenge) challenge :=
  accepts (by decide +kernel) (by decide +kernel) (by decide +kernel)

theorem secondAnswered :
    Answers state launch secondSession (challengeAt 1002) challenge secondSigned :=
  ⟨⟨_, rfl, by decide +kernel, by decide +kernel⟩, by decide +kernel, by decide +kernel⟩

end Sample

/-- One challenge frame, delivered twice within two seconds, is answered with two reports. -/
theorem not_answersOnce : ¬ ∀ [Crates] (state : RuntimeState) (arrival : Arrival)
    (launch : BoundAgentLaunch) (turns : List Turn), Admits state arrival launch →
      AnswersOnce state launch (openSession arrival launch) turns := by
  intro h
  have honce := h Sample.state Sample.arrival Sample.launch
    [Sample.challengeAt 1001, Sample.challengeAt 1002] Sample.admits
  have hnext : (sessionTurn Sample.state Sample.launch Sample.opened
      (Sample.challengeAt 1001)).result = .ok Sample.secondSession := by
    rw [sessionTurn_of_answers Sample.firstAccepted Sample.firstAnswered]
    rfl
  unfold AnswersOnce at honce
  rw [show openSession Sample.arrival Sample.launch = Sample.opened from rfl,
    Transcript.visits_cons_of_ok hnext] at honce
  have hpair := (List.pairwise_cons.mp honce).1 (Sample.secondSession, Sample.challengeAt 1002)
    (List.mem_cons_self ..)
  exact (answersOnce_turns_iff _ _).mp hpair ⟨_, _, _, Sample.firstAccepted, Sample.firstAnswered⟩
    ⟨_, _, _, Sample.secondAccepted, Sample.secondAnswered⟩ rfl

end CertaelAgent.Runtime
