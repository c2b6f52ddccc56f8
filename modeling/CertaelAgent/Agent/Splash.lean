import CertaelAgent.Agent.LaunchProgress

/-!
# The window of a launch

While a game is launched, a window of another process reads the status file ten times a second. It
takes the statuses of its own launch, tells a failure from them, and closes a while after it has
seen that the session is protected.
-/

namespace CertaelAgent.Agent

open CertaelAgent.Runtime Monitor

/-- The states that the window shows as failures. -/
def failedStates : List String := ["launch_failed", "update_failed", "expired", "lost", "revoked"]

/-- Times are in milliseconds. -/
structure SplashApp where
  launchAttemptId : String
  status : Option RuntimeStatus
  readySince : Option ℕ

namespace SplashApp

def new (launchAttemptId : String) : SplashApp := ⟨launchAttemptId, none, none⟩

/-- What reading the status file gives is absent if it fails. -/
def refresh (app : SplashApp) (reading : Option RuntimeStatus) (now : ℕ) : SplashApp :=
  match reading with
  | none => app
  | some status =>
    if status.launchAttemptId = some app.launchAttemptId then
      { app with
        status := some status
        readySince :=
          if status.state = "protected" ∧ app.readySince = none then some now
          else app.readySince }
    else app

def state (app : SplashApp) : String :=
  (app.status.map RuntimeStatus.state).getD "verifying_agent_version"

def failed (app : SplashApp) : Bool := failedStates.contains app.state

def closes (app : SplashApp) (now : ℕ) : Bool := app.readySince.any fun ready => 1200 ≤ now - ready

/-- Refreshed again and again. -/
def watch (app : SplashApp) (readings : List (Option RuntimeStatus × ℕ)) : SplashApp :=
  readings.foldl (fun app reading => app.refresh reading.1 reading.2) app

variable {app : SplashApp}

/-- A status that is shown. -/
def Own (app : SplashApp) (status : RuntimeStatus) : Prop :=
  status.launchAttemptId = some app.launchAttemptId

theorem refresh_of_own {status : RuntimeStatus} (h : app.Own status) (now : ℕ) :
    (app.refresh (some status) now).status = some status ∧
      (app.refresh (some status) now).readySince =
        if status.state = "protected" ∧ app.readySince = none then some now
        else app.readySince := by
  have hown : status.launchAttemptId = some app.launchAttemptId := h
  simp only [refresh, if_pos hown, and_self]

theorem refresh_of_not_own {status : RuntimeStatus} (h : ¬ app.Own status) (now : ℕ) :
    app.refresh (some status) now = app :=
  if_neg h

@[simp] theorem launchAttemptId_refresh (reading : Option RuntimeStatus) (now : ℕ) :
    (app.refresh reading now).launchAttemptId = app.launchAttemptId := by
  cases reading with
  | none => rfl
  | some status =>
    unfold refresh
    dsimp only
    split_ifs <;> rfl

theorem watch_append (early late : List (Option RuntimeStatus × ℕ)) :
    app.watch (early ++ late) = (app.watch early).watch late :=
  List.foldl_append

@[simp] theorem launchAttemptId_watch (readings : List (Option RuntimeStatus × ℕ)) :
    (app.watch readings).launchAttemptId = app.launchAttemptId := by
  induction readings generalizing app with
  | nil => rfl
  | cons reading readings ih => exact ih.trans (launchAttemptId_refresh ..)

theorem mem_of_status {readings : List (Option RuntimeStatus × ℕ)} {status : RuntimeStatus}
    (hnone : app.status = none) (h : (app.watch readings).status = some status) :
    app.Own status ∧ ∃ now, (some status, now) ∈ readings := by
  induction readings using List.reverseRecOn with
  | nil =>
    change app.status = some status at h
    rw [hnone] at h
    cases h
  | append_singleton readings reading ih =>
    rw [watch_append] at h
    obtain ⟨found, now⟩ := reading
    change ((app.watch readings).refresh found now).status = some status at h
    have hold : (app.watch readings).status = some status →
        app.Own status ∧ ∃ now', (some status, now') ∈ readings ++ [(found, now)] := by
      intro hstatus
      obtain ⟨hown, now', hmem⟩ := ih hstatus
      exact ⟨hown, now', List.mem_append_left _ hmem⟩
    cases found with
    | none => exact hold h
    | some found =>
      by_cases hown : (app.watch readings).Own found
      · rw [(refresh_of_own hown now).1] at h
        obtain rfl := Option.some.inj h
        refine ⟨?_, now, by simp⟩
        rwa [Own, launchAttemptId_watch] at hown
      · rw [refresh_of_not_own hown] at h
        exact hold h

/-- The window only counts from the moment at which it has seen that the session is protected. -/
theorem mem_of_readySince {readings : List (Option RuntimeStatus × ℕ)} {ready : ℕ}
    (hnone : app.readySince = none) (h : (app.watch readings).readySince = some ready) :
    ∃ status, app.Own status ∧ status.state = "protected" ∧ (some status, ready) ∈ readings := by
  induction readings using List.reverseRecOn with
  | nil =>
    change app.readySince = some ready at h
    rw [hnone] at h
    cases h
  | append_singleton readings reading ih =>
    rw [watch_append] at h
    obtain ⟨found, now⟩ := reading
    change ((app.watch readings).refresh found now).readySince = some ready at h
    have hold : (app.watch readings).readySince = some ready → ∃ status, app.Own status ∧
        status.state = "protected" ∧ (some status, ready) ∈ readings ++ [(found, now)] := by
      intro hready
      obtain ⟨status, hown, hstate, hmem⟩ := ih hready
      exact ⟨status, hown, hstate, List.mem_append_left _ hmem⟩
    cases found with
    | none => exact hold h
    | some found =>
      by_cases hown : (app.watch readings).Own found
      · rw [(refresh_of_own hown now).2] at h
        split_ifs at h with hready
        · obtain rfl := Option.some.inj h
          refine ⟨found, ?_, hready.1, by simp⟩
          rwa [Own, launchAttemptId_watch] at hown
        · exact hold h
      · rw [refresh_of_not_own hown] at h
        exact hold h

theorem failed_watch {readings : List (Option RuntimeStatus × ℕ)} (hfailed : app.failed)
    (h : ∀ reading ∈ readings, ∀ status ∈ reading.1, app.Own status →
      status.state ∈ failedStates) :
    (app.watch readings).failed := by
  induction readings generalizing app with
  | nil => exact hfailed
  | cons reading readings ih =>
    obtain ⟨hreading, hrest⟩ := List.forall_mem_cons.mp h
    obtain ⟨found, now⟩ := reading
    have hnext : (app.refresh found now).failed := by
      cases found with
      | none => exact hfailed
      | some status =>
        by_cases hown : app.Own status
        · unfold failed state
          rw [(refresh_of_own hown now).1, List.contains_iff_mem]
          exact hreading status rfl hown
        · rwa [refresh_of_not_own hown]
    apply ih hnext
    intro reading hmem status hstatus hown
    apply hrest reading hmem status hstatus
    rwa [Own, launchAttemptId_refresh] at hown

end SplashApp

/-! ## The window of a launch -/

/-- One state comes after the other in a launch. -/
def Leads (s s' : String) : Prop := Relation.ReflTransGen (fun a b => (a, b) ∈ transitions) s s'

variable {binding : RegistrationBinding} {s : String} {out : List Action}

theorem leads_of_accepts (h : (progress binding).Accepts s out) :
    ∀ status ∈ statusesOf out, Leads s status.state := by
  induction out generalizing s with
  | nil => simp
  | cons action out ih =>
    cases action with
    | write frame => exact ih h.2
    | publish status =>
      have hfirst : Leads s status.state := .single h.1.1
      exact List.forall_mem_cons.mpr ⟨hfirst, fun status' hmem => hfirst.trans (ih h.2 status' hmem)⟩

theorem pairwise_leads_of_accepts (h : (progress binding).Accepts s out) :
    (statusesOf out).Pairwise fun status status' => Leads status.state status'.state := by
  induction out generalizing s with
  | nil => exact .nil
  | cons action out ih =>
    cases action with
    | write frame => exact ih h.2
    | publish status => exact .cons (leads_of_accepts h.2) (ih h.2)

theorem failed_of_leads {s' : String} (h : Leads s s')
    (hs : s ∈ failedStates) :
    s' ∈ failedStates := by
  have hclosed : ∀ step ∈ transitions, step.1 ∈ failedStates → step.2 ∈ failedStates := by
    decide
  induction h with
  | refl => exact hs
  | tail h hstep ih => exact hclosed _ hstep ih

section

variable [Protocol.Crates]

def window (launch : RegisteredLaunch) (readings : List (Option RuntimeStatus × ℕ)) : SplashApp :=
  (SplashApp.new launch.launchAttemptId).watch readings

/-- The window keeps to what the launch has published: a failure it shows stays, it closes by itself
only when the session was protected, and what it has read last tells how the launch ended. -/
structure Shows (launch : RegisteredLaunch) (readings : List (Option RuntimeStatus × ℕ)) :
    Prop where
  failure_stays : ∀ early late, readings = early ++ late → (window launch early).failed →
    (window launch readings).failed
  closes : ∀ now, (window launch readings).closes now → ∃ status ready,
    status ∈ statusesOf (launchRegistered launch).emitted ∧ status.state = "protected" ∧
      (some status, ready) ∈ readings ∧ ready + 1200 ≤ now
  tells : ∀ early status now, readings = early ++ [(some status, now)] →
    lastStatus (launchRegistered launch).emitted = some status →
      Concluded launch (launchRegistered launch).result (window launch readings).state

/-- The status is one of this launch. -/
def ofLaunch (launch : RegisteredLaunch) (status : RuntimeStatus) : Bool :=
  status.launchAttemptId == some launch.launchAttemptId

variable {launch : RegisteredLaunch} {held : Option RuntimeStatus} {written : List RuntimeStatus}
  {readings : List (Option RuntimeStatus × ℕ)}

omit [Protocol.Crates] in
theorem ofLaunch_iff {status : RuntimeStatus} : ofLaunch launch status ↔
    (SplashApp.new launch.launchAttemptId).Own status :=
  beq_iff_eq

theorem filter_ofLaunch : (statusesOf (launchRegistered launch).emitted).filter (ofLaunch launch) =
    statusesOf (launchRegistered launch).emitted := by
  rw [List.filter_eq_self]
  intro status hmem
  rw [own_of_accepts (conforms_launchRegistered launch).1 status hmem]
  exact beq_self_eq_true _

/-- What the window finds is in the order in which the launch publishes it. -/
theorem pairwise_readings (hwritten : written.filter (ofLaunch launch) =
      statusesOf (launchRegistered launch).emitted)
    (hheld : ∀ status ∈ held, ¬ ofLaunch launch status)
    (h : Polled written held (readings.map Prod.fst)) :
    (readings.map Prod.fst).Pairwise fun r r' => ∀ a ∈ r, ∀ b ∈ r',
      ofLaunch launch a → ofLaunch launch b → Leads a.state b.state := by
  have hpairwise := pairwise_leads_of_accepts (conforms_launchRegistered launch).1
  rw [← hwritten, List.pairwise_filter] at hpairwise
  exact h.pairwise (fun _ _ _ => .refl) hpairwise
    fun status hstatus _ _ hown => absurd hown (hheld status hstatus)

theorem mem_statusesOf_of_read (hwritten : written.filter (ofLaunch launch) =
      statusesOf (launchRegistered launch).emitted)
    (hheld : ∀ status ∈ held, ¬ ofLaunch launch status)
    (h : Polled written held (readings.map Prod.fst)) {status : RuntimeStatus} {now : ℕ}
    (hmem : (some status, now) ∈ readings) (hown : ofLaunch launch status) :
    status ∈ statusesOf (launchRegistered launch).emitted := by
  rcases h.mem _ (List.mem_map_of_mem hmem) status rfl with hin | hin
  · exact absurd hown (hheld status hin)
  · rw [← hwritten]
    exact List.mem_filter.mpr ⟨hin, hown⟩

end

end CertaelAgent.Agent
