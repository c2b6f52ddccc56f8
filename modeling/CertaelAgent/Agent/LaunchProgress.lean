import CertaelAgent.Foundation.Monitor
import CertaelAgent.Agent.LaunchStatus

/-!
# What a launch publishes

The statuses of a launch are watched by a monitor that knows which state may come after which. A
launch that ends well has published last that it stopped, and one that fails that it failed, that
an update failed or that an update is ready, if it published that it started the game at all.
-/

namespace CertaelAgent.Agent

open ProtoWire Protocol Files CertaelAgent.Runtime Transcript Monitor

/-- What may be published after what; nothing comes after the states that are missing on the
left. -/
def transitions : List (String × String) := [
  ("", "verifying_agent_version"),
  ("verifying_agent_version", "launch_failed"),
  ("verifying_agent_version", "loading_signed_registration"),
  ("loading_signed_registration", "hashing_registered_game_files"),
  ("hashing_registered_game_files", "launch_failed"),
  ("hashing_registered_game_files", "starting_game"),
  ("starting_game", "launch_failed"),
  ("starting_game", "awaiting_server_admission"),
  ("awaiting_server_admission", "launch_failed"),
  ("awaiting_server_admission", "verifying_signed_launch_bundle"),
  ("verifying_signed_launch_bundle", "launch_failed"),
  ("verifying_signed_launch_bundle", "update_required"),
  ("verifying_signed_launch_bundle", "protected"),
  ("update_required", "installing_required_update"),
  ("installing_required_update", "launch_failed"),
  ("installing_required_update", "update_ready"),
  ("installing_required_update", "update_failed"),
  ("protected", "protected"),
  ("protected", "stopped"),
  ("protected", "expired"),
  ("protected", "lost"),
  ("protected", "revoked"),
  ("protected", "launch_failed"),
  ("stopped", "launch_failed"),
  ("expired", "launch_failed"),
  ("lost", "launch_failed"),
  ("revoked", "launch_failed")]

/-- The state is the one published last. -/
def progress (binding : RegistrationBinding) : Monitor Action String where
  allows s
    | .write _ => True
    | .publish status => (s, status.state) ∈ transitions ∧
        status = bindingStatus binding status.state status.publicReason
  next s
    | .write _ => s
    | .publish status => status.state

variable {binding : RegistrationBinding} {s : String}

section

variable {α : Type} {Q : Except Exit α → String → Prop}

theorem after_progress (s : String) (out : List Action) :
    (progress binding).after s out = ((lastStatus out).map RuntimeStatus.state).getD s := by
  induction out using List.reverseRecOn with
  | nil => rfl
  | append_singleton out action ih =>
    rw [after_append, ih, lastStatus_append]
    cases action with
    | write frame => rfl
    | publish status => rfl

theorem conforms_publishBinding {runtimeState : String} {reason : Option String}
    (hnext : (s, runtimeState) ∈ transitions) {Q : Except Exit Unit → String → Prop}
    (h : Q (.ok ()) runtimeState) :
    (progress binding).Conforms s (publishBinding binding runtimeState reason) Q :=
  conforms_emit ⟨hnext, rfl⟩ h

theorem conforms_publish {state : RuntimeState} {runtimeState : String} {reason : Option String}
    (hregistration : state.registration = some binding) (hnext : (s, runtimeState) ∈ transitions)
    {Q : Except Exit Unit → String → Prop} (h : Q (.ok ()) runtimeState) :
    (progress binding).Conforms s (publishRuntime state runtimeState reason) Q := by
  unfold publishRuntime
  rw [hregistration]
  exact conforms_publishBinding hnext h

theorem conforms_sendFrame {frame : Ipc.Frame} {message : String}
    {Q : Except Exit Unit → String → Prop} (hok : Q (.ok ()) s)
    (herror : ∀ message, Q (.error (.error message)) s) :
    (progress binding).Conforms s (sendFrame frame message) Q := by
  by_cases h : Sendable frame
  · rw [sendFrame_of_sendable h]
    exact conforms_emit trivial hok
  · rw [sendFrame_of_not_sendable h]
    exact conforms_stop (herror message)

theorem conforms_ignored_sendFrame {frame : Ipc.Frame} {message : String}
    {Q : Except Exit Unit → String → Prop} (h : Q (.ok ()) s) :
    (progress binding).Conforms s (sendFrame frame message).ignore Q := by
  apply conforms_ignore
  exact conforms_sendFrame h fun _ => h

theorem conforms_reject {state : RuntimeState} {sessionId code message : String}
    (hregistration : state.registration = some binding)
    (hnext : (s, "launch_failed") ∈ transitions)
    (h : ∀ message, Q (.error (.error message)) "launch_failed") :
    (progress binding).Conforms s (reject state sessionId code message : Serving α) Q := by
  apply conforms_bind
  apply conforms_publish hregistration hnext
  apply conforms_bind
  apply conforms_ignored_sendFrame
  exact conforms_stop (h message)

end

/-- The states of a failed launch that are left alone. -/
def settled : List String := ["launch_failed", "update_failed", "update_ready"]

/-- A launch that fails after this state ends with one of the states that are left alone. -/
def Failing (s : String) : Prop := (s, "launch_failed") ∈ transitions ∨ s ∈ settled

instance (s : String) : Decidable (Failing s) := inferInstanceAs (Decidable (_ ∨ _))

/-- How serving a game can end, and what has been published last then. -/
def Served : Except Exit Session → String → Prop
  | .ok _, s => s = "protected"
  | .error (.ok ()), s => s = "stopped"
  | .error (.error _), s => Failing s

section

variable [Crates] {state : RuntimeState} {launch : BoundAgentLaunch} {session : Session} {turn : Turn}

/-- An iteration leaves the session protected or ends it. -/
abbrev Turned : Except Exit Session → String → Prop :=
  Ends (fun _ s => s = "protected") fun e s => Served (.error e) s

omit [Crates] in
theorem failing_protected : Failing "protected" := by decide

omit [Crates] in
theorem conforms_close (hregistration : state.registration = some binding) {health reason message : String}
    (hnext : ("protected", health) ∈ transitions) (hend : Failing health) :
    (progress binding).Conforms "protected" (do
      writeHealth launch.sessionId health session.lastReportAt [reason]
      publishRuntime state health (some reason)
      bail message : Serving Session) Turned := by
  apply conforms_bind
  apply conforms_sendFrame
  · apply conforms_bind
    apply conforms_publish hregistration hnext
    exact conforms_stop hend
  · exact fun _ => failing_protected

omit [Crates] in
theorem conforms_stopped (hregistration : state.registration = some binding) {reason : Option String} :
    (progress binding).Conforms "protected" (do
      publishRuntime state "stopped" reason
      finish : Serving Session) Turned := by
  apply conforms_bind
  apply conforms_publish hregistration (by decide)
  exact conforms_stop rfl

theorem conforms_answerChallenge (hregistration : state.registration = some binding)
    (payload : Bytes) : (progress binding).Conforms "protected"
      (answerChallenge state launch session turn payload) Turned := by
  unfold answerChallenge
  apply conforms_lift_bind _ fun _ _ => failing_protected
  intro challenge _
  split_ifs
  · exact conforms_stop failing_protected
  apply conforms_lift_bind _ fun _ _ => failing_protected
  intro snapshot _
  split_ifs
  · exact conforms_stop failing_protected
  apply conforms_lift_bind _ fun _ _ => failing_protected
  intro executableSha256 _
  apply conforms_lift_bind _ fun _ _ => failing_protected
  intro report _
  dsimp only
  split_ifs
  · exact conforms_stop failing_protected
  apply conforms_bind
  apply conforms_sendFrame
  · apply conforms_bind
    apply conforms_publish hregistration (by decide)
    exact conforms_value rfl
  · exact fun _ => failing_protected

theorem conforms_acceptRevocation (hregistration : state.registration = some binding)
    (payload : Bytes) : (progress binding).Conforms "protected"
      (acceptRevocation state launch session turn payload) Turned := by
  unfold acceptRevocation
  apply conforms_bind
  unfold decodeRevocation
  cases decode (M := SignedAgentRevocationV1) payload with
  | none =>
    exact conforms_stop failing_protected
  | some signed =>
    dsimp only
    split_ifs
    · apply conforms_stop
      exact failing_protected
    apply conforms_value
    apply conforms_lift_bind _ fun _ _ => failing_protected
    intro revocation _
    split_ifs
    · exact conforms_stop failing_protected
    · exact conforms_close hregistration (by decide) (by decide)

theorem conforms_sessionTurn (hregistration : state.registration = some binding) :
    (progress binding).Conforms "protected" (sessionTurn state launch session turn) Turned := by
  unfold sessionTurn
  split_ifs
  · exact conforms_close hregistration (by decide) (by decide)
  · exact conforms_close hregistration (by decide) (by decide)
  cases turn.received with
  | disconnected => exact conforms_stopped hregistration
  | timeout =>
    unfold heartbeat
    dsimp only
    split_ifs
    · apply conforms_bind
      apply conforms_sendFrame
      · apply conforms_bind
        apply conforms_publish hregistration (by decide)
        exact conforms_value rfl
      · exact fun _ => failing_protected
    · exact conforms_value rfl
  | failed error =>
    cases error with
    | io => exact conforms_stopped hregistration
    | _ => exact conforms_stop failing_protected
  | frame frame =>
    dsimp only
    unfold handleFrame
    cases frame.messageType with
    | challenge => exact conforms_answerChallenge hregistration _
    | revocation => exact conforms_acceptRevocation hregistration _
    | shutdown =>
      dsimp only
      split_ifs
      · exact conforms_stop failing_protected
      · exact conforms_stopped hregistration
    | _ => exact conforms_stop failing_protected

/-! ## Admission -/

/-- Admission leaves the game protected or ends the run. -/
abbrev Admitted : Except Exit (BoundAgentLaunch × Session) → String → Prop :=
  Ends (fun _ s => s = "protected") fun e s => Served (.error e) s

omit [Crates] in
theorem conforms_rejected {α : Type} {sessionId code message : String}
    {ok : α → String → Prop} (hregistration : state.registration = some binding)
    (hnext : (s, "launch_failed") ∈ transitions) :
    (progress binding).Conforms s (reject state sessionId code message : Serving α)
      (Ends ok fun e s => Served (.error e) s) :=
  conforms_reject hregistration hnext fun _ => .inr (by decide)

omit [Crates] in
theorem conforms_requireUpdate {α : Type} {ok : α → String → Prop} {arrival : Arrival}
    (hregistration : state.registration = some binding) (hupdate : state.automaticUpdate ≠ none) :
    (progress binding).Conforms "verifying_signed_launch_bundle"
      (requireUpdate state arrival : Serving α) (Ends ok fun e s => Served (.error e) s) := by
  obtain ⟨update, hupdate⟩ := Option.ne_none_iff_exists'.mp hupdate
  unfold requireUpdate
  apply conforms_bind
  apply conforms_publish hregistration (by decide)
  apply conforms_bind
  apply conforms_ignored_sendFrame
  rw [hupdate]
  apply conforms_bind
  apply conforms_publish hregistration (by decide)
  have hinstalling : Failing "installing_required_update" := by decide
  have hready : Failing "update_ready" := by decide
  have hfailed : Failing "update_failed" := by decide
  change (progress binding).Conforms _ _ _
  cases arrival.update update with
  | installed =>
    apply conforms_bind
    exact conforms_publish hregistration (by decide) (conforms_stop hready)
  | failed =>
    apply conforms_bind
    exact conforms_publish hregistration (by decide) (conforms_stop hfailed)
  | _ => exact conforms_stop hinstalling

theorem conforms_admission {arrival : Arrival} (hregistration : state.registration = some binding)
    (hupdate : state.automaticUpdate ≠ none) :
    (progress binding).Conforms "starting_game" (admission state arrival) Admitted := by
  have hverifying : Failing "verifying_signed_launch_bundle" := by decide
  unfold admission
  apply conforms_bind
  apply conforms_publish hregistration (by decide)
  change (progress binding).Conforms _ _ _
  cases arrival.received with
  | failed error => exact conforms_bind (conforms_rejected hregistration (by decide))
  | timeout => exact conforms_bind (conforms_rejected hregistration (by decide))
  | disconnected => exact conforms_bind (conforms_rejected hregistration (by decide))
  | frame bootstrap =>
  simp only [value_bind]
  split_ifs
  · exact conforms_rejected hregistration (by decide)
  apply conforms_bind
  apply conforms_publish hregistration (by decide)
  split
  · next launch hverified =>
    split_ifs
    · exact conforms_rejected hregistration (by decide)
    cases arrival.verifyFiles (platformManifest launch.buildManifest) with
    | error e => exact conforms_rejected hregistration (by decide)
    | ok mismatches =>
    cases mismatches with
    | cons mismatch rest => exact conforms_rejected hregistration (by decide)
    | nil =>
    apply conforms_bind
    apply conforms_sendFrame
    · apply conforms_bind
      apply conforms_publish hregistration (by decide)
      exact conforms_value rfl
    · exact fun _ => hverifying
  · exact conforms_bind (conforms_requireUpdate hregistration hupdate)
  · exact conforms_bind (conforms_rejected hregistration (by decide))

theorem conforms_serve {arrival : Arrival} {turns : List Turn}
    (hregistration : state.registration = some binding) (hupdate : state.automaticUpdate ≠ none) :
    (progress binding).Conforms "starting_game" (serve state arrival turns) Served := by
  have hstarting : Failing "starting_game" := by decide
  unfold serve
  apply conforms_bind
  apply conforms_sendFrame
  · apply conforms_bind
    apply (conforms_admission hregistration hupdate).mono
    intro r s hr
    cases r with
    | error e => exact hr
    | ok admitted =>
      apply conforms_run (I := fun _ s => s = "protected") _ _ hr
      · rintro session turn s rfl
        exact conforms_sessionTurn hregistration
      · exact fun _ _ hs => hs
  · exact fun _ => hstarting

end

/-! ## The launch -/

section

variable [Crates] (launch : RegisteredLaunch)

/-- The only file that is hashed is the executable, and that cannot be done. -/
def Unhashed : Prop :=
  launch.claims.registeredFiles = [] ∧
    ∃ e, Platform.inspectExecutable launch.files launch.registered.game = .error e

/-- What is published last by a launch, and how the launch ends. -/
def Concluded : Except Exit Session → String → Prop
  | .ok _, s => s = "protected"
  | .error (.ok ()), s => s = "stopped"
  | .error (.error _), s => s ∈ settled ∨ s = "" ∧ launch.updateState = none ∨
      s = "hashing_registered_game_files" ∧ Unhashed launch

/-- The part in front of the game's start, where nobody looks after failures. -/
def PreparedEnd : Except Exit String → String → Prop :=
  Ends (fun _ s => s = "hashing_registered_game_files") fun e s => Concluded launch (.error e) s

variable {launch}

theorem conforms_prepareLaunch :
    (progress launch.binding).Conforms "" (prepareLaunch launch) (PreparedEnd launch) := by
  have hfailed : ∀ message : String,
      PreparedEnd launch (.error (.error message)) "launch_failed" := fun _ => .inl (by decide)
  unfold prepareLaunch
  apply conforms_lift_bind
  · intro stateRoot _
    apply conforms_bind
    apply conforms_publishBinding (by decide)
    change (progress launch.binding).Conforms _ _ _
    cases launch.selectedAgent with
    | error message =>
      apply conforms_bind
      exact conforms_publishBinding (by decide) (conforms_stop (hfailed message))
    | ok _ =>
    apply conforms_bind
    apply conforms_publishBinding (by decide)
    apply conforms_bind
    apply conforms_publishBinding (by decide)
    change (progress launch.binding).Conforms _ _ _
    split_ifs with hfiles
    · cases Platform.verifyBuildManifest launch.rules launch.files launch.registered.gameRoot
        (registrationManifest launch.claims) with
      | error e =>
        apply conforms_bind
        exact conforms_publishBinding (by decide) (conforms_stop (hfailed _))
      | ok mismatches =>
      cases mismatches with
      | cons mismatch rest =>
        apply conforms_bind
        exact conforms_publishBinding (by decide) (conforms_stop (hfailed _))
      | nil => exact conforms_value rfl
    · apply conforms_lift_bind
      · exact fun _ _ => conforms_value rfl
      · exact fun e he => .inr (.inr ⟨rfl, not_not.mp hfiles, e, he⟩)
  · intro e he
    cases hstate : launch.updateState with
    | none => exact .inr (.inl ⟨rfl, hstate⟩)
    | some stateRoot =>
      rw [hstate] at he
      cases he

omit [Crates] in
theorem conforms_attend {session : Serving Session}
    (h : (progress binding).Conforms s session Served) :
    (progress binding).Conforms s (attend launch session) Served := by
  have hfails : Failing "stopped" := by decide
  obtain ⟨haccepts, hends⟩ := h
  unfold attend
  split
  · next hresult =>
    rw [hresult] at hends
    have hstopped : (progress binding).after s session.emitted = "stopped" := hends
    apply conforms_append haccepts
    rw [hstopped]
    apply conforms_lift_bind _ fun _ _ => hfails
    intro status _
    cases status with
    | success => exact conforms_stop rfl
    | failure status => exact conforms_stop hfails
  · exact ⟨haccepts, hends⟩

theorem conforms_launchWithRoot (stateRoot : String) :
    (progress launch.binding).Conforms "hashing_registered_game_files"
      (launchWithRoot launch stateRoot) Served := by
  have hhashing : Failing "hashing_registered_game_files" := by decide
  have hstarting : Failing "starting_game" := by decide
  unfold launchWithRoot
  apply conforms_bind
  unfold openState
  apply conforms_lift_bind _ fun _ _ => hhashing
  intro snapshot _
  unfold hexTo32
  split_ifs
  · exact conforms_stop hhashing
  apply conforms_lift_bind _ fun _ _ => hhashing
  intro executableSha256 _
  apply conforms_lift_bind _ fun _ _ => hhashing
  intro trust _
  apply conforms_bind
  apply conforms_publish rfl (by decide)
  apply conforms_value
  unfold launchUnix startGame
  apply conforms_bind
  apply conforms_lift_bind _ fun _ _ => hstarting
  intro _ _
  apply conforms_lift_bind _ fun _ _ => hstarting
  intro _ _
  apply conforms_lift_bind _ fun _ _ => hstarting
  intro started _
  apply conforms_lift_bind _ fun _ _ => hstarting
  intro _ _
  apply conforms_value
  exact conforms_attend (conforms_serve rfl (Option.some_ne_none _))

omit [Crates] in
theorem own_of_accepts {out : List Action} (h : (progress binding).Accepts s out) :
    ∀ status ∈ statusesOf out, status = bindingStatus binding status.state status.publicReason := by
  induction out generalizing s with
  | nil => simp
  | cons action out ih =>
    cases action with
    | write frame => exact ih h.2
    | publish status => exact List.forall_mem_cons.mpr ⟨h.1.2, ih h.2⟩

omit [Crates] in
theorem alreadyPublished_iff {status : RuntimeStatus}
    (h : status = bindingStatus binding status.state status.publicReason) :
    alreadyPublished binding status ↔ status.state ∈ settled := by
  have hattempt : status.launchAttemptId = some binding.launchAttemptId := by
    rw [h]
    rfl
  simp [alreadyPublished, hattempt, settled, or_assoc]

theorem conforms_publishFailure {launched : Serving Session} {launch : RegisteredLaunch}
    (h : (progress launch.binding).Conforms "" launched Served) :
    (progress launch.binding).Conforms "" (publishFailure launch.binding launched)
      (Concluded launch) := by
  obtain ⟨haccepts, hends⟩ := h
  unfold publishFailure
  split
  · next message hresult =>
    rw [hresult] at hends
    split_ifs with hpublished
    · obtain ⟨status, hlast, hstatus⟩ := (Option.any_eq_true _ _).mp hpublished
      have hmem : status ∈ statusesOf launched.emitted := List.mem_of_getLast? hlast
      refine ⟨haccepts, ?_⟩
      rw [hresult, after_progress, hlast]
      exact .inl ((alreadyPublished_iff (own_of_accepts haccepts status hmem)).mp hstatus)
    · have hfails : ((progress launch.binding).after "" launched.emitted, "launch_failed") ∈
          transitions := by
        rcases hends with hfails | hsettled
        · exact hfails
        · rw [after_progress] at hsettled
          cases hlast : lastStatus launched.emitted with
          | none =>
            rw [hlast] at hsettled
            exact absurd hsettled (by decide)
          | some status =>
            rw [hlast] at hsettled hpublished
            have hmem : status ∈ statusesOf launched.emitted := List.mem_of_getLast? hlast
            exact absurd ((alreadyPublished_iff (own_of_accepts haccepts status hmem)).mpr hsettled)
              hpublished
      have hconcluded : Concluded launch (.error (.error message)) "launch_failed" :=
        .inl (by decide)
      rw [hresult]
      refine ⟨accepts_append_iff.mpr ⟨haccepts, ⟨hfails, rfl⟩, trivial⟩, ?_⟩
      rw [after_append]
      exact hconcluded
  · next hresult =>
    refine ⟨haccepts, ?_⟩
    cases hr : launched.result with
    | ok session =>
      rw [hr] at hends
      exact hends
    | error exit =>
      cases exit with
      | error message => exact absurd hr (hresult message)
      | ok _ =>
        rw [hr] at hends
        exact hends

theorem conforms_launchRegistered (launch : RegisteredLaunch) :
    (progress launch.binding).Conforms "" (launchRegistered launch) (Concluded launch) := by
  have hprepared : (progress launch.binding).Conforms "" (prepareLaunch launch)
      (PreparedEnd launch) := conforms_prepareLaunch
  obtain ⟨haccepts, hends⟩ := hprepared
  cases hresult : (prepareLaunch launch).result with
  | error exit =>
    rw [hresult] at hends
    have hlaunch : launchRegistered launch = ⟨(prepareLaunch launch).emitted, .error exit⟩ := by
      simp only [launchRegistered, hresult]
    rw [hlaunch]
    exact ⟨haccepts, hends⟩
  | ok stateRoot =>
    rw [hresult] at hends
    have hhashing : (progress launch.binding).after "" (prepareLaunch launch).emitted =
        "hashing_registered_game_files" := hends
    have hlaunch : launchRegistered launch = publishFailure launch.binding
        ⟨(prepareLaunch launch).emitted ++ (launchWithRoot launch stateRoot).emitted,
          (launchWithRoot launch stateRoot).result⟩ := by
      simp only [launchRegistered, hresult]
    rw [hlaunch]
    apply conforms_publishFailure
    apply conforms_append haccepts
    rw [hhashing]
    exact conforms_launchWithRoot stateRoot

omit [Crates] in
theorem isChain_of_accepts {binding : RegistrationBinding} {s : String} {out : List Action}
    (h : (progress binding).Accepts s out) : List.IsChain (fun a b => (a, b) ∈ transitions)
      (s :: (statusesOf out).map RuntimeStatus.state) := by
  induction out generalizing s with
  | nil => exact .singleton s
  | cons action out ih =>
    cases action with
    | write frame => exact ih h.2
    | publish status => exact .cons_cons h.1.1 (ih h.2)

end

end CertaelAgent.Agent
