import CertaelAgent.Platform.LoadedModules
import CertaelAgent.Protocol.ReportSize
import CertaelAgent.Runtime.ReportChain

/-!
# The size of the evidence

A report holds ten observations about the Agent and the game, and up to 96 module names of each.
Its size is a sum over the names that are reported. With names of up to 255 bytes every report fits
a message; with names of up to 512 bytes, which pass the filter of the loop, it need not.
-/

namespace CertaelAgent.Runtime

open ProtoWire Protocol Ipc Platform

/-- The bytes of an observation in a report, from the length of its value. -/
def entrySize (code : String) (length : ℕ) : ℕ :=
  delimitedSize 8 (bodySize 1 (len code) + bodySize 2 length)

/-- The bytes of the module names that are reported. -/
def modulesSize (code : String) (modules : List String) : ℕ :=
  (((modules.filter safeValue).take 96).map fun name => entrySize code (len name)).sum

def boolLength (value : Bool) : ℕ := if value then 4 else 5

/-- An unknown value is reported as such. -/
def knownLength (value : Option Bool) : ℕ := (value.map boolLength).getD 7

/-- The bytes of the observations about one look at the executable and at the game. -/
def evidenceSize (state : RuntimeState) (agentProcessId : UInt32) (reading : ExecutableReading)
    (gameProcess : GameProcessSnapshot) : ℕ :=
  entrySize "agent.platform" (len reading.platform) +
    entrySize "agent.process_id" (len (toString agentProcessId.toNat)) +
    entrySize "game.process_id" (len (toString state.gameProcessId.toNat)) +
    entrySize "game.process_running" (boolLength gameProcess.running) +
    entrySize "game.executable_matches" (boolLength gameProcess.executableMatches) +
    entrySize "game.parent_is_agent" (knownLength gameProcess.parentIsAgent) +
    entrySize "agent.debugger_observed" (boolLength reading.debuggerObserved) +
    entrySize "agent.probe_health" 9 +
    ((reading.executableBuildId.filter safeValue).map fun buildId =>
      entrySize "game.elf_build_id" (len buildId)).getD 0 +
    entrySize "game.process_identity_stable" (knownLength gameProcess.processIdentityStable) +
    modulesSize "agent.module" reading.loadedModuleBasenames +
    modulesSize "game.module" gameProcess.loadedModuleBasenames

/-- The bytes of the report without its signature. -/
def challengeReportSize (state : RuntimeState) (launch : BoundAgentLaunch) (session : Session)
    (turn : Turn) (challenge : AgentReportChallengeV1) (reading : ExecutableReading)
    (gameProcess : GameProcessSnapshot) : ℕ :=
  varintSize 1 1 + bodySize 2 (len launch.sessionId) + varintSize 3 session.sequence.toNat +
    bodySize 4 challenge.nonce.length + varintSize 5 turn.after.toUInt64.toNat +
    bodySize 6 (len launch.buildId) + bodySize 7 32 +
    evidenceSize state turn.agentProcessId reading gameProcess + bodySize 9 32

theorem observationsSize_cons (code value : String) (rest : List IntegrityObservationV1) :
    observationsSize (observation code value :: rest) =
      entrySize code (len value) + observationsSize rest := rfl

theorem observationsSize_modules (code : String) (modules : List String) :
    observationsSize (moduleObservations code modules) = modulesSize code modules := by
  unfold observationsSize moduleObservations modulesSize
  rw [List.map_map]
  rfl

theorem len_boolValue (value : Bool) : len (boolValue value) = boolLength value := by
  cases value <;> decide

theorem len_knownValue (value : Option Bool) :
    len ((value.map boolValue).getD "unknown") = knownLength value := by
  cases value with
  | none => decide
  | some value => exact len_boolValue value

theorem observationsSize_buildId (buildId : Option String) :
    observationsSize (buildId.map (observation "game.elf_build_id")).toList =
      (buildId.map fun buildId => entrySize "game.elf_build_id" (len buildId)).getD 0 := by
  cases buildId <;> rfl

/-! ## Names of up to 255 bytes -/

theorem entrySize_le (code : String) (length : ℕ) : entrySize code length ≤ len code + length + 60 := by
  have hcode := bodySize_le 1 (len code)
  have hvalue := bodySize_le 2 length
  have hentry := delimitedSize_le 8 (bodySize 1 (len code) + bodySize 2 length)
  unfold entrySize
  omega

theorem modulesSize_le {code : String} {modules : List String}
    (h : ∀ name ∈ modules, len name ≤ 255) : modulesSize code modules ≤ 96 * (len code + 315) := by
  have heach : ∀ size ∈ ((modules.filter safeValue).take 96).map fun name => entrySize code (len name),
      size ≤ len code + 315 := by
    intro size hsize
    obtain ⟨name, hname, rfl⟩ := List.mem_map.mp hsize
    have hshort := h name (List.mem_of_mem_filter (List.mem_of_mem_take hname))
    have hentry := entrySize_le code (len name)
    omega
  have hsum := List.sum_le_card_nsmul _ _ heach
  rw [smul_eq_mul, List.length_map] at hsum
  have hcount : ((modules.filter safeValue).take 96).length ≤ 96 := List.length_take_le ..
  exact hsum.trans (Nat.mul_le_mul_right _ hcount)

theorem len_ofList_le (chars : List Char) : len (String.ofList chars) ≤ 4 * chars.length := by
  calc
    _ = (Field.utf8 (String.ofList chars)).length := (Field.length_utf8 _).symm
    _ = (chars.flatMap String.utf8EncodeChar).length := Field.length_utf8_ofList chars
    _ ≤ _ := by
      induction chars with
      | nil => simp
      | cons c chars ih =>
        have hsize := c.utf8Size_le_four
        rw [List.flatMap_cons, List.length_append, String.length_utf8EncodeChar, List.length_cons]
        omega

theorem len_processId_le (processId : UInt32) : len (toString processId.toNat) ≤ 40 := by
  have hbound := processId.toNat_lt
  have hdigits : (Nat.toDigits 10 processId.toNat).length ≤ 10 :=
    (Nat.length_toDigits_le_iff (by omega) (by omega)).mpr (by omega)
  rw [Nat.toString_eq_ofList_toDigits]
  exact (len_ofList_le _).trans (by omega)

theorem boolLength_le (value : Bool) : boolLength value ≤ 5 := by
  cases value <;> decide

theorem knownLength_le (value : Option Bool) : knownLength value ≤ 7 := by
  cases value with
  | none => exact le_rfl
  | some value => exact (boolLength_le value).trans (by omega)

theorem buildIdSize_le (buildId : Option String) :
    ((buildId.filter safeValue).map fun buildId =>
      entrySize "game.elf_build_id" (len buildId)).getD 0 ≤ 589 := by
  cases hbuild : buildId.filter safeValue with
  | none => simp
  | some value =>
    have hsafe := (Option.filter_eq_some_iff.mp hbuild).2
    simp only [safeValue, Bool.and_eq_true, decide_eq_true_eq] at hsafe
    have hcode : len "game.elf_build_id" = 17 := by decide
    have hentry := entrySize_le "game.elf_build_id" (len value)
    simp only [Option.map_some, Option.getD_some]
    omega

/-- With module names of up to 255 bytes the evidence has at most 64119 bytes. -/
theorem evidenceSize_le {state : RuntimeState} {agentProcessId : UInt32}
    {reading : ExecutableReading} {gameProcess : GameProcessSnapshot}
    (hplatform : len reading.platform ≤ 7)
    (hagent : ∀ name ∈ reading.loadedModuleBasenames, len name ≤ 255)
    (hgame : ∀ name ∈ gameProcess.loadedModuleBasenames, len name ≤ 255) :
    evidenceSize state agentProcessId reading gameProcess ≤ 64119 := by
  have hcodes : len "agent.platform" = 14 ∧ len "agent.process_id" = 16 ∧
      len "game.process_id" = 15 ∧ len "game.process_running" = 20 ∧
      len "game.executable_matches" = 23 ∧ len "game.parent_is_agent" = 20 ∧
      len "agent.debugger_observed" = 23 ∧ len "agent.probe_health" = 18 ∧
      len "game.process_identity_stable" = 28 ∧ len "agent.module" = 12 ∧
      len "game.module" = 11 := by
    decide
  have hplatformEntry := entrySize_le "agent.platform" (len reading.platform)
  have hagentId := entrySize_le "agent.process_id" (len (toString agentProcessId.toNat))
  have hagentDigits := len_processId_le agentProcessId
  have hgameId := entrySize_le "game.process_id" (len (toString state.gameProcessId.toNat))
  have hgameDigits := len_processId_le state.gameProcessId
  have hrunning := entrySize_le "game.process_running" (boolLength gameProcess.running)
  have hrunningLength := boolLength_le gameProcess.running
  have hmatches := entrySize_le "game.executable_matches" (boolLength gameProcess.executableMatches)
  have hmatchesLength := boolLength_le gameProcess.executableMatches
  have hparent := entrySize_le "game.parent_is_agent" (knownLength gameProcess.parentIsAgent)
  have hparentLength := knownLength_le gameProcess.parentIsAgent
  have hdebugger := entrySize_le "agent.debugger_observed" (boolLength reading.debuggerObserved)
  have hdebuggerLength := boolLength_le reading.debuggerObserved
  have hprobe := entrySize_le "agent.probe_health" 9
  have hbuild := buildIdSize_le reading.executableBuildId
  have hstable := entrySize_le "game.process_identity_stable"
    (knownLength gameProcess.processIdentityStable)
  have hstableLength := knownLength_le gameProcess.processIdentityStable
  have hagentModules := @modulesSize_le "agent.module" _ hagent
  have hgameModules := @modulesSize_le "game.module" _ hgame
  unfold evidenceSize
  omega

section

variable [Crates] {state : RuntimeState} {arrival : Arrival} {launch : BoundAgentLaunch}
  {session : Session} {turn : Turn} {challenge : AgentReportChallengeV1}
  {reading : ExecutableReading} {gameProcess : GameProcessSnapshot}

theorem observationsSize_observations (state : RuntimeState) (agentProcessId : UInt32)
    (reading : ExecutableReading) (gameProcess : GameProcessSnapshot) :
    observationsSize (observations state agentProcessId (integritySnapshot reading) gameProcess) =
      evidenceSize state agentProcessId reading gameProcess := by
  have hconnected : len "connected" = 9 := by decide
  unfold observations
  rw [observationsSize_append, observationsSize_append, observationsSize_append,
    observationsSize_append, observationsSize_buildId, observationsSize_modules,
    observationsSize_modules]
  simp only [observationsSize_cons, len_boolValue, len_knownValue, hconnected]
  unfold evidenceSize
  simp only [integritySnapshot, observationsSize, List.map_nil, List.sum_nil]
  omega

/-- The state of the game process as the loop looks at it. -/
def observedGame (state : RuntimeState) (turn : Turn) : GameProcessSnapshot :=
  inspectGameProcessBound state.gameProcessId turn.gameProcess turn.processIdentity
    state.gameProcessIdentity

/-- The report that the loop assembles about one look at the executable. -/
def assembledReport (state : RuntimeState) (launch : BoundAgentLaunch) (session : Session)
    (turn : Turn) (challenge : AgentReportChallengeV1) (reading : ExecutableReading) :
    AgentIntegrityReportV1 :=
  challengeReport state launch session turn challenge (integritySnapshot reading)
    (Crates.sha256 reading.contents).1

theorem unsignedSize_assembledReport (state : RuntimeState) (launch : BoundAgentLaunch)
    (session : Session) (turn : Turn) (challenge : AgentReportChallengeV1)
    (reading : ExecutableReading) :
    (assembledReport state launch session turn challenge reading).unsignedSize =
      challengeReportSize state launch session turn challenge reading (observedGame state turn) := by
  have hexecutable : (Crates.sha256 reading.contents).1.length = 32 :=
    (Crates.sha256 reading.contents).2
  have hprevious : session.previousDigest.1.length = 32 := session.previousDigest.2
  calc
    _ = varintSize 1 1 + bodySize 2 (len launch.sessionId) + varintSize 3 session.sequence.toNat +
        bodySize 4 challenge.nonce.length + varintSize 5 turn.after.toUInt64.toNat +
        bodySize 6 (len launch.buildId) + bodySize 7 (Crates.sha256 reading.contents).1.length +
        observationsSize (observations state turn.agentProcessId (integritySnapshot reading)
          (observedGame state turn)) + bodySize 9 session.previousDigest.1.length := rfl
    _ = _ := by
      rw [observationsSize_observations, hexecutable, hprevious]
      rfl

omit [Crates] in
theorem identifier_buildId_of_validateLaunchGrant {claims : AgentLaunchGrantClaimsV1}
    {nowUnix : Int64} (h : validateLaunchGrant claims nowUnix = .ok ()) :
    identifier claims.buildId := by
  unfold validateLaunchGrant at h
  split_ifs at h with hinvalid
  simp only [not_or, not_not] at hinvalid
  exact hinvalid.2.2.2.2.2.2.2.1

theorem Admits.identifier_buildId (h : Admits state arrival launch) :
    identifier launch.buildId := by
  obtain ⟨payload, evidence, _, hauth, _, rfl⟩ := h.evidence
  exact identifier_buildId_of_validateLaunchGrant hauth.grantValid

/-- Reports are counted from one, and the last number is never used up. -/
theorem sequence_ne_zero_of_visit {turns : List Turn}
    (h : (session, turn) ∈
      Transcript.visits (sessionTurn state launch) (openSession arrival launch) turns) :
    session.sequence ≠ 0 := by
  have hstep : ∀ (s : Session) (t : Turn) (s' : Session), s.sequence ≠ 0 →
      (sessionTurn state launch s t).result = .ok s' → s'.sequence ≠ 0 := by
    intro s t s' hs hresult
    have hcases := sessionTurn_cases state launch s t
    generalize sessionTurn state launch s t = outcome at hcases hresult
    cases hcases with
    | silent exit statuses => simp at hresult
    | closed health reason message => simp at hresult
    | idle =>
      obtain rfl := Except.ok.inj hresult
      exact hs
    | heartbeat =>
      obtain rfl := Except.ok.inj hresult
      exact hs
    | answered payload challenge report haccepts hanswers =>
      obtain rfl := Except.ok.inj hresult
      intro hzero
      have hnext := toNat_sequence_succ hanswers.notExhausted
      rw [show s.sequence + 1 = 0 from hzero] at hnext
      exact absurd hnext.symm (Nat.succ_ne_zero _)
  have hopened : (openSession arrival launch).sequence ≠ 0 := by
    change (1 : UInt64) ≠ 0
    decide
  exact Transcript.forall_visits hstep hopened turns (session, turn) h

omit [Crates] in
theorem length_moduleObservations_le (code : String) (modules : List String) :
    (moduleObservations code modules).length ≤ 96 := by
  simp [moduleObservations]

omit [Crates] in
theorem length_observations_le (state : RuntimeState) (agentProcessId : UInt32)
    (snapshot : IntegritySnapshot) (gameProcess : GameProcessSnapshot) :
    (observations state agentProcessId snapshot gameProcess).length ≤ 202 := by
  have hagent := length_moduleObservations_le "agent.module" snapshot.loadedModuleBasenames
  have hgame := length_moduleObservations_le "game.module" gameProcess.loadedModuleBasenames
  have hbuild : ((snapshot.executableBuildId.filter safeValue).map
      (observation "game.elf_build_id")).toList.length ≤ 1 := by
    cases (snapshot.executableBuildId.filter safeValue).map (observation "game.elf_build_id") <;>
      simp
  unfold observations
  simp only [List.length_append, List.length_cons, List.length_nil]
  omega

theorem validateReport_assembledReport (hadmits : Admits state arrival launch)
    (hsequence : session.sequence ≠ 0) (hshort : 16 ≤ challenge.nonce.length)
    (hlong : challenge.nonce.length ≤ 256) :
    validateReport (assembledReport state launch session turn challenge reading) = .ok () := by
  obtain ⟨hsession, hsessionLength⟩ := len_pos_of_identifier hadmits.sessionId
  obtain ⟨hbuild, hbuildLength⟩ := len_pos_of_identifier hadmits.identifier_buildId
  have hexecutable : (Crates.sha256 reading.contents).1.length = 32 :=
    (Crates.sha256 reading.contents).2
  have hprevious : session.previousDigest.1.length = 32 := session.previousDigest.2
  have hcount := length_observations_le state turn.agentProcessId (integritySnapshot reading)
    (observedGame state turn)
  apply validateReport_of_fields
  · rfl
  · exact ⟨hsession, hsessionLength⟩
  · exact hsequence
  · exact ⟨hshort, hlong⟩
  · exact ⟨hbuild, hbuildLength⟩
  · exact hexecutable
  · exact .inr hprevious
  · exact hcount.trans (by omega)

/-- The report is valid, it is signed, and a frame takes it with its signature. -/
def ReportFits (report : AgentIntegrityReportV1) (key : SigningKey) : Prop :=
  validateReport report = .ok () ∧ ∃ signed, signReport report key = .ok signed ∧
    (encode signed).length ≤ MAX_MESSAGE_BYTES ∧ ∃ bytes, writeFrame (reportFrame signed) = .ok bytes

theorem reportFits_iff {report : AgentIntegrityReportV1} {key : SigningKey}
    (hvalid : validateReport report = .ok ()) : ReportFits report key ↔
      report.unsignedSize + AgentIntegrityReportV1.signatureSize ≤ MAX_MESSAGE_BYTES := by
  constructor
  · rintro ⟨-, signed, hsigned, hlimit, -⟩
    rwa [encode_signed_length hsigned] at hlimit
  · intro hlimit
    have hexists : ∃ signed, signReport report key = .ok signed :=
      exists_signReport_iff.mpr ⟨hvalid, (Nat.le_add_right _ _).trans hlimit⟩
    obtain ⟨signed, hsigned⟩ := hexists
    rw [← encode_signed_length hsigned] at hlimit
    exact ⟨hvalid, signed, hsigned, hlimit, writeFrame_isOk_iff.mpr hlimit⟩

/-- What the collectors of a platform have made of the executable and of the game process. -/
structure CollectedBy (collected : Collected) (reading : ExecutableReading)
    (gameProcess : GameProcessSnapshot) : Prop where
  platform : reading.platform = collected.platform
  agentModules : reading.loadedModuleBasenames = collected.agentModules
  gameModules : gameProcess.loadedModuleBasenames = collected.gameModules
  executableBuildId : reading.executableBuildId = collected.executableBuildId

omit [Crates] in
theorem mem_observedGame {name : String}
    (h : name ∈ (observedGame state turn).loadedModuleBasenames) :
    name ∈ turn.gameProcess.loadedModuleBasenames := by
  unfold observedGame inspectGameProcessBound at h
  split_ifs at h
  · exact absurd h List.not_mem_nil
  · exact h

theorem challengeReportSize_le {collected : Collected} (hadmits : Admits state arrival launch)
    (hnonce : challenge.nonce.length ≤ 256) (hcaps : collected.CapsBytes)
    (hcollected : CollectedBy collected reading turn.gameProcess) :
    challengeReportSize state launch session turn challenge reading (observedGame state turn) +
      AgentIntegrityReportV1.signatureSize ≤ MAX_MESSAGE_BYTES := by
  obtain ⟨hagent, hgame⟩ := Collected.len_le hcaps
  have hplatform : len reading.platform ≤ 7 := by
    rw [hcollected.platform]
    exact collected.len_platform_le
  have hevidence := @evidenceSize_le state turn.agentProcessId reading (observedGame state turn)
    hplatform (fun name hname => hagent name (hcollected.agentModules ▸ hname))
    (fun name hname => hgame name (hcollected.gameModules ▸ mem_observedGame hname))
  have hsession := (len_pos_of_identifier hadmits.sessionId).2
  have hbuild := (len_pos_of_identifier hadmits.identifier_buildId).2
  have hversionSize := varintSize_le 1 1
  have hsessionSize := bodySize_le 2 (len launch.sessionId)
  have hsequenceSize := varintSize_le 3 session.sequence.toNat
  have hnonceSize := bodySize_le 4 challenge.nonce.length
  have htimeSize := varintSize_le 5 turn.after.toUInt64.toNat
  have hbuildSize := bodySize_le 6 (len launch.buildId)
  have hexecutableSize := bodySize_le 7 32
  have hpreviousSize := bodySize_le 9 32
  unfold challengeReportSize AgentIntegrityReportV1.signatureSize MAX_MESSAGE_BYTES
  omega

/-- The report of a challenge fits exactly when the sizes of its fields, of its observations and of
its signature sum up to the limit; they do where the collectors cap the bytes of names. -/
theorem assembledReport_fits_iff (hadmits : Admits state arrival launch) {turns : List Turn}
    (hvisit : (session, turn) ∈
      Transcript.visits (sessionTurn state launch) (openSession arrival launch) turns)
    {payload : Bytes} (hchallenge : decodeChallenge payload turn.after = .ok challenge)
    {collected : Collected} (hcollected : CollectedBy collected reading turn.gameProcess) :
    (ReportFits (assembledReport state launch session turn challenge reading) state.key ↔
      challengeReportSize state launch session turn challenge reading (observedGame state turn) +
        AgentIntegrityReportV1.signatureSize ≤ MAX_MESSAGE_BYTES) ∧
    (collected.CapsBytes →
      ReportFits (assembledReport state launch session turn challenge reading) state.key) := by
  obtain ⟨-, -, hshort, hlong, -⟩ := decodeChallenge_ok hchallenge
  have hvalid : validateReport (assembledReport state launch session turn challenge reading) =
      .ok () :=
    validateReport_assembledReport hadmits (sequence_ne_zero_of_visit hvisit) hshort hlong
  have hfits := @reportFits_iff _ _ state.key hvalid
  rw [unsignedSize_assembledReport] at hfits
  exact ⟨hfits, fun hcaps => hfits.mpr (challengeReportSize_le hadmits hlong hcaps hcollected)⟩

end

namespace Sample

/-- The memory maps of the Agent: its executable, an area without a file, and a library. -/
def agentMaps : String :=
  "55e0c0de0000-55e0c0de9000 r-xp 00000000 08:01 7 /opt/certael/certael-agent\n" ++
  "7f2a40000000-7f2a40020000 rw-p 00000000 00:00 0 \n" ++
  "7f2a51a00000-7f2a51b90000 r-xp 00028000 08:01 42 /usr/lib/libc.so.6\n"

/-- The memory maps of the game. -/
def gameMaps : String :=
  "55d3a1b00000-55d3a1b4f000 r-xp 00000000 08:01 9 /games/chess/chess.bin\n" ++
  "7f9e30000000-7f9e30190000 r-xp 00028000 08:01 42 /usr/lib/libc.so.6\n" ++
  "7f9e30400000-7f9e30460000 r-xp 00004000 08:01 51 /usr/lib/libvulkan.so.1\n"

/-- The game runs under the process id 9. -/
def playing : RuntimeState := { state with gameProcessId := 9 }

theorem playing_admits : Admits playing arrival launch :=
  ⟨admits.bundle, admits.registration, admits.files⟩

def linuxReading : ExecutableReading where
  contents := contents
  debuggerObserved := false
  platform := "linux"
  loadedModuleBasenames := ["certael-agent", "libc.so.6"]
  executableBuildId := none

def linuxTurn : Turn :=
  { challengeAt 1001 with
    executable := some linuxReading
    gameProcess :=
      { running := true, executableMatches := true, parentIsAgent := some true,
        loadedModuleBasenames := ["chess.bin", "libc.so.6", "libvulkan.so.1"],
        processIdentityStable := none } }

theorem modules_agentMaps : moduleBasenamesFromMaps agentMaps =
    linuxReading.loadedModuleBasenames := by
  unfold moduleBasenamesFromMaps
  rw [distinctNames_eq_self]
  all_goals decide +kernel

theorem modules_gameMaps : moduleBasenamesFromMaps gameMaps =
    linuxTurn.gameProcess.loadedModuleBasenames := by
  unfold moduleBasenamesFromMaps
  rw [distinctNames_eq_self]
  all_goals decide +kernel

end Sample

open Runtime.Sample in
theorem assembledReport_fits_sample :
    ReportFits (assembledReport playing launch opened linuxTurn challenge linuxReading)
      playing.key := by
  have hcollected : CollectedBy (.linux agentMaps gameMaps none) linuxReading
      linuxTurn.gameProcess :=
    ⟨rfl, modules_agentMaps.symm, modules_gameMaps.symm, rfl⟩
  have hvisit : (opened, linuxTurn) ∈
      Transcript.visits (sessionTurn playing launch) (openSession arrival launch) [linuxTurn] :=
    List.mem_cons_self ..
  exact (assembledReport_fits_iff playing_admits hvisit firstAccepted.decoded hcollected).2 trivial

/-! ## Names in another script

A character of three bytes is one unit. Windows hands out 96 modules of each process with names of
75 to 170 such characters, which all pass the filter. -/

namespace WideNames

/-- A text of so many characters of three bytes. -/
def wideName (n : ℕ) : String := String.ofList (List.replicate n (Char.ofNat 0x4E00))

def names : List String := (List.range 96).map fun i => wideName (75 + i)

def modules : List (List UInt16) := names.map Utf16.encode

def readingOf (modules : List String) : ExecutableReading where
  contents := Sample.contents
  debuggerObserved := false
  platform := "windows"
  loadedModuleBasenames := modules
  executableBuildId := none

def turnOf (modules : List String) : Turn :=
  { Sample.challengeAt 1001 with
    executable := some (readingOf modules)
    gameProcess :=
      { running := true, executableMatches := true, parentIsAgent := some true,
        loadedModuleBasenames := modules, processIdentityStable := none } }

theorem len_wideName (n : ℕ) : len (wideName n) = 3 * n := by
  have hthree : (String.utf8EncodeChar (Char.ofNat 0x4E00)).length = 3 := by decide
  rw [wideName, len_replicate, hthree, Nat.mul_comm]

theorem encode_wideName_length (n : ℕ) : (Utf16.encode (wideName n)).length = n := by
  have hone : (Utf16.encodeChar (Char.ofNat 0x4E00)).length = 1 := by decide
  simp [Utf16.encode, wideName, List.length_flatMap, hone]

theorem safeValue_wideName {n : ℕ} (hpos : 0 < n) (hshort : n ≤ 170) : safeValue (wideName n) := by
  have hlength := len_wideName n
  have hne : wideName n ≠ "" := by
    intro hempty
    rw [hempty] at hlength
    have hzero : len "" = 0 := rfl
    omega
  have hplain : isControl (Char.ofNat 0x4E00) = false := by decide
  have hcontrols : (wideName n).toList.any isControl = false := by
    simp [wideName, hplain]
  simp only [safeValue, bne_iff_ne, Bool.and_eq_true, decide_eq_true_eq, hcontrols, Bool.not_false,
    and_true]
  exact ⟨hne, by omega⟩

theorem nodup_names : names.Nodup := by
  apply List.Nodup.map _ List.nodup_range
  intro i j hij
  have hlengths := congrArg len hij
  rw [len_wideName, len_wideName] at hlengths
  omega

theorem perm_modules : (windowsProcessModules modules).Perm names := by
  have hkept : ((modules.take 1024).filter fun name => 0 < name.length && name.length < 256) =
      modules := by
    have hcount : modules.length ≤ 1024 := by
      simp [modules, names]
    rw [List.take_of_length_le hcount, List.filter_eq_self]
    intro name hname
    obtain ⟨text, htext, rfl⟩ := List.mem_map.mp hname
    obtain ⟨i, hi, rfl⟩ := List.mem_map.mp htext
    have hbound := List.mem_range.mp hi
    simp only [encode_wideName_length, Bool.and_eq_true, decide_eq_true_eq]
    omega
  have hdecoded : modules.map Utf16.decodeLossy = names := by
    rw [modules, List.map_map]
    calc
      _ = names.map id := List.map_congr_left fun name _ => Utf16.decodeLossy_encode name
      _ = names := List.map_id names
  unfold windowsProcessModules
  rw [hkept, hdecoded]
  exact distinctNames_perm nodup_names

theorem modulesSize_modules (code : String) :
    modulesSize code (windowsProcessModules modules) =
      ((List.range 96).map fun i => entrySize code (3 * (75 + i))).sum := by
  have hsafe : ∀ name ∈ windowsProcessModules modules, safeValue name := by
    intro name hname
    obtain ⟨i, hi, rfl⟩ := List.mem_map.mp (perm_modules.mem_iff.mp hname)
    have hbound := List.mem_range.mp hi
    exact safeValue_wideName (by omega) (by omega)
  have hcount : (windowsProcessModules modules).length ≤ 96 := by
    rw [perm_modules.length_eq]
    simp [names]
  unfold modulesSize
  rw [List.filter_eq_self.mpr hsafe, List.take_of_length_le hcount,
    (perm_modules.map fun name => entrySize code (len name)).sum_eq, names, List.map_map]
  simp only [Function.comp_def, len_wideName]

theorem collectedBy (modules : List (List UInt16)) :
    CollectedBy (.windows modules modules) (readingOf (windowsProcessModules modules))
      (turnOf (windowsProcessModules modules)).gameProcess :=
  ⟨rfl, rfl, rfl, rfl⟩

theorem visited (modules : List String) : (Sample.opened, turnOf modules) ∈
    Transcript.visits (sessionTurn Sample.playing Sample.launch) (openSession Sample.arrival Sample.launch)
      [turnOf modules] :=
  List.mem_cons_self ..

theorem overflow {modules : List String} (hagent : modulesSize "agent.module" modules = 37200)
    (hgame : modulesSize "game.module" modules = 37104) :
    MAX_MESSAGE_BYTES < challengeReportSize Sample.playing Sample.launch Sample.opened (turnOf modules)
      Sample.challenge (readingOf modules) (observedGame Sample.playing (turnOf modules)) +
        AgentIntegrityReportV1.signatureSize := by
  have hreading : (readingOf modules).loadedModuleBasenames = modules := rfl
  have hobserved : (observedGame Sample.playing (turnOf modules)).loadedModuleBasenames = modules := rfl
  unfold challengeReportSize evidenceSize MAX_MESSAGE_BYTES
  rw [hreading, hobserved, hagent, hgame]
  omega

end WideNames

open WideNames in
/-- The report about these modules is too large to be signed. -/
theorem not_assembledReport_fits : ¬ ∀ [Crates] (state : RuntimeState) (arrival : Arrival)
    (launch : BoundAgentLaunch) (turns : List Turn) (session : Session) (turn : Turn)
    (payload : Bytes) (challenge : AgentReportChallengeV1) (reading : ExecutableReading)
    (collected : Collected), Admits state arrival launch →
      (session, turn) ∈
        Transcript.visits (sessionTurn state launch) (openSession arrival launch) turns →
      decodeChallenge payload turn.after = .ok challenge →
      challenge.agentSessionId = launch.sessionId →
      CollectedBy collected reading turn.gameProcess →
      ReportFits (assembledReport state launch session turn challenge reading) state.key := by
  intro h
  have hagent : modulesSize "agent.module" (windowsProcessModules modules) = 37200 := by
    rw [modulesSize_modules]
    decide +kernel
  have hgame : modulesSize "game.module" (windowsProcessModules modules) = 37104 := by
    rw [modulesSize_modules]
    decide +kernel
  have hfits := h Sample.playing Sample.arrival Sample.launch _ Sample.opened _
    (encode Sample.challenge) Sample.challenge _ _ Sample.playing_admits (visited _)
    Sample.firstAccepted.decoded rfl (collectedBy modules)
  have hlimit := (reportFits_iff hfits.1).mp hfits
  rw [unsignedSize_assembledReport] at hlimit
  exact absurd hlimit (not_le.mpr (overflow hagent hgame))

end CertaelAgent.Runtime
