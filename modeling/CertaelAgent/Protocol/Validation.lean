import CertaelAgent.Foundation.Results
import CertaelAgent.Protocol.Crates
import CertaelAgent.Protocol.Messages

/-!
# Field checks and claim validators

The predicates and validators of the protocol crate, in the order the source applies them.
Times are 64-bit integers and their arithmetic wraps, as in the release build.
-/

namespace CertaelAgent.Protocol

open ProtoWire

def PROTOCOL_VERSION : UInt32 := 1

def MAX_MESSAGE_BYTES : ℕ := 64 * 1024

inductive ProtocolError
  | tooLarge
  | empty
  | launchBundleComponent (component : String) (source : ProtocolError)
  | invalidSignature
  | invalidField (field : String)
  | decode
  | expired
  | unknownKey
  | nonCanonical
deriving DecidableEq, Repr

def ProtocolError.message : ProtocolError → String
  | .tooLarge => "message exceeds the 64 KiB protocol limit"
  | .empty => "message is empty"
  | .launchBundleComponent component source =>
    "invalid launch bundle component `" ++ component ++ "`: " ++ source.message
  | .invalidSignature => "invalid public key or signature"
  | .invalidField field => "invalid protocol field: " ++ field
  | .decode => "protobuf decode failed"
  | .expired => "signed object is expired or not yet valid"
  | .unknownKey => "unknown or revoked signing key"
  | .nonCanonical => "protobuf encoding is not canonical"

def isAsciiAlphanumeric (b : UInt8) : Bool :=
  (48 ≤ b && b ≤ 57) || (65 ≤ b && b ≤ 90) || (97 ≤ b && b ≤ 122)

/-- `str::len`, in bytes. -/
def len (value : String) : ℕ := value.utf8ByteSize

def identifier (value : String) : Bool :=
  value != "" && len value ≤ 128 &&
    (Field.utf8 value).all fun b => isAsciiAlphanumeric b || b == 46 || b == 95 || b == 45

def versionIdentifier (value : String) : Bool :=
  value != "" && len value ≤ 64 &&
    (Field.utf8 value).all fun b => isAsciiAlphanumeric b || b == 46 || b == 43 || b == 45

/-- The parts of a path between slashes and backslashes. -/
def pathParts (value : String) : List String :=
  (value.toList.splitOnP fun c => c == '/' || c == '\\').map String.ofList

def safeRelativePath (value : String) : Bool :=
  value != "" && len value ≤ 512 &&
    value.toList.head? != some '/' && value.toList.head? != some '\\' &&
    (Field.utf8 value)[1]? != some 58 &&
    (pathParts value).all fun part => part != "" && part != "." && part != ".."

def toAsciiLowercase (value : String) : String :=
  String.ofList (value.toList.map Char.toLower)

def decodeCanonical (M : Type) [Message M] (input : Bytes) : Except ProtocolError M :=
  if input.isEmpty then .error .empty
  else if MAX_MESSAGE_BYTES < input.length then .error .tooLarge
  else match decode (M := M) input with
    | none => .error .decode
    | some value => if encode value ≠ input then .error .nonCanonical else .ok value

/-- The input is the one encoding of the value, and has a size that messages may have. -/
def IsCanonical {M : Type} [Message M] (value : M) (input : Bytes) : Prop :=
  input = encode value ∧ input ≠ [] ∧ input.length ≤ MAX_MESSAGE_BYTES

theorem decodeCanonical_eq_ok_iff {M : Type} [Message M] {input : Bytes} {value : M} :
    decodeCanonical M input = .ok value ↔ IsCanonical value input := by
  unfold decodeCanonical IsCanonical
  constructor
  · intro h
    split_ifs at h with hempty hlarge
    cases hd : decode (M := M) input with
    | none => simp [hd] at h
    | some v =>
      simp only [hd] at h
      split_ifs at h with henc
      simp only [Except.ok.injEq] at h
      subst h
      exact ⟨(not_not.mp henc).symm, by simpa using hempty, by omega⟩
  · rintro ⟨rfl, hne, hlen⟩
    have hd : decode (M := M) (encode value) = some value :=
      decode_encode value (by unfold MAX_MESSAGE_BYTES at hlen; omega)
    rw [if_neg (by simpa using hne), if_neg (by omega), hd]
    simp

theorem decodeCanonical_ne_invalidField {M : Type} [Message M] (input : Bytes) (field : String) :
    decodeCanonical M input ≠ .error (.invalidField field) := by
  unfold decodeCanonical
  split_ifs
  · simp
  · simp
  · cases decode (M := M) input with
    | none => simp
    | some v => simp only; split_ifs <;> simp

theorem IsCanonical.unique {M : Type} [Message M] {v w : M} {input : Bytes}
    (hv : IsCanonical v input) (hw : IsCanonical w input) : v = w := by
  rw [← decodeCanonical_eq_ok_iff] at hv hw
  exact Except.ok.inj (hv.symm.trans hw)

/-- Discriminants of `AgentRequirementModeV1`: disabled, optional, required. -/
def isAgentRequirementMode (value : Int32) : Bool := value == 0 || value == 1 || value == 2

def validatePolicy (claims : AgentPolicyClaimsV1) (nowUnix : Int64) : Except ProtocolError Unit :=
  if claims.protocolVersion ≠ PROTOCOL_VERSION
      ∨ ¬ identifier claims.policyId
      ∨ ¬ identifier claims.tenantId
      ∨ ¬ identifier claims.gameId
      ∨ ¬ identifier claims.environmentId
      ∨ ¬ isAgentRequirementMode claims.requirementMode
      ∨ ¬ (5 ≤ claims.heartbeatSeconds ∧ claims.heartbeatSeconds ≤ 300)
      ∨ ¬ (15 ≤ claims.reportSeconds ∧ claims.reportSeconds ≤ 3600)
      ∨ claims.reportSeconds < claims.heartbeatSeconds
      ∨ 300 < claims.disconnectGraceSeconds
      ∨ ¬ versionIdentifier claims.minimumAgentVersion then
    .error (.invalidField "policy")
  else if claims.expiresAtUnix ≤ nowUnix then .error .expired
  else .ok ()

def validateLaunchGrant (claims : AgentLaunchGrantClaimsV1) (nowUnix : Int64) :
    Except ProtocolError Unit :=
  if claims.protocolVersion ≠ PROTOCOL_VERSION
      ∨ ¬ identifier claims.grantId
      ∨ ¬ identifier claims.tenantId
      ∨ ¬ identifier claims.gameId
      ∨ ¬ identifier claims.environmentId
      ∨ ¬ identifier claims.playerSubject
      ∨ ¬ identifier claims.matchId
      ∨ ¬ identifier claims.buildId
      ∨ ¬ identifier claims.authoritativeServerId
      ∨ claims.agentPublicKey.length ≠ 32
      ∨ claims.policyDigest.length ≠ 32
      ∨ claims.buildManifestDigest.length ≠ 32
      ∨ nowUnix + 30 < claims.issuedAtUnix
      ∨ claims.expiresAtUnix ≤ claims.issuedAtUnix
      ∨ 120 < claims.expiresAtUnix - claims.issuedAtUnix then
    .error (.invalidField "launch_grant")
  else if claims.expiresAtUnix ≤ nowUnix then .error .expired
  else .ok ()

/-- Walks the files with the set of lower-case paths seen so far. -/
def buildManifestFilesOk : List String → List ProtectedBuildFileV1 → Bool
  | _, [] => true
  | seen, file :: files =>
    safeRelativePath file.path && file.sha256.length == 32 &&
      !seen.contains (toAsciiLowercase file.path) &&
      buildManifestFilesOk (toAsciiLowercase file.path :: seen) files

theorem buildManifestFilesOk_iff {seen : List String} {files : List ProtectedBuildFileV1} :
    buildManifestFilesOk seen files = true ↔
      (∀ file ∈ files, safeRelativePath file.path ∧ file.sha256.length = 32) ∧
        (files.map fun file => toAsciiLowercase file.path).Nodup ∧
        ∀ file ∈ files, toAsciiLowercase file.path ∉ seen := by
  induction files generalizing seen with
  | nil => simp [buildManifestFilesOk]
  | cons file files ih =>
    simp only [buildManifestFilesOk, Bool.and_eq_true, beq_iff_eq, Bool.not_eq_true',
      List.contains_eq_mem, decide_eq_false_iff_not, ih]
    rw [List.forall_mem_cons, List.forall_mem_cons, List.map_cons, List.nodup_cons]
    simp only [List.mem_map, not_exists, not_and, List.mem_cons, not_or]
    constructor
    · rintro ⟨⟨⟨hpath, hdigest⟩, hnew⟩, hfiles, hdistinct, hunseen⟩
      exact ⟨⟨⟨hpath, hdigest⟩, hfiles⟩, ⟨fun other hother => (hunseen other hother).1, hdistinct⟩,
        hnew, fun other hother => (hunseen other hother).2⟩
    · rintro ⟨⟨⟨hpath, hdigest⟩, hfiles⟩, ⟨hother, hdistinct⟩, hnew, hunseen⟩
      exact ⟨⟨⟨hpath, hdigest⟩, hnew⟩, hfiles, hdistinct,
        fun other hmem => ⟨hother other hmem, hunseen other hmem⟩⟩

def validateBuildManifest (claims : BuildManifestClaimsV1) (nowUnix : Int64) :
    Except ProtocolError Unit :=
  if claims.protocolVersion ≠ PROTOCOL_VERSION
      ∨ ¬ identifier claims.manifestId
      ∨ ¬ identifier claims.tenantId
      ∨ ¬ identifier claims.gameId
      ∨ ¬ identifier claims.environmentId
      ∨ ¬ identifier claims.buildId
      ∨ claims.files = []
      ∨ 16384 < claims.files.length
      ∨ nowUnix + 30 < claims.notBeforeUnix
      ∨ claims.expiresAtUnix ≤ nowUnix
      ∨ claims.expiresAtUnix ≤ claims.notBeforeUnix
      ∨ ¬ versionIdentifier claims.coreSdkVersion
      ∨ ¬ identifier claims.engineAdapter
      ∨ ¬ versionIdentifier claims.engineAdapterVersion
      ∨ claims.coreCAbiVersion ≠ 1
      ∨ claims.actionProtocolVersion ≠ 1
      ∨ claims.agentProtocolVersion ≠ PROTOCOL_VERSION
      ∨ claims.agentProbeAbiVersion ≠ 1 then
    .error (.invalidField "build_manifest")
  else if ¬ buildManifestFilesOk [] claims.files then .error (.invalidField "build_manifest_file")
  else .ok ()

/-- The checks that `verify_revocation` makes before it looks at the signature. -/
def validateRevocation (claims : AgentRevocationClaimsV1) (nowUnix : Int64) :
    Except ProtocolError Unit :=
  if claims.protocolVersion ≠ PROTOCOL_VERSION
      ∨ ¬ identifier claims.tenantId
      ∨ ¬ identifier claims.gameId
      ∨ ¬ identifier claims.environmentId
      ∨ ¬ identifier claims.agentSessionId
      ∨ ¬ identifier claims.reason
      ∨ nowUnix + 30 < claims.revokedAtUnix
      ∨ claims.expiresAtUnix ≤ nowUnix
      ∨ 300 < claims.expiresAtUnix - claims.revokedAtUnix then
    .error (.invalidField "revocation")
  else .ok ()

def decodeChallenge (input : Bytes) (nowUnix : Int64) :
    Except ProtocolError AgentReportChallengeV1 := do
  let challenge ← decodeCanonical AgentReportChallengeV1 input
  if ¬ identifier challenge.agentSessionId
      ∨ challenge.nonce.length < 16
      ∨ 256 < challenge.nonce.length
      ∨ challenge.expiresAtUnix ≤ nowUnix
      ∨ nowUnix + 120 < challenge.expiresAtUnix then
    .error (.invalidField "challenge")
  else .ok challenge

/-- An accepted challenge is the one its bytes encode, names a session, carries a nonce of
bounded length and has not expired. -/
theorem decodeChallenge_ok {input : Bytes} {nowUnix : Int64} {challenge : AgentReportChallengeV1}
    (h : decodeChallenge input nowUnix = .ok challenge) :
    IsCanonical challenge input ∧ identifier challenge.agentSessionId ∧
      16 ≤ challenge.nonce.length ∧ challenge.nonce.length ≤ 256 ∧
      nowUnix < challenge.expiresAtUnix := by
  obtain ⟨c, hc, h⟩ := Except.bind_eq_ok_iff.mp h
  split_ifs at h with hbad
  simp only [Except.ok.injEq] at h
  subst h
  simp only [not_or, not_not, not_lt, Int64.not_le] at hbad
  exact ⟨decodeCanonical_eq_ok_iff.mp hc, hbad.1, hbad.2.1, hbad.2.2.1, hbad.2.2.2.1⟩

theorem len_pos_of_identifier {value : String} (h : identifier value) :
    value ≠ "" ∧ len value ≤ 128 := by
  simp only [identifier, Bool.and_eq_true, bne_iff_ne, decide_eq_true_eq] at h
  exact h.1

end CertaelAgent.Protocol
