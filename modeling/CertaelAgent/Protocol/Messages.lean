import CertaelAgent.Foundation.Schema

/-!
# Agent protocol messages

The records of `certael.agent.v1` with the field numbers and kinds their `prost` attributes
give them. Encoding and decoding are those of the wire format; a record's schema lists its
fields in tag order, which is the order they are written in.
-/

namespace CertaelAgent.Protocol

open ProtoWire

structure AgentPolicyClaimsV1 where
  protocolVersion : UInt32
  policyId : String
  gameId : String
  environmentId : String
  requirementMode : Int32
  heartbeatSeconds : UInt32
  reportSeconds : UInt32
  disconnectGraceSeconds : UInt32
  minimumAgentVersion : String
  expiresAtUnix : Int64
  tenantId : String
deriving DecidableEq, Repr

instance : Message AgentPolicyClaimsV1 where
  schema := [(1, .uint32), (2, .string), (3, .string), (4, .string), (5, .enumeration),
    (6, .uint32), (7, .uint32), (8, .uint32), (9, .string), (10, .int64), (11, .string)]
  wellFormed := by decide
  toRow m := (m.protocolVersion, m.policyId, m.gameId, m.environmentId, m.requirementMode,
    m.heartbeatSeconds, m.reportSeconds, m.disconnectGraceSeconds, m.minimumAgentVersion,
    m.expiresAtUnix, m.tenantId, ())
  ofRow
    | (protocolVersion, policyId, gameId, environmentId, requirementMode, heartbeatSeconds,
        reportSeconds, disconnectGraceSeconds, minimumAgentVersion, expiresAtUnix, tenantId, ()) =>
      { protocolVersion, policyId, gameId, environmentId, requirementMode, heartbeatSeconds,
        reportSeconds, disconnectGraceSeconds, minimumAgentVersion, expiresAtUnix, tenantId }
  ofRow_toRow _ := rfl

structure AgentLaunchGrantClaimsV1 where
  protocolVersion : UInt32
  grantId : String
  tenantId : String
  gameId : String
  environmentId : String
  playerSubject : String
  matchId : String
  buildId : String
  agentPublicKey : Bytes
  issuedAtUnix : Int64
  expiresAtUnix : Int64
  policyDigest : Bytes
  authoritativeServerId : String
  buildManifestDigest : Bytes
deriving DecidableEq, Repr

instance : Message AgentLaunchGrantClaimsV1 where
  schema := [(1, .uint32), (2, .string), (3, .string), (4, .string), (5, .string), (6, .string),
    (7, .string), (8, .string), (9, .bytes), (10, .int64), (11, .int64), (12, .bytes),
    (13, .string), (14, .bytes)]
  wellFormed := by decide
  toRow m := (m.protocolVersion, m.grantId, m.tenantId, m.gameId, m.environmentId,
    m.playerSubject, m.matchId, m.buildId, m.agentPublicKey, m.issuedAtUnix, m.expiresAtUnix,
    m.policyDigest, m.authoritativeServerId, m.buildManifestDigest, ())
  ofRow
    | (protocolVersion, grantId, tenantId, gameId, environmentId, playerSubject, matchId, buildId,
        agentPublicKey, issuedAtUnix, expiresAtUnix, policyDigest, authoritativeServerId,
        buildManifestDigest, ()) =>
      { protocolVersion, grantId, tenantId, gameId, environmentId, playerSubject, matchId,
        buildId, agentPublicKey, issuedAtUnix, expiresAtUnix, policyDigest,
        authoritativeServerId, buildManifestDigest }
  ofRow_toRow _ := rfl

structure AgentHelloV1 where
  protocolVersion : UInt32
  agentVersion : String
  agentPublicKey : Bytes
  buildId : String
  executableSha256 : Bytes
deriving DecidableEq, Repr

instance : Message AgentHelloV1 where
  schema := [(1, .uint32), (2, .string), (3, .bytes), (4, .string), (5, .bytes)]
  wellFormed := by decide
  toRow m := (m.protocolVersion, m.agentVersion, m.agentPublicKey, m.buildId,
    m.executableSha256, ())
  ofRow
    | (protocolVersion, agentVersion, agentPublicKey, buildId, executableSha256, ()) =>
      { protocolVersion, agentVersion, agentPublicKey, buildId, executableSha256 }
  ofRow_toRow _ := rfl

/-- The shape shared by every signed object: encoded claims, a signature over the kind's domain
followed by those bytes, and the id of the key that made it. -/
structure SignedEnvelope where
  claims : Bytes
  signature : Bytes
  keyId : String
deriving DecidableEq, Repr

instance : Message SignedEnvelope where
  schema := [(1, .bytes), (2, .bytes), (3, .string)]
  wellFormed := by decide
  toRow m := (m.claims, m.signature, m.keyId, ())
  ofRow
    | (claims, signature, keyId, ()) => { claims, signature, keyId }
  ofRow_toRow _ := rfl

abbrev SignedAgentPolicyV1 := SignedEnvelope
abbrev SignedAgentLaunchGrantV1 := SignedEnvelope
abbrev SignedBuildManifestV1 := SignedEnvelope
abbrev SignedAgentRevocationV1 := SignedEnvelope
abbrev SignedGameRegistrationV1 := SignedEnvelope
abbrev SignedBrandingManifestV1 := SignedEnvelope
abbrev SignedCompatibilityManifestV1 := SignedEnvelope

structure AgentLaunchBundleV1 where
  signedPolicy : Bytes
  signedLaunchGrant : Bytes
  signedBuildManifest : Bytes
deriving DecidableEq, Repr

instance : Message AgentLaunchBundleV1 where
  schema := [(1, .bytes), (2, .bytes), (3, .bytes)]
  wellFormed := by decide
  toRow m := (m.signedPolicy, m.signedLaunchGrant, m.signedBuildManifest, ())
  ofRow
    | (signedPolicy, signedLaunchGrant, signedBuildManifest, ()) =>
      { signedPolicy, signedLaunchGrant, signedBuildManifest }
  ofRow_toRow _ := rfl

structure ProtectedBuildFileV1 where
  path : String
  size : UInt64
  sha256 : Bytes
deriving DecidableEq, Repr

instance : Message ProtectedBuildFileV1 where
  schema := [(1, .string), (2, .uint64), (3, .bytes)]
  wellFormed := by decide
  toRow m := (m.path, m.size, m.sha256, ())
  ofRow
    | (path, size, sha256, ()) => { path, size, sha256 }
  ofRow_toRow _ := rfl

structure BuildManifestClaimsV1 where
  protocolVersion : UInt32
  manifestId : String
  tenantId : String
  gameId : String
  environmentId : String
  buildId : String
  files : List ProtectedBuildFileV1
  notBeforeUnix : Int64
  expiresAtUnix : Int64
  coreSdkVersion : String
  engineAdapter : String
  engineAdapterVersion : String
  coreCAbiVersion : UInt32
  actionProtocolVersion : UInt32
  agentProtocolVersion : UInt32
  agentProbeAbiVersion : UInt32
deriving DecidableEq, Repr

instance : Message BuildManifestClaimsV1 where
  schema := [(1, .uint32), (2, .string), (3, .string), (4, .string), (5, .string), (6, .string),
    (7, .repeatedMessage ProtectedBuildFileV1), (8, .int64), (9, .int64), (10, .string),
    (11, .string), (12, .string), (13, .uint32), (14, .uint32), (15, .uint32), (16, .uint32)]
  wellFormed := by decide
  toRow m := (m.protocolVersion, m.manifestId, m.tenantId, m.gameId, m.environmentId, m.buildId,
    m.files, m.notBeforeUnix, m.expiresAtUnix, m.coreSdkVersion, m.engineAdapter,
    m.engineAdapterVersion, m.coreCAbiVersion, m.actionProtocolVersion, m.agentProtocolVersion,
    m.agentProbeAbiVersion, ())
  ofRow
    | (protocolVersion, manifestId, tenantId, gameId, environmentId, buildId, files,
        notBeforeUnix, expiresAtUnix, coreSdkVersion, engineAdapter, engineAdapterVersion,
        coreCAbiVersion, actionProtocolVersion, agentProtocolVersion, agentProbeAbiVersion, ()) =>
      { protocolVersion, manifestId, tenantId, gameId, environmentId, buildId, files,
        notBeforeUnix, expiresAtUnix, coreSdkVersion, engineAdapter, engineAdapterVersion,
        coreCAbiVersion, actionProtocolVersion, agentProtocolVersion, agentProbeAbiVersion }
  ofRow_toRow _ := rfl

/-- What admission keeps of a verified bundle. -/
structure BoundAgentLaunch where
  sessionId : String
  tenantId : String
  gameId : String
  environmentId : String
  playerSubject : String
  matchId : String
  buildId : String
  authoritativeServerId : String
  buildManifest : BuildManifestClaimsV1
  buildManifestDigest : Bytes
  heartbeatSeconds : UInt32
  reportSeconds : UInt32
  disconnectGraceSeconds : UInt32
  policyExpiresAtUnix : Int64
  grantExpiresAtUnix : Int64
deriving DecidableEq, Repr

structure AgentReportChallengeV1 where
  agentSessionId : String
  nonce : Bytes
  expiresAtUnix : Int64
deriving DecidableEq, Repr

instance : Message AgentReportChallengeV1 where
  schema := [(1, .string), (2, .bytes), (3, .int64)]
  wellFormed := by decide
  toRow m := (m.agentSessionId, m.nonce, m.expiresAtUnix, ())
  ofRow
    | (agentSessionId, nonce, expiresAtUnix, ()) => { agentSessionId, nonce, expiresAtUnix }
  ofRow_toRow _ := rfl

structure IntegrityObservationV1 where
  code : String
  value : String
deriving DecidableEq, Repr

instance : Message IntegrityObservationV1 where
  schema := [(1, .string), (2, .string)]
  wellFormed := by decide
  toRow m := (m.code, m.value, ())
  ofRow
    | (code, value, ()) => { code, value }
  ofRow_toRow _ := rfl

structure AgentIntegrityReportV1 where
  protocolVersion : UInt32
  agentSessionId : String
  sequence : UInt64
  challengeNonce : Bytes
  observedAtUnix : Int64
  buildId : String
  executableSha256 : Bytes
  observations : List IntegrityObservationV1
  previousReportDigest : Bytes
  signature : Bytes
deriving DecidableEq, Repr

instance : Message AgentIntegrityReportV1 where
  schema := [(1, .uint32), (2, .string), (3, .uint64), (4, .bytes), (5, .int64), (6, .string),
    (7, .bytes), (8, .repeatedMessage IntegrityObservationV1), (9, .bytes), (10, .bytes)]
  wellFormed := by decide
  toRow m := (m.protocolVersion, m.agentSessionId, m.sequence, m.challengeNonce,
    m.observedAtUnix, m.buildId, m.executableSha256, m.observations, m.previousReportDigest,
    m.signature, ())
  ofRow
    | (protocolVersion, agentSessionId, sequence, challengeNonce, observedAtUnix, buildId,
        executableSha256, observations, previousReportDigest, signature, ()) =>
      { protocolVersion, agentSessionId, sequence, challengeNonce, observedAtUnix, buildId,
        executableSha256, observations, previousReportDigest, signature }
  ofRow_toRow _ := rfl

structure AgentHealthV1 where
  agentSessionId : String
  state : String
  lastReportAtUnix : Int64
  publicReasons : List String
deriving DecidableEq, Repr

instance : Message AgentHealthV1 where
  schema := [(1, .string), (2, .string), (3, .int64), (4, .repeatedString)]
  wellFormed := by decide
  toRow m := (m.agentSessionId, m.state, m.lastReportAtUnix, m.publicReasons, ())
  ofRow
    | (agentSessionId, state, lastReportAtUnix, publicReasons, ()) =>
      { agentSessionId, state, lastReportAtUnix, publicReasons }
  ofRow_toRow _ := rfl

structure AgentRevocationClaimsV1 where
  protocolVersion : UInt32
  tenantId : String
  gameId : String
  environmentId : String
  agentSessionId : String
  reason : String
  revokedAtUnix : Int64
  expiresAtUnix : Int64
deriving DecidableEq, Repr

instance : Message AgentRevocationClaimsV1 where
  schema := [(1, .uint32), (2, .string), (3, .string), (4, .string), (5, .string), (6, .string),
    (7, .int64), (8, .int64)]
  wellFormed := by decide
  toRow m := (m.protocolVersion, m.tenantId, m.gameId, m.environmentId, m.agentSessionId,
    m.reason, m.revokedAtUnix, m.expiresAtUnix, ())
  ofRow
    | (protocolVersion, tenantId, gameId, environmentId, agentSessionId, reason, revokedAtUnix,
        expiresAtUnix, ()) =>
      { protocolVersion, tenantId, gameId, environmentId, agentSessionId, reason, revokedAtUnix,
        expiresAtUnix }
  ofRow_toRow _ := rfl

structure RegisteredGameFileV1 where
  relativePath : String
  size : UInt64
  sha256 : Bytes
deriving DecidableEq, Repr

instance : Message RegisteredGameFileV1 where
  schema := [(1, .string), (2, .uint64), (3, .bytes)]
  wellFormed := by decide
  toRow m := (m.relativePath, m.size, m.sha256, ())
  ofRow
    | (relativePath, size, sha256, ()) => { relativePath, size, sha256 }
  ofRow_toRow _ := rfl

structure GameRegistrationClaimsV1 where
  protocolVersion : UInt32
  registrationId : String
  publisherId : String
  tenantId : String
  gameId : String
  environmentId : String
  executableRelativePath : String
  trustStoreSha256 : Bytes
  updateRootSha256 : Bytes
  updateMetadataUrl : String
  updateTargetsUrl : String
  updateChannel : String
  notBeforeUnix : Int64
  expiresAtUnix : Int64
  registeredFiles : List RegisteredGameFileV1
  repairExecutableRelativePath : String
  repairArguments : List String
  offlinePlayAllowed : Bool
  offlineArguments : List String
deriving DecidableEq, Repr

instance : Message GameRegistrationClaimsV1 where
  schema := [(1, .uint32), (2, .string), (3, .string), (4, .string), (5, .string), (6, .string),
    (7, .string), (8, .bytes), (9, .bytes), (10, .string), (11, .string), (12, .string),
    (13, .int64), (14, .int64), (15, .repeatedMessage RegisteredGameFileV1), (16, .string),
    (17, .repeatedString), (18, .bool), (19, .repeatedString)]
  wellFormed := by decide
  toRow m := (m.protocolVersion, m.registrationId, m.publisherId, m.tenantId, m.gameId,
    m.environmentId, m.executableRelativePath, m.trustStoreSha256, m.updateRootSha256,
    m.updateMetadataUrl, m.updateTargetsUrl, m.updateChannel, m.notBeforeUnix, m.expiresAtUnix,
    m.registeredFiles, m.repairExecutableRelativePath, m.repairArguments, m.offlinePlayAllowed,
    m.offlineArguments, ())
  ofRow
    | (protocolVersion, registrationId, publisherId, tenantId, gameId, environmentId,
        executableRelativePath, trustStoreSha256, updateRootSha256, updateMetadataUrl,
        updateTargetsUrl, updateChannel, notBeforeUnix, expiresAtUnix, registeredFiles,
        repairExecutableRelativePath, repairArguments, offlinePlayAllowed, offlineArguments,
        ()) =>
      { protocolVersion, registrationId, publisherId, tenantId, gameId, environmentId,
        executableRelativePath, trustStoreSha256, updateRootSha256, updateMetadataUrl,
        updateTargetsUrl, updateChannel, notBeforeUnix, expiresAtUnix, registeredFiles,
        repairExecutableRelativePath, repairArguments, offlinePlayAllowed, offlineArguments }
  ofRow_toRow _ := rfl

structure BrandingManifestClaimsV1 where
  protocolVersion : UInt32
  registrationId : String
  gameId : String
  displayName : String
  publisherName : String
  iconRelativePath : String
  iconSha256 : Bytes
  notBeforeUnix : Int64
  expiresAtUnix : Int64
  heroRelativePath : String
  heroSha256 : Bytes
deriving DecidableEq, Repr

instance : Message BrandingManifestClaimsV1 where
  schema := [(1, .uint32), (2, .string), (3, .string), (4, .string), (5, .string), (6, .string),
    (7, .bytes), (8, .int64), (9, .int64), (10, .string), (11, .bytes)]
  wellFormed := by decide
  toRow m := (m.protocolVersion, m.registrationId, m.gameId, m.displayName, m.publisherName,
    m.iconRelativePath, m.iconSha256, m.notBeforeUnix, m.expiresAtUnix, m.heroRelativePath,
    m.heroSha256, ())
  ofRow
    | (protocolVersion, registrationId, gameId, displayName, publisherName, iconRelativePath,
        iconSha256, notBeforeUnix, expiresAtUnix, heroRelativePath, heroSha256, ()) =>
      { protocolVersion, registrationId, gameId, displayName, publisherName, iconRelativePath,
        iconSha256, notBeforeUnix, expiresAtUnix, heroRelativePath, heroSha256 }
  ofRow_toRow _ := rfl

structure CompatibilityProductRuleV1 where
  product : Int32
  minimumSupportedVersion : String
  recommendedVersion : String
  minimumProtocolVersion : UInt32
  maximumProtocolVersion : UInt32
deriving DecidableEq, Repr

instance : Message CompatibilityProductRuleV1 where
  schema := [(1, .enumeration), (2, .string), (3, .string), (4, .uint32), (5, .uint32)]
  wellFormed := by decide
  toRow m := (m.product, m.minimumSupportedVersion, m.recommendedVersion,
    m.minimumProtocolVersion, m.maximumProtocolVersion, ())
  ofRow
    | (product, minimumSupportedVersion, recommendedVersion, minimumProtocolVersion,
        maximumProtocolVersion, ()) =>
      { product, minimumSupportedVersion, recommendedVersion, minimumProtocolVersion,
        maximumProtocolVersion }
  ofRow_toRow _ := rfl

structure CompatibilityRevocationV1 where
  product : Int32
  version : String
  effectiveAtUnix : Int64
  reason : String
deriving DecidableEq, Repr

instance : Message CompatibilityRevocationV1 where
  schema := [(1, .enumeration), (2, .string), (3, .int64), (4, .string)]
  wellFormed := by decide
  toRow m := (m.product, m.version, m.effectiveAtUnix, m.reason, ())
  ofRow
    | (product, version, effectiveAtUnix, reason, ()) =>
      { product, version, effectiveAtUnix, reason }
  ofRow_toRow _ := rfl

structure CompatibilityManifestClaimsV1 where
  schemaVersion : UInt32
  revision : UInt64
  issuedAtUnix : Int64
  expiresAtUnix : Int64
  products : List CompatibilityProductRuleV1
  revocations : List CompatibilityRevocationV1
deriving DecidableEq, Repr

instance : Message CompatibilityManifestClaimsV1 where
  schema := [(1, .uint32), (2, .uint64), (3, .int64), (4, .int64),
    (5, .repeatedMessage CompatibilityProductRuleV1),
    (6, .repeatedMessage CompatibilityRevocationV1)]
  wellFormed := by decide
  toRow m := (m.schemaVersion, m.revision, m.issuedAtUnix, m.expiresAtUnix, m.products,
    m.revocations, ())
  ofRow
    | (schemaVersion, revision, issuedAtUnix, expiresAtUnix, products, revocations, ()) =>
      { schemaVersion, revision, issuedAtUnix, expiresAtUnix, products, revocations }
  ofRow_toRow _ := rfl

/-- The health message of the repository's own test: the zero timestamp takes no bytes. -/
example : encode (M := AgentHealthV1)
    { agentSessionId := "unbound", state := "rejected", lastReportAtUnix := 0,
      publicReasons := ["AGENT"] } =
    [10, 7, 117, 110, 98, 111, 117, 110, 100, 18, 8, 114, 101, 106, 101, 99, 116, 101, 100,
      34, 5, 65, 71, 69, 78, 84] := by
  decide +kernel

end CertaelAgent.Protocol
