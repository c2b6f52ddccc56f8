import CertaelAgent.Platform.BuildCheck
import CertaelAgent.Platform.Joining
import CertaelAgent.Runtime.Admission

/-!
# The manifest of an admitted launch

The manifest inside a launch bundle is accepted by the protocol crate, turned into the platform's
form, and checked there once more. The second check never fails for a manifest that the first one
has accepted, and no path of it leads out of the game. So a launch with an accepted bundle is
admitted exactly when every file of its manifest is intact below the game root.
-/

namespace CertaelAgent.Runtime

open ProtoWire Protocol Files Agent

/-- What the rest of the program relies on in an accepted build manifest. -/
structure AcceptedManifest (claims : BuildManifestClaimsV1) : Prop where
  buildId : identifier claims.buildId
  count : claims.files ≠ [] ∧ claims.files.length ≤ 16384
  files : ∀ file ∈ claims.files, Protocol.safeRelativePath file.path ∧ file.sha256.length = 32
  distinct : (claims.files.map fun file => toAsciiLowercase file.path).Nodup

theorem acceptedManifest_of_validate {claims : BuildManifestClaimsV1} {nowUnix : Int64}
    (h : validateBuildManifest claims nowUnix = .ok ()) : AcceptedManifest claims := by
  unfold validateBuildManifest at h
  split_ifs at h with hfields hfiles
  simp only [not_or, not_not, not_lt] at hfields hfiles
  obtain ⟨-, -, -, -, -, hbuildId, hnonempty, hcount, -⟩ := hfields
  obtain ⟨hentries, hdistinct, -⟩ := buildManifestFilesOk_iff.mp hfiles
  exact ⟨hbuildId, ⟨hnonempty, hcount⟩, hentries, hdistinct⟩

theorem wellFormed_platformManifest {claims : BuildManifestClaimsV1}
    (haccepted : AcceptedManifest claims) (rules : Platform.PathRules) :
    WellFormed rules (platformManifest claims) where
  buildId := len_pos_of_identifier haccepted.buildId
  count := by
    simp only [platformManifest, ne_eq, List.map_eq_nil_iff, List.length_map]
    exact haccepted.count
  paths := by
    intro entry hentry
    obtain ⟨file, hfile, rfl⟩ := List.mem_map.mp hentry
    exact Platform.PathRules.safeRelativePath_of_safe (haccepted.files file hfile).1
  digests := by
    intro entry hentry
    obtain ⟨file, hfile, rfl⟩ := List.mem_map.mp hentry
    refine ⟨?_, Hex.all_isDigit_encode _⟩
    unfold len
    rw [Hex.utf8ByteSize_encode, (haccepted.files file hfile).2]
  distinct := by
    have hlower : (claims.files.map fun file => toAsciiLowercase file.path) =
        (claims.files.map ProtectedBuildFileV1.path).map toAsciiLowercase := by
      rw [List.map_map]
      rfl
    have hdistinct := haccepted.distinct
    rw [hlower] at hdistinct
    have hpaths : (platformManifest claims).files.map Platform.ProtectedBuildFile.path =
        claims.files.map ProtectedBuildFileV1.path := by
      simp only [platformManifest, List.map_map]
      rfl
    rw [hpaths]
    exact List.Nodup.of_map toAsciiLowercase hdistinct

/-- An accepted build manifest passes the platform's check of manifests under any rules for paths
and in any tree; and a path of it, joined to any root, has the components of the root followed by
names only. Where slashes are the only separators this is so for the texts. -/
theorem admitted_manifest_checkable [Crates] {claims : BuildManifestClaimsV1} {nowUnix : Int64}
    (haccepted : validateBuildManifest claims nowUnix = .ok ()) (rules : Platform.PathRules) :
    WellFormed rules (platformManifest claims) ∧
    (∀ (fs : FileSystem) (root canonicalRoot : Path), fs.canonicalize root = some canonicalRoot →
      fs.Directory canonicalRoot → ¬ CalledInvalid (Platform.verifyBuildManifest rules fs root
        (platformManifest claims))) ∧
    ∀ file ∈ claims.files, (∀ name ∈ rules.pieces file.path, Ordinary name) ∧
      (∀ root, rules.join root file.path = root ++ (rules.pieces file.path).map .normal) ∧
      (rules.backslash = false → ∀ root, rules.components (Platform.PathRules.joinText root
        file.path) = rules.components root ++ (rules.pieces file.path).map .normal) := by
  have haccepted := acceptedManifest_of_validate haccepted
  have hwellFormed := wellFormed_platformManifest haccepted rules
  refine ⟨hwellFormed, ?_, ?_⟩
  · intro fs root canonicalRoot hroot hdirectory
    exact not_calledInvalid_of_wellFormed hroot hdirectory hwellFormed
  · intro file hfile
    have hsafe := (haccepted.files file hfile).1
    refine ⟨Platform.PathRules.ordinary_of_mem_pieces hsafe, ?_, ?_⟩
    · exact Platform.PathRules.join_of_safe hsafe
    · intro hslash root
      exact Platform.PathRules.components_joinText hslash hsafe root

theorem admitted_manifest_sample :
    WellFormed Agent.Sample.unix (platformManifest Sample.manifest) :=
  (admitted_manifest_checkable Sample.evidence_authentic.manifestValid Agent.Sample.unix).1

section

variable [Crates] {state : RuntimeState} {arrival : Arrival} {launch : BoundAgentLaunch}

theorem acceptedManifest_of_bundle {payload : Bytes}
    (hverify : verifyLaunchBundle payload state.trust arrival.verifiedAt
      (Crates.verifyingKey state.key) state.hello.buildId CARGO_PKG_VERSION = .ok launch) :
    AcceptedManifest launch.buildManifest := by
  obtain ⟨evidence, hauth, _, _, rfl⟩ := verifyLaunchBundle_eq_ok_iff.mp hverify
  exact acceptedManifest_of_validate hauth.manifestValid

/-- Where the files are checked by the platform, a launch with an accepted bundle is admitted
exactly if it is the registered game's and every file of its manifest is intact. -/
theorem admits_iff_intact {rules : Platform.PathRules} {fs : FileSystem}
    {root canonicalRoot : Path} {payload : Bytes}
    (hcheck : arrival.verifyFiles = Platform.verifyBuildManifest rules fs root)
    (hroot : fs.canonicalize root = some canonicalRoot) (hdirectory : fs.Directory canonicalRoot)
    (hreceived : arrival.received = .frame ⟨.launchGrant, payload⟩)
    (hverify : verifyLaunchBundle payload state.trust arrival.verifiedAt
      (Crates.verifyingKey state.key) state.hello.buildId CARGO_PKG_VERSION = .ok launch) :
    Admits state arrival launch ↔
      (∀ registration ∈ state.registration, registrationMatches registration launch) ∧
      ∀ expected ∈ (platformManifest launch.buildManifest).files, Platform.Intact fs canonicalRoot
        (canonicalRoot ++ rules.names expected.path) expected := by
  have hwellFormed := wellFormed_platformManifest (acceptedManifest_of_bundle hverify) rules
  rw [← Platform.verifyBuildManifest_eq_nil_iff hwellFormed hroot hdirectory, ← hcheck]
  constructor
  · intro hadmits
    exact ⟨hadmits.registration, hadmits.files⟩
  · rintro ⟨hregistration, hfiles⟩
    exact ⟨⟨payload, hreceived, hverify⟩, hregistration, hfiles⟩

end

end CertaelAgent.Runtime
