import CertaelAgent.Agent.RegisteredExecutables

/-!
# Finding the file of a repair

The validator accepts a repair path that names a registered file once backslashes are read as
slashes and letters in lower case; the launcher looks the file up with the case of letters ignored
only. The two agree on a path that has its backslashes where the entry has them.
-/

namespace CertaelAgent.Agent

open ProtoWire Protocol Platform Files Anyhow

/-- Where a path has backslashes. -/
def backslashes (value : String) : List Bool := value.toList.map (· == '\\')

theorem toLower_eq_of_identity (c : Char) : c.toLower =
    if c = '\\' then '\\' else if c.toLower = '\\' then '/' else c.toLower := by
  split_ifs with hc hlower
  · rw [hc]
    decide
  · exact absurd ((toLower_eq_iff (.inr rfl)).mp hlower) hc
  · rfl

theorem map_toLower_eq_zipWith (chars : List Char) : chars.map Char.toLower =
    List.zipWith (fun c backslash => if backslash then '\\' else c)
      ((chars.map Char.toLower).map fun c => if c = '\\' then '/' else c)
      (chars.map (· == '\\')) := by
  induction chars with
  | nil => rfl
  | cons c chars ih =>
    simp only [List.map_cons, List.zipWith_cons_cons, ← ih, List.cons.injEq, and_true, beq_iff_eq]
    exact toLower_eq_of_identity c

theorem map_backslash_toLower (chars : List Char) :
    (chars.map Char.toLower).map (· == '\\') = chars.map (· == '\\') := by
  rw [List.map_map]
  apply List.map_congr_left
  intro c _
  rw [Function.comp_apply, Bool.eq_iff_iff, beq_iff_eq, beq_iff_eq]
  exact toLower_eq_iff (.inr rfl)

/-- Two paths agree up to the case of letters if they have one identity and their backslashes at
the same places. -/
theorem eqIgnoreAsciiCase_iff {a b : String} :
    eqIgnoreAsciiCase a b ↔ pathIdentity a = pathIdentity b ∧ backslashes a = backslashes b := by
  constructor
  · intro h
    refine ⟨pathIdentity_of_eqIgnoreAsciiCase h, ?_⟩
    unfold backslashes
    rw [← map_backslash_toLower, map_toLower_of_eqIgnoreAsciiCase h, map_backslash_toLower]
  · rintro ⟨hidentity, hbackslashes⟩
    rw [pathIdentity_eq, pathIdentity_eq] at hidentity
    have hchars := congrArg String.toList hidentity
    simp only [String.toList_ofList] at hchars
    unfold backslashes at hbackslashes
    unfold eqIgnoreAsciiCase toAsciiLowercase
    rw [beq_iff_eq, map_toLower_eq_zipWith a.toList, map_toLower_eq_zipWith b.toList, hchars,
      hbackslashes]

/-- The lookup finds the entry that the validator means, and no other entry has its identity. -/
def FindsRepair (claims : GameRegistrationClaimsV1) : Prop :=
  ∃ file, registeredFile claims claims.repairExecutableRelativePath = some file ∧
    pathIdentity file.relativePath = pathIdentity claims.repairExecutableRelativePath ∧
    ∀ other ∈ claims.registeredFiles,
      pathIdentity other.relativePath = pathIdentity claims.repairExecutableRelativePath →
        other = file

/-- The registered spelling of the repair path has backslashes where the repair path has them. -/
def SameBackslashes (claims : GameRegistrationClaimsV1) : Prop :=
  ∀ file ∈ claims.registeredFiles,
    pathIdentity file.relativePath = pathIdentity claims.repairExecutableRelativePath →
      backslashes file.relativePath = backslashes claims.repairExecutableRelativePath

section

variable [Crates] {rules : PathRules} {fs : FileSystem} {registered : RegisteredGame}
  {claims : GameRegistrationClaimsV1}

/-- The refusal of a repair whose path the lookup does not find. -/
def unbound : Error := .message "registered recovery executable has no signed file binding"

omit [Crates] in
theorem findsRepair_iff (haccepted : claims.Accepted)
    (hrepair : claims.repairExecutableRelativePath ≠ "") :
    FindsRepair claims ↔ SameBackslashes claims := by
  constructor
  · rintro ⟨file, hfound, -, hunique⟩ other hother hidentity
    obtain rfl := hunique other hother hidentity
    exact (eqIgnoreAsciiCase_iff.mp (mem_of_registeredFile hfound).2).2
  · intro h
    obtain ⟨-, file, hfile, hidentity⟩ := haccepted.repair hrepair
    have hcase : eqIgnoreAsciiCase file.relativePath claims.repairExecutableRelativePath :=
      eqIgnoreAsciiCase_iff.mpr ⟨hidentity, h file hfile hidentity⟩
    refine ⟨file, registeredFile_eq_some haccepted hfile hcase, hidentity, ?_⟩
    intro other hother hsame
    exact eq_of_pathIdentity haccepted hother hfile (hsame.trans hidentity.symm)

theorem runRegisteredRepair_unbound_iff
    (hrepair : registered.claims.repairExecutableRelativePath ≠ "") :
    runRegisteredRepair rules fs registered = .error unbound ↔
      registeredFile registered.claims registered.claims.repairExecutableRelativePath = none := by
  unfold runRegisteredRepair verifyRegisteredFile
  rw [if_neg hrepair]
  cases hfound : registeredFile registered.claims
      registered.claims.repairExecutableRelativePath with
  | none => exact iff_of_true rfl rfl
  | some file =>
    refine iff_of_false ?_ (Option.some_ne_none file)
    dsimp only
    cases Platform.verifyBuildManifest rules fs registered.gameRoot
        (fileManifest registered.claims file) with
    | error e => simp [unbound]
    | ok mismatches =>
      simp only [context_ok, Except.ok_bind]
      by_cases hempty : mismatches = []
      · simp only [hempty, ne_eq, not_true_eq_false, if_false, Except.ok_bind, spawn]
        cases fs.contentAt (join rules registered.gameRoot
            registered.claims.repairExecutableRelativePath) with
        | none => simp [unbound, io, Except.ofOption]
        | some content => simp [io, Except.ofOption, pure, Except.pure]
      · simp [hempty, bail, unbound]

/-- For an accepted repair path the entry that it names is found, and the repair is never refused
as unbound, exactly if the two spellings have their backslashes at the same places. -/
theorem repair_found_iff {nowUnix : Int64}
    (haccepted : validateGameRegistration claims nowUnix = .ok ())
    (hrepair : claims.repairExecutableRelativePath ≠ "") :
    (FindsRepair claims ∧ ∀ rules fs registered, registered.claims = claims →
      runRegisteredRepair rules fs registered ≠ .error unbound) ↔ SameBackslashes claims := by
  rw [← findsRepair_iff (accepted_of_validate haccepted) hrepair]
  constructor
  · exact And.left
  · intro hfinds
    refine ⟨hfinds, ?_⟩
    rintro rules fs registered rfl hrefused
    obtain ⟨file, hfound, -⟩ := hfinds
    rw [runRegisteredRepair_unbound_iff hrepair, hfound] at hrefused
    exact absurd hrefused (Option.some_ne_none file)

end

open Spellings SampleBuild in
theorem repair_found_sample : FindsRepair (recoveryFor "bin/chess" "Fix.bin") := by
  have haccepted : validateGameRegistration (recoveryFor "bin/chess" "Fix.bin") 1000 = .ok () := by
    decide +kernel
  have hsame : SameBackslashes (recoveryFor "bin/chess" "Fix.bin") := by
    intro file hfile hidentity
    rcases List.mem_pair.mp hfile with rfl | rfl
    · exact absurd hidentity (by decide +kernel)
    · decide +kernel
  exact ((repair_found_iff haccepted (by decide)).mpr hsame).1

open Spellings SampleBuild in
/-- A repair path with a backslash names a registered file and is refused as unbound. -/
theorem repair_not_found :
    validateGameRegistration (recoveryFor "bin/chess" "bin\\chess") 1000 = .ok () ∧
      ¬ FindsRepair (recoveryFor "bin/chess" "bin\\chess") ∧
      runRegisteredRepair Sample.unix respelledTree
        ⟨recoveryFor "bin/chess" "bin\\chess", ["bin", "chess"], []⟩ = .error unbound := by
  have hnone : registeredFile (recoveryFor "bin/chess" "bin\\chess") "bin\\chess" = none := by
    decide +kernel
  refine ⟨by decide +kernel, ?_, ?_⟩
  · rintro ⟨file, hfound, -⟩
    exact absurd (hfound.symm.trans hnone) (Option.some_ne_none file)
  · exact (runRegisteredRepair_unbound_iff (by decide)).mpr hnone

end CertaelAgent.Agent
