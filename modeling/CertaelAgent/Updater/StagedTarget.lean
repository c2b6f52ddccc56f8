import CertaelAgent.Updater.RecordedTarget

/-!
# The staged target and what is installed of it

Staging leaves the signed target in a directory where another process may rewrite it. The digest
that the copy is checked against is the one of what `hash_file` has read from there, so what is
installed and recorded is what was read then. What is rewritten later is no part of it.
-/

namespace CertaelAgent.Updater

open ProtoWire Protocol Files Files.FileSystem Program

/-- The digest and the length of a target in signed metadata. -/
structure SignedTarget where
  length : ℕ
  sha256 : Bytes

section

variable [Crates] [SerdeJson]

/-- `staged` is what staging from the TUF repository gives. -/
def verifyStageAndInstall (staged : Except UpdateError Path) (install : InstallConfig)
    (now later : Moment) : FileProgram UpdateError Path := do
  let staged ← done staged
  let expectedSha256 ← hashFile staged
  installVerifiedTarget staged install expectedSha256 now later

/-- A call that installs a target it has staged. -/
inductive StagedCall
  | verifyStageAndInstall (staged : Path) (install : InstallConfig)
  | verifyStageAndInstallAutomatic (release : VerifiedReleaseTarget) (installRoot : PathBuf)
      (installedName expectedChannel expectedPlatform : String)

def StagedCall.program (now later : Moment) : StagedCall → FileProgram UpdateError Path
  | .verifyStageAndInstall staged install =>
    Updater.verifyStageAndInstall (.ok staged) install now later
  | .verifyStageAndInstallAutomatic release installRoot installedName expectedChannel
      expectedPlatform =>
    Updater.verifyStageAndInstallAutomatic (.ok release) installRoot installedName expectedChannel
      expectedPlatform now later

end

def StagedCall.staged : StagedCall → Path
  | .verifyStageAndInstall staged _ => staged
  | .verifyStageAndInstallAutomatic release .. => release.path

def StagedCall.install : StagedCall → InstallConfig
  | .verifyStageAndInstall _ install => install
  | .verifyStageAndInstallAutomatic release installRoot installedName .. =>
    { installRoot := installRoot, version := release.version, installedName := installedName }

/-! ## The digest of the staged file -/

/-- A read of the staged file finds a piece of the content that was saved. -/
def FindsSaved (staged : Path) (content : Bytes) (op : PieceOp) (fs : FileSystem) : Prop :=
  ∀ offset, op = .piece staged offset → ∀ found ∈ fs.contentAt staged,
    pieceAt found offset = pieceAt content offset

section

variable [Crates] {f root staged : Path} {fs : FileSystem} {content : Bytes} {fuel : ℕ}
  {mayFail : PieceOp → Bool} {I : FileSystem → Prop}

theorem inPieces_hashFile (staged : Path) : inPieces fuel (hashFile staged) =
    .call (.whole (.symlinkMetadata staged)) fun
      | none => fail .verification
      | some metadata =>
        if metadata.fileType = .file then readPieces staged fuel [] fun
          | none => fail .verification
          | some content => done (.ok (Hex.encode (Crates.sha256 content).1))
        else fail .verification := by
  change call _ _ = call _ _
  congr 1
  funext metadata
  cases metadata with
  | none => rfl
  | some metadata =>
    change inPieces fuel (require UpdateError.verification (metadata.fileType = .file) >>= _) = _
    unfold Program.require
    dsimp only
    split_ifs
    · change readPieces staged fuel [] _ = readPieces staged fuel [] _
      congr 1
      funext content
      cases content <;> rfl
    · rfl

/-- If every read finds a piece of the saved content, its digest is returned. -/
theorem rely_hashFile (hI : ∀ fs', Rewrites f fs fs' → I fs') :
    rely pieceDevice mayFail (Rewrites f) (FindsSaved staged content) I
      (fun r fs' => Rewrites f fs fs' ∧
        ∀ digest, r = .ok digest → digest = Hex.encode (Crates.sha256 content).1)
      (inPieces fuel (hashFile staged)) fs := by
  have herror : ∀ {e : UpdateError} {fs'}, Rewrites f fs fs' → Rewrites f fs fs' ∧ ∀ digest,
      (.error e : Except UpdateError String) = .ok digest →
        digest = Hex.encode (Crates.sha256 content).1 :=
    fun h => ⟨h, fun _ hok => by cases hok⟩
  rw [inPieces_hashFile]
  intro fs₁ hfs₁
  refine ⟨hI fs₁ hfs₁, fun _ => ⟨?_, fun _ fs₂ hfs₂ => herror (hfs₁.trans hfs₂)⟩⟩
  generalize (pieceDevice.perform (.whole (.symlinkMetadata staged)) fs₁).1 = metadata
  change rely _ _ _ _ _ _ _ fs₁
  cases metadata with
  | none => exact fun fs₂ hfs₂ => herror (hfs₁.trans hfs₂)
  | some metadata =>
    dsimp only
    split_ifs
    · apply rely_readPieces
      · exact fun fs₂ offset _ hfound => hfound offset rfl
      · intro fs₂ hfs₂
        refine ⟨hI fs₂ (hfs₁.trans hfs₂), ?_⟩
        rintro reply (rfl | rfl) fs₃ hfs₃
        · exact herror (hfs₁.trans (hfs₂.trans hfs₃))
        · exact ⟨hfs₁.trans (hfs₂.trans hfs₃), fun _ hok => (Except.ok.inj hok).symm⟩
    · exact fun fs₂ hfs₂ => herror (hfs₁.trans hfs₂)

end

/-! ## The calls -/

section

variable [Crates]

/-- What `save_target` leaves: a file with the length and the digest of the signed target. -/
structure Saved (target : SignedTarget) (staged f : Path) (content : Bytes) (fs : FileSystem) :
    Prop where
  leads : fs.canonicalize staged = some f
  file : ∃ mode, fs.node f = some (.file content mode)
  length : content.length = target.length
  digest : (Crates.sha256 content).1 = target.sha256

variable [SerdeJson] {call : StagedCall} {target : SignedTarget} {content : Bytes} {f root : Path}
  {fs : FileSystem} {held : Option Bytes} {fuel : ℕ} {mayFail : PieceOp → Bool}
  {turns : List (Turn FileSystem)} {now later : Moment} {config : InstallConfig} {staged : Path}

/-- The call beside a process that acts in these turns. -/
def StagedCall.outcome (call : StagedCall) (fuel : ℕ) (mayFail : PieceOp → Bool)
    (turns : List (Turn FileSystem)) (now later : Moment) (fs : FileSystem) :
    Outcome UpdateError Path FileSystem :=
  interleave pieceDevice mayFail (inPieces fuel (call.program now later)) turns fs

/-- Its operations, with the states in which they find the file system. -/
def StagedCall.steps (call : StagedCall) (fuel : ℕ) (mayFail : PieceOp → Bool)
    (turns : List (Turn FileSystem)) (now later : Moment) (fs : FileSystem) :
    List (PieceOp × FileSystem) :=
  issued pieceDevice mayFail (inPieces fuel (call.program now later)) turns fs

omit [Crates] [SerdeJson] in
theorem sha256_installSlot (config : InstallConfig) (bytes : Bytes) :
    (installSlot config (Hex.encode bytes)).sha256 = Hex.encode bytes := by
  have hlower : ∀ bytes, (Hex.encodeChars bytes).map Char.toLower = Hex.encodeChars bytes := by
    intro bytes
    induction bytes with
    | nil => rfl
    | cons b rest ih => simp [Hex.encodeChars, Hex.toLower_digit, ih]
  simp [installSlot, toAsciiLowercase, Hex.encode, hlower]

theorem satisfies_install (houtside : ¬ root <+: f)
    (hroot : madeRoot fs config.installRoot.names = some root)
    (hclear : Clear root config.version held fs)
    (hturns : ∀ turn ∈ turns, ∀ fs, Rewrites f fs (turn.other fs))
    (hfound : ∀ step ∈ issued pieceDevice mayFail (inPieces fuel (hashFile staged)) turns fs,
      FindsSaved staged content step.1 step.2) :
    (interleave pieceDevice mayFail (inPieces fuel (hashFile staged >>= fun digest =>
      installVerifiedTarget staged config digest now later)) turns fs).Satisfies
        (PendingOnly root held (Hex.encode (Crates.sha256 content).1))
        (fun r fs' => PendingOnly root held (Hex.encode (Crates.sha256 content).1) fs' ∧
          ∀ path, r = .ok path → Recorded root config (Hex.encode (Crates.sha256 content).1) path fs') ∧
      ∀ step ∈ issued pieceDevice mayFail (inPieces fuel (hashFile staged >>= fun digest =>
        installVerifiedTarget staged config digest now later)) turns fs,
          PendingOnly root held (Hex.encode (Crates.sha256 content).1) step.2 := by
  have hI : ∀ fs', Rewrites f fs fs' →
      PendingOnly root held (Hex.encode (Crates.sha256 content).1) fs' :=
    fun fs' hfs' => .inl (hclear.of_rewrites houtside hfs').2
  rw [inPieces_bind]
  apply rely_sound_bind (Rewrites.refl f) ?_ hturns hfound
  apply rely_mono (rely_hashFile hI)
  rintro r fs₁ ⟨hfs₁, hdigest⟩
  cases r with
  | error e => exact ⟨hI fs₁ hfs₁, fun _ hok => by cases hok⟩
  | ok digest =>
    obtain rfl := hdigest digest rfl
    exact beside_installVerifiedTarget (sha256_installSlot config _) houtside hroot hclear hfs₁

theorem satisfies_call (hsaved : Saved target call.staged f content fs)
    (hroot : madeRoot fs call.install.installRoot.names = some root) (houtside : ¬ root <+: f)
    (hclear : Clear root call.install.version held fs)
    (hturns : ∀ turn ∈ turns, ∀ fs, Rewrites f fs (turn.other fs))
    (hfound : ∀ step ∈ issued pieceDevice mayFail (inPieces fuel (hashFile call.staged)) turns fs,
      FindsSaved call.staged content step.1 step.2) (now later : Moment) :
    (call.outcome fuel mayFail turns now later fs).Satisfies
        (PendingOnly root held (Hex.encode target.sha256))
        (fun r fs' => PendingOnly root held (Hex.encode target.sha256) fs' ∧
          ∀ path, r = .ok path → Recorded root call.install (Hex.encode target.sha256) path fs') ∧
      ∀ step ∈ call.steps fuel mayFail turns now later fs,
        PendingOnly root held (Hex.encode target.sha256) step.2 := by
  rw [← hsaved.digest]
  unfold StagedCall.outcome StagedCall.steps
  cases call with
  | verifyStageAndInstall staged install => exact satisfies_install houtside hroot hclear hturns hfound
  | verifyStageAndInstallAutomatic release installRoot installedName channel platform =>
    change (interleave pieceDevice mayFail (inPieces fuel (require UpdateError.verification
      (release.channel = channel ∧ release.platform = platform) >>= _)) turns fs).Satisfies _ _ ∧
        ∀ step ∈ issued pieceDevice mayFail (inPieces fuel (require UpdateError.verification
          (release.channel = channel ∧ release.platform = platform) >>= _)) turns fs, _
    unfold Program.require
    split_ifs
    · exact satisfies_install houtside hroot hclear hturns hfound
    · -- The release is not for this channel and platform.
      apply rely_sound (Rewrites.refl f) (A := fun _ _ => True) ?_ hturns fun _ _ => trivial
      exact fun fs' hfs' => ⟨.inl (hclear.of_rewrites houtside hfs').2, fun _ hok => by cases hok⟩

/-- If `hash_file` finds the saved content in the staged file, then no other digest than the signed
one becomes pending, wherever the call ends, and a call that succeeds has recorded that digest for
the file it has installed. -/
theorem installed_bytes_signed (hsaved : Saved target call.staged f content fs)
    (hroot : madeRoot fs call.install.installRoot.names = some root) (houtside : ¬ root <+: f)
    (hlinks : ∀ q, versionsPath root ++ [call.install.version] <+: q →
      ∀ n ∈ fs.node q, ¬ n.IsSymlink)
    (hturns : ∀ turn ∈ turns, ∀ fs, Rewrites f fs (turn.other fs))
    (hfound : ∀ step ∈ issued pieceDevice mayFail (inPieces fuel (hashFile call.staged)) turns fs,
      FindsSaved call.staged content step.1 step.2) :
    (∀ installed fs', call.outcome fuel mayFail turns now later fs = .finished (.ok installed) fs' →
      Recorded root call.install (Hex.encode target.sha256) installed fs') ∧
    PendingOnly root (heldBytes fs root) (Hex.encode target.sha256)
      (call.outcome fuel mayFail turns now later fs).state ∧
    ∀ step ∈ call.steps fuel mayFail turns now later fs,
      PendingOnly root (heldBytes fs root) (Hex.encode target.sha256) step.2 := by
  obtain ⟨hend, hsteps⟩ := satisfies_call hsaved hroot houtside ⟨hlinks, rfl⟩ hturns hfound now
    later
  refine ⟨fun installed fs' hfinished => ?_, ?_, hsteps⟩
  · rw [hfinished] at hend
    exact hend.2 installed rfl
  · cases houtcome : call.outcome fuel mayFail turns now later fs with
    | finished r fs' =>
      rw [houtcome] at hend
      exact hend.1
    | crashed fs' =>
      rw [houtcome] at hend
      exact hend

end

namespace Sample

def staged : Path := ["staged-1"]

/-- The second target is put where the first one was saved. -/
def rewritten (fs : FileSystem) : FileSystem :=
  match fs.node staged with
  | some (.file _ _) => (fs.modify staged fun _ mode => .file [50] mode).getD fs
  | _ => fs

theorem rewrites_rewritten (fs : FileSystem) : Rewrites staged fs (rewritten fs) := by
  unfold rewritten
  split
  · rename_i content mode hnode
    obtain ⟨fs', hmodify, hafter⟩ := modify_file (fun _ mode => Node.file [50] mode) hnode
    rw [hmodify, Option.getD_some]
    intro q
    rw [hafter]
    split_ifs with hq
    · exact .inr ⟨hq, content, mode, [50], mode, hq ▸ hnode, rfl⟩
    · exact .inl rfl
  · exact .refl staged fs

/-- The file is rewritten after so many operations. -/
def rewritingAfter (operations : ℕ) : List (Turn FileSystem) :=
  List.replicate operations ⟨id, .proceed⟩ ++ [⟨rewritten, .proceed⟩]

theorem rewrites_rewritingAfter {operations : ℕ} :
    ∀ turn ∈ rewritingAfter operations, ∀ fs, Rewrites staged fs (turn.other fs) := by
  intro turn hturn fs
  rcases List.mem_append.mp hturn with hturn | hturn
  · rw [List.eq_of_mem_replicate hturn]
    exact .refl staged fs
  · rw [List.mem_singleton.mp hturn]
    exact rewrites_rewritten fs

def signedFirst : SignedTarget := ⟨1, firstDigest.1⟩

def stagedCall : StagedCall := .verifyStageAndInstall staged (config "1")

theorem saved_first : Saved signedFirst staged staged [49] empty :=
  ⟨by decide, ⟨0o644, by decide⟩, rfl, rfl⟩

/-- The first target is staged and installed, with the rewriting after so many operations. -/
def outcomeAfter (operations : ℕ) : Outcome UpdateError Path FileSystem :=
  stagedCall.outcome 2 (fun _ => false) (rewritingAfter operations) (moment 0) (moment 1) empty

/-- What a call that succeeds returns, and the bytes of `activation.json`, of the installed file and
of the staged one. -/
def succeeded : Outcome UpdateError Path FileSystem →
    Option (Path × Option Bytes × Option Bytes × Option Bytes)
  | .finished (.ok installed) fs =>
    some (installed, heldBytes fs root, fs.contentAt installed, fs.contentAt staged)
  | _ => none

theorem finished_of_succeeded {o : Outcome UpdateError Path FileSystem} {installed : Path}
    {held found left : Option Bytes} (h : succeeded o = some (installed, held, found, left)) :
    ∃ fs, o = .finished (.ok installed) fs ∧ heldBytes fs root = held ∧
      fs.contentAt installed = found ∧ fs.contentAt staged = left := by
  unfold succeeded at h
  split at h
  · obtain ⟨rfl, rfl, rfl, rfl⟩ := Option.some.inj h
    exact ⟨_, rfl, rfl, rfl, rfl⟩
  · cases h

/-- The state in which version 1 is pending with this digest. -/
def pendingState (digest : Bytes) : ActivationState :=
  ⟨1, none, none, some ⟨"1", "versions/1/agent", Hex.encode digest⟩⟩

end Sample

open Updater.Sample in
/-- The file is rewritten before it is hashed, and what it has then is pending and installed. -/
theorem rewritten_target_recorded : ∃ slot installed fs',
    Saved signedFirst stagedCall.staged staged [49] empty ∧
    (∀ turn ∈ rewritingAfter 0, ∀ fs, Rewrites staged fs (turn.other fs)) ∧
    outcomeAfter 0 = .finished (.ok installed) fs' ∧
    heldBytes fs' root = some (toVec ⟨1, none, none, some slot⟩) ∧
    slot.sha256 ≠ Hex.encode signedFirst.sha256 ∧
    fs'.contentAt installed = some [50] ∧ (Crates.sha256 [50]).1 ≠ signedFirst.sha256 := by
  obtain ⟨fs', hfinished, hheld, hfound, -⟩ := @finished_of_succeeded (outcomeAfter 0)
    ["opt", "versions", "1", "agent"] (some (toVec (pendingState secondDigest.1))) (some [50])
    (some [50]) (by decide +kernel)
  exact ⟨_, _, fs', saved_first, rewrites_rewritingAfter, hfinished, hheld, by decide +kernel,
    hfound, by decide⟩

open Updater.Sample in
/-- The file is rewritten when it has been copied, and the signed target is pending and installed. -/
theorem installed_bytes_signed_sample : ∃ installed fs',
    outcomeAfter 14 = .finished (.ok installed) fs' ∧
    Recorded root (config "1") (Hex.encode signedFirst.sha256) installed fs' ∧
    fs'.contentAt staged = some [50] := by
  have hroot : madeRoot empty (config "1").installRoot.names = some root := by decide +kernel
  have hentries : ∀ entry ∈ emptyTable, ¬ entry.2.IsSymlink := by decide
  have hread : ∀ step ∈ issued pieceDevice (fun _ => false) (inPieces 2 (hashFile staged))
      (rewritingAfter 14) empty, step.2.contentAt staged = some [49] := by decide +kernel
  have hfinds : ∀ step ∈ issued pieceDevice (fun _ => false) (inPieces 2 (hashFile staged))
      (rewritingAfter 14) empty, FindsSaved staged [49] step.1 step.2 := by
    intro step hstep offset _ found hfound
    rw [hread step hstep, Option.mem_some_iff] at hfound
    rw [hfound]
  obtain ⟨hrecorded, -⟩ := @installed_bytes_signed _ _ stagedCall signedFirst [49] staged root empty 2
    (fun _ => false) (rewritingAfter 14) (moment 0) (moment 1) saved_first hroot (by decide)
    (fun _ _ n hn => hentries _ (Table.mem_of_node hn)) rewrites_rewritingAfter hfinds
  obtain ⟨fs', hfinished, -, -, hleft⟩ := @finished_of_succeeded (outcomeAfter 14)
    ["opt", "versions", "1", "agent"] (some (toVec (pendingState firstDigest.1))) (some [49])
    (some [50]) (by decide +kernel)
  exact ⟨_, fs', hfinished, hrecorded _ _ hfinished, hleft⟩

end CertaelAgent.Updater
