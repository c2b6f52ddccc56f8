import CertaelAgent.Agent.Registry
import CertaelAgent.Agent.StatusText
import CertaelAgent.Foundation.Entries
import CertaelAgent.Foundation.Parallel

/-!
# The status file

The launcher and the runtime publish what they do in a file that the window and the settings read
at any time, several of them at once. A publication is written under a temporary name and renamed
into place; nothing else keeps the parties apart. The temporary name is taken by creating its file
anew, so that one call holds it at a time.
-/

namespace CertaelAgent.Agent

open ProtoWire Files Program Anyhow

namespace Status

def temporaryName (processId nonce : ℕ) : String :=
  ".status-" ++ toString processId ++ "-" ++ toString nonce

/-- Writes the temporary file and renames it into place. -/
def replace (path temporary : Path) (bytes : Bytes) : AgentProgram Unit := do
  ensure .io (append temporary bytes)
  ensure .io (syncAll temporary)
  ensure .io (rename temporary path)

/-- The part of `publish` that has a name for the temporary file. -/
def publishFrom (path temporary : Path) (bytes : Bytes) : AgentProgram Unit := do
  ensure .io (createNew temporary)
  ensure .io (setPermissions temporary 0o600)
  match ← attempt (replace path temporary bytes) with
  | .ok () => return ()
  | .error e =>
    let _ ← removeFile temporary
    fail (.context "cannot publish Agent status" e)

/-- `publish` on Unix. -/
def publish (path : Path) (status : StatusRecord) (now : Moment) : AgentProgram Unit := do
  let parent ← expect (.message "status path has no parent") (done (.ok (parent path)))
  ensure (.context "cannot create Agent status directory" .io) (createDirAll maxDepth parent)
  let nonce ← expect .io (done (.ok now.sinceEpoch))
  publishFrom path (parent ++ [temporaryName now.processId nonce]) status.toVec

/-- The versions that are understood. -/
def Supported (status : StatusRecord) : Prop :=
  status.formatVersion = 1 ∨ status.formatVersion = 2

instance (status : StatusRecord) : Decidable (Supported status) :=
  inferInstanceAs (Decidable (_ ∨ _))

def read [StatusJson] (path : Path) : AgentProgram StatusRecord := do
  let metadata ← expect .io (symlinkMetadata path)
  require (.message "Agent status file is invalid")
    (metadata.fileType = .file ∧ metadata.len ≤ 16 * 1024)
  let bytes ← expect .io (Files.read path)
  let value ← done (io (StatusJson.fromSlice bytes))
  require (.message "Agent status version is unsupported") (Supported value)
  return value

/-! ## Calls beside each other -/

inductive Call
  | publish (status : StatusRecord) (now : Moment)
  | read

abbrev Call.Result : Call → Type
  | .publish _ _ => Unit
  | .read => StatusRecord

def Call.program [StatusJson] (path : Path) : (call : Call) → AgentProgram call.Result
  | .publish status now => Status.publish path status now
  | .read => Status.read path

/-- The name that a call uses for itself. -/
def Call.temporary : Call → Option String
  | .publish _ now => now.sinceEpoch.map (temporaryName now.processId)
  | .read => none

section

variable {ι : Type} (calls : ι → Call) (dir : Path) (name : String)

/-- One of the publications is in place. -/
def Published (fs : FileSystem) : Prop :=
  ∃ i status now, calls i = .publish status now ∧
    fs.node (dir ++ [name]) = some (.file status.toVec 0o600)

/-- What all calls keep to. -/
structure Kept (fs fs' : FileSystem) : Prop where
  directory : fs'.node dir = fs.node dir
  target : fs'.node (dir ++ [name]) = fs.node (dir ++ [name]) ∨ Published calls dir name fs'

/-- No other call has the temporary name of this one. -/
def Own (i : ι) : Prop := ∀ j, j ≠ i → (calls j).temporary ≠ (calls i).temporary

/-- What a call relies on: a temporary file that it holds, or that only it can make, is left to
it. -/
structure Rely (i : ι) (holds : Bool) (fs fs' : FileSystem) : Prop extends
    Kept calls dir name fs fs' where
  temporary : holds = true ∨ Own calls i → ∀ temporary ∈ (calls i).temporary,
    fs'.node (dir ++ [temporary]) = fs.node (dir ++ [temporary])

/-- What a call guarantees: it touches the temporary file only if it holds it or makes it. -/
structure Guarantee (i : ι) (holds holds' : Bool) (fs fs' : FileSystem) : Prop extends
    Kept calls dir name fs fs' where
  elsewhere : ∀ p, p ≠ dir ++ [name] → (∀ temporary ∈ (calls i).temporary, p ≠ dir ++ [temporary]) →
    fs'.node p = fs.node p
  taken : ∀ temporary ∈ (calls i).temporary,
    fs'.node (dir ++ [temporary]) = fs.node (dir ++ [temporary]) ∨ holds = true ∨
      fs.node (dir ++ [temporary]) = none
  held : holds' = true → ∃ temporary ∈ (calls i).temporary,
    (fs'.node (dir ++ [temporary])).isSome ∧
      (holds = true ∨ fs.node (dir ++ [temporary]) = none)

/-- A held file is there, and held by one call only. -/
structure Compatible (holds : ι → Bool) (fs : FileSystem) : Prop where
  present : ∀ i, holds i = true → ∃ temporary ∈ (calls i).temporary,
    (fs.node (dir ++ [temporary])).isSome
  alone : ∀ i j, holds i = true → holds j = true →
    (calls i).temporary = (calls j).temporary → i = j

end

section

variable {ι : Type} {calls : ι → Call} {dir : Path} {name : String} {i : ι} {holds holds' : Bool}
  {fs fs' fs'' : FileSystem}

theorem Kept.refl (fs : FileSystem) : Kept calls dir name fs fs := ⟨rfl, .inl rfl⟩

theorem Kept.trans (h : Kept calls dir name fs fs') (h' : Kept calls dir name fs' fs'') :
    Kept calls dir name fs fs'' := by
  refine ⟨h'.directory.trans h.directory, ?_⟩
  rcases h'.target with hsame | hpublished
  · rcases h.target with hfirst | ⟨i, status, now, hcall, hnode⟩
    · exact .inl (hsame.trans hfirst)
    · exact .inr ⟨i, status, now, hcall, hsame.trans hnode⟩
  · exact .inr hpublished

theorem Kept.published (h : Kept calls dir name fs fs') (hpublished : Published calls dir name fs) :
    Published calls dir name fs' := by
  rcases h.target with hsame | hlater
  · obtain ⟨i, status, now, hcall, hnode⟩ := hpublished
    exact ⟨i, status, now, hcall, hsame.trans hnode⟩
  · exact hlater

theorem Rely.refl (i : ι) (holds : Bool) (fs : FileSystem) : Rely calls dir name i holds fs fs :=
  ⟨.refl fs, fun _ _ _ => rfl⟩

theorem Rely.trans (i : ι) (holds : Bool) (fs fs' fs'' : FileSystem)
    (h : Rely calls dir name i holds fs fs') (h' : Rely calls dir name i holds fs' fs'') :
    Rely calls dir name i holds fs fs'' := by
  refine ⟨h.toKept.trans h'.toKept, ?_⟩
  intro hheld temporary htemporary
  exact (h'.temporary hheld temporary htemporary).trans (h.temporary hheld temporary htemporary)

theorem Guarantee.refl (h : holds = true → ∃ temporary ∈ (calls i).temporary,
    (fs.node (dir ++ [temporary])).isSome) : Guarantee calls dir name i holds holds fs fs where
  directory := rfl
  target := .inl rfl
  elsewhere _ _ _ := rfl
  taken _ _ := .inl rfl
  held hheld := by
    obtain ⟨temporary, htemporary, hsome⟩ := h hheld
    exact ⟨temporary, htemporary, hsome, .inl hheld⟩

/-- No call takes the name of the file itself. -/
def Apart (calls : ι → Call) (name : String) : Prop := ∀ i, name ∉ (calls i).temporary

/-- What a call guarantees is within what the others rely on. -/
theorem Guarantee.others {held : ι → Bool} {t : Bool} (hapart : Apart calls name)
    (hC : Compatible calls dir held fs) (hG : Guarantee calls dir name i (held i) t fs fs') {j : ι}
    (hj : j ≠ i) : Rely calls dir name j (held j) fs fs' := by
  refine ⟨hG.toKept, ?_⟩
  intro hheld temporary htemporary
  by_cases hsame : temporary ∈ (calls i).temporary
  · -- The file of `j` was there, and `i` did not hold it.
    have hname : (calls i).temporary = (calls j).temporary := hsame.trans htemporary.symm
    rcases hheld with hheld | hown
    · obtain ⟨temporary', htemporary', hsome⟩ := hC.present j hheld
      obtain rfl := Option.some.inj (htemporary.symm.trans htemporary')
      rcases hG.taken temporary hsame with hnode | hheld' | hnone
      · exact hnode
      · exact absurd (hC.alone j i hheld hheld' hname.symm) hj
      · rw [hnone] at hsome
        cases hsome
    · exact absurd hname (hown i (Ne.symm hj))
  · apply hG.elsewhere
    · intro heq
      have hne : temporary ≠ name := fun h => hapart j (h ▸ htemporary)
      exact hne (by simpa using heq)
    · intro temporary' htemporary' heq
      have heq' : temporary = temporary' := by simpa using heq
      exact hsame (heq' ▸ htemporary')

theorem Guarantee.alone {held : ι → Bool} (hC : Compatible calls dir held fs)
    (hG : Guarantee calls dir name i (held i) true fs fs') {j : ι} (hj : j ≠ i)
    (hheld : held j = true) : (calls i).temporary ≠ (calls j).temporary := by
  intro hname
  obtain ⟨temporary, htemporary, _, hbefore⟩ := hG.held rfl
  rcases hbefore with hbefore | hnone
  · exact hj (hC.alone j i hheld hbefore hname.symm)
  · obtain ⟨temporary', htemporary', hsome⟩ := hC.present j hheld
    have hsame : (calls i).temporary = some temporary' := hname.trans htemporary'
    obtain rfl := Option.some.inj (htemporary.symm.trans hsame)
    rw [hnone] at hsome
    cases hsome

theorem Guarantee.compatible [DecidableEq ι] {held : ι → Bool} {t : Bool}
    (hapart : Apart calls name) (hC : Compatible calls dir held fs)
    (hG : Guarantee calls dir name i (held i) t fs fs') :
    Compatible calls dir (Function.update held i t) fs' where
  present k hk := by
    by_cases hki : k = i
    · subst hki
      rw [Function.update_self] at hk
      obtain ⟨temporary, htemporary, hsome, _⟩ := hG.held hk
      exact ⟨temporary, htemporary, hsome⟩
    · rw [Function.update_of_ne hki] at hk
      obtain ⟨temporary, htemporary, hsome⟩ := hC.present k hk
      refine ⟨temporary, htemporary, ?_⟩
      rwa [(hG.others hapart hC hki).temporary (.inl hk) temporary htemporary]
  alone j k hj hk hname := by
    have hnew : t = true → ∀ j, j ≠ i → held j = true →
        (calls i).temporary ≠ (calls j).temporary := by
      rintro rfl j hji hheld
      exact hG.alone hC hji hheld
    by_cases hji : j = i
    · by_cases hki : k = i
      · rw [hji, hki]
      · rw [hji, Function.update_self] at hj
        rw [Function.update_of_ne hki] at hk
        exact absurd (hji ▸ hname) (hnew hj k hki hk)
    · rw [Function.update_of_ne hji] at hj
      by_cases hki : k = i
      · rw [hki, Function.update_self] at hk
        exact absurd (hki ▸ hname.symm) (hnew hk j hji hj)
      · rw [Function.update_of_ne hki] at hk
        exact hC.alone j k hj hk hname

theorem harmony [DecidableEq ι] (hapart : Apart calls name) :
    Harmony (Rely calls dir name) (Guarantee calls dir name) (Compatible calls dir) where
  refl := .refl
  trans := .trans
  within _ _ _ _ _ hC hG := ⟨hG.compatible hapart hC, fun _ hj => hG.others hapart hC hj⟩

/-! ## What a call answers -/

section

variable (calls dir name) (mayFail : FsOp → Bool) (fs₀ : FileSystem)

/-- Nothing stands in the way of a publication. -/
structure Smooth (i : ι) : Prop where
  quiet : ∀ op, mayFail op = false
  clock : (calls i).temporary ≠ none
  own : Own calls i
  free : ∀ temporary ∈ (calls i).temporary, fs₀.node (dir ++ [temporary]) = none
  writable : fs₀.Writable dir
  target : ¬ fs₀.Directory (dir ++ [name])

/-- Whenever the file is read, there is a status in it. -/
structure Legible [StatusJson] : Prop where
  quiet : mayFail (.symlinkMetadata (dir ++ [name])) = false ∧
    mayFail (.read (dir ++ [name])) = false
  initial : ∃ content mode status, fs₀.node (dir ++ [name]) = some (.file content mode) ∧
    content.length ≤ 16 * 1024 ∧ StatusJson.fromSlice content = some status ∧ Supported status
  published : ∀ i status now, calls i = .publish status now →
    status.toVec.length ≤ 16 * 1024 ∧ Supported status

/-- A status that a call publishes, or that was there before. -/
def Offered [StatusJson] (status : StatusRecord) : Prop :=
  (∃ i now, calls i = .publish status now) ∨
    ∃ content mode, fs₀.node (dir ++ [name]) = some (.file content mode) ∧
      StatusJson.fromSlice content = some status

/-- What is true of the result of a call. -/
def Finished [StatusJson] (i : ι) :
    (call : Call) → Except Anyhow.Error call.Result → FileSystem → Prop
  | .publish _ _, r, fs => (r = .ok () → Published calls dir name fs) ∧
      (Smooth calls dir name mayFail fs₀ i → r = .ok ())
  | .read, r, _ => (∀ status, r = .ok status → Offered calls dir name fs₀ status) ∧
      (Legible calls dir name mayFail fs₀ → ∃ status, r = .ok status)

end

variable {mayFail : FsOp → Bool} {fs₀ : FileSystem} {status : StatusRecord} {now : Moment}
  {temporary : String}

theorem Kept.directory_iff (h : Kept calls dir name fs fs') :
    fs'.Directory dir ↔ fs.Directory dir := by
  rw [FileSystem.directory_iff, FileSystem.directory_iff, h.directory]

theorem Kept.writable_iff (h : Kept calls dir name fs fs') :
    fs'.Writable dir ↔ fs.Writable dir := by
  unfold FileSystem.Writable
  rw [h.directory]

theorem Kept.target_not_directory (h : Kept calls dir name fs fs')
    (htarget : ¬ fs.Directory (dir ++ [name])) : ¬ fs'.Directory (dir ++ [name]) := by
  rcases h.target with hsame | ⟨i, status, now, _, hnode⟩
  · rwa [FileSystem.directory_iff, hsame, ← FileSystem.directory_iff]
  · exact FileSystem.not_directory_of_file hnode

theorem Guarantee.of_withNode {n : Node} (hdir : ¬ dir ++ [name] = dir ++ [temporary])
    (htemporary : temporary ∈ (calls i).temporary)
    (h : WithNode (dir ++ [temporary]) n fs fs')
    (hbefore : holds = true ∨ fs.node (dir ++ [temporary]) = none) :
    Guarantee calls dir name i holds true fs fs' := by
  have hne : dir ≠ dir ++ [temporary] := by simp
  refine ⟨⟨?_, .inl ?_⟩, ?_, ?_, ?_⟩
  · rw [h, if_neg hne]
  · rw [h, if_neg hdir]
  · intro p _ hp
    rw [h, if_neg (hp temporary htemporary)]
  · intro found hfound
    obtain rfl := Option.some.inj (htemporary.symm.trans hfound)
    exact .inr hbefore
  · intro _
    exact ⟨temporary, htemporary, by rw [h.node]; rfl, hbefore⟩

/-- The temporary file is there with its content. -/
structure Filled (calls : ι → Call) (dir : Path) (name temporary : String) (fs₀ : FileSystem)
    (content : Bytes) (mode : ℕ) (fs : FileSystem) : Prop where
  kept : Kept calls dir name fs₀ fs
  node : fs.node (dir ++ [temporary]) = some (.file content mode)

theorem Filled.later {content : Bytes} {mode : ℕ} (htemporary : temporary ∈ (calls i).temporary)
    (h : Filled calls dir name temporary fs₀ content mode fs)
    (hs : Rely calls dir name i true fs fs') :
    Filled calls dir name temporary fs₀ content mode fs' :=
  ⟨h.kept.trans hs.toKept, (hs.temporary (.inl rfl) temporary htemporary).trans h.node⟩

theorem Filled.again {content content' : Bytes} {mode mode' : ℕ} (hne : name ≠ temporary)
    (htemporary : temporary ∈ (calls i).temporary)
    (h : Filled calls dir name temporary fs₀ content mode fs)
    (hs : WithNode (dir ++ [temporary]) (.file content' mode') fs fs') :
    Guarantee calls dir name i true true fs fs' ∧
      Filled calls dir name temporary fs₀ content' mode' fs' := by
  have hG : Guarantee calls dir name i true true fs fs' :=
    .of_withNode (by simpa using hne) htemporary hs (.inl rfl)
  exact ⟨hG, h.kept.trans hG.toKept, hs.node⟩

theorem Filled.renamed (hcall : calls i = .publish status now) (hne : name ≠ temporary)
    (htemporary : temporary ∈ (calls i).temporary)
    (h : Filled calls dir name temporary fs₀ status.toVec 0o600 fs)
    (hs : fs.renameEntry (dir ++ [temporary]) (dir ++ [name]) = some fs') :
    Guarantee calls dir name i true false fs fs' ∧ Published calls dir name fs' := by
  have hpaths : dir ++ [temporary] ≠ dir ++ [name] := by simpa using Ne.symm hne
  obtain ⟨_, hnode⟩ := renameEntry_file_eq_some h.node hpaths hs
  have hpublished : Published calls dir name fs' :=
    ⟨i, status, now, hcall, by rw [hnode, if_pos rfl]⟩
  refine ⟨⟨⟨?_, .inr hpublished⟩, ?_, ?_, ?_⟩, hpublished⟩
  · rw [hnode, if_neg (by simp), if_neg (by simp)]
  · intro p hp htemporaries
    rw [hnode, if_neg hp, if_neg (htemporaries temporary htemporary)]
  · intro _ _
    exact .inr (.inl rfl)
  · intro hheld
    cases hheld

theorem Filled.renames {content : Bytes} {mode : ℕ} (hordinary : Ordinary name)
    (hne : name ≠ temporary) (h : Filled calls dir name temporary fs₀ content mode fs)
    (hsmooth : Smooth calls dir name mayFail fs₀ i) :
    ∃ fs', fs.renameEntry (dir ++ [temporary]) (dir ++ [name]) = some fs' :=
  renameEntry_file h.node (h.kept.writable_iff.mpr hsmooth.writable) hordinary (Ne.symm hne)
    (h.kept.target_not_directory hsmooth.target)

theorem not_smooth_of_mayFail {op : FsOp} (hop : mayFail op = true) :
    ¬ Smooth calls dir name mayFail fs₀ i := by
  intro hsmooth
  rw [hsmooth.quiet op] at hop
  cases hop

theorem guarantees_replace (hdir : fs₀.Directory dir) (hname : Ordinary name)
    (hordinary : Ordinary temporary) (hne : name ≠ temporary)
    (hcall : calls i = .publish status now) (htemporary : temporary ∈ (calls i).temporary)
    (h : Filled calls dir name temporary fs₀ [] 0o600 fs) :
    Guarantees device mayFail (Rely calls dir name i) (Guarantee calls dir name i)
      (fun r held s => match r with
        | .ok _ => Published calls dir name s
        | .error _ => ¬ Smooth calls dir name mayFail fs₀ i ∧ held = true ∧
          ∃ content mode, Filled calls dir name temporary fs₀ content mode s)
      (replace (dir ++ [name]) (dir ++ [temporary]) status.toVec) true fs := by
  unfold replace
  apply guarantees_ensure_bind (Rely.refl i)
  intro s₁ hs₁
  have h₁ := h.later htemporary hs₁
  obtain ⟨fs₂, happend, hwritten⟩ := perform_append_of_file h₁.node status.toVec
  rw [happend]
  obtain ⟨hG, h₂⟩ := h₁.again hne htemporary hwritten
  refine ⟨⟨true, hG, ?_⟩, fun hf s₂ hs₂ =>
    ⟨not_smooth_of_mayFail hf, rfl, _, _, h₁.later htemporary hs₂⟩⟩
  intro s₂ hs₂
  replace h₂ := h₂.later htemporary hs₂
  apply guarantees_ensure_bind (Rely.refl i)
  intro s₃ hs₃
  have h₃ := h₂.later htemporary hs₃
  have hsome : ∃ temporary ∈ (calls i).temporary, (s₃.node (dir ++ [temporary])).isSome :=
    ⟨temporary, htemporary, by rw [h₃.node]; rfl⟩
  rw [perform_syncAll, FileSystem.canonicalize_of_real (FileSystem.real_of_file h₃.node)]
  refine ⟨⟨true, .refl fun _ => hsome, ?_⟩, fun hf s₄ hs₄ =>
    ⟨not_smooth_of_mayFail hf, rfl, _, _, h₃.later htemporary hs₄⟩⟩
  intro s₄ hs₄
  replace h₃ := h₃.later htemporary hs₄
  apply guarantees_bind (Rely.refl i)
  intro s₅ hs₅
  have h₅ := h₃.later htemporary hs₅
  refine ⟨?_, fun hf s₆ hs₆ s₇ hs₇ => ⟨not_smooth_of_mayFail hf, rfl, _, _,
    (h₅.later htemporary hs₆).later htemporary hs₇⟩⟩
  rw [perform_rename_append (h₅.kept.directory_iff.mpr hdir) hordinary hname]
  cases hrename : s₅.renameEntry (dir ++ [temporary]) (dir ++ [name]) with
  | some fs₆ =>
    obtain ⟨hG, hpublished⟩ := h₅.renamed hcall hne htemporary hrename
    refine ⟨false, hG, ?_⟩
    intro s₆ hs₆ s₇ hs₇
    exact hs₇.published (hs₆.published hpublished)
  | none =>
    refine ⟨true, .refl fun _ => ⟨temporary, htemporary, by rw [h₅.node]; rfl⟩, ?_⟩
    intro s₆ hs₆ s₇ hs₇
    refine ⟨?_, rfl, _, _, (h₅.later htemporary hs₆).later htemporary hs₇⟩
    intro hsmooth
    obtain ⟨fs₆, hsome⟩ := h₅.renames hname hne hsmooth
    rw [hsome] at hrename
    cases hrename

theorem Filled.removed {content : Bytes} {mode : ℕ} (hne : name ≠ temporary)
    (htemporary : temporary ∈ (calls i).temporary)
    (h : Filled calls dir name temporary fs₀ content mode fs)
    (hs : fs.unlink (dir ++ [temporary]) = some fs') :
    Guarantee calls dir name i true false fs fs' := by
  have hnode := unlink_file_eq_some h.node hs
  refine ⟨⟨?_, .inl ?_⟩, ?_, ?_, ?_⟩
  · rw [hnode, if_neg (by simp)]
  · rw [hnode, if_neg (by simpa using hne)]
  · intro p _ htemporaries
    rw [hnode, if_neg (htemporaries temporary htemporary)]
  · intro _ _
    exact .inr (.inl rfl)
  · intro hheld
    cases hheld

theorem guarantees_removeTemporary {content : Bytes} {mode : ℕ} (hdir : fs₀.Directory dir)
    (hordinary : Ordinary temporary) (hne : name ≠ temporary)
    (htemporary : temporary ∈ (calls i).temporary)
    (h : Filled calls dir name temporary fs₀ content mode fs) (e : Anyhow.Error)
    {Q : Except Anyhow.Error Unit → Bool → FileSystem → Prop} (hQ : ∀ held s, Q (.error e) held s) :
    Guarantees device mayFail (Rely calls dir name i) (Guarantee calls dir name i) Q
      (removeFile (dir ++ [temporary]) >>= fun _ => fail e) true fs := by
  intro s hs
  have hs := h.later htemporary hs
  refine ⟨?_, fun _ _ _ => hQ _ _⟩
  have hperform : device.perform (.removeFile (dir ++ [temporary])) s =
      committed s (s.unlink (dir ++ [temporary])) := by
    simp only [device, FsOp.perform, FileSystem.place_append (hs.kept.directory_iff.mpr hdir)
      hordinary, Option.bind_some]
  rw [hperform]
  cases hunlink : s.unlink (dir ++ [temporary]) with
  | some s' => exact ⟨false, hs.removed hne htemporary hunlink, fun _ _ => hQ _ _⟩
  | none =>
    exact ⟨true, .refl fun _ => ⟨temporary, htemporary, by rw [hs.node]; rfl⟩, fun _ _ => hQ _ _⟩

theorem guarantees_createDirAll {Q : Except Anyhow.Error Bool → Bool → FileSystem → Prop}
    (hdir : fs₀.Directory dir) (hkept : Kept calls dir name fs₀ fs) (depth : ℕ)
    (hQ : ∀ made s, Rely calls dir name i false fs s →
      (made = false → ∃ op, mayFail op = true) → Q (.ok made) false s) :
    Guarantees device mayFail (Rely calls dir name i) (Guarantee calls dir name i) Q
      (createDirAll (depth + 1) dir) false fs := by
  have hG : ∀ s, Guarantee calls dir name i false false s s := fun s => .refl fun h => by cases h
  have hlook : ∀ s, Rely calls dir name i false fs s →
      Guarantees device mayFail (Rely calls dir name i) (Guarantee calls dir name i) Q (isDir dir)
        false s := by
    intro s hs s' hs'
    have hs' := hs.trans i false fs s s' hs'
    have hdir' : s'.Directory dir := hs'.toKept.directory_iff.mpr (hkept.directory_iff.mpr hdir)
    have hreply : device.perform (.isDir dir) s' = (true, s') := by
      simp [device, FsOp.perform, FileSystem.canonicalize_of_real hdir'.real, hdir']
    rw [hreply]
    refine ⟨⟨false, hG s', fun s'' hs'' => ?_⟩, fun hf s'' hs'' => ?_⟩
    · exact hQ true s'' (hs'.trans i false fs s' s'' hs'') fun h => by cases h
    · exact hQ false s'' (hs'.trans i false fs s' s'' hs'') fun _ => ⟨_, hf⟩
  intro s hs
  have hdir' : s.Directory dir := hs.toKept.directory_iff.mpr (hkept.directory_iff.mpr hdir)
  have hresolves : (s.canonicalize dir).isSome := by
    rw [FileSystem.canonicalize_of_real hdir'.real]
    rfl
  rw [perform_createDir_of_resolves hresolves]
  exact ⟨⟨false, hG s, hlook s hs⟩, fun _ => hlook s hs⟩

theorem finished_of_error [StatusJson] {e : Anyhow.Error}
    (h : ¬ Smooth calls dir name mayFail fs₀ i) :
    Finished calls dir name mayFail fs₀ i (.publish status now) (.error e) fs := by
  refine ⟨fun herror => ?_, fun hsmooth => absurd hsmooth h⟩
  cases herror

theorem guarantees_publishFrom [StatusJson] (hdir : fs₀.Directory dir) (hname : Ordinary name)
    (hordinary : Ordinary temporary) (hne : name ≠ temporary)
    (hcall : calls i = .publish status now) (htemporary : temporary ∈ (calls i).temporary)
    (hbefore : Rely calls dir name i false fs₀ fs) :
    Guarantees device mayFail (Rely calls dir name i) (Guarantee calls dir name i)
      (fun r _ => Finished calls dir name mayFail fs₀ i (.publish status now) r)
      (publishFrom (dir ++ [name]) (dir ++ [temporary]) status.toVec) false fs := by
  unfold publishFrom
  apply guarantees_ensure_bind (Rely.refl i)
  intro s₁ hs₁
  have hs₁ := hbefore.trans i false fs₀ fs s₁ hs₁
  refine ⟨?_, fun hf _ _ => finished_of_error (not_smooth_of_mayFail hf)⟩
  rw [perform_createNew_append (hs₁.toKept.directory_iff.mpr hdir) hordinary]
  cases hcreate : s₁.create (dir ++ [temporary]) (.file [] FileSystem.newFileMode) with
  | none =>
    refine ⟨false, .refl (fun h => by cases h), ?_⟩
    intro s₂ _
    apply finished_of_error
    intro hsmooth
    have hfree : s₁.node (dir ++ [temporary]) = none :=
      (hs₁.temporary (.inr hsmooth.own) temporary htemporary).trans
        (hsmooth.free temporary htemporary)
    obtain ⟨s', hsome⟩ := FileSystem.create_append (n := .file [] FileSystem.newFileMode)
      (hs₁.toKept.writable_iff.mpr hsmooth.writable) hordinary hfree
    rw [hsome] at hcreate
    cases hcreate
  | some fs₂ =>
    obtain ⟨hfree, _, hnew⟩ := FileSystem.create_eq_some hcreate
    have hnew : WithNode (dir ++ [temporary]) (.file [] FileSystem.newFileMode) s₁ fs₂ := hnew
    have hG : Guarantee calls dir name i false true s₁ fs₂ :=
      .of_withNode (by simpa using hne) htemporary hnew (.inr hfree)
    have h₂ : Filled calls dir name temporary fs₀ [] FileSystem.newFileMode fs₂ :=
      ⟨hs₁.toKept.trans hG.toKept, hnew.node⟩
    refine ⟨true, hG, ?_⟩
    intro s₂ hs₂
    apply guarantees_ensure_bind (Rely.refl i)
    intro s₃ hs₃
    have h₃ := (h₂.later htemporary hs₂).later htemporary hs₃
    obtain ⟨fs₄, hmode, hagain⟩ := perform_setPermissions_of_file h₃.node 0o600
    rw [hmode]
    obtain ⟨hG', h₄⟩ := h₃.again hne htemporary hagain
    refine ⟨⟨true, hG', ?_⟩, fun hf _ _ => finished_of_error (not_smooth_of_mayFail hf)⟩
    intro s₄ hs₄
    apply guarantees_bind (Rely.refl i)
    apply guarantees_attempt
    apply guarantees_mono (guarantees_replace hdir hname hordinary hne hcall htemporary
      (h₄.later htemporary hs₄))
    intro r held s h
    cases r with
    | ok _ => exact fun s' hs' => ⟨fun _ => hs'.published h, fun _ => rfl⟩
    | error e =>
      obtain ⟨hsmooth, rfl, content, mode, hfilled⟩ := h
      exact guarantees_removeTemporary hdir hordinary hne htemporary hfilled _
        fun _ _ => finished_of_error hsmooth

theorem ordinary_temporaryName (processId nonce : ℕ) :
    Ordinary (temporaryName processId nonce) := by
  have hhead : (temporaryName processId nonce).toList.take 2 = ['.', 's'] := by
    simp [temporaryName]
  refine ⟨?_, ?_, ?_⟩ <;>
  · intro h
    rw [h] at hhead
    simp at hhead

theorem guarantees_publish [StatusJson] (hdir : fs₀.Directory dir) (hname : Ordinary name)
    (hapart : Apart calls name) (hcall : calls i = .publish status now) :
    Guarantees device mayFail (Rely calls dir name i) (Guarantee calls dir name i)
      (fun r _ => Finished calls dir name mayFail fs₀ i (.publish status now) r)
      (publish (dir ++ [name]) status now) false fs₀ := by
  unfold publish
  rw [parent_append hname]
  simp only [Program.expect, done_ok_bind]
  apply guarantees_ensure_bind (Rely.refl i)
  apply guarantees_createDirAll hdir (.refl fs₀)
  intro made s₁ hs₁ hmade
  cases made with
  | false =>
    obtain ⟨op, hop⟩ := hmade rfl
    exact finished_of_error (not_smooth_of_mayFail hop)
  | true =>
    cases hclock : now.sinceEpoch with
    | none =>
      intro s₂ _
      apply finished_of_error
      intro hsmooth
      apply hsmooth.clock
      rw [hcall, Call.temporary, hclock]
      rfl
    | some nonce =>
      have htemporary : temporaryName now.processId nonce ∈ (calls i).temporary := by
        rw [hcall, Call.temporary, hclock]
        rfl
      exact guarantees_publishFrom hdir hname (ordinary_temporaryName ..)
        (fun h => hapart i (h ▸ htemporary)) hcall htemporary hs₁

/-! ## Reading -/

section

variable [StatusJson]

theorem Kept.offered {content : Bytes} {mode : ℕ} (h : Kept calls dir name fs₀ fs)
    (hnode : fs.node (dir ++ [name]) = some (.file content mode))
    (hread : StatusJson.fromSlice content = some status) : Offered calls dir name fs₀ status := by
  rcases h.target with hsame | ⟨i, published, now, hcall, hpublished⟩
  · exact .inr ⟨content, mode, hsame.symm.trans hnode, hread⟩
  · rw [hpublished] at hnode
    obtain ⟨rfl, _⟩ := Node.file.inj (Option.some.inj hnode)
    rw [StatusJson.fromSlice_toVec] at hread
    obtain rfl := Option.some.inj hread
    exact .inl ⟨i, now, hcall⟩

theorem Kept.legible (h : Kept calls dir name fs₀ fs)
    (hlegible : Legible calls dir name mayFail fs₀) : ∃ content mode status,
      fs.node (dir ++ [name]) = some (.file content mode) ∧ content.length ≤ 16 * 1024 ∧
        StatusJson.fromSlice content = some status ∧ Supported status := by
  rcases h.target with hsame | ⟨i, status, now, hcall, hnode⟩
  · rw [hsame]
    exact hlegible.initial
  · obtain ⟨hlen, hsupported⟩ := hlegible.published i status now hcall
    exact ⟨status.toVec, 0o600, status, hnode, hlen, StatusJson.fromSlice_toVec status, hsupported⟩

theorem unread_of_error {e : Anyhow.Error} (h : ¬ Legible calls dir name mayFail fs₀) :
    Finished calls dir name mayFail fs₀ i .read (.error e) fs := by
  refine ⟨fun status herror => ?_, fun hlegible => absurd hlegible h⟩
  cases herror

theorem guarantees_parse (hkept : Kept calls dir name fs₀ fs)
    (hfile : ∃ content mode, fs.node (dir ++ [name]) = some (.file content mode)) :
    Guarantees device mayFail (Rely calls dir name i) (Guarantee calls dir name i)
      (fun r _ => Finished calls dir name mayFail fs₀ i .read r)
      (do
        let bytes ← expect .io (Files.read (dir ++ [name]))
        let value ← done (io (StatusJson.fromSlice bytes))
        require (.message "Agent status version is unsupported") (Supported value)
        return value) false fs := by
  apply guarantees_bind (Rely.refl i)
  intro s₁ hs₁
  have hfile₁ : ∃ content mode, s₁.node (dir ++ [name]) = some (.file content mode) := by
    obtain ⟨content, mode, hnode⟩ := hfile
    rcases hs₁.target with hsame | ⟨j, status, now, _, hpublished⟩
    · exact ⟨content, mode, hsame.trans hnode⟩
    · exact ⟨status.toVec, 0o600, hpublished⟩
  obtain ⟨content, mode, hnode⟩ := hfile₁
  have hkept₁ := hkept.trans hs₁.toKept
  have hperform : device.perform (.read (dir ++ [name])) s₁ = (some content, s₁) := by
    simp only [device, FsOp.perform, FileSystem.contentAt_of_file hnode]
  rw [hperform]
  refine ⟨⟨false, .refl (fun h => by cases h), ?_⟩, fun hf _ _ => unread_of_error fun hlegible => ?_⟩
  swap
  · rw [hlegible.quiet.2] at hf
    cases hf
  intro s₂ hs₂
  have hread : ∀ {e fs}, (∀ status, StatusJson.fromSlice content = some status →
      ¬ Supported status) → Finished calls dir name mayFail fs₀ i .read (.error e) fs := by
    intro e fs hnot
    apply unread_of_error
    intro hlegible
    obtain ⟨found, mode', status, hsome, _, hstatus, hsupported⟩ := hkept₁.legible hlegible
    rw [hsome] at hnode
    obtain ⟨rfl, _⟩ := Node.file.inj (Option.some.inj hnode)
    exact hnot status hstatus hsupported
  dsimp only
  cases hstatus : StatusJson.fromSlice content with
  | none => exact fun s₃ _ => hread fun status h => by rw [hstatus] at h; cases h
  | some status =>
    simp only [io, Except.ofOption, done_ok_bind]
    unfold require
    split_ifs with hsupported
    · intro s₃ _
      refine ⟨fun found hfound => ?_, fun _ => ⟨status, rfl⟩⟩
      obtain rfl := Except.ok.inj hfound
      exact hkept₁.offered hnode hstatus
    · intro s₃ _
      apply hread
      intro found hfound
      rw [hstatus] at hfound
      rwa [← Option.some.inj hfound]

theorem guarantees_status (hdir : fs₀.Directory dir) (hname : Ordinary name) :
    Guarantees device mayFail (Rely calls dir name i) (Guarantee calls dir name i)
      (fun r _ => Finished calls dir name mayFail fs₀ i .read r) (read (dir ++ [name])) false
      fs₀ := by
  unfold read
  apply guarantees_bind (Rely.refl i)
  intro s₁ hs₁
  have hmetadata : device.perform (.symlinkMetadata (dir ++ [name])) s₁ =
      ((s₁.node (dir ++ [name])).map Node.metadata, s₁) := by
    simp only [device, FsOp.perform,
      FileSystem.locate_append (hs₁.toKept.directory_iff.mpr hdir) hname, Option.bind_some]
  rw [hmetadata]
  refine ⟨⟨false, .refl (fun h => by cases h), ?_⟩, fun hf _ _ => unread_of_error fun hlegible => ?_⟩
  swap
  · rw [hlegible.quiet.1] at hf
    cases hf
  cases hnode : s₁.node (dir ++ [name]) with
  | none =>
    intro s₂ _
    apply unread_of_error
    intro hlegible
    obtain ⟨content, mode, status, hsome, _⟩ := hs₁.toKept.legible hlegible
    rw [hsome] at hnode
    cases hnode
  | some n =>
    intro s₂ hs₂
    dsimp only [Option.map_some]
    unfold require
    split_ifs with hvalid
    · have hfile : ∃ content mode, s₂.node (dir ++ [name]) = some (.file content mode) := by
        rcases hs₂.target with hsame | ⟨j, status, now, _, hpublished⟩
        · rw [hsame, hnode]
          cases n with
          | file content mode => exact ⟨content, mode, rfl⟩
          | directory writable => cases hvalid.1
          | symlink absolute target => cases hvalid.1
        · exact ⟨status.toVec, 0o600, hpublished⟩
      exact guarantees_parse (hs₁.trans i false fs₀ s₁ s₂ hs₂).toKept hfile
    · intro s₃ _
      apply unread_of_error
      intro hlegible
      obtain ⟨content, mode, status, hsome, hlen, _⟩ := hs₁.toKept.legible hlegible
      rw [hsome] at hnode
      obtain rfl := Option.some.inj hnode
      exact hvalid ⟨rfl, hlen⟩

end

/-! ## All calls -/

theorem temporaryName_ne_json (processId nonce : ℕ) (registrationId : String) :
    temporaryName processId nonce ≠ registrationId ++ ".json" := by
  intro h
  obtain ⟨digit, hlast⟩ := Option.ne_none_iff_exists'.mp
    (mt List.getLast?_eq_none_iff.mp (Nat.toDigits_ne_nil (b := 10) (n := nonce)))
  have hdigit : digit.isDigit = true :=
    Nat.isDigit_of_mem_toDigits (by decide) (by decide) (List.mem_of_getLast? hlast)
  have htext : (temporaryName processId nonce).toList =
      (".status-" ++ toString processId ++ "-").toList ++ Nat.toDigits 10 nonce := by
    simp [temporaryName]
  have hend : (registrationId ++ ".json").toList.getLast? = some 'n' := by
    rw [String.toList_append, List.getLast?_append]
    rfl
  rw [← h, htext, List.getLast?_append, hlast] at hend
  obtain rfl : digit = 'n' := Option.some.inj hend
  exact absurd hdigit (by decide)

theorem apart_json (calls : ι → Call) (registrationId : String) :
    Apart calls (registrationId ++ ".json") := by
  intro i htemporary
  cases hcall : calls i with
  | read =>
    rw [hcall] at htemporary
    cases htemporary
  | publish status now =>
    rw [hcall] at htemporary
    obtain ⟨nonce, _, hname⟩ := Option.map_eq_some_iff.mp htemporary
    exact temporaryName_ne_json now.processId nonce registrationId hname

theorem ordinary_json (registrationId : String) : Ordinary (registrationId ++ ".json") := by
  refine ⟨?_, ?_, ?_⟩ <;>
  · intro h
    have hlen := congrArg (fun name => name.toList.length) h
    simp at hlen

/-- Along a run the calls change the file and their temporary files only. -/
theorem kept_of_reach (h : Relation.ReflTransGen
    (fun s s' => ∃ i held held', Guarantee calls dir name i held held' s s') fs fs') :
    Kept calls dir name fs fs' ∧ ∀ p, p ≠ dir ++ [name] →
      (∀ i, ∀ temporary ∈ (calls i).temporary, p ≠ dir ++ [temporary]) →
      fs'.node p = fs.node p := by
  induction h with
  | refl => exact ⟨.refl fs, fun _ _ _ => rfl⟩
  | tail _ hstep ih =>
    obtain ⟨hkept, helsewhere⟩ := ih
    obtain ⟨i, held, held', hG⟩ := hstep
    refine ⟨hkept.trans hG.toKept, ?_⟩
    intro p hp htemporaries
    exact (hG.elsewhere p hp (htemporaries i)).trans (helsewhere p hp htemporaries)

/-- How a pool of calls stands to the state in which it began. -/
structure Untorn [StatusJson] (calls : ι → Call) (dir : Path) (name : String)
    (mayFail : FsOp → Bool) (fs₀ : FileSystem)
    (pool : (∀ i, AgentProgram (calls i).Result) × FileSystem) : Prop where
  target : pool.2.node (dir ++ [name]) = fs₀.node (dir ++ [name]) ∨
    Published calls dir name pool.2
  elsewhere : ∀ p, p ≠ dir ++ [name] →
    (∀ i, ∀ temporary ∈ (calls i).temporary, p ≠ dir ++ [temporary]) →
    pool.2.node p = fs₀.node p
  finished : ∀ i r, pool.1 i = done r → Finished calls dir name mayFail fs₀ i (calls i) r pool.2

theorem parallel_calls [StatusJson] [DecidableEq ι] (hdir : fs₀.Directory dir)
    (hname : Ordinary name) (hapart : Apart calls name) :
    Parallel device mayFail (Rely calls dir name) (Guarantee calls dir name)
      (Compatible calls dir) (fun i => Finished calls dir name mayFail fs₀ i (calls i))
      (fun _ => false) (fun i => (calls i).program (dir ++ [name]), fs₀) := by
  refine ⟨⟨fun _ h => absurd h (by simp), fun _ _ h => absurd h (by simp)⟩, ?_⟩
  intro i
  dsimp only
  generalize hcall : calls i = call
  cases call with
  | publish status now => exact guarantees_publish hdir hname hapart hcall
  | read => exact guarantees_status hdir hname

end

namespace SampleStatus

def status (state : String) (index : UInt32) : StatusRecord where
  formatVersion := 2
  registrationId := "chess"
  gameId := "chess"
  state := state
  publicReason := none
  launchAttemptId := some "attempt"
  milestoneIndex := some index
  milestoneTotal := some 8
  updatedAtUnix := 1700000000

/-- The runtime publishes twice, and the window reads. -/
def calls : Fin 3 → Call
  | 0 => .publish (status "starting_game" 5) ⟨7, some 100⟩
  | 1 => .publish (status "protected" 8) ⟨7, some 200⟩
  | 2 => .read

def fs : FileSystem :=
  FileSystem.ofTable
    [([], .directory true), (["state"], .directory true),
      (["state", "chess.json"], .file (status "hashing_registered_game_files" 4).toVec 0o600)]
    (by decide) (by decide)

/-- The second publication begins in the middle of the first one, and the reader between them. -/
def turns : List (Fin 3 × Bool) :=
  (List.replicate 5 (0, false)) ++ [(2, false)] ++ (List.replicate 9 (1, false)) ++
    (List.replicate 9 (0, false)) ++ [(2, false)]

scoped instance statusJson : StatusJson := strictStatusJson

/-- The pool at the end. -/
def pool : (∀ i, AgentProgram (calls i).Result) × FileSystem :=
  poolRun device (fun _ => false) turns (fun i => (calls i).program ["state", "chess.json"], fs)

theorem smooth : Smooth calls ["state"] "chess.json" (fun _ => false) fs 0 where
  quiet _ := rfl
  clock := by decide
  own := show ∀ j, j ≠ 0 → (calls j).temporary ≠ (calls 0).temporary by decide
  free := by
    intro temporary htemporary
    obtain rfl : temporary = ".status-7-100" := (Option.some.inj htemporary).symm
    decide
  writable := by decide
  target := by decide

theorem legible : Legible calls ["state"] "chess.json" (fun _ => false) fs where
  quiet := ⟨rfl, rfl⟩
  initial := ⟨_, 0o600, _, rfl, by decide +kernel, StatusJson.fromSlice_toVec _, .inr rfl⟩
  published := by
    intro i published now hcall
    obtain rfl | rfl | rfl : i = 0 ∨ i = 1 ∨ i = 2 := by omega
    · obtain ⟨rfl, rfl⟩ := Call.publish.inj hcall
      exact ⟨by decide +kernel, .inr rfl⟩
    · obtain ⟨rfl, rfl⟩ := Call.publish.inj hcall
      exact ⟨by decide +kernel, .inr rfl⟩
    · cases hcall

end SampleStatus

end Status

end CertaelAgent.Agent
