import CertaelAgent.Agent.Registry
import CertaelAgent.Foundation.Entries

/-!
# Putting a registration together

The files of a registration are written into a new directory. Whatever fails on the way, nothing
else changes, and when all is written the directory holds the registration and nothing more.
-/

namespace CertaelAgent.Agent

open ProtoWire Files Files.FileSystem Program

variable {fs fs₀ : FileSystem} {mayFail : FsOp → Bool} {I : FileSystem → Prop} {p d : Path}
  {name : String} {bytes : Bytes}

theorem modify_of_canonicalize {q : Path} {content : Bytes} {mode : ℕ}
    (hp : fs.canonicalize p = some q) (h : fs.node q = some (.file content mode))
    (f : Bytes → ℕ → Node) : ∃ fs', fs.modify p f = some fs' ∧ WithNode q (f content mode) fs fs' := by
  have hsame : fs.modify p f = fs.modify q f := by
    unfold FileSystem.modify
    rw [hp, canonicalize_idem hp]
  rw [hsame]
  exact modify_file f h

/-! ## Files -/

theorem wp_writeNew {Q : Except Anyhow.Error Unit → FileSystem → Prop} (hp : Leads [name] p d fs)
    (hname : Ordinary name) (hI : ∀ fs', Elsewhere d [name] fs fs' → I fs')
    (herror : ∀ e fs', Elsewhere d [name] fs fs' → Q (.error e) fs')
    (hok : ∀ fs', WithNode (d ++ [name]) (.file bytes 0o644) fs fs' → Q (.ok ()) fs') :
    wp device mayFail I Q (writeNew (p ++ [name]) bytes) fs := by
  have hrefl := Elsewhere.refl d [name] fs
  -- Once the file is there, the path leads to it.
  have hfile : ∀ {fs' content mode}, WithNode (d ++ [name]) (.file content mode) fs fs' →
      fs'.canonicalize (p ++ [name]) = some (d ++ [name]) := by
    intro fs' content mode h
    rw [(hp.after (withNode_elsewhere h)).canonicalize_entry hname (by simp [h.node, Node.IsSymlink]),
      h.node]
    rfl
  unfold writeNew
  apply wp_ensure_bind
  refine ⟨hI fs hrefl, ?_, fun _ => herror _ fs hrefl⟩
  have hcreate : device.perform (FsOp.createNew (p ++ [name])) fs =
      committed fs (fs.create (d ++ [name]) (.file [] newFileMode)) := by
    simp only [device, FsOp.perform, hp.place hname, Option.bind_some]
  rw [hcreate]
  cases hnew : fs.create (d ++ [name]) (.file [] newFileMode) with
  | none => exact herror _ fs hrefl
  | some fs₁ =>
    have h₁ : WithNode (d ++ [name]) (.file [] newFileMode) fs fs₁ := (create_eq_some hnew).2.2
    have hsame₁ := withNode_elsewhere h₁
    rw [committed_some]
    apply wp_ensure_bind
    refine ⟨hI fs₁ hsame₁, ?_, fun _ => herror _ fs₁ hsame₁⟩
    obtain ⟨fs₂, hmode, h₂⟩ := modify_of_canonicalize (hfile h₁) h₁.node
      fun content _ => .file content 0o644
    have hpermissions : device.perform (FsOp.setPermissions (p ++ [name]) 0o644) fs₁ =
        (true, fs₂) := by
      simp only [device, FsOp.perform, hmode, committed_some]
    rw [hpermissions]
    have h₂ := h₁.again h₂
    have hsame₂ := withNode_elsewhere h₂
    apply wp_ensure_bind
    refine ⟨hI fs₂ hsame₂, ?_, fun _ => herror _ fs₂ hsame₂⟩
    obtain ⟨fs₃, hbytes, h₃⟩ := modify_of_canonicalize (hfile h₂) h₂.node
      fun content mode => .file (content ++ bytes) mode
    have happend : device.perform (FsOp.append (p ++ [name]) bytes) fs₂ = (true, fs₃) := by
      simp only [device, FsOp.perform, hbytes, committed_some]
    rw [happend]
    have h₃ := h₂.again h₃
    have hsame₃ := withNode_elsewhere h₃
    apply wp_ensure
    refine ⟨hI fs₃ hsame₃, ?_, fun _ => herror _ fs₃ hsame₃⟩
    rw [perform_syncAll, hfile h₃]
    exact hok fs₃ h₃

theorem wp_makeDirectory {Q : Except Anyhow.Error Unit → FileSystem → Prop} {error : Anyhow.Error}
    {names : List String} (hp : Leads names p d fs) (hname : Ordinary name) (hI : I fs)
    (herror : Q (.error error) fs)
    (hok : ∀ fs', WithNode (d ++ [name]) (.directory true) fs fs' → fs.node (d ++ [name]) = none →
      Q (.ok ()) fs') :
    wp device mayFail I Q (makeDirectory error (p ++ [name])) fs :=
  wp_createDir_entry hp hname hI (fun _ => herror) hok

/-! ## The staging directory -/

section

variable [Codecs]

/-- The files of the branding of a registration. -/
def brandingTable : Option InstalledBranding → Table → Table
  | none, t => t
  | some branding, t =>
    (branding.hero.map fun hero => (["branding", "hero.png"], Node.file hero 0o644)).toList ++
      (["branding", "icon.png"], .file branding.icon 0o644) :: (["branding"], .directory true) :: t

/-- What the directory of a registration holds. -/
def registrationTable (registration : PreparedRegistration) : Table :=
  brandingTable registration.branding <|
    (["registration.json"], .file (Codecs.registrationToVec (storedRegistration registration)) 0o644)
      :: (["update-root.json"], .file registration.updateBytes 0o644)
      :: (["trust-store.json"], .file registration.trustBytes 0o644) :: emptyDirectory

variable {Q : Except Anyhow.Error Unit → FileSystem → Prop} {temporary : String} {t : Table}

omit [Codecs] in
theorem wp_stageFile {u r : Path} (hsame : Elsewhere d [temporary] fs₀ fs)
    (htree : fs.tree (d ++ [temporary]) = t.node)
    (hu : Leads [name] u (d ++ [temporary] ++ r) fs) (hname : Ordinary name)
    (hI : ∀ fs', Elsewhere d [temporary] fs₀ fs' → I fs')
    (herror : ∀ e fs', Elsewhere d [temporary] fs₀ fs' → Q (.error e) fs')
    (hok : ∀ fs', Elsewhere d [temporary] fs₀ fs' →
      fs'.tree (d ++ [temporary]) = Table.node ((r ++ [name], .file bytes 0o644) :: t) →
      Q (.ok ()) fs') :
    wp device mayFail I Q (writeNew (u ++ [name]) bytes) fs := by
  have hup : ∀ {fs'}, Elsewhere (d ++ [temporary] ++ r) [name] fs fs' →
      Elsewhere d [temporary] fs₀ fs' := by
    intro fs' h
    apply hsame.trans
    intro q hq
    apply h
    intro x _ hcut
    apply hq temporary (List.mem_singleton_self temporary)
    exact List.IsPrefix.trans ⟨r ++ [x], by simp⟩ hcut
  apply wp_writeNew hu hname
  · exact fun fs' h => hI fs' (hup h)
  · exact fun e fs' h => herror e fs' (hup h)
  · intro fs' h
    apply hok fs' (hup (withNode_elsewhere h))
    exact tree_of_withNode (by rwa [← List.append_assoc]) htree

omit [Codecs] in
theorem directory_of_tree {e r : Path} (htree : fs.tree e = t.node)
    (h : t.node r = some (.directory true)) : fs.Directory (e ++ r) := by
  rw [directory_iff]
  exact ⟨true, (congrFun htree r).trans h⟩

omit [Codecs] in
theorem leads_temporary (hp : Leads [temporary] p d fs₀) (hsame : Elsewhere d [temporary] fs₀ fs)
    (htree : fs.tree (d ++ [temporary]) = t.node) (hroot : t.node [] = some (.directory true))
    (more : List String) : Leads more (p ++ [temporary]) (d ++ [temporary]) fs := by
  apply (hp.after hsame).entry (List.mem_singleton_self temporary)
  simpa using directory_of_tree htree hroot

omit [Codecs] in
theorem wp_stageBranding (hp : Leads [temporary] p d fs₀) (branding : Option InstalledBranding)
    (hsame : Elsewhere d [temporary] fs₀ fs) (htree : fs.tree (d ++ [temporary]) = t.node)
    (hroot : t.node [] = some (.directory true))
    (hI : ∀ fs', Elsewhere d [temporary] fs₀ fs' → I fs')
    (herror : ∀ e fs', Elsewhere d [temporary] fs₀ fs' → Q (.error e) fs')
    (hok : ∀ fs', Elsewhere d [temporary] fs₀ fs' →
      fs'.tree (d ++ [temporary]) = (brandingTable branding t).node → Q (.ok ()) fs') :
    wp device mayFail I Q (stageBranding (p ++ [temporary]) branding) fs := by
  have hordinary : Ordinary "branding" ∧ Ordinary "icon.png" ∧ Ordinary "hero.png" := by decide
  cases branding with
  | none => exact hok fs hsame htree
  | some branding =>
    have hmem := List.mem_singleton_self "branding"
    apply wp_bind
    apply wp_makeDirectory (leads_temporary hp hsame htree hroot ["branding"]) hordinary.1
    · exact hI fs hsame
    · exact herror _ fs hsame
    intro fs₁ hmade _
    have hsame₁ := hsame.trans (withNode_elsewhere hmade).up
    have htree₁ := tree_of_withNode hmade htree
    have hleads₁ : Leads ["icon.png"] (p ++ [temporary] ++ ["branding"])
        (d ++ [temporary] ++ ["branding"]) fs₁ :=
      (leads_temporary hp hsame₁ htree₁ (by simpa [Table.node] using hroot) ["branding"]).entry hmem
        _ (directory_of_tree htree₁ (by rw [Table.node, if_pos rfl]))
    apply wp_bind
    apply wp_stageFile hsame₁ htree₁ hleads₁ hordinary.2.1 hI
    · exact herror
    intro fs₂ hsame₂ htree₂
    cases hhero : branding.hero with
    | none =>
      apply hok fs₂ hsame₂
      rw [htree₂, brandingTable, hhero]
      rfl
    | some hero =>
      have hleads₂ : Leads ["hero.png"] (p ++ [temporary] ++ ["branding"])
          (d ++ [temporary] ++ ["branding"]) fs₂ :=
        (leads_temporary hp hsame₂ htree₂ (by simpa [Table.node] using hroot) ["branding"]).entry
          hmem _ (directory_of_tree htree₂ (by simp [Table.node]))
      apply wp_stageFile hsame₂ htree₂ hleads₂ hordinary.2.2 hI herror
      intro fs₃ hsame₃ htree₃
      apply hok fs₃ hsame₃
      rw [htree₃, brandingTable, hhero]
      rfl

/-- The staging directory gets the whole registration, or the program fails. -/
theorem wp_stage (hp : Leads [temporary] p d fs) (registration : PreparedRegistration)
    (htree : fs.tree (d ++ [temporary]) = emptyDirectory.node)
    (hI : ∀ fs', Elsewhere d [temporary] fs fs' → I fs')
    (herror : ∀ e fs', Elsewhere d [temporary] fs fs' → Q (.error e) fs')
    (hok : ∀ fs', Elsewhere d [temporary] fs fs' →
      fs'.tree (d ++ [temporary]) = (registrationTable registration).node → Q (.ok ()) fs') :
    wp device mayFail I Q (stage (p ++ [temporary]) registration) fs := by
  have hordinary : Ordinary "trust-store.json" ∧ Ordinary "update-root.json" ∧
      Ordinary "registration.json" := by decide
  have hnext : ∀ {fs₁ : FileSystem} {t : Table} {name : String} (_ : Elsewhere d [temporary] fs fs₁)
      (_ : fs₁.tree (d ++ [temporary]) = t.node) (_ : t.node [] = some (.directory true)),
      Leads [name] (p ++ [temporary]) (d ++ [temporary] ++ []) fs₁ := by
    intro fs₁ t name hsame htree hroot
    rw [List.append_nil]
    exact leads_temporary hp hsame htree hroot [name]
  have hrefl := Elsewhere.refl d [temporary] fs
  unfold stage
  apply wp_bind
  apply wp_stageFile hrefl htree (hnext hrefl htree rfl) hordinary.1 hI
  · exact herror
  intro fs₁ hsame₁ htree₁
  apply wp_bind
  apply wp_stageFile hsame₁ htree₁ (hnext hsame₁ htree₁ rfl) hordinary.2.1 hI
  · exact herror
  intro fs₂ hsame₂ htree₂
  apply wp_bind
  apply wp_stageFile hsame₂ htree₂ (hnext hsame₂ htree₂ rfl) hordinary.2.2 hI
  · exact herror
  intro fs₃ hsame₃ htree₃
  exact wp_stageBranding hp registration.branding hsame₃ htree₃ rfl hI herror hok

end

end CertaelAgent.Agent
