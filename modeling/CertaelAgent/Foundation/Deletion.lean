import CertaelAgent.Foundation.Entries

/-!
# Removal of whole trees

A tree of which every directory can be written to is removed entry by entry, and nothing of it is
left, as long as no operation on its entries fails.
-/

namespace Files

open FileSystem Program

/-- The operations by which the tree at a path is removed. -/
def FsOp.Removing (t : Path) : FsOp → Prop
  | .symlinkMetadata p => t <+: p
  | .readDir p => t <+: p
  | .removeFile p => t <+: p
  | .removeDir p => t <+: p
  | _ => False

theorem FsOp.Removing.mono {t u : Path} {op : FsOp} (h : op.Removing u) (ht : t <+: u) :
    op.Removing t := by
  cases op <;> first | exact ht.trans h | exact h

/-- The entries of every directory of the tree can be removed, and it is not too deep. -/
structure Deletable (depth : ℕ) (tree : Path → Option Node) : Prop where
  writable : ∀ rest, tree rest ≠ some (.directory false)
  shallow : ∀ rest, (tree rest).isSome → rest.length < depth

variable {ε : Type} {fs : FileSystem} {p d : Path} {name : String} {names : List String}
  {depth : ℕ} {mayFail : FsOp → Bool} {I : FileSystem → Prop} {Q : Except ε Bool → FileSystem → Prop}

theorem Deletable.entry {q : Path} (h : Deletable (depth + 1) (fs.tree q)) (name : String) :
    Deletable depth (fs.tree (q ++ [name])) := by
  have hbelow : ∀ rest, fs.tree (q ++ [name]) rest = fs.tree q (name :: rest) := by
    intro rest
    rw [FileSystem.tree, FileSystem.tree, List.append_assoc]
    rfl
  constructor
  · intro rest
    rw [hbelow]
    exact h.writable _
  · intro rest hsome
    rw [hbelow] at hsome
    have hlength := h.shallow _ hsome
    rw [List.length_cons] at hlength
    omega

theorem FileSystem.mem_namesIn_iff {q : Path} :
    name ∈ fs.namesIn q ↔ (fs.node (q ++ [name])).isSome := by
  unfold namesIn
  rw [List.mem_dedup, List.mem_filterMap]
  constructor
  · rintro ⟨⟨key, n⟩, -, hkey⟩
    split_ifs at hkey with hentry
    obtain ⟨rfl, hsome⟩ := hentry
    rwa [List.dropLast_append_getLast? name hkey]
  · intro hsome
    obtain ⟨n, hn⟩ := Option.isSome_iff_exists.mp hsome
    exact ⟨(q ++ [name], n), Table.mem_of_node hn, by simp [hn]⟩

theorem FileSystem.namesIn_eq_nil {q : Path} (h : ∀ name, fs.node (q ++ [name]) = none) :
    fs.namesIn q = [] := by
  rw [List.eq_nil_iff_forall_not_mem]
  intro name hname
  rw [mem_namesIn_iff, h] at hname
  cases hname

/-! ## Single entries -/

theorem wp_removeFile_all (hp : Leads [name] p d fs) (hname : Ordinary name)
    (hwritable : fs.Writable d) (hsome : (fs.node (d ++ [name])).isSome)
    (hfile : ¬ fs.Directory (d ++ [name])) (hquiet : ¬ mayFail (.removeFile (p ++ [name])))
    (hI : I fs) (hQ : ∀ fs', Pruned (d ++ [name]) fs fs' → fs'.node (d ++ [name]) = none →
      Q (.ok true) fs') :
    wp device mayFail I Q (removeFile (p ++ [name])) fs := by
  refine ⟨hI, ?_, fun hfails => absurd hfails hquiet⟩
  have hcan : d ++ [name] ≠ [] ∧ (fs.node (d ++ [name])).isSome ∧ ¬ fs.Directory (d ++ [name]) ∧
      fs.Writable (d ++ [name]).dropLast := by
    rw [List.dropLast_concat]
    exact ⟨by simp, hsome, hfile, hwritable⟩
  have hunlink : fs.unlink (d ++ [name]) = some (fs.remove (d ++ [name]) hcan.1) := by
    unfold unlink
    exact dif_pos hcan
  have hperform : device.perform (FsOp.removeFile (p ++ [name])) fs =
      (true, fs.remove (d ++ [name]) hcan.1) := by
    simp only [device, FsOp.perform, hp.place hname, Option.bind_some, hunlink, committed_some]
  rw [hperform]
  have hnode := unlink_eq_some hunlink
  apply hQ _ (.of_removal hnode)
  rw [hnode, if_pos (List.prefix_refl _)]

theorem wp_removeDir_all (hp : Leads [name] p d fs) (hname : Ordinary name)
    (hwritable : fs.Writable d) (hdirectory : fs.Directory (d ++ [name]))
    (hempty : ∀ x, fs.node (d ++ [name] ++ [x]) = none)
    (hquiet : ¬ mayFail (.removeDir (p ++ [name]))) (hI : I fs)
    (hQ : ∀ fs', Pruned (d ++ [name]) fs fs' → fs'.node (d ++ [name]) = none →
      Q (.ok true) fs') :
    wp device mayFail I Q (removeDir (p ++ [name])) fs := by
  refine ⟨hI, ?_, fun hfails => absurd hfails hquiet⟩
  have hcan : d ++ [name] ≠ [] ∧ fs.Directory (d ++ [name]) ∧ fs.namesIn (d ++ [name]) = [] ∧
      fs.Writable (d ++ [name]).dropLast := by
    rw [List.dropLast_concat]
    exact ⟨by simp, hdirectory, namesIn_eq_nil hempty, hwritable⟩
  have hrmdir : fs.rmdir (d ++ [name]) = some (fs.remove (d ++ [name]) hcan.1) := by
    unfold rmdir
    exact dif_pos hcan
  have hperform : device.perform (FsOp.removeDir (p ++ [name])) fs =
      (true, fs.remove (d ++ [name]) hcan.1) := by
    simp only [device, FsOp.perform, hp.place hname, Option.bind_some, hrmdir, committed_some]
  rw [hperform]
  have hnode := rmdir_eq_some hrmdir
  apply hQ _ (.of_removal hnode)
  rw [hnode, if_pos (List.prefix_refl _)]

/-! ## Directories -/

theorem Pruned.writable {u : Path} {fs' : FileSystem} (h : Pruned p fs fs') (hu : ¬ p <+: u)
    (hd : fs.Writable u) : fs'.Writable u :=
  (h.outside hu).trans hd

/-- If every entry can be removed, whatever the others have become, then all are. -/
theorem wp_removeEntries_all {remove : Path → FileProgram ε Bool} {P : (Path → Option Node) → Prop}
    (hremove : ∀ (fs : FileSystem) (name : String), Leads [name] p d fs → fs.Writable d →
      P (fs.tree (d ++ [name])) →
      ∀ {I : FileSystem → Prop} {Q : Except ε Bool → FileSystem → Prop},
        (∀ fs', Pruned (d ++ [name]) fs fs' → I fs') →
        (∀ fs', Pruned (d ++ [name]) fs fs' → fs'.node (d ++ [name]) = none → Q (.ok true) fs') →
          wp device mayFail I Q (remove (p ++ [name])) fs)
    (hp : Leads names p d fs) (hwritable : fs.Writable d) (hnodup : names.Nodup)
    (htrees : ∀ name ∈ names, P (fs.tree (d ++ [name])))
    (hI : ∀ fs', Pruned d fs fs' → I fs')
    (hQ : ∀ fs', Pruned d fs fs' → fs'.Writable d →
      (∀ name ∈ names, fs'.node (d ++ [name]) = none) → Q (.ok true) fs') :
    wp device mayFail I Q (removeEntries remove p names) fs := by
  induction names generalizing fs with
  | nil => exact hQ fs (.refl _ fs) hwritable (by simp)
  | cons name names ih =>
    rw [List.nodup_cons] at hnodup
    rw [List.forall_mem_cons] at htrees
    have hbelow := List.prefix_append d [name]
    apply wp_bind
    apply hremove fs name (hp.mono (by simp)) hwritable htrees.1
    · intro fs' h
      exact hI fs' (h.mono hbelow)
    · intro fs' h hnone
      have hp' : Leads (name :: names) p d fs' := hp.after (h.elsewhere.mono (by simp))
      apply ih (hp'.mono (List.subset_cons_self name names))
        (h.writable (not_prefix_parent d name) hwritable) hnodup.2
      · intro x hx
        rw [h.elsewhere.tree]
        · exact htrees.2 x hx
        · rintro hxname
          exact hnodup.1 (List.mem_singleton.mp hxname ▸ hx)
      · intro fs'' h'
        exact hI fs'' ((h.mono hbelow).trans h')
      · intro fs'' h' hwritable' hgone
        apply hQ fs'' ((h.mono hbelow).trans h') hwritable'
        rw [List.forall_mem_cons]
        refine ⟨?_, hgone⟩
        -- What is gone stays away.
        rcases h' (d ++ [name]) with hsame | ⟨-, hnone'⟩
        · rw [hsame, hnone]
        · exact hnone'

theorem wp_removeEntry_all : ∀ (depth : ℕ) {fs : FileSystem} {p d : Path} {name : String}
    {I : FileSystem → Prop} {Q : Except ε Bool → FileSystem → Prop}, Leads [name] p d fs →
    fs.Writable d → (fs.node (d ++ [name])).isSome → Deletable depth (fs.tree (d ++ [name])) →
    (∀ op, op.Removing (p ++ [name]) → ¬ mayFail op) → (∀ fs', Pruned (d ++ [name]) fs fs' → I fs') →
    (∀ fs', Pruned (d ++ [name]) fs fs' → fs'.node (d ++ [name]) = none → Q (.ok true) fs') →
    wp device mayFail I Q (removeEntry depth (p ++ [name])) fs := by
  intro depth
  induction depth with
  | zero =>
    intro fs p d name I Q _ _ hsome hdeletable _ _ _
    have hshallow := hdeletable.shallow [] (by rwa [FileSystem.tree, List.append_nil])
    omega
  | succ depth ih =>
    intro fs p d name I Q hp hwritable hsome hdeletable hquiet hI hQ
    obtain ⟨n, hnode⟩ := Option.isSome_iff_exists.mp hsome
    have hname : Ordinary name := fs.ordinary _ _ hnode name (by simp)
    have hrefl := hI fs (.refl _ fs)
    refine ⟨hrefl, ?_, fun hfails => absurd hfails (hquiet _ (List.prefix_refl _))⟩
    simp only [device, FsOp.perform, hp.locate hname, Option.bind_some, hnode]
    change wp device mayFail I Q (ite _ _ _) fs
    split_ifs with hkind
    · have hentry : fs.Writable (d ++ [name]) := by
        cases n with
        | directory writable =>
          cases writable with
          | true => exact hnode
          | false =>
            apply absurd _ (hdeletable.writable [])
            rwa [FileSystem.tree, List.append_nil]
        | file content mode => cases hkind
        | symlink absolute target => cases hkind
      have hleads := hp.entry (List.mem_singleton_self name) (fs.namesIn (d ++ [name]))
        hentry.directory
      refine ⟨hrefl, ?_, fun hfails => absurd hfails (hquiet _ (List.prefix_refl _))⟩
      have hread : device.perform (FsOp.readDir (p ++ [name])) fs =
          (some (fs.namesIn (d ++ [name])), fs) := by
        simp only [device, FsOp.perform, hleads.canonicalize, Option.bind_some,
          if_pos hentry.directory]
      rw [hread]
      change wp device mayFail I Q (removeEntries (removeEntry depth) (p ++ [name])
        (fs.namesIn (d ++ [name])) >>= _) fs
      apply wp_bind
      apply wp_removeEntries_all (P := fun tree => (tree []).isSome ∧ Deletable depth tree) _ hleads
        hentry (List.nodup_dedup _)
      · intro x hx
        refine ⟨?_, hdeletable.entry x⟩
        rw [FileSystem.tree, List.append_nil]
        exact mem_namesIn_iff.mp hx
      · exact hI
      · intro fs' h hentry' hgone
        have hp' := hp.after h.elsewhere
        apply wp_removeDir_all hp' hname (h.writable (not_prefix_parent d name) hwritable)
          hentry'.directory
        · intro x
          by_cases hx : x ∈ fs.namesIn (d ++ [name])
          · exact hgone x hx
          · rw [mem_namesIn_iff, Option.not_isSome_iff_eq_none] at hx
            rcases h (d ++ [name] ++ [x]) with hsame | ⟨-, hnone⟩
            · rw [hsame, hx]
            · exact hnone
        · exact hquiet _ (List.prefix_refl _)
        · exact hI fs' h
        · intro fs'' h'
          exact hQ fs'' (h.trans h')
      · intro fs' x hp' hwritable' htree I' Q' hI' hQ'
        apply ih hp' hwritable' _ htree.2 _ hI' hQ'
        · have hsome' := htree.1
          rwa [FileSystem.tree, List.append_nil] at hsome'
        · intro op hop
          exact hquiet op (hop.mono (List.prefix_append _ _))
    · apply wp_removeFile_all hp hname hwritable hsome _ (hquiet _ (List.prefix_refl _)) hrefl hQ
      intro hdirectory
      obtain ⟨writable, hnode'⟩ := directory_iff.mp hdirectory
      obtain rfl := Option.some.inj (hnode.symm.trans hnode')
      exact hkind rfl

theorem wp_removeTree_all (hp : Leads [name] p d fs) (hwritable : fs.Writable d)
    (hsome : (fs.node (d ++ [name])).isSome)
    (hfile : ∀ content mode, fs.node (d ++ [name]) ≠ some (.file content mode))
    (hdeletable : Deletable maxDepth (fs.tree (d ++ [name])))
    (hquiet : ∀ op, op.Removing (p ++ [name]) → ¬ mayFail op)
    (hI : ∀ fs', Pruned (d ++ [name]) fs fs' → I fs')
    (hQ : ∀ fs', Pruned (d ++ [name]) fs fs' → fs'.node (d ++ [name]) = none → Q (.ok true) fs') :
    wp device mayFail I Q (removeTree (p ++ [name])) fs := by
  obtain ⟨n, hnode⟩ := Option.isSome_iff_exists.mp hsome
  have hname : Ordinary name := fs.ordinary _ _ hnode name (by simp)
  refine ⟨hI fs (.refl _ fs), ?_, fun hfails => absurd hfails (hquiet _ (List.prefix_refl _))⟩
  simp only [device, FsOp.perform, hp.locate hname, Option.bind_some, hnode]
  change wp device mayFail I Q (ite _ _ _) fs
  split_ifs with hkind
  · cases n with
    | file content mode => exact absurd hnode (hfile content mode)
    | directory writable => cases hkind
    | symlink absolute target => cases hkind
  · exact wp_removeEntry_all maxDepth hp hwritable hsome hdeletable hquiet hI hQ

end Files
