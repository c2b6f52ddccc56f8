import CertaelAgent.Foundation.FilePrograms

/-!
# Entries of one directory

What programs do to the entries of a directory: each entry is a tree of its own, a step that works
on one of them leaves the others as they are, and a rename carries a whole tree along. Nothing is
assumed about links inside the trees, whatever fails.
-/

namespace Files

open FileSystem Program

/-- The tree at a path. -/
def FileSystem.tree (fs : FileSystem) (p rest : Path) : Option Node := fs.node (p ++ rest)

/-- The systems agree except at and below the entries. -/
def Elsewhere (d : Path) (names : List String) (fs fs' : FileSystem) : Prop :=
  ∀ q, (∀ name ∈ names, ¬ d ++ [name] <+: q) → fs'.node q = fs.node q

theorem not_prefix_entry {d rest : Path} {name other : String} (h : name ≠ other) :
    ¬ d ++ [name] <+: d ++ [other] ++ rest := by
  rw [List.append_assoc, List.prefix_append_right_inj]
  intro hcut
  exact h (List.cons_prefix_cons.mp hcut).1

variable {ε α β : Type} {d : Path} {name : String} {names : List String} {fs fs' fs'' : FileSystem}

namespace Elsewhere

theorem refl (d : Path) (names : List String) (fs : FileSystem) : Elsewhere d names fs fs :=
  fun _ _ => rfl

theorem trans (h : Elsewhere d names fs fs') (h' : Elsewhere d names fs' fs'') :
    Elsewhere d names fs fs'' :=
  fun q hq => (h' q hq).trans (h q hq)

theorem mono {more : List String} (h : Elsewhere d names fs fs') (hsub : names ⊆ more) :
    Elsewhere d more fs fs' :=
  fun q hq => h q fun name hname => hq name (hsub hname)

theorem tree (h : Elsewhere d names fs fs') (hname : name ∉ names) :
    fs'.tree (d ++ [name]) = fs.tree (d ++ [name]) := by
  funext rest
  apply h
  intro other hother
  apply not_prefix_entry
  rintro rfl
  exact hname hother

theorem node (h : Elsewhere d names fs fs') (hname : name ∉ names) :
    fs'.node (d ++ [name]) = fs.node (d ++ [name]) := by
  simpa [FileSystem.tree] using congrFun (h.tree hname) []

theorem node_self (h : Elsewhere d names fs fs') : fs'.node d = fs.node d := by
  apply h
  intro other _ hcut
  have hle := hcut.length_le
  rw [List.length_append, List.length_singleton] at hle
  omega

theorem directory (h : Elsewhere d names fs fs') (hd : fs.Directory d) : fs'.Directory d := by
  rw [directory_iff] at hd ⊢
  rwa [h.node_self]

/-- What happens in an entry that is a directory happens to the entry. -/
theorem up (h : Elsewhere (d ++ [name]) names fs fs') : Elsewhere d [name] fs fs' := by
  intro q hq
  apply h
  intro other _ hcut
  exact hq name (List.mem_singleton_self name) ((List.prefix_append _ [other]).trans hcut)

theorem outside (h : Elsewhere d names fs fs') {q : Path} (hq : ¬ d <+: q) :
    fs'.node q = fs.node q :=
  h q fun name _ hcut => hq ((List.prefix_append d [name]).trans hcut)

end Elsewhere

/-- The path leads to the directory, whatever becomes of the entries. -/
structure Leads (names : List String) (p d : Path) (fs : FileSystem) : Prop where
  directory : fs.Directory d
  resolves : ∀ fs', Elsewhere d names fs fs' → fs'.canonicalize p = some d

namespace Leads

variable {p : Path}

theorem of_directory (names : List String) (hd : fs.Directory d) : Leads names d d fs where
  directory := hd
  resolves _ h := canonicalize_of_real (h.directory hd).real

theorem canonicalize (h : Leads names p d fs) : fs.canonicalize p = some d :=
  h.resolves fs (.refl d names fs)

theorem mono {more : List String} (h : Leads more p d fs) (hsub : names ⊆ more) :
    Leads names p d fs where
  directory := h.directory
  resolves fs' h' := h.resolves fs' (h'.mono hsub)

theorem after (h : Leads names p d fs) (hsame : Elsewhere d names fs fs') : Leads names p d fs' where
  directory := hsame.directory h.directory
  resolves fs'' h' := h.resolves fs'' (hsame.trans h')

theorem place (h : Leads names p d fs) (hname : Ordinary name) :
    fs.place (p ++ [name]) = some (d ++ [name]) := by
  simp [FileSystem.place, hname, h.canonicalize, h.directory]

theorem locate (h : Leads names p d fs) (hname : Ordinary name) :
    fs.locate (p ++ [name]) = some (d ++ [name]) := by
  simp [FileSystem.locate, hname, h.place hname]

/-- An entry that is no link is what its name leads to. -/
theorem canonicalize_entry (h : Leads names p d fs) (hname : Ordinary name)
    (hlink : ∀ n ∈ fs.node (d ++ [name]), ¬ n.IsSymlink) :
    fs.canonicalize (p ++ [name]) = (fs.node (d ++ [name])).map fun _ => d ++ [name] :=
  canonicalize_concat hname h.canonicalize hlink

theorem entry (h : Leads names p d fs) (hname : name ∈ names) (more : List String)
    (hentry : fs.Directory (d ++ [name])) : Leads more (p ++ [name]) (d ++ [name]) fs where
  directory := hentry
  resolves fs' h' := by
    obtain ⟨writable, hnode⟩ := directory_iff.mp (h'.directory hentry)
    have hordinary : Ordinary name := fs'.ordinary _ _ hnode name (by simp)
    have hresolves : fs'.canonicalize p = some d :=
      h.resolves fs' (h'.up.mono (by simpa using hname))
    rw [canonicalize_concat hordinary hresolves (by simp [hnode, Node.IsSymlink]), hnode]
    rfl

end Leads

/-! ## Removal -/

/-- Some of what is at and below the path is gone. -/
def Pruned (p : Path) (fs fs' : FileSystem) : Prop :=
  ∀ q, fs'.node q = fs.node q ∨ (p <+: q ∧ fs'.node q = none)

namespace Pruned

variable {p : Path}

theorem refl (p : Path) (fs : FileSystem) : Pruned p fs fs := fun _ => .inl rfl

theorem trans (h : Pruned p fs fs') (h' : Pruned p fs' fs'') : Pruned p fs fs'' := by
  intro q
  rcases h' q with hsame | hgone
  · rw [hsame]
    exact h q
  · exact .inr hgone

theorem mono {u : Path} (h : Pruned p fs fs') (hu : u <+: p) : Pruned u fs fs' :=
  fun q => (h q).imp_right fun hgone => ⟨hu.trans hgone.1, hgone.2⟩

theorem outside (h : Pruned p fs fs') {q : Path} (hq : ¬ p <+: q) : fs'.node q = fs.node q :=
  (h q).resolve_right fun hgone => hq hgone.1

theorem elsewhere (h : Pruned (d ++ [name]) fs fs') : Elsewhere d [name] fs fs' :=
  fun _ hq => h.outside (hq name (List.mem_singleton_self _))

theorem of_removal (h : ∀ q, fs'.node q = if p <+: q then none else fs.node q) :
    Pruned p fs fs' := by
  intro q
  rw [h]
  split_ifs with hq
  · exact .inr ⟨hq, rfl⟩
  · exact .inl rfl

end Pruned

theorem not_prefix_parent (d : Path) (name : String) : ¬ d ++ [name] <+: d := by
  intro hcut
  have hle := hcut.length_le
  rw [List.length_append, List.length_singleton] at hle
  omega

variable {p : Path} {mayFail : FsOp → Bool} {I : FileSystem → Prop}
  {Q : Except ε Bool → FileSystem → Prop}

theorem wp_removeFile_entry (hp : Leads [name] p d fs) (hname : Ordinary name) (hI : I fs)
    (hQ : ∀ removed fs', Pruned (d ++ [name]) fs fs' →
      (removed = true → fs'.node (d ++ [name]) = none) → Q (.ok removed) fs') :
    wp device mayFail I Q (removeFile (p ++ [name])) fs := by
  refine ⟨hI, ?_, fun _ => hQ false fs (.refl _ fs) (by simp)⟩
  have hperform : device.perform (FsOp.removeFile (p ++ [name])) fs =
      committed fs (fs.unlink (d ++ [name])) := by
    simp only [device, FsOp.perform, hp.place hname, Option.bind_some]
  rw [hperform]
  cases hunlink : fs.unlink (d ++ [name]) with
  | none => exact hQ false fs (.refl _ fs) (by simp)
  | some fs' =>
    have hnode := unlink_eq_some hunlink
    apply hQ true fs' (.of_removal hnode)
    intro _
    rw [hnode, if_pos (List.prefix_refl _)]

theorem wp_removeDir_entry (hp : Leads [name] p d fs) (hname : Ordinary name) (hI : I fs)
    (hQ : ∀ removed fs', Pruned (d ++ [name]) fs fs' →
      (removed = true → fs'.node (d ++ [name]) = none) → Q (.ok removed) fs') :
    wp device mayFail I Q (removeDir (p ++ [name])) fs := by
  refine ⟨hI, ?_, fun _ => hQ false fs (.refl _ fs) (by simp)⟩
  have hperform : device.perform (FsOp.removeDir (p ++ [name])) fs =
      committed fs (fs.rmdir (d ++ [name])) := by
    simp only [device, FsOp.perform, hp.place hname, Option.bind_some]
  rw [hperform]
  cases hrmdir : fs.rmdir (d ++ [name]) with
  | none => exact hQ false fs (.refl _ fs) (by simp)
  | some fs' =>
    have hnode := rmdir_eq_some hrmdir
    apply hQ true fs' (.of_removal hnode)
    intro _
    rw [hnode, if_pos (List.prefix_refl _)]

theorem wp_removeEntries {remove : Path → FileProgram ε Bool}
    (hremove : ∀ (fs : FileSystem) (name : String), Leads [name] p d fs → Ordinary name →
      ∀ {I : FileSystem → Prop} {Q : Except ε Bool → FileSystem → Prop},
        (∀ fs', Pruned (d ++ [name]) fs fs' → I fs') →
        (∀ removed fs', Pruned (d ++ [name]) fs fs' → Q (.ok removed) fs') →
          wp device mayFail I Q (remove (p ++ [name])) fs)
    (hnames : ∀ name ∈ names, Ordinary name) (hp : Leads names p d fs)
    (hI : ∀ fs', Pruned d fs fs' → I fs')
    (hQ : ∀ removed fs', Pruned d fs fs' → fs'.Directory d → Q (.ok removed) fs') :
    wp device mayFail I Q (removeEntries remove p names) fs := by
  induction names generalizing fs with
  | nil => exact hQ true fs (.refl _ fs) hp.directory
  | cons name names ih =>
    rw [List.forall_mem_cons] at hnames
    have hbelow := List.prefix_append d [name]
    apply wp_bind
    apply hremove fs name (hp.mono (by simp)) hnames.1
    · intro fs' h
      exact hI fs' (h.mono hbelow)
    · intro removed fs' h
      have hp' : Leads (name :: names) p d fs' := hp.after (h.elsewhere.mono (by simp))
      cases removed with
      | false => exact hQ false fs' (h.mono hbelow) hp'.directory
      | true =>
        apply ih hnames.2 (hp'.mono (List.subset_cons_self name names))
        · intro fs'' h'
          exact hI fs'' ((h.mono hbelow).trans h')
        · intro removed fs'' h'
          exact hQ removed fs'' ((h.mono hbelow).trans h')

theorem wp_removeEntry : ∀ (depth : ℕ) {fs : FileSystem} {p d : Path} {name : String}
    {I : FileSystem → Prop} {Q : Except ε Bool → FileSystem → Prop}, Leads [name] p d fs →
    Ordinary name → (∀ fs', Pruned (d ++ [name]) fs fs' → I fs') →
    (∀ removed fs', Pruned (d ++ [name]) fs fs' →
      (removed = true → fs'.node (d ++ [name]) = none) → Q (.ok removed) fs') →
    wp device mayFail I Q (removeEntry depth (p ++ [name])) fs := by
  intro depth
  induction depth with
  | zero =>
    intro fs p d name I Q _ _ _ hQ
    exact hQ false fs (.refl _ fs) (by simp)
  | succ depth ih =>
    intro fs p d name I Q hp hname hI hQ
    have hrefl := hI fs (.refl _ fs)
    have hstop : Q (.ok false) fs := hQ false fs (.refl _ fs) (by simp)
    refine ⟨hrefl, ?_, fun _ => hstop⟩
    simp only [device, FsOp.perform, hp.locate hname, Option.bind_some]
    cases hnode : fs.node (d ++ [name]) with
    | none => exact hstop
    | some n =>
      change wp device mayFail I Q (ite _ _ _) fs
      split_ifs with hdirectory
      · have hentry : fs.Directory (d ++ [name]) := by
          cases n with
          | directory writable => exact directory_iff.mpr ⟨writable, hnode⟩
          | file content mode => cases hdirectory
          | symlink absolute target => cases hdirectory
        have hleads := hp.entry (List.mem_singleton_self name) (fs.namesIn (d ++ [name])) hentry
        refine ⟨hrefl, ?_, fun _ => hstop⟩
        have hread : device.perform (FsOp.readDir (p ++ [name])) fs =
            (some (fs.namesIn (d ++ [name])), fs) := by
          simp only [device, FsOp.perform, hleads.canonicalize, Option.bind_some, if_pos hentry]
        rw [hread]
        change wp device mayFail I Q (removeEntries (removeEntry depth) (p ++ [name])
          (fs.namesIn (d ++ [name])) >>= _) fs
        apply wp_bind
        apply wp_removeEntries _ (fun x hx => ordinary_of_mem_namesIn hx) hleads hI
        · intro removed fs' h _
          cases removed with
          | false =>
            apply hQ false fs' h
            intro hremoved
            cases hremoved
          | true =>
            apply wp_removeDir_entry (hp.after h.elsewhere) hname (hI fs' h)
            intro removed fs'' h'
            exact hQ removed fs'' (h.trans h')
        · intro fs' x hp' hx I' Q' hI' hQ'
          exact ih hp' hx hI' fun removed fs'' h _ => hQ' removed fs'' h
      · exact wp_removeFile_entry hp hname hrefl hQ

theorem wp_removeTree (hp : Leads [name] p d fs) (hname : Ordinary name)
    (hI : ∀ fs', Pruned (d ++ [name]) fs fs' → I fs')
    (hQ : ∀ removed fs', Pruned (d ++ [name]) fs fs' →
      (removed = true → fs'.node (d ++ [name]) = none) → Q (.ok removed) fs') :
    wp device mayFail I Q (removeTree (p ++ [name])) fs := by
  have hstop : Q (.ok false) fs := by
    apply hQ false fs (.refl _ fs)
    intro hremoved
    cases hremoved
  apply wp_read (show device.reads (.symlinkMetadata (p ++ [name])) from rfl) (hI fs (.refl _ fs))
  intro reply
  cases reply with
  | none => exact hstop
  | some metadata =>
    change wp device mayFail I Q (ite _ _ _) fs
    split_ifs
    · exact hstop
    · exact wp_removeEntry maxDepth hp hname hI hQ

/-! ## Renames -/

/-- One entry has been moved over another one. -/
structure Moved (d : Path) (source target : String) (fs fs' : FileSystem) : Prop where
  elsewhere : Elsewhere d [source, target] fs fs'
  tree : fs'.tree (d ++ [target]) = fs.tree (d ++ [source])
  gone : source ≠ target → fs'.tree (d ++ [source]) = fun _ => none

theorem moved_of_renameEntry {source target : String}
    (h : fs.renameEntry (d ++ [source]) (d ++ [target]) = some fs') :
    Moved d source target fs fs' := by
  by_cases hsame : source = target
  · subst hsame
    have hfs : fs' = fs := by
      unfold renameEntry at h
      rw [if_pos rfl] at h
      split_ifs at h
      exact (Option.some.inj h).symm
    subst hfs
    exact ⟨.refl d _ fs', rfl, fun hne => absurd rfl hne⟩
  · have hne : d ++ [source] ≠ d ++ [target] := fun heq => hsame (by simpa using heq)
    obtain ⟨-, -, hnode⟩ := renameEntry_eq_some h hne
    have hapart : ∀ rest, ¬ d ++ [target] <+: d ++ [source] ++ rest :=
      fun rest => not_prefix_entry (Ne.symm hsame)
    refine ⟨?_, ?_, fun _ => ?_⟩
    · intro q hq
      rw [hnode, if_neg (hq target (by simp)), if_neg (hq source (by simp))]
    · funext rest
      rw [FileSystem.tree, hnode, if_pos (List.prefix_append _ _), List.drop_left]
      rfl
    · funext rest
      rw [FileSystem.tree, hnode, if_neg (hapart rest), if_pos (List.prefix_append _ _)]

theorem wp_rename_entry {source target : String} {next : Bool → FileProgram ε α}
    {Q : Except ε α → FileSystem → Prop} (hp : Leads names p d fs) (hI : I fs)
    (hfailed : wp device mayFail I Q (next false) fs)
    (hmoved : ∀ fs', fs.renameEntry (d ++ [source]) (d ++ [target]) = some fs' →
      wp device mayFail I Q (next true) fs') :
    wp device mayFail I Q (.call (FsOp.rename (p ++ [source]) (p ++ [target])) next) fs := by
  refine ⟨hI, ?_, fun _ => hfailed⟩
  by_cases hnames : Ordinary source ∧ Ordinary target
  · have hperform : device.perform (FsOp.rename (p ++ [source]) (p ++ [target])) fs =
        committed fs (fs.renameEntry (d ++ [source]) (d ++ [target])) := by
      simp only [device, FsOp.perform, hp.place hnames.1, hp.place hnames.2, Option.bind_some]
    rw [hperform]
    cases hrename : fs.renameEntry (d ++ [source]) (d ++ [target]) with
    | none => exact hfailed
    | some fs' => exact hmoved fs' hrename
  · have hplace : ∀ name, ¬ Ordinary name → fs.place (p ++ [name]) = none := by
      intro name hname
      simp [FileSystem.place, hname]
    have hperform : device.perform (FsOp.rename (p ++ [source]) (p ++ [target])) fs =
        (false, fs) := by
      rcases not_and_or.mp hnames with hsource | htarget
      · simp only [device, FsOp.perform, hplace source hsource, Option.bind_none, committed_none]
      · simp only [device, FsOp.perform, hplace target htarget, Option.bind_none,
          Option.bind_fun_none, committed_none]
    rw [hperform]
    exact hfailed

theorem writable_of_renameEntry {source target : String} (hne : source ≠ target)
    (h : fs.renameEntry (d ++ [source]) (d ++ [target]) = some fs') :
    fs.Writable d ∧ (fs.node (d ++ [source])).isSome ∧ Ordinary source ∧ Ordinary target := by
  have hpath : d ++ [source] ≠ d ++ [target] := fun heq => hne (by simpa using heq)
  unfold renameEntry at h
  rw [if_neg hpath] at h
  split_ifs at h with hcan
  obtain ⟨hmovable, hwritable, -, -⟩ := hcan
  rw [List.dropLast_concat] at hwritable
  obtain ⟨n, hn⟩ := Option.isSome_iff_exists.mp hmovable.exists_source
  obtain ⟨last, hlast, htarget⟩ := hmovable.name
  rw [List.getLast?_concat] at hlast
  obtain rfl := Option.some.inj hlast
  exact ⟨hwritable, hmovable.exists_source, fs.ordinary _ _ hn source (by simp), htarget⟩

theorem tree_of_none {q : Path} (h : fs.node q = none) : fs.tree q = fun _ => none := by
  funext rest
  by_cases hrest : rest = []
  · rw [FileSystem.tree, hrest, List.append_nil, h]
  · exact node_append_of_not_directory (not_directory_of_none h) hrest

/-- An entry can be moved to where nothing is. -/
theorem renameEntry_vacant {source target : String} (hwritable : fs.Writable d)
    (hsome : (fs.node (d ++ [source])).isSome) (htarget : Ordinary target)
    (hvacant : fs.node (d ++ [target]) = none) :
    ∃ fs', fs.renameEntry (d ++ [source]) (d ++ [target]) = some fs' := by
  have hne : d ++ [source] ≠ d ++ [target] := by
    intro heq
    rw [heq, hvacant] at hsome
    cases hsome
  have hnone : ∀ rest, fs.node (d ++ [target] ++ rest) = none := congrFun (tree_of_none hvacant)
  have hmovable : fs.Movable (d ++ [source]) (d ++ [target]) := by
    refine ⟨hsome, by simp, ⟨target, by simp, htarget⟩, ?_, ?_, ?_⟩
    · rw [List.dropLast_concat]
      exact hwritable.directory
    · intro hcut
      exact hne (hcut.eq_of_length (by simp))
    · rintro ⟨key, n⟩ hentry ⟨rest, rfl⟩
      have hkey : (fs.node (d ++ [target] ++ rest)).isSome := Table.isSome_of_mem hentry
      rw [hnone] at hkey
      cases hkey
  unfold renameEntry
  rw [if_neg hne, dif_pos ⟨hmovable, by simpa using hwritable, by simpa using hwritable, .inl hvacant⟩]
  exact ⟨_, rfl⟩

theorem wp_rename_vacant {source target : String} {next : Bool → FileProgram ε α}
    {Q : Except ε α → FileSystem → Prop} (hp : Leads names p d fs) (hwritable : fs.Writable d)
    (hsome : (fs.node (d ++ [source])).isSome) (htarget : Ordinary target)
    (hvacant : fs.node (d ++ [target]) = none)
    (hquiet : ¬ mayFail (.rename (p ++ [source]) (p ++ [target]))) (hI : I fs)
    (hmoved : ∀ fs', Moved d source target fs fs' → wp device mayFail I Q (next true) fs') :
    wp device mayFail I Q (.call (FsOp.rename (p ++ [source]) (p ++ [target])) next) fs := by
  refine ⟨hI, ?_, fun hfails => absurd hfails hquiet⟩
  obtain ⟨n, hn⟩ := Option.isSome_iff_exists.mp hsome
  have hsource : Ordinary source := fs.ordinary _ _ hn source (by simp)
  obtain ⟨fs', hrename⟩ := renameEntry_vacant hwritable hsome htarget hvacant
  have hperform : device.perform (FsOp.rename (p ++ [source]) (p ++ [target])) fs = (true, fs') := by
    simp only [device, FsOp.perform, hp.place hsource, hp.place htarget, Option.bind_some, hrename,
      committed_some]
  rw [hperform]
  exact hmoved fs' (moved_of_renameEntry hrename)

/-- A move to where nothing is and the move back leave nothing changed. -/
theorem Moved.undo {source target : String} (h : Moved d source target fs fs')
    (h' : Moved d target source fs' fs'') (hne : source ≠ target)
    (hvacant : fs.node (d ++ [target]) = none) (q : Path) : fs''.node q = fs.node q := by
  by_cases hsource : d ++ [source] <+: q
  · obtain ⟨rest, rfl⟩ := hsource
    exact (congrFun h'.tree rest).trans (congrFun h.tree rest)
  · by_cases htarget : d ++ [target] <+: q
    · obtain ⟨rest, rfl⟩ := htarget
      exact (congrFun (h'.gone hne.symm) rest).trans (congrFun (tree_of_none hvacant) rest).symm
    · have haway : ∀ name ∈ [source, target], ¬ d ++ [name] <+: q := by simp [hsource, htarget]
      rw [h'.elsewhere q (fun name hname => haway name (by simpa [or_comm] using hname)),
        h.elsewhere q haway]

/-! ## New entries -/

theorem withNode_elsewhere {n : Node} (h : WithNode (d ++ [name]) n fs fs') :
    Elsewhere d [name] fs fs' := by
  intro q hq
  rw [h, if_neg]
  rintro rfl
  exact hq name (List.mem_singleton_self _) (List.prefix_refl _)

theorem tree_of_withNode {t : Table} {rest : Path} {n : Node} (h : WithNode (p ++ rest) n fs fs')
    (htree : fs.tree p = t.node) : fs'.tree p = Table.node ((rest, n) :: t) := by
  funext q
  rw [FileSystem.tree, h, Table.node, ← htree, FileSystem.tree]
  simp only [List.append_right_inj]

/-- The tree of a directory with nothing in it. -/
def emptyDirectory : Table := [([], .directory true)]

theorem wp_createDir_entry {next : Except IoError Unit → FileProgram ε α}
    {Q : Except ε α → FileSystem → Prop} (hp : Leads names p d fs) (hname : Ordinary name)
    (hI : I fs) (hfailed : ∀ e, wp device mayFail I Q (next (.error e)) fs)
    (hmade : ∀ fs', WithNode (d ++ [name]) (.directory true) fs fs' →
      fs.node (d ++ [name]) = none → wp device mayFail I Q (next (.ok ())) fs') :
    wp device mayFail I Q (.call (FsOp.createDir (p ++ [name])) next) fs := by
  refine ⟨hI, ?_, fun _ => hfailed _⟩
  simp only [device, FsOp.perform, trimmed_append hname, hp.place hname]
  cases hcreate : fs.create (d ++ [name]) (.directory true) with
  | none => exact hfailed _
  | some fs' =>
    obtain ⟨hnone, -, hnode⟩ := create_eq_some hcreate
    exact hmade fs' hnode hnone

theorem tree_of_made (h : WithNode p (.directory true) fs fs') (hnone : fs.node p = none) :
    fs'.tree p = emptyDirectory.node := by
  funext rest
  rw [FileSystem.tree, h, emptyDirectory, Table.node]
  by_cases hrest : rest = []
  · rw [if_pos (by simp [hrest]), if_pos hrest]
  · rw [if_neg (by simpa using hrest), if_neg hrest,
      node_append_of_not_directory (not_directory_of_none hnone) hrest]
    rfl

/-! ## Directories on the way to a path -/

/-- Directories have been made that were missing on the way to the path. -/
def MadeAbove (d : Path) (fs fs' : FileSystem) : Prop :=
  ∀ q, fs'.node q = fs.node q ∨
    (q <+: d ∧ fs.node q = none ∧ fs'.node q = some (.directory true))

namespace MadeAbove

theorem refl (d : Path) (fs : FileSystem) : MadeAbove d fs fs := fun _ => .inl rfl

theorem trans (h : MadeAbove d fs fs') (h' : MadeAbove d fs' fs'') : MadeAbove d fs fs'' := by
  intro q
  rcases h' q with hsame | ⟨hq, hnone, hmade⟩
  · rw [hsame]
    exact h q
  · rcases h q with hsame | ⟨-, -, hmade'⟩
    · exact .inr ⟨hq, hsame.symm.trans hnone, hmade⟩
    · rw [hnone] at hmade'
      cases hmade'

theorem linkFree (h : MadeAbove d fs fs') {q : Path} (hq : fs.LinkFree q) : fs'.LinkFree q := by
  intro r hr n hn
  rcases h r with hsame | ⟨-, -, hmade⟩
  · exact hq r hr n (hsame ▸ hn)
  · obtain rfl := Option.some.inj (hmade.symm.trans hn)
    exact id

theorem below (h : MadeAbove d fs fs') {q : Path} (hq : ¬ q <+: d) : fs'.node q = fs.node q :=
  (h q).resolve_right fun hmade => hq hmade.1

theorem tree (h : MadeAbove d fs fs') (name : String) :
    fs'.tree (d ++ [name]) = fs.tree (d ++ [name]) := by
  funext rest
  apply h.below
  intro hcut
  exact not_prefix_parent d name ((List.prefix_append _ rest).trans hcut)

theorem elsewhere {rest : Path} (h : MadeAbove (d ++ name :: rest) fs fs') (hd : fs.Directory d) :
    Elsewhere d [name] fs fs' := by
  intro q hq
  rcases h q with hsame | ⟨hcut, hnone, -⟩
  · exact hsame
  · have hbelow : ¬ q <+: d := by
      rintro ⟨x, rfl⟩
      obtain ⟨writable, hnode⟩ := directory_iff.mp hd
      by_cases hx : x = []
      · rw [hx, List.append_nil, hnone] at hnode
        cases hnode
      · exact not_directory_of_none hnone (directory_of_append hnode hx)
    rcases List.prefix_or_prefix_of_prefix hcut
      (List.prefix_append d (name :: rest)) with hover | ⟨x, rfl⟩
    · exact absurd hover hbelow
    · rw [List.prefix_append_right_inj] at hcut
      cases x with
      | nil => exact absurd (by simp) hbelow
      | cons y x =>
        obtain ⟨rfl, -⟩ := List.cons_prefix_cons.mp hcut
        apply absurd _ (hq y (List.mem_singleton_self y))
        exact ⟨x, by simp⟩

end MadeAbove

theorem parent_append {d : Path} {name : String} (h : Ordinary name) :
    parent (d ++ [name]) = some d := by
  simp [parent, h.1, h.2.1]

section

variable {up c rest : Path}

/-- Where the names behind a path are no links, they lead nowhere else. -/
theorem eq_of_canonicalize_append (hrest : ∀ name ∈ rest, Ordinary name)
    (hup : fs.canonicalize up = some c) (hfree : fs.LinkFree (c ++ rest)) {q : Path}
    (h : fs.canonicalize (up ++ rest) = some q) : q = c ++ rest := by
  induction rest using List.reverseRecOn generalizing q with
  | nil =>
    rw [List.append_nil] at h ⊢
    exact Option.some.inj (h.symm.trans hup)
  | append_singleton rest name ih =>
    rw [← List.append_assoc] at h hfree
    have hbelow := List.prefix_append (c ++ rest) [name]
    obtain ⟨e, he⟩ := Option.isSome_iff_exists.mp <| isSome_canonicalize_of_append <|
      Option.isSome_iff_exists.mpr ⟨q, h⟩
    obtain rfl := ih (fun x hx => hrest x (List.mem_append_left _ hx)) (hfree.above hbelow) he
    rw [canonicalize_concat (hrest name (by simp)) he (hfree _ (List.prefix_refl _)),
      Option.map_eq_some_iff] at h
    obtain ⟨-, -, rfl⟩ := h
    exact List.append_assoc _ _ _

theorem canonicalize_append_of_directory (hup : fs.canonicalize up = some c)
    (hd : fs.Directory (c ++ rest)) : fs.canonicalize (up ++ rest) = some (c ++ rest) := by
  induction rest using List.reverseRecOn with
  | nil => rwa [List.append_nil, List.append_nil]
  | append_singleton rest name ih =>
    rw [← List.append_assoc] at hd
    obtain ⟨writable, hnode⟩ := directory_iff.mp hd
    have hname : Ordinary name := fs.ordinary _ _ hnode name (by simp)
    have hlink : ∀ n ∈ fs.node (c ++ rest ++ [name]), ¬ n.IsSymlink := by
      rw [hnode]
      rintro n ⟨⟩
      exact id
    rw [← List.append_assoc, ← List.append_assoc,
      canonicalize_concat hname (ih (fs.parent _ _ _ hnode)) hlink, hnode]
    rfl

end

/-- The path leads to the directory, or would if the names were there that may be missing. -/
def Reaches (names : List String) (p d : Path) (fs : FileSystem) : Prop :=
  Leads names p d fs ∨ ∃ up c x rest, p = up ++ x :: rest ∧ d = c ++ x :: rest ∧
    Leads [x] up c fs ∧ (∀ name ∈ x :: rest, Ordinary name) ∧ fs.LinkFree d

theorem MadeAbove.node_of_isSome (h : MadeAbove d fs fs') (hd : (fs.node d).isSome) (q : Path) :
    fs'.node q = fs.node q := by
  rcases h q with hsame | ⟨⟨rest, rfl⟩, hnone, -⟩
  · exact hsame
  · have hgone := congrFun (tree_of_none hnone) rest
    rw [FileSystem.tree] at hgone
    rw [hgone] at hd
    cases hd

namespace Reaches

theorem made (h : Reaches names p d fs) (hmade : MadeAbove d fs fs') : Reaches names p d fs' := by
  rcases h with hleads | ⟨up, c, x, rest, rfl, rfl, hup, hordinary, hfree⟩
  · obtain ⟨writable, hd⟩ := directory_iff.mp hleads.directory
    exact .inl (hleads.after fun q _ => hmade.node_of_isSome (by simp [hd]) q)
  · exact .inr ⟨up, c, x, rest, rfl, rfl, hup.after (hmade.elsewhere hup.directory), hordinary,
      hmade.linkFree hfree⟩

theorem after (h : Reaches names p d fs) (hsame : Elsewhere d names fs fs') :
    Reaches names p d fs' := by
  rcases h with hleads | ⟨up, c, x, rest, rfl, rfl, hup, hordinary, hfree⟩
  · exact .inl (hleads.after hsame)
  · refine .inr ⟨up, c, x, rest, rfl, rfl, hup.after ?_, hordinary, ?_⟩
    · intro q hq
      apply hsame
      intro y _ hcut
      apply hq x (List.mem_singleton_self x)
      exact List.IsPrefix.trans ⟨rest ++ [y], by simp⟩ hcut
    · intro q hq n hn
      rw [hsame q] at hn
      · exact hfree q hq n hn
      · intro y _ hcut
        exact not_prefix_parent _ y (hcut.trans hq)

theorem leads (h : Reaches names p d fs) (hd : fs.Directory d) : Leads names p d fs := by
  rcases h with hleads | ⟨up, c, x, rest, rfl, rfl, hup, -, -⟩
  · exact hleads
  · refine ⟨hd, fun fs' hsame => ?_⟩
    apply canonicalize_append_of_directory _ (hsame.directory hd)
    apply hup.resolves
    intro q hq
    apply hsame
    intro y _ hcut
    apply hq x (List.mem_singleton_self x)
    exact List.IsPrefix.trans ⟨rest ++ [y], by simp⟩ hcut

theorem canonicalize_eq_none (h : Reaches names p d fs) (hname : Ordinary name)
    (hnone : fs.node (d ++ [name]) = none) : fs.canonicalize (p ++ [name]) = none := by
  rcases h with hleads | ⟨up, c, x, rest, rfl, rfl, hup, hordinary, hfree⟩
  · rw [hleads.canonicalize_entry hname (by simp [hnone]), hnone]
    rfl
  · cases hq : fs.canonicalize (up ++ x :: rest ++ [name]) with
    | none => rfl
    | some q =>
      obtain ⟨n, hn, -⟩ := real_of_canonicalize hq
      rw [List.append_assoc] at hnone hq
      have hnames : ∀ y ∈ x :: rest ++ [name], Ordinary y := by
        intro y hy
        rcases List.mem_append.mp hy with hy | hy
        · exact hordinary y hy
        · rwa [List.mem_singleton.mp hy]
      have hfree' : fs.LinkFree (c ++ (x :: rest ++ [name])) := by
        rw [← List.append_assoc]
        apply hfree.append
        rw [List.append_assoc, hnone]
        simp
      obtain rfl := eq_of_canonicalize_append hnames hup.canonicalize hfree' hq
      rw [hnone] at hn
      cases hn

end Reaches

theorem reaches_of_linkFree (names : List String) (hordinary : ∀ name ∈ d, Ordinary name)
    (hfree : fs.LinkFree d) (hroot : d = [] → fs.Directory d) : Reaches names d d fs := by
  cases d with
  | nil => exact .inl (.of_directory names (hroot rfl))
  | cons x rest =>
    exact .inr ⟨[], [], x, rest, rfl, rfl, .of_directory [x] fs.root, hordinary, hfree⟩

section

variable {up c : Path} {x : String} {rest : Path}

theorem perform_createDir_behind {r : Path} (hup : Leads [x] up c fs)
    (hordinary : ∀ name ∈ x :: rest, Ordinary name) (hfree : fs.LinkFree (c ++ x :: rest))
    (hr : r <+: x :: rest) :
    (∃ e, device.perform (FsOp.createDir (up ++ r)) fs = (.error e, fs) ∧
      (r = [] → e = .other)) ∨
    ∃ fs', device.perform (FsOp.createDir (up ++ r)) fs = (.ok (), fs') ∧
      MadeAbove (c ++ x :: rest) fs fs' ∧ fs'.Directory (c ++ r) := by
  rcases List.eq_nil_or_concat r with rfl | ⟨r, name, rfl⟩
  · apply Or.inl
    refine ⟨.other, ?_, fun _ => rfl⟩
    rw [List.append_nil]
    exact perform_createDir_of_resolves (by simp [hup.canonicalize])
  · rw [List.concat_eq_append] at hr ⊢
    have hnames : ∀ y ∈ r ++ [name], Ordinary y := fun y hy => hordinary y (hr.subset hy)
    have hname : Ordinary name := hnames name (by simp)
    rw [← List.append_assoc]
    simp only [device, FsOp.perform, trimmed_append hname]
    cases hplace : fs.place (up ++ r ++ [name]) with
    | none => exact .inl ⟨_, rfl, by simp⟩
    | some q =>
      have hq : q = c ++ (r ++ [name]) := by
        simp only [place, List.getLast?_concat, hname, if_true, List.dropLast_concat] at hplace
        obtain ⟨e, he, hdirectory⟩ := Option.bind_eq_some_iff.mp hplace
        have hcut : c ++ r <+: c ++ x :: rest :=
          (List.prefix_append_right_inj c).mpr ((List.prefix_append r [name]).trans hr)
        obtain rfl := eq_of_canonicalize_append (fun y hy => hnames y (List.mem_append_left _ hy))
          hup.canonicalize (hfree.above hcut) he
        split_ifs at hdirectory
        rw [← Option.some.inj hdirectory, List.append_assoc]
      subst hq
      cases hcreate : fs.create (c ++ (r ++ [name])) (.directory true) with
      | none => exact .inl ⟨.other, by simp only [hcreate], by simp⟩
      | some fs' =>
        obtain ⟨hnone, -, hnode⟩ := create_eq_some hcreate
        refine .inr ⟨fs', by simp only [hcreate], ?_, directory_iff.mpr ⟨true, ?_⟩⟩
        · intro q
          by_cases hq : q = c ++ (r ++ [name])
          · subst hq
            have hcut := (List.prefix_append_right_inj c).mpr hr
            exact .inr ⟨hcut, hnone, by rw [hnode, if_pos rfl]⟩
          · exact .inl (by rw [hnode, if_neg hq])
        · rw [hnode, if_pos rfl]

theorem wp_isDir_behind {r : Path} {Q : Except ε Bool → FileSystem → Prop}
    (hup : Leads [x] up c fs) (hordinary : ∀ name ∈ x :: rest, Ordinary name)
    (hfree : fs.LinkFree (c ++ x :: rest)) (hr : r <+: x :: rest) (hI : I fs)
    (hQ : ∀ made, (made = true → fs.Directory (c ++ r)) → Q (.ok made) fs) :
    wp device mayFail I Q (isDir (up ++ r)) fs := by
  refine ⟨hI, ?_, fun _ => hQ false (by simp)⟩
  apply hQ
  intro hreply
  obtain ⟨q, hq, hdirectory⟩ := (Option.any_eq_true _ _).mp hreply
  have hcut := (List.prefix_append_right_inj c).mpr hr
  obtain rfl := eq_of_canonicalize_append (fun y hy => hordinary y (hr.subset hy))
    hup.canonicalize (hfree.above hcut) hq
  exact of_decide_eq_true hdirectory

theorem wp_createDirAll_behind : ∀ (depth : ℕ) {r : Path} {fs : FileSystem}
    {I : FileSystem → Prop} {Q : Except ε Bool → FileSystem → Prop}, Leads [x] up c fs →
    (∀ name ∈ x :: rest, Ordinary name) → fs.LinkFree (c ++ x :: rest) → r <+: x :: rest →
    (∀ fs', MadeAbove (c ++ x :: rest) fs fs' → I fs') →
    (∀ made fs', MadeAbove (c ++ x :: rest) fs fs' → (made = true → fs'.Directory (c ++ r)) →
      Q (.ok made) fs') →
    wp device mayFail I Q (createDirAll depth (up ++ r)) fs := by
  intro depth
  induction depth with
  | zero =>
    intro r fs I Q _ _ _ _ _ hQ
    exact hQ false fs (.refl _ fs) (by simp)
  | succ depth ih =>
    intro r fs I Q hup hordinary hfree hr hI hQ
    have hlook : ∀ fs', MadeAbove (c ++ x :: rest) fs fs' →
        wp device mayFail I Q (isDir (up ++ r)) fs' := by
      intro fs' hmade
      apply wp_isDir_behind (hup.after (hmade.elsewhere hup.directory)) hordinary
        (hmade.linkFree hfree) hr (hI fs' hmade)
      exact fun made => hQ made fs' hmade
    refine ⟨hI fs (.refl _ fs), ?_, fun _ => hlook fs (.refl _ fs)⟩
    rcases perform_createDir_behind hup hordinary hfree hr with
      ⟨e, hperform, hother⟩ | ⟨fs₁, hperform, hmade, hdirectory⟩
    · rw [hperform]
      cases e with
      | other => exact hlook fs (.refl _ fs)
      | notFound =>
        rcases List.eq_nil_or_concat r with rfl | ⟨r, name, rfl⟩
        · cases hother rfl
        · rw [List.concat_eq_append] at hr hlook hQ ⊢
          have hcut := (List.prefix_append r [name]).trans hr
          have hname : Ordinary name := hordinary name (hr.subset (by simp))
          rw [← List.append_assoc] at hlook ⊢
          simp only [parent_append hname]
          change wp device mayFail I Q (createDirAll depth (up ++ r) >>= _) fs
          apply wp_bind
          apply ih hup hordinary hfree hcut hI
          intro made fs₁ hmade _
          cases made with
          | false => exact hQ false fs₁ hmade (by simp)
          | true =>
            refine ⟨hI fs₁ hmade, ?_, fun _ => hlook fs₁ hmade⟩
            rcases perform_createDir_behind (hup.after (hmade.elsewhere hup.directory)) hordinary
              (hmade.linkFree hfree) hr with
              ⟨e, hperform, -⟩ | ⟨fs₂, hperform, hmade', hdirectory⟩
            · rw [List.append_assoc, hperform, ← List.append_assoc]
              exact hlook fs₁ hmade
            · rw [List.append_assoc, hperform]
              exact hQ true fs₂ (hmade.trans hmade') fun _ => hdirectory
    · rw [hperform]
      exact hQ true fs₁ hmade fun _ => hdirectory

end

/-- Directories are made on the way to the path, and if all goes well it leads there. -/
theorem wp_createDirAll (hp : Reaches names p d fs) (depth : ℕ)
    (hI : ∀ fs', MadeAbove d fs fs' → I fs')
    (hQ : ∀ made fs', MadeAbove d fs fs' → (made = true → Leads names p d fs') →
      Q (.ok made) fs') :
    wp device mayFail I Q (createDirAll depth p) fs := by
  rcases hp with hleads | ⟨up, c, x, rest, rfl, rfl, hup, hordinary, hfree⟩
  · apply wp_createDirAll_of_resolves (by simp [hleads.canonicalize]) depth (hI fs (.refl d fs))
    exact fun made => hQ made fs (.refl d fs) fun _ => hleads
  · apply wp_createDirAll_behind depth hup hordinary hfree (List.prefix_refl _) hI
    intro made fs' hmade hdirectory
    apply hQ made fs' hmade
    intro htrue
    have hreaches : Reaches names (up ++ x :: rest) (c ++ x :: rest) fs :=
      .inr ⟨up, c, x, rest, rfl, rfl, hup, hordinary, hfree⟩
    exact (hreaches.made hmade).leads (hdirectory htrue)

end Files
