import CertaelAgent.Foundation.FileDevice

/-!
# Trees of given files

Any files with ordinary names, none of them below another, are the files of some tree: the
directories are the paths above them.
-/

namespace Files

open ProtoWire

/-- None of the paths is the root, and none lies below another one. -/
structure Placed (files : List (Path × Bytes)) : Prop where
  nonempty : ∀ entry ∈ files, entry.1 ≠ []
  ordinary : ∀ entry ∈ files, ∀ name ∈ entry.1, Ordinary name
  apart : ∀ entry ∈ files, ∀ other ∈ files, entry.1 <+: other.1 → entry.1 = other.1

/-- The paths above the files, the root among them. -/
def directoriesOf (files : List (Path × Bytes)) : Table :=
  (files.flatMap fun entry => entry.1.inits.map fun d => (d, Node.directory true)) ++
    [([], .directory true)]

/-- The files first, so that they are found in front of the directories. -/
def tableOf (files : List (Path × Bytes)) : Table :=
  (files.map fun entry => (entry.1, Node.file entry.2 0o755)) ++ directoriesOf files

theorem Table.node_append (t u : Table) (p : Path) :
    Table.node (t ++ u) p = (t.node p).or (u.node p) := by
  induction t with
  | nil => rfl
  | cons entry t ih =>
    obtain ⟨key, n⟩ := entry
    rw [List.cons_append, Table.node, Table.node, ih]
    split_ifs <;> rfl

theorem Table.node_of_mem {t : Table} {p : Path} {n : Node} (hmem : (p, n) ∈ t)
    (hsame : ∀ entry ∈ t, entry.1 = p → entry.2 = n) : t.node p = some n := by
  induction t with
  | nil => simp at hmem
  | cons entry t ih =>
    obtain ⟨key, m⟩ := entry
    rw [List.forall_mem_cons] at hsame
    rw [Table.node]
    by_cases hkey : p = key
    · rw [if_pos hkey]
      exact congrArg some (hsame.1 hkey.symm)
    · rw [if_neg hkey]
      rcases List.mem_cons.mp hmem with heq | hrest
      · exact absurd (Prod.mk.inj heq).1 hkey
      · exact ih hrest hsame.2

variable {files : List (Path × Bytes)}

theorem mem_directoriesOf {d : Path} {n : Node} (h : (d, n) ∈ directoriesOf files) :
    n = .directory true ∧ (d = [] ∨ ∃ entry ∈ files, d <+: entry.1) := by
  rcases List.mem_append.mp h with habove | hroot
  · obtain ⟨entry, hentry, hd⟩ := List.mem_flatMap.mp habove
    obtain ⟨d', hcut, heq⟩ := List.mem_map.mp hd
    obtain ⟨rfl, rfl⟩ := Prod.mk.inj heq
    exact ⟨rfl, .inr ⟨entry, hentry, (List.mem_inits _ _).mp hcut⟩⟩
  · obtain ⟨rfl, rfl⟩ := Prod.mk.inj (List.mem_singleton.mp hroot)
    exact ⟨rfl, .inl rfl⟩

/-- A path at which there is no file, but above one or at the root. -/
theorem directory_tableOf {d : Path} (hnone : ∀ entry ∈ files, entry.1 ≠ d)
    (habove : d = [] ∨ ∃ entry ∈ files, d <+: entry.1) : (tableOf files).Directory d := by
  have hmem : (d, Node.directory true) ∈ directoriesOf files := by
    rcases habove with rfl | ⟨entry, hentry, hcut⟩
    · exact List.mem_append_right _ (List.mem_singleton_self _)
    · apply List.mem_append_left
      apply List.mem_flatMap.mpr
      exact ⟨entry, hentry, List.mem_map.mpr ⟨d, (List.mem_inits _ _).mpr hcut, rfl⟩⟩
  have hfile : Table.node (files.map fun entry => (entry.1, Node.file entry.2 0o755)) d = none := by
    rw [Option.eq_none_iff_forall_not_mem]
    intro n hn
    obtain ⟨entry, hentry, heq⟩ := List.mem_map.mp (Table.mem_of_node hn)
    exact hnone entry hentry (Prod.mk.inj heq).1
  refine ⟨.directory true, ?_, trivial⟩
  unfold tableOf
  rw [Table.node_append, hfile, Option.none_or]
  exact Table.node_of_mem hmem fun other hother _ => (mem_directoriesOf hother).1

theorem Placed.directory_above (h : Placed files) {entry : Path × Bytes} (hentry : entry ∈ files)
    {d : Path} (hcut : d <+: entry.1) (hne : d ≠ entry.1) : (tableOf files).Directory d := by
  apply directory_tableOf
  · rintro other hother rfl
    exact hne (h.apart other hother entry hentry hcut)
  · exact .inr ⟨entry, hentry, hcut⟩

theorem Placed.directory_parent (h : Placed files) {entry : Path × Bytes} (hentry : entry ∈ files)
    {d : Path} (hcut : d <+: entry.1) (hne : d ≠ []) : (tableOf files).Directory d.dropLast := by
  apply h.directory_above hentry ((List.dropLast_prefix d).trans hcut)
  intro heq
  have hlength := congrArg List.length heq
  have hle := hcut.length_le
  have hpos := List.length_pos_of_ne_nil hne
  rw [List.length_dropLast] at hlength
  omega

/-- The tree of the given files. -/
def FileSystem.ofFiles (files : List (Path × Bytes)) (h : Placed files) : FileSystem :=
  FileSystem.ofTable (tableOf files)
    (directory_tableOf (fun entry hentry => h.nonempty entry hentry) (.inl rfl)) (by
      rintro ⟨p, n⟩ hp
      rcases List.mem_append.mp hp with hfile | hdir
      · obtain ⟨entry, hentry, heq⟩ := List.mem_map.mp hfile
        obtain ⟨rfl, rfl⟩ := Prod.mk.inj heq
        exact ⟨.inr (h.directory_parent hentry (List.prefix_refl _) (h.nonempty entry hentry)),
          h.ordinary entry hentry⟩
      · rcases (mem_directoriesOf hdir).2 with rfl | ⟨entry, hentry, hcut⟩
        · exact ⟨.inl rfl, by simp⟩
        · refine ⟨?_, fun name hname => h.ordinary entry hentry name (hcut.subset hname)⟩
          by_cases hnil : p = []
          · exact .inl hnil
          · exact .inr (h.directory_parent hentry hcut hnil))

theorem FileSystem.node_ofFiles {h : Placed files} {p : Path} {content : Bytes}
    (hmem : (p, content) ∈ files) (hsame : ∀ entry ∈ files, entry.1 = p → entry.2 = content) :
    (FileSystem.ofFiles files h).node p = some (.file content 0o755) := by
  have hfile : (p, Node.file content 0o755) ∈
      files.map fun entry => (entry.1, Node.file entry.2 0o755) :=
    List.mem_map.mpr ⟨(p, content), hmem, rfl⟩
  have hnode : Table.node (files.map fun entry => (entry.1, Node.file entry.2 0o755)) p =
      some (.file content 0o755) := by
    apply Table.node_of_mem hfile
    intro other hother hkey
    obtain ⟨entry, hentry, rfl⟩ := List.mem_map.mp hother
    rw [hsame entry hentry hkey]
  show Table.node (_ ++ _) p = _
  rw [Table.node_append, hnode, Option.some_or]

end Files
