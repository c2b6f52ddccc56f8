import CertaelAgent.Foundation.FileSystem

/-!
# File operations

The operations that programs issue to a file system, with what they answer. An operation that
changes entries looks at the write permission of the directory they are in. A failed operation
has no effect; a program that writes a file piece by piece issues one operation for every piece.
-/

namespace Files

open ProtoWire

inductive FileType
  | file
  | directory
  | symlink
deriving DecidableEq, Repr

structure Metadata where
  fileType : FileType
  len : ℕ
  mode : ℕ
deriving DecidableEq, Repr

/-- What `lstat` shows of a node; permission bits are only kept of files. -/
def Node.metadata : Node → Metadata
  | .file content mode => ⟨.file, content.length, mode⟩
  | .directory _ => ⟨.directory, 0, 0o755⟩
  | .symlink _ target => ⟨.symlink, target.length, 0o777⟩

/-- The failures that a caller tells apart. -/
inductive IoError
  | notFound
  | other
deriving DecidableEq, Repr

inductive FsOp
  | symlinkMetadata (path : Path)
  | pathExists (path : Path)
  | isDir (path : Path)
  | canonicalize (path : Path)
  | read (path : Path)
  | readDir (path : Path)
  | createDir (path : Path)
  | createNew (path : Path)
  | append (path : Path) (bytes : Bytes)
  | setPermissions (path : Path) (mode : ℕ)
  | syncAll (path : Path)
  | rename (source target : Path)
  | removeFile (path : Path)
  | removeDir (path : Path)
deriving DecidableEq, Repr

/-- Most operations only say whether they succeeded. -/
abbrev FsOp.Reply : FsOp → Type
  | .symlinkMetadata _ => Option Metadata
  | .pathExists _ => Bool
  | .isDir _ => Bool
  | .canonicalize _ => Option Path
  | .read _ => Option Bytes
  | .readDir _ => Option (List String)
  | .createDir _ => Except IoError Unit
  | _ => Bool

namespace FileSystem

/-- Permission bits of a new file. -/
def newFileMode : ℕ := 0o644

/-- Entries of the directory may be created, renamed and removed. -/
def Writable (fs : FileSystem) (d : Path) : Prop := fs.node d = some (.directory true)

instance (fs : FileSystem) (d : Path) : Decidable (fs.Writable d) :=
  inferInstanceAs (Decidable (_ = _))

/-- A path without the slashes at its end. -/
def trimmed (p : Path) : Path := (p.reverse.dropWhile (· == "")).reverse

/-- `symlink_metadata`. -/
def metadataAt (fs : FileSystem) (p : Path) : Option Metadata :=
  ((fs.locate p).bind fs.node).map Node.metadata

def contentAt (fs : FileSystem) (p : Path) : Option Bytes :=
  (fs.canonicalize p).bind fun q =>
    match fs.node q with
    | some (.file content _) => some content
    | _ => none

/-- The names directly below a directory, each once. -/
def namesIn (fs : FileSystem) (d : Path) : List String :=
  (fs.table.filterMap fun entry =>
    if entry.1.dropLast = d ∧ (fs.node entry.1).isSome then entry.1.getLast? else none).dedup

/-- Puts a node where nothing was. -/
def create (fs : FileSystem) (q : Path) (n : Node) : Option FileSystem :=
  if h : fs.Placeable q ∧ fs.node q = none ∧ fs.Writable q.dropLast then some (fs.put q n h.1)
  else none

/-- Rewrites the file at a path. -/
def modify (fs : FileSystem) (p : Path) (f : Bytes → ℕ → Node) : Option FileSystem :=
  (fs.canonicalize p).bind fun q =>
    match fs.node q with
    | some (.file content mode) =>
      if h : fs.Placeable q then some (fs.put q (f content mode) h) else none
    | _ => none

/-- A file goes over anything but a directory, a directory only over an empty one; `move` looks
at what lies below the target. -/
def renameEntry (fs : FileSystem) (q r : Path) : Option FileSystem :=
  if q = r then (if (fs.node q).isSome then some fs else none)
  else if h : fs.Movable q r ∧ fs.Writable q.dropLast ∧ fs.Writable r.dropLast ∧
      (fs.node r = none ∨ (fs.Directory q ↔ fs.Directory r)) then some (fs.move q r h.1)
  else none

def unlink (fs : FileSystem) (q : Path) : Option FileSystem :=
  if h : q ≠ [] ∧ (fs.node q).isSome ∧ ¬ fs.Directory q ∧ fs.Writable q.dropLast then
    some (fs.remove q h.1)
  else none

def rmdir (fs : FileSystem) (q : Path) : Option FileSystem :=
  if h : q ≠ [] ∧ fs.Directory q ∧ fs.namesIn q = [] ∧ fs.Writable q.dropLast then
    some (fs.remove q h.1)
  else none

end FileSystem

/-- The answer and the new state of an operation that succeeds or leaves everything alone. -/
def committed (fs : FileSystem) : Option FileSystem → Bool × FileSystem
  | some fs' => (true, fs')
  | none => (false, fs)

@[simp] theorem committed_some (fs fs' : FileSystem) : committed fs (some fs') = (true, fs') := rfl

@[simp] theorem committed_none (fs : FileSystem) : committed fs none = (false, fs) := rfl

open FileSystem in
def FsOp.perform : (op : FsOp) → FileSystem → op.Reply × FileSystem
  | .symlinkMetadata p, fs => (((fs.locate p).bind fs.node).map Node.metadata, fs)
  | .pathExists p, fs => ((fs.canonicalize p).isSome, fs)
  | .isDir p, fs => ((fs.canonicalize p).any fun q => fs.Directory q, fs)
  | .canonicalize p, fs => (fs.canonicalize p, fs)
  | .read p, fs => (fs.contentAt p, fs)
  | .readDir p, fs =>
    ((fs.canonicalize p).bind fun q => if fs.Directory q then some (fs.namesIn q) else none, fs)
  | .createDir p, fs =>
    match fs.place (trimmed p) with
    | none =>
      (.error (if (fs.canonicalize (trimmed p).dropLast).isSome then .other else .notFound), fs)
    | some q =>
      match fs.create q (.directory true) with
      | some fs' => (.ok (), fs')
      | none => (.error .other, fs)
  | .createNew p, fs =>
    committed fs ((fs.place p).bind fun q => fs.create q (.file [] newFileMode))
  | .append p bytes, fs =>
    committed fs (fs.modify p fun content mode => .file (content ++ bytes) mode)
  | .setPermissions p mode, fs => committed fs (fs.modify p fun content _ => .file content mode)
  | .syncAll p, fs => ((fs.canonicalize p).isSome, fs)
  | .rename p p', fs =>
    committed fs ((fs.place p).bind fun q => (fs.place p').bind fun r => fs.renameEntry q r)
  | .removeFile p, fs => committed fs ((fs.place p).bind fs.unlink)
  | .removeDir p, fs => committed fs ((fs.place p).bind fs.rmdir)

def FsOp.failed : (op : FsOp) → op.Reply
  | .symlinkMetadata _ => none
  | .pathExists _ => false
  | .isDir _ => false
  | .canonicalize _ => none
  | .read _ => none
  | .readDir _ => none
  | .createDir _ => .error .other
  | .createNew _ => false
  | .append _ _ => false
  | .setPermissions _ _ => false
  | .syncAll _ => false
  | .rename _ _ => false
  | .removeFile _ => false
  | .removeDir _ => false

def FsOp.reads : FsOp → Bool
  | .symlinkMetadata _ => true
  | .pathExists _ => true
  | .isDir _ => true
  | .canonicalize _ => true
  | .read _ => true
  | .readDir _ => true
  | _ => false

/-- Operations that leave the tree as it is. -/
def FsOp.quiet : FsOp → Bool
  | .syncAll _ => true
  | op => op.reads

/-- The path at which an operation makes, changes or removes an entry; a rename has two. -/
def FsOp.entry : FsOp → Option Path
  | .createDir p => some p
  | .createNew p => some p
  | .append p _ => some p
  | .setPermissions p _ => some p
  | .removeFile p => some p
  | .removeDir p => some p
  | _ => none

def device : Device FsOp FsOp.Reply FileSystem where
  perform := FsOp.perform
  failed := FsOp.failed
  reads := FsOp.reads
  perform_reads op fs h := by
    cases op <;> first | rfl | simp [FsOp.reads] at h

abbrev FileProgram (ε α : Type) := Program FsOp FsOp.Reply ε α

section

variable {ε : Type}

abbrev symlinkMetadata (p : Path) : FileProgram ε (Option Metadata) :=
  Program.perform (FsOp.symlinkMetadata p)

abbrev pathExists (p : Path) : FileProgram ε Bool := Program.perform (FsOp.pathExists p)

abbrev isDir (p : Path) : FileProgram ε Bool := Program.perform (FsOp.isDir p)

abbrev canonicalize (p : Path) : FileProgram ε (Option Path) :=
  Program.perform (FsOp.canonicalize p)

abbrev read (p : Path) : FileProgram ε (Option Bytes) := Program.perform (FsOp.read p)

abbrev readDir (p : Path) : FileProgram ε (Option (List String)) :=
  Program.perform (FsOp.readDir p)

abbrev createDir (p : Path) : FileProgram ε (Except IoError Unit) :=
  Program.perform (FsOp.createDir p)

abbrev createNew (p : Path) : FileProgram ε Bool := Program.perform (FsOp.createNew p)

abbrev append (p : Path) (bytes : Bytes) : FileProgram ε Bool :=
  Program.perform (FsOp.append p bytes)

abbrev setPermissions (p : Path) (mode : ℕ) : FileProgram ε Bool :=
  Program.perform (FsOp.setPermissions p mode)

abbrev syncAll (p : Path) : FileProgram ε Bool := Program.perform (FsOp.syncAll p)

abbrev rename (source target : Path) : FileProgram ε Bool :=
  Program.perform (FsOp.rename source target)

abbrev removeFile (p : Path) : FileProgram ε Bool := Program.perform (FsOp.removeFile p)

abbrev removeDir (p : Path) : FileProgram ε Bool := Program.perform (FsOp.removeDir p)

end

namespace FileSystem

variable {fs : FileSystem}

theorem trimmed_append {d : Path} {name : String} (h : Ordinary name) :
    trimmed (d ++ [name]) = d ++ [name] := by
  simp [trimmed, h.1]

theorem trimmed_of_ordinary {p : Path} (h : ∀ name ∈ p, Ordinary name) : trimmed p = p := by
  rcases List.eq_nil_or_concat p with rfl | ⟨d, name, rfl⟩
  · rfl
  · rw [List.concat_eq_append] at h ⊢
    exact trimmed_append (h name (by simp))

theorem trimmed_isPrefix (p : Path) : trimmed p <+: p := by
  have hsuffix := List.dropWhile_suffix (l := p.reverse) (· == "")
  simpa [trimmed] using List.reverse_prefix.mpr hsuffix

theorem placeable_of_file {q : Path} {content : Bytes} {mode : ℕ}
    (h : fs.node q = some (.file content mode)) : fs.Placeable q := by
  rcases List.eq_nil_or_concat q with rfl | ⟨d, name, rfl⟩
  · obtain ⟨writable, hroot⟩ := directory_iff.mp (fs.root : fs.Directory [])
    rw [hroot] at h
    exact absurd h (by simp)
  · rw [List.concat_eq_append] at h ⊢
    refine placeable_append (fs.parent _ _ _ h) (fs.ordinary _ _ h name (by simp)) ?_
    rw [directory_iff, h]
    simp

theorem real_of_file {q : Path} {content : Bytes} {mode : ℕ}
    (h : fs.node q = some (.file content mode)) : fs.Real q := ⟨_, h, id⟩

theorem contentAt_of_canonicalize {p q : Path} {content : Bytes} {mode : ℕ}
    (hq : fs.canonicalize p = some q) (h : fs.node q = some (.file content mode)) :
    fs.contentAt p = some content := by
  rw [contentAt, hq, Option.bind_some, h]

theorem contentAt_of_file {p : Path} {content : Bytes} {mode : ℕ}
    (h : fs.node p = some (.file content mode)) : fs.contentAt p = some content :=
  contentAt_of_canonicalize (canonicalize_of_real (real_of_file h)) h

theorem contentAt_eq_some_iff {p : Path} {content : Bytes} : fs.contentAt p = some content ↔
    ∃ q mode, fs.canonicalize p = some q ∧ fs.node q = some (.file content mode) := by
  constructor
  · intro h
    obtain ⟨q, hq, h⟩ := Option.bind_eq_some_iff.mp h
    cases hnode : fs.node q with
    | none => simp [hnode] at h
    | some n =>
      cases n with
      | file found mode =>
        rw [hnode] at h
        obtain rfl := Option.some.inj h
        exact ⟨q, mode, hq, hnode⟩
      | directory writable => simp [hnode] at h
      | symlink absolute target => simp [hnode] at h
  · rintro ⟨q, mode, hq, hnode⟩
    exact contentAt_of_canonicalize hq hnode

theorem not_directory_of_none {q : Path} (h : fs.node q = none) : ¬ fs.Directory q := by
  rw [directory_iff, h]
  simp

theorem not_directory_of_file {q : Path} {content : Bytes} {mode : ℕ}
    (h : fs.node q = some (.file content mode)) : ¬ fs.Directory q := by
  rw [directory_iff, h]
  simp

theorem Writable.directory {d : Path} (h : fs.Writable d) : fs.Directory d :=
  directory_iff.mpr ⟨true, h⟩

theorem create_eq_some {q : Path} {n : Node} {fs' : FileSystem} (h : fs.create q n = some fs') :
    fs.node q = none ∧ fs.Writable q.dropLast ∧
      ∀ p, fs'.node p = if p = q then some n else fs.node p := by
  unfold create at h
  split_ifs at h with hcan
  rw [← Option.some.inj h]
  exact ⟨hcan.2.1, hcan.2.2, node_put hcan.1⟩

theorem create_eq_none {q : Path} {n : Node} (h : (fs.node q).isSome) : fs.create q n = none := by
  unfold create
  rw [dif_neg]
  rintro ⟨_, hnone, _⟩
  simp [hnone] at h

theorem create_append {d : Path} {name : String} {n : Node} (hd : fs.Writable d)
    (hname : Ordinary name) (hnode : fs.node (d ++ [name]) = none) :
    ∃ fs', fs.create (d ++ [name]) n = some fs' := by
  unfold create
  rw [dif_pos]
  · exact ⟨_, rfl⟩
  · exact ⟨placeable_append hd.directory hname (not_directory_of_none hnode), hnode,
      by simpa using hd⟩

theorem modify_file {q : Path} {content : Bytes} {mode : ℕ} (f : Bytes → ℕ → Node)
    (h : fs.node q = some (.file content mode)) :
    ∃ fs', fs.modify q f = some fs' ∧
      ∀ p, fs'.node p = if p = q then some (f content mode) else fs.node p := by
  unfold modify
  rw [canonicalize_of_real (real_of_file h), Option.bind_some, h]
  simp only
  rw [dif_pos (placeable_of_file h)]
  exact ⟨_, rfl, node_put _⟩

theorem modify_eq_some {p : Path} {f : Bytes → ℕ → Node} {fs' : FileSystem}
    (h : fs.modify p f = some fs') : ∃ q content mode, fs.canonicalize p = some q ∧
      fs.node q = some (.file content mode) ∧
      ∀ r, fs'.node r = if r = q then some (f content mode) else fs.node r := by
  obtain ⟨q, hq, h⟩ := Option.bind_eq_some_iff.mp h
  cases hnode : fs.node q with
  | none => simp [hnode] at h
  | some n =>
    cases n with
    | file content mode =>
      simp only [hnode] at h
      split_ifs at h with hcan
      rw [← Option.some.inj h]
      exact ⟨q, content, mode, hq, hnode, node_put hcan⟩
    | directory writable => simp [hnode] at h
    | symlink absolute target => simp [hnode] at h

/-- A file can be moved over anything that is not a directory. -/
theorem movable_of_file {q d : Path} {name : String} {content : Bytes} {mode : ℕ}
    (hq : fs.node q = some (.file content mode)) (hd : fs.Directory d) (hname : Ordinary name)
    (hne : q ≠ d ++ [name]) (htarget : ¬ fs.Directory (d ++ [name])) :
    fs.Movable q (d ++ [name]) where
  exists_source := by rw [hq]; rfl
  source_ne := by
    rintro rfl
    exact not_directory_of_file hq fs.root
  name := ⟨name, by simp, hname⟩
  directory := by rwa [List.dropLast_concat]
  apart := by
    intro hprefix
    rcases List.prefix_concat_iff.mp hprefix with heq | ⟨x, rfl⟩
    · exact hne heq
    · by_cases hx : x = []
      · exact not_directory_of_file hq (by simpa [hx] using hd)
      · obtain ⟨writable, hnode⟩ := directory_iff.mp hd
        exact not_directory_of_file hq (directory_of_append hnode hx)
  childless := by
    rintro ⟨key, n⟩ hentry ⟨x, hx⟩
    by_cases hnil : x = []
    · simpa [hnil] using hx.symm
    · obtain ⟨m, hm⟩ := Option.isSome_iff_exists.mp (Table.isSome_of_mem hentry)
      have hm' : fs.node ((d ++ [name]) ++ x) = some m := hx ▸ hm
      exact absurd (directory_of_append hm' hnil) htarget

theorem renameEntry_eq_some {q r : Path} {fs' : FileSystem} (h : fs.renameEntry q r = some fs')
    (hne : q ≠ r) : fs.Movable q r ∧ (fs.node r = none ∨ (fs.Directory q ↔ fs.Directory r)) ∧
      ∀ p, fs'.node p = if r <+: p then fs.node (q ++ p.drop r.length)
        else if q <+: p then none else fs.node p := by
  unfold renameEntry at h
  rw [if_neg hne] at h
  split_ifs at h with hcan
  rw [← Option.some.inj h]
  exact ⟨hcan.1, hcan.2.2.2, node_move hcan.1⟩

theorem unlink_eq_some {q : Path} {fs' : FileSystem} (h : fs.unlink q = some fs') :
    ∀ p, fs'.node p = if q <+: p then none else fs.node p := by
  unfold unlink at h
  split_ifs at h with hcan
  rw [← Option.some.inj h]
  exact node_remove hcan.1

theorem rmdir_eq_some {q : Path} {fs' : FileSystem} (h : fs.rmdir q = some fs') :
    ∀ p, fs'.node p = if q <+: p then none else fs.node p := by
  unfold rmdir at h
  split_ifs at h with hcan
  rw [← Option.some.inj h]
  exact node_remove hcan.1

end FileSystem

end Files
