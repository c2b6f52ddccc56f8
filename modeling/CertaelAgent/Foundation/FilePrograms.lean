import CertaelAgent.Foundation.FileDevice

/-!
# Programs over files and their frames

`createDirAll` and `removeDirAll` issue one operation after the other, so they can be cut off
half way. A program is confined to a path if it changes entries only at and below it; where no
link leads out of there, everything else stays as it is, whatever fails.
-/

namespace Files

open FileSystem

/-! ## Directory trees -/

/-- The path without its last name; trailing slashes and dots do not count as one. -/
def parent (p : Path) : Option Path :=
  match p.reverse.dropWhile fun name => name = "" ∨ name = "." with
  | [] => none
  | _ :: rest => some rest.reverse

variable {ε α β : Type}

/-- Makes the directory, and in front of it the directories above it that are missing. -/
def createDirAll : ℕ → Path → FileProgram ε Bool
  | 0, _ => pure false
  | depth + 1, p => do
    match ← createDir p with
    | .ok () => pure true
    | .error .other => isDir p
    | .error .notFound =>
      match parent p with
      | none => pure false
      | some up =>
        if ← createDirAll depth up then
          match ← createDir p with
          | .ok () => pure true
          | .error _ => isDir p
        else pure false

def removeEntries (remove : Path → FileProgram ε Bool) (p : Path) :
    List String → FileProgram ε Bool
  | [] => pure true
  | name :: names => do
    if ← remove (p ++ [name]) then removeEntries remove p names else pure false

/-- Links are removed and not followed. -/
def removeEntry : ℕ → Path → FileProgram ε Bool
  | 0, _ => pure false
  | depth + 1, p => do
    match ← symlinkMetadata p with
    | none => pure false
    | some metadata =>
      if metadata.fileType = .directory then
        match ← readDir p with
        | none => pure false
        | some names =>
          if ← removeEntries (removeEntry depth) p names then removeDir p
          else pure false
      else removeFile p

/-- No directory lies deeper than a path can be long. -/
def maxDepth : ℕ := 4096

def removeDirAll (p : Path) : FileProgram ε Bool := removeEntry maxDepth p

/-- `remove_dir_all` of a path at which there may be anything: a file is refused. -/
def removeTree (p : Path) : FileProgram ε Bool := do
  match ← symlinkMetadata p with
  | none => pure false
  | some metadata => if metadata.fileType = .file then pure false else removeDirAll p

/-! ## Checked reads -/

theorem cautious_symlinkMetadata (e : ε) (p : Path) :
    Program.Cautious device (Program.expect e (symlinkMetadata p)) :=
  ⟨rfl, ⟨e, rfl⟩, fun reply => by cases reply <;> trivial⟩

theorem cautious_canonicalize (e : ε) (p : Path) :
    Program.Cautious device (Program.expect e (canonicalize p)) :=
  ⟨rfl, ⟨e, rfl⟩, fun reply => by cases reply <;> trivial⟩

theorem cautious_read (e : ε) (p : Path) :
    Program.Cautious device (Program.expect e (read p)) :=
  ⟨rfl, ⟨e, rfl⟩, fun reply => by cases reply <;> trivial⟩

variable {fs : FileSystem}

@[simp] theorem eval_symlinkMetadata (e : ε) (p : Path) :
    Program.eval device (Program.expect e (symlinkMetadata p)) fs =
      Except.ofOption e (((fs.locate p).bind fs.node).map Node.metadata) := by
  unfold Program.eval
  show (Program.exec device _ fs).1 = _
  cases h : ((fs.locate p).bind fs.node).map Node.metadata <;>
    simp [Program.expect, Program.exec, device, FsOp.perform, h, Except.ofOption]

@[simp] theorem eval_canonicalize (e : ε) (p : Path) :
    Program.eval device (Program.expect e (canonicalize p)) fs =
      Except.ofOption e (fs.canonicalize p) := by
  cases h : fs.canonicalize p <;>
    simp [Program.eval, Program.expect, Program.exec, device, FsOp.perform, h, Except.ofOption]

@[simp] theorem eval_read (e : ε) (p : Path) :
    Program.eval device (Program.expect e (read p)) fs = Except.ofOption e (fs.contentAt p) := by
  cases h : fs.contentAt p <;>
    simp [Program.eval, Program.expect, Program.exec, device, FsOp.perform, h, Except.ofOption]

theorem eval_symlinkMetadata_bind_iff {e : ε} {p : Path} {f : Metadata → FileProgram ε β} {b : β} :
    Program.eval device (Program.expect e (symlinkMetadata p) >>= f) fs = .ok b ↔
      ∃ metadata, fs.metadataAt p = some metadata ∧ Program.eval device (f metadata) fs = .ok b := by
  rw [(cautious_symlinkMetadata e p).readOnly.eval_bind_eq_ok_iff, eval_symlinkMetadata]
  simp only [Except.ofOption_eq_ok_iff, FileSystem.metadataAt]

theorem eval_canonicalize_bind_iff {e : ε} {p : Path} {f : Path → FileProgram ε β} {b : β} :
    Program.eval device (Program.expect e (canonicalize p) >>= f) fs = .ok b ↔
      ∃ q, fs.canonicalize p = some q ∧ Program.eval device (f q) fs = .ok b := by
  rw [(cautious_canonicalize e p).readOnly.eval_bind_eq_ok_iff, eval_canonicalize]
  simp only [Except.ofOption_eq_ok_iff]

theorem eval_read_bind_iff {e : ε} {p : Path} {f : ProtoWire.Bytes → FileProgram ε β} {b : β} :
    Program.eval device (Program.expect e (read p) >>= f) fs = .ok b ↔
      ∃ content, fs.contentAt p = some content ∧ Program.eval device (f content) fs = .ok b := by
  rw [(cautious_read e p).readOnly.eval_bind_eq_ok_iff, eval_read]
  simp only [Except.ofOption_eq_ok_iff]

/-! ## Frames -/

/-- The systems agree except at and below the path, and there is no new link. -/
def Below (t : Path) (fs fs' : FileSystem) : Prop :=
  (∀ p, ¬ t <+: p → fs'.node p = fs.node p) ∧
    ∀ p n, fs'.node p = some n → n.IsSymlink → fs.node p = some n

namespace Below

variable {t : Path} {fs fs' fs'' : FileSystem}

theorem refl (t : Path) (fs : FileSystem) : Below t fs fs := ⟨fun _ _ => rfl, fun _ _ h _ => h⟩

theorem trans (h : Below t fs fs') (h' : Below t fs' fs'') : Below t fs fs'' :=
  ⟨fun p hp => (h'.1 p hp).trans (h.1 p hp), fun p n hn hlink => h.2 p n (h'.2 p n hn hlink) hlink⟩

theorem mono {u : Path} (h : Below t fs fs') (hu : u <+: t) : Below u fs fs' :=
  ⟨fun p hp => h.1 p fun ht => hp (hu.trans ht), h.2⟩

theorem linkFree (h : Below t fs fs') {p : Path} (hp : fs.LinkFree p) : fs'.LinkFree p :=
  fun q hq n hn hlink => hp q hq n (h.2 q n hn hlink) hlink

theorem of_update {p : Path} {o : Option Node} (ht : t <+: p) (ho : ∀ n ∈ o, ¬ n.IsSymlink)
    (h : ∀ q, fs'.node q = if q = p then o else fs.node q) : Below t fs fs' := by
  refine ⟨fun q hq => ?_, fun q n hn hlink => ?_⟩
  · rw [h, if_neg]
    rintro rfl
    exact hq ht
  · rw [h] at hn
    split_ifs at hn
    · exact absurd hlink (ho n hn)
    · exact hn

theorem of_removal {p : Path} (ht : t <+: p)
    (h : ∀ q, fs'.node q = if p <+: q then none else fs.node q) : Below t fs fs' := by
  refine ⟨fun q hq => ?_, fun q n hn _ => ?_⟩
  · rw [h, if_neg fun hp => hq (ht.trans hp)]
  · rw [h] at hn
    split_ifs at hn
    exact hn

theorem of_committed {o : Option FileSystem} (h : ∀ fs', o = some fs' → Below t fs fs') :
    Below t fs (committed fs o).2 := by
  cases o with
  | none => exact refl t fs
  | some fs' => exact h fs' rfl

end Below

variable {t : Path} {fs : FileSystem}

theorem below_create {p q : Path} {n : Node} {fs' : FileSystem} (ht : t <+: p)
    (hnames : ∀ name ∈ p, Ordinary name) (hfree : fs.LinkFree p) (hn : ¬ n.IsSymlink)
    (hq : fs.place p = some q) (h : fs.create q n = some fs') : Below t fs fs' := by
  have hparent := hfree.above <| List.dropLast_prefix p
  have hqp : q = p := (eq_of_place hnames hparent hq).1
  refine .of_update ht (o := some n) (by simpa using hn) fun r => ?_
  rw [(create_eq_some h).2.2 r, hqp]

theorem below_modify {p : Path} {f : ProtoWire.Bytes → ℕ → Node} {fs' : FileSystem} (ht : t <+: p)
    (hnames : ∀ name ∈ p, Ordinary name) (hfree : fs.LinkFree p)
    (hf : ∀ content mode, ¬ (f content mode).IsSymlink) (h : fs.modify p f = some fs') :
    Below t fs fs' := by
  obtain ⟨q, content, mode, hq, _, hnode⟩ := modify_eq_some h
  have hqp : q = p := eq_of_canonicalize hnames hfree hq
  refine .of_update ht (o := some (f content mode)) (by simpa using hf content mode) fun r => ?_
  rw [hnode r, hqp]

/-- An operation on an entry to which no link leads changes nothing elsewhere. -/
theorem below_perform {op : FsOp} {p : Path} (hentry : op.entry = some p) (ht : t <+: p)
    (hnames : ∀ name ∈ p, Ordinary name) (hfree : fs.LinkFree p) :
    Below t fs (op.perform fs).2 := by
  cases op with
  | createDir p' =>
    rw [FsOp.entry, Option.some.injEq] at hentry
    subst hentry
    simp only [FsOp.perform, trimmed_of_ordinary hnames]
    cases hplace : fs.place p' with
    | none => exact .refl t fs
    | some q =>
      cases hcreate : fs.create q (.directory true) with
      | none =>
        simp only [hcreate]
        exact .refl t fs
      | some fs' =>
        simp only [hcreate]
        exact below_create ht hnames hfree id hplace hcreate
  | createNew p' =>
    rw [FsOp.entry, Option.some.injEq] at hentry
    subst hentry
    refine .of_committed fun fs' h => ?_
    obtain ⟨q, hq, hcreate⟩ := Option.bind_eq_some_iff.mp h
    exact below_create ht hnames hfree id hq hcreate
  | append p' bytes =>
    rw [FsOp.entry, Option.some.injEq] at hentry
    subst hentry
    exact .of_committed fun fs' h => below_modify ht hnames hfree (fun _ _ => id) h
  | setPermissions p' mode =>
    rw [FsOp.entry, Option.some.injEq] at hentry
    subst hentry
    exact .of_committed fun fs' h => below_modify ht hnames hfree (fun _ _ => id) h
  | removeFile p' =>
    rw [FsOp.entry, Option.some.injEq] at hentry
    subst hentry
    refine .of_committed fun fs' h => ?_
    obtain ⟨q, hq, hunlink⟩ := Option.bind_eq_some_iff.mp h
    have hparent := hfree.above <| List.dropLast_prefix p'
    have hqp : q = p' := (eq_of_place hnames hparent hq).1
    exact .of_removal ht (hqp ▸ unlink_eq_some hunlink)
  | removeDir p' =>
    rw [FsOp.entry, Option.some.injEq] at hentry
    subst hentry
    refine .of_committed fun fs' h => ?_
    obtain ⟨q, hq, hrmdir⟩ := Option.bind_eq_some_iff.mp h
    have hparent := hfree.above <| List.dropLast_prefix p'
    have hqp : q = p' := (eq_of_place hnames hparent hq).1
    exact .of_removal ht (hqp ▸ rmdir_eq_some hrmdir)
  | _ => simp [FsOp.entry] at hentry

theorem perform_quiet {op : FsOp} (h : op.quiet) (fs : FileSystem) : (op.perform fs).2 = fs := by
  cases op <;> first | rfl | simp [FsOp.quiet, FsOp.reads] at h

/-- Every operation reads, or works on an entry at or below the path. -/
def Confined (t : Path) : FileProgram ε α → Prop
  | .done _ => True
  | .call op next =>
    (op.quiet ∨ ∃ p, op.entry = some p ∧ t <+: p ∧ ∀ name ∈ p, Ordinary name) ∧
      (∀ fs, Confined t (next (op.perform fs).1)) ∧ Confined t (next op.failed)

namespace Confined

variable {p : FileProgram ε α}

theorem bind {f : α → FileProgram ε β} (hp : Confined t p) (hf : ∀ a, Confined t (f a)) :
    Confined t (p >>= f) := by
  induction p with
  | done result =>
    cases result with
    | ok a => exact hf a
    | error e => trivial
  | call op next ih =>
    exact ⟨hp.1, fun fs => ih _ (hp.2.1 fs), ih _ hp.2.2⟩

theorem quiet {op : FsOp} {next : op.Reply → FileProgram ε α} (hop : op.quiet)
    (h : ∀ reply, Confined t (next reply)) : Confined t (.call op next) :=
  ⟨.inl hop, fun _ => h _, h _⟩

theorem entry {op : FsOp} {next : op.Reply → FileProgram ε α} {p : Path}
    (hop : op.entry = some p) (ht : t <+: p) (hnames : ∀ name ∈ p, Ordinary name)
    (h : ∀ reply, Confined t (next reply)) : Confined t (.call op next) :=
  ⟨.inr ⟨p, hop, ht, hnames⟩, fun _ => h _, h _⟩

/-- The frame rule. -/
theorem wp {mayFail : FsOp → Bool} {I : FileSystem → Prop} {Q : Except ε α → FileSystem → Prop}
    (hp : Confined t p) (hfree : ∀ q, t <+: q → fs.LinkFree q)
    (hI : ∀ fs', Below t fs fs' → I fs') (hQ : ∀ r fs', Below t fs fs' → Q r fs') :
    Program.wp device mayFail I Q p fs := by
  induction p generalizing fs with
  | done result => exact hQ _ _ (.refl t fs)
  | call op next ih =>
    obtain ⟨hop, hnext, hfailed⟩ := hp
    have hbelow : Below t fs (op.perform fs).2 := by
      rcases hop with hquiet | ⟨p, hentry, ht, hnames⟩
      · rw [perform_quiet hquiet]
        exact .refl t fs
      · exact below_perform hentry ht hnames (hfree p ht)
    refine ⟨hI _ (.refl t fs), ?_, fun _ => ih _ hfailed hfree hI hQ⟩
    exact ih _ (hnext fs) (fun q hq => hbelow.linkFree (hfree q hq))
      (fun fs' h => hI fs' (hbelow.trans h)) fun r fs' h => hQ r fs' (hbelow.trans h)

end Confined

theorem confined_removeEntries {remove : Path → FileProgram ε Bool} {p : Path} {names : List String}
    (hremove : ∀ name ∈ names, Confined t (remove (p ++ [name]))) :
    Confined t (removeEntries remove p names) := by
  induction names with
  | nil => trivial
  | cons name names ih =>
    refine (hremove name (List.mem_cons_self ..)).bind fun removed => ?_
    cases removed with
    | false => trivial
    | true => exact ih fun x hx => hremove x (List.mem_cons_of_mem _ hx)

theorem ordinary_of_mem_namesIn {d : Path} {name : String} (h : name ∈ fs.namesIn d) :
    Ordinary name := by
  obtain ⟨⟨key, n⟩, _, hkey⟩ := List.mem_filterMap.mp (List.mem_dedup.mp h)
  split_ifs at hkey with hentry
  obtain ⟨m, hm⟩ := Option.isSome_iff_exists.mp hentry.2
  exact fs.ordinary _ _ hm name (List.mem_of_getLast? hkey)

theorem confined_removeEntry : ∀ depth (p : Path), t <+: p → (∀ name ∈ p, Ordinary name) →
    Confined t (removeEntry depth p : FileProgram ε Bool) := by
  intro depth
  induction depth with
  | zero => exact fun p _ _ => trivial
  | succ depth ih =>
    intro p ht hnames
    refine Confined.quiet (show (FsOp.symlinkMetadata p).quiet from rfl) fun metadata => ?_
    cases metadata with
    | none => trivial
    | some metadata =>
      change Confined t (ite _ _ _)
      split_ifs with hdir
      · refine ⟨.inl rfl, fun fs => ?_, trivial⟩
        simp only [FsOp.perform]
        cases hread : (fs.canonicalize p).bind fun q =>
            if fs.Directory q then some (fs.namesIn q) else none with
        | none => trivial
        | some names =>
          obtain ⟨q, _, hq⟩ := Option.bind_eq_some_iff.mp hread
          split_ifs at hq
          have hordinary : ∀ name ∈ names, Ordinary name := by
            intro name hname
            rw [← Option.some.inj hq] at hname
            exact ordinary_of_mem_namesIn hname
          have hentries : Confined t
              (removeEntries (removeEntry depth) p names : FileProgram ε Bool) := by
            refine confined_removeEntries fun name hname => ?_
            refine ih _ (ht.trans (List.prefix_append ..)) fun x hx => ?_
            rcases List.mem_append.mp hx with hx | hx
            · exact hnames x hx
            · rw [List.mem_singleton.mp hx]
              exact hordinary name hname
          refine hentries.bind fun removed => ?_
          cases removed with
          | false => trivial
          | true =>
            refine .entry (show (FsOp.removeDir p).entry = some p from rfl) ht hnames fun _ => ?_
            trivial
      · refine .entry (show (FsOp.removeFile p).entry = some p from rfl) ht hnames fun _ => ?_
        trivial

theorem confined_removeDirAll {p : Path} (ht : t <+: p) (hnames : ∀ name ∈ p, Ordinary name) :
    Confined t (removeDirAll p : FileProgram ε Bool) :=
  confined_removeEntry _ p ht hnames

/-! ## Files in a directory -/

/-- The second system is the first with the node at the path. -/
def WithNode (p : Path) (n : Node) (fs fs' : FileSystem) : Prop :=
  ∀ q, fs'.node q = if q = p then some n else fs.node q

theorem WithNode.node {p : Path} {n : Node} {fs' : FileSystem} (h : WithNode p n fs fs') :
    fs'.node p = some n := by
  rw [h, if_pos rfl]

theorem WithNode.below {p : Path} {n : Node} {fs' : FileSystem} (h : WithNode p n fs fs')
    (hn : ¬ n.IsSymlink) : Below p fs fs' :=
  .of_update (List.prefix_refl p) (o := some n) (by simpa using hn) h

theorem WithNode.again {p : Path} {n m : Node} {fs' fs'' : FileSystem} (h : WithNode p n fs fs')
    (h' : WithNode p m fs' fs'') : WithNode p m fs fs'' := by
  intro q
  rw [h' q, h q]
  split_ifs <;> rfl

theorem perform_createNew_append {d : Path} {name : String} (hd : fs.Directory d)
    (hname : Ordinary name) : device.perform (FsOp.createNew (d ++ [name])) fs =
      committed fs (fs.create (d ++ [name]) (.file [] newFileMode)) := by
  simp only [device, FsOp.perform, place_append hd hname, Option.bind_some]

theorem perform_append_of_file {p : Path} {content : ProtoWire.Bytes} {mode : ℕ}
    (h : fs.node p = some (.file content mode)) (bytes : ProtoWire.Bytes) :
    ∃ fs', device.perform (FsOp.append p bytes) fs = (true, fs') ∧
      WithNode p (.file (content ++ bytes) mode) fs fs' := by
  obtain ⟨fs', hmodify, hnode⟩ := modify_file (fun content mode => .file (content ++ bytes) mode) h
  refine ⟨fs', ?_, hnode⟩
  simp only [device, FsOp.perform, hmodify, committed]

theorem perform_setPermissions_of_file {p : Path} {content : ProtoWire.Bytes} {mode : ℕ}
    (h : fs.node p = some (.file content mode)) (mode' : ℕ) :
    ∃ fs', device.perform (FsOp.setPermissions p mode') fs = (true, fs') ∧
      WithNode p (.file content mode') fs fs' := by
  obtain ⟨fs', hmodify, hnode⟩ := modify_file (fun content _ => .file content mode') h
  refine ⟨fs', ?_, hnode⟩
  simp only [device, FsOp.perform, hmodify, committed]

theorem perform_syncAll (p : Path) :
    device.perform (FsOp.syncAll p) fs = ((fs.canonicalize p).isSome, fs) := rfl

theorem perform_rename_append {d : Path} {a b : String} (hd : fs.Directory d) (ha : Ordinary a)
    (hb : Ordinary b) : device.perform (FsOp.rename (d ++ [a]) (d ++ [b])) fs =
      committed fs (fs.renameEntry (d ++ [a]) (d ++ [b])) := by
  simp only [device, FsOp.perform, place_append hd ha, place_append hd hb, Option.bind_some]

theorem renameEntry_file_eq_some {q r : Path} {content : ProtoWire.Bytes} {mode : ℕ}
    {fs' : FileSystem} (hq : fs.node q = some (.file content mode)) (hne : q ≠ r)
    (h : fs.renameEntry q r = some fs') : ¬ fs.Directory r ∧ ∀ p, fs'.node p =
      if p = r then some (.file content mode) else if p = q then none else fs.node p := by
  obtain ⟨hmovable, hkind, hnode⟩ := renameEntry_eq_some h hne
  have hfile : ¬ fs.Directory q := not_directory_of_file hq
  refine ⟨?_, fun p => ?_⟩
  · rcases hkind with hnone | hiff
    · exact not_directory_of_none hnone
    · exact fun hr => hfile (hiff.mpr hr)
  · rw [hnode p]
    by_cases hpr : p = r
    · rw [hpr, if_pos (List.prefix_refl r), if_pos rfl, List.drop_length, List.append_nil, hq]
    · rw [if_neg hpr]
      by_cases hbelow : r <+: p
      · -- There is nothing below the source, and nothing was below the target.
        have hdrop : p.drop r.length ≠ [] := by
          rintro hnil
          obtain ⟨x, rfl⟩ := hbelow
          rw [List.drop_left] at hnil
          exact hpr (by rw [hnil, List.append_nil])
        have hpq : p ≠ q := fun heq => hmovable.target_apart (heq ▸ hbelow)
        rw [if_pos hbelow, if_neg hpq, node_append_of_not_directory hfile hdrop,
          hmovable.node_below hbelow hpr]
      · rw [if_neg hbelow]
        by_cases hpq : p = q
        · rw [hpq, if_pos (List.prefix_refl q), if_pos rfl]
        · rw [if_neg hpq]
          split_ifs with hqp
          · obtain ⟨x, rfl⟩ := hqp
            have hx : x ≠ [] := fun hnil => hpq (by rw [hnil, List.append_nil])
            exact (node_append_of_not_directory hfile hx).symm
          · rfl

theorem unlink_file_eq_some {q : Path} {content : ProtoWire.Bytes} {mode : ℕ} {fs' : FileSystem}
    (hq : fs.node q = some (.file content mode)) (h : fs.unlink q = some fs') (p : Path) :
    fs'.node p = if p = q then none else fs.node p := by
  rw [unlink_eq_some h p]
  by_cases hp : p = q
  · rw [hp, if_pos (List.prefix_refl q), if_pos rfl]
  · rw [if_neg hp]
    split_ifs with hbelow
    · obtain ⟨x, rfl⟩ := hbelow
      have hx : x ≠ [] := fun hnil => hp (by rw [hnil, List.append_nil])
      exact (node_append_of_not_directory (not_directory_of_file hq) hx).symm
    · rfl

theorem renameEntry_file {d : Path} {a b : String} {content : ProtoWire.Bytes} {mode : ℕ}
    (hq : fs.node (d ++ [a]) = some (.file content mode)) (hd : fs.Writable d) (hb : Ordinary b)
    (hne : a ≠ b) (htarget : ¬ fs.Directory (d ++ [b])) :
    ∃ fs', fs.renameEntry (d ++ [a]) (d ++ [b]) = some fs' := by
  have hpath : d ++ [a] ≠ d ++ [b] := fun h => hne (by simpa using h)
  have hkind : fs.node (d ++ [b]) = none ∨ (fs.Directory (d ++ [a]) ↔ fs.Directory (d ++ [b])) :=
    .inr (iff_of_false (not_directory_of_file hq) htarget)
  unfold renameEntry
  rw [if_neg hpath, dif_pos ⟨movable_of_file hq hd.directory hb hpath htarget,
    by simpa using hd, by simpa using hd, hkind⟩]
  exact ⟨_, rfl⟩

/-! ## Making directories -/

theorem perform_createDir_of_resolves {p : Path} (h : (fs.canonicalize p).isSome) :
    device.perform (FsOp.createDir p) fs = (.error .other, fs) := by
  obtain ⟨x, hx⟩ := trimmed_isPrefix p
  have htrimmed : (fs.canonicalize (trimmed p)).isSome :=
    isSome_canonicalize_of_append (b := x) (by rwa [hx])
  simp only [device, FsOp.perform]
  cases hplace : fs.place (trimmed p) with
  | some q =>
    simp only
    rw [create_eq_none (isSome_node_of_place hplace htrimmed)]
  | none =>
    obtain ⟨y, hy⟩ := List.dropLast_prefix (trimmed p)
    have hparent : (fs.canonicalize (trimmed p).dropLast).isSome :=
      isSome_canonicalize_of_append (b := y) (by rwa [hy])
    simp only [hparent, if_true]

theorem perform_createDir_append {d : Path} {name : String} (hd : fs.Directory d)
    (hname : Ordinary name) : device.perform (FsOp.createDir (d ++ [name])) fs =
      match fs.create (d ++ [name]) (.directory true) with
      | some fs' => (.ok (), fs')
      | none => (.error .other, fs) := by
  cases hcreate : fs.create (d ++ [name]) (.directory true) <;>
    simp only [device, FsOp.perform, trimmed_append hname, place_append hd hname, hcreate]

variable {mayFail : FsOp → Bool} {I : FileSystem → Prop} {Q : Except ε Bool → FileSystem → Prop}

theorem wp_createDirAll_of_resolves {p : Path} (h : (fs.canonicalize p).isSome) (depth : ℕ)
    (hI : I fs) (hQ : ∀ made, Q (.ok made) fs) :
    Program.wp device mayFail I Q (createDirAll depth p) fs := by
  have hlook : Program.wp device mayFail I Q (isDir p) fs :=
    Program.wp_read (show device.reads (.isDir p) from rfl) hI fun reply => hQ reply
  cases depth with
  | zero => exact hQ false
  | succ depth =>
    refine ⟨hI, ?_, fun _ => hlook⟩
    rw [perform_createDir_of_resolves h]
    exact hlook

theorem exec_createDirAll_of_directory {p q : Path} (h : fs.canonicalize p = some q)
    (hq : fs.Directory q) (depth : ℕ) :
    Program.exec device (createDirAll (depth + 1) p : FileProgram ε Bool) fs = (.ok true, fs) := by
  change Program.exec device (.call (FsOp.createDir p) _) fs = _
  rw [Program.exec, perform_createDir_of_resolves (by simp [h])]
  change (Except.ok ((fs.canonicalize p).any fun q => decide (fs.Directory q)), fs) = _
  simp [h, hq]

theorem wp_createDirAll_append {d : Path} {name : String} (hd : fs.Directory d)
    (hname : Ordinary name) (depth : ℕ) (hI : I fs) (hQ : ∀ made, Q (.ok made) fs)
    (hmade : ∀ fs', fs.create (d ++ [name]) (.directory true) = some fs' → Q (.ok true) fs') :
    Program.wp device mayFail I Q (createDirAll depth (d ++ [name])) fs := by
  have hlook : Program.wp device mayFail I Q (isDir (d ++ [name])) fs :=
    Program.wp_read (show device.reads (.isDir (d ++ [name])) from rfl) hI fun reply => hQ reply
  cases depth with
  | zero => exact hQ false
  | succ depth =>
    refine ⟨hI, ?_, fun _ => hlook⟩
    rw [perform_createDir_append hd hname]
    cases hcreate : fs.create (d ++ [name]) (.directory true) with
    | none => exact hlook
    | some fs' => exact hmade fs' hcreate

/-- Some directories were made where nothing was. -/
def OnlyMade (fs fs' : FileSystem) : Prop :=
  ∀ q, fs'.node q = fs.node q ∨ (fs.node q = none ∧ fs'.node q = some (.directory true))

theorem OnlyMade.refl (fs : FileSystem) : OnlyMade fs fs := fun _ => .inl rfl

theorem OnlyMade.trans {fs fs' fs'' : FileSystem} (h : OnlyMade fs fs') (h' : OnlyMade fs' fs'') :
    OnlyMade fs fs'' := by
  intro q
  rcases h' q with hsame | ⟨hnone, hmade⟩
  · rw [hsame]
    exact h q
  · rcases h q with hsame | ⟨-, hmade'⟩
    · exact .inr ⟨hsame.symm.trans hnone, hmade⟩
    · rw [hnone] at hmade'
      cases hmade'

theorem OnlyMade.directory {fs fs' : FileSystem} (h : OnlyMade fs fs') {p : Path}
    (hp : fs.Directory p) : fs'.Directory p := by
  rw [directory_iff] at hp ⊢
  obtain ⟨writable, hnode⟩ := hp
  rcases h p with hsame | ⟨hnone, -⟩
  · exact ⟨writable, hsame.trans hnode⟩
  · rw [hnone] at hnode
    cases hnode

theorem perform_createDir_made (p : Path) (fs : FileSystem) :
    (∃ e, device.perform (FsOp.createDir p) fs = (.error e, fs)) ∨
      ∃ fs', device.perform (FsOp.createDir p) fs = (.ok (), fs') ∧ OnlyMade fs fs' := by
  simp only [device, FsOp.perform]
  cases fs.place (trimmed p) with
  | none => exact .inl ⟨_, rfl⟩
  | some q =>
    cases hcreate : fs.create q (.directory true) with
    | none =>
      simp only [hcreate]
      exact .inl ⟨_, rfl⟩
    | some fs' =>
      obtain ⟨hfree, -, hnew⟩ := create_eq_some hcreate
      simp only [hcreate]
      refine .inr ⟨fs', rfl, fun r => ?_⟩
      rw [hnew]
      split_ifs with hr
      · exact .inr ⟨hr ▸ hfree, rfl⟩
      · exact .inl rfl

/-- A program that reports success has done what it does undisturbed; it only makes directories. -/
def Makes (p : FileProgram ε Bool) (fs : FileSystem) : Except ε Bool → FileSystem → Prop
  | .ok made, fs' => OnlyMade fs fs' ∧ (made = true → Program.exec device p fs = (.ok true, fs'))
  | .error _, _ => False

theorem Makes.failed (p : FileProgram ε Bool) (fs : FileSystem) : Makes p fs (.ok false) fs :=
  ⟨.refl fs, fun h => by cases h⟩

theorem wp_isDir_makes {p : Path} {program : FileProgram ε Bool} {fs₁ : FileSystem}
    (hmade : OnlyMade fs fs₁) (h : ∀ q, fs₁.canonicalize p = some q → fs₁.Directory q →
      Program.exec device program fs = (.ok true, fs₁)) :
    Program.wp device mayFail (OnlyMade fs) (Makes program fs) (isDir p) fs₁ := by
  refine ⟨hmade, ⟨hmade, fun htrue => ?_⟩, fun _ => ⟨hmade, fun hfalse => by cases hfalse⟩⟩
  obtain ⟨q, hq, hdir⟩ := (Option.any_eq_true _ _).mp htrue
  exact h q hq (of_decide_eq_true hdir)

theorem exec_createDirAll_of_notFound {depth : ℕ} {p up : Path} {fs₁ : FileSystem}
    (hperform : device.perform (FsOp.createDir p) fs = (.error .notFound, fs))
    (hparent : parent p = some up)
    (hup : Program.exec device (createDirAll depth up : FileProgram ε Bool) fs = (.ok true, fs₁)) :
    Program.exec device (createDirAll (depth + 1) p : FileProgram ε Bool) fs =
      match device.perform (FsOp.createDir p) fs₁ with
      | (.ok (), fs₂) => (.ok true, fs₂)
      | (.error _, fs₂) => Program.exec device (isDir p : FileProgram ε Bool) fs₂ := by
  change Program.exec device (.call (FsOp.createDir p) _) fs = _
  rw [Program.exec, hperform]
  simp only [hparent]
  change Program.exec device (createDirAll depth up >>= _) fs = _
  rw [Program.exec_bind, hup]
  change Program.exec device (.call (FsOp.createDir p) _) fs₁ = _
  rw [Program.exec]
  rcases device.perform (FsOp.createDir p) fs₁ with ⟨_ | _, fs₂⟩ <;> rfl

/-- Whatever fails, directories are made as they are undisturbed, or the failure is reported. -/
theorem wp_createDirAll_makes : ∀ (depth : ℕ) (p : Path) (fs : FileSystem),
    Program.wp device mayFail (OnlyMade fs) (Makes (createDirAll depth p : FileProgram ε Bool) fs)
      (createDirAll depth p) fs := by
  intro depth
  induction depth with
  | zero => exact fun p fs => .failed _ fs
  | succ depth ih =>
    intro p fs
    have hlook : Program.wp device mayFail (OnlyMade fs)
        (Makes (createDirAll (depth + 1) p : FileProgram ε Bool) fs) (isDir p) fs :=
      wp_isDir_makes (.refl fs) fun q hq hdir => exec_createDirAll_of_directory hq hdir depth
    refine ⟨.refl fs, ?_, fun _ => hlook⟩
    rcases perform_createDir_made p fs with ⟨e, hperform⟩ | ⟨fs₁, hperform, hmade⟩
    · rw [hperform]
      cases e with
      | other => exact hlook
      | notFound =>
        dsimp only
        cases hparent : parent p with
        | none => exact .failed _ fs
        | some up =>
          change Program.wp device mayFail _ _ (createDirAll depth up >>= _) fs
          apply Program.wp_bind (Program.wp_mono (ih up fs) _)
          rintro (e | _ | _) fs₁ hmakes
          · exact hmakes.elim
          · obtain ⟨hmade, -⟩ := hmakes
            exact ⟨hmade, fun h => by cases h⟩
          · obtain ⟨hmade, hundisturbed⟩ := hmakes
            have hexec := exec_createDirAll_of_notFound hperform hparent (hundisturbed rfl)
            have hagain : Program.wp device mayFail (OnlyMade fs)
                (Makes (createDirAll (depth + 1) p : FileProgram ε Bool) fs) (isDir p) fs₁ := by
              apply wp_isDir_makes hmade
              intro q hq hdir
              rw [hexec, perform_createDir_of_resolves (by simp [hq])]
              change (Except.ok ((fs₁.canonicalize p).any fun q => fs₁.Directory q), fs₁) = _
              simp [hq, hdir]
            refine ⟨hmade, ?_, fun _ => hagain⟩
            rcases perform_createDir_made p fs₁ with ⟨e, hperform'⟩ | ⟨fs₂, hperform', hmade'⟩
            · rw [hperform']
              exact hagain
            · rw [hperform'] at hexec ⊢
              exact ⟨hmade.trans hmade', fun _ => hexec⟩
    · rw [hperform]
      refine ⟨hmade, fun _ => ?_⟩
      change Program.exec device (.call (FsOp.createDir p) _) fs = _
      rw [Program.exec, hperform]
      rfl

end Files
