import CertaelAgent.Foundation.Program
import CertaelAgent.Foundation.Wire

/-!
# A hierarchical file system

A file system is a finite table from canonical absolute paths to files, directories and symbolic
links in which every entry lies in a directory. Paths that come from outside are lists of names
as they are written, with empty names, `.` and `..` among them; they are resolved name by name,
following links, as `realpath` does. Changes of entries need write permission on the directory
they are in; `rename` replaces a file, or an empty directory by a directory, in one step.
-/

namespace Files

open ProtoWire

abbrev Path := List String

/-- A name that an entry may have. -/
def Ordinary (name : String) : Prop := name ≠ "" ∧ name ≠ "." ∧ name ≠ ".."

instance (name : String) : Decidable (Ordinary name) := inferInstanceAs (Decidable (_ ∧ _ ∧ _))

inductive Node
  | file (content : Bytes) (mode : ℕ)
  | directory (writable : Bool)
  | symlink (absolute : Bool) (target : Path)
deriving DecidableEq, Repr

namespace Node

def IsDirectory : Node → Prop
  | directory _ => True
  | _ => False

def IsSymlink : Node → Prop
  | symlink _ _ => True
  | _ => False

instance : DecidablePred IsDirectory := fun n => by unfold IsDirectory; cases n <;> infer_instance

instance : DecidablePred IsSymlink := fun n => by unfold IsSymlink; cases n <;> infer_instance

end Node

abbrev Table := List (Path × Node)

/-- The first entry with the path counts. -/
def Table.node : Table → Path → Option Node
  | [], _ => none
  | (q, n) :: t, p => if p = q then some n else node t p

theorem Table.mem_of_node {t : Table} {p : Path} {n : Node} (h : t.node p = some n) :
    (p, n) ∈ t := by
  induction t with
  | nil => simp [Table.node] at h
  | cons entry t ih =>
    obtain ⟨key, m⟩ := entry
    rw [Table.node] at h
    split_ifs at h with hp
    · rw [hp, Option.some.inj h]
      exact List.mem_cons_self ..
    · exact List.mem_cons_of_mem _ (ih h)

/-- There is a directory at the path. -/
def Table.Directory (t : Table) (p : Path) : Prop := ∃ n ∈ t.node p, n.IsDirectory

instance (t : Table) (p : Path) : Decidable (t.Directory p) := by
  unfold Table.Directory
  cases t.node p <;> infer_instance

structure FileSystem where
  table : Table
  root : table.Directory []
  parent : ∀ p name n, table.node (p ++ [name]) = some n → table.Directory p
  ordinary : ∀ p n, table.node p = some n → ∀ name ∈ p, Ordinary name

namespace FileSystem

def node (fs : FileSystem) (p : Path) : Option Node := fs.table.node p

def Directory (fs : FileSystem) (p : Path) : Prop := fs.table.Directory p

instance (fs : FileSystem) (p : Path) : Decidable (fs.Directory p) :=
  inferInstanceAs (Decidable (fs.table.Directory p))

/-- A table of entries that all lie in a directory. -/
def ofTable (t : Table) (root : t.Directory [])
    (h : ∀ entry ∈ t, (entry.1 = [] ∨ t.Directory entry.1.dropLast) ∧
      ∀ name ∈ entry.1, Ordinary name) : FileSystem where
  table := t
  root := root
  parent p name n hn := by
    rcases (h _ (Table.mem_of_node hn)).1 with hnil | hdir
    · simp at hnil
    · rwa [List.dropLast_concat] at hdir
  ordinary p n hn := (h _ (Table.mem_of_node hn)).2

/-- There is a file or a directory at the path, and no link. -/
def Real (fs : FileSystem) (p : Path) : Prop := ∃ n ∈ fs.node p, ¬ n.IsSymlink

variable {fs : FileSystem}

theorem directory_iff {p : Path} :
    fs.Directory p ↔ ∃ writable, fs.node p = some (.directory writable) := by
  constructor
  · rintro ⟨n, hn, hdir⟩
    cases n with
    | directory writable => exact ⟨writable, hn⟩
    | file content mode => exact hdir.elim
    | symlink absolute target => exact hdir.elim
  · rintro ⟨writable, h⟩
    exact ⟨_, h, trivial⟩

theorem Directory.real {p : Path} (h : fs.Directory p) : fs.Real p := by
  obtain ⟨writable, h⟩ := directory_iff.mp h
  exact ⟨_, h, id⟩

theorem directory_of_append {p q : Path} {n : Node} (h : fs.node (p ++ q) = some n) (hq : q ≠ []) :
    fs.Directory p := by
  induction q using List.reverseRecOn generalizing n with
  | nil => exact absurd rfl hq
  | append_singleton q name ih =>
    rw [← List.append_assoc] at h
    have hparent : fs.Directory (p ++ q) := fs.parent _ _ _ h
    by_cases hnil : q = []
    · simpa [hnil] using hparent
    · obtain ⟨writable, hnode⟩ := directory_iff.mp hparent
      exact ih hnode hnil

theorem node_append_of_not_directory {p q : Path} (h : ¬ fs.Directory p) (hq : q ≠ []) :
    fs.node (p ++ q) = none := by
  cases hnode : fs.node (p ++ q) with
  | none => rfl
  | some n => exact absurd (directory_of_append hnode hq) h

/-! ## Resolution of paths -/

/-- Goes down the names from a canonical path; `follow` is what happens at a link. -/
def walkNames (fs : FileSystem) (follow : Path → Path → Option Path) : Path → Path → Option Path
  | current, [] => some current
  | current, name :: rest =>
    if ¬ fs.Directory current then none
    else if name = "" ∨ name = "." then walkNames fs follow current rest
    else if name = ".." then walkNames fs follow current.dropLast rest
    else match fs.node (current ++ [name]) with
      | none => none
      | some (.symlink absolute target) => follow (if absolute then [] else current) (target ++ rest)
      | some _ => walkNames fs follow (current ++ [name]) rest

/-- Follows at most the given number of links. -/
def walk (fs : FileSystem) : ℕ → Path → Path → Option Path
  | 0 => walkNames fs fun _ _ => none
  | links + 1 => walkNames fs (walk fs links)

/-- The number of links that a resolution may follow. -/
def maxSymlinks : ℕ := 40

/-- `realpath`. -/
def canonicalize (fs : FileSystem) (p : Path) : Option Path := fs.walk maxSymlinks [] p

/-- The entry a path names: links in front of its last name are followed, the last one is not. -/
def place (fs : FileSystem) (p : Path) : Option Path :=
  match p.getLast? with
  | none => none
  | some name =>
    if Ordinary name then
      (fs.canonicalize p.dropLast).bind fun directory =>
        if fs.Directory directory then some (directory ++ [name]) else none
    else none

/-- The entry that is looked at without following it. -/
def locate (fs : FileSystem) (p : Path) : Option Path :=
  match p.getLast? with
  | none => some []
  | some name => if Ordinary name then fs.place p else fs.canonicalize p

theorem Real.dropLast {p : Path} (h : fs.Real p) : fs.Real p.dropLast := by
  rcases List.eq_nil_or_concat p with rfl | ⟨q, name, rfl⟩
  · exact h
  · obtain ⟨n, hn, _⟩ := h
    rw [List.concat_eq_append] at hn ⊢
    rw [List.dropLast_concat]
    exact Directory.real (fs.parent _ _ _ hn)

theorem walkNames_real {follow : Path → Path → Option Path}
    (hfollow : ∀ current rest q, fs.Real current → follow current rest = some q → fs.Real q) :
    ∀ rest current q, fs.Real current → fs.walkNames follow current rest = some q → fs.Real q := by
  intro rest
  induction rest with
  | nil =>
    intro current q hreal h
    rwa [← Option.some.inj h]
  | cons name rest ih =>
    intro current q hreal h
    unfold walkNames at h
    split_ifs at h with hdir hskip hup
    · exact ih current q hreal h
    · exact ih _ q hreal.dropLast h
    · cases hnode : fs.node (current ++ [name]) with
      | none => simp [hnode] at h
      | some n =>
        cases n with
        | file content mode =>
          simp only [hnode] at h
          exact ih _ q ⟨_, hnode, id⟩ h
        | directory writable =>
          simp only [hnode] at h
          exact ih _ q ⟨_, hnode, id⟩ h
        | symlink absolute target =>
          simp only [hnode] at h
          refine hfollow _ _ q ?_ h
          cases absolute with
          | true => exact Directory.real fs.root
          | false => exact hreal

theorem walk_real : ∀ links current rest q, fs.Real current → fs.walk links current rest = some q →
    fs.Real q := by
  intro links
  induction links with
  | zero => exact fun current rest q => walkNames_real (by simp) rest current q
  | succ links ih => exact fun current rest q => walkNames_real ih rest current q

theorem real_of_canonicalize {p q : Path} (h : fs.canonicalize p = some q) : fs.Real q :=
  walk_real _ _ _ _ (Directory.real fs.root) h

theorem walkNames_of_real (follow : Path → Path → Option Path) :
    ∀ rest current, fs.Real (current ++ rest) →
      fs.walkNames follow current rest = some (current ++ rest) := by
  intro rest
  induction rest with
  | nil => intro current _; simp [walkNames]
  | cons name rest ih =>
    intro current hreal
    obtain ⟨n, hn, hlink⟩ := hreal
    have hdir : fs.Directory current := directory_of_append hn (by simp)
    have hname : Ordinary name := fs.ordinary _ _ hn name (by simp)
    have hnext : fs.Real (current ++ [name]) := by
      cases rest with
      | nil => exact ⟨n, hn, hlink⟩
      | cons next rest =>
        refine Directory.real (directory_of_append (q := next :: rest) (n := n) ?_ (by simp))
        simpa using hn
    have hrest : fs.Real ((current ++ [name]) ++ rest) := ⟨n, by simpa using hn, hlink⟩
    obtain ⟨m, hm, hmlink⟩ := hnext
    have hm' : fs.node (current ++ [name]) = some m := hm
    unfold walkNames
    rw [if_neg (not_not.mpr hdir), if_neg (by simp [hname.1, hname.2.1]), if_neg hname.2.2, hm']
    cases m with
    | file content mode => simpa using ih _ hrest
    | directory writable => simpa using ih _ hrest
    | symlink absolute target => exact absurd trivial hmlink

theorem canonicalize_of_real {p : Path} (h : fs.Real p) : fs.canonicalize p = some p :=
  walkNames_of_real _ p [] h

theorem canonicalize_idem {p q : Path} (h : fs.canonicalize p = some q) :
    fs.canonicalize q = some q :=
  canonicalize_of_real (real_of_canonicalize h)

theorem place_append {d : Path} {name : String} (hd : fs.Directory d) (hname : Ordinary name) :
    fs.place (d ++ [name]) = some (d ++ [name]) := by
  simp [place, hname, canonicalize_of_real hd.real, hd]

theorem locate_append {d : Path} {name : String} (hd : fs.Directory d) (hname : Ordinary name) :
    fs.locate (d ++ [name]) = some (d ++ [name]) := by
  simp [locate, hname, place_append hd hname]

theorem locate_of_real {p : Path} (h : fs.Real p) : fs.locate p = some p := by
  rcases List.eq_nil_or_concat p with rfl | ⟨d, name, rfl⟩
  · rfl
  · obtain ⟨n, hn, _⟩ := h
    rw [List.concat_eq_append] at hn ⊢
    exact locate_append (fs.parent _ _ _ hn) (fs.ordinary _ _ hn name (by simp))

/-- Where the whole of a path resolves, so does the beginning. -/
theorem walkNames_of_append {follow : Path → Path → Option Path} (b : Path)
    (hfollow : ∀ current rest, (follow current (rest ++ b)).isSome →
      (follow current rest).isSome) :
    ∀ a current, (fs.walkNames follow current (a ++ b)).isSome →
      (fs.walkNames follow current a).isSome := by
  intro a
  induction a with
  | nil => intro current _; rfl
  | cons name a ih =>
    intro current h
    rw [List.cons_append, walkNames] at h
    rw [walkNames]
    split_ifs at h ⊢ with hdir hskip hup
    · exact ih _ h
    · exact ih _ h
    · cases hnode : fs.node (current ++ [name]) with
      | none => simp [hnode] at h
      | some n =>
        cases n with
        | file content mode =>
          simp only [hnode] at h ⊢
          exact ih _ h
        | directory writable =>
          simp only [hnode] at h ⊢
          exact ih _ h
        | symlink absolute target =>
          simp only [hnode, ← List.append_assoc] at h ⊢
          exact hfollow _ _ h
    · simp at h

theorem isSome_canonicalize_of_append {a b : Path} (h : (fs.canonicalize (a ++ b)).isSome) :
    (fs.canonicalize a).isSome := by
  have hwalk : ∀ links a current, (fs.walk links current (a ++ b)).isSome →
      (fs.walk links current a).isSome := by
    intro links
    induction links with
    | zero => exact fun a current => walkNames_of_append b (by simp) a current
    | succ links ih => exact fun a current => walkNames_of_append b (fun c r => ih r c) a current
  exact hwalk _ _ _ h

theorem walkNames_concat {follow : Path → Path → Option Path} {name : String}
    (hname : Ordinary name) (hfollow : ∀ current rest c, follow current rest = some c →
      (∀ n ∈ fs.node (c ++ [name]), ¬ n.IsSymlink) →
      follow current (rest ++ [name]) = (fs.node (c ++ [name])).map fun _ => c ++ [name]) :
    ∀ a current c, fs.walkNames follow current a = some c →
      (∀ n ∈ fs.node (c ++ [name]), ¬ n.IsSymlink) →
      fs.walkNames follow current (a ++ [name]) = (fs.node (c ++ [name])).map fun _ => c ++ [name] := by
  intro a
  induction a with
  | nil =>
    intro current c h hlink
    rw [walkNames, Option.some.injEq] at h
    subst h
    rw [List.nil_append, walkNames, if_neg (by simp [hname.1, hname.2.1] : ¬ (name = "" ∨ name = ".")),
      if_neg hname.2.2]
    split_ifs with hdir
    · cases hnode : fs.node (current ++ [name]) with
      | none => rfl
      | some n =>
        cases n with
        | file content mode => rfl
        | directory writable => rfl
        | symlink absolute target => exact absurd trivial (hlink _ hnode)
    · rw [node_append_of_not_directory hdir (by simp)]
      rfl
  | cons next a ih =>
    intro current c h hlink
    rw [walkNames] at h
    rw [List.cons_append, walkNames]
    split_ifs at h ⊢ with hdir hskip hup
    · exact ih _ _ h hlink
    · exact ih _ _ h hlink
    · cases hn : fs.node (current ++ [next]) with
      | none => simp [hn] at h
      | some n =>
        cases n with
        | file content mode =>
          simp only [hn] at h ⊢
          exact ih _ _ h hlink
        | directory writable =>
          simp only [hn] at h ⊢
          exact ih _ _ h hlink
        | symlink absolute target =>
          simp only [hn, ← List.append_assoc] at h ⊢
          exact hfollow _ _ _ h hlink

theorem canonicalize_concat {d c : Path} {name : String} (hname : Ordinary name)
    (hd : fs.canonicalize d = some c) (hlink : ∀ n ∈ fs.node (c ++ [name]), ¬ n.IsSymlink) :
    fs.canonicalize (d ++ [name]) = (fs.node (c ++ [name])).map fun _ => c ++ [name] := by
  have hwalk : ∀ links a current c, fs.walk links current a = some c →
      (∀ n ∈ fs.node (c ++ [name]), ¬ n.IsSymlink) →
      fs.walk links current (a ++ [name]) = (fs.node (c ++ [name])).map fun _ => c ++ [name] := by
    intro links
    induction links with
    | zero => exact fun a current c => walkNames_concat hname (by simp) a current c
    | succ links ih =>
      exact fun a current c => walkNames_concat hname (fun x y z => ih y x z) a current c
  exact hwalk _ _ _ _ hd hlink

theorem isSome_node_of_place {p q : Path} (hplace : fs.place p = some q)
    (h : (fs.canonicalize p).isSome) : (fs.node q).isSome := by
  rcases List.eq_nil_or_concat p with rfl | ⟨d, name, rfl⟩
  · simp [place] at hplace
  · rw [List.concat_eq_append] at hplace h
    unfold place at hplace
    rw [List.getLast?_concat, List.dropLast_concat] at hplace
    simp only at hplace
    split_ifs at hplace with hname
    obtain ⟨c, hc, hq⟩ := Option.bind_eq_some_iff.mp hplace
    split_ifs at hq
    rw [← Option.some.inj hq]
    by_contra hnone
    have hnode : fs.node (c ++ [name]) = none := by simpa using hnone
    rw [canonicalize_concat hname hc (by simp [hnode]), hnode] at h
    simp at h

/-- What `lstat` shows to be no link is what the path leads to. -/
theorem canonicalize_of_locate {p q : Path} (hlocate : fs.locate p = some q)
    (hq : fs.Real q) : fs.canonicalize p = some q := by
  rcases List.eq_nil_or_concat p with rfl | ⟨d, name, rfl⟩
  · exact hlocate
  · rw [List.concat_eq_append] at hlocate ⊢
    unfold locate at hlocate
    rw [List.getLast?_concat] at hlocate
    simp only at hlocate
    split_ifs at hlocate with hname
    · unfold place at hlocate
      rw [List.getLast?_concat, List.dropLast_concat] at hlocate
      simp only [hname, if_true] at hlocate
      obtain ⟨c, hc, hplace⟩ := Option.bind_eq_some_iff.mp hlocate
      split_ifs at hplace
      rw [← Option.some.inj hplace] at hq ⊢
      obtain ⟨n, hn, hlink⟩ := hq
      have hn' : fs.node (c ++ [name]) = some n := hn
      rw [canonicalize_concat hname hc (by simpa [hn'] using hlink), hn']
      rfl
    · exact hlocate

/-! ## Paths without links -/

/-- No link at the path or above it. -/
def LinkFree (fs : FileSystem) (p : Path) : Prop := ∀ q, q <+: p → ∀ n ∈ fs.node q, ¬ n.IsSymlink

theorem LinkFree.above {p q : Path} (h : fs.LinkFree p) (hq : q <+: p) : fs.LinkFree q :=
  fun r hr => h r (hr.trans hq)

theorem Real.linkFree {p : Path} (h : fs.Real p) : fs.LinkFree p := by
  rintro q ⟨x, rfl⟩ n hn
  by_cases hx : x = []
  · obtain ⟨m, hm, hlink⟩ := h
    rw [hx, List.append_nil] at hm
    rwa [Option.mem_unique hn hm]
  · obtain ⟨m, hm, _⟩ := h
    obtain ⟨writable, hdir⟩ := directory_iff.mp (directory_of_append hm hx)
    rw [Option.mem_unique hn hdir]
    exact id

theorem LinkFree.append {d : Path} {name : String} (hd : fs.LinkFree d)
    (h : ∀ n ∈ fs.node (d ++ [name]), ¬ n.IsSymlink) : fs.LinkFree (d ++ [name]) := by
  intro q hq n hn
  rcases List.prefix_concat_iff.mp hq with rfl | hq
  · exact h n hn
  · exact hd q hq n hn

theorem linkFree_of_none {d : Path} {name : String} (hd : fs.LinkFree d)
    (hnone : fs.node (d ++ [name]) = none) : ∀ q, d ++ [name] <+: q → fs.LinkFree q := by
  rintro q ⟨x, rfl⟩ r hr n hn
  have hbelow : ∀ y, fs.node (d ++ [name] ++ y) = none := by
    intro y
    by_cases hy : y = []
    · rw [hy, List.append_nil, hnone]
    · refine node_append_of_not_directory ?_ hy
      rw [directory_iff, hnone]
      simp
  rcases List.prefix_or_prefix_of_prefix hr (List.prefix_append _ x) with h | ⟨y, rfl⟩
  · refine (hd.append ?_) r h n hn
    intro m hm
    simp [hnone] at hm
  · rw [hbelow y] at hn
    simp at hn

theorem eq_of_canonicalize {p q : Path} (hp : ∀ name ∈ p, Ordinary name) (hfree : fs.LinkFree p)
    (h : fs.canonicalize p = some q) : q = p := by
  have hwalk : ∀ (follow : Path → Path → Option Path) rest current, current ++ rest = p →
      fs.walkNames follow current rest = some q → q = p := by
    intro follow rest
    induction rest with
    | nil =>
      intro current hcurrent hrest
      rw [walkNames, Option.some.injEq] at hrest
      rw [← hrest, ← hcurrent, List.append_nil]
    | cons name rest ih =>
      intro current hcurrent hrest
      have hname : Ordinary name := hp name (by simp [← hcurrent])
      have hnext : (current ++ [name]) ++ rest = p := by simpa using hcurrent
      rw [walkNames, if_neg (by simp [hname.1, hname.2.1] : ¬ (name = "" ∨ name = ".")),
        if_neg hname.2.2] at hrest
      split_ifs at hrest
      cases hn : fs.node (current ++ [name]) with
      | none => simp [hn] at hrest
      | some n =>
        cases n with
        | file content mode =>
          simp only [hn] at hrest
          exact ih _ hnext hrest
        | directory writable =>
          simp only [hn] at hrest
          exact ih _ hnext hrest
        | symlink absolute target =>
          exact absurd trivial (hfree _ ⟨rest, hnext⟩ _ hn)
  exact hwalk _ p [] rfl h

theorem eq_of_place {p q : Path} (hp : ∀ name ∈ p, Ordinary name) (hfree : fs.LinkFree p.dropLast)
    (h : fs.place p = some q) : q = p ∧ fs.Directory p.dropLast := by
  rcases List.eq_nil_or_concat p with rfl | ⟨d, name, rfl⟩
  · simp [place] at h
  · rw [List.concat_eq_append] at hp hfree h ⊢
    rw [List.dropLast_concat] at hfree ⊢
    unfold place at h
    rw [List.getLast?_concat, List.dropLast_concat] at h
    simp only at h
    split_ifs at h with hname
    obtain ⟨c, hc, hq⟩ := Option.bind_eq_some_iff.mp h
    split_ifs at hq with hdir
    have hd : c = d := eq_of_canonicalize (fun x hx => hp x (List.mem_append_left _ hx)) hfree hc
    rw [← Option.some.inj hq, hd]
    exact ⟨rfl, hd ▸ hdir⟩

theorem eq_of_locate {p q : Path} (hp : ∀ name ∈ p, Ordinary name) (hfree : fs.LinkFree p.dropLast)
    (h : fs.locate p = some q) : q = p := by
  rcases List.eq_nil_or_concat p with rfl | ⟨d, name, rfl⟩
  · exact (Option.some.inj h).symm
  · rw [List.concat_eq_append] at hp hfree h ⊢
    have hplace : fs.place (d ++ [name]) = some q := by
      unfold locate at h
      rw [List.getLast?_concat] at h
      simpa only [hp name (by simp), if_true] using h
    exact (eq_of_place hp hfree hplace).1

/-- A path is resolved by what is a directory, what is a link and where the links lead; the
contents of files do not matter. -/
theorem canonicalize_congr {fs' : FileSystem}
    (h : ∀ p, fs'.node p = fs.node p ∨ ∃ c m c' m', fs.node p = some (.file c m) ∧
      fs'.node p = some (.file c' m')) (p : Path) : fs'.canonicalize p = fs.canonicalize p := by
  have hdir : ∀ p, fs'.Directory p ↔ fs.Directory p := by
    intro p
    rw [directory_iff, directory_iff]
    rcases h p with hsame | ⟨c, m, c', m', hold, hnew⟩
    · rw [hsame]
    · simp [hold, hnew]
  have hnames : ∀ (follow follow' : Path → Path → Option Path), (∀ c r, follow' c r = follow c r) →
      ∀ rest current, fs'.walkNames follow' current rest = fs.walkNames follow current rest := by
    intro follow follow' hfollow rest
    induction rest with
    | nil => intro current; rfl
    | cons name rest ih =>
      intro current
      unfold walkNames
      simp only [hdir, ih]
      rcases h (current ++ [name]) with hsame | ⟨c, m, c', m', hold, hnew⟩
      · simp only [hsame, hfollow]
      · simp only [hold, hnew]
  have hwalk : ∀ links current rest, fs'.walk links current rest = fs.walk links current rest := by
    intro links
    induction links with
    | zero => exact fun current rest => hnames _ _ (fun _ _ => rfl) rest current
    | succ links ih => exact fun current rest => hnames _ _ ih rest current
  exact hwalk _ _ _

/-! ## Changes of entries -/

/-- The path may get an entry that is not below another one: it lies in a directory, and there is
no directory at it. -/
def Placeable (fs : FileSystem) (q : Path) : Prop :=
  (∃ name ∈ q.getLast?, Ordinary name) ∧ fs.Directory q.dropLast ∧ ¬ fs.Directory q

instance (fs : FileSystem) (q : Path) : Decidable (fs.Placeable q) := by
  unfold Placeable
  cases q.getLast? <;> infer_instance

theorem Placeable.split {q : Path} (h : fs.Placeable q) :
    ∃ d name, q = d ++ [name] ∧ Ordinary name ∧ fs.Directory d := by
  obtain ⟨⟨name, hlast, hname⟩, hdir, _⟩ := h
  exact ⟨q.dropLast, name, (List.dropLast_append_getLast? name hlast).symm, hname, hdir⟩

theorem placeable_append {d : Path} {name : String} (hd : fs.Directory d) (hname : Ordinary name)
    (h : ¬ fs.Directory (d ++ [name])) : fs.Placeable (d ++ [name]) :=
  ⟨⟨name, by simp, hname⟩, by simpa using hd, h⟩

theorem ordinary_of_directory {d : Path} (h : fs.Directory d) : ∀ name ∈ d, Ordinary name := by
  obtain ⟨n, hn, _⟩ := h
  exact fs.ordinary _ _ hn

/-- Creates the entry, or replaces a file or a link. -/
def put (fs : FileSystem) (q : Path) (n : Node) (h : fs.Placeable q) : FileSystem where
  table := (q, n) :: fs.table
  root := by
    obtain ⟨d, name, rfl, _, _⟩ := h.split
    unfold Table.Directory
    rw [Table.node, if_neg (by simp)]
    exact fs.root
  parent p nm m hm := by
    obtain ⟨d, name, rfl, _, hdir⟩ := h.split
    rw [Table.node] at hm
    have hkeep : ∀ {p}, fs.Directory p → Table.Directory ((d ++ [name], n) :: fs.table) p := by
      intro p hp
      unfold Table.Directory
      rw [Table.node, if_neg]
      · exact hp
      · rintro rfl
        exact h.2.2 hp
    split_ifs at hm with heq
    · obtain ⟨rfl, _⟩ := List.append_inj' heq rfl
      exact hkeep hdir
    · exact hkeep (fs.parent _ _ _ hm)
  ordinary p m hm := by
    obtain ⟨d, name, rfl, hname, hdir⟩ := h.split
    rw [Table.node] at hm
    split_ifs at hm with heq
    · rw [heq]
      intro nm hnm
      rcases List.mem_append.mp hnm with hnm | hnm
      · exact ordinary_of_directory hdir nm hnm
      · rw [List.mem_singleton.mp hnm]
        exact hname
    · exact fs.ordinary _ _ hm

theorem node_put {q : Path} {n : Node} (h : fs.Placeable q) (p : Path) :
    (fs.put q n h).node p = if p = q then some n else fs.node p := rfl

theorem node_filter (t : Table) (q p : Path) :
    Table.node (t.filter fun entry => ¬ q <+: entry.1) p = if q <+: p then none else t.node p := by
  induction t with
  | nil => simp [Table.node]
  | cons entry t ih =>
    obtain ⟨key, n⟩ := entry
    rw [List.filter_cons]
    by_cases hkey : q <+: key
    · rw [if_neg (by simpa using hkey), ih]
      by_cases hp : p = key
      · simp [hp, hkey]
      · simp [Table.node, hp]
    · rw [if_pos (by simpa using hkey), Table.node, Table.node, ih]
      by_cases hp : p = key
      · simp [hp, hkey]
      · simp [hp]

/-- Removes an entry and everything below it. -/
def remove (fs : FileSystem) (q : Path) (h : q ≠ []) : FileSystem where
  table := fs.table.filter fun entry => ¬ q <+: entry.1
  root := by
    unfold Table.Directory
    rw [node_filter, if_neg (by simpa using h)]
    exact fs.root
  parent p nm m hm := by
    rw [node_filter] at hm
    split_ifs at hm with hq
    unfold Table.Directory
    rw [node_filter, if_neg fun hp => hq (hp.trans (List.prefix_append ..))]
    exact fs.parent _ _ _ hm
  ordinary p m hm := by
    rw [node_filter] at hm
    split_ifs at hm
    exact fs.ordinary _ _ hm

theorem node_remove {q : Path} (h : q ≠ []) (p : Path) :
    (fs.remove q h).node p = if q <+: p then none else fs.node p :=
  node_filter ..

/-- The key of an entry after `source` has been moved to `target`. -/
def movedKey (source target key : Path) : Path :=
  if source <+: key then target ++ key.drop source.length else key

/-- The table after `source` has been moved to `target`, with what was at `target` dropped. -/
def movedTable (source target : Path) (t : Table) : Table :=
  (t.filter fun entry => ¬ target <+: entry.1).map fun entry =>
    (movedKey source target entry.1, entry.2)

theorem not_prefix_append {p q : Path} (hpq : ¬ p <+: q) (hqp : ¬ q <+: p) (x : Path) :
    ¬ p <+: q ++ x := by
  intro h
  rcases List.prefix_or_prefix_of_prefix h (List.prefix_append q x) with h' | h'
  · exact hpq h'
  · exact hqp h'

theorem node_movedTable {source target : Path} (hs : ¬ source <+: target)
    (ht : ¬ target <+: source) (t : Table) (p : Path) :
    (movedTable source target t).node p =
      if target <+: p then t.node (source ++ p.drop target.length)
      else if source <+: p then none else t.node p := by
  unfold movedTable
  induction t with
  | nil => simp [Table.node]
  | cons entry t ih =>
    obtain ⟨key, n⟩ := entry
    rw [List.filter_cons]
    by_cases htarget : target <+: key
    · -- The entry is dropped, and neither side looks it up.
      rw [if_neg (by simpa using htarget), ih]
      simp only [Table.node]
      split_ifs with hp hkey hq hkey
      · exact absurd (hkey ▸ htarget) (not_prefix_append ht hs _)
      · rfl
      · rfl
      · exact absurd (hkey ▸ htarget) hp
      · rfl
    · rw [if_pos (by simpa using htarget), List.map_cons]
      simp only [Table.node]
      rw [ih, movedKey]
      by_cases hsource : source <+: key
      · obtain ⟨x, rfl⟩ := hsource
        rw [if_pos (List.prefix_append ..), List.drop_left]
        by_cases hp : target <+: p
        · obtain ⟨y, rfl⟩ := hp
          simp
        · have hkey : p ≠ target ++ x := fun h => hp (h ▸ List.prefix_append ..)
          rw [if_neg hkey, if_neg hp, if_neg hp]
          by_cases hq : source <+: p
          · rw [if_pos hq, if_pos hq]
          · have hkey' : p ≠ source ++ x := fun h => hq (h ▸ List.prefix_append ..)
            rw [if_neg hq, if_neg hq, if_neg hkey']
      · rw [if_neg hsource]
        by_cases hp : target <+: p
        · have hkey : p ≠ key := fun h => htarget (h ▸ hp)
          have hkey' : source ++ p.drop target.length ≠ key :=
            fun h => hsource (h ▸ List.prefix_append ..)
          rw [if_neg hkey, if_pos hp, if_pos hp, if_neg hkey']
        · rw [if_neg hp, if_neg hp]
          by_cases hq : source <+: p
          · have hkey : p ≠ key := fun h => hsource (h ▸ hq)
            rw [if_neg hkey, if_pos hq, if_pos hq]
          · rw [if_neg hq, if_neg hq]

/-- The conditions of a move: the source exists, the target lies in a directory and not inside
the source, and nothing lies below the target. -/
structure Movable (fs : FileSystem) (source target : Path) : Prop where
  exists_source : (fs.node source).isSome
  source_ne : source ≠ []
  name : ∃ name ∈ target.getLast?, Ordinary name
  directory : fs.Directory target.dropLast
  apart : ¬ source <+: target
  childless : ∀ entry ∈ fs.table, target <+: entry.1 → entry.1 = target

instance (fs : FileSystem) (source target : Path) : Decidable (fs.Movable source target) :=
  haveI : Decidable (∃ name ∈ target.getLast?, Ordinary name) := by
    cases target.getLast? <;> infer_instance
  decidable_of_iff ((fs.node source).isSome ∧ source ≠ [] ∧ (∃ name ∈ target.getLast?,
      Ordinary name) ∧ fs.Directory target.dropLast ∧ ¬ source <+: target ∧
      ∀ entry ∈ fs.table, target <+: entry.1 → entry.1 = target)
    ⟨fun h => ⟨h.1, h.2.1, h.2.2.1, h.2.2.2.1, h.2.2.2.2.1, h.2.2.2.2.2⟩,
      fun h => ⟨h.1, h.2, h.3, h.4, h.5, h.6⟩⟩

theorem Table.isSome_of_mem {t : Table} {p : Path} {n : Node} (h : (p, n) ∈ t) :
    (t.node p).isSome := by
  induction t with
  | nil => simp at h
  | cons entry t ih =>
    obtain ⟨key, m⟩ := entry
    rw [Table.node]
    split_ifs with hp
    · rfl
    · rcases List.mem_cons.mp h with heq | h
      · exact absurd (congrArg Prod.fst heq) hp
      · exact ih h

theorem Movable.target_apart {source target : Path} (h : fs.Movable source target) :
    ¬ target <+: source := by
  intro hprefix
  obtain ⟨n, hn⟩ := Option.isSome_iff_exists.mp h.exists_source
  have heq : source = target := h.childless _ (Table.mem_of_node hn) hprefix
  exact h.apart (heq ▸ List.prefix_refl _)

theorem Movable.node_below {source target : Path} (h : fs.Movable source target) {p : Path}
    (hp : target <+: p) (hne : p ≠ target) : fs.node p = none := by
  cases hnode : fs.node p with
  | none => rfl
  | some n => exact absurd (h.childless _ (Table.mem_of_node hnode) hp) hne

/-- Moves the source, with everything below it, to the target. -/
def move (fs : FileSystem) (source target : Path) (h : fs.Movable source target) :
    FileSystem where
  table := movedTable source target fs.table
  root := by
    unfold Table.Directory
    obtain ⟨name, hname, _⟩ := h.name
    have htarget : target ≠ [] := by
      rintro rfl
      simp at hname
    rw [node_movedTable h.apart h.target_apart, if_neg (by simpa using htarget),
      if_neg (by simpa using h.source_ne)]
    exact fs.root
  parent p nm m hm := by
    rw [node_movedTable h.apart h.target_apart] at hm
    unfold Table.Directory
    rw [node_movedTable h.apart h.target_apart]
    by_cases htarget : target <+: p
    · -- Below the target everything is as it was below the source.
      obtain ⟨x, rfl⟩ := htarget
      rw [if_pos ((List.prefix_append ..).trans (List.prefix_append ..)), List.append_assoc,
        List.drop_left, ← List.append_assoc] at hm
      rw [if_pos (List.prefix_append ..), List.drop_left]
      exact fs.parent _ _ _ hm
    · rw [if_neg htarget]
      by_cases hat : target <+: p ++ [nm]
      · have heq : target = p ++ [nm] := by
          rcases List.prefix_concat_iff.mp (by simpa using hat) with heq | hprefix
          · simpa using heq
          · exact absurd hprefix htarget
        have hp : p = target.dropLast := by rw [heq, List.dropLast_concat]
        have hsource : ¬ source <+: p :=
          fun hs => h.apart (hs.trans (heq ▸ List.prefix_append ..))
        rw [if_neg hsource, hp]
        exact h.directory
      · rw [if_neg hat] at hm
        split_ifs at hm with hs
        rw [if_neg fun hp => hs (hp.trans (List.prefix_append ..))]
        exact fs.parent _ _ _ hm
  ordinary p m hm := by
    rw [node_movedTable h.apart h.target_apart] at hm
    split_ifs at hm with htarget hs
    · obtain ⟨x, rfl⟩ := htarget
      rw [List.drop_left] at hm
      obtain ⟨last, hlast, hname⟩ := h.name
      intro nm hnm
      rcases List.mem_append.mp hnm with hnm | hnm
      · rw [← List.dropLast_append_getLast? last hlast] at hnm
        rcases List.mem_append.mp hnm with hnm | hnm
        · exact ordinary_of_directory h.directory nm hnm
        · rw [List.mem_singleton.mp hnm]
          exact hname
      · exact fs.ordinary _ _ hm nm (List.mem_append_right _ hnm)
    · exact fs.ordinary _ _ hm

theorem node_move {source target : Path} (h : fs.Movable source target) (p : Path) :
    (fs.move source target h).node p =
      if target <+: p then fs.node (source ++ p.drop target.length)
      else if source <+: p then none else fs.node p :=
  node_movedTable h.apart h.target_apart _ _

end FileSystem

end Files
