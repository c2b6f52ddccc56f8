import CertaelAgent.Foundation.Entries

/-!
# Names that a program does not come across

A path is resolved by the names in it and those in the links on its way. Where neither the paths
that a program looks at nor the links mention a name, the program does not notice what becomes of
the entries with that name.
-/

namespace Files

open FileSystem Program

/-- None of the names is in the path. -/
def Avoids (names : List String) (p : Path) : Prop := ∀ name ∈ names, name ∉ p

instance (names : List String) (p : Path) : Decidable (Avoids names p) :=
  inferInstanceAs (Decidable (∀ name ∈ names, name ∉ p))

/-- No link leads through an entry with one of the names. -/
def FileSystem.LinksAvoid (names : List String) (fs : FileSystem) : Prop :=
  ∀ p absolute target, fs.node p = some (.symlink absolute target) → Avoids names target

/-- The path that an operation looks at, if it looks at nothing else. -/
def FsOp.looked : FsOp → Option Path
  | .symlinkMetadata p => some p
  | .pathExists p => some p
  | .isDir p => some p
  | .canonicalize p => some p
  | .read p => some p
  | _ => none

/-- The program only looks at paths that avoid the names. -/
def Overlooks {ε α : Type} (names : List String) : FileProgram ε α → FileSystem → Prop
  | .done _, _ => True
  | .call op next, fs => (op.looked.any fun p => Avoids names p) = true ∧
      Overlooks names (next (op.perform fs).1) fs

/-- The program is run to see what it looks at. -/
def Overlooks.decide {ε α : Type} (names : List String) : ∀ (p : FileProgram ε α)
    (fs : FileSystem), Decidable (Overlooks names p fs)
  | .done _, _ => isTrue trivial
  | .call op next, fs =>
    haveI := Overlooks.decide names (next (op.perform fs).1) fs
    inferInstanceAs (Decidable (_ ∧ _))

instance {ε α : Type} (names : List String) (p : FileProgram ε α) (fs : FileSystem) :
    Decidable (Overlooks names p fs) :=
  Overlooks.decide names p fs

variable {ε α : Type} {names : List String} {fs fs' : FileSystem} {p q : Path}

namespace Avoids

theorem append (hp : Avoids names p) (hq : Avoids names q) : Avoids names (p ++ q) := by
  intro name hname hmem
  rcases List.mem_append.mp hmem with hmem | hmem
  · exact hp name hname hmem
  · exact hq name hname hmem

theorem of_subset (hp : Avoids names p) (h : q ⊆ p) : Avoids names q :=
  fun name hname hmem => hp name hname (h hmem)

theorem dropLast (hp : Avoids names p) : Avoids names p.dropLast :=
  hp.of_subset (List.dropLast_subset p)

theorem head {name : String} (h : Avoids names (name :: p)) : Avoids names [name] :=
  h.of_subset (by simp)

theorem tail {name : String} (h : Avoids names (name :: p)) : Avoids names p :=
  h.of_subset (by simp)

end Avoids

theorem Elsewhere.node_of_avoids {d : Path} (h : Elsewhere d names fs fs') (hq : Avoids names q) :
    fs'.node q = fs.node q := by
  apply h
  rintro name hname ⟨rest, rfl⟩
  exact hq name hname (by simp)

section

variable (hlinks : fs.LinksAvoid names) (hsame : ∀ q, Avoids names q → fs'.node q = fs.node q)

include hsame in
theorem directory_of_avoids (hq : Avoids names q) : fs'.Directory q ↔ fs.Directory q := by
  rw [directory_iff, directory_iff, hsame q hq]

include hlinks hsame

theorem walkNames_of_avoids {follow follow' : Path → Path → Option Path}
    (hfollow : ∀ c r, Avoids names c → Avoids names r → follow' c r = follow c r ∧
      ∀ q, follow c r = some q → Avoids names q) :
    ∀ rest current, Avoids names current → Avoids names rest →
      fs'.walkNames follow' current rest = fs.walkNames follow current rest ∧
        ∀ q, fs.walkNames follow current rest = some q → Avoids names q := by
  intro rest
  induction rest with
  | nil =>
    intro current hcurrent _
    refine ⟨rfl, fun q hq => ?_⟩
    obtain rfl := Option.some.inj hq
    exact hcurrent
  | cons name rest ih =>
    intro current hcurrent hrest
    have hnext : Avoids names (current ++ [name]) := hcurrent.append hrest.head
    unfold walkNames
    rw [hsame _ hnext]
    simp only [directory_of_avoids hsame hcurrent]
    split_ifs
    · exact ih current hcurrent hrest.tail
    · exact ih current.dropLast hcurrent.dropLast hrest.tail
    · cases hnode : fs.node (current ++ [name]) with
      | none => exact ⟨rfl, by simp⟩
      | some n =>
        cases n with
        | file content mode => exact ih _ hnext hrest.tail
        | directory writable => exact ih _ hnext hrest.tail
        | symlink absolute target =>
          apply hfollow
          · split_ifs
            · exact hcurrent.of_subset (by simp)
            · exact hcurrent
          · exact (hlinks _ _ _ hnode).append hrest.tail
    · exact ⟨rfl, by simp⟩

theorem walk_of_avoids : ∀ links current rest, Avoids names current → Avoids names rest →
    fs'.walk links current rest = fs.walk links current rest ∧
      ∀ q, fs.walk links current rest = some q → Avoids names q := by
  intro links
  induction links with
  | zero =>
    intro current rest hcurrent hrest
    exact walkNames_of_avoids hlinks hsame (fun _ _ _ _ => ⟨rfl, by simp⟩) rest current hcurrent hrest
  | succ links ih =>
    intro current rest hcurrent hrest
    exact walkNames_of_avoids hlinks hsame ih rest current hcurrent hrest

theorem canonicalize_of_avoids (hp : Avoids names p) : fs'.canonicalize p = fs.canonicalize p :=
  (walk_of_avoids hlinks hsame maxSymlinks [] p (by simp [Avoids]) hp).1

omit hsame in
theorem avoids_of_canonicalize (hp : Avoids names p) (h : fs.canonicalize p = some q) :
    Avoids names q :=
  (walk_of_avoids hlinks (fun _ _ => rfl) maxSymlinks [] p (by simp [Avoids]) hp).2 q h

theorem place_of_avoids (hp : Avoids names p) : fs'.place p = fs.place p := by
  unfold place
  rw [canonicalize_of_avoids hlinks hsame hp.dropLast]
  cases p.getLast? with
  | none => rfl
  | some name =>
    cases hd : fs.canonicalize p.dropLast with
    | none => rfl
    | some d =>
      simp only [Option.bind_some,
        directory_of_avoids hsame (avoids_of_canonicalize hlinks hp.dropLast hd)]

omit hsame in
theorem avoids_of_place (hp : Avoids names p) (h : fs.place p = some q) : Avoids names q := by
  rcases List.eq_nil_or_concat p with rfl | ⟨up, name, rfl⟩
  · cases h
  · rw [List.concat_eq_append] at hp h
    simp only [place, List.getLast?_concat, List.dropLast_concat] at h
    split_ifs at h
    obtain ⟨d, hd, hdirectory⟩ := Option.bind_eq_some_iff.mp h
    split_ifs at hdirectory
    obtain rfl := Option.some.inj hdirectory
    have hup : Avoids names up := hp.of_subset (by simp)
    exact (avoids_of_canonicalize hlinks hup hd).append (hp.of_subset (by simp))

theorem locate_node_of_avoids (hp : Avoids names p) :
    (fs'.locate p).bind fs'.node = (fs.locate p).bind fs.node := by
  have hlocate : fs'.locate p = fs.locate p := by
    unfold locate
    rw [place_of_avoids hlinks hsame hp, canonicalize_of_avoids hlinks hsame hp]
  rw [hlocate]
  cases hq : fs.locate p with
  | none => rfl
  | some q =>
    apply hsame
    unfold locate at hq
    cases hlast : p.getLast? with
    | none =>
      simp only [hlast, Option.some.injEq] at hq
      exact hp.of_subset (by simp [← hq])
    | some name =>
      simp only [hlast] at hq
      split_ifs at hq
      · exact avoids_of_place hlinks hp hq
      · exact avoids_of_canonicalize hlinks hp hq

theorem perform_of_avoids {op : FsOp} (hop : op.looked = some p) (hp : Avoids names p) :
    (op.perform fs').1 = (op.perform fs).1 := by
  have hcanonicalize := canonicalize_of_avoids hlinks hsame hp
  cases op with
  | symlinkMetadata p' =>
    obtain rfl := Option.some.inj hop
    exact congrArg (Option.map Node.metadata) (locate_node_of_avoids hlinks hsame hp)
  | pathExists p' =>
    obtain rfl := Option.some.inj hop
    exact congrArg Option.isSome hcanonicalize
  | isDir p' =>
    obtain rfl := Option.some.inj hop
    simp only [FsOp.perform, hcanonicalize]
    cases hq : fs.canonicalize p' with
    | none => rfl
    | some q => simp only [Option.any_some,
        directory_of_avoids hsame (avoids_of_canonicalize hlinks hp hq)]
  | canonicalize p' =>
    obtain rfl := Option.some.inj hop
    exact hcanonicalize
  | read p' =>
    obtain rfl := Option.some.inj hop
    simp only [FsOp.perform, contentAt, hcanonicalize]
    cases hq : fs.canonicalize p' with
    | none => rfl
    | some q => simp only [Option.bind_some, hsame q (avoids_of_canonicalize hlinks hp hq)]
  | _ => cases hop

theorem eval_of_overlooks {p : FileProgram ε α} (hp : Overlooks names p fs) :
    eval device p fs' = eval device p fs := by
  induction p with
  | done result => rfl
  | call op next ih =>
    obtain ⟨hany, hnext⟩ := hp
    obtain ⟨q, hlooked, hq⟩ := (Option.any_eq_true _ _).mp hany
    have hreads : device.reads op := by
      cases op <;> first | rfl | cases hlooked
    have hreply : (device.perform op fs').1 = (device.perform op fs).1 :=
      perform_of_avoids hlinks hsame hlooked (of_decide_eq_true hq)
    simp only [eval, exec, device.perform_reads op _ hreads, hreply]
    exact ih _ hnext

end

end Files
