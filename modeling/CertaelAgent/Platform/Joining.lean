import CertaelAgent.Platform.SafePaths

/-!
# Joining paths

A path with a root or a drive replaces what it is joined to, in whole or up to the drive; any other
path goes behind it. A path that is safe everywhere always goes behind, and adds names only.
-/

namespace CertaelAgent.Platform

open ProtoWire Protocol Files

namespace PathRules

variable {rules : PathRules} {value : String}

/-- `Path::join`, on the components of the path that is joined to. A dot in front of the other path
counts where nothing is in front of it. -/
def join (rules : PathRules) (root : List Component) (value : String) : List Component :=
  if rules.isAbsolute value || rules.hasDrive value then rules.components value
  else if rules.hasRoot value then
    root.filter (fun component => component == .drive) ++ rules.components value
  else root ++ (rules.components value).filter fun component =>
    root.isEmpty || component != .curDir

/-- `Path::join` where slashes are the only separators, on the texts. -/
def joinText (root value : String) : String :=
  if value.toList.head? = some '/' then value
  else if root.toList.getLast?.any (· != '/') then root ++ "/" ++ value
  else root ++ value

/-- The components that pieces of a path stand for. -/
def named (pieces : List String) : List Component :=
  pieces.filterMap fun name =>
    if name = "" ∨ name = "." then none
    else if name = ".." then some .parentDir
    else some (.normal name)

theorem named_of_ordinary {names : List String} (h : ∀ name ∈ names, Ordinary name) :
    named names = names.map Component.normal := by
  induction names with
  | nil => rfl
  | cons name names ih =>
    rw [List.forall_mem_cons] at h
    obtain ⟨⟨hempty, hdot, hdots⟩, hrest⟩ := h
    have hplain : ¬ (name = "" ∨ name = ".") := not_or.mpr ⟨hempty, hdot⟩
    have htail := ih hrest
    unfold named at htail ⊢
    rw [List.filterMap_cons, if_neg hplain, if_neg hdots, List.map_cons, htail]

theorem head_ne_dot_of_safe (h : Protocol.safeRelativePath value) :
    (rules.pieces value).head? ≠ some "." := by
  intro hdot
  exact (ordinary_of_mem_pieces h "." (List.mem_of_head? hdot)).2.1 rfl

theorem components_of_safe (h : Protocol.safeRelativePath value) :
    rules.components value = (rules.pieces value).map Component.normal := by
  calc
    _ = (if rules.hasDrive value then [Component.drive] else []) ++
        (if rules.hasRoot value then [.rootDir] else []) ++
        (if (rules.pieces value).head? = some "." then [.curDir] else []) ++
        named (rules.pieces value) := rfl
    _ = _ := by
      rw [hasDrive_of_safe h, hasRoot_of_safe h, if_neg (head_ne_dot_of_safe h),
        named_of_ordinary (ordinary_of_mem_pieces h)]
      simp

theorem join_of_safe (h : Protocol.safeRelativePath value) (root : List Component) :
    rules.join root value = root ++ (rules.pieces value).map Component.normal := by
  have hkept : ((rules.pieces value).map Component.normal).filter
      (fun component => root.isEmpty || component != .curDir) =
        (rules.pieces value).map Component.normal := by
    rw [List.filter_eq_self]
    intro component hcomponent
    obtain ⟨name, -, rfl⟩ := List.mem_map.mp hcomponent
    exact Bool.or_true _
  unfold join
  rw [isAbsolute_of_safe h, hasDrive_of_safe h, hasRoot_of_safe h, components_of_safe h, hkept]
  simp

/-! ## Texts with slashes -/

theorem components_of_slashes (hslash : rules.backslash = false) (value : String) :
    rules.components value = (if rules.hasRoot value then [.rootDir] else []) ++
      (if (rules.pieces value).head? = some "." then [.curDir] else []) ++
      named (rules.pieces value) := by
  have hdrive : rules.hasDrive value = false := by
    simp [hasDrive, hslash]
  unfold components named
  rw [hdrive]
  rfl

theorem components_of_pieces (hslash : rules.backslash = false) {root joined : String}
    {front back : List String} (hfront : front ≠ [])
    (hroot : rules.pieces root = front ++ back) (hback : named back = [])
    (hjoined : rules.pieces joined = front ++ rules.pieces value)
    (hsame : rules.hasRoot joined = rules.hasRoot root) :
    rules.components joined = rules.components root ++ named (rules.pieces value) := by
  have hnamed : named (front ++ rules.pieces value) = named front ++ named (rules.pieces value) :=
    List.filterMap_append
  have hnamedRoot : named (front ++ back) = named front := by
    rw [show named (front ++ back) = named front ++ named back from List.filterMap_append, hback,
      List.append_nil]
  rw [components_of_slashes hslash, components_of_slashes hslash, hroot, hjoined, hsame, hnamed,
    hnamedRoot, List.head?_append_of_ne_nil _ hfront, List.head?_append_of_ne_nil _ hfront]
  simp

theorem hasRoot_of_toList {a b : String} {c : Char} {chars others : List Char}
    (ha : a.toList = c :: chars) (hb : b.toList = c :: others) :
    rules.hasRoot a = rules.hasRoot b := by
  unfold hasRoot
  rw [ha, hb]
  rfl

theorem pieces_of_toList {value : String} {chars others : List Char}
    (h : value.toList = chars ++ '/' :: others) : rules.pieces value =
      rules.pieces (String.ofList chars) ++ rules.pieces (String.ofList others) := by
  have hseparator : rules.isSeparator '/' = true := by
    simp [isSeparator]
  unfold pieces
  rw [h, List.splitOnP_append_cons _ _ hseparator, List.map_append, String.toList_ofList,
    String.toList_ofList]

theorem pieces_empty : rules.pieces "" = [""] := by
  simp [pieces]

theorem pieces_ne_nil (value : String) : rules.pieces value ≠ [] := by
  unfold pieces
  rw [ne_eq, List.map_eq_nil_iff]
  exact List.splitOnP_ne_nil _ _

/-- Where slashes are the only separators, the components of the joined text are those of the root
followed by the names of the safe path. -/
theorem components_joinText (hslash : rules.backslash = false)
    (h : Protocol.safeRelativePath value) (root : String) :
    rules.components (joinText root value) =
      rules.components root ++ (rules.pieces value).map Component.normal := by
  have hplain : value.toList.head? ≠ some '/' := (parts_of_safeRelativePath h).2.2.1
  rw [← named_of_ordinary (ordinary_of_mem_pieces h)]
  unfold joinText
  rw [if_neg hplain]
  rcases List.eq_nil_or_concat root.toList with hempty | ⟨front, last, hlast⟩
  · -- nothing is in front of the path
    obtain rfl : root = "" := String.toList_eq_nil_iff.mp hempty
    have hnone : rules.components "" = [] := by
      rw [components_of_slashes hslash, pieces_empty]
      rfl
    have htext : "".toList.getLast?.any (· != '/') = false := rfl
    rw [hnone, htext, if_neg Bool.false_ne_true, String.empty_append, components_of_safe h,
      named_of_ordinary (ordinary_of_mem_pieces h)]
    rfl
  · rw [List.concat_eq_append] at hlast
    obtain ⟨c, chars, hcons⟩ : ∃ c chars, root.toList = c :: chars :=
      List.exists_cons_of_ne_nil (by simp [hlast])
    by_cases hclosed : last = '/'
    · -- the root ends with a slash already
      have hjoined : (root ++ value).toList = front ++ '/' :: value.toList := by
        rw [String.toList_append, hlast, hclosed]
        simp
      have hsep : root.toList.getLast?.any (· != '/') = false := by
        simp [hlast, hclosed]
      have hempty : named (rules.pieces (String.ofList [])) = [] := by
        rw [show String.ofList [] = "" from rfl, pieces_empty]
        rfl
      rw [hsep, if_neg Bool.false_ne_true]
      apply components_of_pieces hslash (pieces_ne_nil (String.ofList front))
        (pieces_of_toList (by rw [hlast, hclosed])) hempty
      · simpa using pieces_of_toList hjoined
      · exact hasRoot_of_toList (by rw [String.toList_append, hcons]; rfl) hcons
    · have hjoined : (root ++ "/" ++ value).toList = root.toList ++ '/' :: value.toList := by
        simp
      have hsep : root.toList.getLast?.any (· != '/') = true := by
        simp [hlast, hclosed]
      rw [hsep, if_pos rfl]
      apply components_of_pieces hslash (pieces_ne_nil root) (List.append_nil _).symm rfl
      · simpa using pieces_of_toList hjoined
      · exact hasRoot_of_toList (by rw [hjoined, hcons]; rfl) hcons

end PathRules

end CertaelAgent.Platform
