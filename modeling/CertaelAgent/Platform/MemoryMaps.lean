import CertaelAgent.Platform.LoadedModules

/-!
# What the mappings of a process say of its modules

A line of a `maps` file has five fields and then a path, which goes to the end of the line and may
have white space in it. The collector takes the last word of the line for the path. So it sees the
path of a mapping where that has no white space; it sees less of another path, and nothing of a
path that is marked as deleted.
-/

namespace CertaelAgent.Platform

open ProtoWire Protocol

/-- The name of the module that a path leads to. -/
def moduleOf (path : List Char) : Option String :=
  if path.head? = some '/' then (fileName path).filter shortName else none

/-- What the collector takes from one line. -/
def lineBasename (line : List Char) : Option String := (splitWhitespace line).getLast?.bind moduleOf

/-- A mapping as its line shows it. Every mapping has the five fields in front of the path; without
a path, it may still be padded. -/
structure Mapping where
  address : List Char
  permissions : List Char
  offset : List Char
  device : List Char
  inode : List Char
  padding : ℕ
  path : List Char
  /-- The file of the mapping is unlinked. -/
  deleted : Bool
  fields_plain : ∀ field ∈ [address, permissions, offset, device, inode],
    field ≠ [] ∧ ∀ c ∈ field, isWhitespace c = false
  inode_digits : ∀ c ∈ inode, c.isDigit
  padded : path ≠ [] → 0 < padding
  path_head : ∀ c ∈ path.head?, isWhitespace c = false
  path_line : '\n' ∉ path

namespace Mapping

/-- The path, and the mark of an unlinked file. -/
def shown (mapping : Mapping) : List Char :=
  mapping.path ++ if mapping.deleted then ' ' :: "(deleted)".toList else []

def line (mapping : Mapping) : List Char :=
  mapping.address ++ ' ' :: mapping.permissions ++ ' ' :: mapping.offset ++ ' ' :: mapping.device ++
    ' ' :: (mapping.inode ++ (List.replicate mapping.padding ' ' ++ mapping.shown))

/-- The name that is to be reported of a mapping. -/
def moduleName (mapping : Mapping) : Option String := moduleOf mapping.path

/-- What the last word tells is the same as the path: a file that is to be reported is not unlinked,
and behind the last white space of its path there is a path to it; the last word of any other path
leads to no module. -/
def Legible (mapping : Mapping) : Prop :=
  if mapping.moduleName.isSome then
    mapping.deleted = false ∧ (moduleOf (Words.lastPiece isWhitespace mapping.path)).isSome
  else mapping.deleted = true ∨ ∀ word ∈ (splitWhitespace mapping.path).getLast?, moduleOf word = none

end Mapping

def mapsText (mappings : List Mapping) : String :=
  String.ofList (mappings.flatMap fun mapping => mapping.line ++ ['\n'])

/-! ## File names -/

theorem fileName_append (front : List Char) {back : List Char} (h : (fileName ('/' :: back)).isSome) :
    fileName (front ++ '/' :: back) = fileName ('/' :: back) := by
  have hcons : ('/' :: back).splitOnP (· == '/') = [[]] ++ back.splitOnP (· == '/') :=
    List.splitOnP_append_cons [] back rfl
  unfold fileName at h ⊢
  rw [hcons, List.filter_append, List.getLast?_append] at h ⊢
  rw [List.splitOnP_append_cons _ _ rfl, List.filter_append, List.getLast?_append]
  cases hlast : ((back.splitOnP (· == '/')).filter fun part => part != [] && part != ['.']).getLast? with
  | some part => rfl
  | none =>
    rw [hlast] at h
    cases h

theorem fileName_of_getLast {value part : List Char}
    (h : (value.splitOnP (· == '/')).getLast? = some part) (hne : part ≠ []) (hdot : part ≠ ['.'])
    (hdots : part ≠ ['.', '.']) : fileName value = some (String.ofList part) := by
  obtain ⟨front, hpieces⟩ := List.getLast?_eq_some_iff.mp h
  have hkept : [part].filter (fun part => part != [] && part != ['.']) = [part] := by
    simp [hne, hdot]
  unfold fileName
  rw [hpieces, List.filter_append, hkept, List.getLast?_concat]
  exact if_neg hdots

/-- A path that ends in white space leads to a file whose name does. -/
theorem fileName_concat {x : Char} (h : isWhitespace x) (front : List Char) :
    ∃ name, fileName (front ++ [x]) = some name ∧ x ∈ name.toList := by
  have hslash : x ≠ '/' := by
    rintro rfl
    exact absurd h (by decide)
  have hdot : x ≠ '.' := by
    rintro rfl
    exact absurd h (by decide)
  have hlast := Words.getLast_splitOnP (· == '/') (front ++ [x])
  have hpiece : Words.lastPiece (· == '/') (front ++ [x]) =
      Words.lastPiece (· == '/') front ++ [x] := by
    unfold Words.lastPiece
    rw [List.rtakeWhile_concat_pos]
    simpa using hslash
  -- What ends in white space is no step in the file tree.
  have hstep : ∀ step : List Char, step.getLast? = some '.' →
      Words.lastPiece (· == '/') front ++ [x] ≠ step := by
    rintro step hend rfl
    rw [List.getLast?_concat] at hend
    exact hdot (Option.some.inj hend)
  rw [hpiece] at hlast
  refine ⟨_, fileName_of_getLast hlast ?_ (hstep _ rfl) (hstep _ rfl), ?_⟩
  · exact List.concat_ne_nil _ _
  · rw [String.toList_ofList, List.mem_append]
    exact .inr (List.mem_singleton_self x)

theorem mem_of_fileName {value : List Char} {name : String} (h : fileName value = some name) :
    ∀ c ∈ name.toList, c ∈ value := by
  unfold fileName at h
  split at h
  · next part hlast =>
    split at h
    · cases h
    · obtain rfl := Option.some.inj h
      obtain ⟨hsplit, hkept⟩ := List.mem_filter.mp (List.mem_of_getLast? hlast)
      rw [Bool.and_eq_true] at hkept
      have hword : part ∈ Words.words (· == '/') value := by
        rw [Words.words, List.mem_filter]
        refine ⟨hsplit, ?_⟩
        simpa using hkept.1
      intro c hc
      rw [String.toList_ofList] at hc
      exact ((Words.forall_mem_words hword).2 c hc).2
  · cases h

/-! ## One line -/

theorem moduleOf_eq_some {path : List Char} {name : String} (h : moduleOf path = some name) :
    path.head? = some '/' ∧ fileName path = some name ∧ shortName name := by
  unfold moduleOf at h
  split at h
  · next hhead => exact ⟨hhead, Option.filter_eq_some_iff.mp h⟩
  · cases h

/-- What stands behind the last white space of a path has the name of the path, if it is a path. -/
theorem moduleOf_lastPiece {path : List Char} (hpath : (moduleOf path).isSome)
    (hpiece : (moduleOf (Words.lastPiece isWhitespace path)).isSome) :
    moduleOf (Words.lastPiece isWhitespace path) = moduleOf path := by
  obtain ⟨name, hname⟩ := Option.isSome_iff_exists.mp hpiece
  obtain ⟨hhead, hfile, hshort⟩ := moduleOf_eq_some hname
  obtain ⟨name', hname'⟩ := Option.isSome_iff_exists.mp hpath
  obtain ⟨front, hfront, -⟩ := Words.append_lastPiece isWhitespace path
  obtain ⟨back, hback⟩ := List.head?_eq_some_iff.mp hhead
  rw [hback] at hfile hfront
  have hsame : fileName path = some name := by
    conv_lhs => rw [hfront]
    rw [fileName_append front (by rw [hfile]; rfl), hfile]
  rw [hname]
  unfold moduleOf
  rw [if_pos (moduleOf_eq_some hname').1, hsame, Option.filter_some, if_pos hshort]

theorem lineBasename_ne {path : List Char} (hpath : (moduleOf path).isSome)
    (hpiece : Words.lastPiece isWhitespace path = []) : lineBasename path ≠ moduleOf path := by
  obtain ⟨name, hname⟩ := Option.isSome_iff_exists.mp hpath
  obtain ⟨hhead, hfile, -⟩ := moduleOf_eq_some hname
  obtain ⟨front, hfront, hlast⟩ := Words.append_lastPiece isWhitespace path
  rw [hpiece, List.append_nil] at hfront
  rw [← hfront] at hlast
  obtain ⟨init, x, rfl⟩ : ∃ init x, path = init ++ [x] := by
    rcases List.eq_nil_or_concat path with rfl | ⟨init, x, hconcat⟩
    · cases hhead
    · exact ⟨init, x, hconcat.trans (List.concat_eq_append ..)⟩
  have hx : isWhitespace x := hlast x List.getLast?_concat
  obtain ⟨name', hfile', hmem⟩ := fileName_concat hx init
  obtain rfl := Option.some.inj (hfile.symm.trans hfile')
  -- A name that is taken from a word has no white space.
  intro h
  rw [hname] at h
  obtain ⟨word, hword, hmodule⟩ := Option.bind_eq_some_iff.mp h
  have hc := mem_of_fileName (moduleOf_eq_some hmodule).2.1 x hmem
  have hplain := ((Words.forall_mem_words (List.mem_of_getLast? hword)).2 x hc).1
  rw [hx] at hplain
  cases hplain

namespace Mapping

variable (mapping : Mapping)

/-- The inode is a word of its own, whatever is behind it. -/
theorem head?_padded : ∀ c ∈ (List.replicate mapping.padding ' ' ++ mapping.shown).head?,
    isWhitespace c = true := by
  intro c hc
  cases hpadding : mapping.padding with
  | succ n =>
    rw [hpadding, List.replicate_succ] at hc
    obtain rfl := Option.some.inj hc
    decide
  | zero =>
    have hpath : mapping.path = [] := by
      by_contra hne
      have hpos := mapping.padded hne
      omega
    rw [hpadding, List.replicate_zero, List.nil_append, shown, hpath, List.nil_append] at hc
    cases hdeleted : mapping.deleted with
    | true =>
      rw [hdeleted] at hc
      obtain rfl := Option.some.inj hc
      decide
    | false =>
      rw [hdeleted] at hc
      cases hc

theorem splitWhitespace_line : ∃ front, splitWhitespace mapping.line =
    front ++ mapping.inode :: splitWhitespace mapping.shown := by
  obtain ⟨hne, hplain⟩ := mapping.fields_plain mapping.inode (by simp)
  have hpadding : ∀ c ∈ List.replicate mapping.padding ' ', isWhitespace c = true := by
    intro c hc
    obtain ⟨-, rfl⟩ := List.mem_replicate.mp hc
    decide
  have hspace : isWhitespace ' ' := by decide
  use splitWhitespace (mapping.address ++ ' ' :: mapping.permissions ++ ' ' :: mapping.offset ++
    ' ' :: mapping.device)
  simp only [splitWhitespace_eq, line]
  rw [Words.words_append_cons hspace, Words.words_append hne hplain mapping.head?_padded,
    Words.words_append_of_forall hpadding]

theorem lineBasename_line : lineBasename mapping.line = lineBasename mapping.shown := by
  obtain ⟨front, hwords⟩ := mapping.splitWhitespace_line
  have hinode : moduleOf mapping.inode = none := by
    apply if_neg
    intro hslash
    have hdigit := mapping.inode_digits '/' (List.mem_of_head? hslash)
    exact absurd hdigit (by decide)
  unfold lineBasename
  rw [hwords, List.getLast?_append, List.getLast?_cons]
  cases (splitWhitespace mapping.shown).getLast? with
  | none => exact hinode
  | some word => rfl

theorem lineBasename_of_deleted (h : mapping.deleted = true) : lineBasename mapping.shown = none := by
  have hwords : splitWhitespace mapping.shown =
      Words.words isWhitespace mapping.path ++ ["(deleted)".toList] := by
    have hspace : isWhitespace ' ' := by decide
    have hmark : Words.words isWhitespace "(deleted)".toList = ["(deleted)".toList] :=
      Words.words_of_forall (by decide) (by simp [isWhitespace])
    rw [shown, if_pos h, splitWhitespace_eq, Words.words_append_cons hspace, hmark]
  unfold lineBasename
  rw [hwords, List.getLast?_concat]
  decide

theorem lineBasename_eq_iff : lineBasename mapping.line = mapping.moduleName ↔ mapping.Legible := by
  rw [lineBasename_line]
  unfold Legible
  cases hdeleted : mapping.deleted with
  | true =>
    rw [lineBasename_of_deleted mapping hdeleted]
    cases hname : mapping.moduleName with
    | some name => simp
    | none => simp
  | false =>
    have hshown : mapping.shown = mapping.path := by
      rw [shown, hdeleted]
      exact List.append_nil _
    rw [hshown]
    by_cases hsome : mapping.moduleName.isSome
    · rw [if_pos hsome]
      by_cases hpiece : Words.lastPiece isWhitespace mapping.path = []
      · apply iff_of_false (lineBasename_ne hsome hpiece)
        rintro ⟨-, hsome⟩
        rw [hpiece] at hsome
        cases hsome
      · have hlast : lineBasename mapping.path =
            moduleOf (Words.lastPiece isWhitespace mapping.path) := by
          rw [lineBasename, splitWhitespace_eq, Words.getLast_words _ hpiece, Option.bind_some]
        rw [hlast]
        constructor
        · intro h
          rw [h]
          exact ⟨rfl, hsome⟩
        · rintro ⟨-, h⟩
          exact moduleOf_lastPiece hsome h
    · rw [if_neg hsome, Option.not_isSome_iff_eq_none.mp hsome, lineBasename,
        Option.bind_eq_none_iff]
      simp

theorem legible_of_plain (hdeleted : mapping.deleted = false)
    (h : ∀ c ∈ mapping.path, isWhitespace c = false) : mapping.Legible := by
  have hpiece : Words.lastPiece isWhitespace mapping.path = mapping.path := by
    unfold Words.lastPiece
    rw [List.rtakeWhile_eq_self_iff]
    simpa using h
  unfold Legible moduleName
  by_cases hsome : (moduleOf mapping.path).isSome
  · rw [if_pos hsome, hpiece]
    exact ⟨hdeleted, hsome⟩
  · rw [if_neg hsome]
    right
    intro word hword
    have hlast : mapping.path ≠ [] → word = mapping.path := by
      intro hne
      rw [splitWhitespace_eq, Words.words_of_forall hne h] at hword
      exact (Option.some.inj hword).symm
    by_cases hne : mapping.path = []
    · rw [hne] at hword
      cases hword
    · rw [hlast hne]
      exact Option.not_isSome_iff_eq_none.mp hsome

end Mapping

/-! ## The whole text -/

theorem moduleBasenamesFromMaps_eq (maps : String) : moduleBasenamesFromMaps maps =
    (distinctNames ((lines maps).filterMap lineBasename)).take 1024 := by
  have hline : ∀ line, ((((splitWhitespace line).getLast?).filter fun value =>
      value.head? == some '/').bind fun value => (fileName value).filter shortName) =
        lineBasename line := by
    intro line
    unfold lineBasename
    cases (splitWhitespace line).getLast? with
    | none => rfl
    | some word =>
      rw [Option.bind_some, Option.filter_some, moduleOf]
      by_cases hhead : word.head? = some '/'
      · rw [if_pos hhead, if_pos (by rw [hhead]; rfl), Option.bind_some]
      · rw [if_neg hhead, if_neg (by simpa using hhead), Option.bind_none]
  unfold moduleBasenamesFromMaps
  rw [List.filter_filterMap, List.filterMap_filterMap]
  simp only [hline]

theorem Mapping.newline_not_mem (mapping : Mapping) : '\n' ∉ mapping.line := by
  have hplain : ∀ field ∈ [mapping.address, mapping.permissions, mapping.offset, mapping.device,
      mapping.inode], '\n' ∉ field := by
    intro field hfield hmem
    have hc := (mapping.fields_plain field hfield).2 _ hmem
    exact absurd hc (by decide)
  simp only [List.forall_mem_cons] at hplain
  obtain ⟨haddress, hpermissions, hoffset, hdevice, hinode, -⟩ := hplain
  have hshown : '\n' ∉ mapping.shown := by
    rw [Mapping.shown, List.mem_append, not_or]
    refine ⟨mapping.path_line, ?_⟩
    cases mapping.deleted with
    | true => decide
    | false => decide
  simp [Mapping.line, haddress, hpermissions, hoffset, hdevice, hinode, hshown]

theorem lines_mapsText (mappings : List Mapping) :
    lines (mapsText mappings) = mappings.map Mapping.line ++ [[]] := by
  unfold lines mapsText
  rw [String.toList_ofList]
  induction mappings with
  | nil => exact List.splitOnP_nil
  | cons mapping mappings ih =>
    have hline : ∀ c ∈ mapping.line, (c == '\n') = false := by
      intro c hc
      rw [beq_eq_false_iff_ne]
      rintro rfl
      exact mapping.newline_not_mem hc
    rw [List.flatMap_cons, List.append_assoc, List.singleton_append,
      List.splitOnP_append_cons _ _ rfl, List.splitOnP_eq_singleton hline, ih]
    rfl

theorem moduleBasenamesFromMaps_mapsText (mappings : List Mapping) :
    moduleBasenamesFromMaps (mapsText mappings) =
      (distinctNames (mappings.filterMap fun mapping => lineBasename mapping.line)).take 1024 := by
  rw [moduleBasenamesFromMaps_eq, lines_mapsText, List.filterMap_append, List.filterMap_map]
  have hempty : [[]].filterMap lineBasename = [] := rfl
  rw [hempty, List.append_nil]
  rfl

theorem distinctNames_sorted (names : List String) : (distinctNames names).Pairwise (· < ·) := by
  have hsorted := @List.pairwise_mergeSort String (fun a b => decide (a ≤ b))
    (by simpa using fun a b c => @String.le_trans a b c) (by simpa using String.le_total) names.dedup
  have hdistinct := (List.mergeSort_perm names.dedup fun a b => decide (a ≤ b)).nodup_iff.mpr
    names.nodup_dedup
  apply (hsorted.and hdistinct).imp
  rintro a b ⟨hle, hne⟩
  apply String.not_le.mp
  intro hge
  exact hne (String.le_antisymm (of_decide_eq_true hle) hge)

/-- The first 1024 of some names, in their order. -/
def FirstNames (names : String → Prop) (result : List String) : Prop :=
  ∃ all : List String, all.Pairwise (· < ·) ∧ (∀ name, name ∈ all ↔ names name) ∧
    result = all.take 1024

/-- The collector returns the first names of the modules that are mapped. And no mapping is left
out or misnamed, whatever other mappings there are: alone in a text, it is returned by its name. -/
structure Complete (mappings : List Mapping) : Prop where
  names : FirstNames (fun name => ∃ mapping ∈ mappings, mapping.moduleName = some name)
    (moduleBasenamesFromMaps (mapsText mappings))
  each : ∀ mapping ∈ mappings,
    moduleBasenamesFromMaps (mapsText [mapping]) = mapping.moduleName.toList

theorem moduleBasenamesFromMaps_singleton (mapping : Mapping) :
    moduleBasenamesFromMaps (mapsText [mapping]) = (lineBasename mapping.line).toList := by
  rw [moduleBasenamesFromMaps_mapsText]
  have hnames : [mapping].filterMap (fun mapping => lineBasename mapping.line) =
      (lineBasename mapping.line).toList := by
    cases hname : lineBasename mapping.line with
    | none => simp [hname]
    | some name => simp [hname]
  rw [hnames]
  cases lineBasename mapping.line with
  | none => simp [distinctNames]
  | some name => exact congrArg (List.take 1024) (List.mergeSort_singleton _)

/-- The modules of a text are found just if each of its mappings is legible. -/
theorem complete_iff (mappings : List Mapping) :
    Complete mappings ↔ ∀ mapping ∈ mappings, mapping.Legible := by
  constructor
  · intro h mapping hmapping
    have heach := h.each mapping hmapping
    rw [moduleBasenamesFromMaps_singleton] at heach
    apply mapping.lineBasename_eq_iff.mp
    cases hname : mapping.moduleName with
    | none => exact Option.toList_eq_nil_iff.mp (by rw [heach, hname]; rfl)
    | some name => exact Option.toList_eq_singleton_iff.mp (by rw [heach, hname]; rfl)
  · intro h
    have hread : ∀ mapping ∈ mappings, lineBasename mapping.line = mapping.moduleName := by
      intro mapping hmapping
      exact mapping.lineBasename_eq_iff.mpr (h mapping hmapping)
    refine ⟨⟨_, distinctNames_sorted _, ?_, moduleBasenamesFromMaps_mapsText mappings⟩, ?_⟩
    · intro name
      rw [mem_distinctNames, List.mem_filterMap]
      constructor
      · rintro ⟨mapping, hmapping, hname⟩
        exact ⟨mapping, hmapping, (hread mapping hmapping).symm.trans hname⟩
      · rintro ⟨mapping, hmapping, hname⟩
        exact ⟨mapping, hmapping, (hread mapping hmapping).trans hname⟩
    · intro mapping hmapping
      rw [moduleBasenamesFromMaps_singleton, hread mapping hmapping]

namespace SampleMaps

/-- A mapping of a file. -/
def mappingOf (path : List Char) (hhead : ∀ c ∈ path.head?, isWhitespace c = false)
    (hline : '\n' ∉ path) : Mapping where
  address := "7f0a4c000000-7f0a4c021000".toList
  permissions := "r-xp".toList
  offset := "00000000".toList
  device := "08:01".toList
  inode := "393217".toList
  padding := 20
  path := path
  deleted := false
  fields_plain := by simp [isWhitespace]
  inode_digits := by simp
  padded := fun _ => Nat.succ_pos 19
  path_head := hhead
  path_line := hline

def library : Mapping := mappingOf "/usr/lib/libc.so.6".toList (by simp [isWhitespace]) (by decide)

/-- A library in a directory with a space in its name. -/
def spaced : Mapping := mappingOf "/opt/my game/cheat.so".toList (by simp [isWhitespace]) (by decide)

end SampleMaps

open SampleMaps in
theorem complete_sample : Complete [library] := by
  apply (complete_iff _).mpr
  intro mapping hmapping
  obtain rfl := List.mem_singleton.mp hmapping
  have hpath : library.path = "/usr/lib/libc.so.6".toList := rfl
  apply library.legible_of_plain rfl
  rw [hpath]
  simp [isWhitespace]

open SampleMaps in
theorem not_complete : ¬ ∀ mappings, Complete mappings := by
  intro h
  have heach := (h [spaced]).each spaced (List.mem_singleton_self _)
  have hname : spaced.moduleName = some "cheat.so" := by decide +kernel
  have hnone : lineBasename spaced.line = none := by decide +kernel
  rw [moduleBasenamesFromMaps_singleton, hnone, hname] at heach
  cases heach

end CertaelAgent.Platform
