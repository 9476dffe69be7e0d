import StructuralRules.Files.Disk
import StructuralRules.Proofs.Text.Search
import StructuralRules.Settings.Basic

/-!
# What a path says

Repeated slashes and dots say nothing, so many paths lead to one place. An
absolute path of plain names spells a place: its parts are the root and the
names of the place. Going on by a name spells the place below, and the way back
from a spelled place to the scan root gives the names in between.
-/

set_option autoImplicit false

namespace StructuralRules

/-- The names among parts that are all names. -/
theorem PathPart.filterMap_name? (ns : List String) :
    (ns.map PathPart.name).filterMap (·.name?) = ns := by
  rw [List.filterMap_map]
  exact List.filterMap_some

namespace Path

/-- Whether a directory can hold an entry of the name. -/
def isName (n : String) : Bool :=
  n != "" && n != "." && n != ".." && !n.toList.contains '/'

section Names

variable {n : String} {names : Place}

theorem no_slash (h : isName n = true) : '/' ∉ n.toList := by
  simp only [isName, Bool.and_eq_true, Bool.not_eq_true', List.contains_eq_mem,
    decide_eq_false_iff_not] at h
  exact h.2

theorem isName_ne (h : isName n = true) : n ≠ "" ∧ n ≠ "." ∧ n ≠ ".." := by
  simp only [isName, Bool.and_eq_true, bne_iff_ne] at h
  exact ⟨h.1.1.1, h.1.1.2, h.1.2⟩

theorem part?_of_isName (h : isName n = true) : part? n = some (.name n) := by
  obtain ⟨hempty, hdot, hdots⟩ := isName_ne h
  rw [part?]
  · exact hempty
  · exact hdot
  · exact hdots

/-- Every part but `..` is the name it was written as. -/
theorem part?_eq_some_name {s : String} (h : part? s = some (.name n)) :
    s = n ∧ s ≠ "" ∧ s ≠ "." ∧ s ≠ ".." := by
  unfold part? at h
  split at h
  · cases h
  · cases h
  · cases h
  · next hempty hdot hdots =>
    cases h
    exact ⟨rfl, hempty, hdot, hdots⟩

theorem part?_eq_some_up {s : String} (h : part? s = some .up) : s = ".." := by
  unfold part? at h
  split at h
  · cases h
  · cases h
  · rfl
  · cases h

theorem part?_eq_none {s : String} (h : part? s = none) : s = "" ∨ s = "." := by
  unfold part? at h
  split at h
  · exact .inl rfl
  · exact .inr rfl
  · cases h
  · cases h

theorem segments_append_slash (a b : String) :
    segments (a ++ "/" ++ b) = segments a ++ segments b := by
  have hcut : (a ++ "/" ++ b).toList = a.toList ++ '/' :: b.toList := by simp
  rw [segments, hcut, Text.splitBy_append (by rfl), List.map_append]
  rfl

theorem segments_of_isName (h : isName n = true) : segments n = [n] := by
  have hslash : ∀ c ∈ n.toList, (c == '/') = false := by
    intro c hc
    rw [beq_eq_false_iff_ne]
    rintro rfl
    exact no_slash h hc
  rw [segments, Text.splitBy_of_none hslash]
  simp

theorem isAbsolute_of_isName (h : isName n = true) : isAbsolute n = false := by
  rw [isAbsolute, beq_eq_false_iff_ne]
  intro hhead
  exact no_slash h (List.mem_of_head? hhead)

theorem segments_intercalate (hne : names ≠ []) (h : ∀ n ∈ names, isName n = true) :
    segments ("/".intercalate names) = names := by
  induction names with
  | nil => contradiction
  | cons n names ih =>
    rw [List.forall_mem_cons] at h
    cases names with
    | nil => rw [String.intercalate_singleton, segments_of_isName h.1]
    | cons m names =>
      rw [String.intercalate_cons_cons, segments_append_slash, segments_of_isName h.1,
        ih (by simp) h.2]
      rfl

/-- Joining names by slashes forgets nothing about them. -/
theorem intercalate_inj {names' : Place} (hne : names ≠ []) (h : ∀ n ∈ names, isName n = true)
    (hne' : names' ≠ []) (h' : ∀ n ∈ names', isName n = true)
    (heq : "/".intercalate names = "/".intercalate names') : names = names' := by
  rw [← segments_intercalate hne h, heq, segments_intercalate hne' h']

theorem filterMap_part? (h : ∀ n ∈ names, isName n = true) :
    names.filterMap part? = names.map .name := by
  induction names with
  | nil => rfl
  | cons n names ih =>
    rw [List.forall_mem_cons] at h
    rw [List.filterMap_cons, part?_of_isName h.1, ih h.2]
    rfl

/-- A joined list of names says these names. -/
theorem filterMap_intercalate (h : ∀ n ∈ names, isName n = true) :
    (segments ("/".intercalate names)).filterMap part? = names.map .name := by
  cases names with
  | nil => rfl
  | cons n names =>
    rw [segments_intercalate (by simp) h]
    exact filterMap_part? h

theorem isAbsolute_intercalate (h : ∀ n ∈ names, isName n = true) :
    isAbsolute ("/".intercalate names) = false := by
  cases names with
  | nil => rfl
  | cons n names =>
    have hn : isName n = true := h n (by simp)
    rw [isAbsolute, beq_eq_false_iff_ne]
    intro hhead
    obtain ⟨c, t, hc⟩ := List.exists_cons_of_ne_nil (l := n.toList) (by
      simpa using (isName_ne hn).1)
    have hslash := no_slash hn
    cases names with
    | nil => simp_all
    | cons m names => simp_all

theorem parts_intercalate (hne : names ≠ []) (h : ∀ n ∈ names, isName n = true) :
    parts ("/".intercalate names) = names.map .name := by
  obtain ⟨n, names, rfl⟩ := List.exists_cons_of_ne_nil hne
  rw [parts, isAbsolute_intercalate h, segments_intercalate (by simp) h]
  have hdot : n ≠ "." := (isName_ne (h n (by simp))).2.1
  simp only [Bool.false_eq_true, ↓reduceIte]
  split
  · next heq => exact absurd (List.cons.inj heq).1 hdot
  · exact filterMap_part? h

end Names

/-! ## Places that are spelled -/

/-- The absolute path says the names of the place, and no other part. -/
structure Spells (path : String) (place : Place) : Prop where
  absolute : isAbsolute path = true
  names : (segments path).filterMap part? = place.map .name

section Spells

variable {path next n : String} {place rel : Place}

theorem Spells.parts_eq (h : Spells path place) : parts path = .root :: place.map .name := by
  rw [parts, h.absolute, h.names]
  rfl

theorem spells_path (h : ∀ n ∈ place, isName n = true) : Spells place.path place := by
  constructor
  · simp [Place.path, isAbsolute]
  · have hcut : segments place.path = "" :: segments ("/".intercalate place) := by
      rw [Place.path, ← String.empty_append (s := "/"), segments_append_slash]
      rfl
    rw [hcut, List.filterMap_cons]
    exact filterMap_intercalate h

theorem ne_empty_of_isAbsolute (h : isAbsolute path = true) : path ≠ "" := by
  rintro rfl
  cases h

/-- What goes on behind a path comes last. What comes before it is the path, but for a slash at
the end of the path. -/
theorem segments_join (hne : path ≠ "") (hnext : isAbsolute next = false) :
    ∃ s before blanks, segments path = s :: before ++ blanks ∧ blanks.filterMap part? = [] ∧
      segments (join path next) = s :: before ++ segments next := by
  have hlast : ∃ init c, path.toList = init ++ [c] := by
    have hne : path.toList ≠ [] := by simpa using hne
    exact ⟨_, _, (List.dropLast_concat_getLast hne).symm⟩
  obtain ⟨init, c, hc⟩ := hlast
  have hcut (p : String) : ∃ s before, segments p = s :: before :=
    List.exists_cons_of_ne_nil (by simp [segments, Text.splitBy_ne_nil])
  by_cases hslash : c = '/'
  · subst hslash
    have hpath : path = String.ofList init ++ "/" ++ "" := by
      rw [← String.toList_inj]
      simp [hc]
    have hjoin : join path next = String.ofList init ++ "/" ++ next := by
      simp [join, hnext, hc, ← String.toList_inj]
    obtain ⟨s, before, hs⟩ := hcut (String.ofList init)
    refine ⟨s, before, segments "", ?_, rfl, ?_⟩
    · rw [hpath, segments_append_slash, hs]
    · rw [hjoin, segments_append_slash, hs]
  · have hjoin : join path next = path ++ "/" ++ next := by
      simp [join, hnext, hc]
    obtain ⟨s, before, hs⟩ := hcut path
    refine ⟨s, before, [], ?_, rfl, ?_⟩
    · rw [hs, List.append_nil]
    · rw [hjoin, segments_append_slash, hs]

theorem isAbsolute_join (hne : path ≠ "") (hnext : isAbsolute next = false) :
    isAbsolute (join path next) = isAbsolute path := by
  obtain ⟨c, t, hc⟩ := List.exists_cons_of_ne_nil (l := path.toList) (by simpa using hne)
  rw [join, hnext]
  simp only [Bool.false_eq_true, ↓reduceIte]
  split
  · next hnone => simp [hc] at hnone
  · simp [isAbsolute, hc]
  · simp [isAbsolute, hc]

theorem isAbsolute_join_left (habs : isAbsolute path = true) (next : String) :
    isAbsolute (join path next) = true := by
  by_cases hnext : isAbsolute next = true
  · rwa [join, if_pos hnext]
  · rw [isAbsolute_join (ne_empty_of_isAbsolute habs) (by simpa using hnext), habs]

/-- The first segment decides about a leading dot, so what goes on behind a path only adds parts. -/
theorem parts_join (hne : path ≠ "") (hnext : isAbsolute next = false) :
    parts (join path next) = parts path ++ (segments next).filterMap part? := by
  obtain ⟨s, before, blanks, hpath, hblanks, hjoin⟩ := segments_join hne hnext
  have hall : (s :: before ++ segments next).filterMap part? =
      (s :: before ++ blanks).filterMap part? ++ (segments next).filterMap part? := by
    rw [List.filterMap_append, List.filterMap_append, hblanks, List.append_nil]
  rw [parts, parts, isAbsolute_join hne hnext, hjoin, hpath]
  by_cases habs : isAbsolute path = true
  · rw [if_pos habs, if_pos habs, hall]
    rfl
  · by_cases hdot : s = "."
    · subst hdot
      simp [habs, List.filterMap_append, hblanks]
    · simpa [habs, hdot] using hall

theorem parts_join_intercalate {names : Place} (h : ∀ n ∈ names, isName n = true) :
    parts (join path ("/".intercalate names)) = parts path ++ names.map .name := by
  by_cases hne : path = ""
  · subst hne
    have hjoin : join "" ("/".intercalate names) = "/".intercalate names := by
      simp [join]
    rw [hjoin]
    cases names with
    | nil => rfl
    | cons n names => exact parts_intercalate (by simp) h
  · rw [parts_join hne (isAbsolute_intercalate h), filterMap_intercalate h]

/-- Behind a path that spells a place, what goes on stands behind the names of the place. -/
theorem Spells.segments_join (h : Spells path place) (hnext : isAbsolute next = false) :
    ∃ before, before.filterMap part? = place.map .name ∧
      segments (Path.join path next) = before ++ segments next := by
  obtain ⟨s, before, blanks, hpath, hblanks, hjoin⟩ :=
    Path.segments_join (ne_empty_of_isAbsolute h.absolute) hnext
  have hnames := h.names
  rw [hpath, List.filterMap_append, hblanks, List.append_nil] at hnames
  exact ⟨s :: before, hnames, hjoin⟩

theorem Spells.join (h : Spells path place) (hnext : isAbsolute next = false)
    (hnames : (segments next).filterMap part? = rel.map .name) :
    Spells (join path next) (place ++ rel) := by
  obtain ⟨before, hbefore, hcut⟩ := h.segments_join hnext
  refine ⟨isAbsolute_join_left h.absolute next, ?_⟩
  rw [hcut, List.filterMap_append, hbefore, hnames, List.map_append]

theorem Spells.join_name (h : Spells path place) (hn : isName n = true) :
    Spells (Path.join path n) (place ++ [n]) := by
  refine h.join (isAbsolute_of_isName hn) ?_
  rw [segments_of_isName hn, List.filterMap_cons, part?_of_isName hn]
  rfl

theorem Spells.relative? {base : Place} (h : Spells path (base ++ rel))
    (hbase : ∀ n ∈ base, isName n = true) :
    relative? path base.path = some ("/".intercalate rel) := by
  have hnames := PathPart.filterMap_name? rel
  rw [Path.relative?, h.parts_eq, (spells_path hbase).parts_eq, List.map_append]
  simp [hnames]

end Spells
end Path

/-! ## Source roots -/

namespace SourceRoot

/-- The names on the way from the scan root to the directory. -/
def names (r : SourceRoot) : Place :=
  (Path.parts r.dir).filterMap (·.name?)

/-- The directory is given by names alone. -/
def isPlain (r : SourceRoot) : Bool :=
  Path.parts r.dir = r.names.map .name

/-- A root of plain names is relative, and its segments say just these names. -/
theorem segments_dir {r : SourceRoot} (h : r.isPlain = true) :
    Path.isAbsolute r.dir = false ∧
      (Path.segments r.dir).filterMap Path.part? = r.names.map .name := by
  rw [isPlain, decide_eq_true_eq] at h
  generalize r.names = names at h
  rw [Path.parts] at h
  split at h
  · cases names with
    | nil => cases h
    | cons n names => cases h
  · next habs =>
    refine ⟨by simpa using habs, ?_⟩
    split at h
    · cases names with
      | nil => cases h
      | cons n names => cases h
    · exact h

end SourceRoot
end StructuralRules
