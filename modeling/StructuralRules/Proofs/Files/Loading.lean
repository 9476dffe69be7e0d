import StructuralRules.Files.Loader
import StructuralRules.Proofs.Files.Resolution
import StructuralRules.Proofs.Report.Order

/-!
# The loader finds the configured files

A walk leaves out the directories whose names are excluded. On a tree without
links it still meets every file that its filter includes, since a path with an
excluded directory is never included. A file that several roots reach has one
relative path, and its text is the same under each of them. So the corpus is
decided by the tree and by the set of the roots.
-/

set_option autoImplicit false

namespace StructuralRules

/-! ## What a filter includes -/

namespace SourceFilter

variable {f : SourceFilter} {names : Place}

/-- What it takes for a file to be included, in terms of the names that lead to it. -/
theorem includes_iff (hne : names ≠ []) (h : ∀ n ∈ names, Path.isName n = true) :
    f.includes ("/".intercalate names) = true ↔
      (∃ extension ∈ f.extensions, Path.extension? ("/".intercalate names) = some extension) ∧
        (∀ n ∈ names.dropLast, n ∉ f.excludeDirs) ∧
        f.exclude.isMatch ("/".intercalate names) = false := by
  have hparent : Path.parentParts ("/".intercalate names) = names.dropLast.map .name := by
    rw [Path.parentParts, Path.parts_intercalate hne h, List.getLast?_map, ← List.map_dropLast]
    cases names.getLast? <;> rfl
  have hdirs : ((Path.parentParts ("/".intercalate names)).all fun p => f.descends p.text) = true ↔
      ∀ n ∈ names.dropLast, n ∉ f.excludeDirs := by
    rw [hparent, List.all_map, List.all_eq_true]
    simp [descends, PathPart.text]
  have hextension : ((Path.extension? ("/".intercalate names)).any f.extensions.contains) = true ↔
      ∃ extension ∈ f.extensions, Path.extension? ("/".intercalate names) = some extension := by
    simp [Option.any_eq_true, and_comm]
  rw [includes, Bool.and_eq_true, Bool.and_eq_true, hextension, hdirs, Bool.not_eq_true', and_assoc]

end SourceFilter

/-! ## Walking a tree without links -/

namespace Path

theorem Spells.foldl_join {path : String} {place names : Place} (h : Spells path place)
    (hnames : ∀ n ∈ names, isName n = true) :
    Spells (names.foldl Path.join path) (place ++ names) := by
  induction names generalizing path place with
  | nil => rwa [List.append_nil]
  | cons n names ih =>
    rw [List.forall_mem_cons] at hnames
    rw [← List.singleton_append, ← List.append_assoc]
    exact ih (h.join_name hnames.1) hnames.2

end Path

namespace Walk

variable {w : Walk} {path : String} {rel : Place}

theorem take_of_spells (hbase : ∀ n ∈ w.base, Path.isName n = true)
    (h : Path.Spells path (w.base ++ rel)) :
    w.take path = if w.filter.includes ("/".intercalate rel) = true then
      [.source path ("/".intercalate rel)] else [] := by
  rw [take, h.relative? hbase]

theorem mem_take_of_spells (hbase : ∀ n ∈ w.base, Path.isName n = true)
    (h : Path.Spells path (w.base ++ rel)) {e : Encounter} :
    e ∈ w.take path ↔ w.filter.includes ("/".intercalate rel) = true ∧
      e = .source path ("/".intercalate rel) := by
  rw [take_of_spells hbase h]
  split
  · next hincludes => simp [hincludes]
  · next hincludes => simp [hincludes]

/-- No file below an excluded directory is taken, so passing over the directory loses none. -/
theorem take_below_excluded (hbase : ∀ n ∈ w.base, Path.isName n = true) {name : String}
    {names : Place} (h : Path.Spells path (w.base ++ rel ++ [name]))
    (hdir : w.filter.descends name = false) (hne : names ≠ [])
    (hrel : ∀ n ∈ rel ++ [name] ++ names, Path.isName n = true) :
    w.take (names.foldl Path.join path) = [] := by
  have hnames : ∀ n ∈ names, Path.isName n = true := fun n hn =>
    hrel n (List.mem_append_right _ hn)
  have hspells := h.foldl_join hnames
  rw [List.append_assoc w.base, List.append_assoc w.base] at hspells
  rw [take_of_spells hbase hspells, if_neg]
  intro hincludes
  have hparents := ((SourceFilter.includes_iff (by simp) hrel).mp hincludes).2.1
  have hname : name ∈ (rel ++ [name] ++ names).dropLast := by
    rw [List.dropLast_append_of_ne_nil hne]
    simp
  simp only [SourceFilter.descends, Bool.not_eq_false', List.contains_eq_mem,
    decide_eq_true_eq] at hdir
  exact hparents name hname hdir

theorem entries_file (links : Nat) (place : Place) (above : List Place) (name : String)
    (bytes : Bytes) (rest : List (String × Node)) :
    w.entries links path place above ((name, .file bytes) :: rest) =
      w.take (Path.join path name) ++ w.entries links path place above rest := by
  rw [entries]

theorem entries_dir (links : Nat) (place : Place) (above : List Place) (name : String)
    (inner rest : List (String × Node)) :
    w.entries links path place above ((name, .dir inner) :: rest) =
      (if w.filter.descends name = true then
        w.entries links (Path.join path name) (place ++ [name]) ((place ++ [name]) :: above) inner
      else []) ++ w.entries links path place above rest := by
  rw [entries]

/-- On a tree without links a walk takes what the filter takes of all files. -/
theorem entries_of_linkFree (hbase : ∀ n ∈ w.base, Path.isName n = true) (links : Nat)
    (place : Place) (above : List Place) {es : List (String × Node)}
    (hnamed : Node.wellNamedAll es = true) (hlinks : Node.linkFreeAll es = true)
    (hrel : ∀ n ∈ rel, Path.isName n = true) (hpath : Path.Spells path (w.base ++ rel)) :
    w.entries links path place above es =
      (Node.filesOf path es).flatMap fun f => w.take f.1 := by
  induction es using Node.entries_induction generalizing path rel place above with
  | nil => rw [entries, Node.filesOf, List.flatMap_nil]
  | file name bytes rest ih =>
    simp only [Node.wellNamedAll, Node.linkFreeAll, Bool.and_eq_true] at hnamed hlinks
    rw [entries_file, ih place above hnamed.2 hlinks.2 hrel hpath, Node.filesOf, Node.filesFrom]
    rfl
  | link name target rest ih =>
    simp only [Node.linkFreeAll, Node.linkFree, Bool.false_and, Bool.false_eq_true] at hlinks
  | dir name inner rest ihInner ih =>
    simp only [Node.wellNamedAll, Node.linkFreeAll, Node.linkFree, Bool.and_eq_true]
      at hnamed hlinks
    obtain ⟨⟨hname, hinner⟩, hrest⟩ := hnamed
    have hpath' := hpath.join_name hname
    have hrel' : ∀ n ∈ rel ++ [name], Path.isName n = true :=
      List.forall_mem_append.mpr ⟨hrel, by simpa using hname⟩
    rw [entries_dir, ih place above hrest hlinks.2 hrel hpath, Node.filesOf, Node.filesFrom,
      List.flatMap_append]
    congr 1
    by_cases hdescends : w.filter.descends name = true
    · rw [if_pos hdescends]
      rw [Node.wellNamed, Bool.and_eq_true] at hinner
      rw [List.append_assoc] at hpath'
      exact ihInner _ _ hinner.1 hlinks.1 hrel' hpath'
    · -- The directory is passed over; none of the files below it would have been taken.
      rw [if_neg hdescends]
      symm
      rw [List.flatMap_eq_nil_iff]
      intro f hf
      obtain ⟨names, hat, hf⟩ := (Node.mem_filesFrom (.dir inner) hinner).mp hf
      have hnames := (Node.wellNamed_at? hinner hat).2
      rw [hf]
      exact take_below_excluded hbase hpath' (by simpa using hdescends)
        (Node.ne_nil_of_at?_file hat) (List.forall_mem_append.mpr ⟨hrel', hnames⟩)

end Walk

/-! ## What the source roots hold -/

/-- A scan root on a disk of well-named directories, with no link below it. -/
structure Disk.PlainAt (d : Disk) (base : Place) (es : List (String × Node)) : Prop where
  named : d.root.wellNamed = true
  at_base : d.root.at? base = some (.dir es)
  linkFree : (Node.dir es).linkFree = true

namespace Disk.PlainAt

variable {d : Disk} {base : Place} {es : List (String × Node)}

theorem base_names (h : d.PlainAt base es) : ∀ n ∈ base, Path.isName n = true :=
  (Node.wellNamed_at? h.named h.at_base).2

theorem tree_named (h : d.PlainAt base es) : (Node.dir es).wellNamed = true :=
  (Node.wellNamed_at? h.named h.at_base).1

end Disk.PlainAt

namespace SourceRoot

/-- The root is a directory of the tree, and the file at the names lies below it. -/
structure Holds (r : SourceRoot) (tree : Node) (names : Place) (bytes : Bytes) : Prop where
  isDir : ∃ es, tree.at? r.names = some (.dir es)
  below : r.names <+: names
  isFile : tree.at? names = some (.file bytes)

variable {r : SourceRoot} {tree tree' : Node} {names : Place} {bytes : Bytes}

theorem holds_iff :
    r.Holds tree names bytes ↔
      ∃ inner rel, tree.at? r.names = some (.dir inner) ∧
        (Node.dir inner).at? rel = some (.file bytes) ∧ names = r.names ++ rel := by
  constructor
  · intro h
    obtain ⟨inner, hinner⟩ := h.isDir
    obtain ⟨rel, rfl⟩ := h.below
    have hfile := h.isFile
    rw [Node.at?_append, hinner] at hfile
    exact ⟨inner, rel, hinner, hfile, rfl⟩
  · intro h
    obtain ⟨inner, rel, hinner, hfile, rfl⟩ := h
    refine ⟨⟨inner, hinner⟩, List.prefix_append _ _, ?_⟩
    rw [Node.at?_append, hinner]
    exact hfile

/-- A root holds the same files however directories are listed. -/
theorem holds_relisted (h : tree.Relisted tree') (hnamed : tree.wellNamed = true) :
    r.Holds tree' names bytes ↔ r.Holds tree names bytes := by
  have hface := h.face_at? hnamed
  constructor
  · intro hfile
    refine ⟨Node.exists_dir_iff.mpr ?_, hfile.below, Node.at?_eq_file_iff.mpr ?_⟩
    · rw [← hface, Node.exists_dir_iff.mp hfile.isDir]
    · rw [← hface, Node.at?_eq_file_iff.mp hfile.isFile]
  · intro hfile
    refine ⟨Node.exists_dir_iff.mpr ?_, hfile.below, Node.at?_eq_file_iff.mpr ?_⟩
    · rw [hface, Node.exists_dir_iff.mp hfile.isDir]
    · rw [hface, Node.at?_eq_file_iff.mp hfile.isFile]

/-- The path under which a walk of the root meets the file at the names. -/
def pathTo (r : SourceRoot) (base names : Place) : String :=
  (names.drop r.names.length).foldl Path.join (Path.join base.path r.dir)

theorem pathTo_append (base rel : Place) :
    r.pathTo base (r.names ++ rel) = rel.foldl Path.join (Path.join base.path r.dir) := by
  rw [pathTo, List.drop_left]

end SourceRoot

namespace ScanSettings

variable {s : ScanSettings} {d : Disk} {base : Place} {es inner : List (String × Node)}
  {exclude : FileScope} {r : SourceRoot} {names : Place} {bytes : Bytes} {e : Encounter}

/-- The filter for a source root. -/
def filter (s : ScanSettings) (exclude : FileScope) (r : SourceRoot) : SourceFilter :=
  ⟨r.extensions, s.excludeDirs, exclude⟩

/-- The walk of a source root. -/
def walk (s : ScanSettings) (d : Disk) (base : Place) (exclude : FileScope) (r : SourceRoot) :
    Walk where
  disk := d
  filter := s.filter exclude r
  followLinks := s.followLinks
  base := base
  dir := Path.join base.path r.dir

theorem spells_root (h : d.PlainAt base es) (hr : r.isPlain = true) :
    Path.Spells (Path.join base.path r.dir) (base ++ r.names) := by
  obtain ⟨habs, hnames⟩ := r.segments_dir hr
  exact (Path.spells_path h.base_names).join habs hnames

theorem dir?_root (h : d.PlainAt base es) (hr : r.isPlain = true) {place : Place} :
    d.dir? (Path.join base.path r.dir) = some (place, inner) ↔
      (Node.dir es).at? r.names = some (.dir inner) ∧ place = base ++ r.names := by
  obtain ⟨habs, hnames⟩ := r.segments_dir hr
  exact Disk.dir?_join (Path.spells_path h.base_names) h.at_base h.linkFree habs hnames

theorem walk_encounters (h : d.PlainAt base es) (hr : r.isPlain = true)
    (hinner : (Node.dir es).at? r.names = some (.dir inner)) :
    (s.walk d base exclude r).encounters =
      (Node.filesOf (Path.join base.path r.dir) inner).flatMap fun f =>
        (s.walk d base exclude r).take f.1 := by
  obtain ⟨hnamed, hroot⟩ := Node.wellNamed_at? h.tree_named hinner
  have hlinks := Node.linkFree_at? h.linkFree hinner
  rw [Node.wellNamed, Bool.and_eq_true] at hnamed
  have hfound : (s.walk d base exclude r).disk.dir? (s.walk d base exclude r).dir =
      some (base ++ r.names, inner) := (dir?_root h hr).mpr ⟨hinner, rfl⟩
  rw [Walk.encounters, hfound]
  exact Walk.entries_of_linkFree h.base_names _ _ _ hnamed.1 hlinks hroot (spells_root h hr)

theorem exists_dir_of_mem_encounters (h : d.PlainAt base es) (hr : r.isPlain = true)
    (he : e ∈ (s.walk d base exclude r).encounters) :
    ∃ inner, (Node.dir es).at? r.names = some (.dir inner) := by
  rw [Walk.encounters] at he
  split at he
  · next place inner hfound => exact ⟨inner, ((dir?_root h hr).mp hfound).1⟩
  · cases he

theorem mem_walk_take (h : d.PlainAt base es) (hr : r.isPlain = true) {rel : Place}
    (hrel : ∀ n ∈ rel, Path.isName n = true) :
    e ∈ (s.walk d base exclude r).take (rel.foldl Path.join (Path.join base.path r.dir)) ↔
      (s.filter exclude r).includes ("/".intercalate (r.names ++ rel)) = true ∧
        e = .source (r.pathTo base (r.names ++ rel)) ("/".intercalate (r.names ++ rel)) := by
  have hspells := (spells_root h hr).foldl_join hrel
  rw [List.append_assoc] at hspells
  rw [SourceRoot.pathTo_append]
  exact Walk.mem_take_of_spells h.base_names hspells

/-- The walk of a root meets the files that it holds and its filter includes. -/
theorem mem_walk_encounters (h : d.PlainAt base es) (hr : r.isPlain = true) :
    e ∈ (s.walk d base exclude r).encounters ↔
      ∃ names bytes, r.Holds (.dir es) names bytes ∧
        (s.filter exclude r).includes ("/".intercalate names) = true ∧
        e = .source (r.pathTo base names) ("/".intercalate names) := by
  constructor
  · intro he
    obtain ⟨inner, hinner⟩ := exists_dir_of_mem_encounters h hr he
    have hnamed := (Node.wellNamed_at? h.tree_named hinner).1
    rw [walk_encounters h hr hinner, List.mem_flatMap] at he
    obtain ⟨f, hf, he⟩ := he
    obtain ⟨rel, hat, hpath⟩ := (Node.mem_filesFrom (.dir inner) hnamed).mp hf
    rw [hpath, mem_walk_take h hr (Node.wellNamed_at? hnamed hat).2] at he
    exact ⟨_, f.2, SourceRoot.holds_iff.mpr ⟨inner, rel, hinner, hat, rfl⟩, he⟩
  · intro hheld
    obtain ⟨names, bytes, hfile, he⟩ := hheld
    obtain ⟨inner, rel, hinner, hat, rfl⟩ := SourceRoot.holds_iff.mp hfile
    have hnamed := (Node.wellNamed_at? h.tree_named hinner).1
    rw [walk_encounters h hr hinner, List.mem_flatMap]
    refine ⟨(rel.foldl Path.join (Path.join base.path r.dir), bytes), ?_, ?_⟩
    · exact (Node.mem_filesFrom (.dir inner) hnamed).mpr ⟨rel, hat, rfl⟩
    · exact (mem_walk_take h hr (Node.wellNamed_at? hnamed hat).2).mpr he

theorem read_pathTo (h : d.PlainAt base es) (hr : r.isPlain = true)
    (hfile : r.Holds (.dir es) names bytes) : d.read (r.pathTo base names) = .ok bytes := by
  obtain ⟨inner, rel, hinner, hat, rfl⟩ := SourceRoot.holds_iff.mp hfile
  have hplace : d.root.at? (base ++ r.names) = some (.dir inner) := by
    rw [Node.at?_append, h.at_base]
    exact hinner
  rw [SourceRoot.pathTo_append]
  exact Disk.read_foldl_join h.named (spells_root h hr) hplace hat

/-! ## From what is met to the corpus -/

/-- Some root holds the file at the names, and the filter of that root includes it. -/
def Wants (s : ScanSettings) (exclude : FileScope) (tree : Node) (names : Place)
    (bytes : Bytes) : Prop :=
  ∃ r ∈ s.roots, r.Holds tree names bytes ∧
    (s.filter exclude r).includes ("/".intercalate names) = true

/-- The relative path of a file decides which file it is. -/
theorem Wants.eq_of_path_eq (hnamed : (Node.dir es).wellNamed = true) {names' : Place}
    {bytes' : Bytes} (h : s.Wants exclude (.dir es) names bytes)
    (h' : s.Wants exclude (.dir es) names' bytes')
    (hpath : "/".intercalate names = "/".intercalate names') : bytes = bytes' := by
  obtain ⟨_, -, hheld, -⟩ := h
  obtain ⟨_, -, hheld', -⟩ := h'
  have hfile := hheld.isFile
  have hfile' := hheld'.isFile
  have hne := Node.ne_nil_of_at?_file hfile
  have hne' := Node.ne_nil_of_at?_file hfile'
  have hnames := Path.intercalate_inj hne (Node.wellNamed_at? hnamed hfile).2 hne'
    (Node.wellNamed_at? hnamed hfile').2 hpath
  rw [hnames, hfile'] at hfile
  cases hfile
  rfl

/-- What is met are the files that the settings want, each of which is read. -/
theorem mem_encounters (h : d.PlainAt base es) (hroots : ∀ r ∈ s.roots, r.isPlain = true)
    (he : e ∈ s.encounters d base exclude) :
    ∃ path names bytes, e = .source path ("/".intercalate names) ∧
      s.Wants exclude (.dir es) names bytes ∧ d.read path = .ok bytes := by
  obtain ⟨r, hr, he⟩ := List.mem_flatMap.mp he
  obtain ⟨names, bytes, hheld, hincludes, he⟩ := (mem_walk_encounters h (hroots r hr)).mp he
  exact ⟨_, names, bytes, he, ⟨r, hr, hheld, hincludes⟩, read_pathTo h (hroots r hr) hheld⟩

theorem exists_encounter (h : d.PlainAt base es) (hroots : ∀ r ∈ s.roots, r.isPlain = true)
    (hwants : s.Wants exclude (.dir es) names bytes) :
    ∃ path, .source path ("/".intercalate names) ∈ s.encounters d base exclude := by
  obtain ⟨r, hr, hheld, hincludes⟩ := hwants
  exact ⟨_, List.mem_flatMap.mpr
    ⟨r, hr, (mem_walk_encounters h (hroots r hr)).mpr ⟨names, bytes, hheld, hincludes, rfl⟩⟩⟩

/-- The sources that are met, by path and relative path, sorted, one for each relative path. -/
def sources (met : List Encounter) : List (String × String) :=
  dropRepeats (·.2) ((met.filterMap (·.source?)).mergeSort fun a b => a.2 ≤ b.2)

theorem mem_of_mem_sources {met : List Encounter} {p : String × String} (h : p ∈ sources met) :
    .source p.1 p.2 ∈ met := by
  have hmem := (List.mergeSort_perm _ _).subset ((dropRepeats_sublist _ _).subset h)
  obtain ⟨e, he, hp⟩ := List.mem_filterMap.mp hmem
  cases e with
  | source path relative =>
    cases hp
    exact he
  | trouble warning => cases hp

theorem exists_mem_sources {met : List Encounter} {path relative : String}
    (h : .source path relative ∈ met) : ∃ p ∈ sources met, p.2 = relative := by
  have hmem : (path, relative) ∈ (met.filterMap (·.source?)).mergeSort fun a b => a.2 ≤ b.2 :=
    (List.mergeSort_perm _ _).symm.subset (List.mem_filterMap.mpr ⟨_, h, rfl⟩)
  exact exists_mem_dropRepeats hmem

theorem mem_filterMap_readSource {sources : List (String × String)} {f : SourceFile} :
    f ∈ (sources.map fun p => readSource d p.1 p.2).filterMap (·.toOption) ↔
      ∃ p ∈ sources, readSource d p.1 p.2 = .ok f := by
  simp only [List.mem_filterMap, List.mem_map]
  constructor
  · intro h
    obtain ⟨result, ⟨p, hp, rfl⟩, hf⟩ := h
    exact ⟨p, hp, ok_of_toOption hf⟩
  · intro h
    obtain ⟨p, hp, hf⟩ := h
    exact ⟨.ok f, ⟨p, hp, hf⟩, rfl⟩

/-- What is loaded, with a warning for each source that cannot be read. -/
theorem load_eq {root : String} (hexclude : s.excluded = .ok exclude)
    (hroot : d.dir? root = some (base, es)) :
    ∃ unread, s.load d root = .ok ⟨base, .ofFiles
        (((sources (s.encounters d base exclude)).map fun p => readSource d p.1 p.2).filterMap
          (·.toOption))
        ((s.encounters d base exclude).filterMap (·.trouble?) ++ unread)⟩ ∧
      ((∀ p ∈ sources (s.encounters d base exclude), ∃ f, readSource d p.1 p.2 = .ok f) →
        unread = []) := by
  rw [load, hexclude, ok_bind, hroot]
  refine ⟨_, rfl, fun hread => ?_⟩
  rw [List.filterMap_eq_nil_iff]
  intro result hresult
  obtain ⟨p, hp, rfl⟩ := List.mem_map.mp hresult
  obtain ⟨f, hf⟩ := hread p hp
  simp only [hf]

/-- A load in which everything that is met can be read. -/
theorem load_of_readable {root : String} (hexclude : s.excluded = .ok exclude)
    (hroot : d.dir? root = some (base, es))
    (hmet : ∀ e ∈ s.encounters d base exclude, ∃ path relative bytes,
      e = .source path relative ∧ d.read path = .ok bytes) :
    ∃ files, s.load d root = .ok ⟨base, .ofFiles files []⟩ ∧
      ∀ f, f ∈ files ↔ ∃ p ∈ sources (s.encounters d base exclude),
        readSource d p.1 p.2 = .ok f := by
  have htroubles : (s.encounters d base exclude).filterMap (·.trouble?) = [] := by
    rw [List.filterMap_eq_nil_iff]
    intro e he
    obtain ⟨path, relative, bytes, rfl, -⟩ := hmet e he
    rfl
  have hread : ∀ p ∈ sources (s.encounters d base exclude), ∃ f, readSource d p.1 p.2 = .ok f := by
    intro p hp
    obtain ⟨path, relative, bytes, heq, hbytes⟩ := hmet _ (mem_of_mem_sources hp)
    obtain ⟨hpath, -⟩ := Encounter.source.inj heq
    rw [readSource, hpath, hbytes]
    exact ⟨_, rfl⟩
  obtain ⟨unread, hload, hunread⟩ := load_eq hexclude hroot
  rw [htroubles, hunread hread, List.append_nil] at hload
  exact ⟨_, hload, fun f => mem_filterMap_readSource⟩

/-- The corpus of a plain scan root: the files that the settings want, sorted by path. -/
theorem load_wants {root : String} (hexclude : s.excluded = .ok exclude)
    (hroots : ∀ r ∈ s.roots, r.isPlain = true) (h : d.PlainAt base es)
    (hroot : d.dir? root = some (base, es)) :
    ∃ corpus : Corpus, s.load d root = .ok ⟨base, corpus⟩ ∧ corpus.warnings = [] ∧
      (corpus.files.Pairwise fun f g => f.path < g.path) ∧
      ∀ f, f ∈ corpus.files ↔ ∃ names bytes, s.Wants exclude (.dir es) names bytes ∧
        f = ⟨"/".intercalate names, bytes.toTextLossy⟩ := by
  obtain ⟨files, hload, hfiles⟩ := load_of_readable hexclude hroot fun e he => by
    obtain ⟨path, names, bytes, he, -, hread⟩ := mem_encounters h hroots he
    exact ⟨path, _, bytes, he, hread⟩
  -- What is read is wanted, and its text is that of the file.
  have hread : ∀ f ∈ files, ∃ names bytes, s.Wants exclude (.dir es) names bytes ∧
      f = ⟨"/".intercalate names, bytes.toTextLossy⟩ := by
    intro f hf
    obtain ⟨⟨path, relative⟩, hp, hf⟩ := (hfiles f).mp hf
    obtain ⟨path', names, bytes, heq, hwants, hbytes⟩ :=
      mem_encounters h hroots (mem_of_mem_sources hp)
    obtain ⟨rfl, rfl⟩ := Encounter.source.inj heq
    rw [readSource, hbytes] at hf
    exact ⟨names, bytes, hwants, (Except.ok.inj hf).symm⟩
  -- So a file that is read under a path is the wanted file with that path.
  have hunique : ∀ f ∈ files, ∀ names bytes, s.Wants exclude (.dir es) names bytes →
      f.path = "/".intercalate names → f = ⟨"/".intercalate names, bytes.toTextLossy⟩ := by
    intro f hf names bytes hwants hpath
    obtain ⟨names', bytes', hwants', rfl⟩ := hread f hf
    have hpath : "/".intercalate names' = "/".intercalate names := hpath
    rw [hwants'.eq_of_path_eq h.tree_named hwants hpath, hpath]
  refine ⟨_, hload, rfl, Corpus.strictly_sorted files [], fun f => ?_⟩
  constructor
  · intro hf
    exact hread f (Corpus.mem_of_mem_ofFiles hf)
  · intro hwanted
    obtain ⟨names, bytes, hwants, rfl⟩ := hwanted
    obtain ⟨path, hmet⟩ := exists_encounter h hroots hwants
    obtain ⟨⟨path', relative⟩, hp, hrelative⟩ := exists_mem_sources hmet
    obtain ⟨_, _, bytes', heq, -, hbytes⟩ := mem_encounters h hroots (mem_of_mem_sources hp)
    obtain ⟨rfl, -⟩ := Encounter.source.inj heq
    have hfile : (⟨relative, bytes'.toTextLossy⟩ : SourceFile) ∈ files := by
      refine (hfiles _).mpr ⟨_, hp, ?_⟩
      rw [readSource, hbytes]
    obtain ⟨g, hg, hgpath⟩ := Corpus.exists_mem_ofFiles [] hfile
    have hg' := hunique g (Corpus.mem_of_mem_ofFiles hg) names bytes hwants
      (hgpath.trans hrelative)
    exact hg' ▸ hg

/-! ## The loader -/

/-- What is wanted depends neither on the order of the roots nor on that of the entries. -/
theorem wants_relisted {s' : ScanSettings} {tree tree' : Node} (hroots : s'.roots.Perm s.roots)
    (hdirs : s'.excludeDirs = s.excludeDirs) (htree : tree.Relisted tree')
    (hnamed : tree.wellNamed = true) :
    s'.Wants exclude tree' names bytes ↔ s.Wants exclude tree names bytes := by
  have hfilter : ∀ r, s'.filter exclude r = s.filter exclude r := by
    intro r
    rw [filter, filter, hdirs]
  simp only [Wants, hroots.mem_iff, hfilter, SourceRoot.holds_relisted htree hnamed]

/-- **The loader finds exactly the configured files.** Below a scan root without links the corpus
has the files that lie below some source root and that the filter of that root includes, in the
order of their paths, each of them once, and nothing else is reported. Neither the order of the
roots nor the order in which directories are listed shows. -/
theorem load_finds_configured_files (s : ScanSettings) (d : Disk) (root : String)
    (exclude : FileScope) (hexclude : s.excluded = .ok exclude)
    (hroots : ∀ r ∈ s.roots, r.isPlain = true) (hnamed : d.root.wellNamed = true) (base : Place)
    (es : List (String × Node)) (hroot : d.dir? root = some (base, es))
    (hlinks : (Node.dir es).linkFree = true) :
    ∃ corpus : Corpus, s.load d root = .ok ⟨base, corpus⟩ ∧
      (corpus.files.map (·.path)).Pairwise (· < ·) ∧
      (∀ f, f ∈ corpus.files ↔ ∃ r ∈ s.roots, ∃ names bytes, r.Holds (.dir es) names bytes ∧
        (s.filter exclude r).includes ("/".intercalate names) = true ∧
        f = ⟨"/".intercalate names, bytes.toTextLossy⟩) ∧
      (∀ r names bytes, r.Holds (.dir es) names bytes →
        ((s.filter exclude r).includes ("/".intercalate names) = true ↔
          (∃ extension ∈ r.extensions,
            Path.extension? ("/".intercalate names) = some extension) ∧
          (∀ n ∈ names.dropLast, n ∉ s.excludeDirs) ∧
          exclude.isMatch ("/".intercalate names) = false)) ∧
      corpus.warnings = [] ∧
      ∀ (s' : ScanSettings) (d' : Disk) (root' : String) (base' : Place)
        (es' : List (String × Node)), s'.roots.Perm s.roots → s'.excludeDirs = s.excludeDirs →
        s'.exclude = s.exclude → d'.root.wellNamed = true → d'.dir? root' = some (base', es') →
        (Node.dir es).Relisted (.dir es') → s'.load d' root' = .ok ⟨base', corpus⟩ := by
  have h : d.PlainAt base es := ⟨hnamed, Disk.at?_of_dir? hroot, hlinks⟩
  obtain ⟨corpus, hload, hwarnings, hsorted, hfiles⟩ := load_wants hexclude hroots h hroot
  refine ⟨corpus, hload, List.pairwise_map.mpr hsorted, ?_, ?_, hwarnings, ?_⟩
  · intro f
    rw [hfiles]
    constructor
    · intro hf
      obtain ⟨names, bytes, ⟨r, hr, hheld, hincludes⟩, hf⟩ := hf
      exact ⟨r, hr, names, bytes, hheld, hincludes, hf⟩
    · intro hf
      obtain ⟨r, hr, names, bytes, hheld, hincludes, hf⟩ := hf
      exact ⟨names, bytes, ⟨r, hr, hheld, hincludes⟩, hf⟩
  · intro r names bytes hheld
    exact SourceFilter.includes_iff (Node.ne_nil_of_at?_file hheld.isFile)
      (Node.wellNamed_at? h.tree_named hheld.isFile).2
  · intro s' d' root' base' es' hperm hdirs hglobs hnamed' hroot' htree
    have hexclude' : s'.excluded = .ok exclude := by
      rw [excluded, hglobs]
      exact hexclude
    have hroots' : ∀ r ∈ s'.roots, r.isPlain = true := fun r hr => hroots r (hperm.subset hr)
    have h' : d'.PlainAt base' es' :=
      ⟨hnamed', Disk.at?_of_dir? hroot', htree.linkFree hlinks⟩
    obtain ⟨corpus', hload', hwarnings', hsorted', hfiles'⟩ :=
      load_wants hexclude' hroots' h' hroot'
    have hsame : corpus'.files = corpus.files := by
      refine Corpus.eq_of_strictly_sorted hsorted' hsorted fun f => ?_
      simp only [hfiles, hfiles', wants_relisted hperm hdirs htree h.tree_named]
    have hcorpus : corpus' = corpus := by
      cases corpus
      cases corpus'
      simp_all
    rw [hload', hcorpus]

/-- Nested roots, a root that is not there and an excluded directory; all listed in two orders. -/
theorem load_of_nested_roots :
    ∃ (s s' : ScanSettings) (d d' : Disk) (corpus : Corpus),
      s.load d "/repo" = .ok ⟨["repo"], corpus⟩ ∧ ⟨"src/lib/a.c", []⟩ ∈ corpus.files ∧
      (∀ f ∈ corpus.files, f.path ≠ "src/vendor/b.c") ∧ s'.roots = s.roots.reverse ∧
      s'.load d' "/repo" = .ok ⟨["repo"], corpus⟩ := by
  let lib : String × Node := ("lib", .dir [("a.h", .file []), ("a.c", .file [])])
  let vendor : String × Node := ("vendor", .dir [("b.c", .file [])])
  let es : List (String × Node) := [("src", .dir [vendor, lib])]
  let es' : List (String × Node) := [("src", .dir [lib, vendor])]
  let d : Disk := ⟨.dir [("repo", .dir es)], []⟩
  let d' : Disk := ⟨.dir [("repo", .dir es')], []⟩
  let s : ScanSettings :=
    { roots := [⟨"src", ["c"]⟩, ⟨"src/lib", ["h", "c"]⟩, ⟨"include", ["h"]⟩] }
  let s' : ScanSettings := { s with roots := s.roots.reverse }
  have hspells : Path.Spells "/repo" ["repo"] := ⟨by decide +kernel, by decide +kernel⟩
  have hroot : d.dir? "/repo" = some (["repo"], es) := Disk.dir?_of_spells hspells rfl
  have hroot' : d'.dir? "/repo" = some (["repo"], es') := Disk.dir?_of_spells hspells rfl
  have hrelisted : (Node.dir es).Relisted (.dir es') :=
    @Node.Relisted.entry [] [] "src" _ _ (.perm (List.Perm.swap lib vendor []))
  obtain ⟨corpus, hload, -, hfiles, -, -, hsame⟩ := load_finds_configured_files s d "/repo" ⟨[]⟩ rfl
    (by decide +kernel) (by decide +kernel) ["repo"] es hroot (by decide +kernel)
  refine ⟨s, s', d, d', corpus, hload, ?_, ?_, rfl, ?_⟩
  · have hnames : (⟨"src", ["c"]⟩ : SourceRoot).names = ["src"] := by decide +kernel
    refine (hfiles _).mpr ⟨⟨"src", ["c"]⟩, by decide, ["src", "lib", "a.c"], [], ?_, ?_, ?_⟩
    · refine ⟨⟨_, by rw [hnames]; rfl⟩, ?_, rfl⟩
      rw [hnames]
      exact ⟨["lib", "a.c"], rfl⟩
    · decide +kernel
    · decide +kernel
  · intro f hf hpath
    obtain ⟨r, hr, names, bytes, -, hincludes, rfl⟩ := (hfiles f).mp hf
    have hpath : "/".intercalate names = "src/vendor/b.c" := hpath
    have hnone : ∀ r ∈ s.roots, (s.filter ⟨[]⟩ r).includes "src/vendor/b.c" = false := by
      decide +kernel
    rw [hpath, hnone r hr] at hincludes
    cases hincludes
  · exact hsame s' d' "/repo" ["repo"] es' (List.reverse_perm _) rfl rfl (by decide +kernel) hroot'
      hrelisted

end ScanSettings
end StructuralRules
