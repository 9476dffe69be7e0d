import StructuralRules.Proofs.Files.LevelPaths
import StructuralRules.Proofs.Files.Loading

/-!
# Files are told apart by their relative paths

A walk goes on by names, also behind links. Below source roots that do not climb
from the scan root, the files that are met are shown by level paths. So all that
is met under one relative path is one file, and nothing that is read gets lost.
-/

set_option autoImplicit false

namespace StructuralRules

/-! ## Paths below a directory -/

namespace Path

variable {path : String}

/-- The path goes on from the directory by names, of which there is at least one. -/
def Below (dir path : String) : Prop :=
  ∃ (names : Place) (n : String), (∀ m ∈ names, isName m = true) ∧ isName n = true ∧
    path = join (names.foldl join dir) n

theorem Below.of_join {dir path n : String} (h : Below (join dir n) path) (hn : isName n = true) :
    Below dir path := by
  obtain ⟨names, last, hnames, hlast, rfl⟩ := h
  exact ⟨n :: names, last, List.forall_mem_cons.mpr ⟨hn, hnames⟩, hlast, rfl⟩

theorem below_join (dir : String) {n : String} (hn : isName n = true) : Below dir (join dir n) :=
  ⟨[], n, by simp, hn, rfl⟩

theorem parts_foldl_join {dir : String} {names : Place} (habs : isAbsolute dir = true)
    (h : ∀ n ∈ names, isName n = true) :
    isAbsolute (names.foldl join dir) = true ∧
      parts (names.foldl join dir) = parts dir ++ names.map .name := by
  induction names generalizing dir with
  | nil => exact ⟨habs, (List.append_nil _).symm⟩
  | cons n names ih =>
    rw [List.forall_mem_cons] at h
    obtain ⟨habs', hparts⟩ := ih (isAbsolute_join_left habs n) h.2
    refine ⟨habs', ?_⟩
    rw [List.foldl_cons, hparts, parts_join_name (ne_empty_of_isAbsolute habs) h.1,
      List.append_assoc]
    rfl

/-- Going on by names adds no climbing. -/
theorem Below.not_climbs {dir base relative : String} (h : Below dir path)
    (habs : isAbsolute dir = true) (hdir : ¬ Climbs dir base)
    (hrelative : relative? path base = some relative) : ¬ Climbs path base := by
  obtain ⟨names, n, hnames, hn, rfl⟩ := h
  obtain ⟨rest, hrest, -⟩ := relative?_eq_some.mp hrelative
  obtain ⟨habs', hparts⟩ := parts_foldl_join habs hnames
  rw [climbs_iff hrest]
  have hup (ns : List String) : .up ∉ ns.map PathPart.name := by simp
  rw [parts_join_name (ne_empty_of_isAbsolute habs') hn, hparts, List.append_assoc,
    ← List.map_singleton, ← List.map_append, List.append_eq_append_iff] at hrest
  obtain ⟨between, hbase, hnames⟩ | ⟨between, hdirParts, rfl⟩ := hrest
  · -- The directory lies above the base.
    apply PathPart.not_climbs_of_notMem
    intro hmem
    apply hup (names ++ [n])
    rw [hnames]
    exact List.mem_append_right _ hmem
  · rw [PathPart.climbs_append, not_or]
    exact ⟨mt (climbs_iff hdirParts).mpr hdir, PathPart.not_climbs_of_notMem (hup _)⟩

theorem Below.level {dir relative : String} {base : Place} (h : Below dir path)
    (habs : isAbsolute dir = true) (hbase : ∀ n ∈ base, isName n = true)
    (hrelative : relative? path base.path = some relative) (hclimbs : ¬ Climbs path base.path) :
    Level path := by
  obtain ⟨names, n, hnames, hn, rfl⟩ := h
  refine ⟨⟨_, n, (parts_foldl_join habs hnames).1, hn, rfl⟩, ?_⟩
  obtain ⟨rest, hrest, -⟩ := relative?_eq_some.mp hrelative
  rw [climbs_iff hrest] at hclimbs
  rw [hrest, PathPart.climbs_append, not_or]
  refine ⟨PathPart.not_climbs_of_notMem ?_, hclimbs⟩
  rw [(spells_path hbase).parts_eq]
  simp

end Path

namespace Walk

variable {w : Walk} {links : Nat} {path p relative name : String} {place : Place}
  {above : List Place} {es rest : List (String × Node)}

theorem mem_take (h : .source p relative ∈ w.take path) :
    p = path ∧ Path.relative? path w.base.path = some relative := by
  rw [take] at h
  split at h
  · next r hrelative =>
    split at h
    · obtain ⟨rfl, rfl⟩ := Encounter.source.inj (List.mem_singleton.mp h)
      exact ⟨rfl, hrelative⟩
    · cases h
  · cases h

/-- The first entry of the directory that is walked is met if it is a source. -/
theorem source_mem_encounters {bytes : Bytes}
    (hdir : w.disk.dir? w.dir = some (place, (name, .file bytes) :: rest))
    (hpath : Path.join w.dir name = path)
    (hrelative : Path.relative? path w.base.path = some relative)
    (hincludes : w.filter.includes relative = true) : .source path relative ∈ w.encounters := by
  rw [encounters, hdir]
  simp only [entries_file, hpath, take, hrelative, hincludes, ↓reduceIte]
  exact List.mem_cons_self

theorem source_notMem_trouble (path message : String) :
    .source p relative ∉ w.trouble path message := by
  simp [trouble]

/-- What a link adds to a walk: the file that it leads to, or what is below the directory that it
leads to. -/
theorem source_of_link {target : String}
    (h : .source p relative ∈ w.entries links path place above ((name, .link target) :: rest)) :
    .source p relative ∈ w.take (Path.join path name) ∨
      (∃ n goal inner, links = n + 1 ∧ w.disk.resolveFrom place name = .ok (goal, .dir inner) ∧
        .source p relative ∈ w.entries n (Path.join path name) goal (goal :: above) inner) ∨
      .source p relative ∈ w.entries links path place above rest := by
  rw [entries, List.mem_append] at h
  rcases h with h | h
  · split at h
    · cases h
    · split at h
      · exact absurd h (source_notMem_trouble _ _)
      · next goal inner hgoal =>
        split at h
        · exact absurd h (source_notMem_trouble _ _)
        · split at h
          · cases h
          · split at h
            · cases h
            · next n => exact .inr (.inl ⟨n, goal, inner, rfl, hgoal, h⟩)
      · split at h
        · exact .inl h
        · cases h
  · exact .inr (.inr h)

/-- Whatever a walk meets is shown below its directory, also behind links. -/
theorem below_of_mem_entries (hdisk : w.disk.root.wellNamed = true)
    (hnamed : Node.wellNamedAll es = true)
    (h : .source p relative ∈ w.entries links path place above es) :
    Path.Below path p ∧ Path.relative? p w.base.path = some relative := by
  -- Behind a link to a directory fewer links are left; otherwise the entries get fewer.
  induction links using Nat.strong_induction_on generalizing path place above es with
  | h links ihLinks =>
    induction es using Node.entries_induction generalizing path place above with
    | nil =>
      rw [entries] at h
      cases h
    | file name bytes rest ih =>
      simp only [Node.wellNamedAll, Bool.and_eq_true] at hnamed
      rw [entries_file, List.mem_append] at h
      rcases h with h | h
      · obtain ⟨rfl, hrelative⟩ := mem_take h
        exact ⟨Path.below_join path hnamed.1.1, hrelative⟩
      · exact ih hnamed.2 h
    | link name target rest ih =>
      simp only [Node.wellNamedAll, Bool.and_eq_true] at hnamed
      obtain h | ⟨n, goal, inner, rfl, hgoal, h⟩ | h := source_of_link h
      · obtain ⟨rfl, hrelative⟩ := mem_take h
        exact ⟨Path.below_join path hnamed.1.1, hrelative⟩
      · have hinner := (Node.wellNamed_at? hdisk (Disk.at?_of_resolveFrom hgoal)).1
        rw [Node.wellNamed, Bool.and_eq_true] at hinner
        obtain ⟨hbelow, hrelative⟩ := ihLinks n (Nat.lt_succ_self n) hinner.1 h
        exact ⟨hbelow.of_join hnamed.1.1, hrelative⟩
      · exact ih hnamed.2 h
    | dir name inner rest ihInner ih =>
      simp only [Node.wellNamedAll, Bool.and_eq_true] at hnamed
      obtain ⟨⟨hname, hinner⟩, hrest⟩ := hnamed
      rw [entries_dir, List.mem_append] at h
      rcases h with h | h
      · split at h
        · rw [Node.wellNamed, Bool.and_eq_true] at hinner
          obtain ⟨hbelow, hrelative⟩ := ihInner hinner.1 h
          exact ⟨hbelow.of_join hname, hrelative⟩
        · cases h
      · exact ih hrest h

theorem below_of_mem_encounters (hdisk : w.disk.root.wellNamed = true)
    (h : .source p relative ∈ w.encounters) :
    Path.Below w.dir p ∧ Path.relative? p w.base.path = some relative := by
  rw [encounters] at h
  split at h
  · next place es hdir =>
    have hes := (Node.wellNamed_at? hdisk (Disk.at?_of_dir? hdir)).1
    rw [Node.wellNamed, Bool.and_eq_true] at hes
    exact below_of_mem_entries hdisk hes.1 h
  · cases h

end Walk

/-! ## What is loaded -/

namespace ScanSettings

variable {s : ScanSettings} {d : Disk} {base : Place} {exclude : FileScope} {path relative : String}
  {es : List (String × Node)}

/-- A source that is met is shown by a level path, and its relative path names it. -/
theorem level_of_met (hdisk : d.root.wellNamed = true) (hbase : ∀ n ∈ base, Path.isName n = true)
    (hroots : ∀ r ∈ s.roots, ¬ Path.Climbs (Path.join base.path r.dir) base.path)
    (h : .source path relative ∈ s.encounters d base exclude) :
    Path.Level path ∧ Path.relative? path base.path = some relative ∧
      Path.resolved path = Path.resolved (Path.join base.path relative) := by
  obtain ⟨r, hr, h⟩ := List.mem_flatMap.mp h
  obtain ⟨hbelow, hrelative⟩ := Walk.below_of_mem_encounters hdisk h
  have hspells := Path.spells_path hbase
  have habs := Path.isAbsolute_join_left hspells.absolute r.dir
  have hclimbs := hbelow.not_climbs habs (hroots r hr) hrelative
  have hlevel := hbelow.level habs hbase hrelative hclimbs
  refine ⟨hlevel, hrelative, ?_⟩
  symm
  rw [Path.resolved_join_eq_iff hrelative, hlevel.isAbsolute, hspells.absolute]
  exact ⟨rfl, hclimbs⟩

/-- Below roots that do not climb, what is met under one relative path is one file. -/
theorem read_eq_of_met (hdisk : d.root.wellNamed = true)
    (hbase : d.root.at? base = some (.dir es))
    (hroots : ∀ r ∈ s.roots, ¬ Path.Climbs (Path.join base.path r.dir) base.path) {path' : String}
    (h : .source path relative ∈ s.encounters d base exclude)
    (h' : .source path' relative ∈ s.encounters d base exclude) :
    Path.resolved path = Path.resolved path' ∧ d.read path = d.read path' := by
  have hnames := (Node.wellNamed_at? hdisk hbase).2
  obtain ⟨hlevel, -, heq⟩ := level_of_met hdisk hnames hroots h
  obtain ⟨hlevel', -, heq'⟩ := level_of_met hdisk hnames hroots h'
  have hsame := heq.trans heq'.symm
  obtain ⟨inner, hroot⟩ := Disk.exists_dir_of_at? hbase
  exact ⟨hsame, hlevel.read_eq hroot hlevel' hsame⟩

theorem readSource_eq_ok {f : SourceFile} :
    readSource d path relative = .ok f ↔
      ∃ bytes, d.read path = .ok bytes ∧ f = ⟨relative, bytes.toTextLossy⟩ := by
  rw [readSource]
  cases d.read path with
  | error e => simp
  | ok bytes => simp [eq_comm]

/-- Below roots that do not climb, the corpus has all that is met and can be read. -/
theorem load_of_level_roots {root : String} (hexclude : s.excluded = .ok exclude)
    (hdisk : d.root.wellNamed = true) (hroot : d.dir? root = some (base, es))
    (hroots : ∀ r ∈ s.roots, ¬ Path.Climbs (Path.join base.path r.dir) base.path) :
    ∃ corpus : Corpus, s.load d root = .ok ⟨base, corpus⟩ ∧
      ∀ f, f ∈ corpus.files ↔ ∃ path relative bytes,
        .source path relative ∈ s.encounters d base exclude ∧ d.read path = .ok bytes ∧
          f = ⟨relative, bytes.toTextLossy⟩ := by
  obtain ⟨unread, hload, -⟩ := load_eq hexclude hroot
  refine ⟨_, hload, fun f => ?_⟩
  have hbase := Disk.at?_of_dir? hroot
  constructor
  · intro hf
    obtain ⟨p, hp, hf⟩ := mem_filterMap_readSource.mp (Corpus.mem_of_mem_ofFiles hf)
    obtain ⟨bytes, hbytes, rfl⟩ := readSource_eq_ok.mp hf
    exact ⟨p.1, p.2, bytes, mem_of_mem_sources hp, hbytes, rfl⟩
  · intro hf
    obtain ⟨path, relative, bytes, hmet, hbytes, rfl⟩ := hf
    -- The copy that is kept is read as this one would have been.
    have hkept : ∀ p ∈ sources (s.encounters d base exclude), p.2 = relative →
        readSource d p.1 p.2 = .ok ⟨relative, bytes.toTextLossy⟩ := by
      intro p hp hrelative
      have hkeptMet := mem_of_mem_sources hp
      rw [hrelative] at hkeptMet
      have hsame := (read_eq_of_met hdisk hbase hroots hmet hkeptMet).2
      exact readSource_eq_ok.mpr ⟨bytes, hsame.symm.trans hbytes, by rw [hrelative]⟩
    obtain ⟨p, hp, hrelative⟩ := exists_mem_sources hmet
    have hmem := mem_filterMap_readSource.mpr ⟨p, hp, hkept p hp hrelative⟩
    obtain ⟨g, hg, hgpath⟩ := Corpus.exists_mem_ofFiles
      ((s.encounters d base exclude).filterMap (·.trouble?) ++ unread) hmem
    obtain ⟨q, hq, hgread⟩ := mem_filterMap_readSource.mp (Corpus.mem_of_mem_ofFiles hg)
    obtain ⟨_, _, rfl⟩ := readSource_eq_ok.mp hgread
    rw [hkept q hq hgpath] at hgread
    rwa [← Except.ok.inj hgread] at hg

/-- **A relative path names its file where no path climbs.** Joined to the base it comes to what the
path comes to just when the path is of the kind of the base and never goes up from elsewhere than
the root behind it. Such a path has no relative path unless it comes to a place below the base, and
two of them with one relative path come to the same. So if the base is the scan root and no source
root climbs from it, what is met under one relative path is one file, and the corpus has the text of
everything that can be read. -/
theorem relative_paths_name_files (base : String) :
    (∀ path r, Path.relative? path base = some r →
      (Path.resolved (Path.join base r) = Path.resolved path ↔
        Path.isAbsolute path = Path.isAbsolute base ∧ ¬ Path.Climbs path base)) ∧
    (∀ path, ¬ Path.Climbs path base → ¬ Path.resolved base <:+ Path.resolved path →
      Path.relative? path base = none) ∧
    (∀ path path' r, Path.relative? path base = some r → Path.relative? path' base = some r →
      (∀ p ∈ [path, path'], Path.isAbsolute p = Path.isAbsolute base ∧ ¬ Path.Climbs p base) →
      Path.resolved path = Path.resolved path') ∧
    ∀ (s : ScanSettings) (d : Disk) (root : String) (exclude : FileScope) (place : Place)
      (es : List (String × Node)), s.excluded = .ok exclude → d.root.wellNamed = true →
      d.dir? root = some (place, es) → place.path = base →
      (∀ r ∈ s.roots, ¬ Path.Climbs (Path.join base r.dir) base) →
      (∀ path relative, .source path relative ∈ s.encounters d place exclude →
        Path.relative? path base = some relative ∧
          Path.resolved path = Path.resolved (Path.join base relative)) ∧
      (∀ path path' relative, .source path relative ∈ s.encounters d place exclude →
        .source path' relative ∈ s.encounters d place exclude →
        Path.resolved path = Path.resolved path' ∧ d.read path = d.read path') ∧
      ∃ corpus : Corpus, s.load d root = .ok ⟨place, corpus⟩ ∧
        ∀ f, f ∈ corpus.files ↔ ∃ path relative bytes,
          .source path relative ∈ s.encounters d place exclude ∧ d.read path = .ok bytes ∧
            f = ⟨relative, bytes.toTextLossy⟩ := by
  refine ⟨fun path r => Path.resolved_join_eq_iff, ?_, ?_, ?_⟩
  · intro path hclimbs hout
    rw [Option.eq_none_iff_forall_ne_some]
    intro r hr
    exact hout (Path.resolved_suffix hr hclimbs)
  · intro path path' r h h' hboth
    have heq := (Path.resolved_join_eq_iff h).mpr (hboth path (by simp))
    have heq' := (Path.resolved_join_eq_iff h').mpr (hboth path' (by simp))
    exact heq.symm.trans heq'
  · intro s d root exclude place es hexclude hdisk hroot hbase hroots
    subst hbase
    have hplace := Disk.at?_of_dir? hroot
    refine ⟨fun path relative hmet => ?_, fun path path' relative => ?_, ?_⟩
    · exact (level_of_met hdisk (Node.wellNamed_at? hdisk hplace).2 hroots hmet).2
    · exact read_eq_of_met hdisk hplace hroots
    · exact load_of_level_roots hexclude hdisk hroot hroots

/-- A file that two roots reach by different paths is one file, and it is read. -/
theorem file_met_twice_is_one :
    ∃ (s : ScanSettings) (d : Disk) (corpus : Corpus),
      s.load d "/repo" = .ok ⟨["repo"], corpus⟩ ∧
      .source "/repo/src/lib/a.c" "src/lib/a.c" ∈ s.encounters d ["repo"] ⟨[]⟩ ∧
      .source "/repo/src//lib/a.c" "src/lib/a.c" ∈ s.encounters d ["repo"] ⟨[]⟩ ∧
      d.read "/repo/src/lib/a.c" = d.read "/repo/src//lib/a.c" ∧
      ⟨"src/lib/a.c", ['x']⟩ ∈ corpus.files := by
  let es : List (String × Node) := [("src", .dir [("lib", .dir [("a.c", .file [120])])])]
  let d : Disk := ⟨.dir [("repo", .dir es)], []⟩
  let s : ScanSettings := { roots := [⟨"src", ["c"]⟩, ⟨"src//lib", ["c"]⟩] }
  have hspells : Path.Spells "/repo" ["repo"] := ⟨by decide +kernel, by decide +kernel⟩
  have hroot : d.dir? "/repo" = some (["repo"], es) := Disk.dir?_of_spells hspells rfl
  have hplain : d.PlainAt ["repo"] es := ⟨by decide +kernel, rfl, by decide +kernel⟩
  have hplainRoot : ∀ r ∈ s.roots, r.isPlain = true := by decide +kernel
  have hincludes : ∀ r ∈ s.roots, (s.filter ⟨[]⟩ r).includes "src/lib/a.c" = true := by
    decide +kernel
  have hmet : ∀ r ∈ s.roots, r.Holds (.dir es) ["src", "lib", "a.c"] [120] →
      .source (r.pathTo ["repo"] ["src", "lib", "a.c"]) "src/lib/a.c" ∈
        s.encounters d ["repo"] ⟨[]⟩ := by
    intro r hr hheld
    exact List.mem_flatMap.mpr ⟨r, hr, (mem_walk_encounters hplain (hplainRoot r hr)).mpr
      ⟨_, _, hheld, hincludes r hr, rfl⟩⟩
  have hnames : (⟨"src", ["c"]⟩ : SourceRoot).names = ["src"] := by decide +kernel
  have hnames' : (⟨"src//lib", ["c"]⟩ : SourceRoot).names = ["src", "lib"] := by decide +kernel
  have hheld : (⟨"src", ["c"]⟩ : SourceRoot).Holds (.dir es) ["src", "lib", "a.c"] [120] :=
    ⟨⟨_, by rw [hnames]; rfl⟩, by rw [hnames]; exact ⟨["lib", "a.c"], rfl⟩, rfl⟩
  have hheld' : (⟨"src//lib", ["c"]⟩ : SourceRoot).Holds (.dir es) ["src", "lib", "a.c"] [120] :=
    ⟨⟨_, by rw [hnames']; rfl⟩, by rw [hnames']; exact ⟨["a.c"], rfl⟩, rfl⟩
  have hsrc := hmet ⟨"src", ["c"]⟩ (by decide) hheld
  have hlib := hmet ⟨"src//lib", ["c"]⟩ (by decide) hheld'
  have hbytes := read_pathTo hplain (hplainRoot _ (by decide)) hheld
  rw [SourceRoot.pathTo, hnames] at hsrc hbytes
  rw [SourceRoot.pathTo, hnames'] at hlib
  obtain ⟨-, -, -, hloaded⟩ := relative_paths_name_files "/repo"
  obtain ⟨-, hread, corpus, hload, hfiles⟩ := hloaded s d "/repo" ⟨[]⟩ ["repo"] es rfl
    (by decide +kernel) hroot (by decide) (by decide +kernel)
  refine ⟨s, d, corpus, hload, hsrc, hlib, (hread _ _ _ hsrc hlib).2, (hfiles _).mpr ?_⟩
  exact ⟨_, _, [120], hsrc, hbytes, rfl⟩

/-- A step up is dropped from a relative path: the file beside the scan root gets the path of the
one below it, and the corpus cannot have both. -/
theorem step_up_merges_files :
    Path.relative? "/b/../a.c" "/b" = some "a.c" ∧ Path.relative? "/b/a.c" "/b" = some "a.c" ∧
    Path.resolved "/b/../a.c" ≠ Path.resolved (Path.join "/b" "a.c") ∧
    ¬ Path.resolved "/b" <:+ Path.resolved "/b/../a.c" ∧
    ∃ (s : ScanSettings) (d : Disk) (corpus : Corpus), s.load d "/b" = .ok ⟨["b"], corpus⟩ ∧
      .source "/b/./a.c" "a.c" ∈ s.encounters d ["b"] ⟨[]⟩ ∧ d.read "/b/./a.c" = .ok [120] ∧
      .source "/b/../a.c" "a.c" ∈ s.encounters d ["b"] ⟨[]⟩ ∧ d.read "/b/../a.c" = .ok [121] ∧
      ¬ (⟨"a.c", ['x']⟩ ∈ corpus.files ∧ ⟨"a.c", ['y']⟩ ∈ corpus.files) := by
  refine ⟨by decide +kernel, by decide +kernel, by decide +kernel, by decide +kernel, ?_⟩
  let inner : List (String × Node) := [("a.c", .file [120])]
  let es : List (String × Node) := [("a.c", .file [121]), ("b", .dir inner)]
  let d : Disk := ⟨.dir es, []⟩
  let s : ScanSettings := { roots := [⟨".", ["c"]⟩, ⟨"..", ["c"]⟩] }
  have hspells : Path.Spells "/b" ["b"] := ⟨by decide +kernel, by decide +kernel⟩
  have hspells' : Path.Spells "/b/." ["b"] := ⟨by decide +kernel, by decide +kernel⟩
  have hbeside (last : List String) :
      d.follow Disk.linkLimit [] d.root ("" :: "b" :: ".." :: last) =
        d.follow Disk.linkLimit [] d.root last := by
    show d.follow Disk.linkLimit [] (.dir es) _ = _
    have hlink (target : String) : Node.dir inner ≠ .link target := by simp
    rw [Disk.follow_blank (.inl rfl), Disk.follow_child (by decide) rfl hlink, Disk.follow_up]
    rfl
  have hdot : d.dir? "/b/." = some (["b"], inner) := Disk.dir?_of_spells hspells' rfl
  have hup : d.dir? "/b/.." = some ([], es) := by
    have hsegs : Path.segments "/b/.." = ["", "b", ".."] := by decide +kernel
    rw [Disk.dir?_eq_some, Disk.resolve_eq_ok, Disk.goalFrom_of_absolute (by decide +kernel), hsegs,
      hbeside, Disk.follow]
  have hread : d.read "/b/./a.c" = .ok [120] := by
    have hjoin : Path.join "/b/." "a.c" = "/b/./a.c" := by decide +kernel
    rw [← hjoin]
    exact Disk.read_join hspells' rfl (by decide +kernel) rfl
  have hreadUp : d.read "/b/../a.c" = .ok [121] := by
    have hsegs : Path.segments "/b/../a.c" = ["", "b", "..", "a.c"] := by decide +kernel
    have hgoal : d.goalFrom d.cwd "/b/../a.c" = .ok (.found ["a.c"] (.file [121])) := by
      rw [Disk.goalFrom_of_absolute (by decide +kernel), hsegs, hbeside]
      show d.follow Disk.linkLimit [] (.dir es) _ = _
      have hlink (target : String) : Node.file [121] ≠ .link target := by simp
      rw [Disk.follow_child (by decide) rfl hlink, Disk.follow]
      rfl
    rw [Disk.read, Disk.resolve_eq_ok.mpr hgoal]
    rfl
  have hexclude : s.excluded = .ok ⟨[]⟩ := rfl
  obtain ⟨unread, hload, -⟩ := load_eq hexclude (Disk.dir?_of_spells (d := d) hspells rfl)
  refine ⟨s, d, _, hload, ?_, hread, ?_, hreadUp, ?_⟩
  · refine List.mem_flatMap.mpr ⟨⟨".", ["c"]⟩, by simp [s], ?_⟩
    exact Walk.source_mem_encounters hdot (by decide +kernel) (by decide +kernel)
      (by decide +kernel)
  · refine List.mem_flatMap.mpr ⟨⟨"..", ["c"]⟩, by simp [s], ?_⟩
    exact Walk.source_mem_encounters hup (by decide +kernel) (by decide +kernel)
      (by decide +kernel)
  · intro hboth
    have heq := Corpus.eq_of_path_eq hboth.1 hboth.2 rfl
    simp at heq

end ScanSettings
end StructuralRules
