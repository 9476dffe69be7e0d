import StructuralRules.Proofs.Failure
import StructuralRules.Proofs.Files.Trees

/-!
# Where paths lead

Whatever way a path takes, over links and back, it ends at a place and at the
node of that place. A path that spells a place takes the way of its names: to a
directory on any tree, and on a tree without links nowhere else.
-/

set_option autoImplicit false

namespace StructuralRules

namespace Disk

variable {d : Disk} {links : Nat} {place base names : Place} {node x : Node}
  {segs rest : List String} {es : List (String × Node)}

/-! ## A way keeps place and node together -/

theorem follow_at? (hat : d.root.at? place = some node) {goal : Place}
    (h : d.follow links place node segs = .ok (.found goal x)) : d.root.at? goal = some x := by
  fun_induction follow d links place node segs with
  | case1 links place node =>
    cases h
    exact hat
  | case2 links place s rest es hdot ih => exact ih hat h
  | case3 links place rest es hdot ih =>
    refine ih ?_ h
    -- What lies above an existing place exists.
    rcases List.eq_nil_or_concat place with rfl | ⟨above, n, rfl⟩
    · rw [List.dropLast_nil, Node.at?_nil]
      rfl
    · rw [List.concat_eq_append, Node.at?_append, Option.bind_eq_some_iff] at hat
      obtain ⟨node, hnode, -⟩ := hat
      rw [List.concat_eq_append, List.dropLast_concat, hnode]
      rfl
  | case4 | case5 | case6 | case10 => cases h
  | case7 place s rest es hdot hup target hchild n steps habs ih => exact ih (Node.at?_nil _) h
  | case8 place s rest es hdot hup target hchild n steps habs ih => exact ih hat h
  | case9 links place s rest es hdot hup next hlink hchild ih =>
    refine ih ?_ h
    rw [Node.at?_append, hat, Option.bind_some, Node.at?_dir_cons, hchild]
    exact Node.at?_nil _

theorem dir?_eq_some {path : String} :
    d.dir? path = some (place, es) ↔ d.resolve path = .ok (place, .dir es) := by
  rw [dir?]
  split
  · next hresolve => simp [hresolve]
  · next hother =>
    constructor
    · nofun
    · intro hresolve
      exact absurd hresolve (hother place es)

theorem resolveFrom_eq_ok {start : Place} {path : String} :
    d.resolveFrom start path = .ok (place, node) ↔
      d.goalFrom start path = .ok (.found place node) := by
  rw [resolveFrom, bind_eq_ok]
  constructor
  · intro h
    obtain ⟨goal, hgoal, h⟩ := h
    cases goal with
    | found place' node' =>
      cases h
      exact hgoal
    | free dir name => cases h
  · intro h
    exact ⟨_, h, rfl⟩

theorem resolve_eq_ok {path : String} :
    d.resolve path = .ok (place, node) ↔ d.goalFrom d.cwd path = .ok (.found place node) :=
  resolveFrom_eq_ok

/-- What is found is what is at its place. -/
theorem at?_of_resolveFrom {start : Place} {path : String}
    (h : d.resolveFrom start path = .ok (place, node)) : d.root.at? place = some node := by
  have hgoal := resolveFrom_eq_ok.mp h
  simp only [goalFrom] at hgoal
  split at hgoal
  · cases hgoal
  · split at hgoal
    · next node hat => exact follow_at? hat hgoal
    · cases hgoal

theorem at?_of_dir? {path : String} (h : d.dir? path = some (place, es)) :
    d.root.at? place = some (.dir es) :=
  at?_of_resolveFrom (dir?_eq_some.mp h)

/-! ## Following names -/

theorem exists_dir_of_at? (h : node.at? names = some (.dir es)) : ∃ inner, node = .dir inner := by
  cases names with
  | nil =>
    rw [Node.at?_nil] at h
    exact ⟨es, Option.some.inj h⟩
  | cons n names =>
    obtain ⟨inner, -, hnode, -⟩ := Node.at?_cons_eq_some.mp h
    exact ⟨inner, hnode⟩

theorem follow_blank {s : String} (hs : s = "" ∨ s = ".") :
    d.follow links place (.dir es) (s :: rest) = d.follow links place (.dir es) rest := by
  rw [follow]
  simp [hs]

theorem follow_child {s : String} (hs : Path.part? s = some (.name s))
    (hchild : Node.child? s es = some x) (hlink : ∀ target, x ≠ .link target) :
    d.follow links place (.dir es) (s :: rest) = d.follow links (place ++ [s]) x rest := by
  obtain ⟨-, hempty, hdot, hdots⟩ := Path.part?_eq_some_name hs
  rw [follow]
  simp only [hempty, hdot, hdots, or_self, ↓reduceIte, hchild]

/-- Segments that say names lead to the directory at these names. -/
theorem follow_names (hsegs : segs.filterMap Path.part? = names.map .name)
    (hat : node.at? names = some (.dir es)) :
    d.follow links place node (segs ++ rest) =
      d.follow links (place ++ names) (.dir es) rest := by
  induction segs generalizing names node place with
  | nil =>
    obtain rfl : names = [] := List.map_eq_nil_iff.mp hsegs.symm
    rw [Node.at?_nil] at hat
    rw [Option.some.inj hat, List.nil_append, List.append_nil]
  | cons s segs ih =>
    obtain ⟨inner, rfl⟩ := exists_dir_of_at? hat
    cases hpart : Path.part? s with
    | none =>
      rw [List.filterMap_cons_none hpart] at hsegs
      rw [List.cons_append, follow_blank (Path.part?_eq_none hpart)]
      exact ih hsegs hat
    | some part =>
      rw [List.filterMap_cons_some hpart] at hsegs
      cases names with
      | nil => cases hsegs
      | cons n names =>
        obtain ⟨rfl, htail⟩ := List.cons.inj hsegs
        obtain ⟨rfl, -⟩ := Path.part?_eq_some_name hpart
        obtain ⟨_, next, heq, hchild, hnext⟩ := Node.at?_cons_eq_some.mp hat
        cases heq
        obtain ⟨_, rfl⟩ := exists_dir_of_at? hnext
        rw [List.cons_append, follow_child hpart hchild nofun, ih htail hnext, List.append_assoc]
        rfl

/-- On a tree without links, segments that say names lead nowhere else. -/
theorem at?_of_follow (hsegs : segs.filterMap Path.part? = names.map .name)
    (hlinks : node.linkFree = true) {goal : Place}
    (h : d.follow links place node segs = .ok (.found goal x)) :
    node.at? names = some x ∧ goal = place ++ names := by
  induction segs generalizing names node place with
  | nil =>
    obtain rfl : names = [] := List.map_eq_nil_iff.mp hsegs.symm
    rw [follow] at h
    cases h
    exact ⟨Node.at?_nil _, (List.append_nil _).symm⟩
  | cons s segs ih =>
    cases node with
    | file bytes => simp [follow] at h
    | link target => simp [follow] at h
    | dir es =>
      cases hpart : Path.part? s with
      | none =>
        rw [List.filterMap_cons_none hpart] at hsegs
        rw [follow_blank (Path.part?_eq_none hpart)] at h
        exact ih hsegs hlinks h
      | some part =>
        rw [List.filterMap_cons_some hpart] at hsegs
        cases names with
        | nil => cases hsegs
        | cons n names =>
          obtain ⟨rfl, htail⟩ := List.cons.inj hsegs
          obtain ⟨rfl, hempty, hdot, hdots⟩ := Path.part?_eq_some_name hpart
          cases hchild : Node.child? s es with
          | none =>
            rw [follow] at h
            simp only [hempty, hdot, hdots, or_self, ↓reduceIte, hchild] at h
            split at h <;> cases h
          | some next =>
            have hnext := Node.linkFree_dir.mp hlinks _ (Node.mem_of_child? hchild)
            have hlink : ∀ target, next ≠ .link target := by
              intro target heq
              subst heq
              cases hnext
            rw [follow_child hpart hchild hlink] at h
            obtain ⟨hat, hgoal⟩ := ih htail hnext h
            refine ⟨?_, ?_⟩
            · rw [Node.at?_dir_cons, hchild]
              exact hat
            · rw [hgoal, List.append_assoc]
              rfl

theorem goalFrom_of_absolute {path : String} (h : Path.isAbsolute path = true) (start : Place) :
    d.goalFrom start path = d.follow linkLimit [] d.root (Path.segments path) := by
  rw [goalFrom, if_neg (Path.ne_empty_of_isAbsolute h), if_pos h]
  simp only [Node.at?_nil]

/-! ## What a spelled path leads to -/

/-- A path behind one that spells the place of a directory goes on from that directory. -/
theorem goalFrom_join {path next : String} (hpath : Path.Spells path place)
    (hat : d.root.at? place = some (.dir es)) (hnext : Path.isAbsolute next = false)
    (start : Place) :
    d.goalFrom start (Path.join path next) =
      d.follow linkLimit place (.dir es) (Path.segments next) := by
  obtain ⟨before, hbefore, hcut⟩ := hpath.segments_join hnext
  rw [goalFrom_of_absolute (Path.isAbsolute_join_left hpath.absolute next), hcut,
    follow_names hbefore hat, List.nil_append]

theorem dir?_of_spells {path : String} (h : Path.Spells path place)
    (hat : d.root.at? place = some (.dir es)) : d.dir? path = some (place, es) := by
  rw [dir?_eq_some, resolve_eq_ok, goalFrom_of_absolute h.absolute,
    ← List.append_nil (Path.segments path), follow_names h.names hat, follow, List.nil_append]

/-- Below a directory without links, names lead to the directory at them, if there is one. -/
theorem dir?_join {path next : String} (hpath : Path.Spells path place)
    (hat : d.root.at? place = some (.dir es)) (hlinks : (Node.dir es).linkFree = true)
    (hnext : Path.isAbsolute next = false)
    (hnames : (Path.segments next).filterMap Path.part? = names.map .name) {goal : Place}
    {inner : List (String × Node)} :
    d.dir? (Path.join path next) = some (goal, inner) ↔
      (Node.dir es).at? names = some (.dir inner) ∧ goal = place ++ names := by
  constructor
  · intro h
    have hgoal := resolve_eq_ok.mp (dir?_eq_some.mp h)
    rw [goalFrom_join hpath hat hnext] at hgoal
    exact at?_of_follow hnames hlinks hgoal
  · intro h
    obtain ⟨hinner, rfl⟩ := h
    refine dir?_of_spells (hpath.join hnext hnames) ?_
    rw [Node.at?_append, hat]
    exact hinner

theorem read_join {path n : String} {bytes : Bytes} (hpath : Path.Spells path place)
    (hat : d.root.at? place = some (.dir es)) (hn : Path.isName n = true)
    (hchild : Node.child? n es = some (.file bytes)) :
    d.read (Path.join path n) = .ok bytes := by
  have hgoal : d.goalFrom d.cwd (Path.join path n) = .ok (.found (place ++ [n]) (.file bytes)) := by
    rw [goalFrom_join hpath hat (Path.isAbsolute_of_isName hn), Path.segments_of_isName hn,
      follow_child (Path.part?_of_isName hn) hchild nofun, follow]
  rw [read, resolve_eq_ok.mpr hgoal]
  rfl

/-- The file at names below a spelled directory is read by going on name by name. -/
theorem read_foldl_join {path : String} {bytes : Bytes} (hnamed : d.root.wellNamed = true)
    (hpath : Path.Spells path place) (hat : d.root.at? place = some (.dir es))
    (hfile : (Node.dir es).at? names = some (.file bytes)) :
    d.read (names.foldl Path.join path) = .ok bytes := by
  induction names generalizing path place es with
  | nil => cases hfile
  | cons n names ih =>
    obtain ⟨_, next, heq, hchild, hnext⟩ := Node.at?_cons_eq_some.mp hfile
    cases heq
    have hes := (Node.wellNamed_at? hnamed hat).1
    have hn := ((Node.wellNamed_dir.mp hes).2 _ (Node.mem_of_child? hchild)).1
    cases names with
    | nil =>
      rw [Node.at?_nil] at hnext
      cases hnext
      exact read_join hpath hat hn hchild
    | cons m names =>
      obtain ⟨inner, _, rfl, -⟩ := Node.at?_cons_eq_some.mp hnext
      refine ih (hpath.join_name hn) ?_ hnext
      rw [Node.at?_append, hat, Option.bind_some, Node.at?_dir_cons, hchild]
      exact Node.at?_nil _

end Disk
end StructuralRules
