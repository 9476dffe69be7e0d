import StructuralRules.Proofs.Files.Lexical
import StructuralRules.Proofs.Files.Resolution

/-!
# Level paths

Segments that say nothing change where a path leads only at its end, and at the
root there is nowhere to go up to. So what is read at an absolute path that ends
in a name and never climbs depends only on what the path comes to.
-/

set_option autoImplicit false

namespace StructuralRules

/-! ## Segments that say nothing -/

/-- The same segments, but for some that say nothing and are not the last. -/
inductive Thinned : List String → List String → Prop where
  | nil : Thinned [] []
  | keep (s : String) {segs segs' : List String} (h : Thinned segs segs') :
      Thinned (s :: segs) (s :: segs')
  | drop {s : String} {segs segs' : List String} (hs : s = "" ∨ s = ".") (hne : segs ≠ [])
      (h : Thinned segs segs') : Thinned (s :: segs) segs'

namespace Thinned

variable {segs segs' : List String}

theorem refl (segs : List String) : Thinned segs segs := by
  induction segs with
  | nil => exact .nil
  | cons s segs ih => exact .keep s ih

theorem append_left (before : List String) (h : Thinned segs segs') :
    Thinned (before ++ segs) (before ++ segs') := by
  induction before with
  | nil => exact h
  | cons s before ih => exact .keep s ih

theorem eq_nil_iff (h : Thinned segs segs') : segs' = [] ↔ segs = [] := by
  induction h with
  | nil => simp
  | keep s h ih => simp
  | drop hs hne h ih => simp [ih, hne]

theorem exists_keep {s : String} (hs : ¬ (s = "" ∨ s = ".")) (h : Thinned (s :: segs) segs') :
    ∃ rest, segs' = s :: rest ∧ Thinned segs rest := by
  cases h with
  | keep _ h => exact ⟨_, rfl, h⟩
  | drop hblank hne h => exact absurd hblank hs

/-- Before a name, all that the names do not say can be dropped. -/
theorem of_names {before : List String} {names : Place} (last : String)
    (h : before.filterMap Path.part? = names.map .name) :
    Thinned (before ++ [last]) (names ++ [last]) := by
  induction before generalizing names with
  | nil =>
    obtain rfl : names = [] := List.map_eq_nil_iff.mp h.symm
    exact .refl _
  | cons s before ih =>
    cases hpart : Path.part? s with
    | none =>
      rw [List.filterMap_cons_none hpart] at h
      exact .drop (Path.part?_eq_none hpart) (by simp) (ih h)
    | some part =>
      rw [List.filterMap_cons_some hpart] at h
      cases names with
      | nil => cases h
      | cons n names =>
        obtain ⟨rfl, htail⟩ := List.cons.inj h
        obtain ⟨rfl, -⟩ := Path.part?_eq_some_name hpart
        exact .keep s (ih htail)

end Thinned

namespace Disk

variable {d : Disk} {links : Nat} {place names : Place} {node : Node} {segs segs' : List String}
  {es : List (String × Node)}

/-- A way is the same without segments that say nothing before its end. -/
theorem follow_thinned (h : Thinned segs segs') :
    d.follow links place node segs = d.follow links place node segs' := by
  fun_induction follow d links place node segs generalizing segs' with
  | case1 links place node =>
    cases h
    rw [follow]
  | case2 links place s rest es hblank ih =>
    cases h with
    | keep _ h => rw [follow_blank hblank, ih h]
    | drop hs hne h => exact ih h
  | case3 links place rest es hblank ih =>
    obtain ⟨rest', rfl, hrest⟩ := h.exists_keep hblank
    rw [follow, if_neg hblank, if_pos rfl, ih hrest]
  | case4 links place s rest es hblank hup hchild hempty =>
    obtain ⟨rest', rfl, hrest⟩ := h.exists_keep hblank
    have hempty' : rest'.isEmpty = true := by simpa [hrest.eq_nil_iff] using hempty
    rw [follow, if_neg hblank, if_neg hup, hchild, hempty', if_pos rfl]
  | case5 links place s rest es hblank hup hchild hempty =>
    obtain ⟨rest', rfl, hrest⟩ := h.exists_keep hblank
    have hempty' : ¬ rest'.isEmpty = true := by simpa [hrest.eq_nil_iff] using hempty
    simp only [follow, if_neg hblank, if_neg hup, hchild, if_neg hempty']
  | case6 place s rest es hblank hup target hchild =>
    obtain ⟨rest', rfl, hrest⟩ := h.exists_keep hblank
    simp only [follow, if_neg hblank, if_neg hup, hchild]
  | case7 place s rest es hblank hup target hchild n steps habs =>
    rename_i ih
    obtain ⟨rest', rfl, hrest⟩ := h.exists_keep hblank
    rw [follow, if_neg hblank, if_neg hup, hchild]
    simp only [habs, ↓reduceIte]
    exact ih (hrest.append_left _)
  | case8 place s rest es hblank hup target hchild n steps habs =>
    rename_i ih
    obtain ⟨rest', rfl, hrest⟩ := h.exists_keep hblank
    rw [follow, if_neg hblank, if_neg hup, hchild]
    simp only [habs]
    exact ih (hrest.append_left _)
  | case9 links place s rest es hblank hup next hlink hchild ih =>
    obtain ⟨rest', rfl, hrest⟩ := h.exists_keep hblank
    rw [follow, if_neg hblank, if_neg hup, hchild]
    simp only
    exact ih hrest
  | case10 links place node s rest hdir =>
    obtain ⟨s', rest', rfl⟩ := List.exists_cons_of_ne_nil (mt h.eq_nil_iff.mp (by simp))
    rw [follow]
    exact hdir

theorem follow_up {rest : List String} :
    d.follow links place (.dir es) (".." :: rest) =
      d.follow links place.dropLast ((d.root.at? place.dropLast).getD (.dir es)) rest := by
  rw [follow, if_neg (by decide), if_pos rfl]

theorem follow_up_root {rest : List String} (hroot : d.root = .dir es) :
    d.follow links [] d.root (".." :: rest) = d.follow links [] d.root rest := by
  conv_lhs => rw [hroot, follow_up, List.dropLast_nil, Node.at?_nil, Option.getD_some]

/-- From the root, only the names count: there is nowhere to go up to. -/
theorem follow_ups_names (hroot : d.root = .dir es) {before : List String} {k : Nat} (last : String)
    (h : before.filterMap Path.part? = List.replicate k .up ++ names.map .name) :
    d.follow links [] d.root (before ++ [last]) = d.follow links [] d.root (names ++ [last]) := by
  induction before generalizing k with
  | nil =>
    obtain ⟨-, hnames⟩ := List.append_eq_nil_iff.mp h.symm
    rw [List.map_eq_nil_iff.mp hnames]
  | cons s before ih =>
    rw [List.cons_append]
    cases hpart : Path.part? s with
    | none =>
      rw [List.filterMap_cons_none hpart] at h
      rw [hroot, follow_blank (Path.part?_eq_none hpart), ← hroot]
      exact ih h
    | some part =>
      cases k with
      | zero => exact follow_thinned (Thinned.of_names last h)
      | succ k =>
        rw [List.filterMap_cons_some hpart, List.replicate_succ, List.cons_append] at h
        obtain ⟨rfl, hrest⟩ := List.cons.inj h
        rw [Path.part?_eq_some_up hpart, follow_up_root hroot]
        exact ih hrest

theorem read_congr {path path' : String} (h : d.goalFrom d.cwd path = d.goalFrom d.cwd path') :
    d.read path = d.read path' := by
  rw [read, read, resolve, resolve, resolveFrom, resolveFrom, h]

end Disk

namespace Path

/-- An absolute path that ends in a name and goes up nowhere but at the root. -/
structure Level (path : String) : Prop where
  ends : ∃ dir n, isAbsolute dir = true ∧ isName n = true ∧ path = join dir n
  level : ¬ PathPart.Climbs [] (parts path)

variable {path path' : String} {d : Disk} {es : List (String × Node)}

theorem parts_join_name {n : String} (hne : path ≠ "") (hn : isName n = true) :
    parts (join path n) = parts path ++ [.name n] := by
  rw [parts_join hne (isAbsolute_of_isName hn), segments_of_isName hn, List.filterMap_cons,
    part?_of_isName hn]
  rfl

theorem Level.isAbsolute (h : Level path) : isAbsolute path = true := by
  obtain ⟨dir, n, habs, -, rfl⟩ := h.ends
  exact isAbsolute_join_left habs n

/-- Behind the root, a level path may go up in vain, and then it goes on by names. -/
theorem Level.exists_segments (h : Level path) :
    ∃ before k, ∃ (names : Place) (last : String), segments path = before ++ [last] ∧
      before.filterMap part? = List.replicate k .up ++ names.map .name ∧
      resolved path = ((names ++ [last]).map .name).reverse ++ [.root] := by
  have habs' := h.isAbsolute
  obtain ⟨dir, n, habs, hn, rfl⟩ := h.ends
  obtain ⟨s, before, blanks, -, -, hsegs⟩ :=
    segments_join (ne_empty_of_isAbsolute habs) (isAbsolute_of_isName hn)
  rw [segments_of_isName hn] at hsegs
  generalize s :: before = before at hsegs
  have hparts : parts (join dir n) = .root :: (before.filterMap part? ++ [.name n]) := by
    rw [parts, habs', hsegs, List.filterMap_append, List.filterMap_cons (l := []),
      part?_of_isName hn]
    rfl
  have htail : ∀ p ∈ before.filterMap part? ++ [.name n], p ≠ .root ∧ p ≠ .here := by
    intro p hp
    have hmem : p ∈ (parts (join dir n)).tail := by rwa [hparts]
    exact ne_of_mem_tail hmem
  have hroot : .root ∉ before.filterMap part? ++ [.name n] := fun hp => (htail _ hp).1 rfl
  have hhere : .here ∉ before.filterMap part? ++ [.name n] := fun hp => (htail _ hp).2 rfl
  have hlevel := h.level
  rw [hparts, PathPart.climbs_cons, not_or] at hlevel
  obtain ⟨k, names, hups, -⟩ := PathPart.eq_ups_names_of_not_climbs hroot hhere hlevel.2
  obtain ⟨front, rfl, hfront⟩ := PathPart.exists_front_of_concat hups
  refine ⟨before, k, front, n, hsegs, hfront, ?_⟩
  rw [resolved, hparts, List.foldl_cons, PathPart.foldl_of_not_climbs hroot hlevel.2, hups,
    PathPart.names_ups, PathPart.foldl_names]
  rfl

/-- What is read at a level path is decided by what the path comes to. -/
theorem Level.read_eq (hroot : d.root = .dir es) (h : Level path) (h' : Level path')
    (heq : resolved path = resolved path') : d.read path = d.read path' := by
  obtain ⟨before, k, names, last, hsegs, hups, hresolved⟩ := h.exists_segments
  obtain ⟨before', k', names', last', hsegs', hups', hresolved'⟩ := h'.exists_segments
  have hnames : names ++ [last] = names' ++ [last'] := by
    rw [hresolved, hresolved', List.append_cancel_right_eq, List.reverse_inj] at heq
    exact List.map_injective_iff.mpr (fun _ _ => PathPart.name.inj) heq
  apply Disk.read_congr
  rw [Disk.goalFrom_of_absolute h.isAbsolute, Disk.goalFrom_of_absolute h'.isAbsolute, hsegs,
    hsegs', Disk.follow_ups_names hroot last hups, Disk.follow_ups_names hroot last' hups', hnames]

end Path
end StructuralRules
