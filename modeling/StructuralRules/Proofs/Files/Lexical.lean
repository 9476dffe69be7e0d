import StructuralRules.Proofs.Files.Paths

/-!
# What a path comes to

Dots can be resolved by the text of a path alone: a dot stays, and two dots leave
the last name, stay at the root, or are kept where there is nothing to leave. The
names by which a path goes on behind a base leave its dots out. They lead where
the path leads just when every `..` behind the base stands at the root.
-/

set_option autoImplicit false

namespace StructuralRules

namespace PathPart

/-- Goes on by one part. A way is listed with its innermost part first. -/
def follow (way : List PathPart) : PathPart → List PathPart
  | .here => way
  | .up =>
      match way with
      | .name _ :: outer => outer
      | .root :: _ => way
      | _ => .up :: way
  | p => p :: way

/-- Somewhere on the way by the parts, `..` stands elsewhere than at the root. -/
def Climbs (way parts : List PathPart) : Prop :=
  ∃ before behind, parts = before ++ .up :: behind ∧
    (before.foldl follow way).head? ≠ some .root

/-- How much deeper a way leads by one of its parts. -/
def rise : PathPart → Int
  | .name _ => 1
  | .up => -1
  | _ => 0

/-- How deep a way leads. -/
def depth : List PathPart → Int
  | [] => 0
  | p :: way => p.rise + depth way

/-- The names among the parts, as parts. -/
def names (parts : List PathPart) : List PathPart :=
  (parts.filterMap (·.name?)).map .name

variable {way parts : List PathPart} {p : PathPart}

theorem climbs_cons :
    Climbs way (p :: parts) ↔
      (p = .up ∧ way.head? ≠ some .root) ∨ Climbs (follow way p) parts := by
  constructor
  · intro h
    obtain ⟨before, behind, hparts, hhead⟩ := h
    cases before with
    | nil =>
      obtain ⟨rfl, -⟩ := List.cons.inj hparts
      exact .inl ⟨rfl, hhead⟩
    | cons q before =>
      obtain ⟨rfl, rfl⟩ := List.cons.inj hparts
      exact .inr ⟨before, behind, rfl, hhead⟩
  · intro h
    obtain ⟨rfl, hhead⟩ | ⟨before, behind, rfl, hhead⟩ := h
    · exact ⟨[], parts, rfl, hhead⟩
    · exact ⟨p :: before, behind, rfl, hhead⟩

theorem not_climbs_of_notMem (h : .up ∉ parts) : ¬ Climbs way parts := by
  intro hclimbs
  obtain ⟨before, behind, rfl, -⟩ := hclimbs
  simp at h

theorem not_climbs_nil : ¬ Climbs way [] :=
  not_climbs_of_notMem List.not_mem_nil

instance decidableClimbs : (way parts : List PathPart) → Decidable (Climbs way parts)
  | _, [] => .isFalse not_climbs_nil
  | way, p :: parts =>
      have : Decidable (Climbs (follow way p) parts) := decidableClimbs _ parts
      decidable_of_iff _ climbs_cons.symm

theorem climbs_append {parts' : List PathPart} :
    Climbs way (parts ++ parts') ↔ Climbs way parts ∨ Climbs (parts.foldl follow way) parts' := by
  induction parts generalizing way with
  | nil => simp [not_climbs_nil]
  | cons p parts ih =>
    rw [List.cons_append, climbs_cons, climbs_cons, ih, or_assoc, List.foldl_cons]

/-- At the root, `..` stays. -/
theorem follow_up_root (h : way.head? = some .root) : follow way .up = way := by
  obtain ⟨outer, rfl⟩ := List.head?_eq_some_iff.mp h
  rfl

theorem depth_follow_name (n : String) : depth (follow way (.name n)) = depth way + 1 := by
  simp only [follow, depth, rise]
  omega

/-- Elsewhere, `..` leaves a name or adds a step up. -/
theorem depth_follow_up (h : way.head? ≠ some .root) : depth (follow way .up) = depth way - 1 := by
  cases way with
  | nil => rfl
  | cons q way =>
    cases q with
    | root => exact absurd rfl h
    | here | up | name =>
      simp only [follow, depth, rise]
      omega

theorem foldl_names (ns : List String) :
    (ns.map .name).foldl follow way = (ns.map .name).reverse ++ way := by
  induction ns generalizing way with
  | nil => rfl
  | cons n ns ih =>
    rw [List.map_cons, List.foldl_cons, ih, List.reverse_cons, List.append_assoc]
    rfl

theorem depth_foldl_names (ns : List String) :
    depth ((ns.map .name).foldl follow way) = depth way + ns.length := by
  induction ns generalizing way with
  | nil => simp
  | cons n ns ih =>
    rw [List.map_cons, List.foldl_cons, ih, depth_follow_name, List.length_cons]
    omega

/-- Where the way does not climb, only its names lead on. -/
theorem foldl_of_not_climbs (hroot : .root ∉ parts) (h : ¬ Climbs way parts) :
    parts.foldl follow way = (names parts).foldl follow way := by
  induction parts generalizing way with
  | nil => rfl
  | cons p parts ih =>
    rw [List.mem_cons, not_or] at hroot
    rw [climbs_cons, not_or] at h
    have hrest := ih hroot.2 h.2
    rw [List.foldl_cons, hrest]
    cases p with
    | root => exact absurd rfl hroot.1
    | here => rfl
    | name n => rfl
    | up =>
      have hhead : way.head? = some .root := by
        by_contra hhead
        exact h.1 ⟨rfl, hhead⟩
      rw [follow_up_root hhead]
      rfl

/-- No way leads deeper than its names. -/
theorem depth_foldl_le (hroot : .root ∉ parts) :
    depth (parts.foldl follow way) ≤ depth way + (names parts).length := by
  induction parts generalizing way with
  | nil => simp [names]
  | cons p parts ih =>
    rw [List.mem_cons, not_or] at hroot
    have hrest : depth (parts.foldl follow (follow way p)) ≤ depth (follow way p) + _ := ih hroot.2
    rw [List.foldl_cons]
    cases p with
    | root => exact absurd rfl hroot.1
    | here => exact hrest
    | up =>
      have hnames : names (.up :: parts) = names parts := rfl
      rw [hnames]
      by_cases hhead : way.head? = some .root
      · rwa [follow_up_root hhead] at hrest ⊢
      · rw [depth_follow_up hhead] at hrest
        omega
    | name n =>
      have hnames : names (.name n :: parts) = .name n :: names parts := rfl
      rw [depth_follow_name] at hrest
      rw [hnames, List.length_cons]
      omega

/-- A way that climbs ends less deep than its names lead. -/
theorem depth_foldl_of_climbs (hroot : .root ∉ parts) (h : Climbs way parts) :
    depth (parts.foldl follow way) < depth ((names parts).foldl follow way) := by
  obtain ⟨before, behind, rfl, hhead⟩ := h
  rw [List.mem_append, List.mem_cons, not_or, not_or] at hroot
  have hbefore : depth (before.foldl follow way) ≤ _ := depth_foldl_le hroot.1
  have hup := depth_follow_up hhead
  have hbehind : depth (behind.foldl follow (follow (before.foldl follow way) .up)) ≤ _ :=
    depth_foldl_le hroot.2.2
  have hnames : names (before ++ .up :: behind) = names before ++ names behind := by
    simp only [names, List.filterMap_append, List.map_append]
    rfl
  rw [List.foldl_append, List.foldl_cons, hnames, List.foldl_append, names, names,
    depth_foldl_names, depth_foldl_names]
  rw [names, List.length_map] at hbefore hbehind
  omega

/-- Parts that do not climb are steps up at the root and then names. -/
theorem eq_ups_names_of_not_climbs (hroot : .root ∉ parts) (hhere : .here ∉ parts)
    (h : ¬ Climbs way parts) :
    ∃ (k : Nat) (ns : List String), parts = List.replicate k .up ++ ns.map .name ∧
      (way.head? ≠ some .root → k = 0) := by
  induction parts generalizing way with
  | nil => exact ⟨0, [], rfl, fun _ => rfl⟩
  | cons p parts ih =>
    rw [List.mem_cons, not_or] at hroot hhere
    rw [climbs_cons, not_or] at h
    obtain ⟨k, ns, rfl, hk⟩ := ih hroot.2 hhere.2 h.2
    cases p with
    | root => exact absurd rfl hroot.1
    | here => exact absurd rfl hhere.1
    | name n =>
      obtain rfl : k = 0 := hk nofun
      exact ⟨0, n :: ns, rfl, fun _ => rfl⟩
    | up =>
      refine ⟨k + 1, ns, rfl, fun hhead => ?_⟩
      exact absurd ⟨rfl, hhead⟩ h.1

theorem names_ups (k : Nat) (ns : List String) :
    names (List.replicate k .up ++ ns.map .name) = ns.map .name := by
  have hups : (List.replicate k PathPart.up).filterMap (·.name?) = [] := by
    rw [List.filterMap_eq_nil_iff]
    intro p hp
    rw [List.eq_of_mem_replicate hp]
    rfl
  rw [names, List.filterMap_append, hups, filterMap_name?]
  rfl

/-- A way up and on by names that ends in a name has this name as its last one. -/
theorem exists_front_of_concat {k : Nat} {n : String} {ns : List String}
    (h : parts ++ [.name n] = List.replicate k .up ++ ns.map .name) :
    ∃ front, ns = front ++ [n] ∧ parts = List.replicate k .up ++ front.map .name := by
  rcases List.eq_nil_or_concat ns with rfl | ⟨front, m, rfl⟩
  · have hmem : .name n ∈ List.replicate k PathPart.up := by
      rw [List.map_nil, List.append_nil] at h
      rw [← h]
      simp
    cases List.eq_of_mem_replicate hmem
  · rw [List.concat_eq_append, List.map_append, ← List.append_assoc] at h
    obtain ⟨hparts, hlast⟩ := List.append_inj' h rfl
    cases hlast
    exact ⟨front, List.concat_eq_append, hparts⟩

theorem root_mem_foldl (h : .root ∈ way) : .root ∈ parts.foldl follow way := by
  induction parts generalizing way with
  | nil => exact h
  | cons p parts ih =>
    apply ih
    cases p with
    | here => exact h
    | root | name => exact List.mem_cons_of_mem _ h
    | up =>
      cases way with
      | nil => cases h
      | cons q way =>
        cases q with
        | root => exact h
        | name n => exact (List.mem_cons.mp h).resolve_left nofun
        | here | up => exact List.mem_cons_of_mem _ h

end PathPart

namespace Path

/-- The way that a path takes, its dots resolved by the text alone. -/
def resolved (path : String) : List PathPart :=
  (parts path).foldl PathPart.follow []

/-- Behind the base, the path goes up from elsewhere than the root. -/
def Climbs (path base : String) : Prop :=
  ∃ rest, parts path = parts base ++ rest ∧ PathPart.Climbs (resolved base) rest

variable {path base r : String} {rest : List PathPart}

/-! ## Parts -/

theorem ne_of_part? {s : String} {p : PathPart} (h : part? s = some p) : p ≠ .root ∧ p ≠ .here := by
  unfold part? at h
  split at h
  all_goals cases h
  all_goals exact ⟨nofun, nofun⟩

/-- The root or a dot may stand in front of what the segments say. -/
theorem exists_front (path : String) :
    ∃ front segs, parts path = front ++ segs.filterMap part? ∧ segs ⊆ segments path ∧
      (isAbsolute path = true ∧ front = [.root] ∨
        isAbsolute path = false ∧ (front = [] ∨ front = [.here])) := by
  rw [parts]
  split
  · next habs => exact ⟨[.root], segments path, rfl, List.Subset.refl _, .inl ⟨habs, rfl⟩⟩
  · next habs =>
    have habs : isAbsolute path = false := by simpa using habs
    split
    · next rest hsegs =>
      rw [hsegs]
      exact ⟨[.here], rest, rfl, List.subset_cons_self _ _, .inr ⟨habs, .inr rfl⟩⟩
    · exact ⟨[], segments path, rfl, List.Subset.refl _, .inr ⟨habs, .inl rfl⟩⟩

theorem root_mem_parts : .root ∈ parts path ↔ isAbsolute path = true := by
  obtain ⟨front, segs, hparts, -, hfront⟩ := exists_front path
  have hsegs : .root ∉ segs.filterMap part? := by
    intro hroot
    obtain ⟨s, -, hs⟩ := List.mem_filterMap.mp hroot
    exact (ne_of_part? hs).1 rfl
  rw [hparts, List.mem_append, or_iff_left hsegs]
  obtain ⟨habs, rfl⟩ | ⟨habs, rfl | rfl⟩ := hfront
  all_goals simp [habs]

/-- The root and a dot stand first, if at all. -/
theorem ne_of_mem_tail {p : PathPart} (h : p ∈ (parts path).tail) : p ≠ .root ∧ p ≠ .here := by
  obtain ⟨front, segs, hparts, -, hfront⟩ := exists_front path
  have hsegs : p ∈ segs.filterMap part? := by
    rw [hparts] at h
    obtain ⟨-, rfl⟩ | ⟨-, rfl | rfl⟩ := hfront
    · exact h
    · exact List.mem_of_mem_tail h
    · exact h
  obtain ⟨s, -, hs⟩ := List.mem_filterMap.mp hsegs
  exact ne_of_part? hs

theorem isName_of_mem_parts {n : String} (h : .name n ∈ parts path) : isName n = true := by
  obtain ⟨front, segs, hparts, hsub, hfront⟩ := exists_front path
  have hsegs : .name n ∈ segs.filterMap part? := by
    rw [hparts, List.mem_append] at h
    refine h.resolve_left ?_
    obtain ⟨-, rfl⟩ | ⟨-, rfl | rfl⟩ := hfront
    all_goals simp
  obtain ⟨s, hs, hpart⟩ := List.mem_filterMap.mp hsegs
  obtain ⟨rfl, hempty, hdot, hdots⟩ := part?_eq_some_name hpart
  obtain ⟨t, ht, rfl⟩ := List.mem_map.mp (hsub hs)
  have hslash : '/' ∉ t := by
    intro hmem
    have hne : ('/' == '/') = false := Text.not_of_mem_splitBy ht _ hmem
    cases hne
  simp only [isName, Bool.and_eq_true, bne_iff_ne, ne_eq, Bool.not_eq_true', List.contains_eq_mem,
    String.toList_ofList, decide_eq_false_iff_not]
  exact ⟨⟨⟨hempty, hdot⟩, hdots⟩, hslash⟩

/-! ## What a relative path leaves out -/

theorem relative?_eq_some :
    relative? path base = some r ↔
      ∃ rest, parts path = parts base ++ rest ∧ r = "/".intercalate (rest.filterMap (·.name?)) := by
  rw [relative?]
  constructor
  · intro h
    split at h
    · next hprefix =>
      obtain ⟨rest, hrest⟩ := List.isPrefixOf_iff_prefix.mp hprefix
      rw [← hrest, List.drop_left] at h
      exact ⟨rest, hrest.symm, (Option.some.inj h).symm⟩
    · cases h
  · intro h
    obtain ⟨rest, hrest, rfl⟩ := h
    rw [hrest, if_pos (List.isPrefixOf_iff_prefix.mpr (List.prefix_append _ _)), List.drop_left]

/-- A relative path goes on behind the base by the names that the path goes on by. -/
theorem resolved_join (h : parts path = parts base ++ rest) :
    resolved (join base ("/".intercalate (rest.filterMap (·.name?)))) =
      (PathPart.names rest).foldl PathPart.follow (resolved base) := by
  have hnames : ∀ n ∈ rest.filterMap (·.name?), isName n = true := by
    intro n hn
    obtain ⟨p, hp, hname⟩ := List.mem_filterMap.mp hn
    cases p with
    | root | here | up => cases hname
    | name m =>
      cases hname
      have hmem : .name n ∈ parts path := by
        rw [h]
        exact List.mem_append_right _ hp
      exact isName_of_mem_parts hmem
  rw [resolved, parts_join_intercalate hnames, List.foldl_append]
  rfl

theorem climbs_iff (h : parts path = parts base ++ rest) :
    Climbs path base ↔ PathPart.Climbs (resolved base) rest := by
  constructor
  · intro hclimbs
    obtain ⟨rest', hrest, hclimbs⟩ := hclimbs
    rw [h] at hrest
    rwa [List.append_cancel_left hrest]
  · intro hclimbs
    exact ⟨rest, h, hclimbs⟩

instance (path base : String) : Decidable (Climbs path base) :=
  if h : (parts base).isPrefixOf (parts path) then
    decidable_of_iff
      (PathPart.Climbs (resolved base) ((parts path).drop (parts base).length)) (by
        obtain ⟨rest, hrest⟩ := List.isPrefixOf_iff_prefix.mp h
        rw [← hrest, List.drop_left, climbs_iff hrest.symm])
  else .isFalse (by
    intro hclimbs
    obtain ⟨rest, hrest, -⟩ := hclimbs
    exact h (List.isPrefixOf_iff_prefix.mpr ⟨rest, hrest.symm⟩))

theorem resolved_append (h : parts path = parts base ++ rest) :
    resolved path = rest.foldl PathPart.follow (resolved base) := by
  rw [resolved, h, List.foldl_append]
  rfl

theorem root_mem_resolved (h : isAbsolute path = true) : .root ∈ resolved path := by
  obtain ⟨front, segs, hparts, -, ⟨-, rfl⟩ | ⟨habs, -⟩⟩ := exists_front path
  · rw [resolved, hparts, List.foldl_append]
    exact PathPart.root_mem_foldl List.mem_cons_self
  · rw [habs] at h
    cases h

theorem parts_eq_nil_of_root (h : parts path = parts base ++ rest) (hroot : .root ∈ rest) :
    parts base = [] := by
  cases hparts : parts base with
  | nil => rfl
  | cons p before =>
    rw [hparts] at h
    have htail : .root ∈ (parts path).tail := by
      rw [h]
      exact List.mem_append_right before hroot
    exact absurd rfl (ne_of_mem_tail htail).1

/-- Behind a base that says nothing, an absolute path loses its root. -/
theorem resolved_ne_of_root (h : parts path = parts base ++ rest) (hroot : .root ∈ rest) :
    (PathPart.names rest).foldl PathPart.follow (resolved base) ≠ resolved path ∧
      isAbsolute path ≠ isAbsolute base := by
  have hbase := parts_eq_nil_of_root h hroot
  have habs : isAbsolute path = true := by
    rw [← root_mem_parts, h]
    exact List.mem_append_right _ hroot
  constructor
  · intro heq
    have hmem := root_mem_resolved habs
    rw [← heq, resolved, hbase, PathPart.names, PathPart.foldl_names] at hmem
    simp at hmem
  · intro heq
    rw [habs] at heq
    have hmem := root_mem_parts.mpr heq.symm
    rw [hbase] at hmem
    cases hmem

/-- A path that goes on behind a base and does not climb comes to a place below the base. -/
theorem resolved_suffix (h : relative? path base = some r) (hclimbs : ¬ Climbs path base) :
    resolved base <:+ resolved path := by
  obtain ⟨rest, hrest, -⟩ := relative?_eq_some.mp h
  by_cases hroot : .root ∈ rest
  · rw [resolved, parts_eq_nil_of_root hrest hroot]
    exact List.nil_suffix
  · rw [climbs_iff hrest] at hclimbs
    rw [resolved_append hrest, PathPart.foldl_of_not_climbs hroot hclimbs, PathPart.names,
      PathPart.foldl_names]
    exact List.suffix_append _ _

/-- Joining a relative path to the base leads back to what the path comes to just when the path does
not climb: what a step up takes away behind the base is given back nowhere. -/
theorem resolved_join_eq_iff (h : relative? path base = some r) :
    resolved (join base r) = resolved path ↔
      isAbsolute path = isAbsolute base ∧ ¬ Climbs path base := by
  obtain ⟨rest, hrest, rfl⟩ := relative?_eq_some.mp h
  rw [resolved_join hrest, climbs_iff hrest]
  by_cases hroot : .root ∈ rest
  · obtain ⟨hne, habs⟩ := resolved_ne_of_root hrest hroot
    exact ⟨fun heq => absurd heq hne, fun hboth => absurd hboth.1 habs⟩
  · have habs : isAbsolute path = isAbsolute base := by
      rw [Bool.eq_iff_iff, ← root_mem_parts, ← root_mem_parts, hrest, List.mem_append,
        or_iff_left hroot]
    rw [resolved_append hrest]
    constructor
    · intro heq
      refine ⟨habs, fun hclimbs => ?_⟩
      have hdepth := PathPart.depth_foldl_of_climbs hroot hclimbs
      rw [heq] at hdepth
      exact absurd hdepth (Int.lt_irrefl _)
    · intro hboth
      exact (PathPart.foldl_of_not_climbs hroot hboth.2).symm

/-- Nothing is above the root, so that is no place to climb to. -/
example : ¬ Climbs "/../a.c" "/" ∧ Climbs "/b/../a.c" "/b" := by decide +kernel

end Path
end StructuralRules
