import StructuralRules.Proofs.Source.MemberLines

/-!
# Items of an enum

The items of an enum are the pieces of its masked body between the commas outside
all brackets. They are read row by row, and each row is cut at its own commas as
if no bracket were open and no item begun in front of it. `Text.Fresh` says that
an item begins behind a text: a comma outside all brackets, or nothing, and then
blanks. A name that leads an item of a row leads an item of the body at its place
just when its place is fresh.
-/

set_option autoImplicit false

namespace StructuralRules

open Text

namespace Text

/-! ## Items and what they begin with -/

/-- The item begins with the identifier, blanks aside. -/
def Leads (item name : Text) : Prop :=
  isIdentifier name = true ∧ ∃ rest, trimStart item = name ++ rest ∧ StartsApart rest

/-- Behind `x`, the list `m` has a whole identifier, and an item begins with it. -/
inductive LeadsAt (m x name : Text) : Prop
  | intro {k : Nat} {u p v gap rest : Text} (list_eq : m = u ++ (p ++ v))
      (item : ArgumentAt k u p v) (item_eq : p = gap ++ (name ++ rest)) (place_eq : x = u ++ gap)
      (blank : ∀ c ∈ gap, isBlank c = true) (identifier : isIdentifier name = true)
      (apart : StartsApart rest)

/-- Behind `x` an item begins: blanks stand behind a comma outside all brackets, or behind
nothing. -/
def Fresh (x : Text) : Prop :=
  ∃ u gap, x = u ++ gap ∧ (∀ c ∈ gap, isBlank c = true) ∧
    (u = [] ∨ ∃ q, u = q ++ [','] ∧ nesting 0 q = 0)

theorem nesting_of_blank {gap : Text} (h : ∀ c ∈ gap, isBlank c = true) (depth : Nat) :
    nesting depth gap = depth := by
  induction gap generalizing depth with
  | nil => rfl
  | cons c gap ih =>
    obtain ⟨hc, hgap⟩ := List.forall_mem_cons.mp h
    have hstep : nestAfter depth c = depth := by
      rw [nestAfter, if_neg, if_neg]
      · rintro (rfl | rfl | rfl) <;> cases hc
      · rintro (rfl | rfl | rfl) <;> cases hc
    show nesting (nestAfter depth c) gap = depth
    rw [hstep, ih hgap]

theorem startsApart_of_blank {gap : Text} (h : ∀ c ∈ gap, isBlank c = true) : StartsApart gap :=
  fun c hc => isIdentChar_of_isBlank (h c (List.mem_of_mem_head? hc))

section Items

variable {k : Nat} {u p v m x y name : Text}

/-- In front of an item stands a comma outside all brackets, or nothing. -/
theorem ArgumentAt.front (h : ArgumentAt k u p v) :
    u = [] ∨ ∃ q, u = q ++ [','] ∧ nesting 0 q = 0 := by
  induction h with
  | only => exact Or.inl rfl
  | first => exact Or.inl rfl
  | @later q k u p v _ hzero _ ih =>
    obtain rfl | ⟨q', rfl, hq'⟩ := ih
    · exact Or.inr ⟨q, rfl, hzero⟩
    · refine Or.inr ⟨q ++ ',' :: q', by simp, ?_⟩
      rw [nesting_append, hzero]
      exact hq'

/-- Behind an item stands a comma, or nothing. -/
theorem ArgumentAt.behind (h : ArgumentAt k u p v) : v = [] ∨ ∃ r, v = ',' :: r := by
  induction h with
  | only => exact Or.inl rfl
  | first v => exact Or.inr ⟨v, rfl⟩
  | later _ _ _ ih => exact ih

/-- The first item of a list stands at its front. -/
theorem exists_first_argumentAt (r : Text) : ∃ p v, r = p ++ v ∧ ArgumentAt 0 [] p v := by
  obtain hwhole | ⟨q, r, rfl, hq, hzero⟩ := unbroken_or_exists_comma 0 r
  · exact ⟨r, [], (List.append_nil r).symm, .only hwhole⟩
  · exact ⟨q, ',' :: r, rfl, .first r hq hzero⟩

/-- Behind a comma outside all brackets an item begins. -/
theorem exists_argumentAt_behind {q : Text} (hzero : nesting 0 q = 0) (r : Text) :
    ∃ k p v, r = p ++ v ∧ ArgumentAt k (q ++ [',']) p v := by
  -- The first comma outside all brackets ends an item of `q`, and less of `q` is behind it.
  induction hn : q.length using Nat.strong_induction_on generalizing q with
  | _ n ih =>
    obtain hwhole | ⟨q₁, q₂, rfl, hq₁, hzero₁⟩ := unbroken_or_exists_comma 0 q
    · obtain ⟨p, v, hr, hat⟩ := exists_first_argumentAt r
      exact ⟨1, p, v, hr, .later hwhole hzero hat⟩
    · have hzero₂ : nesting 0 q₂ = 0 := by
        rw [nesting_append, hzero₁] at hzero
        exact hzero
      have hshorter : q₂.length < n := by
        rw [← hn, List.length_append, List.length_cons]
        omega
      obtain ⟨k, p, v, hr, hat⟩ := ih _ hshorter hzero₂ rfl
      refine ⟨k + 1, p, v, hr, ?_⟩
      rw [List.append_assoc, List.cons_append]
      exact .later hq₁ hzero₁ hat

theorem exists_argumentAt_of_front (h : u = [] ∨ ∃ q, u = q ++ [','] ∧ nesting 0 q = 0)
    (r : Text) : ∃ k p v, r = p ++ v ∧ ArgumentAt k u p v := by
  obtain rfl | ⟨q, rfl, hzero⟩ := h
  · obtain ⟨p, v, hr, hat⟩ := exists_first_argumentAt r
    exact ⟨0, p, v, hr, hat⟩
  · exact exists_argumentAt_behind hzero r

/-- An item that begins with a text without commas goes on behind it. -/
theorem ArgumentAt.exists_rest_of_not_mem (h : ArgumentAt k u p v) (hx : ',' ∉ x)
    (hcut : p ++ v = x ++ y) : ∃ rest, p = x ++ rest ∧ y = rest ++ v := by
  obtain ⟨z, hz, hv⟩ | ⟨z, hp, hy⟩ := List.append_eq_append_iff.mp hcut
  · -- The text would reach beyond the item, to the comma behind it.
    cases z with
    | nil => exact ⟨[], by simpa using hz.symm, by simpa using hv.symm⟩
    | cons c z =>
      obtain hnil | ⟨r, hcomma⟩ := h.behind
      · rw [hnil] at hv
        cases hv
      · obtain ⟨rfl, -⟩ := List.cons.inj (hcomma.symm.trans hv)
        exact absurd (by rw [hz]; simp) hx
  · exact ⟨z, hp, hy⟩

theorem comma_not_mem {gap : Text} (hblank : ∀ c ∈ gap, isBlank c = true)
    (hname : isIdentifier name = true) : ',' ∉ gap ++ name := by
  intro hmem
  obtain hgap | hident := List.mem_append.mp hmem
  · have hc := hblank _ hgap
    cases hc
  · have hc := isIdentChar_of_isIdentifier hname hident
    cases hc

/-- **A whole identifier of a list leads an item just when its place is fresh.** -/
theorem leadsAt_iff (hm : m = x ++ (name ++ y)) (hname : isIdentifier name = true)
    (hy : StartsApart y) : LeadsAt m x name ↔ Fresh x := by
  constructor
  · rintro ⟨-, hat, -, rfl, hblank, -, -⟩
    exact ⟨_, _, rfl, hblank, hat.front⟩
  · rintro ⟨u, gap, rfl, hblank, hfront⟩
    obtain ⟨k, p, v, hr, hat⟩ := exists_argumentAt_of_front hfront (gap ++ (name ++ y))
    obtain ⟨rest, rfl, rfl⟩ := hat.exists_rest_of_not_mem (x := gap ++ name) (y := y)
      (comma_not_mem hblank hname) (by rw [← hr, List.append_assoc])
    have hrest : StartsApart rest := StartsApart.of_append hy
    refine .intro ?_ hat (List.append_assoc _ _ _) rfl hblank hname hrest
    rw [hm]
    simp

theorem isBlank_of_isIdentChar {c : Char} (h : isIdentChar c = true) : isBlank c = false := by
  by_contra hblank
  rw [isIdentChar_of_isBlank (Bool.not_eq_false _ ▸ hblank)] at h
  cases h

theorem leads_of_gap {gap rest : Text} (hblank : ∀ c ∈ gap, isBlank c = true)
    (hname : isIdentifier name = true) (hrest : StartsApart rest) :
    Leads (gap ++ (name ++ rest)) name := by
  refine ⟨hname, rest, ?_, hrest⟩
  rw [trimStart, List.dropWhile_append_of_pos hblank]
  cases name with
  | nil => cases hname
  | cons c name =>
    have hc := isBlank_of_isIdentChar (isIdentChar_of_isIdentifier hname List.mem_cons_self)
    rw [List.cons_append, List.dropWhile_cons_of_neg (by simp [hc])]

/-- A name that leads an item at its place leads one of the pieces of the list. -/
theorem LeadsAt.exists_piece (h : LeadsAt m x name) :
    ∃ item ∈ topLevelPieces m m, Leads item name := by
  obtain ⟨hm, hat, hitem, -, hblank, hname, hrest⟩ := h
  refine ⟨_, List.mem_of_getElem? ((topLevelPieces_getElem?_iff (Blanked.refl m)).mpr
    ⟨_, _, _, _, _, hm, hat, hm, .refl _, .refl _, .refl _⟩), ?_⟩
  rw [hitem]
  exact leads_of_gap hblank hname hrest

/-- What is fresh within a text is fresh behind what is fresh. -/
theorem Fresh.append (hx : Fresh x) (hy : Fresh y) : Fresh (x ++ y) := by
  obtain ⟨u, gap, rfl, hgap, hu⟩ := hx
  obtain ⟨u', gap', rfl, hgap', hu'⟩ := hy
  obtain rfl | ⟨q', rfl, hq'⟩ := hu'
  · refine ⟨u, gap ++ gap', by simp, List.forall_mem_append.mpr ⟨hgap, hgap'⟩, hu⟩
  · refine ⟨u ++ (gap ++ (q' ++ [','])), gap', by simp, hgap',
      Or.inr ⟨u ++ (gap ++ q'), by simp, ?_⟩⟩
    have hfront : nesting 0 u = 0 := by
      obtain rfl | ⟨q, rfl, hq⟩ := hu
      · rfl
      · rw [nesting_append, hq]
        rfl
    rw [nesting_append, nesting_append, hfront, nesting_of_blank hgap, hq']

/-- Whether an item begins is told by what stands before the blanks. -/
theorem fresh_iff : Fresh x ↔ trimEnd x = [] ∨
    (trimEnd x).getLast? = some ',' ∧ nesting 0 (trimEnd x).dropLast = 0 := by
  constructor
  · rintro ⟨u, gap, rfl, hblank, rfl | ⟨q, rfl, hzero⟩⟩
    · exact Or.inl (trimEnd_append_blank [] hblank)
    · have hcore : trimEnd (q ++ [',']) = q ++ [','] := by
        rw [trimEnd, List.reverse_append]
        simp [isBlank]
      rw [trimEnd_append_blank _ hblank, hcore]
      exact Or.inr ⟨by simp, by simpa using hzero⟩
  · obtain ⟨gap, hx, hblank⟩ := exists_trimEnd x
    rintro (hnil | ⟨hlast, hzero⟩)
    · exact ⟨trimEnd x, gap, hx, hblank, Or.inl hnil⟩
    · obtain ⟨q, hq⟩ := List.getLast?_eq_some_iff.mp hlast
      rw [hq, List.dropLast_concat] at hzero
      exact ⟨trimEnd x, gap, hx, hblank, Or.inr ⟨q, hq, hzero⟩⟩

instance : Decidable (Fresh x) :=
  decidable_of_iff _ fresh_iff.symm

end Items

/-! ## Rows -/

theorem eq_nil_of_rows_eq_nil {t : Text} (h : rows t = []) : t = [] := by
  fun_induction rows t with
  | case1 => rfl
  | case2 => cases h
  | case3 => cases h
  | case4 => cases h
  | case5 => cases h

theorem row_apart {t row : Text} {rest : List Text} (h : rows t = row :: rest) :
    ∃ v, t = row ++ v ∧ StartsApart v := by
  fun_induction rows t generalizing row rest with
  | case1 => cases h
  | case2 t =>
    obtain rfl := (List.cons.inj h).1
    exact ⟨'\n' :: t, rfl, startsApart_cons rfl t⟩
  | case3 t =>
    obtain rfl := (List.cons.inj h).1
    exact ⟨'\r' :: '\n' :: t, rfl, startsApart_cons rfl _⟩
  | case4 c t _ _ hrows =>
    obtain rfl := (List.cons.inj h).1
    obtain rfl := eq_nil_of_rows_eq_nil hrows
    exact ⟨[], rfl, startsApart_nil⟩
  | case5 c t _ _ p ps hrows ih =>
    obtain ⟨v, hv, hapart⟩ := ih hrows
    obtain rfl := (List.cons.inj h).1
    exact ⟨v, by rw [hv, List.cons_append], hapart⟩

/-- The text is empty or ends in a line end. -/
def EndsLine (u : Text) : Prop :=
  u = [] ∨ ∃ w, u = w ++ ['\n']

theorem EndsLine.append {e u : Text} (he : EndsLine e) (hu : EndsLine u) : EndsLine (e ++ u) := by
  obtain rfl | ⟨w, rfl⟩ := hu
  · rwa [List.append_nil]
  · exact Or.inr ⟨e ++ w, (List.append_assoc e w _).symm⟩

/-- In `t` the row is the first one behind `i` line ends. -/
def RowBehind (t row : Text) (i : Nat) : Prop :=
  ∃ u t' rest, t = u ++ t' ∧ rows t' = row :: rest ∧ newlines u = i ∧ EndsLine u

theorem rowBehind_zero {t row : Text} (h : (rows t)[0]? = some row) : RowBehind t row 0 := by
  obtain ⟨rest, hrows⟩ := List.head?_eq_some_iff.mp (List.head?_eq_getElem?.trans h)
  exact ⟨[], t, rest, rfl, hrows, rfl, Or.inl rfl⟩

/-- A line end in front of the text brings each row one further. -/
theorem RowBehind.behind_line {t row e : Text} {i : Nat} (h : RowBehind t row i)
    (he : EndsLine e) (hone : newlines e = 1) : RowBehind (e ++ t) row (i + 1) := by
  obtain ⟨u, t', rest, rfl, hrows, hcount, hend⟩ := h
  refine ⟨e ++ u, t', rest, (List.append_assoc _ _ _).symm, hrows, ?_, he.append hend⟩
  rw [newlines, List.count_append, ← newlines, ← newlines, hone, hcount, Nat.add_comm]

/-- A character in front of the text is on its first row, and brings no row further. -/
theorem RowBehind.behind_char {t row : Text} {d : Char} {i : Nat} (h : RowBehind t row (i + 1))
    (hd : d ≠ '\n') : RowBehind (d :: t) row (i + 1) := by
  obtain ⟨u, t', rest, rfl, hrows, hcount, rfl | ⟨w, rfl⟩⟩ := h
  · cases hcount
  · refine ⟨d :: (w ++ ['\n']), t', rest, rfl, hrows, ?_, Or.inr ⟨d :: w, rfl⟩⟩
    rw [newlines, List.count_cons_of_ne hd, ← newlines, hcount]

theorem rowBehind_of_later {t row : Text} {i : Nat} (h : (rows t)[i]? = some row)
    (later : ∀ i, (rows t)[i + 1]? = some row → RowBehind t row (i + 1)) : RowBehind t row i := by
  cases i with
  | zero => exact rowBehind_zero h
  | succ i => exact later i h

/-- A row is the first one behind the line ends in front of it. -/
theorem rowBehind_of_getElem? {t row : Text} {i : Nat} (h : (rows t)[i]? = some row) :
    RowBehind t row i := by
  refine rowBehind_of_later h ?_
  clear h
  intro i h
  -- The first row of the text begins in front of its first character and is left out here.
  fun_induction rows t generalizing i with
  | case1 => simp at h
  | case2 t ih =>
    exact (rowBehind_of_later h ih).behind_line (e := ['\n']) (Or.inr ⟨[], rfl⟩) rfl
  | case3 t ih =>
    exact (rowBehind_of_later h ih).behind_line (e := ['\r', '\n']) (Or.inr ⟨['\r'], rfl⟩) rfl
  | case4 d t hnewline hreturn hrows => simp at h
  | case5 d t hnewline hreturn p ps hrows ih =>
    exact (ih i (by rwa [hrows])).behind_char fun hd => hnewline hd

/-! ## Names that a row gives -/

/-- The name in front of the equals sign of an item leads the item. -/
theorem exists_gap_of_name {p name : Text}
    (h : trim ((trim p).takeWhile (· != '=')) = name) : ∃ gap rest, p = gap ++ (name ++ rest) ∧
      (∀ c ∈ gap, isBlank c = true) ∧ StartsApart rest := by
  obtain ⟨gap, gap', hp, hblank, hblank'⟩ := exists_trim p
  obtain ⟨inner, inner', hfront, hinner, hinner'⟩ := exists_trim ((trim p).takeWhile (· != '='))
  rw [h] at hfront
  have htail : StartsApart ((trim p).dropWhile (· != '=')) := by
    intro c hc
    have hequals := List.head?_dropWhile_not (· != '=') (trim p)
    rw [hc] at hequals
    have hc : c = '=' := by simpa using hequals
    rw [hc]
    rfl
  refine ⟨gap ++ inner, inner' ++ ((trim p).dropWhile (· != '=') ++ gap'), ?_,
    List.forall_mem_append.mpr ⟨hblank, hinner⟩, ?_⟩
  · calc p = gap ++ (trim p ++ gap') := hp
      _ = gap ++ (((trim p).takeWhile (· != '=') ++ (trim p).dropWhile (· != '=')) ++ gap') := by
          rw [List.takeWhile_append_dropWhile]
      _ = _ := by
          rw [hfront]
          simp
  · exact (startsApart_of_blank hinner').append (htail.append (startsApart_of_blank hblank'))

/-- A name that a row gives leads an item of the row. -/
theorem exists_leadsAt_of_mem_namesOfRow {row name : Text}
    (h : name ∈ Enumerator.namesOfRow row) : ∃ x, LeadsAt row x name := by
  obtain ⟨hitem, hname⟩ := List.mem_filter.mp h
  obtain ⟨item, hmem, hread⟩ := List.mem_map.mp hitem
  obtain ⟨piece, hpiece, rfl⟩ := List.mem_map.mp hmem
  obtain ⟨k, hk⟩ := List.mem_iff_getElem?.mp hpiece
  obtain ⟨u, p, v, u', v', hrow, hat, hrow', hu, hp, -⟩ :=
    (topLevelPieces_getElem?_iff (Blanked.refl row)).mp hk
  obtain ⟨-, hrest⟩ := append_inj_of_byteLength (hrow.symm.trans hrow') hu.byteLength_eq
  obtain ⟨rfl, -⟩ := append_inj_of_byteLength hrest hp.byteLength_eq
  obtain ⟨gap, rest, hgap, hblank, hapart⟩ := exists_gap_of_name hread
  exact ⟨u ++ gap, .intro hrow hat hgap rfl hblank hname hapart⟩

/-- Where a name leads an item of a list, a text stands behind it in which it does not go on. -/
theorem LeadsAt.exists_behind {m x name : Text} (h : LeadsAt m x name) :
    isIdentifier name = true ∧ Fresh x ∧ ∃ y, m = x ++ (name ++ y) ∧ StartsApart y := by
  obtain @⟨k, u, p, v, gap, rest, rfl, hat, rfl, rfl, hblank, hname, hrest⟩ := h
  refine ⟨hname, ⟨u, gap, rfl, hblank, hat.front⟩, rest ++ v, by simp, hrest.append ?_⟩
  obtain rfl | ⟨r, rfl⟩ := hat.behind
  · exact startsApart_nil
  · exact startsApart_cons rfl r

end Text

/-! ## Enumerators -/

/-- Between the braces, row `i` stands behind `front`, at the start of a line. -/
structure Body.RowCut (b : Body) (i : Nat) (row front behind : Text) : Prop where
  row_eq : (rows b.inner.masked)[i]? = some row
  text_eq : b.inner.masked = front ++ (row ++ behind)
  newlines_eq : newlines front = i
  ends_line : EndsLine front
  apart : StartsApart behind

theorem Body.exists_rowCut {b : Body} {i : Nat} {row : Text}
    (h : (rows b.inner.masked)[i]? = some row) : ∃ front behind, b.RowCut i row front behind := by
  obtain ⟨front, t, rest, htext, hrows, hcount, hend⟩ := rowBehind_of_getElem? h
  obtain ⟨behind, rfl, hapart⟩ := row_apart hrows
  exact ⟨front, behind, h, htext, hcount, hend, hapart⟩

/-- Row `i` between the braces is read: its class is executable. -/
def Body.ReadsRow (b : Body) (ms : Markers) (i : Nat) : Prop :=
  ∃ cls, (ms.classifyLines (rows b.inner))[i]? = some cls ∧ cls.isExecutable = true

/-- The enumerator is read on row `i`, which stands behind `front`: behind `x` its name leads an
item of the row. -/
structure Body.GivenAt (b : Body) (ms : Markers) (v : Enumerator) (i : Nat)
    (row front behind x : Text) : Prop where
  row_cut : b.RowCut i row front behind
  reads : b.ReadsRow ms i
  line_eq : v.line = b.openLine + i
  leads : LeadsAt row x v.name

/-- The name leads an item of the body at its place just when its place is fresh. -/
theorem Body.GivenAt.leadsAt_iff {b : Body} {ms : Markers} {v : Enumerator} {i : Nat}
    {row front behind x : Text} (h : b.GivenAt ms v i row front behind x) :
    LeadsAt b.inner.masked (front ++ x) v.name ↔ Fresh (front ++ x) := by
  obtain ⟨hname, -, y, hrow, hy⟩ := h.leads.exists_behind
  refine Text.leadsAt_iff (y := y ++ behind) ?_ hname (hy.append h.row_cut.apart)
  rw [h.row_cut.text_eq, hrow]
  simp

theorem Enumerator.exists_givenAt {b : Body} {ms : Markers} {v : Enumerator}
    (h : v ∈ all b.inner b.openLine ms) :
    ∃ i row front behind x, b.GivenAt ms v i row front behind x := by
  rw [all, mem_ofRows_iff] at h
  obtain ⟨-, i, hline, ⟨⟨row, cls⟩, hget, hname⟩, -⟩ := h.resolve_left (by simp)
  obtain ⟨hrow, hcls⟩ := List.getElem?_zip_eq_some.mp hget
  rw [readOn] at hname
  split_ifs at hname with hexecutable
  · obtain ⟨front, behind, hat⟩ := Body.exists_rowCut hrow
    obtain ⟨x, hleads⟩ := exists_leadsAt_of_mem_namesOfRow hname
    exact ⟨i, row, front, behind, x, hat, ⟨cls, hcls, hexecutable⟩, hline, hleads⟩
  · cases hname

/-- **An enumerator is read from an item of its row.** That is an item of the body just when one
begins at its place; where one begins in front of every row that is read, each enumerator is the
leading identifier of a piece of the body. -/
theorem EnumDef.values_lead_items {file : SourceFile} {name : String} {ms : Markers} {d : EnumDef}
    (hd : find? file name ms = some d) :
    ∃ b, Aggregate.enum.body? file.text name = some b ∧
      (∀ v ∈ d.values, ∃ i row front behind x, b.GivenAt ms v i row front behind x ∧
        (LeadsAt b.inner.masked (front ++ x) v.name ↔ Fresh (front ++ x))) ∧
      ((∀ i row front behind, b.RowCut i row front behind → b.ReadsRow ms i → Fresh front) →
        ∀ v ∈ d.values,
          ∃ item ∈ topLevelPieces b.inner.masked b.inner.masked, Leads item v.name) := by
  obtain ⟨b, hb, rfl⟩ := Option.map_eq_some_iff.mp hd
  refine ⟨b, hb, fun v hv => ?_, fun hfresh v hv => ?_⟩
  · obtain ⟨i, row, front, behind, x, hgiven⟩ := Enumerator.exists_givenAt hv
    exact ⟨i, row, front, behind, x, hgiven, hgiven.leadsAt_iff⟩
  · obtain ⟨i, row, front, behind, x, hgiven⟩ := Enumerator.exists_givenAt hv
    have hfront := hfresh i row front behind hgiven.row_cut hgiven.reads
    obtain ⟨-, hx, -⟩ := hgiven.leads.exists_behind
    exact (hgiven.leadsAt_iff.mpr (hfront.append hx)).exists_piece

/-- The items stand on rows of their own. The commas in the brackets end none. -/
theorem EnumDef.values_lead_items_on_rows :
    ∃ (file : SourceFile) (d : EnumDef) (b : Body),
      find? file "E" Markers.standard = some d ∧ Aggregate.enum.body? file.text "E" = some b ∧
        d.values.map (·.name) = ["A".toList, "B".toList, "C".toList] ∧
        ∀ v ∈ d.values,
          ∃ item ∈ topLevelPieces b.inner.masked b.inner.masked, Leads item v.name := by
  let file : SourceFile := ⟨"a.h", "enum E \x7b\n  A = F(1, 2),\n  B, C \x7d;\n".toList⟩
  let b : Body := ⟨0, 7, 32, 1, "enum E \x7b\n  A = F(1, 2),\n  B, C \x7d".toList⟩
  have hnames : (find? file "E" Markers.standard).map (·.values.map (·.name)) =
      some ["A".toList, "B".toList, "C".toList] := by decide +kernel
  obtain ⟨d, hd, hvalues⟩ := Option.map_eq_some_iff.mp hnames
  have hb : Aggregate.enum.body? file.text "E" = some b := by decide +kernel
  have hrows : ∀ n < b.inner.masked.length + 1, b.inner.masked.take n = [] ∨
      (b.inner.masked.take n).getLast? = some '\n' → Fresh (b.inner.masked.take n) := by
    decide +kernel
  obtain ⟨b', hb', -, hitems⟩ := values_lead_items hd
  obtain rfl := Option.some.inj (hb.symm.trans hb')
  refine ⟨file, d, b, hd, hb, hvalues, hitems fun i row front behind hcut _ => ?_⟩
  have hlen : front.length < b.inner.masked.length + 1 := by
    rw [hcut.text_eq, List.length_append]
    omega
  have hfront := hrows front.length hlen
  rw [hcut.text_eq, List.take_left] at hfront
  apply hfront
  obtain rfl | ⟨w, rfl⟩ := hcut.ends_line
  · exact Or.inl rfl
  · exact Or.inr List.getLast?_concat

/-- The initialiser stands on the next row, where it is read as an enumerator. -/
theorem EnumDef.initialiser_read_as_enumerator :
    ∃ (file : SourceFile) (d : EnumDef) (b : Body),
      find? file "E" Markers.standard = some d ∧ Aggregate.enum.body? file.text "E" = some b ∧
        ⟨"B".toList, 2⟩ ∈ d.values ∧
        ∀ item ∈ topLevelPieces b.inner.masked b.inner.masked, ¬ Leads item "B".toList := by
  let file : SourceFile := ⟨"a.h", "enum E \x7b A =\n  B \x7d;\n".toList⟩
  let b : Body := ⟨0, 7, 18, 1, "enum E \x7b A =\n  B \x7d".toList⟩
  have hmap : (find? file "E" Markers.standard).map (·.values) =
      some [⟨"A".toList, 1⟩, ⟨"B".toList, 2⟩] := by decide +kernel
  obtain ⟨d, hd, hvalues⟩ := Option.map_eq_some_iff.mp hmap
  have hb : Aggregate.enum.body? file.text "E" = some b := by decide +kernel
  have hpieces : ∀ item ∈ topLevelPieces b.inner.masked b.inner.masked,
      ¬ "B".toList <+: trimStart item := by decide +kernel
  refine ⟨file, d, b, hd, hb, ?_, ?_⟩
  · rw [hvalues]
    decide
  · rintro item hitem ⟨-, rest, htrim, -⟩
    exact hpieces item hitem ⟨rest, htrim.symm⟩

end StructuralRules
