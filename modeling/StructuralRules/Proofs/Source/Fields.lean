import StructuralRules.Proofs.Source.MemberLines
import StructuralRules.Proofs.Text.Tokens

/-!
# Fields and their declarations

A declaration is cut into the text of the type, the name, the array part and the
semicolon, and nothing but blanks is lost between them. `Field.CutInto` names the
parts. A declaration is itself a piece of a row: what stands from the front of the
row, or from behind a semicolon, through the next semicolon, without the blanks in
front. The pieces of a row stand in it one behind the other, and so do the rows in
the text, so the offsets of the declarations increase from field to field.
-/

set_option autoImplicit false

namespace StructuralRules

open Text

namespace Field

/-! ## Parts of a declaration -/

/-- The declaration of the field consists of the text `type` of its type, its name, blanks, its
array part, if it has one, blanks, and a semicolon. -/
structure CutInto (f : Field) (type gap gap' : Text) : Prop where
  declaration_eq : f.declaration =
    type ++ (f.name ++ (gap ++ (f.array.getD [] ++ (gap' ++ [';']))))
  type_eq : f.type = unwords (words type)
  type_apart : EndsApart type
  no_bracket : '[' ∉ type
  array_bracket : ∀ a, f.array = some a → a.head? = some '['
  blank : ∀ c ∈ gap, isBlank c = true
  blank' : ∀ c ∈ gap', isBlank c = true
  identifier : isIdentifier f.name = true
  letter : ∃ c ∈ f.type, c.isAlpha = true
  free : ∀ c ∈ f.declaration, c ∉ ['(', ')', ',', ':', '=', '{', '}']

theorem typeAndName_eq_ok {head type name : Text} (h : typeAndName head = .ok (type, name)) :
    head = type ++ name ∧ EndsApart type := by
  obtain hall | ⟨u, c, v, rfl, hc, hv⟩ := last_split (!isIdentChar ·) head
  · rw [typeAndName_of_ident fun x hx => by simpa using hall x hx] at h
    obtain ⟨rfl, rfl⟩ := Prod.mk.inj (Except.ok.inj h)
    exact ⟨rfl, endsApart_nil⟩
  · have hc : isIdentChar c = false := by simpa using hc
    rw [typeAndName_append hc fun x hx => by simpa using hv x hx] at h
    split_ifs at h
    obtain ⟨rfl, rfl⟩ := Prod.mk.inj (Except.ok.inj h)
    exact ⟨by simp, endsApart_concat hc u⟩

/-- What type and name are read from, where the array part begins with the first bracket. -/
def headOf (decl : Text) : Text :=
  if (decl.dropWhile (· != '[')).isEmpty then decl.takeWhile (· != '[')
  else trimEnd (decl.takeWhile (· != '['))

/-- The array part, trimmed, if there is a bracket. -/
def arrayOf (decl : Text) : Option Text :=
  if (decl.dropWhile (· != '[')).isEmpty then none else some (trim (decl.dropWhile (· != '[')))

/-- A text that begins with a bracket keeps the bracket when it is trimmed. -/
theorem exists_trim_bracket (t : Text) : ∃ a gap, '[' :: t = ('[' :: a) ++ gap ∧
    trim ('[' :: t) = '[' :: a ∧ ∀ c ∈ gap, isBlank c = true := by
  have hstart : trimStart ('[' :: t) = '[' :: t := List.dropWhile_cons_of_neg (by decide)
  obtain ⟨gap, hgap, hblank⟩ := exists_trimEnd ('[' :: t)
  rw [trim, hstart]
  cases ha : trimEnd ('[' :: t) with
  | nil =>
    have hbracket := trimEnd_eq_nil.mp ha '[' List.mem_cons_self
    cases hbracket
  | cons c a =>
    rw [ha] at hgap
    obtain ⟨rfl, -⟩ := List.cons.inj hgap
    exact ⟨a, gap, hgap, rfl, hblank⟩

/-- Cutting off the array part loses blanks only. -/
theorem exists_gaps (decl : Text) : ∃ gap gap',
    decl = headOf decl ++ (gap ++ ((arrayOf decl).getD [] ++ gap')) ∧
    (∀ c ∈ gap, isBlank c = true) ∧ (∀ c ∈ gap', isBlank c = true) ∧ '[' ∉ headOf decl ∧
    ∀ a, arrayOf decl = some a → a.head? = some '[' := by
  have hfree : ∀ {u : Text}, '[' ∉ u ↔ ∀ c ∈ u, (c != '[') = true := by
    intro u
    simp only [bne_iff_ne]
    exact ⟨fun h c hc heq => h (heq ▸ hc), fun h hmem => h '[' hmem rfl⟩
  by_cases hbracket : '[' ∈ decl
  · obtain ⟨u, v, rfl, hu⟩ := List.eq_append_cons_of_mem hbracket
    have hhead : (u ++ '[' :: v).takeWhile (· != '[') = u := by
      rw [List.takeWhile_append_of_pos (hfree.mp hu), List.takeWhile_cons_of_neg (by decide),
        List.append_nil]
    have harray : (u ++ '[' :: v).dropWhile (· != '[') = '[' :: v := by
      rw [List.dropWhile_append_of_pos (hfree.mp hu), List.dropWhile_cons_of_neg (by decide)]
    obtain ⟨gap, hgap, hblank⟩ := exists_trimEnd u
    obtain ⟨a, gap', hgap', ha, hblank'⟩ := exists_trim_bracket v
    rw [headOf, arrayOf, hhead, harray, ha]
    refine ⟨gap, gap', ?_, hblank, hblank', ?_, ?_⟩
    · simp only [List.isEmpty_cons, Bool.false_eq_true, if_false, Option.getD_some]
      rw [← hgap', ← List.append_assoc, ← hgap]
    · intro hmem
      rw [hgap] at hu
      exact hu (List.mem_append_left gap hmem)
    · intro a' ha'
      obtain rfl := Option.some.inj ha'
      rfl
  · rw [headOf, arrayOf, List.takeWhile_eq_self_iff.mpr (hfree.mp hbracket),
      List.dropWhile_eq_nil_iff.mpr (hfree.mp hbracket)]
    exact ⟨[], [], by simp, by simp, by simp, hbracket, by simp⟩

/-- Neither blanks nor the semicolon are refused. -/
theorem not_refused_of_trimmed {decl gap : Text} (h : ¬ decl.any refused.contains = true)
    (hblank : ∀ c ∈ gap, isBlank c = true) :
    ∀ c ∈ (decl ++ gap) ++ [';'], c ∉ ['(', ')', ',', ':', '=', '{', '}'] := by
  intro c hc hrefused
  obtain hc | hc := List.mem_append.mp hc
  · obtain hc | hc := List.mem_append.mp hc
    · exact h (List.any_eq_true.mpr ⟨c, hc, List.contains_iff_mem.mpr hrefused⟩)
    · have hall : ['(', ')', ',', ':', '=', '{', '}'].all (!isBlank ·) = true := by decide
      have hno := List.all_eq_true.mp hall c hrefused
      rw [hblank c hc] at hno
      cases hno
  · rw [List.mem_singleton.mp hc] at hrefused
    exact absurd hrefused (by decide)

/-- **What a declaration is read as.** -/
theorem parse_cutInto {declaration : Text} {line : Nat} {f : Field}
    (h : parse declaration line = .ok (some f)) :
    f.declaration = declaration ∧ ∃ type gap gap', f.CutInto type gap gap' := by
  obtain ⟨hdeclaration, d, rfl⟩ := parse_declaration h
  refine ⟨hdeclaration, ?_⟩
  unfold parse at h
  rw [List.getLast?_concat, List.dropLast_concat] at h
  dsimp only at h
  obtain ⟨gap', hgap', hblank'⟩ := exists_trimEnd d
  generalize trimEnd d = decl at h hgap'
  subst hgap'
  by_cases hrefused : decl.any refused.contains = true
  · rw [if_pos hrefused] at h
    cases h
  · rw [if_neg hrefused] at h
    obtain ⟨⟨type, name⟩, hparts, h⟩ := bind_eq_ok.mp h
    dsimp only at h
    split at h
    · next hread =>
      rw [pure_eq_ok, Option.some.injEq] at h
      obtain ⟨hname, hletter⟩ := Bool.and_eq_true_iff.mp hread
      obtain ⟨hhead, hapart⟩ := typeAndName_eq_ok hparts
      obtain ⟨gap, gap'', hdecl, hblank, hblank'', hbracket, harray⟩ := exists_gaps decl
      subst h
      have hhead : headOf decl = type ++ name := hhead
      refine ⟨type, gap, gap'' ++ gap', ?_, rfl, hapart, ?_, harray, hblank,
        List.forall_mem_append.mpr ⟨hblank'', hblank'⟩, hname, List.any_eq_true.mp hletter, ?_⟩
      · conv_lhs => rw [hdecl, hhead]
        simp [arrayOf]
      · intro hmem
        exact hbracket (hhead ▸ List.mem_append_left name hmem)
      · exact not_refused_of_trimmed hrefused hblank'
    · cases h

/-- Type, name and array part hold what the declaration holds, in its order and but for blanks. -/
structure Lossless (f : Field) : Prop where
  squeeze_eq : squeeze (f.type ++ (f.name ++ (f.array.getD [] ++ [';']))) = squeeze f.declaration
  free : ∀ c ∈ f.declaration, c ∉ ['(', ')', ',', ':', '=', '{', '}']
  identifier : isIdentifier f.name = true
  letter : ∃ c ∈ f.type, c.isAlpha = true
  normalised : ∃ ws, f.type = unwords ws ∧ ∀ w ∈ ws, w ≠ [] ∧ ∀ c ∈ w, isBlank c = false
  array_iff : f.array.isSome = true ↔ '[' ∈ f.declaration
  array_first : ∀ a, f.array = some a → a.head? = some '[' ∧
    ∃ u v, f.declaration = u ++ (a ++ v) ∧ '[' ∉ u

section Parts

variable {f : Field} {type gap gap' : Text}

theorem CutInto.bracket_not_mem (h : f.CutInto type gap gap') : '[' ∉ type ++ (f.name ++ gap) := by
  intro hmem
  obtain hmem | hmem := List.mem_append.mp hmem
  · exact h.no_bracket hmem
  · obtain hmem | hmem := List.mem_append.mp hmem
    · have hident := isIdentChar_of_isIdentifier h.identifier hmem
      cases hident
    · have hblank := h.blank _ hmem
      cases hblank

theorem CutInto.squeeze_eq (h : f.CutInto type gap gap') :
    squeeze (f.type ++ (f.name ++ (f.array.getD [] ++ [';']))) = squeeze f.declaration := by
  rw [h.declaration_eq, h.type_eq]
  simp only [squeeze_append, squeeze_unwords_words, squeeze_of_blank h.blank,
    squeeze_of_blank h.blank', List.nil_append]

theorem CutInto.lossless (h : f.CutInto type gap gap') : f.Lossless := by
  refine ⟨h.squeeze_eq, h.free, h.identifier, h.letter,
    ⟨words type, h.type_eq, fun w hw => mem_words hw⟩, ?_, ?_⟩
  · constructor
    · intro hsome
      obtain ⟨a, ha⟩ := Option.isSome_iff_exists.mp hsome
      have hmem : '[' ∈ a := List.mem_of_mem_head? (h.array_bracket a ha)
      rw [h.declaration_eq, ha, Option.getD_some]
      simp [hmem]
    · intro hmem
      by_contra hnone
      rw [Option.not_isSome_iff_eq_none] at hnone
      have hparts : f.declaration = (type ++ (f.name ++ gap)) ++ (gap' ++ [';']) := by
        rw [h.declaration_eq, hnone]
        simp
      rw [hparts] at hmem
      obtain hmem | hmem := List.mem_append.mp hmem
      · exact h.bracket_not_mem hmem
      · obtain hmem | hmem := List.mem_append.mp hmem
        · have hblank := h.blank' _ hmem
          cases hblank
        · exact absurd hmem (by decide)
  · intro a ha
    refine ⟨h.array_bracket a ha, type ++ (f.name ++ gap), gap' ++ [';'], ?_, h.bracket_not_mem⟩
    rw [h.declaration_eq, ha]
    simp

end Parts

/-! ## Declarations of a row -/

/-- The declaration ends in its only semicolon and has no blanks around it. In the row it stands
behind blanks, and in front of these is a semicolon or nothing. -/
structure InRow (f : Field) (row front gap behind : Text) : Prop where
  row_eq : row = front ++ (gap ++ (f.declaration ++ behind))
  front_eq : front = [] ∨ ∃ u, front = u ++ [';']
  blank : ∀ c ∈ gap, isBlank c = true
  ends : ∃ d, f.declaration = d ++ [';'] ∧ ';' ∉ d
  trimmed : trim f.declaration = f.declaration

theorem declarations_semicolon_append {d : Text} (hd : ';' ∉ d) (row : Text) :
    declarations (d ++ ';' :: row) = (d ++ [';']) :: declarations row := by
  induction d with
  | nil => rfl
  | cons c d ih =>
    have hc : c ≠ ';' := fun hc => hd (by simp [hc])
    rw [List.cons_append, declarations, if_neg hc, ih fun h => hd (List.mem_cons_of_mem c h)]
    rfl

/-- A row has no semicolon, or a declaration through its first one stands before a row. -/
theorem semicolon_induction {P : Text → Prop} (bare : ∀ row, ';' ∉ row → P row)
    (ended : ∀ d row, ';' ∉ d → P row → P (d ++ ';' :: row)) (row : Text) : P row := by
  induction hn : row.length using Nat.strong_induction_on generalizing row with
  | _ n ih =>
    by_cases h : ';' ∈ row
    · obtain ⟨d, rest, rfl, hd⟩ := List.eq_append_cons_of_mem h
      have hshorter : rest.length < n := by
        rw [← hn, List.length_append, List.length_cons]
        omega
      exact ended d rest hd (ih _ hshorter rest rfl)
    · exact bare row h

theorem ofRow_of_no_semicolon {row : Text} {line : Nat} {fs : List Field} (hrow : ';' ∉ row)
    (h : ofRow row line = .ok fs) : fs = [] := by
  apply List.eq_nil_iff_forall_not_mem.mpr
  intro f hf
  obtain ⟨hpart, d, hd⟩ := ofRow_declaration h hf
  exact hrow (hpart.subset (by rw [hd]; simp))

theorem ofRow_semicolon {d row : Text} {line : Nat} {fs : List Field} (hd : ';' ∉ d)
    (h : ofRow (d ++ ';' :: row) line = .ok fs) : ∃ read rest,
      parse (trim (d ++ [';'])) line = .ok read ∧ ofRow row line = .ok rest ∧
        fs = read.toList ++ rest := by
  rw [ofRow, declarations_semicolon_append hd, List.mapM_cons] at h
  obtain ⟨fields, hfields, h⟩ := bind_eq_ok.mp h
  obtain ⟨read, hread, hfields⟩ := bind_eq_ok.mp hfields
  obtain ⟨reads, hreads, hfields⟩ := bind_eq_ok.mp hfields
  rw [pure_eq_ok] at h hfields
  refine ⟨read, reads.filterMap id, hread, bind_eq_ok.mpr ⟨reads, hreads, rfl⟩, ?_⟩
  rw [← h, ← hfields]
  cases read <;> rfl

/-- What is read of a declaration stands in front of its row. -/
theorem inRow_first {d : Text} {line : Nat} {f : Field} (hd : ';' ∉ d)
    (h : parse (trim (d ++ [';'])) line = .ok (some f)) (row : Text) :
    f.InRow (d ++ ';' :: row) [] (d.takeWhile isBlank) row := by
  have hparts : d.takeWhile isBlank ++ trimStart d = d := List.takeWhile_append_dropWhile
  obtain ⟨hdeclaration, -⟩ := parse_cutInto h
  rw [trim_concat d (by decide)] at hdeclaration
  refine ⟨?_, Or.inl rfl, fun c hc => List.mem_takeWhile_imp hc,
    ⟨trimStart d, hdeclaration, fun hmem => hd (List.dropWhile_subset isBlank hmem)⟩, ?_⟩
  · conv_lhs => rw [← hparts]
    rw [hdeclaration]
    simp
  · rw [hdeclaration, trim_concat _ (by decide), trimStart, trimStart, List.dropWhile_idempotent]

/-- What stands in a row stands in the row behind a declaration. -/
theorem InRow.behind {f : Field} {row front gap behind : Text} (h : f.InRow row front gap behind)
    (d : Text) : f.InRow (d ++ ';' :: row) (d ++ ';' :: front) gap behind := by
  refine ⟨?_, Or.inr ?_, h.blank, h.ends, h.trimmed⟩
  · rw [h.row_eq]
    simp
  · obtain rfl | ⟨u, rfl⟩ := h.front_eq
    · exact ⟨d, rfl⟩
    · exact ⟨d ++ ';' :: u, by simp⟩

/-- In the row, the declaration stands at byte `off`. -/
def OnRow (row : Text) (f : Field) (off : Nat) : Prop :=
  ∃ front gap behind, f.InRow row front gap behind ∧ off = byteLength (front ++ gap)

theorem OnRow.lt {row : Text} {f : Field} {off : Nat} (h : OnRow row f off) :
    off < byteLength row := by
  obtain ⟨front, gap, behind, hin, rfl⟩ := h
  obtain ⟨d, hd, -⟩ := hin.ends
  have hpos := ';'.utf8Size_pos
  rw [hin.row_eq, hd]
  simp only [byteLength_append, byteLength_cons, byteLength_nil]
  omega

theorem OnRow.behind {row : Text} {f : Field} {off : Nat} (h : OnRow row f off) (d : Text) :
    OnRow (d ++ ';' :: row) f (byteLength d + 1 + off) := by
  obtain ⟨front, gap, behind, hin, rfl⟩ := h
  refine ⟨d ++ ';' :: front, gap, behind, hin.behind d, ?_⟩
  have hfront := byteLength_append_cons (c := ';') rfl d (front ++ gap)
  rw [← hfront, List.append_assoc, List.cons_append]

/-- Offsets that increase do so behind a front as well. -/
theorem pairwise_shift {offs : List Nat} (h : offs.Pairwise (· < ·)) (n : Nat) :
    (offs.map (n + ·)).Pairwise (· < ·) :=
  List.pairwise_map.mpr (h.imp fun hlt => Nat.add_lt_add_left hlt n)

/-- The declarations of a row stand in it one behind the other. -/
theorem ofRow_inOrder {row : Text} {line : Nat} {fs : List Field} (h : ofRow row line = .ok fs) :
    ∃ offs, List.Forall₂ (OnRow row) fs offs ∧ offs.Pairwise (· < ·) := by
  induction row using semicolon_induction generalizing fs with
  | bare row hrow =>
    rw [ofRow_of_no_semicolon hrow h]
    exact ⟨[], .nil, .nil⟩
  | ended d row hd ih =>
    obtain ⟨read, rest, hread, hrest, rfl⟩ := ofRow_semicolon hd h
    obtain ⟨offs, hplaces, horder⟩ := ih hrest
    have hplaces : List.Forall₂ (OnRow (d ++ ';' :: row)) rest
        (offs.map (byteLength d + 1 + ·)) :=
      List.forall₂_map_right_iff.mpr (hplaces.imp fun _ _ hon => hon.behind d)
    have horder := pairwise_shift horder (byteLength d + 1)
    cases read with
    | none => exact ⟨_, hplaces, horder⟩
    | some f =>
      -- The first declaration begins in front of the first semicolon.
      refine ⟨byteLength (d.takeWhile isBlank) :: _,
        .cons ⟨[], _, row, inRow_first hd hread row, rfl⟩ hplaces, .cons ?_ horder⟩
      intro off hoff
      obtain ⟨off', -, rfl⟩ := List.mem_map.mp hoff
      have hparts := congrArg byteLength (List.takeWhile_append_dropWhile (p := isBlank) (l := d))
      rw [byteLength_append] at hparts
      omega

/-! ## Declarations of a text -/

/-- The field is declared on its row of `t`, where the first row is on line `line`, and the
declaration begins at byte `off` of `t`. -/
structure StandsAt (f : Field) (t : Text) (line off : Nat)
    (above row front gap behind below : Text) : Prop where
  text_eq : t = above ++ (row ++ below)
  row_eq : (rows t)[newlines above]? = some row
  line_eq : f.line = line + newlines above
  in_row : f.InRow row front gap behind
  off_eq : off = byteLength (above ++ (front ++ gap))

/-- The declaration of the field begins at byte `off` of `t`. -/
def DeclaredAt (t : Text) (line : Nat) (f : Field) (off : Nat) : Prop :=
  ∃ above row front gap behind below, f.StandsAt t line off above row front gap behind below

theorem OnRow.declaredAt {t row below : Text} {rest : List Text} {f : Field} {off line : Nat}
    (h : OnRow row f off) (ht : t = row ++ below) (hrows : rows t = row :: rest)
    (hline : f.line = line) : DeclaredAt t line f off := by
  obtain ⟨front, gap, behind, hin, hoff⟩ := h
  exact ⟨[], row, front, gap, behind, below, ht, by rw [hrows]; rfl, hline, hin, hoff⟩

/-- An ended line begins with its row, and the rows of the rest of the text follow. -/
theorem rows_ended_line {l : Text} (hl : '\n' ∉ l) (t : Text) :
    ∃ row gap, l = row ++ gap ∧ rows (l ++ '\n' :: t) = row :: rows t := by
  obtain ⟨row, hrows, hrow, -⟩ := rows_line hl t
  obtain ⟨v, hv⟩ := row_prefix hrows
  obtain ⟨x, hx, hx'⟩ | ⟨x, hx, hx'⟩ := List.append_eq_append_iff.mp hv
  · exact ⟨row, x, hx, hrows⟩
  · cases x with
    | nil => exact ⟨row, [], by rw [hx, List.append_nil, List.append_nil], hrows⟩
    | cons c x =>
      obtain ⟨rfl, -⟩ := List.cons.inj hx'
      exact absurd (by rw [hx]; simp) hrow

/-- What is declared in a text is declared in it behind a line, one line further. -/
theorem DeclaredAt.behind_line {t l : Text} {f : Field} {off line : Nat}
    (h : DeclaredAt t (line + 1) f off) (hl : '\n' ∉ l) :
    DeclaredAt (l ++ '\n' :: t) line f (byteLength l + 1 + off) := by
  obtain ⟨above, row, front, gap, behind, below, hstands⟩ := h
  obtain ⟨first, -, -, hrows⟩ := rows_ended_line hl t
  have hcount : newlines (l ++ '\n' :: above) = newlines above + 1 := by
    rw [newlines, List.count_append, List.count_eq_zero.mpr hl, List.count_cons_self, ← newlines,
      Nat.zero_add]
  refine ⟨l ++ '\n' :: above, row, front, gap, behind, below, ?_, ?_, ?_, hstands.in_row, ?_⟩
  · conv_lhs => rw [hstands.text_eq]
    simp
  · rw [hrows, hcount, List.getElem?_cons_succ]
    exact hstands.row_eq
  · rw [hstands.line_eq, hcount]
    omega
  · have hfront := byteLength_append_cons (c := '\n') rfl l (above ++ (front ++ gap))
    rw [hstands.off_eq, ← hfront, List.append_assoc, List.cons_append]

/-- A row gives what is read of it, or nothing, and then the rows behind it follow. -/
theorem ofRows_cons_eq_ok {row : Text} {cls : LineClass} {rest : List (Text × LineClass)}
    {depth line : Nat} {fs : List Field} (h : ofRows depth line ((row, cls) :: rest) = .ok fs) :
    ∃ here there depth', (here = [] ∨ ofRow row line = .ok here) ∧
      ofRows depth' (line + 1) rest = .ok there ∧ fs = here ++ there := by
  by_cases hread : Declares depth row cls
  · rw [ofRows_of_declares hread] at h
    obtain ⟨here, hhere, h⟩ := bind_eq_ok.mp h
    obtain ⟨there, hthere, h⟩ := bind_eq_ok.mp h
    exact ⟨here, there, _, Or.inr hhere, hthere, (Except.ok.inj h).symm⟩
  · rw [ofRows_of_not_declares hread] at h
    exact ⟨[], fs, _, Or.inl rfl, h, rfl⟩

/-- The declarations of the first row of a text stand in it one behind the other, and in front of
the end of the row. -/
theorem firstRow_inOrder {t row below : Text} {rest : List Text} {line : Nat} {here : List Field}
    (ht : t = row ++ below) (hrows : rows t = row :: rest)
    (h : here = [] ∨ ofRow row line = .ok here) :
    ∃ offs, List.Forall₂ (DeclaredAt t line) here offs ∧ offs.Pairwise (· < ·) ∧
      ∀ off ∈ offs, off < byteLength row := by
  obtain rfl | h := h
  · exact ⟨[], .nil, .nil, by simp⟩
  · obtain ⟨offs, hplaces, horder⟩ := ofRow_inOrder h
    refine ⟨offs, ?_, horder, ?_⟩
    · have hboth := (List.forall₂_and_left _ _).mpr ⟨ofRow_line h, hplaces⟩
      exact hboth.imp fun _ _ hon => hon.2.declaredAt ht hrows hon.1
    · intro off hoff
      obtain ⟨i, hi, rfl⟩ := List.mem_iff_getElem.mp hoff
      obtain ⟨hlen, hget⟩ := List.forall₂_iff_get.mp hplaces
      exact (hget i (hlen ▸ hi) hi).lt

/-- **The declarations of a text stand in it one behind the other.** -/
theorem ofRows_inOrder {t : Text} {cs : List LineClass} {depth line : Nat} {fs : List Field}
    (h : ofRows depth line ((rows t).zip cs) = .ok fs) :
    ∃ offs, List.Forall₂ (DeclaredAt t line) fs offs ∧ offs.Pairwise (· < ·) := by
  have hnone : ∀ {fs : List Field} {depth line : Nat}, ofRows depth line [] = .ok fs → fs = [] :=
    fun h => (Except.ok.inj h).symm
  induction t using line_induction generalizing cs depth line fs with
  | nil =>
    rw [hnone h]
    exact ⟨[], .nil, .nil⟩
  | last l hl hne =>
    have hrows : rows l = [l] := rows_last hl hne
    rw [hrows] at h
    cases cs with
    | nil =>
      rw [hnone h]
      exact ⟨[], .nil, .nil⟩
    | cons cls cs =>
      rw [List.zip_cons_cons, List.zip_nil_left] at h
      obtain ⟨here, there, depth', hhere, hthere, rfl⟩ := ofRows_cons_eq_ok h
      obtain ⟨offs, hplaces, horder, -⟩ := firstRow_inOrder (List.append_nil l).symm hrows hhere
      rw [hnone hthere, List.append_nil]
      exact ⟨offs, hplaces, horder⟩
  | line l t hl ih =>
    obtain ⟨row, gap, rfl, hrows⟩ := rows_ended_line hl t
    rw [hrows] at h
    cases cs with
    | nil =>
      rw [List.zip_nil_right] at h
      rw [hnone h]
      exact ⟨[], .nil, .nil⟩
    | cons cls cs =>
      rw [List.zip_cons_cons] at h
      obtain ⟨here, there, depth', hhere, hthere, rfl⟩ := ofRows_cons_eq_ok h
      obtain ⟨offs, hplaces, horder, hlt⟩ :=
        firstRow_inOrder (List.append_assoc row gap _) hrows hhere
      obtain ⟨offs', hplaces', horder'⟩ := ih hthere
      refine ⟨offs ++ offs'.map (byteLength (row ++ gap) + 1 + ·), List.rel_append hplaces
        (List.forall₂_map_right_iff.mpr (hplaces'.imp fun _ _ hon => hon.behind_line hl)),
        List.pairwise_append.mpr ⟨horder, pairwise_shift horder' _, ?_⟩⟩
      -- What is declared on the first row begins in front of its end.
      intro off hoff off' hoff'
      obtain ⟨off'', -, rfl⟩ := List.mem_map.mp hoff'
      have hfirst := hlt off hoff
      rw [byteLength_append]
      omega

/-- The lines of the fields do not decrease. -/
theorem ofRows_lines {rows : List (Text × LineClass)} {depth line : Nat} {fs : List Field}
    (h : ofRows depth line rows = .ok fs) : (fs.map (·.line)).Pairwise (· ≤ ·) := by
  rw [List.pairwise_map]
  induction rows generalizing depth line fs with
  | nil =>
    obtain rfl : [] = fs := Except.ok.inj h
    exact .nil
  | cons head rest ih =>
    obtain ⟨row, cls⟩ := head
    obtain ⟨here, there, depth', hhere, hthere, rfl⟩ := ofRows_cons_eq_ok h
    have hline : ∀ f ∈ here, f.line = line := by
      obtain rfl | hhere := hhere
      · simp
      · exact ofRow_line hhere
    refine List.pairwise_append.mpr ⟨?_, ih hthere, ?_⟩
    · exact List.pairwise_of_forall_mem_list fun f hf g hg => by rw [hline f hf, hline g hg]
    · intro f hf g hg
      have hlater := (ofRows_line hthere g hg).1
      rw [hline f hf]
      omega

theorem ofRow_cutInto {row : Text} {line : Nat} {fs : List Field} (h : ofRow row line = .ok fs)
    {f : Field} (hf : f ∈ fs) : ∃ type gap gap', f.CutInto type gap gap' := by
  obtain ⟨read, hread, hfs⟩ := bind_eq_ok.mp h
  rw [pure_eq_ok] at hfs
  subst hfs
  have hmem : some f ∈ read := by simpa using hf
  obtain ⟨d, -, hparse⟩ := mem_of_mapM_eq_ok hread hmem
  exact (parse_cutInto hparse).2

/-- **A field is a lossless split of its declaration.** The declaration is a piece of one row of
the masked text, through its only semicolon and without the blanks around it. Type, name, array part
and semicolon are the declaration but for blanks. The fields come in the order in which their
declarations stand in the text, and their lines do not decrease. -/
theorem declarations_split_losslessly {inner : Text} {first : Nat} {ms : Markers} {fs : List Field}
    (h : all inner first ms = .ok fs) :
    (∀ f ∈ fs, f.Lossless ∧ ∃ type gap gap', f.CutInto type gap gap') ∧
    (∃ offs, List.Forall₂ (DeclaredAt inner.masked first) fs offs ∧ offs.Pairwise (· < ·)) ∧
    (fs.map (·.line)).Pairwise (· ≤ ·) := by
  refine ⟨fun f hf => ?_, ofRows_inOrder h, ofRows_lines h⟩
  obtain ⟨i, row, cls, here, -, -, hhere, hfield⟩ := (mem_ofRows_iff h).mp hf
  obtain ⟨type, gap, gap', hcut⟩ := ofRow_cutInto hhere hfield
  exact ⟨hcut.lossless, type, gap, gap', hcut⟩

/-- A pointer that stands at its type or at its name, an array part with blanks in it, a character
of two bytes in a type, and a declaration of two names, which is no field. -/
theorem two_declarations_of_a_row : ∃ (inner : Text) (fs : List Field),
    all inner 10 Markers.standard = .ok fs ∧
      fs.map (fun f => (f.type, f.name, f.array, f.line)) =
        [("const char *".toList, "label".toList, none, 11),
          ("Card*".toList, "cards".toList, some "[ MAX ] [2]".toList, 11),
          ("unsigned é".toList, "w".toList, none, 13)] ∧
      (∀ f ∈ fs, squeeze (f.type ++ (f.name ++ (f.array.getD [] ++ [';']))) =
        squeeze f.declaration) ∧
      ∃ offs, List.Forall₂ (DeclaredAt inner.masked 10) fs offs ∧ offs.Pairwise (· < ·) := by
  let inner : Text := ("\n  const  char *label; Card* cards [ MAX ] [2] ;\n" ++
    "  int a, b; // int c;\n  unsigned é w; // EXCEPTION: ü\n").toList
  let fs : List Field :=
    [⟨"const char *".toList, "label".toList, none, "const  char *label;".toList, 11⟩,
      ⟨"Card*".toList, "cards".toList, some "[ MAX ] [2]".toList,
        "Card* cards [ MAX ] [2] ;".toList, 11⟩,
      ⟨"unsigned é".toList, "w".toList, none, "unsigned é w;".toList, 13⟩]
  have hread : (all inner 10 Markers.standard).toOption = some fs := by decide +kernel
  have hall := ok_of_toOption hread
  obtain ⟨hsplit, horder, -⟩ := declarations_split_losslessly hall
  exact ⟨inner, fs, hall, rfl, fun f hf => (hsplit f hf).1.squeeze_eq, horder⟩

end Field
end StructuralRules
