import StructuralRules.Proofs.Failure
import StructuralRules.Proofs.Source.Bodies

/-!
# Lines of constructs and of their members

A construct that was found lies within its file. Its members are read from the
rows between its braces, and there are no more rows than lines from the opening
brace through the closing one.
-/

set_option autoImplicit false

namespace StructuralRules

open Text

/-- Line `n` exists. -/
structure SourceFile.HasLine (f : SourceFile) (n : Nat) : Prop where
  pos : 1 ≤ n
  le_count : n ≤ f.lineCount

theorem SourceFile.HasLine.exists_line {f : SourceFile} {n : Nat} (h : f.HasLine n) :
    ∃ l, f.line? n = some l := by
  obtain ⟨hpos, hle⟩ := h
  obtain ⟨k, rfl⟩ : ∃ k, n = k + 1 := ⟨n - 1, by omega⟩
  exact ⟨_, List.getElem?_eq_getElem hle⟩

theorem SourceFile.hasLine_of_line? {f : SourceFile} {n : Nat} {l : Text}
    (h : f.line? n = some l) : f.HasLine n := by
  cases n with
  | zero => cases h
  | succ k => exact ⟨Nat.succ_pos k, (List.getElem?_eq_some_iff.mp h).1⟩

theorem SourceFile.hasLine_masked {f : SourceFile} {n : Nat} :
    f.masked.HasLine n ↔ f.HasLine n := by
  constructor
  · exact fun h => ⟨h.pos, f.lineCount_masked ▸ h.le_count⟩
  · exact fun h => ⟨h.pos, f.lineCount_masked.symm ▸ h.le_count⟩

theorem Text.length_rows_le (t : Text) : (rows t).length ≤ newlines t + 1 := by
  fun_induction rows t with
  | case1 => simp
  | case2 t ih => simpa [newlines] using ih
  | case3 t ih => simpa [newlines] using ih
  | case4 c t _ _ _ ih =>
    have hcount : newlines t ≤ newlines (c :: t) := List.count_le_count_cons
    rw [List.length_singleton]
    omega
  | case5 c t _ _ p ps hrows ih =>
    have hcount : newlines t ≤ newlines (c :: t) := List.count_le_count_cons
    rw [hrows] at ih
    rw [List.length_cons] at ih ⊢
    omega

/-! ## Members -/

namespace Field

theorem parse_line {declaration : Text} {line : Nat} {f : Field}
    (h : parse declaration line = .ok (some f)) : f.line = line := by
  unfold parse at h
  split at h
  · dsimp only at h
    split at h
    · cases h
    · obtain ⟨⟨type, name⟩, -, h⟩ := bind_eq_ok.mp h
      dsimp only at h
      split at h
      · rw [pure_eq_ok, Option.some.injEq] at h
        rw [← h]
      · cases h
  · cases h

theorem ofRow_line {row : Text} {line : Nat} {fs : List Field} (h : ofRow row line = .ok fs) :
    ∀ f ∈ fs, f.line = line := by
  intro f hf
  obtain ⟨read, hread, hfs⟩ := bind_eq_ok.mp h
  rw [pure_eq_ok] at hfs
  subst hfs
  have hmem : some f ∈ read := by simpa using hf
  obtain ⟨d, -, hparse⟩ := mem_of_mapM_eq_ok hread hmem
  exact parse_line hparse

/-- The brace depth behind a row. -/
def depthAfter (depth : Nat) (row : Text) : Nat :=
  depth + row.count '{' - row.count '}'

/-- The row is outside all braces, holds none, and is executable. -/
structure Declares (depth : Nat) (row : Text) (cls : LineClass) : Prop where
  outside : depth = 0
  no_opening : '{' ∉ row
  no_closing : '}' ∉ row
  executable : cls.isExecutable = true

theorem ofRows_of_declares {depth : Nat} {row : Text} {cls : LineClass}
    (h : Declares depth row cls) (line : Nat) (rest : List (Text × LineClass)) :
    ofRows depth line ((row, cls) :: rest) =
      ofRow row line >>= fun here =>
        ofRows (depthAfter depth row) (line + 1) rest >>= fun there => .ok (here ++ there) := by
  have hskip : ¬ (decide (0 < depth) || decide (0 < row.count '{') ||
      decide (0 < row.count '}') || !cls.isExecutable) = true := by
    simp [h.outside, h.executable, List.count_eq_zero.mpr h.no_opening,
      List.count_eq_zero.mpr h.no_closing]
  rw [ofRows]
  dsimp only
  rw [if_neg hskip]
  rfl

theorem ofRows_of_not_declares {depth : Nat} {row : Text} {cls : LineClass}
    (h : ¬ Declares depth row cls) (line : Nat) (rest : List (Text × LineClass)) :
    ofRows depth line ((row, cls) :: rest) = ofRows (depthAfter depth row) (line + 1) rest := by
  have hskip : (decide (0 < depth) || decide (0 < row.count '{') ||
      decide (0 < row.count '}') || !cls.isExecutable) = true := by
    by_contra hread
    simp only [Bool.or_eq_true, decide_eq_true_eq, not_or, Nat.not_lt, Nat.le_zero,
      List.count_eq_zero, Bool.not_eq_true', Bool.not_eq_false] at hread
    exact h ⟨hread.1.1.1, hread.1.1.2, hread.1.2, hread.2⟩
  rw [ofRows]
  dsimp only
  rw [if_pos hskip]
  cases hrest : ofRows (depthAfter depth row) (line + 1) rest <;>
    · rw [depthAfter] at hrest
      simp [hrest, bind, Except.bind, pure, Except.pure]

/-- The fields come from the rows, the first of which is on line `line`. -/
theorem ofRows_line {rows : List (Text × LineClass)} {depth line : Nat} {fs : List Field}
    (h : ofRows depth line rows = .ok fs) :
    ∀ f ∈ fs, line ≤ f.line ∧ f.line < line + rows.length := by
  induction rows generalizing depth line fs with
  | nil =>
    obtain rfl : [] = fs := by simpa [ofRows] using h
    simp
  | cons row rest ih =>
    obtain ⟨row, cls⟩ := row
    intro f hf
    rw [List.length_cons]
    by_cases hread : Declares depth row cls
    · rw [ofRows_of_declares hread] at h
      obtain ⟨here, hhere, h⟩ := bind_eq_ok.mp h
      obtain ⟨there, hthere, h⟩ := bind_eq_ok.mp h
      obtain rfl := Except.ok.inj h
      rcases List.mem_append.mp hf with hf | hf
      · have hline := ofRow_line hhere f hf
        omega
      · have hline := ih hthere f hf
        omega
    · rw [ofRows_of_not_declares hread] at h
      have hline := ih h f hf
      omega

theorem all_line {inner : Text} {first : Nat} {ms : Markers} {fs : List Field}
    (h : all inner first ms = .ok fs) :
    ∀ f ∈ fs, first ≤ f.line ∧ f.line ≤ first + newlines inner := by
  intro f hf
  have hline := ofRows_line h f hf
  have hrows := length_rows_le inner.masked
  have hnewlines := (blanked_masked inner).newlines_eq
  rw [List.length_zip] at hline
  omega

end Field

namespace Enumerator

theorem insert_subset (values : List Enumerator) (v : Enumerator) :
    insert values v ⊆ v :: values := by
  intro w hw
  unfold insert at hw
  split_ifs at hw
  · exact List.mem_cons_of_mem v hw
  · simpa [or_comm] using hw

theorem foldl_insert_subset (line : Nat) (names : List Text) (values : List Enumerator) :
    ∀ v ∈ names.foldl (fun vs name => insert vs ⟨name, line⟩) values,
      v ∈ values ∨ v.line = line := by
  induction names generalizing values with
  | nil => exact fun v hv => Or.inl hv
  | cons name names ih =>
    intro v hv
    rcases ih _ v hv with hv | hv
    · rcases List.mem_cons.mp (insert_subset _ _ hv) with rfl | hv
      · exact Or.inr rfl
      · exact Or.inl hv
    · exact Or.inr hv

theorem ofRows_line (rows : List (Text × LineClass)) (line : Nat) (values : List Enumerator) :
    ∀ v ∈ ofRows line values rows, v ∈ values ∨ line ≤ v.line ∧ v.line < line + rows.length := by
  induction rows generalizing line values with
  | nil => exact fun v hv => Or.inl hv
  | cons row rest ih =>
    intro v hv
    rw [List.length_cons]
    rcases ih _ _ v hv with hv | hv
    · rcases foldl_insert_subset line _ values v hv with hv | hv
      · exact Or.inl hv
      · exact Or.inr (by omega)
    · exact Or.inr (by omega)

theorem all_line (inner : Text) (first : Nat) (ms : Markers) :
    ∀ v ∈ all inner first ms, first ≤ v.line ∧ v.line ≤ first + newlines inner := by
  intro v hv
  have hrows := length_rows_le inner.masked
  have hnewlines := (blanked_masked inner).newlines_eq
  rcases ofRows_line _ _ _ v hv with hv | hv
  · cases hv
  · rw [List.length_zip] at hv
    omega

end Enumerator

/-! ## Finders -/

namespace Text

variable {text : Text} {b : Body}

theorem exists_bodyAt?_of_firstBody? {header : Regex} (h : firstBody? text header = some b) :
    ∃ start, bodyAt? text text.masked start = some b := by
  obtain ⟨s, -, hs⟩ := List.exists_of_findSome?_eq_some h
  exact ⟨s.start, hs⟩

theorem exists_bodyAt?_of_mem_bodiesFrom {header : Regex} {cursor : Nat}
    (h : b ∈ bodiesFrom text text.masked header cursor) :
    ∃ start, bodyAt? text text.masked start = some b := by
  fun_induction bodiesFrom text text.masked header cursor with
  | case1 => cases h
  | case2 cursor s _ _ ih =>
    rcases List.mem_append.mp h with h | h
    · exact ⟨s.start, Option.mem_toList.mp h⟩
    · exact ih h
  | case3 cursor s _ _ => exact ⟨s.start, Option.mem_toList.mp h⟩

theorem firstBody?_sits {header : Regex} (h : firstBody? text header = some b) :
    ∃ before head inner behind, b.Sits text before head inner behind := by
  obtain ⟨start, hstart⟩ := exists_bodyAt?_of_firstBody? h
  exact bodyAt?_sits hstart

theorem bodiesFrom_sits {header : Regex} {cursor : Nat}
    (h : b ∈ bodiesFrom text text.masked header cursor) :
    ∃ before head inner behind, b.Sits text before head inner behind := by
  obtain ⟨start, hstart⟩ := exists_bodyAt?_of_mem_bodiesFrom h
  exact bodyAt?_sits hstart

end Text

namespace Aggregate

variable {k : Aggregate} {text : Text} {name : String} {b : Body}

theorem exists_bodyAt? (h : k.body? text name = some b) :
    ∃ start, bodyAt? text text.masked start = some b := by
  rcases Option.or_eq_some_iff.mp h with h | ⟨-, h⟩
  · exact exists_bodyAt?_of_firstBody? h
  · exact exists_bodyAt?_of_mem_bodiesFrom (List.mem_of_find?_eq_some h)

theorem body?_sits (h : k.body? text name = some b) :
    ∃ before head inner behind, b.Sits text before head inner behind := by
  obtain ⟨start, hstart⟩ := exists_bodyAt? h
  exact bodyAt?_sits hstart

end Aggregate

namespace Body.Sits

variable {b : Body} {f : SourceFile} {before head inner behind : Text}

/-- Every line from the header through the closing brace is one of the file. -/
theorem hasLine (h : b.Sits f.text before head inner behind) {n : Nat} (hfirst : b.startLine ≤ n)
    (hlast : n ≤ b.endLine) : f.HasLine n := by
  have hstart := h.startLine_eq
  have hcount : b.endLine ≤ f.lineCount := by
    have hle := h.endLine_le
    rwa [← List.length_map dropReturns] at hle
  exact ⟨by omega, by omega⟩

end Body.Sits

theorem FunctionDef.find?_hasLine {f : SourceFile} {name : String} {d : FunctionDef}
    (h : find? f name = some d) {k : Nat} (hk : k ≤ newlines d.text) :
    f.HasLine (d.startLine + k) := by
  obtain ⟨b, hb, rfl⟩ := Option.map_eq_some_iff.mp h
  obtain ⟨before, head, inner, behind, hsits⟩ := firstBody?_sits hb
  exact hsits.hasLine (Nat.le_add_right _ _) (Nat.add_le_add_left hk _)

theorem StructDef.exists_body {f : SourceFile} {name : String} {ms : Markers} {d : StructDef}
    (h : find? f name ms = .ok (some d)) :
    ∃ b, Aggregate.struct.body? f.text name = some b ∧ d.startLine = b.startLine ∧
      Field.all b.inner b.openLine ms = .ok d.fields := by
  unfold find? at h
  split at h
  · cases h
  · next b hb =>
    obtain ⟨fields, hfields, h⟩ := bind_eq_ok.mp h
    rw [pure_eq_ok, Option.some.injEq] at h
    subst h
    exact ⟨b, hb, rfl, hfields⟩

/-- The definition and its fields lie within the file. -/
theorem StructDef.find?_hasLine {f : SourceFile} {name : String} {ms : Markers} {d : StructDef}
    (h : find? f name ms = .ok (some d)) :
    f.HasLine d.startLine ∧ ∀ m ∈ d.fields, f.HasLine m.line := by
  obtain ⟨b, hb, hstart, hfields⟩ := exists_body h
  obtain ⟨before, head, inner, behind, hsits⟩ := Aggregate.body?_sits hb
  have hopen := hsits.startLine_le_openLine
  have hadd := hsits.openLine_add
  refine ⟨hstart ▸ hsits.hasLine (Nat.le_refl _) (by omega), ?_⟩
  intro m hm
  have hline := Field.all_line hfields m hm
  rw [hsits.inner_eq] at hline
  exact hsits.hasLine (by omega) (by omega)

/-- The definition and its enumerators lie within the file. -/
theorem EnumDef.find?_hasLine {f : SourceFile} {name : String} {ms : Markers} {d : EnumDef}
    (h : find? f name ms = some d) :
    f.HasLine d.startLine ∧ ∀ v ∈ d.values, f.HasLine v.line := by
  obtain ⟨b, hb, rfl⟩ := Option.map_eq_some_iff.mp h
  obtain ⟨before, head, inner, behind, hsits⟩ := Aggregate.body?_sits hb
  have hopen := hsits.startLine_le_openLine
  have hadd := hsits.openLine_add
  refine ⟨hsits.hasLine (Nat.le_refl _) (by dsimp only; omega), ?_⟩
  intro v hv
  have hline := Enumerator.all_line _ _ _ v hv
  rw [hsits.inner_eq] at hline
  exact hsits.hasLine (by omega) (by omega)

end StructuralRules
