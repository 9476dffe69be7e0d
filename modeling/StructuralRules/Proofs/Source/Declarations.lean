import StructuralRules.Proofs.Source.Members
import StructuralRules.Proofs.Text.Search

/-!
# Declarations that cannot be cut

Type and name of a field part one byte behind the start of the last character
that is no part of an identifier. That cuts a longer character apart. Reading
the fields of a struct fails just when an executable row outside all braces has
such a declaration.
-/

set_option autoImplicit false

namespace StructuralRules

namespace Text

/-- The last character that is no part of an identifier is longer than one byte. -/
def LongBeforeName (t : Text) : Prop :=
  ∃ u c v, t = u ++ c :: v ∧ isIdentChar c = false ∧ (∀ x ∈ v, isIdentChar x = true) ∧
    1 < c.utf8Size

/-- There is no cut inside a character. -/
theorem drop?_inside {u v : Text} {c : Char} (hc : 1 < c.utf8Size) :
    drop? (u ++ c :: v) (byteLength u + 1) = none := by
  rw [Option.eq_none_iff_forall_not_mem]
  intro r hr
  obtain ⟨p, hp, hlen⟩ := drop?_eq_some.mp hr
  obtain ⟨x, rfl, hx⟩ := exists_append_of_byteLength_le hp (by omega)
  rw [byteLength_append] at hlen
  cases x with
  | nil =>
    rw [byteLength_nil] at hlen
    omega
  | cons d x =>
    obtain ⟨rfl, -⟩ := List.cons.inj hx
    rw [byteLength_cons] at hlen
    omega

end Text

open Text

namespace Field

theorem lastOther_of_ident {t : Text} (h : ∀ x ∈ t, isIdentChar x = true) (off : Nat)
    (found : Option (Nat × Char)) : lastOther off found t = found := by
  induction t generalizing off with
  | nil => rfl
  | cons c t ih =>
    rw [lastOther, if_pos (h c List.mem_cons_self)]
    exact ih (fun x hx => h x (List.mem_cons_of_mem c hx)) _

theorem lastOther_append {u v : Text} {c : Char} (hc : isIdentChar c = false)
    (hv : ∀ x ∈ v, isIdentChar x = true) (off : Nat) (found : Option (Nat × Char)) :
    lastOther off found (u ++ c :: v) = some (off + byteLength u, c) := by
  induction u generalizing off found with
  | nil =>
    rw [List.nil_append, lastOther, lastOther_of_ident hv, hc]
    rfl
  | cons d u ih =>
    rw [List.cons_append, lastOther, ih, byteLength_cons, Nat.add_assoc]

theorem typeAndName_of_ident {head : Text} (h : ∀ x ∈ head, isIdentChar x = true) :
    typeAndName head = .ok ([], head) := by
  rw [typeAndName, lastOther_of_ident h]

theorem typeAndName_append {u v : Text} {c : Char} (hc : isIdentChar c = false)
    (hv : ∀ x ∈ v, isIdentChar x = true) :
    typeAndName (u ++ c :: v) =
      if c.utf8Size = 1 then .ok (u ++ [c], v)
      else .error ⟨byteLength u + 1, c, byteLength u, u ++ c :: v⟩ := by
  rw [typeAndName, lastOther_append hc hv, Nat.zero_add]
  dsimp only
  have hpos := c.utf8Size_pos
  split_ifs with hone
  · have hcut : u ++ c :: v = (u ++ [c]) ++ v := by simp
    have hoff : byteLength u + 1 = byteLength (u ++ [c]) := by simp [hone]
    rw [hcut, hoff, take?_append, drop?_append]
  · have hnone : drop? (u ++ c :: v) (byteLength u + 1) = none := drop?_inside (by omega)
    rw [hnone]
    split
    · next htake hdrop => cases hdrop
    · rfl

theorem typeAndName_error_iff {head : Text} :
    (∃ e, typeAndName head = .error e) ↔ head.LongBeforeName := by
  constructor
  · rintro ⟨e, he⟩
    rcases last_split (!isIdentChar ·) head with hall | ⟨u, c, v, rfl, hc, hv⟩
    · rw [typeAndName_of_ident fun x hx => by simpa using hall x hx] at he
      cases he
    · have hc : isIdentChar c = false := by simpa using hc
      have hv : ∀ x ∈ v, isIdentChar x = true := fun x hx => by simpa using hv x hx
      rw [typeAndName_append hc hv] at he
      have hpos := c.utf8Size_pos
      split_ifs at he with hone
      exact ⟨u, c, v, rfl, hc, hv, by omega⟩
  · rintro ⟨u, c, v, rfl, hc, hv, hlong⟩
    rw [typeAndName_append hc hv, if_neg (by omega)]
    exact ⟨_, rfl⟩

/-! ## One declaration -/

/-- Blanks before an array part are none of its brackets. -/
theorem trimStart_takeWhile (d : Text) :
    trimStart (d.takeWhile (· != '[')) = (trimStart d).takeWhile (· != '[') := by
  induction d with
  | nil => rfl
  | cons c d ih =>
    by_cases hc : isBlank c = true
    · have hbracket : (c != '[') = true := by
        rw [bne_iff_ne]
        rintro rfl
        cases hc
      rw [List.takeWhile_cons, if_pos hbracket, trimStart, List.dropWhile_cons, if_pos hc,
        trimStart, List.dropWhile_cons, if_pos hc]
      exact ih
    · rw [trimStart, trimStart, List.dropWhile_cons, if_neg hc, List.takeWhile_cons]
      split_ifs
      · rw [List.dropWhile_cons, if_neg hc]
      · rfl

/-- What the type and the name of a trimmed declaration are read from. -/
theorem head_eq (d : Text) :
    (if ((trim d).dropWhile (· != '[')).isEmpty then (trim d).takeWhile (· != '[')
      else trimEnd ((trim d).takeWhile (· != '['))) = trim (d.takeWhile (· != '[')) := by
  have htrim : trim (d.takeWhile (· != '[')) = trimEnd ((trimStart d).takeWhile (· != '[')) := by
    rw [trim, trimStart_takeWhile]
  rw [htrim, trim]
  generalize trimStart d = e
  obtain ⟨r, hr, hblank⟩ := exists_trimEnd e
  have hfree : ∀ c ∈ r, (c != '[') = true := by
    intro c hc
    rw [bne_iff_ne]
    rintro rfl
    cases hblank _ hc
  split_ifs with hempty
  · -- Without a bracket nothing is left out, and the end is trimmed already.
    have hall : ∀ c ∈ trimEnd e, (c != '[') = true :=
      List.dropWhile_eq_nil_iff.mp (List.isEmpty_iff.mp hempty)
    have he : ∀ c ∈ e, (c != '[') = true := by
      intro c hc
      rw [hr] at hc
      rcases List.mem_append.mp hc with hc | hc
      · exact hall c hc
      · exact hfree c hc
    rw [List.takeWhile_eq_self_iff.mpr hall, List.takeWhile_eq_self_iff.mpr he]
  · -- The first bracket is no blank, so trimming the end keeps it.
    have hlong : ((trimEnd e).takeWhile (· != '[')).length ≠ (trimEnd e).length := by
      intro hlen
      have hsum : (trimEnd e).length = ((trimEnd e).takeWhile (· != '[')).length +
          ((trimEnd e).dropWhile (· != '[')).length := by
        rw [← List.length_append, List.takeWhile_append_dropWhile]
      apply hempty
      exact List.isEmpty_iff.mpr (List.length_eq_zero_iff.mp (by omega))
    conv_rhs => rw [hr, List.takeWhile_append, if_neg hlong]

theorem parse_error_iff {d : Text} {line : Nat} :
    (∃ e, parse (trim (d ++ [';'])) line = .error e) ↔
      (∀ c ∈ d, c ∉ refused) ∧ (trim (d.takeWhile (· != '['))).LongBeforeName := by
  have hany : (trim d).any refused.contains = true ↔ ∃ c ∈ d, c ∈ refused := by
    have hblank : ∀ c ∈ refused, isBlank c = false := by
      have hall : refused.all (!isBlank ·) = true := by decide
      intro c hc
      simpa using List.all_eq_true.mp hall c hc
    simp only [List.any_eq_true, List.contains_iff_mem]
    constructor
    · rintro ⟨c, hc, href⟩
      exact ⟨c, (mem_trim (hblank c href)).mp hc, href⟩
    · rintro ⟨c, hc, href⟩
      exact ⟨c, (mem_trim (hblank c href)).mpr hc, href⟩
  have hlast : (trimStart d ++ [';']).getLast? = some ';' := by simp
  rw [trim_concat d (by decide), ← typeAndName_error_iff, parse, hlast]
  dsimp only
  rw [List.dropLast_concat, ← trim, head_eq]
  by_cases href : (trim d).any refused.contains = true
  · rw [if_pos href]
    obtain ⟨c, hc, hrefused⟩ := hany.mp href
    constructor
    · rintro ⟨e, he⟩
      cases he
    · rintro ⟨hfree, -⟩
      exact absurd hrefused (hfree c hc)
  · have hfree : ∀ c ∈ d, c ∉ refused := fun c hc hrefused => href (hany.mpr ⟨c, hc, hrefused⟩)
    rw [if_neg href]
    cases typeAndName (trim (d.takeWhile (· != '['))) with
    | error e => exact iff_of_true ⟨e, rfl⟩ ⟨hfree, e, rfl⟩
    | ok tn =>
      rw [ok_bind]
      split_ifs <;> simp [pure, Except.pure]

/-! ## Rows -/

/-- A piece of a row ends in its only semicolon or has none. -/
theorem declarations_semicolon {row d : Text} (h : d ∈ declarations row) :
    (∃ d', d = d' ++ [';']) ∨ ';' ∉ d := by
  induction row generalizing d with
  | nil => cases h
  | cons c row ih =>
    rw [declarations] at h
    split_ifs at h with hc
    · rcases List.mem_cons.mp h with rfl | h
      · exact Or.inl ⟨[], by rw [hc]; rfl⟩
      · exact ih h
    · split at h
      · obtain rfl := List.mem_singleton.mp h
        exact Or.inr (by simpa using Ne.symm hc)
      · next d₀ ds hds =>
        rcases List.mem_cons.mp h with rfl | h
        · rcases ih (by rw [hds]; exact List.mem_cons_self) with ⟨d', rfl⟩ | hfree
          · exact Or.inl ⟨c :: d', rfl⟩
          · exact Or.inr (by simp [hfree, Ne.symm hc])
        · exact ih (by rw [hds]; exact List.mem_cons_of_mem d₀ h)

/-- The row has a declaration, through its semicolon, that cannot be cut. -/
def Splits (row : Text) : Prop :=
  ∃ d, d ++ [';'] ∈ declarations row ∧ (∀ c ∈ d, c ∉ refused) ∧
    (trim (d.takeWhile (· != '['))).LongBeforeName

theorem parse_of_no_semicolon {d : Text} (h : ';' ∉ d) (line : Nat) :
    parse (trim d) line = .ok none := by
  rw [parse]
  split
  · next hlast =>
    exact absurd ((mem_trim (by decide)).mp (List.mem_of_getLast? hlast)) h
  · rfl

theorem ofRow_error_iff {row : Text} {line : Nat} :
    (∃ e, ofRow row line = .error e) ↔ Splits row := by
  have hmapM : (∃ e, ofRow row line = .error e) ↔
      ∃ d ∈ declarations row, ∃ e, parse (trim d) line = .error e := by
    rw [← mapM_error_iff]
    unfold ofRow
    cases (declarations row).mapM fun d => parse (trim d) line with
    | error e => simp
    | ok fields => simp [pure, Except.pure]
  rw [hmapM]
  constructor
  · rintro ⟨d, hd, e, he⟩
    rcases declarations_semicolon hd with ⟨d', rfl⟩ | hfree
    · obtain ⟨hrefused, hlong⟩ := parse_error_iff.mp ⟨e, he⟩
      exact ⟨d', hd, hrefused, hlong⟩
    · rw [parse_of_no_semicolon hfree] at he
      cases he
  · rintro ⟨d, hd, hrefused, hlong⟩
    exact ⟨_, hd, parse_error_iff.mpr ⟨hrefused, hlong⟩⟩

/-- The brace depth behind the first `i` rows. -/
def depthBefore (depth : Nat) (rows : List (Text × LineClass)) (i : Nat) : Nat :=
  (rows.take i).foldl (fun d row => depthAfter d row.1) depth

/-- Reading rows fails just when one that declares fields has a declaration that cannot be cut. -/
theorem ofRows_error_iff {rows : List (Text × LineClass)} {depth line : Nat} :
    (∃ e, ofRows depth line rows = .error e) ↔
      ∃ i row cls, rows[i]? = some (row, cls) ∧
        Declares (depthBefore depth rows i) row cls ∧ Splits row := by
  induction rows generalizing depth line with
  | nil => simp [ofRows]
  | cons head rest ih =>
    obtain ⟨row, cls⟩ := head
    -- A later row of the whole list is a row of the rest, at the depth behind the first one.
    have hlater : (∃ i row' cls', ((row, cls) :: rest)[i]? = some (row', cls') ∧
        Declares (depthBefore depth ((row, cls) :: rest) i) row' cls' ∧ Splits row') ↔
        (Declares depth row cls ∧ Splits row) ∨
          ∃ e, ofRows (depthAfter depth row) (line + 1) rest = .error e := by
      rw [ih]
      constructor
      · rintro ⟨i, row', cls', hget, hread, hsplits⟩
        cases i with
        | zero =>
          obtain ⟨rfl, rfl⟩ := Prod.mk.inj (Option.some.inj hget)
          exact Or.inl ⟨hread, hsplits⟩
        | succ i => exact Or.inr ⟨i, row', cls', hget, hread, hsplits⟩
      · rintro (⟨hread, hsplits⟩ | ⟨i, row', cls', hget, hread, hsplits⟩)
        · exact ⟨0, row, cls, rfl, hread, hsplits⟩
        · exact ⟨i + 1, row', cls', hget, hread, hsplits⟩
    rw [hlater]
    by_cases hread : Declares depth row cls
    · rw [ofRows_of_declares hread, ← @ofRow_error_iff row line]
      cases ofRow row line with
      | error e => simp [hread]
      | ok here =>
        rw [ok_bind]
        cases ofRows (depthAfter depth row) (line + 1) rest with
        | error e => simp
        | ok there => simp
    · rw [ofRows_of_not_declares hread]
      simp [hread]

/-- An executable row between the braces, outside all further ones and without any, has a
declaration that cannot be cut. -/
def Unreadable (inner : Text) (ms : Markers) : Prop :=
  let rows := (rows inner.masked).zip (ms.classifyLines (rows inner))
  ∃ i row cls, rows[i]? = some (row, cls) ∧ Declares (depthBefore 0 rows i) row cls ∧ Splits row

theorem all_error_iff {inner : Text} {first : Nat} {ms : Markers} :
    (∃ e, all inner first ms = .error e) ↔ Unreadable inner ms :=
  ofRows_error_iff

end Field

/-! ## Structs -/

namespace StructDef

theorem find?_error_iff {f : SourceFile} {name : String} {ms : Markers} :
    (∃ e, find? f name ms = .error e) ↔
      ∃ b, Aggregate.struct.body? f.text name = some b ∧ Field.Unreadable b.inner ms := by
  unfold find?
  cases Aggregate.struct.body? f.text name with
  | none => simp
  | some b =>
    simp only [Option.some.injEq, exists_eq_left']
    rw [← @Field.all_error_iff b.inner b.openLine ms]
    cases Field.all b.inner b.openLine ms with
    | error e => simp
    | ok fields => simp [pure, Except.pure]

theorem find?_eq_none_iff {f : SourceFile} {name : String} {ms : Markers} :
    find? f name ms = .ok none ↔ Aggregate.struct.body? f.text name = none := by
  unfold find?
  cases Aggregate.struct.body? f.text name with
  | none => simp
  | some b =>
    dsimp only
    cases Field.all b.inner b.openLine ms with
    | error e => simp
    | ok fields => simp [pure, Except.pure]

end StructDef
end StructuralRules
