import StructuralRules.Proofs.Pattern.Spans
import StructuralRules.Proofs.Source.Members
import StructuralRules.Source.Call

/-!
# Where calls are

The header of a call ends in the parenthesis that opens its list. The line of a
call is looked for among the offsets at which lines start. The text has a closing
parenthesis, so it is not empty and that line exists.
-/

set_option autoImplicit false

namespace StructuralRules

open Text

namespace SourceFile

/-- As many lines start at or before an offset as the number of its line says. -/
theorem lineOfOffset_eq_countP (f : SourceFile) (offset : Nat) :
    f.lineOfOffset offset = (lineStarts f.text).countP (· ≤ offset) := by
  rw [lineOfOffset, lineFound_searchStarts (pairwise_lineStarts f.text), Nat.zero_add]

theorem hasLine_lineOfOffset {f : SourceFile} (h : f.text ≠ []) (offset : Nat) :
    f.HasLine (f.lineOfOffset offset) := by
  rw [lineOfOffset_eq_countP]
  constructor
  · rw [lineStarts, List.countP_cons_of_pos (by simp)]
    omega
  · have hle : (lineStarts f.text).countP (· ≤ offset) ≤ (lineStarts f.text).length :=
      List.countP_le_length
    rwa [length_lineStarts h, ← List.length_map dropReturns] at hle

/-- The line of a byte of a character is told by the line feeds before the character. -/
theorem lineOfOffset_within {f : SourceFile} {p : Text} {c : Char} {r : Text}
    (h : f.text = p ++ c :: r) {k : Nat} (hk : k < c.utf8Size) :
    f.lineOfOffset (byteLength p + k) = newlines p + 1 := by
  have hcount := countP_startsFrom 0 p c r hk
  rw [Nat.zero_add] at hcount
  rw [lineOfOffset_eq_countP, lineStarts, h, List.countP_cons_of_pos (by simp), hcount]

theorem lineOfOffset_byteLength {f : SourceFile} {p : Text} {c : Char} {r : Text}
    (h : f.text = p ++ c :: r) : f.lineOfOffset (byteLength p) = newlines p + 1 :=
  lineOfOffset_within h c.utf8Size_pos

end SourceFile

namespace Call

theorem header_endsWith (name : String) : Regex.EndsWith '(' (header name) :=
  .cat _ (.cat _ (.cat _ .char))

/-- The list of a call is closed, and between its parentheses stand the arguments. -/
theorem exists_list_of_atSpan? {file : SourceFile} {masked : Text} {classes : List LineClass}
    {name : String} {s : Span} {call : Call} (h : atSpan? file masked classes name s = some call) :
    ∃ list stop, drop? masked (s.stop - 1) = some list ∧
      closeFrom '(' ')' 0 (s.stop - 1) list = some stop ∧ call.name = name ∧
      call.line = file.lineOfOffset s.start ∧ call.offset = s.start ∧
      call.args = argsBetween masked file.text (s.stop - 1 + 1) (stop - 1) := by
  unfold atSpan? at h
  obtain ⟨list, hlist, h⟩ := Option.bind_eq_some_iff.mp h
  obtain ⟨stop, hstop, h⟩ := Option.bind_eq_some_iff.mp h
  refine ⟨list, stop, hlist, hstop, ?_⟩
  dsimp only at h
  split at h
  · cases h
  split at h
  · cases h
  split at h
  · cases h
  obtain rfl := Option.some.inj h
  exact ⟨rfl, rfl, rfl, rfl⟩

theorem atSpan?_eq_some {file : SourceFile} {masked : Text} {classes : List LineClass}
    {name : String} {s : Span} {call : Call} (h : atSpan? file masked classes name s = some call) :
    masked ≠ [] ∧ call.line = file.lineOfOffset s.start := by
  obtain ⟨list, stop, hlist, hstop, -, hline, -, -⟩ := exists_list_of_atSpan? h
  refine ⟨?_, hline⟩
  rintro rfl
  obtain ⟨u, v, rfl, -⟩ := closeFrom_eq_some hstop
  obtain ⟨p, hp, -⟩ := drop?_eq_some.mp hlist
  simp at hp

theorem all_hasLine {file : SourceFile} {name : String} {ms : Markers} {call : Call}
    (h : call ∈ all file name ms) : file.HasLine call.line := by
  obtain ⟨s, -, hs⟩ := List.mem_filterMap.mp h
  obtain ⟨hmasked, hline⟩ := atSpan?_eq_some hs
  rw [hline]
  exact SourceFile.hasLine_lineOfOffset (mt (blanked_masked file.text).eq_nil_iff.mpr hmasked) _

end Call
end StructuralRules
