import StructuralRules.Proofs.Checked.Body
import StructuralRules.Proofs.Source.Calls
import StructuralRules.Proofs.Text.Search

/-!
# Calls, checked

The header of a call ends in its opening parenthesis, so the byte before the end
of the match is that parenthesis. Both parentheses are kept by masking and stand
in the text at the same offsets as in the masked text.
-/

set_option autoImplicit false

namespace StructuralRules

open Text

namespace Checked

/-- What stands before byte `offset` on its line. -/
def lineHead (t : Text) (offset : Nat) : Except Fault Text := do
  let before ← sliceTo t offset
  slice t (((lastOffset? (· == '\n') before).map (· + 1)).getD 0) offset

/-- The arguments between two offsets; a blank list has none. -/
def argsBetween (masked text : Text) (start stop : Nat) : Except Fault (List Text) := do
  let list ← slice masked start stop
  let written ← slice text start stop
  return match splitTopLevel list written with
    | [[]] => []
    | args => args

/-- The call whose header matches at `s`. -/
def callAt (file : SourceFile) (masked : Text) (classes : List LineClass) (name : String)
    (s : Span) : Except Fault (Option Call) := do
  let opening ← sub s.stop 1
  match ← closeFrom '('.toUInt8 ')'.toUInt8 0 opening (masked.toBytes.drop opening) with
  | none => return none
  | some close =>
      let behind ← sliceFrom masked (close + 1)
      if (trimStart behind).head? == some '{' then return none
      if Call.isDeclaration (← lineHead masked s.start) then return none
      let line := file.lineOfOffset s.start
      let cls := (classes[← sub line 1]?).getD .code
      if !cls.isExecutable then return none
      let args ← argsBetween masked file.text (opening + 1) close
      return some ⟨name, line, s.start, args, cls⟩

/-- The calls of `name` in a file, in text order. -/
def calls (file : SourceFile) (name : String) (ms : Markers) : Except Fault (List Call) := do
  let masked ← masked file.text
  let classes ← classes file ms
  let found ← ((Call.header name).spans masked).mapM (callAt file masked classes name)
  return found.filterMap id

theorem lineHead_eq {t p r : Text} {offset : Nat} (ht : t = p ++ r)
    (ho : offset = byteLength p) : lineHead t offset = .ok (Call.lineHead t offset) := by
  have htake : take? t offset = some p := by rw [ht, ho, take?_append]
  rw [lineHead, sliceTo_eq_ok ht ho, ok_bind, Call.lineHead, htake, Option.getD_some]
  rcases last_split (· == '\n') p with hall | ⟨u, c, v, rfl, hc, hv⟩
  · have hline : p.reverse.takeWhile (· != '\n') = p.reverse := by
      rw [List.takeWhile_eq_self_iff]
      intro x hx
      simpa using hall x (List.mem_reverse.mp hx)
    rw [lastOffset?_eq_none hall, hline, List.reverse_reverse]
    exact slice_eq_ok (by rw [ht, List.nil_append]) byteLength_nil.symm (by simp [ho])
  · have hv' : ∀ x ∈ v.reverse, (x != '\n') = true := by
      intro x hx
      simpa using hv x (List.mem_reverse.mp hx)
    obtain rfl : c = '\n' := by simpa using hc
    have hone : byteLength ['\n'] = 1 := rfl
    have hline : (u ++ '\n' :: v).reverse.takeWhile (· != '\n') = v.reverse := by
      rw [List.reverse_append, List.reverse_cons, List.append_assoc,
        List.takeWhile_append_of_pos hv']
      simp
    rw [lastOffset?_append (p := (· == '\n')) hc hv, hline, List.reverse_reverse]
    refine slice_eq_ok (p := u ++ ['\n']) (r := r) ?_ ?_ ?_
    · rw [ht]
      simp
    · rw [byteLength_append, hone]
      rfl
    · rw [ho]
      simp only [byteLength_append, byteLength_cons, byteLength_nil]
      omega

/-- Both parentheses stand in the text too, so the list is cut there at the same offsets. -/
theorem argsBetween_eq {front list behind text : Text}
    (h : Blanked (front ++ '(' :: (list ++ ')' :: behind)) text) :
    argsBetween (front ++ '(' :: (list ++ ')' :: behind)) text (byteLength front + 1)
        (byteLength front + 1 + byteLength list) =
      .ok (Call.argsBetween (front ++ '(' :: (list ++ ')' :: behind)) text
        (byteLength front + 1) (byteLength front + 1 + byteLength list)) := by
  obtain ⟨front', rest, rfl, hfront, hrest⟩ := h.split_at (by decide)
  obtain ⟨list', behind', rfl, hlist, -⟩ := hrest.split_at (by decide)
  have hcut : ∀ u l v : Text, byteLength u = byteLength front → byteLength l = byteLength list →
      slice? (u ++ '(' :: (l ++ ')' :: v)) (byteLength front + 1)
        (byteLength front + 1 + byteLength list) = some l := by
    intro u l v hu hl
    have hparen : byteLength ['('] = 1 := rfl
    refine slice?_eq_some.mpr ⟨u ++ ['('], ')' :: v, ?_, ?_, ?_⟩
    · simp
    · rw [byteLength_append, hparen, hu]
    · rw [byteLength_append, hparen, hu, hl]
  rw [argsBetween, Call.argsBetween, slice, slice, Text.slice, Text.slice,
    hcut front list behind rfl rfl,
    hcut front' list' behind' hfront.byteLength_eq.symm hlist.byteLength_eq.symm]
  rfl

theorem callAt_eq {file : SourceFile} {name : String} {s : Span} {ms : Markers}
    (h : (Call.header name).FoundFrom 0 file.text.masked s) :
    callAt file file.text.masked (file.classes ms) name s =
      .ok (Call.atSpan? file file.text.masked (file.classes ms) name s) := by
  obtain ⟨before, m, behind, hs⟩ := h.delimits_endsWith (Call.header_endsWith name)
  have hparen : byteLength ['('] = 1 := rfl
  have hstop := hs.stop_eq
  rw [byteLength_append, hparen] at hstop
  -- The match ends in the parenthesis that opens the list.
  have hopening : s.stop - 1 = byteLength (before ++ m) := by
    rw [byteLength_append]
    omega
  have hmasked : file.text.masked = (before ++ m) ++ '(' :: behind := by
    rw [hs.text_eq]
    simp
  have hlist : drop? file.text.masked (s.stop - 1) = some ('(' :: behind) := by
    rw [hopening, hmasked, drop?_append]
  have hne : file.text ≠ [] := by
    intro hnil
    rw [hnil] at hmasked
    simp [Text.masked, maskedFrom] at hmasked
  have hline := SourceFile.hasLine_lineOfOffset hne s.start
  have hhead := lineHead_eq hs.text_eq hs.start_eq
  rw [callAt, sub_eq_ok (by omega), ok_bind, drop_toBytes hmasked hopening,
    closeFrom_open (by decide) (by decide), ok_bind, Call.atSpan?, hlist]
  simp only [Option.bind_eq_bind, Option.bind_some]
  cases hclose : Text.closeFrom '(' ')' 0 (s.stop - 1) ('(' :: behind) with
  | none => rfl
  | some stop =>
    obtain ⟨u, v, hu, hend⟩ := closeFrom_eq_some hclose
    cases u with
    | nil => simp at hu
    | cons c w =>
      obtain ⟨rfl, rfl⟩ := List.cons.inj hu
      have hone : '('.utf8Size = 1 := rfl
      have hone' : ')'.utf8Size = 1 := rfl
      rw [byteLength_cons] at hend
      have hpast : file.text.masked = ((before ++ m) ++ '(' :: (w ++ [')'])) ++ v := by
        rw [hmasked]
        simp
      have hpastOffset : stop = byteLength ((before ++ m) ++ '(' :: (w ++ [')'])) := by
        rw [byteLength_append, ← hopening]
        simp only [byteLength_append, byteLength_cons, byteLength_nil]
        omega
      have hback : stop - 1 + 1 = stop := by omega
      have hdrop : drop? file.text.masked stop = some v := by
        rw [hpast, hpastOffset, drop?_append]
      have hblank := blanked_masked file.text
      rw [hmasked] at hblank
      have hstart : s.stop - 1 + 1 = byteLength (before ++ m) + 1 := by rw [hopening]
      have hlast : stop - 1 = byteLength (before ++ m) + 1 + byteLength w := by omega
      have hargs : argsBetween file.text.masked file.text (s.stop - 1 + 1) (stop - 1) =
          .ok (Call.argsBetween file.text.masked file.text (s.stop - 1 + 1) (stop - 1)) := by
        rw [hstart, hlast, hmasked]
        exact argsBetween_eq hblank
      simp only [Option.map_some, Option.bind_some, hback, sliceFrom_eq_ok hpast hpastOffset,
        ok_bind, hdrop, Option.getD_some, hhead, sub_eq_ok hline.pos, hargs]
      split_ifs <;> rfl

theorem calls_eq (file : SourceFile) (name : String) (ms : Markers) :
    calls file name ms = .ok (Call.all file name ms) := by
  rw [calls, masked_eq, ok_bind, classes_eq, ok_bind]
  exact mapM_filterMap_eq_ok fun s hs => callAt_eq (Regex.spans_found hs)

end Checked
end StructuralRules
