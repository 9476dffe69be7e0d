import StructuralRules.Proofs.Checked.Text
import StructuralRules.Proofs.Pattern.Spans

/-!
# Bodies, checked

Brackets are counted byte by byte. The count starts on an opening bracket and so
never falls below zero, and the bytes of longer characters are no brackets. A
search for bodies always goes on behind the place where it found something.
-/

set_option autoImplicit false

namespace StructuralRules

open Text

/-- The text can be cut at the offset. -/
def Text.IsCut (t : Text) (a : Nat) : Prop :=
  ∃ p r, t = p ++ r ∧ a = byteLength p

theorem Regex.FoundFrom.isCut {r : Regex} {t : Text} {s : Span} (h : r.FoundFrom 0 t s) :
    t.IsCut s.start := by
  obtain ⟨before, m, behind, hs⟩ := h.delimits
  exact ⟨before, m ++ behind, hs.text_eq, hs.start_eq⟩

namespace Checked

/-! ## Matching brackets -/

/-- Offset of the bracket that closes the last of `depth` open ones, where `i` is the offset of
the bytes. -/
def closeFrom (opener closer : UInt8) (depth i : Nat) : Bytes → Except Fault (Option Nat)
  | [] => .ok none
  | b :: bs =>
      if b = opener then closeFrom opener closer (depth + 1) (i + 1) bs
      else if b = closer then do
        let depth ← sub depth 1
        if depth = 0 then return some i else closeFrom opener closer depth (i + 1) bs
      else closeFrom opener closer depth (i + 1) bs

theorem closeFrom_skip {opener closer : UInt8} {depth : Nat} {long : Bytes}
    (h : ∀ b ∈ long, b ≠ opener ∧ b ≠ closer) (i : Nat) (bs : Bytes) :
    closeFrom opener closer depth i (long ++ bs) =
      closeFrom opener closer depth (i + long.length) bs := by
  induction long generalizing i with
  | nil => rfl
  | cons b long ih =>
    obtain ⟨ho, hc⟩ := h b List.mem_cons_self
    rw [List.cons_append, closeFrom, if_neg ho, if_neg hc,
      ih fun b' hb' => h b' (List.mem_cons_of_mem b hb'), List.length_cons]
    congr 1
    omega

/-- Inside a bracket the count never falls below zero, and bytes and characters agree. -/
theorem closeFrom_toBytes {opener closer : Char} (ho : opener.toNat < 128)
    (hc : closer.toNat < 128) (t : Text) {depth : Nat} (hdepth : 0 < depth) (off : Nat) :
    closeFrom opener.toUInt8 closer.toUInt8 depth off t.toBytes =
      .ok ((Text.closeFrom opener closer depth off t).map (· - 1)) := by
  induction t generalizing depth off with
  | nil => rfl
  | cons c t ih =>
    rw [toBytes_cons, Text.closeFrom]
    by_cases hascii : c.toNat < 128
    · have hone : c.utf8Size = 1 := utf8Size_eq_one.mpr hascii
      rw [encode_of_ascii hascii, List.singleton_append, closeFrom, hone]
      simp only [toUInt8_inj hascii ho, toUInt8_inj hascii hc]
      split_ifs with hopen hclose hlast
      · exact ih (by omega) _
      · rw [sub_eq_ok hdepth, ok_bind, if_pos (by omega)]
        simp [pure, Except.pure]
      · rw [sub_eq_ok hdepth, ok_bind, if_neg (by omega)]
        exact ih (by omega) _
      · exact ih hdepth _
    · have hother : ∀ b ∈ String.utf8EncodeChar c, b ≠ opener.toUInt8 ∧ b ≠ closer.toUInt8 := by
        intro b hb
        have hle := le_of_mem_encode hascii hb
        have hob := toNat_toUInt8 ho
        have hcb := toNat_toUInt8 hc
        constructor
        · rintro rfl
          omega
        · rintro rfl
          omega
      have hopen : c ≠ opener := by
        rintro rfl
        exact hascii ho
      have hclose : c ≠ closer := by
        rintro rfl
        exact hascii hc
      rw [closeFrom_skip hother, String.length_utf8EncodeChar, if_neg hopen, if_neg hclose]
      exact ih hdepth _

theorem closeFrom_open {opener closer : Char} (ho : opener.toNat < 128) (hc : closer.toNat < 128)
    (t : Text) (off : Nat) :
    closeFrom opener.toUInt8 closer.toUInt8 0 off (Text.toBytes (opener :: t)) =
      .ok ((Text.closeFrom opener closer 0 off (opener :: t)).map (· - 1)) := by
  have hone : opener.utf8Size = 1 := utf8Size_eq_one.mpr ho
  rw [toBytes_cons, encode_of_ascii ho, List.singleton_append, closeFrom, if_pos rfl,
    Text.closeFrom, if_pos rfl, hone]
  exact closeFrom_toBytes ho hc t (by omega) _

theorem drop_toBytes {t p r : Text} {a : Nat} (ht : t = p ++ r) (ha : a = byteLength p) :
    t.toBytes.drop a = r.toBytes := by
  rw [ht, toBytes_append, ha, ← length_toBytes, List.drop_left]

/-! ## Bodies -/

/-- The body whose header starts at `start`. -/
def bodyAt (text masked : Text) (start : Nat) : Except Fault (Option Body) := do
  let behind ← sliceFrom masked start
  match offsetOf? (· == '{') behind with
  | none => return none
  | some k =>
      let opening := start + k
      let close ← closeFrom '{'.toUInt8 '}'.toUInt8 0 opening (masked.toBytes.drop opening)
      return do
        let stop := (← close) + 1
        let before ← take? text start
        let body ← slice? text start stop
        some ⟨start, opening, stop, newlines before + 1, body⟩

def firstBody (text : Text) (header : Regex) : Except Fault (Option Body) := do
  let masked ← masked text
  (header.spans masked).findSomeM? fun s => bodyAt text masked s.start

/-- The bodies from `cursor` on. A search does not start behind the end of the text. -/
def bodiesFrom (text masked : Text) (header : Regex) (cursor : Nat) : Except Fault (List Body) :=
  if byteLength masked < cursor then .error (.cut masked cursor)
  else
    match header.findAt? masked cursor with
    | none => .ok []
    | some s =>
        match bodyAt text masked s.start with
        | .error e => .error e
        | .ok body =>
            if byteLength masked ≤ cursorAfter body s then .ok body.toList
            else if cursor < cursorAfter body s then do
              return body.toList ++ (← bodiesFrom text masked header (cursorAfter body s))
            else .error .stuck
termination_by byteLength masked - cursor
decreasing_by omega

def bodies (text : Text) (header : Regex) : Except Fault (List Body) := do
  bodiesFrom text (← masked text) header 0

theorem bodyAt_eq {text masked : Text} {start : Nat} (h : masked.IsCut start) :
    bodyAt text masked start = .ok (bodyAt? text masked start) := by
  obtain ⟨p, r, hm, hstart⟩ := h
  have hdrop : drop? masked start = some r := by rw [hm, hstart, drop?_append]
  rw [bodyAt, sliceFrom_eq_ok hm hstart, ok_bind, bodyAt?, hdrop]
  simp only [Option.bind_eq_bind, Option.bind_some]
  cases hk : offsetOf? (· == '{') r with
  | none => rfl
  | some k =>
    obtain ⟨u, c, v, rfl, rfl, hc, -⟩ := offsetOf?_eq_some.mp hk
    obtain rfl : c = '{' := by simpa using hc
    have hcut : masked = (p ++ u) ++ '{' :: v := by rw [hm, List.append_assoc]
    have hopening : start + byteLength u = byteLength (p ++ u) := by
      rw [hstart, byteLength_append]
    have hbraced : drop? masked (start + byteLength u) = some ('{' :: v) := by
      rw [hopening, hcut, drop?_append]
    simp only [Option.bind_some, hbraced, drop_toBytes hcut hopening]
    rw [closeFrom_open (by decide) (by decide), ok_bind]
    cases hclose : Text.closeFrom '{' '}' 0 (start + byteLength u) ('{' :: v) with
    | none => rfl
    | some stop =>
      obtain ⟨_, _, _, hstop⟩ := closeFrom_eq_some hclose
      have hone : '}'.utf8Size = 1 := rfl
      have hback : stop - 1 + 1 = stop := by omega
      simp only [Option.map_some, Option.bind_some, hback]
      rfl

theorem firstBody_eq (text : Text) (header : Regex) :
    firstBody text header = .ok (firstBody? text header) := by
  rw [firstBody, masked_eq, ok_bind, firstBody?]
  exact findSomeM?_eq_ok fun s hs => bodyAt_eq (Regex.spans_found hs).isCut

/-- A search goes on behind the place where it found something. -/
theorem lt_cursorAfter {text : Text} {s : Span} :
    s.start < cursorAfter (bodyAt? text text.masked s.start) s := by
  unfold cursorAfter
  split
  · next b hb =>
    obtain ⟨before, head, inner, behind, hsits⟩ := bodyAt?_sits hb
    have hheader : b.header = s.start := bodyAt?_header hb
    have hle := hsits.header_eq
    have hstop := hsits.stop_eq
    omega
  · omega

theorem bodiesFrom_eq {text : Text} {header : Regex} {cursor : Nat}
    (h : cursor ≤ byteLength text.masked) :
    bodiesFrom text text.masked header cursor =
      .ok (Text.bodiesFrom text text.masked header cursor) := by
  fun_induction Text.bodiesFrom text text.masked header cursor with
  | case1 cursor hnone =>
    rw [bodiesFrom, if_neg (by omega), hnone]
  | case2 cursor s hs hnext ih =>
    rw [bodiesFrom, if_neg (by omega), hs]
    dsimp only
    rw [bodyAt_eq (Regex.findAt?_eq_some hs).2.isCut]
    dsimp only
    rw [if_neg (by omega), if_pos hnext.1, ih (by omega)]
    rfl
  | case3 cursor s hs hnext =>
    have hcursor := (Regex.findAt?_eq_some hs).1
    have hlt := @lt_cursorAfter text s
    rw [bodiesFrom, if_neg (by omega), hs]
    dsimp only
    rw [bodyAt_eq (Regex.findAt?_eq_some hs).2.isCut]
    dsimp only
    rw [if_pos (by omega)]

theorem bodies_eq (text : Text) (header : Regex) :
    bodies text header = .ok (Text.bodies text header) := by
  rw [bodies, masked_eq, ok_bind]
  exact bodiesFrom_eq (Nat.zero_le _)

/-! ## Parts of bodies, and functions -/

/-- The text between the braces. -/
def inner (b : Body) : Except Fault Text := do
  let opening ← sub b.opening b.header
  let close ← sub (← sub b.stop b.header) 1
  slice b.text (opening + 1) close

/-- Line of the opening brace. -/
def openLine (b : Body) : Except Fault Nat := do
  let opening ← sub b.opening b.header
  return b.startLine + newlines (← sliceTo b.text opening)

def findFunction (file : SourceFile) (name : String) : Except Fault (Option FunctionDef) := do
  match ← firstBody file.text (FunctionDef.header name) with
  | none => return none
  | some b =>
      return some ⟨name, b.startLine, b.endLine, b.text, ← inner b, ← openLine b⟩

/-- The body of the tagged definition or else of the type definition with that name. -/
def findAggregate (k : Aggregate) (text : Text) (name : String) : Except Fault (Option Body) := do
  match ← firstBody text (k.taggedHeader name) with
  | some b => return some b
  | none =>
      let masked ← masked text
      (← bodies text k.typedefHeader).findM? fun b => do
        return (Aggregate.aliasAfter name).isMatch (← sliceFrom masked b.stop)

section

variable {b : Body} {text before head inside behind : Text}

theorem inner_eq (h : b.Sits text before head inside behind) : inner b = .ok b.inner := by
  have hheader := h.header_eq
  have hopening := h.opening_eq
  have hstop := h.stop_eq
  have hbrace : byteLength ['{'] = 1 := rfl
  have hcut : b.text = (head ++ ['{']) ++ (inside ++ ['}']) := by
    rw [h.body_eq, List.append_assoc, List.singleton_append]
  rw [inner, sub_eq_ok (by omega), ok_bind, sub_eq_ok (by omega), ok_bind, sub_eq_ok (by omega),
    ok_bind, h.inner_eq]
  refine slice_eq_ok hcut ?_ ?_
  · rw [byteLength_append]
    omega
  · rw [byteLength_append]
    omega

theorem openLine_eq (h : b.Sits text before head inside behind) : openLine b = .ok b.openLine := by
  have hheader := h.header_eq
  have hopening := h.opening_eq
  rw [openLine, sub_eq_ok (by omega), ok_bind, sliceTo_eq_ok h.body_eq (by omega), ok_bind,
    h.openLine_eq]
  rfl

theorem findFunction_eq (file : SourceFile) (name : String) :
    findFunction file name = .ok (FunctionDef.find? file name) := by
  rw [findFunction, firstBody_eq, ok_bind, FunctionDef.find?]
  cases hb : firstBody? file.text (FunctionDef.header name) with
  | none => rfl
  | some b =>
    obtain ⟨before, head, inside, behind, hsits⟩ := firstBody?_sits hb
    dsimp only
    rw [inner_eq hsits, ok_bind, openLine_eq hsits, ok_bind]
    rfl

/-- The masked text can be cut behind a body. -/
theorem isCut_stop (h : b.Sits text before head inside behind) : text.masked.IsCut b.stop := by
  have hblank := blanked_masked text
  have hbrace : byteLength ['{'] = 1 := rfl
  have hclose : byteLength ['}'] = 1 := rfl
  have htext : text = (before ++ (head ++ (['{'] ++ (inside ++ ['}'])))) ++ behind := by
    rw [h.text_eq]
    simp
  nth_rewrite 2 [htext] at hblank
  obtain ⟨mp, mr, hm, hp, -⟩ := hblank.split_text
  have hlen := hp.byteLength_eq
  have hstop := h.stop_eq
  simp only [byteLength_append] at hlen
  exact ⟨mp, mr, hm, by omega⟩

end

theorem findAggregate_eq (k : Aggregate) (text : Text) (name : String) :
    findAggregate k text name = .ok (k.body? text name) := by
  rw [findAggregate, firstBody_eq, ok_bind, Aggregate.body?]
  cases hb : firstBody? text (k.taggedHeader name) with
  | some b => rfl
  | none =>
    dsimp only
    rw [masked_eq, ok_bind, bodies_eq, ok_bind, Option.none_or]
    refine findM?_eq_ok fun b hb => ?_
    obtain ⟨before, head, inside, behind, hsits⟩ := bodiesFrom_sits hb
    obtain ⟨p, r, hm, hstop⟩ := isCut_stop hsits
    have hdrop : drop? text.masked b.stop = some r := by
      rw [hm, hstop, drop?_append]
    rw [sliceFrom_eq_ok hm hstop, ok_bind, hdrop]
    rfl

end Checked
end StructuralRules
