import StructuralRules.Proofs.Checked.Body
import StructuralRules.Proofs.Pattern.Leftmost
import StructuralRules.Proofs.Source.Braces

/-!
# The search for all bodies

A search for bodies goes from match to match. Behind a match with a body it goes
on at the end of the body, behind any other one at the end of the match, or one
byte behind its start. `Text.Rounds` lists the matches it comes to and
`Text.Reaches` says which body it comes to next; neither mentions a bound. The
search for one body lists matches that do not overlap. Where no match is empty,
the two come to the same first body.
-/

set_option autoImplicit false

namespace StructuralRules

open Text Regex

/-- A header in front of an opening brace is not at the end of the text. -/
theorem Text.OpensAt.start_lt {m : Text} {start opening : Nat} (h : OpensAt m start opening) :
    start < byteLength m := by
  obtain ⟨head, rest, hhead, -, hopen⟩ := h
  obtain ⟨p, hm, hp⟩ := drop?_eq_some.mp hopen
  obtain ⟨-, -, -, hopening⟩ := drop?_of_slice? hhead
  have hbrace : '{'.utf8Size = 1 := rfl
  rw [hm, byteLength_append, byteLength_cons]
  omega

theorem Body.CutAt.header_lt_stop {b : Body} {t : Text} {start : Nat} (h : b.CutAt t start) :
    b.header < b.stop := by
  obtain ⟨before, head, inner, behind, hsits⟩ := bodyAt?_sits (bodyAt?_eq_some_iff.mpr h)
  have hheader := hsits.header_eq
  have hstop := hsits.stop_eq
  omega

namespace Text

/-! ## Rounds -/

/-- The place where the search goes on behind the match `s`. -/
def cursorBehind (t : Text) (s : Span) : Nat :=
  cursorAfter (bodyAt? t t.masked s.start) s

/-- The matches that the search for bodies comes to from `cursor` on: the leftmost one each
time, until there is none or the end of the text is reached. -/
inductive Rounds (t : Text) (header : Regex) : Nat → List Span → Prop
  | none {cursor : Nat} : (∀ s, header.MatchAt t.masked s → s.start < cursor) →
      Rounds t header cursor []
  | last {cursor : Nat} {s : Span} : header.FirstFrom t.masked cursor s →
      byteLength t.masked ≤ t.cursorBehind s → Rounds t header cursor [s]
  | next {cursor : Nat} {s : Span} {ss : List Span} : header.FirstFrom t.masked cursor s →
      t.cursorBehind s < byteLength t.masked → Rounds t header (t.cursorBehind s) ss →
      Rounds t header cursor (s :: ss)

/-- The body that the search comes to from `cursor` on: that of the leftmost match, or the one
it comes to behind a match without a body. -/
inductive Reaches (t : Text) (header : Regex) : Nat → Body → Prop
  | here {cursor : Nat} {s : Span} {b : Body} : header.FirstFrom t.masked cursor s →
      b.CutAt t s.start → Reaches t header cursor b
  | pass {cursor : Nat} {s : Span} {b : Body} : header.FirstFrom t.masked cursor s →
      t.Bodiless s.start → Reaches t header (max s.stop (s.start + 1)) b →
      Reaches t header cursor b

variable {t : Text} {header : Regex} {cursor : Nat} {s : Span} {b : Body}

/-- Every round brings the search forward. -/
theorem lt_cursorBehind (h : header.FirstFrom t.masked cursor s) :
    cursor < t.cursorBehind s :=
  Nat.lt_of_le_of_lt h.reached Checked.lt_cursorAfter

theorem exists_firstFrom (h : ¬ ∀ s, header.MatchAt t.masked s → s.start < cursor) :
    ∃ s, header.FirstFrom t.masked cursor s := by
  obtain ⟨s, hs⟩ := Option.ne_none_iff_exists'.mp (mt findAt?_eq_none_iff.mp h)
  exact ⟨s, findAt?_eq_some_iff.mp hs⟩

/-- Induction along the rounds of a search. -/
theorem search_induction (t : Text) (header : Regex) {motive : Nat → Prop}
    (stop : ∀ cursor, (∀ s, header.MatchAt t.masked s → s.start < cursor) → motive cursor)
    (round : ∀ cursor s, header.FirstFrom t.masked cursor s → motive (t.cursorBehind s) →
      motive cursor)
    (cursor : Nat) : motive cursor := by
  by_cases hnone : ∀ s, header.MatchAt t.masked s → s.start < cursor
  · exact stop cursor hnone
  · obtain ⟨s, hs⟩ := exists_firstFrom hnone
    have hprogress := lt_cursorBehind hs
    have hreached := hs.reached
    have hend := hs.found.start_le
    exact round cursor s hs (search_induction t header stop round (t.cursorBehind s))
termination_by byteLength t.masked + 1 - cursor
decreasing_by omega

theorem bodiesFrom_eq_nil (h : ∀ s, header.MatchAt t.masked s → s.start < cursor) :
    bodiesFrom t t.masked header cursor = [] := by
  rw [bodiesFrom, findAt?_eq_none_iff.mpr h]

/-- The progress that the search asks for is always made. -/
theorem bodiesFrom_next (h : header.FirstFrom t.masked cursor s)
    (hnext : t.cursorBehind s < byteLength t.masked) :
    bodiesFrom t t.masked header cursor = (bodyAt? t t.masked s.start).toList ++
      bodiesFrom t t.masked header (t.cursorBehind s) := by
  rw [bodiesFrom, findAt?_eq_some_iff.mpr h]
  exact if_pos ⟨lt_cursorBehind h, hnext⟩

theorem bodiesFrom_last (h : header.FirstFrom t.masked cursor s)
    (hend : byteLength t.masked ≤ t.cursorBehind s) :
    bodiesFrom t t.masked header cursor = (bodyAt? t t.masked s.start).toList := by
  rw [bodiesFrom, findAt?_eq_some_iff.mpr h]
  exact if_neg fun hnext => Nat.not_lt_of_le hend hnext.2

/-- The rounds of a search end, and the bodies are those of its matches. -/
theorem exists_rounds (t : Text) (header : Regex) (cursor : Nat) :
    ∃ ss, Rounds t header cursor ss ∧
      bodiesFrom t t.masked header cursor = ss.filterMap fun s => bodyAt? t t.masked s.start := by
  induction cursor using search_induction t header with
  | stop cursor hnone => exact ⟨[], .none hnone, bodiesFrom_eq_nil hnone⟩
  | round cursor s hs ih =>
    by_cases hnext : t.cursorBehind s < byteLength t.masked
    · obtain ⟨ss, hrounds, hbodies⟩ := ih
      refine ⟨s :: ss, .next hs hnext hrounds, ?_⟩
      rw [bodiesFrom_next hs hnext, hbodies, List.filterMap_cons]
      cases bodyAt? t t.masked s.start with
      | none => rfl
      | some b => rfl
    · have hend := Nat.le_of_not_lt hnext
      refine ⟨[s], .last hs hend, ?_⟩
      rw [bodiesFrom_last hs hend, List.filterMap_cons]
      cases bodyAt? t t.masked s.start with
      | none => rfl
      | some b => rfl

/-- The cursor of a search only grows. -/
theorem Rounds.increasing {ss : List Span} (h : Rounds t header cursor ss) :
    (cursor :: ss.map t.cursorBehind).Pairwise (· < ·) := by
  induction h with
  | none => exact List.pairwise_singleton _ _
  | last hs => simpa using lt_cursorBehind hs
  | @next cursor s ss hs _ _ ih =>
    have hlt := lt_cursorBehind hs
    refine List.pairwise_cons.mpr ⟨?_, ih⟩
    intro next hnext
    obtain rfl | hlater := List.mem_cons.mp hnext
    · exact hlt
    · exact Nat.lt_trans hlt ((List.pairwise_cons.mp ih).1 next hlater)

/-! ## The next body -/

theorem bodyAt?_eq_none_of_le (h : byteLength t.masked ≤ cursor) :
    bodyAt? t t.masked cursor = none := by
  rw [Option.eq_none_iff_forall_ne_some]
  intro b hb
  have hlt := (bodyAt?_eq_some_iff.mp hb).opens.start_lt
  omega

/-- Behind the end of the text there is no body. -/
theorem bodiesFrom_of_le (h : byteLength t.masked ≤ cursor) :
    bodiesFrom t t.masked header cursor = [] := by
  by_cases hnone : ∀ s, header.MatchAt t.masked s → s.start < cursor
  · exact bodiesFrom_eq_nil hnone
  · obtain ⟨s, hs⟩ := exists_firstFrom hnone
    have hprogress := lt_cursorBehind hs
    rw [bodiesFrom_last hs (by omega), bodyAt?_eq_none_of_le (Nat.le_trans h hs.reached)]
    rfl

theorem bodiesFrom_eq (h : header.FirstFrom t.masked cursor s) :
    bodiesFrom t t.masked header cursor = (bodyAt? t t.masked s.start).toList ++
      bodiesFrom t t.masked header (t.cursorBehind s) := by
  by_cases hnext : t.cursorBehind s < byteLength t.masked
  · exact bodiesFrom_next h hnext
  · have hend := Nat.le_of_not_lt hnext
    rw [bodiesFrom_last h hend, bodiesFrom_of_le hend, List.append_nil]

theorem bodiless_of_matchAt (h : header.MatchAt t.masked s)
    (hb : bodyAt? t t.masked s.start = none) : t.Bodiless s.start := by
  obtain ⟨before, m, behind, hdelimits⟩ := h.foundFrom.delimits
  have hrest : drop? t.masked s.start = some (m ++ behind) := by
    rw [hdelimits.start_eq, hdelimits.text_eq, drop?_append]
  exact (bodyAt?_eq_none_iff hrest).mp hb

theorem not_cutAt_of_bodiless {start : Nat} (h : t.Bodiless start) : ¬ b.CutAt t start := by
  intro hcut
  obtain ⟨rest, hrest⟩ := hcut.opens.exists_rest
  have hb := bodyAt?_eq_some_iff.mpr hcut
  rw [(bodyAt?_eq_none_iff hrest).mpr h] at hb
  cases hb

/-- Where the leftmost match has a body, that is the one the search comes to. -/
theorem reaches_of_body {b' : Body} (hs : header.FirstFrom t.masked cursor s)
    (hb : bodyAt? t t.masked s.start = some b) : Reaches t header cursor b' ↔ b = b' := by
  have hcut := bodyAt?_eq_some_iff.mp hb
  constructor
  · intro h
    cases h with
    | here hs' hcut' =>
      obtain rfl := hs.unique hs'
      exact Option.some.inj (hb.symm.trans (bodyAt?_eq_some_iff.mpr hcut'))
    | pass hs' hno _ =>
      obtain rfl := hs.unique hs'
      exact absurd hcut (not_cutAt_of_bodiless hno)
  · rintro rfl
    exact .here hs hcut

/-- Where it has none, the search goes on. -/
theorem reaches_of_bodiless (hs : header.FirstFrom t.masked cursor s)
    (hb : bodyAt? t t.masked s.start = none) :
    Reaches t header cursor b ↔ Reaches t header (t.cursorBehind s) b := by
  have hbehind : t.cursorBehind s = max s.stop (s.start + 1) := by
    rw [cursorBehind, hb]
    rfl
  have hno := bodiless_of_matchAt hs.found hb
  rw [hbehind]
  constructor
  · intro h
    cases h with
    | here hs' hcut =>
      obtain rfl := hs.unique hs'
      exact absurd hcut (not_cutAt_of_bodiless hno)
    | pass hs' _ hnext =>
      obtain rfl := hs.unique hs'
      exact hnext
  · exact .pass hs hno

theorem not_reaches (h : ∀ s, header.MatchAt t.masked s → s.start < cursor) :
    ¬ Reaches t header cursor b := by
  have hnone : ∀ {s}, ¬ header.FirstFrom t.masked cursor s := fun hs =>
    Nat.not_lt_of_le hs.reached (h _ hs.found)
  intro hreaches
  cases hreaches with
  | here hs _ => exact hnone hs
  | pass hs _ _ => exact hnone hs

/-- The first body from `cursor` on is the one the search comes to. -/
theorem head?_bodiesFrom :
    (bodiesFrom t t.masked header cursor).head? = some b ↔ Reaches t header cursor b := by
  induction cursor using search_induction t header with
  | stop cursor hnone =>
    rw [bodiesFrom_eq_nil hnone]
    exact iff_of_false nofun (not_reaches hnone)
  | round cursor s hs ih =>
    rw [bodiesFrom_eq hs]
    cases hb : bodyAt? t t.masked s.start with
    | none =>
      rw [reaches_of_bodiless hs hb]
      exact ih
    | some b' =>
      rw [reaches_of_body hs hb]
      exact Option.some_inj

theorem Reaches.le_header (h : Reaches t header cursor b) : cursor ≤ b.header := by
  induction h with
  | here hs hcut =>
    rw [hcut.header_eq]
    exact hs.reached
  | pass hs _ _ ih =>
    have hreached := hs.reached
    omega

theorem Reaches.exists_match (h : Reaches t header cursor b) :
    ∃ s, header.MatchAt t.masked s ∧ b.CutAt t s.start := by
  induction h with
  | here hs hcut => exact ⟨_, hs.found, hcut⟩
  | pass _ _ _ ih => exact ih

/-- Behind its first body the search is one from the end of that body. -/
theorem bodiesFrom_tail {bs : List Body} (h : bodiesFrom t t.masked header cursor = b :: bs) :
    bs = bodiesFrom t t.masked header b.stop := by
  induction cursor using search_induction t header with
  | stop cursor hnone =>
    rw [bodiesFrom_eq_nil hnone] at h
    cases h
  | round cursor s hs ih =>
    rw [bodiesFrom_eq hs] at h
    cases hb : bodyAt? t t.masked s.start with
    | none =>
      rw [hb] at h
      exact ih h
    | some b' =>
      rw [hb] at h
      obtain ⟨rfl, rfl⟩ := List.cons.inj h
      rw [cursorBehind, hb]
      rfl

theorem drop_bodiesFrom {i : Nat} (h : (bodiesFrom t t.masked header cursor)[i]? = some b) :
    (bodiesFrom t t.masked header cursor).drop (i + 1) = bodiesFrom t t.masked header b.stop := by
  induction i generalizing cursor with
  | zero =>
    obtain ⟨bs, hbs⟩ := List.head?_eq_some_iff.mp (List.head?_eq_getElem?.trans h)
    rw [hbs, List.drop_one, List.tail_cons]
    exact bodiesFrom_tail hbs
  | succ i ih =>
    cases hbs : bodiesFrom t t.masked header cursor with
    | nil =>
      rw [hbs] at h
      cases h
    | cons b' bs =>
      rw [hbs, List.getElem?_cons_succ, bodiesFrom_tail hbs] at h
      rw [List.drop_succ_cons, bodiesFrom_tail hbs]
      exact ih h

/-- The bodies stand behind the cursor and one behind the other, each at a match. -/
theorem bodiesFrom_ordered {bs : List Body} (h : bodiesFrom t t.masked header cursor = bs) :
    (∀ b ∈ bs, cursor ≤ b.header ∧ ∃ s, header.MatchAt t.masked s ∧ b.CutAt t s.start) ∧
      bs.Pairwise fun b b' => b.stop ≤ b'.header := by
  induction bs generalizing cursor with
  | nil => exact ⟨nofun, .nil⟩
  | cons b bs ih =>
    have hreaches : Reaches t header cursor b := head?_bodiesFrom.mp (by rw [h]; rfl)
    obtain ⟨s, hs, hcut⟩ := hreaches.exists_match
    have hle := hreaches.le_header
    have hlt := hcut.header_lt_stop
    obtain ⟨hlater, hordered⟩ := ih (bodiesFrom_tail h).symm
    constructor
    · intro b' hb'
      obtain rfl | hb' := List.mem_cons.mp hb'
      · exact ⟨hle, s, hs, hcut⟩
      · obtain ⟨hle', hmatch⟩ := hlater b' hb'
        exact ⟨by omega, hmatch⟩
    · exact List.pairwise_cons.mpr ⟨fun b' hb' => (hlater b' hb').1, hordered⟩

/-! ## The first body -/

/-- Where no match is empty, the first of the matches that has a body is the one the search
for all bodies comes to. -/
theorem findSome?_spansFrom {last : Option Nat}
    (hread : ∀ s, header.MatchAt t.masked s → s.start < s.stop) :
    (header.spansFrom cursor last none 0 t.masked).findSome?
      (fun s => bodyAt? t t.masked s.start) = some b ↔ Reaches t header cursor b := by
  induction cursor using search_induction t header generalizing last with
  | stop cursor hnone =>
    have hfind : header.findFrom cursor none 0 t.masked = none := findAt?_eq_none_iff.mpr hnone
    rw [spansFrom_eq hread, hfind]
    exact iff_of_false nofun (not_reaches hnone)
  | round cursor s hs ih =>
    have hfind : header.findFrom cursor none 0 t.masked = some s := findAt?_eq_some_iff.mpr hs
    rw [spansFrom_eq hread, hfind]
    dsimp only
    rw [List.findSome?_cons]
    cases hb : bodyAt? t t.masked s.start with
    | none =>
      -- The match is not empty, so both go on at its end.
      have hlt := hread s hs.found
      have hbehind : t.cursorBehind s = s.stop := by
        rw [cursorBehind, hb]
        exact Nat.max_eq_left hlt
      rw [reaches_of_bodiless hs hb, hbehind]
      rw [hbehind] at ih
      exact ih
    | some b' =>
      rw [reaches_of_body hs hb]
      exact Option.some_inj

theorem firstBody?_eq_some_iff (hread : ∀ s, header.MatchAt t.masked s → s.start < s.stop) :
    firstBody? t header = some b ↔ Reaches t header 0 b :=
  findSome?_spansFrom hread

/-- **The search for all bodies ends, goes forward and takes the first body each time.** From
the end of a body it comes to the body of the first match that has one. Where the header
matches nothing empty, the first body is that of the search for one. -/
theorem bodies_exact (t : Text) (header : Regex) :
    (∃ rounds, Rounds t header 0 rounds ∧
      bodies t header = rounds.filterMap (fun s => bodyAt? t t.masked s.start) ∧
      (0 :: rounds.map t.cursorBehind).Pairwise (· < ·)) ∧
    (∀ b ∈ bodies t header, ∃ s, header.MatchAt t.masked s ∧ b.CutAt t s.start) ∧
    (bodies t header).Pairwise (fun b b' => b.stop ≤ b'.header) ∧
    (∀ b, (bodies t header)[0]? = some b ↔ Reaches t header 0 b) ∧
    (∀ i b, (bodies t header)[i]? = some b → ∀ b',
      (bodies t header)[i + 1]? = some b' ↔ Reaches t header b.stop b') ∧
    ((∀ s, header.MatchAt t.masked s → s.start < s.stop) →
      (bodies t header).head? = firstBody? t header ∧
      (firstBody? t header = none ↔ bodies t header = [])) := by
  obtain ⟨hmatches, hordered⟩ := bodiesFrom_ordered (rfl : bodiesFrom t t.masked header 0 = _)
  refine ⟨?_, fun b hb => (hmatches b hb).2, hordered, ?_, ?_, ?_⟩
  · obtain ⟨rounds, hrounds, hbodies⟩ := exists_rounds t header 0
    exact ⟨rounds, hrounds, hbodies, hrounds.increasing⟩
  · intro b
    rw [← List.head?_eq_getElem?]
    exact head?_bodiesFrom
  · intro i b hb b'
    have hdrop := drop_bodiesFrom hb
    rw [← head?_bodiesFrom, ← hdrop, List.head?_drop]
    rfl
  · intro hread
    have hhead : (bodies t header).head? = firstBody? t header := by
      apply Option.ext
      intro b
      rw [firstBody?_eq_some_iff hread]
      exact head?_bodiesFrom
    refine ⟨hhead, ?_⟩
    rw [← hhead, List.head?_eq_none_iff]

end Text

theorem Aggregate.typedefHeader_endsWith (k : Aggregate) : k.typedefHeader.EndsWith '{' :=
  .cat _ (.cat _ (.cat _ (.cat _ (.cat _ (.cat _ .char)))))

/-- A header whose brace is never closed has no body; two others have one each. -/
theorem Text.bodies_exact_behind_unclosed :
    let t : Text := ("typedef enum \x7b A;\ntypedef enum \x7b B \x7d E;\n" ++
      "typedef enum \x7b C \x7d F;\n").toList
    let header := Aggregate.enum.typedefHeader
    ∃ b b', firstBody? t header = some b ∧ b.text = "typedef enum \x7b B \x7d".toList ∧
      b'.text = "typedef enum \x7b C \x7d".toList ∧ (bodies t header)[0]? = some b ∧
      (bodies t header)[1]? = some b' ∧ b.stop ≤ b'.header := by
  intro t header
  let b : Body := ⟨18, 31, 36, 2, "typedef enum \x7b B \x7d".toList⟩
  let b' : Body := ⟨40, 53, 58, 3, "typedef enum \x7b C \x7d".toList⟩
  obtain ⟨-, -, hordered, -, hnext, hone⟩ := Text.bodies_exact t header
  have hread : ∀ s, header.MatchAt t.masked s → s.start < s.stop :=
    fun s hs => hs.start_lt_of_endsWith (Aggregate.typedefHeader_endsWith .enum)
  have hfirst : firstBody? t header = some b := by decide +kernel
  have hb : (bodies t header)[0]? = some b := by
    rw [← List.head?_eq_getElem?, (hone hread).1, hfirst]
  have hmatch : header.findAt? t.masked 36 = some ⟨40, 54⟩ := by decide +kernel
  have hcut : bodyAt? t t.masked 40 = some b' := by decide +kernel
  have hreaches : Reaches t header b.stop b' :=
    .here (findAt?_eq_some_iff.mp hmatch) (bodyAt?_eq_some_iff.mp hcut)
  have hb' : (bodies t header)[1]? = some b' := (hnext 0 b hb b').mpr hreaches
  exact ⟨b, b', hfirst, rfl, rfl, hb, hb', by decide⟩

end StructuralRules
