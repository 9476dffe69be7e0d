import StructuralRules.Proofs.Source.Arguments
import StructuralRules.Proofs.Source.MaskLayout

/-!
# Lists of arguments

Splitting a list loses nothing. The masked list has the bytes of the list, some
of them turned into spaces, so each of its commas stands in the list itself, and
between two commas the list is cut in front of characters only. Behind a comma
outside all brackets the split starts afresh: what holds of the rest of a list
holds of the list. The arguments of a call are the pieces without the blanks
around them, and a list of nothing but blanks has no arguments.
-/

set_option autoImplicit false

namespace StructuralRules

/-- What agrees up to blanks agrees on both sides of a cut. -/
theorem Bytes.AgreesUpToBlanks.of_append {ms ms' bs bs' : Bytes}
    (h : AgreesUpToBlanks (ms ++ ms') (bs ++ bs')) (hlen : ms.length = bs.length) :
    AgreesUpToBlanks ms bs ∧ AgreesUpToBlanks ms' bs' := by
  constructor
  · intro i b hb
    have hi := (List.getElem?_eq_some_iff.mp hb).1
    have hwhole := h i b (by rwa [List.getElem?_append_left hi])
    rwa [List.getElem?_append_left (hlen ▸ hi)] at hwhole
  · intro i b hb
    have hwhole := h (bs.length + i) b (by rwa [List.getElem?_append_right (Nat.le_add_right _ i),
      Nat.add_sub_cancel_left])
    rwa [← hlen, List.getElem?_append_right (Nat.le_add_right _ i), Nat.add_sub_cancel_left]
      at hwhole

namespace Text

/-! ## Texts with the same layout -/

/-- Byte for byte, `masked` is `text`, or a space stands in its place. -/
structure SameLayout (masked text : Text) : Prop where
  byteLength_eq : byteLength masked = byteLength text
  agrees : masked.toBytes.AgreesUpToBlanks text.toBytes

theorem Blanked.sameLayout {masked text : Text} (h : Blanked masked text) :
    SameLayout masked text := by
  have hbytes := h.agreesUpToBlanks []
  rw [List.append_nil] at hbytes
  exact ⟨h.byteLength_eq, hbytes⟩

/-- An ASCII character of the masked text, other than a space, stands in the text at the same
offset. -/
theorem SameLayout.split_at {front behind text : Text} {c : Char}
    (h : SameLayout (front ++ c :: behind) text) (hascii : c.toNat < 128) (hspace : c ≠ ' ') :
    ∃ front' behind', text = front' ++ c :: behind' ∧ SameLayout front front' ∧
      SameLayout behind behind' := by
  have hsize := h.byteLength_eq
  rw [byteLength_append_cons (utf8Size_eq_one.mpr hascii)] at hsize
  have hbytes : (front ++ c :: behind).toBytes =
      front.toBytes ++ c.toUInt8 :: behind.toBytes := by
    rw [toBytes_append, toBytes_cons, encode_of_ascii hascii, List.singleton_append]
  have hlt : byteLength front < text.toBytes.length := by
    rw [length_toBytes]
    omega
  have hshown : (front ++ c :: behind).toBytes[byteLength front]? = some c.toUInt8 := by
    rw [hbytes, List.getElem?_append_right (by rw [length_toBytes]), length_toBytes, Nat.sub_self]
    rfl
  have hbyte : text.toBytes[byteLength front] = c.toUInt8 := by
    obtain hsame | hblank := h.agrees _ _ (List.getElem?_eq_getElem hlt)
    · exact (Option.some.inj (hshown.symm.trans hsame)).symm
    · have hequal := Option.some.inj (hshown.symm.trans hblank)
      exact absurd ((toUInt8_inj hascii (by decide)).mp hequal) hspace
  have hcut : text.toBytes = text.toBytes.take (byteLength front) ++
      c.toUInt8 :: text.toBytes.drop (byteLength front + 1) := by
    rw [← hbyte, List.getElem_cons_drop, List.take_append_drop]
  obtain ⟨front', behind', rfl, hfront, -⟩ := exists_append_of_ascii hascii hcut
  have hfrontLen : byteLength front = byteLength front' := by
    rw [← length_toBytes front', hfront, List.length_take]
    omega
  have hagrees := h.agrees
  rw [hbytes, toBytes_append, toBytes_cons, encode_of_ascii hascii, List.singleton_append]
    at hagrees
  obtain ⟨hagreesFront, hagreesRest⟩ := hagrees.of_append (by
    rw [length_toBytes, length_toBytes, hfrontLen])
  have hagreesRest : Bytes.AgreesUpToBlanks ([c.toUInt8] ++ behind.toBytes)
      ([c.toUInt8] ++ behind'.toBytes) := hagreesRest
  have hagreesBehind := (hagreesRest.of_append rfl).2
  rw [byteLength_append_cons (utf8Size_eq_one.mpr hascii)] at hsize
  exact ⟨front', behind', rfl, ⟨hfrontLen, hagreesFront⟩, ⟨by omega, hagreesBehind⟩⟩

/-! ## Cuts at commas -/

/-- At byte `off` of the text stands a comma outside all brackets. -/
def CommaAt (t : Text) (off : Nat) : Prop :=
  ∃ u v, t = u ++ ',' :: v ∧ nesting 0 u = 0 ∧ byteLength u = off

/-- Joined by commas the pieces are the text, and the joints are just the commas that stand
outside all brackets in the masked text. -/
structure CutAtCommas (masked text : Text) (pieces : List Text) : Prop where
  ne_nil : pieces ≠ []
  joined : [','].intercalate pieces = text
  comma_iff : ∀ off, CommaAt masked off ↔ ∃ k, 0 < k ∧ k < pieces.length ∧
    byteLength ([','].intercalate (pieces.take k)) = off

/-- The pieces of a text from `start` on, if every cut falls between two characters. -/
def cutAt? (t : Text) (start : Nat) : List Nat → Option (List Text)
  | [] => (drop? t start).map ([·])
  | o :: os => (slice? t start o).bind fun piece => (cutAt? t (o + 1) os).map (piece :: ·)

/-- Where every cut falls between two characters, `cutAt` never has to answer for a cut that is
none. -/
theorem cutAt_of_cutAt? {t : Text} {start : Nat} {os : List Nat} {pieces : List Text}
    (h : cutAt? t start os = some pieces) : cutAt t start os = pieces := by
  induction os generalizing start pieces with
  | nil =>
    obtain ⟨piece, hpiece, rfl⟩ := Option.map_eq_some_iff.mp h
    rw [cutAt, hpiece, Option.getD_some]
  | cons o os ih =>
    obtain ⟨piece, hpiece, h⟩ := Option.bind_eq_some_iff.mp h
    obtain ⟨rest, hrest, rfl⟩ := Option.map_eq_some_iff.mp h
    rw [cutAt, slice, hpiece, Option.getD_some, ih hrest]

/-- A list is one argument, or an argument, a comma and a list. -/
theorem comma_induction {P : Text → Prop} (only : ∀ t, Unbroken 0 t → P t)
    (comma : ∀ q r, Unbroken 0 q → nesting 0 q = 0 → P r → P (q ++ ',' :: r)) (t : Text) : P t := by
  induction hn : t.length using Nat.strong_induction_on generalizing t with
  | _ n ih =>
    obtain hwhole | ⟨q, r, rfl, hq, hzero⟩ := unbroken_or_exists_comma 0 t
    · exact only t hwhole
    · have hshorter : r.length < n := by
        rw [← hn, List.length_append, List.length_cons]
        omega
      exact comma q r hq hzero (ih _ hshorter r rfl)

section Cuts

variable {q r text : Text} {off : Nat}

theorem not_commaAt_of_unbroken (h : Unbroken 0 q) (off : Nat) : ¬ CommaAt q off := by
  rintro ⟨u, v, hq, hzero, -⟩
  exact h u v hq hzero

/-- The commas behind the first one are those of the rest of the list. -/
theorem commaAt_comma (hq : Unbroken 0 q) (hzero : nesting 0 q = 0) :
    CommaAt (q ++ ',' :: r) off ↔
      off = byteLength q ∨ ∃ off', CommaAt r off' ∧ off = byteLength q + 1 + off' := by
  have hrest : ∀ u, nesting 0 (q ++ ',' :: u) = nesting 0 u := by
    intro u
    rw [nesting_append, hzero]
    rfl
  have hlen : ∀ u : Text, byteLength (q ++ ',' :: u) = byteLength q + 1 + byteLength u :=
    byteLength_append_cons rfl q
  constructor
  · rintro ⟨u, v, htext, hu, rfl⟩
    obtain ⟨x, rfl, hx⟩ | ⟨x, rfl, hx⟩ := List.append_eq_append_iff.mp htext
    · cases x with
      | nil => exact Or.inl (by rw [List.append_nil])
      | cons c x =>
        obtain ⟨rfl, rfl⟩ := List.cons.inj hx
        exact Or.inr ⟨byteLength x, ⟨x, v, rfl, by rwa [hrest] at hu, rfl⟩, hlen x⟩
    · cases x with
      | nil => exact Or.inl (by rw [List.append_nil])
      | cons c x =>
        obtain ⟨rfl, -⟩ := List.cons.inj hx
        exact absurd hu (hq u x rfl)
  · rintro (rfl | ⟨-, ⟨u, v, rfl, hu, rfl⟩, rfl⟩)
    · exact ⟨q, r, rfl, hzero, rfl⟩
    · exact ⟨q ++ ',' :: u, v, by simp, by rwa [hrest], hlen u⟩

theorem cutAtCommas_of_unbroken (h : Unbroken 0 q) (text : Text) :
    CutAtCommas q text [text] := by
  refine ⟨by simp, List.intercalate_singleton, fun off => ?_⟩
  constructor
  · exact fun hcomma => absurd hcomma (not_commaAt_of_unbroken h off)
  · rintro ⟨k, hpos, hlast, -⟩
    rw [List.length_singleton] at hlast
    omega

theorem intercalate_comma {pieces : List Text} (hne : pieces ≠ []) (q : Text) :
    [','].intercalate (q :: pieces) = q ++ ',' :: [','].intercalate pieces := by
  rw [List.intercalate_cons_of_ne_nil hne, List.append_assoc, List.singleton_append]

theorem CutAtCommas.cons {q' : Text} {pieces : List Text} (h : CutAtCommas r text pieces)
    (hq : Unbroken 0 q) (hzero : nesting 0 q = 0) (hlen : byteLength q = byteLength q') :
    CutAtCommas (q ++ ',' :: r) (q' ++ ',' :: text) (q' :: pieces) := by
  -- The first `k + 2` pieces are the first one, a comma and the first `k + 1` of the rest.
  have hjoint : ∀ k, 0 < k → byteLength ([','].intercalate ((q' :: pieces).take (k + 1))) =
      byteLength q + 1 + byteLength ([','].intercalate (pieces.take k)) := by
    intro k hk
    have hne : pieces.take k ≠ [] := by
      rw [Ne, List.take_eq_nil_iff, not_or]
      exact ⟨by omega, h.ne_nil⟩
    rw [List.take_succ_cons, intercalate_comma hne, byteLength_append_cons rfl, hlen]
  refine ⟨by simp, by rw [intercalate_comma h.ne_nil, h.joined], fun off => ?_⟩
  rw [commaAt_comma hq hzero]
  constructor
  · rintro (rfl | ⟨off', hoff', rfl⟩)
    · refine ⟨1, Nat.one_pos, ?_, ?_⟩
      · have hpos := List.length_pos_of_ne_nil h.ne_nil
        rw [List.length_cons]
        omega
      · rw [List.take_succ_cons, List.take_zero, List.intercalate_singleton, hlen]
    · obtain ⟨k, hpos, hlast, rfl⟩ := (h.comma_iff off').mp hoff'
      refine ⟨k + 1, by omega, ?_, hjoint k hpos⟩
      rw [List.length_cons]
      omega
  · rintro ⟨k, hpos, hlast, rfl⟩
    rw [List.length_cons] at hlast
    obtain ⟨k, rfl⟩ : ∃ k', k = k' + 1 := ⟨k - 1, by omega⟩
    obtain rfl | hk := Nat.eq_zero_or_pos k
    · refine Or.inl ?_
      rw [List.take_succ_cons, List.take_zero, List.intercalate_singleton, hlen]
    · refine Or.inr ⟨_, (h.comma_iff _).mpr ⟨k, hk, by omega, rfl⟩, hjoint k hk⟩

/-- **Every cut falls between two characters, and the cuts are at the commas.** This is said of a
list behind a front `pre`, so that it can be said of the rest of a list. -/
theorem SameLayout.exists_cutAt? {masked : Text} (h : SameLayout masked text) (pre : Text) :
    ∃ pieces, cutAt? (pre ++ text) (byteLength pre) (commasFrom 0 (byteLength pre) masked) =
      some pieces ∧ CutAtCommas masked text pieces := by
  induction masked using comma_induction generalizing text pre with
  | only masked hwhole =>
    refine ⟨[text], ?_, cutAtCommas_of_unbroken hwhole text⟩
    rw [commasFrom_of_unbroken hwhole, cutAt?, drop?_append, Option.map_some]
  | comma q r hq hzero ih =>
    obtain ⟨q', r', rfl, hq', hr'⟩ := h.split_at (by decide) (by decide)
    obtain ⟨pieces, hpieces, hcuts⟩ := ih hr' (pre ++ q' ++ [','])
    refine ⟨q' :: pieces, ?_, hcuts.cons hq hzero hq'.byteLength_eq⟩
    have hnext : byteLength (pre ++ q' ++ [',']) = byteLength pre + byteLength q' + 1 := by
      rw [byteLength_append, byteLength_append]
      rfl
    have htext : pre ++ q' ++ [','] ++ r' = pre ++ (q' ++ ',' :: r') := by simp
    rw [hnext, htext] at hpieces
    rw [commasFrom_comma hq hzero, hq'.byteLength_eq, cutAt?, slice?_append, Option.bind_some,
      hpieces, Option.map_some]

theorem SameLayout.cutAt?_eq {masked : Text} (h : SameLayout masked text) :
    cutAt? text 0 (commasFrom 0 0 masked) = some (topLevelPieces masked text) ∧
      CutAtCommas masked text (topLevelPieces masked text) := by
  obtain ⟨pieces, hpieces, hcuts⟩ := h.exists_cutAt? []
  have hpieces : cutAt? text 0 (commasFrom 0 0 masked) = some pieces := hpieces
  rw [topLevelPieces, cutAt_of_cutAt? hpieces]
  exact ⟨hpieces, hcuts⟩

end Cuts

section Trimmed

variable {list written : Text}

theorem SameLayout.splitTopLevel_ne_nil (h : SameLayout list written) :
    splitTopLevel list written ≠ [] := by
  rw [splitTopLevel, Ne, List.map_eq_nil_iff]
  exact h.cutAt?_eq.2.ne_nil

/-- Nothing but one empty argument is read from nothing but blanks. -/
theorem SameLayout.splitTopLevel_eq_blank_iff (h : SameLayout list written) :
    splitTopLevel list written = [[]] ↔ ∀ c ∈ written, isBlank c = true := by
  obtain ⟨-, hcuts⟩ := h.cutAt?_eq
  have hjoined := hcuts.joined
  rw [splitTopLevel]
  constructor
  · intro hempty
    obtain ⟨piece, hpiece, htrim⟩ := List.map_eq_singleton_iff.mp hempty
    rw [hpiece, List.intercalate_singleton] at hjoined
    rw [← hjoined]
    exact trim_eq_nil.mp htrim
  · intro hblank
    cases hpieces : topLevelPieces list written with
    | nil => exact absurd hpieces hcuts.ne_nil
    | cons piece pieces =>
      rw [hpieces] at hjoined
      cases pieces with
      | nil =>
        rw [List.intercalate_singleton] at hjoined
        rw [List.map_singleton, hjoined, trim_eq_nil.mpr hblank]
      | cons piece' pieces =>
        -- A second piece would stand behind a comma, which is no blank.
        rw [intercalate_comma (by simp)] at hjoined
        have hcomma := hblank ',' (by rw [← hjoined]; simp)
        cases hcomma

theorem SameLayout.squeeze_splitTopLevel (h : SameLayout list written) :
    squeeze ([','].intercalate (splitTopLevel list written)) = squeeze written := by
  rw [splitTopLevel, squeeze_intercalate_trim, h.cutAt?_eq.2.joined]

end Trimmed
end Text

/-! ## Arguments of calls -/

open Text

namespace Call

/-- `written` stands between the parentheses of the call in the file's text `t`, and `list` at the
same place of the masked text. -/
structure Encloses (call : Call) (t list written : Text) : Prop where
  between : ∃ front behind front' behind', call.Opens t.masked front list behind ∧
    t = front' ++ '(' :: (written ++ ')' :: behind') ∧ byteLength front' = byteLength front
  layout : SameLayout list written

/-- The arguments of a call are the trimmed pieces of what stands between its parentheses. -/
theorem exists_encloses {file : SourceFile} {name : String} {ms : Markers} {call : Call}
    (h : call ∈ all file name ms) : ∃ list written, call.Encloses file.text list written ∧
      call.args = if written.all isBlank then [] else (topLevelPieces list written).map trim := by
  obtain ⟨front, list, behind, front', written, behind', -, hopens, hfile, hfront, hlist, hargs⟩ :=
    exists_opens h
  refine ⟨list, written, ⟨⟨front, behind, front', behind', hopens, hfile,
    hfront.byteLength_eq.symm⟩, hlist.sameLayout⟩, ?_⟩
  rw [hargs]
  exact if_congr (hlist.sameLayout.splitTopLevel_eq_blank_iff.trans List.all_eq_true.symm) rfl rfl

/-- **Splitting a list loses nothing.** A text is cut at the commas that stand outside all brackets
in its masked copy and nowhere else, each cut falls between two characters, and joined by commas the
pieces are the text. So the arguments of a call, joined by commas, are what stands between its
parentheses but for blanks, and there are none just when nothing but blanks stands there. -/
theorem arguments_lose_nothing :
    (∀ masked text : Text, SameLayout masked text →
      cutAt? text 0 (commasFrom 0 0 masked) = some (topLevelPieces masked text) ∧
      CutAtCommas masked text (topLevelPieces masked text)) ∧
    ∀ (file : SourceFile) (name : String) (ms : Markers), ∀ call ∈ all file name ms,
      ∃ list written, call.Encloses file.text list written ∧
        (call.args = if written.all isBlank then [] else (topLevelPieces list written).map trim) ∧
        squeeze ([','].intercalate call.args) = squeeze written ∧
        (call.args = [] ↔ ∀ c ∈ written, isBlank c = true) := by
  refine ⟨fun masked text h => h.cutAt?_eq, fun file name ms call hcall => ?_⟩
  obtain ⟨list, written, hencloses, hargs⟩ := exists_encloses hcall
  refine ⟨list, written, hencloses, hargs, ?_⟩
  by_cases hblank : ∀ c ∈ written, isBlank c = true
  · rw [if_pos (List.all_eq_true.mpr hblank)] at hargs
    rw [hargs, squeeze_of_blank hblank]
    exact ⟨rfl, iff_of_true rfl hblank⟩
  · rw [if_neg (mt List.all_eq_true.mp hblank)] at hargs
    refine ⟨?_, iff_of_false ?_ hblank⟩
    · rw [hargs]
      exact hencloses.layout.squeeze_splitTopLevel
    · rw [hargs]
      exact hencloses.layout.splitTopLevel_ne_nil

/-- The commas of the literal, of the comment and in brackets cut nothing. The bracket that closes
none does not hold back the comma behind it. The list of the last call holds blanks only. -/
theorem commas_in_literals_cut_nothing :
    ∃ file : SourceFile, ∃ call₁ ∈ all file "f" Markers.standard,
      ∃ call₂ ∈ all file "f" Markers.standard,
        call₁.args = ["\"é, (\"".toList, "g[b, c]]".toList, "d /* , */".toList] ∧
        (∃ list written, call₁.Encloses file.text list written ∧
          squeeze ([','].intercalate call₁.args) = squeeze written ∧
          cutAt? written 0 (commasFrom 0 0 list) = some (topLevelPieces list written)) ∧
        call₂.args = [] ∧
        ∃ list written, call₂.Encloses file.text list written ∧
          ∀ c ∈ written, isBlank c = true := by
  let file : SourceFile := ⟨"a.c",
    "void h() \x7b\n  f(\"é, (\", g[b, c]], d /* , */);\n  f(\n );\n\x7d\n".toList⟩
  have hargs : (all file "f" Markers.standard).map (·.args) =
      [["\"é, (\"".toList, "g[b, c]]".toList, "d /* , */".toList], []] := by
    decide +kernel
  obtain ⟨hcuts, hcalls⟩ := arguments_lose_nothing
  match hall : all file "f" Markers.standard with
  | [call₁, call₂] =>
    rw [hall, List.map_cons, List.map_singleton, List.cons.injEq, List.cons.injEq] at hargs
    obtain ⟨list, written, hencloses, -, hsqueeze, -⟩ :=
      hcalls file "f" Markers.standard call₁ (by simp [hall])
    obtain ⟨list', written', hencloses', -, -, hempty⟩ :=
      hcalls file "f" Markers.standard call₂ (by simp [hall])
    exact ⟨file, call₁, by simp [hall], call₂, by simp [hall], hargs.1,
      ⟨list, written, hencloses, hsqueeze, (hcuts list written hencloses.layout).1⟩, hargs.2.1,
      list', written', hencloses', hempty.mp hargs.2.1⟩
  | [] | [_] | _ :: _ :: _ :: _ => simp [hall] at hargs

end Call
end StructuralRules
