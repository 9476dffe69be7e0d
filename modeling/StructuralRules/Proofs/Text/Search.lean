import Mathlib.Data.List.TakeWhile
import Mathlib.Tactic.Common
import StructuralRules.Source.Lex

/-!
# Trimming, searching and splitting

A text is trimmed to nothing when it is all blanks, and `contains` finds the
needle wherever it stands. A text that is split goes on afresh behind each
character at which it is split. Trimming and joining words change nothing but
blanks, so `squeeze` cannot tell them.
-/

set_option autoImplicit false

namespace StructuralRules.Text

theorem trimEnd_eq_nil {t : Text} : trimEnd t = [] ↔ ∀ c ∈ t, isBlank c = true := by
  rw [trimEnd, List.reverse_eq_nil_iff, List.dropWhile_eq_nil_iff]
  simp

theorem trim_eq_nil {t : Text} : trim t = [] ↔ ∀ c ∈ t, isBlank c = true := by
  rw [trim, trimEnd_eq_nil, trimStart]
  constructor
  · intro h
    rw [← List.dropWhile_eq_nil_iff]
    by_contra hne
    have hblank := h _ (List.head_mem hne)
    have hhead := List.head_dropWhile_not isBlank hne
    rw [hblank] at hhead
    cases hhead
  · intro h c hc
    exact h c (List.dropWhile_subset isBlank hc)

/-- Only blanks are trimmed. -/
theorem exists_trimEnd (t : Text) : ∃ r, t = trimEnd t ++ r ∧ ∀ c ∈ r, isBlank c = true := by
  refine ⟨(t.reverse.takeWhile isBlank).reverse, ?_, ?_⟩
  · rw [trimEnd, ← List.reverse_append, List.takeWhile_append_dropWhile, List.reverse_reverse]
  · intro c hc
    exact List.mem_takeWhile_imp (List.mem_reverse.mp hc)

theorem exists_trim (t : Text) : ∃ gap gap', t = gap ++ (trim t ++ gap') ∧
    (∀ c ∈ gap, isBlank c = true) ∧ ∀ c ∈ gap', isBlank c = true := by
  obtain ⟨gap', hgap', hblank'⟩ := exists_trimEnd (trimStart t)
  refine ⟨t.takeWhile isBlank, gap', ?_, fun c hc => List.mem_takeWhile_imp hc, hblank'⟩
  rw [trim, ← hgap', trimStart, List.takeWhile_append_dropWhile]

theorem mem_trim {t : Text} {c : Char} (hc : isBlank c = false) : c ∈ trim t ↔ c ∈ t := by
  have hstart : c ∈ trimStart t ↔ c ∈ t := by
    refine ⟨fun h => List.dropWhile_subset isBlank h, fun h => ?_⟩
    rw [← List.takeWhile_append_dropWhile (p := isBlank) (l := t), List.mem_append] at h
    rcases h with h | h
    · rw [List.mem_takeWhile_imp h] at hc
      cases hc
    · exact h
  obtain ⟨r, hr, hblank⟩ := exists_trimEnd (trimStart t)
  rw [← hstart]
  constructor
  · intro h
    rw [hr]
    exact List.mem_append_left r h
  · intro h
    rw [hr, List.mem_append] at h
    rcases h with h | h
    · exact h
    · rw [hblank c h] at hc
      cases hc

theorem trim_concat (t : Text) {c : Char} (hc : isBlank c = false) :
    trim (t ++ [c]) = trimStart t ++ [c] := by
  have hstart : trimStart (t ++ [c]) = trimStart t ++ [c] := by
    rw [trimStart, trimStart, List.dropWhile_append]
    cases hrest : t.dropWhile isBlank with
    | nil => simp [hc]
    | cons d r => rfl
  rw [trim, hstart, trimEnd, List.reverse_append, List.reverse_singleton, List.singleton_append,
    List.dropWhile_cons, if_neg (by simp [hc]), List.reverse_cons, List.reverse_reverse]

/-- A text has a last character of a kind, or none of that kind. -/
theorem last_split (p : Char → Bool) (t : Text) :
    (∀ x ∈ t, p x = false) ∨ ∃ u c v, t = u ++ c :: v ∧ p c = true ∧ ∀ x ∈ v, p x = false := by
  induction t with
  | nil => exact Or.inl (by simp)
  | cons d t ih =>
    rcases ih with ht | ⟨u, c, v, rfl, hc, hv⟩
    · cases hd : p d with
      | true => exact Or.inr ⟨[], d, t, rfl, hd, ht⟩
      | false =>
        refine Or.inl fun x hx => ?_
        rcases List.mem_cons.mp hx with rfl | hx
        · exact hd
        · exact ht x hx
    · exact Or.inr ⟨d :: u, c, v, rfl, hc, hv⟩

theorem contains_iff {needle t : Text} : contains needle t = true ↔ needle <:+: t := by
  induction t with
  | nil => rw [contains, List.isEmpty_iff, List.infix_nil]
  | cons c t ih =>
    rw [contains, Bool.or_eq_true, ih, List.isPrefixOf_iff_prefix, List.infix_cons_iff]

theorem startsWithComment_iff {t : Text} :
    startsWithComment t = true ↔ ['/', '/'] <+: t ∨ ['/', '*'] <+: t := by
  rw [startsWithComment, Bool.or_eq_true, List.isPrefixOf_iff_prefix, List.isPrefixOf_iff_prefix]

/-! ## Splitting -/

section Splitting

variable {p : Char → Bool}

theorem splitBy_ne_nil (t : Text) : splitBy p t ≠ [] := by
  cases t with
  | nil => simp [splitBy]
  | cons c t =>
    rw [splitBy]
    split
    · simp
    · split <;> simp

theorem splitBy_of_none {t : Text} (h : ∀ c ∈ t, p c = false) : splitBy p t = [t] := by
  induction t with
  | nil => rfl
  | cons c t ih =>
    rw [List.forall_mem_cons] at h
    simp [splitBy, h.1, ih h.2]

theorem not_of_mem_splitBy {q t : Text} (h : q ∈ splitBy p t) : ∀ c ∈ q, p c = false := by
  induction t generalizing q with
  | nil =>
    obtain rfl : q = [] := List.mem_singleton.mp h
    exact fun _ hc => nomatch hc
  | cons x t ih =>
    rw [splitBy] at h
    split at h
    · rcases List.mem_cons.mp h with rfl | h
      · exact fun _ hc => nomatch hc
      · exact ih h
    · next hx =>
      have hx : p x = false := by simpa using hx
      split at h
      · next hnil => exact absurd hnil (splitBy_ne_nil t)
      · next r rs hrest =>
        rw [hrest] at ih
        rcases List.mem_cons.mp h with rfl | h
        · exact List.forall_mem_cons.mpr ⟨hx, ih List.mem_cons_self⟩
        · exact ih (List.mem_cons_of_mem r h)

theorem splitBy_append {c : Char} (hc : p c = true) (a b : Text) :
    splitBy p (a ++ c :: b) = splitBy p a ++ splitBy p b := by
  induction a with
  | nil => simp [splitBy, hc]
  | cons x a ih =>
    by_cases hx : p x = true
    · simp [splitBy, hx, ih]
    · obtain ⟨q, qs, hq⟩ := List.exists_cons_of_ne_nil (splitBy_ne_nil (p := p) a)
      simp [splitBy, hx, ih, hq]

/-- What is left between the characters at which a text is split is the text without them. -/
theorem flatten_splitBy (t : Text) : (splitBy p t).flatten = t.filter (!p ·) := by
  induction t with
  | nil => rfl
  | cons x t ih =>
    cases hx : p x with
    | true =>
      rw [splitBy, if_pos hx, List.flatten_cons, List.nil_append, ih,
        List.filter_cons_of_neg (by simp [hx])]
    | false =>
      obtain ⟨q, qs, hq⟩ := List.exists_cons_of_ne_nil (splitBy_ne_nil (p := p) t)
      rw [hq, List.flatten_cons] at ih
      rw [splitBy, if_neg (by simp [hx]), hq, List.filter_cons_of_pos (by simp [hx]), ← ih]
      rfl

end Splitting

/-! ## Without blanks -/

theorem squeeze_append (s t : Text) : squeeze (s ++ t) = squeeze s ++ squeeze t :=
  List.filter_append s t

theorem squeeze_of_blank {t : Text} (h : ∀ c ∈ t, isBlank c = true) : squeeze t = [] := by
  rw [squeeze, List.filter_eq_nil_iff]
  intro c hc
  simp [h c hc]

theorem squeeze_trim (t : Text) : squeeze (trim t) = squeeze t := by
  obtain ⟨gap, gap', ht, hblank, hblank'⟩ := exists_trim t
  conv_rhs => rw [ht, squeeze_append, squeeze_append, squeeze_of_blank hblank,
    squeeze_of_blank hblank', List.nil_append, List.append_nil]

theorem squeeze_intercalate_trim (sep : Text) (ts : List Text) :
    squeeze (sep.intercalate (ts.map trim)) = squeeze (sep.intercalate ts) := by
  induction ts with
  | nil => rfl
  | cons t ts ih =>
    cases ts with
    | nil => rw [List.map_singleton, List.intercalate_singleton, List.intercalate_singleton,
        squeeze_trim]
    | cons u ts =>
      rw [List.map_cons] at ih
      simp only [List.map_cons, List.intercalate_cons_cons, squeeze_append, squeeze_trim, ih]

theorem squeeze_unwords (ws : List Text) : squeeze (unwords ws) = squeeze ws.flatten := by
  induction ws with
  | nil => rfl
  | cons w ws ih =>
    cases ws with
    | nil => simp [unwords]
    | cons v ws =>
      have hspace : squeeze [' '] = [] := rfl
      rw [unwords] at ih
      rw [unwords, List.intercalate_cons_cons, List.flatten_cons, squeeze_append, squeeze_append,
        squeeze_append, hspace, List.append_nil, ih]

theorem mem_words {t w : Text} (h : w ∈ words t) : w ≠ [] ∧ ∀ c ∈ w, isBlank c = false := by
  obtain ⟨hsplit, hne⟩ := List.mem_filter.mp h
  exact ⟨by simpa using hne, not_of_mem_splitBy hsplit⟩

/-- Joining the words of a text anew changes nothing but blanks. -/
theorem squeeze_unwords_words (t : Text) : squeeze (unwords (words t)) = squeeze t := by
  have hwords : (words t).flatten = squeeze t := by
    rw [words, List.flatten_filter_not_isEmpty, flatten_splitBy]
    rfl
  rw [squeeze_unwords, hwords, squeeze, squeeze, List.filter_filter]
  simp

end StructuralRules.Text
