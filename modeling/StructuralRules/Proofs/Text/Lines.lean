import Mathlib.Data.List.DropRight
import StructuralRules.Proofs.Text.Cut
import StructuralRules.Source.File

/-!
# Lines and where they start

A text is a run of ended lines and what follows the last line feed. `pieces`
and `lineStarts` are both tied to that form: piece `n` stands right behind the
first `n` pieces and their line feeds, and that is the offset that `lineStarts`
gives. The starts increase, so a search that halves them counts how many of them
there are up to an offset.
-/

set_option autoImplicit false

namespace StructuralRules.Text

/-- The lines one after the other, each with its line feed. -/
def ended (ls : List Text) : Text :=
  ls.flatMap (· ++ ['\n'])

@[simp] theorem ended_nil : ended [] = [] := rfl

@[simp] theorem ended_cons (l : Text) (ls : List Text) :
    ended (l :: ls) = l ++ '\n' :: ended ls := by
  simp [ended]

theorem byteLength_ended_take_succ {ls : List Text} {n : Nat} {l : Text} (h : ls[n]? = some l) :
    byteLength (ended (ls.take (n + 1))) = byteLength (ended (ls.take n)) + byteLength l + 1 := by
  obtain ⟨hlt, rfl⟩ := List.getElem?_eq_some_iff.mp h
  have hnl : byteLength ['\n'] = 1 := rfl
  rw [List.take_succ_eq_append_getElem hlt, ended, List.flatMap_append, byteLength_append, ← ended,
    List.flatMap_singleton, byteLength_append, hnl]
  omega

/-! ## Pieces -/

theorem pieces_line {l : Text} (hl : '\n' ∉ l) (t : Text) :
    pieces (l ++ '\n' :: t) = l :: pieces t := by
  induction l with
  | nil => simp [pieces]
  | cons c l ih =>
    have hc : c ≠ '\n' := fun h => hl (by simp [h])
    have hrest := ih fun h => hl (by simp [h])
    rw [List.cons_append, pieces, if_neg hc, hrest]

theorem pieces_last {l : Text} (hl : '\n' ∉ l) (hne : l ≠ []) : pieces l = [l] := by
  induction l with
  | nil => exact absurd rfl hne
  | cons c l ih =>
    have hc : c ≠ '\n' := fun h => hl (by simp [h])
    have hrest : '\n' ∉ l := fun h => hl (by simp [h])
    rw [pieces, if_neg hc]
    cases l with
    | nil => rfl
    | cons d l => rw [ih hrest (by simp)]

/-- Every text is empty, a line without an end, or an ended line and a shorter text. -/
theorem line_induction {P : Text → Prop} (nil : P [])
    (last : ∀ l, '\n' ∉ l → l ≠ [] → P l)
    (line : ∀ l t, '\n' ∉ l → P t → P (l ++ '\n' :: t)) (t : Text) : P t := by
  obtain ⟨n, hn⟩ : ∃ n, t.length ≤ n := ⟨_, Nat.le_refl _⟩
  induction n generalizing t with
  | zero =>
    obtain rfl : t = [] := List.length_eq_zero_iff.mp (by omega)
    exact nil
  | succ n ih =>
    by_cases h : '\n' ∈ t
    · obtain ⟨l, r, rfl, hl⟩ := List.eq_append_cons_of_mem h
      refine line l r hl (ih r ?_)
      simp only [List.length_append, List.length_cons] at hn
      omega
    · by_cases ht : t = []
      · subst ht; exact nil
      · exact last t h ht

theorem newline_not_mem_of_mem_pieces {t l : Text} (h : l ∈ pieces t) : '\n' ∉ l := by
  induction t using line_induction with
  | nil => simp [pieces] at h
  | last l' hl hne =>
    rw [pieces_last hl hne, List.mem_singleton] at h
    rwa [h]
  | line l' t hl ih =>
    rw [pieces_line hl, List.mem_cons] at h
    rcases h with rfl | h
    · exact hl
    · exact ih h

theorem pieces_eq_nil {t : Text} : pieces t = [] ↔ t = [] := by
  induction t using line_induction with
  | nil => simp [pieces]
  | last l hl hne => simp [pieces_last hl hne, hne]
  | line l t hl _ => simp [pieces_line hl]

/-- Piece `n` stands behind the first `n` pieces and their line feeds, and ends the text or
stands before a line feed. -/
theorem pieces_split {t l : Text} {n : Nat} (h : (pieces t)[n]? = some l) :
    ∃ r, t = ended ((pieces t).take n) ++ (l ++ r) ∧ (r = [] ∨ ∃ r', r = '\n' :: r') := by
  induction t using line_induction generalizing n with
  | nil => simp [pieces] at h
  | last l' hl hne =>
    rw [pieces_last hl hne] at h ⊢
    cases n with
    | zero =>
      obtain rfl : l' = l := by simpa using h
      exact ⟨[], by simp, .inl rfl⟩
    | succ n => simp at h
  | line l' t hl ih =>
    rw [pieces_line hl] at h ⊢
    cases n with
    | zero =>
      obtain rfl : l' = l := by simpa using h
      exact ⟨'\n' :: t, by simp, .inr ⟨t, rfl⟩⟩
    | succ n =>
      obtain ⟨r, hr, hend⟩ := ih (by simpa using h)
      refine ⟨r, ?_, hend⟩
      rw [List.take_succ_cons, ended_cons, List.append_assoc, List.cons_append, ← hr]

/-- Behind the last piece stands one line feed at most. -/
theorem pieces_split_last {t l : Text} {n : Nat} (h : (pieces t)[n]? = some l)
    (hlast : (pieces t).length = n + 1) :
    ∃ r, t = ended ((pieces t).take n) ++ (l ++ r) ∧ (r = [] ∨ r = ['\n']) := by
  induction t using line_induction generalizing n with
  | nil => simp [pieces] at h
  | last l' hl hne =>
    rw [pieces_last hl hne] at h hlast ⊢
    obtain rfl : n = 0 := by simpa using hlast.symm
    obtain rfl : l' = l := by simpa using h
    exact ⟨[], by simp, .inl rfl⟩
  | line l' t hl ih =>
    rw [pieces_line hl] at h hlast ⊢
    rw [List.length_cons] at hlast
    cases n with
    | zero =>
      obtain rfl : l' = l := by simpa using h
      have hempty : (pieces t).length = 0 := by omega
      obtain rfl := pieces_eq_nil.mp (List.length_eq_zero_iff.mp hempty)
      exact ⟨['\n'], by simp, .inr rfl⟩
    | succ n =>
      obtain ⟨r, hr, hend⟩ := ih (by simpa using h) (by omega)
      refine ⟨r, ?_, hend⟩
      rw [List.take_succ_cons, ended_cons, List.append_assoc, List.cons_append, ← hr]

/-- A place before a character lies on a line of the text. -/
theorem newlines_lt_length_pieces (p : Text) (c : Char) (r : Text) :
    newlines p < (pieces (p ++ c :: r)).length := by
  induction p using line_induction with
  | nil =>
    have h : pieces (c :: r) ≠ [] := by simp [pieces_eq_nil]
    simpa [newlines] using List.length_pos_of_ne_nil h
  | last l hl hne =>
    have h : pieces (l ++ c :: r) ≠ [] := by simp [pieces_eq_nil]
    have h0 : newlines l = 0 := List.count_eq_zero.mpr hl
    simpa [h0] using List.length_pos_of_ne_nil h
  | line l t hl ih =>
    have h0 : newlines l = 0 := List.count_eq_zero.mpr hl
    have hn : newlines (l ++ '\n' :: t) = newlines t + 1 := by
      simp only [newlines, List.count_append, List.count_cons_self] at h0 ⊢
      omega
    rw [hn, List.append_assoc, List.cons_append, pieces_line hl, List.length_cons]
    omega

/-! ## Ended lines in front -/

/-- Every text is a run of ended lines and a last line without an end. -/
theorem exists_ended (t : Text) :
    ∃ ls last, t = ended ls ++ last ∧ '\n' ∉ last ∧ ∀ l ∈ ls, '\n' ∉ l := by
  induction t using line_induction with
  | nil => exact ⟨[], [], rfl, by simp, by simp⟩
  | last l hl _ => exact ⟨[], l, rfl, hl, by simp⟩
  | line l t hl ih =>
    obtain ⟨ls, last, rfl, hlast, hls⟩ := ih
    refine ⟨l :: ls, last, by simp, hlast, ?_⟩
    intro l' hl'
    rcases List.mem_cons.mp hl' with rfl | hl'
    · exact hl
    · exact hls l' hl'

theorem pieces_ended_append {ls : List Text} (hls : ∀ l ∈ ls, '\n' ∉ l) (t : Text) :
    pieces (ended ls ++ t) = ls ++ pieces t := by
  induction ls with
  | nil => rfl
  | cons l ls ih =>
    rw [ended_cons, List.append_assoc, List.cons_append, pieces_line (hls l (by simp)),
      ih fun l' hl' => hls l' (by simp [hl']), List.cons_append]

theorem newlines_ended {ls : List Text} (hls : ∀ l ∈ ls, '\n' ∉ l) :
    newlines (ended ls) = ls.length := by
  induction ls with
  | nil => rfl
  | cons l ls ih =>
    have hl : l.count '\n' = 0 := List.count_eq_zero.mpr (hls l (by simp))
    have hrest := ih fun l' hl' => hls l' (by simp [hl'])
    simp only [newlines] at hrest
    rw [ended_cons, newlines, List.count_append, hl, List.count_cons_self, hrest,
      List.length_cons, Nat.zero_add]

/-! ## Carriage returns -/

theorem dropReturns_cons_of_ne {c : Char} (hc : c ≠ '\r') (t : Text) :
    dropReturns (c :: t) = c :: dropReturns t := by
  rw [dropReturns]
  split
  case h_1 h => rw [h, if_neg hc]
  case h_2 h => rw [h]

theorem dropReturns_cons_of_ne_nil {t : Text} (h : dropReturns t ≠ []) (c : Char) :
    dropReturns (c :: t) = c :: dropReturns t := by
  rw [dropReturns]
  split
  case h_1 h0 => exact absurd h0 h
  case h_2 h' => rw [h']

/-- Only carriage returns are dropped at the end of a line. -/
theorem exists_dropReturns (l : Text) : ∃ k, l = dropReturns l ++ List.replicate k '\r' := by
  induction l with
  | nil => exact ⟨0, rfl⟩
  | cons c l ih =>
    obtain ⟨k, hk⟩ := ih
    by_cases hl : dropReturns l = []
    · by_cases hc : c = '\r'
      · refine ⟨k + 1, ?_⟩
        rw [dropReturns, hl, if_pos hc, hc, List.replicate_succ, List.nil_append]
        rw [hl, List.nil_append] at hk
        rw [← hk]
      · refine ⟨k, ?_⟩
        rw [dropReturns_cons_of_ne hc, List.cons_append, ← hk]
    · refine ⟨k, ?_⟩
      rw [dropReturns_cons_of_ne_nil hl, List.cons_append, ← hk]

theorem newline_not_mem_dropReturns {l : Text} (hl : '\n' ∉ l) : '\n' ∉ dropReturns l := by
  obtain ⟨k, hk⟩ := exists_dropReturns l
  exact fun h => hl (by rw [hk]; simp [h])

theorem newline_not_mem_of_mem_lines {t l : Text} (h : l ∈ lines t) : '\n' ∉ l := by
  obtain ⟨piece, hpiece, rfl⟩ := List.mem_map.mp h
  exact newline_not_mem_dropReturns (newline_not_mem_of_mem_pieces hpiece)

theorem dropReturns_eq_rdropWhile (l : Text) : dropReturns l = l.rdropWhile (· == '\r') := by
  induction l with
  | nil => rfl
  | cons c l ih =>
    rw [dropReturns, ih, List.rdropWhile, List.rdropWhile, List.reverse_cons,
      List.dropWhile_append]
    cases hrest : l.reverse.dropWhile (· == '\r') with
    | nil => by_cases hc : c = '\r' <;> simp [hc]
    | cons d r =>
      have hne : (d :: r).reverse ≠ [] := by simp
      obtain ⟨x, y, hxy⟩ := List.exists_cons_of_ne_nil hne
      simp only [hxy, List.isEmpty_cons, Bool.false_eq_true, if_false, List.reverse_append,
        List.reverse_singleton, List.singleton_append]

/-! ## Line starts -/

theorem startsFrom_of_not_mem {l : Text} (hl : '\n' ∉ l) (off : Nat) : startsFrom off l = [] := by
  induction l generalizing off with
  | nil => rfl
  | cons c l ih =>
    have hc : c ≠ '\n' := fun h => hl (by simp [h])
    rw [startsFrom, if_neg (by simp [hc])]
    exact ih (fun h => hl (by simp [h])) _

theorem startsFrom_line {l : Text} (hl : '\n' ∉ l) (off : Nat) (t : Text) :
    startsFrom off (l ++ '\n' :: t) =
      if t = [] then [] else (off + byteLength l + 1) :: startsFrom (off + byteLength l + 1) t := by
  induction l generalizing off with
  | nil =>
    by_cases ht : t = []
    · subst ht; rfl
    · simp [startsFrom, ht]
  | cons c l ih =>
    have hc : c ≠ '\n' := fun h => hl (by simp [h])
    rw [List.cons_append, startsFrom, if_neg (by simp [hc]), ih fun h => hl (by simp [h]),
      byteLength_cons, Nat.add_assoc off]

theorem length_lineStarts {t : Text} (h : t ≠ []) : (lineStarts t).length = (pieces t).length := by
  have key : ∀ off, (startsFrom off t).length + 1 = (pieces t).length := by
    induction t using line_induction with
    | nil => exact absurd rfl h
    | last l hl hne =>
      intro off
      rw [startsFrom_of_not_mem hl, pieces_last hl hne, List.length_nil, List.length_singleton]
    | line l t hl ih =>
      intro off
      rw [startsFrom_line hl, pieces_line hl]
      by_cases ht : t = []
      · subst ht; rfl
      · rw [if_neg ht, List.length_cons, ih ht, List.length_cons]
  exact key 0

/-- Line `n` starts behind the first `n` pieces and their line feeds. -/
theorem lineStarts_getElem? {t : Text} {n : Nat} (h : n < (pieces t).length) :
    (lineStarts t)[n]? = some (byteLength (ended ((pieces t).take n))) := by
  have key : ∀ off, (off :: startsFrom off t)[n]? =
      some (off + byteLength (ended ((pieces t).take n))) := by
    induction t using line_induction generalizing n with
    | nil => simp [pieces] at h
    | last l hl hne =>
      intro off
      obtain rfl : n = 0 := by simpa [pieces_last hl hne] using h
      simp
    | line l t hl ih =>
      intro off
      cases n with
      | zero => simp
      | succ n =>
        rw [pieces_line hl, List.length_cons] at h
        have ht : t ≠ [] := by
          rintro rfl
          simp [pieces] at h
        have hnl : '\n'.utf8Size = 1 := rfl
        rw [startsFrom_line hl, if_neg ht, List.getElem?_cons_succ, ih (by omega), pieces_line hl,
          List.take_succ_cons, ended_cons, byteLength_append, byteLength_cons, hnl]
        congr 1
        omega
  simpa [lineStarts] using key 0

/-- What stands behind ended lines starts a line. -/
theorem lineStarts_ended {ls : List Text} (hls : ∀ l ∈ ls, '\n' ∉ l) {t : Text} (ht : t ≠ []) :
    (lineStarts (ended ls ++ t))[ls.length]? = some (byteLength (ended ls)) := by
  have hpieces := pieces_ended_append hls t
  have hlast : 0 < (pieces t).length := List.length_pos_of_ne_nil (mt pieces_eq_nil.mp ht)
  rw [lineStarts_getElem? (by rw [hpieces, List.length_append]; omega), hpieces, List.take_left]

/-! ## Looking for a line start -/

theorem lt_of_mem_startsFrom {off : Nat} {t : Text} {n : Nat} (h : n ∈ startsFrom off t) :
    off < n := by
  induction t generalizing off with
  | nil => cases h
  | cons c t ih =>
    have hpos := c.utf8Size_pos
    rw [startsFrom] at h
    split_ifs at h
    · obtain rfl | h := List.mem_cons.mp h
      · exact Nat.lt_succ_self off
      · have hlt := ih h
        omega
    · have hlt := ih h
      omega

theorem pairwise_startsFrom (off : Nat) (t : Text) : (startsFrom off t).Pairwise (· < ·) := by
  induction t generalizing off with
  | nil => exact .nil
  | cons c t ih =>
    rw [startsFrom]
    split_ifs
    · exact .cons (fun n hn => lt_of_mem_startsFrom hn) (ih (off + 1))
    · exact ih (off + c.utf8Size)

theorem pairwise_lineStarts (t : Text) : (lineStarts t).Pairwise (· < ·) :=
  .cons (fun _ hn => lt_of_mem_startsFrom hn) (pairwise_startsFrom 0 t)

/-- As many lines start up to a byte of a character, behind the first one, as line feeds stand
before the character. -/
theorem countP_startsFrom (off : Nat) (p : Text) (c : Char) (r : Text) {k : Nat}
    (hk : k < c.utf8Size) :
    (startsFrom off (p ++ c :: r)).countP (· ≤ off + byteLength p + k) = newlines p := by
  induction p generalizing off with
  | nil =>
    apply List.countP_eq_zero.mpr
    intro n hn
    have hlt : off + k < n := by
      rw [List.nil_append, startsFrom] at hn
      split_ifs at hn with hc
      · have hsize : '\n'.utf8Size = 1 := rfl
        rw [hc.1, hsize] at hk
        obtain rfl | hn := List.mem_cons.mp hn
        · omega
        · have hlt := lt_of_mem_startsFrom hn
          omega
      · have hlt := lt_of_mem_startsFrom hn
        omega
    rw [byteLength_nil, Nat.add_zero, decide_eq_true_eq]
    omega
  | cons d p ih =>
    rw [List.cons_append, startsFrom, byteLength_cons, ← Nat.add_assoc]
    by_cases hd : d = '\n'
    · subst hd
      have hsize : '\n'.utf8Size = 1 := rfl
      rw [if_pos ⟨rfl, by simp⟩, hsize, List.countP_cons_of_pos (by simp; omega), ih, newlines,
        newlines, List.count_cons_self]
    · rw [if_neg (fun h => hd h.1), ih, newlines, newlines, List.count_cons_of_ne hd]

section Search

variable {window : List Nat} {offset half : Nat}

/-- Behind an offset that is too great, all are. -/
theorem countP_take (h : window.Pairwise (· < ·)) (hhalf : half < window.length)
    (hlt : offset < window[half]) {n : Nat} (hn : half ≤ n) :
    (window.take n).countP (· ≤ offset) = window.countP (· ≤ offset) := by
  have hbehind : (window.drop n).countP (· ≤ offset) = 0 := by
    rw [List.countP_eq_zero]
    intro start hstart
    obtain ⟨i, hi, rfl⟩ := List.mem_iff_getElem.mp hstart
    rw [List.length_drop] at hi
    have hle : window[half] ≤ window[n + i] := by
      rcases Nat.eq_or_lt_of_le (Nat.le_add_right_of_le hn (k := i)) with hsame | hless
      · simp only [← hsame, Nat.le_refl]
      · exact Nat.le_of_lt
          (List.pairwise_iff_getElem.mp h half (n + i) hhalf (by omega) hless)
    rw [List.getElem_drop, decide_eq_true_eq]
    omega
  conv_rhs => rw [← List.take_append_drop n window, List.countP_append, hbehind, Nat.add_zero]

/-- Before an offset that is not too great, none is. -/
theorem countP_drop (h : window.Pairwise (· < ·)) (hhalf : half < window.length)
    (hle : ¬ offset < window[half]) :
    half + (window.drop half).countP (· ≤ offset) = window.countP (· ≤ offset) := by
  have hbefore : (window.take half).countP (· ≤ offset) = half := by
    rw [List.countP_eq_length.mpr, List.length_take, Nat.min_eq_left (by omega)]
    intro start hstart
    obtain ⟨i, hi, rfl⟩ := List.mem_iff_getElem.mp hstart
    rw [List.length_take] at hi
    have hlt := List.pairwise_iff_getElem.mp h i half (by omega) hhalf (by omega)
    rw [List.getElem_take, decide_eq_true_eq]
    omega
  conv_rhs => rw [← List.take_append_drop half window, List.countP_append, hbefore]

/-- **The search counts.** It comes to the number of offsets up to the one looked for, whether
that is among them or not. -/
theorem lineFound_searchStarts (h : window.Pairwise (· < ·)) (base : Nat) :
    lineFound (searchStarts offset base window) = base + window.countP (· ≤ offset) := by
  fun_induction searchStarts offset base window with
  | case1 base window hlen half hlt ih =>
    rw [ih (h.sublist (List.take_sublist _ _)), countP_take h (by omega) hlt (by omega)]
  | case2 base window hlen half hle ih =>
    rw [ih (h.sublist (List.drop_sublist _ _)), Nat.add_assoc, countP_drop h (by omega) hle]
  | case3 => rfl
  | case4 base rest hlen =>
    obtain rfl : rest = [] := by simpa using hlen
    simp [lineFound]
  | case5 base start rest hlen hne hlt =>
    obtain rfl : rest = [] := by simpa using hlen
    simp [lineFound, Nat.le_of_lt hlt]
  | case6 base start rest hlen hne hge =>
    obtain rfl : rest = [] := by simpa using hlen
    have hgt : ¬ start ≤ offset := by omega
    simp [lineFound, hgt]

end Search

end StructuralRules.Text
