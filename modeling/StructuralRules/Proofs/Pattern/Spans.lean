import Mathlib.Data.List.Nodup
import StructuralRules.Pattern.Search
import StructuralRules.Proofs.Pattern.Readings

/-!
# Matches are pieces of the text

What an expression has read is a prefix of the text, so the offsets of a match
fall between characters. A property of what was read and of the rest that every
move keeps holds wherever the reading accepts. With it, an expression that is a
sequence with one character at its end matches up to that character. A search
comes to every place where something is read, unless the match before covers it.
-/

set_option autoImplicit false

namespace StructuralRules

open Text

/-- `s` are the offsets of `m` in `t`. -/
structure Span.Delimits (s : Span) (t before m behind : Text) : Prop where
  text_eq : t = before ++ (m ++ behind)
  start_eq : s.start = byteLength before
  stop_eq : s.stop = byteLength before + byteLength m

namespace Regex

/-! ## What is kept along a reading -/

/-- Every move that reads keeps the property of what was read and the rest. -/
def Kept (inv : Text → Regex → Prop) : Prop :=
  ∀ u r before after k c r', inv u r → Move.read k r' ∈ r.moves before after →
    k.contains c = true → inv (u ++ [c]) r'

variable {inv : Text → Regex → Prop}

/-- Behind `u` something is accepted in `t`, after `n` bytes in all. -/
def Accepts (inv : Text → Regex → Prop) (u t : Text) (n : Nat) : Prop :=
  ∃ v w r before after, t = v ++ w ∧ n = byteLength (u ++ v) ∧ inv (u ++ v) r ∧
    Move.accept ∈ r.moves before after

theorem Accepts.cons {u t : Text} {c : Char} {n : Nat} (h : Accepts inv (u ++ [c]) t n) :
    Accepts inv u (c :: t) n := by
  obtain ⟨v, w, r, before, after, rfl, hn, hr, hmove⟩ := h
  rw [List.append_assoc, List.singleton_append] at hn hr
  exact ⟨c :: v, w, r, before, after, rfl, hn, hr, hmove⟩

/-- What is kept along a reading holds where it accepts. -/
theorem Reads.accepts (hkept : Kept inv) {r : Regex} {before : Option Char} {u v rest : Text}
    (h : Reads r before v rest) (hr : inv u r) :
    Accepts inv u (v ++ rest) (byteLength (u ++ v)) := by
  induction h generalizing u with
  | @accept r before rest hmove =>
    refine ⟨[], rest, r, before, rest.head?, rfl, ?_, ?_, hmove⟩
    · rw [List.append_nil]
    · rwa [List.append_nil]
  | @read r before c k r' v rest hmove hk _ ih =>
    have hrest := ih (hkept _ _ _ _ _ _ _ hr hmove hk)
    rw [List.append_assoc, List.singleton_append] at hrest
    exact hrest.cons

theorem matchSize?_invariant (hkept : Kept inv) {r : Regex} (hr : inv [] r)
    {before : Option Char} {t : Text} {n : Nat} (h : r.matchSize? before t = some n) :
    Accepts inv [] t n := by
  obtain ⟨v, rest, rfl, rfl, hreads⟩ := reads_of_matchSize? h
  exact hreads.accepts hkept hr

/-! ## Searches -/

/-- `s` is a match of `r` in `t`, where `off` is the offset of `t`. -/
def FoundFrom (r : Regex) (off : Nat) (t : Text) (s : Span) : Prop :=
  ∃ p q before n, t = p ++ q ∧ r.matchSize? before q = some n ∧
    s.start = off + byteLength p ∧ s.stop = s.start + n

variable {r : Regex} {t : Text} {s : Span} {cursor off : Nat}

theorem FoundFrom.cons {c : Char} (h : r.FoundFrom (off + c.utf8Size) t s) :
    r.FoundFrom off (c :: t) s := by
  obtain ⟨p, q, before, n, rfl, hmatch, hstart, hstop⟩ := h
  refine ⟨c :: p, q, before, n, rfl, hmatch, ?_, hstop⟩
  rw [hstart, byteLength_cons, Nat.add_assoc]

theorem spanAt?_eq_some {before : Option Char} (h : r.spanAt? cursor before off t = some s) :
    cursor ≤ s.start ∧ r.FoundFrom off t s := by
  rw [spanAt?] at h
  split_ifs at h with hcursor
  obtain ⟨n, hn, rfl⟩ := Option.map_eq_some_iff.mp h
  exact ⟨hcursor, [], t, before, n, rfl, hn, rfl, rfl⟩

theorem spanAt?_start {before : Option Char} (h : r.spanAt? cursor before off t = some s) :
    s.start = off := by
  rw [spanAt?] at h
  split_ifs at h
  obtain ⟨n, -, rfl⟩ := Option.map_eq_some_iff.mp h
  rfl

theorem findFrom_eq_some {before : Option Char} (h : r.findFrom cursor before off t = some s) :
    cursor ≤ s.start ∧ r.FoundFrom off t s := by
  induction t generalizing before off with
  | nil => exact spanAt?_eq_some h
  | cons c t ih =>
    rw [findFrom] at h
    split at h
    · next s' hs' =>
      obtain rfl := Option.some.inj h
      exact spanAt?_eq_some hs'
    · obtain ⟨hcursor, hfound⟩ := ih h
      exact ⟨hcursor, hfound.cons⟩

theorem findAt?_eq_some (h : r.findAt? t cursor = some s) :
    cursor ≤ s.start ∧ r.FoundFrom 0 t s :=
  findFrom_eq_some h

theorem spansFrom_found {last : Option Nat} {before : Option Char}
    (h : s ∈ r.spansFrom cursor last before off t) : r.FoundFrom off t s := by
  induction t generalizing cursor last before off with
  | nil =>
    have hfound := (Option.filter_eq_some_iff.mp (Option.mem_toList.mp h)).1
    exact (spanAt?_eq_some hfound).2
  | cons c t ih =>
    rw [spansFrom] at h
    split at h
    · next s' hs' =>
      rcases List.mem_cons.mp h with rfl | h
      · exact (spanAt?_eq_some (Option.filter_eq_some_iff.mp hs').1).2
      · exact (ih h).cons
    · exact (ih h).cons

/-- `s` is where `r` reads a part of `t`, which stands behind `before` at offset `off`. -/
def ReadAt (r : Regex) (before : Option Char) (off : Nat) (t : Text) (s : Span) : Prop :=
  ∃ p v q, t = p ++ (v ++ q) ∧ s.start = off + byteLength p ∧ s.stop = s.start + byteLength v ∧
    Reads r (p.getLast?.or before) v q

theorem ReadAt.cons {before : Option Char} {c : Char}
    (h : r.ReadAt (some c) (off + c.utf8Size) t s) : r.ReadAt before off (c :: t) s := by
  obtain ⟨p, v, q, rfl, hstart, hstop, hreads⟩ := h
  refine ⟨c :: p, v, q, rfl, ?_, hstop, ?_⟩
  · rw [hstart, byteLength_cons, Nat.add_assoc]
  · rwa [getLast?_cons_or]

theorem spanAt?_reads {before : Option Char} (h : r.spanAt? cursor before off t = some s) :
    r.ReadAt before off t s := by
  rw [spanAt?] at h
  split_ifs at h
  obtain ⟨n, hn, rfl⟩ := Option.map_eq_some_iff.mp h
  obtain ⟨v, q, rfl, rfl, hreads⟩ := reads_of_matchSize? hn
  exact ⟨[], v, q, rfl, rfl, rfl, hreads⟩

theorem spansFrom_reads {last : Option Nat} {before : Option Char}
    (h : s ∈ r.spansFrom cursor last before off t) : r.ReadAt before off t s := by
  induction t generalizing cursor last before off with
  | nil => exact spanAt?_reads (Option.filter_eq_some_iff.mp (Option.mem_toList.mp h)).1
  | cons c t ih =>
    rw [spansFrom] at h
    split at h
    · next s' hs' =>
      obtain rfl | h := List.mem_cons.mp h
      · exact spanAt?_reads (Option.filter_eq_some_iff.mp hs').1
      · exact (ih h).cons
    · exact (ih h).cons

/-- A match of the list is a part of the text that is read where it stands. -/
theorem spans_reads (h : s ∈ r.spans t) :
    ∃ p v q, s.Delimits t p v q ∧ Reads r p.getLast? v q := by
  obtain ⟨p, v, q, ht, hstart, hstop, hreads⟩ := spansFrom_reads h
  rw [Option.or_none] at hreads
  exact ⟨p, v, q, ⟨ht, by omega, by omega⟩, hreads⟩

/-- The search comes to a place with a match, unless it starts behind it or a match covers it. -/
theorem exists_mem_spansFrom {last : Option Nat} {before : Option Char} {p q : Text} {n : Nat}
    (h : r.matchSize? (p.getLast?.or before) q = some n) (hn : 0 < n) :
    off + byteLength p < cursor ∨ ∃ s ∈ r.spansFrom cursor last before off (p ++ q),
      s.start = off + byteLength p ∨
        s.start < off + byteLength p ∧ off + byteLength p < s.stop := by
  induction p generalizing cursor last before off with
  | nil =>
    by_cases hcursor : off < cursor
    · exact Or.inl hcursor
    · have hspan : (r.spanAt? cursor before off q).filter (!passesOver last ·) =
          some ⟨off, off + n⟩ := by
        have hmatch : r.matchSize? before q = some n := h
        rw [spanAt?, if_pos (by omega), hmatch, Option.map_some, Option.filter_some, if_pos]
        simp [passesOver]
        omega
      refine Or.inr ⟨⟨off, off + n⟩, ?_, Or.inl rfl⟩
      cases q with
      | nil =>
        rw [List.nil_append, spansFrom, hspan]
        exact List.mem_singleton_self _
      | cons c q =>
        rw [List.nil_append, spansFrom, hspan]
        exact List.mem_cons_self
  | cons c p ih =>
    rw [getLast?_cons_or] at h
    rw [List.cons_append, spansFrom, byteLength_cons]
    have hpos := c.utf8Size_pos
    -- The place is behind `c`, where the search goes on at the end of a match or where it was.
    have hplace : off + (c.utf8Size + byteLength p) = off + c.utf8Size + byteLength p := by omega
    rw [hplace]
    split
    · next s hs =>
      have hstart := spanAt?_start (Option.filter_eq_some_iff.mp hs).1
      obtain hcovered | ⟨s', hs', hfound⟩ := ih h
      · exact Or.inr ⟨s, List.mem_cons_self, Or.inr ⟨by omega, hcovered⟩⟩
      · exact Or.inr ⟨s', List.mem_cons_of_mem s hs', hfound⟩
    · exact ih h

/-- **A search misses no match** but those that start within another one. -/
theorem exists_mem_spans {p v q : Text} (h : Reads r p.getLast? v q)
    (hreads : ∀ {before : Option Char} {rest : Text}, ¬ Reads r before [] rest) :
    ∃ s ∈ r.spans (p ++ (v ++ q)), s.start = byteLength p ∨
      s.start < byteLength p ∧ byteLength p < s.stop := by
  obtain ⟨n, hn⟩ := matchSize?_of_reads h
  obtain ⟨u, rest, -, rfl, hu⟩ := reads_of_matchSize? hn
  have hpos : 0 < byteLength u := by
    apply Nat.pos_of_ne_zero
    intro hzero
    exact hreads (byteLength_eq_zero.mp hzero ▸ hu)
  have hmatch : r.matchSize? (p.getLast?.or none) (v ++ q) = some (byteLength u) := by
    rwa [Option.or_none]
  have hfound : 0 + byteLength p < 0 ∨ ∃ s ∈ r.spans (p ++ (v ++ q)),
      s.start = 0 + byteLength p ∨ s.start < 0 + byteLength p ∧ 0 + byteLength p < s.stop :=
    exists_mem_spansFrom hmatch hpos
  rw [Nat.zero_add] at hfound
  exact hfound.resolve_left (Nat.not_lt_zero _)

theorem spans_found (h : s ∈ r.spans t) : r.FoundFrom 0 t s :=
  spansFrom_found h

/-- Each match starts behind the start of the one before it. -/
theorem spansFrom_pairwise {last : Option Nat} {before : Option Char} :
    (r.spansFrom cursor last before off t).Pairwise (·.start < ·.start) := by
  induction t generalizing cursor last before off with
  | nil =>
    rw [spansFrom]
    cases (r.spanAt? cursor before off []).filter (!passesOver last ·) with
    | none => exact .nil
    | some s => exact List.pairwise_singleton _ s
  | cons c t ih =>
    rw [spansFrom]
    split
    · next s hs =>
      refine List.pairwise_cons.mpr ⟨fun s' hs' => ?_, ih⟩
      have hstart := spanAt?_start (Option.filter_eq_some_iff.mp hs).1
      obtain ⟨p, q, b, n, -, -, hstart', -⟩ := spansFrom_found hs'
      have hpos := c.utf8Size_pos
      omega
    · exact ih

theorem eq_of_start_eq {s' : Span} (h : s ∈ r.spans t) (h' : s' ∈ r.spans t)
    (hstart : s.start = s'.start) : s = s' := by
  have hsorted : (r.spans t).Pairwise (·.start < ·.start) := spansFrom_pairwise
  have hnodup : ((r.spans t).map (·.start)).Nodup :=
    List.pairwise_map.mpr (hsorted.imp Nat.ne_of_lt)
  exact List.inj_on_of_nodup_map hnodup h h' hstart

/-- The offsets of a match fall between characters. -/
theorem FoundFrom.delimits (h : r.FoundFrom 0 t s) :
    ∃ before m behind, s.Delimits t before m behind := by
  obtain ⟨p, q, before, n, rfl, hmatch, hstart, hstop⟩ := h
  have hkept : Kept fun _ _ => True := fun _ _ _ _ _ _ _ _ _ _ => trivial
  obtain ⟨m, behind, r', b, a, rfl, hn, -, -⟩ := matchSize?_invariant hkept trivial hmatch
  rw [List.nil_append] at hn
  exact ⟨p, m, behind, rfl, by omega, by omega⟩

/-! ## A character at the end -/

/-- A sequence with the character `c` at its end. -/
inductive EndsWith (c : Char) : Regex → Prop
  | char : EndsWith c (.char c)
  | cat (r : Regex) {s : Regex} : EndsWith c s → EndsWith c (.cat r s)

theorem EndsWith.andThen {c : Char} {s : Regex} (h : EndsWith c s) (r : Regex) :
    EndsWith c (r.andThen s) := by
  unfold Regex.andThen
  split
  · exact h
  · exact .cat _ h

/-- Such a sequence reads before it accepts. The character at its end is read last. -/
theorem EndsWith.move {c : Char} {r : Regex} (h : EndsWith c r) {before after : Option Char}
    {m : Move} (hm : m ∈ r.moves before after) :
    ∃ k r', m = .read k r' ∧ (EndsWith c r' ∨ k = .single c ∧ r' = .empty) := by
  induction h generalizing m with
  | char =>
    obtain rfl : m = .read (.single c) .empty := List.mem_singleton.mp hm
    exact ⟨_, _, rfl, Or.inr ⟨rfl, rfl⟩⟩
  | @cat x s hs ih =>
    rcases mem_moves_cat.mp hm with ⟨-, hm⟩ | ⟨k, r', -, rfl⟩
    · exact ih hm
    · exact ⟨k, _, rfl, Or.inl (hs.andThen r')⟩

theorem kept_endsWith (c : Char) :
    Kept fun u r => EndsWith c r ∨ r = .empty ∧ ∃ u', u = u' ++ [c] := by
  intro u r before after k d r' hr hmove hk
  rcases hr with hr | ⟨rfl, -⟩
  · obtain ⟨k', r'', hread, hrest⟩ := hr.move hmove
    obtain ⟨rfl, rfl⟩ := Move.read.inj hread
    rcases hrest with hrest | ⟨rfl, rfl⟩
    · exact Or.inl hrest
    · exact Or.inr ⟨rfl, u, by rw [CharSet.eq_of_contains_single hk]⟩
  · cases List.mem_singleton.mp hmove

theorem FoundFrom.delimits_endsWith {c : Char} (hr : EndsWith c r) (h : r.FoundFrom 0 t s) :
    ∃ before m behind, s.Delimits t before (m ++ [c]) behind := by
  obtain ⟨p, q, before, n, rfl, hmatch, hstart, hstop⟩ := h
  obtain ⟨m, behind, r', b, a, rfl, hn, hend, haccept⟩ :=
    matchSize?_invariant (kept_endsWith c) (Or.inl hr) hmatch
  rw [List.nil_append] at hn hend
  rcases hend with hend | ⟨rfl, m', rfl⟩
  · obtain ⟨k, r'', hread, -⟩ := hend.move haccept
    cases hread
  · exact ⟨p, m', behind, rfl, by omega, by omega⟩

end Regex
end StructuralRules
