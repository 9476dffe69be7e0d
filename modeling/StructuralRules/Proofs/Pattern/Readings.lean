import Mathlib.Data.List.TakeWhile
import StructuralRules.Pattern.Regex
import StructuralRules.Proofs.Text.Cut

/-!
# What expressions read

A run follows all open moves at once. `Regex.Reads` follows one of them: it says
of a text that the expression reads it, between what stands before and what
stands behind, and then accepts. A run finds a match just when some front of the
text is read, and the match is such a front. What a sequence, a loop or a word
reads is told by what its parts read.
-/

set_option autoImplicit false

namespace StructuralRules

open Text

theorem CharSet.eq_of_contains_single {c d : Char} (h : (single c).contains d = true) : d = c := by
  simp only [single, contains, Bool.and_eq_true, decide_eq_true_eq] at h
  exact Char.ext (UInt32.toNat_inj.mp (Nat.le_antisymm h.2 h.1))

theorem CharSet.contains_single_self (c : Char) : (single c).contains c = true := by
  simp [single, contains]

theorem CharSet.contains_single {c d : Char} : (single c).contains d = true ↔ d = c :=
  ⟨eq_of_contains_single, fun h => h ▸ contains_single_self d⟩

theorem CharSet.contains_ofChars {cs : List Char} {d : Char} :
    (ofChars cs).contains d = true ↔ d ∈ cs := by
  induction cs with
  | nil => exact iff_of_false nofun (List.not_mem_nil)
  | cons c cs ih =>
    cases cs with
    | nil => exact contains_single.trans List.mem_singleton.symm
    | cons e cs =>
      show ((single c).contains d || (ofChars (e :: cs)).contains d) = true ↔ _
      rw [Bool.or_eq_true, contains_single, List.mem_cons]
      exact or_congr Iff.rfl ih

namespace Regex

/-! ## Moves -/

section Moves

variable {r s : Regex} {before after : Option Char} {k : CharSet} {a : Anchor} {m : Move}

theorem mem_moves_empty : m ∈ Regex.empty.moves before after ↔ m = .accept :=
  List.mem_singleton

theorem mem_moves_set : m ∈ (Regex.set k).moves before after ↔ m = .read k .empty :=
  List.mem_singleton

theorem mem_moves_anchor :
    m ∈ (Regex.anchor a).moves before after ↔ m = .accept ∧ a.holds before after = true := by
  show m ∈ (if a.holds before after = true then [Move.accept] else []) ↔ _
  split_ifs with hholds
  · simp [hholds]
  · simp [hholds]

/-- Where the first part accepts, the moves are those of the second part. What the first part
reads is followed by the second one. -/
theorem mem_moves_cat : m ∈ (Regex.cat r s).moves before after ↔
    (Move.accept ∈ r.moves before after ∧ m ∈ s.moves before after) ∨
      ∃ k r', Move.read k r' ∈ r.moves before after ∧ m = .read k (r'.andThen s) := by
  apply List.mem_flatMap.trans
  constructor
  · intro ⟨first, hfirst, hm⟩
    cases first with
    | accept => exact Or.inl ⟨hfirst, hm⟩
    | read k r' => exact Or.inr ⟨k, r', hfirst, List.mem_singleton.mp hm⟩
  · intro h
    obtain ⟨haccept, hm⟩ | ⟨k, r', hread, hm⟩ := h
    · exact ⟨.accept, haccept, hm⟩
    · exact ⟨.read k r', hread, List.mem_singleton.mpr hm⟩

end Moves

/-! ## Readings -/

/-- Behind `before` and in front of `rest` the expression reads the text and then accepts. -/
inductive Reads : Regex → Option Char → Text → Text → Prop
  | accept {r : Regex} {before : Option Char} {rest : Text} :
      Move.accept ∈ r.moves before rest.head? → Reads r before [] rest
  | read {r : Regex} {before : Option Char} {c : Char} {k : CharSet} {r' : Regex} {u rest : Text} :
      Move.read k r' ∈ r.moves before (some c) → k.contains c = true →
      Reads r' (some c) u rest → Reads r before (c :: u) rest

section Cases

variable {r : Regex} {before : Option Char} {c : Char} {u rest : Text}

theorem reads_nil : Reads r before [] rest ↔ Move.accept ∈ r.moves before rest.head? := by
  constructor
  · intro h
    cases h with
    | accept h => exact h
  · exact .accept

theorem reads_cons : Reads r before (c :: u) rest ↔
    ∃ k r', Move.read k r' ∈ r.moves before (some c) ∧ k.contains c = true ∧
      Reads r' (some c) u rest := by
  constructor
  · intro h
    cases h with
    | read hmove hk h => exact ⟨_, _, hmove, hk, h⟩
  · intro ⟨k, r', hmove, hk, h⟩
    exact .read hmove hk h

/-- What stands before a text behind `c`, seen from its end. -/
theorem getLast?_cons_or (c : Char) (u : Text) (before : Option Char) :
    (c :: u).getLast?.or before = u.getLast?.or (some c) := by
  cases u with
  | nil => rfl
  | cons d u => simp [List.getLast?_cons]

end Cases

/-! ## Runs -/

section Runs

variable {r : Regex} {rs : List Regex} {before after : Option Char} {size n : Nat}
  {best : Option Nat} {c : Char} {t u rest : Text}

/-- The best size once a run has come to a position: an acceptance there is better. -/
def bestHere (rs : List Regex) (before after : Option Char) (size : Nat) (best : Option Nat) :
    Option Nat :=
  if (rs.flatMap (·.moves before after)).contains .accept then some size else best

/-- The rests that a run goes on with behind `c`. -/
def restsBehind (rs : List Regex) (before : Option Char) (c : Char) : List Regex :=
  (((rs.flatMap (·.moves before (some c))).takeWhile (· != .accept)).filterMap
    (Move.rest? c)).eraseDups

theorem run_nil (rs : List Regex) (before : Option Char) (size : Nat) (best : Option Nat) :
    run rs before size best [] = bestHere rs before none size best := rfl

theorem run_cons (rs : List Regex) (before : Option Char) (size : Nat) (best : Option Nat)
    (c : Char) (t : Text) :
    run rs before size best (c :: t) =
      if restsBehind rs before c = [] then bestHere rs before (some c) size best
      else run (restsBehind rs before c) (some c) (size + c.utf8Size)
        (bestHere rs before (some c) size best) t := by
  rw [run]
  unfold restsBehind bestHere
  split
  · next hnone =>
    rw [if_pos hnone]
  · next hsome =>
    rw [if_neg hsome]

theorem accepts_iff : (rs.flatMap (·.moves before after)).contains .accept = true ↔
    ∃ r ∈ rs, Move.accept ∈ r.moves before after := by
  rw [List.contains_iff_mem, List.mem_flatMap]

theorem bestHere_eq_some (h : bestHere rs before after size best = some n) :
    best = some n ∨ n = size ∧ ∃ r ∈ rs, Move.accept ∈ r.moves before after := by
  unfold bestHere at h
  split_ifs at h with haccept
  · exact Or.inr ⟨(Option.some.inj h).symm, accepts_iff.mp haccept⟩
  · exact Or.inl h

theorem bestHere_isSome (size : Nat) (best : Option Nat)
    (h : best.isSome = true ∨ ∃ r ∈ rs, Move.accept ∈ r.moves before after) :
    (bestHere rs before after size best).isSome = true := by
  unfold bestHere
  split_ifs with haccept
  · rfl
  · exact h.resolve_right fun h => haccept (accepts_iff.mpr h)

theorem exists_read_of_mem_restsBehind {r' : Regex} (h : r' ∈ restsBehind rs before c) :
    ∃ r ∈ rs, ∃ k, Move.read k r' ∈ r.moves before (some c) ∧ k.contains c = true := by
  obtain ⟨m, hm, hrest⟩ := List.mem_filterMap.mp (List.mem_eraseDups.mp h)
  obtain ⟨r, hr, hmove⟩ := List.mem_flatMap.mp (List.takeWhile_subset _ hm)
  cases m with
  | accept => cases hrest
  | read k r'' =>
    rw [Move.rest?] at hrest
    split_ifs at hrest with hk
    obtain rfl := Option.some.inj hrest
    exact ⟨r, hr, k, hmove, hk⟩

/-- Where nothing accepts, no move is dropped. -/
theorem mem_restsBehind (hnone : ¬ ∃ r ∈ rs, Move.accept ∈ r.moves before (some c)) {k : CharSet}
    {r' : Regex} (hr : r ∈ rs) (hmove : Move.read k r' ∈ r.moves before (some c))
    (hk : k.contains c = true) : r' ∈ restsBehind rs before c := by
  have hall : ∀ m ∈ rs.flatMap (·.moves before (some c)), (m != .accept) = true := by
    intro m hm
    rw [bne_iff_ne]
    intro haccept
    subst haccept
    exact hnone (List.mem_flatMap.mp hm)
  rw [restsBehind, List.takeWhile_eq_self_iff.mpr hall]
  apply List.mem_eraseDups.mpr
  apply List.mem_filterMap.mpr
  exact ⟨_, List.mem_flatMap.mpr ⟨r, hr, hmove⟩, if_pos hk⟩

/-- A run ends with the best size seen before it, or with the size of a front that is read. -/
theorem run_reads (h : run rs before size best t = some n) :
    best = some n ∨ ∃ r ∈ rs, ∃ u rest, t = u ++ rest ∧ n = size + byteLength u ∧
      Reads r before u rest := by
  induction t generalizing rs before size best with
  | nil =>
    rw [run_nil] at h
    obtain hbest | ⟨hn, r, hr, hmove⟩ := bestHere_eq_some h
    · exact Or.inl hbest
    · exact Or.inr ⟨r, hr, [], [], rfl, hn, .accept hmove⟩
  | cons c t ih =>
    -- An acceptance here is the best so far, whatever the rests do later.
    have hhere : bestHere rs before (some c) size best = some n → best = some n ∨
        ∃ r ∈ rs, ∃ u rest, c :: t = u ++ rest ∧ n = size + byteLength u ∧
          Reads r before u rest := by
      intro hn
      obtain hbest | ⟨hn, r, hr, hmove⟩ := bestHere_eq_some hn
      · exact Or.inl hbest
      · exact Or.inr ⟨r, hr, [], c :: t, rfl, hn, .accept hmove⟩
    rw [run_cons] at h
    split_ifs at h with hrests
    · exact hhere h
    · obtain hbest | ⟨r', hr', u, rest, rfl, hn, hreads⟩ := ih h
      · exact hhere hbest
      · obtain ⟨r, hr, k, hmove, hk⟩ := exists_read_of_mem_restsBehind hr'
        refine Or.inr ⟨r, hr, c :: u, rest, rfl, ?_, .read hmove hk hreads⟩
        rw [hn, byteLength_cons, Nat.add_assoc]

theorem run_isSome (h : best.isSome = true) : (run rs before size best t).isSome = true := by
  induction t generalizing rs before size best with
  | nil => exact bestHere_isSome _ _ (Or.inl h)
  | cons c t ih =>
    rw [run_cons]
    split_ifs
    · exact bestHere_isSome _ _ (Or.inl h)
    · exact ih (bestHere_isSome _ _ (Or.inl h))

/-- A run ends with a size if one of its rests reads a front of the text. -/
theorem run_isSome_of_reads (hr : r ∈ rs) (h : Reads r before u rest) :
    (run rs before size best (u ++ rest)).isSome = true := by
  induction h generalizing rs size best with
  | @accept r before rest hmove =>
    cases rest with
    | nil => exact bestHere_isSome _ _ (Or.inr ⟨r, hr, hmove⟩)
    | cons c rest =>
      have hhere := bestHere_isSome size best (Or.inr ⟨r, hr, hmove⟩)
      rw [List.nil_append, run_cons]
      split_ifs
      · exact hhere
      · exact run_isSome hhere
  | @read r before c k r' u rest hmove hk _ ih =>
    rw [List.cons_append, run_cons]
    by_cases haccept : ∃ r ∈ rs, Move.accept ∈ r.moves before (some c)
    · have hhere := bestHere_isSome size best (Or.inr haccept)
      split_ifs
      · exact hhere
      · exact run_isSome hhere
    · have hrest := mem_restsBehind haccept hr hmove hk
      rw [if_neg (List.ne_nil_of_mem hrest)]
      exact ih hrest

end Runs

/-- A match is a front of the text that is read. -/
theorem reads_of_matchSize? {r : Regex} {before : Option Char} {t : Text} {n : Nat}
    (h : r.matchSize? before t = some n) :
    ∃ u rest, t = u ++ rest ∧ n = byteLength u ∧ Reads r before u rest := by
  obtain hbest | ⟨r', hr', u, rest, ht, hn, hreads⟩ := run_reads h
  · cases hbest
  · obtain rfl := List.mem_singleton.mp hr'
    exact ⟨u, rest, ht, by omega, hreads⟩

/-- **Where a front of the text is read, there is a match.** -/
theorem matchSize?_of_reads {r : Regex} {before : Option Char} {u rest : Text}
    (h : Reads r before u rest) : ∃ n, r.matchSize? before (u ++ rest) = some n := by
  apply Option.isSome_iff_exists.mp
  exact run_isSome_of_reads (List.mem_singleton_self r) h

/-! ## Readings of sequences -/

section Sequences

variable {r s : Regex} {before after : Option Char} {c : Char} {k : CharSet} {q : Regex}
  {u rest : Text}

theorem reads_empty : Reads .empty before u rest ↔ u = [] := by
  cases u with
  | nil => simp [reads_nil, mem_moves_empty]
  | cons c u => simp [reads_cons, mem_moves_empty]

theorem reads_anchor {a : Anchor} :
    Reads (.anchor a) before u rest ↔ u = [] ∧ a.holds before rest.head? = true := by
  cases u with
  | nil => simp [reads_nil, mem_moves_anchor]
  | cons c u => simp [reads_cons, mem_moves_anchor]

theorem reads_set : Reads (.set k) before u rest ↔ ∃ c, u = [c] ∧ k.contains c = true := by
  cases u with
  | nil => simp [reads_nil, mem_moves_set]
  | cons c u =>
    rw [reads_cons]
    constructor
    · intro ⟨k', r', hmove, hk, h⟩
      obtain ⟨rfl, rfl⟩ := Move.read.inj (mem_moves_set.mp hmove)
      exact ⟨c, by rw [reads_empty.mp h], hk⟩
    · intro ⟨d, hu, hk⟩
      obtain ⟨rfl, rfl⟩ := List.cons.inj hu
      exact ⟨k, .empty, mem_moves_set.mpr rfl, hk, reads_empty.mpr rfl⟩

theorem reads_char : Reads (.char c) before u rest ↔ u = [c] := by
  rw [char, reads_set]
  constructor
  · intro ⟨d, hu, hd⟩
    rw [hu, CharSet.eq_of_contains_single hd]
  · intro hu
    exact ⟨c, hu, CharSet.contains_single_self c⟩

/-- `r` reads a front of the text, and `s` what is behind it. -/
def ReadsInTurn (r s : Regex) (before : Option Char) (u rest : Text) : Prop :=
  ∃ v w, u = v ++ w ∧ Reads r before v (w ++ rest) ∧ Reads s (v.getLast?.or before) w rest

theorem readsInTurn_empty : ReadsInTurn .empty s before u rest ↔ Reads s before u rest := by
  constructor
  · intro ⟨v, w, hu, hv, hw⟩
    obtain rfl := reads_empty.mp hv
    rw [hu]
    exact hw
  · intro h
    exact ⟨[], u, rfl, reads_empty.mpr rfl, h⟩

theorem reads_andThen (h : Reads (.cat r s) before u rest ↔ ReadsInTurn r s before u rest) :
    Reads (r.andThen s) before u rest ↔ ReadsInTurn r s before u rest := by
  unfold andThen
  split
  · exact readsInTurn_empty.symm
  · exact h

/-- A sequence reads what its parts read one after the other. -/
theorem reads_cat : Reads (.cat r s) before u rest ↔ ReadsInTurn r s before u rest := by
  induction u generalizing r before with
  | nil =>
    rw [reads_nil, mem_moves_cat]
    constructor
    · rintro (⟨hr, hs⟩ | ⟨k, r', -, hread⟩)
      · exact ⟨[], [], rfl, .accept hr, .accept hs⟩
      · cases hread
    · intro ⟨v, w, hu, hv, hw⟩
      obtain ⟨rfl, rfl⟩ := List.append_eq_nil_iff.mp hu.symm
      exact Or.inl ⟨reads_nil.mp hv, reads_nil.mp hw⟩
  | cons c u ih =>
    rw [reads_cons]
    constructor
    · intro ⟨k, q, hmove, hk, h⟩
      obtain ⟨hr, hs⟩ | ⟨k', r', hr, hread⟩ := mem_moves_cat.mp hmove
      · exact ⟨[], c :: u, rfl, .accept hr, .read hs hk h⟩
      · obtain ⟨rfl, rfl⟩ := Move.read.inj hread
        obtain ⟨v, w, rfl, hv, hw⟩ := (reads_andThen ih).mp h
        refine ⟨c :: v, w, rfl, .read hr hk hv, ?_⟩
        rwa [getLast?_cons_or]
    · intro ⟨v, w, hu, hv, hw⟩
      cases v with
      | nil =>
        obtain rfl : c :: u = w := hu
        obtain ⟨k, q, hmove, hk, h⟩ := reads_cons.mp hw
        exact ⟨k, q, mem_moves_cat.mpr (Or.inl ⟨reads_nil.mp hv, hmove⟩), hk, h⟩
      | cons d v =>
        obtain ⟨rfl, rfl⟩ := List.cons.inj hu
        obtain ⟨k, r', hmove, hk, h⟩ := reads_cons.mp hv
        rw [getLast?_cons_or] at hw
        refine ⟨k, _, mem_moves_cat.mpr (Or.inr ⟨k, r', hmove, rfl⟩), hk, ?_⟩
        exact (reads_andThen ih).mpr ⟨v, w, rfl, h, hw⟩

/-- A word reads itself. -/
theorem reads_literal {w : Text} : Reads (.literal w) before u rest ↔ u = w := by
  induction w generalizing u before with
  | nil => exact reads_empty
  | cons c w ih =>
    cases w with
    | nil => exact reads_char
    | cons d w =>
      show Reads (.cat (.char c) (.literal (d :: w))) before u rest ↔ _
      rw [reads_cat]
      constructor
      · intro ⟨v, x, hu, hv, hx⟩
        rw [hu, reads_char.mp hv, ih.mp hx, List.singleton_append]
      · intro hu
        exact ⟨[c], d :: w, hu, reads_char.mpr rfl, ih.mpr rfl⟩

/-- A loop over a set reads any run of its characters. -/
theorem reads_star_set {greedy : Bool} :
    Reads (.star greedy (.set k)) before u rest ↔ ∀ c ∈ u, k.contains c = true := by
  show Reads (.loop greedy (.set k)) before u rest ↔ _
  have hmoves : ∀ {before after : Option Char} {m : Move},
      m ∈ (Regex.loop greedy (.set k)).moves before after ↔
        m = .accept ∨ m = .read k (.loop greedy (.set k)) := by
    intro before after m
    cases greedy with
    | false =>
      show m ∈ [Move.accept, .read k (.loop false (.set k))] ↔ _
      rw [List.mem_cons, List.mem_singleton]
    | true =>
      show m ∈ [Move.read k (.loop true (.set k)), .accept] ↔ _
      rw [List.mem_cons, List.mem_singleton, or_comm]
  induction u generalizing before with
  | nil => exact iff_of_true (.accept (hmoves.mpr (Or.inl rfl))) (by simp)
  | cons c u ih =>
    rw [reads_cons, List.forall_mem_cons]
    constructor
    · intro ⟨k', q, hmove, hk, h⟩
      obtain haccept | hread := hmoves.mp hmove
      · cases haccept
      · obtain ⟨rfl, rfl⟩ := Move.read.inj hread
        exact ⟨hk, ih.mp h⟩
    · intro ⟨hk, h⟩
      exact ⟨k, _, hmoves.mpr (Or.inr rfl), hk, ih.mpr h⟩

end Sequences

/-! ## Readings of loops -/

section Loops

variable {r : Regex} {greedy : Bool} {before after : Option Char} {c : Char} {u rest : Text}
  {m : Move}

theorem mem_moves_loop : m ∈ (Regex.loop greedy r).moves before after ↔
    m = .accept ∨ ∃ k r', Move.read k r' ∈ r.moves before after ∧
      m = .read k (r'.andThen (.loop greedy r)) := by
  have hagain : m ∈ (r.moves before after).filterMap (Move.readingBefore (.loop greedy r)) ↔
      ∃ k r', Move.read k r' ∈ r.moves before after ∧
        m = .read k (r'.andThen (.loop greedy r)) := by
    rw [List.mem_filterMap]
    constructor
    · intro ⟨first, hfirst, hm⟩
      cases first with
      | accept => cases hm
      | read k r' => exact ⟨k, r', hfirst, (Option.some.inj hm).symm⟩
    · intro ⟨k, r', hread, hm⟩
      exact ⟨.read k r', hread, congrArg some hm.symm⟩
  rw [moves]
  split_ifs
  · rw [List.mem_append, List.mem_singleton, hagain, or_comm]
  · rw [List.mem_cons, hagain]

theorem mem_moves_plus : m ∈ (Regex.plus greedy r).moves before after ↔
    (m = .accept ∧ Move.accept ∈ r.moves before after) ∨
      ∃ k r', Move.read k r' ∈ r.moves before after ∧
        m = .read k (r'.andThen (.loop greedy r)) := by
  rw [moves, List.mem_map]
  constructor
  · intro ⟨first, hfirst, hm⟩
    cases first with
    | accept => exact Or.inl ⟨hm.symm, hfirst⟩
    | read k r' => exact Or.inr ⟨k, r', hfirst, hm.symm⟩
  · rintro (⟨rfl, haccept⟩ | ⟨k, r', hread, hm⟩)
    · exact ⟨.accept, haccept, rfl⟩
    · exact ⟨.read k r', hread, hm.symm⟩

/-- A round that reads something, and what the loop reads behind it. -/
def ReadsRound (r : Regex) (greedy : Bool) (before : Option Char) (c : Char) (u rest : Text) :
    Prop :=
  ∃ v w, u = v ++ w ∧ Reads r before (c :: v) (w ++ rest) ∧
    Reads (.loop greedy r) (v.getLast?.or (some c)) w rest

theorem readsRound_iff : ReadsRound r greedy before c u rest ↔
    ∃ k r', Move.read k r' ∈ r.moves before (some c) ∧ k.contains c = true ∧
      Reads (r'.andThen (.loop greedy r)) (some c) u rest := by
  constructor
  · intro ⟨v, w, hu, hv, hw⟩
    obtain ⟨k, r', hmove, hk, h⟩ := reads_cons.mp hv
    exact ⟨k, r', hmove, hk, (reads_andThen reads_cat).mpr ⟨v, w, hu, h, hw⟩⟩
  · intro ⟨k, r', hmove, hk, h⟩
    obtain ⟨v, w, hu, hv, hw⟩ := (reads_andThen reads_cat).mp h
    exact ⟨v, w, hu, .read hmove hk hv, hw⟩

theorem reads_loop_nil : Reads (.loop greedy r) before [] rest :=
  .accept (mem_moves_loop.mpr (Or.inl rfl))

theorem reads_loop_cons :
    Reads (.loop greedy r) before (c :: u) rest ↔ ReadsRound r greedy before c u rest := by
  rw [reads_cons, readsRound_iff]
  constructor
  · intro ⟨k, q, hmove, hk, h⟩
    obtain haccept | ⟨k', r', hread, heq⟩ := mem_moves_loop.mp hmove
    · cases haccept
    · obtain ⟨rfl, rfl⟩ := Move.read.inj heq
      exact ⟨k, r', hread, hk, h⟩
  · intro ⟨k, r', hread, hk, h⟩
    exact ⟨k, _, mem_moves_loop.mpr (Or.inr ⟨k, r', hread, rfl⟩), hk, h⟩

theorem reads_plus_cons :
    Reads (.plus greedy r) before (c :: u) rest ↔ ReadsRound r greedy before c u rest := by
  rw [reads_cons, readsRound_iff]
  constructor
  · intro ⟨k, q, hmove, hk, h⟩
    obtain ⟨haccept, -⟩ | ⟨k', r', hread, heq⟩ := mem_moves_plus.mp hmove
    · cases haccept
    · obtain ⟨rfl, rfl⟩ := Move.read.inj heq
      exact ⟨k, r', hread, hk, h⟩
  · intro ⟨k, r', hread, hk, h⟩
    exact ⟨k, _, mem_moves_plus.mpr (Or.inr ⟨k, r', hread, rfl⟩), hk, h⟩

theorem reads_plus_nil : Reads (.plus greedy r) before [] rest ↔ Reads r before [] rest := by
  rw [reads_nil, reads_nil, mem_moves_plus]
  constructor
  · rintro (⟨-, haccept⟩ | ⟨k, r', -, hread⟩)
    · exact haccept
    · cases hread
  · exact fun haccept => Or.inl ⟨rfl, haccept⟩

variable {P : Text → Prop}

/-- A loop whose rounds read the texts of a kind, wherever they stand, reads any number of such
texts one after the other. -/
theorem reads_loop (hr : ∀ {before u rest}, Reads r before u rest ↔ P u) (hnil : ¬ P []) :
    Reads (.loop greedy r) before u rest ↔ ∃ vs : List Text, u = vs.flatten ∧ ∀ v ∈ vs, P v := by
  constructor
  · intro h
    induction hn : u.length using Nat.strong_induction_on generalizing u before with
    | _ n ih =>
      cases u with
      | nil => exact ⟨[], rfl, nofun⟩
      | cons c u =>
        obtain ⟨v, w, rfl, hv, hw⟩ := reads_loop_cons.mp h
        have hshorter : w.length < n := by
          rw [← hn, List.length_cons, List.length_append]
          omega
        obtain ⟨vs, rfl, hvs⟩ := ih _ hshorter hw rfl
        exact ⟨(c :: v) :: vs, rfl, List.forall_mem_cons.mpr ⟨hr.mp hv, hvs⟩⟩
  · rintro ⟨vs, rfl, hvs⟩
    induction vs generalizing before with
    | nil => exact reads_loop_nil
    | cons v vs ih =>
      obtain ⟨hv, hrest⟩ := List.forall_mem_cons.mp hvs
      cases v with
      | nil => exact absurd hv hnil
      | cons c v => exact reads_loop_cons.mpr ⟨v, vs.flatten, rfl, hr.mpr hv, ih hrest⟩

/-- One round, and the loop behind it. -/
theorem reads_plus (hr : ∀ {before u rest}, Reads r before u rest ↔ P u) (hnil : ¬ P []) :
    Reads (.plus greedy r) before u rest ↔
      ∃ vs : List Text, vs ≠ [] ∧ u = vs.flatten ∧ ∀ v ∈ vs, P v := by
  cases u with
  | nil =>
    rw [reads_plus_nil, hr]
    refine iff_of_false hnil ?_
    rintro ⟨vs, hne, hflat, hvs⟩
    obtain ⟨v, vs, rfl⟩ := List.exists_cons_of_ne_nil hne
    obtain ⟨rfl, -⟩ := List.append_eq_nil_iff.mp hflat.symm
    exact hnil (hvs [] List.mem_cons_self)
  | cons c u =>
    rw [reads_plus_cons, ← reads_loop_cons, reads_loop hr hnil]
    constructor
    · rintro ⟨vs, hflat, hvs⟩
      refine ⟨vs, ?_, hflat, hvs⟩
      rintro rfl
      cases hflat
    · rintro ⟨vs, -, hvs⟩
      exact ⟨vs, hvs⟩

/-- One or more characters of a set. -/
theorem reads_plus_set {k : CharSet} :
    Reads (.plus greedy (.set k)) before u rest ↔ u ≠ [] ∧ ∀ c ∈ u, k.contains c = true := by
  cases u with
  | nil =>
    rw [reads_plus_nil, reads_set]
    simp
  | cons c u =>
    rw [reads_plus_cons, ← reads_loop_cons]
    exact reads_star_set.trans (by simp)

end Loops
end Regex
end StructuralRules
