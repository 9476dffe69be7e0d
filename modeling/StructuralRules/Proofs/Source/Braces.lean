import StructuralRules.Proofs.Pattern.Spans
import StructuralRules.Proofs.Source.Bodies

/-!
# Brackets that enclose a text

Counting brackets finds the end of the shortest text that closes as many
brackets as it opens. `Text.Enclosed` says that of a text without counting
along it: every part at its front has more openers, and the whole has as many of
each. A body is what such a pair of braces and a header before it cut out of a
text, and a search for a body finds the first header that has one.
-/

set_option autoImplicit false

namespace StructuralRules

namespace Text

/-! ## Counting brackets -/

/-- Behind `depth` open brackets, `w` closes the last of them at its end and not before. -/
structure Closing (opener closer : Char) (depth : Nat) (w : Text) : Prop where
  inside : ∀ p q, w = p ++ q → q ≠ [] → p.count closer < depth + p.count opener
  whole : w.count closer = depth + w.count opener

/-- `w` opens a bracket at its start and closes it at its end and not before. -/
structure Enclosed (opener closer : Char) (w : Text) : Prop where
  opens : ∃ r, w = opener :: r
  closes : ∃ r, w = r ++ [closer]
  inside : ∀ p q, w = p ++ q → p ≠ [] → q ≠ [] → p.count closer < p.count opener
  whole : w.count opener = w.count closer

section Brackets

variable {opener closer : Char} {depth off stop : Nat} {c : Char} {w t : Text}

theorem closing_zero : Closing opener closer 0 w ↔ w = [] := by
  constructor
  · intro h
    by_contra hne
    have hlt := h.inside [] w rfl hne
    simp at hlt
  · rintro rfl
    refine ⟨?_, rfl⟩
    intro p q hpq hq
    exact absurd (List.append_eq_nil_iff.mp hpq.symm).2 hq

/-- The number of open brackets behind `c`. -/
def depthAfter (opener closer : Char) (depth : Nat) (c : Char) : Nat :=
  if c = opener then depth + 1 else if c = closer then depth - 1 else depth

theorem count_depthAfter (hne : opener ≠ closer) (hdepth : 0 < depth) (c : Char) (p : Text) :
    (c :: p).count closer + depthAfter opener closer depth c + p.count opener =
      p.count closer + depth + (c :: p).count opener := by
  unfold depthAfter
  by_cases hopen : c = opener
  · subst hopen
    rw [if_pos rfl, List.count_cons_self, List.count_cons_of_ne hne]
    omega
  · rw [if_neg hopen, List.count_cons_of_ne hopen]
    by_cases hclose : c = closer
    · subst hclose
      rw [if_pos rfl, List.count_cons_self]
      omega
    · rw [if_neg hclose, List.count_cons_of_ne hclose]

theorem closing_cons (hne : opener ≠ closer) (hdepth : 0 < depth) :
    Closing opener closer depth (c :: w) ↔
      Closing opener closer (depthAfter opener closer depth c) w := by
  constructor
  · intro h
    refine ⟨fun p q hw hq => ?_, ?_⟩
    · have hlt := h.inside (c :: p) q (by rw [hw, List.cons_append]) hq
      have hcount := count_depthAfter hne hdepth c p
      omega
    · have heq := h.whole
      have hcount := count_depthAfter hne hdepth c w
      omega
  · intro h
    refine ⟨fun p q hw hq => ?_, ?_⟩
    · cases p with
      | nil => simpa using hdepth
      | cons d p =>
        obtain ⟨rfl, hrest⟩ := List.cons.inj hw
        have hlt := h.inside p q hrest hq
        have hcount := count_depthAfter hne hdepth c p
        omega
    · have heq := h.whole
      have hcount := count_depthAfter hne hdepth c w
      omega

/-- **Counting stops behind the shortest text that closes all open brackets**, and finds none
only if there is none. -/
theorem closeFrom_eq_some_iff (hne : opener ≠ closer) (hdepth : 0 < depth) :
    closeFrom opener closer depth off t = some stop ↔
      ∃ w v, t = w ++ v ∧ stop = off + byteLength w ∧ Closing opener closer depth w := by
  induction t generalizing depth off with
  | nil =>
    refine ⟨fun h => by simp [closeFrom] at h, ?_⟩
    rintro ⟨w, v, ht, -, hw⟩
    obtain ⟨rfl, -⟩ := List.append_eq_nil_iff.mp ht.symm
    have hzero := hw.whole
    simp at hzero
    omega
  | cons c t ih =>
    -- Once `c` is read, what has to be closed is as deep as `depthAfter` says.
    have later : 0 < depthAfter opener closer depth c →
        (closeFrom opener closer (depthAfter opener closer depth c) (off + c.utf8Size) t =
          some stop ↔ ∃ w v, c :: t = w ++ v ∧ stop = off + byteLength w ∧
            Closing opener closer depth w) := by
      intro hpos
      rw [ih hpos]
      constructor
      · rintro ⟨w, v, rfl, hstop, hw⟩
        exact ⟨c :: w, v, rfl, by rw [hstop, byteLength_cons]; omega,
          (closing_cons hne hdepth).mpr hw⟩
      · rintro ⟨w, v, ht, hstop, hw⟩
        cases w with
        | nil =>
          have hzero := hw.whole
          simp at hzero
          omega
        | cons d w =>
          obtain ⟨rfl, rfl⟩ := List.cons.inj ht
          refine ⟨w, v, rfl, by rw [hstop, byteLength_cons]; omega, ?_⟩
          exact (closing_cons hne hdepth).mp hw
    rw [closeFrom]
    split_ifs with hopen hclose hlast
    · rw [depthAfter, if_pos hopen] at later
      exact later (Nat.succ_pos _)
    · obtain rfl : depth = 1 := by omega
      have hafter : depthAfter opener closer 1 c = 0 := by
        rw [depthAfter, if_neg hopen, if_pos hclose]
      constructor
      · intro h
        refine ⟨[c], t, rfl, by simpa using (Option.some.inj h).symm, ?_⟩
        rw [closing_cons hne hdepth, hafter]
        exact closing_zero.mpr rfl
      · rintro ⟨w, v, ht, hstop, hw⟩
        cases w with
        | nil => simpa using hw.whole
        | cons d w =>
          obtain ⟨rfl, -⟩ := List.cons.inj ht
          rw [closing_cons hne hdepth, hafter, closing_zero] at hw
          rw [hstop, hw]
          simp
    · rw [depthAfter, if_neg hopen, if_pos hclose] at later
      exact later (by omega)
    · rw [depthAfter, if_neg hopen, if_neg hclose] at later
      exact later hdepth

theorem Closing.closes (h : Closing opener closer depth w) (hdepth : 0 < depth) :
    ∃ r, w = r ++ [closer] := by
  have hwhole := h.whole
  rcases List.eq_nil_or_concat w with rfl | ⟨r, d, rfl⟩
  · simp at hwhole
    omega
  · rw [List.concat_eq_append] at hwhole ⊢
    have hlt := h.inside r [d] List.concat_eq_append (List.cons_ne_nil d [])
    refine ⟨r, ?_⟩
    by_contra hd
    have hclose : d ≠ closer := fun hd' => hd (by rw [hd'])
    rw [List.count_append, List.count_append, List.count_singleton, List.count_singleton] at hwhole
    simp only [beq_iff_eq, hclose, if_false] at hwhole
    omega

/-- An opener and what closes it. -/
theorem enclosed_cons (hne : opener ≠ closer) :
    Enclosed opener closer (opener :: w) ↔ Closing opener closer 1 w := by
  have hopen : ∀ p : Text, (opener :: p).count opener = p.count opener + 1 := fun p =>
    List.count_cons_self
  have hclose : ∀ p : Text, (opener :: p).count closer = p.count closer := fun p =>
    List.count_cons_of_ne hne
  constructor
  · intro h
    refine ⟨fun p q hw hq => ?_, ?_⟩
    · have hlt := h.inside (opener :: p) q (by rw [hw, List.cons_append]) (List.cons_ne_nil _ _) hq
      rw [hopen, hclose] at hlt
      omega
    · have heq := h.whole
      rw [hopen, hclose] at heq
      omega
  · intro h
    obtain ⟨r, hr⟩ := h.closes Nat.one_pos
    refine ⟨⟨w, rfl⟩, ⟨opener :: r, by rw [hr, List.cons_append]⟩, fun p q hw hp hq => ?_, ?_⟩
    · cases p with
      | nil => exact absurd rfl hp
      | cons d p =>
        obtain ⟨rfl, hrest⟩ := List.cons.inj hw
        have hlt := h.inside p q hrest hq
        rw [hopen, hclose]
        omega
    · have heq := h.whole
      rw [hopen, hclose]
      omega

theorem closeFrom_opener_eq_some_iff (hne : opener ≠ closer) :
    closeFrom opener closer 0 off (opener :: t) = some stop ↔
      ∃ w v, opener :: t = w ++ v ∧ stop = off + byteLength w ∧ Enclosed opener closer w := by
  rw [closeFrom, if_pos rfl, closeFrom_eq_some_iff hne (Nat.succ_pos 0)]
  constructor
  · rintro ⟨w, v, rfl, hstop, hw⟩
    refine ⟨opener :: w, v, rfl, ?_, (enclosed_cons hne).mpr hw⟩
    rw [hstop, byteLength_cons]
    omega
  · rintro ⟨w, v, ht, hstop, hw⟩
    obtain ⟨r, rfl⟩ := hw.opens
    refine ⟨r, v, (List.cons.inj ht).2, ?_, (enclosed_cons hne).mp hw⟩
    rw [hstop, byteLength_cons]
    omega

end Brackets

/-! ## Braces behind a header -/

/-- The first opening brace of `m` at or behind `start` stands at `opening`. -/
def OpensAt (m : Text) (start opening : Nat) : Prop :=
  ∃ head rest, slice? m start opening = some head ∧ '{' ∉ head ∧
    drop? m opening = some ('{' :: rest)

/-- The brace at `opening` of `m` is closed right before `stop`. -/
def ClosesAt (m : Text) (opening stop : Nat) : Prop :=
  ∃ braced, slice? m opening stop = some braced ∧ Enclosed '{' '}' braced

variable {m t : Text} {start opening stop : Nat}

theorem drop?_of_slice? {head : Text} (h : slice? m start opening = some head) :
    ∃ rest, drop? m start = some (head ++ rest) ∧ drop? m opening = some rest ∧
      opening = start + byteLength head := by
  obtain ⟨p, rest, rfl, rfl, rfl⟩ := slice?_eq_some.mp h
  refine ⟨rest, drop?_append p _, ?_, rfl⟩
  rw [← List.append_assoc, ← byteLength_append, drop?_append]

theorem slice?_of_drop? {braced behind : Text} (h : drop? m opening = some (braced ++ behind)) :
    slice? m opening (opening + byteLength braced) = some braced := by
  obtain ⟨p, rfl, rfl⟩ := drop?_eq_some.mp h
  exact slice?_append p braced behind

theorem opensAt_iff {rest : Text} (h : drop? m start = some rest) :
    OpensAt m start opening ↔
      ∃ n, offsetOf? (· == '{') rest = some n ∧ opening = start + n := by
  constructor
  · rintro ⟨head, behind, hhead, hfree, hopen⟩
    obtain ⟨rest', hstart, hopening, rfl⟩ := drop?_of_slice? hhead
    obtain rfl := Option.some.inj (h.symm.trans hstart)
    obtain rfl := Option.some.inj (hopening.symm.trans hopen)
    refine ⟨byteLength head, offsetOf?_eq_some.mpr ⟨head, '{', behind, rfl, rfl, rfl, ?_⟩, rfl⟩
    intro x hx
    exact beq_eq_false_iff_ne.mpr fun hbrace => hfree (hbrace ▸ hx)
  · rintro ⟨n, hn, rfl⟩
    obtain ⟨head, c, behind, rfl, rfl, hc, hfree⟩ := offsetOf?_eq_some.mp hn
    obtain rfl : c = '{' := by simpa using hc
    have hslice := slice?_of_drop? h
    obtain ⟨rest', hstart, hopening, -⟩ := drop?_of_slice? hslice
    obtain rfl := List.append_cancel_left (Option.some.inj (h.symm.trans hstart))
    refine ⟨head, behind, hslice, fun hmem => ?_, hopening⟩
    have hbrace := hfree '{' hmem
    simp at hbrace

theorem exists_opensAt_iff {rest : Text} (h : drop? m start = some rest) :
    (∃ opening, OpensAt m start opening) ↔ '{' ∈ rest := by
  simp only [opensAt_iff h]
  constructor
  · rintro ⟨opening, n, hn, -⟩
    obtain ⟨head, c, behind, rfl, -, hc, -⟩ := offsetOf?_eq_some.mp hn
    obtain rfl : c = '{' := by simpa using hc
    simp
  · intro hbrace
    obtain ⟨head, behind, rfl, hfree⟩ := List.eq_append_cons_of_mem hbrace
    refine ⟨_, byteLength head, offsetOf?_eq_some.mpr ⟨head, '{', behind, rfl, rfl, rfl, ?_⟩, rfl⟩
    intro x hx
    exact beq_eq_false_iff_ne.mpr fun h => hfree (h ▸ hx)

theorem OpensAt.exists_rest (h : OpensAt m start opening) : ∃ rest, drop? m start = some rest := by
  obtain ⟨head, behind, hhead, -, -⟩ := h
  obtain ⟨rest, hrest, -, -⟩ := drop?_of_slice? hhead
  exact ⟨_, hrest⟩

theorem OpensAt.unique {opening' : Nat} (h : OpensAt m start opening)
    (h' : OpensAt m start opening') : opening = opening' := by
  obtain ⟨rest, hrest⟩ := h.exists_rest
  obtain ⟨n, hn, rfl⟩ := (opensAt_iff hrest).mp h
  obtain ⟨n', hn', rfl⟩ := (opensAt_iff hrest).mp h'
  rw [Option.some.inj (hn.symm.trans hn')]

theorem closesAt_iff {rest : Text} (h : drop? m opening = some ('{' :: rest)) :
    ClosesAt m opening stop ↔ closeFrom '{' '}' 0 opening ('{' :: rest) = some stop := by
  rw [closeFrom_opener_eq_some_iff (by decide)]
  constructor
  · rintro ⟨braced, hbraced, henclosed⟩
    obtain ⟨behind, hdrop, -, hstop⟩ := drop?_of_slice? hbraced
    exact ⟨braced, behind, Option.some.inj (h.symm.trans hdrop), hstop, henclosed⟩
  · rintro ⟨braced, behind, hrest, rfl, henclosed⟩
    rw [hrest] at h
    exact ⟨braced, slice?_of_drop? h, henclosed⟩

/-- The masked text has braces behind a header just when one opens and is closed. -/
theorem bracesAt?_eq_some_iff :
    bracesAt? m start = some (opening, stop) ↔
      OpensAt m start opening ∧ ClosesAt m opening stop := by
  constructor
  · intro h
    simp only [bracesAt?, Option.bind_eq_bind, Option.bind_eq_some_iff] at h
    obtain ⟨rest, hrest, n, hn, braced, hbraced, stop', hstop, h⟩ := h
    obtain ⟨rfl, rfl⟩ := Prod.mk.inj (Option.some.inj h)
    have hopens : OpensAt m start (start + n) := (opensAt_iff hrest).mpr ⟨n, hn, rfl⟩
    obtain ⟨head, behind, -, -, hopen⟩ := id hopens
    obtain rfl := Option.some.inj (hbraced.symm.trans hopen)
    exact ⟨hopens, (closesAt_iff hopen).mpr hstop⟩
  · rintro ⟨hopens, hcloses⟩
    obtain ⟨head, behind, -, -, hopen⟩ := id hopens
    obtain ⟨rest, hrest⟩ := hopens.exists_rest
    obtain ⟨n, hn, rfl⟩ := (opensAt_iff hrest).mp hopens
    simp only [bracesAt?, Option.bind_eq_bind, Option.bind_eq_some_iff]
    exact ⟨_, hrest, n, hn, _, hopen, stop, (closesAt_iff hopen).mp hcloses, rfl⟩

end Text

/-! ## Bodies -/

open Text

/-- `b` is what a header at `start` and the braces behind it cut out of `t`. -/
structure Body.CutAt (b : Body) (t : Text) (start : Nat) : Prop where
  header_eq : b.header = start
  opens : OpensAt t.masked start b.opening
  closes : ClosesAt t.masked b.opening b.stop
  text_eq : slice? t b.header b.stop = some b.text
  inner_eq : slice? t (b.opening + 1) (b.stop - 1) = some b.inner
  startLine_eq : ∃ before, take? t b.header = some before ∧ b.startLine = newlines before + 1

/-- A header at `start` has no body in `t`: no brace opens behind it, the first one that does
is never closed, or `start` lies inside a character of `t`. -/
def Text.Bodiless (t : Text) (start : Nat) : Prop :=
  (∃ rest, drop? t.masked start = some rest ∧ '{' ∉ rest) ∨
  (∃ opening, OpensAt t.masked start opening ∧ ∀ stop, ¬ ClosesAt t.masked opening stop) ∨
  take? t start = none

namespace Text

variable {t : Text} {start : Nat} {b : Body}

theorem bodyAt?_eq_some_iff : bodyAt? t t.masked start = some b ↔ b.CutAt t start := by
  constructor
  · intro h
    obtain ⟨before, head, inner, behind, hsits⟩ := bodyAt?_sits h
    rw [bodyAt?_eq_bind] at h
    obtain ⟨⟨opening, stop⟩, hbraces, h⟩ := Option.bind_eq_some_iff.mp h
    obtain ⟨before', hbefore, h⟩ := Option.bind_eq_some_iff.mp h
    obtain ⟨body, hbody, h⟩ := Option.bind_eq_some_iff.mp h
    obtain rfl := Option.some.inj h
    obtain ⟨hopens, hcloses⟩ := bracesAt?_eq_some_iff.mp hbraces
    refine ⟨rfl, hopens, hcloses, hbody, ?_, before', hbefore, rfl⟩
    rw [hsits.inner_eq]
    have hbrace : byteLength ['{'] = 1 := rfl
    refine slice?_eq_some.mpr ⟨before ++ (head ++ ['{']), '}' :: behind, ?_, ?_, ?_⟩
    · rw [hsits.text_eq]
      simp
    · rw [hsits.opening_eq, byteLength_append, byteLength_append, hbrace]
      omega
    · rw [hsits.stop_eq, byteLength_append, byteLength_append, hbrace]
      omega
  · intro h
    obtain ⟨before, hbefore, hline⟩ := h.startLine_eq
    have hbraces := bracesAt?_eq_some_iff.mpr ⟨h.opens, h.closes⟩
    have htext := h.text_eq
    rw [h.header_eq] at hbefore htext
    rw [bodyAt?_eq_bind, hbraces, Option.bind_some, hbefore, Option.bind_some, htext,
      Option.bind_some, ← hline, ← h.header_eq]

/-- Braces behind a place where the text can be cut have a body. -/
theorem exists_body_of_braces {opening stop : Nat} {before : Text}
    (hopens : OpensAt t.masked start opening) (hcloses : ClosesAt t.masked opening stop)
    (hbefore : take? t start = some before) : ∃ b, bodyAt? t t.masked start = some b := by
  obtain ⟨rest, htext, hlen⟩ := take?_eq_some.mp hbefore
  have hbraces := bracesAt?_eq_some_iff.mpr ⟨hopens, hcloses⟩
  obtain ⟨mb, mhead, minner, mbehind, hm, rfl, hopening, hstop⟩ := bracesAt?_eq_some hbraces
  obtain ⟨head, inner, behind, hbraced⟩ := exists_braced hm
  obtain ⟨b, -, hb, -⟩ := hbraced.exists_body hbraces hopening hstop htext hlen.symm
  exact ⟨b, hb⟩

/-- A header in the masked text has no body just when one of the three reasons holds. -/
theorem bodyAt?_eq_none_iff {rest : Text} (hrest : drop? t.masked start = some rest) :
    bodyAt? t t.masked start = none ↔ t.Bodiless start := by
  constructor
  · intro hnone
    by_contra hno
    simp only [Bodiless, not_or, not_exists, not_and, not_forall, not_not] at hno
    obtain ⟨hbrace, hclosed, hcut⟩ := hno
    obtain ⟨opening, hopens⟩ := (exists_opensAt_iff hrest).mpr (hbrace rest hrest)
    obtain ⟨stop, hcloses⟩ := hclosed opening hopens
    obtain ⟨before, hbefore⟩ := Option.ne_none_iff_exists'.mp hcut
    obtain ⟨b, hb⟩ := exists_body_of_braces hopens hcloses hbefore
    rw [hnone] at hb
    cases hb
  · intro h
    rw [Option.eq_none_iff_forall_ne_some]
    intro b hb
    have hcut := bodyAt?_eq_some_iff.mp hb
    rcases h with ⟨rest', hrest', hno⟩ | ⟨opening, hopens, hnever⟩ | hinside
    · exact hno ((exists_opensAt_iff hrest').mp ⟨_, hcut.opens⟩)
    · exact hnever b.stop (hopens.unique hcut.opens ▸ hcut.closes)
    · obtain ⟨before, hbefore, -⟩ := hcut.startLine_eq
      rw [hcut.header_eq, hinside] at hbefore
      cases hbefore

/-- **A search finds the body of the first header that has one.** It cuts the text at the
braces that enclose it, and fails only if no header has a body. -/
theorem firstBody?_exact (t : Text) (header : Regex) :
    (∀ b, firstBody? t header = some b ↔
      ∃ passed s later, header.spans t.masked = passed ++ s :: later ∧
        (∀ s' ∈ passed, t.Bodiless s'.start) ∧ b.CutAt t s.start) ∧
    (firstBody? t header = none ↔ ∀ s ∈ header.spans t.masked, t.Bodiless s.start) := by
  have hcut : ∀ s ∈ header.spans t.masked, ∃ rest, drop? t.masked s.start = some rest := by
    intro s hs
    obtain ⟨before, m, behind, hdelimits⟩ := (Regex.spans_found hs).delimits
    rw [hdelimits.start_eq, hdelimits.text_eq]
    exact ⟨_, drop?_append before _⟩
  have hbodiless : ∀ s ∈ header.spans t.masked,
      bodyAt? t t.masked s.start = none ↔ t.Bodiless s.start := by
    intro s hs
    obtain ⟨rest, hrest⟩ := hcut s hs
    exact bodyAt?_eq_none_iff hrest
  constructor
  · intro b
    rw [firstBody?, List.findSome?_eq_some_iff]
    refine exists_congr fun passed => exists_congr fun s => exists_congr fun later => ?_
    constructor
    · rintro ⟨hspans, hb, hpassed⟩
      refine ⟨hspans, fun s' hs' => ?_, bodyAt?_eq_some_iff.mp hb⟩
      exact (hbodiless s' (by rw [hspans]; simp [hs'])).mp (hpassed s' hs')
    · rintro ⟨hspans, hpassed, hb⟩
      refine ⟨hspans, bodyAt?_eq_some_iff.mpr hb, fun s' hs' => ?_⟩
      exact (hbodiless s' (by rw [hspans]; simp [hs'])).mpr (hpassed s' hs')
  · rw [firstBody?, List.findSome?_eq_none_iff]
    exact forall₂_congr hbodiless

end Text
end StructuralRules
