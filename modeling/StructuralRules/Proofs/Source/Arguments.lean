import StructuralRules.Proofs.Source.Braces
import StructuralRules.Proofs.Source.Calls
import StructuralRules.Proofs.Text.Tokens

/-!
# Arguments of calls

A list is cut at the commas outside all brackets. `Text.ArgumentAt` says where
argument `k` of a list stands, and cutting the masked list at its commas finds
just these places. The text of an argument is taken from the file itself, so an
identifier is found in it wherever it stands in the file as a whole, masked or
not: between the parentheses of the call and the commas around the argument.
-/

set_option autoImplicit false

namespace StructuralRules

namespace Text

/-! ## Commas outside brackets -/

/-- The number of open brackets behind `c`. A closer outside all brackets changes nothing. -/
def nestAfter (depth : Nat) (c : Char) : Nat :=
  if c = '(' ∨ c = '[' ∨ c = '{' then depth + 1
  else if c = ')' ∨ c = ']' ∨ c = '}' then depth - 1
  else depth

/-- The number of open brackets behind `t`. -/
def nesting (depth : Nat) (t : Text) : Nat :=
  t.foldl nestAfter depth

theorem nesting_append (depth : Nat) (u v : Text) :
    nesting depth (u ++ v) = nesting (nesting depth u) v :=
  List.foldl_append

/-- Behind `depth` open brackets, every comma of `t` stands inside brackets. -/
def Unbroken (depth : Nat) (t : Text) : Prop :=
  ∀ u v, t = u ++ ',' :: v → nesting depth u ≠ 0

/-- `p` is argument `k` of a list, where `u` stands before it and `v` behind it. -/
inductive ArgumentAt : Nat → Text → Text → Text → Prop
  | only {p : Text} : Unbroken 0 p → ArgumentAt 0 [] p []
  | first {p : Text} (v : Text) : Unbroken 0 p → nesting 0 p = 0 → ArgumentAt 0 [] p (',' :: v)
  | later {q : Text} {k : Nat} {u p v : Text} : Unbroken 0 q → nesting 0 q = 0 →
      ArgumentAt k u p v → ArgumentAt (k + 1) (q ++ ',' :: u) p v

section Commas

variable {depth off : Nat} {c : Char} {t : Text}

theorem commasFrom_cons (depth off : Nat) (c : Char) (t : Text) :
    commasFrom depth off (c :: t) = (if c = ',' ∧ depth = 0 then [off] else []) ++
      commasFrom (nestAfter depth c) (off + c.utf8Size) t := by
  rw [commasFrom, nestAfter]
  split_ifs with hopen hcomma hclose hcomma hcomma
  · rcases hopen with rfl | rfl | rfl <;> cases hcomma.1
  · rfl
  · rcases hclose with rfl | rfl | rfl <;> cases hcomma.1
  · rfl
  · rfl
  · rfl

theorem commasFrom_append (depth off : Nat) (u v : Text) :
    commasFrom depth off (u ++ v) =
      commasFrom depth off u ++ commasFrom (nesting depth u) (off + byteLength u) v := by
  induction u generalizing depth off with
  | nil => rfl
  | cons c u ih =>
    rw [List.cons_append, commasFrom_cons, ih, commasFrom_cons, List.append_assoc,
      byteLength_cons, Nat.add_assoc]
    rfl

theorem unbroken_cons :
    Unbroken depth (c :: t) ↔ ¬ (c = ',' ∧ depth = 0) ∧ Unbroken (nestAfter depth c) t := by
  constructor
  · intro h
    refine ⟨?_, fun u v ht => h (c :: u) v (by rw [ht, List.cons_append])⟩
    rintro ⟨rfl, hdepth⟩
    exact h [] t rfl hdepth
  · rintro ⟨hc, h⟩ u v ht
    cases u with
    | nil =>
      obtain ⟨rfl, -⟩ := List.cons.inj ht
      exact fun hdepth => hc ⟨rfl, hdepth⟩
    | cons d u =>
      obtain ⟨rfl, hrest⟩ := List.cons.inj ht
      exact h u v hrest

theorem commasFrom_of_unbroken (h : Unbroken depth t) (off : Nat) :
    commasFrom depth off t = [] := by
  induction t generalizing depth off with
  | nil => rfl
  | cons c t ih =>
    obtain ⟨hc, h⟩ := unbroken_cons.mp h
    rw [commasFrom_cons, if_neg hc, ih h, List.append_nil]

theorem unbroken_of_not_mem (h : ',' ∉ t) (depth : Nat) : Unbroken depth t := by
  rintro u v rfl
  exact absurd (by simp) h

/-- A list is a single argument, or its first comma outside brackets ends an argument. -/
theorem unbroken_or_exists_comma (depth : Nat) (t : Text) :
    Unbroken depth t ∨
      ∃ q r, t = q ++ ',' :: r ∧ Unbroken depth q ∧ nesting depth q = 0 := by
  induction t generalizing depth with
  | nil => exact Or.inl (unbroken_of_not_mem (by simp) depth)
  | cons c t ih =>
    by_cases hc : c = ',' ∧ depth = 0
    · obtain ⟨rfl, hdepth⟩ := hc
      exact Or.inr ⟨[], t, rfl, unbroken_of_not_mem (by simp) depth, hdepth⟩
    · rcases ih (nestAfter depth c) with h | ⟨q, r, rfl, hq, hzero⟩
      · exact Or.inl (unbroken_cons.mpr ⟨hc, h⟩)
      · exact Or.inr ⟨c :: q, r, rfl, unbroken_cons.mpr ⟨hc, hq⟩, hzero⟩

theorem commasFrom_comma {q : Text} (hq : Unbroken 0 q) (hzero : nesting 0 q = 0) (off : Nat)
    (r : Text) :
    commasFrom 0 off (q ++ ',' :: r) =
      (off + byteLength q) :: commasFrom 0 (off + byteLength q + 1) r := by
  rw [commasFrom_append, commasFrom_of_unbroken hq, hzero, commasFrom_cons]
  rfl

end Commas

/-! ## The pieces of a list -/

theorem Blanked.eq_nil {t : Text} (h : Blanked [] t) : t = [] :=
  h.eq_nil_iff.mp rfl

theorem cutAt_cons (pre q r : Text) (os : List Nat) :
    cutAt (pre ++ (q ++ ',' :: r)) (byteLength pre) ((byteLength pre + byteLength q) :: os) =
      q :: cutAt ((pre ++ q ++ [',']) ++ r) (byteLength (pre ++ q ++ [','])) os := by
  have hcomma : byteLength [','] = 1 := rfl
  have htext : pre ++ (q ++ ',' :: r) = (pre ++ q ++ [',']) ++ r := by simp
  have hstart : byteLength pre + byteLength q + 1 = byteLength (pre ++ q ++ [',']) := by
    rw [byteLength_append, byteLength_append, hcomma]
  rw [cutAt, slice_append, hstart, htext]

/-- Argument `k` is piece `k` of the list behind `pre`. -/
theorem ArgumentAt.cutAt_getElem? {k : Nat} {u p v : Text} (h : ArgumentAt k u p v)
    {u' p' v' : Text} (hu : Blanked u u') (hp : Blanked p p') (hv : Blanked v v') (pre : Text) :
    (cutAt (pre ++ (u' ++ (p' ++ v'))) (byteLength pre)
      (commasFrom 0 (byteLength pre) (u ++ (p ++ v))))[k]? = some p' := by
  induction h generalizing u' p' v' pre with
  | only hwhole =>
    obtain rfl := hu.eq_nil
    obtain rfl := hv.eq_nil
    rw [List.nil_append, List.nil_append, List.append_nil, List.append_nil,
      commasFrom_of_unbroken hwhole]
    simp [cutAt]
  | @first p v hwhole hzero =>
    obtain rfl := hu.eq_nil
    obtain ⟨x, r, rfl, hx, hr⟩ := (List.nil_append (',' :: v) ▸ hv).split_at (by decide)
    obtain rfl := hx.eq_nil
    rw [List.nil_append, List.nil_append, List.nil_append, commasFrom_comma hwhole hzero,
      hp.byteLength_eq, cutAt_cons]
    rfl
  | @later q k u p v hwhole hzero h ih =>
    obtain ⟨q', r, rfl, hq, hr⟩ := hu.split_at (by decide)
    have hlist : q ++ ',' :: u ++ (p ++ v) = q ++ ',' :: (u ++ (p ++ v)) := by simp
    have htext : pre ++ (q' ++ ',' :: r ++ (p' ++ v')) =
        pre ++ (q' ++ ',' :: (r ++ (p' ++ v'))) := by simp
    have hnext : byteLength pre + byteLength q' + 1 = byteLength (pre ++ q' ++ [',']) := by
      rw [byteLength_append, byteLength_append]
      rfl
    rw [hlist, htext, commasFrom_comma hwhole hzero, hq.byteLength_eq, cutAt_cons, hnext,
      List.getElem?_cons_succ]
    exact ih hr hp hv _

/-- A piece of the list behind `pre` is an argument. -/
theorem exists_argumentAt {k : Nat} {list list' piece : Text} (h : Blanked list list')
    (pre : Text) (hpiece : (cutAt (pre ++ list') (byteLength pre)
      (commasFrom 0 (byteLength pre) list))[k]? = some piece) :
    ∃ u p v u' v', list = u ++ (p ++ v) ∧ ArgumentAt k u p v ∧ list' = u' ++ (piece ++ v') ∧
      Blanked u u' ∧ Blanked p piece ∧ Blanked v v' := by
  induction k generalizing list list' pre with
  | zero =>
    rcases unbroken_or_exists_comma 0 list with hwhole | ⟨q, r, rfl, hq, hzero⟩
    · rw [commasFrom_of_unbroken hwhole] at hpiece
      obtain rfl : list' = piece := by simpa [cutAt] using hpiece
      exact ⟨[], list, [], [], [], by simp, .only hwhole, by simp, .nil, h, .nil⟩
    · obtain ⟨q', r', rfl, hq', hr'⟩ := h.split_at (by decide)
      rw [commasFrom_comma hq hzero, hq'.byteLength_eq, cutAt_cons] at hpiece
      obtain rfl := Option.some.inj hpiece
      exact ⟨[], q, ',' :: r, [], ',' :: r', rfl, .first r hq hzero, rfl, .nil, hq', .keep _ hr'⟩
  | succ k ih =>
    rcases unbroken_or_exists_comma 0 list with hwhole | ⟨q, r, rfl, hq, hzero⟩
    · rw [commasFrom_of_unbroken hwhole] at hpiece
      simp [cutAt] at hpiece
    · obtain ⟨q', r', rfl, hq', hr'⟩ := h.split_at (by decide)
      have hnext : byteLength pre + byteLength q' + 1 = byteLength (pre ++ q' ++ [',']) := by
        rw [byteLength_append, byteLength_append]
        rfl
      rw [commasFrom_comma hq hzero, hq'.byteLength_eq, cutAt_cons, hnext,
        List.getElem?_cons_succ] at hpiece
      obtain ⟨u, p, v, u', v', rfl, hat, rfl, hu, hp, hv⟩ := ih hr' _ hpiece
      refine ⟨q ++ ',' :: u, p, v, q' ++ ',' :: u', v', by simp, .later hq hzero hat, by simp,
        ?_, hp, hv⟩
      exact hq'.append (.keep _ hu)

theorem topLevelPieces_getElem?_iff {k : Nat} {list list' piece : Text} (h : Blanked list list') :
    (topLevelPieces list list')[k]? = some piece ↔
      ∃ u p v u' v', list = u ++ (p ++ v) ∧ ArgumentAt k u p v ∧ list' = u' ++ (piece ++ v') ∧
        Blanked u u' ∧ Blanked p piece ∧ Blanked v v' := by
  constructor
  · exact exists_argumentAt h []
  · rintro ⟨u, p, v, u', v', rfl, hat, rfl, hu, hp, hv⟩
    exact hat.cutAt_getElem? hu hp hv []

/-- A text is cut at the ends of an argument of its masked form. -/
theorem ArgumentAt.split {k : Nat} {u p v list : Text} (h : ArgumentAt k u p v)
    (hlist : Blanked (u ++ (p ++ v)) list) :
    ∃ u' p' v', list = u' ++ (p' ++ v') ∧ Blanked u u' ∧ Blanked p p' ∧ Blanked v v' := by
  induction h generalizing list with
  | only =>
    rw [List.nil_append, List.append_nil] at hlist
    exact ⟨[], list, [], by simp, .nil, hlist, .nil⟩
  | first =>
    obtain ⟨p', r, rfl, hp, hr⟩ := hlist.split_at (by decide)
    exact ⟨[], p', ',' :: r, rfl, .nil, hp, .keep _ hr⟩
  | later _ _ _ ih =>
    rw [List.append_assoc] at hlist
    obtain ⟨q, r, rfl, hq, hr⟩ := hlist.split_at (by decide)
    obtain ⟨u', p', v', rfl, hu, hp, hv⟩ := ih hr
    exact ⟨q ++ ',' :: u', p', v', by simp, hq.append (.keep _ hu), hp, hv⟩

/-- Commas stand around an argument, or nothing does. -/
theorem ArgumentAt.apart {k : Nat} {u p v : Text} (h : ArgumentAt k u p v) {u' v' : Text}
    (hu : Blanked u u') (hv : Blanked v v') : EndsApart u' ∧ StartsApart v' := by
  have hfirst : EndsApart u' := by
    clear hv
    induction h generalizing u' with
    | only => exact hu.eq_nil ▸ endsApart_nil
    | first => exact hu.eq_nil ▸ endsApart_nil
    | later _ _ _ ih =>
      obtain ⟨q, r, rfl, -, hr⟩ := hu.split_at (by decide)
      rw [← List.singleton_append, ← List.append_assoc]
      exact (endsApart_concat rfl q).append (ih hr)
  refine ⟨hfirst, ?_⟩
  clear hfirst hu
  induction h with
  | only => exact hv.eq_nil ▸ startsApart_nil
  | first v =>
    obtain ⟨x, r, rfl, hx, -⟩ := (List.nil_append (',' :: v) ▸ hv).split_at (by decide)
    rw [hx.eq_nil]
    exact startsApart_cons rfl r
  | later _ _ _ ih => exact ih hv

/-- What encloses is two brackets and what stands between them. -/
theorem Enclosed.exists_inner {opener closer : Char} (hne : opener ≠ closer) {w : Text}
    (h : Enclosed opener closer w) : ∃ inner, w = opener :: (inner ++ [closer]) := by
  obtain ⟨r, rfl⟩ := h.opens
  obtain ⟨inner, hinner⟩ := h.closes
  cases inner with
  | nil => exact absurd (List.cons.inj hinner).1 hne
  | cons c inner =>
    obtain ⟨rfl, rfl⟩ := List.cons.inj hinner
    exact ⟨inner, rfl⟩

/-- Of two texts that start the same and enclose, neither is longer. -/
theorem Enclosed.unique {opener closer : Char} (hne : opener ≠ closer) {w w' v v' : Text}
    (h : Enclosed opener closer w) (h' : Enclosed opener closer w') (htext : w ++ v = w' ++ v') :
    w = w' := by
  obtain ⟨r, rfl⟩ := h.opens
  have hstop : closeFrom opener closer 0 0 (opener :: (r ++ v)) =
      some (0 + byteLength (opener :: r)) :=
    (closeFrom_opener_eq_some_iff hne).mpr ⟨_, v, rfl, rfl, h⟩
  have hstop' : closeFrom opener closer 0 0 (opener :: (r ++ v)) = some (0 + byteLength w') :=
    (closeFrom_opener_eq_some_iff hne).mpr ⟨w', v', htext, rfl, h'⟩
  have hlen := Option.some.inj (hstop.symm.trans hstop')
  exact (append_inj_of_byteLength htext (by omega)).1

end Text

/-! ## Arguments in the file -/

open Text

namespace Call

/-- The header of the call ends in a parenthesis of the masked text, and `list` stands between
that parenthesis and the one that closes it. -/
structure Opens (call : Call) (masked front list behind : Text) : Prop where
  text_eq : masked = front ++ '(' :: (list ++ ')' :: behind)
  header : ⟨call.offset, byteLength front + 1⟩ ∈ (Call.header call.name).spans masked
  enclosed : Enclosed '(' ')' ('(' :: (list ++ [')']))

theorem Opens.unique {call : Call} {masked front list behind front' list' behind' : Text}
    (h : call.Opens masked front list behind) (h' : call.Opens masked front' list' behind') :
    front = front' ∧ list = list' ∧ behind = behind' := by
  have hspan := Regex.eq_of_start_eq h.header h'.header rfl
  have hlen : byteLength front + 1 = byteLength front' + 1 := congrArg Span.stop hspan
  obtain ⟨rfl, hrest⟩ := append_inj_of_byteLength (h.text_eq.symm.trans h'.text_eq) (by omega)
  have hlists : ('(' :: (list ++ [')'])) ++ behind = ('(' :: (list' ++ [')'])) ++ behind' := by
    simpa using hrest
  have hlist := h.enclosed.unique (by decide) h'.enclosed hlists
  obtain rfl : list = list' := by simpa using hlist
  exact ⟨rfl, rfl, by simpa using hrest⟩

/-- The word stands at byte `off` of the file's text `t` as a whole identifier, between the ends
of argument `k` of the call. -/
structure Mentions (call : Call) (t : Text) (k : Nat) (w : Text) (off : Nat) : Prop where
  token : TokenAt t off w
  within : ∃ front u p v behind, call.Opens t.masked front (u ++ (p ++ v)) behind ∧
    ArgumentAt k u p v ∧ byteLength front + 1 + byteLength u ≤ off ∧
    off + byteLength w ≤ byteLength front + 1 + byteLength u + byteLength p

variable {file : SourceFile} {name : String} {ms : Markers} {call : Call}

theorem argsBetween_eq_ite (masked text : Text) (start stop : Nat) :
    argsBetween masked text start stop =
      if splitTopLevel (slice masked start stop) (slice text start stop) = [[]] then []
      else splitTopLevel (slice masked start stop) (slice text start stop) := by
  rw [argsBetween]
  split
  · next hblank => rw [if_pos hblank]
  · next hargs => rw [if_neg hargs]

/-- Where a call was read, its list is cut out of the text between its parentheses. -/
theorem exists_opens (h : call ∈ all file name ms) :
    ∃ front list behind front' list' behind', call.name = name ∧
      call.Opens file.text.masked front list behind ∧
      file.text = front' ++ '(' :: (list' ++ ')' :: behind') ∧
      Blanked front front' ∧ Blanked list list' ∧
      call.args = if splitTopLevel list list' = [[]] then [] else splitTopLevel list list' := by
  obtain ⟨s, hs, hcall⟩ := List.mem_filterMap.mp h
  obtain ⟨before, m, after, hd⟩ :=
    (Regex.spans_found hs).delimits_endsWith (Call.header_endsWith name)
  have hparen : byteLength ['('] = 1 := rfl
  have hstop := hd.stop_eq
  rw [byteLength_append, hparen] at hstop
  have hopening : s.stop - 1 = byteLength (before ++ m) := by
    rw [byteLength_append]
    omega
  have hmasked : file.text.masked = (before ++ m) ++ '(' :: after := by
    rw [hd.text_eq]
    simp
  obtain ⟨rest, stop, hrest, hclose, hname, -, hoffset, hargs⟩ := exists_list_of_atSpan? hcall
  rw [hopening, hmasked, drop?_append, Option.some.injEq] at hrest
  subst hrest
  obtain ⟨w, behind, hw, hend, henclosed⟩ := (closeFrom_opener_eq_some_iff (by decide)).mp hclose
  obtain ⟨list, rfl⟩ := henclosed.exists_inner (by decide)
  have htext : file.text.masked = (before ++ m) ++ '(' :: (list ++ ')' :: behind) := by
    rw [hmasked, hw]
    simp
  obtain ⟨front', rest', hfile, hfront, hrest'⟩ :=
    (htext ▸ blanked_masked file.text).split_at (by decide)
  obtain ⟨list', behind', rfl, hlist, -⟩ := hrest'.split_at (by decide)
  have hlast : stop - 1 = byteLength (before ++ m) + 1 + byteLength list := by
    have hsize : byteLength ('(' :: (list ++ [')'])) = byteLength list + 2 := by
      rw [byteLength_cons, byteLength_append]
      show 1 + (byteLength list + 1) = byteLength list + 2
      omega
    omega
  -- Both texts are cut at the parentheses.
  have hcut : ∀ u l v : Text, byteLength u = byteLength (before ++ m) →
      byteLength l = byteLength list →
      slice (u ++ '(' :: (l ++ ')' :: v)) (s.stop - 1 + 1) (stop - 1) = l := by
    intro u l v hu hl
    have happend : u ++ '(' :: (l ++ ')' :: v) = (u ++ ['(']) ++ (l ++ ')' :: v) := by simp
    have hfirst : s.stop - 1 + 1 = byteLength (u ++ ['(']) := by
      rw [byteLength_append, hparen, hu, hopening]
    have hend' : stop - 1 = byteLength (u ++ ['(']) + byteLength l := by
      rw [byteLength_append, hparen, hu, hl]
      exact hlast
    rw [happend, hfirst, hend', slice_append]
  have hspan : s = ⟨call.offset, byteLength (before ++ m) + 1⟩ := by
    rw [hoffset, ← hopening, Nat.sub_add_cancel (by omega)]
  refine ⟨before ++ m, list, behind, front', list', behind', hname, ⟨htext, ?_, henclosed⟩, hfile,
    hfront, hlist, ?_⟩
  · rw [hname, ← hspan]
    exact hs
  · rw [hargs, argsBetween_eq_ite, htext, hfile, hcut _ _ _ rfl rfl,
      hcut _ _ _ hfront.byteLength_eq.symm hlist.byteLength_eq.symm]

/-- A blank list has no arguments, and no token either. -/
theorem exists_argument_token {pieces : List Text} {k : Nat} {w : Text} :
    (∃ arg, (if pieces = [[]] then [] else pieces)[k]? = some arg ∧ w ∈ tokens arg) ↔
      ∃ arg, pieces[k]? = some arg ∧ w ∈ tokens arg := by
  split_ifs with hblank
  · rw [hblank]
    constructor
    · rintro ⟨arg, harg, -⟩
      simp at harg
    · rintro ⟨arg, harg, hw⟩
      obtain rfl := List.mem_singleton.mp (List.mem_of_getElem? harg)
      cases hw
  · rfl

/-- **An identifier is among the tokens of an argument just when it stands in it in the file**,
in a comment or a literal as well as in code. -/
theorem token_of_argument_iff (h : call ∈ all file name ms) {k : Nat} {w : Text} :
    (∃ arg, call.args[k]? = some arg ∧ w ∈ tokens arg) ↔
      ∃ off, call.Mentions file.text k w off := by
  obtain ⟨front, list, behind, front', list', behind', -, hopens, hfile, hfront, hlist, hargs⟩ :=
    exists_opens h
  have hparen : byteLength ['('] = 1 := rfl
  -- An argument of the list, in the file between the text in front of it and the text behind it.
  have hpart : ∀ {u p v u' p' v' : Text}, ArgumentAt k u p v → list' = u' ++ (p' ++ v') →
      Blanked u u' → Blanked v v' →
      (w ∈ tokens p' ↔ ∃ off, TokenAt file.text off w ∧
        byteLength (front' ++ ['('] ++ u') ≤ off ∧
        off + byteLength w ≤ byteLength (front' ++ ['('] ++ u') + byteLength p') := by
    intro u p v u' p' v' hat hlist' hu hv
    obtain ⟨hbefore, hbehind⟩ := hat.apart hu hv
    have htext : file.text = (front' ++ ['('] ++ u') ++ (p' ++ (v' ++ ')' :: behind')) := by
      rw [hfile, hlist']
      simp
    rw [htext]
    exact mem_tokens_part_iff ((endsApart_concat rfl front').append hbefore)
      (hbehind.append (startsApart_cons rfl behind'))
  rw [hargs, exists_argument_token]
  constructor
  · rintro ⟨arg, harg, hw⟩
    rw [splitTopLevel, List.getElem?_map, Option.map_eq_some_iff] at harg
    obtain ⟨piece, hpiece, rfl⟩ := harg
    rw [tokens_trim] at hw
    obtain ⟨u, p, v, u', v', rfl, hat, hlist', hu, hp, hv⟩ :=
      (topLevelPieces_getElem?_iff hlist).mp hpiece
    obtain ⟨off, htoken, hfirst, hlast⟩ := (hpart hat hlist' hu hv).mp hw
    rw [byteLength_append, byteLength_append, hparen, ← hfront.byteLength_eq,
      ← hu.byteLength_eq] at hfirst hlast
    rw [← hp.byteLength_eq] at hlast
    exact ⟨off, htoken, front, u, p, v, behind, hopens, hat, hfirst, hlast⟩
  · rintro ⟨off, htoken, front₂, u, p, v, behind₂, hopens₂, hat, hfirst, hlast⟩
    obtain ⟨rfl, rfl, rfl⟩ := hopens.unique hopens₂
    obtain ⟨u', p', v', hlist', hu, hp, hv⟩ := hat.split hlist
    have hpiece := (topLevelPieces_getElem?_iff hlist).mpr
      ⟨u, p, v, u', v', rfl, hat, hlist', hu, hp, hv⟩
    refine ⟨trim p', ?_, ?_⟩
    · rw [splitTopLevel, List.getElem?_map, hpiece, Option.map_some]
    · rw [tokens_trim, hpart hat hlist' hu hv, byteLength_append, byteLength_append, hparen,
        ← hfront.byteLength_eq, ← hu.byteLength_eq, ← hp.byteLength_eq]
      exact ⟨off, htoken, hfirst, hlast⟩

end Call
end StructuralRules
