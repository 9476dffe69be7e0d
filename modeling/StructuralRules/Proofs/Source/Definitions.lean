import StructuralRules.Proofs.Pattern.Leftmost
import StructuralRules.Proofs.Source.CallSites
import StructuralRules.Proofs.Source.CommentSwap

/-!
# Definitions of functions

The header of a function reads, from the start of a line, a return type, the
name, a parameter list and an opening brace. None of the parts has a brace or a
semicolon, so a header ends at the first opening brace behind its start. Two
headers that overlap therefore have the same brace. The search lists headers
that do not overlap, but one it leaves out has the same braces as one it lists.
-/

set_option autoImplicit false

namespace StructuralRules

open Text

/-- In front of the first brace behind a place, that brace is the first one too. -/
theorem Text.OpensAt.eq_of_between {m : Text} {start opening start' opening' : Nat}
    (h : OpensAt m start opening) (h' : OpensAt m start' opening') (hle : start ≤ start')
    (hlt : start' ≤ opening) : opening' = opening := by
  obtain ⟨head, rest, hhead, hfree, hopen⟩ := h
  obtain ⟨head', rest', hhead', hfree', hopen'⟩ := h'
  obtain ⟨r, hstart, hdrop, hopening⟩ := drop?_of_slice? hhead
  obtain ⟨r', hstart', hdrop', hopening'⟩ := drop?_of_slice? hhead'
  obtain rfl := Option.some.inj (hopen.symm.trans hdrop)
  obtain rfl := Option.some.inj (hopen'.symm.trans hdrop')
  obtain ⟨p, hm, hp⟩ := drop?_eq_some.mp hstart
  obtain ⟨p', hm', hp'⟩ := drop?_eq_some.mp hstart'
  obtain ⟨x, rfl, hx⟩ := exists_append_of_byteLength_le (hm.symm.trans hm') (by omega)
  rw [byteLength_append] at hp'
  obtain ⟨y, rfl, hy⟩ := exists_append_of_byteLength_le hx.symm (by omega)
  have hfreeY : '{' ∉ y := fun hmem => hfree (List.mem_append_right x hmem)
  obtain ⟨rfl, -⟩ := Call.append_cons_inj hfree' hfreeY hy
  rw [byteLength_append] at hopening
  omega

namespace FunctionDef

/-! ## Heads -/

/-- A letter or an underscore, further word characters, then blanks and stars. -/
def IsTypeWord (w : Text) : Prop :=
  ∃ c word gap, w = c :: (word ++ gap) ∧ (c.isAlpha || c == '_') = true ∧
    (∀ d ∈ word, Unicode.isWord d = true) ∧ gap ≠ [] ∧ ∀ d ∈ gap, isBlank d = true ∨ d = '*'

/-- Spaces and tabs, then at least one word. -/
def IsReturnType (lead : Text) : Prop :=
  ∃ (indent : Text) (words : List Text), lead = indent ++ words.flatten ∧
    (∀ c ∈ indent, c ∈ [' ', '\t']) ∧ words ≠ [] ∧ ∀ w ∈ words, IsTypeWord w

/-- Parentheses around a text without braces and semicolons, with blanks around them. -/
def IsParameterList (tail : Text) : Prop :=
  ∃ gap params gap', tail = gap ++ '(' :: (params ++ ')' :: gap') ∧
    (∀ c ∈ gap, isBlank c = true) ∧ (∀ c ∈ params, c ∉ [';', '{', '}']) ∧
    ∀ c ∈ gap', isBlank c = true

/-- In `m` the head of a definition stands behind `before`, from the start of a line to an
opening brace. -/
structure HeadAt (m : Text) (name : String) (before lead tail behind : Text) : Prop where
  text_eq : m = before ++ ((lead ++ (name.toList ++ tail)) ++ '{' :: behind)
  line_start : ∀ c, before.getLast? = some c → c = '\n'
  type : IsReturnType lead
  parameters : IsParameterList tail

section Reading

open Regex

variable {before : Option Char} {u rest : Text} {name : String}

/-- The letters that a word of a return type starts with. -/
def typeLetter : CharSet :=
  .ofRanges [('A'.toNat, 'Z'.toNat), ('a'.toNat, 'z'.toNat), (95, 95)]

/-- A word of the return type, in a header. -/
def typeWord : Regex :=
  .seq [.set typeLetter, .star true (.set .word), .plus true (.set (.union .space (.single '*')))]

theorem typeLetter_contains {c : Char} :
    typeLetter.contains c = true ↔ (c.isAlpha || c == '_') = true := by
  have hrange : ∀ lo hi : Nat, (CharSet.range lo hi).contains c = true ↔
      lo ≤ c.toNat ∧ c.toNat ≤ hi := by
    intro lo hi
    simp [CharSet.contains]
  have hletters : typeLetter.contains c = ((CharSet.range 65 90).contains c ||
      ((CharSet.range 97 122).contains c || (CharSet.range 95 95).contains c)) := rfl
  have hupper : c.isUpper = true ↔ 65 ≤ c.toNat ∧ c.toNat ≤ 90 := decide_eq_true_iff
  have hlower : c.isLower = true ↔ 97 ≤ c.toNat ∧ c.toNat ≤ 122 := by
    show (decide (c.val ≥ 97) && decide (c.val ≤ 122)) = true ↔ _
    rw [Bool.and_eq_true, decide_eq_true_eq, decide_eq_true_eq]
    rfl
  have hunderscore : (c == '_') = true ↔ 95 ≤ c.toNat ∧ c.toNat ≤ 95 := by
    rw [beq_iff_eq, ← CharSet.contains_single]
    exact hrange 95 95
  have halpha : c.isAlpha = (c.isUpper || c.isLower) := rfl
  rw [hletters, halpha, Bool.or_eq_true, Bool.or_eq_true, Bool.or_eq_true, Bool.or_eq_true,
    hrange, hrange, hrange, hupper, hlower, hunderscore, or_assoc]

theorem typeWord_reads : Reads typeWord before u rest ↔ IsTypeWord u := by
  show Reads (.cat (.set typeLetter) (.cat (.star true (.set .word))
    (.plus true (.set (.union .space (.single '*')))))) before u rest ↔ _
  have hgap : ∀ d : Char, (CharSet.union .space (.single '*')).contains d = true ↔
      isBlank d = true ∨ d = '*' := by
    intro d
    show (isBlank d || (CharSet.single '*').contains d) = true ↔ _
    rw [Bool.or_eq_true, CharSet.contains_single]
  rw [reads_cat]
  constructor
  · rintro ⟨v, w, rfl, hletter, hw⟩
    obtain ⟨word, gap, rfl, hword, hrest⟩ := reads_cat.mp hw
    obtain ⟨c, rfl, hc⟩ := reads_set.mp hletter
    obtain ⟨hne, hblank⟩ := reads_plus_set.mp hrest
    exact ⟨c, word, gap, rfl, typeLetter_contains.mp hc, reads_star_set.mp hword, hne,
      fun d hd => (hgap d).mp (hblank d hd)⟩
  · rintro ⟨c, word, gap, rfl, hc, hword, hne, hblank⟩
    have hgaps : ∀ d ∈ gap, (CharSet.union .space (.single '*')).contains d = true :=
      fun d hd => (hgap d).mpr (hblank d hd)
    exact ⟨[c], word ++ gap, rfl, reads_set.mpr ⟨c, rfl, typeLetter_contains.mpr hc⟩,
      reads_cat.mpr ⟨word, gap, rfl, reads_star_set.mpr hword, reads_plus_set.mpr ⟨hne, hgaps⟩⟩⟩

theorem not_isTypeWord_nil : ¬ IsTypeWord [] := by
  rintro ⟨c, word, gap, hnil, -⟩
  cases hnil

theorem parameterList_reads :
    Reads (.cat (.star true (.set .space)) (.cat (.char '(')
      (.cat (.star true (.set (.compl (.ofChars [';', '{', '}'])))) (.cat (.char ')')
        (.cat (.star true (.set .space)) (.char '{')))))) before u rest ↔
      ∃ tail, u = tail ++ ['{'] ∧ IsParameterList tail := by
  have hfree : ∀ c : Char, (CharSet.compl (.ofChars [';', '{', '}'])).contains c = true ↔
      c ∉ [';', '{', '}'] := by
    intro c
    show (!(CharSet.ofChars [';', '{', '}']).contains c) = true ↔ _
    rw [Bool.not_eq_true', ← Bool.not_eq_true, CharSet.contains_ofChars]
  constructor
  · intro h
    obtain ⟨gap, v, rfl, hgap, hv⟩ := reads_cat.mp h
    obtain ⟨paren, w, rfl, hparen, hw⟩ := reads_cat.mp hv
    obtain ⟨params, x, rfl, hparams, hx⟩ := reads_cat.mp hw
    obtain ⟨close, y, rfl, hclose, hy⟩ := reads_cat.mp hx
    obtain ⟨gap', brace, rfl, hgap', hbrace⟩ := reads_cat.mp hy
    obtain rfl := reads_char.mp hparen
    obtain rfl := reads_char.mp hclose
    obtain rfl := reads_char.mp hbrace
    refine ⟨gap ++ '(' :: (params ++ ')' :: gap'), by simp, gap, params, gap', rfl,
      reads_star_set.mp hgap, fun c hc => (hfree c).mp (reads_star_set.mp hparams c hc),
      reads_star_set.mp hgap'⟩
  · rintro ⟨tail, rfl, gap, params, gap', rfl, hgap, hparams, hgap'⟩
    have hgaps : ∀ {before rest}, Reads (.star true (.set .space)) before gap' rest :=
      reads_star_set.mpr hgap'
    have hreads : ∀ {before rest}, Reads (.star true (.set (.compl (.ofChars [';', '{', '}']))))
        before params rest :=
      reads_star_set.mpr fun c hc => (hfree c).mpr (hparams c hc)
    refine reads_cat.mpr ⟨gap, '(' :: (params ++ ')' :: (gap' ++ ['{'])), by simp,
      reads_star_set.mpr hgap, reads_cat.mpr ⟨['('], _, rfl, reads_char.mpr rfl, ?_⟩⟩
    refine reads_cat.mpr ⟨params, _, rfl, hreads, reads_cat.mpr ⟨[')'], _, rfl,
      reads_char.mpr rfl, reads_cat.mpr ⟨gap', ['{'], rfl, hgaps, reads_char.mpr rfl⟩⟩⟩

/-- A header reads the head of a definition at the start of a line. -/
theorem header_reads : Reads (header name) before u rest ↔ (∀ c, before = some c → c = '\n') ∧
    ∃ lead tail, u = lead ++ (name.toList ++ (tail ++ ['{'])) ∧ IsReturnType lead ∧
      IsParameterList tail := by
  have hline : ∀ after, Anchor.lineStart.holds before after = true ↔
      ∀ c, before = some c → c = '\n' := by
    intro after
    show (before.isNone || before == some '\n') = true ↔ _
    cases before with
    | none => simp
    | some c => simp
  show Reads (.cat (.anchor .lineStart) (.cat (.star true (.set (.ofChars [' ', '\t'])))
    (.cat (.plus true typeWord) (.cat (.literal name.toList) _)))) before u rest ↔ _
  constructor
  · intro h
    obtain ⟨v, w, hu, hanchor, hw⟩ := reads_cat.mp h
    obtain ⟨rfl, hholds⟩ := reads_anchor.mp hanchor
    obtain ⟨indent, x, rfl, hindent, hx⟩ := reads_cat.mp hw
    obtain ⟨type, y, rfl, htype, hy⟩ := reads_cat.mp hx
    obtain ⟨word, z, rfl, hword, hz⟩ := reads_cat.mp hy
    obtain rfl := reads_literal.mp hword
    obtain ⟨words, hne, rfl, hwords⟩ := (reads_plus typeWord_reads not_isTypeWord_nil).mp htype
    obtain ⟨tail, rfl, htail⟩ := parameterList_reads.mp hz
    have hspaces : ∀ c ∈ indent, c ∈ [' ', '\t'] := fun c hc =>
      CharSet.contains_ofChars.mp (reads_star_set.mp hindent c hc)
    refine ⟨(hline _).mp hholds, indent ++ words.flatten, tail, ?_,
      ⟨indent, words, rfl, hspaces, hne, hwords⟩, htail⟩
    rw [hu, List.nil_append, List.append_assoc]
  · rintro ⟨hstart, lead, tail, rfl, ⟨indent, words, rfl, hspaces, hne, hwords⟩, htail⟩
    have hindent : ∀ c ∈ indent, (CharSet.ofChars [' ', '\t']).contains c = true := fun c hc =>
      CharSet.contains_ofChars.mpr (hspaces c hc)
    refine reads_cat.mpr ⟨[], _, rfl, reads_anchor.mpr ⟨rfl, (hline _).mpr hstart⟩, ?_⟩
    refine reads_cat.mpr ⟨indent, _, List.append_assoc _ _ _, reads_star_set.mpr hindent, ?_⟩
    refine reads_cat.mpr ⟨words.flatten, _, rfl, ?_, ?_⟩
    · exact (reads_plus typeWord_reads not_isTypeWord_nil).mpr ⟨words, hne, rfl, hwords⟩
    · exact reads_cat.mpr ⟨name.toList, _, rfl, reads_literal.mpr rfl,
        parameterList_reads.mpr ⟨tail, rfl, htail⟩⟩

end Reading

/-! ## Heads have no braces and no semicolons -/

/-- The text has none of the characters that end a header too early. -/
def HeaderText (t : Text) : Prop :=
  ∀ c ∈ t, c ∉ [';', '{', '}']

theorem headerText_append {u v : Text} : HeaderText (u ++ v) ↔ HeaderText u ∧ HeaderText v :=
  List.forall_mem_append

theorem headerText_of_all {p : Char → Bool}
    (hp : p ';' = false ∧ p '{' = false ∧ p '}' = false) {t : Text} (h : ∀ c ∈ t, p c = true) :
    HeaderText t := by
  intro c hc hend
  have hyes := h c hc
  obtain ⟨hsemicolon, hopen, hclose⟩ := hp
  simp only [List.mem_cons, List.not_mem_nil, or_false] at hend
  obtain rfl | rfl | rfl := hend
  · cases hsemicolon.symm.trans hyes
  · cases hopen.symm.trans hyes
  · cases hclose.symm.trans hyes

theorem headerText_blanks {t : Text} (h : ∀ c ∈ t, isBlank c = true) : HeaderText t :=
  headerText_of_all (by decide) h

theorem IsTypeWord.headerText {w : Text} (h : IsTypeWord w) : HeaderText w := by
  obtain ⟨c, word, gap, rfl, hc, hword, -, hgap⟩ := h
  have hletter : HeaderText [c] :=
    headerText_of_all (p := fun d => d.isAlpha || d == '_') (by decide) (by simpa using hc)
  have hgaps : HeaderText gap := by
    refine headerText_of_all (p := fun d => isBlank d || d == '*') (by decide) ?_
    intro d hd
    simpa using hgap d hd
  have hwords : HeaderText word := headerText_of_all (p := Unicode.isWord) (by decide) hword
  exact headerText_append.mpr ⟨hletter, headerText_append.mpr ⟨hwords, hgaps⟩⟩

theorem IsReturnType.headerText {lead : Text} (h : IsReturnType lead) : HeaderText lead := by
  obtain ⟨indent, words, rfl, hspaces, -, hwords⟩ := h
  have hindent : HeaderText indent := by
    refine headerText_of_all (p := fun c => c == ' ' || c == '\t') (by decide) ?_
    intro c hc
    simpa using hspaces c hc
  refine headerText_append.mpr ⟨hindent, ?_⟩
  intro c hc
  obtain ⟨w, hw, hcw⟩ := List.mem_flatten.mp hc
  exact (hwords w hw).headerText c hcw

theorem IsParameterList.headerText {tail : Text} (h : IsParameterList tail) : HeaderText tail := by
  obtain ⟨gap, params, gap', rfl, hgap, hparams, hgap'⟩ := h
  have hopen : HeaderText ['('] := by simp [HeaderText]
  have hclose : HeaderText [')'] := by simp [HeaderText]
  exact headerText_append.mpr ⟨headerText_blanks hgap, headerText_append.mpr ⟨hopen,
    headerText_append.mpr ⟨hparams, headerText_append.mpr ⟨hclose, headerText_blanks hgap'⟩⟩⟩⟩

theorem headerText_name {name : Text} (h : isIdentifier name = true) : HeaderText name :=
  headerText_of_all (p := isIdentChar) (by decide) fun _ => isIdentChar_of_isIdentifier h

/-! ## Headers and their braces -/

/-- In `m` a head starts at `start`, and its brace is at `opening`. -/
def HeadedAt (m : Text) (name : String) (start opening : Nat) : Prop :=
  ∃ before lead tail behind, HeadAt m name before lead tail behind ∧ start = byteLength before ∧
    opening = start + byteLength (lead ++ (name.toList ++ tail))

/-- In `m` a definition has its head at `start` and its braces from `opening` up to `stop`. -/
structure DefinedAt (m : Text) (name : String) (start opening stop : Nat) : Prop where
  head : HeadedAt m name start opening
  closes : ClosesAt m opening stop

section Heads

variable {m before lead tail behind : Text} {name : String} {start opening : Nat} {s : Span}

/-- The header reads a head and its brace. -/
theorem HeadAt.exists_reads (h : HeadAt m name before lead tail behind) :
    ∃ v, m = before ++ (v ++ behind) ∧ Regex.Reads (header name) before.getLast? v behind := by
  refine ⟨lead ++ (name.toList ++ (tail ++ ['{'])), ?_,
    header_reads.mpr ⟨h.line_start, lead, tail, rfl, h.type, h.parameters⟩⟩
  rw [h.text_eq]
  simp

theorem HeadAt.headerText (hname : isIdentifier name.toList = true)
    (h : HeadAt m name before lead tail behind) : HeaderText (lead ++ (name.toList ++ tail)) :=
  headerText_append.mpr ⟨h.type.headerText,
    headerText_append.mpr ⟨headerText_name hname, h.parameters.headerText⟩⟩

theorem HeadAt.brace_not_mem (hname : isIdentifier name.toList = true)
    (h : HeadAt m name before lead tail behind) : '{' ∉ lead ++ (name.toList ++ tail) :=
  fun hmem => h.headerText hname '{' hmem (by decide)

theorem HeadAt.slice (h : HeadAt m name before lead tail behind) :
    slice? m (byteLength before) (byteLength before + byteLength (lead ++ (name.toList ++ tail))) =
      some (lead ++ (name.toList ++ tail)) := by
  rw [h.text_eq]
  exact slice?_append before _ _

/-- The brace of a head is the first one behind its start. -/
theorem HeadedAt.opensAt (hname : isIdentifier name.toList = true)
    (h : HeadedAt m name start opening) : OpensAt m start opening := by
  obtain ⟨before, lead, tail, behind, hhead, rfl, rfl⟩ := h
  refine ⟨lead ++ (name.toList ++ tail), behind, hhead.slice, hhead.brace_not_mem hname, ?_⟩
  rw [← byteLength_append, hhead.text_eq, ← List.append_assoc]
  exact drop?_append _ _

/-- What the header reads is a head and its brace. -/
theorem headedAt_of_matchAt (h : (header name).MatchAt m s) :
    HeadedAt m name s.start (s.stop - 1) ∧ 0 < s.stop := by
  obtain ⟨p, v, q, hs, hreads⟩ := h.reads
  obtain ⟨hline, lead, tail, rfl, htype, hlist⟩ := header_reads.mp hreads
  have hbrace : byteLength ['{'] = 1 := rfl
  have hstop := hs.stop_eq
  simp only [byteLength_append, hbrace] at hstop
  refine ⟨⟨p, lead, tail, q, ⟨?_, hline, htype, hlist⟩, hs.start_eq, ?_⟩, by omega⟩
  · rw [hs.text_eq]
    simp
  · rw [hs.start_eq]
    simp only [byteLength_append]
    omega

/-- **The header matches just in front of the heads of definitions**, up to their braces. -/
theorem matchAt_iff (hname : isIdentifier name.toList = true) :
    (header name).MatchAt m ⟨start, opening + 1⟩ ↔ HeadedAt m name start opening := by
  constructor
  · intro h
    exact (headedAt_of_matchAt h).1
  · intro h
    obtain ⟨before, lead, tail, behind, hhead, hstart, -⟩ := id h
    obtain ⟨v, htext, hreads⟩ := hhead.exists_reads
    obtain ⟨n, hmatch⟩ := Regex.exists_matchAt hreads
    rw [← htext, ← hstart] at hmatch
    -- A match ends with the first brace behind its start, so it ends here.
    obtain ⟨hheaded, hpos⟩ := headedAt_of_matchAt hmatch
    have hsame := (hheaded.opensAt hname).unique (h.opensAt hname)
    have hstop : start + n = opening + 1 := by
      dsimp only at hsame hpos
      omega
    rwa [hstop] at hmatch

/-! ## Searches for definitions -/

theorem not_reads_nil {before : Option Char} {rest : Text} :
    ¬ Regex.Reads (header name) before [] rest := by
  intro h
  obtain ⟨-, lead, tail, hnil, -⟩ := header_reads.mp h
  simp at hnil

/-- A definition that the search leaves out has the braces of one that it lists. -/
theorem DefinedAt.exists_span {stop : Nat} (hname : isIdentifier name.toList = true)
    (h : DefinedAt m name start opening stop) :
    ∃ s ∈ (header name).spans m, s.start ≤ start ∧ DefinedAt m name s.start opening stop := by
  obtain ⟨before, lead, tail, behind, hhead, hstart, -⟩ := h.head
  obtain ⟨v, htext, hreads⟩ := hhead.exists_reads
  obtain ⟨s, hs, hplace⟩ := Regex.exists_mem_spans hreads not_reads_nil
  rw [← htext] at hs
  rw [← hstart] at hplace
  obtain ⟨hheaded, hpos⟩ := headedAt_of_matchAt (Regex.matchAt_of_mem_spans hs)
  have hopens := hheaded.opensAt hname
  have hopens' := h.head.opensAt hname
  have hsame : opening = s.stop - 1 := by
    obtain heq | ⟨hlt, hinside⟩ := hplace
    · rw [heq] at hopens
      exact hopens'.unique hopens
    · -- The head begins inside the match, in front of its brace.
      exact hopens.eq_of_between hopens' (Nat.le_of_lt hlt) (by omega)
  refine ⟨s, hs, by omega, ?_, h.closes⟩
  rwa [hsame]

variable {t : Text} {b : Body}

/-- Where a match of the header has a body, there is a definition with its braces. -/
theorem definedAt_of_body (hname : isIdentifier name.toList = true)
    (hs : s ∈ (header name).spans t.masked) (hb : bodyAt? t t.masked s.start = some b) :
    DefinedAt t.masked name s.start b.opening b.stop := by
  have hcut := bodyAt?_eq_some_iff.mp hb
  obtain ⟨hheaded, -⟩ := headedAt_of_matchAt (Regex.matchAt_of_mem_spans hs)
  have hsame := (hheaded.opensAt hname).unique hcut.opens
  rw [hsame] at hheaded
  exact ⟨hheaded, hcut.closes⟩

/-- Where there is a definition, a match of the header has a body. -/
theorem exists_body_of_definedAt {stop : Nat} (hname : isIdentifier name.toList = true)
    (hs : s ∈ (header name).spans t.masked)
    (h : DefinedAt t.masked name s.start opening stop) :
    ∃ b, bodyAt? t t.masked s.start = some b := by
  obtain ⟨p, r, htext, hstart⟩ :=
    (Regex.spansFrom_behind hs).isCut (header_startsVisibly name)
  have hcut : take? t s.start = some p := by rw [htext, hstart, take?_append]
  exact exists_body_of_braces (h.head.opensAt hname) h.closes hcut

/-- No definition starts before `start`. -/
def Leftmost (m : Text) (name : String) (start : Nat) : Prop :=
  ∀ start' opening stop, DefinedAt m name start' opening stop → start ≤ start'

/-- The body that is found is that of the first definition. -/
theorem definedAt_of_firstBody? (hname : isIdentifier name.toList = true)
    (h : firstBody? t (header name) = some b) :
    ∃ start, DefinedAt t.masked name start b.opening b.stop ∧ Leftmost t.masked name start ∧
      b.CutAt t start := by
  obtain ⟨passed, s, later, hspans, hb, hpassed⟩ := List.findSome?_eq_some_iff.mp h
  have hsorted : ((header name).spans t.masked).Pairwise (·.start < ·.start) :=
    Regex.spansFrom_pairwise
  have hspans' : (header name).spans t.masked = passed ++ s :: later := hspans
  have hs : s ∈ (header name).spans t.masked := by
    rw [hspans']
    simp
  refine ⟨s.start, definedAt_of_body hname hs hb, ?_, bodyAt?_eq_some_iff.mp hb⟩
  intro start' opening stop hdefined
  obtain ⟨s', hs', hle, hdefined'⟩ := hdefined.exists_span hname
  obtain ⟨b', hb'⟩ := exists_body_of_definedAt hname hs' hdefined'
  rw [hspans', List.mem_append, List.mem_cons] at hs'
  obtain hbefore | rfl | hbehind := hs'
  · rw [hpassed s' hbefore] at hb'
    cases hb'
  · exact hle
  · rw [hspans'] at hsorted
    have hlater := (List.pairwise_cons.mp (List.pairwise_append.mp hsorted).2.1).1 s' hbehind
    omega

theorem firstBody?_ne_none {stop : Nat} (hname : isIdentifier name.toList = true)
    (h : DefinedAt t.masked name start opening stop) : firstBody? t (header name) ≠ none := by
  obtain ⟨s, hs, -, hdefined⟩ := h.exists_span hname
  obtain ⟨b, hb⟩ := exists_body_of_definedAt hname hs hdefined
  intro hnone
  rw [List.findSome?_eq_none_iff.mp hnone s hs] at hb
  cases hb

theorem DefinedAt.unique {opening' stop stop' : Nat} (hname : isIdentifier name.toList = true)
    (h : DefinedAt m name start opening stop) (h' : DefinedAt m name start opening' stop') :
    opening = opening' ∧ stop = stop' := by
  have hopens := h.head.opensAt hname
  obtain rfl := hopens.unique (h'.head.opensAt hname)
  obtain ⟨head, rest, -, -, hdrop⟩ := hopens
  have hstop := (closesAt_iff hdrop).mp h.closes
  have hstop' := (closesAt_iff hdrop).mp h'.closes
  exact ⟨rfl, Option.some.inj (hstop.symm.trans hstop')⟩

end Heads

/-! ## What is cut out -/

/-- `d` is what the head at `start` and the braces from `opening` up to `stop` cut out of `t`. -/
structure CutAt (d : FunctionDef) (t : Text) (start opening stop : Nat) : Prop where
  text_eq : slice? t start stop = some d.text
  body_eq : slice? t (opening + 1) (stop - 1) = some d.body
  startLine_eq : ∃ before, take? t start = some before ∧ d.startLine = newlines before + 1
  bodyLine_eq : ∃ before, take? t opening = some before ∧ d.bodyLine = newlines before + 1
  endLine_eq : ∃ before, take? t stop = some before ∧ d.endLine = newlines before + 1

theorem CutAt.unique {d d' : FunctionDef} {t : Text} {start opening stop : Nat}
    (h : d.CutAt t start opening stop) (h' : d'.CutAt t start opening stop)
    (hname : d.name = d'.name) : d = d' := by
  have hline : ∀ {n line line' : Nat},
      (∃ before, take? t n = some before ∧ line = newlines before + 1) →
      (∃ before, take? t n = some before ∧ line' = newlines before + 1) → line = line' := by
    rintro n line line' ⟨before, hbefore, rfl⟩ ⟨before', hbefore', rfl⟩
    rw [Option.some.inj (hbefore.symm.trans hbefore')]
  have hstart := hline h.startLine_eq h'.startLine_eq
  have hopen := hline h.bodyLine_eq h'.bodyLine_eq
  have hend := hline h.endLine_eq h'.endLine_eq
  have htext := Option.some.inj (h.text_eq.symm.trans h'.text_eq)
  have hbody := Option.some.inj (h.body_eq.symm.trans h'.body_eq)
  cases d
  cases d'
  simp_all

/-- The definition made of a body is what the body's braces cut out. -/
theorem cutAt_of_body (name : String) {b : Body} {t : Text} {start : Nat} (h : b.CutAt t start) :
    CutAt ⟨name, b.startLine, b.endLine, b.text, b.inner, b.openLine⟩ t start b.opening b.stop := by
  obtain ⟨before, head, inner, behind, hsits⟩ := bodyAt?_sits (bodyAt?_eq_some_iff.mpr h)
  have hbrace : byteLength ['{'] = 1 := rfl
  have hclose : byteLength ['}'] = 1 := rfl
  have hopening := hsits.opening_eq
  have hstop := hsits.stop_eq
  have htext := h.text_eq
  have hline := h.startLine_eq
  rw [h.header_eq] at htext hline
  refine ⟨htext, h.inner_eq, hline, ⟨before ++ head, ?_, ?_⟩,
    ⟨before ++ (head ++ (['{'] ++ (inner ++ ['}']))), ?_, ?_⟩⟩
  · refine take?_eq_some.mpr ⟨'{' :: (inner ++ '}' :: behind), ?_, ?_⟩
    · rw [hsits.text_eq, List.append_assoc]
    · rw [byteLength_append, hopening]
  · show b.openLine = _
    rw [hsits.openLine_eq, hsits.startLine_eq, newlines, newlines, newlines, List.count_append]
    omega
  · refine take?_eq_some.mpr ⟨behind, ?_, ?_⟩
    · rw [hsits.text_eq]
      simp
    · simp only [byteLength_append]
      omega
  · show b.endLine = _
    rw [hsits.endLine_eq, hsits.startLine_eq]
    simp [newlines, List.count_append]
    omega

/-- The name of a definition stands in the text itself, as code. -/
theorem DefinedAt.name_is_code {t : Text} {name : String} {start opening stop : Nat}
    (hname : isIdentifier name.toList = true) (h : DefinedAt t.masked name start opening stop) :
    ∃ p q, t = p ++ (name.toList ++ q) ∧ start ≤ byteLength p ∧
      byteLength p + byteLength name.toList ≤ opening ∧
      Lex.code.after p (name.toList ++ q) = .code := by
  obtain ⟨before, lead, tail, behind, hhead, hstart, hopening⟩ := h.head
  have hident : ∀ c ∈ name.toList, isIdentChar c = true := fun _ =>
    isIdentChar_of_isIdentifier hname
  have hspace : ' ' ∉ name.toList := fun hmem => by
    have hno := hident _ hmem
    cases hno
  obtain ⟨c, w, hcw⟩ : ∃ c w, name.toList = c :: w := by
    apply List.exists_cons_of_ne_nil
    intro hnil
    rw [hnil] at hname
    cases hname
  have hmasked : t.masked = (before ++ lead) ++ (name.toList ++ (tail ++ '{' :: behind)) := by
    rw [hhead.text_eq]
    simp
  obtain ⟨p, q, htext, hp⟩ := (hmasked ▸ blanked_masked t).exists_word (by simp [hcw]) hspace
  have hlen := hp.byteLength_eq
  simp only [byteLength_append] at hlen hopening
  refine ⟨p, q, htext, by omega, by omega, ?_⟩
  rw [htext, hcw] at hmasked
  rw [hcw]
  refine (code_around_shown hmasked hp.byteLength_eq ?_).1
  have hc := hident c (by simp [hcw])
  simp only [List.mem_cons, List.not_mem_nil, or_false, not_or]
  refine ⟨?_, ?_, ?_, ?_⟩ <;> · rintro rfl; cases hc

/-- **A function is found just when it is defined, and then it is its first definition.** The
header matches in front of the heads of definitions and nowhere else. A head starts a line, has
no brace and no semicolon, and its name is code. What is found is cut out at the head and at the
brace that closes the one behind it. -/
theorem find?_exact (file : SourceFile) {name : String} (hname : isIdentifier name.toList = true) :
    (∀ start opening, (header name).MatchAt file.text.masked ⟨start, opening + 1⟩ ↔
      HeadedAt file.text.masked name start opening) ∧
    (∀ start opening, HeadedAt file.text.masked name start opening →
      (∃ before, take? file.text.masked start = some before ∧
        ∀ c, before.getLast? = some c → c = '\n') ∧
      ∃ head, slice? file.text.masked start opening = some head ∧ ∀ c ∈ head, c ∉ [';', '{', '}']) ∧
    (∀ start opening stop, DefinedAt file.text.masked name start opening stop →
      ∃ p q, file.text = p ++ (name.toList ++ q) ∧ start ≤ byteLength p ∧
        byteLength p + byteLength name.toList ≤ opening ∧
        Lex.code.after p (name.toList ++ q) = .code) ∧
    (∀ d, find? file name = some d ↔ d.name = name ∧ ∃ start opening stop,
      DefinedAt file.text.masked name start opening stop ∧ Leftmost file.text.masked name start ∧
        d.CutAt file.text start opening stop) ∧
    (find? file name = none ↔
      ∀ start opening stop, ¬ DefinedAt file.text.masked name start opening stop) := by
  refine ⟨fun _ _ => matchAt_iff hname, ?_, fun _ _ _ h => h.name_is_code hname, ?_, ?_⟩
  · rintro start opening ⟨before, lead, tail, behind, hhead, rfl, rfl⟩
    refine ⟨⟨before, ?_, hhead.line_start⟩, _, hhead.slice, hhead.headerText hname⟩
    rw [hhead.text_eq, take?_append]
  · intro d
    rw [find?, Option.map_eq_some_iff]
    constructor
    · rintro ⟨b, hb, rfl⟩
      obtain ⟨start, hdefined, hleft, hcut⟩ := definedAt_of_firstBody? hname hb
      exact ⟨rfl, start, b.opening, b.stop, hdefined, hleft, cutAt_of_body name hcut⟩
    · rintro ⟨hd, start, opening, stop, hdefined, hleft, hcut⟩
      obtain ⟨b, hb⟩ := Option.ne_none_iff_exists'.mp (firstBody?_ne_none hname hdefined)
      obtain ⟨start', hdefined', hleft', hcut'⟩ := definedAt_of_firstBody? hname hb
      obtain rfl := Nat.le_antisymm (hleft _ _ _ hdefined') (hleft' _ _ _ hdefined)
      obtain ⟨rfl, rfl⟩ := hdefined.unique hname hdefined'
      exact ⟨b, hb, ((cutAt_of_body name hcut').unique hcut hd.symm)⟩
  · rw [find?, Option.map_eq_none_iff]
    constructor
    · intro hnone start opening stop hdefined
      exact firstBody?_ne_none hname hdefined hnone
    · intro h
      rw [Option.eq_none_iff_forall_ne_some]
      intro b hb
      obtain ⟨start, hdefined, -⟩ := definedAt_of_firstBody? hname hb
      exact h _ _ _ hdefined

/-- The definition is found behind a prototype and a comment. Another function, which is only
declared and called, has none. -/
theorem find?_exact_behind_prototypes :
    let file : SourceFile := ⟨"a.c", ("int f(int x); int g(int x);\n" ++
      "/* int f(int x) \x7b \x7d */\nstatic int\nf(int x)\n\x7b\n  return g(x);\n\x7d\n").toList⟩
    isIdentifier "f".toList = true ∧ isIdentifier "g".toList = true ∧
      (∃ d start opening stop, find? file "f" = some d ∧ (d.startLine, d.bodyLine) = (3, 5) ∧
        DefinedAt file.text.masked "f" start opening stop ∧ d.CutAt file.text start opening stop) ∧
      ∀ start opening stop, ¬ DefinedAt file.text.masked "g" start opening stop := by
  intro file
  have hf : isIdentifier "f".toList = true := by decide
  have hg : isIdentifier "g".toList = true := by decide
  obtain ⟨-, -, -, hfound, -⟩ := find?_exact file hf
  obtain ⟨-, -, -, -, hmissing⟩ := find?_exact file hg
  have hlines : (find? file "f").map (fun d => (d.startLine, d.bodyLine)) = some (3, 5) := by
    decide +kernel
  obtain ⟨d, hd, hline⟩ := Option.map_eq_some_iff.mp hlines
  obtain ⟨-, start, opening, stop, hdefined, -, hcut⟩ := (hfound d).mp hd
  exact ⟨hf, hg, ⟨d, start, opening, stop, hd, hline, hdefined, hcut⟩,
    hmissing.mp (by decide +kernel)⟩

end FunctionDef
end StructuralRules
