import Mathlib.Data.List.Chain
import StructuralRules.Proofs.Rule.Places

/-!
# Messages and the values in them

A template is read from left to right into characters and placeholders.
Rendering replaces one kind of placeholder after the other, in a text that already
holds the values of the kinds before, so the kinds that come later are replaced in
these values too. Placeholders can also arise where a value meets what stands
beside it. They do not where every placeholder of the template is set apart, and
there rendering is to replace each placeholder by its value reread. It is to
replace each by its value where no value and no character of the template is an
opening brace.
-/

set_option autoImplicit false

namespace StructuralRules

namespace Text

variable {old new : Text}

/-! ## Replacing in the parts of a text -/

/-- No occurrence of `old` starts in `x` and ends behind it, in `y`. -/
def Uncrossed (old x y : Text) : Prop :=
  ∀ z, z <:+ x → z ≠ [] → old <+: z ++ y → old <+: z

/-- Every occurrence of `old` in the concatenation of the parts lies in one of them. -/
def Unjoined (old : Text) : List Text → Prop
  | [] => True
  | x :: xs => Uncrossed old x xs.flatten ∧ Unjoined old xs

theorem Uncrossed.tail {c : Char} {x y : Text} (h : Uncrossed old (c :: x) y) :
    Uncrossed old x y :=
  fun z hz => h z (hz.trans (List.suffix_cons c x))

theorem unjoined_of_forall {xs : List Text} (h : ∀ x ∈ xs, ∀ y, Uncrossed old x y) :
    Unjoined old xs := by
  induction xs with
  | nil => trivial
  | cons x xs ih => exact ⟨h x (by simp) _, ih fun x' hx' => h x' (by simp [hx'])⟩

theorem replaceFrom_append {x y : Text} (h : Uncrossed old x y) {skip : Nat}
    (hskip : skip ≤ x.length) :
    replaceFrom old new skip (x ++ y) = replaceFrom old new skip x ++ replace old new y := by
  induction x generalizing skip with
  | nil =>
    obtain rfl : skip = 0 := by simpa using hskip
    rfl
  | cons c x ih =>
    cases skip with
    | succ n =>
      rw [List.cons_append, replaceFrom, replaceFrom, ih h.tail (by simpa using hskip)]
    | zero =>
      have hhere : old.isPrefixOf (c :: (x ++ y)) = old.isPrefixOf (c :: x) := by
        rw [Bool.eq_iff_iff, List.isPrefixOf_iff_prefix, List.isPrefixOf_iff_prefix]
        constructor
        · exact h (c :: x) List.suffix_rfl (by simp)
        · exact fun hold => hold.trans (List.prefix_append (c :: x) y)
      rw [List.cons_append, replaceFrom, replaceFrom, hhere]
      split
      case isTrue hold =>
        have hlen := (List.isPrefixOf_iff_prefix.mp hold).length_le
        rw [List.length_cons] at hlen
        rw [ih h.tail (by omega), List.append_assoc]
      case isFalse => rw [ih h.tail (Nat.zero_le _), List.cons_append]

theorem replace_flatten {xs : List Text} (h : Unjoined old xs) :
    replace old new xs.flatten = (xs.map (replace old new)).flatten := by
  induction xs with
  | nil => rfl
  | cons x xs ih =>
    rw [List.flatten_cons, List.map_cons, List.flatten_cons, ← ih h.2]
    exact replaceFrom_append h.1 (Nat.zero_le _)

theorem replaceFrom_eq_drop (n : Nat) (t : Text) :
    replaceFrom old new n t = replace old new (t.drop n) := by
  induction t generalizing n with
  | nil => cases n <;> rfl
  | cons c t ih =>
    cases n with
    | zero => rfl
    | succ n => rw [replaceFrom, ih, List.drop_succ_cons]

theorem replace_self (h : old ≠ []) : replace old new old = new := by
  obtain ⟨c, t, rfl⟩ := List.exists_cons_of_ne_nil h
  have hall : (c :: t).isPrefixOf (c :: t) = true := by simp
  rw [replace, replaceFrom, if_pos hall, replaceFrom_eq_drop, List.length_cons,
    Nat.add_sub_cancel, List.drop_length]
  exact List.append_nil new

theorem replace_of_not_contains {t : Text} (h : contains old t = false) :
    replace old new t = t := by
  induction t with
  | nil => rfl
  | cons c t ih =>
    rw [contains, Bool.or_eq_false_iff] at h
    rw [replace, replaceFrom, if_neg (by simp [h.1])]
    exact congrArg (c :: ·) (ih h.2)

end Text

open Text

/-- The values, each with the kinds replaced in it that come later. -/
def TemplateValues.reread (v : TemplateValues) : TemplateValues where
  name := replace Template.lineKey v.line <| replace Template.fileKey v.file <|
    replace Template.matchKey v.matched v.name
  matched := replace Template.lineKey v.line <| replace Template.fileKey v.file v.matched
  file := replace Template.lineKey v.line v.file
  line := v.line

namespace Template

/-! ## Reading a template -/

/-- The kinds of placeholders. -/
inductive Key where
  | name
  | matched
  | file
  | line
  deriving DecidableEq, Repr

namespace Key

/-- The kinds in the order in which they are replaced. -/
def all : List Key :=
  [.name, .matched, .file, .line]

def text : Key → Text
  | .name => nameKey
  | .matched => matchKey
  | .file => fileKey
  | .line => lineKey

def value (v : TemplateValues) : Key → Text
  | .name => v.name
  | .matched => v.matched
  | .file => v.file
  | .line => v.line

/-- The placeholder that a text starts with. -/
def leading? (t : Text) : Option Key :=
  all.find? (·.text.isPrefixOf t)

theorem prefix_of_leading? {t : Text} {k : Key} (h : leading? t = some k) : k.text <+: t := by
  have hk := List.find?_some h
  exact List.isPrefixOf_iff_prefix.mp hk

theorem not_prefix_of_leading? {t : Text} (h : leading? t = none) (k : Key) :
    ¬ k.text <+: t := by
  have hall : k ∈ all := by cases k <;> decide
  have hk := List.find?_eq_none.mp h k hall
  rwa [List.isPrefixOf_iff_prefix] at hk

/-- A placeholder has one opening brace, at its front. -/
theorem text_eq_cons (k : Key) : ∃ t, k.text = '{' :: t ∧ '{' ∉ t := by
  cases k <;> exact ⟨_, rfl, by decide⟩

theorem text_ne_nil (k : Key) : k.text ≠ [] := by
  obtain ⟨t, ht, -⟩ := k.text_eq_cons
  simp [ht]

theorem eq_of_prefix {k j : Key} (h : k.text <+: j.text) : k = j := by
  revert h
  cases k <;> cases j <;> decide

theorem one_lt_length (k : Key) : 1 < k.text.length := by
  cases k <;> decide

theorem replace_char (k : Key) (new : Text) (c : Char) : replace k.text new [c] = [c] := by
  refine replace_of_not_contains ?_
  rw [Bool.eq_false_iff, Ne, contains_iff]
  intro h
  have hlong := k.one_lt_length
  have hshort := h.length_le
  rw [List.length_singleton] at hshort
  omega

theorem replace_text (k j : Key) (new : Text) :
    replace k.text new j.text = if k = j then new else j.text := by
  split
  case isTrue h => exact h ▸ replace_self k.text_ne_nil
  case isFalse h =>
    refine replace_of_not_contains ?_
    revert h
    cases k <;> cases j <;> decide

end Key

/-- A character of a template, or a placeholder. -/
inductive Piece where
  | char (c : Char)
  | key (k : Key)
  deriving DecidableEq, Repr

/-- Puts texts in the place of the placeholders. -/
def Piece.fill (texts : Key → Text) : Piece → Text
  | .char c => [c]
  | .key k => texts k

/-- Reads a text from left to right; `skip` characters of the last placeholder are still to be
passed over. -/
def readFrom (skip : Nat) : Text → List Piece
  | [] => []
  | c :: t =>
      match skip with
      | n + 1 => readFrom n t
      | 0 =>
          match Key.leading? (c :: t) with
          | some k => .key k :: readFrom (k.text.length - 1) t
          | none => .char c :: readFrom 0 t

def pieces (t : Template) : List Piece :=
  readFrom 0 t.text

/-- The text that pieces are read from. -/
def written (ps : List Piece) : Text :=
  ps.flatMap (Piece.fill Key.text)

/-- No placeholder of the text starts at a piece that is a character. -/
def Read : List Piece → Prop
  | [] => True
  | .key _ :: ps => Read ps
  | .char c :: ps => (∀ k : Key, ¬ k.text <+: c :: written ps) ∧ Read ps

theorem written_readFrom (skip : Nat) (t : Text) : written (readFrom skip t) = t.drop skip := by
  induction t generalizing skip with
  | nil => cases skip <;> rfl
  | cons c t ih =>
    cases skip with
    | succ n => rw [readFrom, ih, List.drop_succ_cons]
    | zero =>
      rw [readFrom]
      split
      case h_1 k hk =>
        obtain ⟨k', hk', -⟩ := k.text_eq_cons
        have hcut := List.prefix_iff_eq_append.mp (Key.prefix_of_leading? hk)
        rw [hk', List.length_cons, List.drop_succ_cons] at hcut
        rw [written, List.flatMap_cons, ← written, ih, Piece.fill, hk', List.length_cons,
          Nat.add_sub_cancel, hcut, List.drop_zero]
      case h_2 => rw [written, List.flatMap_cons, ← written, ih]; rfl

theorem read_readFrom (skip : Nat) (t : Text) : Read (readFrom skip t) := by
  induction t generalizing skip with
  | nil => trivial
  | cons c t ih =>
    cases skip with
    | succ n => exact ih n
    | zero =>
      rw [readFrom]
      split
      case h_1 => exact ih _
      case h_2 hnone =>
        refine ⟨fun k => ?_, ih 0⟩
        rw [written_readFrom, List.drop_zero]
        exact Key.not_prefix_of_leading? hnone k

theorem written_pieces (t : Template) : written t.pieces = t.text :=
  written_readFrom 0 t.text

/-- The placeholders of the template replaced by their values, all at once. -/
def substituted (t : Template) (v : TemplateValues) : Text :=
  t.pieces.flatMap (Piece.fill (·.value v))

/-! ## Replacing one kind in all pieces -/

section Stage

variable {k : Key} {new : Text} {texts : Key → Text} {ps : List Piece}

theorem replace_fill (h : Unjoined k.text (ps.map (Piece.fill texts))) :
    replace k.text new (ps.flatMap (Piece.fill texts)) =
      ps.flatMap (Piece.fill fun j => replace k.text new (texts j)) := by
  rw [List.flatMap_def, replace_flatten h, List.map_map, List.flatMap_def]
  refine congrArg List.flatten (List.map_congr_left fun p _ => ?_)
  cases p with
  | char c => exact k.replace_char new c
  | key j => rfl

/-- A placeholder starts where there is an opening brace. -/
theorem uncrossed_of_not_mem {x y : Text} (h : '{' ∉ x) : Uncrossed k.text x y := by
  intro z hz hne hold
  obtain ⟨t, ht, -⟩ := k.text_eq_cons
  obtain ⟨c, z, rfl⟩ := List.exists_cons_of_ne_nil hne
  rw [ht, List.cons_append, List.cons_prefix_cons] at hold
  exact absurd (hz.subset (hold.1 ▸ List.mem_cons_self)) h

/-- A placeholder that is still there crosses no other. -/
theorem uncrossed_text (k j : Key) (y : Text) : Uncrossed k.text j.text y := by
  obtain ⟨t, ht, ht'⟩ := j.text_eq_cons
  intro z hz hne hold
  rw [ht, List.suffix_cons_iff] at hz
  rcases hz with rfl | hz
  · rw [← ht] at hold ⊢
    rcases List.prefix_or_prefix_of_prefix hold (List.prefix_append j.text y) with h | h
    · exact h
    · obtain rfl := Key.eq_of_prefix h
      exact List.prefix_rfl
  · exact uncrossed_of_not_mem ht' z hz hne hold

end Stage

/-! ## Replacing all kinds, one after the other -/

/-- At each stage every placeholder of the kind that is replaced lies in one piece. -/
def Unmixed (v : TemplateValues) (ps : List Piece) : List Key → (Key → Text) → Prop
  | [], _ => True
  | k :: ks, texts => Unjoined k.text (ps.map (Piece.fill texts)) ∧
      Unmixed v ps ks fun j => replace k.text (k.value v) (texts j)

theorem foldl_replace_fill {v : TemplateValues} {ps : List Piece} {ks : List Key}
    {texts : Key → Text} (h : Unmixed v ps ks texts) :
    ks.foldl (fun t k => replace k.text (k.value v) t) (ps.flatMap (Piece.fill texts)) =
      ps.flatMap (Piece.fill fun j =>
        ks.foldl (fun t k => replace k.text (k.value v) t) (texts j)) := by
  induction ks generalizing texts with
  | nil => rfl
  | cons k ks ih =>
    rw [List.foldl_cons, replace_fill h.1, ih h.2]
    rfl

theorem foldl_replace_text (v : TemplateValues) (k : Key) :
    Key.all.foldl (fun t j => replace j.text (j.value v) t) k.text = k.value v.reread := by
  cases k <;> simp only [Key.all, List.foldl_cons, List.foldl_nil, Key.replace_text,
    reduceCtorEq, if_false, if_true] <;> rfl

/-- Rendering replaces each placeholder by its value reread. -/
theorem render_of_unmixed {t : Template} {v : TemplateValues}
    (h : Unmixed v t.pieces Key.all Key.text) : t.render v = t.substituted v.reread := by
  have hrender : t.render v = Key.all.foldl (fun t k => replace k.text (k.value v) t) t.text := rfl
  rw [hrender, ← written_pieces, written, foldl_replace_fill h]
  simp only [foldl_replace_text]
  rfl

/-! ## Placeholders set apart -/

/-- No placeholder has the character. -/
def isBreak (c : Char) : Bool :=
  Key.all.all fun k => c ∉ k.text

/-- Two neighbours of which none is a placeholder, or one is and the other is a break. -/
def Piece.apart : Piece → Piece → Bool
  | .char _, .char _ => true
  | .char c, .key _ | .key _, .char c => isBreak c
  | .key _, .key _ => false

/-- Every placeholder stands between breaks or at an end. -/
def SetApart (t : Template) : Prop :=
  t.pieces.IsChain fun p q => p.apart q

instance (t : Template) : Decidable t.SetApart :=
  inferInstanceAs (Decidable (t.pieces.IsChain fun p q => p.apart q))

theorem not_mem_text_of_isBreak {c : Char} (h : isBreak c = true) (k : Key) : c ∉ k.text := by
  have hall : k ∈ Key.all := by cases k <;> decide
  exact of_decide_eq_true (List.all_eq_true.mp h k hall)

section Apart

variable {k : Key} {texts : Key → Text} {ps : List Piece}

theorem uncrossed_of_break {x y : Text} {c : Char} (h : c ∉ k.text) :
    Uncrossed k.text x (c :: y) := by
  intro z _ _ hold
  rcases List.prefix_or_prefix_of_prefix hold (List.prefix_append z (c :: y)) with hz | hz
  · exact hz
  · obtain ⟨w, hw⟩ := hz
    rw [← hw, List.prefix_append_right_inj] at hold
    cases w with
    | nil =>
      rw [List.append_nil] at hw
      exact hw ▸ List.prefix_rfl
    | cons d w =>
      obtain rfl := (List.cons_prefix_cons.mp hold).1
      exact absurd (hw ▸ by simp) h

/-- What is filled in does not go on what stands in front of a break. -/
theorem prefix_written {c : Char} {u : Text}
    (hchain : (Piece.char c :: ps).IsChain fun p q => p.apart q) (hc : c ∈ k.text)
    (hu : ∀ d ∈ u, d ∈ k.text) (h : u <+: ps.flatMap (Piece.fill texts)) : u <+: written ps := by
  induction ps generalizing c u with
  | nil => exact h
  | cons p ps ih =>
    rw [List.isChain_cons_cons] at hchain
    cases p with
    | key j => exact absurd hc (not_mem_text_of_isBreak hchain.1 k)
    | char d =>
      cases u with
      | nil => exact List.nil_prefix
      | cons e u =>
        rw [List.flatMap_cons, Piece.fill, List.singleton_append, List.cons_prefix_cons] at h
        obtain ⟨rfl, h⟩ := h
        rw [written, List.flatMap_cons, Piece.fill, List.singleton_append, List.cons_prefix_cons]
        exact ⟨rfl, ih hchain.2 (hu e (by simp)) (fun d hd => hu d (by simp [hd])) h⟩

theorem unjoined_of_chain (hread : Read ps) (hchain : ps.IsChain fun p q => p.apart q) :
    Unjoined k.text (ps.map (Piece.fill texts)) := by
  induction ps with
  | nil => trivial
  | cons p ps ih =>
    cases p with
    | key j =>
      refine ⟨?_, ih hread hchain.of_cons⟩
      cases ps with
      | nil =>
        intro z _ _ hold
        rwa [List.map_nil, List.flatten_nil, List.append_nil] at hold
      | cons q ps =>
        have hq := (List.isChain_cons_cons.mp hchain).1
        cases q with
        | key j' => cases hq
        | char c => exact uncrossed_of_break (not_mem_text_of_isBreak hq k)
    | char c =>
      refine ⟨?_, ih hread.2 hchain.of_cons⟩
      intro z hz hne hold
      obtain rfl : z = [c] :=
        (List.suffix_cons_iff.mp hz).resolve_right fun h => hne (List.suffix_nil.mp h)
      -- A placeholder that starts here was read as one.
      obtain ⟨t, ht, -⟩ := k.text_eq_cons
      rw [ht, List.singleton_append, List.cons_prefix_cons] at hold
      obtain ⟨rfl, hold⟩ := hold
      have hwritten := prefix_written (k := k) hchain (by simp [ht])
        (fun d hd => by simp [ht, hd]) hold
      exact absurd (by rw [ht]; exact List.cons_prefix_cons.mpr ⟨rfl, hwritten⟩) (hread.1 k)

theorem unmixed_of_chain {v : TemplateValues} {ks : List Key} (hread : Read ps)
    (hchain : ps.IsChain fun p q => p.apart q) : Unmixed v ps ks texts := by
  induction ks generalizing texts with
  | nil => trivial
  | cons k ks ih => exact ⟨unjoined_of_chain hread hchain, ih⟩

end Apart

/-! ## Texts without braces -/

section Plain

variable {k : Key} {texts : Key → Text} {ps : List Piece}

theorem not_contains_of_not_mem {t : Text} (h : '{' ∉ t) (k : Key) :
    contains k.text t = false := by
  obtain ⟨t', ht, -⟩ := k.text_eq_cons
  rw [Bool.eq_false_iff, Ne, contains_iff]
  intro hk
  exact h (hk.subset (ht ▸ List.mem_cons_self))

/-- Every placeholder is either still there or filled in with a text without opening braces. -/
def Plain (texts : Key → Text) : Prop :=
  ∀ j, texts j = j.text ∨ '{' ∉ texts j

theorem Plain.replace {new : Text} (h : Plain texts) (hnew : '{' ∉ new) :
    Plain fun j => replace k.text new (texts j) := by
  intro j
  rcases h j with hj | hj
  · dsimp only
    rw [hj, Key.replace_text]
    split
    · exact .inr hnew
    · exact .inl rfl
  · dsimp only
    rw [replace_of_not_contains (not_contains_of_not_mem hj k)]
    exact .inr hj

theorem Plain.unjoined (h : Plain texts) (hps : Piece.char '{' ∉ ps) :
    Unjoined k.text (ps.map (Piece.fill texts)) := by
  refine unjoined_of_forall fun x hx y => ?_
  obtain ⟨p, hp, rfl⟩ := List.mem_map.mp hx
  cases p with
  | char c =>
    refine uncrossed_of_not_mem fun hc => hps ?_
    rwa [List.mem_singleton.mp hc]
  | key j =>
    rcases h j with hj | hj
    · rw [Piece.fill, hj]
      exact uncrossed_text k j y
    · exact uncrossed_of_not_mem hj

/-- The value that is filled in last is not searched, so it may be any text. -/
theorem Plain.unmixed {v : TemplateValues} {ks : List Key} (h : Plain texts)
    (hps : Piece.char '{' ∉ ps) (hv : ∀ k ∈ ks.dropLast, '{' ∉ k.value v) :
    Unmixed v ps ks texts := by
  induction ks generalizing texts with
  | nil => trivial
  | cons k ks ih =>
    refine ⟨h.unjoined hps, ?_⟩
    cases ks with
    | nil => trivial
    | cons k' ks =>
      exact ih (h.replace (hv k (by simp))) fun j hj => hv j (by simp [hj])

end Plain
end Template

/-- No value holds a placeholder of a kind that is replaced after its own. -/
def TemplateValues.Settled (v : TemplateValues) : Prop :=
  Template.Key.all.Pairwise fun j k => contains k.text (j.value v) = false

instance (v : TemplateValues) : Decidable v.Settled :=
  inferInstanceAs (Decidable (Template.Key.all.Pairwise fun j k =>
    contains k.text (j.value v) = false))

theorem TemplateValues.Settled.reread_eq {v : TemplateValues} (h : v.Settled) : v.reread = v := by
  have hlater : ∀ j k : Template.Key, [j, k].Sublist Template.Key.all →
      replace k.text (k.value v) (j.value v) = j.value v := fun j k hjk =>
    replace_of_not_contains (List.pairwise_iff_forall_sublist.mp h hjk)
  have hname : replace Template.matchKey v.matched v.name = v.name :=
    hlater .name .matched (by decide)
  have hname' : replace Template.fileKey v.file v.name = v.name := hlater .name .file (by decide)
  have hname'' : replace Template.lineKey v.line v.name = v.name := hlater .name .line (by decide)
  have hmatched : replace Template.fileKey v.file v.matched = v.matched :=
    hlater .matched .file (by decide)
  have hmatched' : replace Template.lineKey v.line v.matched = v.matched :=
    hlater .matched .line (by decide)
  have hfile : replace Template.lineKey v.line v.file = v.file := hlater .file .line (by decide)
  rw [reread, hname, hname', hname'', hmatched, hmatched', hfile]

theorem TemplateValues.settled_of_plain {v : TemplateValues} (hname : '{' ∉ v.name)
    (hmatched : '{' ∉ v.matched) (hfile : '{' ∉ v.file) : v.Settled :=
  .cons (fun k _ => Template.not_contains_of_not_mem hname k) <|
    .cons (fun k _ => Template.not_contains_of_not_mem hmatched k) <|
    .cons (fun k _ => Template.not_contains_of_not_mem hfile k) <|
    .cons (fun _ hk => absurd hk List.not_mem_nil) .nil

namespace Template

/-- Of a template with one placeholder only its value can come out differently. -/
theorem substituted_eq_iff {t : Template} {before behind : List Piece} {k : Key}
    (hpieces : t.pieces = before ++ .key k :: behind)
    (hchars : ∀ j, Piece.key j ∉ before ++ behind) {v w : TemplateValues} :
    t.substituted v = t.substituted w ↔ k.value v = k.value w := by
  have hsame : ∀ ps : List Piece, (∀ j, Piece.key j ∉ ps) →
      ps.flatMap (Piece.fill (·.value v)) = ps.flatMap (Piece.fill (·.value w)) := by
    intro ps hps
    refine List.flatMap_congr fun p hp => ?_
    cases p with
    | char c => rfl
    | key j => exact absurd hp (hps j)
  rw [substituted, substituted, hpieces, List.flatMap_append, List.flatMap_append,
    List.flatMap_cons, List.flatMap_cons,
    hsame before fun j hj => hchars j (List.mem_append_left _ hj),
    hsame behind fun j hj => hchars j (List.mem_append_right _ hj),
    List.append_cancel_left_eq, List.append_cancel_right_eq]
  rfl

/-- **Values are replaced in again.** Where no placeholder arises across the pieces of a template,
and so wherever its placeholders are set apart, rendering puts in their place their values reread.
It is to replace all of them at once where no value holds a placeholder of a later kind, and in a
template with one placeholder just where rereading leaves its value alone. It also is where no value
but the last and no character of the template is an opening brace. -/
theorem render_rereads_values (t : Template) :
    (∀ v, Unmixed v t.pieces Key.all Key.text → t.render v = t.substituted v.reread) ∧
    (t.SetApart →
      (∀ v, t.render v = t.substituted v.reread) ∧
      (∀ v : TemplateValues, v.Settled → t.render v = t.substituted v) ∧
      ∀ before k behind, t.pieces = before ++ .key k :: behind →
        (∀ j, Piece.key j ∉ before ++ behind) →
        ∀ v, t.render v = t.substituted v ↔ k.value v.reread = k.value v) ∧
    (Piece.char '{' ∉ t.pieces → ∀ v : TemplateValues,
      '{' ∉ v.name → '{' ∉ v.matched → '{' ∉ v.file → t.render v = t.substituted v) := by
  refine ⟨fun v => render_of_unmixed, fun hapart => ?_, ?_⟩
  · have hrender : ∀ v, t.render v = t.substituted v.reread := fun v =>
      render_of_unmixed (unmixed_of_chain (read_readFrom 0 t.text) hapart)
    refine ⟨hrender, fun v hv => ?_, fun before k behind hpieces hchars v => ?_⟩
    · rw [hrender, hv.reread_eq]
    · rw [hrender, substituted_eq_iff hpieces hchars]
  · intro hps v hname hmatched hfile
    have hplain : Plain Key.text := fun j => .inl rfl
    have hvalues : ∀ k ∈ Key.all.dropLast, '{' ∉ k.value v := by
      simp [Key.all, Key.value, hname, hmatched, hfile]
    rw [render_of_unmixed (hplain.unmixed hps hvalues),
      (TemplateValues.settled_of_plain hname hmatched hfile).reread_eq]

/-- All four placeholders are set apart, and no value holds one. -/
theorem four_placeholders_rendered :
    ∃ (t : Template) (v : TemplateValues),
      t.text = "\x7bname\x7d: \x7bmatch\x7d at \x7bfile\x7d:\x7bline\x7d".toList ∧
        t.SetApart ∧ v.Settled ∧ t.render v = t.substituted v ∧
        t.render v = "rule: malloc( at src/a.c:7".toList := by
  let t : Template :=
    ⟨"\x7bname\x7d: \x7bmatch\x7d at \x7bfile\x7d:\x7bline\x7d".toList⟩
  let v : TemplateValues :=
    ⟨"rule".toList, "malloc(".toList, "src/a.c".toList, "7".toList⟩
  have hapart : t.SetApart := by decide +kernel
  have hsettled : v.Settled := by decide +kernel
  have hrender := ((render_rereads_values t).2.1 hapart).2.1 v hsettled
  refine ⟨t, v, rfl, hapart, hsettled, hrender, ?_⟩
  rw [hrender]
  decide +kernel

end Template

/-! ## The message of a rule that has no message of its own -/

namespace SiteRule

/-- The values for the message about a place. -/
def values (r : SiteRule) (s : Site) : TemplateValues where
  name := (r.locator.target?.getD r.name).toList
  matched := s.matched
  file := s.file.path.toList
  line := (toString s.line).toList

theorem finding_message (r : SiteRule) (s : Site) :
    (r.finding s).message = String.ofList (r.message.render (r.values s)) :=
  Finding.withSnippet_message _ _

theorem standardMessage_render (v : TemplateValues) :
    (⟨standardMessage.toList⟩ : Template).render v =
      "'".toList ++ v.reread.matched ++ "' is not allowed".toList := by
  have hapart : (⟨standardMessage.toList⟩ : Template).SetApart := by decide +kernel
  have hpieces : (⟨standardMessage.toList⟩ : Template).pieces =
      .char '\'' :: .key .matched :: "' is not allowed".toList.map .char := by decide +kernel
  rw [Template.render_of_unmixed
    (Template.unmixed_of_chain (Template.read_readFrom 0 _) hapart), Template.substituted, hpieces]
  rfl

/-- The standard message shows what was matched, with the file and the line replaced in it. -/
theorem finding_standardMessage {r : SiteRule} (hr : r.message = ⟨standardMessage.toList⟩)
    (s : Site) : (r.finding s).message =
      "'" ++ String.ofList (r.values s).reread.matched ++ "' is not allowed" := by
  rw [finding_message, hr, standardMessage_render, String.ofList_append, String.ofList_append,
    String.ofList_toList, String.ofList_toList]

/-- The match reads as a placeholder. It is found and reported, and not shown. -/
theorem matched_placeholder_replaced :
    ∃ (p : Pattern) (r : SiteRule) (c : Corpus) (s : Site) (v : Finding),
      Pattern.compile "\\\x7bline\\\x7d" = .ok p ∧
        SitePlan.build { id := "R", name := "r", locator := some (.lines p) } = .ok r ∧
        c.files = [⟨"a.c", "int a[] = \x7bline\x7d;\n".toList⟩] ∧
        r.sites c Markers.standard = .ok [s] ∧ s.matched = "\x7bline\x7d".toList ∧
        r.findings c Markers.standard = .ok [v] ∧
        v.message = String.ofList (r.message.render (r.values s)) ∧
        v.message = "'1' is not allowed" ∧
        String.ofList (r.message.substituted (r.values s)) = "'\x7bline\x7d' is not allowed" := by
  let c : Corpus := ⟨[⟨"a.c", "int a[] = \x7bline\x7d;\n".toList⟩], []⟩
  have hrun : ((Pattern.compile "\\\x7bline\\\x7d").toOption.bind fun p =>
      (SitePlan.build { id := "R", name := "r", locator := some (.lines p) }).toOption.bind fun r =>
        (r.sites c Markers.standard).toOption.map fun sites =>
          ((r.findings c Markers.standard).toOption.map (·.map (·.message)),
            sites.map (·.matched),
            sites.map fun s => String.ofList (r.message.render (r.values s)),
            sites.map fun s => String.ofList (r.message.substituted (r.values s)))) =
      some (some ["'1' is not allowed"], ["\x7bline\x7d".toList], ["'1' is not allowed"],
        ["'\x7bline\x7d' is not allowed"]) := by decide +kernel
  obtain ⟨p, hp, hrun⟩ := Option.bind_eq_some_iff.mp hrun
  obtain ⟨r, hr, hrun⟩ := Option.bind_eq_some_iff.mp hrun
  obtain ⟨sites, hsites, hrun⟩ := Option.map_eq_some_iff.mp hrun
  simp only [Prod.mk.injEq] at hrun
  obtain ⟨hfindings, hmatched, hrendered, hsubstituted⟩ := hrun
  obtain ⟨vs, hvs, hmessages⟩ := Option.map_eq_some_iff.mp hfindings
  obtain ⟨s, rfl, hline⟩ := List.map_eq_singleton_iff.mp hmatched
  obtain ⟨v, rfl, hmessage⟩ := List.map_eq_singleton_iff.mp hmessages
  rw [List.map_singleton, List.singleton_inj] at hrendered hsubstituted
  exact ⟨p, r, c, s, v, ok_of_toOption hp, ok_of_toOption hr, rfl, ok_of_toOption hsites, hline,
    ok_of_toOption hvs, hmessage.trans hrendered.symm, hmessage, hsubstituted⟩

end SiteRule
end StructuralRules
