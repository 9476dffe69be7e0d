import Mathlib.Data.List.Basic
import StructuralRules.CommandLine.Run

/-!
# Colours in a report

A coloured report is the plain one with colour sequences in it: an escape, a
bracket, digits and the letter m. Where nothing that is reported has an escape of
its own, taking the sequences out again gives the plain report, digits beside
them included.
-/

set_option autoImplicit false

namespace StructuralRules

/-! ## Taking colours out -/

namespace Text

/-- What stands behind the colour sequence at the front of a text, if there is one. -/
def afterColour? : Text → Option Text
  | '\x1b' :: '[' :: t =>
      match t.takeWhile Char.isDigit, t.dropWhile Char.isDigit with
      | _ :: _, 'm' :: rest => some rest
      | _, _ => none
  | _ => none

theorem length_afterColour? {t rest : Text} (h : afterColour? t = some rest) :
    rest.length < t.length := by
  unfold afterColour? at h
  split at h
  · next t =>
    split at h
    · next hbehind =>
      obtain rfl := Option.some.inj h
      have hle := (List.dropWhile_suffix Char.isDigit (l := t)).length_le
      rw [hbehind, List.length_cons] at hle
      simp only [List.length_cons]
      omega
    · cases h
  · cases h

/-- The text without its colour sequences. -/
def uncoloured (t : Text) : Text :=
  match h : afterColour? t with
  | some rest =>
      have := length_afterColour? h
      uncoloured rest
  | none =>
      match t with
      | [] => []
      | c :: t => c :: uncoloured t
termination_by t.length

variable {s t rest : Text} {c : Char}

theorem uncoloured_of_afterColour? (h : afterColour? t = some rest) :
    uncoloured t = uncoloured rest := by
  rw [uncoloured]
  split
  · next h' =>
    obtain rfl := Option.some.inj (h'.symm.trans h)
    rfl
  · next h' =>
    rw [h] at h'
    cases h'

theorem uncoloured_nil : uncoloured [] = [] := by
  rw [uncoloured]
  rfl

theorem uncoloured_cons (hc : c ≠ '\x1b') : uncoloured (c :: t) = c :: uncoloured t := by
  have hnone : afterColour? (c :: t) = none := by
    unfold afterColour?
    split
    · next heq => exact absurd (List.cons.inj heq).1 hc
    · rfl
  rw [uncoloured]
  split
  · next h =>
    rw [hnone] at h
    cases h
  · rfl

/-- What has no escape stays as it is. -/
theorem uncoloured_append (hs : '\x1b' ∉ s) : uncoloured (s ++ t) = s ++ uncoloured t := by
  induction s with
  | nil => rfl
  | cons c s ih =>
    rw [List.mem_cons, not_or] at hs
    rw [List.cons_append, uncoloured_cons (Ne.symm hs.1), ih hs.2]
    rfl

/-- A colour sequence is taken out whole: no digit behind it belongs to it. -/
theorem uncoloured_escape {code : Text} (hcode : code ≠ [])
    (hall : code.all Char.isDigit = true) :
    uncoloured (Colour.escape ++ code ++ ['m'] ++ t) = uncoloured t := by
  apply uncoloured_of_afterColour?
  have hdigits := List.all_eq_true.mp hall
  have htake : (code ++ 'm' :: t).takeWhile Char.isDigit = code := by
    rw [List.takeWhile_append_of_pos hdigits, List.takeWhile_cons]
    simp
  have hdrop : (code ++ 'm' :: t).dropWhile Char.isDigit = 'm' :: t := by
    rw [List.dropWhile_append_of_pos hdigits, List.dropWhile_cons]
    simp
  have hcut : Colour.escape ++ code ++ ['m'] ++ t = '\x1b' :: '[' :: (code ++ 'm' :: t) := by
    simp [Colour.escape]
  obtain ⟨d, ds, rfl⟩ := List.exists_cons_of_ne_nil hcode
  rw [hcut, afterColour?, htake, hdrop]
  rfl

end Text

namespace Colour

theorem uncoloured_start (c : Colour) (t : Text) :
    Text.uncoloured (c.start ++ t) = Text.uncoloured t := by
  refine Text.uncoloured_escape ?_ ?_
  · cases c <;> decide
  · cases c <;> decide

theorem uncoloured_reset (t : Text) : Text.uncoloured (reset ++ t) = Text.uncoloured t := by
  have hcode : ['0'] ≠ [] := by decide
  exact Text.uncoloured_escape hcode (by decide)

end Colour

/-! ## Pieces without an escape -/

/-- No character of the text is an escape. -/
def Unescaped (t : Text) : Prop :=
  '\x1b' ∉ t

instance (t : Text) : Decidable (Unescaped t) :=
  inferInstanceAs (Decidable ('\x1b' ∉ t))

namespace Ink

variable {i : Ink} {is : List Ink}

/-- A piece loses its colour and keeps its text. -/
theorem uncoloured_render (h : Unescaped i.text) (t : Text) :
    Text.uncoloured (i.render true ++ t) = i.render false ++ Text.uncoloured t := by
  obtain ⟨colour, text⟩ := i
  cases colour with
  | none => exact Text.uncoloured_append h
  | some c =>
    show Text.uncoloured (c.start ++ text ++ Colour.reset ++ t) = text ++ Text.uncoloured t
    rw [List.append_assoc, List.append_assoc, c.uncoloured_start, Text.uncoloured_append h,
      Colour.uncoloured_reset]

theorem uncoloured_renders (h : ∀ i ∈ is, Unescaped i.text) :
    Text.uncoloured (is.flatMap (·.render true)) = is.flatMap (·.render false) := by
  induction is with
  | nil => exact Text.uncoloured_nil
  | cons i is ih =>
    rw [List.forall_mem_cons] at h
    rw [List.flatMap_cons, List.flatMap_cons, uncoloured_render h.1, ih h.2]

theorem render_false (i : Ink) : i.render false = i.text := by
  obtain ⟨colour, text⟩ := i
  cases colour <;> rfl

theorem unescaped_renders (h : ∀ i ∈ is, Unescaped i.text) :
    Unescaped (is.flatMap (·.render false)) := by
  intro hmem
  obtain ⟨i, hi, hmem⟩ := List.mem_flatMap.mp hmem
  rw [render_false] at hmem
  exact h i hi hmem

end Ink

/-! ## What a report shows -/

theorem unescaped_append {a b : String} :
    Unescaped (a ++ b).toList ↔ Unescaped a.toList ∧ Unescaped b.toList := by
  simp [Unescaped]

theorem unescaped_toString (n : Nat) : Unescaped (toString n).toList := by
  intro hmem
  rw [Nat.toString_eq_repr, Nat.toList_repr] at hmem
  have hdigit := Nat.isDigit_of_mem_toDigits (by decide) (by decide) hmem
  cases hdigit

namespace Finding

/-- All strings of a finding. -/
def strings (f : Finding) : List String :=
  [f.path, f.ruleId, f.message] ++ f.check.toList ++ f.fix.toList ++ f.snippet.toList

variable {f : Finding}

theorem unescaped_location (h : Unescaped f.path.toList) : Unescaped f.location.toList := by
  unfold location
  split
  · exact unescaped_append.mpr ⟨unescaped_append.mpr ⟨h, by decide⟩, unescaped_toString _⟩
  · exact h

theorem unescaped_tag (hid : Unescaped f.ruleId.toList)
    (hcheck : ∀ s ∈ f.check, Unescaped s.toList) : Unescaped f.tag.toList := by
  unfold tag
  split
  · next check heq =>
    exact unescaped_append.mpr ⟨unescaped_append.mpr ⟨hid, by decide⟩, hcheck check heq⟩
  · exact hid

theorem unescaped_inks (h : ∀ s ∈ f.strings, Unescaped s.toList) :
    ∀ i ∈ f.inks, Unescaped i.text := by
  simp only [strings, List.forall_mem_append, List.forall_mem_cons, List.not_mem_nil,
    Option.mem_toList] at h
  obtain ⟨⟨⟨⟨hpath, hid, hmessage, -⟩, hcheck⟩, hfix⟩, hsnippet⟩ := h
  have hlocation := unescaped_location hpath
  have htag := unescaped_tag hid hcheck
  simp only [inks, List.forall_mem_append, List.forall_mem_cons, Ink.plain, unescaped_append]
  refine ⟨⟨⟨?_, ?_, ?_, nofun⟩, ?_⟩, ?_⟩
  · exact ⟨⟨⟨⟨by decide, hlocation⟩, by decide⟩, htag⟩, by decide⟩
  · cases f.severity <;> decide
  · exact ⟨⟨by decide, hmessage⟩, by decide⟩
  · split
    · next snippet heq =>
      simp only [List.forall_mem_cons, Ink.paint]
      exact ⟨by decide, hsnippet snippet heq, by decide, nofun⟩
    · nofun
  · split
    · next fix heq =>
      simp only [List.forall_mem_singleton, unescaped_append]
      exact ⟨⟨by decide, hfix fix heq⟩, by decide⟩
    · nofun

end Finding

theorem unescaped_flatMap_inks {fs : List Finding}
    (h : ∀ s ∈ fs.flatMap (·.strings), Unescaped s.toList) :
    ∀ i ∈ fs.flatMap (·.inks), Unescaped i.text := by
  intro i hi
  obtain ⟨f, hf, hi⟩ := List.mem_flatMap.mp hi
  exact f.unescaped_inks (fun s hs => h s (List.mem_flatMap.mpr ⟨f, hf, hs⟩)) i hi

namespace Outcome

/-- All strings of an outcome. -/
def strings : Outcome → List String
  | .crashed error => [error]
  | .passed fs | .failed fs => fs.flatMap (·.strings)

theorem unescaped_label (o : Outcome) : Unescaped o.label.text := by
  cases o with
  | passed fs => exact (by decide : Unescaped "PASS".toList)
  | failed fs => exact (by decide : Unescaped "FAIL".toList)
  | crashed error => exact (by decide : Unescaped "CRASH".toList)

theorem unescaped_inks {o : Outcome} (h : ∀ s ∈ o.strings, Unescaped s.toList) :
    ∀ i ∈ o.inks, Unescaped i.text := by
  cases o with
  | passed fs => exact unescaped_flatMap_inks h
  | failed fs => exact unescaped_flatMap_inks h
  | crashed error =>
    simp only [inks, List.forall_mem_singleton, Ink.plain, unescaped_append]
    exact ⟨⟨by decide, h error List.mem_cons_self⟩, by decide⟩

end Outcome

namespace RuleReport

/-- All strings of a report, the description included. -/
def strings (r : RuleReport) : List String :=
  [r.ruleId, r.name] ++ r.description.toList ++ r.outcome.strings

theorem unescaped_inks {r : RuleReport} (h : ∀ s ∈ r.strings, Unescaped s.toList) :
    ∀ i ∈ r.inks, Unescaped i.text := by
  simp only [strings, List.forall_mem_append, List.forall_mem_cons] at h
  obtain ⟨⟨⟨hid, hname, -⟩, -⟩, houtcome⟩ := h
  simp only [inks, List.forall_mem_append, List.forall_mem_cons, Ink.plain, unescaped_append]
  exact ⟨⟨r.outcome.unescaped_label, ⟨⟨⟨⟨by decide, hid⟩, by decide⟩, hname⟩, by decide⟩, nofun⟩,
    Outcome.unescaped_inks houtcome⟩

end RuleReport

theorem Summary.unescaped_inks (s : Summary) : ∀ i ∈ s.inks, Unescaped i.text := by
  simp only [inks, List.forall_mem_cons, Ink.plain, Ink.paint, unescaped_append]
  exact ⟨⟨⟨by decide, unescaped_toString _⟩, by decide⟩, unescaped_toString _, by decide,
    unescaped_toString _, by decide, unescaped_toString _, by decide, nofun⟩

namespace Verdict

/-- All strings of a verdict. -/
def strings (v : Verdict) : List String :=
  v.loadWarnings.flatMap (·.strings) ++ v.reports.flatMap (·.strings)

theorem unescaped_inks {v : Verdict} (h : ∀ s ∈ v.strings, Unescaped s.toList) :
    ∀ i ∈ v.inks, Unescaped i.text := by
  rw [strings, List.forall_mem_append] at h
  obtain ⟨hwarnings, hreports⟩ := h
  simp only [inks, List.forall_mem_append]
  refine ⟨⟨⟨?_, ?_⟩, ?_⟩, v.summary.unescaped_inks⟩
  · split_ifs
    · nofun
    · simp only [List.forall_mem_append]
      exact ⟨⟨by decide, unescaped_flatMap_inks hwarnings⟩, by decide⟩
  · intro i hi
    obtain ⟨r, hr, hi⟩ := List.mem_flatMap.mp hi
    exact r.unescaped_inks (fun s hs => hreports s (List.mem_flatMap.mpr ⟨r, hr, hs⟩)) i hi
  · split_ifs
    · nofun
    · decide

/-- **Colours only present.** When no string of a verdict has an escape, the report with colours is
the report without them once its colour sequences are taken out, and the report without them has no
escape at all. -/
theorem colours_only_present (v : Verdict) (h : ∀ s ∈ v.strings, Unescaped s.toList)
    (w : World) :
    Text.uncoloured (v.console (w.usesColours .always)).toList =
        (v.console (w.usesColours .never)).toList ∧
      Unescaped (v.console (w.usesColours .never)).toList := by
  have hinks := unescaped_inks h
  simp only [console, World.usesColours, String.toList_ofList]
  exact ⟨Ink.uncoloured_renders hinks, Ink.unescaped_renders hinks⟩

/-- Codes and counts are digits side by side, and a snippet may look like a sequence. -/
theorem colours_present_digits :
    ∃ v : Verdict, (∀ s ∈ v.strings, Unescaped s.toList) ∧
      ¬ Unescaped (v.console true).toList ∧
      Text.uncoloured (v.console true).toList = (v.console false).toList := by
  let warning : Finding := .loadWarning "b.c" "cannot read file"
  let v : Finding :=
    { path := "a.c", line := some 31, severity := .fail, ruleId := "R", check := some "31m"
      message := "[0m", fix := some "0m", snippet := some "[31m0m" }
  let verdict : Verdict :=
    ⟨[⟨"R", "1m", none, .ofFindings [v, v]⟩, ⟨"S", "2", some "m", .crashed "[2m"⟩], [warning]⟩
  have hstrings : ∀ s ∈ verdict.strings, Unescaped s.toList := by decide +kernel
  have hinks : ∃ rest, verdict.inks = .paint .yellow "Load warnings" :: rest := ⟨_, rfl⟩
  obtain ⟨rest, hinks⟩ := hinks
  refine ⟨verdict, hstrings, fun h => ?_,
    (colours_only_present verdict hstrings ⟨⟨.dir [], []⟩, none, false⟩).1⟩
  rw [console, String.toList_ofList, hinks] at h
  exact h (List.mem_flatMap.mpr ⟨_, List.mem_cons_self, by decide⟩)

end Verdict
end StructuralRules
