import StructuralRules.Proofs.Source.Members

/-!
# Cuts and indices that are checked

The functions that run give an empty answer where there is nothing to cut or to
look up. Here each cut, index and subtraction is checked, and what would stop an
evaluation is a fault. This module has the checked operations, masking, and the
lines of a file; each checked function gives what the one that runs gives.
-/

set_option autoImplicit false

namespace StructuralRules

/-- What stops an evaluation. -/
inductive Fault where
  /-- The text has no cut at the offset. -/
  | cut (text : Text) (offset : Nat)
  | index (i : Nat)
  | underflow
  | overflow
  /-- A loop that does not advance. -/
  | stuck
  deriving DecidableEq, Repr

namespace SourceFile

theorem numbered_eq_map (f : SourceFile) :
    f.numbered = (List.range' 1 f.lineCount).map fun n => (n, (f.line? n).getD []) := by
  apply List.ext_getElem
  · simp [numbered, lineCount]
  · intro i hi hi'
    have hlt : i < f.lines.length := by simpa [numbered] using hi
    have hline : f.line? (1 + i) = some f.lines[i] := by
      rw [Nat.add_comm]
      exact List.getElem?_eq_getElem hlt
    simp [numbered, hline]

theorem numbered_eq_filterMap (f : SourceFile) :
    f.numbered = (List.range' 1 f.lineCount).filterMap fun n => (f.line? n).map (n, ·) := by
  rw [numbered_eq_map, ← List.filterMap_eq_map]
  refine List.filterMap_congr fun n hn => ?_
  obtain ⟨hpos, hlt⟩ := List.mem_range'_1.mp hn
  obtain ⟨l, hl⟩ := HasLine.exists_line ⟨hpos, (by omega : n ≤ f.lineCount)⟩
  simp [hl]

theorem map_snd_numbered (f : SourceFile) : f.numbered.map (·.2) = f.lines := by
  rw [numbered, List.map_map]
  exact List.zipIdx_map_fst 1 f.lines

end SourceFile

namespace Checked

open Text

/-! ## Operations -/

def sliceFrom (t : Text) (a : Nat) : Except Fault Text :=
  match drop? t a with
  | some r => .ok r
  | none => .error (.cut t a)

def sliceTo (t : Text) (b : Nat) : Except Fault Text :=
  match take? t b with
  | some p => .ok p
  | none => .error (.cut t b)

def slice (t : Text) (a b : Nat) : Except Fault Text :=
  match slice? t a b with
  | some s => .ok s
  | none => .error (.cut t b)

def index {α : Type} (l : List α) (i : Nat) : Except Fault α :=
  match l[i]? with
  | some a => .ok a
  | none => .error (.index i)

def sub (a b : Nat) : Except Fault Nat :=
  if b ≤ a then .ok (a - b) else .error .underflow

/-- A sum of 64-bit numbers. -/
def add (a b : Nat) : Except Fault Nat :=
  if a + b < UInt64.size then .ok (a + b) else .error .overflow

theorem sliceFrom_eq_ok {t p r : Text} {a : Nat} (ht : t = p ++ r) (ha : a = byteLength p) :
    sliceFrom t a = .ok r := by
  rw [sliceFrom, ht, ha, drop?_append]

theorem sliceTo_eq_ok {t p r : Text} {b : Nat} (ht : t = p ++ r) (hb : b = byteLength p) :
    sliceTo t b = .ok p := by
  rw [sliceTo, ht, hb, take?_append]

theorem slice_eq_ok {t p s r : Text} {a b : Nat} (ht : t = p ++ (s ++ r))
    (ha : a = byteLength p) (hb : b = byteLength p + byteLength s) : slice t a b = .ok s := by
  rw [slice, ht, ha, hb, slice?_append]

theorem index_eq_ok {α : Type} {l : List α} {i : Nat} {a : α} (h : l[i]? = some a) :
    index l i = .ok a := by
  rw [index, h]

theorem sub_eq_ok {a b : Nat} (h : b ≤ a) : sub a b = .ok (a - b) :=
  if_pos h

theorem mapM_index_range {α : Type} {l : List α} {n : Nat} (h : n ≤ l.length) :
    (List.range n).mapM (index l) = .ok (l.take n) := by
  rw [mapM_eq_ok, List.forall₂_iff_get]
  have hlen : (List.range n).length = (l.take n).length := by
    rw [List.length_range, List.length_take]
    omega
  refine ⟨hlen, ?_⟩
  intro i hi hi'
  simp only [List.get_eq_getElem, List.getElem_range, List.getElem_take]
  exact index_eq_ok (List.getElem?_eq_getElem _)

/-- Offset of the last character that satisfies `p`. -/
def lastOffset? (p : Char → Bool) : Text → Option Nat
  | [] => none
  | c :: t =>
      match lastOffset? p t with
      | some i => some (c.utf8Size + i)
      | none => if p c then some 0 else none

theorem lastOffset?_eq_none {p : Char → Bool} {t : Text} (h : ∀ x ∈ t, p x = false) :
    lastOffset? p t = none := by
  induction t with
  | nil => rfl
  | cons c t ih =>
    rw [lastOffset?, ih fun x hx => h x (List.mem_cons_of_mem c hx), h c List.mem_cons_self]
    rfl

theorem lastOffset?_append {p : Char → Bool} {u v : Text} {c : Char} (hc : p c = true)
    (hv : ∀ x ∈ v, p x = false) : lastOffset? p (u ++ c :: v) = some (byteLength u) := by
  induction u with
  | nil => rw [List.nil_append, lastOffset?, lastOffset?_eq_none hv, if_pos hc, byteLength_nil]
  | cons d u ih => rw [List.cons_append, lastOffset?, ih, byteLength_cons]

/-! ## Masking -/

/-- Masks the bytes behind a place in state `s`; each byte of a token is looked up. -/
def maskFrom (s : ByteLex) : Bytes → Except Fault Bytes
  | [] => .ok []
  | b :: bs =>
      if b = '\n'.toUInt8 then do return b :: (← maskFrom s.afterNewline bs)
      else
        let next := s.step b bs.head?
        do
          let token ← (List.range next.2).mapM (index (b :: bs))
          let rest ← maskFrom next.1 ((b :: bs).drop next.2)
          return token.map
            (fun x => if s.keeps next.1 || x == '\n'.toUInt8 then x else ' '.toUInt8) ++ rest
termination_by bs => bs.length
decreasing_by
  · simp
  · have h := ByteLex.step_pos s b bs.head?
    simp only [List.length_drop, List.length_cons]
    omega

/-- The masked text. Bytes that are no text would be replaced. -/
def masked (t : Text) : Except Fault Text := do
  return (← maskFrom .code t.toBytes).toText?.getD []

theorem maskFrom_eq (s : ByteLex) (bs : Bytes) : maskFrom s bs = .ok (s.maskFrom bs) := by
  fun_induction maskFrom s bs with
  | case1 => rw [ByteLex.maskFrom]
  | case2 s bs ih =>
    rw [ByteLex.maskFrom_newline, ih]
    rfl
  | case3 s b bs hb next ih =>
    have htakes : next.2 ≤ (b :: bs).length := by
      rcases ByteLex.step_takes s b bs.head? with h | ⟨h, hahead⟩
      · simp only [next, h, List.length_cons]
        omega
      · cases bs with
        | nil => cases hahead
        | cons b' bs =>
          simp only [next, h, List.length_cons]
          omega
    rw [mapM_index_range htakes, ok_bind, ih, ok_bind, ByteLex.maskFrom, if_neg hb]
    rfl

@[simp] theorem masked_eq (t : Text) : masked t = .ok t.masked := by
  have hmask : ByteLex.maskFrom .code t.toBytes = t.masked.toBytes := ByteLex.mask_toBytes t
  rw [masked, maskFrom_eq, hmask, ok_bind, Bytes.toText?_toBytes]
  rfl

/-! ## Lines -/

def lineCount (f : SourceFile) : Nat :=
  if f.text = [] then 0 else (lineStarts f.text).length

/-- Line `n`, cut out between two line starts. -/
def line (f : SourceFile) (n : Nat) : Except Fault (Option Text) :=
  if n = 0 ∨ lineCount f < n then .ok none
  else do
    let start ← index (lineStarts f.text) (← sub n 1)
    let stop ← match (lineStarts f.text)[n]? with
      | some next => sub next 1
      | none => .ok (byteLength f.text)
    let cut ← slice f.text start stop
    return some ((cut.rdropWhile (· == '\n')).rdropWhile (· == '\r'))

/-- The lines with their numbers. -/
def numbered (f : SourceFile) : Except Fault (List (Nat × Text)) := do
  let lines ← (List.range' 1 (lineCount f)).mapM fun n => do return (← line f n).map (n, ·)
  return lines.filterMap id

def classes (f : SourceFile) (ms : Markers) : Except Fault (List LineClass) := do
  return ms.classifyLines ((← numbered f).map (·.2))

def maskedFile (f : SourceFile) : Except Fault SourceFile := do
  return { f with text := ← masked f.text }

@[simp] theorem lineCount_eq (f : SourceFile) : lineCount f = f.lineCount := by
  have hpieces : f.lineCount = (pieces f.text).length := List.length_map _
  rw [lineCount, hpieces]
  split_ifs with h
  · rw [h]
    rfl
  · exact length_lineStarts h

theorem rdropWhile_newline {l : Text} (hl : '\n' ∉ l) : l.rdropWhile (· == '\n') = l := by
  rw [List.rdropWhile_eq_self_iff]
  intro hne hlast
  exact hl (beq_iff_eq.mp hlast ▸ List.getLast_mem hne)

@[simp] theorem line_eq (f : SourceFile) (n : Nat) : line f n = .ok (f.line? n) := by
  have hcount : f.lineCount = (pieces f.text).length := List.length_map _
  rw [line, lineCount_eq]
  split_ifs with hrange
  · cases n with
    | zero => rfl
    | succ k =>
      have hout : f.lines.length ≤ k := by
        have hle : f.lines.length = f.lineCount := rfl
        omega
      rw [SourceFile.line?, List.getElem?_eq_none hout]
  · obtain ⟨k, rfl⟩ : ∃ k, n = k + 1 := ⟨n - 1, by omega⟩
    have hk : k < (pieces f.text).length := by omega
    have hne : f.text ≠ [] := by
      intro h
      rw [h] at hk
      cases hk
    obtain ⟨l, hl⟩ : ∃ l, (pieces f.text)[k]? = some l := ⟨_, List.getElem?_eq_getElem hk⟩
    have hfree := newline_not_mem_of_mem_pieces (List.mem_of_getElem? hl)
    have hline : f.line? (k + 1) = some (dropReturns l) := by
      rw [SourceFile.line?, SourceFile.lines, Text.lines, List.getElem?_map, hl, Option.map_some]
    rw [sub_eq_ok (by omega), ok_bind, Nat.add_sub_cancel, index_eq_ok (lineStarts_getElem? hk),
      ok_bind, hline, dropReturns_eq_rdropWhile]
    by_cases hnext : k + 1 < (pieces f.text).length
    · -- The next line starts one byte behind this one.
      obtain ⟨r, ht, -⟩ := pieces_split hl
      have hstep := byteLength_ended_take_succ hl
      rw [lineStarts_getElem? hnext]
      dsimp only
      rw [sub_eq_ok (by omega), ok_bind, slice_eq_ok ht rfl (by omega), ok_bind,
        rdropWhile_newline hfree]
      rfl
    · -- The last line goes to the end of the text.
      obtain ⟨r, ht, hr⟩ := pieces_split_last hl (by omega)
      have hend : byteLength f.text =
          byteLength (ended ((pieces f.text).take k)) + byteLength (l ++ r) := by
        rw [← byteLength_append, ← ht]
      have hcut : (l ++ r).rdropWhile (· == '\n') = l := by
        rcases hr with rfl | rfl
        · rw [List.append_nil, rdropWhile_newline hfree]
        · rw [List.rdropWhile_concat_pos _ _ _ (by rfl), rdropWhile_newline hfree]
      have ht' : f.text = ended ((pieces f.text).take k) ++ ((l ++ r) ++ []) := by
        rw [List.append_nil, ← ht]
      rw [List.getElem?_eq_none (by rw [length_lineStarts hne]; omega)]
      dsimp only
      rw [ok_bind, slice_eq_ok ht' rfl hend, ok_bind, hcut]
      rfl

@[simp] theorem numbered_eq (f : SourceFile) : numbered f = .ok f.numbered := by
  have hlines : (List.range' 1 (lineCount f)).mapM
      (fun n => do return (← line f n).map (n, ·)) =
      .ok ((List.range' 1 (lineCount f)).map fun n => (f.line? n).map (n, ·)) := by
    refine mapM_eq_ok_map fun n _ => ?_
    rw [line_eq]
    rfl
  rw [numbered, hlines, ok_bind, lineCount_eq, List.filterMap_map, Function.id_comp,
    SourceFile.numbered_eq_filterMap]
  rfl

@[simp] theorem classes_eq (f : SourceFile) (ms : Markers) :
    classes f ms = .ok (f.classes ms) := by
  rw [classes, numbered_eq, ok_bind, SourceFile.map_snd_numbered]
  rfl

@[simp] theorem maskedFile_eq (f : SourceFile) : maskedFile f = .ok f.masked := by
  rw [maskedFile, masked_eq]
  rfl

end Checked
end StructuralRules
