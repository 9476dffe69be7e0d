import StructuralRules.Proofs.Text.Cut
import StructuralRules.Text.Utf8

/-!
# The bytes of a text

A character of one byte is that byte. Every byte of a longer character is 128 or
more, so no byte of it can be taken for an ASCII character. Reading the bytes of
a text gives the text back.
-/

set_option autoImplicit false

namespace StructuralRules.Text

@[simp] theorem toBytes_nil : toBytes [] = [] := rfl

@[simp] theorem toBytes_cons (c : Char) (t : Text) :
    toBytes (c :: t) = String.utf8EncodeChar c ++ toBytes t := rfl

@[simp] theorem toBytes_append (s t : Text) : toBytes (s ++ t) = toBytes s ++ toBytes t := by
  simp [toBytes]

@[simp] theorem length_toBytes (t : Text) : (toBytes t).length = byteLength t := by
  induction t with
  | nil => rfl
  | cons c t ih => simp [ih]

/-! ## One character -/

theorem utf8Size_eq_one {c : Char} : c.utf8Size = 1 ↔ c.toNat < 128 := by
  rw [Char.utf8Size_eq_one_iff, UInt32.le_iff_toNat_le]
  exact Nat.lt_succ_iff.symm

theorem encode_of_ascii {c : Char} (h : c.toNat < 128) :
    String.utf8EncodeChar c = [c.toUInt8] := by
  rw [String.utf8EncodeChar_eq_singleton (utf8Size_eq_one.mpr h)]
  rfl

theorem toNat_toUInt8 {c : Char} (h : c.toNat < 128) : c.toUInt8.toNat = c.toNat := by
  change c.toNat % 256 = c.toNat
  omega

theorem toUInt8_inj {c d : Char} (hc : c.toNat < 128) (hd : d.toNat < 128) :
    c.toUInt8 = d.toUInt8 ↔ c = d := by
  rw [← UInt8.toNat_inj, toNat_toUInt8 hc, toNat_toUInt8 hd, Char.toNat_inj]

theorem le_of_mem_encode {c : Char} (h : ¬ c.toNat < 128) {b : UInt8}
    (hb : b ∈ String.utf8EncodeChar c) : 128 ≤ b.toNat := by
  have hle : ¬ c.val.toNat ≤ 127 := fun h' => h (Nat.lt_succ_of_le h')
  simp only [String.utf8EncodeChar, hle, if_false] at hb
  split at hb
  case isTrue =>
    simp only [List.mem_cons, List.not_mem_nil, or_false] at hb
    rcases hb with rfl | rfl <;> rw [UInt8.toNat_ofNat'] <;> omega
  case isFalse =>
    split at hb <;> simp only [List.mem_cons, List.not_mem_nil, or_false] at hb
    case isTrue => rcases hb with rfl | rfl | rfl <;> rw [UInt8.toNat_ofNat'] <;> omega
    case isFalse => rcases hb with rfl | rfl | rfl | rfl <;> rw [UInt8.toNat_ofNat'] <;> omega

/-- An ASCII byte of a character is the whole character. -/
theorem encode_eq_of_mem {c : Char} {b : UInt8} (hb : b ∈ String.utf8EncodeChar c)
    (hlt : b.toNat < 128) : c.toNat < 128 ∧ b = c.toUInt8 := by
  by_cases h : c.toNat < 128
  · rw [encode_of_ascii h, List.mem_singleton] at hb
    exact ⟨h, hb⟩
  · have hge := le_of_mem_encode h hb
    omega

/-- The first byte of a text is an ASCII character just when its first character is. -/
theorem head?_toBytes {t : Text} {a : Char} (ha : a.toNat < 128) :
    t.toBytes.head? = some a.toUInt8 ↔ t.head? = some a := by
  cases t with
  | nil => simp
  | cons c t =>
    rw [toBytes_cons, List.head?_cons, Option.some_inj]
    by_cases hc : c.toNat < 128
    · rw [encode_of_ascii hc, List.singleton_append, List.head?_cons, Option.some_inj,
        toUInt8_inj hc ha]
    · constructor
      · intro h
        have hmem : a.toUInt8 ∈ String.utf8EncodeChar c := by
          cases he : String.utf8EncodeChar c with
          | nil => exact absurd he String.utf8EncodeChar_ne_nil
          | cons b bs =>
            rw [he, List.cons_append, List.head?_cons, Option.some_inj] at h
            simp [h]
        have hge := le_of_mem_encode hc hmem
        rw [toNat_toUInt8 ha] at hge
        omega
      · rintro rfl
        exact absurd ha hc

theorem toBytes_eq_nil {t : Text} : t.toBytes = [] ↔ t = [] := by
  rw [← List.length_eq_zero_iff, length_toBytes, byteLength_eq_zero]

end StructuralRules.Text

namespace StructuralRules.Bytes

/-! ## Reading characters -/

theorem charsFrom_ascii {b : UInt8} (h : b.toNat < 128) (bs : Bytes) :
    charsFrom none (b :: bs) = some (Char.ofNat b.toNat) :: charsFrom none bs := by
  simp [charsFrom, h]

theorem charsFrom_start {b : UInt8} {s : Started} (h : ¬ b.toNat < 128)
    (hs : start? b.toNat = some s) (bs : Bytes) :
    charsFrom none (b :: bs) = charsFrom (some s) bs := by
  simp [charsFrom, h, hs]

theorem charsFrom_more {b : UInt8} {bits lo hi : Nat} {next : Nat × Nat}
    {ranges : List (Nat × Nat)} (hlo : lo ≤ b.toNat) (hhi : b.toNat ≤ hi) (bs : Bytes) :
    charsFrom (some ⟨bits, (lo, hi) :: next :: ranges⟩) (b :: bs) =
      charsFrom (some ⟨bits * 64 + b.toNat % 64, next :: ranges⟩) bs := by
  simp [charsFrom, hlo, hhi]

theorem charsFrom_last {b : UInt8} {bits lo hi : Nat} (hlo : lo ≤ b.toNat)
    (hhi : b.toNat ≤ hi) (bs : Bytes) :
    charsFrom (some ⟨bits, [(lo, hi)]⟩) (b :: bs) =
      some (Char.ofNat (bits * 64 + b.toNat % 64)) :: charsFrom none bs := by
  simp [charsFrom, hlo, hhi]

/-- The bits and the allowed second bytes of a character of three bytes. -/
theorem start?_three {b : Nat} (h : 0xE0 ≤ b ∧ b ≤ 0xEF) :
    start? b = some ⟨b - 0xE0, [(if b = 0xE0 then 0xA0 else 0x80,
      if b = 0xED then 0x9F else 0xBF), (0x80, 0xBF)]⟩ := by
  have h2 : ¬ (0xC2 ≤ b ∧ b ≤ 0xDF) := by omega
  by_cases he0 : b = 0xE0
  · subst he0; rfl
  by_cases hed : b = 0xED
  · subst hed; rfl
  have h3 : 0xE1 ≤ b ∧ b ≤ 0xEF := by omega
  simp [start?, h2, he0, hed, h3]

/-- The bits and the allowed second bytes of a character of four bytes. -/
theorem start?_four {b : Nat} (h : 0xF0 ≤ b ∧ b ≤ 0xF4) :
    start? b = some ⟨b - 0xF0, [(if b = 0xF0 then 0x90 else 0x80,
      if b = 0xF4 then 0x8F else 0xBF), (0x80, 0xBF), (0x80, 0xBF)]⟩ := by
  obtain rfl | rfl | rfl | rfl | rfl :
      b = 0xF0 ∨ b = 0xF1 ∨ b = 0xF2 ∨ b = 0xF3 ∨ b = 0xF4 := by omega
  all_goals rfl

/-- A character's code point is no surrogate and within the range of Unicode. -/
theorem toNat_valid (c : Char) : c.toNat < 0xD800 ∨ 0xDFFF < c.toNat ∧ c.toNat < 0x110000 :=
  c.valid

theorem charsFrom_encode (c : Char) (bs : Bytes) :
    charsFrom none (String.utf8EncodeChar c ++ bs) = some c :: charsFrom none bs := by
  have hv := toNat_valid c
  have hc : Char.ofNat c.toNat = c := Char.ofNat_toNat c
  have hn : c.val.toNat = c.toNat := rfl
  have byte : ∀ n, n < 256 → (UInt8.ofNat n).toNat = n := by
    intro n h
    rw [UInt8.toNat_ofNat']
    omega
  generalize c.toNat = n at hv hc hn
  subst hc
  by_cases h1 : n ≤ 0x7f
  · simp only [String.utf8EncodeChar, hn, h1, if_true, List.cons_append, List.nil_append]
    rw [charsFrom_ascii (by rw [byte _ (by omega)]; omega), byte _ (by omega)]
  by_cases h2 : n ≤ 0x7ff
  · simp only [String.utf8EncodeChar, hn, h1, h2, if_true, if_false, List.cons_append,
      List.nil_append]
    have hb1 := byte (n / 64 % 0x20 + 0xc0) (by omega)
    have hb2 := byte (n % 0x40 + 0x80) (by omega)
    have hs : start? (n / 64 % 0x20 + 0xc0) =
        some ⟨n / 64 % 0x20 + 0xc0 - 0xC0, [(0x80, 0xBF)]⟩ := by
      have hr : 0xC2 ≤ n / 64 % 0x20 + 0xc0 ∧ n / 64 % 0x20 + 0xc0 ≤ 0xDF := by omega
      simp [start?, hr]
    rw [charsFrom_start (by rw [hb1]; omega) (by rw [hb1]; exact hs),
      charsFrom_last (by rw [hb2]; omega) (by rw [hb2]; omega), hb2]
    congr 3
    omega
  by_cases h3 : n ≤ 0xffff
  · simp only [String.utf8EncodeChar, hn, h1, h2, h3, if_true, if_false, List.cons_append,
      List.nil_append]
    have hb1 := byte (n / 4096 % 0x10 + 0xe0) (by omega)
    have hb2 := byte (n / 64 % 0x40 + 0x80) (by omega)
    have hb3 := byte (n % 0x40 + 0x80) (by omega)
    rw [charsFrom_start (by rw [hb1]; omega) (by rw [hb1]; exact start?_three (by omega)),
      charsFrom_more (by rw [hb2]; split <;> omega) (by rw [hb2]; split <;> omega),
      charsFrom_last (by rw [hb3]; omega) (by rw [hb3]; omega), hb2, hb3]
    congr 3
    omega
  · simp only [String.utf8EncodeChar, hn, h1, h2, h3, if_false, List.cons_append,
      List.nil_append]
    have hb1 := byte (n / 262144 % 0x08 + 0xf0) (by omega)
    have hb2 := byte (n / 4096 % 0x40 + 0x80) (by omega)
    have hb3 := byte (n / 64 % 0x40 + 0x80) (by omega)
    have hb4 := byte (n % 0x40 + 0x80) (by omega)
    rw [charsFrom_start (by rw [hb1]; omega) (by rw [hb1]; exact start?_four (by omega)),
      charsFrom_more (by rw [hb2]; split <;> omega) (by rw [hb2]; split <;> omega),
      charsFrom_more (by rw [hb3]; omega) (by rw [hb3]; omega),
      charsFrom_last (by rw [hb4]; omega) (by rw [hb4]; omega), hb2, hb3, hb4]
    congr 3
    omega

theorem charsFrom_toBytes (t : Text) : charsFrom none t.toBytes = t.map some := by
  induction t with
  | nil => rfl
  | cons c t ih => rw [Text.toBytes_cons, charsFrom_encode, ih, List.map_cons]

/-- The bytes of a text are text, and they are that text. -/
theorem toText?_toBytes (t : Text) : toText? t.toBytes = some t := by
  rw [toText?, charsFrom_toBytes, List.mapM_map]
  induction t with
  | nil => rfl
  | cons c t ih => simp [List.mapM_cons, ih]

end StructuralRules.Bytes

namespace StructuralRules.Text

/-! ## Cutting bytes -/

/-- Different texts have different bytes. -/
theorem toBytes_injective : Function.Injective toBytes := by
  intro s t h
  have hread := Bytes.toText?_toBytes s
  rw [h, Bytes.toText?_toBytes] at hread
  exact (Option.some.inj hread).symm

/-- Bytes that start with the bytes of a text are cut behind them. -/
theorem exists_append_of_toBytes {t p : Text} {bs : Bytes} (h : t.toBytes = p.toBytes ++ bs) :
    ∃ r, t = p ++ r ∧ r.toBytes = bs := by
  induction p generalizing t with
  | nil => exact ⟨t, rfl, h⟩
  | cons c p ih =>
    have hread : t.map some = some c :: Bytes.charsFrom none (toBytes p ++ bs) := by
      rw [← Bytes.charsFrom_toBytes, h, toBytes_cons, List.append_assoc, Bytes.charsFrom_encode]
    cases t with
    | nil => cases hread
    | cons d t =>
      obtain rfl : d = c := Option.some.inj (List.cons.inj hread).1
      rw [toBytes_cons, toBytes_cons, List.append_assoc] at h
      obtain ⟨r, rfl, hr⟩ := ih (List.append_cancel_left h)
      exact ⟨r, rfl, hr⟩

/-- The bytes of a text are cut before an ASCII character. -/
theorem exists_append_of_ascii {t : Text} {bs rest : Bytes} {a : Char} (ha : a.toNat < 128)
    (h : t.toBytes = bs ++ a.toUInt8 :: rest) :
    ∃ p r : Text, t = p ++ a :: r ∧ p.toBytes = bs ∧ r.toBytes = rest := by
  induction t generalizing bs with
  | nil =>
    rw [toBytes_nil] at h
    exact absurd h.symm (by simp)
  | cons c t ih =>
    rw [toBytes_cons] at h
    rcases List.append_eq_append_iff.mp h with ⟨x, rfl, hx⟩ | ⟨x, hx, hrest⟩
    · obtain ⟨p, r, rfl, rfl, hr⟩ := ih hx
      exact ⟨c :: p, r, rfl, rfl, hr⟩
    · cases x with
      | nil =>
        obtain ⟨p, r, rfl, hp, hr⟩ := @ih [] hrest.symm
        refine ⟨c :: p, r, rfl, ?_, hr⟩
        rw [toBytes_cons, hp, hx, List.append_nil, List.append_nil]
      | cons b x =>
        -- The byte belongs to `c`, so it is `c`.
        obtain ⟨rfl, rfl⟩ := List.cons.inj hrest
        have hmem : a.toUInt8 ∈ String.utf8EncodeChar c := by rw [hx]; simp
        obtain ⟨hc, heq⟩ := encode_eq_of_mem hmem (by rw [toNat_toUInt8 ha]; exact ha)
        obtain rfl := (toUInt8_inj ha hc).mp heq
        have hnil : bs = [] ∧ x = [] := by
          have hlen := congrArg List.length hx
          rw [encode_of_ascii ha] at hlen
          simp only [List.length_append, List.length_cons, List.length_nil] at hlen
          exact ⟨List.length_eq_zero_iff.mp (by omega), List.length_eq_zero_iff.mp (by omega)⟩
        obtain ⟨rfl, rfl⟩ := hnil
        exact ⟨[], t, rfl, rfl, rfl⟩

end StructuralRules.Text
