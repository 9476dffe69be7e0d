import Mathlib.Data.List.Basic
import Mathlib.Tactic.Common
import StructuralRules.Text.Basic

/-!
# Cuts at byte offsets

`take?`, `drop?` and `slice?` answer exactly when the offsets fall between
characters. Each is tied to a way of writing the text as a concatenation, so
that later proofs argue about concatenations and not about offsets.
-/

set_option autoImplicit false

namespace StructuralRules.Text

/-! ## Byte length -/

@[simp] theorem byteLength_nil : byteLength [] = 0 := rfl

@[simp] theorem byteLength_cons (c : Char) (t : Text) :
    byteLength (c :: t) = c.utf8Size + byteLength t := rfl

@[simp] theorem byteLength_append (s t : Text) :
    byteLength (s ++ t) = byteLength s + byteLength t := by
  induction s with
  | nil => simp
  | cons c s ih => simp [ih, Nat.add_assoc]

theorem byteLength_append_cons {c : Char} (hc : c.utf8Size = 1) (s t : Text) :
    byteLength (s ++ c :: t) = byteLength s + 1 + byteLength t := by
  rw [byteLength_append, byteLength_cons, hc, Nat.add_assoc]

theorem byteLength_eq_zero {t : Text} : byteLength t = 0 ↔ t = [] := by
  cases t with
  | nil => simp
  | cons c t =>
    have hc := c.utf8Size_pos
    simp only [byteLength_cons, reduceCtorEq, iff_false]
    omega

/-- Of two ways to write a text, the one with the shorter front goes on into the other. -/
theorem exists_append_of_byteLength_le {p p' r r' : Text} (h : p ++ r = p' ++ r')
    (hl : byteLength p ≤ byteLength p') : ∃ x, p' = p ++ x ∧ r = x ++ r' := by
  rcases List.append_eq_append_iff.mp h with ⟨x, hp, hr⟩ | ⟨x, hp, hr⟩
  · exact ⟨x, hp, hr⟩
  · have hx : x = [] := by
      rw [hp, byteLength_append] at hl
      exact byteLength_eq_zero.mp (by omega)
    subst hx
    exact ⟨[], by simpa using hp.symm, by simpa using hr.symm⟩

theorem append_inj_of_byteLength {p p' r r' : Text} (h : p ++ r = p' ++ r')
    (hl : byteLength p = byteLength p') : p = p' ∧ r = r' := by
  obtain ⟨x, rfl, rfl⟩ := exists_append_of_byteLength_le h (Nat.le_of_eq hl)
  obtain rfl : x = [] := byteLength_eq_zero.mp (by rw [byteLength_append] at hl; omega)
  exact ⟨by simp, by simp⟩

/-! ## The two halves of a cut -/

@[simp] theorem drop?_append (p r : Text) : drop? (p ++ r) (byteLength p) = some r := by
  induction p with
  | nil => cases r <;> rfl
  | cons c p ih =>
    have hc := c.utf8Size_pos
    obtain ⟨n, hn⟩ : ∃ n, byteLength (c :: p) = n + 1 :=
      ⟨c.utf8Size + byteLength p - 1, by rw [byteLength_cons]; omega⟩
    have hle : c.utf8Size ≤ n + 1 := by rw [← hn, byteLength_cons]; omega
    have hrest : n + 1 - c.utf8Size = byteLength p := by rw [← hn, byteLength_cons]; omega
    rw [hn, List.cons_append, drop?, if_pos hle, hrest, ih]

@[simp] theorem take?_append (p r : Text) : take? (p ++ r) (byteLength p) = some p := by
  induction p with
  | nil => cases r <;> rfl
  | cons c p ih =>
    have hc := c.utf8Size_pos
    obtain ⟨n, hn⟩ : ∃ n, byteLength (c :: p) = n + 1 :=
      ⟨c.utf8Size + byteLength p - 1, by rw [byteLength_cons]; omega⟩
    have hle : c.utf8Size ≤ n + 1 := by rw [← hn, byteLength_cons]; omega
    have hrest : n + 1 - c.utf8Size = byteLength p := by rw [← hn, byteLength_cons]; omega
    rw [hn, List.cons_append, take?, if_pos hle, hrest, ih]
    rfl

theorem drop?_eq_some {t r : Text} {n : Nat} :
    drop? t n = some r ↔ ∃ p, t = p ++ r ∧ byteLength p = n := by
  constructor
  · intro h
    fun_induction drop? t n with
    | case1 t => exact ⟨[], by simpa using h, rfl⟩
    | case2 => simp at h
    | case3 c t n hle ih =>
      obtain ⟨p, rfl, hp⟩ := ih h
      exact ⟨c :: p, rfl, by rw [byteLength_cons]; omega⟩
    | case4 => simp at h
  · rintro ⟨p, rfl, rfl⟩
    exact drop?_append p r

theorem take?_eq_some {t p : Text} {n : Nat} :
    take? t n = some p ↔ ∃ r, t = p ++ r ∧ byteLength p = n := by
  constructor
  · intro h
    fun_induction take? t n generalizing p with
    | case1 t => exact ⟨t, by simp_all⟩
    | case2 => simp at h
    | case3 c t n hle ih =>
      obtain ⟨q, hq, rfl⟩ := Option.map_eq_some_iff.mp h
      obtain ⟨r, rfl, hr⟩ := ih hq
      exact ⟨r, rfl, by rw [byteLength_cons]; omega⟩
    | case4 => simp at h
  · rintro ⟨r, rfl, rfl⟩
    exact take?_append p r

theorem slice?_eq_some {t s : Text} {a b : Nat} :
    slice? t a b = some s ↔
      ∃ p r, t = p ++ (s ++ r) ∧ byteLength p = a ∧ byteLength p + byteLength s = b := by
  constructor
  · intro h
    unfold slice? at h
    split at h
    case isTrue hab =>
      obtain ⟨q, hq, hs⟩ := Option.bind_eq_some_iff.mp h
      obtain ⟨p, rfl, rfl⟩ := drop?_eq_some.mp hq
      obtain ⟨r, rfl, hr⟩ := take?_eq_some.mp hs
      exact ⟨p, r, rfl, rfl, by omega⟩
    case isFalse => simp at h
  · rintro ⟨p, r, rfl, rfl, rfl⟩
    simp [slice?]

/-- A slice of a concatenation of three parts is its middle part. -/
theorem slice?_append (p s r : Text) :
    slice? (p ++ (s ++ r)) (byteLength p) (byteLength p + byteLength s) = some s :=
  slice?_eq_some.mpr ⟨p, r, rfl, rfl, rfl⟩

theorem slice_append (p s r : Text) :
    slice (p ++ (s ++ r)) (byteLength p) (byteLength p + byteLength s) = s := by
  rw [slice, slice?_append, Option.getD_some]

/-! ## The first character of a kind -/

theorem offsetOf?_eq_some {p : Char → Bool} {t : Text} {n : Nat} :
    offsetOf? p t = some n ↔
      ∃ u c v, t = u ++ c :: v ∧ byteLength u = n ∧ p c = true ∧ ∀ x ∈ u, p x = false := by
  constructor
  · intro h
    induction t generalizing n with
    | nil => simp [offsetOf?] at h
    | cons c t ih =>
      rw [offsetOf?] at h
      split at h
      case isTrue hc =>
        obtain rfl : 0 = n := by simpa using h
        exact ⟨[], c, t, rfl, rfl, hc, by simp⟩
      case isFalse hc =>
        obtain ⟨m, hm, rfl⟩ := Option.map_eq_some_iff.mp h
        obtain ⟨u, d, v, rfl, rfl, hd, hu⟩ := ih hm
        refine ⟨c :: u, d, v, rfl, rfl, hd, ?_⟩
        intro x hx
        rcases List.mem_cons.mp hx with rfl | hx
        · simpa using hc
        · exact hu x hx
  · rintro ⟨u, c, v, rfl, rfl, hc, hu⟩
    induction u with
    | nil => simp [offsetOf?, hc]
    | cons d u ih =>
      have hd : p d = false := hu d (by simp)
      have hrest := ih fun x hx => hu x (by simp [hx])
      simp [offsetOf?, hd, hrest]

theorem offsetOf?_eq_none {p : Char → Bool} {t : Text} (h : ∀ x ∈ t, p x = false) :
    offsetOf? p t = none := by
  rw [Option.eq_none_iff_forall_not_mem]
  intro n hn
  obtain ⟨u, c, v, rfl, -, hc, -⟩ := offsetOf?_eq_some.mp hn
  rw [h c (by simp)] at hc
  cases hc

end StructuralRules.Text
