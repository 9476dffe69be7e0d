import Mathlib.Data.List.Forall2
import Mathlib.Data.Option.Basic
import Mathlib.Tactic.Common
import StructuralRules.Data.Basic

/-!
# Tables and the values they stand for

What is found under a key of a table that is put together from entries, some of
which are left out. As JSON values, tables are compared by what is found in them
and not by the order of their entries. An encoding is faithful when no two values
are written as one JSON value.
-/

set_option autoImplicit false

namespace StructuralRules.Data

variable {α : Type} {key : String} {d : Data} {es fs : List (String × Data)}

/-! ## Entries of a table -/

@[simp] theorem find?_nil : find? key [] = none := rfl

@[simp] theorem find?_cons_self : find? key ((key, d) :: es) = some d :=
  if_pos rfl

@[simp] theorem find?_cons_of_ne {k : String} (h : k ≠ key) :
    find? key ((k, d) :: es) = find? key es :=
  if_neg h

@[simp] theorem find?_append : find? key (es ++ fs) = (find? key es).or (find? key fs) := by
  induction es with
  | nil => rfl
  | cons e es ih =>
    obtain ⟨k, d⟩ := e
    by_cases hk : k = key
    · subst hk
      simp
    · simp [hk, ih]

@[simp] theorem find?_optionalEntry_self (v : Option Data) :
    find? key (optionalEntry key v) = v := by
  cases v <;> simp [optionalEntry]

@[simp] theorem find?_optionalEntry_of_ne {k : String} (h : k ≠ key) (v : Option Data) :
    find? key (optionalEntry k v) = none := by
  cases v <;> simp [optionalEntry, h]

/-! ## One JSON value -/

/-- The two trees are the same JSON value. Numbers with a fraction and moments are compared as
they are written. -/
inductive SameJson : Data → Data → Prop
  | null : SameJson .null .null
  | bool (b : Bool) : SameJson (.bool b) (.bool b)
  | int (n : Int) : SameJson (.int n) (.int n)
  | float (literal : String) : SameJson (.float literal) (.float literal)
  | moment (literal : String) : SameJson (.moment literal) (.moment literal)
  | string (s : String) : SameJson (.string s) (.string s)
  | list {l l' : List Data} (items : List.Forall₂ SameJson l l') : SameJson (.list l) (.list l')
  /-- The order of the entries says nothing. -/
  | table {es es' : List (String × Data)}
      (entries : ∀ key, Option.Rel SameJson (find? key es) (find? key es')) :
      SameJson (.table es) (.table es')

theorem mem_of_find? (h : find? key es = some d) : (key, d) ∈ es := by
  induction es with
  | nil => cases h
  | cons e es ih =>
    obtain ⟨k, d'⟩ := e
    by_cases hk : k = key
    · subst hk
      rw [find?_cons_self, Option.some.injEq] at h
      rw [h]
      exact List.mem_cons_self
    · rw [find?_cons_of_ne hk] at h
      exact List.mem_cons_of_mem _ (ih h)

theorem SameJson.refl : (d : Data) → SameJson d d
  | .null => .null
  | .bool b => .bool b
  | .int n => .int n
  | .float l => .float l
  | .moment l => .moment l
  | .string s => .string s
  | .list l => .list (List.forall₂_same.mpr fun d _ => refl d)
  | .table es => .table fun key => by
      cases h : find? key es with
      | none => exact .none
      | some d =>
        have hsize : sizeOf d < sizeOf es := by
          have hentry := List.sizeOf_lt_of_mem (mem_of_find? h)
          rw [Prod.mk.sizeOf_spec] at hentry
          omega
        exact .some (refl d)

/-- No two values are written as one JSON value. -/
def Faithful (f : α → Data) : Prop :=
  ∀ {a b : α}, SameJson (f a) (f b) → a = b

theorem faithful_string : Faithful Data.string := by
  intro a b h
  cases h
  rfl

theorem faithful_nat : Faithful Data.nat := by
  intro a b h
  generalize ha : Data.nat a = x at h
  generalize hb : Data.nat b = y at h
  cases h with
  | int n => exact Int.ofNat.inj (Data.int.inj (ha.trans hb.symm))
  | _ => cases ha

theorem Faithful.list {f : α → Data} (hf : Faithful f) :
    Faithful fun l : List α => .list (l.map f) := by
  intro l l' h
  cases h with
  | list items =>
    rw [List.forall₂_map_left_iff, List.forall₂_map_right_iff] at items
    exact List.forall₂_eq_eq_eq ▸ items.imp fun _ _ => hf

/-- What is left out when there is no value is not mixed up with what is there. -/
theorem Faithful.option {f : α → Data} (hf : Faithful f) {a b : Option α}
    (h : Option.Rel SameJson (a.map f) (b.map f)) : a = b := by
  cases a with
  | none =>
    cases b with
    | none => rfl
    | some b => cases h
  | some a =>
    cases b with
    | none => cases h
    | some b =>
      cases h with
      | some h => rw [hf h]

/-- A field of one of two records that are written alike. -/
theorem SameJson.field {f : α → Data} (h : SameJson (.table es) (.table fs)) (hf : Faithful f)
    (key : String) {a b : Option α} (ha : find? key es = a.map f) (hb : find? key fs = b.map f) :
    a = b := by
  cases h with
  | table entries =>
    have hkey := entries key
    rw [ha, hb] at hkey
    exact hf.option hkey

end StructuralRules.Data
