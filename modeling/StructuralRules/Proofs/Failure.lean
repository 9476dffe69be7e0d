import Mathlib.Data.List.Forall2
import Mathlib.Tactic.Common

/-!
# Computations that can fail

How a result of a composed computation is taken apart into results of its parts.
-/

set_option autoImplicit false

namespace StructuralRules

variable {ε ε' α β : Type}

@[simp] theorem ok_bind (a : α) (g : α → Except ε β) : (Except.ok a >>= g) = g a := rfl

@[simp] theorem error_bind (e : ε) (g : α → Except ε β) :
    ((Except.error e : Except ε α) >>= g) = .error e := rfl

theorem bind_eq_ok {x : Except ε α} {g : α → Except ε β} {b : β} :
    (x >>= g) = .ok b ↔ ∃ a, x = .ok a ∧ g a = .ok b := by
  cases x with
  | error e => simp [bind, Except.bind]
  | ok a => simp [bind, Except.bind]

theorem pure_eq_ok {a b : α} : (pure a : Except ε α) = .ok b ↔ a = b := by
  simp [pure, Except.pure]

theorem map_eq_ok {x : Except ε α} {g : α → β} {b : β} :
    (g <$> x) = .ok b ↔ ∃ a, x = .ok a ∧ g a = b := by
  cases x with
  | error e => simp [Functor.map, Except.map]
  | ok a => simp [Functor.map, Except.map]

theorem ok_of_toOption {x : Except ε α} {a : α} (h : x.toOption = some a) : x = .ok a := by
  cases x with
  | error e => cases h
  | ok b => rw [Option.some.inj h]

theorem mapError_eq_ok {x : Except ε α} {g : ε → ε'} {a : α} :
    x.mapError g = .ok a ↔ x = .ok a := by
  cases x with
  | error e => simp [Except.mapError]
  | ok b => simp [Except.mapError]

theorem mapError_error_iff {x : Except ε α} {g : ε → ε'} :
    (∃ e, x.mapError g = .error e) ↔ ∃ e, x = .error e := by
  cases x with
  | error e => simp [Except.mapError]
  | ok b => simp [Except.mapError]

/-- A list is worked through when each of its members is. -/
theorem mapM_eq_ok {g : α → Except ε β} {l : List α} {l' : List β} :
    l.mapM g = .ok l' ↔ List.Forall₂ (fun a b => g a = .ok b) l l' := by
  induction l generalizing l' with
  | nil =>
    rw [List.mapM_nil, pure_eq_ok, List.forall₂_nil_left_iff]
    exact eq_comm
  | cons a l ih =>
    rw [List.mapM_cons, bind_eq_ok, List.forall₂_cons_left_iff]
    constructor
    · rintro ⟨b, hb, h⟩
      obtain ⟨bs, hbs, h⟩ := bind_eq_ok.mp h
      exact ⟨b, bs, hb, ih.mp hbs, (pure_eq_ok.mp h).symm⟩
    · rintro ⟨b, bs, hb, hbs, rfl⟩
      exact ⟨b, hb, bind_eq_ok.mpr ⟨bs, ih.mpr hbs, rfl⟩⟩

theorem mapM_eq_ok_map {g : α → Except ε β} {f : α → β} {l : List α}
    (h : ∀ a ∈ l, g a = .ok (f a)) : l.mapM g = .ok (l.map f) := by
  induction l with
  | nil => rfl
  | cons a l ih =>
    rw [List.mapM_cons, h a List.mem_cons_self, ok_bind,
      ih fun a' ha' => h a' (List.mem_cons_of_mem a ha'), ok_bind]
    rfl

theorem mapM_filterMap_eq_ok {g : α → Except ε (Option β)} {f : α → Option β} {l : List α}
    (h : ∀ a ∈ l, g a = .ok (f a)) :
    (l.mapM g >>= fun found => pure (found.filterMap id)) = .ok (l.filterMap f) := by
  rw [mapM_eq_ok_map h, ok_bind, List.filterMap_map]
  rfl

theorem mapM_flatten_eq_ok {g : α → Except ε (List β)} {f : α → List β} {l : List α}
    (h : ∀ a ∈ l, g a = .ok (f a)) :
    (l.mapM g >>= fun found => pure found.flatten) = .ok (l.flatMap f) := by
  rw [mapM_eq_ok_map h, ok_bind]
  rfl

theorem findSomeM?_eq_ok {g : α → Except ε (Option β)} {f : α → Option β} {l : List α}
    (h : ∀ a ∈ l, g a = .ok (f a)) : l.findSomeM? g = .ok (l.findSome? f) := by
  induction l with
  | nil => rfl
  | cons a l ih =>
    rw [List.findSomeM?, h a List.mem_cons_self, ok_bind, List.findSome?_cons]
    cases f a with
    | none => exact ih fun a' ha' => h a' (List.mem_cons_of_mem a ha')
    | some b => rfl

theorem findM?_eq_ok {g : α → Except ε Bool} {f : α → Bool} {l : List α}
    (h : ∀ a ∈ l, g a = .ok (f a)) : l.findM? g = .ok (l.find? f) := by
  induction l with
  | nil => rfl
  | cons a l ih =>
    rw [List.findM?, h a List.mem_cons_self, ok_bind, List.find?_cons]
    cases f a with
    | false => exact ih fun a' ha' => h a' (List.mem_cons_of_mem a ha')
    | true => rfl

theorem mapM_error_iff {g : α → Except ε β} {l : List α} :
    (∃ e, l.mapM g = .error e) ↔ ∃ a ∈ l, ∃ e, g a = .error e := by
  induction l with
  | nil => simp [pure, Except.pure]
  | cons a l ih =>
    rw [List.mapM_cons]
    cases ha : g a with
    | error e => simp [ha]
    | ok b =>
      rw [ok_bind]
      cases hl : l.mapM g with
      | error e => simpa [ha, hl] using ih
      | ok bs => simpa [ha, hl, pure, Except.pure] using ih

theorem mapError_bind (f : ε → ε') (x : Except ε α) (g : α → Except ε β) :
    (x >>= g).mapError f = x.mapError f >>= fun a => (g a).mapError f := by
  cases x with
  | error e => rfl
  | ok a => rfl

theorem mapM_mapError {f : ε → ε'} {g : α → Except ε β} {g' : α → Except ε' β} {l : List α}
    (h : ∀ a ∈ l, g' a = (g a).mapError f) : l.mapM g' = (l.mapM g).mapError f := by
  induction l with
  | nil => rfl
  | cons a l ih =>
    rw [List.mapM_cons, List.mapM_cons, h a List.mem_cons_self,
      ih fun a' ha' => h a' (List.mem_cons_of_mem a ha'), mapError_bind]
    congr 1
    funext b
    rw [mapError_bind]
    rfl

theorem mem_of_mapM_eq_ok {g : α → Except ε β} {l : List α} {l' : List β}
    (h : l.mapM g = .ok l') {b : β} (hb : b ∈ l') : ∃ a ∈ l, g a = .ok b := by
  have hall := mapM_eq_ok.mp h
  obtain ⟨i, hi, rfl⟩ := List.getElem_of_mem hb
  have hlen := hall.length_eq
  exact ⟨_, List.getElem_mem (by omega), hall.get (by omega) hi⟩

theorem exists_mem_of_mapM_eq_ok {g : α → Except ε β} {l : List α} {l' : List β}
    (h : l.mapM g = .ok l') {a : α} (ha : a ∈ l) : ∃ b ∈ l', g a = .ok b := by
  have hall := mapM_eq_ok.mp h
  obtain ⟨i, hi, rfl⟩ := List.getElem_of_mem ha
  have hlen := hall.length_eq
  exact ⟨_, List.getElem_mem (by omega), hall.get hi (by omega)⟩

/-! ## Whether a computation succeeds -/

/-- The second step succeeds or not whatever the first one gives. -/
theorem exists_bind_eq_ok {x : Except ε α} {g : α → Except ε β} {P : Prop}
    (h : ∀ a, x = .ok a → ((∃ b, g a = .ok b) ↔ P)) :
    (∃ b, (x >>= g) = .ok b) ↔ (∃ a, x = .ok a) ∧ P := by
  constructor
  · rintro ⟨b, hb⟩
    obtain ⟨a, ha, hb⟩ := bind_eq_ok.mp hb
    exact ⟨⟨a, ha⟩, (h a ha).mp ⟨b, hb⟩⟩
  · rintro ⟨⟨a, ha⟩, hP⟩
    obtain ⟨b, hb⟩ := (h a ha).mpr hP
    exact ⟨b, bind_eq_ok.mpr ⟨a, ha, hb⟩⟩

theorem exists_bind_pure_eq_ok {x : Except ε α} {g : α → β} :
    (∃ b, (x >>= fun a => pure (g a)) = .ok b) ↔ ∃ a, x = .ok a :=
  (exists_bind_eq_ok fun a _ => iff_true_intro ⟨g a, rfl⟩).trans (and_iff_left trivial)

/-- A first step of which only the success counts. -/
theorem andThen_eq_ok {x : Except ε α} {y : Except ε β} {b : β} :
    (x >>= fun _ => y) = .ok b ↔ (∃ a, x = .ok a) ∧ y = .ok b := by
  rw [bind_eq_ok, exists_and_right]

theorem check_andThen_eq_ok {x : Except ε Unit} {y : Except ε β} {b : β} :
    (x >>= fun _ => y) = .ok b ↔ x = .ok () ∧ y = .ok b :=
  bind_eq_ok.trans ⟨fun ⟨_, h⟩ => h, fun h => ⟨(), h⟩⟩

theorem exists_mapM_eq_ok {g : α → Except ε β} {l : List α} :
    (∃ l', l.mapM g = .ok l') ↔ ∀ a ∈ l, ∃ b, g a = .ok b := by
  constructor
  · rintro ⟨l', h⟩ a ha
    obtain ⟨b, -, hb⟩ := exists_mem_of_mapM_eq_ok h ha
    exact ⟨b, hb⟩
  · intro h
    cases hl : l.mapM g with
    | ok l' => exact ⟨l', rfl⟩
    | error e =>
      obtain ⟨a, ha, e', he⟩ := mapM_error_iff.mp ⟨e, hl⟩
      obtain ⟨b, hb⟩ := h a ha
      rw [he] at hb
      cases hb

theorem exists_option_mapM_eq_ok {g : α → Except ε β} {o : Option α} :
    (∃ o', o.mapM g = .ok o') ↔ ∀ a ∈ o.toList, ∃ b, g a = .ok b := by
  cases o with
  | none => exact iff_of_true ⟨none, rfl⟩ (by simp)
  | some a =>
    have hmap : (some a).mapM g = some <$> g a := rfl
    simp [hmap, map_eq_ok]

/-- What each step keeps is kept along the list. -/
theorem map_eq_of_mapM_eq_ok {γ : Type} {g : α → Except ε β} {f : α → γ} {f' : β → γ}
    (hg : ∀ a b, g a = .ok b → f' b = f a) {l : List α} {l' : List β} (h : l.mapM g = .ok l') :
    l'.map f' = l.map f := by
  have hall := mapM_eq_ok.mp h
  clear h
  induction hall with
  | nil => rfl
  | cons hab _ ih => rw [List.map_cons, List.map_cons, hg _ _ hab, ih]

theorem forM_eq_ok {g : α → Except ε Unit} {l : List α} :
    l.forM g = .ok () ↔ ∀ a ∈ l, g a = .ok () := by
  induction l with
  | nil => exact iff_of_true rfl (by simp)
  | cons a l ih =>
    rw [List.forall_mem_cons, ← ih]
    exact check_andThen_eq_ok

end StructuralRules
