import Mathlib.Tactic.Common
import StructuralRules.Engine

/-!
# The engine, changed in place

Choosing and running change one engine step by step. A run marks the engine,
every rule that ends leaves its report in its own place and is counted, and rules
that run at the same time may end in any order. A failure keeps whatever was
changed before it, so nothing here is undone by a refusal as such. In the end the
answer and the engine are those of `Engine.select` and `Engine.run`, in whatever
order the rules ended, and a refused operation has changed nothing.
-/

set_option autoImplicit false

namespace StructuralRules

/-- Steps on an engine that may fail. A failure does not take back the steps before it. -/
abbrev Engine.Action := ExceptT Error (StateM Engine)

/-- An order in which rules end, for every number of rules that run at the same time. -/
structure Engine.Schedule where
  order : Nat → List Nat
  order_perm : ∀ n, (order n).Perm (List.range n)

namespace Engine

/-- The order in which the rules end. They end as declared unless they run at the same time. -/
def ending (e : Engine) (s : Schedule) : List Nat :=
  if e.options.parallel then s.order e.rules.length else List.range e.rules.length

theorem ending_perm (e : Engine) (s : Schedule) :
    (e.ending s).Perm (List.range e.rules.length) := by
  unfold ending
  split
  · exact s.order_perm e.rules.length
  · exact .refl _

namespace Action

variable {α β : Type}

/-- What the steps come to, and the engine they leave. -/
def perform (a : Action α) (e : Engine) : Except Error α × Engine :=
  (StateT.run (ExceptT.run a) e).run

def select (ids : List String) : Action Unit := do
  let e ← get
  if ids.isEmpty then return
  match ids.find? fun id => !e.rules.any (·.id == id) with
  | some id => throw (.settings (.unknownRule id))
  | none => set { e with rules := e.rules.filter fun r => ids.contains r.id }

/-- Rule `i` ends. Its report goes to its own place. -/
def finish (c : Corpus) (reports : List (Option RuleReport)) (i : Nat) :
    Action (List (Option RuleReport)) := do
  let e ← get
  set { e with progress := e.progress + 1 }
  return reports.set i (e.rules[i]?.map (·.report e.options.timeoutMs c e.markers))

def run (s : Schedule) (c : Corpus) : Action Verdict := do
  let e ← get
  if e.state ≠ .idle then throw (.engine .alreadyRun)
  set { e with state := .running }
  let reports ← (e.ending s).foldlM (finish c) (List.replicate e.rules.length none)
  modify fun e => { e with state := .done }
  return ⟨reports.filterMap id, c.warnings⟩

/-! ## Single steps -/

@[simp] theorem perform_pure (x : α) (e : Engine) : (pure x : Action α).perform e = (.ok x, e) :=
  rfl

@[simp] theorem perform_throw (err : Error) (e : Engine) :
    (throw err : Action α).perform e = (.error err, e) :=
  rfl

@[simp] theorem perform_set (e' e : Engine) : (set e' : Action Unit).perform e = (.ok (), e') :=
  rfl

@[simp] theorem perform_get_bind (g : Engine → Action β) (e : Engine) :
    (get >>= g : Action β).perform e = (g e).perform e :=
  rfl

theorem perform_bind_ok {a : Action α} {e e' : Engine} {x : α} (h : a.perform e = (.ok x, e'))
    (g : α → Action β) : (a >>= g).perform e = (g x).perform e' := by
  have hrun : StateT.run (ExceptT.run a) e = pure (.ok x, e') := h
  simp only [perform, ExceptT.run_bind, StateT.run_bind, hrun, pure_bind]

theorem perform_bind_error {a : Action α} {e e' : Engine} {err : Error}
    (h : a.perform e = (.error err, e')) (g : α → Action β) :
    (a >>= g).perform e = (.error err, e') := by
  have hrun : StateT.run (ExceptT.run a) e = pure (.error err, e') := h
  simp only [perform, ExceptT.run_bind, StateT.run_bind, hrun, pure_bind]
  rfl

/-- The rules that end are counted, and nothing else about the engine changes. -/
theorem perform_foldlM_finish (c : Corpus) (order : List Nat) (reports : List (Option RuleReport))
    (e : Engine) :
    (order.foldlM (finish c) reports).perform e =
      (.ok (order.foldl (fun reports i =>
          reports.set i (e.rules[i]?.map (·.report e.options.timeoutMs c e.markers))) reports),
        { e with progress := e.progress + order.length }) := by
  induction order generalizing reports e with
  | nil => rfl
  | cons i order ih =>
    have hfinish : (finish c reports i).perform e =
        (.ok (reports.set i (e.rules[i]?.map (·.report e.options.timeoutMs c e.markers))),
          { e with progress := e.progress + 1 }) := rfl
    rw [List.foldlM_cons, perform_bind_ok hfinish, ih, List.foldl_cons, List.length_cons]
    simp only [Nat.add_assoc, Nat.add_comm 1]

end Action

/-! ## Reports in their places -/

theorem getElem?_foldl_set {α : Type} (g : Nat → α) (order : List Nat) (l : List α) (j : Nat) :
    (order.foldl (fun l i => l.set i (g i)) l)[j]? =
      if j ∈ order then l[j]?.map fun _ => g j else l[j]? := by
  induction order generalizing l with
  | nil => rfl
  | cons i order ih =>
    rw [List.foldl_cons, ih, List.getElem?_set']
    by_cases hi : i = j
    · subst hi
      cases l[i]? <;> simp
    · have hmem : j ∈ i :: order ↔ j ∈ order := by simp [Ne.symm hi]
      simp only [if_neg hi, hmem]

/-- In whatever order the places are filled, each has what belongs there. -/
theorem foldl_set_of_perm {α : Type} (g : Nat → α) {order : List Nat} {n : Nat}
    (h : order.Perm (List.range n)) (a : α) :
    order.foldl (fun l i => l.set i (g i)) (List.replicate n a) = (List.range n).map g := by
  refine List.ext_getElem? fun j => ?_
  rw [getElem?_foldl_set, List.getElem?_map]
  have hmem : j ∈ order ↔ j < n := h.mem_iff.trans List.mem_range
  by_cases hj : j < n
  · rw [if_pos (hmem.mpr hj), List.getElem?_replicate_of_lt hj, List.getElem?_range hj]
    rfl
  · rw [if_neg (mt hmem.mp hj), List.getElem?_eq_none (by simpa using hj),
      List.getElem?_eq_none (by simpa using hj)]
    rfl

theorem filterMap_range_getElem? {α β : Type} (l : List α) (g : α → β) :
    ((List.range l.length).map fun i => l[i]?.map g).filterMap id = l.map g := by
  have hmap : (List.range l.length).map (fun i => l[i]?.map g) = (l.map g).map some := by
    refine List.ext_getElem (by simp) fun i hi _ => ?_
    have hi : i < l.length := by simpa using hi
    simp [List.getElem?_eq_getElem hi]
  rw [hmap, List.filterMap_map]
  exact List.filterMap_some

/-! ## Agreement -/

namespace Action

theorem perform_select (ids : List String) (e : Engine) :
    (select ids).perform e =
      match e.select ids with
      | .ok e' => (.ok (), e')
      | .error err => (.error err, e) := by
  unfold select Engine.select
  rw [perform_get_bind]
  by_cases hempty : ids.isEmpty = true
  · rw [if_pos hempty, if_pos hempty]
    rfl
  · rw [if_neg hempty, if_neg hempty]
    cases ids.find? fun id => !e.rules.any (·.id == id) with
    | some id => exact perform_throw _ e
    | none => exact perform_set _ e

theorem perform_run (s : Schedule) (c : Corpus) (e : Engine) :
    (run s c).perform e =
      match e.run c with
      | .ok (v, e') => (.ok v, e')
      | .error err => (.error err, e) := by
  unfold run Engine.run
  rw [perform_get_bind]
  cases hstate : e.state with
  | idle =>
    have hfilled := foldl_set_of_perm
      (fun i => e.rules[i]?.map (·.report e.options.timeoutMs c e.markers)) (e.ending_perm s) none
    have hreports := perform_foldlM_finish c (e.ending s)
      (List.replicate e.rules.length none) { e with state := .running }
    rw [hfilled, (e.ending_perm s).length_eq, List.length_range] at hreports
    simp only [ne_eq, not_true_eq_false, if_false]
    rw [perform_bind_ok (perform_set _ _), perform_bind_ok hreports, filterMap_range_getElem?]
    rfl
  | running => rfl
  | done => rfl

end Action
end Engine
end StructuralRules
