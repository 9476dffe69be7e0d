import Mathlib.Data.List.NodupEquivFin
import StructuralRules.Proofs.Engine.InPlace

/-!
# Sessions with an engine

A session is a sequence of operations on one engine, each a choice of rules or a
run. What one operation can do is said once, and what holds along every session
follows from it: one run succeeds at most, a refused operation changes nothing,
and every rule that is left when the engine runs gets the report that it gets in
a run of all rules.
-/

set_option autoImplicit false

namespace StructuralRules

namespace Engine

/-- What can be asked of an engine. -/
inductive Operation where
  | select (ids : List String)
  | run (corpus : Corpus)

/-- What an engine answers when it does not refuse. -/
inductive Reply where
  | selected
  | verdict (v : Verdict)
  deriving DecidableEq, Repr

/-- The answer to an operation and the engine that is left. -/
def apply (e : Engine) : Operation → Except Error Reply × Engine
  | .select ids =>
      match e.select ids with
      | .ok e' => (.ok .selected, e')
      | .error err => (.error err, e)
  | .run c =>
      match e.run c with
      | .ok (v, e') => (.ok (.verdict v), e')
      | .error err => (.error err, e)

/-- The operation as steps on one engine. -/
def Operation.inPlace (s : Schedule) : Operation → Action Reply
  | .select ids => do
      Action.select ids
      return .selected
  | .run c => return .verdict (← Action.run s c)

/-- One operation in the life of an engine. -/
structure Event where
  before : Engine
  operation : Operation
  reply : Except Error Reply
  after : Engine

namespace Event

/-- The operation is a run that was not refused. -/
def ran (ev : Event) : Bool :=
  match ev.operation, ev.reply with
  | .run _, .ok _ => true
  | _, _ => false

end Event

/-- The events of a session, one for each operation. -/
def session (e : Engine) : List Operation → List Event
  | [] => []
  | op :: ops => ⟨e, op, (e.apply op).1, (e.apply op).2⟩ :: session (e.apply op).2 ops

/-- The engine that a session leaves. -/
def afterAll (e : Engine) (ops : List Operation) : Engine :=
  ops.foldl (fun e op => (e.apply op).2) e

/-! ## One operation -/

/-- What an operation can do to an engine. -/
inductive Step (e : Engine) : Operation → Except Error Reply → Engine → Prop
  | keep : Step e (.select []) (.ok .selected) e
  | choose {ids : List String} (nonempty : ids ≠ [])
      (known : ∀ id ∈ ids, ∃ r ∈ e.rules, r.id = id) :
      Step e (.select ids) (.ok .selected)
        { e with rules := e.rules.filter fun r => ids.contains r.id }
  | unknown {ids : List String} {id : String} (mem : id ∈ ids)
      (unknown : ∀ r ∈ e.rules, r.id ≠ id) :
      Step e (.select ids) (.error (.settings (.unknownRule id))) e
  | run (c : Corpus) (idle : e.state = .idle) :
      Step e (.run c)
        (.ok (.verdict ⟨e.rules.map (·.report e.options.timeoutMs c e.markers), c.warnings⟩))
        { e with state := .done, progress := e.progress + e.rules.length }
  | again (c : Corpus) (late : e.state ≠ .idle) :
      Step e (.run c) (.error (.engine .alreadyRun)) e

theorem apply_step (e : Engine) (op : Operation) : Step e op (e.apply op).1 (e.apply op).2 := by
  cases op with
  | select ids =>
    unfold apply select
    cases ids with
    | nil => exact .keep
    | cons id ids =>
      dsimp only [List.isEmpty_cons]
      cases hfind : (id :: ids).find? fun id => !e.rules.any (·.id == id) with
      | none =>
        refine .choose (List.cons_ne_nil id ids) fun id' hid' => ?_
        have hknown := List.find?_eq_none.mp hfind id' hid'
        simpa using hknown
      | some id' =>
        have hunknown := List.find?_some hfind
        refine .unknown (List.mem_of_find?_eq_some hfind) fun r hr => ?_
        simp at hunknown
        exact hunknown r hr
  | run c =>
    unfold apply run
    cases hstate : e.state with
    | idle => exact .run c hstate
    | running => exact .again c (by rw [hstate]; decide)
    | done => exact .again c (by rw [hstate]; decide)

/-- On one engine the steps of an operation come to its answer, in whatever order rules end. -/
theorem perform_inPlace (e : Engine) (op : Operation) (s : Schedule) :
    (op.inPlace s).perform e = e.apply op := by
  cases op with
  | select ids =>
    have hselect := Action.perform_select ids e
    dsimp only [Operation.inPlace, apply]
    cases hresult : e.select ids with
    | ok e' =>
      rw [hresult] at hselect
      rw [Action.perform_bind_ok hselect, Action.perform_pure]
    | error err =>
      rw [hresult] at hselect
      rw [Action.perform_bind_error hselect]
  | run c =>
    have hrun := Action.perform_run s c e
    dsimp only [Operation.inPlace, apply]
    cases hresult : e.run c with
    | ok answer =>
      rw [hresult] at hrun
      rw [Action.perform_bind_ok hrun, Action.perform_pure]
    | error err =>
      rw [hresult] at hrun
      rw [Action.perform_bind_error hrun]

/-! ## What holds along a session -/

/-- How the engine of a session is related to the first one after `runs` successful runs. -/
structure Continues (first e : Engine) (runs : Nat) : Prop where
  rules : e.rules.Sublist first.rules
  markers_eq : e.markers = first.markers
  options_eq : e.options = first.options
  state : runs = 0 ∧ e.state = .idle ∨ runs = 1 ∧ e.state = .done

/-- One operation, between engines of a session. -/
theorem Step.continues {first e e' : Engine} {runs : Nat} {op : Operation}
    {reply : Except Error Reply} (h : Step e op reply e') (hc : Continues first e runs) :
    Continues first e' (runs + if (Event.mk e op reply e').ran then 1 else 0) := by
  cases h with
  | keep => exact hc
  | choose nonempty known =>
    exact ⟨List.filter_sublist.trans hc.rules, hc.markers_eq, hc.options_eq, hc.state⟩
  | unknown mem unknown => exact hc
  | run c idle =>
    refine ⟨hc.rules, hc.markers_eq, hc.options_eq, Or.inr ⟨?_, rfl⟩⟩
    rcases hc.state with ⟨rfl, -⟩ | ⟨-, hdone⟩
    · rfl
    · rw [idle] at hdone
      cases hdone
  | again c late => exact hc

/-- A whole session, and each of its operations. -/
theorem session_continues {first e : Engine} {runs : Nat} (hc : Continues first e runs)
    (ops : List Operation) :
    Continues first (e.afterAll ops) (runs + (e.session ops).countP Event.ran) ∧
      ∀ ev ∈ e.session ops, ev.reply = (ev.before.apply ev.operation).1 ∧
        ev.after = (ev.before.apply ev.operation).2 ∧ ∃ n, Continues first ev.before n := by
  induction ops generalizing e runs with
  | nil => exact ⟨hc, List.forall_mem_nil _⟩
  | cons op ops ih =>
    obtain ⟨hlast, hevents⟩ := ih ((apply_step e op).continues hc)
    constructor
    · rw [session, List.countP_cons, Nat.add_comm (List.countP _ _), ← Nat.add_assoc]
      exact hlast
    · intro ev hev
      rcases List.mem_cons.mp hev with rfl | hev
      · exact ⟨rfl, rfl, runs, hc⟩
      · exact hevents ev hev

theorem run_of_idle {e : Engine} (h : e.state = .idle) (c : Corpus) :
    e.run c = .ok (⟨e.rules.map (·.report e.options.timeoutMs c e.markers), c.warnings⟩,
      { e with state := .done, progress := e.progress + e.rules.length }) := by
  unfold run
  rw [h]

/-! ## Single events -/

/-- The verdict `v` of a run on `c`, in a session that began with `first`. -/
structure Event.Reports (ev : Event) (first : Engine) (c : Corpus) (v : Verdict) : Prop where
  rules_eq : ev.after.rules = ev.before.rules
  progress_eq : ev.after.progress = ev.before.progress + ev.before.rules.length
  /-- There is one report for each rule, in declared order. -/
  declared : List.Forall₂ (fun r report =>
    report.ruleId = r.id ∧ report.name = r.name ∧ report.description = r.description)
    ev.before.rules v.reports
  /-- A rule that is left has its place among all rules, and there it gets the same report. -/
  among_all : first.options.timeoutMs = none →
    ∃ all last, first.run c = .ok (all, last) ∧ ∃ place : ℕ ↪o ℕ, ∀ i : ℕ,
      ev.before.rules[i]? = first.rules[place i]? ∧ v.reports[i]? = all.reports[place i]?
  /-- A rule gets the report that it gets without any other rule. -/
  alone : first.options.timeoutMs = none → ∀ (i : ℕ) (r : Rule), ev.before.rules[i]? = some r →
    ∃ report last, ({ first with rules := [r] } : Engine).run c =
      .ok (⟨[report], c.warnings⟩, last) ∧ v.reports[i]? = some report

/-- What is true of each operation of a session that began with `first`. -/
structure Event.Sound (ev : Event) (first : Engine) : Prop where
  /-- The steps on one engine come to the same, in whatever order rules end. -/
  in_place : ∀ s, (ev.operation.inPlace s).perform ev.before = (ev.reply, ev.after)
  unchanged : ∀ err, ev.reply = .error err → ev.after = ev.before
  refused_run_iff : ∀ c, ev.operation = .run c →
    ((∃ err, ev.reply = .error err) ↔ ev.before.state = .done)
  refused_select_iff : ∀ ids, ev.operation = .select ids →
    ((∃ err, ev.reply = .error err) ↔ ∃ id ∈ ids, ∀ r ∈ ev.before.rules, r.id ≠ id)
  selects : ∀ ids, ev.operation = .select ids → ids ≠ [] → ev.reply = .ok .selected →
    ∀ id, (∃ r ∈ ev.after.rules, r.id = id) ↔ id ∈ ids
  reports : ∀ c v, ev.operation = .run c → ev.reply = .ok (.verdict v) → ev.Reports first c v

namespace Step

variable {first e e' : Engine} {n : Nat} {c : Corpus} {ids : List String}
  {reply : Except Error Reply}

theorem unchanged {op : Operation} {err : Error} (h : Step e op (.error err) e') : e' = e := by
  cases h with
  | unknown mem unknown => rfl
  | again c late => rfl

theorem refused_run_iff (h : Step e (.run c) reply e') (hc : Continues first e n) :
    (∃ err, reply = .error err) ↔ e.state = .done := by
  cases h with
  | run c idle => simp [idle]
  | again c late =>
    rcases hc.state with ⟨-, hidle⟩ | ⟨-, hdone⟩
    · exact absurd hidle late
    · exact iff_of_true ⟨_, rfl⟩ hdone

theorem refused_select_iff (h : Step e (.select ids) reply e') :
    (∃ err, reply = .error err) ↔ ∃ id ∈ ids, ∀ r ∈ e.rules, r.id ≠ id := by
  cases h with
  | keep => simp
  | choose nonempty known =>
    refine iff_of_false (by simp) ?_
    rintro ⟨id, hid, hunknown⟩
    obtain ⟨r, hr, hrid⟩ := known id hid
    exact hunknown r hr hrid
  | unknown mem unknown => exact iff_of_true ⟨_, rfl⟩ ⟨_, mem, unknown⟩

theorem selects (h : Step e (.select ids) (.ok .selected) e') (hids : ids ≠ []) (id : String) :
    (∃ r ∈ e'.rules, r.id = id) ↔ id ∈ ids := by
  cases h with
  | keep => exact absurd rfl hids
  | choose nonempty known =>
    constructor
    · rintro ⟨r, hr, rfl⟩
      simpa using List.of_mem_filter hr
    · intro hid
      obtain ⟨r, hr, rfl⟩ := known id hid
      exact ⟨r, List.mem_filter.mpr ⟨hr, by simpa using hid⟩, rfl⟩

theorem reports {v : Verdict} (h : Step e (.run c) (.ok (.verdict v)) e')
    (hfirst : first.state = .idle) (hc : Continues first e n) :
    (Event.mk e (.run c) (.ok (.verdict v)) e').Reports first c v := by
  cases h with
  | run c idle =>
    rw [hc.options_eq, hc.markers_eq]
    refine ⟨rfl, rfl, ?_, fun _ => ?_, fun _ i r hr => ?_⟩
    · rw [List.forall₂_map_right_iff]
      exact List.forall₂_same.mpr fun r _ => ⟨rfl, rfl, rfl⟩
    · obtain ⟨place, hplace⟩ := List.sublist_iff_exists_orderEmbedding_getElem?_eq.mp hc.rules
      refine ⟨_, _, run_of_idle hfirst c, place, fun i => ⟨hplace i, ?_⟩⟩
      rw [List.getElem?_map, List.getElem?_map, hplace i]
    · have hidle : ({ first with rules := [r] } : Engine).state = .idle := hfirst
      refine ⟨_, _, run_of_idle hidle c, ?_⟩
      have hr : e.rules[i]? = some r := hr
      rw [List.getElem?_map, hr]
      rfl

theorem sound {op : Operation} (h : Step e op reply e') (happly : e.apply op = (reply, e'))
    (hfirst : first.state = .idle) (hc : Continues first e n) :
    (Event.mk e op reply e').Sound first where
  in_place s := (perform_inPlace e op s).trans happly
  unchanged := by
    rintro err rfl
    exact h.unchanged
  refused_run_iff := by
    rintro c rfl
    exact h.refused_run_iff hc
  refused_select_iff := by
    rintro ids rfl
    exact h.refused_select_iff
  selects := by
    rintro ids rfl hids rfl
    exact h.selects hids
  reports := by
    rintro c v rfl rfl
    exact h.reports hfirst hc

end Step

/-- **An engine runs once, and what it refuses leaves no trace.** Along every session with a new
engine at most one run succeeds, and the state says whether one has. The rules that are left are
some of the first ones in the same order. A refused operation changes nothing, a choice leaves
the rules that it names, and a run reports on each rule that is left as a run of all rules does,
whatever the other rules come to. -/
theorem session_runs_once (rules : List Rule) (markers : Markers) (options : EngineOptions)
    (finished : Nat) (ops : List Operation) :
    let first : Engine := { rules, markers, options, progress := finished }
    let events := first.session ops
    let last := first.afterAll ops
    events.countP Event.ran ≤ 1 ∧
      (last.state = .done ↔ ∃ ev ∈ events, ev.ran = true) ∧
      (last.state = .idle ↔ ∀ ev ∈ events, ev.ran = false) ∧
      last.rules.Sublist rules ∧ ∀ ev ∈ events, ev.Sound first := by
  intro first events last
  have hfirst : Continues first first 0 := ⟨.refl _, rfl, rfl, Or.inl ⟨rfl, rfl⟩⟩
  obtain ⟨hlast, hevents⟩ := session_continues hfirst ops
  have hstate : events.countP Event.ran = 0 ∧ last.state = .idle ∨
      events.countP Event.ran = 1 ∧ last.state = .done := by
    rw [← Nat.zero_add (events.countP Event.ran)]
    exact hlast.state
  have hran : 0 < events.countP Event.ran ↔ ∃ ev ∈ events, ev.ran = true := List.countP_pos_iff
  have hnone : events.countP Event.ran = 0 ↔ ∀ ev ∈ events, ev.ran = false := by
    simp [List.countP_eq_zero]
  rw [← hran, ← hnone]
  refine ⟨by omega, ?_, ?_, hlast.rules, ?_⟩
  · rcases hstate with ⟨hcount, hidle⟩ | ⟨hcount, hdone⟩
    · simp [hcount, hidle]
    · simp [hcount, hdone]
  · rcases hstate with ⟨hcount, hidle⟩ | ⟨hcount, hdone⟩
    · simp [hcount, hidle]
    · simp [hcount, hdone]
  · intro ev hev
    obtain ⟨hreply, hafter, n, hbefore⟩ := hevents ev hev
    have hstep := apply_step ev.before ev.operation
    rw [← hreply, ← hafter] at hstep
    exact hstep.sound (Prod.ext hreply.symm hafter.symm) rfl hbefore

/-- A choice with an unknown id, a choice in another order, a run in which one rule crashes, and
a second run. -/
theorem session_of_crashing_rule :
    ∃ (rules : List Rule) (options : EngineOptions) (ops : List Operation),
      let first : Engine := { rules, markers := [], options }
      let events := first.session ops
      events.map (fun ev => (ev.reply.toOption.isSome, ev.after.rules.map (·.id))) =
          [(false, ["A", "B", "C"]), (true, ["B", "C"]), (true, ["B", "C"]), (false, ["B", "C"])] ∧
        events.map (·.ran) = [false, false, true, false] ∧ events.countP Event.ran ≤ 1 ∧
        (first.afterAll ops).state = .done ∧ ∀ ev ∈ events, ev.Sound first := by
  let failure : Finding := { path := "a.c", severity := .fail, ruleId := "C", message := "m" }
  let rules : List Rule :=
    [{ id := "A", name := "a", check := fun _ _ => .refused (.rule "A" (.other "bad input")) },
      { id := "B", name := "b", check := fun _ _ => .broken none },
      { id := "C", name := "c", check := fun _ _ => .found [failure] }]
  let ops : List Operation :=
    [.select ["C", "Z"], .select ["C", "B"], .run ⟨[], []⟩, .run ⟨[], []⟩]
  obtain ⟨hcount, hdone, -, -, hsound⟩ := session_runs_once rules [] { parallel := true } 0 ops
  refine ⟨rules, { parallel := true }, ops, by decide +kernel, by decide +kernel, hcount, ?_,
    hsound⟩
  exact hdone.mpr ⟨_, List.mem_cons_of_mem _ (List.mem_cons_of_mem _ List.mem_cons_self), rfl⟩

end Engine
end StructuralRules
