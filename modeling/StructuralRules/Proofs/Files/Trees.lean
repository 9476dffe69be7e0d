import Mathlib.Data.List.Nodup
import StructuralRules.Proofs.Files.Paths

/-!
# Trees of files

In a tree as file systems have them, the names in a directory are plain and
distinct, so a list of names leads to one node and a file is found by one list
only. A path that spells the place of a directory leads there. The order in
which directories are listed does not show in what is found by names.
-/

set_option autoImplicit false

namespace StructuralRules

namespace Node

/-- Induction over the entries of a directory and over what is below them. -/
@[elab_as_elim]
theorem entries_induction {P : List (String × Node) → Prop} (nil : P [])
    (file : ∀ name bytes rest, P rest → P ((name, .file bytes) :: rest))
    (link : ∀ name target rest, P rest → P ((name, .link target) :: rest))
    (dir : ∀ name inner rest, P inner → P rest → P ((name, .dir inner) :: rest)) :
    ∀ es, P es
  | [] => nil
  | (name, .file bytes) :: rest => file name bytes rest (entries_induction nil file link dir rest)
  | (name, .link target) :: rest => link name target rest (entries_induction nil file link dir rest)
  | (name, .dir inner) :: rest =>
      dir name inner rest (entries_induction nil file link dir inner)
        (entries_induction nil file link dir rest)

/-! ## Looking up names -/

variable {node x : Node} {n : String} {names : Place} {es es' : List (String × Node)}

theorem at?_nil (node : Node) : node.at? [] = some node := by
  cases node <;> rfl

theorem at?_dir_cons : (dir es).at? (n :: names) = (child? n es).bind (·.at? names) := by
  rw [at?]
  cases child? n es <;> rfl

theorem at?_cons_eq_some :
    node.at? (n :: names) = some x ↔
      ∃ es next, node = .dir es ∧ child? n es = some next ∧ next.at? names = some x := by
  cases node with
  | file bytes => simp [at?]
  | link target => simp [at?]
  | dir es => simp [at?_dir_cons, Option.bind_eq_some_iff]

theorem at?_append (node : Node) (a b : Place) :
    node.at? (a ++ b) = (node.at? a).bind (·.at? b) := by
  induction a generalizing node with
  | nil => rw [at?_nil]; rfl
  | cons n a ih =>
    cases node with
    | file bytes => rfl
    | link target => rfl
    | dir es =>
      rw [List.cons_append, at?_dir_cons, at?_dir_cons]
      cases child? n es with
      | none => rfl
      | some next => exact ih next

theorem ne_nil_of_at?_file {bytes : Bytes} (h : (dir es).at? names = some (.file bytes)) :
    names ≠ [] := by
  intro hnil
  subst hnil
  cases h

theorem mem_of_child? (h : child? n es = some node) : (n, node) ∈ es := by
  induction es with
  | nil => cases h
  | cons e es ih =>
    rw [child?] at h
    split at h
    · next heq =>
      cases h
      subst heq
      exact List.mem_cons_self
    · exact List.mem_cons_of_mem e (ih h)

theorem child?_of_mem (hdistinct : (es.map (·.1)).Nodup) (h : (n, node) ∈ es) :
    child? n es = some node := by
  induction es with
  | nil => cases h
  | cons e es ih =>
    rw [List.map_cons, List.nodup_cons] at hdistinct
    rw [child?]
    rcases List.mem_cons.mp h with rfl | h
    · rw [if_pos rfl]
    · have hne : e.1 ≠ n := fun heq => hdistinct.1 (heq ▸ List.mem_map_of_mem h)
      rw [if_neg hne, ih hdistinct.2 h]

theorem child?_perm (h : es.Perm es') (hdistinct : (es.map (·.1)).Nodup) :
    child? n es' = child? n es := by
  have hdistinct' : (es'.map (·.1)).Nodup := (h.map _).nodup hdistinct
  ext node
  constructor
  · intro hnode
    exact child?_of_mem hdistinct (h.symm.subset (mem_of_child? hnode))
  · intro hnode
    exact child?_of_mem hdistinct' (h.subset (mem_of_child? hnode))

/-! ## Well-named trees, and trees without links -/

mutual

/-- In every directory below a node the names are plain and distinct. -/
def wellNamed : Node → Bool
  | .dir es => wellNamedAll es && decide (es.map (·.1)).Nodup
  | _ => true

def wellNamedAll : List (String × Node) → Bool
  | [] => true
  | (n, node) :: es => Path.isName n && wellNamed node && wellNamedAll es

end

mutual

/-- No link is at or below a node. -/
def linkFree : Node → Bool
  | .file _ => true
  | .link _ => false
  | .dir es => linkFreeAll es

def linkFreeAll : List (String × Node) → Bool
  | [] => true
  | (_, node) :: es => linkFree node && linkFreeAll es

end

theorem wellNamedAll_eq_true :
    wellNamedAll es = true ↔ ∀ e ∈ es, Path.isName e.1 = true ∧ e.2.wellNamed = true := by
  induction es with
  | nil => simp [wellNamedAll]
  | cons e es ih => simp [wellNamedAll, ih]

theorem linkFreeAll_eq_true : linkFreeAll es = true ↔ ∀ e ∈ es, e.2.linkFree = true := by
  induction es with
  | nil => simp [linkFreeAll]
  | cons e es ih => simp [linkFreeAll, ih]

theorem wellNamed_dir :
    (dir es).wellNamed = true ↔ (es.map (·.1)).Nodup ∧
      ∀ e ∈ es, Path.isName e.1 = true ∧ e.2.wellNamed = true := by
  rw [wellNamed, Bool.and_eq_true, decide_eq_true_eq, wellNamedAll_eq_true, and_comm]

theorem linkFree_dir : (dir es).linkFree = true ↔ ∀ e ∈ es, e.2.linkFree = true := by
  rw [linkFree, linkFreeAll_eq_true]

theorem wellNamed_at? (h : node.wellNamed = true) (hat : node.at? names = some x) :
    x.wellNamed = true ∧ ∀ n ∈ names, Path.isName n = true := by
  induction names generalizing node with
  | nil =>
    rw [at?_nil] at hat
    cases hat
    exact ⟨h, fun _ hn => by cases hn⟩
  | cons n names ih =>
    obtain ⟨es, next, rfl, hchild, hnext⟩ := at?_cons_eq_some.mp hat
    obtain ⟨hn, hnamed⟩ := (wellNamed_dir.mp h).2 _ (mem_of_child? hchild)
    obtain ⟨hx, hnames⟩ := ih hnamed hnext
    exact ⟨hx, List.forall_mem_cons.mpr ⟨hn, hnames⟩⟩

theorem linkFree_at? (h : node.linkFree = true) (hat : node.at? names = some x) :
    x.linkFree = true := by
  induction names generalizing node with
  | nil =>
    rw [at?_nil] at hat
    cases hat
    exact h
  | cons n names ih =>
    obtain ⟨es, next, rfl, hchild, hnext⟩ := at?_cons_eq_some.mp hat
    exact ih (linkFree_dir.mp h _ (mem_of_child? hchild)) hnext

/-! ## The files below a node -/

theorem mem_filesOf {path : String} {f : String × Bytes} :
    f ∈ filesOf path es ↔ ∃ e ∈ es, f ∈ filesFrom (Path.join path e.1) e.2 := by
  induction es with
  | nil => simp [filesOf]
  | cons e es ih => simp [filesOf, ih]

/-- A file below a node is what some names lead to. -/
theorem mem_filesFrom {path : String} {f : String × Bytes} (node : Node)
    (h : node.wellNamed = true) :
    f ∈ filesFrom path node ↔
      ∃ names, node.at? names = some (.file f.2) ∧ f.1 = names.foldl Path.join path := by
  match node with
  | .file bytes =>
    simp only [filesFrom, List.mem_singleton]
    constructor
    · rintro rfl
      exact ⟨[], rfl, rfl⟩
    · rintro ⟨names, hat, hpath⟩
      cases names with
      | nil => cases hat; exact Prod.ext hpath rfl
      | cons n names => cases hat
  | .link target =>
    simp only [filesFrom, List.not_mem_nil, false_iff]
    rintro ⟨names, hat, -⟩
    cases names <;> cases hat
  | .dir es =>
    obtain ⟨hdistinct, hnamed⟩ := wellNamed_dir.mp h
    rw [filesFrom, mem_filesOf]
    constructor
    · rintro ⟨⟨n, next⟩, hmem, hf⟩
      obtain ⟨names, hat, hpath⟩ := (mem_filesFrom next (hnamed _ hmem).2).mp hf
      refine ⟨n :: names, ?_, hpath⟩
      rw [at?_dir_cons, child?_of_mem hdistinct hmem]
      exact hat
    · rintro ⟨names, hat, hpath⟩
      cases names with
      | nil => cases hat
      | cons n names =>
        obtain ⟨es, next, heq, hchild, hnext⟩ := at?_cons_eq_some.mp hat
        cases heq
        have hmem := mem_of_child? hchild
        exact ⟨(n, next), hmem, (mem_filesFrom next (hnamed _ hmem).2).mpr ⟨names, hnext, hpath⟩⟩
termination_by sizeOf node
decreasing_by
  all_goals
    have hlt := List.sizeOf_lt_of_mem hmem
    simp_wf
    simp at hlt
    omega

/-! ## Listing directories in another order -/

/-- The same tree with directories listed in another order. -/
inductive Relisted : Node → Node → Prop where
  | refl (node : Node) : Relisted node node
  | perm {es es' : List (String × Node)} (h : es.Perm es') : Relisted (.dir es) (.dir es')
  | entry {es es' : List (String × Node)} {name : String} {node node' : Node}
      (h : Relisted node node') :
      Relisted (.dir (es ++ (name, node) :: es')) (.dir (es ++ (name, node') :: es'))
  | trans {a b c : Node} (hab : Relisted a b) (hbc : Relisted b c) : Relisted a c

/-- A node without what it holds if it is a directory. -/
def face : Node → Node
  | .dir _ => .dir []
  | node => node

theorem at?_eq_file_iff {bytes : Bytes} :
    node.at? names = some (.file bytes) ↔ (node.at? names).map face = some (.file bytes) := by
  cases node.at? names with
  | none => simp
  | some x => cases x <;> simp [face]

theorem exists_dir_iff :
    (∃ es, node.at? names = some (.dir es)) ↔ (node.at? names).map face = some (.dir []) := by
  cases node.at? names with
  | none => simp
  | some x => cases x <;> simp [face]

theorem child?_entry (es es' : List (String × Node)) (name : String) (node node' : Node) :
    child? n (es ++ (name, node) :: es') = child? n (es ++ (name, node') :: es') ∨
      child? n (es ++ (name, node) :: es') = some node ∧
        child? n (es ++ (name, node') :: es') = some node' := by
  induction es with
  | nil =>
    simp only [List.nil_append, child?]
    split
    · exact .inr ⟨rfl, rfl⟩
    · exact .inl rfl
  | cons e es ih =>
    simp only [List.cons_append, child?]
    split
    · exact .inl rfl
    · exact ih

theorem Relisted.wellNamed (h : Relisted node x) (hnode : node.wellNamed = true) :
    x.wellNamed = true := by
  induction h with
  | refl node => exact hnode
  | perm h =>
    rw [wellNamed_dir] at hnode ⊢
    exact ⟨(h.map _).nodup hnode.1, fun e he => hnode.2 e (h.symm.subset he)⟩
  | entry h ih =>
    rw [wellNamed_dir] at hnode ⊢
    simp only [List.map_append, List.map_cons, List.forall_mem_append, List.forall_mem_cons]
      at hnode ⊢
    obtain ⟨hdistinct, hbefore, ⟨hname, hnode⟩, hbehind⟩ := hnode
    exact ⟨hdistinct, hbefore, ⟨hname, ih hnode⟩, hbehind⟩
  | trans _ _ ihab ihbc => exact ihbc (ihab hnode)

theorem Relisted.linkFree (h : Relisted node x) (hnode : node.linkFree = true) :
    x.linkFree = true := by
  induction h with
  | refl node => exact hnode
  | perm h =>
    rw [linkFree_dir] at hnode ⊢
    exact fun e he => hnode e (h.symm.subset he)
  | entry h ih =>
    rw [linkFree_dir] at hnode ⊢
    simp only [List.forall_mem_append, List.forall_mem_cons] at hnode ⊢
    obtain ⟨hbefore, hnode, hbehind⟩ := hnode
    exact ⟨hbefore, ih hnode, hbehind⟩
  | trans _ _ ihab ihbc => exact ihbc (ihab hnode)

/-- Whatever names lead to, they lead to its like in a relisted tree. -/
theorem Relisted.face_at? (h : Relisted node x) (hnode : node.wellNamed = true) (names : Place) :
    (x.at? names).map face = (node.at? names).map face := by
  induction h generalizing names with
  | refl node => rfl
  | perm h =>
    cases names with
    | nil => rfl
    | cons n names =>
      rw [at?_dir_cons, at?_dir_cons, child?_perm h (wellNamed_dir.mp hnode).1]
  | @entry es es' name node node' h ih =>
    cases names with
    | nil => rfl
    | cons n names =>
      rw [at?_dir_cons, at?_dir_cons]
      rcases child?_entry (n := n) es es' name node node' with heq | ⟨hchild, hchild'⟩
      · rw [heq]
      · have hnamed := ((wellNamed_dir.mp hnode).2 _ (mem_of_child? hchild)).2
        rw [hchild, hchild']
        exact ih hnamed names
  | trans hab _ ihab ihbc => exact (ihbc (hab.wellNamed hnode) names).trans (ihab hnode names)

end Node
end StructuralRules
