import Mathlib.Logic.Relation
import ScriptBundle.Proofs.Graph.References

/-! # What a graph reaches

A visit of a graph collects the numbers its stack leads to. A number that was met is not visited
again, so that the visit comes to an end; what it collects is closed under references all the same,
and it collects nothing that is not reached:

* **`Reaches`, `Circular`** — one end reaches another along one pair or more, and each reaches the
  other;
* **`mem_visit_of_mem_stack`, `mem_visit_of_mem_targets`** — a visit collects its stack, and is
  closed;
* **`exists_of_mem_visit`** — whatever a visit collects is reached from its stack;
* **`mem_reached`** — what a number reaches, of a well-numbered graph;
* **`reaches_iff`** — numbers reach each other as the modules do that have them. -/

namespace ScriptBundle.DependencyGraph

section

variable {α : Type} {pairs others : List (α × α)} {a b c : α}

/-- **One end reaches another**, along one pair or more. -/
def Reaches (pairs : List (α × α)) : α → α → Prop := Relation.TransGen fun a b => (a, b) ∈ pairs

/-- **Each end reaches the other.** -/
def Circular (pairs : List (α × α)) (a b : α) : Prop := Reaches pairs a b ∧ Reaches pairs b a

/-- Of two modules on one circle each can be named first. -/
theorem Circular.symm (h : Circular pairs a b) : Circular pairs b a := ⟨h.2, h.1⟩

/-- Circles through one module are one circle. -/
theorem Circular.trans (h : Circular pairs a b) (h' : Circular pairs b c) : Circular pairs a c :=
  ⟨h.1.trans h'.1, h'.2.trans h.2⟩

/-- What reaches another and is reached by it reaches itself. -/
theorem Circular.self (h : Circular pairs a b) : Circular pairs a a := h.trans h.symm

/-- Seen from two ends that reach each other, the ends around them are the same. -/
theorem Circular.congr (h : Circular pairs a b) : Circular pairs a c ↔ Circular pairs b c :=
  ⟨h.symm.trans, h.trans⟩

/-- Who reaches whom depends on which pairs there are, and not on their order and repetition. -/
theorem reaches_congr (same : ∀ pair, pair ∈ pairs ↔ pair ∈ others) :
    Reaches pairs a b ↔ Reaches others a b := by
  rw [Reaches, Reaches, show (fun a b => (a, b) ∈ pairs) = fun a b => (a, b) ∈ others from
    funext fun a => funext fun b => propext (same (a, b))]

/-- Being `Circular` asks only which references there are, and not how they are listed. -/
theorem circular_congr (same : ∀ pair, pair ∈ pairs ↔ pair ∈ others) :
    Circular pairs a b ↔ Circular others a b :=
  and_congr (reaches_congr same) (reaches_congr same)

end

variable {g : DependencyGraph} {unseen stack : List Nat} {n i j v t : Nat} {a b : Identity}

/-- The `targets` of a number are where its edges lead. -/
theorem mem_targets : t ∈ g.targets n ↔ (n, t) ∈ g.edges := by
  constructor
  · intro h
    obtain ⟨edge, hedge, taken⟩ := List.mem_filterMap.mp h
    split at taken
    · rename_i source
      rw [← source, ← Option.some.inj taken]
      exact hedge
    · simp at taken
  · intro h
    exact List.mem_filterMap.mpr ⟨(n, t), h, if_pos rfl⟩

/-! ## Visits -/

/-- A number that is unseen is visited, and its `targets` come next. -/
theorem visit_cons_of_mem (h : n ∈ unseen) :
    g.visit unseen (n :: stack) = n :: g.visit (unseen.erase n) (g.targets n ++ stack) := by
  rw [visit, if_pos h]

/-- A number that was seen before is passed over. -/
theorem visit_cons_of_notMem (h : n ∉ unseen) :
    g.visit unseen (n :: stack) = g.visit unseen stack := by
  rw [visit, if_neg h]

/-- **A `visit` collects its stack**, as far as it is unseen. -/
theorem mem_visit_of_mem_stack (h : v ∈ stack) (new : v ∈ unseen) : v ∈ g.visit unseen stack := by
  induction unseen, stack using visit.induct g with
  | case1 unseen => exact absurd h List.not_mem_nil
  | case2 unseen n stack fresh ih =>
      rw [visit_cons_of_mem fresh]
      by_cases same : v = n
      · exact same ▸ List.mem_cons_self
      · -- it waits behind the targets of the number in front
        have waits : v ∈ stack := (List.mem_cons.mp h).resolve_left same
        exact List.mem_cons_of_mem n
          (ih (List.mem_append_right _ waits) ((List.mem_erase_of_ne same).mpr new))
  | case3 unseen n stack old ih =>
      rw [visit_cons_of_notMem old]
      have same : v ≠ n := fun e => old (e ▸ new)
      exact ih ((List.mem_cons.mp h).resolve_left same) new

/-- **A `visit` is closed under references**, as far as these lead to what is unseen. -/
theorem mem_visit_of_mem_targets (h : v ∈ g.visit unseen stack) (refers : t ∈ g.targets v)
    (new : t ∈ unseen) : t ∈ g.visit unseen stack := by
  induction unseen, stack using visit.induct g with
  | case1 unseen => simp at h
  | case2 unseen n stack fresh ih =>
      rw [visit_cons_of_mem fresh] at h ⊢
      by_cases same : t = n
      · exact same ▸ List.mem_cons_self
      · have new : t ∈ unseen.erase n := (List.mem_erase_of_ne same).mpr new
        refine List.mem_cons_of_mem n ?_
        rcases List.mem_cons.mp h with rfl | later
        · -- the targets of the number in front were put on the stack
          exact mem_visit_of_mem_stack (List.mem_append_left _ refers) new
        · exact ih later new
  | case3 unseen n stack old ih =>
      rw [visit_cons_of_notMem old] at h ⊢
      exact ih h new

/-- **A `visit` collects only what its stack leads to.** -/
theorem exists_of_mem_visit (h : v ∈ g.visit unseen stack) :
    ∃ s ∈ stack, Relation.ReflTransGen (fun i j => (i, j) ∈ g.edges) s v := by
  induction unseen, stack using visit.induct g with
  | case1 unseen => simp at h
  | case2 unseen n stack fresh ih =>
      rw [visit_cons_of_mem fresh] at h
      rcases List.mem_cons.mp h with rfl | later
      · exact ⟨v, List.mem_cons_self, .refl⟩
      · obtain ⟨s, hs, leads⟩ := ih later
        rcases List.mem_append.mp hs with target | waits
        · exact ⟨n, List.mem_cons_self, .head (mem_targets.mp target) leads⟩
        · exact ⟨s, List.mem_cons_of_mem n waits, leads⟩
  | case3 unseen n stack old ih =>
      rw [visit_cons_of_notMem old] at h
      obtain ⟨s, hs, leads⟩ := ih h
      exact ⟨s, List.mem_cons_of_mem n hs, leads⟩

/-- **What a number reaches.** -/
theorem mem_reached (h : g.WellNumbered) : t ∈ g.reached n ↔ Reaches g.edges n t := by
  -- every target is a number of a module, and so unseen in front of the visit
  have inside {i j : Nat} (edge : (i, j) ∈ g.edges) : j ∈ List.range g.modules.length :=
    List.mem_range.mpr (h.inside _ edge).2
  constructor
  · intro reached
    obtain ⟨s, target, leads⟩ := exists_of_mem_visit reached
    exact .head' (mem_targets.mp target) leads
  · intro reaches
    induction reaches with
    | single edge => exact mem_visit_of_mem_stack (mem_targets.mpr edge) (inside edge)
    | tail _ edge ih => exact mem_visit_of_mem_targets ih (mem_targets.mpr edge) (inside edge)

/-! ## Numbers and modules -/

/-- What is reached has a number. -/
theorem WellNumbered.lt_of_reaches (h : g.WellNumbered) (reaches : Reaches g.edges i j) :
    i < g.modules.length ∧ j < g.modules.length := by
  induction reaches with
  | single edge => exact h.inside _ edge
  | tail _ edge ih => exact ⟨ih.1, (h.inside _ edge).2⟩

/-- What is referred to is a module, and so is what refers to it. -/
theorem mem_modules_of_reaches (reaches : Reaches g.references a b) :
    a ∈ g.modules ∧ b ∈ g.modules := by
  have ends {a b : Identity} (pair : (a, b) ∈ g.references) : a ∈ g.modules ∧ b ∈ g.modules := by
    obtain ⟨edge, -, source, target⟩ := mem_references.mp pair
    exact ⟨List.mem_of_getElem? source, List.mem_of_getElem? target⟩
  induction reaches with
  | single pair => exact ends pair
  | tail _ pair ih => exact ⟨ih.1, (ends pair).2⟩

/-- **Numbers reach each other as the `modules` do that have them.** -/
theorem reaches_iff (h : g.WellNumbered) (hi : g.modules[i]? = some a)
    (hj : g.modules[j]? = some b) : Reaches g.edges i j ↔ Reaches g.references a b := by
  constructor
  · intro reaches
    induction reaches generalizing b with
    | single edge => exact .single (mem_references.mpr ⟨_, edge, hi, hj⟩)
    | @tail k j _ edge ih =>
        have middle : k < g.modules.length := (h.inside _ edge).1
        exact .tail (ih (List.getElem?_eq_getElem middle))
          (mem_references.mpr ⟨_, edge, List.getElem?_eq_getElem middle, hj⟩)
  · intro reaches
    induction reaches generalizing j with
    | single pair =>
        obtain ⟨edge, hedge, source, target⟩ := mem_references.mp pair
        rw [← eq_of_getElem?_eq h.modules_nodup source hi,
          ← eq_of_getElem?_eq h.modules_nodup target hj]
        exact .single hedge
    | tail _ pair ih =>
        obtain ⟨edge, hedge, source, target⟩ := mem_references.mp pair
        rw [← eq_of_getElem?_eq h.modules_nodup target hj]
        exact .tail (ih source) hedge

/-- Numbers are on one circle of `edges` exactly if their modules are on one of references. -/
theorem circular_iff (h : g.WellNumbered) (hi : g.modules[i]? = some a)
    (hj : g.modules[j]? = some b) : Circular g.edges i j ↔ Circular g.references a b :=
  and_congr (reaches_iff h hi hj) (reaches_iff h hj hi)

end ScriptBundle.DependencyGraph
