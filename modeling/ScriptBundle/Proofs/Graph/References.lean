import Mathlib.Data.List.Dedup
import Mathlib.Data.List.Basic
import ScriptBundle.DependencyGraph

/-! # References of a dependency graph

A graph numbers its modules and keeps its references as pairs of numbers. Read back, it is a set of
modules and a set of pairs of modules, and to mention a module or to add a reference adds one member
to these sets:

* **`DependencyGraph.WellNumbered`** — the invariant: no module has two numbers, no reference is kept
  twice, and the numbers of references are numbers of modules;
* **`DependencyGraph.references`** — the references, by the identities of their ends;
* **`addDependency_spec`, `mem_dependenciesOf`, `dependencyCount_eq`** — what is added, what
  is listed and what is counted. -/

namespace ScriptBundle.DependencyGraph

variable {g : DependencyGraph} {m a b : Identity} {n : Nat} {edge : Nat × Nat}

/-- The identities at the ends of a reference. -/
def ends? (g : DependencyGraph) (edge : Nat × Nat) : Option (Identity × Identity) :=
  (g.modules[edge.1]?).bind fun source => (g.modules[edge.2]?).map (source, ·)

/-- **The `references` of a graph**, by the identities of their ends. -/
def references (g : DependencyGraph) : List (Identity × Identity) := g.edges.filterMap g.ends?

/-- **A graph whose numbers mean what they should.** -/
structure WellNumbered (g : DependencyGraph) : Prop where
  /-- No module has two numbers. -/
  modules_nodup : g.modules.Nodup
  /-- No reference is kept twice. -/
  edges_nodup : g.edges.Nodup
  /-- The numbers of references are numbers of modules. -/
  inside : ∀ edge ∈ g.edges, edge.1 < g.modules.length ∧ edge.2 < g.modules.length

/-- The empty graph is `WellNumbered`. -/
theorem wellNumbered_empty : WellNumbered empty :=
  ⟨List.nodup_nil, List.nodup_nil, fun _ h => absurd h List.not_mem_nil⟩

/-- The ends of an edge are the `modules` with its two numbers. -/
theorem ends?_eq_some_iff :
    g.ends? edge = some (a, b) ↔ g.modules[edge.1]? = some a ∧ g.modules[edge.2]? = some b := by
  cases source : g.modules[edge.1]? with
  | none => simp [ends?, source]
  | some s =>
      cases target : g.modules[edge.2]? with
      | none => simp [ends?, source, target]
      | some t => simp [ends?, source, target]

/-- A reference is listed where there is an edge between its `modules`. -/
theorem mem_references :
    (a, b) ∈ g.references ↔
      ∃ edge ∈ g.edges, g.modules[edge.1]? = some a ∧ g.modules[edge.2]? = some b := by
  simp [references, ends?_eq_some_iff]

/-! ## Numbers -/

/-- A place in a list without repetition is told by what stands there. -/
theorem eq_of_getElem?_eq (h : g.modules.Nodup) {i j : Nat} (hi : g.modules[i]? = some m)
    (hj : g.modules[j]? = some m) : i = j :=
  (List.getElem?_inj (List.getElem?_eq_some_iff.mp hi).1 h).mp (hi.trans hj.symm)

/-- **The number of a module is its place.** -/
theorem number?_eq_some_iff (h : g.modules.Nodup) :
    g.number? m = some n ↔ g.modules[n]? = some m := by
  rw [number?, List.idxOf?_eq_some_iff]
  -- the number is the first place of the module, and there is no other
  constructor
  · rintro ⟨bound, found, -⟩
    rw [List.getElem?_eq_getElem bound, found]
  · intro found
    obtain ⟨bound, e⟩ := List.getElem?_eq_some_iff.mp found
    refine ⟨bound, e, fun j hj earlier => ?_⟩
    have place : g.modules[j]? = some m := by rw [List.getElem?_eq_getElem (by omega), earlier]
    exact absurd (eq_of_getElem?_eq h place found) (by omega)

/-- A module that is known keeps its number, and `addModule` changes nothing. -/
theorem addModule_of_mem (h : m ∈ g.modules) : ∃ n, g.addModule m = (g, n) ∧
    g.number? m = some n := by
  cases number : g.number? m with
  | none => exact absurd h (List.idxOf?_eq_none_iff.mp number)
  | some n => exact ⟨n, by simp [addModule, number], rfl⟩

/-- A module that is new gets the next number. -/
theorem addModule_of_notMem (h : m ∉ g.modules) :
    g.addModule m = ({ g with modules := g.modules ++ [m] }, g.modules.length) := by
  have number : g.number? m = none := List.idxOf?_eq_none_iff.mpr h
  simp [addModule, number]

/-- Modules behind those of a graph do not change its `references`. -/
theorem references_append (h : g.WellNumbered) (later : List Identity) :
    references { g with modules := g.modules ++ later } = g.references := by
  -- the numbers of references lie inside the modules from before
  refine List.filterMap_congr fun edge hedge => ?_
  obtain ⟨source, target⟩ := h.inside edge hedge
  simp [ends?, List.getElem?_append_left source, List.getElem?_append_left target]

/-- **What it does to mention a module**: it has the number that is returned, its `references` are
those from before, and of the modules it is the only new one. -/
theorem addModule_spec (h : g.WellNumbered) (m : Identity) :
    (g.addModule m).1.WellNumbered ∧ (g.addModule m).1.modules[(g.addModule m).2]? = some m ∧
      (g.addModule m).1.references = g.references ∧ g.modules <+: (g.addModule m).1.modules ∧
      ∀ a, a ∈ (g.addModule m).1.modules ↔ a ∈ g.modules ∨ a = m := by
  -- a module that has a number keeps it, any other gets the next one
  by_cases known : m ∈ g.modules
  · obtain ⟨n, e, number⟩ := addModule_of_mem known
    rw [e]
    refine ⟨h, (number?_eq_some_iff h.modules_nodup).mp number, rfl, List.prefix_rfl, fun a => ?_⟩
    exact ⟨.inl, fun ha => ha.elim id fun e => e ▸ known⟩
  · rw [addModule_of_notMem known]
    refine ⟨⟨?_, h.edges_nodup, fun edge hedge => ?_⟩, by simp, references_append h [m],
      List.prefix_append .., by simp⟩
    · rw [← List.concat_eq_append]
      exact h.modules_nodup.concat known
    · obtain ⟨source, target⟩ := h.inside edge hedge
      simp only [List.length_append, List.length_singleton]
      omega

/-- **What it does to add a reference.** -/
theorem addDependency_spec (h : g.WellNumbered) (source target : Identity) :
    (g.addDependency source target).WellNumbered ∧
      (∀ m, m ∈ (g.addDependency source target).modules ↔
        m ∈ g.modules ∨ m = source ∨ m = target) ∧
      ∀ pair, pair ∈ (g.addDependency source target).references ↔
        pair ∈ g.references ∨ pair = (source, target) := by
  -- mention the source, then the target, then add the pair of their numbers unless it is kept
  obtain ⟨well₁, place₁, same₁, -, modules₁⟩ := addModule_spec h source
  obtain ⟨well₂, place₂, same₂, grown, modules₂⟩ := addModule_spec well₁ target
  unfold addDependency
  generalize g.addModule source = first at *
  obtain ⟨g₁, s⟩ := first
  dsimp only at *
  generalize g₁.addModule target = second at *
  obtain ⟨g₂, t⟩ := second
  dsimp only at *
  have places : g₂.ends? (s, t) = some (source, target) := by
    refine ends?_eq_some_iff.mpr ⟨?_, place₂⟩
    obtain ⟨bound, e⟩ := List.getElem?_eq_some_iff.mp place₁
    rw [List.getElem?_eq_getElem (Nat.lt_of_lt_of_le bound grown.length_le), ← grown.getElem bound, e]
  have modules : ∀ m, m ∈ g₂.modules ↔ m ∈ g.modules ∨ m = source ∨ m = target := fun m => by
    rw [modules₂, modules₁, or_assoc]
  split
  -- the pair of numbers stands for the pair of identities, which was there before
  · rename_i kept
    refine ⟨well₂, modules, fun pair => ?_⟩
    rw [same₂, same₁]
    refine ⟨.inl, fun hp => hp.elim id fun e => ?_⟩
    rw [e, ← same₁, ← same₂]
    exact List.mem_filterMap.mpr ⟨(s, t), kept, places⟩
  · rename_i fresh
    refine ⟨⟨well₂.modules_nodup, ?_, fun edge hedge => ?_⟩, modules, fun pair => ?_⟩
    · rw [← List.concat_eq_append]
      exact well₂.edges_nodup.concat fresh
    · rcases List.mem_append.mp hedge with hedge | hedge
      · exact well₂.inside edge hedge
      · rw [List.mem_singleton.mp hedge]
        obtain ⟨hs, ht⟩ := ends?_eq_some_iff.mp places
        exact ⟨(List.getElem?_eq_some_iff.mp hs).1, (List.getElem?_eq_some_iff.mp ht).1⟩
    · have all : references { g₂ with edges := g₂.edges ++ [(s, t)] } =
          g₂.references ++ [(source, target)] := by
        have last : [(s, t)].filterMap g₂.ends? = [(source, target)] := by simp [places]
        rw [references, List.filterMap_append]
        exact congrArg (g₂.references ++ ·) last
      rw [all, List.mem_append, List.mem_singleton, same₂, same₁]

/-- **What it does to add `references`** of a module that is mentioned. -/
theorem foldl_addDependency_spec (h : g.WellNumbered) {source : Identity}
    (known : source ∈ g.modules) (targets : List Identity) :
    (targets.foldl (·.addDependency source ·) g).WellNumbered ∧
      (∀ m, m ∈ (targets.foldl (·.addDependency source ·) g).modules ↔
        m ∈ g.modules ∨ m ∈ targets) ∧
      ∀ pair, pair ∈ (targets.foldl (·.addDependency source ·) g).references ↔
        pair ∈ g.references ∨ pair ∈ targets.map (source, ·) := by
  -- on the targets; the source has a number from the start, so that it adds no module
  induction targets generalizing g with
  | nil => simpa using h
  | cons target rest ih =>
      obtain ⟨well, modules, references⟩ := addDependency_spec h source target
      obtain ⟨all_well, all_modules, all_references⟩ := ih well ((modules source).mpr (.inl known))
      refine ⟨all_well, fun m => ?_, fun pair => ?_⟩
      · rw [List.foldl_cons, all_modules, modules, List.mem_cons]
        constructor
        · rintro ((old | rfl | rfl) | later)
          · exact .inl old
          · exact .inl known
          · exact .inr (.inl rfl)
          · exact .inr (.inr later)
        · rintro (old | rfl | later)
          · exact .inl (.inl old)
          · exact .inl (.inr (.inr rfl))
          · exact .inr later
      · rw [List.foldl_cons, all_references, references, List.map_cons, List.mem_cons, or_assoc]

/-! ## What is listed and what is counted -/

/-- **A module lists exactly what it refers to.** -/
theorem mem_dependenciesOf (h : g.WellNumbered) :
    b ∈ g.dependenciesOf a ↔ (a, b) ∈ g.references := by
  unfold dependenciesOf
  split
  · rename_i unknown
    refine ⟨fun hb => absurd hb List.not_mem_nil, fun hp => ?_⟩
    obtain ⟨edge, -, source, -⟩ := mem_references.mp hp
    exact absurd (List.mem_of_getElem? source) (List.idxOf?_eq_none_iff.mp unknown)
  · rename_i n number
    have place := (number?_eq_some_iff h.modules_nodup).mp number
    rw [mem_references, List.mem_filterMap]
    constructor
    · rintro ⟨t, ht, target⟩
      obtain ⟨edge, hedge, taken⟩ := List.mem_filterMap.mp ht
      split at taken
      · rename_i from_n
        cases taken
        exact ⟨edge, hedge, from_n ▸ place, target⟩
      · simp at taken
    · rintro ⟨edge, hedge, source, target⟩
      -- two numbers of one module are the same
      have from_n := eq_of_getElem?_eq h.modules_nodup source place
      exact ⟨edge.2, List.mem_filterMap.mpr ⟨edge, hedge, by simp [from_n]⟩, target⟩

/-- The `references` of a well-numbered graph are told apart by their ends. -/
theorem WellNumbered.references_nodup (h : g.WellNumbered) : g.references.Nodup := by
  refine h.edges_nodup.filterMap fun edge edge' pair he he' => ?_
  obtain ⟨source, target⟩ := ends?_eq_some_iff.mp he
  obtain ⟨source', target'⟩ := ends?_eq_some_iff.mp he'
  exact Prod.ext (eq_of_getElem?_eq h.modules_nodup source source')
    (eq_of_getElem?_eq h.modules_nodup target target')

/-- Every reference of a well-numbered graph has its ends. -/
theorem WellNumbered.length_references (h : g.WellNumbered) :
    g.references.length = g.dependencyCount := by
  rw [references, List.length_filterMap_eq_countP, dependencyCount, List.countP_eq_length]
  intro edge hedge
  obtain ⟨source, target⟩ := h.inside edge hedge
  simp [ends?, List.getElem?_eq_getElem source, List.getElem?_eq_getElem target]

/-- **The count of `references` is that of distinct pairs**, for any list that has the same pairs. -/
theorem dependencyCount_eq (h : g.WellNumbered) {pairs : List (Identity × Identity)}
    (same : ∀ pair, pair ∈ g.references ↔ pair ∈ pairs) :
    g.dependencyCount = pairs.dedup.length := by
  -- both lists are without repetition and have the same members
  have perm : g.references.Perm pairs.dedup :=
    (List.perm_ext_iff_of_nodup h.references_nodup (List.nodup_dedup pairs)).mpr fun pair => by
      rw [same, List.mem_dedup]
  rw [← h.length_references, perm.length_eq]

end ScriptBundle.DependencyGraph
