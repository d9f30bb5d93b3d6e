import Mathlib.Logic.Function.Basic
import ScriptBundle.Proofs.Distinct
import ScriptBundle.Proofs.Graph.Circles

/-! # A graph as two ordered sets

Read back, a dependency graph is two ordered sets: the modules that were mentioned, and the references
that were recorded, each in the order they first came. Every call adds to these sets at their ends and
moves nothing, so that a module has its place among the modules as its number, from its first mention
on:

* **`StandsFor`** — a graph that stands for two lists without repetition;
* **`StandsFor.addModule`, `StandsFor.addDependency`, `StandsFor.perform`** — what a call adds;
* **`mentioned`, `standsFor_built`** — the graph of every sequence of calls;
* **`WellNumbered.dependenciesOf_eq`, `dependenciesOf_built`** — what a module refers to, in order;
* **`IndexedGraph`, `InStep`** — a graph that keeps the numbers of its modules in an index beside the
  modules, and its references in a set beside its arcs; all of these stay in step;
* **`built_refines_sets`** — the graph and the indexed graph of every sequence of calls. -/

namespace ScriptBundle.DependencyGraph

open Distinct (add add_of_mem add_of_notMem eraseDups_concat)

variable {g : DependencyGraph} {modules : List Identity} {references : List (Identity × Identity)}
  {m a b x : Identity} {n i j : Nat}

/-- **A graph that stands for two ordered sets**: of `modules`, and of references. -/
structure StandsFor (g : DependencyGraph) (modules : List Identity)
    (references : List (Identity × Identity)) : Prop where
  /-- Its numbers mean what they should. -/
  well : g.WellNumbered
  /-- Its modules are those of the first set, in order. -/
  modules_eq : g.modules = modules
  /-- Its references are those of the second set, in order. -/
  references_eq : g.references = references

/-- The empty graph stands for no modules and no references. -/
theorem standsFor_empty : StandsFor empty [] [] := ⟨wellNumbered_empty, rfl, rfl⟩

/-! ## What a call adds -/

/-- On the modules of a graph, `addModule` is `add` of an ordered set. -/
theorem modules_addModule (g : DependencyGraph) (m : Identity) :
    (g.addModule m).1.modules = add g.modules m := by
  by_cases known : m ∈ g.modules
  · obtain ⟨n, e, -⟩ := addModule_of_mem known
    rw [e, add_of_mem known]
  · rw [addModule_of_notMem known, add_of_notMem known]

/-- **To mention a module** adds it to the `modules`. -/
theorem StandsFor.addModule (h : StandsFor g modules references) (m : Identity) :
    StandsFor (g.addModule m).1 (add modules m) references := by
  obtain ⟨well, -, same, -⟩ := addModule_spec h.well m
  refine ⟨well, ?_, same.trans h.references_eq⟩
  rw [modules_addModule, h.modules_eq]

/-- The `modules` behind a reference that was added, and the edges: one more, or none. -/
theorem modules_edges_addDependency (g : DependencyGraph) (a b : Identity) :
    (g.addDependency a b).modules = add (add g.modules a) b ∧
      ((g.addDependency a b).edges = g.edges ∨
        ∃ edge, (g.addDependency a b).edges = g.edges ++ [edge]) := by
  have edges (g : DependencyGraph) (m : Identity) : (g.addModule m).1.edges = g.edges := by
    rw [DependencyGraph.addModule]
    split <;> rfl
  rw [DependencyGraph.addDependency]
  dsimp only
  split
  · exact ⟨by rw [modules_addModule, modules_addModule], .inl (by rw [edges, edges])⟩
  · refine ⟨by rw [modules_addModule, modules_addModule],
      .inr ⟨((g.addModule a).2, ((g.addModule a).1.addModule b).2), ?_⟩⟩
    rw [edges, edges]

/-- **To add a reference** mentions its ends, the one that refers first, and adds it to the
`references`. -/
theorem StandsFor.addDependency (h : StandsFor g modules references) (a b : Identity) :
    StandsFor (g.addDependency a b) (add (add modules a) b) (add references (a, b)) := by
  obtain ⟨well, -, among⟩ := addDependency_spec h.well a b
  obtain ⟨listed, edges⟩ := modules_edges_addDependency g a b
  refine ⟨well, by rw [listed, h.modules_eq], ?_⟩
  -- the references from before are read as before, as modules only came behind
  have longer : ∃ later, (g.addDependency a b).modules = g.modules ++ later := by
    rw [listed, add, add]
    split <;> split
    · exact ⟨[], (List.append_nil _).symm⟩
    · exact ⟨[b], rfl⟩
    · exact ⟨[a], rfl⟩
    · exact ⟨[a, b], by simp⟩
  obtain ⟨later, grown⟩ := longer
  have old : g.edges.filterMap (g.addDependency a b).ends? = references := by
    have kept := references_append h.well later
    rw [← h.references_eq, ← kept]
    refine List.filterMap_congr fun edge _ => ?_
    rw [ends?, ends?, grown]
  have last := (among (a, b)).mpr (.inr rfl)
  rw [DependencyGraph.references] at last ⊢
  rcases edges with same | ⟨edge, more⟩
  · rw [same, old] at last ⊢
    rw [add_of_mem last]
  · -- one edge more is one reference more, which is the one that was added
    rw [more, List.filterMap_append, old] at last ⊢
    have distinct := well.references_nodup
    rw [DependencyGraph.references, more, List.filterMap_append, old] at distinct
    cases ends : (g.addDependency a b).ends? edge with
    | none =>
        have bounds := well.inside edge (more ▸ List.mem_append_right _ (List.mem_singleton_self _))
        simp [ends?, List.getElem?_eq_getElem bounds.1, List.getElem?_eq_getElem bounds.2] at ends
    | some pair =>
        have single : [edge].filterMap (g.addDependency a b).ends? = [pair] := by simp [ends]
        rw [single] at last distinct ⊢
        have fresh : pair ∉ references := fun hp =>
          (List.disjoint_of_nodup_append distinct) hp (List.mem_singleton_self pair)
        have new : pair = (a, b) := by
          have there := (among pair).mp (by
            rw [DependencyGraph.references, more, List.filterMap_append, old, single]
            exact List.mem_append_right _ (List.mem_singleton_self pair))
          rw [h.references_eq] at there
          exact there.resolve_left fresh
        rw [new] at fresh ⊢
        rw [add_of_notMem fresh]

/-! ## Graphs made by calls -/

/-- **The modules some calls mention**, in their order and with repetitions. -/
def mentioned (calls : List Call) : List Identity :=
  calls.flatMap fun
    | .addModule m => [m]
    | .addDependency source target => [source, target]

/-- The modules that calls mention, one list of calls after the other. -/
theorem mentioned_append (calls more : List Call) :
    mentioned (calls ++ more) = mentioned calls ++ mentioned more :=
  List.flatMap_append

/-- The references that calls record, one list of calls after the other. -/
theorem recorded_append (calls more : List Call) :
    recorded (calls ++ more) = recorded calls ++ recorded more :=
  List.filterMap_append ..

/-- **What a call adds** to the two sets. -/
theorem StandsFor.perform {calls : List Call}
    (h : StandsFor g (mentioned calls).eraseDups (recorded calls).eraseDups) (call : Call) :
    StandsFor (g.perform call) (mentioned (calls ++ [call])).eraseDups
      (recorded (calls ++ [call])).eraseDups := by
  rw [mentioned_append, recorded_append]
  cases call with
  | addModule m =>
      have modules : mentioned [.addModule m] = [m] := rfl
      have references : recorded [.addModule m] = [] := rfl
      rw [modules, references, List.append_nil, eraseDups_concat]
      exact h.addModule m
  | addDependency source target =>
      have modules : mentioned [.addDependency source target] = [source] ++ [target] := rfl
      have references : recorded [.addDependency source target] = [(source, target)] := rfl
      rw [modules, references, ← List.append_assoc, eraseDups_concat, eraseDups_concat,
        eraseDups_concat]
      exact h.addDependency source target

/-- **A graph stands for what its calls mention and record**, each in the order it first came. -/
theorem standsFor_built (calls : List Call) :
    StandsFor (built calls) (mentioned calls).eraseDups (recorded calls).eraseDups := by
  induction calls using List.reverseRecOn with
  | nil => exact standsFor_empty
  | append_singleton calls call ih =>
      rw [built, List.foldl_concat, ← built]
      exact ih.perform call

/-! ## Numbers, edges and targets -/

/-- **The number of a module is its place** among the `modules`. -/
theorem StandsFor.number?_eq_some_iff (h : StandsFor g modules references) :
    g.number? m = some n ↔ modules[n]? = some m := by
  rw [← h.modules_eq]
  exact DependencyGraph.number?_eq_some_iff h.well.modules_nodup

/-- **The `edges` of a graph** are its references, by the numbers of their ends. -/
theorem StandsFor.mem_edges_iff (h : StandsFor g modules references) :
    (i, j) ∈ g.edges ↔
      ∃ a b, (a, b) ∈ references ∧ g.number? a = some i ∧ g.number? b = some j := by
  simp only [h.number?_eq_some_iff, ← h.modules_eq, ← h.references_eq]
  constructor
  · intro edge
    obtain ⟨source, target⟩ := h.well.inside (i, j) edge
    have ends := ends?_eq_some_iff.mpr
      ⟨List.getElem?_eq_getElem source, List.getElem?_eq_getElem target⟩
    exact ⟨_, _, List.mem_filterMap.mpr ⟨(i, j), edge, ends⟩, List.getElem?_eq_getElem source,
      List.getElem?_eq_getElem target⟩
  · rintro ⟨a, b, pair, source, target⟩
    -- a module has one number, so the edge of the reference is this one
    obtain ⟨⟨i', j'⟩, edge, source', target'⟩ := mem_references.mp pair
    obtain rfl := eq_of_getElem?_eq h.well.modules_nodup source source'
    obtain rfl := eq_of_getElem?_eq h.well.modules_nodup target target'
    exact edge

/-- **What a module refers to**, in the order of its `references`. -/
theorem WellNumbered.dependenciesOf_eq (h : g.WellNumbered) (x : Identity) :
    g.dependenciesOf x = (g.references.filter fun pair => pair.1 = x).map Prod.snd := by
  rw [dependenciesOf, DependencyGraph.references]
  cases number : g.number? x with
  | none =>
      have unknown : x ∉ g.modules := List.idxOf?_eq_none_iff.mp number
      have nothing : ∀ pair ∈ g.edges.filterMap g.ends?, ¬ (decide (pair.1 = x)) = true := by
        intro pair hpair same
        obtain ⟨edge, -, ends⟩ := List.mem_filterMap.mp hpair
        obtain ⟨source, -⟩ := ends?_eq_some_iff.mp ends
        exact unknown (of_decide_eq_true same ▸ List.mem_of_getElem? source)
      rw [List.filter_eq_nil_iff.mpr nothing]
      rfl
  | some n =>
      have place := (DependencyGraph.number?_eq_some_iff h.modules_nodup).mp number
      dsimp only
      rw [targets, List.filterMap_filterMap, List.filter_filterMap, List.map_filterMap]
      -- edge by edge: it starts at the number exactly if its reference starts at the module
      refine List.filterMap_congr fun edge hedge => ?_
      obtain ⟨source, target⟩ := h.inside edge hedge
      have ends : g.ends? edge = some (g.modules[edge.1], g.modules[edge.2]) :=
        ends?_eq_some_iff.mpr ⟨List.getElem?_eq_getElem source, List.getElem?_eq_getElem target⟩
      have starts : edge.1 = n ↔ g.modules[edge.1] = x := by
        constructor
        · rintro rfl
          exact Option.some.inj ((List.getElem?_eq_getElem source).symm.trans place)
        · intro same
          exact eq_of_getElem?_eq h.modules_nodup ((List.getElem?_eq_getElem source).trans
            (congrArg some same)) place
      rw [ends]
      by_cases from_n : edge.1 = n
      · rw [if_pos from_n]
        simp [starts.mp from_n, List.getElem?_eq_getElem target]
      · rw [if_neg from_n]
        simpa using fun same => from_n (starts.mpr same)

/-- **The targets of a module** are the distinct ones of its references, in the order these were first
recorded. -/
theorem dependenciesOf_built (calls : List Call) (x : Identity) :
    (built calls).dependenciesOf x =
      (((recorded calls).filter fun pair => pair.1 = x).map Prod.snd).eraseDups := by
  have sets := standsFor_built calls
  rw [sets.well.dependenciesOf_eq, sets.references_eq, Distinct.filter_eraseDups]
  -- of two references of one module, the targets tell them apart
  refine (Distinct.map_eraseDups fun pair hpair other hother same => ?_).symm
  obtain ⟨-, source⟩ := List.mem_filter.mp hpair
  obtain ⟨-, source'⟩ := List.mem_filter.mp hother
  exact Prod.ext ((of_decide_eq_true source).trans (of_decide_eq_true source').symm) same

/-- **Numbers are handed out in the order of first mention**, and the number of a module is the one it
was handed out with. -/
theorem number_addModule (calls : List Call) (m : Identity) :
    ((built calls).addModule m).2 =
      (mentioned (calls ++ [.addModule m])).eraseDups.idxOf m := by
  have sets := standsFor_built calls
  have behind := standsFor_built (calls ++ [.addModule m])
  obtain ⟨-, place, -⟩ := addModule_spec sets.well m
  have same : ((built calls).addModule m).1 = built (calls ++ [.addModule m]) := by
    rw [built, built, List.foldl_concat]
    rfl
  rw [same, behind.modules_eq] at place
  obtain ⟨bound, found⟩ := List.getElem?_eq_some_iff.mp place
  have once := List.Nodup.idxOf_getElem (Distinct.nodup_eraseDups _) _ bound
  rw [found] at once
  exact once.symm

/-- **A module keeps its number**, whatever is called later. -/
theorem number?_built_append {calls : List Call} (more : List Call)
    (h : (built calls).number? m = some n) : (built (calls ++ more)).number? m = some n := by
  rw [(standsFor_built calls).number?_eq_some_iff] at h
  rw [(standsFor_built (calls ++ more)).number?_eq_some_iff, mentioned_append]
  obtain ⟨bound, found⟩ := List.getElem?_eq_some_iff.mp h
  obtain ⟨later, grown⟩ := Distinct.eraseDups_prefix_append (mentioned calls) (mentioned more)
  rw [← grown, List.getElem?_append_left bound, h]

/-- A module that becomes the last one has the next number. -/
theorem number?_append_self (absent : m ∉ g.modules) :
    number? { g with modules := g.modules ++ [m] } m = some g.modules.length := by
  have before : g.modules.idxOf? m = none := List.idxOf?_eq_none_iff.mpr absent
  rw [number?, List.idxOf?, List.findIdx?_append, ← List.idxOf?, before]
  simp

/-- A module that becomes the last one changes the number of no other. -/
theorem number?_append_of_ne (other : x ≠ m) :
    number? { g with modules := g.modules ++ [m] } x = g.number? x := by
  have apart : (m == x) = false := by simpa using other.symm
  rw [number?, number?, List.idxOf?, List.findIdx?_append, ← List.idxOf?]
  simp [apart]

/-! ## Graphs with an index -/

/-- **A `graph` that keeps its tables twice**: beside its nodes an index of their numbers, and beside its
arcs the set of those it has. -/
structure IndexedGraph where
  /-- The modules, by their numbers. -/
  nodes : List Identity
  /-- The number of each module that has one. -/
  index : Identity → Option Nat
  /-- The pairs of numbers that were recorded, in their order. -/
  pairs : List (Nat × Nat)
  /-- The arcs of the graph. -/
  arcs : List (Nat × Nat)

namespace IndexedGraph

/-- The graph without nodes. -/
def empty : IndexedGraph := ⟨[], fun _ => none, [], []⟩

/-- **A module mentioned**: its number is looked up in the index, or it becomes a node. -/
def addModule (t : IndexedGraph) (m : Identity) : IndexedGraph × Nat :=
  match t.index m with
  | some n => (t, n)
  | none =>
    ({ t with nodes := t.nodes ++ [m], index := Function.update t.index m (some t.nodes.length) },
      t.nodes.length)

/-- **A reference added**: an arc only if its pair is new to the set. -/
def addDependency (t : IndexedGraph) (source target : Identity) : IndexedGraph :=
  let (t, s) := t.addModule source
  let (t, u) := t.addModule target
  if t.pairs.contains (s, u) then t
  else { t with pairs := t.pairs ++ [(s, u)], arcs := t.arcs ++ [(s, u)] }

/-- The graph behind a call. -/
def perform (t : IndexedGraph) : Call → IndexedGraph
  | .addModule m => (t.addModule m).1
  | .addDependency source target => t.addDependency source target

/-- **The graph some calls make.** -/
def built (calls : List Call) : IndexedGraph := calls.foldl perform empty

/-- **Tables in step** with a dependency graph. -/
structure InStep (t : IndexedGraph) (g : DependencyGraph) : Prop where
  /-- The nodes are the modules. -/
  nodes_eq : t.nodes = g.modules
  /-- The index has the number of every module. -/
  index_eq : t.index = g.number?
  /-- The set has the edges. -/
  pairs_eq : t.pairs = g.edges
  /-- The arcs are the edges. -/
  arcs_eq : t.arcs = g.edges

variable {t : IndexedGraph}

/-- In front of all calls the ordered sets and the graph are in step: both are empty. -/
theorem inStep_empty : InStep empty DependencyGraph.empty := ⟨rfl, rfl, rfl, rfl⟩

/-- **A module mentioned** in both graphs has one number, and they stay in step. -/
theorem InStep.addModule (h : InStep t g) (m : Identity) :
    InStep (t.addModule m).1 (g.addModule m).1 ∧ (t.addModule m).2 = (g.addModule m).2 := by
  rw [IndexedGraph.addModule, DependencyGraph.addModule, h.index_eq]
  cases number : g.number? m with
  | some n => exact ⟨h, rfl⟩
  | none =>
      refine ⟨⟨?_, ?_, h.pairs_eq, h.arcs_eq⟩, by rw [h.nodes_eq]⟩
      · show t.nodes ++ [m] = g.modules ++ [m]
        rw [h.nodes_eq]
      · -- looked up, the new module has its number, and any other the one it had
        show Function.update g.number? m (some t.nodes.length) =
          number? { g with modules := g.modules ++ [m] }
        funext x
        by_cases same : x = m
        · rw [same, Function.update_self, h.nodes_eq,
            number?_append_self (List.idxOf?_eq_none_iff.mp number)]
        · rw [Function.update_of_ne same, number?_append_of_ne same]

/-- **A reference added** to both graphs is new to both or to none. -/
theorem InStep.addDependency (h : InStep t g) (source target : Identity) :
    InStep (t.addDependency source target) (g.addDependency source target) := by
  obtain ⟨first, s⟩ := h.addModule source
  obtain ⟨second, u⟩ := first.addModule target
  rw [IndexedGraph.addDependency, DependencyGraph.addDependency]
  dsimp only
  rw [s, u, second.pairs_eq]
  by_cases kept : ((g.addModule source).2, ((g.addModule source).1.addModule target).2) ∈
      ((g.addModule source).1.addModule target).1.edges
  · rw [if_pos kept, if_pos (List.contains_iff_mem.mpr kept)]
    exact second
  · rw [if_neg kept, if_neg (fun found => kept (List.contains_iff_mem.mp found))]
    exact ⟨second.nodes_eq, second.index_eq, rfl, congrArg (· ++ _) second.arcs_eq⟩

/-- **Both graphs stay in step**, whatever is called. -/
theorem inStep_built (calls : List Call) : InStep (built calls) (DependencyGraph.built calls) := by
  induction calls using List.reverseRecOn with
  | nil => exact inStep_empty
  | append_singleton calls call ih =>
      rw [built, DependencyGraph.built, List.foldl_concat, List.foldl_concat, ← built,
        ← DependencyGraph.built]
      cases call with
      | addModule m => exact (ih.addModule m).1
      | addDependency source target => exact ih.addDependency source target

end IndexedGraph

/-- **A graph is two ordered sets.** For every sequence of calls, the `modules` are those that were
mentioned and the references those that were recorded, each once and in the order they first came. A
module is given its place among the modules as its number, which it keeps whatever is called later;
numbers and modules determine each other. Modules and references are counted once, the edges are the
references by the numbers of their ends, and a module refers to its distinct targets in the order they
were first recorded, and to none if it was never mentioned. A graph that keeps an index beside its nodes
and a set beside its arcs has the same nodes, numbers, pairs and arcs. -/
theorem built_refines_sets (calls : List Call) :
    (built calls).modules = (mentioned calls).eraseDups ∧
    (∀ m, ((built calls).addModule m).2 =
      (mentioned (calls ++ [.addModule m])).eraseDups.idxOf m) ∧
    (∀ more m n, (built calls).number? m = some n →
      (built (calls ++ more)).number? m = some n) ∧
    (∀ m n, (built calls).number? m = some n ↔ (built calls).modules[n]? = some m) ∧
    (built calls).moduleCount = (mentioned calls).dedup.length ∧
    (built calls).dependencyCount = (recorded calls).dedup.length ∧
    (built calls).edges.Nodup ∧
    (built calls).references = (recorded calls).eraseDups ∧
    (∀ i j, (i, j) ∈ (built calls).edges ↔ ∃ a b, (a, b) ∈ recorded calls ∧
      (built calls).number? a = some i ∧ (built calls).number? b = some j) ∧
    (∀ x, (built calls).dependenciesOf x =
      (((recorded calls).filter fun pair => pair.1 = x).map Prod.snd).eraseDups) ∧
    (∀ x, x ∉ mentioned calls → (built calls).dependenciesOf x = []) ∧
    IndexedGraph.InStep (.built calls) (built calls) := by
  have sets := standsFor_built calls
  have pairs : ∀ pair, pair ∈ (built calls).references ↔ pair ∈ recorded calls := by
    intro pair
    rw [sets.references_eq, List.mem_eraseDups]
  refine ⟨sets.modules_eq, number_addModule calls, fun more m n => number?_built_append more,
    fun m n => number?_eq_some_iff sets.well.modules_nodup, ?_, dependencyCount_eq sets.well pairs,
    sets.well.edges_nodup, sets.references_eq, ?_, dependenciesOf_built calls, ?_,
    IndexedGraph.inStep_built calls⟩
  · have same : (mentioned calls).eraseDups.Perm (mentioned calls).dedup :=
      (List.perm_ext_iff_of_nodup (Distinct.nodup_eraseDups _) (List.nodup_dedup _)).mpr
        fun m => by rw [List.mem_eraseDups, List.mem_dedup]
    rw [moduleCount, sets.modules_eq, same.length_eq]
  · intro i j
    rw [sets.mem_edges_iff]
    simp only [List.mem_eraseDups]
  · intro x unknown
    rw [dependenciesOf]
    have number : (built calls).number? x = none := by
      rw [number?, List.idxOf?_eq_none_iff, sets.modules_eq, List.mem_eraseDups]
      exact unknown
    rw [number]

/-- Two modules in a circle, one of which also refers to itself: three references, one of them recorded
twice. -/
theorem built_refines_sets_circle :
    let a : Identity := ⟨"/a.js"⟩
    let b : Identity := ⟨"/b.js"⟩
    let calls : List Call :=
      [.addDependency a b, .addDependency b b, .addModule a, .addDependency b a, .addDependency a b]
    (built calls).number? b = some 1 ∧ (built (calls ++ [.addModule ⟨"/c.js"⟩])).number? b = some 1 ∧
      (built calls).dependencyCount = 3 ∧ (built calls).dependenciesOf b = [b, a] ∧
      (built calls).dependenciesOf ⟨"/c.js"⟩ = [] := by
  intro a b calls
  have number : (built calls).number? b = some 1 := by decide
  obtain ⟨-, -, keeps, -, -, count, -, -, -, targets, unknown, -⟩ := built_refines_sets calls
  exact ⟨number, keeps _ b 1 number, count.trans (by decide), (targets b).trans (by decide),
    unknown _ (by decide)⟩

end ScriptBundle.DependencyGraph
