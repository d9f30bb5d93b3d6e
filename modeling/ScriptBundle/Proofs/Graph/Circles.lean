import Mathlib.Data.List.Induction
import Mathlib.Data.List.Sort
import ScriptBundle.Proofs.Graph.Groups

/-! # The circular groups of a graph

The groups a graph reports are all groups of its references, each once and in order, however the
graph was made. They can be found from what every number reaches, as they are here, or from the
strongly connected components of the graph, whichever way these were found and in whichever order
they come.

* **`circularClasses`, `circularGroups_eq`** — the classes the groups of a graph are made of;
* **`Components`, `ofComponents`, `exists_components`** — the strongly connected components of a
  graph, the groups made of them, and that every graph has components;
* **`Call`, `built`, `recorded`** — the calls a graph is made by, and the references they record;
* **`circularGroups_built`** — the groups of every graph. -/

namespace ScriptBundle.DependencyGraph

variable {g : DependencyGraph} {i j n : Nat} {numbers : List Nat} {components : List (List Nat)}

/-! ## The classes of a graph -/

/-- The numbers around a number. -/
def numbersAround (g : DependencyGraph) (n : Nat) : List Nat :=
  groupOf ((List.range g.modules.length).map g.reached) n

/-- The class that is found at a number, if it is the least of the class. -/
def class? (g : DependencyGraph) (n : Nat) : Option (List Nat) :=
  if (g.numbersAround n).head? = some n then some (g.numbersAround n) else none

/-- A number stands for its class where it is the first of the numbers around it. -/
theorem class?_eq_some_iff :
    g.class? n = some numbers ↔
      (g.numbersAround n).head? = some n ∧ g.numbersAround n = numbers := by
  rw [class?, Option.ite_none_right_eq_some, Option.some.injEq]

/-- **The classes of a graph**, each found at the least of its numbers. -/
def circularClasses (g : DependencyGraph) : List (List Nat) :=
  (List.range g.modules.length).filterMap g.class?

/-- The groups of a report are its circular classes, sorted inside and among each other. -/
theorem circularGroups_eq (g : DependencyGraph) :
    g.circularGroups = (g.circularClasses.map g.sortedModules).mergeSort groupLe := by
  rw [circularClasses, List.map_filterMap]
  refine congrArg (·.mergeSort groupLe) (List.filterMap_congr fun n _ => ?_)
  rw [class?]
  by_cases least : (g.numbersAround n).head? = some n
  · rw [if_pos least]
    exact if_pos least
  · rw [if_neg least]
    exact if_neg least

/-- What is listed for a number is what it reaches; a number without a module reaches nothing. -/
theorem mem_listed (h : g.WellNumbered) :
    j ∈ ((List.range g.modules.length).map g.reached)[i]?.getD [] ↔ Reaches g.edges i j := by
  by_cases inside : i < g.modules.length
  · rw [List.getElem?_map, List.getElem?_range inside, Option.map_some, Option.getD_some]
    exact mem_reached h
  · rw [List.getElem?_eq_none (by simpa using inside), Option.getD_none]
    exact iff_of_false List.not_mem_nil fun reaches => inside (h.lt_of_reaches reaches).1

/-- **Around a number are those it reaches and is reached by.** -/
theorem mem_numbersAround (h : g.WellNumbered) :
    j ∈ g.numbersAround n ↔ Circular g.edges n j := by
  rw [numbersAround, groupOf, List.length_map, List.length_range]
  constructor
  · intro mem
    split at mem
    · obtain ⟨-, both⟩ := List.mem_filter.mp mem
      rwa [Bool.and_eq_true, decide_eq_true_eq, decide_eq_true_eq, mem_listed h,
        mem_listed h] at both
    · exact absurd mem List.not_mem_nil
  · intro circular
    rw [if_pos ((mem_listed h).mpr circular.self.1)]
    refine List.mem_filter.mpr ⟨List.mem_range.mpr (h.lt_of_reaches circular.1).2, ?_⟩
    rwa [Bool.and_eq_true, decide_eq_true_eq, decide_eq_true_eq, mem_listed h, mem_listed h]

/-- The numbers around one are listed upwards. -/
theorem pairwise_numbersAround (g : DependencyGraph) (n : Nat) :
    (g.numbersAround n).Pairwise (· < ·) := by
  rw [numbersAround, groupOf]
  split
  · exact List.pairwise_lt_range.filter _
  · exact List.Pairwise.nil

/-- Around numbers that reach each other are the same numbers. -/
theorem numbersAround_congr (h : g.WellNumbered) (circular : Circular g.edges i j) :
    g.numbersAround i = g.numbersAround j :=
  (g.pairwise_numbersAround i).eq_of_mem_iff (g.pairwise_numbersAround j) fun n => by
    rw [mem_numbersAround h, mem_numbersAround h, circular.congr]

/-- **The classes of a graph are those of the numbers that reach each other.** -/
theorem circularClasses_spec (h : g.WellNumbered) : CircularClasses g g.circularClasses where
  nonempty numbers mem := by
    obtain ⟨n, -, found⟩ := List.mem_filterMap.mp mem
    obtain ⟨least, rfl⟩ := class?_eq_some_iff.mp found
    exact List.ne_nil_of_mem (List.mem_of_head? least)
  around numbers mem i hi j := by
    obtain ⟨n, -, found⟩ := List.mem_filterMap.mp mem
    obtain ⟨-, rfl⟩ := class?_eq_some_iff.mp found
    rw [mem_numbersAround h] at hi ⊢
    exact hi.congr
  once := by
    refine List.nodup_flatten.mpr ⟨fun numbers mem => ?_, ?_⟩
    · obtain ⟨n, -, found⟩ := List.mem_filterMap.mp mem
      obtain ⟨-, rfl⟩ := class?_eq_some_iff.mp found
      exact (g.pairwise_numbersAround n).imp Nat.ne_of_lt
    · -- classes that share a number have the same least number
      refine List.Pairwise.filterMap _ (fun m n differs ms hm ns hn => ?_) List.nodup_range
      obtain ⟨least, rfl⟩ := class?_eq_some_iff.mp hm
      obtain ⟨least', rfl⟩ := class?_eq_some_iff.mp hn
      intro i hi hi'
      have same : g.numbersAround m = g.numbersAround n := numbersAround_congr h
        (((mem_numbersAround h).mp hi).trans ((mem_numbersAround h).mp hi').symm)
      rw [same, least'] at least
      exact differs (Option.some.inj least).symm
  cover i self := by
    -- the class is found at the least number around this one
    have mem := (mem_numbersAround h).mpr self
    obtain ⟨n, rest, around⟩ := List.exists_cons_of_ne_nil (List.ne_nil_of_mem mem)
    have circular : Circular g.edges i n := (mem_numbersAround h).mp (around ▸ List.mem_cons_self)
    have same := numbersAround_congr h circular
    have least : (g.numbersAround n).head? = some n := by rw [← same, around, List.head?_cons]
    exact ⟨g.numbersAround n, List.mem_filterMap.mpr
      ⟨n, List.mem_range.mpr (h.lt_of_reaches circular.1).2, class?_eq_some_iff.mpr ⟨least, rfl⟩⟩,
      same ▸ mem⟩

/-- **What a graph reports is the list of all groups of its `references`.** -/
theorem groupList_circularGroups (h : g.WellNumbered) :
    GroupList g.references g.circularGroups := by
  rw [circularGroups_eq]
  exact (circularClasses_spec h).groupList h

/-- **A module that reaches itself is in a group that the graph reports.** -/
theorem exists_group {a : Identity} (h : g.WellNumbered) (self : Circular g.references a a) :
    ∃ group ∈ g.circularGroups, a ∈ group := by
  obtain ⟨numbers, mem, ha⟩ := (circularClasses_spec h).exists_class h self
  exact ⟨_, ((groupList_circularGroups h).mem_iff _).mpr
    ((circularClasses_spec h).circularGroup h mem), ha⟩

/-! ## Strongly connected components -/

/-- **Each end leads to the other**, along any number of pairs, none included. -/
def Strong (pairs : List (Nat × Nat)) (i j : Nat) : Prop :=
  Relation.ReflTransGen (fun i j => (i, j) ∈ pairs) i j ∧
    Relation.ReflTransGen (fun i j => (i, j) ∈ pairs) j i

/-- Two numbers are in one component where they are the same or on one circle. -/
theorem strong_iff {pairs : List (Nat × Nat)} : Strong pairs i j ↔ i = j ∨ Circular pairs i j := by
  rw [Strong, Relation.reflTransGen_iff_eq_or_transGen, Relation.reflTransGen_iff_eq_or_transGen]
  constructor
  · rintro ⟨rfl | there, back⟩
    · exact .inl rfl
    · rcases back with rfl | back
      · exact .inl rfl
      · exact .inr ⟨there, back⟩
  · rintro (rfl | ⟨there, back⟩)
    · exact ⟨.inl rfl, .inl rfl⟩
    · exact ⟨.inr there, .inr back⟩

/-- **The strongly connected components of a graph**, each once, in any order. -/
structure Components (g : DependencyGraph) (components : List (List Nat)) : Prop where
  /-- There is a number in each. -/
  nonempty : ∀ numbers ∈ components, numbers ≠ []
  /-- In a component is what leads to each of its numbers and back. -/
  strong : ∀ numbers ∈ components, ∀ i ∈ numbers, ∀ j, j ∈ numbers ↔ Strong g.edges i j
  /-- Every number is in one component, and once. -/
  once : components.flatten.Perm (List.range g.modules.length)

/-- **Whether a component is circular**: it has several modules, or one that refers to itself. -/
def isCircular (g : DependencyGraph) (numbers : List Nat) : Bool :=
  1 < numbers.length || numbers.head?.any fun n => g.edges.contains (n, n)

/-- **The groups made of the components of a graph.** -/
def ofComponents (g : DependencyGraph) (components : List (List Nat)) : List (List Identity) :=
  ((components.filter g.isCircular).map g.sortedModules).mergeSort groupLe

namespace Components

/-- No number is in two components, or twice in one. -/
theorem flatten_nodup (c : Components g components) : components.flatten.Nodup :=
  c.once.nodup_iff.mpr List.nodup_range

/-- **A component is circular if its numbers reach themselves**, and only then. -/
theorem isCircular_iff (c : Components g components) (mem : numbers ∈ components)
    (hi : i ∈ numbers) : g.isCircular numbers = true ↔ Circular g.edges i i := by
  have nodup := (List.nodup_flatten.mp c.flatten_nodup).1 numbers mem
  have strong := c.strong numbers mem i hi
  -- alone, with another number, or with several
  rcases numbers with _ | ⟨n, _ | ⟨m, rest⟩⟩
  · exact absurd hi List.not_mem_nil
  · obtain rfl := List.mem_singleton.mp hi
    rw [show g.isCircular [i] = g.edges.contains (i, i) from rfl, List.contains_iff_mem]
    constructor
    · exact fun edge => ⟨.single edge, .single edge⟩
    · intro self
      -- the first number on the way leads back, and so it is of the component
      obtain ⟨k, edge, back⟩ := Relation.TransGen.head'_iff.mp self.1
      have same : k = i := List.mem_singleton.mp ((strong k).mpr ⟨.single edge, back⟩)
      exact same ▸ edge
  · refine iff_of_true (by simp [isCircular]) ?_
    obtain ⟨j, hj, differs⟩ : ∃ j ∈ n :: m :: rest, i ≠ j := by
      by_cases first : i = n
      · have apart : n ≠ m := fun e => (List.nodup_cons.mp nodup).1 (e ▸ List.mem_cons_self)
        exact ⟨m, by simp, first ▸ apart⟩
      · exact ⟨n, by simp, first⟩
    exact ((strong_iff.mp ((strong j).mp hj)).resolve_left differs).self

/-- **The circular components are the classes of the numbers that reach each other.** -/
theorem circularClasses (h : g.WellNumbered) (c : Components g components) :
    CircularClasses g (components.filter g.isCircular) where
  nonempty numbers mem := c.nonempty numbers (List.mem_filter.mp mem).1
  once := by
    obtain ⟨nodup, apart⟩ := List.nodup_flatten.mp c.flatten_nodup
    exact List.nodup_flatten.mpr
      ⟨fun numbers mem => nodup numbers (List.mem_filter.mp mem).1, apart.filter _⟩
  around numbers mem i hi j := by
    obtain ⟨mem, circular⟩ := List.mem_filter.mp mem
    rw [c.strong numbers mem i hi j, strong_iff]
    have self := (c.isCircular_iff mem hi).mp circular
    exact ⟨fun either => either.elim (fun e => e ▸ self) id, .inr⟩
  cover i self := by
    have inside := List.mem_range.mpr (h.lt_of_reaches self.1).1
    obtain ⟨numbers, mem, hi⟩ := List.mem_flatten.mp (c.once.mem_iff.mpr inside)
    exact ⟨numbers, List.mem_filter.mpr ⟨mem, (c.isCircular_iff mem hi).mpr self⟩, hi⟩

/-- **The groups made of the components are those the graph reports**, whichever way the components
were found and in whichever order they come. -/
theorem groups_eq (h : g.WellNumbered) (c : Components g components) :
    g.ofComponents components = g.circularGroups :=
  ((c.circularClasses h).groupList h).unique (groupList_circularGroups h) fun _ => Iff.rfl

end Components

/-- **Every graph has strongly connected components**: its classes, and every other number alone. -/
theorem exists_components (h : g.WellNumbered) : ∃ components, Components g components := by
  classical
  have c := circularClasses_spec h
  let alone := (List.range g.modules.length).filter fun n => ¬ Circular g.edges n n
  have mem_alone {n : Nat} : n ∈ alone ↔ n < g.modules.length ∧ ¬ Circular g.edges n n := by
    simp [alone]
  refine ⟨g.circularClasses ++ alone.map fun n => [n], ⟨?_, ?_, ?_⟩⟩
  · intro numbers mem
    rcases List.mem_append.mp mem with inClass | single
    · exact c.nonempty numbers inClass
    · obtain ⟨n, -, rfl⟩ := List.mem_map.mp single
      exact List.cons_ne_nil n []
  · intro numbers mem i hi j
    rw [strong_iff]
    rcases List.mem_append.mp mem with inClass | single
    · rw [c.around numbers inClass i hi j]
      have self := (c.around numbers inClass i hi i).mp hi
      exact ⟨.inr, fun either => either.elim (fun e => e ▸ self) id⟩
    · obtain ⟨n, hn, rfl⟩ := List.mem_map.mp single
      obtain rfl := List.mem_singleton.mp hi
      -- a number that is alone reaches no other that reaches it
      have lonely : ¬ Circular g.edges i j := fun circular => (mem_alone.mp hn).2 circular.self
      rw [List.mem_singleton, or_iff_left lonely, eq_comm]
  · have singles : (alone.map fun n => [n]).flatten = alone := by
      rw [← List.flatMap_def, List.flatMap_singleton']
    rw [List.flatten_append, singles]
    have apart : List.Disjoint g.circularClasses.flatten alone := fun n inClass hn => by
      obtain ⟨numbers, mem, hi⟩ := List.mem_flatten.mp inClass
      exact (mem_alone.mp hn).2 ((c.around numbers mem n hi n).mp hi)
    refine (List.perm_ext_iff_of_nodup ?_ List.nodup_range).mpr fun n => ?_
    · exact c.once.append (List.nodup_range.filter _) apart
    · rw [List.mem_append, List.mem_flatten, mem_alone, List.mem_range]
      constructor
      · rintro (⟨numbers, mem, hi⟩ | ⟨inside, -⟩)
        · exact (h.lt_of_reaches ((c.around numbers mem n hi n).mp hi).1).1
        · exact inside
      · intro inside
        by_cases self : Circular g.edges n n
        · exact .inl (c.cover n self)
        · exact .inr ⟨inside, self⟩

/-! ## Graphs made by calls -/

/-- **A call that changes a graph.** -/
inductive Call
  /-- A module is mentioned. -/
  | addModule (m : Identity)
  /-- A reference is added. -/
  | addDependency (source target : Identity)
deriving DecidableEq, Repr

/-- The graph behind a call. -/
def perform (g : DependencyGraph) : Call → DependencyGraph
  | .addModule m => (g.addModule m).1
  | .addDependency source target => g.addDependency source target

/-- **The graph some calls make.** -/
def built (calls : List Call) : DependencyGraph := calls.foldl perform empty

/-- **The references some calls record**, in their order and with repetitions. -/
def recorded (calls : List Call) : List (Identity × Identity) :=
  calls.filterMap fun
    | .addModule _ => none
    | .addDependency source target => some (source, target)

/-- **What a call does** to the `references` of a graph. -/
theorem perform_spec (h : g.WellNumbered) (call : Call) :
    (g.perform call).WellNumbered ∧
      ∀ pair, pair ∈ (g.perform call).references ↔
        pair ∈ g.references ∨ pair ∈ recorded [call] := by
  cases call with
  | addModule m =>
      obtain ⟨well, -, same, -⟩ := addModule_spec h m
      exact ⟨well, fun pair => by simp [perform, same, recorded]⟩
  | addDependency source target =>
      obtain ⟨well, -, references⟩ := addDependency_spec h source target
      exact ⟨well, fun pair => by simpa [perform, recorded] using references pair⟩

/-- **A graph has the `references` its calls recorded.** -/
theorem built_spec (calls : List Call) :
    (built calls).WellNumbered ∧
      ∀ pair, pair ∈ (built calls).references ↔ pair ∈ recorded calls := by
  -- on the calls from the last one, the graph being made from the first
  induction calls using List.reverseRecOn with
  | nil => exact ⟨wellNumbered_empty, fun pair => by simp [built, recorded, references, empty]⟩
  | append_singleton calls call ih =>
      obtain ⟨well, references⟩ := ih
      obtain ⟨well', references'⟩ := perform_spec well call
      rw [built, List.foldl_concat, ← built]
      refine ⟨well', fun pair => ?_⟩
      rw [references', references, recorded, recorded, recorded, List.filterMap_append,
        List.mem_append]

/-- **The circular groups of a graph are its strongly connected components that are circular.** For
every sequence of calls, two modules are in one group exactly if each reaches the other along the
recorded references, no module is in two groups or twice in one, each group is in order, and so is
their list. The list depends on which references were recorded, and on nothing else about the calls;
and it is what is made of the strongly connected components, which every graph has, in whichever
order these are found. -/
theorem circularGroups_built (calls : List Call) :
    (∀ a b, (∃ group ∈ (built calls).circularGroups, a ∈ group ∧ b ∈ group) ↔
      Reaches (recorded calls) a b ∧ Reaches (recorded calls) b a) ∧
    (built calls).circularGroups.flatten.Nodup ∧
    (∀ group ∈ (built calls).circularGroups, group ≠ [] ∧
      group.Pairwise fun a b => a.text < b.text) ∧
    ((built calls).circularGroups.Pairwise fun x y => x.map Identity.text < y.map Identity.text) ∧
    (∀ others, (∀ pair, pair ∈ recorded others ↔ pair ∈ recorded calls) →
      (built others).circularGroups = (built calls).circularGroups) ∧
    (∃ components, Components (built calls) components) ∧
    ∀ components, Components (built calls) components →
      (built calls).ofComponents components = (built calls).circularGroups := by
  obtain ⟨well, references⟩ := built_spec calls
  have all := groupList_circularGroups well
  refine ⟨fun a b => ?_, all.flatten_nodup, fun group mem => ?_, all.sorted, fun others same => ?_,
    exists_components well, fun components c => c.groups_eq well⟩
  · rw [← reaches_congr references, ← reaches_congr references]
    constructor
    · rintro ⟨group, mem, ha, hb⟩
      exact (((all.mem_iff group).mp mem).around a ha b).mp hb
    · intro circular
      obtain ⟨group, mem, ha⟩ := exists_group well (Circular.self circular)
      exact ⟨group, mem, ha, (((all.mem_iff group).mp mem).around a ha b).mpr circular⟩
  · have circle := (all.mem_iff group).mp mem
    exact ⟨circle.nonempty, circle.sorted⟩
  · obtain ⟨well', references'⟩ := built_spec others
    exact (groupList_circularGroups well').unique all fun pair => by
      rw [references', references, same]

end ScriptBundle.DependencyGraph
