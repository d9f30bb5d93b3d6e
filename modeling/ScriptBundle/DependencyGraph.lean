import ScriptBundle.Identity

/-! # Dependency graphs

Which module of an artifact refers to which. Modules are numbered in the order they are first
mentioned, and a reference is kept once however often it occurs.

* **`DependencyGraph.addModule`, `DependencyGraph.addDependency`** — mentioning a module, and a
  reference between two;
* **`DependencyGraph.dependenciesOf`** — what a module refers to, in the order of first mention;
* **`DependencyGraph.circularGroups`** — the modules that reach each other, group by group: each
  group sorted, and the groups sorted. A module alone is a group if it refers to itself. -/

namespace ScriptBundle

/-- **A dependency graph.** -/
structure DependencyGraph where
  /-- The modules, in the order of their numbers. -/
  modules : List Identity
  /-- The references, as pairs of numbers, in the order they were first added. -/
  edges : List (Nat × Nat)
deriving DecidableEq, Repr, Inhabited

namespace DependencyGraph

/-- The graph without modules. -/
def empty : DependencyGraph := ⟨[], []⟩

/-- The number of a module, if it has been mentioned. -/
def number? (g : DependencyGraph) (m : Identity) : Option Nat := g.modules.idxOf? m

/-- **A module mentioned**: the graph that has it, and its number. -/
def addModule (g : DependencyGraph) (m : Identity) : DependencyGraph × Nat :=
  match g.number? m with
  | some n => (g, n)
  | none => ({ g with modules := g.modules ++ [m] }, g.modules.length)

/-- **A reference added.** Both ends are mentioned, the one that refers first. -/
def addDependency (g : DependencyGraph) (source target : Identity) : DependencyGraph :=
  let (g, s) := g.addModule source
  let (g, t) := g.addModule target
  if (s, t) ∈ g.edges then g else { g with edges := g.edges ++ [(s, t)] }

/-- The number of `modules`. -/
def moduleCount (g : DependencyGraph) : Nat := g.modules.length

/-- The number of references, repeated ones counted once. -/
def dependencyCount (g : DependencyGraph) : Nat := g.edges.length

/-- The numbers a number refers to. -/
def targets (g : DependencyGraph) (n : Nat) : List Nat :=
  g.edges.filterMap fun edge => if edge.1 = n then some edge.2 else none

/-- **What a module refers to**, in the order of first mention. -/
def dependenciesOf (g : DependencyGraph) (m : Identity) : List Identity :=
  match g.number? m with
  | none => []
  | some n => (g.targets n).filterMap fun t => g.modules[t]?

/-! ## Circular groups -/

/-- **A visit of the graph**: the numbers among `unseen` that the stack leads to. -/
def visit (g : DependencyGraph) (unseen stack : List Nat) : List Nat :=
  match stack with
  | [] => []
  | n :: stack =>
    if n ∈ unseen then n :: visit g (unseen.erase n) (g.targets n ++ stack)
    else visit g unseen stack
termination_by (unseen.length, stack.length)
decreasing_by
  · have := List.length_erase_of_mem ‹n ∈ unseen›
    have := List.length_pos_of_mem ‹n ∈ unseen›
    exact Prod.Lex.left _ _ (by omega)
  · exact Prod.Lex.right _ (by simp)

/-- **The numbers a number reaches** along one reference or more. -/
def reached (g : DependencyGraph) (n : Nat) : List Nat :=
  g.visit (List.range g.modules.length) (g.targets n)

/-- Whether one list of identities comes before another or is the same, as words in a dictionary
do. -/
def groupLe : List Identity → List Identity → Bool
  | [], _ => true
  | _ :: _, [] => false
  | a :: as, b :: bs => if a = b then groupLe as bs else a.le b

/-- The numbers in the circular group of a number, given what every number reaches; none if it
does not reach itself. -/
def groupOf (reaches : List (List Nat)) (n : Nat) : List Nat :=
  let around := reaches[n]?.getD []
  if n ∈ around then
    (List.range reaches.length).filter fun m => m ∈ around && n ∈ reaches[m]?.getD []
  else []

/-- **The circular `groups`.** -/
def circularGroups (g : DependencyGraph) : List (List Identity) :=
  let reaches := (List.range g.modules.length).map g.reached
  let groups := (List.range g.modules.length).filterMap fun n =>
    let group := groupOf reaches n
    if group.head? = some n then
      some ((group.filterMap fun m => g.modules[m]?).mergeSort Identity.le)
    else none
  groups.mergeSort groupLe

/-- With an empty stack `visit` has come to its end. -/
@[simp] theorem visit_nil (g : DependencyGraph) (unseen : List Nat) : g.visit unseen [] = [] := by
  rw [visit]

end DependencyGraph

end ScriptBundle
