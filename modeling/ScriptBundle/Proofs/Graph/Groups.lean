import Mathlib.Data.List.Lex
import Mathlib.Data.List.Nodup
import Mathlib.Data.String.Basic
import ScriptBundle.Proofs.Graph.Reach

/-! # Circular groups

The modules that reach each other, listed in the order of their texts. Which lists are groups
depends on which references there are and on nothing else, and so does the list of all groups, in
the order of words in a dictionary. Numbers enter only to find the groups: any classes of numbers
that are those of the numbers that reach each other lead to the same list.

* **`Identity.le_iff`, `groupLe_iff`** — the orders of identities and of groups, on the texts;
* **`CircularGroup`** — a group, by the references of a graph;
* **`sortedModules`, `CircularClasses`** — the modules of some numbers, and the classes of numbers
  that reach each other;
* **`GroupList`, `GroupList.unique`, `CircularClasses.groupList`** — the list of all groups, that
  there is one such list, and that any classes make it. -/

namespace ScriptBundle

/-- Identities are in the order of their texts. -/
theorem Identity.le_iff {a b : Identity} : a.le b = true ↔ a.text ≤ b.text := by
  simp [Identity.le, -String.lt_iff_ltb]

/-- An identity is told by its text. -/
theorem Identity.text_injective : Function.Injective Identity.text := fun a b e => by
  cases a
  cases b
  exact congrArg Identity.mk e

namespace DependencyGraph

variable {g : DependencyGraph} {group other : List Identity} {numbers others : List Nat}
  {classes : List (List Nat)} {pairs morePairs : List (Identity × Identity)} {a b : Identity}
  {i j : Nat}

/-! ## Orders -/

/-- **Groups are in the order of words in a dictionary**, the letters of which are texts. -/
theorem groupLe_iff {as bs : List Identity} :
    groupLe as bs = true ↔ as.map Identity.text ≤ bs.map Identity.text := by
  -- on the words, letter by letter; a word comes before another unless the other is less
  induction as generalizing bs with
  | nil => simp [groupLe, ← not_lt]
  | cons a as ih =>
      cases bs with
      | nil => simp [groupLe, ← not_lt]
      | cons b bs =>
          rw [groupLe, List.map_cons, List.map_cons, ← not_lt, List.cons_lt_cons_iff]
          by_cases same : a = b
          · rw [if_pos same, ih, same, ← not_lt]
            simp
          · have differs : b.text ≠ a.text := fun e => same (Identity.text_injective e).symm
            rw [if_neg same, Identity.le_iff, ← not_lt]
            simp only [differs, false_and, or_false]

/-- Sorted by `Identity.le`, identities are in the order of their texts. -/
theorem pairwise_mergeSort_le (identities : List Identity) :
    (identities.mergeSort Identity.le).Pairwise fun a b => a.text ≤ b.text := by
  have trans (a b c : Identity) (hab : a.le b = true) (hbc : b.le c = true) : a.le c = true :=
    Identity.le_iff.mpr ((Identity.le_iff.mp hab).trans (Identity.le_iff.mp hbc))
  have total (a b : Identity) : (a.le b || b.le a) = true := by
    rw [Bool.or_eq_true, Identity.le_iff, Identity.le_iff]
    exact le_total a.text b.text
  exact (List.pairwise_mergeSort trans total identities).imp Identity.le_iff.mp

/-- Sorted by `groupLe`, groups are in the order of their texts. -/
theorem pairwise_mergeSort_groupLe (groups : List (List Identity)) :
    (groups.mergeSort groupLe).Pairwise
      fun x y => x.map Identity.text ≤ y.map Identity.text := by
  have trans (x y z : List Identity) (hxy : groupLe x y = true) (hyz : groupLe y z = true) :
      groupLe x z = true :=
    groupLe_iff.mpr ((groupLe_iff.mp hxy).trans (groupLe_iff.mp hyz))
  have total (x y : List Identity) : (groupLe x y || groupLe y x) = true := by
    rw [Bool.or_eq_true, groupLe_iff, groupLe_iff]
    exact le_total (x.map Identity.text) (y.map Identity.text)
  exact (List.pairwise_mergeSort trans total groups).imp groupLe_iff.mp

/-! ## Groups -/

/-- **A circular group of some references**: the `modules` around one of them, in order. -/
structure CircularGroup (pairs : List (Identity × Identity)) (group : List Identity) : Prop where
  /-- There is a module in it. -/
  nonempty : group ≠ []
  /-- The modules are in the order of their texts. -/
  sorted : group.Pairwise fun a b => a.text < b.text
  /-- In it is what each of its modules reaches and is reached by. -/
  around : ∀ a ∈ group, ∀ b, b ∈ group ↔ Circular pairs a b

/-- No identity is listed twice in a `CircularGroup`: the texts go strictly upwards. -/
theorem CircularGroup.nodup (h : CircularGroup pairs group) : group.Nodup :=
  h.sorted.imp fun less e => (e ▸ less).false

/-- **Groups that share a module are the same.** -/
theorem CircularGroup.unique (h : CircularGroup pairs group) (h' : CircularGroup pairs other)
    (mem : a ∈ group) (mem' : a ∈ other) : group = other := by
  have same : group.Perm other := (List.perm_ext_iff_of_nodup h.nodup h'.nodup).mpr fun b => by
    rw [h.around a mem, h'.around a mem']
  exact same.eq_of_pairwise (fun x y _ _ less more => absurd (less.trans more) (lt_irrefl _))
    h.sorted h'.sorted

/-- **The list of all circular `groups`** of some references, each once and in order. -/
structure GroupList (pairs : List (Identity × Identity)) (groups : List (List Identity)) :
    Prop where
  /-- In it are the groups. -/
  mem_iff : ∀ group, group ∈ groups ↔ CircularGroup pairs group
  /-- The groups are in the order of words in a dictionary. -/
  sorted : groups.Pairwise fun x y => x.map Identity.text < y.map Identity.text

variable {groups moreGroups : List (List Identity)}

/-- No group is listed twice in a `GroupList`. -/
theorem GroupList.nodup (h : GroupList pairs groups) : groups.Nodup :=
  h.sorted.imp fun less e => (e ▸ less).false

/-- **References have one list of `groups`**, which does not depend on their order and repetition. -/
theorem GroupList.unique (h : GroupList pairs groups) (h' : GroupList morePairs moreGroups)
    (same : ∀ pair, pair ∈ pairs ↔ pair ∈ morePairs) : groups = moreGroups := by
  have alike : ∀ group, CircularGroup pairs group ↔ CircularGroup morePairs group := fun group => by
    constructor
    · exact fun c => ⟨c.1, c.2, fun a ha b => (c.3 a ha b).trans (circular_congr same)⟩
    · exact fun c => ⟨c.1, c.2, fun a ha b => (c.3 a ha b).trans (circular_congr same).symm⟩
  have perm : groups.Perm moreGroups :=
    (List.perm_ext_iff_of_nodup h.nodup h'.nodup).mpr fun group => by
      rw [h.mem_iff, h'.mem_iff, alike]
  exact perm.eq_of_pairwise (fun x y _ _ less more => absurd (less.trans more) (lt_irrefl _))
    h.sorted h'.sorted

/-- **No module is in two `groups`, or twice in one.** -/
theorem GroupList.flatten_nodup (h : GroupList pairs groups) : groups.flatten.Nodup := by
  refine List.nodup_flatten.mpr ⟨fun group mem => ((h.mem_iff group).mp mem).nodup, ?_⟩
  -- different groups share no module
  refine h.nodup.imp_of_mem fun {x y} hx hy differs a ha ha' => differs ?_
  exact ((h.mem_iff x).mp hx).unique ((h.mem_iff y).mp hy) ha ha'

/-! ## Classes of numbers -/

/-- **The `modules` of some numbers**, in the order of their texts. -/
def sortedModules (g : DependencyGraph) (numbers : List Nat) : List Identity :=
  (numbers.filterMap fun n => g.modules[n]?).mergeSort Identity.le

/-- What `sortedModules` lists are the modules with the given numbers. -/
theorem mem_sortedModules :
    a ∈ g.sortedModules numbers ↔ ∃ n ∈ numbers, g.modules[n]? = some a := by
  rw [sortedModules, (List.mergeSort_perm _ _).mem_iff, List.mem_filterMap]

/-- Among the `modules` of some numbers is the module of a number only if the number is. -/
theorem mem_of_mem_sortedModules (h : g.WellNumbered) (hi : g.modules[i]? = some a)
    (mem : a ∈ g.sortedModules numbers) : i ∈ numbers := by
  obtain ⟨j, hj, place⟩ := mem_sortedModules.mp mem
  exact eq_of_getElem?_eq h.modules_nodup place hi ▸ hj

/-- In a well-numbered graph `sortedModules` lists different modules, strictly upwards. -/
theorem pairwise_sortedModules (h : g.WellNumbered) (nodup : numbers.Nodup) :
    (g.sortedModules numbers).Pairwise fun a b => a.text < b.text := by
  have distinct : (g.sortedModules numbers).Nodup := by
    refine (List.mergeSort_perm _ _).nodup_iff.mpr (nodup.filterMap fun i j a hi hj => ?_)
    exact eq_of_getElem?_eq h.modules_nodup hi hj
  exact ((pairwise_mergeSort_le _).and distinct).imp fun ⟨le, ne⟩ =>
    lt_of_le_of_ne le fun e => ne (Identity.text_injective e)

/-- **Classes of the numbers that reach each other.** -/
structure CircularClasses (g : DependencyGraph) (classes : List (List Nat)) : Prop where
  /-- There is a number in each. -/
  nonempty : ∀ numbers ∈ classes, numbers ≠ []
  /-- No number is in two classes, or twice in one. -/
  once : classes.flatten.Nodup
  /-- In a class is what each of its numbers reaches and is reached by. -/
  around : ∀ numbers ∈ classes, ∀ i ∈ numbers, ∀ j, j ∈ numbers ↔ Circular g.edges i j
  /-- A number that reaches itself is in a class. -/
  cover : ∀ i, Circular g.edges i i → ∃ numbers ∈ classes, i ∈ numbers

namespace CircularClasses

/-- The numbers of a class are numbers of `modules`. -/
theorem exists_module (h : g.WellNumbered) (c : CircularClasses g classes) (mem : numbers ∈ classes)
    (hi : i ∈ numbers) : ∃ a, g.modules[i]? = some a := by
  have inside := (h.lt_of_reaches ((c.around numbers mem i hi i).mp hi).1).1
  exact ⟨_, List.getElem?_eq_getElem inside⟩

/-- **The modules of a class are a group.** -/
theorem circularGroup (h : g.WellNumbered) (c : CircularClasses g classes)
    (mem : numbers ∈ classes) : CircularGroup g.references (g.sortedModules numbers) where
  nonempty := by
    obtain ⟨i, hi⟩ := List.exists_mem_of_ne_nil numbers (c.nonempty numbers mem)
    obtain ⟨a, place⟩ := c.exists_module h mem hi
    exact List.ne_nil_of_mem (mem_sortedModules.mpr ⟨i, hi, place⟩)
  sorted := pairwise_sortedModules h ((List.nodup_flatten.mp c.once).1 numbers mem)
  around a ha b := by
    obtain ⟨i, hi, place⟩ := mem_sortedModules.mp ha
    constructor
    · intro hb
      obtain ⟨j, hj, place'⟩ := mem_sortedModules.mp hb
      exact (circular_iff h place place').mp ((c.around numbers mem i hi j).mp hj)
    · intro circular
      obtain ⟨j, place'⟩ := List.mem_iff_getElem?.mp (mem_modules_of_reaches circular.1).2
      exact mem_sortedModules.mpr
        ⟨j, (c.around numbers mem i hi j).mpr ((circular_iff h place place').mpr circular), place'⟩

/-- **A module that reaches itself is among the modules of a class.** -/
theorem exists_class (h : g.WellNumbered) (c : CircularClasses g classes)
    (self : Circular g.references a a) : ∃ numbers ∈ classes, a ∈ g.sortedModules numbers := by
  obtain ⟨i, place⟩ := List.mem_iff_getElem?.mp (mem_modules_of_reaches self.1).1
  obtain ⟨numbers, mem, hi⟩ := c.cover i ((circular_iff h place place).mpr self)
  exact ⟨numbers, mem, mem_sortedModules.mpr ⟨i, hi, place⟩⟩

/-- **Sorted, the modules of the classes are the list of all groups**, whichever these are. -/
theorem groupList (h : g.WellNumbered) (c : CircularClasses g classes) :
    GroupList g.references ((classes.map g.sortedModules).mergeSort groupLe) := by
  have perm := List.mergeSort_perm (classes.map g.sortedModules) groupLe
  refine ⟨fun group => ?_, ?_⟩
  · rw [perm.mem_iff, List.mem_map]
    constructor
    · rintro ⟨numbers, mem, rfl⟩
      exact c.circularGroup h mem
    · intro circle
      obtain ⟨a, ha⟩ := List.exists_mem_of_ne_nil group circle.nonempty
      obtain ⟨numbers, mem, ha'⟩ := c.exists_class h ((circle.around a ha a).mp ha)
      exact ⟨numbers, mem, (c.circularGroup h mem).unique circle ha' ha⟩
  · -- different classes have different modules, so that no two groups are the same
    have distinct : (classes.map g.sortedModules).Nodup := by
      refine List.pairwise_map.mpr ((List.nodup_flatten.mp c.once).2.imp_of_mem ?_)
      intro numbers others mem mem' apart same
      obtain ⟨i, hi⟩ := List.exists_mem_of_ne_nil numbers (c.nonempty numbers mem)
      obtain ⟨a, place⟩ := c.exists_module h mem hi
      have shared : a ∈ g.sortedModules others := same ▸ mem_sortedModules.mpr ⟨i, hi, place⟩
      exact apart hi (mem_of_mem_sortedModules h place shared)
    exact ((pairwise_mergeSort_groupLe _).and (perm.nodup_iff.mpr distinct)).imp fun ⟨le, ne⟩ =>
      lt_of_le_of_ne le fun e => ne (Identity.text_injective.list_map e)

end CircularClasses

end DependencyGraph

end ScriptBundle
