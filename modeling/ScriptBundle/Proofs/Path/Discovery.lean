import Mathlib.Data.List.Infix
import ScriptBundle.Path.Basic

/-! # Discovery

A search that starts from some paths and follows one path after the other, in the order they were
found. What a path brings is put behind what was found before, unless it is among it. The order in
which all is found can be said without the search, by the first occurrences in what the starting
paths and, in that order, all paths that were found bring:

* **`Path.addNew`, `Path.distinct`** — a path put behind others unless it is among them, and the first
  occurrences in a list;
* **`Path.Discovers`** — what is found once some paths were followed; `start`, `follow` and `pass` are
  the steps of a search;
* **`Path.IsDiscovery`** — the order of a whole search; `IsDiscovery.unique` says that there is no
  other. -/

namespace ScriptBundle.Path

variable {p q : Path} {ps qs : List Path}

/-- A path is among others exactly if its `parts` are. -/
theorem isAmong_iff : p.isAmong ps = true ↔ p.parts ∈ ps.map Path.parts := by
  simp [isAmong]

/-- A path in a list is among its paths. -/
theorem isAmong_of_mem (h : p ∈ ps) : p.isAmong ps = true :=
  isAmong_iff.mpr (List.mem_map_of_mem h)

/-- A path that is among some paths is among any that are more. -/
theorem isAmong_mono (sub : ps ⊆ qs) (h : p.isAmong ps = true) : p.isAmong qs = true :=
  isAmong_iff.mpr (List.map_subset _ sub (isAmong_iff.mp h))

/-! ## First occurrences -/

/-- **A path put behind others**, unless it is among them. -/
def addNew (ps : List Path) (p : Path) : List Path := if p.isAmong ps then ps else ps ++ [p]

/-- **The first occurrences** in a list of paths. -/
def distinct (ps : List Path) : List Path := ps.foldl addNew []

/-- A path that is known by its parts is not added. -/
theorem addNew_of_isAmong (h : p.isAmong ps = true) : addNew ps p = ps := by
  rw [addNew, if_pos h]

/-- A path that is new is added behind the others. -/
theorem addNew_of_not_isAmong (h : p.isAmong ps = false) : addNew ps p = ps ++ [p] := by
  rw [addNew, if_neg (by simp [h])]

/-- A path is among the others once it was added, be it by another spelling. -/
theorem isAmong_addNew (ps : List Path) (p : Path) : p.isAmong (addNew ps p) = true := by
  unfold addNew
  split
  · assumption
  · exact isAmong_of_mem (by simp)

/-- Paths are only ever added behind those that are known. -/
theorem prefix_foldl_addNew (ps qs : List Path) : ps <+: qs.foldl addNew ps := by
  induction qs generalizing ps with
  | nil => exact List.prefix_rfl
  | cons q rest ih =>
      have first : ps <+: addNew ps q := by
        unfold addNew
        split
        · exact List.prefix_rfl
        · exact List.prefix_append ..
      exact first.trans (ih _)

/-- What is among the paths put behind others was among these or those. -/
theorem mem_of_mem_foldl_addNew (h : p ∈ qs.foldl addNew ps) : p ∈ ps ∨ p ∈ qs := by
  induction qs generalizing ps with
  | nil => exact .inl h
  | cons q rest ih =>
      rcases ih h with old | later
      · unfold addNew at old
        split at old
        · exact .inl old
        · rcases List.mem_append.mp old with old | new
          · exact .inl old
          · exact .inr (List.mem_singleton.mp new ▸ List.mem_cons_self)
      · exact .inr (List.mem_cons_of_mem _ later)

/-- Whatever is put behind others is among them then. -/
theorem isAmong_foldl_addNew (h : q ∈ qs) : q.isAmong (qs.foldl addNew ps) = true := by
  induction qs generalizing ps with
  | nil => exact absurd h List.not_mem_nil
  | cons first rest ih =>
      rcases List.mem_cons.mp h with rfl | later
      · exact isAmong_mono (prefix_foldl_addNew _ rest).subset (isAmong_addNew ps q)
      · exact ih later

/-- Nothing is put behind others that is among them. -/
theorem foldl_addNew_of_isAmong (h : ∀ q ∈ qs, q.isAmong ps = true) : qs.foldl addNew ps = ps := by
  induction qs with
  | nil => rfl
  | cons q rest ih =>
      rw [List.foldl_cons, addNew_of_isAmong (h q List.mem_cons_self)]
      exact ih fun r hr => h r (List.mem_cons_of_mem _ hr)

/-- What some paths bring may be left out where all of it was found before. -/
theorem foldl_addNew_flatMap {f g : Path → List Path}
    (h : ∀ q ∈ qs, f q = g q ∨ (f q = [] ∧ ∀ r ∈ g q, r.isAmong ps = true)) :
    (qs.flatMap f).foldl addNew ps = (qs.flatMap g).foldl addNew ps := by
  -- on the paths; what was known in front of the first is known behind it
  induction qs generalizing ps with
  | nil => rfl
  | cons q rest ih =>
      rw [List.flatMap_cons, List.flatMap_cons, List.foldl_append, List.foldl_append]
      have first : (f q).foldl addNew ps = (g q).foldl addNew ps := by
        rcases h q List.mem_cons_self with same | ⟨nothing, known⟩
        · rw [same]
        · rw [nothing, foldl_addNew_of_isAmong known, List.foldl_nil]
      rw [first]
      refine ih fun r hr => (h r (List.mem_cons_of_mem _ hr)).imp_right fun ⟨nothing, known⟩ => ?_
      exact ⟨nothing, fun s hs => isAmong_mono (prefix_foldl_addNew ..).subset (known s hs)⟩

/-- To make two lists `distinct` is to add the paths of the second one to the first. -/
theorem distinct_append (ps qs : List Path) : distinct (ps ++ qs) = qs.foldl addNew (distinct ps) :=
  List.foldl_append ..

/-- Different locations are all first occurrences. -/
theorem distinct_of_nodup (h : (ps.map Path.parts).Nodup) : distinct ps = ps := by
  induction ps using List.reverseRecOn with
  | nil => rfl
  | append_singleton front p ih =>
      rw [List.map_append, List.map_singleton, List.nodup_append] at h
      obtain ⟨apart, -, new⟩ := h
      have unknown : p.isAmong front = false := by
        rw [← Bool.not_eq_true, isAmong_iff]
        exact fun known => new _ known _ (List.mem_singleton_self _) rfl
      rw [distinct_append, ih apart, List.foldl_cons, List.foldl_nil, addNew_of_not_isAmong unknown]

/-- The first occurrences in a beginning are a beginning of the first occurrences. -/
theorem distinct_mono (h : ps <+: qs) : distinct ps <+: distinct qs := by
  obtain ⟨rest, rfl⟩ := h
  rw [distinct_append]
  exact prefix_foldl_addNew ..

/-! ## Searches -/

variable {seeds : List Path} {brings : Path → List Path} {followed found order : List Path}

/-- **A search on its way**: what is found once some paths were followed. -/
structure Discovers (seeds : List Path) (brings : Path → List Path) (followed found : List Path) :
    Prop where
  /-- What is found are the first occurrences in what was brought. -/
  found_eq : found = distinct (seeds ++ followed.flatMap brings)
  /-- Each path that was followed had been found by then. -/
  founded : ∀ front p, front ++ [p] <+: followed →
    front ++ [p] <+: distinct (seeds ++ front.flatMap brings)

/-- **The order of a whole search**: whatever is found is followed, in the order it was found. -/
def IsDiscovery (seeds : List Path) (brings : Path → List Path) (order : List Path) : Prop :=
  Discovers seeds brings order order

/-- In front of the first step what was found are the seeds, each once. -/
theorem Discovers.start (seeds : List Path) (brings : Path → List Path) :
    Discovers seeds brings [] (distinct seeds) := by
  refine ⟨by simp, fun front p h => ?_⟩
  simp at h

/-- **One path more is followed.** -/
theorem Discovers.follow (h : Discovers seeds brings followed found)
    (next : followed ++ [p] <+: found) :
    Discovers seeds brings (followed ++ [p]) ((brings p).foldl addNew found) := by
  constructor
  · rw [List.flatMap_append, List.flatMap_singleton, ← List.append_assoc, distinct_append,
      ← h.found_eq]
  · intro front q hq
    -- the path that is followed is new among those to be shown, the others were shown before
    rcases List.prefix_concat_iff.mp hq with same | earlier
    · obtain ⟨rfl, -⟩ := List.append_inj' same rfl
      rw [same, ← h.found_eq]
      exact next
    · exact h.founded front q earlier

/-- **Paths that bring nothing** are followed without finding more. -/
theorem Discovers.pass {passed : List Path} (h : Discovers seeds brings followed found)
    (next : followed ++ passed <+: found) (nothing : ∀ p ∈ passed, brings p = []) :
    Discovers seeds brings (followed ++ passed) found := by
  -- one after the other, each a step that finds nothing
  induction passed generalizing followed with
  | nil => rwa [List.append_nil]
  | cons p rest ih =>
      rw [List.append_cons] at next
      have first := h.follow ((List.prefix_append ..).trans next)
      rw [nothing p List.mem_cons_self, List.foldl_nil] at first
      rw [List.append_cons]
      exact ih first next fun q hq => nothing q (List.mem_cons_of_mem _ hq)

/-- What was followed on the way of one search is a beginning of the order of any. -/
theorem Discovers.begins (h : Discovers seeds brings followed found)
    (whole : IsDiscovery seeds brings order) : followed <+: order := by
  -- a path that was followed had been found in what a beginning of the order brings
  have step : ∀ front, front <+: followed → front <+: order := by
    intro front hfront
    induction front using List.reverseRecOn with
    | nil => exact List.nil_prefix
    | append_singleton front p ih =>
        have earlier : front <+: order := ih ((List.prefix_append ..).trans hfront)
        refine (h.founded front p hfront).trans ?_
        have brought := distinct_mono ((List.prefix_append_right_inj seeds).mpr
          (earlier.flatMap brings))
        rwa [← whole.found_eq] at brought
  exact step followed List.prefix_rfl

/-- **There is one order of a whole search.** -/
theorem IsDiscovery.unique {other : List Path} (h : IsDiscovery seeds brings order)
    (h' : IsDiscovery seeds brings other) : order = other :=
  -- each order is a beginning of the other
  (Discovers.begins h h').eq_of_length_le (Discovers.begins h' h).length_le

end ScriptBundle.Path
