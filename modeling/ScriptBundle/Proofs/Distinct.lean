import Mathlib.Data.List.Basic

/-! # First occurrences

A list without its later occurrences keeps each entry where it first came. Such lists are followed by
what comes first and by the rest without it.

* **`Distinct.first_induction`** — the induction on first occurrences;
* **`Distinct.eraseDups_prefix_append`, `Distinct.filter_eraseDups`** — entries added and taken out;
* **`Distinct.add`, `Distinct.eraseDups_concat`** — first occurrences are kept one entry at a time;
* **`Distinct.map_eraseDups`** — entries told apart by what they are mapped to. -/

namespace ScriptBundle.Distinct

variable {α : Type} [BEq α]

/-- **The induction on first occurrences**: the first entry, and the rest without it. -/
@[elab_as_elim] theorem first_induction {motive : List α → Prop} (nil : motive [])
    (cons : ∀ x xs, motive (xs.filter fun y => !y == x) → motive (x :: xs)) (xs : List α) :
    motive xs := by
  match xs with
  | [] => exact nil
  | x :: rest => exact cons x rest (first_induction nil cons _)
termination_by xs.length
decreasing_by exact Nat.lt_succ_of_le (List.length_filter_le _ _)

variable [LawfulBEq α]

/-- First occurrences are distinct. -/
theorem nodup_eraseDups (xs : List α) : xs.eraseDups.Nodup := by
  induction xs using first_induction with
  | nil => exact List.nodup_nil
  | cons x xs ih =>
      rw [List.eraseDups_cons, List.nodup_cons, List.mem_eraseDups]
      exact ⟨by simp, ih⟩

/-- **Entries that come later** move none of the first occurrences. -/
theorem eraseDups_prefix_append (xs ys : List α) : xs.eraseDups <+: (xs ++ ys).eraseDups := by
  rw [List.eraseDups_append]
  exact List.prefix_append _ _

/-- Entries that came before add nothing. -/
theorem eraseDups_append_of_subset {xs ys : List α} (sub : ys ⊆ xs) :
    (xs ++ ys).eraseDups = xs.eraseDups := by
  have nothing : ys.removeAll xs = [] := List.filter_eq_nil_iff.mpr fun y hy => by simp [sub hy]
  rw [List.eraseDups_append, nothing, List.eraseDups_nil, List.append_nil]

/-- **A part that comes twice** adds what it adds where it first comes. -/
theorem eraseDups_repeated (xs ys zs : List α) :
    (xs ++ ys ++ ys ++ zs).eraseDups = (xs ++ ys ++ zs).eraseDups := by
  have same : zs.removeAll (xs ++ ys ++ ys) = zs.removeAll (xs ++ ys) :=
    List.filter_congr fun z _ => by simp
  rw [List.eraseDups_append, same, eraseDups_append_of_subset (List.subset_append_right xs ys),
    ← List.eraseDups_append]

/-- **Entries taken out** before or after the later occurrences. -/
theorem filter_eraseDups (p : α → Bool) (xs : List α) :
    xs.eraseDups.filter p = (xs.filter p).eraseDups := by
  induction xs using first_induction with
  | nil => rfl
  | cons x xs ih =>
      by_cases kept : p x
      · rw [List.eraseDups_cons, List.filter_cons_of_pos kept, List.filter_cons_of_pos kept,
          List.eraseDups_cons, ih, List.filter_filter, List.filter_filter]
        simp only [Bool.and_comm]
      · have other : ((xs.filter p).filter fun y => !y == x) = xs.filter p := by
          refine List.filter_eq_self.mpr fun y hy => ?_
          have apart : y ≠ x := fun same => kept (same ▸ (List.mem_filter.mp hy).2)
          simpa using apart
        rw [List.eraseDups_cons, List.filter_cons_of_neg kept, List.filter_cons_of_neg kept, ih,
          ← other, List.filter_filter, List.filter_filter]
        simp only [Bool.and_comm]

/-! ## One entry at a time -/

/-- **An entry added** to distinct ones: it comes last, unless it is among them. -/
def add (xs : List α) (x : α) : List α := if x ∈ xs then xs else xs ++ [x]

/-- What is in a list already is not added. -/
theorem add_of_mem {xs : List α} {x : α} (h : x ∈ xs) : add xs x = xs := if_pos h

/-- What is new is added behind the others. -/
theorem add_of_notMem {xs : List α} {x : α} (h : x ∉ xs) : add xs x = xs ++ [x] := if_neg h

/-- **The first occurrences with one entry more** behind all others. -/
theorem eraseDups_concat (xs : List α) (x : α) : (xs ++ [x]).eraseDups = add xs.eraseDups x := by
  by_cases known : x ∈ xs
  · rw [add_of_mem (List.mem_eraseDups.mpr known), eraseDups_append_of_subset (by simpa using known)]
  · have stays : [x].removeAll xs = [x] := by simp [List.removeAll, known]
    rw [add_of_notMem (fun h => known (List.mem_eraseDups.mp h)), List.eraseDups_append, stays]
    rfl

/-- **Entries that are told apart** by what they are mapped to have the same first occurrences. -/
theorem map_eraseDups {β : Type} [BEq β] [LawfulBEq β] {f : α → β} {xs : List α}
    (apart : ∀ x ∈ xs, ∀ y ∈ xs, f x = f y → x = y) : (xs.map f).eraseDups = xs.eraseDups.map f := by
  induction xs using first_induction with
  | nil => rfl
  | cons x xs ih =>
      have inner : ∀ y ∈ xs.filter (fun y => !y == x), y ∈ x :: xs := by
        intro y hy
        exact List.mem_cons_of_mem x (List.mem_filter.mp hy).1
      have rest := ih fun y hy z hz => apart y (inner y hy) z (inner z hz)
      have same : (xs.map f).filter (fun b => !b == f x) = (xs.filter fun y => !y == x).map f := by
        rw [List.filter_map]
        refine congrArg (List.map f) (List.filter_congr fun y hy => ?_)
        have told : f y = f x ↔ y = x :=
          ⟨apart y (List.mem_cons_of_mem x hy) x List.mem_cons_self, fun e => e ▸ rfl⟩
        by_cases e : y = x
        · simp [e]
        · simp [e, told]
      rw [List.map_cons, List.eraseDups_cons, List.eraseDups_cons, List.map_cons, same, rest]

end ScriptBundle.Distinct
