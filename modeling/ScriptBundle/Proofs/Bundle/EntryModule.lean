import ScriptBundle.Proofs.Artifact.Header
import ScriptBundle.Proofs.Bundle.Modules

/-! # The module an artifact runs

The head of an artifact installs an identity that is made of the name of the entry script, and its end
loads what is installed. The modules are made by a walk, under identities that are made of whole
paths. Both give the entry script one identity, and the walk makes its module first, unless the options
exclude it:

* **`Artifact.Runs`** — what the head and the end of an artifact do;
* **`Artifact.DefinesFirst`** — an artifact whose first module has some identity;
* **`Walk.Drains.exists_cons_of_queue`** — a walk makes a module of what waits first;
* **`bundle_defines_entry`** — what holds of every bundle that succeeds. -/

namespace ScriptBundle

open Walk (Drains Fresh)

/-- **An artifact that runs a module**: its head installs the `identity`, and its end loads what is
installed. -/
structure Artifact.Runs (a : Artifact) (identity : Identity) : Prop where
  /-- The identity is that of the entry script. -/
  entry_eq : a.entry = identity
  /-- The head sets a variable to a JSON text for the identity, unless the name of the entry script
  holds a placeholder of the loader. -/
  installs : ¬Loader.hostModulesMark.toList <:+: identity.text.toList →
    ¬Loader.extensionsMark.toList <:+: identity.text.toList →
    ∃ quoted rest : String, a.header = "/** start of bundle */\n;(function () \x7b\n" ++
        "var __enpaki_entry = \x22" ++ quoted ++ "\x22;\n" ++ rest ∧
      Json.decode? quoted.toList = some identity.text.toList
  /-- The end loads what the variable is set to. -/
  loads : ∃ rest, Artifact.footer =
    "\nvar __enpaki_result = __enpaki_require(null, __enpaki_entry);\n" ++ rest

/-- An artifact runs its `entry` script. -/
theorem Artifact.runs_entry (a : Artifact) : a.Runs a.entry where
  entry_eq := rfl
  installs host extensions := by
    refine a.exists_header_eq ?_
    simp only [laterMarks, List.forall_mem_cons]
    exact ⟨host, extensions, by simp⟩
  loads := by
    refine ⟨String.join (List.map (· ++ "\n")
      ["if (typeof module === 'object' && module !== null && typeof module.exports !== 'undefined') \x7b",
        "  module.exports = __enpaki_result;", "\x7d", "return __enpaki_result;", "\x7d());",
        "/** end of bundle */"]), ?_⟩
    decide +kernel

/-- **An artifact that defines a module first**: the module is the first that is reported, and its
`block` is the first behind the head. -/
structure Artifact.DefinesFirst (a : Artifact) (output : Output) (identity : Identity) : Prop where
  /-- The module is the first that is reported. -/
  head?_modules : output.report.modules.head? = some identity
  /-- Its block is the first. -/
  code_eq : ∃ source rest : String,
    output.code = a.header ++ Artifact.block identity source ++ rest ++ Artifact.footer

namespace Walk

variable {P : Project} {walk final : Walk} {steps : List (ModuleRecord × Walk)} {gone : List Path}
  {location : Path}

/-- **A `walk` makes a module of what waits first**, unless that is passed over. -/
theorem Drains.exists_cons_of_queue (order : Orderly gone walk)
    (drained : Drains P walk steps none final) {waiting : List Path}
    (first : walk.queue = location :: waiting) (kept : walk.passesOver location = false) :
    ∃ step rest, steps = step :: rest ∧ step.1.location = location := by
  have queued : walk.queue.dropWhile walk.passesOver = location :: waiting := by
    rw [first, List.dropWhile_cons_of_neg (by simp [kept])]
  cases drained with
  | done last =>
      rw [dropWhile_of_next_none last] at queued
      exact absurd queued.symm (List.cons_ne_nil _ _)
  | @step _ after _ record rest _ e later =>
      refine ⟨_, _, rfl, ?_⟩
      -- what leaves the queue is the location that waits first, and the module is made of the last
      have taken := (makes_of_next order e).taken_eq
      rw [taken_cons queued] at taken
      exact (List.singleton_inj.mp (List.append_cancel_left taken)).symm

end Walk

namespace Bundle

variable {P : Project} {w : Workspace} {walk : Walk} {entry : Path} {options : Options}

/-- The `entry` script waits in front of everything else. -/
theorem exists_queue_of_setup (made : (setup w entry options).2 = .ok (P, walk)) :
    ∃ waiting, walk.queue = P.entry :: waiting := by
  obtain ⟨fresh, scheduled⟩ := setup_spec made
  obtain ⟨waiting, behind⟩ := Path.prefix_foldl_addNew [P.entry]
    (options.included.flatMap (P.addedBy w walk.exclusions))
  exact ⟨waiting, by rw [fresh.queue_eq, scheduled]; exact behind.symm⟩

end Bundle

variable {P : Project} {w : Workspace} {walk : Walk} {entry : Path} {options : Options}
  {limit : Nat} {output : Output}

/-- **An `artifact` defines the module it runs exactly if its entry script is not excluded**, for every
bundle that succeeds. The identity the artifact runs is the one the walk gives the entry script. If no
excluded specifier means the entry script, its module is the first that is reported and its block the
first behind the head; if one does, no module has its identity. -/
theorem bundle_defines_entry (made : (Bundle.setup w entry options).2 = .ok (P, walk))
    (h : bundle limit w entry options = some (.ok output)) :
    Identity.ofEntry P.entry = P.identityOf P.entry ∧
      P.artifact.Runs (P.identityOf P.entry) ∧
      (¬options.LeavesOut P w P.entry →
        P.artifact.DefinesFirst output (P.identityOf P.entry)) ∧
      (options.LeavesOut P w P.entry → P.identityOf P.entry ∉ output.report.modules) := by
  obtain ⟨normal, file⟩ := Bundle.isFile_entry made
  have own := Project.identityOf_entry normal file
  obtain ⟨P', walk', steps, final, made', drained, rfl⟩ := bundle_eq_ok_iff.mp ⟨limit, h⟩
  obtain ⟨rfl, rfl⟩ := Prod.mk.inj (Except.ok.inj (made'.symm.trans made))
  have fresh := (Bundle.setup_spec made).1
  refine ⟨own.symm, own ▸ P'.artifact.runs_entry, fun packed => ?_, fun excluded listed => ?_⟩
  · have kept : walk'.passesOver P'.entry = false := by
      have outside : walk'.exclusions.holdsFile P'.entry = false := by
        rw [← Bool.not_eq_true, Bundle.holdsFile_of_setup made]
        exact packed
      rw [Walk.passesOver, Walk.hasEmitted, fresh.emitted_eq, outside]
      rfl
    obtain ⟨waiting, first⟩ := Bundle.exists_queue_of_setup made
    obtain ⟨step, rest, rfl, place⟩ := drained.exists_cons_of_queue fresh.orderly first kept
    have identity : step.1.identity = P'.identityOf P'.entry := by
      rw [(Bundle.identity_of_mem made drained List.mem_cons_self).2, place]
    refine ⟨by simp [identity], step.1.linked,
      String.join (rest.map (ChunkStream.blockOf ·.1)), ?_⟩
    rw [← identity]
    simp [ChunkStream.blockOf, String.append_assoc]
  · obtain ⟨step, hstep, same⟩ := List.mem_map.mp listed
    obtain ⟨rooted, identity⟩ := Bundle.identity_of_mem made drained hstep
    -- a module with the identity is made of the entry script, which is kept out
    have place := Project.parts_eq_entry_of_identityOf_eq normal file rooted (identity.symm.trans same)
    have outside := drained.holdsFile_location fresh.orderly hstep
    rw [Exclusions.holdsFile, place, ← Exclusions.holdsFile,
      (Bundle.holdsFile_of_setup made _).mpr excluded] at outside
    exact absurd outside.symm Bool.false_ne_true

/-- Options that include a script and exclude a package. -/
def pickedOptions : Options := ⟨["./b"], ["x"], [], .fail⟩

/-- The `bundle` of two scripts under these options defines the first of them first. -/
theorem bundle_defines_entry_twoScripts :
    ∃ limit output P walk,
      (Bundle.setup twoScripts ⟨"a.js"⟩ pickedOptions).2 = .ok (P, walk) ∧
      bundle limit twoScripts ⟨"a.js"⟩ pickedOptions = some (.ok output) ∧
      ¬pickedOptions.LeavesOut P twoScripts P.entry ∧
      P.identityOf P.entry = ⟨"/a.js"⟩ ∧ P.artifact.Runs ⟨"/a.js"⟩ ∧
      P.artifact.DefinesFirst output ⟨"/a.js"⟩ := by
  obtain ⟨output, whole, listed⟩ : ∃ output,
      bundle 10 twoScripts ⟨"a.js"⟩ pickedOptions = some (.ok output) ∧
        output.report.modules = [⟨"/a.js"⟩, ⟨"/b.js"⟩] := by
    have modules : ((bundle 10 twoScripts ⟨"a.js"⟩ pickedOptions).bind Except.toOption).map
        (·.report.modules) = some [⟨"/a.js"⟩, ⟨"/b.js"⟩] := by
      decide +kernel
    obtain ⟨output, found, listed⟩ := Option.map_eq_some_iff.mp modules
    exact ⟨output, eq_some_ok_of_toOption found, listed⟩
  obtain ⟨P, walk, -, -, made, -⟩ := bundle_eq_ok_iff.mp ⟨10, whole⟩
  obtain ⟨own, runs, first, out⟩ := bundle_defines_entry made whole
  -- the identity is read off the path of the entry script
  obtain ⟨-, -, -, rooted, -⟩ := Bundle.setup_ok made
  have place : P.entry = ⟨"/a.js"⟩ := by
    have absolute : Bundle.entryOf twoScripts ⟨"a.js"⟩ = .ok ⟨"/a.js"⟩ := by decide +kernel
    exact Except.ok.inj (rooted.symm.trans absolute)
  have identity : P.identityOf P.entry = ⟨"/a.js"⟩ := by
    rw [← own, place]
    decide +kernel
  have packed : ¬pickedOptions.LeavesOut P twoScripts P.entry := by
    intro excluded
    refine out excluded ?_
    rw [identity, listed]
    exact List.mem_cons_self
  exact ⟨10, output, P, walk, made, whole, packed, identity, identity ▸ runs, identity ▸ first packed⟩

/-- A single script. -/
def loneScript : Workspace := ⟨⟨[(["e.js"], .text "")], []⟩, []⟩

/-- **An entry script that is excluded** is no module: the `bundle` succeeds without any. -/
theorem bundle_defines_entry_excluded :
    ∃ limit output, bundle limit loneScript ⟨"e.js"⟩ ⟨[], ["./e.js"], [], .fail⟩ =
        some (.ok output) ∧ output.report.modules = [] := by
  have modules : ((bundle 10 loneScript ⟨"e.js"⟩ ⟨[], ["./e.js"], [], .fail⟩).bind
      Except.toOption).map (·.report.modules) = some [] := by
    decide +kernel
  obtain ⟨output, found, listed⟩ := Option.map_eq_some_iff.mp modules
  exact ⟨10, output, eq_some_ok_of_toOption found, listed⟩

end ScriptBundle
