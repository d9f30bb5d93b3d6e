import ScriptBundle.Artifact.Layout
import ScriptBundle.Walk.Basic

/-! # Chunk streams

An artifact made piece by piece: its head, a block for each module, its end. A step of the walk is
made only when its block is asked for. Read as bytes, a new chunk is made only once the one before
has been handed out completely.

* **`ChunkStream.next`** — the next chunk; behind the end, and behind an error, there is none;
* **`ChunkStream.read`** — some bytes, no more than are asked for;
* **`ChunkStream.all`** — the chunks until none is left, if that is so within a limit;
* **`ChunkStream.report`** — what was packed. -/

namespace ScriptBundle

/-- **How far a stream is.** -/
inductive Phase
  /-- In front of the head. -/
  | header
  /-- Among the modules. -/
  | modules
  /-- Behind the end, or behind an error. -/
  | done
deriving DecidableEq, Repr, Inhabited

/-- **A chunk `stream`.** -/
structure ChunkStream where
  /-- The walk that finds the modules. -/
  walk : Walk
  /-- The fixed parts of the artifact. -/
  artifact : Artifact
  /-- How far the stream is. -/
  phase : Phase
  /-- The modules whose blocks were made. -/
  modules : List Identity
  /-- The bytes of the latest chunk that were not handed out yet. -/
  rest : List UInt8
deriving Inhabited

/-- **What was packed.** -/
structure Report where
  /-- The modules, in the order of their blocks. -/
  modules : List Identity
  /-- The references without a target. -/
  unresolved : List UnresolvedReference
  /-- The groups of modules that refer to each other in a circle. -/
  circularGroups : List (List Identity)
  /-- The number of references between modules, repeated ones counted once. -/
  dependencyCount : Nat
deriving DecidableEq, Repr

/-- The fixed parts of the `artifact` of a project. -/
def Project.artifact (P : Project) : Artifact := ⟨.ofEntry P.entry, P.extensions⟩

namespace ChunkStream

/-- **The stream of a `walk`**, in front of the head. -/
def start (walk : Walk) (artifact : Artifact) : ChunkStream := ⟨walk, artifact, .header, [], []⟩

/-- Whether the stream is behind its end or behind an error. -/
def isFinished (s : ChunkStream) : Bool := s.phase == .done

/-- **The next chunk**, if there is one, and the stream behind it. -/
def next (P : Project) (s : ChunkStream) : Except BundleError (Option String) × ChunkStream :=
  match s.phase with
  | .header => (.ok (some s.artifact.header), { s with phase := .modules })
  | .modules =>
    match s.walk.next P with
    | (some (.ok record), walk) =>
      (.ok (some (Artifact.block record.identity record.linked)),
        { s with walk := walk, modules := s.modules ++ [record.identity] })
    | (some (.error e), walk) => (.error e, { s with walk := walk, phase := .done })
    | (none, walk) => (.ok (some Artifact.footer), { s with walk := walk, phase := .done })
  | .done => (.ok none, s)

/-- The first bytes that were not handed out yet, and the stream behind them. -/
def hand (n : Nat) (s : ChunkStream) : List UInt8 × ChunkStream :=
  (s.rest.take n, { s with rest := s.rest.drop n })

/-- **Some `bytes`**, at most as many as asked for, and the stream behind them. Where bytes are asked
for, there are none only behind the end or behind an error. -/
def read (P : Project) (n : Nat) (s : ChunkStream) :
    Except BundleError (List UInt8) × ChunkStream :=
  if n = 0 then (.ok [], s)
  else if s.rest.isEmpty then
    match s.next P with
    | (.error e, after) => (.error e, after)
    | (.ok none, after) => (.ok [], after)
    | (.ok (some chunk), after) =>
      let (bytes, after) := hand n { after with rest := Utf8.encode chunk.toList }
      (.ok bytes, after)
  else
    let (bytes, after) := hand n s
    (.ok bytes, after)

/-- **The chunks until none is left** or one fails, and the stream behind them. There is no result
where this takes more pulls than the limit. -/
def all (P : Project) (limit : Nat) (s : ChunkStream) :
    Option (Except BundleError (List String) × ChunkStream) :=
  match limit with
  | 0 => none
  | limit + 1 =>
    match s.next P with
    | (.error e, after) => some (.error e, after)
    | (.ok none, after) => some (.ok [], after)
    | (.ok (some chunk), after) =>
      (all P limit after).map fun (chunks, final) => (chunks.map (chunk :: ·), final)

/-- **What was packed** so far. -/
def report (s : ChunkStream) : Report where
  modules := s.modules
  unresolved := s.walk.unresolved
  circularGroups := s.walk.graph.circularGroups
  dependencyCount := s.walk.graph.dependencyCount

end ChunkStream

end ScriptBundle
