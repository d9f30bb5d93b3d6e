import ScriptBundle.CommandLine.Run
import ScriptBundle.Proofs.Stream.Pulls
import ScriptBundle.Proofs.Walk.Views

/-! # Artifacts written while they are made

The command line asks for a chunk, puts it into a sink, and writes what goes through the sink to the
file of the artifact, before it asks for the next chunk. So a chunk is made over files that hold what
was written so far. As long as these look the same to the walk, the chunks are those that are made
over the files as they were.

* **`Destination.seen`** — the files as a later chunk sees them;
* **`ChunkStream.Stays`** — a stream whose walk stays in a closed set;
* **`CommandLine.all_of_stream`** — the chunks that are written are those of the stream over the
  files as they were. -/

namespace ScriptBundle

/-! ## Files -/

namespace Destination

variable {destination : Destination} {w : Workspace} {before now : List UInt8}

/-- **The files as a later chunk sees them**, when some `bytes` have reached the destination. -/
def seen (destination : Destination) (bytes : List UInt8) (w : Workspace) : Workspace :=
  destination.deliver [] bytes w

/-- **What has reached the destination since** is put behind what was there. -/
theorem deliver_seen (grown : before <+: now) :
    destination.deliver before now (destination.seen before w) = destination.seen now w := by
  cases destination with
  | channel => rfl
  | file place position =>
      obtain ⟨rest, rfl⟩ := grown
      simp only [deliver, seen, List.drop_left, List.length_nil, List.drop_zero, Nat.add_zero]
      rw [FileTree.overwrite_append]

/-- **The files with something in a file** are those as they were, or hold other `bytes` there. -/
theorem seen_file (place : Place) (position : Nat) (bytes : List UInt8) (w : Workspace) :
    (file place position).seen bytes w = w ∨
      ∃ raw, (file place position).seen bytes w = w.holding place raw := by
  simp only [seen, deliver, FileTree.overwrite]
  split
  · exact .inr ⟨_, rfl⟩
  · exact .inl rfl

/-- **A file that was emptied** holds what has reached it since. -/
theorem seen_opened (w : Workspace) (place : Place) (bytes : List UInt8) :
    (file place 0).seen bytes (w.holding place []) = w.holding place bytes := by
  simp only [seen, deliver, FileTree.overwrite, Workspace.holding, FileTree.content?_put, if_true,
    FileTree.put_put]
  cases bytes <;> simp [FileTree.overwritten, Content.raw]

end Destination

/-! ## Streams -/

namespace ChunkStream

variable {P : Project} {w w' : Workspace} {x : Exclusions} {S : Path → Prop} {s : ChunkStream}

/-- **The stream over other files.** -/
def onFiles (s : ChunkStream) (w : Workspace) : ChunkStream := { s with walk := s.walk.onFiles w }

/-- **A stream whose `walk` stays in a set** of locations, up to its end. -/
def Stays (P : Project) (w : Workspace) (x : Exclusions) (S : Path → Prop) (s : ChunkStream) : Prop :=
  s.phase ≠ .done → s.walk.Stays P w x S

/-- **A pull** leaves the walk of a stream in a closed set. -/
theorem Stays.next (leaves : ∀ p, (P.registry.compile w p).2 = w)
    (closed : ∀ p, S p → ∀ q ∈ P.broughtPast w x p, S q) (h : s.Stays P w x S) :
    (s.next P).2.Stays P w x S := by
  cases phase : s.phase with
  | header =>
      rw [next_header phase]
      exact fun _ => h (by simp [phase])
  | modules =>
      cases e : s.walk.next P with
      | mk made behind =>
          rcases made with _ | cause | record
          · rw [next_footer phase e]
            exact fun more => absurd rfl more
          · rw [next_failure phase e]
            exact fun more => absurd rfl more
          · rw [next_module phase e]
            exact fun _ => (h (by simp [phase])).next leaves closed e
  | done =>
      rw [next_done phase]
      exact h

/-- **A pull over other files** where all of the set looks the same. -/
theorem Stays.next_onFiles (leaves : P.registry.Holds fun _ compiler => compiler.LeavesFiles)
    (alike : ∀ p, S p → x.holdsFile p = false → P.SeesAlike w w' x p) (h : s.Stays P w x S) :
    (s.onFiles w').next P = ((s.next P).1, (s.next P).2.onFiles w') :=
  next_mapWalk (f := (Walk.onFiles · w')) fun phase =>
    (h (by simp [phase])).next_onFiles leaves alike

end ChunkStream

namespace CommandLine

variable {P : Project} {w opened : Workspace} {x : Exclusions} {S : Path → Prop}
  {destination : Destination}

/-- **The chunks that are written** to the end are those of the stream over the files as they were,
where all that the walk comes to looks the same whatever has reached the `destination`, among the files
as they were when it was `opened`. -/
theorem all_of_stream {limit : Nat} {s after : ChunkStream} {sink last : Sink} {now : Workspace}
    (leaves : P.registry.Holds fun _ compiler => compiler.LeavesFiles)
    (closed : ∀ p, S p → ∀ q ∈ P.broughtPast w x p, S q)
    (alike : ∀ bytes p, S p → x.holdsFile p = false → P.SeesAlike w (destination.seen bytes opened) x p)
    (alike_now : ∀ p, S p → x.holdsFile p = false → P.SeesAlike w now x p)
    (next : ∀ bytes, sink.through <+: bytes →
      destination.deliver sink.through bytes now = destination.seen bytes opened)
    (stays : s.Stays P w x S)
    (written : stream P destination limit sink (s.onFiles now) = some (none, after, last)) :
    ∃ chunks final, s.all P limit = some (.ok chunks, final) ∧
      destination.deliver last.through last.total after.walk.files =
        destination.seen last.total opened ∧
      last.total = sink.total ++ Utf8.encode (String.join chunks).toList := by
  -- on the pulls; each is made over what has reached the destination by then
  induction limit generalizing s sink now with
  | zero => simp [stream] at written
  | succ limit ih =>
      have pulled := stays.next_onFiles leaves alike_now
      have left := stays.next (Registry.files_compile leaves w) closed
      rw [stream, pulled] at written
      rw [ChunkStream.all]
      cases e : s.next P with
      | mk result behind =>
          rw [e] at written left
          rcases result with cause | _ | chunk
          · simp at written
          · obtain ⟨rfl, rfl⟩ : behind.onFiles now = after ∧ sink = last := by
              simpa using written
            exact ⟨[], behind, rfl, next _ sink.through_prefix_total, by
              simp [String.join, Utf8.encode]⟩
          · let fuller := sink.write (Utf8.encode chunk.toList)
            have delivered := next fuller.through (Sink.through_prefix_write ..)
            have later : stream P destination limit fuller
                (behind.onFiles (destination.seen fuller.through opened)) =
                  some (none, after, last) := by
              rw [← delivered]
              exact written
            obtain ⟨chunks, final, whole, same, total⟩ := ih (alike fuller.through)
              (fun bytes grown => Destination.deliver_seen grown) left later
            refine ⟨chunk :: chunks, final, ?_, same, ?_⟩
            · dsimp only
              rw [whole]
              rfl
            · rw [total, Sink.total_write, String.join_cons, String.toList_append,
                Utf8.encode_append, List.append_assoc]

end CommandLine

end ScriptBundle
