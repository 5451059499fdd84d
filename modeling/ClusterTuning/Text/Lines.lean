import ClusterTuning.Text.Pieces

/-!
# Lines of a text

A line ends with a line feed, which a carriage return may precede; what follows
the last line feed is a line of its own unless it is empty.  Main statement: no line
holds a line feed.
-/

namespace ClusterTuning.Text

/-- A line without the carriage return before its end. -/
def stripReturn (line : List Char) : List Char :=
  if line.getLast? = some '\r' then line.dropLast else line

/-- The lines of a text, without their ends. -/
def lines (s : List Char) : List (List Char) :=
  let parts := pieces '\n' s
  parts.dropLast.map stripReturn ++ (parts.getLast?.toList.filter (!·.isEmpty))

theorem mem_of_mem_stripReturn {c : Char} {line : List Char} (h : c ∈ stripReturn line) :
    c ∈ line := by
  rw [stripReturn] at h
  split at h
  · exact List.dropLast_subset line h
  · exact h

/-- No line holds a line feed. -/
theorem not_mem_of_mem_lines {s line : List Char} (h : line ∈ lines s) : '\n' ∉ line := by
  simp only [lines, List.mem_append, List.mem_map, List.mem_filter, Option.mem_toList] at h
  rcases h with ⟨part, hpart, rfl⟩ | ⟨hlast, _⟩
  · exact fun hc => not_mem_of_mem_pieces (List.dropLast_subset _ hpart)
      (mem_of_mem_stripReturn hc)
  · exact not_mem_of_mem_pieces (List.mem_of_getLast? hlast)

end ClusterTuning.Text
