import ResourceGraph.Text.Split

namespace ResourceGraph.Text

def segments (sep : Char) (cs : List Char) : List (List Char) :=
  (split sep cs).filter fun part => !part.isEmpty

variable {sep : Char}

@[simp]
theorem segments_nil : segments sep [] = [] := rfl

@[simp]
theorem segments_cons_self (cs : List Char) : segments sep (sep :: cs) = segments sep cs := by
  simp [segments, split]

theorem segments_append_cons (before after : List Char) :
    segments sep (before ++ sep :: after) = segments sep before ++ segments sep after := by
  rw [segments, split_append, List.filter_append]
  rfl

theorem segments_of_not_mem {part : List Char} (h : sep ∉ part) (hne : part ≠ []) :
    segments sep part = [part] := by
  simp [segments, split_of_not_mem h, hne]

@[simp]
theorem segments_replicate_append (n : Nat) (cs : List Char) :
    segments sep (List.replicate n sep ++ cs) = segments sep cs := by
  induction n with
  | zero => rfl
  | succ n ih => rw [List.replicate_succ, List.cons_append, segments_cons_self, ih]

@[simp]
theorem segments_replicate (n : Nat) : segments sep (List.replicate n sep) = [] := by
  rw [← List.append_nil (List.replicate n sep), segments_replicate_append, segments_nil]

theorem segments_append_replicate (cs : List Char) (n : Nat) :
    segments sep (cs ++ List.replicate n sep) = segments sep cs := by
  cases n with
  | zero => rw [List.replicate_zero, List.append_nil]
  | succ n => rw [List.replicate_succ, segments_append_cons, segments_replicate, List.append_nil]

theorem segments_append_name (before : List Char) (n : Nat) {name : List Char} (h : sep ∉ name)
    (hne : name ≠ []) :
    segments sep (before ++ List.replicate (n + 1) sep ++ name) =
      segments sep before ++ [name] := by
  rw [List.replicate_succ', ← List.append_assoc, List.append_assoc, List.singleton_append,
    segments_append_cons, segments_append_replicate, segments_of_not_mem h hne]

theorem isSuffix_of_append_cons {word before after : List Char} (hword : sep ∉ word)
    (h : word <:+ before ++ sep :: after) : word <:+ after := by
  have hafter : sep :: after <:+ before ++ sep :: after := List.suffix_append before _
  rcases List.suffix_or_suffix_of_suffix h hafter with hshort | hlong
  · rcases List.suffix_cons_iff.mp hshort with rfl | hshort
    · exact absurd List.mem_cons_self hword
    · exact hshort
  · exact absurd (hlong.subset List.mem_cons_self) hword

end ResourceGraph.Text
