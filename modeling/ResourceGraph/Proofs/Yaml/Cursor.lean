import Mathlib.Data.List.Basic
import Mathlib.Tactic.Ring
import ResourceGraph.Yaml.Cursor

namespace ResourceGraph.Yaml

@[simp] theorem width_nil : width [] = 0 := rfl

theorem foldl_width (n : Nat) (w : List Char) :
    w.foldl (fun n c => n + c.utf8Size) n = n + width w := by
  induction w generalizing n with
  | nil => rfl
  | cons x rest ih =>
      rw [width, List.foldl_cons, List.foldl_cons, ih, ih (0 + _)]
      omega

theorem width_append (v w : List Char) : width (v ++ w) = width v + width w := by
  rw [width, List.foldl_append, foldl_width, foldl_width, Nat.zero_add]

namespace Cursor

def columnAfter (column : Nat) (w : List Char) : Nat :=
  w.foldl (fun n x => if isBreak x then 0 else n + 1) column

def past (c : Cursor) (w : List Char) : Cursor :=
  { c.drop w.length with
    line := c.line + w.countP isBreak, column := columnAfter c.column w }

theorem mk_congr {text text' : List Char} {bound index index' line line' column column' : Nat}
    {h : text.length ≤ bound} {h' : text'.length ≤ bound} (htext : text = text')
    (hindex : index = index') (hline : line = line') (hcolumn : column = column') :
    Cursor.mk text bound h index line column = Cursor.mk text' bound h' index' line' column' := by
  subst htext hindex hline hcolumn
  rfl

@[simp] theorem bound_past (c : Cursor) (w : List Char) : (c.past w).bound = c.bound := rfl

@[simp] theorem line_past (c : Cursor) (w : List Char) :
    (c.past w).line = c.line + w.countP isBreak := rfl

@[simp] theorem column_past (c : Cursor) (w : List Char) :
    (c.past w).column = columnAfter c.column w := rfl

theorem past_past (c : Cursor) (v w : List Char) : (c.past v).past w = c.past (v ++ w) := by
  refine mk_congr ?_ ?_ ?_ ?_
  · rw [List.length_append]
    exact List.drop_drop
  · change c.index + width (c.text.take v.length) + width ((c.text.drop v.length).take w.length) =
      c.index + width (c.text.take (v ++ w).length)
    rw [List.length_append, List.take_add, width_append, Nat.add_assoc]
  · rw [List.countP_append, ← Nat.add_assoc]
    rfl
  · rw [columnAfter, columnAfter, List.foldl_append]
    rfl

@[simp] theorem past_nil (c : Cursor) : c.past [] = c := by
  refine mk_congr rfl ?_ rfl rfl
  change c.index + width (c.text.take 0) = c.index
  rw [List.take_zero, width_nil, Nat.add_zero]

variable {c : Cursor} {w rest : List Char}

theorem text_past (h : c.text = w ++ rest) : (c.past w).text = rest := by
  change c.text.drop w.length = rest
  rw [h, List.drop_left]

theorem index_past (h : c.text = w ++ rest) : (c.past w).index = c.index + width w := by
  change c.index + width (c.text.take w.length) = c.index + width w
  rw [h, List.take_left]

theorem length_lt_bound {x : Char} (h : c.text = w ++ x :: rest) : w.length < c.bound := by
  have hlength := c.length_le
  rw [h, List.length_append, List.length_cons] at hlength
  omega

theorem columnAfter_of_unbroken (column : Nat) (h : ∀ x ∈ w, isBreak x = false) :
    columnAfter column w = column + w.length := by
  induction w generalizing column with
  | nil => rfl
  | cons x rest ih =>
      have hx := h x List.mem_cons_self
      have hrest := ih (column + 1) fun y hy => h y (List.mem_cons_of_mem x hy)
      rw [columnAfter, List.foldl_cons, hx, List.length_cons]
      rw [columnAfter] at hrest
      simp only [Bool.false_eq_true, if_false, hrest]
      omega

theorem columnAfter_eq_zero_iff (column : Nat) (h : w ≠ []) :
    columnAfter column w = 0 ↔ w.getLast?.any isBreak = true := by
  obtain ⟨v, x, rfl⟩ := (List.eq_nil_or_concat w).resolve_left h
  rw [List.concat_eq_append, columnAfter, List.foldl_append, List.getLast?_concat,
    Option.any_some, List.foldl_cons, List.foldl_nil]
  split
  · next hx => simp [hx]
  · next hx => simp [hx]

theorem advance_eq_past (c : Cursor) (h : ∀ x ∈ w, isBreak x = false) :
    c.advance w.length = c.past w := by
  refine mk_congr rfl rfl ?_ (columnAfter_of_unbroken c.column h).symm
  rw [List.countP_eq_zero.2 fun x hx => Bool.eq_false_iff.1 (h x hx)]
  rfl

theorem advance_one {x : Char} (c : Cursor) (h : isBreak x = false) : c.advance 1 = c.past [x] := by
  refine advance_eq_past (w := [x]) c fun y hy => ?_
  rw [List.mem_singleton.1 hy]
  exact h

def broken (x : Char) : List Char := if x = '\u2028' ∨ x = '\u2029' then [x] else ['\n']

theorem lineBreak_of_break {x : Char} (htext : c.text = x :: rest) (hx : isBreak x = true)
    (hreturn : x ≠ '\r') : c.lineBreak = (broken x, c.past [x]) := by
  have hpast : c.newLine 1 = c.past [x] := by
    refine mk_congr rfl rfl ?_ ?_ <;> simp [columnAfter, hx]
  rw [lineBreak, htext]
  split
  · next heq => exact absurd (List.cons.inj heq).1 hreturn
  · next y _ _ heq =>
      obtain rfl := (List.cons.inj heq).1
      simp only [isBreak, Bool.or_eq_true, beq_iff_eq] at hx
      rcases hx with (((rfl | rfl) | rfl) | rfl) | rfl <;> simp [hpast, broken, isBreak]
  · next heq => exact absurd heq (by simp)

end Cursor

end ResourceGraph.Yaml
