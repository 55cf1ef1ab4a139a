import XPathBench.Proofs.Text.Lines

/-!
# Breaks between lines

The line that a position lies on is told by the breaks before it, and breaks are counted part by
part where no break goes on from one part to the next.

* `breaks_append`: the breaks in a text of two parts
* `Position.line_after`: the line reached behind a text
* `startingBefore_append`: the characters before an offset into the second of two parts
-/

namespace XPathBench

namespace Text

/-- The number of breaks between the lines of a text. -/
def breaks (cs : List Char) : Nat := (lines cs).length - 1

/-- No break begins at the end of the first text and ends at the start of the second one. -/
def Apart (front back : List Char) : Prop :=
  front.getLast? = some '\r' → back.head? ≠ some '\n'

variable {c : Char} {front back cs : List Char}

theorem breaks_eq {init : List (List Char)} {last : List Char} (h : lines cs = init ++ [last]) :
    breaks cs = init.length := by
  rw [breaks, h, List.length_append, List.length_singleton, Nat.add_sub_cancel]

theorem length_lines (cs : List Char) : (lines cs).length = breaks cs + 1 :=
  (Nat.succ_pred_eq_of_pos (List.length_pos_iff.mpr (lines_ne_nil cs))).symm

theorem Apart.tail (h : Apart (c :: front) back) : Apart front back := fun hlast =>
  h (by rw [List.getLast?_cons, hlast, Option.getD_some])

theorem apart_of_getLast? (h : front.getLast? = some c) (hc : c ≠ '\r') : Apart front back :=
  fun hlast => absurd (Option.some.inj (h.symm.trans hlast)) hc

/-- The last line of the first part and the first line of the second one are one line. -/
theorem length_lines_append (h : Apart front back) :
    (lines (front ++ back)).length + 1 = (lines front).length + (lines back).length := by
  fun_induction lines front with
  | case1 => exact Nat.add_comm _ _
  | case2 rest ih =>
    have hrest := ih h.tail.tail
    simp only [List.cons_append, lines, List.length_cons]
    omega
  | case3 c rest hcrlf hbreak ih =>
    have hhalf : ¬ (c = '\r' ∧ (rest ++ back).head? = some '\n') := by
      rintro ⟨rfl, hnext⟩
      cases rest with
      | nil => exact h rfl hnext
      | cons d rest => exact hcrlf rest rfl (by rw [Option.some.inj hnext])
    have hrest := ih h.tail
    rw [List.cons_append, lines_break hbreak hhalf, List.length_cons, List.length_cons]
    omega
  | case4 c rest hcrlf hplain first more hlines ih =>
    have hrest := ih h.tail
    obtain ⟨line, others, hjoined⟩ := List.exists_cons_of_ne_nil (lines_ne_nil (rest ++ back))
    rw [List.cons_append, lines_cons hplain hjoined]
    rw [hjoined, hlines] at hrest
    exact hrest
  | case5 c rest hcrlf hplain hlines ih => exact absurd hlines (lines_ne_nil rest)

theorem breaks_append (h : Apart front back) :
    breaks (front ++ back) = breaks front + breaks back := by
  have hlength := length_lines_append h
  simp only [length_lines] at hlength
  omega

theorem breaks_eq_zero_iff : breaks cs = 0 ↔ ∀ c ∈ cs, ¬ (c = '\r' ∨ c = '\n') := by
  rw [breaks]
  fun_induction lines cs with
  | case1 => exact iff_of_true rfl fun _ hc => absurd hc List.not_mem_nil
  | case2 rest ih =>
    refine iff_of_false ?_ fun h => h '\r' List.mem_cons_self (.inl rfl)
    rw [List.length_cons, length_lines]
    omega
  | case3 c rest hcrlf hbreak ih =>
    refine iff_of_false ?_ fun h => h c List.mem_cons_self hbreak
    rw [List.length_cons, length_lines]
    omega
  | case4 c rest hcrlf hplain first more hlines ih =>
    rw [hlines] at ih
    rw [List.forall_mem_cons, and_iff_right hplain]
    exact ih
  | case5 c rest hcrlf hplain hlines ih => exact absurd hlines (lines_ne_nil rest)

/-- An offset into the second part counts from the bytes of the first one. -/
theorem startingBefore_append (offset : Nat) (front back : List Char) :
    startingBefore (byteSize front + offset) (front ++ back) =
      front ++ startingBefore offset back := by
  induction front with
  | nil => rw [byteSize, List.foldr_nil, Nat.zero_add, List.nil_append, List.nil_append]
  | cons c front ih =>
    have hpos := c.utf8Size_pos
    have hsize : byteSize (c :: front) = c.utf8Size + byteSize front := rfl
    have hoffset : byteSize (c :: front) + offset - c.utf8Size = byteSize front + offset := by
      omega
    rw [List.cons_append, startingBefore, if_neg (by omega), hoffset, ih, List.cons_append]

end Text

/-- The line reached behind a text is as far below as the text has breaks. -/
theorem Position.line_after (p : Position) (cs : List Char) :
    (p.after cs).line = p.line + Text.breaks cs := by
  have h := (List.dropLast_concat_getLast (Text.lines_ne_nil cs)).symm
  rw [after_eq p h, Text.breaks_eq h, behind]

/-- The line of an offset into the second part of a text, if no break goes on from the first one. -/
theorem Position.line_ofOffset {text : String} {front back : List Char}
    (h : text.toList = front ++ back) (hapart : ∀ cs, Text.Apart front cs) (offset : Nat) :
    (ofOffset text (Text.byteSize front + offset)).line =
      1 + Text.breaks front + Text.breaks (Text.startingBefore offset back) := by
  rw [ofOffset, h, Text.startingBefore_append, line_after, Text.breaks_append (hapart _), start,
    Nat.add_assoc]

end XPathBench
