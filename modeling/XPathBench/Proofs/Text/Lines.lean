import XPathBench.Text.Lines

/-!
# Positions and lines

The position reached behind a text is told by its lines: by their number, and by the length of the
last one. So the position of an offset lies on a line of the text, wherever the offset points.

* `lines_append`: a text has the lines of its first part, the last one of which may go on
* `Position.start_after`: the position behind a text
* `Position.exists_lineAt_ofOffset`: the line that the position of an offset lies on
-/

namespace XPathBench

namespace Text

theorem lines_ne_nil (cs : List Char) : lines cs ≠ [] := by
  fun_induction lines cs with simp_all

/-- A break that is not the first half of another one. -/
theorem lines_break {c : Char} {rest : List Char} (hbreak : c = '\r' ∨ c = '\n')
    (hhalf : ¬ (c = '\r' ∧ rest.head? = some '\n')) : lines (c :: rest) = [] :: lines rest := by
  rw [lines, if_pos hbreak]
  rintro rest' rfl rfl
  exact hhalf ⟨rfl, rfl⟩

theorem lines_cons {c : Char} {rest line : List Char} {others : List (List Char)}
    (hplain : ¬ (c = '\r' ∨ c = '\n')) (hrest : lines rest = line :: others) :
    lines (c :: rest) = (c :: line) :: others := by
  rw [lines, if_neg hplain, hrest]
  rintro rest' rfl rfl
  exact hplain (.inl rfl)

/-- The lines of a text are those of its first part, the last one of which may go on. A carriage
return at the end of the first part is a break of its own there, but need not be one in the text:
then the line behind it is empty, and goes on as any line. -/
theorem lines_append (front back : List Char) :
    ∃ init last line others, lines front = init ++ [last] ∧
      lines (front ++ back) = init ++ line :: others ∧ last <+: line := by
  fun_induction lines front with
  | case1 =>
    obtain ⟨line, others, h⟩ := List.exists_cons_of_ne_nil (lines_ne_nil back)
    exact ⟨[], [], line, others, rfl, h, List.nil_prefix⟩
  | case2 rest ih =>
    obtain ⟨init, last, line, others, hfront, hlines, hprefix⟩ := ih
    refine ⟨[] :: init, last, line, others, by rw [hfront]; rfl, ?_, hprefix⟩
    rw [List.cons_append, List.cons_append, lines, hlines]
    rfl
  | case3 c rest hcrlf hbreak ih =>
    obtain ⟨init, last, line, others, hfront, hlines, hprefix⟩ := ih
    by_cases hhalf : c = '\r' ∧ (rest ++ back).head? = some '\n'
    · -- the break goes on in the second part
      obtain ⟨rfl, hnext⟩ := hhalf
      cases rest with
      | cons d rest =>
        obtain rfl := Option.some.inj hnext
        exact absurd rfl (hcrlf rest rfl)
      | nil =>
        obtain ⟨back, rfl⟩ := List.head?_eq_some_iff.mp hnext
        obtain ⟨line, others, h⟩ := List.exists_cons_of_ne_nil (lines_ne_nil back)
        refine ⟨[[]], [], line, others, rfl, ?_, List.nil_prefix⟩
        exact congrArg ([] :: ·) h
    · refine ⟨[] :: init, last, line, others, by rw [hfront]; rfl, ?_, hprefix⟩
      rw [List.cons_append, lines_break hbreak hhalf, hlines]
      rfl
  | case4 c rest hcrlf hplain first more hrest ih =>
    obtain ⟨init, last, line, others, hfront, hlines, hprefix⟩ := ih
    rw [hrest] at hfront
    cases init with
    | nil =>
      obtain ⟨rfl, rfl⟩ := List.cons.inj hfront
      refine ⟨[], c :: first, c :: line, others, rfl, lines_cons hplain hlines, ?_⟩
      exact (List.prefix_cons_inj c).mpr hprefix
    | cons l init =>
      obtain ⟨rfl, rfl⟩ := List.cons.inj hfront
      exact ⟨(c :: first) :: init, last, line, others, rfl, lines_cons hplain hlines, hprefix⟩
  | case5 c rest hcrlf hbreak h ih =>
    exact absurd h (lines_ne_nil rest)

theorem byteSize_cons (c : Char) (cs : List Char) : byteSize (c :: cs) = c.utf8Size + byteSize cs :=
  rfl

/-- The characters before an offset are those at the front. -/
theorem startingBefore_prefix (offset : Nat) (cs : List Char) :
    startingBefore offset cs <+: cs := by
  induction cs generalizing offset with
  | nil => exact List.nil_prefix
  | cons c cs ih =>
    rw [startingBefore]
    split
    · exact List.nil_prefix
    · exact List.prefix_cons_inj c |>.mpr (ih _)

end Text

/-! ## Lines by their numbers -/

theorem lineAt_eq_some_iff {lines : List String} {number : Nat} {line : String} :
    lineAt lines number = some line ↔ 1 ≤ number ∧ lines[number - 1]? = some line := by
  cases number with
  | zero => exact ⟨nofun, fun h => absurd h.1 (by decide)⟩
  | succ n => exact ⟨fun h => ⟨Nat.le_add_left 1 n, h⟩, And.right⟩

theorem isSome_lineAt_iff {lines : List String} {number : Nat} :
    (lineAt lines number).isSome ↔ 1 ≤ number ∧ number ≤ lines.length := by
  rw [Option.isSome_iff_exists]
  simp only [lineAt_eq_some_iff, List.getElem?_eq_some_iff]
  constructor
  · rintro ⟨_, hpos, hlt, _⟩
    exact ⟨hpos, by omega⟩
  · rintro ⟨hpos, hle⟩
    exact ⟨_, hpos, by omega, rfl⟩

/-- The text before an offset. -/
def textBefore (text : String) (offset : Nat) : String :=
  String.ofList (Text.startingBefore offset text.toList)

/-! ## Positions -/

namespace Position

open Text (lines lines_ne_nil startingBefore)

theorem after_break (p : Position) {c : Char} {rest : List Char} (hbreak : c = '\r' ∨ c = '\n')
    (hhalf : ∀ rest', c = '\r' → rest = '\n' :: rest' → False) :
    p.after (c :: rest) = p.nextLine.after rest := by
  rw [after, if_pos hbreak]
  exact hhalf

theorem after_plain (p : Position) {c : Char} {rest : List Char}
    (hplain : ¬ (c = '\r' ∨ c = '\n')) : p.after (c :: rest) = p.nextColumn.after rest := by
  rw [after, if_neg hplain]
  rintro rest' rfl rfl
  exact hplain (.inl rfl)

/-- The place behind a text with given lines: with breaks in the text it is on the last line, so
many lines below `p`, and without it is on the line of `p`. -/
def behind (p : Position) (init : List (List Char)) (last : List Char) : Position :=
  ⟨p.line + init.length, (if init = [] then p.column else 1) + last.length⟩

theorem behind_nextLine (p : Position) (l : List Char) (init : List (List Char))
    (last : List Char) : p.nextLine.behind init last = p.behind (l :: init) last := by
  simp only [behind, nextLine, ite_self, List.length_cons, reduceCtorEq, if_false, mk.injEq,
    and_true]
  omega

theorem behind_nextColumn (p : Position) (c : Char) (last : List Char) :
    p.nextColumn.behind [] last = p.behind [] (c :: last) := by
  simp only [behind, nextColumn, if_true, List.length_cons, mk.injEq, true_and]
  omega

/-- The place reached from `p` is told by the lines of the text. -/
theorem after_eq (p : Position) {cs last : List Char} {init : List (List Char)}
    (h : lines cs = init ++ [last]) : p.after cs = p.behind init last := by
  fun_induction lines cs generalizing p init last with
  | case1 =>
    obtain ⟨rfl, hlast⟩ := List.append_eq_singleton_iff.mp h.symm |>.resolve_right (by simp)
    obtain ⟨rfl⟩ := hlast
    rfl
  | case2 rest ih =>
    cases init with
    | nil => exact absurd (List.cons.inj h).2 (lines_ne_nil rest)
    | cons l init =>
      rw [after, ih p.nextLine (List.cons.inj h).2, behind_nextLine]
  | case3 c rest hcrlf hbreak ih =>
    cases init with
    | nil => exact absurd (List.cons.inj h).2 (lines_ne_nil rest)
    | cons l init =>
      rw [after_break p hbreak hcrlf, ih p.nextLine (List.cons.inj h).2, behind_nextLine]
  | case4 c rest hcrlf hplain first more hrest ih =>
    rw [after_plain p hplain]
    cases init with
    | nil =>
      obtain ⟨rfl, rfl⟩ := List.cons.inj h
      rw [← behind_nextColumn]
      exact ih p.nextColumn hrest
    | cons l init =>
      obtain ⟨rfl, rfl⟩ := List.cons.inj h
      have hinit : lines rest = (first :: init) ++ [last] := hrest
      rw [ih p.nextColumn hinit]
      rfl
  | case5 c rest hcrlf hplain hrest ih => exact absurd hrest (lines_ne_nil rest)

/-- The place behind a text from its start is the one behind its last line. -/
theorem start_after {cs last : List Char} {init : List (List Char)}
    (h : lines cs = init ++ [last]) : start.after cs = ⟨init.length + 1, last.length + 1⟩ := by
  rw [after_eq start h, behind, start, ite_self, Nat.add_comm 1, Nat.add_comm 1]

/-- The position of an offset is that behind the last line of the text before the offset. -/
theorem ofOffset_eq {text : String} {offset : Nat} {last : List Char} {init : List (List Char)}
    (h : lines (startingBefore offset text.toList) = init ++ [last]) :
    ofOffset text offset = ⟨init.length + 1, last.length + 1⟩ := start_after h

/-- The last line before an offset goes on in the line that the offset lies on. -/
theorem exists_lineAt_ofOffset (text : String) (offset : Nat) :
    ∃ last line, (sourceLines (textBefore text offset)).getLast? = some last ∧
      ofOffset text offset = ⟨(sourceLines (textBefore text offset)).length, last.length + 1⟩ ∧
      lineAt (sourceLines text) (ofOffset text offset).line = some line ∧
      last.toList <+: line.toList := by
  obtain ⟨back, hback⟩ := Text.startingBefore_prefix offset text.toList
  obtain ⟨init, last, line, others, hfront, hlines, hprefix⟩ :=
    Text.lines_append (startingBefore offset text.toList) back
  have hbefore : sourceLines (textBefore text offset) =
      init.map String.ofList ++ [String.ofList last] := by
    rw [sourceLines, textBefore, String.toList_ofList, hfront, List.map_append]
    rfl
  have hplace := ofOffset_eq hfront
  refine ⟨String.ofList last, String.ofList line, ?_, ?_, ?_, ?_⟩
  · rw [hbefore, List.getLast?_concat]
  · rw [hplace, hbefore, String.length_ofList, List.length_append, List.length_map]
    rfl
  · rw [hplace, lineAt, sourceLines, ← hback, hlines]
    simp
  · rw [String.toList_ofList, String.toList_ofList]
    exact hprefix

/-- The position of an offset lies on a line of the text, or directly behind it. -/
theorem exists_line (text : String) (offset : Nat) :
    ∃ line, (sourceLines text)[(ofOffset text offset).line - 1]? = some line ∧
      1 ≤ (ofOffset text offset).line ∧ 1 ≤ (ofOffset text offset).column ∧
        (ofOffset text offset).column ≤ line.length + 1 := by
  obtain ⟨last, line, -, hplace, hline, hprefix⟩ := exists_lineAt_ofOffset text offset
  obtain ⟨hpos, hget⟩ := lineAt_eq_some_iff.mp hline
  have hcolumn : (ofOffset text offset).column = last.length + 1 := by rw [hplace]
  refine ⟨line, hget, hpos, hcolumn ▸ Nat.le_add_left .., ?_⟩
  rw [hcolumn, ← String.length_toList, ← String.length_toList]
  exact Nat.succ_le_succ hprefix.length_le

end Position

end XPathBench
