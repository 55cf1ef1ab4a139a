import Mathlib.Data.Prod.Lex
import XPathBench.Proofs.Text.Breaks

/-!
# Positions of byte offsets

An offset cuts a text behind the characters that start before it. Its position is told by the lines
of that front part, lies on the line of the text that goes on from there, and never moves back while
the offset grows.

* `Text.IsBefore`: the front part of a text that an offset cuts off
* `Position.seek`: the position of an offset in one pass, looking one character ahead
* `ofOffset_agrees_with_lines`: positions and lines agree
-/

namespace XPathBench

namespace Text

/-- The front of a text that holds the characters which start before a byte offset. -/
structure IsBefore (offset : Nat) (cs front : List Char) : Prop where
  isPrefix : front <+: cs
  starts_iff : ∀ before c after, cs = before ++ c :: after →
    (before ++ [c] <+: front ↔ byteSize before < offset)

variable {offset offset' : Nat} {cs front front' : List Char}

theorem startingBefore_zero (cs : List Char) : startingBefore 0 cs = [] := by
  cases cs <;> rfl

theorem startingBefore_cons (h : 0 < offset) (c : Char) (cs : List Char) :
    startingBefore offset (c :: cs) = c :: startingBefore (offset - c.utf8Size) cs := by
  rw [startingBefore, if_neg h.ne']

theorem IsBefore.prefix_of_isBefore (h : IsBefore offset cs front)
    (h' : IsBefore offset cs front') : front <+: front' := by
  by_contra hnot
  have hlt : front'.length < front.length := by
    by_contra hle
    exact hnot (List.prefix_of_prefix_length_le h.isPrefix h'.isPrefix (Nat.not_lt.mp hle))
  obtain ⟨more, hmore⟩ := List.prefix_of_prefix_length_le h'.isPrefix h.isPrefix hlt.le
  obtain ⟨back, hback⟩ := h.isPrefix
  cases more with
  | nil =>
    rw [← hmore, List.append_nil] at hlt
    exact Nat.lt_irrefl _ hlt
  | cons c more =>
    -- the character behind `front'` stands in `front`, so it starts before the offset
    have hcs : cs = front' ++ c :: (more ++ back) := by
      rw [← hback, ← hmore, List.append_assoc, List.cons_append]
    have hin : front' ++ [c] <+: front := ⟨more, by rw [← hmore, List.append_assoc]; rfl⟩
    have hstarts := (h.starts_iff front' c _ hcs).mp hin
    have hlen := ((h'.starts_iff front' c _ hcs).mpr hstarts).length_le
    rw [List.length_append, List.length_singleton] at hlen
    omega

theorem starts_iff_startingBefore {before after : List Char} {c : Char} :
    before ++ [c] <+: startingBefore offset (before ++ c :: after) ↔ byteSize before < offset := by
  induction before generalizing offset with
  | nil =>
    rw [List.nil_append, List.nil_append, startingBefore]
    split
    · next h => simp [h, byteSize]
    · next h => simp [byteSize, Nat.pos_of_ne_zero h]
  | cons d before ih =>
    rw [List.cons_append, List.cons_append, startingBefore, byteSize_cons]
    split
    · next h => simp [h]
    · rw [List.prefix_cons_inj, ih]
      omega

/-- There is one such front. -/
theorem isBefore_iff : IsBefore offset cs front ↔ front = startingBefore offset cs := by
  have hself : IsBefore offset cs (startingBefore offset cs) := by
    constructor
    · exact startingBefore_prefix offset cs
    · rintro before c after rfl
      exact starts_iff_startingBefore
  constructor
  · intro h
    exact (h.prefix_of_isBefore hself).eq_of_length_le (hself.prefix_of_isBefore h).length_le
  · rintro rfl
    exact hself

theorem startingBefore_prefix_of_le (h : offset ≤ offset') (cs : List Char) :
    startingBefore offset cs <+: startingBefore offset' cs := by
  induction cs generalizing offset offset' with
  | nil => exact List.prefix_rfl
  | cons c cs ih =>
    rw [startingBefore, startingBefore]
    by_cases hzero : offset = 0
    · rw [if_pos hzero]
      exact List.nil_prefix
    · rw [if_neg hzero, if_neg (by omega), List.prefix_cons_inj]
      exact ih (Nat.sub_le_sub_right h _)

end Text

namespace Position

open Text (lines lines_ne_nil startingBefore startingBefore_zero startingBefore_cons)

/-! ## One pass -/

/-- The place of a byte offset in the rest of a text, which begins at place `p` and at byte `index`.
A line feed belongs to the carriage return before it if it starts before the offset, too. -/
def seek (offset : Nat) (p : Position) (index : Nat) : List Char → Position
  | [] => p
  | '\r' :: '\n' :: rest =>
    if offset ≤ index then p
    else if index + 1 < offset then seek offset p.nextLine (index + 2) rest
    else seek offset p.nextLine (index + 1) ('\n' :: rest)
  | c :: rest =>
    if offset ≤ index then p
    else if c = '\r' ∨ c = '\n' then seek offset p.nextLine (index + c.utf8Size) rest
    else seek offset p.nextColumn (index + c.utf8Size) rest

theorem seek_eq (offset : Nat) (p : Position) (index : Nat) (cs : List Char) :
    seek offset p index cs = p.after (startingBefore (offset - index) cs) := by
  fun_induction seek offset p index cs with
  | case1 => rfl
  | case2 p index rest hle | case5 p index c rest hcrlf hle =>
    rw [Nat.sub_eq_zero_of_le hle, startingBefore_zero, after]
  | case3 p index rest hlt hnext ih =>
    have hfront : startingBefore (offset - index) ('\r' :: '\n' :: rest) =
        '\r' :: '\n' :: startingBefore (offset - (index + 2)) rest := by
      have hreturn : '\r'.utf8Size = 1 := rfl
      rw [startingBefore_cons (by omega), startingBefore_cons (by omega), Nat.sub_sub, Nat.sub_sub]
      rfl
    rw [hfront, after, ih]
  | case4 p index rest hlt hnext ih =>
    -- the offset lies between the carriage return and the line feed
    have hoffset : offset = index + 1 := by omega
    subst hoffset
    rw [ih, Nat.sub_self, startingBefore_zero, Nat.add_sub_cancel_left,
      startingBefore_cons Nat.one_pos]
    rfl
  | case6 p index c rest hcrlf hlt hbreak ih =>
    rw [ih, startingBefore_cons (by omega), Nat.sub_sub]
    refine (after_break p hbreak ?_).symm
    rintro rest' rfl hrest
    obtain ⟨back, hback⟩ := Text.startingBefore_prefix (offset - (index + '\r'.utf8Size)) rest
    rw [hrest] at hback
    exact hcrlf _ rfl hback.symm
  | case7 p index c rest hcrlf hlt hplain ih =>
    rw [ih, startingBefore_cons (by omega), Nat.sub_sub, after_plain p hplain]

/-! ## Lines -/

/-- The order of places in a text: by lines, and on one line by columns. -/
def order (p : Position) : ℕ ×ₗ ℕ := toLex (p.line, p.column)

theorem order_le_iff {p q : Position} :
    p.order ≤ q.order ↔ p.line < q.line ∨ p.line = q.line ∧ p.column ≤ q.column :=
  Prod.Lex.le_iff

/-- Places only move forward while a text is read. -/
theorem order_after_le (front back : List Char) :
    (start.after front).order ≤ (start.after (front ++ back)).order := by
  obtain ⟨init, last, line, others, hfront, hlines, hprefix⟩ := Text.lines_append front back
  rw [order_le_iff, start_after hfront]
  rcases List.eq_nil_or_concat others with rfl | ⟨others, final, rfl⟩
  · -- still on the line of the first part, which goes on
    rw [start_after hlines]
    exact .inr ⟨rfl, Nat.add_le_add_right hprefix.length_le 1⟩
  · have hfinal : lines (front ++ back) = (init ++ line :: others) ++ [final] := by
      rw [hlines, List.concat_eq_append, List.append_assoc, List.cons_append]
    rw [start_after hfinal]
    left
    simp only [List.length_append, List.length_cons]
    omega

/-- The position of an offset is told by the lines of the text before it: its line is their number,
and its column stands behind the last one of them. In the text there is a line with this number,
which begins with that last line. A greater offset never has an earlier position. -/
theorem ofOffset_agrees_with_lines (text : String) :
    (∀ offset front,
      Text.IsBefore offset text.toList front.toList ↔ front = textBefore text offset) ∧
    (∀ offset, ofOffset text offset = seek offset start 0 text.toList ∧
      ∃ last line, (sourceLines (textBefore text offset)).getLast? = some last ∧
        ofOffset text offset = ⟨(sourceLines (textBefore text offset)).length, last.length + 1⟩ ∧
        1 ≤ (ofOffset text offset).line ∧
        (ofOffset text offset).line ≤ (sourceLines text).length ∧
        lineAt (sourceLines text) (ofOffset text offset).line = some line ∧
        last.toList <+: line.toList) ∧
    Monotone fun offset => (ofOffset text offset).order := by
  refine ⟨fun offset front => ?_, fun offset => ⟨?_, ?_⟩, fun offset offset' h => ?_⟩
  · rw [Text.isBefore_iff, textBefore, ← String.toList_inj, String.toList_ofList]
  · rw [seek_eq, Nat.sub_zero, ofOffset]
  · obtain ⟨last, line, hlast, hplace, hline, hprefix⟩ := exists_lineAt_ofOffset text offset
    obtain ⟨hpos, hle⟩ := isSome_lineAt_iff.mp (Option.isSome_of_eq_some hline)
    exact ⟨last, line, hlast, hplace, hpos, hle, hline, hprefix⟩
  · obtain ⟨back, hback⟩ := Text.startingBefore_prefix_of_le h text.toList
    show (start.after _).order ≤ (start.after _).order
    rw [← hback]
    exact order_after_le _ back

/-- Between a carriage return and its line feed the break counts, and behind both it counts once. -/
example : ofOffset "ä\r\nb" 3 = ⟨2, 1⟩ ∧ ofOffset "ä\r\nb" 4 = ⟨2, 1⟩ := by decide

end Position

end XPathBench
