import XPathBench.Proofs.Text.Lines
import XPathBench.Proofs.Text.Runs
import XPathBench.Proofs.Text.Slices

/-!
# Lines are cut out without loss

One pass over the bytes of a text finds its lines, each of which is a part of the text. The lines
and the breaks between them are all of it.

* `Text.cutFrom?`: the pass over the bytes
* `Text.LineBreak`, `Text.breaksOf`: the breaks of a text from left to right
* `Text.woven`: lines with breaks between them
* `sourceLines_lossless`: nothing of a text is lost in its lines and breaks
-/

namespace XPathBench

namespace Text

variable {text : String} {c : Char} {start index : Nat} {front line rest before behind : List Char}

/-! ## Lines and breaks -/

/-- What stands between two lines. -/
inductive LineBreak where
  | both
  | carriageReturn
  | lineFeed
deriving DecidableEq, Repr

/-- The characters of a break. -/
def LineBreak.written : LineBreak → List Char
  | both => ['\r', '\n']
  | carriageReturn => ['\r']
  | lineFeed => ['\n']

/-- The breaks of a text from left to right. A carriage return with a line feed behind it is one. -/
def breaksOf : List Char → List LineBreak
  | [] => []
  | '\r' :: '\n' :: rest => .both :: breaksOf rest
  | c :: rest =>
    if c = '\r' then .carriageReturn :: breaksOf rest
    else if c = '\n' then .lineFeed :: breaksOf rest
    else breaksOf rest

/-- Lines with breaks between them. -/
def woven : List (List Char) → List LineBreak → List Char
  | line :: lines, b :: breaks => line ++ b.written ++ woven lines breaks
  | lines, _ => lines.flatten

theorem breaksOf_plain (hc : ¬ (c = '\r' ∨ c = '\n')) : breaksOf (c :: rest) = breaksOf rest := by
  rw [breaksOf, if_neg fun h => hc (.inl h), if_neg fun h => hc (.inr h)]
  rintro rest' rfl rfl
  exact hc (.inl rfl)

/-- A break that is not the first half of another one stands before the others. -/
theorem exists_breaksOf_cons (hbreak : c = '\r' ∨ c = '\n')
    (hhalf : ∀ rest', c = '\r' → rest = '\n' :: rest' → False) :
    ∃ b, b.written = [c] ∧ breaksOf (c :: rest) = b :: breaksOf rest := by
  rw [breaksOf]
  · rcases hbreak with rfl | rfl
    · exact ⟨.carriageReturn, rfl, rfl⟩
    · exact ⟨.lineFeed, rfl, rfl⟩
  · exact hhalf

theorem length_lines_eq (cs : List Char) : (lines cs).length = (breaksOf cs).length + 1 := by
  fun_induction lines cs with
  | case1 => rfl
  | case2 rest ih => exact congrArg (· + 1) ih
  | case3 c rest hcrlf hbreak ih =>
    obtain ⟨b, -, hb⟩ := exists_breaksOf_cons hbreak hcrlf
    rw [hb, List.length_cons, List.length_cons, ih]
  | case4 c rest hcrlf hplain first more hrest ih =>
    rw [breaksOf_plain hplain, ← ih, hrest]
    rfl
  | case5 c rest hcrlf hplain hrest ih => exact absurd hrest (lines_ne_nil rest)

theorem not_break_of_mem_lines {cs line : List Char} (hline : line ∈ lines cs) :
    ∀ c ∈ line, ¬ (c = '\r' ∨ c = '\n') := by
  fun_induction lines cs generalizing line with
  | case1 =>
    rw [List.mem_singleton.mp hline]
    exact List.forall_mem_nil _
  | case2 rest ih | case3 c rest hcrlf hbreak ih =>
    rcases List.mem_cons.mp hline with rfl | hline
    · exact List.forall_mem_nil _
    · exact ih hline
  | case4 c rest hcrlf hplain first more hrest ih =>
    rw [hrest] at ih
    rcases List.mem_cons.mp hline with rfl | hline
    · exact List.forall_mem_cons.mpr ⟨hplain, ih List.mem_cons_self⟩
    · exact ih (List.mem_cons_of_mem first hline)
  | case5 c rest hcrlf hplain hrest ih => exact absurd hrest (lines_ne_nil rest)

/-- A character before the first line stands before all. -/
theorem woven_cons_cons (c : Char) (first : List Char) (others : List (List Char))
    (breaks : List LineBreak) :
    woven ((c :: first) :: others) breaks = c :: woven (first :: others) breaks := by
  cases breaks <;> rfl

theorem woven_lines (cs : List Char) : woven (lines cs) (breaksOf cs) = cs := by
  fun_induction lines cs with
  | case1 => rfl
  | case2 rest ih =>
    rw [breaksOf, woven, ih]
    rfl
  | case3 c rest hcrlf hbreak ih =>
    obtain ⟨b, hwritten, hb⟩ := exists_breaksOf_cons hbreak hcrlf
    rw [hb, woven, ih, hwritten]
    rfl
  | case4 c rest hcrlf hplain first more hrest ih =>
    rw [breaksOf_plain hplain, woven_cons_cons, ← hrest, ih]
  | case5 c rest hcrlf hplain hrest ih => exact absurd hrest (lines_ne_nil rest)

theorem LineBreak.exists_written (b : LineBreak) :
    ∃ mark more, (mark = '\r' ∨ mark = '\n') ∧ b.written = mark :: more := by
  cases b with
  | both => exact ⟨_, _, .inl rfl, rfl⟩
  | carriageReturn => exact ⟨_, _, .inl rfl, rfl⟩
  | lineFeed => exact ⟨_, _, .inr rfl, rfl⟩

/-- Lines are told by the text that they are woven into, if the breaks are known. -/
theorem woven_inj {lines lines' : List (List Char)} {breaks : List LineBreak}
    (hlines : ∀ line ∈ lines, ∀ c ∈ line, ¬ (c = '\r' ∨ c = '\n'))
    (hlines' : ∀ line ∈ lines', ∀ c ∈ line, ¬ (c = '\r' ∨ c = '\n'))
    (hlength : lines.length = breaks.length + 1) (hlength' : lines'.length = breaks.length + 1)
    (h : woven lines breaks = woven lines' breaks) : lines = lines' := by
  induction breaks generalizing lines lines' with
  | nil =>
    obtain ⟨line, rfl⟩ := List.length_eq_one_iff.mp hlength
    obtain ⟨line', rfl⟩ := List.length_eq_one_iff.mp hlength'
    simpa [woven] using h
  | cons b breaks ih =>
    obtain ⟨first, rest, rfl⟩ := List.exists_cons_of_length_eq_add_one hlength
    obtain ⟨first', rest', rfl⟩ := List.exists_cons_of_length_eq_add_one hlength'
    rw [List.forall_mem_cons] at hlines hlines'
    obtain ⟨mark, more, hmark, hwritten⟩ := b.exists_written
    simp only [woven, hwritten, List.append_assoc, List.cons_append] at h
    obtain ⟨rfl, hrest⟩ := append_cons_inj mark (fun hmem => hlines.1 mark hmem hmark)
      (fun hmem => hlines'.1 mark hmem hmark) h
    rw [ih hlines.2 hlines'.2 (Nat.succ_inj.mp hlength) (Nat.succ_inj.mp hlength')
      (List.append_cancel_left hrest)]

/-! ## One pass over the bytes -/

/-- Lines of a text that begins without a break. -/
theorem lines_append_of_plain {first : List Char} {others : List (List Char)}
    (hline : ∀ c ∈ line, ¬ (c = '\r' ∨ c = '\n')) (hrest : lines rest = first :: others) :
    lines (line ++ rest) = (line ++ first) :: others := by
  induction line with
  | nil => exact hrest
  | cons c line ih =>
    rw [List.forall_mem_cons] at hline
    exact lines_cons hline.1 (ih hline.2)

/-- The lines that one pass over the bytes of a text cuts out: the pass is at byte `index`, and the
line at hand begins at byte `start`. Nothing is cut out if a line were no part of the text. -/
def cutFrom? (text : String) (start index : Nat) : Option (List String) :=
  match h : text.toByteArray[index]? with
  | none => (slice? text start text.utf8ByteSize).map ([·])
  | some byte =>
    have hindex : index < text.toByteArray.size := (getElem?_eq_some_iff.mp h).1
    if byte = '\r'.toUInt8 then
      let next := if text.toByteArray[index + 1]? = some '\n'.toUInt8 then index + 2 else index + 1
      have hnext : index < next := by grind
      (slice? text start index).bind fun line => (cutFrom? text next next).map (line :: ·)
    else if byte = '\n'.toUInt8 then
      (slice? text start index).bind fun line =>
        (cutFrom? text (index + 1) (index + 1)).map (line :: ·)
    else cutFrom? text start (index + 1)
termination_by text.toByteArray.size - index
decreasing_by all_goals omega

theorem cutFrom?_end (h : text.toByteArray[index]? = none) :
    cutFrom? text start index = (slice? text start text.utf8ByteSize).map ([·]) := by
  rw [cutFrom?]
  split
  · rfl
  · next hbyte => rw [h] at hbyte; cases hbyte

theorem cutFrom?_byte {byte : UInt8} (h : text.toByteArray[index]? = some byte) :
    cutFrom? text start index =
      if byte = '\r'.toUInt8 then
        (slice? text start index).bind fun line =>
          if text.toByteArray[index + 1]? = some '\n'.toUInt8 then
            (cutFrom? text (index + 2) (index + 2)).map (line :: ·)
          else (cutFrom? text (index + 1) (index + 1)).map (line :: ·)
      else if byte = '\n'.toUInt8 then
        (slice? text start index).bind fun line =>
          (cutFrom? text (index + 1) (index + 1)).map (line :: ·)
      else cutFrom? text start (index + 1) := by
  rw [cutFrom?]
  split
  · next hend => rw [h] at hend; cases hend
  · next byte' hbyte =>
    obtain rfl : byte' = byte := Option.some.inj (hbyte.symm.trans h)
    split
    · by_cases hnext : text.toByteArray[index + 1]? = some '\n'.toUInt8
      · simp only [if_pos hnext]
      · simp only [if_neg hnext]
    · rfl

/-- The pass goes over a character that is no break, byte by byte. -/
theorem cutFrom?_plain (h : text.toList = before ++ c :: behind) (hc : ¬ (c = '\r' ∨ c = '\n')) :
    cutFrom? text start (byteSize before) = cutFrom? text start (byteSize (before ++ [c])) := by
  have hsteps (j : Nat) (hj : j ≤ c.utf8Size) : cutFrom? text start (byteSize before) =
      cutFrom? text start (byteSize before + j) := by
    induction j with
    | zero => rfl
    | succ j ih =>
      obtain ⟨b, hb, hbyte⟩ := exists_byte_of_toList h hj
      have hreturn : b ≠ '\r'.toUInt8 := by
        rintro rfl
        exact hc (.inl ((mem_utf8EncodeChar_iff (d := '\r') rfl).mp hb))
      have hfeed : b ≠ '\n'.toUInt8 := by
        rintro rfl
        exact hc (.inr ((mem_utf8EncodeChar_iff (d := '\n') rfl).mp hb))
      rw [ih (Nat.le_of_succ_le hj), cutFrom?_byte hbyte, if_neg hreturn, if_neg hfeed]
      rfl
  rw [byteSize_concat]
  exact hsteps _ (Nat.le_refl _)

/-- A break that is not the first half of another one ends the line at hand. -/
theorem cutFrom?_break (h : text.toList = before ++ c :: behind) (hbreak : c = '\r' ∨ c = '\n')
    (hhalf : ¬ (c = '\r' ∧ behind.head? = some '\n')) :
    cutFrom? text start (byteSize before) = (slice? text start (byteSize before)).bind fun line =>
      (cutFrom? text (byteSize (before ++ [c])) (byteSize (before ++ [c]))).map (line :: ·) := by
  have hsize : c.utf8Size = 1 := by rcases hbreak with rfl | rfl <;> rfl
  have hbyte := (getElem?_toByteArray_eq_iff h hsize).mpr rfl
  have hbehind : text.toList = (before ++ [c]) ++ behind := by
    rw [h, List.append_assoc, List.singleton_append]
  have hnext := getElem?_toByteArray_eq_iff (d := '\n') hbehind rfl
  rw [byteSize_concat, hsize] at hnext ⊢
  rw [cutFrom?_byte hbyte]
  rcases hbreak with rfl | rfl
  · have hfeed : text.toByteArray[byteSize before + 1]? ≠ some '\n'.toUInt8 := fun hfeed =>
      hhalf ⟨rfl, hnext.mp hfeed⟩
    rw [if_pos rfl]
    simp only [if_neg hfeed]
  · rfl

/-- A carriage return with its line feed ends the line at hand. -/
theorem cutFrom?_crlf (h : text.toList = before ++ '\r' :: '\n' :: behind) :
    cutFrom? text start (byteSize before) = (slice? text start (byteSize before)).bind fun line =>
      (cutFrom? text (byteSize (before ++ ['\r', '\n']))
        (byteSize (before ++ ['\r', '\n']))).map (line :: ·) := by
  have hbyte := (getElem?_toByteArray_eq_iff (d := '\r') h rfl).mpr rfl
  have hbehind : text.toList = (before ++ ['\r']) ++ '\n' :: behind := by
    rw [h, List.append_assoc, List.singleton_append]
  have hfeed := (getElem?_toByteArray_eq_iff (d := '\n') hbehind rfl).mpr rfl
  have hsize : byteSize (before ++ ['\r', '\n']) = byteSize before + 2 := byteSize_append _ _
  have hreturn : '\r'.utf8Size = 1 := rfl
  rw [byteSize_concat, hreturn] at hfeed
  rw [hsize, cutFrom?_byte hbyte, if_pos rfl]
  simp only [if_pos hfeed]

/-- Where a break ends the line at hand, that line is cut out in front of those behind the break. -/
theorem cutFrom?_of_break (mark : List Char) {later : List String}
    (h : text.toList = front ++ line ++ (mark ++ rest))
    (hcut : cutFrom? text (byteSize front) (byteSize (front ++ line)) =
      (slice? text (byteSize front) (byteSize (front ++ line))).bind fun line' =>
        (cutFrom? text (byteSize (front ++ line ++ mark))
          (byteSize (front ++ line ++ mark))).map (line' :: ·))
    (hlater : text.toList = front ++ line ++ mark ++ [] ++ rest →
      cutFrom? text (byteSize (front ++ line ++ mark)) (byteSize (front ++ line ++ mark ++ [])) =
        some later) :
    cutFrom? text (byteSize front) (byteSize (front ++ line)) =
      some (String.ofList line :: later) := by
  have hbehind : text.toList = front ++ line ++ mark ++ [] ++ rest := by
    simp only [h, List.append_assoc, List.nil_append]
  have hrest := hlater hbehind
  rw [List.append_nil] at hrest
  rw [hcut, slice?_of_toList h, Option.bind_some, hrest, Option.map_some]

/-- From the line at hand on, the lines that are cut out are those of the text. -/
theorem cutFrom?_eq (h : text.toList = front ++ line ++ rest)
    (hline : ∀ c ∈ line, ¬ (c = '\r' ∨ c = '\n')) :
    cutFrom? text (byteSize front) (byteSize (front ++ line)) =
      some ((lines (line ++ rest)).map String.ofList) := by
  fun_induction lines rest generalizing front line with
  | case1 =>
    have hend : text.toByteArray[byteSize (front ++ line)]? = none := by
      have hnil := getElem?_toByteArray_of_toList h 0
      rwa [Nat.add_zero] at hnil
    have hsize : text.utf8ByteSize = byteSize (front ++ line) := by
      rw [utf8ByteSize_eq, h, List.append_nil]
    rw [cutFrom?_end hend, hsize, slice?_of_toList h, lines_append_of_plain hline rfl,
      List.append_nil]
    rfl
  | case2 rest ih =>
    rw [cutFrom?_of_break ['\r', '\n'] h (cutFrom?_crlf h) fun hbehind =>
      ih hbehind (List.forall_mem_nil _), lines_append_of_plain hline rfl, List.append_nil]
    rfl
  | case3 c rest hcrlf hbreak ih =>
    have hhalf : ¬ (c = '\r' ∧ rest.head? = some '\n') := by
      rintro ⟨hc, hnext⟩
      obtain ⟨rest', rfl⟩ := List.head?_eq_some_iff.mp hnext
      exact hcrlf rest' hc rfl
    rw [cutFrom?_of_break [c] h (cutFrom?_break h hbreak hhalf) fun hbehind =>
      ih hbehind (List.forall_mem_nil _), lines_append_of_plain hline (lines_break hbreak hhalf),
      List.append_nil]
    rfl
  | case4 c rest hcrlf hplain first more hrest ih =>
    -- the line at hand goes on
    have hgrown : text.toList = front ++ (line ++ [c]) ++ rest := by
      simp only [h, List.append_assoc, List.cons_append, List.nil_append]
    have hnobreak : ∀ d ∈ line ++ [c], ¬ (d = '\r' ∨ d = '\n') :=
      List.forall_mem_append.mpr ⟨hline, List.forall_mem_singleton.mpr hplain⟩
    have hlater := ih hgrown hnobreak
    rw [← List.append_assoc, List.append_assoc line [c], List.singleton_append] at hlater
    rw [cutFrom?_plain h hplain]
    exact hlater
  | case5 c rest hcrlf hplain hrest ih => exact absurd hrest (lines_ne_nil rest)

end Text

open Text (breaksOf cutFrom? woven)

theorem map_toList_sourceLines (text : String) :
    (sourceLines text).map String.toList = Text.lines text.toList := by
  rw [sourceLines, List.map_map]
  exact List.map_id'' (fun _ => String.toList_ofList) _

/-- The lines of a text are cut out of its bytes, each as a part of the text. They hold no breaks,
there is one more of them than there are breaks in the text, and with the breaks between them they
are the text. No other lines are. -/
theorem sourceLines_lossless (text : String) :
    cutFrom? text 0 0 = some (sourceLines text) ∧
    (∀ line ∈ sourceLines text, ∀ c ∈ line.toList, ¬ (c = '\r' ∨ c = '\n')) ∧
    (sourceLines text).length = (breaksOf text.toList).length + 1 ∧
    woven ((sourceLines text).map String.toList) (breaksOf text.toList) = text.toList ∧
    ∀ lines : List String, (∀ line ∈ lines, ∀ c ∈ line.toList, ¬ (c = '\r' ∨ c = '\n')) →
      lines.length = (breaksOf text.toList).length + 1 →
        woven (lines.map String.toList) (breaksOf text.toList) = text.toList →
          lines = sourceLines text := by
  have hplain : ∀ line ∈ sourceLines text, ∀ c ∈ line.toList, ¬ (c = '\r' ∨ c = '\n') := by
    intro line hline
    have hmem : line.toList ∈ Text.lines text.toList := by
      rw [← map_toList_sourceLines]
      exact List.mem_map_of_mem hline
    exact Text.not_break_of_mem_lines hmem
  have hlength : (sourceLines text).length = (breaksOf text.toList).length + 1 := by
    rw [sourceLines, List.length_map, Text.length_lines_eq]
  have hwoven : woven ((sourceLines text).map String.toList) (breaksOf text.toList) =
      text.toList := by
    rw [map_toList_sourceLines, Text.woven_lines]
  refine ⟨?_, hplain, hlength, hwoven, fun lines hlines hcount htext => ?_⟩
  · have hstart : text.toList = [] ++ [] ++ text.toList := (List.nil_append _).symm
    exact Text.cutFrom?_eq hstart (List.forall_mem_nil _)
  · have hmap := Text.woven_inj (List.forall_mem_map.mpr hlines) (List.forall_mem_map.mpr hplain)
      (by rwa [List.length_map]) (by rwa [List.length_map]) (htext.trans hwoven.symm)
    exact (List.map_inj_right fun _ _ => String.toList_inj.mp).mp hmap

/-- Breaks of every kind, two of them with half of another one before or behind. -/
theorem sourceLines_lossless_mixed :
    let text := "ä\r\r\n\n\rb"
    let lines := ["ä", "", "", "", "b"]
    breaksOf text.toList = [.carriageReturn, .both, .lineFeed, .carriageReturn] ∧
      (∀ line ∈ lines, ∀ c ∈ line.toList, ¬ (c = '\r' ∨ c = '\n')) ∧
      lines.length = (breaksOf text.toList).length + 1 ∧
      woven (lines.map String.toList) (breaksOf text.toList) = text.toList ∧
      lines = sourceLines text ∧ cutFrom? text 0 0 = some lines := by
  intro text lines
  have hplain : ∀ line ∈ lines, ∀ c ∈ line.toList, ¬ (c = '\r' ∨ c = '\n') := by simp [lines]
  have hcount : lines.length = (breaksOf text.toList).length + 1 := by decide
  have hwoven : woven (lines.map String.toList) (breaksOf text.toList) = text.toList := by decide
  obtain ⟨hcut, -, -, -, honly⟩ := sourceLines_lossless text
  have hlines := honly lines hplain hcount hwoven
  exact ⟨by decide, hplain, hcount, hwoven, hlines, hlines ▸ hcut⟩

end XPathBench
