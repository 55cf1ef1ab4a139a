import XPathBench.Proofs.Text.Slices
import XPathBench.Proofs.Text.Trims
import XPathBench.Proofs.XPath.Spacing

/-!
# The outline turn by turn

A pass over the bytes of a query cuts out one piece in each turn. No turn cuts inside a character or
behind the text, and none comes without taking a character.

* `turn`: one turn, with widths in bytes
* `turn_eq`: what a turn takes
* `passFrom`: all turns
* `Spread`: pieces with white space around them
* `pass_lossless`: nothing is cut wrong, skipped or taken twice
-/

namespace XPathBench.XPath.Outline

open Text (byteSize firstOffset? runBytes slice?)

variable {b : Bool} {c d : Char} {text : String} {front back tail : List Char} {piece : Piece}
  {pieces : List Piece} {shape : Shape}

/-! ## Turns -/

/-- Why a pass over a text does not reach its end. -/
inductive Halt where
  /-- No piece starts there. -/
  | refused
  /-- What is to be cut out is no part of the text. -/
  | miscut
deriving DecidableEq, Repr

/-- The part of a text between two offsets. -/
def cut (text : String) (start stop : Nat) : Except Halt String :=
  (slice? text start stop).elim (.error .miscut) .ok

/-- The number of bytes of the name that a text starts with. -/
def nameBytes (text : String) : Except Halt Nat := do
  let first := runBytes isNameChar text
  let rest ← cut text first text.utf8ByteSize
  match rest.toList with
  | ':' :: '*' :: _ => return first + 2
  | ':' :: c :: more =>
    if isNameStart c then return first + 1 + runBytes isNameChar (String.ofList (c :: more))
    else return first
  | _ => return first

/-- A literal reaches to the next character like the one that it starts with. -/
def measureLiteral (quote : Char) (text : String) : Except Halt (Shape × Nat) := do
  let rest ← cut text 1 text.utf8ByteSize
  match firstOffset? (· == quote) rest.toList with
  | some stop => return (.literal, stop + 2)
  | none => throw .refused

/-- A point starts a number, or is a mark, perhaps with another point. -/
def measurePoint (text : String) : Except Halt (Shape × Nat) := do
  let rest ← cut text 1 text.utf8ByteSize
  if rest.toList.head?.any Char.isDigit then return (.number, runBytes isNumberChar text)
  else return (.mark, if ['.', '.'].isPrefixOf text.toList then 2 else 1)

/-- A variable has a name behind its first character. -/
def measureVariable (text : String) : Except Halt (Shape × Nat) := do
  let rest ← cut text 1 text.utf8ByteSize
  let size ← nameBytes rest
  if size = 0 then throw .refused else return (.variable, size + 1)

/-- A comparison may have an equals sign behind its first character. -/
def measureRelation (text : String) : Except Halt (Shape × Nat) := do
  let rest ← cut text 1 text.utf8ByteSize
  return (.operator .relational, if ['='].isPrefixOf rest.toList then 2 else 1)

/-- A name, or an operator that is a word. -/
def measureWord (operatorMayStand : Bool) (text : String) : Except Halt (Shape × Nat) := do
  let size ← nameBytes text
  let word ← cut text 0 size
  return (wordShape operatorMayStand word.toList, size)

/-- The piece that a text starts with: its shape, and how many bytes belong to it. -/
def measure (operatorMayStand : Bool) (c : Char) (text : String) : Except Halt (Shape × Nat) :=
  match c with
  | '\'' | '"' => measureLiteral c text
  | '.' => measurePoint text
  | '$' => measureVariable text
  | '(' | '[' => return (.opening, 1)
  | ')' | ']' => return (.closing, 1)
  | ',' | '@' => return (.mark, 1)
  | ':' => if [':', ':'].isPrefixOf text.toList then return (.mark, 2) else throw .refused
  | '/' => return (.operator .slash, if ['/', '/'].isPrefixOf text.toList then 2 else 1)
  | '|' => return (.operator .union, 1)
  | '+' => return (.operator .additive, 1)
  | '-' => return (.operator (if operatorMayStand then .additive else .negation), 1)
  | '=' => return (.operator .equality, 1)
  | '!' =>
    if ['!', '='].isPrefixOf text.toList then return (.operator .equality, 2) else throw .refused
  | '<' | '>' => measureRelation text
  | '*' => return (if operatorMayStand then .operator .multiplicative else .mark, 1)
  | _ =>
    if c.isDigit then return (.number, runBytes isNumberChar text)
    else if isNameStart c then measureWord operatorMayStand text
    else throw .refused

/-- One turn: behind white space a piece is cut out, or the text is over. -/
def turn (operatorMayStand : Bool) (text : String) : Except Halt (Option (Piece × String)) := do
  let text := String.ofList (Text.trimStartChars text.toList)
  match text.toList with
  | [] => return none
  | c :: _ =>
    let (shape, size) ← measure operatorMayStand c text
    let piece ← cut text 0 size
    let rest ← cut text size text.utf8ByteSize
    return some (⟨shape, piece.toList⟩, rest)

/-! ## Widths in bytes -/

theorem cut_behind (h : text.toList = front ++ back) :
    cut text (byteSize front) text.utf8ByteSize = .ok (String.ofList back) := by
  rw [cut, Text.slice?_behind h]
  rfl

theorem cut_before (h : text.toList = front ++ back) :
    cut text 0 (byteSize front) = .ok (String.ofList front) := by
  rw [cut, Text.slice?_before h]
  rfl

theorem cut_one (h : text.toList = c :: tail) (hc : c.utf8Size = 1) :
    cut text 1 text.utf8ByteSize = .ok (String.ofList tail) := by
  have hone : byteSize [c] = 1 := hc
  rw [← hone]
  exact cut_behind h

/-- A name takes the bytes of its characters. -/
theorem nameBytes_eq (text : String) :
    nameBytes text = .ok (byteSize (text.toList.take (nameWidth text.toList))) := by
  obtain ⟨front, back, htext, hfront⟩ : ∃ front back, text.toList = front ++ back ∧
      text.toList.takeWhile isNameChar = front :=
    ⟨_, text.toList.dropWhile isNameChar, List.takeWhile_append_dropWhile.symm, rfl⟩
  have hdrop : text.toList.drop front.length = back := by rw [htext, List.drop_left]
  rw [nameBytes, Text.runBytes_eq, hfront, cut_behind htext]
  simp only [bind, Except.bind, String.toList_ofList, Text.runBytes_eq]
  split
  · have hwidth : nameWidth text.toList = front.length + 2 := by
      simp [nameWidth, hfront, hdrop]
    rw [hwidth, htext, List.take_length_add_append, Text.byteSize_append]
    rfl
  · next c more _ =>
    split
    · next hc =>
      have hwidth : nameWidth text.toList =
          front.length + (((c :: more).takeWhile isNameChar).length + 1) := by
        simp [nameWidth, hfront, hdrop, hc]
        omega
      rw [hwidth, htext, List.take_length_add_append, List.take_succ_cons, take_length_takeWhile,
        Text.byteSize_append, Nat.add_assoc]
      rfl
    · next hc =>
      have hwidth : nameWidth text.toList = front.length := by
        simp [nameWidth, hfront, hdrop, hc]
      rw [hwidth, htext, List.take_left]
      rfl
  · have hwidth : nameWidth text.toList = front.length := by
      simp [nameWidth, hfront, hdrop]
    rw [hwidth, htext, List.take_left]
    rfl

/-- A piece that starts with `c` and goes on with some characters, by its bytes. -/
def measured (c : Char) (tail : List Char) : Option (Shape × Nat) → Except Halt (Shape × Nat)
  | some (shape, width) => .ok (shape, byteSize (c :: tail.take width))
  | none => .error .refused

theorem isPrefixOf_pair (c d : Char) (tail : List Char) :
    [c, d].isPrefixOf (c :: tail) = (tail.head? == some d) := by
  cases tail <;> simp [List.isPrefixOf, eq_comm]

theorem isPrefixOf_singleton (d : Char) (tail : List Char) :
    [d].isPrefixOf tail = (tail.head? == some d) := by
  cases tail <;> simp [List.isPrefixOf, eq_comm]

/-- A piece of one character, or of two if a certain one follows. -/
theorem measured_followed (hc : c.utf8Size = 1) (hd : d.utf8Size = 1) :
    measured c tail (some (shape, if tail.head? == some d then 1 else 0)) =
      .ok (shape, if tail.head? == some d then 2 else 1) := by
  split
  · next hhead =>
    obtain ⟨rest, rfl⟩ := List.head?_eq_some_iff.mp (beq_iff_eq.mp hhead)
    simp [measured, byteSize, hc, hd]
  · simp [measured, byteSize, hc]

/-- A piece of two characters. -/
theorem measured_required (hc : c.utf8Size = 1) (hd : d.utf8Size = 1) :
    measured c tail (if tail.head? == some d then some (shape, 1) else none) =
      if tail.head? == some d then .ok (shape, 2) else .error .refused := by
  split
  · next hhead =>
    obtain ⟨rest, rfl⟩ := List.head?_eq_some_iff.mp (beq_iff_eq.mp hhead)
    simp [measured, byteSize, hc, hd]
  · rfl

theorem measured_run (h : text.toList = c :: tail) (hc : isNumberChar c = true) :
    measured c tail (some (.number, (tail.takeWhile isNumberChar).length)) =
      .ok (.number, runBytes isNumberChar text) := by
  rw [measured, take_length_takeWhile, Text.runBytes_eq, h, List.takeWhile_cons_of_pos hc]

theorem measureLiteral_eq (h : text.toList = c :: tail) (hc : c.utf8Size = 1) :
    measureLiteral c text = measured c tail ((tail.idxOf? c).map fun i => (.literal, i + 1)) := by
  rw [measureLiteral, cut_one h hc]
  simp only [bind, Except.bind, String.toList_ofList]
  by_cases hmem : c ∈ tail
  · obtain ⟨front, back, rfl, hfront⟩ := List.eq_append_cons_of_mem hmem
    have hsize : byteSize (c :: (front ++ [c])) = byteSize front + 2 := by
      rw [← List.cons_append, Text.byteSize_concat, Text.byteSize_cons, hc]
      omega
    rw [Text.firstOffset?_append hfront, idxOf?_append hfront, Option.map_some, measured,
      List.take_length_add_append, List.take_succ_cons, List.take_zero, hsize]
    rfl
  · rw [Text.firstOffset?_of_not_mem hmem, List.idxOf?_eq_none_iff.mpr hmem]
    rfl

theorem measurePoint_eq (h : text.toList = '.' :: tail) :
    measurePoint text = measured '.' tail (if tail.head?.any Char.isDigit then
      some (.number, (tail.takeWhile isNumberChar).length)
    else some (.mark, if tail.head? == some '.' then 1 else 0)) := by
  rw [measurePoint, cut_one h rfl]
  simp only [bind, Except.bind, String.toList_ofList]
  split
  · exact (measured_run h rfl).symm
  · rw [measured_followed rfl rfl, h, isPrefixOf_pair]
    rfl

theorem measureVariable_eq (h : text.toList = '$' :: tail) :
    measureVariable text = measured '$' tail (if nameWidth tail = 0 then none
      else some (.variable, nameWidth tail)) := by
  rw [measureVariable, cut_one h rfl]
  have hzero : byteSize (tail.take (nameWidth tail)) = 0 ↔ nameWidth tail = 0 := by
    rw [Text.byteSize_eq_zero_iff, List.take_eq_nil_iff]
    refine ⟨fun hnil => hnil.elim id ?_, .inl⟩
    rintro rfl
    rfl
  simp only [bind, Except.bind, nameBytes_eq, String.toList_ofList, hzero]
  split
  · rfl
  · rw [measured, Nat.add_comm]
    rfl

theorem measureRelation_eq (h : text.toList = c :: tail) (hc : c.utf8Size = 1) :
    measureRelation text =
      measured c tail (some (.operator .relational, if tail.head? == some '=' then 1 else 0)) := by
  rw [measureRelation, cut_one h hc, measured_followed hc rfl]
  simp only [bind, Except.bind, String.toList_ofList, isPrefixOf_singleton]
  rfl

theorem measureWord_eq (h : text.toList = c :: tail) (hc : isNameStart c = true) :
    measureWord b text = measured c tail (some
      (wordShape b ((c :: tail).take (nameWidth (c :: tail))), nameWidth (c :: tail) - 1)) := by
  have hsplit : text.toList = text.toList.take (nameWidth text.toList) ++
      text.toList.drop (nameWidth text.toList) := (List.take_append_drop _ _).symm
  obtain ⟨width, hwidth⟩ := Nat.exists_eq_add_one_of_ne_zero (Nat.ne_of_gt (nameWidth_pos hc))
  rw [measureWord, nameBytes_eq]
  simp only [bind, Except.bind, cut_before hsplit, String.toList_ofList]
  rw [h, hwidth, measured, Nat.add_sub_cancel, List.take_succ_cons]
  rfl

/-- The pieces that start with a character are found by bytes as by characters. -/
theorem measure_eq (h : text.toList = c :: tail) :
    measure b c text = measured c tail (shapeAt? b c tail) := by
  unfold measure shapeAt?
  split
  case h_1 | h_2 => exact measureLiteral_eq h rfl
  case h_3 => exact measurePoint_eq h
  case h_4 => exact measureVariable_eq h
  case h_11 | h_17 =>
    simp only [h, isPrefixOf_pair]
    exact (measured_required rfl rfl).symm
  case h_12 =>
    simp only [h, isPrefixOf_pair]
    exact (measured_followed rfl rfl).symm
  case h_18 | h_19 => exact measureRelation_eq h rfl
  case h_21 =>
    simp only
    split
    · next hc => exact (measured_run h (by rw [isNumberChar, hc, Bool.true_or])).symm
    · split
      · next hc => exact measureWord_eq h hc
      · rfl
  all_goals rfl

/-! ## What a turn takes -/

/-- A turn is over at the end of the text, is refused where no piece starts, and else takes the
characters of one piece. -/
theorem turn_eq (b : Bool) (text : String) :
    turn b text = match Text.trimStartChars text.toList with
      | [] => .ok none
      | c :: tail => match shapeAt? b c tail with
        | none => .error .refused
        | some (shape, width) =>
          .ok (some (⟨shape, c :: tail.take width⟩, String.ofList (tail.drop width))) := by
  rw [turn]
  simp only [String.toList_ofList]
  cases htrim : Text.trimStartChars text.toList with
  | nil => rfl
  | cons c tail =>
    have htext : (String.ofList (c :: tail)).toList = c :: tail := String.toList_ofList
    simp only [bind, Except.bind, measure_eq htext]
    cases shapeAt? b c tail with
    | none => rfl
    | some found =>
      obtain ⟨shape, width⟩ := found
      have hsplit : (String.ofList (c :: tail)).toList =
          (c :: tail.take width) ++ tail.drop width := by
        rw [htext, List.cons_append, List.take_append_drop]
      simp only [measured, cut_before hsplit, cut_behind hsplit, String.toList_ofList]
      rfl

theorem turn_ne_miscut (b : Bool) (text : String) : turn b text ≠ .error .miscut := by
  rw [turn_eq]
  split
  · exact nofun
  · split <;> exact nofun

/-- A turn that is over has only white space before it. -/
theorem isBlank_of_turn (h : turn b text = .ok none) :
    ∀ c ∈ text.toList, Text.isBlank c = true := by
  obtain ⟨gap, htext, hgap⟩ := Text.exists_gap text.toList
  rw [turn_eq] at h
  split at h
  · next htrim =>
    rw [htext, htrim, List.append_nil]
    exact hgap
  · split at h <;> cases h

/-- A turn takes a piece and the white space before it. -/
structure Takes (text : String) (piece : Piece) (rest : String) : Prop where
  nonempty : piece.text ≠ []
  all : ∃ gap, text.toList = gap ++ piece.text ++ rest.toList ∧ ∀ c ∈ gap, Text.isBlank c = true

theorem takes_of_turn {rest : String} (h : turn b text = .ok (some (piece, rest))) :
    Takes text piece rest := by
  obtain ⟨gap, htext, hgap⟩ := Text.exists_gap text.toList
  rw [turn_eq] at h
  split at h
  · cases h
  · next c tail htrim =>
    split at h
    · cases h
    · next shape width _ =>
      cases h
      refine ⟨List.cons_ne_nil _ _, gap, ?_, hgap⟩
      rw [String.toList_ofList, List.append_assoc, List.cons_append, List.take_append_drop, ← htrim]
      exact htext

theorem Takes.length_lt {rest : String} (h : Takes text piece rest) :
    rest.length < text.length := by
  obtain ⟨gap, htext, -⟩ := h.all
  have hpos := List.length_pos_iff.mpr h.nonempty
  rw [← String.length_toList, ← String.length_toList, htext, List.length_append,
    List.length_append]
  omega

/-! ## All turns -/

/-- The pieces that are taken turn by turn. -/
def passFrom (operatorMayStand : Bool) (text : String) : Except Halt (List Piece) :=
  match h : turn operatorMayStand text with
  | .error halt => .error halt
  | .ok none => .ok []
  | .ok (some (piece, rest)) =>
    have := (takes_of_turn h).length_lt
    (passFrom (endsOperand piece) rest).map (piece :: ·)
termination_by text.length

/-- The pieces of a query, taken turn by turn. -/
def pass (text : String) : Except Halt (List Piece) := passFrom false text

/-- Pieces with white space before them, between them and behind them. -/
inductive Spread : List Piece → List Char → Prop where
  | nil {gap : List Char} : (∀ c ∈ gap, Text.isBlank c = true) → Spread [] gap
  | cons {gap rest : List Char} {piece : Piece} {pieces : List Piece} :
      (∀ c ∈ gap, Text.isBlank c = true) → piece.text ≠ [] → Spread pieces rest →
        Spread (piece :: pieces) (gap ++ piece.text ++ rest)

/-- A turn takes the first of the pieces that the outline finds. -/
theorem piecesFrom?_eq_turn (b : Bool) (text : String) :
    piecesFrom? b 0 text.toList = match turn b text with
      | .error _ => none
      | .ok none => some []
      | .ok (some (piece, rest)) =>
        (piecesFrom? (endsOperand piece) 0 rest.toList).map (piece :: ·) := by
  obtain ⟨gap, htext, hgap⟩ := Text.exists_gap text.toList
  have hpieces := congrArg (piecesFrom? b 0) htext
  rw [piecesFrom?_space hgap] at hpieces
  rw [hpieces, turn_eq]
  cases htrim : Text.trimStartChars text.toList with
  | nil => rfl
  | cons c tail =>
    have hblank := Text.not_isBlank_of_trimStartChars htrim
    rw [piecesFrom?, hblank, if_neg Bool.false_ne_true]
    cases hshape : shapeAt? b c tail with
    | none => simp only [hshape]
    | some found =>
      obtain ⟨shape, width⟩ := found
      simp only [hshape, piecesFrom?_skip width, String.toList_ofList]

theorem passFrom_eq (b : Bool) (text : String) :
    passFrom b text = (piecesFrom? b 0 text.toList).elim (.error .refused) .ok := by
  fun_induction passFrom b text with
  | case1 b text halt h =>
    have hpieces : piecesFrom? b 0 text.toList = none := by rw [piecesFrom?_eq_turn, h]
    rw [hpieces]
    cases halt with
    | refused => rfl
    | miscut => exact absurd h (turn_ne_miscut b text)
  | case2 b text h =>
    have hpieces : piecesFrom? b 0 text.toList = some [] := by rw [piecesFrom?_eq_turn, h]
    rw [hpieces]
    rfl
  | case3 b text piece rest h _ ih =>
    have hpieces : piecesFrom? b 0 text.toList =
        (piecesFrom? (endsOperand piece) 0 rest.toList).map (piece :: ·) := by
      rw [piecesFrom?_eq_turn, h]
    rw [hpieces, ih]
    cases piecesFrom? (endsOperand piece) 0 rest.toList <;> rfl

theorem spread_of_passFrom (h : passFrom b text = .ok pieces) : Spread pieces text.toList := by
  fun_induction passFrom b text generalizing pieces with
  | case1 b text halt hturn => cases h
  | case2 b text hturn =>
    cases h
    exact .nil (isBlank_of_turn hturn)
  | case3 b text piece rest hturn _ ih =>
    cases hlater : passFrom (endsOperand piece) rest with
    | error halt =>
      rw [hlater] at h
      cases h
    | ok later =>
      rw [hlater] at h
      cases h
      obtain ⟨hnonempty, gap, htext, hgap⟩ := takes_of_turn hturn
      rw [htext]
      exact .cons hgap hnonempty (ih hlater)

/-- A query is cut into its pieces turn by turn, and what is cut out lies between characters of the
query. A turn is over behind the last piece, is refused, or takes at least one character. The pieces
that are found are the query, with white space before them, between them and behind them. -/
theorem pass_lossless (text : String) :
    (∀ b, turn b text ≠ .error .miscut ∧
      (turn b text = .ok none → ∀ c ∈ text.toList, Text.isBlank c = true) ∧
      ∀ piece rest, turn b text = .ok (some (piece, rest)) → Takes text piece rest) ∧
    pass text = (ofText? text.toList).elim (.error .refused) .ok ∧
    ∀ pieces, ofText? text.toList = some pieces → Spread pieces text.toList := by
  have hpass : pass text = (ofText? text.toList).elim (.error .refused) .ok :=
    passFrom_eq false text
  refine ⟨fun b => ⟨turn_ne_miscut b text, isBlank_of_turn, fun _ _ => takes_of_turn⟩, hpass, ?_⟩
  intro pieces hpieces
  rw [hpieces] at hpass
  exact spread_of_passFrom hpass

/-- Characters of several bytes in a literal and in a name. -/
theorem pass_lossless_wide :
    let text := " 'é'=$ä "
    let literal : Piece := ⟨.literal, "'é'".toList⟩
    let pieces := [literal, ⟨.operator .equality, ['=']⟩, ⟨.variable, "$ä".toList⟩]
    turn false text = .ok (some (literal, "=$ä ")) ∧ Takes text literal "=$ä " ∧
      turn true " " = .ok none ∧ (∀ c ∈ " ".toList, Text.isBlank c = true) ∧
      ofText? text.toList = some pieces ∧ Spread pieces text.toList ∧ pass text = .ok pieces := by
  intro text literal pieces
  have hturn : turn false text = .ok (some (literal, "=$ä ")) := by
    rw [turn_eq]
    decide
  have hover : turn true " " = .ok none := by
    rw [turn_eq]
    decide
  have hpieces : ofText? text.toList = some pieces := by decide +kernel
  obtain ⟨hturns, hpass, hspread⟩ := pass_lossless text
  refine ⟨hturn, (hturns false).2.2 _ _ hturn, hover, ?_, hpieces, hspread _ hpieces, ?_⟩
  · exact ((pass_lossless " ").1 true).2.1 hover
  · rw [hpass, hpieces]
    rfl

end XPathBench.XPath.Outline
