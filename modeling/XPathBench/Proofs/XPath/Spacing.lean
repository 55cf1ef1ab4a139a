import XPathBench.Proofs.XPath.Alignment
import XPathBench.Proofs.XPath.Trees

/-!
# Outlines of texts with white space between tokens

Between white space the outline reads each token as one piece.

* `ReadsAs`: what the outline reads a token as
* `LexesAs`: tokens one after the other
* `LexesAs.piecesFrom?_eq`: the pieces of a text with white space between the tokens
-/

namespace XPathBench.XPath

open Outline (piecesFrom? shapeAt? endsOperand wordShape nameWidth)
open Xml (NotAhead)

variable {b next : Bool} {c : Char} {rest space text token tail word : List Char} {shape : Shape}
  {tokens later : List (List Char)} {pieces behind : List Piece}

/-! ## White space -/

theorem not_isNameChar_of_isBlank (h : Text.isBlank c = true) : Outline.isNameChar c = false := by
  have hblanks : ∀ n ∈ Text.blankRanges.flatMap fun r => List.range' r.1 (r.2 + 1 - r.1),
      Outline.isNameChar (Char.ofNat n) = false := by decide +kernel
  obtain ⟨r, hr, hrange⟩ := List.any_eq_true.mp h
  rw [Bool.and_eq_true, decide_eq_true_eq, decide_eq_true_eq] at hrange
  have hmem : c.toNat ∈ List.range' r.1 (r.2 + 1 - r.1) := by
    rw [List.mem_range'_1]
    omega
  rw [← hblanks c.toNat (List.mem_flatMap.mpr ⟨r, hr, hmem⟩), Char.ofNat_toNat]

theorem isNameChar_of_isNameStart (h : Outline.isNameStart c = true) :
    Outline.isNameChar c = true := by
  rw [Outline.isNameStart, Bool.or_eq_true] at h
  rcases h with h | h <;> simp [Outline.isNameChar, h]

theorem not_isBlank_of_isNameChar (h : Outline.isNameChar c = true) : Text.isBlank c = false := by
  rw [Bool.eq_false_iff]
  intro hblank
  rw [not_isNameChar_of_isBlank hblank] at h
  cases h

theorem isNameChar_of_isNumberChar (h : Outline.isNumberChar c = true) :
    Outline.isNameChar c = true := by
  rw [Outline.isNumberChar, Bool.or_eq_true] at h
  rcases h with h | h
  · exact (isNameChar_of_isDigit h).1
  · obtain rfl := beq_iff_eq.mp h
    decide

namespace BlankAhead

theorem head?_ne (h : BlankAhead rest) {d : Char} (hd : Text.isBlank d = false) :
    rest.head? ≠ some d := by
  intro hhead
  rw [h d hhead] at hd
  cases hd

/-- What blanks are not does not go on. -/
theorem notAhead (h : BlankAhead rest) {good : Char → Bool}
    (hgood : ∀ c, good c = true → Outline.isNameChar c = true) : NotAhead good rest := by
  intro c hc
  rw [Bool.eq_false_iff]
  intro hname
  have hblank := not_isBlank_of_isNameChar (hgood c hname)
  rw [h c hc] at hblank
  cases hblank

theorem endsWord (h : BlankAhead rest) : EndsWord rest := by
  refine ⟨h.notAhead fun _ hc => hc, ?_⟩
  rintro c cs rfl
  exact absurd rfl (h.head?_ne (d := ':') (by decide))

end BlankAhead

theorem piecesFrom?_space (h : ∀ c ∈ space, Text.isBlank c = true) :
    piecesFrom? b 0 (space ++ text) = piecesFrom? b 0 text := by
  induction space with
  | nil => rfl
  | cons c space ih =>
    rw [List.forall_mem_cons] at h
    rw [List.cons_append, piecesFrom?, if_pos h.1, ih h.2]

theorem Spaced.behindSpace (hspace : ∀ c ∈ space, Text.isBlank c = true)
    (h : Spaced tokens text) : Spaced tokens (space ++ text) := by
  cases h with
  | nil hmore => exact .nil (List.forall_mem_append.mpr ⟨hspace, hmore⟩)
  | cons hmore hahead hrest =>
    rw [← List.append_assoc]
    exact .cons (List.forall_mem_append.mpr ⟨hspace, hmore⟩) hahead hrest

/-- Tokens may be joined with single spaces. -/
theorem spaced_intercalate (tokens : List (List Char)) :
    Spaced tokens ([' '].intercalate tokens) := by
  induction tokens with
  | nil => exact .nil nofun
  | cons token tokens ih =>
    cases tokens with
    | nil =>
      have hlast : Spaced [token] ([] ++ (token ++ [])) := .cons nofun nofun (.nil nofun)
      simpa using hlast
    | cons next tokens =>
      have hspace : ∀ c ∈ [' '], Text.isBlank c = true := List.forall_mem_singleton.mpr rfl
      have hmore := ih.behindSpace hspace
      have hall : Spaced (token :: next :: tokens)
          ([] ++ (token ++ ([' '] ++ [' '].intercalate (next :: tokens)))) :=
        .cons nofun (by simpa [BlankAhead] using hspace) hmore
      simpa [List.intercalate_cons_cons] using hall

/-! ## Single tokens -/

/-- The outline reads a token as one piece, if white space follows. `b` tells whether an operator
may stand there. -/
def ReadsAs (b : Bool) (token : List Char) (shape : Shape) : Prop :=
  ∀ rest, BlankAhead rest → piecesFrom? b 0 (token ++ rest) =
    (piecesFrom? (endsOperand ⟨shape, token⟩) 0 rest).map (⟨shape, token⟩ :: ·)

theorem readsAs_of_shape (hc : Text.isBlank c = false)
    (h : ∀ rest, BlankAhead rest → shapeAt? b c (tail ++ rest) = some (shape, tail.length)) :
    ReadsAs b (c :: tail) shape :=
  fun rest hrest => piecesFrom?_cons hc (h rest hrest)

/-- A character that is a piece whatever follows. -/
theorem readsAs_char (hc : Text.isBlank c = false)
    (h : ∀ rest, shapeAt? b c rest = some (shape, 0)) : ReadsAs b [c] shape :=
  readsAs_of_shape hc fun rest _ => h rest

theorem readsAs_slash (slash : Tree.Slash) : ReadsAs b slash.text (.operator .slash) := by
  cases slash with
  | single =>
    refine readsAs_of_shape (by decide) fun rest hrest => ?_
    have hahead := hrest.head?_ne (d := '/') (by decide)
    simp [shapeAt?, hahead]
  | double => exact readsAs_of_shape (by decide) fun rest _ => by simp [shapeAt?]

theorem readsAs_point : ReadsAs b ['.'] .mark := by
  refine readsAs_of_shape (by decide) fun rest hrest => ?_
  have hahead := hrest.head?_ne (d := '.') (by decide)
  have hdigit : rest.head?.any Char.isDigit = false := by
    rw [Option.any_eq_false]
    intro c hc
    exact hrest.notAhead (fun c hc => (isNameChar_of_isDigit hc).1) c hc
  simp [shapeAt?, hahead, hdigit]

theorem readsAs_points : ReadsAs b ['.', '.'] .mark :=
  readsAs_of_shape (by decide) fun rest _ => by simp [shapeAt?]

/-- An operator that looks like a test is read as one where an operator may stand. A subtraction is
read as a negation where none may. -/
theorem exists_readsAs_symbol (op : BinaryOp) (h : op.looksLikeTest = true → b = true) :
    ∃ shown, ReadsAs b op.symbol (.operator shown) ∧
      (shown = op.kind ∨ shown = .negation ∧ op.kind = .additive) := by
  have hword {word : List Char} {kind : OperatorClass} (hword : IsWord word)
      (hkind : wordShape true word = .operator kind) : ReadsAs true word (.operator kind) := by
    intro rest hrest
    rw [← hkind]
    exact piecesFrom?_word hword hrest.endsWord
  cases op with
  | or | and | divide | remainder =>
    obtain rfl := h rfl
    exact ⟨_, hword (by decide) rfl, .inl rfl⟩
  | multiply =>
    obtain rfl := h rfl
    exact ⟨_, readsAs_char (by decide) fun _ => rfl, .inl rfl⟩
  | subtract =>
    cases b with
    | true => exact ⟨_, readsAs_char (by decide) fun _ => rfl, .inl rfl⟩
    | false => exact ⟨_, readsAs_char (by decide) fun _ => rfl, .inr ⟨rfl, rfl⟩⟩
  | equal | add | union => exact ⟨_, readsAs_char (by decide) fun _ => rfl, .inl rfl⟩
  | notEqual | lessOrEqual | greaterOrEqual =>
    refine ⟨BinaryOp.kind _, readsAs_of_shape (by decide) fun _ _ => ?_, .inl rfl⟩
    simp [shapeAt?, BinaryOp.kind]
  | less | greater =>
    refine ⟨BinaryOp.kind _, readsAs_of_shape (by decide) fun rest hrest => ?_, .inl rfl⟩
    have hahead := hrest.head?_ne (d := '=') (by decide)
    simp [shapeAt?, hahead, BinaryOp.kind]

/-! ## Names -/

namespace Tree

theorem Word.exists_cons (w : Word) :
    ∃ c tail, w.text = c :: tail ∧ Outline.isNameStart c = true := by
  obtain ⟨text, hstarts, _⟩ := w
  cases text with
  | nil => cases hstarts
  | cons c tail => exact ⟨c, tail, rfl, hstarts⟩

/-- A name is read to its end. -/
theorem Name.nameWidth_text (n : Name) (hrest : BlankAhead rest) :
    nameWidth (n.text ++ rest) = n.text.length := by
  obtain ⟨_ | p, w⟩ := n
  · exact nameWidth_append w.further hrest.endsWord
  · have hcolon : NotAhead Outline.isNameChar (':' :: (w.text ++ rest)) := by
      rw [Xml.notAhead_cons]
      decide
    obtain ⟨c, tail, hw, hc⟩ := w.exists_cons
    have hlocal := Xml.takeWhile_append_of_notAhead w.further hrest.endsWord.1
    simp only [Name.text, List.append_assoc, List.cons_append, nameWidth_eq, wordWidth,
      Xml.takeWhile_append_of_notAhead p.further hcolon, List.drop_left']
    rw [hw] at hlocal ⊢
    split
    · next heq =>
      cases heq
      cases hc
    · next heq =>
      cases heq
      rw [if_pos hc]
      show p.text.length + 1 + ((c :: tail ++ rest).takeWhile Outline.isNameChar).length = _
      simp only [hlocal, List.length_append, List.length_cons]
      omega
    · next hnone => exact absurd rfl (hnone _ _)

theorem Name.exists_cons (n : Name) :
    ∃ c tail, n.text = c :: tail ∧ Outline.isNameStart c = true := by
  obtain ⟨_ | p, w⟩ := n
  · exact w.exists_cons
  · obtain ⟨c, tail, hp, hc⟩ := p.exists_cons
    exact ⟨c, tail ++ ':' :: w.text, by simp [Name.text, hp], hc⟩

end Tree

/-- A word that is read to its end is one piece. -/
theorem readsAs_word (hc : Outline.isNameStart c = true)
    (hwidth : ∀ rest, BlankAhead rest → nameWidth (c :: (tail ++ rest)) = tail.length + 1) :
    ReadsAs false (c :: tail) .name := by
  refine readsAs_of_shape (not_isBlank_of_isNameChar (isNameChar_of_isNameStart hc))
    fun rest hrest => ?_
  rw [shapeAt?_of_isNameStart hc, hwidth rest hrest]
  rfl

theorem readsAs_name (n : Tree.Name) : ReadsAs false n.text .name := by
  obtain ⟨c, tail, htext, hc⟩ := n.exists_cons
  rw [htext]
  refine readsAs_word hc fun rest hrest => ?_
  have hwidth := n.nameWidth_text hrest
  rwa [htext] at hwidth

theorem readsAs_variable (n : Tree.Name) : ReadsAs b ('$' :: n.text) .variable := by
  refine readsAs_of_shape (by decide) fun rest hrest => ?_
  obtain ⟨c, tail, htext, _⟩ := n.exists_cons
  have hne : n.text.length ≠ 0 := by simp [htext]
  simp [shapeAt?, n.nameWidth_text hrest, hne]

theorem readsAs_anyWith (p : Tree.Word) : ReadsAs false (p.text ++ [':', '*']) .name := by
  obtain ⟨c, tail, htext, hc⟩ := p.exists_cons
  rw [htext]
  refine readsAs_word hc fun rest _ => ?_
  have hcolon : NotAhead Outline.isNameChar (':' :: '*' :: rest) := by
    rw [Xml.notAhead_cons]
    decide
  have hrun := Xml.takeWhile_append_of_notAhead p.further hcolon
  rw [htext] at hrun
  show nameWidth (c :: tail ++ [':', '*'] ++ rest) = _
  rw [List.append_assoc]
  simp only [nameWidth_eq, wordWidth, List.cons_append, List.nil_append] at hrun ⊢
  simp only [hrun]
  simp

/-! ## Literals and numbers -/

theorem readsAs_literal (l : Tree.Literal) : ReadsAs b l.text .literal := by
  refine readsAs_of_shape ?_ fun rest _ => ?_
  · rcases l.isQuote with h | h <;> rw [h] <;> decide
  · have hindex := @idxOf?_append rest _ _ l.fits
    rw [List.append_assoc, List.singleton_append, List.length_append]
    rcases l.isQuote with h | h
    · rw [h] at hindex ⊢
      simp [shapeAt?, hindex]
    · rw [h] at hindex ⊢
      simp [shapeAt?, hindex]

theorem Tree.Numeral.isNumberChar (n : Tree.Numeral) :
    ∀ c ∈ n.text, Outline.isNumberChar c = true := by
  obtain ⟨whole, fraction, hdigits, _⟩ := n
  have hdigit : ∀ c ∈ whole ++ fraction.getD [], Outline.isNumberChar c = true := by
    intro c hc
    rw [Outline.isNumberChar, hdigits c hc, Bool.true_or]
  rw [List.forall_mem_append] at hdigit
  cases fraction with
  | none => exact hdigit.1
  | some digits =>
    refine List.forall_mem_append.mpr ⟨hdigit.1, List.forall_mem_cons.mpr ⟨rfl, hdigit.2⟩⟩

/-- A number starts with a digit, or with a point and a digit. -/
theorem Tree.Numeral.exists_cons (n : Tree.Numeral) : ∃ c tail, n.text = c :: tail ∧
    (c.isDigit = true ∨ c = '.' ∧ tail.head?.any Char.isDigit = true) := by
  obtain ⟨whole, fraction, hdigits, hnonempty⟩ := n
  cases whole with
  | cons c whole =>
    have hc := hdigits c List.mem_cons_self
    cases fraction with
    | none => exact ⟨c, whole, rfl, .inl hc⟩
    | some digits => exact ⟨c, whole ++ '.' :: digits, rfl, .inl hc⟩
  | nil =>
    cases fraction with
    | none => exact absurd rfl hnonempty
    | some digits =>
      obtain ⟨d, more, rfl⟩ := List.exists_cons_of_ne_nil hnonempty
      exact ⟨'.', d :: more, rfl, .inr ⟨rfl, hdigits d List.mem_cons_self⟩⟩

theorem readsAs_numeral (n : Tree.Numeral) : ReadsAs b n.text .number := by
  have hchars := n.isNumberChar
  obtain ⟨c, tail, htext, hc⟩ := n.exists_cons
  rw [htext] at hchars ⊢
  rw [List.forall_mem_cons] at hchars
  refine readsAs_of_shape (not_isBlank_of_isNameChar (isNameChar_of_isNumberChar hchars.1))
    fun rest hrest => ?_
  have hrun := Xml.takeWhile_append_of_notAhead hchars.2
    (hrest.notAhead fun _ => isNameChar_of_isNumberChar)
  rcases hc with hc | ⟨rfl, hdigit⟩
  · rw [shapeAt?_of_isDigit hc, hrun]
  · have hahead : (tail ++ rest).head?.any Char.isDigit = true := by
      cases tail with
      | nil => cases hdigit
      | cons d tail => exact hdigit
    simp only [shapeAt?, hrun]
    exact if_pos hahead

/-! ## Tokens one after the other -/

/-- The outline reads tokens one by one, where an operator may stand or not, as pieces behind which
one may stand or not. -/
inductive LexesAs : Bool → List (List Char) → List Piece → Bool → Prop where
  | nil {b : Bool} : LexesAs b [] [] b
  | cons {b next : Bool} {token : List Char} {shape : Shape} {tokens : List (List Char)}
      {pieces : List Piece} : ReadsAs b token shape →
        LexesAs (endsOperand ⟨shape, token⟩) tokens pieces next →
          LexesAs b (token :: tokens) (⟨shape, token⟩ :: pieces) next

namespace LexesAs

variable {middle : Bool}

theorem single (h : ReadsAs b token shape) (hnext : endsOperand ⟨shape, token⟩ = next) :
    LexesAs b [token] [⟨shape, token⟩] next := by
  subst hnext
  exact .cons h .nil

theorem append (h : LexesAs b tokens pieces middle) (hlater : LexesAs middle later behind next) :
    LexesAs b (tokens ++ later) (pieces ++ behind) next := by
  induction h with
  | nil => exact hlater
  | cons hread _ ih => exact .cons hread (ih hlater)

/-- In a text with white space between the tokens the outline reads them all. -/
theorem piecesFrom?_eq (h : LexesAs b tokens pieces next) (htext : Spaced tokens text) :
    piecesFrom? b 0 text = some pieces := by
  induction h generalizing text with
  | nil =>
    cases htext with
    | nil hspace =>
      rw [← List.append_nil text, piecesFrom?_space hspace]
      rfl
  | cons hread _ ih =>
    cases htext with
    | cons hspace hrest htokens =>
      rw [piecesFrom?_space hspace, hread _ hrest, ih htokens]
      rfl

end LexesAs

end XPathBench.XPath
