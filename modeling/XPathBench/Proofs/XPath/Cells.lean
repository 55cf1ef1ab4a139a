import XPathBench.Proofs.XPath.Outlines
import XPathBench.Proofs.XPath.ResultTypes
import XPathBench.XPath.Parser

/-!
# Tokens and the pieces of outlines

A token stands for some pieces of the outline of its query. What an operator is depends on what
stands before it, for tokens and for pieces alike.

* `Token.Spells`: the pieces that a token stands for
* `Spelt`: tokens with their pieces, one after the other
* `plain`: tokens that the parser does not pass over
* `Starts`, `Continues`: cells at the start of an operand and behind one
* `Announces`: pieces announce the type of an expression
-/

namespace XPathBench.XPath

open Outline

/-- An operand may end with the token. -/
def Token.endsOperand : Token → Bool
  | .literal _ | .number _ | .variable _ | .nameTest _ | .nodeTest _ | .function _ | .rightParen
  | .rightBracket => true
  | _ => false

/-- The class of a token that stands between operands. -/
def Token.operator? : Token → Option OperatorClass
  | .or => some .or
  | .and => some .and
  | .equal | .notEqual => some .equality
  | .less | .lessOrEqual | .greater | .greaterOrEqual => some .relational
  | .plus | .minus => some .additive
  | .multiply | .divide | .remainder => some .multiplicative
  | .pipe => some .union
  | .slash => some .slash
  | _ => none

/-- Tokens that are operators only where an operator may stand. -/
def Token.isWordOperator : Token → Bool
  | .or | .and | .remainder | .divide | .multiply => true
  | _ => false

/-- The pieces that a token may stand for. Points and double slashes stand for several tokens, the
later of which have a mark without text. -/
def Token.Spells (operatorMayStand : Bool) : Token → List Piece → Prop
  | .leftParen, ps => ps = [⟨.opening, ['(']⟩]
  | .rightParen, ps => ps = [⟨.closing, [')']⟩]
  | .leftBracket, ps => ps = [⟨.opening, ['[']⟩]
  | .rightBracket, ps => ps = [⟨.closing, [']']⟩]
  | .comma, ps => ps = [⟨.mark, [',']⟩]
  | .axis _, ps => ∃ text, ps = [⟨.mark, text⟩] ∨ ps = [⟨.name, text⟩, ⟨.mark, [':', ':']⟩]
  | .nodeTest _, ps => ∃ text, ps = [⟨.mark, text⟩] ∨ isNodeType text = true ∧
      ∃ target, (target = [] ∨ ∃ quoted, target = [⟨.literal, quoted⟩]) ∧
        ps = ⟨.name, text⟩ :: ⟨.opening, ['(']⟩ :: (target ++ [⟨.closing, [')']⟩])
  | .nameTest _, ps => ∃ text, ps = [⟨.mark, text⟩] ∨ ps = [⟨.name, text⟩]
  | .function name, ps => ps = [⟨.name, name.text.toList⟩]
  | .variable _, ps => ∃ text, ps = [⟨.variable, text⟩]
  | .literal _, ps => ∃ text, ps = [⟨.literal, text⟩]
  | .number _, ps => ∃ text, ps = [⟨.number, text⟩]
  | .minus, ps => ps = [⟨.operator (if operatorMayStand then .additive else .negation), ['-']⟩]
  | token, ps => ∃ kind text, token.operator? = some kind ∧ text ≠ [] ∧
      ps = [⟨.operator kind, text⟩]

/-- A token with the pieces that it stands for. -/
abbrev Cell := Token × List Piece

/-- The pieces of cells. -/
def piecesOf (cells : List Cell) : List Piece := cells.flatMap Prod.snd

theorem piecesOf_singleton (token : Token) (ps : List Piece) : piecesOf [(token, ps)] = ps := by
  rw [piecesOf, List.flatMap_singleton]

theorem piecesOf_append (cells others : List Cell) :
    piecesOf (cells ++ others) = piecesOf cells ++ piecesOf others := List.flatMap_append

/-- The tokens stand for their pieces, one after the other; `last` is the token before them. Behind
a comma no word is an operator: behind a token that is one nevertheless anything may stand. -/
def Spelt : Option Token → List Cell → Prop
  | _, [] => True
  | last, (token, ps) :: rest =>
    last = some .comma ∧ token.isWordOperator = true ∨
      token.Spells (last.any Token.endsOperand) ps ∧ Spelt (some token) rest

/-- A test for nodes stands ahead. -/
def testAhead : List Token → Bool
  | .nodeTest _ :: _ | .nameTest _ :: _ => true
  | _ => false

/-- A parenthesis is closed ahead. -/
def parenAhead : List Token → Bool
  | .rightParen :: _ => true
  | _ => false

/-- An axis has a test behind it, and parentheses hold something unless they are those of a call. -/
def plain : List Token → Bool
  | [] => true
  | .axis _ :: rest => testAhead rest && plain rest
  | .function _ :: .leftParen :: rest => plain rest
  | .leftParen :: rest => !parenAhead rest && plain rest
  | _ :: rest => plain rest

/-- Cells at which an operand may start. -/
def Starts (cells : List Cell) : Prop :=
  ∃ last : Option Token, last.any Token.endsOperand = false ∧ Spelt last cells ∧
    plain (cells.map Prod.fst) = true

/-- Cells that may go on behind an operand. There is an operand without end: a slash alone. -/
def Continues (cells : List Cell) : Prop :=
  ∃ last : Option Token, last ≠ some .comma ∧ Spelt last cells ∧ plain (cells.map Prod.fst) = true

variable {token : Token} {ps : List Piece} {rest : List Cell} {tokens : List Token} {b : Bool}
  {kind : OperatorClass}

theorem plain_of_cons (h : plain (token :: tokens) = true)
    (htoken : ∀ name, token ≠ .function name) : plain tokens = true := by
  cases token with
  | function name => exact absurd rfl (htoken name)
  | axis value => exact (Bool.and_eq_true_iff.mp h).2
  | leftParen => exact (Bool.and_eq_true_iff.mp h).2
  | _ => exact h

theorem Starts.of_spelt (h : Spelt (some token) rest) (htoken : token.endsOperand = false)
    (hplain : plain (rest.map Prod.fst) = true) : Starts rest :=
  ⟨some token, htoken, h, hplain⟩

theorem Continues.of_spelt (h : Spelt (some token) rest) (htoken : token ≠ .comma)
    (hplain : plain (rest.map Prod.fst) = true) : Continues rest :=
  ⟨some token, fun hcomma => htoken (Option.some.inj hcomma), h, hplain⟩

/-- Where an operand may start, a token that is no word stands for its pieces. -/
theorem Starts.inv (h : Starts ((token, ps) :: rest)) (hword : token.isWordOperator = false) :
    token.Spells false ps ∧ Spelt (some token) rest ∧
      plain (token :: rest.map Prod.fst) = true := by
  obtain ⟨last, hlast, ⟨_, hop⟩ | ⟨hspells, hspelt⟩, hplain⟩ := h
  · rw [hword] at hop
    cases hop
  · rw [hlast] at hspells
    exact ⟨hspells, hspelt, hplain⟩

theorem Continues.inv (h : Continues ((token, ps) :: rest)) :
    (∃ b, token.Spells b ps) ∧ Spelt (some token) rest ∧
      plain (token :: rest.map Prod.fst) = true := by
  obtain ⟨last, hlast, ⟨hcomma, _⟩ | ⟨hspells, hspelt⟩, hplain⟩ := h
  · exact absurd hcomma hlast
  · exact ⟨⟨_, hspells⟩, hspelt, hplain⟩

theorem Token.Spells.ne_nil (h : token.Spells b ps) : ps ≠ [] := by
  cases token with
  | axis value =>
    obtain ⟨text, rfl | rfl⟩ := h <;> simp
  | nodeTest value =>
    obtain ⟨text, rfl | ⟨_, target, _, rfl⟩⟩ := h <;> simp
  | nameTest value =>
    obtain ⟨text, rfl | rfl⟩ := h <;> simp
  | «variable» name | literal value | number value =>
    obtain ⟨text, rfl⟩ := h
    simp
  | leftParen | rightParen | leftBracket | rightBracket | comma | function name | minus =>
    rintro rfl
    cases h
  | _ =>
    obtain ⟨kind, text, _, _, rfl⟩ := h
    simp

/-- An operator stands for a piece of its class. A minus without operand before it is a sign, though
the parser may take it for an operator. -/
theorem Token.Spells.operator (h : token.Spells b ps) (hkind : token.operator? = some kind) :
    ∃ shown text, text ≠ [] ∧ ps = [⟨.operator shown, text⟩] ∧
      (shown = kind ∨ shown = .negation ∧ kind = .additive) := by
  cases token with
  | minus =>
    cases h
    cases hkind
    cases b with
    | true => exact ⟨.additive, ['-'], by simp, rfl, .inl rfl⟩
    | false => exact ⟨.negation, ['-'], by simp, rfl, .inr ⟨rfl, rfl⟩⟩
  | leftParen | rightParen | leftBracket | rightBracket | comma | function name | axis value
  | nodeTest value | nameTest value | «variable» name | literal value | number value => cases hkind
  | _ =>
    obtain ⟨shown, text, hshown, htext, rfl⟩ := h
    rw [hkind] at hshown
    cases hshown
    exact ⟨kind, text, htext, rfl, .inl rfl⟩

theorem Token.endsOperand_of_operator (h : token.operator? = some kind) :
    token.endsOperand = false ∧ ∀ name, token ≠ .function name := by
  cases token <;> first | (cases h; done) | exact ⟨rfl, nofun⟩

/-- The pieces announce no type, or that of all values of the expression. -/
def Announces (ps : List Piece) (e : Expr) : Prop := typeOf ps = .any ∨ e.Yields (typeOf ps)

/-- Pieces of an operand announce the type of its expression. -/
structure Sound (k : Nat) (ps : List Piece) (e : Expr) : Prop where
  operand : Operand k ps
  announces : Announces ps e

theorem Sound.weaken {j k : Nat} {ps : List Piece} {e : Expr} (h : Sound k ps e) (hle : j ≤ k) :
    Sound j ps e := ⟨h.operand.weaken hle, h.announces⟩

end XPathBench.XPath
