import XPathBench.Proofs.XPath.Abbreviations
import XPathBench.Proofs.XPath.Cells
import XPathBench.Proofs.XPath.Words

/-!
# Tokens and pieces of a query

Of a query that is written plainly the lexer and the outline see the same words.

* `standsApart`, `apart`: words that both sides tell apart
* `Reads`: what the outline sees of a lexeme
* `exists_cells`: the tokens of a query with the pieces that they stand for
-/

namespace XPathBench.XPath

open Lexeme
open Outline (piecesFrom? shapeAt? spelledOut)
open Xml (leadingNcName? leadingQName? PrefixedName NotAhead)

variable {b next : Bool} {c : Char} {cs text tail word behind : List Char} {token : Token}
  {tokens : List Token} {last : Option Token} {shape : Shape}

/-- Behind an operator that is a word no name goes on, and no name holds the one blank that is a
letter to the lexer. -/
def Lexeme.standsApart (lexeme : Lexeme) (cs : List Char) : Bool :=
  match lexeme.tokens with
  | [.or] | [.and] | [.remainder] | [.divide] =>
    !(cs.drop lexeme.width).head?.any Outline.isNameChar
  | [.function _] | [.variable _] | [.nameTest _] => !(cs.take lexeme.width).contains '\u1680'
  | _ => true

/-- All lexemes of a text behind its first `skip` characters stand apart. -/
def apartFrom (operatorExpected : Bool) : Nat → List Char → Bool
  | _, [] => true
  | skip + 1, _ :: rest => apartFrom operatorExpected skip rest
  | 0, c :: rest =>
    if Text.isXmlBlank c then apartFrom operatorExpected 0 rest
    else match lexemeAt operatorExpected (c :: rest) with
      | .error _ => true
      | .ok lexeme =>
        lexeme.standsApart (c :: rest) && apartFrom lexeme.operatorNext (lexeme.width - 1) rest

/-! ## Going on behind a piece -/

theorem ofTextFrom_skip (skip : Nat) :
    TokenStream.ofTextFrom b skip cs = TokenStream.ofTextFrom b 0 (cs.drop skip) := by
  induction cs generalizing skip with
  | nil => rw [List.drop_nil, TokenStream.ofTextFrom, TokenStream.ofTextFrom]
  | cons c cs ih =>
    cases skip with
    | zero => rfl
    | succ skip => rw [TokenStream.ofTextFrom, ih, List.drop_succ_cons]

theorem apartFrom_skip (skip : Nat) : apartFrom b skip cs = apartFrom b 0 (cs.drop skip) := by
  induction cs generalizing skip with
  | nil => rw [List.drop_nil, apartFrom, apartFrom]
  | cons c cs ih =>
    cases skip with
    | zero => rfl
    | succ skip => rw [apartFrom, ih, List.drop_succ_cons]

theorem piecesFrom?_skip (skip : Nat) : piecesFrom? b skip cs = piecesFrom? b 0 (cs.drop skip) := by
  induction cs generalizing skip with
  | nil => rw [List.drop_nil, piecesFrom?, piecesFrom?]
  | cons c cs ih =>
    cases skip with
    | zero => rfl
    | succ skip => rw [piecesFrom?, ih, List.drop_succ_cons]

theorem piecesFrom?_cons (hc : Text.isBlank c = false)
    (hshape : shapeAt? b c (tail ++ behind) = some (shape, tail.length)) :
    piecesFrom? b 0 (c :: (tail ++ behind)) =
      (piecesFrom? (Outline.endsOperand ⟨shape, c :: tail⟩) 0 behind).map
        (⟨shape, c :: tail⟩ :: ·) := by
  rw [piecesFrom?, hc, if_neg Bool.false_ne_true, hshape]
  simp only
  rw [piecesFrom?_skip, List.take_left' rfl, List.drop_left' rfl]

/-- What the outline sees of a text that the lexer cuts into tokens. -/
structure Reads (last : Option Token) (text behind : List Char) (cells : List Cell)
    (token : Token) : Prop where
  spelt : ∀ later, Spelt (some token) later → Spelt last (cells ++ later)
  pieces : ∀ pieces, piecesFrom? (last.any Token.endsOperand) 0 (text ++ behind) = some pieces →
    ∃ later, piecesFrom? token.endsOperand 0 behind = some later ∧
      spelledOut pieces = piecesOf cells ++ spelledOut later

/-- What the lexer expects behind a token. Behind a comma it expects an operator. -/
def Expects (last : Option Token) (b : Bool) : Prop :=
  b = last.any Token.endsOperand ∨ last = some .comma ∧ b = true

/-- The lexer and the outline see the same. -/
def Agrees (last : Option Token) (text behind : List Char) (tokens : List Token) (next : Bool) :
    Prop :=
  ∃ cells token, cells.map Prod.fst = tokens ∧ Reads last text behind cells token ∧
    Expects (some token) next

/-- A token with a piece of its own. -/
theorem agrees_of_shape (hends : Outline.endsOperand ⟨shape, c :: tail⟩ = token.endsOperand)
    (hspells : token.Spells (last.any Token.endsOperand) [⟨shape, c :: tail⟩])
    (hself : Piece.spelledOut ⟨shape, c :: tail⟩ = [⟨shape, c :: tail⟩])
    (hnext : Expects (some token) next)
    (hshape : ∀ pieces,
      piecesFrom? (last.any Token.endsOperand) 0 (c :: (tail ++ behind)) = some pieces →
        Text.isBlank c = false ∧
          shapeAt? (last.any Token.endsOperand) c (tail ++ behind) = some (shape, tail.length)) :
    Agrees last (c :: tail) behind [token] next := by
  refine ⟨[(token, [⟨shape, c :: tail⟩])], token, rfl,
    ⟨fun later hlater => .inr ⟨hspells, hlater⟩, fun pieces hpieces => ?_⟩, hnext⟩
  obtain ⟨hc, hshape⟩ := hshape pieces hpieces
  rw [List.cons_append, piecesFrom?_cons hc hshape, hends] at hpieces
  obtain ⟨later, hlater, rfl⟩ := Option.map_eq_some_iff.mp hpieces
  refine ⟨later, hlater, ?_⟩
  rw [Outline.spelledOut_cons, hself]
  rfl

theorem agrees_single (hc : Text.isBlank c = false)
    (hshape : shapeAt? (last.any Token.endsOperand) c (tail ++ behind) = some (shape, tail.length))
    (hspells : token.Spells (last.any Token.endsOperand) [⟨shape, c :: tail⟩])
    (hends : Outline.endsOperand ⟨shape, c :: tail⟩ = token.endsOperand)
    (hself : Piece.spelledOut ⟨shape, c :: tail⟩ = [⟨shape, c :: tail⟩])
    (hnext : Expects (some token) next) : Agrees last (c :: tail) behind [token] next :=
  agrees_of_shape hends hspells hself hnext fun _ _ => ⟨hc, hshape⟩

/-- A point that no digit follows stands for a step. -/
theorem agrees_points (tail : List Char) {axis : Axis}
    (hshape : shapeAt? (last.any Token.endsOperand) '.' (tail ++ behind) =
      some (.mark, tail.length))
    (hself : Piece.spelledOut ⟨.mark, '.' :: tail⟩ = [⟨.mark, '.' :: tail⟩, ⟨.mark, []⟩])
    (hends : Outline.endsOperand ⟨.mark, '.' :: tail⟩ = true) :
    Agrees last ('.' :: tail) behind [.axis axis, .nodeTest .node] true := by
  refine ⟨[(_, [⟨.mark, '.' :: tail⟩]), (_, [⟨.mark, []⟩])], .nodeTest .node, rfl,
    ⟨fun later hlater => .inr ⟨⟨_, .inl rfl⟩, .inr ⟨⟨_, .inl rfl⟩, hlater⟩⟩,
      fun pieces hpieces => ?_⟩, .inl rfl⟩
  rw [List.cons_append, piecesFrom?_cons (by decide) hshape, hends] at hpieces
  obtain ⟨later, hlater, rfl⟩ := Option.map_eq_some_iff.mp hpieces
  refine ⟨later, hlater, ?_⟩
  rw [Outline.spelledOut_cons, hself]
  rfl

/-- A double slash stands for a step between slashes. -/
theorem agrees_doubleSlash : Agrees last ['/', '/'] behind
    [.slash, .axis .descendantOrSelf, .nodeTest .node, .slash] false := by
  refine ⟨[(_, [⟨.operator .slash, ['/', '/']⟩]), (_, [⟨.mark, []⟩]), (_, [⟨.mark, []⟩]),
    (_, [⟨.operator .slash, ['/']⟩])], .slash, rfl,
    ⟨fun later hlater => .inr ⟨⟨.slash, _, rfl, by simp, rfl⟩, .inr ⟨⟨_, .inl rfl⟩,
      .inr ⟨⟨_, .inl rfl⟩, .inr ⟨⟨.slash, _, rfl, by simp, rfl⟩, hlater⟩⟩⟩⟩,
      fun pieces hpieces => ?_⟩, .inl rfl⟩
  rw [List.cons_append, piecesFrom?_cons (by decide) rfl] at hpieces
  obtain ⟨later, hlater, rfl⟩ := Option.map_eq_some_iff.mp hpieces
  exact ⟨later, hlater, rfl⟩

theorem agrees_minus : Agrees last ['-'] behind [.minus] false := by
  cases hlast : last.any Token.endsOperand with
  | true =>
    have hshape : shapeAt? true '-' ([] ++ behind) = some (.operator .additive, 0) := rfl
    exact agrees_single (by decide) (hlast ▸ hshape) (by rw [hlast]; rfl) rfl rfl (.inl rfl)
  | false =>
    have hshape : shapeAt? false '-' ([] ++ behind) = some (.operator .negation, 0) := rfl
    exact agrees_single (by decide) (hlast ▸ hshape) (by rw [hlast]; rfl) rfl rfl (.inl rfl)

/-- The longer symbols are tried first. -/
theorem head?_of_symbol (c d : Char)
    (hlonger : ∀ rest, (ofFixed? (c :: d :: rest) symbols).map Lexeme.width = some 2)
    (hfirst : ofFixed? (c :: behind) symbols = some ⟨tokens, 1, next⟩) :
    behind.head? ≠ some d := by
  intro hhead
  cases behind with
  | nil => cases hhead
  | cons e behind =>
    cases hhead
    have hwidth := hlonger behind
    rw [hfirst] at hwidth
    cases hwidth

theorem agrees_symbol {text : String} (hmem : (text, tokens, next) ∈ symbols)
    (hfirst : ofFixed? (text.toList ++ behind) symbols = some ⟨tokens, text.length, next⟩) :
    Agrees last text.toList behind tokens next := by
  simp only [symbols, List.mem_cons, List.not_mem_nil, or_false] at hmem
  obtain h | h | h | h | h | h | h | h | h | h | h | h | h | h | h | h | h | h := hmem <;> cases h
  · exact agrees_single (by decide) rfl ⟨_, _, rfl, by decide, rfl⟩ rfl rfl (.inl rfl)
  · exact agrees_single (by decide) rfl ⟨_, _, rfl, by decide, rfl⟩ rfl rfl (.inl rfl)
  · exact agrees_single (by decide) rfl ⟨_, _, rfl, by decide, rfl⟩ rfl rfl (.inl rfl)
  · exact agrees_doubleSlash
  · exact agrees_points ['.'] rfl rfl rfl
  · have hahead : behind.head? ≠ some '/' := head?_of_symbol '/' '/' (fun _ => rfl) hfirst
    have hshape : shapeAt? (last.any Token.endsOperand) '/' ([] ++ behind) =
        some (.operator .slash, 0) := by simp [shapeAt?, hahead]
    exact agrees_single (by decide) hshape ⟨_, _, rfl, by decide, rfl⟩ rfl rfl (.inl rfl)
  · exact agrees_single (by decide) rfl rfl rfl rfl (.inl rfl)
  · exact agrees_single (by decide) rfl rfl rfl rfl (.inl rfl)
  · exact agrees_single (by decide) rfl rfl rfl rfl (.inl rfl)
  · exact agrees_single (by decide) rfl rfl rfl rfl (.inl rfl)
  · exact agrees_single (by decide) rfl ⟨_, .inl rfl⟩ rfl rfl (.inl rfl)
  · exact agrees_single (by decide) rfl ⟨_, _, rfl, by decide, rfl⟩ rfl rfl (.inl rfl)
  · exact agrees_minus
  · exact agrees_single (by decide) rfl ⟨_, _, rfl, by decide, rfl⟩ rfl rfl (.inl rfl)
  · exact agrees_single (by decide) rfl ⟨_, _, rfl, by decide, rfl⟩ rfl rfl (.inl rfl)
  · have hahead : behind.head? ≠ some '=' := head?_of_symbol '<' '=' (fun _ => rfl) hfirst
    have hshape : shapeAt? (last.any Token.endsOperand) '<' ([] ++ behind) =
        some (.operator .relational, 0) := by simp [shapeAt?, hahead]
    exact agrees_single (by decide) hshape ⟨_, _, rfl, by decide, rfl⟩ rfl rfl (.inl rfl)
  · have hahead : behind.head? ≠ some '=' := head?_of_symbol '>' '=' (fun _ => rfl) hfirst
    have hshape : shapeAt? (last.any Token.endsOperand) '>' ([] ++ behind) =
        some (.operator .relational, 0) := by simp [shapeAt?, hahead]
    exact agrees_single (by decide) hshape ⟨_, _, rfl, by decide, rfl⟩ rfl rfl (.inl rfl)
  · exact agrees_single (by decide) rfl rfl rfl rfl (.inr ⟨rfl, rfl⟩)

/-! ## Literals and numbers -/

section Quoted

variable {quote : Char} {value : List Char}

theorem not_isBlank_of_quote (h : quote = '\'' ∨ quote = '"') : Text.isBlank quote = false := by
  rcases h with rfl | rfl <;> decide

theorem shapeAt?_quoted (hquote : quote = '\'' ∨ quote = '"') (hvalue : quote ∉ value) (b : Bool)
    (behind : List Char) : shapeAt? b quote ((value ++ [quote]) ++ behind) =
      some (.literal, (value ++ [quote]).length) := by
  rw [List.append_assoc, List.length_append]
  rcases hquote with rfl | rfl <;> simp [shapeAt?, idxOf?_append hvalue]

theorem agrees_literal (hquote : quote = '\'' ∨ quote = '"') (hvalue : quote ∉ value) :
    Agrees last (quote :: (value ++ [quote])) behind [.literal (String.ofList value)] true :=
  agrees_single (not_isBlank_of_quote hquote) (shapeAt?_quoted hquote hvalue _ behind) ⟨_, rfl⟩
    rfl rfl (.inl rfl)

end Quoted

/-- A number that the outline does not read on behind. -/
theorem agrees_number {value : Float}
    (hc : c.isDigit = true ∨ c = '.' ∧ tail.head?.any Char.isDigit = true)
    (htail : ∀ d ∈ tail, Outline.isNumberChar d = true)
    (hbehind : NotAhead Outline.isNumberChar behind) :
    Agrees last (c :: tail) behind [.number value] true := by
  have hrun := Xml.takeWhile_append_of_notAhead htail hbehind
  rcases hc with hc | ⟨rfl, hdigit⟩
  · have hblank : Text.isBlank c = false := by
      by_contra hblank
      cases eq_of_isBlank (isNameChar_of_isDigit hc).2.1 (by simpa using hblank)
      cases hc
    exact agrees_single hblank (by rw [shapeAt?_of_isDigit hc, hrun]) ⟨_, rfl⟩ rfl rfl (.inl rfl)
  · have hshape : shapeAt? (last.any Token.endsOperand) '.' (tail ++ behind) =
        some (.number, tail.length) := by
      cases tail with
      | nil => cases hdigit
      | cons d tail =>
        simp only [shapeAt?, hrun]
        exact if_pos hdigit
    exact agrees_single (by decide) hshape ⟨_, rfl⟩ rfl rfl (.inl rfl)

/-! ## Words -/

/-- Where both can go on behind a name, the outline reads the name as one word. -/
theorem shapeAt?_of_name {pieces : List Piece} (hc : Xml.isNameStart c = true)
    (hwidth : wordWidth Xml.isNameStart Xml.isNameChar (c :: (tail ++ behind)) = tail.length + 1)
    (hlexed : Lexed behind) (hx : '\u1680' ∉ c :: tail)
    (hpieces : piecesFrom? b 0 (c :: (tail ++ behind)) = some pieces) :
    Text.isBlank c = false ∧
      shapeAt? b c (tail ++ behind) = some (Outline.wordShape b (c :: tail), tail.length) := by
  have hblank : Text.isBlank c = false := by
    by_contra hblank
    have hxml : Xml.isNameChar c = true := by rw [Xml.isNameChar, hc, Bool.true_or]
    exact hx (eq_of_isBlank hxml (by simpa using hblank) ▸ List.mem_cons_self)
  refine ⟨hblank, ?_⟩
  rw [piecesFrom?, hblank, if_neg Bool.false_ne_true] at hpieces
  split at hpieces
  · cases hpieces
  · next shape width hshape =>
    have hstart := isNameStart_of_shapeAt? hshape hc
    have hname := @shapeAt?_of_isNameStart b c (tail ++ behind) hstart
    rw [hname] at hshape
    cases hshape
    obtain ⟨later, hlater, _⟩ := Option.map_eq_some_iff.mp hpieces
    rw [piecesFrom?_skip] at hlater
    have hdrop : (c :: (tail ++ behind)).drop (Outline.nameWidth (c :: (tail ++ behind))) =
        (tail ++ behind).drop (Outline.nameWidth (c :: (tail ++ behind)) - 1) := by
      obtain ⟨n, hn⟩ := Nat.exists_eq_succ_of_ne_zero (nameWidth_pos hstart).ne'
      rw [hn, List.drop_succ_cons, Nat.succ_sub_one]
    have heq := @wordWidth_eq (c :: (tail ++ behind))
      (by rw [hwidth, List.drop_succ_cons, List.drop_left' rfl]; exact hlexed)
      ⟨_, later, hdrop ▸ hlater⟩
      (by rwa [hwidth, List.take_succ_cons, List.take_left' rfl])
    rw [hname, heq, hwidth, List.take_succ_cons, List.take_left' rfl, Nat.add_sub_cancel]

/-- Where an operator may stand, the lexer would have taken the word for one. -/
theorem wordShape_eq_name (hno : NoOperator b (word ++ behind)) :
    Outline.wordShape b word = .name := by
  cases b with
  | false => rfl
  | true =>
    have hno := hno rfl
    rw [Outline.wordShape, if_pos rfl]
    split
    · next hword =>
      subst hword
      cases hno
    · split
      · next hword =>
        subst hword
        cases hno
      · split
        · next hword =>
          simp only [Bool.or_eq_true, decide_eq_true_eq] at hword
          rcases hword with rfl | rfl <;> cases hno
        · rfl

theorem Expects.noOperator (h : Expects last b) (hno : NoOperator b cs) :
    NoOperator (last.any Token.endsOperand) cs := by
  intro hlast
  rcases h with rfl | ⟨rfl, _⟩
  · exact hno hlast
  · cases hlast

/-- A word that is no operator. -/
theorem agrees_name (hlast : Expects last b) (hno : NoOperator b (word ++ behind))
    (hstart : ∃ c tail, word = c :: tail ∧ Xml.isNameStart c = true)
    (hwidth : wordWidth Xml.isNameStart Xml.isNameChar (word ++ behind) = word.length)
    (hlexed : Lexed behind) (hx : '\u1680' ∉ word)
    (hspells : token.Spells (last.any Token.endsOperand) [⟨.name, word⟩])
    (hends : token.endsOperand = true) : Agrees last word behind [token] true := by
  obtain ⟨c, tail, rfl, hc⟩ := hstart
  have hshape := wordShape_eq_name (hlast.noOperator hno)
  have hpiece : Outline.endsOperand ⟨.name, c :: tail⟩ = token.endsOperand := hends.symm
  refine agrees_of_shape hpiece hspells rfl (.inl hends.symm) fun pieces hpieces => ?_
  rw [← hshape]
  exact shapeAt?_of_name hc hwidth hlexed hx hpieces

/-- Behind a name that is cut to its end no colon stands. -/
theorem wordWidth_of_lexed {name : PrefixedName}
    (hname : leadingQName? (name.text.toList ++ behind) = some name) (hlexed : Lexed behind) :
    wordWidth Xml.isNameStart Xml.isNameChar (name.text.toList ++ behind) =
      name.text.toList.length := by
  rw [← PrefixedName.width_eq]
  refine wordWidth_of_leadingQName? hname fun rest hrest => ?_
  rw [PrefixedName.width_eq, List.drop_left' rfl] at hrest
  subst hrest
  exact hlexed.head.1 rfl

theorem agrees_bound {name : PrefixedName}
    (hname : leadingQName? (name.text.toList ++ behind) = some name) (hlexed : Lexed behind)
    (hx : '\u1680' ∉ name.text.toList) :
    Agrees last ('$' :: name.text.toList) behind [.variable name] true := by
  refine agrees_of_shape rfl ⟨_, rfl⟩ rfl (.inl rfl) fun pieces hpieces => ⟨by decide, ?_⟩
  have hwidth := wordWidth_of_lexed hname hlexed
  rw [piecesFrom?, if_neg (by decide)] at hpieces
  simp only [shapeAt?] at hpieces ⊢
  split at hpieces
  · cases hpieces
  · next shape width hshape =>
    obtain ⟨hne, hshape⟩ := Option.ite_none_left_eq_some.mp hshape
    cases hshape
    obtain ⟨later, hlater, _⟩ := Option.map_eq_some_iff.mp hpieces
    rw [piecesFrom?_skip] at hlater
    have heq := wordWidth_eq (by rwa [hwidth, List.drop_left' rfl]) ⟨_, later, hlater⟩
      (by rwa [hwidth, List.take_left' rfl])
    rw [if_neg hne, heq, hwidth]

/-! ## Fixed words -/

/-- A word that the outline reads to its end if no name goes on behind it. -/
def IsWord (word : List Char) : Prop :=
  word.head?.any (fun c => Outline.isNameStart c && !Text.isBlank c) = true ∧
    ∀ c ∈ word, Outline.isNameChar c = true

-- The characters are taken from the word; `Char` being finite also decides it, but by counting.
instance (word : List Char) : Decidable (IsWord word) :=
  @instDecidableAnd _ _ _ (List.decidableBAll _ word)

/-- No name goes on with the text. -/
def EndsWord (cs : List Char) : Prop :=
  NotAhead Outline.isNameChar cs ∧
    ∀ c rest, cs = ':' :: c :: rest → c ≠ '*' ∧ Outline.isNameStart c = false

/-- Where no name goes on, a word is read to its end. -/
theorem nameWidth_append (hword : ∀ c ∈ word, Outline.isNameChar c = true)
    (hbehind : EndsWord behind) : Outline.nameWidth (word ++ behind) = word.length := by
  simp only [nameWidth_eq, wordWidth, Xml.takeWhile_append_of_notAhead hword hbehind.1,
    List.drop_left']
  split
  · exact absurd rfl (hbehind.2 _ _ rfl).1
  · rw [(hbehind.2 _ _ rfl).2, if_neg Bool.false_ne_true]
  · rfl

theorem shapeAt?_of_isWord (hword : IsWord (c :: tail)) (hbehind : EndsWord behind) :
    Text.isBlank c = false ∧
      shapeAt? b c (tail ++ behind) = some (Outline.wordShape b (c :: tail), tail.length) := by
  obtain ⟨hstart, hchars⟩ := hword
  obtain ⟨hc, hblank⟩ := Bool.and_eq_true_iff.mp hstart
  refine ⟨by simpa using hblank, ?_⟩
  rw [shapeAt?_of_isNameStart hc, ← List.cons_append, nameWidth_append hchars hbehind,
    List.take_left' rfl, List.length_cons, Nat.add_sub_cancel]

theorem piecesFrom?_word (hword : IsWord word) (hbehind : EndsWord behind) :
    piecesFrom? b 0 (word ++ behind) =
      (piecesFrom? (Outline.endsOperand ⟨Outline.wordShape b word, word⟩) 0 behind).map
        (⟨Outline.wordShape b word, word⟩ :: ·) := by
  cases word with
  | nil => cases hword.1
  | cons c tail =>
    obtain ⟨hblank, hshape⟩ := shapeAt?_of_isWord (b := b) hword hbehind
    exact piecesFrom?_cons hblank hshape

theorem agrees_axis {name : String} {value : Axis} (hmem : (name, value) ∈ Axis.names) :
    Agrees last (name.toList ++ [':', ':']) behind [.axis value] false := by
  have hnames : ∀ entry ∈ Axis.names, IsWord entry.1.toList ∧
      ∀ b, Outline.wordShape b entry.1.toList = .name := by decide
  obtain ⟨hword, hshape⟩ := hnames _ hmem
  refine ⟨[(_, [⟨.name, name.toList⟩, ⟨.mark, [':', ':']⟩])], .axis value, rfl,
    ⟨fun later hlater => .inr ⟨⟨_, .inr rfl⟩, hlater⟩, fun pieces hpieces => ?_⟩, .inl rfl⟩
  have hends : EndsWord ([':', ':'] ++ behind) := by
    refine ⟨Xml.notAhead_cons.mpr (by decide), fun c rest heq => ?_⟩
    cases heq
    decide
  have hcolons : piecesFrom? true 0 ([':', ':'] ++ behind) =
      (piecesFrom? false 0 behind).map (⟨.mark, [':', ':']⟩ :: ·) :=
    piecesFrom?_cons (by decide) rfl
  rw [List.append_assoc, piecesFrom?_word hword hends, hshape] at hpieces
  obtain ⟨shown, hshown, rfl⟩ := Option.map_eq_some_iff.mp hpieces
  obtain ⟨later, hlater, rfl⟩ := Option.map_eq_some_iff.mp (hcolons.symm.trans hshown)
  exact ⟨later, hlater, rfl⟩

theorem piecesFrom?_open : piecesFrom? b 0 ('(' :: behind) =
    (piecesFrom? false 0 behind).map (⟨.opening, ['(']⟩ :: ·) := by
  rw [← List.nil_append behind]
  exact piecesFrom?_cons (by decide) rfl

theorem piecesFrom?_close : piecesFrom? b 0 (')' :: behind) =
    (piecesFrom? true 0 behind).map (⟨.closing, [')']⟩ :: ·) := by
  rw [← List.nil_append behind]
  exact piecesFrom?_cons (by decide) rfl

/-- A test for a kind of node, with what stands in its parentheses. -/
theorem agrees_test (word : List Char) {inner : List Char} {target : List Piece} {value : NodeTest}
    (hnode : Outline.isNodeType word = true)
    (htarget : target = [] ∨ ∃ quoted, target = [⟨.literal, quoted⟩])
    (hinner : ∃ b, piecesFrom? false 0 (inner ++ ')' :: behind) =
      (piecesFrom? b 0 (')' :: behind)).map (target ++ ·)) :
    Agrees last (word ++ '(' :: (inner ++ [')'])) behind [.nodeTest value] true := by
  have hwords : ∀ entry ∈ ["node", "text", "comment", "processing-instruction"],
      IsWord entry.toList ∧ ∀ b, Outline.wordShape b entry.toList = .name := by
    decide
  obtain ⟨hword, hshape⟩ := hwords (String.ofList word) (by simpa [Outline.isNodeType] using hnode)
  rw [String.toList_ofList] at hword hshape
  refine ⟨[(_, ⟨.name, word⟩ :: ⟨.opening, ['(']⟩ :: (target ++ [⟨.closing, [')']⟩]))],
    .nodeTest value, rfl, ⟨fun later hlater => .inr ⟨⟨word, .inr ⟨hnode, target, htarget, rfl⟩⟩,
      hlater⟩, fun pieces hpieces => ?_⟩, .inl rfl⟩
  have hends : EndsWord ('(' :: (inner ++ ')' :: behind)) :=
    ⟨Xml.notAhead_cons.mpr (by decide), nofun⟩
  obtain ⟨b, hinner⟩ := hinner
  rw [List.append_assoc, List.cons_append, List.append_assoc, List.singleton_append,
    piecesFrom?_word hword hends, hshape, piecesFrom?_open, hinner, piecesFrom?_close] at hpieces
  simp only [Option.map_map, Option.map_eq_some_iff] at hpieces
  obtain ⟨later, hlater, rfl⟩ := hpieces
  refine ⟨later, hlater, ?_⟩
  rcases htarget with rfl | ⟨quoted, rfl⟩ <;> rfl

theorem agrees_nodeTest {text : String} (hmem : (text, tokens, next) ∈ nodeTests) :
    Agrees last text.toList behind tokens next := by
  have hinner : ∃ b, piecesFrom? false 0 ([] ++ ')' :: behind) =
      (piecesFrom? b 0 (')' :: behind)).map ([] ++ ·) := ⟨false, by simp⟩
  simp only [nodeTests, List.mem_cons, List.not_mem_nil, or_false] at hmem
  obtain h | h | h | h := hmem <;> cases h
  · exact agrees_test "comment".toList (by decide) (.inl rfl) hinner
  · exact agrees_test "text".toList (by decide) (.inl rfl) hinner
  · exact agrees_test "processing-instruction".toList (by decide) (.inl rfl) hinner
  · exact agrees_test "node".toList (by decide) (.inl rfl) hinner

theorem agrees_instruction {quote : Char} {value : List Char} (hquote : quote = '\'' ∨ quote = '"')
    (hvalue : quote ∉ value) :
    Agrees last ("processing-instruction(".toList ++ quote :: (value ++ [quote, ')'])) behind
      [.nodeTest (.instruction (some (String.ofList value)))] true := by
  have hshape := shapeAt?_quoted hquote hvalue false (')' :: behind)
  have hinner : ∃ b, piecesFrom? false 0 (quote :: (value ++ [quote]) ++ ')' :: behind) =
      (piecesFrom? b 0 (')' :: behind)).map ([⟨.literal, quote :: (value ++ [quote])⟩] ++ ·) :=
    ⟨true, piecesFrom?_cons (not_isBlank_of_quote hquote) hshape⟩
  have htext : "processing-instruction(".toList ++ quote :: (value ++ [quote, ')']) =
      "processing-instruction".toList ++ '(' :: (quote :: (value ++ [quote]) ++ [')']) := by
    simp
  rw [htext]
  exact agrees_test _ (by decide) (.inr ⟨_, rfl⟩) hinner

/-- An operator that is a word stands for itself if no name goes on behind it. -/
theorem agrees_operatorWord {kind : OperatorClass} (hword : IsWord (c :: tail))
    (hshape : Outline.wordShape true (c :: tail) = .operator kind)
    (hspells : token.Spells true [⟨.operator kind, c :: tail⟩]) (hends : token.endsOperand = false)
    (hself : Piece.spelledOut ⟨.operator kind, c :: tail⟩ = [⟨.operator kind, c :: tail⟩])
    (hlast : last.any Token.endsOperand = true) (hlexed : Lexed behind)
    (hahead : (!behind.head?.any Outline.isNameChar) = true) :
    Agrees last (c :: tail) behind [token] false := by
  have hbehind : EndsWord behind := by
    refine ⟨fun d hd => ?_, ?_⟩
    · rw [Option.mem_def] at hd
      simpa [hd] using hahead
    · rintro d rest rfl
      exact absurd rfl hlexed.head.1
  obtain ⟨hc, hcut⟩ := shapeAt?_of_isWord (b := true) hword hbehind
  rw [hshape] at hcut
  have hpiece : Outline.endsOperand ⟨.operator kind, c :: tail⟩ = token.endsOperand := hends.symm
  exact agrees_single hc (hlast ▸ hcut) (hlast ▸ hspells) hpiece hself (.inl hends.symm)

theorem agrees_word {text : String} (hmem : (text, tokens, next) ∈ wordOperators)
    (hlast : last.any Token.endsOperand = true) (hlexed : Lexed behind)
    (happart : standsApart ⟨tokens, text.length, next⟩ (text.toList ++ behind) = true) :
    Agrees last text.toList behind tokens next := by
  simp only [wordOperators, List.mem_cons, List.not_mem_nil, or_false] at hmem
  obtain h | h | h | h | h := hmem <;> cases h
  · exact agrees_operatorWord (by decide) rfl ⟨.and, _, rfl, by decide, rfl⟩ rfl rfl hlast
      hlexed happart
  · exact agrees_operatorWord (by decide) rfl ⟨.or, _, rfl, by decide, rfl⟩ rfl rfl hlast
      hlexed happart
  · exact agrees_operatorWord (by decide) rfl ⟨.multiplicative, _, rfl, by decide, rfl⟩ rfl
      rfl hlast hlexed happart
  · exact agrees_operatorWord (by decide) rfl ⟨.multiplicative, _, rfl, by decide, rfl⟩ rfl
      rfl hlast hlexed happart
  · refine agrees_single (by decide) ?_ ⟨.multiplicative, _, rfl, by decide, rfl⟩ rfl rfl (.inl rfl)
    rw [hlast]
    rfl

/-- Tokens of which the outline sees something else: an operator that the lexer expects behind a
comma, and a number that is not over for the outline. -/
def Strays (last : Option Token) (tokens : List Token) (behind : List Char) : Prop :=
  (last = some .comma ∧ ∃ token, tokens = [token] ∧ token.isWordOperator = true) ∨
    (∃ value, tokens = [.number value]) ∧ behind.head?.any Outline.isNumberChar = true

theorem not_mem_of_standsApart
    (h : (!((text ++ behind).take text.length).contains '\u1680') = true) : '\u1680' ∉ text := by
  rw [List.take_left' rfl] at h
  simpa using h

theorem agrees_point (hbehind : ∀ c ∈ behind.head?, c ≠ '.' ∧ c.isDigit = false) :
    Agrees last ['.'] behind [.axis .self, .nodeTest .node] true := by
  have hshape : shapeAt? (last.any Token.endsOperand) '.' ([] ++ behind) = some (.mark, 0) := by
    cases behind with
    | nil => rfl
    | cons d rest =>
      obtain ⟨hpoint, hdigit⟩ := hbehind d rfl
      simp [shapeAt?, hpoint, hdigit]
  exact agrees_points [] hshape rfl rfl

theorem agrees_star (hlast : Expects last false) :
    Agrees last ['*'] behind [.nameTest ⟨none, none⟩] true := by
  have hfalse : last.any Token.endsOperand = false :=
    (hlast.resolve_right nofun).symm
  have hshape : shapeAt? false '*' ([] ++ behind) = some (.mark, 0) := rfl
  exact agrees_single (by decide) (hfalse ▸ hshape) ⟨_, .inl rfl⟩ rfl rfl (.inl rfl)

theorem agrees_namespaceTest {first : List Char} (hlast : Expects last b)
    (hno : NoOperator b (first ++ ':' :: '*' :: behind))
    (hfirst : Xml.leadingNcName? (first ++ ':' :: '*' :: behind) = some first)
    (hlexed : Lexed behind) (hx : '\u1680' ∉ first ++ [':', '*']) :
    Agrees last (first ++ [':', '*']) behind
      [.nameTest ⟨some (String.ofList first), none⟩] true := by
  have hcs : first ++ ':' :: '*' :: behind = (first ++ [':', '*']) ++ behind := by simp
  have hstart : ∃ c tail, first ++ [':', '*'] = c :: tail ∧ Xml.isNameStart c = true := by
    obtain ⟨hrun, _⟩ := Xml.leadingRun?_eq_some hfirst
    cases first with
    | nil => cases hrun
    | cons c first => exact ⟨c, _, rfl, Xml.leadingRun?_head hrun⟩
  have hwidth : wordWidth Xml.isNameStart Xml.isNameChar (first ++ ':' :: '*' :: behind) =
      (first ++ [':', '*']).length := by
    simp only [wordWidth, takeWhile_of_leadingNcName? hfirst, List.drop_left']
    simp
  rw [hcs] at hno hwidth
  exact agrees_name hlast hno hstart hwidth hlexed hx ⟨_, .inr rfl⟩ rfl

theorem agrees_of_cut (h : Cut b text behind tokens next) (hlast : Expects last b)
    (hlexed : Lexed behind)
    (happart : standsApart ⟨tokens, text.length, next⟩ (text ++ behind) = true) :
    Agrees last text behind tokens next ∨ Strays last tokens behind := by
  cases h with
  | symbol hmem hfirst => exact .inl (agrees_symbol hmem hfirst)
  | literal hquote hvalue => exact .inl (agrees_literal hquote hvalue)
  | bound hname =>
    have hx := not_mem_of_standsApart happart
    exact .inl (agrees_bound hname hlexed fun hmem => hx (List.mem_cons_of_mem _ hmem))
  | number hc htail =>
    cases behind with
    | nil => exact .inl (agrees_number hc htail Xml.notAhead_nil)
    | cons d rest =>
      by_cases hd : Outline.isNumberChar d = true
      · exact .inr (.inr ⟨⟨_, rfl⟩, hd⟩)
      · exact .inl (agrees_number hc htail (Xml.notAhead_cons.mpr (by simpa using hd)))
  | point hbehind => exact .inl (agrees_point hbehind)
  | operator hb hmem =>
    rcases hlast with rfl | ⟨hcomma, _⟩
    · exact .inl (agrees_word hmem hb hlexed happart)
    · have hwords : ∀ entry ∈ wordOperators, ∃ token, entry.2.1 = [token] ∧
          token.isWordOperator = true := by
        simp [wordOperators, Token.isWordOperator]
      exact .inr (.inl ⟨hcomma, hwords _ hmem⟩)
  | axis hmem => exact .inl (agrees_axis hmem)
  | nodeTest hmem => exact .inl (agrees_nodeTest hmem)
  | instruction hquote hvalue => exact .inl (agrees_instruction hquote hvalue)
  | function hno hname =>
    exact .inl (agrees_name hlast hno (Xml.leadingQName?_eq_some hname).1.exists_cons
      (wordWidth_of_lexed hname hlexed) hlexed (not_mem_of_standsApart happart) rfl rfl)
  | star hb =>
    subst hb
    exact .inl (agrees_star hlast)
  | namespaceTest hno hfirst =>
    exact .inl (agrees_namespaceTest hlast hno hfirst hlexed (not_mem_of_standsApart happart))
  | nameTest hno hname =>
    exact .inl (agrees_name hlast hno (Xml.leadingQName?_eq_some hname).1.exists_cons
      (wordWidth_of_lexed hname hlexed) hlexed (not_mem_of_standsApart happart) ⟨_, .inr rfl⟩ rfl)

/-! ## All tokens -/

theorem exists_spells (b : Bool) (token : Token) : ∃ ps, token.Spells b ps := by
  cases token with
  | axis value | nodeTest value | nameTest value => exact ⟨_, [], .inl rfl⟩
  | «variable» name | literal value | number value => exact ⟨_, [], rfl⟩
  | function name | leftParen | rightParen | leftBracket | rightBracket | comma | minus =>
    exact ⟨_, rfl⟩
  | _ => exact ⟨_, _, ['='], rfl, by simp, rfl⟩

theorem exists_spelt (last : Option Token) (tokens : List Token) :
    ∃ cells : List Cell, cells.map Prod.fst = tokens ∧ Spelt last cells := by
  induction tokens generalizing last with
  | nil => exact ⟨[], rfl, trivial⟩
  | cons token tokens ih =>
    obtain ⟨ps, hps⟩ := exists_spells (last.any Token.endsOperand) token
    obtain ⟨cells, rfl, hcells⟩ := ih (some token)
    exact ⟨(token, ps) :: cells, rfl, .inr ⟨hps, hcells⟩⟩

/-- A token that may stand for a piece without text. -/
def Token.isStray : Token → Bool
  | .number _ | .axis _ => true
  | _ => false

theorem not_isNumberChar_of_isNameStart (h : Xml.isNameStart c = true) :
    Outline.isNumberChar c = false := by
  rw [← Bool.not_eq_true]
  intro hc
  rcases Bool.or_eq_true_iff.mp hc with hc | hc
  · rw [(isNameChar_of_isDigit hc).2.2] at h
    cases h
  · cases beq_iff_eq.mp hc
    cases h

/-- In a run of digits and points only numbers and steps are cut. -/
theorem isStray_of_cut (h : Cut b text behind tokens next)
    (hnumber : text.head?.any Outline.isNumberChar = true) :
    tokens.head?.any Token.isStray = true := by
  have hname {word : List Char} (hword : ∃ c tail, word = c :: tail ∧ Xml.isNameStart c = true) :
      word.head?.any Outline.isNumberChar = false := by
    obtain ⟨c, tail, rfl, hc⟩ := hword
    exact not_isNumberChar_of_isNameStart hc
  cases h with
  | symbol hmem _ =>
    have hsymbols : ∀ entry ∈ symbols, entry.1.toList.head?.any Outline.isNumberChar = true →
        entry.2.1.head?.any Token.isStray = true := by decide
    exact hsymbols _ hmem hnumber
  | literal hquote _ => rcases hquote with rfl | rfl <;> cases hnumber
  | bound _ | star _ | instruction _ _ => cases hnumber
  | number _ _ | point _ | axis _ => rfl
  | operator _ hmem =>
    have hwords : ∀ entry ∈ wordOperators,
        entry.1.toList.head?.any Outline.isNumberChar = false := by decide
    rw [hwords _ hmem] at hnumber
    cases hnumber
  | nodeTest hmem =>
    have hwords : ∀ entry ∈ nodeTests,
        entry.1.toList.head?.any Outline.isNumberChar = false := by decide
    rw [hwords _ hmem] at hnumber
    cases hnumber
  | function _ hname' | nameTest _ hname' =>
    rw [hname (Xml.leadingQName?_eq_some hname').1.exists_cons] at hnumber
    cases hnumber
  | @namespaceTest first _ _ hfirst =>
    obtain ⟨hrun, _⟩ := Xml.leadingRun?_eq_some hfirst
    cases first with
    | nil => cases hrun
    | cons c first =>
      have hc : Outline.isNumberChar c = true := hnumber
      rw [not_isNumberChar_of_isNameStart (Xml.leadingRun?_head hrun)] at hc
      cases hc

/-- The tokens of a lexeme stand before those of the text behind it. -/
theorem exists_cut {rest : List Char} (hblank : Text.isXmlBlank c = false)
    (herror : (TokenStream.ofTextFrom b 0 (c :: rest)).error = none) :
    ∃ text behind tokens next, c :: rest = text ++ behind ∧ text ≠ [] ∧
      Cut b text behind tokens next ∧
      TokenStream.ofTextFrom b 0 (c :: rest) =
        ⟨tokens ++ (TokenStream.ofTextFrom next 0 behind).tokens,
          (TokenStream.ofTextFrom next 0 behind).error⟩ ∧
      apartFrom b 0 (c :: rest) =
        (standsApart ⟨tokens, text.length, next⟩ (c :: rest) && apartFrom next 0 behind) := by
  rw [TokenStream.ofTextFrom, hblank, if_neg Bool.false_ne_true] at herror
  rw [TokenStream.ofTextFrom, apartFrom, hblank, if_neg Bool.false_ne_true,
    if_neg Bool.false_ne_true]
  cases hlexeme : lexemeAt b (c :: rest) with
  | error e =>
    rw [hlexeme] at herror
    cases herror
  | ok lexeme =>
    obtain ⟨tokens, width, next⟩ := lexeme
    obtain ⟨text, behind, hcs, hwidth, hcut⟩ := cuts_of_lexemeAt hlexeme
    obtain ⟨d, tail, rfl, _⟩ := hcut.starts
    have hdrop : rest.drop (width - 1) = behind := by
      cases hcs
      rw [show width = tail.length + 1 from hwidth, Nat.add_sub_cancel]
      exact List.drop_left' rfl
    refine ⟨d :: tail, behind, tokens, next, hcs, by simp, hcut, ?_, ?_⟩
    · simp only
      rw [ofTextFrom_skip, hdrop]
    · simp only
      rw [apartFrom_skip, hdrop, show width = (d :: tail).length from hwidth]

/-- A number that is not over for the outline is followed by a piece without text. -/
theorem exists_cells_of_stray (hbehind : behind.head?.any Outline.isNumberChar = true)
    (herror : (TokenStream.ofTextFrom b 0 behind).error = none) :
    ∃ shape cells rest, cells.map Prod.fst = (TokenStream.ofTextFrom b 0 behind).tokens ∧
      Spelt last cells ∧ piecesOf cells = ⟨shape, []⟩ :: rest := by
  cases behind with
  | nil => cases hbehind
  | cons d rest =>
    have hblank : Text.isXmlBlank d = false := by
      by_contra hblank
      have hname := (not_isNameChar_of_isXmlBlank (by simpa using hblank)).1
      rcases Bool.or_eq_true_iff.mp hbehind with hd | hd
      · rw [(isNameChar_of_isDigit hd).1] at hname
        cases hname
      · cases beq_iff_eq.mp hd
        cases hname
    obtain ⟨text, behind, tokens, next, hcs, hne, hcut, hstream, _⟩ := exists_cut hblank herror
    have hhead : text.head?.any Outline.isNumberChar = true := by
      cases text with
      | nil => exact absurd rfl hne
      | cons e text =>
        cases hcs
        exact hbehind
    have hstray := isStray_of_cut hcut hhead
    rw [hstream]
    cases tokens with
    | nil => cases hstray
    | cons token tokens =>
      obtain ⟨cells, hcells, hspelt⟩ := exists_spelt (some token)
        (tokens ++ (TokenStream.ofTextFrom next 0 behind).tokens)
      have hspells : ∃ shape, ∀ b, token.Spells b [⟨shape, []⟩] := by
        cases token with
        | number value => exact ⟨.number, fun _ => ⟨[], rfl⟩⟩
        | axis value => exact ⟨.mark, fun _ => ⟨[], .inl rfl⟩⟩
        | _ => cases hstray
      obtain ⟨shape, hspells⟩ := hspells
      exact ⟨shape, (token, [⟨shape, []⟩]) :: cells, piecesOf cells,
        congrArg (token :: ·) hcells, .inr ⟨hspells _, hspelt⟩, rfl⟩

/-- Tokens that the outline need not see stand for pieces without text, or for pieces that touch. -/
theorem exists_cells_of_strays (h : Strays last tokens behind)
    (herror : (TokenStream.ofTextFrom b 0 behind).error = none) :
    ∃ cells, cells.map Prod.fst = tokens ++ (TokenStream.ofTextFrom b 0 behind).tokens ∧
      Spelt last cells ∧ ((∀ c ∈ cells, c.2 ≠ []) → ¬ Outline.Parted (piecesOf cells)) := by
  obtain ⟨hcomma, token, rfl, hword⟩ | ⟨⟨value, rfl⟩, hahead⟩ := h
  · refine ⟨(token, []) :: (TokenStream.ofTextFrom b 0 behind).tokens.map (·, []), ?_,
      .inl ⟨hcomma, hword⟩, fun hfull => absurd rfl (List.forall_mem_cons.mp hfull).1⟩
    simp [List.map_map, Function.comp_def]
  · obtain ⟨shape, others, behind, hothers, hspelt, hstray⟩ :=
      @exists_cells_of_stray b behind (some (.number value)) hahead herror
    refine ⟨(.number value, [⟨.number, []⟩]) :: others, congrArg (Token.number value :: ·) hothers,
      .inr ⟨⟨[], rfl⟩, hspelt⟩, fun _ hparted => ?_⟩
    have hparted : Outline.Parted (⟨.number, []⟩ :: ⟨shape, []⟩ :: behind) := by
      rw [← hstray]
      exact hparted
    exact absurd rfl ((List.isChain_cons_cons.mp hparted).1 rfl)

/-- The tokens of a text that is written plainly, with the pieces of its outline. -/
theorem exists_cells {pieces : List Piece} (hlast : Expects last b)
    (herror : (TokenStream.ofTextFrom b 0 cs).error = none) (happart : apartFrom b 0 cs = true)
    (hpieces : piecesFrom? (last.any Token.endsOperand) 0 cs = some pieces) :
    ∃ cells, cells.map Prod.fst = (TokenStream.ofTextFrom b 0 cs).tokens ∧ Spelt last cells ∧
      ((∀ c ∈ cells, c.2 ≠ []) → Outline.Parted (piecesOf cells) →
        piecesOf cells = spelledOut pieces) := by
  induction hn : cs.length using Nat.strong_induction_on generalizing b cs last pieces with
  | _ n ih =>
  subst hn
  cases cs with
  | nil =>
    cases hpieces
    exact ⟨[], rfl, trivial, fun _ _ => rfl⟩
  | cons c rest =>
    cases hblank : Text.isXmlBlank c with
    | true =>
      rw [TokenStream.ofTextFrom, hblank, if_pos rfl] at herror ⊢
      rw [apartFrom, hblank, if_pos rfl] at happart
      rw [piecesFrom?, Text.isBlank_of_isXmlBlank hblank, if_pos rfl] at hpieces
      exact ih _ (Nat.lt_succ_self _) hlast herror happart hpieces rfl
    | false =>
      obtain ⟨text, behind, tokens, next, hcs, hne, hcut, hstream, hapart⟩ :=
        exists_cut hblank herror
      have hlater : (TokenStream.ofTextFrom next 0 behind).error = none := by
        rw [hstream] at herror
        exact herror
      rw [hapart, Bool.and_eq_true] at happart
      rw [hstream]
      rw [hcs] at happart hpieces
      obtain ⟨cells, token, rfl, hreads, hnext⟩ | hstrays :=
        agrees_of_cut hcut hlast ⟨next, hlater⟩ happart.1
      · obtain ⟨later, hbehind, hspelled⟩ := hreads.pieces pieces hpieces
        have hlength : behind.length < (c :: rest).length := by
          rw [hcs, List.length_append]
          exact Nat.lt_add_of_pos_left (List.length_pos_of_ne_nil hne)
        obtain ⟨others, hothers, hspelt, heq⟩ := ih _ hlength hnext hlater happart.2 hbehind rfl
        refine ⟨cells ++ others, ?_, hreads.spelt others hspelt, fun hfull hparted => ?_⟩
        · rw [List.map_append, hothers]
        · rw [piecesOf_append] at hparted ⊢
          have hparted := (List.isChain_append.mp hparted).2.1
          rw [heq (List.forall_mem_append.mp hfull).2 hparted, hspelled]
      · obtain ⟨cells, hcells, hspelt, hstray⟩ := exists_cells_of_strays hstrays hlater
        exact ⟨cells, hcells, hspelt, fun hfull hparted => absurd hparted (hstray hfull)⟩

end XPathBench.XPath
