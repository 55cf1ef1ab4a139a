import XPathBench.Proofs.Xml.Names
import XPathBench.XPath.Lexer
import XPathBench.XPath.Outline

/-!
# Lexemes

What the lexer cuts off a text, one way after the other.

* `Cut`: a lexeme, its text and the text behind it
* `cuts_of_lexemeAt`: the lexer cuts in one of these ways
-/

namespace XPathBench.XPath

open Lexeme
open Xml (leadingNcName? leadingQName? PrefixedName)

variable {b : Bool} {cs behind : List Char} {lexeme : Lexeme}

/-- No word at the start of the text is an operator. -/
def NoOperator (b : Bool) (cs : List Char) : Prop := b = true → ofFixed? cs wordOperators = none

/-- The text of a lexeme, the text behind it, its tokens, and whether an operator is expected next.
-/
inductive Cut (b : Bool) : List Char → List Char → List Token → Bool → Prop where
  | symbol {text : String} {tokens : List Token} {next : Bool} {behind : List Char} :
      (text, tokens, next) ∈ symbols →
      ofFixed? (text.toList ++ behind) symbols = some ⟨tokens, text.length, next⟩ →
      Cut b text.toList behind tokens next
  | literal {quote : Char} {value behind : List Char} : quote = '\'' ∨ quote = '"' →
      quote ∉ value →
      Cut b (quote :: (value ++ [quote])) behind [.literal (String.ofList value)] true
  | bound {name : PrefixedName} {behind : List Char} :
      leadingQName? (name.text.toList ++ behind) = some name →
      Cut b ('$' :: name.text.toList) behind [.variable name] true
  | number {c : Char} {tail behind : List Char} {value : Float} :
      c.isDigit = true ∨ c = '.' ∧ tail.head?.any Char.isDigit = true →
      (∀ d ∈ tail, Outline.isNumberChar d = true) → Cut b (c :: tail) behind [.number value] true
  | point {behind : List Char} : (∀ c ∈ behind.head?, c ≠ '.' ∧ c.isDigit = false) →
      Cut b ['.'] behind [.axis .self, .nodeTest .node] true
  | operator {text : String} {tokens : List Token} {next : Bool} {behind : List Char} : b = true →
      (text, tokens, next) ∈ wordOperators → Cut b text.toList behind tokens next
  | axis {name : String} {value : Axis} {behind : List Char} : (name, value) ∈ Axis.names →
      Cut b (name.toList ++ [':', ':']) behind [.axis value] false
  | nodeTest {text : String} {tokens : List Token} {next : Bool} {behind : List Char} :
      (text, tokens, next) ∈ nodeTests → Cut b text.toList behind tokens next
  | instruction {quote : Char} {value behind : List Char} : quote = '\'' ∨ quote = '"' →
      quote ∉ value →
      Cut b ("processing-instruction(".toList ++ quote :: (value ++ [quote, ')'])) behind
        [.nodeTest (.instruction (some (String.ofList value)))] true
  | function {name : PrefixedName} {behind : List Char} :
      NoOperator b (name.text.toList ++ '(' :: behind) →
      leadingQName? (name.text.toList ++ '(' :: behind) = some name →
      Cut b name.text.toList ('(' :: behind) [.function name] true
  | star {behind : List Char} : b = false → Cut b ['*'] behind [.nameTest ⟨none, none⟩] true
  | namespaceTest {first behind : List Char} : NoOperator b (first ++ ':' :: '*' :: behind) →
      leadingNcName? (first ++ ':' :: '*' :: behind) = some first →
      Cut b (first ++ [':', '*']) behind [.nameTest ⟨some (String.ofList first), none⟩] true
  | nameTest {name : PrefixedName} {behind : List Char} :
      NoOperator b (name.text.toList ++ behind) →
      leadingQName? (name.text.toList ++ behind) = some name →
      Cut b name.text.toList behind [.nameTest ⟨name.prefixName, some name.localName⟩] true

/-- The lexeme is cut off the text in one of the ways told. -/
def Cuts (b : Bool) (cs : List Char) (lexeme : Lexeme) : Prop :=
  ∃ text behind, cs = text ++ behind ∧ lexeme.width = text.length ∧
    Cut b text behind lexeme.tokens lexeme.operatorNext

theorem ofFixed?_eq_some {table : List (String × List Token × Bool)}
    (h : ofFixed? cs table = some lexeme) : ∃ text tokens next behind,
      (text, tokens, next) ∈ table ∧ cs = text.toList ++ behind ∧
        lexeme = ⟨tokens, text.length, next⟩ := by
  obtain ⟨⟨text, tokens, next⟩, hmem, h⟩ := List.exists_of_findSome?_eq_some h
  simp only [Option.ite_none_right_eq_some] at h
  obtain ⟨behind, hbehind⟩ := List.isPrefixOf_iff_prefix.mp h.1
  exact ⟨text, tokens, next, behind, hmem, hbehind.symm, (Option.some.inj h.2).symm⟩

theorem idxOf?_append {quote : Char} {value : List Char} (h : quote ∉ value) :
    (value ++ quote :: behind).idxOf? quote = some value.length := by
  induction value with
  | nil => simp [List.idxOf?_cons]
  | cons c value ih =>
    rw [List.mem_cons, not_or] at h
    rw [List.cons_append, List.idxOf?_cons, if_neg (by simpa using Ne.symm h.1), ih h.2]
    rfl

theorem exists_of_idxOf? {quote : Char} {rest : List Char} {i : Nat}
    (h : rest.idxOf? quote = some i) :
    ∃ value behind, rest = value ++ quote :: behind ∧ quote ∉ value ∧ i = value.length := by
  obtain ⟨hi, hget, hbefore⟩ := List.idxOf?_eq_some_iff.mp h
  refine ⟨rest.take i, rest.drop (i + 1), ?_, ?_, ?_⟩
  · rw [← hget, ← List.drop_eq_getElem_cons hi, List.take_append_drop]
  · intro hmem
    obtain ⟨j, hj, hquote⟩ := List.getElem_of_mem hmem
    rw [List.length_take] at hj
    rw [List.getElem_take] at hquote
    exact hbefore j (by omega) hquote
  · rw [List.length_take]
    omega

theorem quoted?_eq_some {text : String} {width : Nat} (h : quoted? cs = some (text, width)) :
    ∃ quote value behind, (quote = '\'' ∨ quote = '"') ∧ quote ∉ value ∧
      cs = quote :: (value ++ quote :: behind) ∧ text = String.ofList value ∧
        width = value.length + 2 := by
  cases cs with
  | nil => cases h
  | cons quote rest =>
    rw [quoted?, Option.ite_none_right_eq_some] at h
    obtain ⟨hquote, h⟩ := h
    obtain ⟨i, hi, h⟩ := Option.map_eq_some_iff.mp h
    obtain ⟨value, behind, rfl, hvalue, rfl⟩ := exists_of_idxOf? hi
    cases h
    exact ⟨quote, value, behind, by simpa using hquote, hvalue, rfl, by rw [List.take_left' rfl],
      rfl⟩

/-- The digits at the start of a text. -/
theorem exists_digits (cs : List Char) : ∃ behind, cs = cs.takeWhile Char.isDigit ++ behind ∧
    cs.drop (cs.takeWhile Char.isDigit).length = behind ∧
      ∀ d ∈ cs.takeWhile Char.isDigit, d.isDigit = true :=
  ⟨_, (List.prefix_iff_eq_append.mp (List.takeWhile_prefix _)).symm, rfl,
    fun _ hd => List.mem_takeWhile_imp hd⟩

theorem isNumberChar_of_isDigit {c : Char} (h : c.isDigit = true) :
    Outline.isNumberChar c = true := by
  rw [Outline.isNumberChar, h, Bool.true_or]

theorem number?_eq_some (h : number? cs = some lexeme) : ∃ c tail behind value,
    cs = c :: (tail ++ behind) ∧ lexeme = ⟨[.number value], tail.length + 1, true⟩ ∧
      (c.isDigit = true ∨ c = '.' ∧ tail.head?.any Char.isDigit = true) ∧
        ∀ d ∈ tail, Outline.isNumberChar d = true := by
  obtain ⟨behind, hcs, hdrop, hwhole⟩ := exists_digits cs
  rw [number?, hdrop] at h
  generalize cs.takeWhile Char.isDigit = whole at *
  subst hcs
  split at h
  · next rest =>
    obtain ⟨behind, hrest, _, hfraction⟩ := exists_digits rest
    generalize rest.takeWhile Char.isDigit = fraction at *
    subst hrest
    simp only [Option.ite_none_left_eq_some] at h
    obtain ⟨hne, h⟩ := h
    cases h
    cases whole with
    | nil =>
      refine ⟨'.', fraction, behind, Decimal.ofDigits [] fraction 0, rfl, by simp [Nat.add_comm],
        .inr ⟨rfl, ?_⟩, fun d hd => isNumberChar_of_isDigit (hfraction d hd)⟩
      cases fraction with
      | nil => exact absurd ⟨rfl, rfl⟩ hne
      | cons d fraction => exact hfraction d List.mem_cons_self
    | cons c whole =>
      rw [List.forall_mem_cons] at hwhole
      have hwidth : (c :: whole).length + 1 + fraction.length =
          (whole ++ '.' :: fraction).length + 1 := by
        simp only [List.length_cons, List.length_append]
        omega
      refine ⟨c, whole ++ '.' :: fraction, behind, _, by simp, by rw [hwidth], .inl hwhole.1, ?_⟩
      refine List.forall_mem_append.mpr ⟨fun d hd => isNumberChar_of_isDigit (hwhole.2 d hd), ?_⟩
      exact List.forall_mem_cons.mpr ⟨rfl, fun d hd => isNumberChar_of_isDigit (hfraction d hd)⟩
  · simp only [Option.ite_none_left_eq_some] at h
    obtain ⟨hne, h⟩ := h
    cases h
    cases whole with
    | nil => exact absurd rfl hne
    | cons c whole =>
      rw [List.forall_mem_cons] at hwhole
      exact ⟨c, whole, behind, _, rfl, rfl, .inl hwhole.1,
        fun d hd => isNumberChar_of_isDigit (hwhole.2 d hd)⟩

theorem number?_eq_none (h : number? ('.' :: behind) = none) :
    ∀ c ∈ behind.head?, c.isDigit = false := by
  intro c hc
  cases behind with
  | nil => cases hc
  | cons d behind =>
    cases hc
    by_contra hdigit
    rw [Bool.not_eq_false] at hdigit
    simp [number?, hdigit] at h

theorem cuts_symbol (h : ofFixed? cs symbols = some lexeme) : Cuts b cs lexeme := by
  obtain ⟨text, tokens, next, behind, hmem, rfl, rfl⟩ := ofFixed?_eq_some h
  exact ⟨text.toList, behind, rfl, String.length_toList.symm, .symbol hmem h⟩

theorem cuts_literal {text : String} {width : Nat} (h : quoted? cs = some (text, width)) :
    Cuts b cs ⟨[.literal text], width, true⟩ := by
  obtain ⟨quote, value, behind, hquote, hvalue, rfl, rfl, rfl⟩ := quoted?_eq_some h
  exact ⟨quote :: (value ++ [quote]), behind, by simp, by simp, .literal hquote hvalue⟩

theorem cuts_bound {name : PrefixedName} (h : leadingQName? cs = some name) :
    Cuts b ('$' :: cs) ⟨[.variable name], name.width + 1, true⟩ := by
  obtain ⟨_, behind, rfl⟩ := Xml.leadingQName?_eq_some h
  refine ⟨'$' :: name.text.toList, behind, rfl, ?_, .bound h⟩
  rw [List.length_cons, ← PrefixedName.width_eq]

theorem cuts_number (h : number? cs = some lexeme) : Cuts b cs lexeme := by
  obtain ⟨c, tail, behind, value, rfl, rfl, hc, htail⟩ := number?_eq_some h
  exact ⟨c :: tail, behind, rfl, rfl, .number hc htail⟩

/-- A point alone is neither a symbol nor the start of a number. -/
theorem cuts_point (hsymbol : ofFixed? cs symbols = none) (hnumber : number? cs = none)
    (h : ofFixed? cs [(".", [.axis .self, .nodeTest .node], true)] = some lexeme) :
    Cuts b cs lexeme := by
  obtain ⟨text, tokens, next, behind, hmem, rfl, rfl⟩ := ofFixed?_eq_some h
  cases List.mem_singleton.mp hmem
  refine ⟨['.'], behind, rfl, rfl, .point fun c hc => ⟨?_, number?_eq_none hnumber c hc⟩⟩
  rintro rfl
  cases behind with
  | nil => cases hc
  | cons d behind =>
    cases hc
    cases hsymbol

theorem cuts_operator (hb : b = true) (h : ofFixed? cs wordOperators = some lexeme) :
    Cuts b cs lexeme := by
  obtain ⟨text, tokens, next, behind, hmem, rfl, rfl⟩ := ofFixed?_eq_some h
  exact ⟨text.toList, behind, rfl, String.length_toList.symm, .operator hb hmem⟩

theorem cuts_axis (h : ofFixed? cs axisNames = some lexeme) : Cuts b cs lexeme := by
  obtain ⟨text, tokens, next, behind, hmem, rfl, rfl⟩ := ofFixed?_eq_some h
  obtain ⟨⟨name, value⟩, hname, hentry⟩ := List.mem_map.mp hmem
  cases hentry
  refine ⟨name.toList ++ [':', ':'], behind, by simp, ?_, .axis hname⟩
  rw [String.length_append, List.length_append, String.length_toList]
  rfl

theorem cuts_nodeTest (h : ofFixed? cs nodeTests = some lexeme) : Cuts b cs lexeme := by
  obtain ⟨text, tokens, next, behind, hmem, rfl, rfl⟩ := ofFixed?_eq_some h
  exact ⟨text.toList, behind, rfl, String.length_toList.symm, .nodeTest hmem⟩

theorem cuts_instructionTest (h : instructionTest? cs = some lexeme) : Cuts b cs lexeme := by
  simp only [instructionTest?, Option.ite_none_right_eq_some] at h
  obtain ⟨hstart, h⟩ := h
  obtain ⟨rest, rfl⟩ := List.isPrefixOf_iff_prefix.mp hstart
  split at h
  · next target width hquoted =>
    rw [List.drop_left' rfl] at hquoted
    obtain ⟨quote, value, behind, hquote, hvalue, rfl, rfl, rfl⟩ := quoted?_eq_some hquoted
    obtain ⟨hclosed, h⟩ := Option.ite_none_right_eq_some.mp h
    cases h
    have hhead : behind.head? = some ')' := by
      rw [List.getElem?_append_right (Nat.le_add_right _ _), Nat.add_sub_cancel_left,
        List.getElem?_cons_succ, List.getElem?_append_right (Nat.le_succ _),
        Nat.succ_sub (Nat.le_refl _), Nat.sub_self, List.getElem?_cons_succ,
        ← List.head?_eq_getElem?] at hclosed
      exact hclosed
    cases behind with
    | nil => cases hhead
    | cons c behind =>
      cases hhead
      refine ⟨_, behind, ?_, ?_, .instruction hquote hvalue⟩
      · simp only [List.append_assoc, List.cons_append, List.nil_append]
      · simp only [List.length_append, List.length_cons, List.length_nil]
        omega
  · cases h

theorem cuts_function (hoperator : NoOperator b cs) (h : function? cs = some lexeme) :
    Cuts b cs lexeme := by
  unfold function? at h
  split at h
  · next name hname =>
    obtain ⟨hopen, h⟩ := Option.ite_none_right_eq_some.mp h
    cases h
    obtain ⟨_, behind, rfl⟩ := Xml.leadingQName?_eq_some hname
    rw [PrefixedName.width_eq, List.getElem?_append_right (Nat.le_refl _), Nat.sub_self] at hopen
    cases behind with
    | nil => cases hopen
    | cons c behind =>
      cases hopen
      exact ⟨_, _, rfl, name.width_eq, .function hoperator hname⟩
  · cases h

theorem cuts_nameTest (hoperator : NoOperator b cs) (h : nameTest? cs = some lexeme) :
    Cuts b cs lexeme := by
  unfold nameTest? at h
  split at h
  · next behind =>
    cases h
    refine ⟨['*'], behind, rfl, rfl, .star ?_⟩
    cases b with
    | false => rfl
    | true => cases hoperator rfl
  · split at h
    · cases h
    · next first hfirst =>
      obtain ⟨hrun, behind, rfl, _⟩ := Xml.leadingRun?_eq_some hfirst
      split at h
      · next behind' hbehind =>
        cases h
        rw [List.drop_left' rfl] at hbehind
        subst hbehind
        exact ⟨first ++ [':', '*'], behind', by simp, by simp, .namespaceTest hoperator hfirst⟩
      · obtain ⟨name, hname, h⟩ := Option.map_eq_some_iff.mp h
        cases h
        obtain ⟨_, behind', heq⟩ := Xml.leadingQName?_eq_some hname
        rw [heq] at hname hoperator ⊢
        exact ⟨_, _, rfl, name.width_eq, .nameTest hoperator hname⟩

theorem eq_some_of_elim {α ε : Type} {found : Option α} {e : ε} {a : α}
    (h : found.elim (.error e) Except.ok = .ok a) : found = some a := by
  cases found with
  | none => cases h
  | some found =>
    cases h
    rfl

/-- The lexer cuts in one of the ways told. -/
theorem cuts_of_lexemeAt (h : lexemeAt b cs = .ok lexeme) : Cuts b cs lexeme := by
  unfold lexemeAt at h
  split at h
  · next found hsymbol =>
    cases h
    exact cuts_symbol hsymbol
  · next hsymbol =>
    split at h
    · split at h
      · next hquoted =>
        cases h
        exact cuts_literal hquoted
      · cases h
    · split at h
      · next hquoted =>
        cases h
        exact cuts_literal hquoted
      · cases h
    · split at h
      · next name hname =>
        cases h
        exact cuts_bound hname
      · cases h
    · have hfound := eq_some_of_elim h
      simp only [Option.or_eq_some_iff, Option.or_eq_none_iff] at hfound
      have hno (h : (if b then ofFixed? cs wordOperators else none) = none) : NoOperator b cs :=
        fun hb => by rwa [if_pos hb] at h
      obtain ((((((hnumber | ⟨hnumber, hpoint⟩) | ⟨_, hword⟩) | ⟨_, haxis⟩) | ⟨_, htest⟩) |
        ⟨_, hinstruction⟩) | ⟨⟨⟨⟨⟨_, hword⟩, _⟩, _⟩, _⟩, hfunction⟩) |
          ⟨⟨⟨⟨⟨⟨_, hword⟩, _⟩, _⟩, _⟩, _⟩, hname⟩ := hfound
      · exact cuts_number hnumber
      · exact cuts_point hsymbol hnumber hpoint
      · obtain ⟨hb, hword⟩ := Option.ite_none_right_eq_some.mp hword
        exact cuts_operator hb hword
      · exact cuts_axis haxis
      · exact cuts_nodeTest htest
      · exact cuts_instructionTest hinstruction
      · exact cuts_function (hno hword) hfunction
      · exact cuts_nameTest (hno hword) hname

end XPathBench.XPath
