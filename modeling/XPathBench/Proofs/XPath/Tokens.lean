import XPathBench.Proofs.Actions
import XPathBench.XPath.Parser

/-!
# Running rules

How the two rules that take a token leave the tokens that they are run on, and what it is to run the
rule for expressions on all tokens of a query.

* `run_next`: a token is taken if and only if the rule has a value for it
* `run_take`: the token that has to come next
* `Expr.parse_eq_ok_iff`: a query is read to its end
-/

namespace XPathBench.XPath.Parser

variable {α : Type} {tokens : List Token} {error : Option LexicalError}

theorem run_next_cons {value : Token → Option α} {token : Token} {rest : List Token} :
    (next? value).run ⟨token :: rest, error⟩ = match value token with
      | some v => .ok (some v, ⟨rest, error⟩)
      | none => .ok (none, ⟨token :: rest, error⟩) := by
  show (match value token with
    | some v => (do modify fun s => { s with tokens := rest }; return some v)
    | none => return none : Parser (Option α)).run ⟨token :: rest, error⟩ = _
  cases value token <;> rfl

theorem run_next_taken {value : Token → Option α} {token : Token} {rest : List Token} {v : α}
    (h : value token = some v) :
    (next? value).run ⟨token :: rest, error⟩ = .ok (some v, ⟨rest, error⟩) := by
  rw [run_next_cons, h]

theorem run_next_left {value : Token → Option α} (h : ∀ token ∈ tokens.head?, value token = none) :
    (next? value).run ⟨tokens, error⟩ = .ok (none, ⟨tokens, error⟩) := by
  cases tokens with
  | nil => rfl
  | cons token rest => rw [run_next_cons, h token rfl]

theorem run_next {value : Token → Option α} {found : Option α} {left : TokenStream}
    (h : (next? value).run ⟨tokens, error⟩ = .ok (found, left)) :
    (found = none ∧ left = ⟨tokens, error⟩ ∧ ∀ token ∈ tokens.head?, value token = none) ∨
      ∃ token rest v, tokens = token :: rest ∧ value token = some v ∧ found = some v ∧
        left = ⟨rest, error⟩ := by
  cases tokens with
  | nil =>
    cases h
    exact .inl ⟨rfl, rfl, nofun⟩
  | cons token rest =>
    cases hvalue : value token with
    | none =>
      rw [run_next_cons, hvalue] at h
      cases h
      exact .inl ⟨rfl, rfl, fun _ htoken => Option.some.inj htoken ▸ hvalue⟩
    | some v =>
      rw [run_next_taken hvalue] at h
      cases h
      exact .inr ⟨token, rest, v, rfl, hvalue, rfl, rfl⟩

theorem run_take {expected : Token → Bool} {left : TokenStream}
    (h : (take expected).run ⟨tokens, error⟩ = .ok ((), left)) :
    ∃ token rest, tokens = token :: rest ∧ expected token = true ∧ left = ⟨rest, error⟩ := by
  cases tokens with
  | nil => cases error <;> cases h
  | cons token rest =>
    change (if expected token then set (⟨rest, error⟩ : TokenStream)
      else throw (.unexpectedToken token) : Parser Unit).run ⟨token :: rest, error⟩ = _ at h
    split at h
    · next hexpected =>
      cases h
      exact ⟨token, rest, rfl, hexpected, rfl⟩
    · cases h

/-! ## All tokens -/

theorem run_get {f : TokenStream → Parser α} {s : TokenStream} :
    (get >>= f).run s = (f s).run s := rfl

theorem run_expression {s : TokenStream} :
    expression.run s = (expressionTo (s.tokens.length + 1)).run s := run_get

end XPathBench.XPath.Parser

namespace XPathBench.XPath

/-- A query denotes what the rule for expressions finds if the rule takes all of its tokens. -/
theorem Expr.parse_eq_ok_iff {query : String} {found : Option Expr} :
    Expr.parse query = .ok found ↔
      Parser.expression.run (TokenStream.ofText query) = .ok (found, ⟨[], none⟩) := by
  constructor
  · intro h
    obtain ⟨⟨result, left⟩, hrun, h⟩ := bind_eq_ok.mp h
    dsimp only at h
    split at h
    · next hdone =>
      cases h
      obtain ⟨tokens, error⟩ := left
      obtain ⟨htokens, herror⟩ := Bool.and_eq_true_iff.mp hdone
      obtain rfl := List.isEmpty_iff.mp htokens
      obtain rfl := Option.isNone_iff_eq_none.mp herror
      exact hrun
    · cases h
  · intro h
    exact bind_eq_ok.mpr ⟨_, h, rfl⟩

end XPathBench.XPath
