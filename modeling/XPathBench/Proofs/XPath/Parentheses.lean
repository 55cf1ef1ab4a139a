import XPathBench.Proofs.XPath.Tokens

/-!
# Rules inside of parentheses

A rule goes in front of a closing parenthesis as it goes at the end of the tokens, and it closes all
parentheses that it opens.

* `Nested`: each opening parenthesis is closed
* `Persists`: what a rule takes and answers, another one takes and answers in front of a parenthesis
* `reads_expressionTo`: the rules for expressions
* `denotes_of_parse`: a query in front of a closing parenthesis
-/

namespace XPathBench.XPath

variable {used more tokens : List Token} {token : Token}

/-! ## Nesting -/

/-- The number of open parentheses behind a token. -/
def Token.depthBehind (depth : Nat) : Token → Nat
  | leftParen => depth + 1
  | rightParen => depth - 1
  | _ => depth

/-- Each opening parenthesis is closed, and no other one is. -/
def Nested (tokens : List Token) : Prop :=
  ∀ depth, tokens.foldl Token.depthBehind depth = depth

theorem nested_nil : Nested [] := fun _ => rfl

theorem Nested.append (h : Nested used) (hmore : Nested more) : Nested (used ++ more) := by
  intro depth
  rw [List.foldl_append, h depth, hmore depth]

theorem Nested.enclosed (h : Nested used) : Nested (.leftParen :: (used ++ [.rightParen])) := by
  intro depth
  rw [List.foldl_cons, List.foldl_append, h]
  rfl

namespace Parser

variable {α β : Type} {n m k k' : Nat} {rule rule' : Parser α}

/-- A token with a value is no parenthesis. -/
theorem nested_of_value {value : Token → Option α} {v : α} (hleft : value .leftParen = none)
    (hright : value .rightParen = none) (h : value token = some v) : Nested [token] := by
  cases token with
  | leftParen =>
    rw [hleft] at h
    cases h
  | rightParen =>
    rw [hright] at h
    cases h
  | _ => exact fun _ => rfl

/-! ## Rules that persist -/

/-- What a rule takes of at most `n` tokens, and what it answers then, another rule takes and
answers if the tokens stand in front of a closing parenthesis. What is taken is as `took` tells. -/
def Persists (n : Nat) (rule rule' : Parser α) (took : α → List Token → Prop) : Prop :=
  ∀ tokens error a left later error', tokens.length ≤ n →
    rule.run ⟨tokens, error⟩ = .ok (a, left) →
      ∃ used behind, tokens = used ++ behind ∧ left = ⟨behind, error⟩ ∧ took a used ∧
        rule'.run ⟨tokens ++ .rightParen :: later, error'⟩ =
          .ok (a, ⟨behind ++ .rightParen :: later, error'⟩)

theorem Persists.weaken {took : α → List Token → Prop} (h : Persists n rule rule' took)
    (hle : m ≤ n) : Persists m rule rule' took :=
  fun tokens error a left later error' hlength =>
    h tokens error a left later error' (Nat.le_trans hlength hle)

theorem Persists.mono {took took' : α → List Token → Prop} (h : Persists n rule rule' took)
    (htook : ∀ a used, took a used → took' a used) : Persists n rule rule' took' := by
  intro tokens error a left later error' hlength hrun
  obtain ⟨used, behind, htokens, hleft, hused, hrun'⟩ :=
    h tokens error a left later error' hlength hrun
  exact ⟨used, behind, htokens, hleft, htook a used hused, hrun'⟩

theorem persists_pure {a : α} {took : α → List Token → Prop} (h : took a []) :
    Persists n (pure a) (pure a) took := by
  intro tokens error b left later error' hlength hrun
  cases hrun
  exact ⟨[], tokens, rfl, rfl, h, rfl⟩

theorem persists_throw {e : ParseError} {took : α → List Token → Prop} :
    Persists n (throw e) rule' took := by
  intro tokens error a left later error' hlength hrun
  cases hrun

theorem Persists.bind {took : α → List Token → Prop} {last : β → List Token → Prop}
    {next next' : α → Parser β} (h : Persists n rule rule' took)
    (hnext : ∀ a used, took a used → used.length ≤ n →
      Persists (n - used.length) (next a) (next' a) fun b more => last b (used ++ more)) :
    Persists n (rule >>= next) (rule' >>= next') last := by
  intro tokens error b left later error' hlength hrun
  rw [StateT.run_bind] at hrun
  obtain ⟨⟨a, middle⟩, hrule, hrun⟩ := bind_eq_ok.mp hrun
  obtain ⟨used, behind, rfl, rfl, hused, hrule'⟩ :=
    h tokens error a middle later error' hlength hrule
  rw [List.length_append] at hlength
  obtain ⟨more, behind, rfl, rfl, hmore, hrun'⟩ := hnext a used hused (by omega) behind error b left
    later error' (by omega) hrun
  refine ⟨used ++ more, behind, (List.append_assoc _ _ _).symm, rfl, hmore, ?_⟩
  rw [StateT.run_bind, hrule']
  exact hrun'

/-- Rules that look how many tokens there are. -/
theorem persists_get {next next' : TokenStream → Parser α} {took : α → List Token → Prop}
    (h : ∀ s s', s.tokens.length ≤ n → s.tokens.length ≤ s'.tokens.length →
      Persists s.tokens.length (next s) (next' s') took) :
    Persists n (get >>= next) (get >>= next') took := by
  intro tokens error a left later error' hlength hrun
  have hle : tokens.length ≤ (tokens ++ .rightParen :: later).length := by
    rw [List.length_append]
    omega
  exact h ⟨tokens, error⟩ ⟨tokens ++ .rightParen :: later, error'⟩ hlength hle tokens error a left
    later error' (Nat.le_refl _) hrun

/-! ## Single tokens -/

theorem persists_next {value : Token → Option α} (hparen : value .rightParen = none) :
    Persists n (next? value) (next? value) fun found used => match found with
      | none => used = []
      | some v => ∃ token, used = [token] ∧ value token = some v := by
  intro tokens error found left later error' hlength hrun
  obtain ⟨rfl, rfl, hvalue⟩ | ⟨token, rest, v, rfl, hvalue, rfl, rfl⟩ := run_next hrun
  · refine ⟨[], tokens, rfl, rfl, rfl, run_next_left ?_⟩
    cases tokens with
    | nil =>
      intro token htoken
      cases htoken
      exact hparen
    | cons token tokens => exact hvalue
  · exact ⟨[token], rest, rfl, rfl, ⟨token, rfl, hvalue⟩, run_next_taken hvalue⟩

theorem persists_take {expected : Token → Bool} :
    Persists n (take expected) (take expected) fun _ used =>
      ∃ token, used = [token] ∧ expected token = true := by
  intro tokens error found left later error' hlength hrun
  obtain ⟨token, rest, rfl, hexpected, rfl⟩ := run_take hrun
  refine ⟨[token], rest, rfl, rfl, ⟨token, rfl, hexpected⟩, ?_⟩
  show (if expected token then _ else _ : Parser Unit).run _ = _
  rw [if_pos hexpected]
  rfl

/-! ## Rules that keep the nesting -/

/-- The rule closes the parentheses that it opens. -/
abbrev Stays (n : Nat) (rule rule' : Parser α) : Prop :=
  Persists n rule rule' fun _ used => Nested used

theorem Stays.bind {next next' : α → Parser β} (h : Stays n rule rule')
    (hnext : ∀ a, Stays n (next a) (next' a)) : Stays n (rule >>= next) (rule' >>= next') :=
  Persists.bind h fun a _ hused _ =>
    ((hnext a).weaken (Nat.sub_le _ _)).mono fun _ _ hmore => hused.append hmore

theorem stays_pure {a : α} : Stays n (pure a) (pure a) := persists_pure nested_nil

/-- What is taken where a rule finds something or not: its parentheses match, and if something is
found it is not empty. -/
structure Progress (found : Option α) (used : List Token) : Prop where
  nested : Nested used
  moves : found.isSome = true → used ≠ []

/-- The rule closes the parentheses that it opens, and it takes a token if it finds something. -/
abbrev Reads (n : Nat) (rule rule' : Parser (Option α)) : Prop := Persists n rule rule' Progress

section Found

variable {rule rule' : Parser (Option α)}

theorem Reads.stays (h : Reads n rule rule') : Stays n rule rule' :=
  h.mono fun _ _ hprogress => hprogress.nested

theorem reads_none : Reads n (pure none : Parser (Option α)) (pure none) :=
  persists_pure ⟨nested_nil, nofun⟩

theorem reads_next {value : Token → Option α} (hleft : value .leftParen = none)
    (hright : value .rightParen = none) : Reads n (next? value) (next? value) := by
  refine (persists_next hright).mono fun found used hused => ?_
  cases found with
  | none =>
    obtain rfl := hused
    exact ⟨nested_nil, nofun⟩
  | some v =>
    obtain ⟨token, rfl, hv⟩ := hused
    exact ⟨nested_of_value hleft hright hv, fun _ => List.cons_ne_nil _ _⟩

/-- Behind something that is found there are fewer tokens. -/
theorem Reads.bindFound {next next' : Option α → Parser (Option β)} (h : Reads n rule rule')
    (hnone : Reads n (next none) (next' none))
    (hsome : ∀ a, ∀ m < n, Stays m (next (some a)) (next' (some a))) :
    Reads n (rule >>= next) (rule' >>= next') := by
  refine Persists.bind h fun found used hused hlength => ?_
  cases found with
  | none =>
    refine (hnone.weaken (Nat.sub_le _ _)).mono fun b more hmore => ?_
    exact ⟨hused.nested.append hmore.nested, fun hb => List.append_ne_nil_of_right_ne_nil _
      (hmore.moves hb)⟩
  | some a =>
    have hne := hused.moves rfl
    have hpos := List.length_pos_iff.mpr hne
    refine (hsome a _ (by omega)).mono fun b more hmore => ?_
    exact ⟨hused.nested.append hmore, fun _ => List.append_ne_nil_of_left_ne_nil hne _⟩

theorem Stays.require {e : ParseError} (h : Stays n rule rule') :
    Stays n (require e rule) (require e rule') := by
  refine h.bind fun found => ?_
  cases found with
  | none => exact persists_throw
  | some a => exact stays_pure

theorem Reads.firstOf {others others' : List (Parser (Option α))} (h : Reads n rule rule')
    (hothers : Reads n (firstOf others) (firstOf others')) :
    Reads n (firstOf (rule :: others)) (firstOf (rule' :: others')) :=
  h.bindFound hothers fun _ _ _ => stays_pure

theorem run_many_of_none {s : TokenStream} (h : rule.run s = .ok (none, s)) :
    (many rule k).run s = .ok ([], s) := by
  cases k with
  | zero => rfl
  | succ k =>
    show (rule >>= _).run s = _
    rw [StateT.run_bind, h]
    rfl

/-- A rule that finds nothing without tokens is repeated until it finds nothing, if there may be as
many rounds as there are tokens. -/
theorem stays_many (h : Reads n rule rule')
    (hnil : ∀ error, rule.run ⟨[], error⟩ = .ok (none, ⟨[], error⟩)) (hk : n ≤ k) (hk' : n ≤ k') :
    Stays n (many rule k) (many rule' k') := by
  induction n using Nat.strongRecOn generalizing k k' with
  | ind n ih =>
    rcases Nat.eq_zero_or_pos n with rfl | hpos
    · -- there may be no rounds left on one side only, so both sides have to stop by themselves
      intro tokens error as left later error' hlength hrun
      obtain rfl := List.length_eq_zero_iff.mp (Nat.le_zero.mp hlength)
      obtain ⟨used, behind, happend, hbehind, _, hrule'⟩ :=
        h [] error none ⟨[], error⟩ later error' (Nat.le_refl 0) (hnil error)
      obtain ⟨rfl, rfl⟩ := List.append_eq_nil_iff.mp happend.symm
      rw [run_many_of_none (hnil error)] at hrun
      cases hrun
      exact ⟨[], [], rfl, rfl, nested_nil, run_many_of_none hrule'⟩
    · obtain ⟨k, rfl⟩ : ∃ j, k = j + 1 := ⟨k - 1, by omega⟩
      obtain ⟨k', rfl⟩ : ∃ j, k' = j + 1 := ⟨k' - 1, by omega⟩
      refine Persists.bind h fun found used hused hlength => ?_
      cases found with
      | none => exact persists_pure (hused.nested.append nested_nil)
      | some a =>
        have hpos := List.length_pos_iff.mpr (hused.moves rfl)
        have hrest : Reads (n - used.length) rule rule' := h.weaken (Nat.sub_le _ _)
        have hmany : Stays (n - used.length) (many rule k) (many rule' k') :=
          ih (n - used.length) (by omega) hrest (by omega) (by omega)
        refine (hmany.bind fun as => stays_pure).mono fun as more hmore => ?_
        exact hused.nested.append hmore

theorem stays_manyLeft (h : Reads n rule rule')
    (hnil : ∀ error, rule.run ⟨[], error⟩ = .ok (none, ⟨[], error⟩)) :
    Stays n (manyLeft rule) (manyLeft rule') :=
  persists_get fun _ _ hs hs' => stays_many (h.weaken hs) hnil (Nat.le_refl _) hs'

end Found

/-! ## Operators -/

variable {expression expression' operand operand' : Parser (Option Expr)}

theorem reads_chain {operator : Token → Option BinaryOp} (hleft : operator .leftParen = none)
    (hright : operator .rightParen = none) (h : Reads n operand operand') :
    Reads n (chain operator operand) (chain operator operand') := by
  refine h.bindFound reads_none fun first m hm => ?_
  refine Stays.bind (stays_manyLeft ?_ fun _ => rfl) fun _ => stays_pure
  refine (reads_next hleft hright).bindFound reads_none fun op l hl => ?_
  have hright : Stays l operand operand' := Reads.stays (h.weaken (by omega))
  exact hright.require.bind fun _ => stays_pure

theorem reads_foldr {operators : List (Token → Option BinaryOp)}
    (hoperators : ∀ operator ∈ operators, operator .leftParen = none ∧ operator .rightParen = none)
    (h : Reads n operand operand') :
    Reads n (operators.foldr chain operand) (operators.foldr chain operand') := by
  induction operators with
  | nil => exact h
  | cons operator operators ih =>
    rw [List.forall_mem_cons] at hoperators
    exact reads_chain hoperators.1.1 hoperators.1.2 (ih hoperators.2)

theorem reads_signed {union union' : Parser (Option Expr)} (h : Reads n union union') (hk : n < k)
    (hk' : n < k') : Reads n (signed union k) (signed union' k') := by
  induction k generalizing n k' with
  | zero => omega
  | succ k ih =>
    obtain ⟨k', rfl⟩ : ∃ j, k' = j + 1 := ⟨k' - 1, by omega⟩
    refine h.bindFound ?_ fun e m hm => stays_pure
    refine (reads_next rfl rfl).bindFound reads_none fun _ m hm => ?_
    exact (ih (h.weaken (by omega)) (by omega) (by omega)).stays.require.bind fun _ => stays_pure

/-! ## Paths -/

theorem stays_take {expected : Token → Bool} (hleft : expected .leftParen = false)
    (hright : expected .rightParen = false) : Stays n (take expected) (take expected) := by
  refine persists_take.mono fun _ used hused => ?_
  obtain ⟨token, rfl, hexpected⟩ := hused
  have hnone {t : Token} (h : expected t = false) : Option.guard expected t = none := by
    rw [Option.guard, if_neg (by rw [h]; exact Bool.false_ne_true)]
  refine nested_of_value (hnone hleft) (hnone hright) (v := token) ?_
  rw [Option.guard, if_pos hexpected]

theorem reads_predicate (h : ∀ m < n, Reads m expression expression') :
    Reads n (predicate expression) (predicate expression') := by
  refine (reads_next rfl rfl).bindFound reads_none fun _ m hm => ?_
  refine (h m hm).stays.require.bind fun e => ?_
  exact (stays_take rfl rfl).bind fun _ => stays_pure

theorem stays_predicates (h : ∀ m < n, Reads m expression expression') :
    Stays n (manyLeft (predicate expression)) (manyLeft (predicate expression')) :=
  stays_manyLeft (reads_predicate h) fun _ => rfl

theorem reads_step (h : ∀ m < n, Reads m expression expression') :
    Reads n (step expression) (step expression') := by
  have hpredicates {m : Nat} (hm : m < n) (found : List Expr → Step) :
      Stays m (do return some (found (← manyLeft (predicate expression))))
        (do return some (found (← manyLeft (predicate expression')))) :=
    (stays_predicates fun l hl => h l (by omega)).bind fun _ => stays_pure
  refine (reads_next rfl rfl).bindFound ?_ fun axis m hm => ?_
  · exact (reads_next rfl rfl).bindFound reads_none fun test m hm => hpredicates hm _
  · refine Reads.stays ((reads_next rfl rfl).bindFound reads_none fun test l hl => ?_)
    exact hpredicates (Nat.lt_trans hl hm) _

theorem reads_slash : Reads n slash slash := reads_next rfl rfl

theorem reads_relativePath (h : ∀ m < n, Reads m expression expression') :
    Reads n (relativePath expression) (relativePath expression') := by
  refine (reads_step h).bindFound reads_none fun first m hm => ?_
  refine Stays.bind (stays_manyLeft ?_ fun _ => rfl) fun _ => stays_pure
  refine reads_slash.bindFound reads_none fun _ l hl => ?_
  have hstep := (reads_step (n := l) fun i hi => h i (by omega)).stays
  exact hstep.require.bind fun _ => stays_pure

/-- A closing parenthesis behind a rule, and perhaps behind more before it. -/
theorem persists_closing (h : Stays n rule rule') (hused : Nested used) : Persists n (do
    let a ← rule
    take fun | .rightParen => true | _ => false
    return a) (do
    let a ← rule'
    take fun | .rightParen => true | _ => false
    return a) fun _ more => Nested (.leftParen :: (used ++ more)) := by
  refine Persists.bind h fun a more hmore _ => ?_
  refine Persists.bind persists_take fun _ last hlast _ => persists_pure ?_
  obtain ⟨token, rfl, htoken⟩ := hlast
  cases token with
  | rightParen =>
    have henclosed := (hused.append hmore).enclosed
    rwa [List.append_assoc] at henclosed
  | _ => cases htoken

theorem stays_arguments (h : ∀ m < n, Reads m expression expression') :
    Stays n (arguments expression) (arguments expression') := by
  refine Persists.bind persists_take fun _ used hused hlength => ?_
  obtain ⟨token, rfl, htoken⟩ := hused
  cases token with
  | leftParen =>
    have hlt : n - 1 < n := Nat.sub_lt hlength Nat.one_pos
    refine Persists.bind (h _ hlt).stays fun found used hused _ => ?_
    cases found with
    | none => exact persists_closing stays_pure hused
    | some first =>
      refine Persists.bind (stays_manyLeft ?_ fun _ => rfl) fun others more hmore _ => ?_
      · refine (reads_next rfl rfl).bindFound reads_none fun _ l hl => ?_
        exact (h l (by omega)).stays.require.bind fun _ => stays_pure
      · refine (persists_closing stays_pure (hused.append hmore)).mono fun _ last hlast => ?_
        rwa [List.append_assoc] at hlast
  | _ => cases htoken

theorem reads_group (h : ∀ m < n, Reads m expression expression') :
    Reads n (group expression) (group expression') := by
  refine Persists.bind (persists_next rfl) fun found used hused hlength => ?_
  cases found with
  | none =>
    obtain rfl := hused
    exact reads_none
  | some _ =>
    obtain ⟨token, rfl, htoken⟩ := hused
    cases token with
    | leftParen =>
      have hlt : n - 1 < n := Nat.sub_lt hlength Nat.one_pos
      refine (persists_closing (h _ hlt).stays nested_nil).mono fun _ more hmore => ?_
      exact ⟨hmore, fun _ => List.cons_ne_nil _ _⟩
    | _ => cases htoken

theorem reads_call (h : ∀ m < n, Reads m expression expression') :
    Reads n (call expression) (call expression') := by
  refine (reads_next rfl rfl).bindFound reads_none fun name m hm => ?_
  exact (stays_arguments fun l hl => h l (by omega)).bind fun _ => stays_pure

theorem reads_primary (h : ∀ m < n, Reads m expression expression') :
    Reads n (primary expression) (primary expression') := by
  apply (reads_next rfl rfl).firstOf
  apply (reads_group h).firstOf
  apply (reads_next rfl rfl).firstOf
  apply (reads_next rfl rfl).firstOf
  exact (reads_call h).firstOf reads_none

theorem reads_filtered (h : ∀ m < n, Reads m expression expression') :
    Reads n (filtered expression) (filtered expression') := by
  refine (reads_primary h).bindFound reads_none fun e m hm => ?_
  refine (stays_predicates fun l hl => h l (by omega)).bind fun predicates => ?_
  refine reads_slash.stays.bind fun found => ?_
  cases found with
  | none => exact stays_pure
  | some _ =>
    have hpath := (reads_relativePath (n := m) fun l hl => h l (by omega)).stays
    exact hpath.require.bind fun _ => stays_pure

theorem reads_absolutePath (h : ∀ m < n, Reads m expression expression') :
    Reads n (absolutePath expression) (absolutePath expression') := by
  refine reads_slash.bindFound reads_none fun _ m hm => ?_
  refine (reads_relativePath fun l hl => h l (by omega)).stays.bind fun found => ?_
  cases found with
  | none => exact stays_pure
  | some steps => exact stays_pure

theorem reads_path (h : ∀ m < n, Reads m expression expression') :
    Reads n (path expression) (path expression') := by
  have hrelative : Reads n ((·.map (Expr.path .contextNode)) <$> relativePath expression)
      ((·.map (Expr.path .contextNode)) <$> relativePath expression') := by
    rw [map_eq_pure_bind, map_eq_pure_bind]
    exact (reads_relativePath h).bindFound reads_none fun _ _ _ => stays_pure
  apply hrelative.firstOf
  apply (reads_absolutePath h).firstOf
  exact (reads_filtered h).firstOf reads_none

/-! ## Expressions -/

/-- On fewer tokens than expressions may stand inside each other, it does not matter how many may.
-/
theorem reads_expressionTo (hk : n < k) (hk' : n < k') :
    Reads n (expressionTo k) (expressionTo k') := by
  induction k generalizing n k' with
  | zero => omega
  | succ k ih =>
    obtain ⟨k', rfl⟩ : ∃ j, k' = j + 1 := ⟨k' - 1, by omega⟩
    refine persists_get fun s s' hs hs' => ?_
    have hpath : Reads s.tokens.length (path (expressionTo k)) (path (expressionTo k')) :=
      reads_path fun m hm => ih (by omega) (by omega)
    refine reads_foldr ?_ (reads_signed (reads_chain rfl rfl hpath)
      (Nat.lt_succ_self s.tokens.length) (Nat.lt_succ_of_le hs'))
    simp [levels]

/-- The tokens close the parentheses that they open, and in front of a closing parenthesis they are
read as the expression, however many expressions may stand inside each other. -/
structure Denotes (tokens : List Token) (e : Expr) : Prop where
  nested : Nested tokens
  run : ∀ {k : Nat} (later : List Token) (error : Option LexicalError), tokens.length < k →
    (expressionTo k).run ⟨tokens ++ .rightParen :: later, error⟩ =
      .ok (some e, ⟨.rightParen :: later, error⟩)

theorem denotes_of_run {e : Expr} {tokens : List Token} {error : Option LexicalError}
    (h : Parser.expression.run ⟨tokens, error⟩ = .ok (some e, ⟨[], none⟩)) :
    error = none ∧ Denotes tokens e := by
  rw [run_expression] at h
  have hreads {k : Nat} (hk : tokens.length < k) (later : List Token)
      (error' : Option LexicalError) := reads_expressionTo (Nat.lt_succ_self tokens.length) hk _
    error _ _ later error' (Nat.le_refl _) h
  obtain ⟨used, behind, htokens, hbehind, hused, -⟩ := hreads (Nat.lt_succ_self _) [] none
  cases hbehind
  rw [List.append_nil] at htokens
  refine ⟨rfl, htokens ▸ hused.nested, fun later error' hk => ?_⟩
  obtain ⟨used, behind, -, hbehind, -, hrun⟩ := hreads hk later error'
  cases hbehind
  exact hrun

end Parser

/-- The tokens of a query that is an expression are cut to its end and denote it. -/
theorem denotes_of_parse {query : String} {e : Expr} (h : Expr.parse query = .ok (some e)) :
    (TokenStream.ofText query).error = none ∧
      Parser.Denotes (TokenStream.ofText query).tokens e :=
  Parser.denotes_of_run (Expr.parse_eq_ok_iff.mp h)

end XPathBench.XPath
