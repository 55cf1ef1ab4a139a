import XPathBench.Proofs.Text.Runs
import XPathBench.Proofs.XPath.Alignment
import XPathBench.Proofs.XPath.Parentheses

/-!
# Cutting texts in front of a closing parenthesis

A text is cut into the same tokens in front of a closing parenthesis as alone, unless it ends inside
of a node test.

* `endsOpen`: tokens end with an opening parenthesis, perhaps with a literal behind it
* `lexemeAt_paren`: single lexemes
* `ofTextFrom_paren`: whole texts
-/

namespace XPathBench.XPath

open Lexeme
open TokenStream (ofTextFrom)
open Xml (leadingNcName? leadingQName? leadingRun?)

variable {b : Bool} {stop : Char} {cs rest : List Char} {lexeme : Lexeme}

/-! ## Tokens that end with an opening parenthesis -/

/-- The tokens end as those of a node test that is not over. -/
def endsOpen (tokens : List Token) : Bool :=
  match tokens.reverse with
  | .leftParen :: _ | .literal _ :: .leftParen :: _ => true
  | _ => false

theorem endsOpen_append {tokens later : List Token} (h : endsOpen later = true) :
    endsOpen (tokens ++ later) = true := by
  unfold endsOpen at h ⊢
  rw [List.reverse_append]
  split at h
  · next heq =>
    rw [heq]
    rfl
  · next heq =>
    rw [heq]
    rfl
  · cases h

theorem Nested.not_endsOpen {tokens : List Token} (h : Nested tokens) :
    endsOpen tokens = false := by
  have hzero := h 0
  rw [← List.reverse_reverse tokens] at hzero
  rw [Bool.eq_false_iff]
  intro hopen
  unfold endsOpen at hopen
  split at hopen
  · next heq =>
    rw [heq, List.reverse_cons, List.foldl_append] at hzero
    cases hzero
  · next heq =>
    rw [heq, List.reverse_cons, List.reverse_cons, List.append_assoc, List.foldl_append] at hzero
    cases hzero
  · cases hopen

/-! ## Lexemes that end at a character -/

/-- Characters that end each lexeme that is not a literal or a node test. -/
def stops : List Char := [')', '\'', '"']

theorem forall_mem_stops {p : Char → Prop} :
    (∀ c ∈ stops, p c) ↔ p ')' ∧ p '\'' ∧ p '"' := by
  simp [stops]

theorem takeWhile_append_stop {p : Char → Bool} (h : p stop = false) :
    (cs ++ stop :: rest).takeWhile p = cs.takeWhile p := by
  induction cs with
  | nil => rw [List.nil_append, List.takeWhile_cons_of_neg (by simp [h]), List.takeWhile_nil]
  | cons d cs ih => rw [List.cons_append, List.takeWhile_cons, List.takeWhile_cons, ih]

theorem leadingNcName?_stop (h : stop ∈ stops) :
    leadingNcName? (cs ++ stop :: rest) = leadingNcName? cs := by
  have hname : ∀ c ∈ stops, Xml.isNameStart c = false ∧ Xml.isNameChar c = false :=
    forall_mem_stops.mpr (by decide)
  obtain ⟨hstart, hfurther⟩ := hname stop h
  cases cs with
  | nil => simp [leadingNcName?, leadingRun?, hstart]
  | cons c cs => simp only [List.cons_append, leadingNcName?, leadingRun?,
      takeWhile_append_stop hfurther]

theorem leadingQName?_stop (h : stop ∈ stops) :
    leadingQName? (cs ++ stop :: rest) = leadingQName? cs := by
  have hcolon : ∀ c ∈ stops, c ≠ ':' := forall_mem_stops.mpr (by decide)
  unfold leadingQName?
  rw [leadingNcName?_stop h]
  cases hfirst : leadingNcName? cs with
  | none => rfl
  | some first =>
    obtain ⟨_, behind, rfl, _⟩ := Xml.leadingRun?_eq_some hfirst
    simp only [Option.bind_eq_bind, Option.bind_some, List.append_assoc, List.drop_left]
    cases behind with
    | nil => simp [hcolon stop h]
    | cons d behind =>
      by_cases hd : d = ':'
      · subst hd
        simp only [List.cons_append, leadingNcName?_stop h]
      · simp [hd]

theorem number?_stop (h : stop ∈ stops) : number? (cs ++ stop :: rest) = number? cs := by
  have hnumber : ∀ c ∈ stops, c.isDigit = false ∧ c ≠ '.' := forall_mem_stops.mpr (by decide)
  obtain ⟨hdigit, hpoint⟩ := hnumber stop h
  have hle : (cs.takeWhile Char.isDigit).length ≤ cs.length :=
    (List.takeWhile_prefix _).length_le
  unfold number?
  simp only [takeWhile_append_stop hdigit, List.drop_append_of_le_length hle]
  cases cs.drop (cs.takeWhile Char.isDigit).length with
  | nil => simp [hpoint]
  | cons d behind =>
    by_cases hd : d = '.'
    · subst hd
      simp only [List.cons_append, takeWhile_append_stop hdigit]
    · simp [hd]

theorem function?_stop (h : stop ∈ stops) : function? (cs ++ stop :: rest) = function? cs := by
  have hopen : ∀ c ∈ stops, c ≠ '(' := forall_mem_stops.mpr (by decide)
  unfold function?
  rw [leadingQName?_stop h]
  cases hname : leadingQName? cs with
  | none => rfl
  | some name =>
    obtain ⟨_, behind, rfl⟩ := Xml.leadingQName?_eq_some hname
    have hahead (behind : List Char) :
        (name.text.toList ++ behind)[name.width]? = behind.head? := by
      rw [name.width_eq, List.getElem?_append_right (Nat.le_refl _), Nat.sub_self,
        List.head?_eq_getElem?]
    simp only [List.append_assoc, hahead]
    cases behind with
    | nil => simp [hopen stop h]
    | cons d behind => rfl

theorem nameTest?_stop (h : stop ∈ stops) (hcs : cs ≠ []) :
    nameTest? (cs ++ stop :: rest) = nameTest? cs := by
  have hmarks : ∀ c ∈ stops, c ≠ ':' ∧ c ≠ '*' := forall_mem_stops.mpr (by decide)
  obtain ⟨hcolon, hstop⟩ := hmarks stop h
  obtain ⟨c, tail, rfl⟩ := List.exists_cons_of_ne_nil hcs
  by_cases hstar : c = '*'
  · subst hstar
    rfl
  · have hname := @leadingQName?_stop stop (c :: tail) rest h
    have hfirst := @leadingNcName?_stop stop (c :: tail) rest h
    rw [List.cons_append] at hname hfirst ⊢
    simp only [nameTest?, hname, hfirst]
    cases hrun : leadingNcName? (c :: tail) with
    | none => simp [hstar]
    | some first =>
      obtain ⟨_, behind, hbehind, _⟩ := Xml.leadingRun?_eq_some hrun
      have hdrop : (c :: (tail ++ stop :: rest)).drop first.length = behind ++ stop :: rest := by
        rw [← List.cons_append, hbehind, List.append_assoc, List.drop_left]
      have hdrop' : (c :: tail).drop first.length = behind := by rw [hbehind, List.drop_left]
      simp only [hdrop, hdrop']
      rcases behind with _ | ⟨d, _ | ⟨e, behind⟩⟩
      · simp [hstar, hcolon]
      · by_cases hd : d = ':' <;> simp [hstar, hstop, hd]
      · by_cases hd : d = ':' <;> by_cases he : e = '*' <;> simp [hstar, hd, he]

theorem quoted?_append {value : String} {width : Nat} (h : quoted? cs = some (value, width)) :
    quoted? (cs ++ rest) = some (value, width) := by
  obtain ⟨quote, value, behind, hquote, hvalue, rfl, rfl, rfl⟩ := quoted?_eq_some h
  have hindex := @idxOf?_append (behind ++ rest) _ _ hvalue
  rw [List.cons_append, List.append_assoc, List.cons_append, quoted?, hindex,
    if_pos (by simpa using hquote), Option.map_some, List.take_left' rfl]

theorem ofFixed?_append {table : List (String × List Token × Bool)}
    (h : ∀ entry ∈ table, entry.1.toList <+: cs ++ rest → entry.1.toList <+: cs) :
    ofFixed? (cs ++ rest) table = ofFixed? cs table := by
  induction table with
  | nil => rfl
  | cons entry table ih =>
    rw [List.forall_mem_cons] at h
    obtain ⟨text, tokens, next⟩ := entry
    have hprefix : text.toList.isPrefixOf (cs ++ rest) = text.toList.isPrefixOf cs := by
      rw [Bool.eq_iff_iff, List.isPrefixOf_iff_prefix, List.isPrefixOf_iff_prefix]
      exact ⟨h.1, fun hp => hp.trans (List.prefix_append _ _)⟩
    have hrest := ih h.2
    unfold ofFixed? at hrest ⊢
    simp only [List.findSome?_cons, hrest, hprefix]

/-- A fixed text with the character in it is the character alone. -/
theorem ofFixed?_stop {table : List (String × List Token × Bool)} (hcs : cs ≠ [])
    (h : ∀ entry ∈ table, stop ∈ entry.1.toList → entry.1.toList.length = 1) :
    ofFixed? (cs ++ stop :: rest) table = ofFixed? cs table := by
  refine ofFixed?_append fun entry hentry hprefix => ?_
  by_cases hmem : stop ∈ entry.1.toList
  · have hlength := List.length_pos_iff.mpr hcs
    refine List.prefix_of_prefix_length_le hprefix (List.prefix_append _ _) ?_
    rw [h entry hentry hmem]
    omega
  · exact (Text.prefix_or_mem_of_prefix_append hprefix).resolve_right hmem

/-- The tables of texts that are cut in one way each, but for node tests. -/
def fixedTables : List (List (String × List Token × Bool)) :=
  [symbols, [(".", [.axis .self, .nodeTest .node], true)], wordOperators, axisNames]

theorem ofFixed?_fixedTables (h : stop ∈ stops) (hcs : cs ≠ []) (rest : List Char) :
    ∀ table ∈ fixedTables, ofFixed? (cs ++ stop :: rest) table = ofFixed? cs table := by
  have hshort : ∀ c ∈ stops, ∀ table ∈ fixedTables, ∀ entry ∈ table, c ∈ entry.1.toList →
      entry.1.toList.length = 1 := forall_mem_stops.mpr (by decide)
  exact fun table htable => ofFixed?_stop hcs (hshort stop h table htable)

/-- A lexeme is the same in front of such a character, if this is so for node tests. -/
theorem lexemeAt_stop (h : stop ∈ stops) (hcs : cs ≠ [])
    (htest : ofFixed? (cs ++ stop :: rest) nodeTests = ofFixed? cs nodeTests)
    (hinstruction : instructionTest? (cs ++ stop :: rest) = instructionTest? cs)
    (hlexeme : lexemeAt b cs = .ok lexeme) : lexemeAt b (cs ++ stop :: rest) = .ok lexeme := by
  have hfixed := ofFixed?_fixedTables h hcs rest
  simp only [fixedTables, List.forall_mem_cons, List.not_mem_nil, false_imp_iff, implies_true,
    and_true] at hfixed
  obtain ⟨hsymbols, hpoint, hwords, haxes⟩ := hfixed
  unfold lexemeAt at hlexeme ⊢
  rw [hsymbols]
  split at hlexeme
  · exact hlexeme
  obtain ⟨c, tail, rfl⟩ := List.exists_cons_of_ne_nil hcs
  split at hlexeme
  case h_1 heq | h_2 heq =>
    cases heq
    split at hlexeme
    · next hquoted =>
      rw [quoted?_append hquoted]
      exact hlexeme
    · cases hlexeme
  case h_3 heq =>
    cases heq
    rw [List.cons_append]
    simp only [leadingQName?_stop h]
    exact hlexeme
  case h_4 hsingle hdouble hdollar =>
    split
    · next heq =>
      cases heq
      exact absurd rfl (hsingle tail)
    · next heq =>
      cases heq
      exact absurd rfl (hdouble tail)
    · next heq =>
      cases heq
      exact absurd rfl (hdollar tail)
    · rw [number?_stop h, hpoint, hwords, haxes, htest, hinstruction, function?_stop h,
        nameTest?_stop h hcs]
      exact hlexeme

/-! ## Node tests -/

theorem ofTextFrom_lexeme {c : Char} (hblank : Text.isXmlBlank c = false)
    (h : lexemeAt b (c :: cs) = .ok lexeme) : ofTextFrom b 0 (c :: cs) =
      ⟨lexeme.tokens ++ (ofTextFrom lexeme.operatorNext 0 (cs.drop (lexeme.width - 1))).tokens,
        (ofTextFrom lexeme.operatorNext 0 (cs.drop (lexeme.width - 1))).error⟩ := by
  rw [TokenStream.ofTextFrom, hblank, if_neg Bool.false_ne_true, h]
  simp only
  rw [ofTextFrom_skip]

/-- A node test that is over behind the text makes the text end with an opening parenthesis. -/
theorem ofFixed?_nodeTests_paren (h : endsOpen (ofTextFrom b 0 cs).tokens = false) :
    ofFixed? (cs ++ ')' :: rest) nodeTests = ofFixed? cs nodeTests := by
  have hopen : ∀ entry ∈ nodeTests, entry.1.toList = entry.1.toList.dropLast ++ [')'] ∧
      ')' ∉ entry.1.toList.dropLast ∧
        ∀ b, endsOpen (ofTextFrom b 0 entry.1.toList.dropLast).tokens = true := by decide +kernel
  refine ofFixed?_append fun entry hentry hprefix => ?_
  obtain ⟨htext, hparen, hends⟩ := hopen entry hentry
  generalize entry.1.toList.dropLast = start at *
  rw [htext] at hprefix ⊢
  have hstart := (List.prefix_append start [')']).trans hprefix
  obtain ⟨behind, rfl⟩ := (Text.prefix_or_mem_of_prefix_append hstart).resolve_right hparen
  cases behind with
  | nil =>
    rw [List.append_nil, hends b] at h
    cases h
  | cons d behind =>
    rw [List.append_assoc, List.prefix_append_right_inj] at hprefix
    obtain ⟨rfl, -⟩ := List.cons_prefix_cons.mp hprefix
    rw [List.prefix_append_right_inj]
    exact List.cons_prefix_cons.mpr ⟨rfl, List.nil_prefix⟩

/-- The start of a test for processing instructions with a target. -/
def instructionStart : List Char := "processing-instruction(".toList

/-- Where a target does not end the test, the test is cut like a call. -/
theorem ofTextFrom_instructionStart {quote : Char} (hquote : quote = '\'' ∨ quote = '"')
    (h : instructionTest? (instructionStart ++ quote :: cs) = none) :
    ∃ token, ofTextFrom b 0 (instructionStart ++ quote :: cs) =
      ⟨token :: .leftParen :: (ofTextFrom false 0 (quote :: cs)).tokens,
        (ofTextFrom false 0 (quote :: cs)).error⟩ := by
  have hstop : quote ∈ stops := by rcases hquote with rfl | rfl <;> decide
  have hstart : instructionStart ≠ [] := by decide
  have htests : ∀ entry ∈ nodeTests, quote ∉ entry.1.toList := by
    rcases hquote with rfl | rfl <;> decide
  have htest : ofFixed? (instructionStart ++ quote :: cs) nodeTests =
      ofFixed? instructionStart nodeTests := ofFixed?_stop hstart fun entry hentry hmem =>
    absurd hmem (htests entry hentry)
  have halone : lexemeAt b instructionStart =
      .ok ⟨[.function ⟨none, "processing-instruction"⟩], 22, true⟩ := by cases b <;> rfl
  have hfunction := lexemeAt_stop hstop hstart htest (h.trans rfl) halone
  have hparen : lexemeAt true ('(' :: quote :: cs) = .ok ⟨[.leftParen], 1, false⟩ := rfl
  have htext : ofTextFrom b 0 (instructionStart ++ quote :: cs) =
      ⟨[.function ⟨none, "processing-instruction"⟩] ++
        (ofTextFrom true 0 ('(' :: quote :: cs)).tokens,
          (ofTextFrom true 0 ('(' :: quote :: cs)).error⟩ := ofTextFrom_lexeme rfl hfunction
  refine ⟨.function ⟨none, "processing-instruction"⟩, ?_⟩
  rw [htext, ofTextFrom_lexeme rfl hparen]
  rfl

theorem instructionTest?_of_none (h : quoted? cs = none) :
    instructionTest? (instructionStart ++ cs) = none := by
  unfold instructionTest? instructionStart
  dsimp only
  rw [if_pos (List.isPrefixOf_iff_prefix.mpr (List.prefix_append _ _)), List.drop_left, h]

theorem instructionTest?_of_quoted {target behind : List Char} {value : String}
    (h : quoted? (target ++ behind) = some (value, target.length)) :
    instructionTest? (instructionStart ++ (target ++ behind)) =
      if behind.head? = some ')' then some ⟨[.nodeTest (.instruction (some value))],
        instructionStart.length + target.length + 1, true⟩ else none := by
  have hahead : (instructionStart ++ (target ++ behind))[instructionStart.length + target.length]? =
      behind.head? := by
    rw [← List.append_assoc, ← List.length_append, List.getElem?_append_right (Nat.le_refl _),
      Nat.sub_self, List.head?_eq_getElem?]
  unfold instructionTest? instructionStart at *
  dsimp only
  rw [if_pos (List.isPrefixOf_iff_prefix.mpr (List.prefix_append _ _)), List.drop_left, h]
  simp only [hahead]

theorem lexemeAt_quote {quote : Char} (b : Bool) (cs : List Char)
    (hquote : quote = '\'' ∨ quote = '"') :
    lexemeAt b (quote :: cs) = match quoted? (quote :: cs) with
      | some (value, width) => .ok ⟨[.literal value], width, true⟩
      | none => .error .mismatchedQuotes := by
  rcases hquote with rfl | rfl <;> rfl

theorem not_isXmlBlank_of_quote {quote : Char} (hquote : quote = '\'' ∨ quote = '"') :
    Text.isXmlBlank quote = false := by
  rcases hquote with rfl | rfl <;> rfl

/-- A quote that does not come again cannot be cut. -/
theorem quoted?_ne_none {tail : List Char}
    (herror : (ofTextFrom b 0 (instructionStart ++ tail)).error = none)
    (hquote : tail.head? = some '\'' ∨ tail.head? = some '"') : quoted? tail ≠ none := by
  intro hnone
  cases tail with
  | nil => simp at hquote
  | cons quote tail =>
    simp only [List.head?_cons, Option.some.injEq] at hquote
    have hlexeme := lexemeAt_quote false tail hquote
    rw [hnone] at hlexeme
    obtain ⟨token, htext⟩ := ofTextFrom_instructionStart (b := b) hquote
      (instructionTest?_of_none hnone)
    rw [htext, TokenStream.ofTextFrom, not_isXmlBlank_of_quote hquote, hlexeme] at herror
    cases herror

/-- A target at the end is a literal behind an opening parenthesis. -/
theorem endsOpen_instruction {quote : Char} {value : List Char}
    (hquote : quote = '\'' ∨ quote = '"') (hvalue : quote ∉ value) :
    endsOpen (ofTextFrom b 0 (instructionStart ++ quote :: (value ++ [quote]))).tokens = true := by
  have hindex : quoted? (quote :: (value ++ [quote])) =
      some (String.ofList value, value.length + 2) := by
    rw [quoted?, if_pos (by simpa using hquote), idxOf?_append hvalue, Option.map_some,
      List.take_left' rfl]
  have htest : instructionTest? (instructionStart ++ quote :: (value ++ [quote])) = none := by
    rw [← List.append_nil (quote :: (value ++ [quote]))] at hindex ⊢
    have hwidth : value.length + 2 = (quote :: (value ++ [quote])).length := by simp
    rw [hwidth] at hindex
    exact instructionTest?_of_quoted hindex
  obtain ⟨token, htext⟩ := ofTextFrom_instructionStart (b := b) hquote htest
  have hlexeme := lexemeAt_quote false (value ++ [quote]) hquote
  rw [hindex] at hlexeme
  have hrest : (value ++ [quote]).drop (value.length + 2 - 1) = [] := by simp
  rw [htext, ofTextFrom_lexeme (not_isXmlBlank_of_quote hquote) hlexeme, hrest]
  rfl

/-- A test with a target that is over behind the text makes the text end with an opening parenthesis
and a literal. -/
theorem instructionTest?_paren (herror : (ofTextFrom b 0 cs).error = none)
    (h : endsOpen (ofTextFrom b 0 cs).tokens = false) :
    instructionTest? (cs ++ ')' :: rest) = instructionTest? cs := by
  by_cases hstart : instructionStart <+: cs
  · obtain ⟨tail, rfl⟩ := hstart
    rw [List.append_assoc]
    cases hquoted : quoted? tail with
    | none =>
      have hlater : quoted? (tail ++ ')' :: rest) = none := by
        cases tail with
        | nil => rfl
        | cons c tail =>
          refine if_neg fun hc => ?_
          rw [Bool.or_eq_true, decide_eq_true_eq, decide_eq_true_eq] at hc
          exact quoted?_ne_none herror (by simpa using hc) hquoted
      rw [instructionTest?_of_none hquoted, instructionTest?_of_none hlater]
    | some found =>
      obtain ⟨text, width⟩ := found
      obtain ⟨quote, value, behind, hquote, hvalue, rfl, rfl, rfl⟩ := quoted?_eq_some hquoted
      have hsplit : quote :: (value ++ quote :: behind) =
          (quote :: (value ++ [quote])) ++ behind := by simp
      have hwidth : value.length + 2 = (quote :: (value ++ [quote])).length := by simp
      rw [hsplit, hwidth] at hquoted
      cases behind with
      | nil =>
        rw [endsOpen_instruction hquote hvalue] at h
        cases h
      | cons d behind =>
        have hlater := @quoted?_append _ (')' :: rest) _ _ hquoted
        rw [List.append_assoc] at hlater
        rw [hsplit, List.append_assoc, instructionTest?_of_quoted hquoted,
          instructionTest?_of_quoted hlater]
        rfl
  · have hparen : ')' ∉ instructionStart := by decide
    have hlonger : ¬ instructionStart <+: cs ++ ')' :: rest := fun hprefix =>
      hstart ((Text.prefix_or_mem_of_prefix_append hprefix).resolve_right hparen)
    rw [← List.isPrefixOf_iff_prefix] at hstart hlonger
    exact (if_neg hlonger).trans (if_neg hstart).symm

/-! ## Texts -/

theorem width_le_of_lexemeAt {c : Char} (h : lexemeAt b (c :: cs) = .ok lexeme) :
    lexeme.width - 1 ≤ cs.length := by
  obtain ⟨text, behind, hcs, hwidth, _⟩ := cuts_of_lexemeAt h
  have hlength := congrArg List.length hcs
  rw [List.length_cons, List.length_append] at hlength
  omega

/-- In front of a closing parenthesis a text is cut into the same tokens as alone. -/
theorem ofTextFrom_paren (herror : (ofTextFrom b 0 cs).error = none)
    (h : endsOpen (ofTextFrom b 0 cs).tokens = false) :
    ofTextFrom b 0 (cs ++ ')' :: rest) =
      ⟨(ofTextFrom b 0 cs).tokens ++ .rightParen :: (ofTextFrom true 0 rest).tokens,
        (ofTextFrom true 0 rest).error⟩ := by
  induction hn : cs.length using Nat.strongRecOn generalizing b cs with
  | ind n ih =>
  subst hn
  cases cs with
  | nil =>
    have hparen : lexemeAt b (')' :: rest) = .ok ⟨[.rightParen], 1, true⟩ := rfl
    exact ofTextFrom_lexeme rfl hparen
  | cons c cs =>
    cases hblank : Text.isXmlBlank c with
    | true =>
      rw [TokenStream.ofTextFrom, hblank, if_pos rfl] at herror h
      rw [List.cons_append, TokenStream.ofTextFrom, TokenStream.ofTextFrom, hblank, if_pos rfl,
        if_pos rfl]
      exact ih _ (Nat.lt_succ_self _) herror h rfl
    | false =>
      cases hlexeme : lexemeAt b (c :: cs) with
      | error e =>
        rw [TokenStream.ofTextFrom, hblank, if_neg Bool.false_ne_true, hlexeme] at herror
        cases herror
      | ok lexeme =>
        have hlater : lexemeAt b (c :: cs ++ ')' :: rest) = .ok lexeme :=
          lexemeAt_stop (by decide) (List.cons_ne_nil c cs) (ofFixed?_nodeTests_paren h)
            (instructionTest?_paren herror h) hlexeme
        rw [ofTextFrom_lexeme hblank hlexeme] at herror h ⊢
        rw [List.cons_append] at hlater ⊢
        rw [ofTextFrom_lexeme hblank hlater,
          List.drop_append_of_le_length (width_le_of_lexemeAt hlexeme)]
        have hopen : endsOpen (ofTextFrom lexeme.operatorNext 0
            (cs.drop (lexeme.width - 1))).tokens = false := by
          rw [Bool.eq_false_iff] at h ⊢
          exact fun hopen => h (endsOpen_append hopen)
        have hlt : (cs.drop (lexeme.width - 1)).length < (c :: cs).length := by
          rw [List.length_drop, List.length_cons]
          omega
        rw [ih _ hlt herror hopen rfl, List.append_assoc]

end XPathBench.XPath
