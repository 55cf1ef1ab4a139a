import XPathBench.Proofs.Actions
import XPathBench.Proofs.Xml.Pieces
import XPathBench.Xml.Parse

/-!
# Reading a document piece by piece

The document that a text denotes is described without fuel and without complaints: a text is read
from a region and a document in the making to another region and another document in the making.

* `Reads`: some pieces are read, and each of them is added
* `assemble_eq_ok_iff`: the texts that denote a document
* `Assembly.putAll`: several complete nodes are added
-/

namespace XPathBench.Xml

open Reader Grammar

variable {t u v : List Char} {r r' r'' : Region} {a a' a'' : Assembly}

/-! ## Every piece takes a character -/

theorem takes_tagBracket : tagBracket.Takes 1 := by
  intro t x u h
  obtain ⟨n, hn, rfl⟩ := finds_leading.mp h
  split at hn
  · cases hn
  · cases hn
  · cases hn
  · cases hn
    simp
  · cases hn

theorem takes_startTag : startTag.Takes 1 :=
  (takes_tagBracket.bind fun _ => takes_place.bind fun _ => takes_leading.bind fun _ =>
    (takes_untilEnd (takes_tagStep.weaken (Nat.zero_le _))).bind fun _ => takes_pure).weaken
      (Nat.le_refl 1)

theorem takes_endTag : endTag.Takes 1 :=
  (takes_literalAs.bind fun _ => takes_place.bind fun _ => takes_leading.bind fun _ =>
    takes_spaces.bind fun _ => takes_literalAs.bind fun _ => takes_pure).weaken (by decide)

theorem takes_checkedInstruction : checkedInstruction.Takes 1 := by
  intro t token u h
  refine Takes.weaken (k := 2 + (0 + (0 + (2 + 0)))) ?_ (by decide) t token u
    (finds_checkedInstruction.mp h).1
  refine takes_literalAs.bind fun _ => takes_leading.bind fun _ => Takes.bind ?_ fun _ =>
    takes_literalAs.bind fun _ => takes_pure
  exact Takes.optional ((takes_space.weaken (Nat.zero_le _)).bind fun _ => takes_leading)

theorem takes_commentToken : commentToken.Takes 1 :=
  (takes_literalAs.bind fun _ => takes_leading.bind fun _ => takes_literalAs.bind fun _ =>
    takes_pure).weaken (by decide)

theorem takes_blanks : blanks.Takes 1 := takes_space.bind fun _ => takes_pure

theorem takes_literal {s : String} : (literal s).Takes 0 := takes_literalAs.weaken (Nat.zero_le _)

theorem takes_equals : equals.Takes 0 :=
  takes_spaces.bind fun _ => takes_literal.bind fun _ => takes_spaces

theorem takes_quoted {α : Type} {inner : Char → Reader α} (h : ∀ quote, (inner quote).Takes 0) :
    (quoted inner).Takes 0 := by
  have hby (quote : Char) : (quotedBy quote inner).Takes 0 :=
    (takes_literalAs.weaken (Nat.zero_le _)).bind fun _ => (h quote).bind fun _ =>
      (takes_literalAs.weaken (Nat.zero_le _)).bind fun _ => takes_pure
  exact (hby _).or (hby _)

/-- A remark in the XML declaration: a word, an equals sign and something quoted. -/
theorem takes_remark {α : Type} {word : String} {inner : Char → Reader α}
    (h : ∀ quote, (inner quote).Takes 0) :
    (do space; literal word; equals; quoted inner : Reader α).Takes 0 :=
  (takes_space.weaken (Nat.zero_le _)).bind fun _ => takes_literal.bind fun _ =>
    takes_equals.bind fun _ => takes_quoted h

theorem takes_xmlDeclaration : xmlDeclaration.Takes 1 := by
  refine Takes.weaken (k := 5 + (0 + (0 + (0 + (0 + (0 + 0)))))) ?_ (by decide)
  refine takes_literalAs.bind fun _ => Takes.bind ?_ fun _ => Takes.bind ?_ fun _ =>
    Takes.bind ?_ fun _ => takes_spaces.bind fun _ => takes_literal.bind fun _ => takes_pure
  · refine takes_remark fun _ => Takes.bind (j := 0) (k := 0) ?_ fun _ => ?_
    · exact takes_literalAs.weaken (Nat.zero_le _)
    · exact (takes_run.weaken (Nat.zero_le _)).discard
  · exact (takes_remark fun _ => takes_leading).optional.discard
  · exact (takes_remark fun _ => takes_leading).optional.discard

theorem takes_doctypeDeclaration : doctypeDeclaration.Takes 1 := by
  refine Takes.weaken (k := 9 + (0 + (0 + (0 + (0 + (0 + (0 + 0))))))) ?_ (by decide)
  refine takes_literalAs.bind fun _ => (takes_space.weaken (Nat.zero_le _)).bind fun _ =>
    Takes.bind ?_ fun _ => Takes.bind ?_ fun _ => takes_spaces.bind fun _ => Takes.bind ?_ fun _ =>
      takes_literal.bind fun _ => takes_pure
  · exact takes_leading.discard
  · refine Takes.discard (Takes.optional ?_)
    refine Takes.weaken (k := 1 + (0 + (1 + 0))) ?_ (by decide)
    refine takes_space.bind fun _ => takes_literal.bind fun _ => takes_space.bind fun _ => ?_
    exact (takes_quoted fun _ => takes_run.weaken (Nat.zero_le _)).discard
  · refine Takes.discard (Takes.optional ?_)
    exact takes_literal.bind fun _ => takes_spaces.bind fun _ => takes_leading.discard.bind fun _ =>
      takes_spaces.bind fun _ => takes_literal.bind fun _ => takes_spaces

theorem takes_characters : characters.Takes 1 := takes_run.bind fun _ => takes_pure

theorem takes_cdataSection : cdataSection.Takes 1 :=
  (takes_literalAs.bind fun _ => takes_leading.bind fun _ => takes_literal.bind fun _ =>
    takes_pure).weaken (by decide)

theorem takes_contentReference : contentReference.Takes 1 :=
  takes_referenceValue.bind fun _ => takes_pure

theorem takes_pieceIn : (pieceIn r).Takes 1 := by
  cases r with
  | beginning =>
    exact takes_xmlDeclaration.or <| takes_startTag.or <| takes_blanks.or <|
      takes_commentToken.or takes_checkedInstruction
  | prolog =>
    exact takes_doctypeDeclaration.or <| takes_startTag.or <| takes_blanks.or <|
      takes_commentToken.or takes_checkedInstruction
  | content depth =>
    exact takes_startTag.or <| takes_endTag.or <| takes_characters.or <| takes_cdataSection.or <|
      takes_contentReference.or <| takes_commentToken.or takes_checkedInstruction
  | epilog => exact takes_commentToken.or <| takes_checkedInstruction.or takes_blanks

/-! ## Reading on -/

/-- From a region and a document in the making, some pieces of the text `t` are read and added. -/
inductive Reads : Region → Assembly → List Char → Region → Assembly → List Char → Prop where
  | refl {r : Region} {a : Assembly} {t : List Char} : Reads r a t r a t
  | step {r r' : Region} {a b a' : Assembly} {t u v : List Char} {token : Token} :
      (pieceIn r).Finds t token u → a.add token = .ok b → Reads (r.after token) b u r' a' v →
      Reads r a t r' a' v

theorem Reads.next {token : Token} (h : (pieceIn r).Finds t token u)
    (hadd : a.add token = .ok a') (hr : r.after token = r') (h' : Reads r' a' u r'' a'' v) :
    Reads r a t r'' a'' v := .step h hadd (hr ▸ h')

theorem Reads.single {token : Token} (h : (pieceIn r).Finds t token u)
    (hadd : a.add token = .ok a') (hr : r.after token = r') : Reads r a t r' a' u :=
  .next h hadd hr .refl

theorem Reads.trans (h : Reads r a t r' a' u) (h' : Reads r' a' u r'' a'' v) :
    Reads r a t r'' a'' v := by
  induction h with
  | refl => exact h'
  | step hpiece hadd _ ih => exact .step hpiece hadd (ih h')

theorem scanFrom_end {n : Nat} {tried : Furthest} (hr : r.mayEnd = true) :
    Token.scanFrom (n + 1) r (.of []) tried = ([], .complete) := by
  simp [Token.scanFrom, hr]

theorem scanFrom_found (n : Nat) (tried : Furthest) {token : Token} (ht : t ≠ [])
    (h : (pieceIn r).Finds t token u) : ∃ tried',
      Token.scanFrom (n + 1) r (.of t) tried =
        (token :: (Token.scanFrom n (r.after token) (.of u) tried').1,
          (Token.scanFrom n (r.after token) (.of u) tried').2) := by
  obtain ⟨tried', h⟩ := h
  refine ⟨tried.join tried', ?_⟩
  have hempty : (Cursor.of t).rest.isEmpty = false := by simpa using ht
  simp only [Token.scanFrom, hempty, Bool.and_false, Bool.false_eq_true, if_false, h]

/-- The pieces up to the end of the text, added one after the other, are read. -/
theorem reads_of_scanFrom {n : Nat} {tried : Furthest} {tokens : List Token} {last : Assembly}
    (hscan : Token.scanFrom n r (.of t) tried = (tokens, .complete))
    (hfold : tokens.foldlM Assembly.add a = .ok last) :
    ∃ r', Reads r a t r' last [] ∧ r'.mayEnd = true := by
  induction n generalizing r a t tried tokens with
  | zero => cases hscan
  | succ n ih =>
    rw [Token.scanFrom] at hscan
    split at hscan
    · next hend =>
      obtain ⟨hr, hempty⟩ := Bool.and_eq_true_iff.mp hend
      obtain rfl : t = [] := List.isEmpty_iff.mp hempty
      cases hscan
      cases hfold
      exact ⟨r, .refl, hr⟩
    · split at hscan
      · split at hscan <;> cases hscan
      · next token next tried' hpiece =>
        rw [← Cursor.of_rest next] at hpiece hscan
        obtain ⟨rfl, hending⟩ := Prod.mk.inj hscan
        obtain ⟨b, hadd, hfold⟩ := bind_eq_ok.mp hfold
        obtain ⟨r', hreads, hr'⟩ := ih (Prod.ext rfl hending) hfold
        exact ⟨r', .step ⟨_, hpiece⟩ hadd hreads, hr'⟩

/-- What is read up to the end of the text are its pieces. -/
theorem Reads.exists_scanFrom {n : Nat} (h : Reads r a t r' a' []) (hr' : r'.mayEnd = true)
    (hn : t.length < n) (tried : Furthest) : ∃ tokens,
      Token.scanFrom n r (.of t) tried = (tokens, .complete) ∧
        tokens.foldlM Assembly.add a = .ok a' := by
  generalize hend : ([] : List Char) = v at h
  induction h generalizing n tried with
  | refl =>
    subst hend
    obtain ⟨n, rfl⟩ := Nat.exists_eq_succ_of_ne_zero (Nat.ne_of_gt hn)
    exact ⟨[], scanFrom_end hr', rfl⟩
  | step hpiece hadd _ ih =>
    have hlt := takes_pieceIn _ _ _ hpiece
    have ht := List.ne_nil_of_length_pos (Nat.zero_lt_of_lt hlt)
    obtain ⟨n, rfl⟩ := Nat.exists_eq_succ_of_ne_zero (Nat.ne_zero_of_lt hn)
    obtain ⟨tried', hscan⟩ := scanFrom_found n tried ht hpiece
    have hrest := Nat.lt_of_lt_of_le hlt (Nat.le_of_lt_succ hn)
    obtain ⟨tokens, hlater, hfold⟩ := ih hr' hrest tried' hend
    rw [hlater] at hscan
    exact ⟨_, hscan, bind_eq_ok.mpr ⟨_, hadd, hfold⟩⟩

/-- The texts that denote a document. -/
theorem assemble_eq_ok_iff {text : String} {d : Document} :
    Document.assemble text = .ok d ↔ ∃ r nodes, r.mayEnd = true ∧ d = ⟨nodes.reverse⟩ ∧
      Reads .beginning Assembly.empty text.toList r ⟨[], nodes⟩ [] := by
  rw [Document.assemble, Token.scan]
  constructor
  · intro h
    cases hscan : Token.scanFrom (text.toList.length + 1) .beginning (.of text.toList) .none with
    | mk tokens ending =>
      rw [hscan] at h
      simp only [Document.ofTokens] at h
      split at h
      · cases h
      · cases h
      · next nodes hfold =>
        cases h
        obtain ⟨r, hreads, hr⟩ := reads_of_scanFrom hscan hfold
        exact ⟨r, nodes, hr, rfl, hreads⟩
      · cases h
  · rintro ⟨r, nodes, hr, rfl, hreads⟩
    obtain ⟨tokens, hscan, hfold⟩ := hreads.exists_scanFrom hr (Nat.lt_succ_self _) .none
    simp only [hscan, Document.ofTokens, hfold]

/-! ## Nodes added one after the other -/

namespace Assembly

/-- Complete nodes, put one after the other. -/
def putAll (a : Assembly) (nodes : List Node) : Assembly := nodes.foldl (fun a n => a.put n) a

@[simp] theorem putAll_cons {n : Node} {nodes : List Node} :
    a.putAll (n :: nodes) = (a.put n).putAll nodes := rfl

theorem putAll_append {nodes more : List Node} :
    a.putAll (nodes ++ more) = (a.putAll nodes).putAll more := List.foldl_append

/-- At top level nodes are complete at once. -/
theorem putAll_outside {complete nodes : List Node} :
    putAll ⟨[], complete⟩ nodes = ⟨[], nodes.reverse ++ complete⟩ := by
  induction nodes generalizing complete with
  | nil => rfl
  | cons n nodes ih =>
    rw [putAll_cons, put, ih, List.reverse_cons, List.append_assoc, List.singleton_append]

/-- In an open element nodes become its children. -/
theorem putAll_inside {e : OpenElement} {outer : List OpenElement} {complete nodes : List Node} :
    putAll ⟨e :: outer, complete⟩ nodes =
      ⟨{ e with children := nodes.reverse ++ e.children } :: outer, complete⟩ := by
  induction nodes generalizing e with
  | nil => rfl
  | cons n nodes ih =>
    rw [putAll_cons, put, ih, List.reverse_cons, List.append_assoc, List.singleton_append]

/-- An element that has got its nodes is closed. -/
theorem close_putAll {e : OpenElement} {nodes : List Node} {place : Nat} (h : e.children = []) :
    (putAll ⟨e :: a.enclosing, a.complete⟩ nodes).close e.written place =
      .ok (a.put (.element e.tag nodes)) := by
  rw [putAll_inside, close, if_pos rfl, h, List.append_nil, List.reverse_reverse]

end Assembly

end XPathBench.Xml
