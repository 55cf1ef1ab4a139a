import XPathBench.Proofs.Xml.Tags

/-!
# Pieces of documents

What the pieces of a document look like where they may stand: start and end tags, comments,
processing instructions, character data and blanks are read in every region that admits them, and
each piece that is read is well formed.

* `IsCommentText`, `IsInstruction`: the texts that comments and processing instructions can hold
* `finds_pieceIn_startTag` and its likes: pieces are read where they may stand
* `Token.StandsIn`: the pieces that can come out of a text in a region
-/

namespace XPathBench.Xml

open Reader Grammar

variable {α : Type} {t u v w rest : List Char} {r : Region}

/-- A text that a comment can hold. -/
def IsCommentText (s : String) : Prop :=
  Text.before? "--".toList (s.toList ++ "-->".toList) = some s.toList

/-- A target and a value that a processing instruction can have. -/
structure IsInstruction (target : String) (value : Option String) : Prop where
  isName : IsName target
  not_xml : target.toLower ≠ "xml"
  value_start : ∀ v ∈ value, NotAhead Text.isXmlBlank v.toList
  value_end : ∀ v ∈ value, Text.before? "?>".toList (v.toList ++ "?>".toList) = some v.toList

/-! ## Comments -/

theorem finds_commentToken {token : Token} :
    commentToken.Finds t token u ↔
      ∃ s, token = .comment s ∧ IsCommentText s ∧
        t = "<!--".toList ++ (s.toList ++ ("-->".toList ++ u)) := by
  have close : "--".toList <+: "-->".toList := by decide
  constructor
  · intro h
    obtain ⟨_, t₁, hopen, h⟩ := finds_bind.mp h
    obtain ⟨s, t₂, htext, h⟩ := finds_bind.mp h
    obtain ⟨_, t₃, hclose, h⟩ := finds_bind.mp h
    obtain ⟨rfl, rfl⟩ := finds_pure.mp h
    obtain rfl := finds_literal.mp hclose
    obtain ⟨hs, rfl⟩ := finds_upTo.mp htext
    obtain rfl := finds_literalAs.mp hopen
    rw [← List.append_assoc, Text.before?_append_iff close] at hs
    exact ⟨s, rfl, hs, rfl⟩
  · rintro ⟨s, rfl, hs, rfl⟩
    refine finds_bind.mpr ⟨(), _, finds_literalAs.mpr rfl, ?_⟩
    refine finds_bind.mpr ⟨s, "-->".toList ++ u, finds_upTo.mpr ⟨?_, rfl⟩, ?_⟩
    · rw [← List.append_assoc, Text.before?_append_iff close]
      exact hs
    · exact finds_bind.mpr ⟨(), u, finds_literal.mpr rfl, finds_pure.mpr ⟨rfl, rfl⟩⟩

theorem commentMarkup_toList {s : String} :
    (commentMarkup s).toList = "<!--".toList ++ (s.toList ++ "-->".toList) := by
  simp [commentMarkup]

/-! ## Processing instructions -/

theorem finds_instructionValue {s : String} :
    instructionValue.Finds t s u ↔ ¬ NotAhead Text.isXmlBlank t ∧
      Text.before? "?>".toList (t.dropWhile Text.isXmlBlank) = some s.toList ∧
      t.dropWhile Text.isXmlBlank = s.toList ++ u := by
  rw [instructionValue, finds_bind]
  simp only [finds_space, finds_upTo]
  constructor
  · rintro ⟨_, _, ⟨h, rfl⟩, hs⟩
    exact ⟨h, hs⟩
  · rintro ⟨h, hs⟩
    exact ⟨(), _, ⟨h, rfl⟩, hs⟩

theorem proper_of_instructionToken {token : Token} (h : instructionToken.Finds t token u) :
    ∃ target value, token = .instruction target value ∧
      (target.toLower ≠ "xml" → IsInstruction target value) := by
  obtain ⟨_, t, _, h⟩ := finds_bind.mp h
  obtain ⟨target, t', htarget, h⟩ := finds_bind.mp h
  obtain ⟨value, u', hvalue, h⟩ := finds_bind.mp h
  obtain ⟨_, u'', hclose, h⟩ := finds_bind.mp h
  obtain ⟨rfl, rfl⟩ := finds_pure.mp h
  obtain rfl := finds_literal.mp hclose
  refine ⟨target, value, rfl, fun hxml => ⟨(leadingRun?_eq_some (finds_name.mp htarget).1).1,
    hxml, fun v hv => ?_, fun v hv => ?_⟩⟩
  all_goals
    obtain rfl := hv
    rcases finds_optional.mp hvalue with ⟨v', hv', hfinds⟩ | ⟨hv', _⟩
    swap
    · cases hv'
    cases hv'
    obtain ⟨_, hbefore, hsplit⟩ := finds_instructionValue.mp hfinds
  · intro c hc
    have hcut : NotAhead Text.isXmlBlank (t'.dropWhile Text.isXmlBlank) := notAhead_dropWhile
    refine hcut c ?_
    rw [hsplit, Option.mem_def, List.head?_append, Option.mem_def.mp hc]
    rfl
  · rw [hsplit, ← List.append_assoc, Text.before?_append_iff (by decide)] at hbefore
    exact hbefore

theorem finds_checkedInstruction {token : Token} :
    checkedInstruction.Finds t token u ↔ instructionToken.Finds t token u ∧
      ∀ target value, token = .instruction target value → target.toLower ≠ "xml" := by
  constructor
  · rintro ⟨tried, h⟩
    rw [checkedInstruction] at h
    split at h
    · next target value next tried' heq =>
      split at h
      · cases h
      · next hxml =>
        cases h
        exact ⟨⟨_, heq⟩, fun _ _ h => by cases h; exact hxml⟩
    · next hno => exact ⟨⟨_, h⟩, fun _ _ heq => absurd (heq ▸ h) (hno _ _ _ _)⟩
  · rintro ⟨⟨tried, h⟩, hxml⟩
    obtain ⟨target, value, rfl, _⟩ := proper_of_instructionToken ⟨tried, h⟩
    refine ⟨tried, ?_⟩
    rw [checkedInstruction, h]
    simp [hxml target value rfl]

theorem instructionMarkup_toList {target : String} {value : Option String} :
    (instructionMarkup target value).toList =
      "<?".toList ++ (target.toList ++ ((value.elim [] fun v => ' ' :: v.toList) ++
        "?>".toList)) := by
  cases value <;> simp [instructionMarkup]

theorem finds_instruction {target : String} {value : Option String} (rest : List Char)
    (h : IsInstruction target value) :
    checkedInstruction.Finds ((instructionMarkup target value).toList ++ rest)
      (.instruction target value) rest := by
  refine finds_checkedInstruction.mpr ⟨?_, fun _ _ heq => by cases heq; exact h.not_xml⟩
  have close : NotAhead Text.isXmlBlank ("?>".toList ++ rest) := notAhead_cons.mpr (by decide)
  rw [instructionMarkup_toList]
  refine finds_bind.mpr ⟨(), target.toList ++ ((value.elim [] fun v => ' ' :: v.toList) ++
    ("?>".toList ++ rest)), finds_literalAs.mpr (by simp), ?_⟩
  refine finds_bind.mpr ⟨target, _, finds_name_append h.isName ?_, ?_⟩
  · cases value <;> exact notAhead_cons.mpr (by decide)
  refine finds_bind.mpr ⟨value, "?>".toList ++ rest, finds_optional.mpr ?_, ?_⟩
  · cases value with
    | none =>
      exact .inr ⟨rfl, rfl, givesWay_bind.mpr (.inl (givesWay_space.mpr close))⟩
    | some v =>
      have hahead : NotAhead Text.isXmlBlank (v.toList ++ ("?>".toList ++ rest)) := by
        intro c hc
        rw [Option.mem_def, List.head?_append] at hc
        cases hv : v.toList.head? with
        | none => rw [hv] at hc; exact close c hc
        | some d => rw [hv] at hc; exact h.value_start v rfl c (hv.trans hc)
      have hdrop : (' ' :: v.toList ++ ("?>".toList ++ rest)).dropWhile Text.isXmlBlank =
          v.toList ++ ("?>".toList ++ rest) := by
        rw [List.cons_append, List.dropWhile_cons_of_pos (by decide),
          dropWhile_of_notAhead hahead]
      refine .inl ⟨v, rfl, finds_instructionValue.mpr ⟨?_, ?_, hdrop⟩⟩
      · exact fun h => absurd (notAhead_cons.mp h) (by decide)
      · show Text.before? _ ((' ' :: v.toList ++ ("?>".toList ++ rest)).dropWhile _) = _
        rw [hdrop, ← List.append_assoc, Text.before?_append_iff (by decide)]
        exact h.value_end v rfl
  · exact finds_bind.mpr ⟨(), rest, finds_literal.mpr rfl, finds_pure.mpr ⟨rfl, rfl⟩⟩

/-! ## Where a piece cannot stand -/

theorem givesWay_literal_bind {s : String} {c : Complaint} {k : Unit → Reader α}
    (h : ¬ s.toList <+: t) (hc : c.isFinal = false) : (literalAs c s >>= k).GivesWay t :=
  givesWay_bind.mpr (.inl (givesWay_literalAs.mpr ⟨h, hc⟩))

theorem givesWay_checkedInstruction (h : ¬ "<?".toList <+: t) : checkedInstruction.GivesWay t := by
  obtain ⟨fault, tried, hstuck, hfinal⟩ : instructionToken.GivesWay t := givesWay_literal_bind h rfl
  exact ⟨fault, tried, by rw [checkedInstruction, hstuck], hfinal⟩

theorem givesWay_startTag (h : ∀ c v, t = '<' :: c :: v → c = '?' ∨ c = '!' ∨ c = '/')
    (hlone : t ≠ ['<']) : startTag.GivesWay t := by
  refine givesWay_bind.mpr (.inl (givesWay_leading.mpr ⟨?_, rfl⟩))
  split
  · rfl
  · rfl
  · rfl
  · next v h1 h2 h3 =>
    cases v with
    | nil => exact absurd rfl hlone
    | cons c v =>
      rcases h c v rfl with rfl | rfl | rfl
      · exact absurd rfl (h1 v)
      · exact absurd rfl (h2 v)
      · exact absurd rfl (h3 v)
  · rfl

theorem givesWay_startTag_of_ne {c : Char} (h : c ≠ '<') : startTag.GivesWay (c :: t) :=
  givesWay_startTag (fun _ _ heq => absurd (List.cons.inj heq).1 h)
    fun heq => h (List.cons.inj heq).1

theorem givesWay_characters {c : Char} (h : c = '<' ∨ c = '&') :
    characters.GivesWay (c :: t) := by
  refine givesWay_bind.mpr (.inl (givesWay_run.mpr ⟨?_, rfl⟩))
  rcases h with rfl | rfl <;> rfl

theorem givesWay_blanks (h : NotAhead Text.isXmlBlank t) : blanks.GivesWay t :=
  givesWay_bind.mpr (.inl (givesWay_space.mpr h))

theorem givesWay_contentReference {c : Char} (h : c ≠ '&') : contentReference.GivesWay (c :: t) :=
  givesWay_bind.mpr (.inl (givesWay_referenceValue h))

/-! ## Markup where it may stand -/

theorem not_prefix_cons {c d : Char} {s : List Char} (h : c ≠ d) : ¬ c :: s <+: d :: t :=
  fun hp => h (List.cons_prefix_cons.mp hp).1

theorem not_prefix_second {b c d : Char} {s : List Char} (h : c ≠ d) :
    ¬ b :: c :: s <+: b :: d :: t :=
  fun hp => not_prefix_cons h (List.cons_prefix_cons.mp hp).2

theorem finds_pieceIn_startTag {c : Char} {token : Token} (hc : isNameStart c = true)
    (hr : r ≠ .epilog) (h : startTag.Finds ('<' :: c :: t) token u) :
    (pieceIn r).Finds ('<' :: c :: t) token u := by
  have hq : c ≠ '?' := by rintro rfl; revert hc; decide
  have hb : c ≠ '!' := by rintro rfl; revert hc; decide
  cases r with
  | beginning => exact GivesWay.next (givesWay_literal_bind (not_prefix_second hq.symm) rfl) h.first
  | prolog => exact GivesWay.next (givesWay_literal_bind (not_prefix_second hb.symm) rfl) h.first
  | content => exact h.first
  | epilog => exact absurd rfl hr

theorem finds_pieceIn_endTag {depth : Nat} {token : Token}
    (h : endTag.Finds ('<' :: '/' :: t) token u) :
    (pieceIn (.content depth)).Finds ('<' :: '/' :: t) token u :=
  (givesWay_startTag (fun _ _ heq => by cases heq; simp) (by simp)).next h.first

theorem finds_pieceIn_comment {s : String} (hs : IsCommentText s) :
    (pieceIn r).Finds ((commentMarkup s).toList ++ rest) (.comment s) rest := by
  have h : commentToken.Finds ((commentMarkup s).toList ++ rest) (.comment s) rest :=
    finds_commentToken.mpr ⟨s, rfl, hs, by rw [commentMarkup_toList]; simp⟩
  obtain ⟨v, hv⟩ : ∃ v, (commentMarkup s).toList ++ rest = '<' :: '!' :: '-' :: v :=
    ⟨_, by rw [commentMarkup_toList]; rfl⟩
  rw [hv] at h ⊢
  have htag : startTag.GivesWay ('<' :: '!' :: '-' :: v) :=
    givesWay_startTag (fun _ _ heq => by cases heq; simp) (by simp)
  have hblanks : blanks.GivesWay ('<' :: '!' :: '-' :: v) :=
    givesWay_blanks (notAhead_cons.mpr (by decide))
  have third {b : Char} {s : List Char} (hb : b ≠ '-') :
      ¬ '<' :: '!' :: b :: s <+: '<' :: '!' :: '-' :: v := fun hp =>
    not_prefix_second hb (List.cons_prefix_cons.mp hp).2
  cases r with
  | beginning =>
    exact GivesWay.next (givesWay_literal_bind (not_prefix_second (by decide)) rfl)
      (htag.next (hblanks.next h.first))
  | prolog =>
    exact GivesWay.next (givesWay_literal_bind (third (by decide)) rfl)
      (htag.next (hblanks.next h.first))
  | content =>
    refine htag.next (GivesWay.next ?_ ((givesWay_characters (.inl rfl)).next (GivesWay.next ?_
      ((givesWay_contentReference (by decide)).next h.first))))
    · exact givesWay_literal_bind (not_prefix_second (by decide)) rfl
    · exact givesWay_literal_bind (third (by decide)) rfl
  | epilog => exact h.first

theorem isXmlBlank_of_inName {c : Char} (h : (isNameChar c || c == ':') = true) :
    Text.isXmlBlank c = false := by
  rw [Bool.eq_false_iff]
  intro hblank
  have hnot := Text.of_isXmlBlank (p := fun c => (isNameChar c || c == ':') = false) (by decide)
    hblank
  rw [h] at hnot
  cases hnot

theorem IsName.inName {s : String} (h : IsName s) :
    ∀ c ∈ s.toList, (isNameChar c || c == ':') = true := by
  intro c hc
  rw [IsName, leadingName?] at h
  cases hs : s.toList with
  | nil => rw [hs] at hc; cases hc
  | cons d rest =>
    rw [hs] at h hc
    simp only [leadingRun?, Option.ite_none_right_eq_some, Option.some.injEq, List.cons.injEq,
      true_and, List.takeWhile_eq_self_iff] at h
    rcases List.mem_cons.mp hc with rfl | hc
    · have := h.1
      simp only [Bool.or_eq_true] at this
      rw [isNameChar, Bool.or_eq_true, Bool.or_eq_true]
      exact this.imp_left .inl
    · exact h.2 c hc

/-- The target of an instruction that starts with `xml` goes on with a character of a name. -/
theorem notAhead_blank_behind_xml {target : String} {value : Option String} {d : Char}
    (h : IsInstruction target value) (hd : (isNameChar d || d == ':') = false)
    (hp : "xml".toList <+: target.toList ++ d :: u) :
    NotAhead Text.isXmlBlank ((target.toList ++ d :: u).drop 3) := by
  rcases Text.prefix_or_mem_of_prefix_append hp with htarget | hmem
  · -- The target is not `xml` alone.
    obtain ⟨more, hmore⟩ := htarget
    rw [← hmore]
    cases more with
    | nil =>
      refine absurd ?_ h.not_xml
      rw [← String.toList_inj.mp (hmore.symm.trans (List.append_nil _)).symm]
      decide +kernel
    | cons c more =>
      refine notAhead_cons.mpr (isXmlBlank_of_inName (h.isName.inName c ?_))
      rw [← hmore]
      simp
  · have : d = 'x' ∨ d = 'm' ∨ d = 'l' := by simpa using hmem
    rcases this with rfl | rfl | rfl <;> exact absurd hd (by decide)

/-- The XML declaration needs a blank right behind `xml`, which no instruction target allows. -/
theorem givesWay_xmlDeclaration_instruction {target : String} {value : Option String}
    (rest : List Char) (h : IsInstruction target value) :
    xmlDeclaration.GivesWay ((instructionMarkup target value).toList ++ rest) := by
  obtain ⟨d, u, hd, hu⟩ : ∃ d u, (isNameChar d || d == ':') = false ∧
      (value.elim [] fun v => ' ' :: v.toList) ++ ("?>".toList ++ rest) = d :: u := by
    cases value with
    | none => exact ⟨'?', _, by decide, rfl⟩
    | some v => exact ⟨' ', _, by decide, rfl⟩
  have htext : (instructionMarkup target value).toList ++ rest =
      "<?".toList ++ (target.toList ++ d :: u) := by
    rw [← hu, instructionMarkup_toList]
    simp
  rw [htext, xmlDeclaration, givesWay_bind]
  by_cases hp : "xml".toList <+: target.toList ++ d :: u
  · refine .inr ⟨(), (target.toList ++ d :: u).drop 3, finds_literal.mpr ?_,
      givesWay_bind.mpr (.inl (givesWay_bind.mpr (.inl (givesWay_space.mpr ?_))))⟩
    · obtain ⟨w, hw⟩ := hp
      rw [← hw]
      rfl
    · exact notAhead_blank_behind_xml h hd hp
  · refine .inl (givesWay_literal.mpr fun hp' => hp ?_)
    exact (List.cons_prefix_cons.mp (List.cons_prefix_cons.mp hp').2).2

theorem finds_pieceIn_instruction {target : String} {value : Option String}
    (h : IsInstruction target value) :
    (pieceIn r).Finds ((instructionMarkup target value).toList ++ rest)
      (.instruction target value) rest := by
  have hdeclaration := givesWay_xmlDeclaration_instruction rest h
  have h := finds_instruction rest h
  obtain ⟨v, hv⟩ : ∃ v, (instructionMarkup target value).toList ++ rest = '<' :: '?' :: v :=
    ⟨_, by rw [instructionMarkup_toList]; rfl⟩
  rw [hv] at h hdeclaration ⊢
  have htag : startTag.GivesWay ('<' :: '?' :: v) :=
    givesWay_startTag (fun _ _ heq => by cases heq; simp) (by simp)
  have hblanks : blanks.GivesWay ('<' :: '?' :: v) :=
    givesWay_blanks (notAhead_cons.mpr (by decide))
  have hcomment : commentToken.GivesWay ('<' :: '?' :: v) :=
    givesWay_literal_bind (not_prefix_second (by decide)) rfl
  have second {b : Char} {s : List Char} (hb : b ≠ '?') : ¬ '<' :: b :: s <+: '<' :: '?' :: v :=
    not_prefix_second hb
  cases r with
  | beginning => exact hdeclaration.next (htag.next (hblanks.next (hcomment.next h)))
  | prolog =>
    exact GivesWay.next (givesWay_literal_bind (second (by decide)) rfl)
      (htag.next (hblanks.next (hcomment.next h)))
  | content =>
    refine htag.next (GivesWay.next ?_ ((givesWay_characters (.inl rfl)).next (GivesWay.next ?_
      ((givesWay_contentReference (by decide)).next (hcomment.next h)))))
    · exact givesWay_literal_bind (second (by decide)) rfl
    · exact givesWay_literal_bind (second (by decide)) rfl
  | epilog => exact hcomment.next h.first

/-! ## Character data -/

theorem givesWay_endTag {c : Char} (h : c ≠ '<') : endTag.GivesWay (c :: t) :=
  givesWay_literal_bind (not_prefix_cons h.symm) rfl

theorem runBefore_append_of_not {stop : List Char → Bool}
    (hw : ∀ v c v', w = v ++ c :: v' → stop (c :: v' ++ rest) = false)
    (hrest : runBefore stop rest = []) : runBefore stop (w ++ rest) = w := by
  induction w with
  | nil => exact hrest
  | cons c w ih =>
    rw [List.cons_append, runBefore, ← List.cons_append, hw [] c w rfl]
    rw [ih fun v d v' hv => hw (c :: v) d v' (by rw [hv, List.cons_append])]
    rfl

/-- Plain characters are read up to the next tag or reference. No end of a CDATA section is among
them. -/
theorem finds_characters {d : Char} (hne : w ≠ []) (hw : ∀ c ∈ w, isPlainInText c = true)
    (hd : d = '<' ∨ d = '&') :
    characters.Finds (w ++ d :: u) (.text (String.ofList w)) (d :: u) := by
  refine finds_bind.mpr ⟨String.ofList w, d :: u, finds_run.mpr ⟨by simpa, by simp, ?_⟩,
    finds_pure.mpr ⟨rfl, rfl⟩⟩
  refine (runBefore_append_of_not (fun v c v' hv => ?_) ?_).trans String.toList_ofList.symm
  swap
  · rcases hd with rfl | rfl <;> rfl
  have hmem : ∀ x ∈ c :: v', isPlainInText x = true := fun x hx => hw x (by rw [hv]; simp [hx])
  rw [Bool.or_eq_false_iff]
  constructor
  · have hc := hmem c (by simp)
    simp only [isPlainInText, Bool.not_eq_true', Bool.or_eq_false_iff, beq_eq_false_iff_ne] at hc
    simp [hc]
  · rw [← Bool.not_eq_true, List.isPrefixOf_iff_prefix]
    intro hp
    rcases Text.prefix_or_mem_of_prefix_append hp with hp | hmark
    · exact absurd (hmem '>' (hp.subset (by decide))) (by decide)
    · revert hmark
      rcases hd with rfl | rfl <;> decide

theorem finds_pieceIn_characters {depth : Nat} {d : Char} (hne : w ≠ [])
    (hw : ∀ c ∈ w, isPlainInText c = true) (hd : d = '<' ∨ d = '&') :
    (pieceIn (.content depth)).Finds (w ++ d :: u) (.text (String.ofList w)) (d :: u) := by
  have h := finds_characters (u := u) hne hw hd
  obtain ⟨c, v, rfl⟩ := List.exists_cons_of_ne_nil hne
  have hc : c ≠ '<' := by
    rintro rfl
    exact absurd (hw '<' (by simp)) (by decide)
  exact (givesWay_startTag_of_ne hc).next ((givesWay_endTag hc).next h.first)

theorem finds_pieceIn_reference {name : String} (h : IsName name) (depth : Nat)
    (rest : List Char) :
    ∃ place, (pieceIn (.content depth)).Finds ('&' :: (name.toList ++ ';' :: rest))
      (.reference (.named name) place) rest := by
  have hreference : contentReference.Finds ('&' :: (name.toList ++ ';' :: rest))
      (.reference (.named name) (name.toList ++ ';' :: rest).length) rest :=
    finds_bind.mpr ⟨_, _, finds_referenceValue h, finds_pure.mpr ⟨rfl, rfl⟩⟩
  have hcdata : cdataSection.GivesWay ('&' :: (name.toList ++ ';' :: rest)) :=
    givesWay_literal_bind (not_prefix_cons (by decide)) rfl
  exact ⟨_, (givesWay_startTag_of_ne (by decide)).next ((givesWay_endTag (by decide)).next
    ((givesWay_characters (.inr rfl)).next (hcdata.next hreference.first)))⟩

/-- Blanks between the parts of a document. -/
theorem finds_pieceIn_gap (hr : ∀ depth, r ≠ .content depth) (hne : w ≠ [])
    (hw : ∀ c ∈ w, Text.isXmlBlank c = true) (hrest : NotAhead Text.isXmlBlank rest) :
    (pieceIn r).Finds (w ++ rest) .gap rest := by
  obtain ⟨c, v, rfl⟩ := List.exists_cons_of_ne_nil hne
  have hdrop : rest = (c :: v ++ rest).dropWhile Text.isXmlBlank :=
    (dropWhile_append_of_notAhead hw hrest).symm
  have hblanks : blanks.Finds (c :: v ++ rest) .gap rest := by
    refine finds_bind.mpr ⟨(), rest, finds_space.mpr ⟨?_, hdrop⟩, finds_pure.mpr ⟨rfl, rfl⟩⟩
    rw [List.cons_append, notAhead_cons, hw c (by simp)]
    simp
  have hc : c ≠ '<' := by
    rintro rfl
    exact absurd (hw '<' (by simp)) (by decide)
  have hliteral {s : List Char} : ¬ '<' :: s <+: c :: v ++ rest := not_prefix_cons hc.symm
  have htag : startTag.GivesWay (c :: v ++ rest) := givesWay_startTag_of_ne hc
  cases r with
  | beginning =>
    exact GivesWay.next (givesWay_literal_bind hliteral rfl) (htag.next hblanks.first)
  | prolog => exact GivesWay.next (givesWay_literal_bind hliteral rfl) (htag.next hblanks.first)
  | content depth => exact absurd rfl (hr depth)
  | epilog =>
    refine GivesWay.next (givesWay_literal_bind hliteral rfl) (GivesWay.next ?_ hblanks)
    exact givesWay_checkedInstruction hliteral

/-! ## What can come out of a text -/

/-- A piece as it can come out of a text in a region. -/
inductive Token.StandsIn : Region → Token → Prop where
  | declaration : StandsIn .beginning .declaration
  | doctype : StandsIn .prolog .doctype
  | gap {r : Region} : (∀ depth, r ≠ .content depth) → StandsIn r .gap
  | opening {r : Region} {tag : StartTag} : r ≠ .epilog → tag.name.Valid →
      (∀ a ∈ tag.attributes, a.name.Valid) → StandsIn r (.opening tag)
  | closing {depth place : Nat} {name : PrefixedName} :
    StandsIn (.content depth) (.closing name place)
  | text {depth : Nat} {value : String} : StandsIn (.content depth) (.text value)
  | cdata {depth : Nat} {value : String} : StandsIn (.content depth) (.cdata value)
  | reference {depth place : Nat} {value : Reference} :
      StandsIn (.content depth) (.reference value place)
  | comment {r : Region} {s : String} : IsCommentText s → StandsIn r (.comment s)
  | instruction {r : Region} {target : String} {value : Option String} :
      IsInstruction target value → StandsIn r (.instruction target value)

theorem yields_qName {c : Complaint} : (qName c).Yields PrefixedName.Valid := fun _ _ _ h =>
  (leadingQName?_eq_some (finds_qName.mp h).1).1

theorem yields_attributeInTag : attributeInTag.Yields fun a => a.name.Valid := by
  refine .bind fun _ => .bind fun _ => yields_qName.bindWith fun name hname => ?_
  exact .bind fun _ => .bind fun _ => .bind fun _ => yields_pure hname

theorem yields_tagStep : tagStep.Yields fun step => ∀ a, step = .inl a → a.name.Valid := by
  refine Yields.or ?_ (Yields.or ?_ ?_)
  · exact yields_attributeInTag.bindWith fun a ha => yields_pure fun _ h => by cases h; exact ha
  · exact .bind fun _ => .bind fun _ => yields_pure fun _ h => by cases h
  · exact .bind fun _ => .bind fun _ => yields_pure fun _ h => by cases h

namespace Token.StandsIn

theorem of_startTag (hr : r ≠ .epilog) : startTag.Yields (StandsIn r) := by
  refine .bind fun _ => .bind fun _ => yields_qName.bindWith fun name hname => ?_
  exact (yields_untilEnd yields_tagStep).bindWith fun (as, _) has =>
    yields_pure (.opening hr hname has)

theorem of_checkedInstruction : checkedInstruction.Yields (StandsIn r) := by
  intro t token u h
  obtain ⟨h, hxml⟩ := finds_checkedInstruction.mp h
  obtain ⟨target, value, rfl, hproper⟩ := proper_of_instructionToken h
  exact .instruction (hproper (hxml target value rfl))

theorem of_commentToken : commentToken.Yields (StandsIn r) := by
  intro t token u h
  obtain ⟨s, rfl, hs, _⟩ := finds_commentToken.mp h
  exact .comment hs

theorem of_blanks (hr : ∀ depth, r ≠ .content depth) : blanks.Yields (StandsIn r) :=
  .bind fun _ => yields_pure (.gap hr)

/-- Before the top element stand the usual pieces and one more that depends on the region. -/
theorem of_front {first : Reader Token} (hfirst : first.Yields (StandsIn r))
    (hr : r ≠ .epilog) (hcontent : ∀ depth, r ≠ .content depth) :
    (firstOf checkedInstruction [first, startTag, blanks, commentToken]).Yields (StandsIn r) :=
  hfirst.or <| (of_startTag hr).or <| (of_blanks hcontent).or <|
    of_commentToken.or of_checkedInstruction

theorem of_content {depth : Nat} :
    (pieceIn (.content depth)).Yields (StandsIn (.content depth)) := by
  refine (of_startTag (by simp)).or <| Yields.or ?_ <| Yields.or ?_ <| Yields.or ?_ <|
    Yields.or ?_ <| of_commentToken.or of_checkedInstruction
  · exact .bind fun _ => .bind fun _ => .bind fun _ => .bind fun _ => .bind fun _ =>
      yields_pure .closing
  · exact .bind fun _ => yields_pure .text
  · exact .bind fun _ => .bind fun _ => .bind fun _ => yields_pure .cdata
  · exact .bind fun _ => yields_pure .reference

/-- Whatever is read in a region may stand there. -/
theorem of_pieceIn : (pieceIn r).Yields (StandsIn r) := by
  cases r with
  | beginning =>
    refine of_front ?_ (by simp) (by simp)
    exact .bind fun _ => .bind fun _ => .bind fun _ => .bind fun _ => .bind fun _ => .bind fun _ =>
      yields_pure .declaration
  | prolog =>
    refine of_front ?_ (by simp) (by simp)
    exact .bind fun _ => .bind fun _ => .bind fun _ => .bind fun _ => .bind fun _ => .bind fun _ =>
      .bind fun _ => yields_pure .doctype
  | content depth => exact of_content
  | epilog => exact of_commentToken.or <| of_checkedInstruction.or <| of_blanks (by simp)

end Token.StandsIn

end XPathBench.Xml
