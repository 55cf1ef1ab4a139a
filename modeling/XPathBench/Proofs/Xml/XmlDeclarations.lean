import XPathBench.Proofs.Xml.Remarks
import XPathBench.Proofs.Xml.Scanning

/-!
# Documents without their encoding

A text that denotes a document denotes it also without the encoding that its XML declaration names.
The two grammars line up: every version that the declaration may have is one behind which the
encoding is looked for, what is taken out is the whole remark on the encoding, and what the remark
is followed by may follow the version as well.

* `finds_remark`: reading a remark in an XML declaration
* `finds_xmlDeclaration_stripped`: an XML declaration without its encoding
* `parse_withoutEncoding`: a document without its encoding
-/

namespace XPathBench.Xml

open Reader Grammar EncodingDeclaration

variable {α : Type} {inner : Reader α} {name : String} {t u : List Char} {a : α}

/-! ## Remarks -/

theorem finds_equals_iff {x : Unit} : equals.Finds t x u ↔
    ∃ v w, (∀ c ∈ v ++ w, Text.isXmlBlank c = true) ∧ t = v ++ '=' :: (w ++ u) ∧
      NotAhead Text.isXmlBlank u := by
  simp only [equals, finds_bind, finds_spaces, finds_literal, List.forall_mem_append]
  constructor
  · rintro ⟨_, _, hbefore, _, _, rfl, hbehind⟩
    obtain ⟨v, hv, rfl, -⟩ := dropWhile_eq_iff.mp hbefore.symm
    obtain ⟨w, hw, rfl, hu⟩ := dropWhile_eq_iff.mp hbehind.symm
    exact ⟨v, w, ⟨hv, hw⟩, rfl, hu⟩
  · rintro ⟨v, w, ⟨hv, hw⟩, rfl, hu⟩
    exact ⟨(), _, (dropWhile_append_of_notAhead hv (notAhead_cons.mpr (by decide))).symm,
      (), _, rfl, (dropWhile_append_of_notAhead hw hu).symm⟩

theorem finds_quotedBy {quote : Char} {inner : Char → Reader α} :
    (quotedBy quote inner).Finds t a u ↔
      ∃ w, t = quote :: w ∧ (inner quote).Finds w a (quote :: u) := by
  have hquote (w : List Char) : quote.toString.toList ++ w = quote :: w := by
    rw [Char.toString_eq_singleton, String.toList_singleton, List.singleton_append]
  simp only [quotedBy, finds_bind, finds_literalAs, finds_pure, hquote]
  constructor
  · rintro ⟨_, w, rfl, a', _, hinner, _, _, rfl, rfl, rfl⟩
    exact ⟨w, rfl, hinner⟩
  · rintro ⟨w, rfl, hinner⟩
    exact ⟨(), w, rfl, a, _, hinner, (), u, rfl, rfl, rfl⟩

theorem finds_quoted {inner : Char → Reader α} : (quoted inner).Finds t a u ↔
    ∃ quote w, (quote = '\'' ∨ quote = '"') ∧ t = quote :: w ∧
      (inner quote).Finds w a (quote :: u) := by
  rw [quoted, finds_or, finds_quotedBy, finds_quotedBy]
  constructor
  · rintro (⟨w, ht, hinner⟩ | ⟨-, w, ht, hinner⟩)
    · exact ⟨'\'', w, .inl rfl, ht, hinner⟩
    · exact ⟨'"', w, .inr rfl, ht, hinner⟩
  · rintro ⟨quote, w, rfl | rfl, rfl, hinner⟩
    · exact .inl ⟨w, rfl, hinner⟩
    · refine .inr ⟨?_, w, rfl, hinner⟩
      exact givesWay_literal_bind (not_prefix_cons (by decide)) rfl

/-- A remark is read from its blanks to the quote that closes its value. -/
theorem finds_remark (hname : ∀ u, NotAhead Text.isXmlBlank (name.toList ++ u)) :
    (do space; literal name; equals; quoted fun _ => inner : Reader α).Finds t a u ↔
      ∃ (s : RemarkStart name) (w : List Char),
        t = s.text ++ w ∧ inner.Finds w a (s.quote :: u) := by
  simp only [finds_bind, finds_space, finds_literal, finds_equals_iff, finds_quoted]
  constructor
  · rintro ⟨_, _, ⟨hahead, hblanks⟩, _, _, rfl, _, _, ⟨v, v', hv, rfl, -⟩, q, w, hq, rfl, hinner⟩
    obtain ⟨b, hb, rfl, -⟩ := dropWhile_eq_iff.mp hblanks.symm
    have hne : b ≠ [] := by
      rintro rfl
      exact hahead (hname _)
    refine ⟨⟨b, v, v', q, hne, List.forall_mem_append.mpr ⟨hb, hv⟩, hq⟩, w, ?_, hinner⟩
    rw [RemarkStart.text_append]
  · rintro ⟨s, w, rfl, hinner⟩
    rw [s.text_append]
    obtain ⟨c, rest, hc⟩ := List.exists_cons_of_ne_nil s.ne_nil
    refine ⟨(), _, ⟨?_, (dropWhile_append_of_notAhead s.isBlank_blanks (hname _)).symm⟩, (), _, rfl,
      (), _, ⟨s.beforeSign, s.behindSign, (List.forall_mem_append.mp s.isBlank).2, rfl, ?_⟩,
      s.quote, w, s.isQuote, rfl, hinner⟩
    · rw [hc, List.cons_append, notAhead_cons, s.isBlank_blanks c (hc ▸ List.mem_cons_self)]
      exact Bool.noConfusion
    · exact notAhead_cons.mpr s.not_isXmlBlank_quote

theorem givesWay_remark {k : Unit → Reader α}
    (h : ¬ name.toList <+: t.dropWhile Text.isXmlBlank) :
    (space >>= fun _ => literal name >>= k).GivesWay t := by
  by_cases hahead : NotAhead Text.isXmlBlank t
  · exact givesWay_bind.mpr (.inl (givesWay_space.mpr hahead))
  · exact givesWay_bind.mpr (.inr ⟨(), _, finds_space.mpr ⟨hahead, rfl⟩,
      givesWay_bind.mpr (.inl (givesWay_literal.mpr h))⟩)

/-! ## The version and the encoding -/

/-- What is read as a version is one behind which the encoding is looked for, and it is read before
any text. -/
theorem versionInfo_front {x : Unit} (h : versionInfo.Finds t x u) : ∃ front, t = front ++ u ∧
    ∀ rest, behindVersion? ("<?xml".toList ++ front ++ rest) = some rest ∧
      versionInfo.Finds (front ++ rest) x rest := by
  have hname (u : List Char) : NotAhead Text.isXmlBlank ("version".toList ++ u) :=
    notAhead_cons.mpr (by decide)
  obtain ⟨s, w, rfl, hinner⟩ := (finds_remark hname).mp h
  obtain ⟨_, w', hone, hdigits⟩ := finds_bind.mp hinner
  obtain rfl := finds_literalAs.mp hone
  obtain ⟨digits, hne, rfl, hrun⟩ := finds_discard.mp hdigits |>.imp fun _ => finds_many1.mp
  have hdigit : ∀ c ∈ digits.toList, c.isDigit = true := by
    rw [← hrun]
    exact fun c hc => List.mem_takeWhile_imp hc
  have hend (rest : List Char) : NotAhead Char.isDigit (s.quote :: rest) :=
    notAhead_cons.mpr (by rcases s.isQuote with hq | hq <;> rw [hq] <;> decide)
  refine ⟨s.text ++ ("1.".toList ++ (digits.toList ++ [s.quote])), by simp, fun rest => ⟨?_, ?_⟩⟩
  · refine behindVersion?_eq_some_iff.mpr ⟨s, "1.".toList ++ digits.toList, ?_, by simp⟩
    refine isRun_cons.mpr ⟨by decide, List.forall_mem_cons.mpr ⟨by decide, fun c hc => ?_⟩⟩
    simp [isVersionChar, Char.isAlphanum, hdigit c hc]
  · refine (finds_remark hname).mpr ⟨s, "1.".toList ++ (digits.toList ++ s.quote :: rest),
      by simp, finds_bind.mpr ⟨(), _, finds_literalAs.mpr rfl, finds_discard.mpr ⟨digits, ?_⟩⟩⟩
    exact finds_many1.mpr ⟨hne, rfl, takeWhile_append_of_notAhead hdigit (hend rest)⟩

/-- What is read as the encoding is what is taken out. -/
theorem finds_encodingInfo {x : Unit} : encodingInfo.Finds t x u ↔ behindEncoding? t = some u := by
  have hname (u : List Char) : NotAhead Text.isXmlBlank ("encoding".toList ++ u) :=
    notAhead_cons.mpr (by decide)
  rw [behindEncoding?_eq_some_iff, encodingInfo, finds_remark hname]
  refine exists_congr fun s => ⟨?_, ?_⟩
  · rintro ⟨w, rfl, hinner⟩
    obtain ⟨n, hn, hrest⟩ := finds_leading.mp hinner
    obtain ⟨value, hvalue, hlength⟩ := Option.map_eq_some_iff.mp hn
    obtain ⟨hrun, v, rfl, -⟩ := leadingRun?_eq_some hvalue
    obtain rfl : value.length = n := congrArg Prod.snd hlength
    rw [List.drop_left] at hrest
    exact ⟨value, hrun, by rw [hrest]⟩
  · rintro ⟨value, hvalue, rfl⟩
    have hend : NotAhead isEncodingChar (s.quote :: u) :=
      notAhead_cons.mpr (by rcases s.isQuote with hq | hq <;> rw [hq] <;> decide)
    refine ⟨_, rfl, finds_leading.mpr ⟨value.length, ?_, by rw [List.drop_left]⟩⟩
    exact Option.map_eq_some_iff.mpr ⟨value, leadingRun?_append hvalue hend, rfl⟩

/-! ## The declaration -/

/-- What follows the encoding in an XML declaration begins with no other encoding. -/
theorem givesWay_encodingInfo {x : Option Unit} {y z : Unit} {v w : List Char}
    (hstandalone : (optional standaloneInfo).Finds t x v) (hspaces : spaces.Finds v y w)
    (hclose : (literal "?>").Finds w z u) : encodingInfo.GivesWay t := by
  refine givesWay_remark fun hencoding => ?_
  rcases finds_optional.mp hstandalone with ⟨_, -, hremark⟩ | ⟨-, rfl, -⟩
  · have hname (u : List Char) : NotAhead Text.isXmlBlank ("standalone".toList ++ u) :=
      notAhead_cons.mpr (by decide)
    obtain ⟨s, w, rfl, -⟩ := (finds_remark hname).mp hremark
    rw [s.text_append, dropWhile_append_of_notAhead s.isBlank_blanks (hname _)] at hencoding
    exact not_prefix_cons (by decide) hencoding
  · rw [← finds_spaces.mp hspaces, finds_literal.mp hclose] at hencoding
    exact not_prefix_cons (by decide) hencoding

/-- An XML declaration without its encoding is an XML declaration. -/
theorem finds_xmlDeclaration_stripped {token : Token} {stripped : List Char}
    (h : xmlDeclaration.Finds t token u) (hstrip : strip? t = some stripped) :
    xmlDeclaration.Finds stripped token u := by
  obtain ⟨_, t', hopen, hremarks⟩ := finds_bind.mp h
  obtain ⟨_, v, hversion, hremarks⟩ := finds_bind.mp hremarks
  obtain ⟨_, e, hencoding, hbehind⟩ := finds_bind.mp hremarks
  obtain ⟨encoding?, hencoding⟩ := finds_discard.mp hencoding
  obtain rfl := finds_literal.mp hopen
  obtain ⟨front, rfl, hfront⟩ := versionInfo_front hversion
  -- What is taken out is what is read as the encoding.
  rw [← List.append_assoc, strip?_append (hfront v).1, Option.map_eq_some_iff] at hstrip
  obtain ⟨e', he', rfl⟩ := hstrip
  obtain rfl : e = e' := by
    have hfound := finds_encodingInfo (x := ()).mpr he'
    rcases finds_optional.mp hencoding with ⟨_, -, hread⟩ | ⟨-, -, hstuck⟩
    · exact (hread.unique hfound).2
    · exact absurd hstuck hfound.not_givesWay
  rw [List.append_assoc]
  -- What follows it may follow the version.
  obtain ⟨_, v', hstandalone, hrest⟩ := finds_bind.mp hbehind
  obtain ⟨_, hstandalone'⟩ := finds_discard.mp hstandalone
  obtain ⟨_, w, hspaces, hclose⟩ := finds_bind.mp hrest
  obtain ⟨_, u', hclose, -⟩ := finds_bind.mp hclose
  refine finds_bind.mpr ⟨(), _, finds_literal.mpr rfl, finds_bind.mpr ⟨(), e, (hfront e).2, ?_⟩⟩
  exact finds_bind.mpr ⟨(), e, finds_discard.mpr ⟨none, finds_optional.mpr
    (.inr ⟨rfl, rfl, givesWay_encodingInfo hstandalone' hspaces hclose⟩)⟩, hbehind⟩

/-! ## The document -/

/-- What begins as an XML declaration is no other piece of a document. -/
theorem finds_xmlDeclaration_of_pieceIn {token : Token} {c : Char} {w : List Char}
    (hc : Text.isXmlBlank c = true)
    (h : (pieceIn .beginning).Finds ('<' :: '?' :: 'x' :: 'm' :: 'l' :: c :: w) token u) :
    xmlDeclaration.Finds ('<' :: '?' :: 'x' :: 'm' :: 'l' :: c :: w) token u := by
  rcases finds_firstOf.mp h with h | ⟨-, h⟩
  · exact h
  rcases finds_firstOf.mp h with h | ⟨-, h⟩
  · exact absurd (givesWay_startTag (by rintro _ _ ⟨⟩; simp) (by simp)) h.not_givesWay
  rcases finds_firstOf.mp h with h | ⟨-, h⟩
  · exact absurd (givesWay_blanks (notAhead_cons.mpr (by decide))) h.not_givesWay
  rcases finds_firstOf.mp h with h | ⟨-, h⟩
  · have hcomment : ¬ "<!--".toList <+: '<' :: '?' :: 'x' :: 'm' :: 'l' :: c :: w :=
      not_prefix_second (by decide)
    exact absurd (givesWay_literal_bind hcomment rfl) h.not_givesWay
  -- The target of an instruction would be `xml`.
  obtain ⟨htoken, hxml⟩ := finds_checkedInstruction.mp h
  obtain ⟨_, t', hopen, hname⟩ := finds_bind.mp htoken
  obtain rfl : "xml".toList ++ c :: w = t' :=
    (List.append_right_inj "<?".toList).mp (finds_literalAs.mp hopen)
  obtain ⟨target, _, htarget, hvalue⟩ := finds_bind.mp hname
  obtain ⟨value, _, -, hclose⟩ := finds_bind.mp hvalue
  obtain ⟨_, _, -, hreturn⟩ := finds_bind.mp hclose
  have hend : NotAhead (fun c => isNameChar c || c == ':') (c :: w) := by
    rw [notAhead_cons, Bool.eq_false_iff]
    exact fun hin => Bool.false_ne_true ((isXmlBlank_of_inName hin).symm.trans hc)
  have hread : leadingName? ("xml".toList ++ c :: w) = some "xml".toList :=
    leadingRun?_append (by decide) hend
  rw [(finds_name.mp htarget).1] at hread
  obtain rfl := String.toList_inj.mp (Option.some.inj hread)
  exact absurd (by decide +kernel) (hxml _ value (finds_pure.mp hreturn).1)

variable {r : Region} {a b : Assembly} {stripped : List Char}

/-- Pieces are read without the encoding as they are read with it: it stands in the first of them.
-/
theorem Reads.withoutEncoding (h : Reads .beginning a t r b u) (hr : r ≠ .beginning)
    (hstrip : strip? t = some stripped) : Reads .beginning a stripped r b u := by
  cases h with
  | refl => exact absurd rfl hr
  | step hpiece hadd hbehind =>
    obtain ⟨kept, removed, rest, hparts, rfl, -⟩ := strip?_eq_some_iff.mp hstrip
    obtain ⟨c, w, hc, rfl⟩ := hparts.exists_blank
    have hdeclaration := finds_xmlDeclaration_of_pieceIn hc hpiece
    exact .step (Finds.first (finds_xmlDeclaration_stripped hdeclaration hstrip)) hadd hbehind

end XPathBench.Xml
