import XPathBench.Proofs.Xml.Names
import XPathBench.Xml.EncodingDeclaration

/-!
# Remarks in the XML declaration

The version and the encoding are remarks: a name and a quoted value behind blanks. The encoding is
taken out of a text if and only if the text begins with an XML declaration whose version it follows,
and then nothing but the blanks before it, its name and its value are taken.

* `RemarkStart`: what stands in front of the value of a remark
* `IsRun`: the values of a remark
* `strip?_eq_some_iff`: what is left of a text without its encoding
* `withoutEncoding_ne_iff`: the texts that an encoding is taken out of
-/

namespace XPathBench.Xml

/-- The start of a remark in an XML declaration, up to the quote that opens its value: blanks, a
name and an equals sign, which may have blanks around it. -/
structure RemarkStart (name : String) where
  blanks : List Char
  beforeSign : List Char
  behindSign : List Char
  quote : Char
  ne_nil : blanks ≠ []
  isBlank : ∀ c ∈ blanks ++ (beforeSign ++ behindSign), Text.isXmlBlank c = true
  isQuote : quote = '\'' ∨ quote = '"'

/-- The start of a remark as it is written. -/
def RemarkStart.text {name : String} (s : RemarkStart name) : List Char :=
  s.blanks ++ (name.toList ++ (s.beforeSign ++ '=' :: (s.behindSign ++ [s.quote])))

/-- A run that begins with a character of the first kind and goes on with characters of the second.
-/
def IsRun (isFirst isLater : Char → Bool) (value : List Char) : Prop :=
  leadingRun? isFirst isLater value = some value

variable {isFirst isLater : Char → Bool} {name : String} {t u value : List Char} {c : Char}

theorem isRun_cons : IsRun isFirst isLater (c :: t) ↔
    isFirst c = true ∧ ∀ d ∈ t, isLater d = true := by
  simp [IsRun, leadingRun?]

namespace RemarkStart

variable (s : RemarkStart name)

theorem text_append (u : List Char) : s.text ++ u =
    s.blanks ++ (name.toList ++ (s.beforeSign ++ '=' :: (s.behindSign ++ s.quote :: u))) := by
  simp [text]

theorem isBlank_blanks : ∀ c ∈ s.blanks, Text.isXmlBlank c = true := fun c hc =>
  s.isBlank c (List.mem_append_left _ hc)

theorem not_isXmlBlank_quote : Text.isXmlBlank s.quote = false := by
  rcases s.isQuote with h | h <;> rw [h] <;> decide

end RemarkStart

/-! ## Behind blanks, words and quotes -/

/-- A text cut behind the characters of a kind that it begins with. -/
theorem dropWhile_eq_iff {good : Char → Bool} : t.dropWhile good = u ↔
    ∃ w, (∀ c ∈ w, good c = true) ∧ t = w ++ u ∧ NotAhead good u := by
  constructor
  · rintro rfl
    exact ⟨t.takeWhile good, fun c hc => List.mem_takeWhile_imp hc,
      List.takeWhile_append_dropWhile.symm, notAhead_dropWhile⟩
  · rintro ⟨w, hw, rfl, hu⟩
    exact dropWhile_append_of_notAhead hw hu

namespace EncodingDeclaration

theorem behindWord?_eq_some_iff {word : String} :
    behindWord? word t = some u ↔ t = word.toList ++ u := by
  simp only [behindWord?, Option.ite_none_right_eq_some, List.isPrefixOf_iff_prefix,
    Option.some.injEq]
  constructor
  · rintro ⟨⟨w, rfl⟩, rfl⟩
    rw [← String.length_toList, List.drop_left]
  · rintro rfl
    exact ⟨List.prefix_append _ _, by rw [← String.length_toList, List.drop_left]⟩

theorem behindBlanks?_eq_some_iff : behindBlanks? t = some u ↔
    ∃ w, w ≠ [] ∧ (∀ c ∈ w, Text.isXmlBlank c = true) ∧ t = w ++ u ∧
      NotAhead Text.isXmlBlank u := by
  cases t with
  | nil =>
    refine ⟨nofun, fun ⟨w, hne, _, hsplit, _⟩ => ?_⟩
    exact absurd (List.append_eq_nil_iff.mp hsplit.symm).1 hne
  | cons c t =>
    simp only [behindBlanks?, Option.ite_none_right_eq_some, Option.some.injEq, dropWhile_eq_iff]
    constructor
    · rintro ⟨hc, w, hw, rfl, hu⟩
      exact ⟨c :: w, List.cons_ne_nil _ _, List.forall_mem_cons.mpr ⟨hc, hw⟩, rfl, hu⟩
    · rintro ⟨w, hne, hw, hsplit, hu⟩
      cases w with
      | nil => exact absurd rfl hne
      | cons d w =>
        obtain ⟨rfl, rfl⟩ := List.cons.inj hsplit
        obtain ⟨hc, hw⟩ := List.forall_mem_cons.mp hw
        exact ⟨hc, w, hw, rfl, hu⟩

theorem behindEquals?_eq_some_iff : behindEquals? t = some u ↔
    ∃ v w, (∀ c ∈ v ++ w, Text.isXmlBlank c = true) ∧ t = v ++ '=' :: (w ++ u) ∧
      NotAhead Text.isXmlBlank u := by
  simp only [behindEquals?, Option.map_eq_some_iff, behindWord?_eq_some_iff, dropWhile_eq_iff,
    List.forall_mem_append]
  constructor
  · rintro ⟨_, ⟨v, hv, rfl, -⟩, w, hw, rfl, hu⟩
    exact ⟨v, w, ⟨hv, hw⟩, rfl, hu⟩
  · rintro ⟨v, w, ⟨hv, hw⟩, rfl, hu⟩
    exact ⟨w ++ u, ⟨v, hv, rfl, notAhead_cons.mpr (by decide)⟩, w, hw, rfl, hu⟩

/-- A value ends at the quote that opens it, which cannot belong to it. -/
theorem behindQuoted?_eq_some_iff (hquote : isLater '\'' = false ∧ isLater '"' = false) :
    behindQuoted? isFirst isLater t = some u ↔
      ∃ quote value, (quote = '\'' ∨ quote = '"') ∧ IsRun isFirst isLater value ∧
        t = quote :: (value ++ quote :: u) := by
  constructor
  · intro h
    unfold behindQuoted? at h
    split at h
    next quote first rest =>
      simp only [Option.ite_none_right_eq_some, Bool.and_eq_true, Bool.or_eq_true, beq_iff_eq,
        behindWord?_eq_some_iff, dropWhile_eq_iff] at h
      obtain ⟨⟨hq, hfirst⟩, w, hw, rfl, -⟩ := h
      exact ⟨quote, first :: w, hq, isRun_cons.mpr ⟨hfirst, hw⟩, by simp⟩
    · cases h
  · rintro ⟨quote, value, hq, hvalue, rfl⟩
    cases value with
    | nil => exact absurd rfl (leadingRun?_ne_nil hvalue)
    | cons first w =>
      obtain ⟨hfirst, hw⟩ := isRun_cons.mp hvalue
      have hend : NotAhead isLater (quote :: u) :=
        notAhead_cons.mpr (by rcases hq with rfl | rfl <;> [exact hquote.1; exact hquote.2])
      simp only [List.cons_append, behindQuoted?, Option.ite_none_right_eq_some, Bool.and_eq_true,
        Bool.or_eq_true, beq_iff_eq]
      refine ⟨⟨hq, hfirst⟩, behindWord?_eq_some_iff.mpr ?_⟩
      rw [dropWhile_append_of_notAhead hw hend, Char.toString_eq_singleton,
        String.toList_singleton, List.singleton_append]

/-- A remark is passed over from its blanks to its closing quote. -/
theorem behindRemark_eq_some_iff (hname : ∀ u, NotAhead Text.isXmlBlank (name.toList ++ u))
    (hquote : isLater '\'' = false ∧ isLater '"' = false) :
    (behindBlanks? t >>= fun rest => behindWord? name rest >>= fun rest => behindEquals? rest >>=
      behindQuoted? isFirst isLater) = some u ↔
      ∃ (s : RemarkStart name) (value : List Char), IsRun isFirst isLater value ∧
        t = s.text ++ (value ++ s.quote :: u) := by
  simp only [Option.bind_eq_bind, Option.bind_eq_some_iff, behindBlanks?_eq_some_iff,
    behindWord?_eq_some_iff, behindEquals?_eq_some_iff, behindQuoted?_eq_some_iff hquote]
  constructor
  · rintro ⟨_, ⟨w, hne, hw, rfl, -⟩, _, rfl, _, ⟨v, v', hv, rfl, -⟩, q, value, hq, hvalue, rfl⟩
    refine ⟨⟨w, v, v', q, hne, List.forall_mem_append.mpr ⟨hw, hv⟩, hq⟩, value, hvalue, ?_⟩
    rw [RemarkStart.text_append]
  · rintro ⟨s, value, hvalue, rfl⟩
    rw [RemarkStart.text_append]
    refine ⟨_, ⟨s.blanks, s.ne_nil, s.isBlank_blanks, rfl, hname _⟩, _, rfl, _,
      ⟨s.beforeSign, s.behindSign, (List.forall_mem_append.mp s.isBlank).2, rfl, ?_⟩,
      s.quote, value, s.isQuote, hvalue, rfl⟩
    exact notAhead_cons.mpr s.not_isXmlBlank_quote

/-! ## The encoding in a text -/

/-- A text up to the quote that closes its version. -/
theorem behindVersion?_eq_some_iff : behindVersion? t = some u ↔
    ∃ (s : RemarkStart "version") (value : List Char), IsRun isVersionChar isVersionChar value ∧
      t = "<?xml".toList ++ (s.text ++ (value ++ s.quote :: u)) := by
  have hname (u : List Char) : NotAhead Text.isXmlBlank ("version".toList ++ u) :=
    notAhead_cons.mpr (by decide)
  have hquote : isVersionChar '\'' = false ∧ isVersionChar '"' = false := by decide
  rw [behindVersion?, Option.bind_eq_bind, Option.bind_eq_some_iff]
  constructor
  · rintro ⟨rest, hrest, h⟩
    obtain ⟨s, value, hvalue, rfl⟩ := (behindRemark_eq_some_iff hname hquote).mp h
    exact ⟨s, value, hvalue, behindWord?_eq_some_iff.mp hrest⟩
  · rintro ⟨s, value, hvalue, rfl⟩
    exact ⟨_, behindWord?_eq_some_iff.mpr rfl,
      (behindRemark_eq_some_iff hname hquote).mpr ⟨s, value, hvalue, rfl⟩⟩

theorem behindEncoding?_eq_some_iff : behindEncoding? t = some u ↔
    ∃ (s : RemarkStart "encoding") (value : List Char), IsRun Char.isAlpha isEncodingChar value ∧
      t = s.text ++ (value ++ s.quote :: u) :=
  behindRemark_eq_some_iff (fun _ => notAhead_cons.mpr (by decide)) (by decide)

/-- Behind the version, the encoding is taken out. -/
theorem strip?_append {kept behind : List Char}
    (h : behindVersion? (kept ++ behind) = some behind) :
    strip? (kept ++ behind) = (behindEncoding? behind).map (kept ++ ·) := by
  have hkept : (kept ++ behind).take ((kept ++ behind).length - behind.length) = kept := by simp
  simp only [strip?, h, hkept, Option.bind_eq_bind, Option.bind_some]
  cases behindEncoding? behind <;> rfl

/-- The parts of a text around the encoding that its XML declaration names: all up to the quote that
closes the version, and the encoding from the blanks before it up to the quote that closes it. -/
structure EncodingParts (kept removed : List Char) : Prop where
  version : ∃ (s : RemarkStart "version") (value : List Char),
    IsRun isVersionChar isVersionChar value ∧
      kept = "<?xml".toList ++ (s.text ++ (value ++ [s.quote]))
  encoding : ∃ (s : RemarkStart "encoding") (value : List Char),
    IsRun Char.isAlpha isEncodingChar value ∧ removed = s.text ++ (value ++ [s.quote])

variable {kept removed : List Char}

theorem EncodingParts.exists_blank (h : EncodingParts kept removed) :
    ∃ c w, Text.isXmlBlank c = true ∧ kept = '<' :: '?' :: 'x' :: 'm' :: 'l' :: c :: w := by
  obtain ⟨s, number, -, rfl⟩ := h.version
  obtain ⟨c, w, hblanks⟩ := List.exists_cons_of_ne_nil s.ne_nil
  have hc : c ∈ s.blanks := hblanks ▸ List.mem_cons_self
  rw [RemarkStart.text, hblanks]
  exact ⟨c, _, s.isBlank_blanks c hc, rfl⟩

theorem EncodingParts.behindVersion? (h : EncodingParts kept removed) (rest : List Char) :
    behindVersion? (kept ++ rest) = some rest := by
  obtain ⟨s, value, hvalue, rfl⟩ := h.version
  exact behindVersion?_eq_some_iff.mpr ⟨s, value, hvalue, by simp⟩

theorem EncodingParts.behindEncoding? (h : EncodingParts kept removed) (rest : List Char) :
    behindEncoding? (removed ++ rest) = some rest := by
  obtain ⟨s, value, hvalue, rfl⟩ := h.encoding
  exact behindEncoding?_eq_some_iff.mpr ⟨s, value, hvalue, by simp⟩

/-- Of a text that names its encoding, all is left but the encoding. -/
theorem strip?_eq_some_iff {stripped : List Char} : strip? t = some stripped ↔
    ∃ kept removed rest, EncodingParts kept removed ∧ t = kept ++ (removed ++ rest) ∧
      stripped = kept ++ rest := by
  constructor
  · intro h
    obtain ⟨behind, hversion, -⟩ := Option.bind_eq_some_iff.mp h
    obtain ⟨s, number, hnumber, rfl⟩ := behindVersion?_eq_some_iff.mp hversion
    have hsplit : "<?xml".toList ++ (s.text ++ (number ++ s.quote :: behind)) =
        ("<?xml".toList ++ (s.text ++ (number ++ [s.quote]))) ++ behind := by simp
    rw [hsplit] at h hversion ⊢
    rw [strip?_append hversion, Option.map_eq_some_iff] at h
    obtain ⟨rest, hrest, rfl⟩ := h
    obtain ⟨s', encoding, hencoding, rfl⟩ := behindEncoding?_eq_some_iff.mp hrest
    exact ⟨_, s'.text ++ (encoding ++ [s'.quote]), rest,
      ⟨⟨s, number, hnumber, rfl⟩, ⟨s', encoding, hencoding, rfl⟩⟩, by simp, rfl⟩
  · rintro ⟨kept, removed, rest, hparts, rfl, rfl⟩
    rw [strip?_append (hparts.behindVersion? _), hparts.behindEncoding?, Option.map_some]

theorem EncodingParts.removed_ne_nil (h : EncodingParts kept removed) : removed ≠ [] := by
  obtain ⟨s, value, -, rfl⟩ := h.encoding
  simp

theorem EncodingParts.getLast?_kept (h : EncodingParts kept removed) :
    ∃ quote, (quote = '\'' ∨ quote = '"') ∧ kept.getLast? = some quote := by
  obtain ⟨s, number, -, rfl⟩ := h.version
  refine ⟨s.quote, s.isQuote, ?_⟩
  simp only [List.getLast?_append, List.getLast?_singleton, Option.some_or]

theorem EncodingParts.getLast?_removed (h : EncodingParts kept removed) :
    ∃ quote, (quote = '\'' ∨ quote = '"') ∧ removed.getLast? = some quote := by
  obtain ⟨s, value, -, rfl⟩ := h.encoding
  refine ⟨s.quote, s.isQuote, ?_⟩
  simp only [List.getLast?_append, List.getLast?_singleton, Option.some_or]

end EncodingDeclaration

open EncodingDeclaration (EncodingParts strip?_eq_some_iff)

theorem toList_withoutEncoding {text : String} {kept removed rest : List Char}
    (hparts : EncodingParts kept removed) (h : text.toList = kept ++ (removed ++ rest)) :
    (withoutEncoding text).toList = kept ++ rest := by
  rw [withoutEncoding, strip?_eq_some_iff.mpr ⟨kept, removed, rest, hparts, h, rfl⟩,
    Option.map_some, Option.getD_some, String.toList_ofList]

theorem withoutEncoding_ne_iff {text : String} : withoutEncoding text ≠ text ↔
    ∃ kept removed rest, EncodingParts kept removed ∧ text.toList = kept ++ (removed ++ rest) := by
  constructor
  · intro hne
    cases hstrip : EncodingDeclaration.strip? text.toList with
    | none => exact absurd (by rw [withoutEncoding, hstrip]; rfl) hne
    | some stripped =>
      obtain ⟨kept, removed, rest, hparts, htext, -⟩ := strip?_eq_some_iff.mp hstrip
      exact ⟨kept, removed, rest, hparts, htext⟩
  · rintro ⟨kept, removed, rest, hparts, htext⟩ hsame
    have hkept := (toList_withoutEncoding hparts htext).symm.trans (congrArg String.toList hsame)
    rw [htext, List.append_cancel_left_eq] at hkept
    exact hparts.removed_ne_nil (List.append_left_eq_self.mp hkept.symm)

end XPathBench.Xml
