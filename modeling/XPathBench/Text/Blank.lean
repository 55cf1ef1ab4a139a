/-!
White space. Two sets are told apart everywhere in this library: the twenty-five characters of the
Unicode property White_Space, and the four characters that XML allows between its tokens.

* `Text.isBlank`: the Unicode set, used for trimming and for judging a text empty
* `Text.isXmlBlank`: space, tab, carriage return and line feed
* `Text.trimChars`, `Text.trimEnd`, `Text.allBlank`
-/

namespace XPathBench.Text

/-- A code point that lies in one of the closed ranges. -/
def inRanges (ranges : List (Nat × Nat)) (c : Char) : Bool :=
  ranges.any fun r => r.1 ≤ c.toNat && c.toNat ≤ r.2

/-- The characters with the Unicode property White_Space, ascending. -/
def blankRanges : List (Nat × Nat) :=
  [(0x09, 0x0D), (0x20, 0x20), (0x85, 0x85), (0xA0, 0xA0), (0x1680, 0x1680), (0x2000, 0x200A),
   (0x2028, 0x2029), (0x202F, 0x202F), (0x205F, 0x205F), (0x3000, 0x3000)]

/-- White space in the sense of Unicode. -/
def isBlank (c : Char) : Bool := inRanges blankRanges c

/-- White space in the sense of XML, which is also that of XPath. -/
def isXmlBlank (c : Char) : Bool := c == ' ' || c == '\t' || c == '\r' || c == '\n'

/-- What holds of the four blanks of XML one by one holds of all of them. -/
theorem of_isXmlBlank {p : Char → Prop} {c : Char} (hblanks : p ' ' ∧ p '\t' ∧ p '\r' ∧ p '\n')
    (h : isXmlBlank c = true) : p c := by
  obtain ⟨hspace, htab, hreturn, hfeed⟩ := hblanks
  simp only [isXmlBlank, Bool.or_eq_true, beq_iff_eq] at h
  rcases h with ((rfl | rfl) | rfl) | rfl
  · exact hspace
  · exact htab
  · exact hreturn
  · exact hfeed

theorem isBlank_of_isXmlBlank {c : Char} (h : isXmlBlank c = true) : isBlank c = true :=
  of_isXmlBlank (p := fun c => isBlank c = true) (by decide) h

/-- A text without its leading blanks. -/
def trimStartChars (cs : List Char) : List Char := cs.dropWhile isBlank

/-- A text without its trailing blanks. -/
def trimEndChars (cs : List Char) : List Char := (cs.reverse.dropWhile isBlank).reverse

/-- A text without the blanks at its two ends. -/
def trimChars (cs : List Char) : List Char := trimEndChars (trimStartChars cs)

/-- A text without its trailing blanks. -/
def trimEnd (s : String) : String := String.ofList (trimEndChars s.toList)

/-- A text that holds nothing but blanks. -/
def allBlank (s : String) : Bool := s.toList.all isBlank

end XPathBench.Text
