/-!
Where a text occurs in another one.

* `Text.before?`, `Text.behind?`: what stands before and behind the first occurrence of a mark
-/

namespace XPathBench.Text

/-- The text up to the first place where `mark` stands, if it stands somewhere. -/
def before? (mark : List Char) : List Char → Option (List Char)
  | [] => if mark.isEmpty then some [] else none
  | c :: rest => if mark.isPrefixOf (c :: rest) then some [] else (before? mark rest).map (c :: ·)

/-- The text behind the first place where `mark` stands, if it stands somewhere. -/
def behind? (mark text : List Char) : Option (List Char) :=
  (before? mark text).map fun skipped => text.drop (skipped.length + mark.length)

end XPathBench.Text
