/-!
Lines of a text and positions in it. A line ends at a carriage return with line feed, at a carriage
return, or at a line feed; what follows the last break is a line too, so every text has one.

* `Text.lines`, `sourceLines`: the lines of a text
* `Position`: line and column, both counted from one, columns in characters
* `Position.ofOffset`: the position of a byte offset
-/

namespace XPathBench

namespace Text

/-- The lines of a text, without their breaks. -/
def lines : List Char → List (List Char)
  | [] => [[]]
  | '\r' :: '\n' :: rest => [] :: lines rest
  | c :: rest =>
    if c = '\r' ∨ c = '\n' then [] :: lines rest
    else match lines rest with
      | line :: others => (c :: line) :: others
      | [] => [[c]]

/-- The number of bytes that a text takes in UTF-8. -/
def byteSize (cs : List Char) : Nat := cs.foldr (fun c size => c.utf8Size + size) 0

/-- The characters of a text that start before a byte offset. -/
def startingBefore : Nat → List Char → List Char
  | _, [] => []
  | offset, c :: rest => if offset = 0 then [] else c :: startingBefore (offset - c.utf8Size) rest

end Text

/-- The lines of a text, without their breaks. -/
def sourceLines (text : String) : List String := (Text.lines text.toList).map String.ofList

/-- The line with a number counted from one. -/
def lineAt (lines : List String) : Nat → Option String
  | 0 => none
  | n + 1 => lines[n]?

/-- A place in a text: line and column, both counted from one. -/
structure Position where
  line : Nat
  column : Nat
deriving DecidableEq, Repr, Inhabited

namespace Position

/-- The first place of every text. -/
def start : Position := ⟨1, 1⟩

/-- The first place of the next line. -/
def nextLine (p : Position) : Position := ⟨p.line + 1, 1⟩

/-- The next place on the same line. -/
def nextColumn (p : Position) : Position := ⟨p.line, p.column + 1⟩

/-- The place reached from `p` by reading a text. -/
def after (p : Position) : List Char → Position
  | [] => p
  | '\r' :: '\n' :: rest => after p.nextLine rest
  | c :: rest => if c = '\r' ∨ c = '\n' then after p.nextLine rest else after p.nextColumn rest

/-- The place of a byte offset. An offset inside a character counts as the place after that
character, one past the end as the place after the last character. -/
def ofOffset (text : String) (offset : Nat) : Position :=
  start.after (Text.startingBefore offset text.toList)

/-- The place in words. -/
def describe (p : Position) : String := s!"line {p.line}, position {p.column}"

end Position

end XPathBench
