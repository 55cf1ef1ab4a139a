import XPathBench.Text.Search
import XPathBench.Xml.Name
import XPathBench.Xml.SyntaxError

/-!
Readers. A reader looks at the text that is left and either finds a value and moves on, or is stuck.
Ways of reading that were tried and given up leave their complaints behind, for the error message;
they never influence what is found.

* `Cursor`: the text left, with its length at hand
* `Reader`: readers, in sequence by `bind`, as alternatives by `or`, as optional parts by `optional`
* `Reader.literal`, `Reader.run`, `Reader.upTo`, `Reader.qName`: the primitive readers
* `Reader.untilEnd`: a reader repeated until it says that it is done
-/

namespace XPathBench.Xml

/-- A text that is left to read. -/
structure Cursor where
  rest : List Char
  left : Nat
  left_eq : left = rest.length

namespace Cursor

/-- The cursor before a text. -/
def of (text : List Char) : Cursor := ⟨text, text.length, rfl⟩

/-- The cursor `n` characters further on. -/
def advance (c : Cursor) (n : Nat) : Cursor :=
  ⟨c.rest.drop n, c.left - n, by rw [List.length_drop, c.left_eq]⟩

theorem ext_rest {c d : Cursor} (h : c.rest = d.rest) : c = d := by
  cases c; cases d; simp_all

@[simp] theorem rest_of (text : List Char) : (of text).rest = text := rfl

@[simp] theorem of_rest (c : Cursor) : of c.rest = c := ext_rest rfl

@[simp] theorem advance_of (text : List Char) (n : Nat) : (of text).advance n = of (text.drop n) :=
  ext_rest rfl

end Cursor

/-- What a reader answers. -/
inductive Reading (α : Type) where
  | found (value : α) (next : Cursor) (tried : Furthest)
  | stuck (fault : Fault) (tried : Furthest)

/-- A reader of a piece of text. -/
def Reader (α : Type) : Type := Cursor → Reading α

/-- The longest run of characters up to the first place where `stop` begins; the whole text if
there is no such place. -/
def runBefore (stop : List Char → Bool) : List Char → List Char
  | [] => []
  | c :: rest => if stop (c :: rest) then [] else c :: runBefore stop rest

namespace Reader

variable {α β : Type}

/-- Finds a value without reading anything. -/
def pure (value : α) : Reader α := fun c => .found value c .none

/-- One reader after the other. -/
def bind (p : Reader α) (f : α → Reader β) : Reader β := fun c =>
  match p c with
  | .stuck fault tried => .stuck fault tried
  | .found value next tried => match f value next with
    | .stuck fault tried' => .stuck fault (tried.join tried')
    | .found value' next' tried' => .found value' next' (tried.join tried')

instance : Monad Reader where
  pure := Reader.pure
  bind := Reader.bind

/-- Is stuck where it stands. -/
def complain (complaint : Complaint) : Reader α := fun c => .stuck ⟨complaint, c.left⟩ .none

/-- The second reader, if the first is stuck without a final complaint. -/
def or (p q : Reader α) : Reader α := fun c =>
  match p c with
  | .found value next tried => .found value next tried
  | .stuck fault tried =>
    if fault.complaint.isFinal then .stuck fault tried
    else match q c with
      | .found value next tried' => .found value next ((tried.join tried').note fault)
      | .stuck fault' tried' => .stuck fault' ((tried.join tried').note fault)

/-- The reader, or nothing if it is stuck without a final complaint. What it was stuck at is
forgotten. -/
def optional (p : Reader α) : Reader (Option α) := fun c =>
  match p c with
  | .found value next tried => .found (some value) next tried
  | .stuck fault tried =>
    if fault.complaint.isFinal then .stuck fault tried else .found none c tried

/-- The first of the readers that is not stuck. -/
def firstOf (last : Reader α) : List (Reader α) → Reader α
  | [] => last
  | p :: rest => p.or (firstOf last rest)

/-- The place where the reader stands, as the number of characters left. -/
def place : Reader Nat := fun c => .found c.left c .none

/-- A piece that is recognised by what the text left starts with, and its number of characters. -/
def leading (complaint : Complaint) (recognise : List Char → Option (α × Nat)) : Reader α :=
  fun c =>
  match recognise c.rest with
  | some (value, width) => .found value (c.advance width) .none
  | none => .stuck ⟨complaint, c.left⟩ .none

/-- A fixed text. -/
def literalAs (complaint : Complaint) (text : String) : Reader Unit :=
  leading complaint fun cs => if text.toList.isPrefixOf cs then some ((), text.length) else none

/-- A fixed text, which is named in the complaint. -/
def literal (text : String) : Reader Unit := literalAs (.expected text) text

/-- The text up to the first place where `stop` begins, which must not be empty. -/
def run (complaint : Complaint) (stop : List Char → Bool) : Reader String :=
  leading complaint fun cs => match runBefore stop cs with
    | [] => none
    | c :: rest => some (String.ofList (c :: rest), rest.length + 1)

/-- One or more characters of a kind. -/
def many1 (complaint : Complaint) (isGood : Char → Bool) : Reader String :=
  run complaint fun cs => !(cs.head?.any isGood)

/-- The text up to the first place where a mark stands, which must come. -/
def upTo (complaint : Complaint) (mark : String) : Reader String :=
  leading complaint fun cs => (Text.before? mark.toList cs).map fun text =>
    (String.ofList text, text.length)

/-- One or more blanks. -/
def space : Reader Unit := do discard (many1 .expectedWhitespace Text.isXmlBlank)

/-- Any number of blanks. -/
def spaces : Reader Unit := do discard (optional space)

/-- A name in which colons are allowed everywhere. -/
def name (complaint : Complaint) : Reader String :=
  leading complaint fun cs => (leadingName? cs).map fun n => (String.ofList n, n.length)

/-- A prefixed name. -/
def qName (complaint : Complaint) : Reader PrefixedName :=
  leading complaint fun cs => (leadingQName? cs).map fun n => (n, n.width)

/-- Repeats a reader, at most `steps` times, until it answers that it is done. -/
def untilDone (step : Reader (α ⊕ β)) : Nat → Reader (List α × β)
  | 0 => complain (.expected "")
  | steps + 1 => do
    match ← step with
    | .inr last => return ([], last)
    | .inl item =>
      let (items, last) ← untilDone step steps
      return (item :: items, last)

/-- Repeats a reader until it answers that it is done. Every round reads something, so there are no
more rounds than characters left, and the bound is never met. -/
def untilEnd (step : Reader (α ⊕ β)) : Reader (List α × β) := fun c =>
  untilDone step (c.left + 1) c

end Reader

end XPathBench.Xml
