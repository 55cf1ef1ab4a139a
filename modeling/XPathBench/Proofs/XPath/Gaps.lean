import XPathBench.Proofs.XPath.Fragments
import XPathBench.Proofs.Xml.Layout

/-!
# What laying out adds

A place that is laid out is written piece by piece as it is written without its blank text. Only
line breaks are added, and only in the gaps between two pieces that are not text.

* `Node.depths`: how deep the pieces of a node stand
* `Station`: a piece with the one before it and its depth; `Station.gap` is what is added before it
* `pretty_eq_join_stations`: nothing else is added, and nothing is left out
-/

namespace XPathBench.Xml

variable {margin : Nat → String} {depth : Nat} {before? : Option Piece}

/-! ## Depths -/

mutual

/-- The number of elements around each piece of a node. For an end tag these are the elements around
its element. -/
def Node.depths (depth : Nat) : Node → List Nat
  | .element _ (child :: rest) =>
    depth :: (child.depths (depth + 1) ++ depthsOfAll (depth + 1) rest ++ [depth])
  | _ => [depth]

/-- The number of elements around each piece of nodes, one after the other. -/
def depthsOfAll (depth : Nat) : List Node → List Nat
  | [] => []
  | n :: rest => n.depths depth ++ depthsOfAll depth rest

end

namespace Piece

/-- The number of elements around a piece, inside of those that are open before it. -/
def depthAt (depth : Nat) : Piece → Nat
  | closing _ => depth - 1
  | _ => depth

/-- The number of elements that are open behind a piece. -/
def depthBehind (depth : Nat) : Piece → Nat
  | opening _ => depth + 1
  | closing _ => depth - 1
  | _ => depth

/-- Depths counted along the pieces. -/
def depthsFrom (depth : Nat) : List Piece → List Nat
  | [] => []
  | p :: rest => p.depthAt depth :: depthsFrom (p.depthBehind depth) rest

end Piece

mutual

theorem depthsFrom_pieces : (scope : Scope) → (depth : Nat) → (n : Node) → (rest : List Piece) →
    Piece.depthsFrom depth (n.pieces scope ++ rest) = n.depths depth ++ Piece.depthsFrom depth rest
  | scope, depth, .element tag (child :: nodes), rest => by
    have hchildren := depthsFrom_piecesOfAll (scope.extend tag.needs).1 (depth + 1) (child :: nodes)
      (.closing ("</" ++ tag.name.qualified ++ ">") :: rest)
    rw [piecesOfAll, depthsOfAll] at hchildren
    rw [Node.pieces, Node.depths, List.cons_append, Piece.depthsFrom, List.append_assoc,
      List.singleton_append, Piece.depthBehind, hchildren, Piece.depthsFrom, List.cons_append,
      List.append_assoc _ [depth], List.singleton_append]
    rfl
  | _, _, .element _ [], _ | _, _, .text _, _ | _, _, .comment _, _
  | _, _, .instruction _ _, _ => rfl

/-- Along the pieces of nodes, elements are counted as they enclose each other. -/
theorem depthsFrom_piecesOfAll : (scope : Scope) → (depth : Nat) → (nodes : List Node) →
    (rest : List Piece) → Piece.depthsFrom depth (piecesOfAll scope nodes ++ rest) =
      depthsOfAll depth nodes ++ Piece.depthsFrom depth rest
  | _, _, [], _ => rfl
  | scope, depth, n :: nodes, rest => by
    rw [piecesOfAll, depthsOfAll, List.append_assoc, List.append_assoc,
      depthsFrom_pieces scope depth n, depthsFrom_piecesOfAll scope depth nodes]

end

/-! ## Stations -/

/-- The piece is text. -/
def Piece.isText : Piece → Bool
  | text _ => true
  | _ => false

/-- A piece where it stands: behind another one, unless it is the first, and inside of elements. -/
structure Station where
  before? : Option Piece
  depth : Nat
  piece : Piece

namespace Station

/-- What is added before a piece: a line break and a margin, unless the piece or the one before it
is text. Nothing is added before the first piece. -/
def gap (margin : Nat → String) (s : Station) : String :=
  match s.before? with
  | none => ""
  | some p => if p.isText || s.piece.isText then "" else "\n" ++ margin s.depth

/-- No character is added between the pieces of two stations if one of them is text. -/
def KeepsText (margin : Nat → String) (s t : Station) : Prop :=
  s.piece.isText = true ∨ t.piece.isText = true → t.gap margin = ""

end Station

/-- The stations of pieces with their depths. -/
def stationsFrom (before? : Option Piece) : List Piece → List Nat → List Station
  | piece :: pieces, depth :: depths =>
    ⟨before?, depth, piece⟩ :: stationsFrom (some piece) pieces depths
  | _, _ => []

/-- Pieces are found again at their stations. -/
theorem map_piece_stationsFrom (depth : Nat) (before? : Option Piece) (pieces : List Piece) :
    (stationsFrom before? pieces (Piece.depthsFrom depth pieces)).map (·.piece) = pieces := by
  induction pieces generalizing depth before? with
  | nil => rfl
  | cons p pieces ih =>
    rw [Piece.depthsFrom, stationsFrom, List.map_cons, ih]

theorem isChain_stationsFrom (before? : Option Piece) (pieces : List Piece) (depths : List Nat) :
    (stationsFrom before? pieces depths).IsChain (Station.KeepsText margin) := by
  induction pieces generalizing before? depths with
  | nil => exact .nil
  | cons p pieces ih =>
    cases depths with
    | nil => exact .nil
    | cons here depths =>
      rw [stationsFrom]
      have hrest := ih (some p) depths
      cases pieces with
      | nil => exact .singleton _
      | cons q pieces => cases depths with
        | nil => exact .singleton _
        | cons there depths =>
          refine .cons_cons (fun htext => ?_) hrest
          exact if_pos ((Bool.or_eq_true _ _).mpr htext)

/-- Laying out breaks a line before a piece if it is behind a piece that is not text. -/
theorem layOutFrom_eq_join (depth : Nat) (before? : Option Piece) (pieces : List Piece) :
    Piece.layOutFrom margin depth (before?.any fun p => !p.isText) pieces =
      String.join ((stationsFrom before? pieces (Piece.depthsFrom depth pieces)).map
        fun s => s.gap margin ++ s.piece.content) := by
  induction pieces generalizing depth before? with
  | nil => rfl
  | cons p pieces ih =>
    have hgap : Piece.layOutFrom margin depth (before?.any fun q => !q.isText) (p :: pieces) =
        Station.gap margin ⟨before?, p.depthAt depth, p⟩ ++ p.content ++
          Piece.layOutFrom margin (p.depthBehind depth) (!p.isText) pieces := by
      cases p <;> rcases before? with _ | ⟨_ | _ | _ | _⟩ <;> rfl
    rw [Piece.depthsFrom, stationsFrom, List.map_cons, String.join_cons, ← ih, hgap]
    rfl

end XPathBench.Xml

namespace XPathBench.XPath

open Xml

namespace Place

/-- A place without the blank text inside of it. -/
def withoutBlankText : Place → Place
  | root document => root ⟨dropBlankText document.children⟩
  | node parent index n => node parent index n.withoutBlankText
  | p => p

/-- The stations of the pieces by which a place is written without its blank text. -/
def stations (p : Place) : List Station :=
  stationsFrom none (piecesOfAll [] p.withoutBlankText.fragment)
    (depthsOfAll 0 p.withoutBlankText.fragment)

theorem kind_withoutBlankText (p : Place) : p.withoutBlankText.kind = p.kind := by
  cases p with
  | node _ _ n => cases n <;> rfl
  | _ => rfl

end Place

variable {p : Place}

/-- What is laid out are the nodes of the place without blank text. -/
theorem emitted_laidOut {margin : Nat → String} (hproper : Document.Proper ⟨p.fragment⟩) :
    p.emitted (.laidOut margin) = piecesOfAll [] p.withoutBlankText.fragment := by
  cases p with
  | root document =>
    exact congrArg (piecesOfAll []) (dropBlankText_eq_map hproper.oneElement.isText).symm
  | _ => rfl

theorem stations_eq : p.stations =
    stationsFrom none (piecesOfAll [] p.withoutBlankText.fragment)
      (Piece.depthsFrom 0 (piecesOfAll [] p.withoutBlankText.fragment)) := by
  have hdepths := depthsFrom_piecesOfAll [] 0 p.withoutBlankText.fragment []
  rw [List.append_nil, Piece.depthsFrom, List.append_nil] at hdepths
  rw [hdepths]
  rfl

theorem markup_eq_join_stations (hkind : p.kind.hasSubtree = true) :
    p.withoutBlankText.markup = String.join (p.stations.map (·.piece.content)) := by
  have hpieces := map_piece_stationsFrom 0 none (piecesOfAll [] p.withoutBlankText.fragment)
  rw [← stations_eq] at hpieces
  calc p.withoutBlankText.markup
      = Piece.raw (piecesOfAll [] p.withoutBlankText.fragment) :=
        Place.written_eq ((congrArg _ p.kind_withoutBlankText).trans hkind) .stored
    _ = String.join ((p.stations.map (·.piece)).map Piece.content) := by rw [hpieces]; rfl
    _ = _ := by rw [List.map_map]; rfl

theorem pretty_eq_join_gaps {margin : Nat → String} (hkind : p.kind.hasSubtree = true)
    (hproper : Document.Proper ⟨p.fragment⟩) :
    p.pretty margin = String.join (p.stations.map fun s => s.gap margin ++ s.piece.content) := by
  calc p.pretty margin
      = Piece.layOut margin (piecesOfAll [] p.withoutBlankText.fragment) := by
        rw [← emitted_laidOut hproper]
        exact Place.written_eq hkind (.laidOut margin)
    _ = _ := by
        rw [stations_eq]
        exact layOutFrom_eq_join 0 none _

/-- Namespaces have nothing below them. -/
theorem mem_subtree_of_ofDocument {document : Document} (hp : p ∈ Place.ofDocument document)
    (hkind : p.kind.hasSubtree = true) : p ∈ (Place.root document).subtree := by
  rcases List.mem_append.mp hp with hp | hp
  · exact hp
  obtain ⟨q, -, hp⟩ := List.mem_flatMap.mp hp
  rw [Place.kind_of_mem_namespaces hp] at hkind
  cases hkind

/-- An element or the root of a document that was read is laid out as it is written without its
blank text, with a line break in each gap between pieces that are not text, and nothing else. Other
places are laid out as they are stored. -/
theorem pretty_eq_join_stations {text : String} {document : Document} {p : Place}
    (h : Document.load text = .ok document) (hp : p ∈ Place.ofDocument document)
    (indent : Indent) :
    (p.kind.hasSubtree = true →
      p.withoutBlankText.markup = String.join (p.stations.map (·.piece.content)) ∧
      p.pretty indent.margin =
        String.join (p.stations.map fun s => s.gap indent.margin ++ s.piece.content) ∧
      p.stations.IsChain (Station.KeepsText indent.margin)) ∧
    (p.kind.hasSubtree = false → p.pretty indent.margin = p.markup) := by
  refine ⟨fun hkind => ?_, fun hkind => ?_⟩
  · have hproper := proper_fragment h (mem_subtree_of_ofDocument hp hkind) hkind
    exact ⟨markup_eq_join_stations hkind, pretty_eq_join_gaps hkind hproper,
      isChain_stationsFrom none _ _⟩
  · cases p with
    | root => cases hkind
    | node _ _ n => cases n with
      | element => cases hkind
      | _ => rfl
    | _ => rfl

theorem pretty_eq_join_stations_mixed : ∃ document,
    Document.load "<a> <b/>x<c/></a>" = .ok document ∧
    Place.root document ∈ Place.ofDocument document ∧
    (Place.root document).withoutBlankText.markup =
      String.join ((Place.root document).stations.map (·.piece.content)) ∧
    (Place.root document).withoutBlankText.markup = "<a><b/>x<c/></a>" ∧
    (Place.root document).pretty (Indent.margin ⟨2, ' '⟩) = "<a>\n  <b/>x<c/>\n</a>" := by
  let b : Node := .element ⟨⟨none, none, "b"⟩, [], []⟩ []
  let c : Node := .element ⟨⟨none, none, "c"⟩, [], []⟩ []
  let document : Document := ⟨[.element ⟨⟨none, none, "a"⟩, [("xml", xmlUri)], []⟩
    [.text " ", b, .text "x", c]]⟩
  have hload : Document.load "<a> <b/>x<c/></a>" = .ok document :=
    load_eq_ok_iff.mpr (by decide +kernel)
  have hroot : Place.root document ∈ Place.ofDocument document := List.mem_cons_self
  obtain ⟨hmarkup, hpretty, -⟩ := (pretty_eq_join_stations hload hroot ⟨2, ' '⟩).1 rfl
  exact ⟨document, hload, hroot, hmarkup, by decide +kernel, hpretty.trans (by decide +kernel)⟩

end XPathBench.XPath
