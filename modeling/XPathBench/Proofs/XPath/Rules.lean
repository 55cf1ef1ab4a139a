import XPathBench.Proofs.XPath.Cells
import XPathBench.Proofs.XPath.Tokens

/-!
# Rules of the parser

What a rule takes and answers, for the ways in which rules are put together. Rules are followed over
tokens with the pieces of the outline that they stand for.

* `Follows`: from cells as told, what a rule takes, answers and leaves is as told
* `Follows.bind`, `follows_next`, `follows_many`: how rules are put together
-/

namespace XPathBench.XPath.Parser

variable {α β : Type} {before : List Cell → Prop} {rule : Parser α}
  {after : α → List Piece → List Cell → Prop}

/-- Started at cells as `before` tells, the rule takes some of them, each of which stands for
pieces. What it answers, the pieces of what it takes and the cells that are left are as `after`
tells. -/
def Follows (before : List Cell → Prop) (rule : Parser α)
    (after : α → List Piece → List Cell → Prop) : Prop :=
  ∀ cells error a left, before cells → rule.run ⟨cells.map Prod.fst, error⟩ = .ok (a, left) →
    ∃ used rest, cells = used ++ rest ∧ left = ⟨rest.map Prod.fst, error⟩ ∧
      (∀ c ∈ used, c.2 ≠ []) ∧ after a (piecesOf used) rest

theorem Follows.mono {after' : α → List Piece → List Cell → Prop} (h : Follows before rule after)
    (hafter : ∀ a ps rest, after a ps rest → after' a ps rest) : Follows before rule after' := by
  intro cells error a left hbefore hrun
  obtain ⟨used, rest, hcells, hleft, hused, h⟩ := h cells error a left hbefore hrun
  exact ⟨used, rest, hcells, hleft, hused, hafter _ _ _ h⟩

theorem Follows.weaken {before' : List Cell → Prop} (h : Follows before' rule after)
    (hbefore : ∀ cells, before cells → before' cells) : Follows before rule after :=
  fun cells error a left hcells hrun => h cells error a left (hbefore cells hcells) hrun

/-- What holds wherever the rule is started may be used to follow it. -/
theorem follows_of {fact : Prop} (hfact : ∀ cells, before cells → fact)
    (h : fact → Follows before rule after) : Follows before rule after :=
  fun cells error a left hcells hrun => h (hfact cells hcells) cells error a left hcells hrun

theorem Follows.bind {next : α → Parser β} {last : β → List Piece → List Cell → Prop}
    (h : Follows before rule after)
    (hnext : ∀ a ps, Follows (after a ps) (next a) fun b qs rest => last b (ps ++ qs) rest) :
    Follows before (rule >>= next) last := by
  intro cells error b left hbefore hrun
  rw [StateT.run_bind] at hrun
  obtain ⟨⟨a, middle⟩, hrule, hrun⟩ := bind_eq_ok.mp hrun
  obtain ⟨used, rest, rfl, rfl, hused, hafter⟩ := h cells error a middle hbefore hrule
  obtain ⟨used', rest', rfl, hleft, hused', hlast⟩ := hnext a _ rest error b left hafter hrun
  refine ⟨used ++ used', rest', (List.append_assoc _ _ _).symm, hleft, ?_, ?_⟩
  · exact List.forall_mem_append.mpr ⟨hused, hused'⟩
  · rw [piecesOf_append]
    exact hlast

/-- The rules behind a rule may use what is known of what it takes. -/
theorem Follows.bindTold {told : α → List Piece → Prop} {behind : List Cell → Prop}
    {next : α → Parser β} {last : β → List Piece → List Cell → Prop}
    (h : Follows before rule fun a ps rest => told a ps ∧ behind rest)
    (hnext : ∀ a ps, told a ps → Follows behind (next a) fun b qs rest => last b (ps ++ qs) rest) :
    Follows before (rule >>= next) last :=
  h.bind fun a ps => follows_of (fun _ hcells => hcells.1) fun htold =>
    (hnext a ps htold).weaken fun _ hcells => hcells.2

theorem follows_pure {a : α} (h : ∀ cells, before cells → after a [] cells) :
    Follows before (pure a) after := by
  intro cells error b left hbefore hrun
  cases hrun
  exact ⟨[], cells, rfl, rfl, nofun, h cells hbefore⟩

/-- What is answered behind pieces that are taken already. -/
theorem follows_return {a : α} {ps : List Piece} (h : ∀ cells, before cells → after a ps cells) :
    Follows before (pure a) fun b qs => after b (ps ++ qs) :=
  follows_pure fun cells hcells => by
    rw [List.append_nil]
    exact h cells hcells

theorem Follows.map {f : α → β} {last : β → List Piece → List Cell → Prop}
    (h : Follows before rule fun a => last (f a)) : Follows before (f <$> rule) last := by
  rw [map_eq_pure_bind]
  exact h.bind fun a ps => follows_return fun _ hcells => hcells

theorem follows_get : Follows before get fun _ ps rest => ps = [] ∧ before rest := by
  intro cells error s left hbefore hrun
  cases hrun
  exact ⟨[], cells, rfl, rfl, nofun, rfl, hbefore⟩

theorem follows_throw {e : ParseError} : Follows before (throw e) after := by
  intro cells error a left hbefore hrun
  cases hrun

/-! ## Single tokens -/

theorem follows_next {value : Token → Option α}
    {after : Option α → List Piece → List Cell → Prop}
    (hnone : ∀ cells, before cells → (∀ cell ∈ cells.head?, value cell.1 = none) →
      after none [] cells)
    (hsome : ∀ token ps rest v, before ((token, ps) :: rest) → value token = some v →
      ps ≠ [] ∧ after (some v) ps rest) : Follows before (next? value) after := by
  intro cells error found left hbefore hrun
  obtain ⟨rfl, rfl, hvalue⟩ | ⟨token, rest, v, hcells, hvalue, rfl, rfl⟩ := run_next hrun
  · refine ⟨[], cells, rfl, rfl, nofun, hnone cells hbefore fun cell hcell => ?_⟩
    refine hvalue cell.1 ?_
    rw [List.head?_map]
    exact Option.mem_map_of_mem _ hcell
  · obtain ⟨⟨_, ps⟩, rest, rfl, rfl, rfl⟩ := List.map_eq_cons_iff.mp hcells
    obtain ⟨hne, hafter⟩ := hsome _ ps rest v hbefore hvalue
    refine ⟨[(_, ps)], rest, rfl, rfl, List.forall_mem_singleton.mpr hne, ?_⟩
    rwa [piecesOf_singleton]

theorem follows_take {expected : Token → Bool} {after : Unit → List Piece → List Cell → Prop}
    (h : ∀ token ps rest, before ((token, ps) :: rest) → expected token = true →
      ps ≠ [] ∧ after () ps rest) : Follows before (take expected) after := by
  intro cells error found left hbefore hrun
  obtain ⟨token, rest, hcells, hexpected, rfl⟩ := run_take hrun
  obtain ⟨⟨_, ps⟩, rest, rfl, rfl, rfl⟩ := List.map_eq_cons_iff.mp hcells
  obtain ⟨hne, hafter⟩ := h _ ps rest hbefore hexpected
  refine ⟨[(_, ps)], rest, rfl, rfl, List.forall_mem_singleton.mpr hne, ?_⟩
  rwa [piecesOf_singleton]

/-! ## Rules made of others -/

theorem Follows.require {e : ParseError} {rule : Parser (Option α)}
    {after : Option α → List Piece → List Cell → Prop} (h : Follows before rule after) :
    Follows before (require e rule) fun a ps rest => after (some a) ps rest := by
  refine h.bind fun found ps => ?_
  cases found with
  | none => exact follows_throw
  | some a => exact follows_return fun _ hcells => hcells

/-- What a rule finds is as `found` tells, and behind it cells are left as `behind` tells. Where it
finds nothing it takes nothing. -/
def Finds (before behind : List Cell → Prop) (found : α → List Piece → Prop) :
    Option α → List Piece → List Cell → Prop
  | none, ps, rest => ps = [] ∧ before rest
  | some a, ps, rest => found a ps ∧ behind rest

theorem finds_next {behind : List Cell → Prop} {found : α → List Piece → Prop}
    {value : Token → Option α}
    (h : ∀ token ps rest v, before ((token, ps) :: rest) → value token = some v →
      ps ≠ [] ∧ found v ps ∧ behind rest) :
    Follows before (next? value) (Finds before behind found) :=
  follows_next (fun _ hcells _ => ⟨rfl, hcells⟩) h

theorem Follows.bindFound {behind : List Cell → Prop} {found : α → List Piece → Prop}
    {rule : Parser (Option α)} {next : Option α → Parser β}
    {last : β → List Piece → List Cell → Prop} (h : Follows before rule (Finds before behind found))
    (hnone : Follows before (next none) last) (hsome : ∀ a ps, found a ps →
      Follows behind (next (some a)) fun b qs rest => last b (ps ++ qs) rest) :
    Follows before (rule >>= next) last := by
  refine h.bind fun result ps => ?_
  cases result with
  | none =>
    refine follows_of (fun _ hcells => hcells.1) fun hps => ?_
    subst hps
    exact hnone.weaken fun _ hcells => hcells.2
  | some a =>
    exact follows_of (fun _ hcells => hcells.1) fun hfound =>
      (hsome a ps hfound).weaken fun _ hcells => hcells.2

/-- A rule that finds nothing leaves all cells, so what is known of them is still known. -/
theorem Follows.frame {behind extra : List Cell → Prop} {found : α → List Piece → Prop}
    {rule : Parser (Option α)} (h : Follows before rule (Finds before behind found)) :
    Follows (fun cells => before cells ∧ extra cells) rule
      (Finds (fun cells => before cells ∧ extra cells) behind found) := by
  intro cells error result left hbefore hrun
  obtain ⟨used, rest, hcells, hleft, hused, hresult⟩ := h cells error result left hbefore.1 hrun
  refine ⟨used, rest, hcells, hleft, hused, ?_⟩
  cases result with
  | some a => exact hresult
  | none =>
    have hnil : used = [] := by
      cases used with
      | nil => rfl
      | cons cell used =>
        have hps := (List.append_eq_nil_iff.mp hresult.1).1
        exact absurd hps (hused cell List.mem_cons_self)
    subst hnil
    exact ⟨rfl, hresult.2, by rw [← List.nil_append rest, ← hcells]; exact hbefore.2⟩

theorem follows_firstOf {behind : List Cell → Prop} {found : α → List Piece → Prop}
    {rules : List (Parser (Option α))}
    (h : ∀ rule ∈ rules, Follows before rule (Finds before behind found)) :
    Follows before (firstOf rules) (Finds before behind found) := by
  induction rules with
  | nil => exact follows_pure fun cells hcells => ⟨rfl, hcells⟩
  | cons rule others ih =>
    rw [List.forall_mem_cons] at h
    exact h.1.bindFound (ih h.2) fun a ps hfound =>
      follows_return fun _ hcells => ⟨hfound, hcells⟩

/-- Each of some answers is as `found` tells, and so are its pieces. -/
inductive Each (found : α → List Piece → Prop) : List α → List Piece → Prop where
  | nil : Each found [] []
  | cons {a : α} {as : List α} {ps qs : List Piece} : found a ps → Each found as qs →
      Each found (a :: as) (ps ++ qs)

theorem follows_many {found : α → List Piece → Prop} {rule : Parser (Option α)}
    (h : Follows before rule (Finds before before found)) (rounds : Nat) :
    Follows before (many rule rounds) fun as ps rest => Each found as ps ∧ before rest := by
  induction rounds with
  | zero => exact follows_pure fun cells hcells => ⟨.nil, hcells⟩
  | succ rounds ih =>
    refine h.bindFound (follows_pure fun cells hcells => ⟨.nil, hcells⟩) fun a ps hfound => ?_
    refine ih.bind fun as qs => follows_pure fun cells hcells => ?_
    rw [List.append_nil]
    exact ⟨.cons hfound hcells.1, hcells.2⟩

theorem follows_manyLeft {found : α → List Piece → Prop} {rule : Parser (Option α)}
    (h : Follows before rule (Finds before before found)) :
    Follows before (manyLeft rule) fun as ps rest => Each found as ps ∧ before rest := by
  refine follows_get.bindTold fun s ps hps => ?_
  subst hps
  exact follows_many h _

end XPathBench.XPath.Parser
