import XPathBench.Proofs.XPath.Outlines

/-!
# Abbreviations in outlines

A double slash stands for a step between two slashes, and points stand for a step. Spelling them out
changes no type.

* `Piece.spelledOut`: the pieces that a piece abbreviates
* `typeOf_spelledOut`: the type stays
-/

namespace XPathBench.XPath

open Outline

/-- The pieces that a piece abbreviates; the steps are marks without text. -/
def Piece.spelledOut : Piece → List Piece
  | ⟨.operator .slash, ['/', '/']⟩ =>
    [⟨.operator .slash, ['/', '/']⟩, ⟨.mark, []⟩, ⟨.mark, []⟩, ⟨.operator .slash, ['/']⟩]
  | ⟨.mark, ['.']⟩ => [⟨.mark, ['.']⟩, ⟨.mark, []⟩]
  | ⟨.mark, ['.', '.']⟩ => [⟨.mark, ['.', '.']⟩, ⟨.mark, []⟩]
  | p => [p]

namespace Outline

/-- Pieces with their abbreviations spelled out. -/
def spelledOut (ps : List Piece) : List Piece := ps.flatMap Piece.spelledOut

variable {p : Piece} {ps : List Piece} {depth : Nat}

theorem spelledOut_cases (p : Piece) :
    p.spelledOut = [p] ∨ p.text ≠ [')'] ∧
      (p.shape = .operator .slash ∧ p.spelledOut =
        [p, ⟨.mark, []⟩, ⟨.mark, []⟩, ⟨.operator .slash, ['/']⟩] ∨
      p.shape = .mark ∧ p.spelledOut = [p, ⟨.mark, []⟩]) := by
  unfold Piece.spelledOut
  split
  · exact .inr ⟨by simp, .inl ⟨rfl, rfl⟩⟩
  · exact .inr ⟨by simp, .inr ⟨rfl, rfl⟩⟩
  · exact .inr ⟨by simp, .inr ⟨rfl, rfl⟩⟩
  · exact .inl rfl

theorem spelledOut_self (h : p.shape ≠ .mark) (hs : p.shape ≠ .operator .slash) :
    p.spelledOut = [p] := by
  obtain h' | ⟨_, ⟨h', _⟩ | ⟨h', _⟩⟩ := spelledOut_cases p
  · exact h'
  · exact absurd h' hs
  · exact absurd h' h

theorem spelledOut_cons : spelledOut (p :: ps) = p.spelledOut ++ spelledOut ps := List.flatMap_cons

/-- What is spelled out comes behind the abbreviation. -/
theorem exists_spelledOut (p : Piece) : ∃ qs, p.spelledOut = p :: qs := by
  obtain h | ⟨_, ⟨_, h⟩ | ⟨_, h⟩⟩ := spelledOut_cases p <;> exact ⟨_, h⟩

theorem isEmpty_spelledOut : (spelledOut ps).isEmpty = ps.isEmpty := by
  cases ps with
  | nil => rfl
  | cons p ps =>
    obtain ⟨qs, hqs⟩ := exists_spelledOut p
    rw [spelledOut_cons, hqs]
    rfl

/-- A second slash is no looser than the first. -/
theorem loosestFrom_spelledOut {found : Option OperatorClass} :
    loosestFrom depth found (spelledOut ps) = loosestFrom depth found ps := by
  induction ps generalizing depth found with
  | nil => rfl
  | cons p ps ih =>
    rw [spelledOut_cons]
    obtain h | ⟨_, ⟨hp, h⟩ | ⟨hp, h⟩⟩ := spelledOut_cases p
    · rw [h, List.singleton_append, loosestFrom, loosestFrom]
      cases p.shape <;> simp only [ih]
    · rw [h]
      simp only [List.cons_append, List.nil_append, loosestFrom, hp, ih]
      split
      · rw [if_neg (by simp)]
      · rfl
    · rw [h]
      simp only [List.cons_append, List.nil_append, loosestFrom, hp, ih]

theorem closesAtEnd_spelledOut : closesAtEnd depth (spelledOut ps) = closesAtEnd depth ps := by
  induction ps generalizing depth with
  | nil => rfl
  | cons p ps ih =>
    rw [spelledOut_cons]
    obtain h | ⟨_, ⟨hp, h⟩ | ⟨hp, h⟩⟩ := spelledOut_cases p
    · rw [h, List.singleton_append, closesAtEnd, closesAtEnd]
      cases p.shape <;> simp only [ih, isEmpty_spelledOut]
    · rw [h]
      simp only [List.cons_append, List.nil_append, closesAtEnd, hp, ih]
    · rw [h]
      simp only [List.cons_append, List.nil_append, closesAtEnd, hp, ih]

theorem isGroup_spelledOut : isGroup (spelledOut ps) = isGroup ps := by
  cases ps with
  | nil => rfl
  | cons p ps =>
    by_cases hp : p.shape = .opening
    · rw [spelledOut_cons, spelledOut_self (by simp [hp]) (by simp [hp]), List.singleton_append,
        isGroup, isGroup, closesAtEnd_spelledOut]
    · obtain ⟨qs, hqs⟩ := exists_spelledOut p
      rw [spelledOut_cons, hqs, List.cons_append, isGroup_of_ne hp, isGroup_of_ne hp]

theorem isParenthesized_spelledOut : isParenthesized (spelledOut ps) = isParenthesized ps := by
  rw [isParenthesized, isParenthesized, isGroup_spelledOut]
  congr 1
  obtain rfl | ⟨ps, p, rfl⟩ := List.eq_nil_or_concat ps
  · rfl
  · rw [List.concat_eq_append, spelledOut, List.flatMap_append, List.flatMap_singleton,
      List.getLast?_concat]
    obtain h | ⟨hp, ⟨_, h⟩ | ⟨_, h⟩⟩ := spelledOut_cases p
    · rw [h, List.getLast?_concat]
    · rw [h]
      simp [List.getLast?_append, hp]
    · rw [h]
      simp [List.getLast?_append, hp]

theorem operandType_spelledOut : operandType (spelledOut ps) = operandType ps := by
  cases ps with
  | nil => rfl
  | cons p ps =>
    rw [spelledOut_cons]
    obtain h | ⟨_, hp⟩ := spelledOut_cases p
    · rw [h, List.singleton_append]
      cases ps with
      | nil => rfl
      | cons q ps =>
        have hgroup := @isGroup_spelledOut (q :: ps)
        obtain ⟨qs, hqs⟩ := exists_spelledOut q
        rw [spelledOut_cons, hqs, List.cons_append] at hgroup ⊢
        simp only [operandType, hgroup]
    · have hname : ∀ q qs, operandType (p :: q :: qs) = .nodeSet := fun q qs => by
        obtain ⟨hp, _⟩ | ⟨hp, _⟩ := hp <;> simp [operandType, hp]
      have hshort : operandType (p :: ps) = .nodeSet := by
        cases ps with
        | nil => obtain ⟨hp, _⟩ | ⟨hp, _⟩ := hp <;> simp [operandType, hp]
        | cons q ps => exact hname q ps
      obtain ⟨_, h⟩ | ⟨_, h⟩ := hp <;> rw [h, hshort] <;> exact hname _ _

theorem exists_of_isParenthesized (h : isParenthesized ps = true) :
    ∃ p inner q, ps = p :: (inner ++ [q]) ∧ p.shape = .opening ∧ q.text = [')'] := by
  obtain ⟨hgroup, hlast⟩ := Bool.and_eq_true_iff.mp h
  cases ps with
  | nil => cases hgroup
  | cons p ps =>
    obtain ⟨hp, hclosed⟩ := Bool.and_eq_true_iff.mp hgroup
    obtain rfl | ⟨inner, q, rfl⟩ := List.eq_nil_or_concat ps
    · cases hclosed
    · rw [List.concat_eq_append] at hlast ⊢
      rw [← List.cons_append, List.getLast?_concat] at hlast
      exact ⟨p, inner, q, rfl, by simpa using (Bool.and_eq_true_iff.mp hp).1, by simpa using hlast⟩

theorem typeOf_spelledOut (ps : List Piece) : typeOf (spelledOut ps) = typeOf ps := by
  rw [typeOf.eq_def (spelledOut ps), typeOf.eq_def ps, isEmpty_spelledOut, loosest?, loosest?,
    loosestFrom_spelledOut, isParenthesized_spelledOut, operandType_spelledOut]
  split
  · rfl
  · split
    · rfl
    · split
      · next hparens =>
        obtain ⟨p, inner, q, rfl, hp, hq⟩ := exists_of_isParenthesized hparens
        have hlast : q.spelledOut = [q] := (spelledOut_cases q).resolve_right fun h => h.1 hq
        have hinner : (spelledOut (p :: (inner ++ [q]))).tail.dropLast = spelledOut inner := by
          rw [spelledOut_cons, spelledOut_self (by simp [hp]) (by simp [hp]), spelledOut,
            List.flatMap_append, List.flatMap_singleton, hlast, List.singleton_append,
            List.tail_cons, List.dropLast_concat]
          rfl
        rw [hinner, List.tail_cons, List.dropLast_concat]
        exact typeOf_spelledOut inner
      · rfl
termination_by ps.length
decreasing_by
  subst_vars
  simp only [List.length_cons, List.length_append]
  omega

end Outline

end XPathBench.XPath
