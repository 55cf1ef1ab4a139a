import Mathlib.Data.List.Forall2
import Mathlib.Data.List.Sort
import Mathlib.Data.String.Basic
import XPathBench.Xml.Assembly

/-!
# Attributes in order

The order of names in a tag is strict and total, so attributes that stand in order stay where they
are, whatever is sorted together with them.

* `PrefixedName.Before`: the order of names
* `WrittenAttribute.filter_sort`: what sorting does to attributes that stand in order already
* `Attribute.names_put`: attributes put one after the other stay in order
-/

namespace XPathBench.Xml

/-! ## The order of names -/

namespace PrefixedName

/-- The first name comes before the second one. -/
def Before (a b : PrefixedName) : Prop := a.before b = true

variable {a b c : PrefixedName}

theorem not_before_self : ¬ a.Before a := by
  obtain ⟨p, l⟩ := a
  cases p <;> simp [Before, before]

theorem Before.ne (h : a.Before b) : a ≠ b := fun heq => not_before_self (heq ▸ h)

theorem Before.trans (h : a.Before b) (h' : b.Before c) : a.Before c := by
  obtain ⟨p, k⟩ := a
  obtain ⟨q, l⟩ := b
  obtain ⟨r, m⟩ := c
  cases p <;> cases q <;> cases r <;>
    simp only [Before, before, decide_eq_true_eq, Bool.or_eq_true, Bool.and_eq_true, beq_iff_eq,
      Bool.false_eq_true] at h h' ⊢
  · exact lt_trans h h'
  · rcases h with h | ⟨rfl, h⟩ <;> rcases h' with h' | ⟨rfl, h'⟩
    · exact .inl (lt_trans h h')
    · exact .inl h
    · exact .inl h'
    · exact .inr ⟨rfl, lt_trans h h'⟩

theorem before_or_eq_or_before (a b : PrefixedName) : a.Before b ∨ a = b ∨ b.Before a := by
  obtain ⟨p, k⟩ := a
  obtain ⟨q, l⟩ := b
  cases p with
  | none =>
    cases q with
    | none => rcases lt_trichotomy k l with h | h | h <;> simp [Before, before, h]
    | some q => exact .inl rfl
  | some p =>
    cases q with
    | none => exact .inr (.inr rfl)
    | some q =>
      rcases lt_trichotomy p q with h | rfl | h
      · simp [Before, before, h]
      · rcases lt_trichotomy k l with h | h | h <;> simp [Before, before, h]
      · simp [Before, before, h]

end PrefixedName

/-! ## Sorting -/

namespace WrittenAttribute

/-- The second attribute does not come before the first one. -/
def NotAfter (a b : WrittenAttribute) : Prop := ¬ b.name.Before a.name

instance : DecidableRel NotAfter := fun _ _ => inferInstanceAs (Decidable (¬ (_ = true)))

instance : Std.Total NotAfter where
  total a b := by
    rcases PrefixedName.before_or_eq_or_before a.name b.name with h | h | h
    · exact .inl fun h' => PrefixedName.not_before_self (h.trans h')
    · exact .inl (by rw [NotAfter, h]; exact PrefixedName.not_before_self)
    · exact .inr fun h' => PrefixedName.not_before_self (h.trans h')

instance : IsTrans WrittenAttribute NotAfter where
  trans a b c hab hbc hca := by
    rcases PrefixedName.before_or_eq_or_before a.name b.name with h | h | h
    · exact hbc (hca.trans h)
    · exact hbc (h ▸ hca)
    · exact hab h

variable {a b : WrittenAttribute} {as bs : List WrittenAttribute}

theorem insert_eq_orderedInsert : insert a as = as.orderedInsert NotAfter a := by
  induction as with
  | nil => rfl
  | cons b as ih =>
    rw [insert, List.orderedInsert_cons, ih]
    by_cases h : b.name.before a.name = true
    · rw [if_pos h, if_neg fun hab : NotAfter a b => hab h]
    · rw [if_neg h, if_pos (show NotAfter a b from h)]

theorem sort_eq_insertionSort (as : List WrittenAttribute) :
    sort as = as.insertionSort NotAfter := by
  induction as with
  | nil => rfl
  | cons a as ih =>
    rw [List.insertionSort_cons, ← ih, ← insert_eq_orderedInsert]
    rfl

theorem perm_sort (as : List WrittenAttribute) : (sort as).Perm as := by
  rw [sort_eq_insertionSort]
  exact List.perm_insertionSort _ as

theorem pairwise_sort (as : List WrittenAttribute) : (sort as).Pairwise NotAfter := by
  rw [sort_eq_insertionSort]
  exact List.pairwise_insertionSort _ as

/-- Attributes that stand in order come out of sorting as they are, whatever else is sorted. -/
theorem filter_sort {p : WrittenAttribute → Bool}
    (h : (as.filter p).Pairwise fun a b => a.name.Before b.name) :
    (sort as).filter p = as.filter p := by
  have horder : (as.filter p).Pairwise NotAfter :=
    h.imp fun {a b} hab (hba : b.name.Before a.name) => PrefixedName.not_before_self (hab.trans hba)
  have hsub : (as.filter p).Sublist ((sort as).filter p) := by
    rw [sort_eq_insertionSort]
    simpa using (List.sublist_insertionSort horder List.filter_sublist).filter p
  exact (hsub.eq_of_length ((perm_sort as).filter p).length_eq.symm).symm

theorem firstRepeated?_eq_none_of_pairwise (h : as.Pairwise fun a b => a.name ≠ b.name) :
    firstRepeated? as = none := by
  induction as with
  | nil => rfl
  | cons a as ih =>
    cases as with
    | nil => rfl
    | cons b as =>
      rw [List.pairwise_cons] at h
      rw [firstRepeated?, if_neg (h.1 b (by simp)), ih h.2]

/-- Attributes in order of which none repeats the name before it have names in strict order. -/
theorem pairwise_before_of_firstRepeated? (hsort : as.Pairwise NotAfter)
    (h : firstRepeated? as = none) : as.Pairwise fun a b => a.name.Before b.name := by
  induction as with
  | nil => exact .nil
  | cons a as ih =>
    cases as with
    | nil => simp
    | cons b as =>
      rw [firstRepeated?] at h
      split at h
      · cases h
      · next hne =>
        rw [List.pairwise_cons] at hsort
        have hrest := ih hsort.2 h
        have hab : a.name.Before b.name := by
          rcases PrefixedName.before_or_eq_or_before a.name b.name with hab | hab | hba
          · exact hab
          · exact absurd hab hne
          · exact absurd hba (hsort.1 b (by simp))
        refine List.pairwise_cons.mpr ⟨fun c hc => ?_, hrest⟩
        rcases List.mem_cons.mp hc with rfl | hc
        · exact hab
        · exact hab.trans ((List.pairwise_cons.mp hrest).1 c hc)

end WrittenAttribute

/-! ## Attributes put one after the other -/

namespace Attribute

/-- The attributes have the same namespace and local name. -/
def SameName (a b : Attribute) : Prop :=
  a.name.uri = b.name.uri ∧ a.name.localName = b.name.localName

variable {a new : Attribute} {as : List Attribute}

theorem put_eq : new.put as =
    (as.filter fun a => !(a.name.uri == new.name.uri && a.name.localName == new.name.localName)) ++
      [new] := rfl

theorem put_sublist : (new.put as).Sublist (as ++ [new]) :=
  List.Sublist.append_right List.filter_sublist _

theorem pairwise_put (h : as.Pairwise fun a b => ¬ a.SameName b) :
    (new.put as).Pairwise fun a b => ¬ a.SameName b := by
  rw [put_eq, List.pairwise_append]
  refine ⟨h.filter _, List.pairwise_singleton _ _, fun a ha b hb hab => ?_⟩
  rw [List.mem_singleton] at hb
  subst hb
  have := (List.mem_filter.mp ha).2
  simp [hab.1, hab.2] at this

/-- Attributes, put one after the other. -/
def putAll (as new : List Attribute) : List Attribute := new.foldl (fun as a => a.put as) as

theorem putAll_sublist {new : List Attribute} : (putAll as new).Sublist (as ++ new) := by
  induction new generalizing as with
  | nil => simp [putAll]
  | cons a new ih =>
    refine List.Sublist.trans ih ?_
    simpa using put_sublist.append_right new

theorem pairwise_putAll {new : List Attribute} (h : as.Pairwise fun a b => ¬ a.SameName b) :
    (putAll as new).Pairwise fun a b => ¬ a.SameName b := by
  induction new generalizing as with
  | nil => exact h
  | cons a new ih => exact ih (pairwise_put h)

/-- An attribute with a name of its own is put behind the others. -/
theorem put_of_not_sameName (h : ∀ a ∈ as, ¬ a.SameName new) : new.put as = as ++ [new] := by
  rw [put_eq, List.filter_eq_self.mpr]
  intro a ha
  have hne := h a ha
  rw [SameName, not_and_or] at hne
  simpa using hne

theorem putAll_of_pairwise {new : List Attribute}
    (h : (as ++ new).Pairwise fun a b => ¬ a.SameName b) : putAll as new = as ++ new := by
  induction new generalizing as with
  | nil => simp [putAll]
  | cons a new ih =>
    rw [← List.singleton_append, ← List.append_assoc] at h ⊢
    have hput : a.put as = as ++ [a] := put_of_not_sameName fun b hb => by
      have := (List.pairwise_append.mp (List.pairwise_append.mp h).1).2.2 b hb a (by simp)
      exact this
    rw [← hput] at h ⊢
    exact ih h

end Attribute

end XPathBench.Xml
