import XPathBench.Text.Search

/-!
# First occurrences

The text before the first place where a mark stands depends on nothing behind that mark.
-/

namespace XPathBench.Text

/-- What stands before a mark that does not occur in it. -/
theorem append_cons_inj {α : Type} (mark : α) {xs ys rest rest' : List α} (hxs : mark ∉ xs)
    (hys : mark ∉ ys) (h : xs ++ mark :: rest = ys ++ mark :: rest') : xs = ys ∧ rest = rest' := by
  classical
  have hlines := congrArg (List.splitOn mark) h
  rw [List.splitOn_append_cons_self_of_not_mem hxs,
    List.splitOn_append_cons_self_of_not_mem hys] at hlines
  obtain rfl := (List.cons.inj hlines).1
  exact ⟨rfl, (List.cons.inj (List.append_cancel_left h)).2⟩

variable {mark close w rest : List Char}

theorem isPrefixOf_append_left (rest : List Char) (h : mark.length ≤ w.length) :
    mark.isPrefixOf (w ++ rest) = mark.isPrefixOf w := by
  rw [Bool.eq_iff_iff, List.isPrefixOf_iff_prefix, List.isPrefixOf_iff_prefix]
  exact ⟨fun hp => List.prefix_of_prefix_length_le hp (List.prefix_append w rest) h,
    fun hp => hp.trans (List.prefix_append w rest)⟩

/-- A prefix that reaches behind `w` holds the character that stands there. -/
theorem prefix_or_mem_of_prefix_append {d : Char} (h : mark <+: w ++ d :: rest) :
    mark <+: w ∨ d ∈ mark := by
  by_cases hlen : mark.length ≤ w.length
  · exact .inl (List.prefix_of_prefix_length_le h (List.prefix_append _ _) hlen)
  · obtain ⟨v, hv⟩ := h
    have hget := congrArg (·[w.length]?) hv
    simp only [List.getElem?_append_right (Nat.le_refl _), Nat.sub_self,
      List.getElem?_cons_zero] at hget
    rw [List.getElem?_append_left (by omega)] at hget
    exact .inr (List.mem_of_getElem? hget)

theorem before?_of_isPrefix (h : mark <+: w) : before? mark w = some [] := by
  cases w with
  | nil => simp [before?, List.prefix_nil.mp h]
  | cons c w => simp [before?, h]

theorem before?_append_iff (h : mark <+: close) :
    before? mark (w ++ close ++ rest) = some w ↔ before? mark (w ++ close) = some w := by
  induction w with
  | nil =>
    simp [before?_of_isPrefix h, before?_of_isPrefix (h.trans (List.prefix_append close rest))]
  | cons c w ih =>
    have hlen : mark.length ≤ (c :: w ++ close).length := by
      have := h.length_le
      simp only [List.length_append]
      omega
    have hp := isPrefixOf_append_left rest hlen
    simp only [List.cons_append] at hp
    simp only [List.cons_append, before?, hp]
    split
    · simp
    · simpa using ih

theorem before?_eq_some_append {t : List Char} (h : before? mark t = some w) :
    ∃ u, t = w ++ u ∧ mark <+: u := by
  induction t generalizing w with
  | nil =>
    simp only [before?] at h
    split at h
    · next hm =>
      cases h
      exact ⟨[], rfl, by simp [List.isEmpty_iff.mp hm]⟩
    · cases h
  | cons c t ih =>
    simp only [before?] at h
    split at h
    · next hm =>
      cases h
      exact ⟨c :: t, rfl, List.isPrefixOf_iff_prefix.mp hm⟩
    · obtain ⟨w', hw', rfl⟩ := Option.map_eq_some_iff.mp h
      obtain ⟨u, rfl, hu⟩ := ih hw'
      exact ⟨u, rfl, hu⟩

end XPathBench.Text
