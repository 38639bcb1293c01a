/-!
# Sorting a list before or after filtering it

`mergeSort` leaves elements that tie in the order in which they came. So sorting what a filter keeps
is filtering what was sorted (`filter_mergeSort`), and the elements of one rank are after sorting
what they were before (`filter_mergeSort_of_ties`).
-/

namespace MicroFrontends

variable {α : Type} {le : α → α → Bool}

/-- One more element at the start of a list comes after those that must stand before it. -/
theorem mergeSort_cons_eq (trans : ∀ a b c, le a b = true → le b c = true → le a c = true)
    (total : ∀ a b, (le a b || le b a) = true) (a : α) (l : List α) :
    (a :: l).mergeSort le =
      (l.mergeSort le).filter (!le a ·) ++ a :: (l.mergeSort le).filter (le a ·) := by
  obtain ⟨before, after, hsorted, hl, hbefore⟩ := List.mergeSort_cons trans total a l
  have hpairs := List.pairwise_mergeSort trans total (a :: l)
  rw [hsorted] at hpairs
  have hafter : ∀ b ∈ after, le a b = true :=
    (List.pairwise_cons.mp (List.pairwise_append.mp hpairs).2.1).1
  have hfirst : (before ++ after).filter (!le a ·) = before := by
    have hnone : after.filter (!le a ·) = [] :=
      List.filter_eq_nil_iff.mpr fun b hb => by simp [hafter b hb]
    rw [List.filter_append, List.filter_eq_self.mpr hbefore, hnone, List.append_nil]
  have hlast : (before ++ after).filter (le a ·) = after := by
    have hnone : before.filter (le a ·) = [] :=
      List.filter_eq_nil_iff.mpr fun b hb => by simpa using hbefore b hb
    rw [List.filter_append, List.filter_eq_self.mpr hafter, hnone, List.nil_append]
  rw [hsorted, hl, hfirst, hlast]

/-- Filtering what was sorted is sorting what the filter keeps. -/
theorem filter_mergeSort (trans : ∀ a b c, le a b = true → le b c = true → le a c = true)
    (total : ∀ a b, (le a b || le b a) = true) (p : α → Bool) (l : List α) :
    (l.mergeSort le).filter p = (l.filter p).mergeSort le := by
  induction l with
  | nil => simp
  | cons a l ih =>
    by_cases ha : p a = true
    · rw [List.filter_cons_of_pos ha, mergeSort_cons_eq trans total, mergeSort_cons_eq trans total,
        ← ih, List.filter_append, List.filter_cons_of_pos ha]
      simp only [List.filter_filter, Bool.and_comm]
    · -- what stands before and after the element joins again where it is left out
      obtain ⟨before, after, hsorted, hl, -⟩ := List.mergeSort_cons trans total a l
      rw [List.filter_cons_of_neg ha, ← ih, hsorted, hl, List.filter_append, List.filter_append,
        List.filter_cons_of_neg ha]

/-- Elements of which none has to stand before another are after sorting in the order in which they
came. -/
theorem filter_mergeSort_of_ties
    (trans : ∀ a b c, le a b = true → le b c = true → le a c = true)
    (total : ∀ a b, (le a b || le b a) = true) {p : α → Bool}
    (ties : ∀ a b, p a = true → p b = true → le a b = true) (l : List α) :
    (l.mergeSort le).filter p = l.filter p := by
  have hpairs : (l.filter p).Pairwise fun a b => le a b = true :=
    List.pairwise_iff_forall_sublist.mpr fun {a b} hab =>
      ties a b (List.mem_filter.mp (hab.subset (by simp))).2
        (List.mem_filter.mp (hab.subset (by simp))).2
  rw [filter_mergeSort trans total, List.mergeSort_of_pairwise hpairs]

end MicroFrontends
