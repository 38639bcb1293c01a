import Mathlib.Data.List.Induction
import Mathlib.Data.List.Sort

/-!
# The elements of a list, each where it first occurs

* `FirstOccurrences source p kept` : `kept` are the elements of `source` with the property `p`, each
  once, in the order in which they first occur;
* `FirstOccurrences.concat_old`, `FirstOccurrences.concat_new` : what one more element at the end of
  `source` changes;
* `FirstOccurrences.unique` : there is one such list;
* `firstOccurrences_eraseDups` : what is left when duplicates are erased is this list.
-/

namespace MicroFrontends

variable {α : Type} [DecidableEq α]

/-- The elements of a list that have a property, each once, in the order of their first occurrences.
-/
structure FirstOccurrences (source : List α) (p : α → Prop) (kept : List α) : Prop where
  mem_iff : ∀ a, a ∈ kept ↔ a ∈ source ∧ p a
  ordered : kept.Pairwise fun a b => source.idxOf a < source.idxOf b

namespace FirstOccurrences

variable {source kept : List α} {p : α → Prop}

theorem nil : FirstOccurrences [] p [] := ⟨by simp, .nil⟩

theorem nodup (h : FirstOccurrences source p kept) : kept.Nodup := by
  refine h.ordered.imp fun {a b} hab heq => ?_
  rw [heq] at hab
  exact Nat.lt_irrefl _ hab

theorem unique {other : List α} (h : FirstOccurrences source p kept)
    (ho : FirstOccurrences source p other) : kept = other := by
  have hirrefl : Std.Irrefl fun a b => source.idxOf a < source.idxOf b :=
    ⟨fun _ => Nat.lt_irrefl _⟩
  exact List.Pairwise.eq_of_mem_iff h.ordered ho.ordered fun a =>
    (h.mem_iff a).trans (ho.mem_iff a).symm

theorem filter (q : α → Bool) (h : FirstOccurrences source p kept) :
    FirstOccurrences source (fun a => p a ∧ q a = true) (kept.filter q) :=
  ⟨fun a => by rw [List.mem_filter, h.mem_iff, and_assoc], h.ordered.filter q⟩

/-- Elements first occur where they did if the list goes on. -/
theorem ordered_append (h : FirstOccurrences source p kept) (others : List α) :
    kept.Pairwise fun a b => (source ++ others).idxOf a < (source ++ others).idxOf b := by
  refine h.ordered.imp_of_mem fun {a b} ha hb hab => ?_
  rwa [List.idxOf_append_of_mem ((h.mem_iff a).mp ha).1,
    List.idxOf_append_of_mem ((h.mem_iff b).mp hb).1]

variable {a : α}

theorem concat_old (h : FirstOccurrences source p kept) (ha : p a → a ∈ source) :
    FirstOccurrences (source ++ [a]) p kept := by
  refine ⟨fun b => ?_, h.ordered_append [a]⟩
  rw [h.mem_iff, List.mem_append, List.mem_singleton]
  constructor
  · rintro ⟨hb, hp⟩
    exact ⟨.inl hb, hp⟩
  · rintro ⟨hb | rfl, hp⟩
    · exact ⟨hb, hp⟩
    · exact ⟨ha hp, hp⟩

theorem concat_new (h : FirstOccurrences source p kept) (ha : a ∉ source) (hp : p a) :
    FirstOccurrences (source ++ [a]) p (kept ++ [a]) := by
  refine ⟨fun b => ?_, List.pairwise_append.mpr ⟨h.ordered_append [a],
    List.pairwise_singleton _ a, fun b hb c hc => ?_⟩⟩
  · rw [List.mem_append, List.mem_append, List.mem_singleton, h.mem_iff, or_and_right]
    exact or_congr_right (iff_self_and.mpr fun hb => hb ▸ hp)
  · -- the new element comes after all others
    obtain rfl := List.mem_singleton.mp hc
    have hbs := ((h.mem_iff b).mp hb).1
    rw [List.idxOf_append_of_mem hbs, List.idxOf_append_of_notMem ha]
    exact Nat.lt_add_right _ (List.idxOf_lt_length_of_mem hbs)

end FirstOccurrences

/-! ## Erasing duplicates -/

/-- One more element at the end is kept if it has not occurred. -/
theorem eraseDups_concat (l : List α) (a : α) :
    (l ++ [a]).eraseDups = if a ∈ l then l.eraseDups else l.eraseDups ++ [a] := by
  have hone : [a].eraseDups = [a] := rfl
  rw [List.eraseDups_append]
  by_cases ha : a ∈ l <;> simp [List.removeAll, ha, hone]

theorem firstOccurrences_eraseDups (p : α → Bool) (l : List α) :
    FirstOccurrences l (p · = true) (l.filter p).eraseDups := by
  induction l using List.reverseRecOn with
  | nil => exact .nil
  | append_singleton l a ih =>
    rw [List.filter_append]
    cases hp : p a with
    | false =>
      rw [List.filter_cons_of_neg (by simp [hp]), List.filter_nil, List.append_nil]
      exact ih.concat_old (by simp [hp])
    | true =>
      rw [List.filter_cons_of_pos hp, List.filter_nil, eraseDups_concat]
      by_cases ha : a ∈ l
      · rw [if_pos (List.mem_filter.mpr ⟨ha, hp⟩)]
        exact ih.concat_old fun _ => ha
      · rw [if_neg fun h => ha (List.mem_filter.mp h).1]
        exact ih.concat_new ha hp

/-- Filtering before or after duplicates are erased comes to the same. -/
theorem filter_eraseDups (p : α → Bool) (l : List α) :
    l.eraseDups.filter p = (l.filter p).eraseDups := by
  have hall := (firstOccurrences_eraseDups (fun _ => true) l).filter p
  simp only [List.filter_true, true_and] at hall
  exact hall.unique (firstOccurrences_eraseDups p l)

/-- A list that goes on adds what has not occurred in its first part. -/
theorem eraseDups_append_filter (l l' : List α) :
    (l ++ l').eraseDups = l.eraseDups ++ l'.eraseDups.filter (· ∉ l.eraseDups) := by
  have hseen : l'.removeAll l = l'.filter (· ∉ l.eraseDups) :=
    List.filter_congr fun a _ => by simp [List.mem_eraseDups]
  rw [List.eraseDups_append, hseen, filter_eraseDups]

end MicroFrontends
