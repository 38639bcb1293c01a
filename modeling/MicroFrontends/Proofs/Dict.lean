import MicroFrontends.Dict

/-!
# Dictionaries in the order of their keys

`Dict.insert` keeps the keys of a dictionary in increasing order (`Dict.Sorted.insert`). So a
dictionary is what its entries make in whatever dictionary is empty: adding them one by one builds
it up again (`Dict.Sorted.foldl_insert`), and entries with different keys may be added in any order
(`Dict.insert_comm`). An entry that is added is found, and those of other keys are found as before
(`Dict.get?_insert_self`, `Dict.get?_insert_of_ne`).
-/

namespace MicroFrontends.Dict

variable {α : Type}

/-- The keys are in increasing order, each once. -/
def Sorted (d : Dict α) : Prop := d.Pairwise fun a b => a.1 < b.1

theorem sorted_nil : Sorted ([] : Dict α) := List.Pairwise.nil

theorem mem_insert {d : Dict α} {k : String} {v : α} {e : String × α} (h : e ∈ d.insert k v) :
    e = (k, v) ∨ e ∈ d := by
  induction d with
  | nil => exact .inl (List.mem_singleton.mp h)
  | cons e' d ih =>
    unfold insert at h
    split at h
    · exact List.mem_cons.mp h
    · split at h
      · rcases List.mem_cons.mp h with h | h
        · exact .inl h
        · exact .inr (List.mem_cons_of_mem _ h)
      · rcases List.mem_cons.mp h with h | h
        · exact .inr (h ▸ List.mem_cons_self)
        · exact (ih h).imp id (List.mem_cons_of_mem _)

theorem lt_of_not_lt {a b : String} (h : ¬a < b) (hne : a ≠ b) : b < a := by
  refine Decidable.byContradiction fun hba => hne ?_
  exact String.le_antisymm (String.not_lt.mp hba) (String.not_lt.mp h)

theorem Sorted.insert {d : Dict α} (h : d.Sorted) (k : String) (v : α) : (d.insert k v).Sorted := by
  induction d with
  | nil => exact List.pairwise_singleton _ _
  | cons e d ih =>
    obtain ⟨hhead, htail⟩ := List.pairwise_cons.mp h
    unfold Dict.insert
    split
    · next hlt =>
      refine List.pairwise_cons.mpr ⟨fun e' he' => ?_, h⟩
      rcases List.mem_cons.mp he' with rfl | he'
      · exact hlt
      · exact String.lt_trans hlt (hhead e' he')
    · next hnlt =>
      split
      · next heq =>
        subst heq
        exact List.pairwise_cons.mpr ⟨hhead, htail⟩
      · next hne =>
        refine List.pairwise_cons.mpr ⟨fun e' he' => ?_, ih htail⟩
        rcases mem_insert he' with rfl | he'
        · exact lt_of_not_lt hnlt hne
        · exact hhead e' he'

section
variable {x k : String}

theorem insert_cons_lt (h : k < x) (w v : α) (d : Dict α) :
    Dict.insert ((x, w) :: d) k v = (k, v) :: (x, w) :: d := if_pos h

theorem insert_cons_self (w v : α) (d : Dict α) :
    Dict.insert ((k, w) :: d) k v = (k, v) :: d := by
  rw [insert, if_neg (String.lt_irrefl k), if_pos rfl]

theorem insert_cons_gt (h : x < k) (w v : α) (d : Dict α) :
    Dict.insert ((x, w) :: d) k v = (x, w) :: Dict.insert d k v := by
  have hne : k ≠ x := fun heq => String.lt_irrefl k (heq ▸ h)
  rw [insert, if_neg (String.lt_asymm h), if_neg hne]

end

theorem get?_insert_self (d : Dict α) (k : String) (v : α) : (d.insert k v).get? k = some v := by
  have hfirst (d : Dict α) : get? ((k, v) :: d) k = some v := by
    rw [get?, List.lookup_cons, beq_self_eq_true]
  induction d with
  | nil => exact hfirst []
  | cons e d ih =>
    obtain ⟨x, w⟩ := e
    by_cases hlt : k < x
    · rw [insert_cons_lt hlt]
      exact hfirst _
    · by_cases heq : k = x
      · subst heq
        rw [insert_cons_self]
        exact hfirst d
      · have hne : (k == x) = false := beq_false_of_ne heq
        rw [insert_cons_gt (lt_of_not_lt hlt heq), get?, List.lookup_cons, hne]
        exact ih

theorem get?_insert_of_ne {k k' : String} (h : k' ≠ k) (d : Dict α) (v : α) :
    (d.insert k v).get? k' = d.get? k' := by
  have hne : (k' == k) = false := beq_false_of_ne h
  have hskip (d : Dict α) : get? ((k, v) :: d) k' = get? d k' := by
    rw [get?, List.lookup_cons, hne]
    rfl
  induction d with
  | nil => exact hskip []
  | cons e d ih =>
    obtain ⟨x, w⟩ := e
    by_cases hlt : k < x
    · rw [insert_cons_lt hlt]
      exact hskip _
    · by_cases heq : k = x
      · subst heq
        rw [insert_cons_self, hskip, get?, get?, List.lookup_cons, hne]
      · rw [insert_cons_gt (lt_of_not_lt hlt heq), get?, get?, List.lookup_cons, List.lookup_cons]
        cases k' == x with
        | true => rfl
        | false => exact ih

/-- A key that is above all others comes last. -/
theorem insert_last {d : Dict α} {k : String} (h : ∀ e ∈ d, e.1 < k) (v : α) :
    d.insert k v = d ++ [(k, v)] := by
  induction d with
  | nil => rfl
  | cons e d ih =>
    rw [insert_cons_gt (h e List.mem_cons_self) e.2, ih fun e' he' => h e' (List.mem_cons_of_mem _ he')]
    rfl

theorem insert_comm_of_lt {k k' : String} (h : k < k') (v v' : α) (d : Dict α) :
    (d.insert k v).insert k' v' = (d.insert k' v').insert k v := by
  induction d with
  | nil =>
    show Dict.insert [(k, v)] k' v' = Dict.insert [(k', v')] k v
    rw [insert_cons_gt h, insert_cons_lt h]
    rfl
  | cons e d ih =>
    obtain ⟨x, w⟩ := e
    -- where the first key goes, and then where the second one goes
    by_cases hxk : x < k
    · have hxk' := String.lt_trans hxk h
      rw [insert_cons_gt hxk, insert_cons_gt hxk', insert_cons_gt hxk', insert_cons_gt hxk, ih]
    · by_cases heq : x = k
      · subst heq
        rw [insert_cons_self, insert_cons_gt h, insert_cons_gt h, insert_cons_self]
      · have hkx := lt_of_not_lt hxk heq
        rw [insert_cons_lt hkx, insert_cons_gt h]
        by_cases hk'x : k' < x
        · rw [insert_cons_lt hk'x, insert_cons_lt h]
        · by_cases heq' : k' = x
          · subst heq'
            rw [insert_cons_self, insert_cons_lt h]
          · rw [insert_cons_gt (lt_of_not_lt hk'x heq'), insert_cons_lt hkx]

/-- Entries with different keys may be added in any order. -/
theorem insert_comm {k k' : String} (h : k ≠ k') (v v' : α) (d : Dict α) :
    (d.insert k v).insert k' v' = (d.insert k' v').insert k v := by
  by_cases hlt : k < k'
  · exact insert_comm_of_lt hlt v v' d
  · exact (insert_comm_of_lt (lt_of_not_lt hlt h) v' v d).symm

/-- The entries of a dictionary build it up again. -/
theorem Sorted.foldl_insert {d d' : Dict α} (h : Sorted (d ++ d')) :
    d'.foldl (fun d e => d.insert e.1 e.2) d = d ++ d' := by
  induction d' generalizing d with
  | nil => rw [List.foldl_nil, List.append_nil]
  | cons e d' ih =>
    have hlast : ∀ e' ∈ d, e'.1 < e.1 := fun e' he' =>
      (List.pairwise_append.mp h).2.2 e' he' e List.mem_cons_self
    rw [List.foldl_cons, insert_last hlast, ih (by rwa [List.append_cons] at h), ← List.append_cons]

end MicroFrontends.Dict
