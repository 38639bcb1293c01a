/-!
# The run of elements at the start of a list that a test holds of

`takeWhile` and `dropWhile` split a list after such a run: the element after it fails the test
(`eq_false_of_mem_head?_dropWhile`), and a run with such an element after it is where they split
(`takeWhile_run`, `dropWhile_run`).
-/

namespace MicroFrontends

variable {α : Type} {p : α → Bool} {run rest : List α}

theorem takeWhile_run (h : ∀ a ∈ run, p a = true) (hr : ∀ a ∈ rest.head?, p a = false) :
    (run ++ rest).takeWhile p = run := by
  rw [List.takeWhile_append_of_pos h]
  cases rest with
  | nil => simp
  | cons a rest => simp [hr a rfl]

theorem dropWhile_run (h : ∀ a ∈ run, p a = true) (hr : ∀ a ∈ rest.head?, p a = false) :
    (run ++ rest).dropWhile p = rest := by
  rw [List.dropWhile_append_of_pos h]
  cases rest with
  | nil => simp
  | cons a rest => simp [hr a rfl]

theorem eq_false_of_mem_head?_dropWhile {l : List α} : ∀ a ∈ (l.dropWhile p).head?, p a = false := by
  intro a ha
  have h := List.head?_dropWhile_not p l
  rw [Option.mem_def.mp ha] at h
  exact h

end MicroFrontends
