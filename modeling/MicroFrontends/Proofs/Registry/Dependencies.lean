import MicroFrontends.Proofs.FirstOccurrences
import MicroFrontends.Registry.Dependencies

/-!
# What is loaded for a list of modules

Every stylesheet is linked, as often as modules name it, and every script is loaded once, where it
is first needed (`DependencyPlan.firstOccurrences_modules`). A longer list leaves the plan of its
first part as it is and adds what is not in it (`DependencyPlan.modules_append`).
-/

namespace MicroFrontends

namespace DependencyPlan

variable {α : Type} [HasModule α]

/-- Where the script of an entry is, or an empty text if it has none. -/
def scriptUrl (entry : α) : String := (HasModule.moduleOf entry).loadUrl

/-- The stylesheets that an entry needs. -/
def stylesheets (entry : α) : List String := (HasModule.moduleOf entry).styles.getD []

theorem styles_ofList (xs : List α) : (ofList xs).styles = (xs.map stylesheets).flatten := by
  rw [ofList, List.flatMap_map, ← List.flatMap_def]
  rfl

theorem modules_ofList (xs : List α) :
    (ofList xs).modules = ((xs.map scriptUrl).filter (· ≠ "")).eraseDups := by
  rw [ofList, List.map_map]
  rfl

/-- The scripts that are loaded are those that have a URL, each one where it is first needed. -/
theorem firstOccurrences_modules (xs : List α) :
    FirstOccurrences (xs.map scriptUrl) (· ≠ "") (ofList xs).modules := by
  have h := firstOccurrences_eraseDups (· ≠ "") (xs.map scriptUrl)
  simp only [decide_eq_true_eq] at h
  rwa [modules_ofList]

theorem styles_append (xs ys : List α) :
    (ofList (xs ++ ys)).styles = (ofList xs).styles ++ (ofList ys).styles := by
  rw [styles_ofList, styles_ofList, styles_ofList, List.map_append, List.flatten_append]

theorem modules_append (xs ys : List α) :
    (ofList (xs ++ ys)).modules =
      (ofList xs).modules ++ (ofList ys).modules.filter (· ∉ (ofList xs).modules) := by
  rw [modules_ofList, modules_ofList, modules_ofList, List.map_append, List.filter_append,
    eraseDups_append_filter]

/-- The plan for a list of modules, or of things that need them, loads the script of each module
that has one, each script once, in the order in which they are first needed. It links all their
stylesheets one after another, whether or not there is a script to load. In the plan for two lists,
what the second one needs comes after what the first one needs, without the scripts that are loaded
already. -/
theorem ofList_loads_once (xs ys : List α) :
    (ofList xs).modules.Nodup ∧ "" ∉ (ofList xs).modules ∧
      (∀ url, url ∈ (ofList xs).modules ↔ url ≠ "" ∧ ∃ x ∈ xs, scriptUrl x = url) ∧
      ((ofList xs).modules.Pairwise fun u v =>
        (xs.map scriptUrl).idxOf u < (xs.map scriptUrl).idxOf v) ∧
      (ofList xs).styles = (xs.map stylesheets).flatten ∧
      (ofList (xs ++ ys)).styles = (ofList xs).styles ++ (ofList ys).styles ∧
      (ofList (xs ++ ys)).modules =
        (ofList xs).modules ++ (ofList ys).modules.filter (· ∉ (ofList xs).modules) := by
  have hfirst := firstOccurrences_modules xs
  refine ⟨hfirst.nodup, fun hempty => ((hfirst.mem_iff "").mp hempty).2 rfl, fun url => ?_,
    hfirst.ordered, styles_ofList xs, styles_append xs ys, modules_append xs ys⟩
  rw [hfirst.mem_iff, List.mem_map, and_comm]

/-- The second module has no script and the last one that of the first, but their stylesheets are
linked. -/
example : ofList (α := Module) [⟨"a.js", some ["x.css"]⟩, ⟨"", some ["x.css"]⟩, ⟨"b.js", none⟩,
    ⟨"a.js", some ["y.css"]⟩] = ⟨["x.css", "x.css", "y.css"], ["a.js", "b.js"]⟩ := by decide

end DependencyPlan

end MicroFrontends
