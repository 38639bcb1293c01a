import MicroFrontends.Proofs.Registry.Narrowing
import MicroFrontends.Proofs.Selector.Groups
import MicroFrontends.Proofs.Sorting
import MicroFrontends.Registry.Basic

/-!
# Listings of applications

A listing filters the catalog's applications by the page selector and the first selector of a call,
sorts them by priority, and filters what it has sorted by the other selectors. It does not matter
which selectors come before the sorting (`Registry.listing_admitted`), and the listing is the part
of the complete one that the filters leave (`Registry.listing_eq_filter`).
-/

namespace MicroFrontends

namespace Registry

/-- The applications that match all selectors of a call, as they are listed. -/
def listing (r : Registry) (first : String) (others : List String) (location : String) :
    Logged (List NavigableApp) := do
  let entries ← r.navigableApps first location
  others.foldlM r.refine entries

/-- The same registry for a page that has no selector. -/
def withoutPage (r : Registry) : Registry := { r with filter := { r.filter with page := .all } }

/-! ## The order of applications -/

theorem listedBefore_iff {a b : App} :
    listedBefore a b = true ↔ b.priority.orderKey ≤ a.priority.orderKey := decide_eq_true_iff

theorem listedBefore_trans (a b c : App) (hab : listedBefore a b = true)
    (hbc : listedBefore b c = true) : listedBefore a c = true := by
  rw [listedBefore_iff] at *
  omega

theorem listedBefore_total (a b : App) : (listedBefore a b || listedBefore b a) = true := by
  rw [Bool.or_eq_true, listedBefore_iff, listedBefore_iff]
  omega

/-- Applications of one priority stay in their order. -/
theorem filter_priority_mergeSort (key : Int) (apps : List App) :
    (apps.mergeSort listedBefore).filter (·.priority.orderKey = key) =
      apps.filter (·.priority.orderKey = key) :=
  filter_mergeSort_of_ties listedBefore_trans listedBefore_total
    (fun _ _ ha hb => listedBefore_iff.mpr
      (Int.le_of_eq ((of_decide_eq_true hb).trans (of_decide_eq_true ha).symm))) apps

/-! ## One listing -/

/-- A listing sorts between the first selector and the others. -/
theorem listing_eq_applyVia (r : Registry) (first : String) (others : List String)
    (location : String) :
    r.listing first others location =
      r.filter.applyVia (fun apps => (apps.mergeSort listedBefore).map (r.navigable location))
        r.catalog.apps first others := Logged.bind_pure_bind _ _ _

variable {r : Registry} {first : String} {others : List String}

theorem map_app_navigable (location : String) (apps : List App) :
    (apps.map (r.navigable location)).map (·.app) = apps := by
  rw [List.map_map]
  exact List.map_id apps

theorem eq_navigable_of_mem {location : String} {apps : List App} {entry : NavigableApp}
    (h : entry ∈ apps.map (r.navigable location)) : entry = r.navigable location entry.app := by
  obtain ⟨app, -, rfl⟩ := List.mem_map.mp h
  rfl

/-- Applications that are sorted may be filtered before or after that. -/
theorem filter_navigable (location : String) (p : App → Bool) (apps : List App) :
    ((apps.mergeSort listedBefore).map (r.navigable location)).filter (p ·.app) =
      ((apps.filter p).mergeSort listedBefore).map (r.navigable location) := by
  rw [← filter_mergeSort listedBefore_trans listedBefore_total, List.filter_map]
  rfl

/-- A listing whose texts the policy goes on with might as well be filtered by all of them before it
is sorted. -/
theorem listing_admitted (h : r.filter.Admits (first :: others)) (location : String) :
    (r.listing first others location).result =
      .ok (((r.catalog.apps.filter (r.filter.keeps (first :: others))).mergeSort
        listedBefore).map (r.navigable location)) := by
  have hrefined := filter_navigable (r := r) location
    fun app => others.all (r.filter.accepts · app)
  rw [listing_eq_applyVia, PageFilter.applyVia_admitted h, ← PageFilter.filter_filter_accepts]
  exact congrArg Except.ok (hrefined _)

/-- Without selectors all applications are listed. -/
theorem listing_withoutPage (r : Registry) (location : String) :
    (r.withoutPage.listing "" [] location).result =
      .ok ((r.catalog.apps.mergeSort listedBefore).map (r.navigable location)) := by
  have hparse : Selector.parse "" = .ok .all := rfl
  have hkeeps : r.withoutPage.catalog.apps.filter (r.withoutPage.filter.keeps [""]) =
      r.catalog.apps :=
    List.filter_eq_self.mpr fun app _ => by
      rw [PageFilter.keeps, List.all_cons, PageFilter.accepts_of_ok hparse]
      rfl
  rw [listing_admitted fun _ => malformed_of_ok hparse [], hkeeps]
  rfl

/-- A listing that succeeds is the part of the complete one whose applications pass the page
selector and the selectors of the call. They are those that filtering keeps, each as often as it
keeps it, in the order of their priorities and, where these are equal, in the order of the
catalog. -/
theorem listing_eq_filter (r : Registry) (first : String) (others : List String)
    (location : String) {kept : List NavigableApp}
    (h : (r.listing first others location).result = .ok kept) :
    let keeps : App → Bool := r.filter.keeps (first :: others)
    ∃ (matching : List App) (complete : List NavigableApp),
      (r.filter.applyAll r.catalog.apps first others).result = .ok matching ∧
      (r.withoutPage.listing "" [] location).result = .ok complete ∧
      matching = r.catalog.apps.filter keeps ∧ kept = complete.filter (keeps ·.app) ∧
      kept = (matching.mergeSort listedBefore).map (r.navigable location) ∧
      (kept.map (·.app)).Perm matching ∧
      (kept.map (·.app.priority.orderKey)).Pairwise (· ≥ ·) ∧
      (∀ key : Int, (kept.map (·.app)).filter (·.priority.orderKey = key) =
        matching.filter (·.priority.orderKey = key)) ∧
      ∀ entry ∈ kept, ∀ other ∈ complete, other.app = entry.app →
        other.isActive = entry.isActive := by
  intro keeps
  have hadmits : r.filter.Admits (first :: others) :=
    PageFilter.admits_of_applyVia (r.listing_eq_applyVia first others location ▸ h)
  rw [listing_admitted hadmits] at h
  obtain rfl := Except.ok.inj h
  refine ⟨_, _, PageFilter.result_applyAll hadmits r.catalog.apps,
    r.listing_withoutPage location, rfl,
    (filter_navigable location keeps r.catalog.apps).symm, rfl, ?_, ?_, fun key => ?_,
    fun entry hentry other hother heq => ?_⟩
  · rw [map_app_navigable]
    exact List.mergeSort_perm _ _
  · have hsorted := List.pairwise_mergeSort listedBefore_trans listedBefore_total
      (r.catalog.apps.filter keeps)
    rw [List.map_map]
    exact hsorted.map _ fun a b hab => listedBefore_iff.mp hab
  · rw [map_app_navigable, filter_priority_mergeSort]
  · rw [eq_navigable_of_mem hentry, eq_navigable_of_mem hother, heq]

/-- The applications with the label that is selected come in the order of the catalog, but one of
priority `-0.0` comes after those of priority `0.0`. -/
theorem listing_eq_filter_zeros :
    let app (title : String) (labels : Dict String) (negative : Bool) : App :=
      ⟨⟨⟨"", none⟩, title, [], some labels, none⟩, title, "", title, .zero negative, none⟩
    let last := app "last" [("a", ""), ("b", "")] true
    let other := app "other" [("b", "")] false
    let hidden := app "hidden" [("a", "")] false
    let first := app "first" [("a", ""), ("b", "")] false
    let next := app "next" [("a", ""), ("b", "")] false
    let r : Registry := ⟨⟨[], [last, other, hidden, first, next, first], [], none, none⟩, "/",
      ⟨⟨some (.present "b")⟩, .matchNone⟩⟩
    let kept := [first, next, first, last].map (r.navigable "/next/")
    (r.listing "" ["a"] "/next/").result = .ok kept ∧
      kept.map (·.isActive) = [false, true, false, false] ∧
      ∃ complete : List NavigableApp,
        (r.withoutPage.listing "" [] "/next/").result = .ok complete ∧
        kept = complete.filter (r.filter.keeps ["", "a"] ·.app) := by
  intro app last other hidden first next r kept
  let d : Derivation (.chain .or) := .alone .label
  have ha : Derives "a" d :=
    d.derives_text (by simp [d, Derivation.alone, Derivation.spellable_label])
  have hparse : Selector.parse "a" = .ok ⟨some (.present "a")⟩ :=
    Selector.parse_eq_ok_of_parse (ha.parse_eq_ok (by decide))
  have hadmits : r.filter.Admits ["", "a"] := PageFilter.admits_of_ne (by decide)
  have hkeeps : r.catalog.apps.filter (r.filter.keeps ["", "a"]) = [last, first, next, first] := by
    have hempty : r.filter.accepts "" = Selector.all.isMatch (α := App) :=
      PageFilter.accepts_of_ok rfl
    have hlabel : r.filter.accepts "a" = Selector.isMatch (α := App) ⟨some (.present "a")⟩ :=
      PageFilter.accepts_of_ok hparse
    unfold PageFilter.keeps
    simp only [List.all_cons, hempty, hlabel]
    rfl
  have hlisting : (r.listing "" ["a"] "/next/").result = .ok kept := by
    have hties : [first, next, first].mergeSort listedBefore = [first, next, first] :=
      List.mergeSort_of_pairwise (by decide)
    have hfirst : listedBefore last first = false := by decide
    have hnext : listedBefore last next = false := by decide
    rw [listing_admitted hadmits, hkeeps,
      mergeSort_cons_eq listedBefore_trans listedBefore_total, hties]
    simp [hfirst, hnext, kept]
  obtain ⟨-, complete, -, hcomplete, -, hfilter, -⟩ :=
    listing_eq_filter r "" ["a"] "/next/" hlisting
  exact ⟨hlisting, by decide, complete, hcomplete, hfilter⟩

end Registry

end MicroFrontends
