import MicroFrontends.Proofs.Selector.Spelling
import MicroFrontends.Proofs.Steps
import MicroFrontends.Registry.Filtering

/-!
# Narrowing entries by the selectors of a call

A call gives its selectors as texts. Each of them narrows the entries that the ones before it left,
the first one after the page selector. What one text does is said by `PageFilter.refine_admitted`
and `PageFilter.refine_refused`, and by induction on the texts what all of them do:

* `malformed` : the texts that are no selectors, with what is wrong with them;
* `PageFilter.Admits` : the policy goes on with the texts, malformed or not;
* `PageFilter.keeps` : the entries that pass the page selector and the texts;
* `PageFilter.narrow_admitted`, `PageFilter.narrow_refused` : the steps for a list of texts;
* `PageFilter.applyVia_admitted`, `PageFilter.applyVia_refused` : a call that brings the entries
  into another form after its first selector;
* `PageFilter.applyAll_outcome` : what a call with at least one selector gives.
-/

namespace MicroFrontends

/-! ## Malformed selectors -/

/-- What is wrong with a text that is no selector. -/
def Selector.fault? (text : String) : Option SelectorError :=
  match Selector.parse text with
  | .ok _ => none
  | .error e => some e

/-- The texts that are no selectors, in their order, each with what is wrong with it. -/
def malformed (texts : List String) : List (String × SelectorError) :=
  texts.filterMap fun text => (Selector.fault? text).map (text, ·)

variable {α : Type} [Labelled α]

/-- The text is a selector, and the entry matches it. -/
def selects (text : String) (entry : α) : Bool :=
  match Selector.parse text with
  | .ok selector => selector.isMatch entry
  | .error _ => false

theorem malformed_of_ok {text : String} {s : Selector} (h : Selector.parse text = .ok s)
    (texts : List String) : malformed (text :: texts) = malformed texts := by
  simp [malformed, Selector.fault?, h]

theorem malformed_of_error {text : String} {e : SelectorError} (h : Selector.parse text = .error e)
    (texts : List String) : malformed (text :: texts) = (text, e) :: malformed texts := by
  simp [malformed, Selector.fault?, h]

theorem mem_malformed {texts : List String} {text : String} {e : SelectorError} :
    (text, e) ∈ malformed texts ↔ text ∈ texts ∧ Selector.parse text = .error e := by
  have hfault : Selector.fault? text = some e ↔ Selector.parse text = .error e := by
    unfold Selector.fault?
    split <;> simp_all
  rw [malformed, List.mem_filterMap, ← hfault]
  constructor
  · rintro ⟨t, ht, h⟩
    obtain ⟨e', he, hp⟩ := Option.map_eq_some_iff.mp h
    cases hp
    exact ⟨ht, he⟩
  · rintro ⟨ht, h⟩
    exact ⟨text, ht, by rw [h]; rfl⟩

theorem malformed_ne_nil {texts : List String} :
    malformed texts ≠ [] ↔ ∃ text ∈ texts, ∃ e, Selector.parse text = .error e := by
  constructor
  · intro h
    obtain ⟨⟨text, e⟩, hmem⟩ := List.exists_mem_of_ne_nil _ h
    obtain ⟨ht, hparse⟩ := mem_malformed.mp hmem
    exact ⟨text, ht, e, hparse⟩
  · rintro ⟨text, ht, e, hparse⟩
    exact List.ne_nil_of_mem (mem_malformed.mpr ⟨ht, hparse⟩)

/-- The first text that is no selector comes after texts that are selectors. -/
theorem exists_append_of_malformed {texts : List String} {text : String} {e : SelectorError}
    {rest : List (String × SelectorError)} (h : malformed texts = (text, e) :: rest) :
    Selector.parse text = .error e ∧ ∃ before after, texts = before ++ text :: after ∧
      ∀ t ∈ before, ∃ s, Selector.parse t = .ok s := by
  have hparse := (mem_malformed.mp (h ▸ List.mem_cons_self)).2
  obtain ⟨before, text', after, rfl, hbefore, hfault, -⟩ := List.filterMap_eq_cons_iff.mp h
  obtain ⟨e', -, hpair⟩ := Option.map_eq_some_iff.mp hfault
  cases hpair
  refine ⟨hparse, before, after, rfl, fun t ht => ?_⟩
  cases hp : Selector.parse t with
  | ok s => exact ⟨s, rfl⟩
  | error e =>
    have hnone := hbefore t ht
    rw [Selector.fault?, hp] at hnone
    cases hnone

/-- The text is a selector. -/
def isSelector (text : String) : Bool := (Selector.fault? text).isNone

theorem isSelector_of_ok {text : String} {s : Selector} (h : Selector.parse text = .ok s) :
    isSelector text = true := by
  simp [isSelector, Selector.fault?, h]

theorem isSelector_of_error {text : String} {e : SelectorError}
    (h : Selector.parse text = .error e) : isSelector text = false := by
  simp [isSelector, Selector.fault?, h]

theorem filter_isSelector_eq_self {texts : List String} (h : malformed texts = []) :
    texts.filter isSelector = texts := by
  refine List.filter_eq_self.mpr fun text ht => ?_
  cases hp : Selector.parse text with
  | ok s => exact isSelector_of_ok hp
  | error e =>
    have hm := mem_malformed.mpr ⟨ht, hp⟩
    rw [h] at hm
    cases hm

namespace PageFilter

/-- A text lets an entry pass: it is a selector that the entry matches, or it is none and the policy
takes it for one that everything matches. -/
def accepts (f : PageFilter) (text : String) (entry : α) : Bool :=
  match Selector.parse text with
  | .ok selector => selector.isMatch entry
  | .error _ => f.policy = .matchAll

/-- The page selector and the texts let an entry pass. -/
def keeps (f : PageFilter) (texts : List String) (entry : α) : Bool :=
  f.page.isMatch entry && texts.all (f.accepts · entry)

/-- The policy goes on with the texts: all are selectors, or it is not an error if one is none. -/
def Admits (f : PageFilter) (texts : List String) : Prop := f.policy = .fail → malformed texts = []

/-- A warning for each text that is no selector. -/
def warningsFor (f : PageFilter) (texts : List String) : List LogEntry :=
  (malformed texts).map fun p => .invalidSelector f.policy p.1 p.2

/-- The entries that match the page selector and all selectors of a call. -/
def applyAll (f : PageFilter) (entries : List α) (first : String) (others : List String) :
    Logged (List α) := do
  let kept ← f.apply entries first
  others.foldlM f.refine kept

/-- The same for entries that are brought into another form between the first selector and the
others. -/
def applyVia {β : Type} [Labelled β] (f : PageFilter) (form : List α → List β) (entries : List α)
    (first : String) (others : List String) : Logged (List β) := do
  let kept ← f.apply entries first
  others.foldlM f.refine (form kept)

/-! ## One text -/

section
variable {f : PageFilter} {text : String} {texts : List String} {s : Selector} {e : SelectorError}

theorem accepts_of_ok (h : Selector.parse text = .ok s) :
    f.accepts text = s.isMatch (α := α) := by
  funext entry
  rw [accepts, h]

theorem accepts_of_error (h : Selector.parse text = .error e) :
    f.accepts text = fun _ : α => decide (f.policy = .matchAll) := by
  funext entry
  rw [accepts, h]

theorem warningsFor_of_ok (h : Selector.parse text = .ok s) :
    f.warningsFor (text :: texts) = f.warningsFor texts := by
  rw [warningsFor, malformed_of_ok h]
  rfl

theorem warningsFor_of_error (h : Selector.parse text = .error e) :
    f.warningsFor (text :: texts) = .invalidSelector f.policy text e :: f.warningsFor texts := by
  rw [warningsFor, malformed_of_error h]
  rfl

theorem warningsFor_cons :
    f.warningsFor (text :: texts) = f.warningsFor [text] ++ f.warningsFor texts := by
  cases h : Selector.parse text with
  | ok s => rw [warningsFor_of_ok h, warningsFor_of_ok h]; rfl
  | error e => rw [warningsFor_of_error h, warningsFor_of_error h]; rfl

theorem admits_of_ne (h : f.policy ≠ .fail) : f.Admits texts := fun hp => absurd hp h

/-- Texts are admitted if each of them is. -/
theorem admits_cons : f.Admits (text :: texts) ↔ f.Admits [text] ∧ f.Admits texts := by
  cases h : Selector.parse text with
  | ok s =>
    have htext : f.Admits [text] := fun _ => malformed_of_ok h []
    rw [Admits, malformed_of_ok h]
    exact (and_iff_right htext).symm
  | error e =>
    have hne (rest : List String) : malformed (text :: rest) ≠ [] := by
      simp [malformed_of_error h]
    constructor
    · exact fun ha => ⟨fun hp => absurd (ha hp) (hne _), fun hp => absurd (ha hp) (hne _)⟩
    · exact fun ha hp => absurd (ha.1 hp) (hne _)

theorem refine_of_resolve {selector : Option Selector} {log : List LogEntry}
    (h : f.resolve text = ⟨.ok selector, log⟩) (entries : List α) :
    f.refine entries text = ⟨.ok (keep selector entries), log⟩ := by
  rw [refine, h]
  show (⟨_, log ++ []⟩ : Logged (List α)) = _
  rw [List.append_nil]
  rfl

/-- A text that is admitted filters the entries, and is noted if it is no selector. -/
theorem refine_admitted (h : f.Admits [text]) (entries : List α) :
    f.refine entries text = ⟨.ok (entries.filter (f.accepts text)), f.warningsFor [text]⟩ := by
  cases hparse : Selector.parse text with
  | ok s =>
    have hr : f.resolve text = ⟨.ok (some s), []⟩ := by rw [resolve, hparse]
    rw [refine_of_resolve hr, accepts_of_ok hparse, warningsFor_of_ok hparse]
    rfl
  | error e =>
    rw [accepts_of_error hparse, warningsFor_of_error hparse]
    cases hp : f.policy with
    | fail =>
      have hm := h hp
      rw [malformed_of_error hparse] at hm
      cases hm
    | matchNone =>
      have hr : f.resolve text = ⟨.ok none, [.invalidSelector .matchNone text e]⟩ := by
        rw [resolve, hparse, hp]
      have hnone :
          entries.filter (fun _ => decide (InvalidSelectorPolicy.matchNone = .matchAll)) = [] :=
        List.filter_eq_nil_iff.mpr fun _ _ => by decide
      rw [hnone]
      exact refine_of_resolve hr entries
    | matchAll =>
      have hr : f.resolve text = ⟨.ok (some .all), [.invalidSelector .matchAll text e]⟩ := by
        rw [resolve, hparse, hp]
      exact refine_of_resolve hr entries

theorem refine_refused (hp : f.policy = .fail) (h : Selector.parse text = .error e)
    (entries : List α) : f.refine entries text = ⟨.error (.selector text e), []⟩ := by
  have hr : f.resolve text = ⟨.error (.selector text e), []⟩ := by rw [resolve, h, hp]
  rw [refine, hr]
  rfl

/-! ## All texts -/

/-- Texts that are admitted filter the entries one after another. -/
theorem narrow_admitted (h : f.Admits texts) (entries : List α) :
    texts.foldlM f.refine entries =
      ⟨.ok (entries.filter fun x => texts.all (f.accepts · x)), f.warningsFor texts⟩ := by
  induction texts generalizing entries with
  | nil =>
    show (⟨.ok entries, []⟩ : Logged (List α)) = _
    have hall : (entries.filter fun x => [].all (f.accepts · x)) = entries :=
      List.filter_eq_self.mpr fun _ _ => rfl
    rw [hall]
    rfl
  | cons text texts ih =>
    obtain ⟨htext, htexts⟩ := admits_cons.mp h
    rw [List.foldlM_cons, refine_admitted htext, Logged.bind_of_ok rfl, ih htexts,
      List.filter_filter, ← warningsFor_cons]
    simp only [List.all_cons, Bool.and_comm]

/-- The first text that is no selector is the error, if the policy makes it one. -/
theorem narrow_refused {rest : List (String × SelectorError)} (hp : f.policy = .fail)
    (h : malformed texts = (text, e) :: rest) (entries : List α) :
    texts.foldlM f.refine entries = ⟨.error (.selector text e), []⟩ := by
  induction texts generalizing entries with
  | nil => cases h
  | cons first texts ih =>
    cases hparse : Selector.parse first with
    | ok s =>
      rw [malformed_of_ok hparse] at h
      have hfirst : f.Admits [first] := fun _ => malformed_of_ok hparse []
      rw [List.foldlM_cons, refine_admitted hfirst, Logged.bind_of_ok rfl, ih h,
        warningsFor_of_ok hparse]
      rfl
    | error e' =>
      rw [malformed_of_error hparse] at h
      cases h
      rw [List.foldlM_cons, refine_refused hp hparse, Logged.bind_of_error rfl]

variable {first : String} {others : List String} {β : Type} [Labelled β]

/-- The page selector, the first text and the others keep together what each of them accepts. -/
theorem filter_filter_accepts (f : PageFilter) (first : String) (others : List String)
    (entries : List α) :
    ((f.page.filter entries).filter (f.accepts first)).filter
        (fun x => others.all (f.accepts · x)) =
      entries.filter (f.keeps (first :: others)) := by
  rw [Selector.filter, List.filter_filter, List.filter_filter]
  refine List.filter_congr fun x _ => ?_
  rw [keeps, List.all_cons, Bool.and_comm, Bool.and_comm (others.all _)]

theorem applyVia_admitted (h : f.Admits (first :: others)) (form : List α → List β)
    (entries : List α) :
    f.applyVia form entries first others =
      ⟨.ok ((form ((f.page.filter entries).filter (f.accepts first))).filter
        fun x => others.all (f.accepts · x)), f.warningsFor (first :: others)⟩ := by
  obtain ⟨hfirst, hothers⟩ := admits_cons.mp h
  have happly : f.apply entries first = _ := refine_admitted hfirst (f.page.filter entries)
  rw [applyVia, happly, Logged.bind_of_ok rfl, narrow_admitted hothers, ← warningsFor_cons]

theorem applyVia_refused {rest : List (String × SelectorError)} (hp : f.policy = .fail)
    (h : malformed (first :: others) = (text, e) :: rest) (form : List α → List β)
    (entries : List α) :
    f.applyVia form entries first others = ⟨.error (.selector text e), []⟩ := by
  cases hparse : Selector.parse first with
  | ok s =>
    rw [malformed_of_ok hparse] at h
    have happly : f.apply entries first = _ :=
      refine_admitted (fun _ => malformed_of_ok hparse []) (f.page.filter entries)
    rw [applyVia, happly, Logged.bind_of_ok rfl, narrow_refused hp h, warningsFor_of_ok hparse]
    rfl
  | error e' =>
    rw [malformed_of_error hparse] at h
    cases h
    have happly : f.apply entries text = _ := refine_refused hp hparse (f.page.filter entries)
    rw [applyVia, happly, Logged.bind_of_error rfl]

/-- A call succeeds exactly if the policy goes on with its texts. -/
theorem admits_of_applyVia {form : List α → List β} {entries : List α} {kept : List β}
    (h : (f.applyVia form entries first others).result = .ok kept) :
    f.Admits (first :: others) := by
  intro hp
  cases hm : malformed (first :: others) with
  | nil => rfl
  | cons fault rest =>
    rw [applyVia_refused hp hm] at h
    cases h

theorem applyAll_admitted (h : f.Admits (first :: others)) (entries : List α) :
    f.applyAll entries first others =
      ⟨.ok (entries.filter (f.keeps (first :: others))), f.warningsFor (first :: others)⟩ := by
  have hvia : f.applyAll entries first others = _ := applyVia_admitted h id entries
  rw [hvia, id, filter_filter_accepts]

theorem result_applyAll (h : f.Admits (first :: others)) (entries : List α) :
    (f.applyAll entries first others).result = .ok (entries.filter (f.keeps (first :: others))) :=
  congrArg Logged.result (applyAll_admitted h entries)

theorem applyAll_refused {rest : List (String × SelectorError)} (hp : f.policy = .fail)
    (h : malformed (first :: others) = (text, e) :: rest) (entries : List α) :
    f.applyAll entries first others = ⟨.error (.selector text e), []⟩ :=
  applyVia_refused hp h id entries

/-! ## What is kept -/

theorem all_accepts_filter (f : PageFilter) (texts : List String) (entry : α) :
    (texts.filter isSelector).all (f.accepts · entry) =
      (texts.filter isSelector).all (selects · entry) := by
  rw [List.all_filter, List.all_filter]
  refine List.all_congr rfl fun text => ?_
  cases h : Selector.parse text with
  | ok s => rw [accepts_of_ok h, selects, h]
  | error e => rw [isSelector_of_error h]; rfl

/-- Texts that are selectors let the entries pass that match them. -/
theorem keeps_of_wellFormed (f : PageFilter) (h : malformed texts = []) :
    f.keeps texts = fun entry : α => f.page.isMatch entry && texts.all (selects · entry) := by
  funext entry
  have hall := f.all_accepts_filter texts entry
  rw [filter_isSelector_eq_self h] at hall
  rw [keeps, hall]

/-- With `matchAll` texts that are no selectors count for nothing. -/
theorem keeps_of_matchAll (hp : f.policy = .matchAll) :
    f.keeps texts = f.keeps (α := α) (texts.filter isSelector) := by
  funext entry
  rw [keeps, keeps, List.all_filter]
  refine congrArg _ (List.all_congr rfl fun text => ?_)
  cases h : Selector.parse text with
  | ok s => rw [isSelector_of_ok h]; rfl
  | error e => rw [accepts_of_error h, hp, isSelector_of_error h]; rfl

/-- With `matchNone` one text that is no selector lets nothing pass. -/
theorem keeps_of_matchNone (hp : f.policy = .matchNone) (h : malformed texts ≠ []) (entry : α) :
    f.keeps texts entry = false := by
  obtain ⟨text, ht, e, hparse⟩ := malformed_ne_nil.mp h
  have haccepts : f.accepts text entry = false := by rw [accepts_of_error hparse, hp]; rfl
  have hall : texts.all (f.accepts · entry) = false :=
    List.all_eq_false.mpr ⟨text, ht, by simp [haccepts]⟩
  rw [keeps, hall, Bool.and_false]

theorem keeps_perm {texts' : List String} (h : texts'.Perm texts) :
    f.keeps texts' = f.keeps (α := α) texts := by
  funext entry
  rw [keeps, keeps, h.all_eq]

theorem Admits.perm {texts' : List String} (h : f.Admits texts) (hperm : texts'.Perm texts) :
    f.Admits texts' := by
  intro hp
  have hm : (malformed texts').Perm (malformed texts) := hperm.filterMap _
  rw [h hp] at hm
  exact hm.eq_nil

/-! ## What a call gives -/

/-- The texts in another order keep the same entries. -/
theorem applyAll_perm {first' : String} {others' : List String} {entries kept : List α}
    (hperm : (first' :: others').Perm (first :: others))
    (h : (f.applyAll entries first others).result = .ok kept) :
    (f.applyAll entries first' others').result = .ok kept := by
  have hvia : (f.applyVia id entries first others).result = .ok kept := h
  have ha := admits_of_applyVia hvia
  rw [result_applyAll ha] at h
  rw [result_applyAll (ha.perm hperm), keeps_perm hperm, h]

/-- With `matchAll` the texts that are no selectors might as well be left out. -/
theorem applyAll_of_matchAll (hp : f.policy = .matchAll) (entries : List α) :
    (f.applyAll entries first others).result =
      match (first :: others).filter isSelector with
      | [] => .ok (f.page.filter entries)
      | text :: texts => (f.applyAll entries text texts).result := by
  have hgoes : f.policy ≠ .fail := by simp [hp]
  rw [result_applyAll (admits_of_ne hgoes), keeps_of_matchAll hp]
  split
  · next hnone =>
    have hkeeps : f.keeps [] = f.page.isMatch (α := α) := funext fun _ => Bool.and_true _
    rw [hnone, hkeeps]
    rfl
  · next text texts hsome => rw [hsome, result_applyAll (admits_of_ne hgoes)]

theorem applyAll_of_matchNone (hp : f.policy = .matchNone) (h : malformed (first :: others) ≠ [])
    (entries : List α) : (f.applyAll entries first others).result = .ok [] := by
  have hnone : entries.filter (f.keeps (first :: others)) = [] :=
    List.filter_eq_nil_iff.mpr fun x _ => by simp [keeps_of_matchNone hp h]
  rw [result_applyAll (admits_of_ne (by simp [hp])), hnone]

/-- Where all texts are selectors the policy makes no difference. -/
theorem applyAll_of_wellFormed (policy : InvalidSelectorPolicy)
    (h : malformed (first :: others) = []) (entries : List α) :
    applyAll { f with policy } entries first others =
      ⟨.ok (entries.filter fun x =>
        f.page.isMatch x && (first :: others).all (selects · x)), []⟩ := by
  rw [applyAll_admitted fun _ => h, keeps_of_wellFormed _ h, warningsFor, h]
  rfl

theorem warnings_applyAll (h : f.Admits (first :: others)) (entries : List α) :
    (f.applyAll entries first others).warnings = f.warningsFor (first :: others) := by
  rw [applyAll_admitted h]
  refine List.filter_eq_self.mpr fun entry hentry => ?_
  obtain ⟨fault, -, rfl⟩ := List.mem_map.mp hentry
  rfl

/-- With `matchNone` a call keeps no more than with `matchAll`. -/
theorem sublist_applyAll (f : PageFilter) (entries : List α) (first : String)
    (others : List String) : ∃ fewest most : List α,
      (applyAll { f with policy := .matchNone } entries first others).result = .ok fewest ∧
      (applyAll { f with policy := .matchAll } entries first others).result = .ok most ∧
      fewest.Sublist most := by
  by_cases h : malformed (first :: others) = []
  · exact ⟨_, _, by rw [applyAll_of_wellFormed .matchNone h],
      by rw [applyAll_of_wellFormed .matchAll h], .refl _⟩
  · have hadmits : Admits { f with policy := .matchAll } (first :: others) := admits_of_ne (by simp)
    exact ⟨[], _, applyAll_of_matchNone rfl h entries, result_applyAll hadmits entries,
      List.nil_sublist _⟩

end

/-- What a call gives whose selectors narrow the entries one after another: if all texts are
selectors, the entries that match the page selector and all of them; otherwise the error of the
first one that is none, or nothing, or what the others give, as the policy says. If it is not an
error there is one warning for each text that is no selector. So the order of the texts does not
matter to a success, `matchNone` keeps no more than `matchAll`, and the policy is of no account
where all texts are selectors. -/
theorem applyAll_outcome (f : PageFilter) (entries : List α) (first : String)
    (others : List String) :
    let texts := first :: others
    let run := f.applyAll entries first others
    (malformed texts = [] → run.result =
      .ok (entries.filter fun x => f.page.isMatch x && texts.all (selects · x))) ∧
    (∀ text e rest, malformed texts = (text, e) :: rest →
      (f.policy = .fail → run.result = .error (.selector text e)) ∧
      (f.policy = .matchNone → run.result = .ok []) ∧
      (f.policy = .matchAll → run.result =
        match texts.filter isSelector with
        | [] => .ok (f.page.filter entries)
        | text :: texts => (f.applyAll entries text texts).result)) ∧
    (f.policy ≠ .fail → run.warnings =
      (malformed texts).map fun fault => .invalidSelector f.policy fault.1 fault.2) ∧
    (∀ first' others' kept, (first' :: others').Perm texts → run.result = .ok kept →
      (f.applyAll entries first' others').result = .ok kept) ∧
    (∃ fewest most : List α,
      (applyAll { f with policy := .matchNone } entries first others).result = .ok fewest ∧
      (applyAll { f with policy := .matchAll } entries first others).result = .ok most ∧
      fewest.Sublist most) ∧
    (malformed texts = [] → ∀ policy,
      applyAll { f with policy } entries first others = run) := by
  intro texts run
  refine ⟨fun h => ?_, fun text e rest h => ⟨fun hp => ?_, fun hp => ?_, fun hp => ?_⟩,
    fun hp => warnings_applyAll (admits_of_ne hp) entries,
    fun first' others' kept hperm hr => applyAll_perm hperm hr,
    f.sublist_applyAll entries first others, fun h policy => ?_⟩
  · exact congrArg Logged.result (applyAll_of_wellFormed f.policy h entries)
  · exact congrArg Logged.result (applyAll_refused hp h entries)
  · exact applyAll_of_matchNone hp (by simp [texts, h]) entries
  · exact applyAll_of_matchAll hp entries
  · exact (applyAll_of_wellFormed policy h entries).trans
      (applyAll_of_wellFormed f.policy h entries).symm

/-- A single ampersand after the empty selector is an error, leaves nothing, or counts for
nothing. -/
theorem applyAll_outcome_ampersand :
    let page : Selector := ⟨some (.present "a")⟩
    let entries : List (Dict String) := [[("a", "x")], [("b", "")], [("a", "x")]]
    let e : SelectorError := .lexical (.unexpectedChar '&' 0)
    malformed ["", "&"] = [("&", e)] ∧
      (applyAll ⟨page, .fail⟩ entries "" ["&"]).result = .error (.selector "&" e) ∧
      (applyAll ⟨page, .matchNone⟩ entries "" ["&"]).result = .ok [] ∧
      (applyAll ⟨page, .matchNone⟩ entries "" ["&"]).warnings =
        [.invalidSelector .matchNone "&" e] ∧
      (applyAll ⟨page, .matchAll⟩ entries "" ["&"]).result =
        .ok [[("a", "x")], [("a", "x")]] := by
  intro page entries e
  have hnext : (Lexer.ofText "&").next = some (.error (.unexpectedChar '&' 0), .exhausted) := rfl
  have hexpr : Expr.parse "&" = .error e := by
    rw [Expr.parse, tokenize, Lexer.tokens_of_next_error hnext]
    rfl
  have hparse : Selector.parse "&" = .error e := by
    rw [Selector.parse_eq, hexpr]
    rfl
  have hempty : Selector.parse "" = .ok .all := rfl
  have hm : malformed ["", "&"] = [("&", e)] := by
    rw [malformed_of_ok hempty, malformed_of_error hparse]
    rfl
  have hfail := applyAll_outcome ⟨page, .fail⟩ entries "" ["&"]
  have hnone := applyAll_outcome ⟨page, .matchNone⟩ entries "" ["&"]
  have hall := applyAll_outcome ⟨page, .matchAll⟩ entries "" ["&"]
  refine ⟨hm, (hfail.2.1 "&" e [] hm).1 rfl, (hnone.2.1 "&" e [] hm).2.1 rfl, ?_, ?_⟩
  · rw [hnone.2.2.1 (by decide), hm]
    rfl
  · have hkept : ["", "&"].filter isSelector = [""] := by
      simp [isSelector_of_ok hempty, isSelector_of_error hparse]
    rw [(hall.2.1 "&" e [] hm).2.2 rfl, hkept]
    rfl

end PageFilter

end MicroFrontends
