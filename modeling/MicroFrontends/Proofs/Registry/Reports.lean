import MicroFrontends.Proofs.Registry.Listing
import MicroFrontends.Registry.Report

/-!
# Reports that fail

Only the selectors of a call can make a report fail, and all of them are looked at before anything
is written. So a report that fails has written nothing (`Report.write_fails_iff`).
-/

namespace MicroFrontends

namespace Report

open Writing

variable (r : Registry) (o : ReportOptions)

/-! ## What cannot fail -/

theorem succeeds_writeFormatted (texts : List String) (v : Json) :
    (writeFormatted o texts v).Succeeds := by
  unfold writeFormatted
  cases o.format with
  | text => exact succeeds_writeLines texts
  | json => exact succeeds_write _

theorem succeeds_writeElements (elements : List Element) (texts : List String) (v : Json) :
    (writeElements o elements texts v).Succeeds := by
  unfold writeElements
  split
  · exact succeeds_writeFormatted o _ _
  · exact succeeds_writeFormatted o texts v

/-- There is a shell for every context. -/
theorem exists_shell (context : String) : ∃ shell, (r.shell context).result = .ok shell := by
  have hparse : Selector.parse "" = .ok .all := rfl
  have happly : r.filterEntries r.catalog.contexts "" = _ :=
    PageFilter.refine_admitted (fun _ => malformed_of_ok hparse []) _
  have helements : ∃ elements, (r.contextElements context "").result = .ok elements := by
    rw [Registry.contextElements, happly, Logged.bind_of_ok rfl]
    exact ⟨_, rfl⟩
  obtain ⟨elements, helements⟩ := helements
  rw [Registry.shell, Logged.bind_of_ok helements]
  cases elements with
  | nil => exact ⟨_, rfl⟩
  | cons shell others => exact ⟨shell, rfl⟩

/-! ## What can fail -/

/-- The selectors of the call, of which there is always a first one. -/
def call : List String := firstSelector o :: o.selectors.tail

theorem malformed_call : malformed (call o) = malformed o.selectors := by
  unfold call firstSelector
  cases o.selectors with
  | nil => exact malformed_of_ok (s := .all) rfl []
  | cons text texts => rfl

variable {r o}

theorem writeAnswer_apps (h : o.list = .apps) :
    writeAnswer r o = silently (r.filter.applyVia
      (fun apps => (apps.mergeSort Registry.listedBefore).map (r.navigable o.location))
      r.catalog.apps (firstSelector o) o.selectors.tail) >>= writeApps r o := by
  rw [writeAnswer, h, ← Registry.listing_eq_applyVia]
  rfl

theorem writeAnswer_contexts (h : o.list = .contexts) :
    writeAnswer r o = silently (r.filter.applyVia (List.filter (·.isIn o.context))
      r.catalog.contexts (firstSelector o) o.selectors.tail) >>= writeContexts o := by
  have hselected : selectedElements r o = r.filter.applyVia (List.filter (·.isIn o.context))
      r.catalog.contexts (firstSelector o) o.selectors.tail := Logged.bind_pure_bind _ _ _
  rw [writeAnswer, h, ← hselected]

section
variable {α β : Type} [Labelled α] [Labelled β] {f : PageFilter} (form : List α → List β)
  (entries : List α) {display : List β → Writing Unit}

theorem succeeds_of_admits (h : f.Admits o.selectors) (hd : ∀ kept, (display kept).Succeeds) :
    (silently (f.applyVia form entries (firstSelector o) o.selectors.tail) >>= display).Succeeds := by
  have hcall : f.Admits (call o) := fun hp => (malformed_call o).trans (h hp)
  rw [PageFilter.applyVia_admitted hcall, Succeeds, silently_bind rfl]
  exact hd _

theorem refused_of_malformed {text : String} {e : SelectorError}
    {rest : List (String × SelectorError)} (hp : f.policy = .fail)
    (h : malformed o.selectors = (text, e) :: rest) :
    silently (f.applyVia form entries (firstSelector o) o.selectors.tail) >>= display =
      ⟨⟨.error (.selector text e), []⟩, ""⟩ := by
  rw [PageFilter.applyVia_refused hp ((malformed_call o).trans h), bind_of_error rfl]
  rfl

end

/-- The report shows what the selectors of the call leave. -/
def Selects (o : ReportOptions) : Prop := o.list = .apps ∨ o.list = .contexts

theorem succeeds_writeAnswer (h : Selects o → r.filter.Admits o.selectors) :
    (writeAnswer r o).Succeeds := by
  cases hlist : o.list with
  | apps =>
    rw [writeAnswer_apps hlist]
    exact succeeds_of_admits _ _ (h (.inl hlist)) fun _ => succeeds_writeElements o _ _ _
  | contexts =>
    rw [writeAnswer_contexts hlist]
    exact succeeds_of_admits _ _ (h (.inr hlist)) fun _ => succeeds_writeElements o _ _ _
  | preload =>
    rw [writeAnswer, hlist]
    exact succeeds_writeFormatted o _ _
  | shell =>
    obtain ⟨shell, hshell⟩ := exists_shell r o.context
    rw [writeAnswer, hlist, Succeeds, silently_bind hshell]
    exact succeeds_writeElements o _ _ _
  | user =>
    rw [writeAnswer, hlist]
    exact succeeds_writeFormatted o _ _

theorem writeAnswer_refused {text : String} {e : SelectorError}
    {rest : List (String × SelectorError)} (hs : Selects o) (hp : r.filter.policy = .fail)
    (h : malformed o.selectors = (text, e) :: rest) :
    writeAnswer r o = ⟨⟨.error (.selector text e), []⟩, ""⟩ := by
  rcases hs with hlist | hlist
  · rw [writeAnswer_apps hlist, refused_of_malformed _ _ hp h]
  · rw [writeAnswer_contexts hlist, refused_of_malformed _ _ hp h]

/-- A report fails exactly if it shows what selectors leave, one of their texts is no selector, and
the policy makes that an error. The error is that of the first such text, and nothing has been
written. -/
theorem write_fails_iff (r : Registry) (o : ReportOptions) :
    let refused := (o.list = .apps ∨ o.list = .contexts) ∧ r.filter.policy = .fail ∧
      ∃ text ∈ o.selectors, ∃ e, Selector.parse text = .error e
    ((∃ error, (write r o).step.result = .error error) ↔ refused) ∧
    (¬ refused → (write r o).step.result = .ok ()) ∧
    ∀ error, (write r o).step.result = .error error → (write r o).output = "" ∧
      ∃ before text after e, o.selectors = before ++ text :: after ∧
        (∀ t ∈ before, ∃ s, Selector.parse t = .ok s) ∧ Selector.parse text = .error e ∧
        error = .selector text e := by
  intro refused
  have hwrite : (write r o).step.result = (writeAnswer r o).step.result ∧
      (write r o).output = (writeAnswer r o).output := by
    rw [write, silently_bind rfl]
    exact ⟨rfl, rfl⟩
  have hsucceeds (h : ¬ refused) : (writeAnswer r o).Succeeds :=
    succeeds_writeAnswer fun hs hp =>
      Classical.byContradiction fun hm => h ⟨hs, hp, malformed_ne_nil.mp hm⟩
  have hrefused (h : refused) : ∃ text e rest, malformed o.selectors = (text, e) :: rest ∧
      writeAnswer r o = ⟨⟨.error (.selector text e), []⟩, ""⟩ := by
    obtain ⟨hs, hp, hbad⟩ := h
    obtain ⟨⟨text, e⟩, rest, hm⟩ := List.exists_cons_of_ne_nil (malformed_ne_nil.mpr hbad)
    exact ⟨text, e, rest, hm, writeAnswer_refused hs hp hm⟩
  rw [hwrite.1, hwrite.2]
  have hfails {error : ProgramError} (h : (writeAnswer r o).step.result = .error error) :
      refused := Classical.byContradiction fun hnot => by
    rw [hsucceeds hnot] at h
    cases h
  refine ⟨⟨fun ⟨_, h⟩ => hfails h, fun h => ?_⟩, hsucceeds, fun error h => ?_⟩
  · obtain ⟨text, e, rest, -, hanswer⟩ := hrefused h
    exact ⟨_, by rw [hanswer]⟩
  · obtain ⟨text, e, rest, hm, hanswer⟩ := hrefused (hfails h)
    obtain ⟨hparse, before, after, hselectors, hbefore⟩ := exists_append_of_malformed hm
    rw [hanswer] at h ⊢
    exact ⟨rfl, before, text, after, e, hselectors, hbefore, hparse, (Except.error.inj h).symm⟩

end Report

end MicroFrontends
