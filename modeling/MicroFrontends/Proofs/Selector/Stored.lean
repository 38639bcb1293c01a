import MicroFrontends.Proofs.Json.Text
import MicroFrontends.Proofs.Selector.RoundTrip
import MicroFrontends.Selector.Decode

/-!
# Stored selectors

An expression that cannot be written has no stored form (`Expr.stored`), but a selector with such an
expression is stored as the text that it would have. This text may be that of another selector.

* `Selector.parse_toJson` : a stored selector is read by parsing its text;
* `Selector.stored_iff` : which selectors are changed when they are stored and read;
* `Selector.stored_ne` : a selector that is stored as another one.
-/

namespace MicroFrontends

open Json

namespace Selector

theorem live_toJson (s : Selector) (room : Nat) :
    decoder.live room (Document.ofText s.toJson.compact) =
      conclude (fun source => (Selector.parse source).mapError .selector) s.render [] := by
  have hread : readText (escaped s.render.toList) = .ok (s.render, []) := by
    have h := readText_quoted (quoted_escaped s.render.toList) []
    rw [List.append_nil, readText_escaped, String.ofList_toList] at h
    exact Except.toOption_eq_some.mp h
  have htext : Document.ofText s.toJson.compact = .char '"' :: escaped s.render.toList :=
    ofDocument_quote s.render
  rw [htext]
  show (readText (escaped s.render.toList) >>= fun p => (pure (some p.1, p.2) : Except Failure _))
    >>= _ = _
  rw [hread]
  rfl

/-- What a stored selector is read as depends on its text alone. -/
theorem parse_toJson (s : Selector) : decoder.parse (Document.ofText s.toJson.compact) =
    (Selector.parse s.render).mapError fun e => .problem (.selector e) none := by
  rw [Decoder.parse, live_toJson, conclude]
  cases Selector.parse s.render <;> rfl

theorem parse_toJson_eq_ok {s s' : Selector} :
    decoder.parse (Document.ofText s.toJson.compact) = .ok s' ↔ Selector.parse s.render = .ok s' := by
  rw [parse_toJson, Except.mapError_eq_ok]

end Selector

theorem Expr.stored_eq_ok {e : Expr} {text : String} :
    e.stored = .ok text ↔ e.isRepresentable = true ∧ e.render = text := by
  unfold stored
  split <;> simp [*]

namespace Selector

/-- A stored selector is read as itself or refused for its nesting if its expression has a stored
form, and is read as another selector or refused if not. -/
theorem stored_iff (s : Selector) :
    ((∀ e ∈ s.expr?, ∃ text, e.stored = .ok text) →
      decoder.parse (Document.ofText s.toJson.compact) = .ok s ∨
      ∃ found position, decoder.parse (Document.ofText s.toJson.compact) =
        .error (.problem (.selector (.syntactic ⟨.shallowerNesting, found, position⟩)) none)) ∧
    ∀ s', decoder.parse (Document.ofText s.toJson.compact) = .ok s' →
      (s' = s ↔ ∀ e ∈ s.expr?, ∃ text, e.stored = .ok text) := by
  have hstored : (∀ e ∈ s.expr?, ∃ text, e.stored = .ok text) ↔
      ∀ e ∈ s.expr?, e.isRepresentable = true := by
    simp only [Expr.stored_eq_ok, exists_and_left, exists_eq', and_true]
  have hread (hr : ∀ e ∈ s.expr?, e.isRepresentable = true) : Selector.parse s.render = .ok s ∨
      ∃ found position, Selector.parse s.render =
        .error (.syntactic ⟨.shallowerNesting, found, position⟩) := by
    by_cases hn : ∀ e ∈ s.expr?, e.nesting ≤ maxDepth
    · exact .inl (parse_render_eq_ok hr hn)
    · obtain ⟨e, hne⟩ := Classical.not_forall.mp hn
      obtain ⟨he, hlt⟩ := Classical.not_imp.mp hne
      exact .inr (parse_render_eq_error he (hr e he) (Nat.lt_of_not_le hlt))
  rw [hstored]
  refine ⟨fun hr => ?_, fun s' h => ⟨?_, fun hr => ?_⟩⟩
  · rw [parse_toJson]
    rcases hread hr with h | ⟨found, position, h⟩
    · exact .inl (by rw [h]; rfl)
    · exact .inr ⟨found, position, by rw [h]; rfl⟩
  · rintro rfl
    exact isRepresentable_of_parse_selector (parse_toJson_eq_ok.mp h)
  · have h := parse_toJson_eq_ok.mp h
    rcases hread hr with hok | ⟨found, position, herr⟩
    · rw [hok] at h
      cases h
      rfl
    · rw [herr] at h
      cases h

/-- The label of an expression that cannot be written is read as a conjunction. -/
theorem stored_ne : ¬ ∀ s s', decoder.parse (Document.ofText s.toJson.compact) = .ok s' → s' = s := by
  intro h
  let d : Derivation (.chain .or) :=
    .chain (.conjunction (.chain .label (.repeated .label 1))) .done
  have hs : d.Spellable := by simp [d, Derivation.spellable_label, Derivation.spellable_repeated]
  have hd : Selector.parse "a && a" = .ok ⟨some (.and (.present "a") (.present "a"))⟩ :=
    d.parse_selector_eq_ok hs (by decide)
  cases h ⟨some (.present "a && a")⟩ _ (parse_toJson_eq_ok.mpr hd)

end Selector

end MicroFrontends
