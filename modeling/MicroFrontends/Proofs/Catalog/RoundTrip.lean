import MicroFrontends.Proofs.Catalog.Encoding
import MicroFrontends.Proofs.Registry.Listing

/-!
# Catalogs that are written and read again

A catalog that was decoded is decoded again from the text written for it, and the applications of a
listing are decoded from the text written for the listing (`Catalog.ofDocument_written`), if each
float in the catalog is read back from the text written for it.
-/

namespace MicroFrontends

open Json Decoder

/-- A listing has applications of the catalog only. -/
theorem Registry.mem_apps_of_listing {r : Registry} {first : String} {others : List String}
    {location : String} {kept : List NavigableApp}
    (h : (r.listing first others location).result = .ok kept) {entry : NavigableApp}
    (hentry : entry ∈ kept) : entry.app ∈ r.catalog.apps := by
  have hadmits := PageFilter.admits_of_applyVia (r.listing_eq_applyVia first others location ▸ h)
  rw [listing_admitted hadmits] at h
  obtain rfl := Except.ok.inj h
  obtain ⟨app, happ, rfl⟩ := List.mem_map.mp hentry
  exact (List.mem_filter.mp (List.mem_mergeSort.mp happ)).1

/-- Applications are decoded from the text written for a list of them, whether they are active or
not. -/
theorem NavigableApp.parse_written {c : Catalog} {room : Nat} (hc : c.Tidy room)
    (hroom : room + 4 ≤ maxNesting) (hx : ∀ x ∈ c.floats, x.ReadsBack) {entries : List NavigableApp}
    (h : ∀ entry ∈ entries, entry.app ∈ c.apps) :
    ∀ text ∈ [(Json.array (entries.map toJson)).compact, (Json.array (entries.map toJson)).pretty],
      (Decoder.list App.decoder).parse (.ofText text) = .ok (entries.map (·.app)) := by
  have htidy (entry : NavigableApp) (he : entry ∈ entries) : entry.app.element.Tidy room :=
    hc.apps entry.app (h entry he)
  refine (lawful_list (Record.lawful_decoder App.lawful_record)).parse_written
    (Fits.mono (fits_list fun entry he => fits_toJson (htidy entry he)) hroom) (fun x hmem => ?_) ?_
  · obtain ⟨v, hv, hmem⟩ := mem_floats_array.mp hmem
    obtain ⟨entry, he, rfl⟩ := List.mem_map.mp hv
    rw [entry.floats_toJson] at hmem
    exact hx x (List.mem_append_left _ (List.mem_flatMap.mpr ⟨entry.app, h entry he, hmem⟩))
  · exact kept_list_map fun entry he => kept_toJson (htidy entry he)

/-- A catalog that was decoded is decoded again from the text written for it, and so are the
applications of a listing. -/
theorem Catalog.ofDocument_written {d : Document} {c : Catalog} (h : ofDocument d = .ok c)
    (hx : ∀ x ∈ c.floats, x.ReadsBack) :
    (∀ text ∈ [c.toJson.compact, c.toJson.pretty], ofDocument (.ofText text) = .ok c) ∧
    ∀ (r : Registry) (first : String) (others : List String) (location : String)
      (kept : List NavigableApp), r.catalog = c →
      (r.listing first others location).result = .ok kept →
      let listed : Json := .array (kept.map NavigableApp.toJson)
      ∀ text ∈ [listed.compact, listed.pretty],
        (Decoder.list App.decoder).parse (.ofText text) = .ok (kept.map (·.app)) := by
  have htidy := tidy_of_ofDocument h
  constructor
  · exact (Record.lawful_decoder lawful_record).parse_written (fits_toJson htidy)
      (c.floats_toJson ▸ hx) (kept_toJson htidy)
  · rintro r first others location kept rfl hkept
    exact NavigableApp.parse_written htidy (by decide) hx fun entry he =>
      Registry.mem_apps_of_listing hkept he

theorem readsBack_two : (Binary64.ofInt 2).ReadsBack := by
  have hcollect : collect maxDigits 2 0 [.char '0'] = ⟨20, 1, []⟩ := by
    show (if 2 * 10 + 0 ≤ maxDigits then collect maxDigits (2 * 10 + 0) 1 [] else
      ⟨2, 0, [.char '0']⟩) = _
    rw [if_pos (by decide)]
    rfl
  have hscale : scale? (.ofNat 20) (-1) = some (.ofInt 2) := by
    rw [scale?]
    decide +kernel
  have htext : (Binary64.ofInt 2).renderShort = "2.0" := by decide +kernel
  rw [Binary64.ReadsBack, htext]
  show Signed.readFraction ⟨false, 2⟩ 0 [.char '0'] = _
  rw [Signed.readFraction, hcollect]
  show Signed.withExponent ⟨false, 20⟩ (-1) [] = _
  rw [Signed.withExponent, ofParts?, hscale]
  rfl

/-- An application with members that are unknown, a whole number as its priority, labels in another
order, and an attribute with two members of one name. -/
theorem Catalog.ofDocument_written_app :
    let text (s : String) : Json := .string s
    let app : Json := .object [("isActive", .bool true), ("title", text "t"), ("path", text "p"),
      ("labels", .object [("b", text "2"), ("a", text "1")]), ("element", text "e"),
      ("priority", .int 2), ("icon", .null), ("roles", .array []), ("attributes", .array [.object
        [("value", .object [("k", .int 1), ("k", .array [.null])]), ("name", text "n")]])]
    let written : Json := .object [("apps", .array [app]), ("version", .int 1)]
    let decoded : App := ⟨⟨⟨"", none⟩, "e", [⟨"n", .object [("k", .array [.null])]⟩],
      some [("a", "1"), ("b", "2")], some []⟩, "t", "", "p", .ofInt 2, none⟩
    let c : Catalog := ⟨[], [decoded], [], none, none⟩
    let r : Registry := ⟨c, "/", ⟨.all, .matchNone⟩⟩
    let listed : Json := .array [NavigableApp.toJson ⟨decoded, true⟩]
    Catalog.ofDocument (.ofText written.compact) = .ok c ∧
      Catalog.ofDocument (.ofText c.toJson.pretty) = .ok c ∧
      (r.listing "" [] "/p/x").result = .ok [⟨decoded, true⟩] ∧
      (Decoder.list App.decoder).parse (.ofText listed.pretty) = .ok [decoded] := by
  intro text app written decoded c r listed
  have hlabels : Dict.insert [("b", "2")] "a" "1" = [("a", "1"), ("b", "2")] := by decide +kernel
  have hvalue : Dict.insert [("k", Json.int 1)] "k" (.array [.null]) = [("k", .array [.null])] := by
    rw [Dict.insert, if_neg (String.lt_irrefl _), if_pos rfl]
  have happ : Fits 5 app := by
    refine .object ?_
    simp only [List.forall_mem_cons]
    exact ⟨.bool _, .string _, .string _, .object (List.forall_mem_cons.mpr ⟨.string _,
      List.forall_mem_singleton.mpr (.string _)⟩), .string _, .int ⟨by decide, by decide⟩, .null,
      .array (List.forall_mem_nil _), .array (List.forall_mem_singleton.mpr (.object
        (List.forall_mem_cons.mpr ⟨.object (List.forall_mem_cons.mpr ⟨.int ⟨by decide, by decide⟩,
          List.forall_mem_singleton.mpr (.array (List.forall_mem_singleton.mpr .null))⟩),
          List.forall_mem_singleton.mpr (.string _)⟩))), List.forall_mem_nil _⟩
  have hwritten : Fits 7 written := .object (List.forall_mem_cons.mpr
    ⟨.array (List.forall_mem_singleton.mpr happ),
      List.forall_mem_singleton.mpr (.int ⟨by decide, by decide⟩)⟩)
  have hread : Catalog.ofDocument (.ofText written.compact) = .ok c := by
    refine (Record.lawful_decoder lawful_record).parse_written
      (hwritten.mono (by decide)) (List.forall_mem_nil _) ?_ _ List.mem_cons_self
    show (Except.ok ⟨[], [⟨⟨⟨"", none⟩, "e", [⟨"n", .object (Dict.insert [("k", .int 1)] "k"
      (.array [.null]))⟩], some (Dict.insert [("b", "2")] "a" "1"), some []⟩, "t", "", "p",
      .ofInt 2, none⟩], [], none, none⟩ : Except Problem Catalog) = _
    rw [hlabels, hvalue]
  have hlisting : (r.listing "" [] "/p/x").result = .ok [⟨decoded, true⟩] := by
    refine (r.listing_withoutPage "/p/x").trans ?_
    have hactive : (r.rebase "p").toList.isPrefixOf "/p/x".toList = true := by decide
    rw [List.mergeSort_singleton]
    exact congrArg (fun isActive => Except.ok [NavigableApp.mk decoded isActive]) hactive
  obtain ⟨hcatalog, hlistings⟩ :=
    ofDocument_written hread (List.forall_mem_singleton.mpr readsBack_two)
  exact ⟨hread, hcatalog _ (List.mem_cons_of_mem _ List.mem_cons_self), hlisting,
    hlistings r "" [] "/p/x" _ rfl hlisting _ (List.mem_cons_of_mem _ List.mem_cons_self)⟩

end MicroFrontends
