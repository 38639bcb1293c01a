import MicroFrontends.Catalog.Decode
import MicroFrontends.Proofs.Json.Invariants

/-!
# The decoders of the catalog

All decoders of the catalog are lawful (`Catalog.lawful_record` and those of its parts). The elements
of a catalog that was decoded are tidy (`Catalog.tidy_of_ofDocument`): their labels are in order, and
so are the values of their attributes, which nest only so deep.
-/

namespace MicroFrontends

open Json Decoder

/-! ## What decoders make of texts -/

theorem Module.lawful_record : Module.record.Lawful := by
  simp only [Record.Lawful, record, List.forall_mem_cons]
  exact ⟨Slot.lawful lawful_text, Slot.lawful (lawful_option (lawful_list lawful_text)),
    List.forall_mem_nil _⟩

theorem Attribute.lawful_record : Attribute.record.Lawful := by
  simp only [Record.Lawful, record, List.forall_mem_cons]
  exact ⟨Slot.lawful lawful_text, Slot.lawful lawful_json, List.forall_mem_nil _⟩

theorem Element.lawful_record : Element.record.Lawful := by
  simp only [Record.Lawful, record, List.forall_mem_cons]
  exact ⟨Slot.lawful lawful_text,
    Slot.lawful (lawful_list (Record.lawful_decoder Attribute.lawful_record)),
    Slot.lawful (lawful_option (lawful_dict lawful_text)),
    Slot.lawful (lawful_option (lawful_list lawful_text)), List.forall_mem_nil _⟩

theorem App.lawful_record : App.record.Lawful := by
  simp only [Record.Lawful, record, List.forall_mem_cons]
  exact ⟨Slot.lawful lawful_text, Slot.lawful lawful_text, Slot.lawful lawful_text,
    Slot.lawful lawful_number, Slot.lawful (lawful_option lawful_text), List.forall_mem_nil _⟩

theorem ContextElement.lawful_record : ContextElement.record.Lawful := by
  simp only [Record.Lawful, record, List.forall_mem_cons]
  exact ⟨Slot.lawful (lawful_list lawful_text), List.forall_mem_nil _⟩

theorem UserInfo.lawful_record : UserInfo.record.Lawful := by
  simp only [Record.Lawful, record, List.forall_mem_cons]
  exact ⟨Slot.lawful lawful_text, Slot.lawful lawful_text, Slot.lawful (lawful_list lawful_text),
    List.forall_mem_nil _⟩

theorem Catalog.lawful_record : Catalog.record.Lawful := by
  simp only [Record.Lawful, record, List.forall_mem_cons]
  exact ⟨Slot.lawful (lawful_list (Record.lawful_decoder Module.lawful_record)),
    Slot.lawful (lawful_list (Record.lawful_decoder App.lawful_record)),
    Slot.lawful (lawful_list (Record.lawful_decoder ContextElement.lawful_record)),
    Slot.lawful (lawful_option lawful_boolean),
    Slot.lawful (lawful_option (Record.lawful_decoder UserInfo.lawful_record)),
    List.forall_mem_nil _⟩

/-! ## Tidy elements -/

/-- The value of the attribute is in order and nests only as deep as the room. -/
def Attribute.Tidy (room : Nat) (a : Attribute) : Prop :=
  a.value.canonical = a.value ∧ Fits room a.value

/-- The labels are in order, and so are the values of the attributes, which nest only as deep as the
room. -/
structure Element.Tidy (room : Nat) (e : Element) : Prop where
  labels : ∀ labels ∈ e.labels, Dict.Sorted labels
  attributes : ∀ a ∈ e.attributes, a.Tidy room

/-- The elements of all applications and contexts are tidy. -/
structure Catalog.Tidy (room : Nat) (c : Catalog) : Prop where
  apps : ∀ app ∈ c.apps, app.element.Tidy room
  contexts : ∀ e ∈ c.contexts, e.element.Tidy room

/-- The same of what is known of an attribute while it is read. -/
def Attribute.Draft.Tidy (room : Nat) (draft : Draft) : Prop :=
  ∀ v ∈ draft.value, v.canonical = v ∧ Fits room v

/-- The same of what is known of an element while it is read. -/
structure Element.Draft.Tidy (room : Nat) (draft : Draft) : Prop where
  labels : ∀ o ∈ draft.labels, ∀ labels ∈ o, Dict.Sorted labels
  attributes : ∀ attributes ∈ draft.attributes, ∀ a ∈ attributes, a.Tidy room

/-- The same of what is known of a catalog while it is read. -/
structure Catalog.Draft.Tidy (room : Nat) (draft : Draft) : Prop where
  apps : ∀ apps ∈ draft.apps, ∀ app ∈ apps, app.element.Tidy room
  contexts : ∀ contexts ∈ draft.contexts, ∀ e ∈ contexts, e.element.Tidy room

theorem exists_of_mem_getD {α : Type} {o : Option (List α)} {a : α} (h : a ∈ o.getD []) :
    ∃ l ∈ o, a ∈ l := by
  cases o with
  | none => cases h
  | some l => exact ⟨l, rfl, h⟩

theorem exists_of_mem_getD_none {α : Type} {o : Option (Option α)} {a : α} (h : a ∈ o.getD none) :
    ∃ o' ∈ o, a ∈ o' := by
  cases o with
  | none => cases h
  | some o' => exact ⟨o', rfl, h⟩

theorem Attribute.keeps_tidy : Attribute.record.Keeps Draft.Tidy where
  start _ := by nofun
  slots := by
    simp only [record, List.forall_mem_cons]
    exact ⟨Slot.yields (yields_any _) fun _ _ _ h _ => h,
      Slot.yields yields_json fun _ _ _ _ hv => by rintro _ ⟨⟩; exact hv, List.forall_mem_nil _⟩

theorem Attribute.yields_decoder : Attribute.decoder.Yields fun room a => a.Tidy (room - 1) :=
  Record.decoder_yields keeps_tidy fun room draft others a hdraft _ h => by
    obtain ⟨name, -, h⟩ := Except.bind_eq_ok.mp h
    obtain ⟨v, hv, h⟩ := Except.bind_eq_ok.mp h
    cases h
    exact hdraft v (require_eq_ok.mp hv)

theorem Element.keeps_tidy : Element.record.Keeps fun room => Draft.Tidy (room - 2) where
  start _ := ⟨by nofun, by nofun⟩
  slots := by
    simp only [record, List.forall_mem_cons]
    exact ⟨Slot.yields (yields_any _) fun _ _ _ h _ => ⟨h.1, h.2⟩,
      Slot.yields Attribute.yields_decoder.list fun _ _ _ h ha =>
        ⟨h.1, by rintro _ ⟨⟩; exact ha⟩,
      Slot.yields (yields_dict _).option fun _ _ _ h hl => ⟨by rintro _ ⟨⟩; exact hl, h.2⟩,
      Slot.yields (yields_any _) fun _ _ _ h _ => ⟨h.1, h.2⟩, List.forall_mem_nil _⟩

theorem Element.tidy_of_ofMembers {room : Nat} {ms : List (String × Json)} {e : Element}
    (hms : ∀ m ∈ ms, Fits room m.2) (h : Element.record.ofMembers ms = .ok e) : e.Tidy (room - 2) := by
  refine Record.ofMembers_yields (P := fun room e => e.Tidy (room - 2)) keeps_tidy ?_ hms h
  intro room draft others e hdraft _ h
  obtain ⟨tag, -, h⟩ := Except.bind_eq_ok.mp h
  obtain ⟨code, -, h⟩ := Except.bind_eq_ok.mp h
  cases h
  refine ⟨fun labels hl => ?_, fun a ha => ?_⟩
  · obtain ⟨o, ho, hl⟩ := exists_of_mem_getD_none hl
    exact hdraft.labels o ho labels hl
  · obtain ⟨attributes, has, ha⟩ := exists_of_mem_getD ha
    exact hdraft.attributes attributes has a ha

theorem App.yields_decoder : App.decoder.Yields fun room app => app.element.Tidy (room - 1 - 2) :=
  Record.decoder_yields (P := fun room (app : App) => app.element.Tidy (room - 2))
    (Record.keeps_any record)
    fun room draft others app _ hothers h => by
      obtain ⟨title, -, h⟩ := Except.bind_eq_ok.mp h
      obtain ⟨path, -, h⟩ := Except.bind_eq_ok.mp h
      obtain ⟨element, helement, h⟩ := Except.bind_eq_ok.mp h
      cases h
      exact Element.tidy_of_ofMembers hothers helement

theorem ContextElement.yields_decoder :
    ContextElement.decoder.Yields fun room e => e.element.Tidy (room - 1 - 2) :=
  Record.decoder_yields (P := fun room (e : ContextElement) => e.element.Tidy (room - 2))
    (Record.keeps_any record)
    fun room draft others e _ hothers h => by
      obtain ⟨element, helement, h⟩ := Except.bind_eq_ok.mp h
      cases h
      exact Element.tidy_of_ofMembers hothers helement

theorem Catalog.keeps_tidy : Catalog.record.Keeps fun room => Draft.Tidy (room - 1 - 1 - 2) where
  start _ := ⟨by nofun, by nofun⟩
  slots := by
    simp only [record, List.forall_mem_cons]
    exact ⟨Slot.yields (yields_any _) fun _ _ _ h _ => ⟨h.1, h.2⟩,
      Slot.yields App.yields_decoder.list fun _ _ _ h ha => ⟨by rintro _ ⟨⟩; exact ha, h.2⟩,
      Slot.yields ContextElement.yields_decoder.list fun _ _ _ h he =>
        ⟨h.1, by rintro _ ⟨⟩; exact he⟩,
      Slot.yields (yields_any _) fun _ _ _ h _ => ⟨h.1, h.2⟩,
      Slot.yields (yields_any _) fun _ _ _ h _ => ⟨h.1, h.2⟩, List.forall_mem_nil _⟩

theorem Catalog.yields_decoder : Catalog.decoder.Yields fun room c => c.Tidy (room - 1 - 1 - 1 - 2) :=
  Record.decoder_yields (P := fun room (c : Catalog) => c.Tidy (room - 1 - 1 - 2)) keeps_tidy
    fun room draft others c hdraft _ h => by
      cases h
      refine ⟨fun app happ => ?_, fun e he => ?_⟩
      · obtain ⟨apps, happs, happ⟩ := exists_of_mem_getD happ
        exact hdraft.apps apps happs app happ
      · obtain ⟨contexts, hcontexts, he⟩ := exists_of_mem_getD he
        exact hdraft.contexts contexts hcontexts e he

/-- A catalog that was decoded is tidy, with room for what is around the values of attributes. -/
theorem Catalog.tidy_of_ofDocument {d : Document} {c : Catalog} (h : Catalog.ofDocument d = .ok c) :
    c.Tidy (maxNesting - 5) := by
  obtain ⟨rest, hread, -⟩ := Decoder.parse_eq_ok.mp h
  exact Catalog.yields_decoder.live maxNesting _ _ _ hread

end MicroFrontends
