import MicroFrontends.Proofs.Catalog.Decoders
import MicroFrontends.Proofs.Json.RecordEdits
import MicroFrontends.Program

/-!
# Catalogs of documents that were changed

A catalog does not depend on the order in which members stand in a document, nor on members that are
no field of their object (`Catalog.ofDocument_edited`). `Catalog.schema` says where the objects of
records stand in the text of a catalog, and what their fields are, those of the records that share an
object included.
-/

namespace MicroFrontends

open Json Decoder

/-! ## Schemas -/

def Module.fields : List (String × Schema) := [("load_url", .any), ("styles", .any)]

def Attribute.fields : List (String × Schema) := [("name", .any), ("value", .any)]

/-- The fields of an element, its module's aside. -/
def Element.ownFields : List (String × Schema) :=
  [("element", .any), ("attributes", .list (.record Attribute.fields)), ("labels", .any),
    ("roles", .any)]

def Element.fields : List (String × Schema) := ownFields ++ Module.fields

/-- The fields of an application, its element's aside. -/
def App.ownFields : List (String × Schema) :=
  [("title", .any), ("details", .any), ("path", .any), ("priority", .any), ("icon", .any)]

def App.fields : List (String × Schema) := ownFields ++ Element.fields

/-- The fields of a context element, its element's aside. -/
def ContextElement.ownFields : List (String × Schema) := [("contextNames", .any)]

def ContextElement.fields : List (String × Schema) := ownFields ++ Element.fields

def UserInfo.fields : List (String × Schema) := [("id", .any), ("name", .any), ("roles", .any)]

def Catalog.fields : List (String × Schema) :=
  [("preload", .list (.record Module.fields)), ("apps", .list (.record App.fields)),
    ("contexts", .list (.record ContextElement.fields)), ("anonymous", .any),
    ("user", .record UserInfo.fields)]

def Catalog.schema : Schema := .record fields

/-! ## Decoders -/

theorem respects_texts : (list text).Respects .any := .list lawful_text fun _ => respects_text

theorem Module.respects_decoder : decoder.Respects (.record fields) :=
  Record.respects_plain lawful_record rfl (by simp [record])
    (Record.fieldsOf_cons lawful_text respects_text
    (Record.fieldsOf_cons (lawful_option (lawful_list lawful_text))
      (respects_texts.option (lawful_list lawful_text)) .nil))

theorem Attribute.respects_decoder : decoder.Respects (.record fields) :=
  Record.respects_plain lawful_record rfl (by simp [record])
    (Record.fieldsOf_cons lawful_text respects_text
    (Record.fieldsOf_cons lawful_json respects_json .nil))

theorem Element.fieldsOf_slots : Record.FieldsOf record.slots ownFields :=
  have hattribute := Record.lawful_decoder Attribute.lawful_record
  Record.fieldsOf_cons lawful_text respects_text
    (Record.fieldsOf_cons (lawful_list hattribute)
      (.list hattribute fun _ => Attribute.respects_decoder)
    (Record.fieldsOf_cons (lawful_option (lawful_dict lawful_text))
      ((Respects.dict lawful_text respects_text).option (lawful_dict lawful_text))
    (Record.fieldsOf_cons (lawful_option (lawful_list lawful_text))
      (respects_texts.option (lawful_list lawful_text)) .nil)))

/-- The members of an element that are no field of it are those of its module. -/
theorem Element.flattens_module : record.Flattens Module.record where
  isOpen := rfl
  finish draft := by
    cases htag : draft.tag with
    | none => exact ⟨fun _ => none, fun others => by simp [record, htag, require]⟩
    | some tag =>
      refine ⟨fun code => some ⟨code, tag, draft.attributes.getD [], draft.labels.getD none,
        draft.roles.getD none⟩, fun others => ?_⟩
      cases hcode : Module.record.ofMembers others <;> simp [record, htag, require, hcode]

theorem Element.respects_decoder : decoder.Respects (.record fields) :=
  Record.respects lawful_record (by simp [record]) fieldsOf_slots
    (flattens_module.tolerates Module.lawful_record Module.respects_decoder)

theorem App.fieldsOf_slots : Record.FieldsOf record.slots ownFields :=
  Record.fieldsOf_cons lawful_text respects_text
    (Record.fieldsOf_cons lawful_text respects_text
    (Record.fieldsOf_cons lawful_text respects_text
    (Record.fieldsOf_cons lawful_number respects_number
    (Record.fieldsOf_cons (lawful_option lawful_text) (respects_text.option lawful_text) .nil))))

/-- The members of an application that are no field of it are those of its element. -/
theorem App.flattens_element : record.Flattens Element.record where
  isOpen := rfl
  finish draft := by
    cases htitle : draft.title with
    | none => exact ⟨fun _ => none, fun others => by simp [record, htitle, require]⟩
    | some title =>
      cases hpath : draft.path with
      | none => exact ⟨fun _ => none, fun others => by simp [record, htitle, hpath, require]⟩
      | some path =>
        refine ⟨fun element => some ⟨element, title, draft.details.getD "", path,
          draft.priority.getD (.zero false), draft.icon.getD none⟩, fun others => ?_⟩
        cases helement : Element.record.ofMembers others <;>
          simp [record, htitle, hpath, require, helement]

theorem App.respects_decoder : decoder.Respects (.record fields) :=
  Record.respects lawful_record (by simp [record]) fieldsOf_slots
    (flattens_element.tolerates Element.lawful_record Element.respects_decoder)

theorem ContextElement.fieldsOf_slots : Record.FieldsOf record.slots ownFields :=
  Record.fieldsOf_cons (lawful_list lawful_text) respects_texts .nil

/-- The members of a context element that are no field of it are those of its element. -/
theorem ContextElement.flattens_element : record.Flattens Element.record where
  isOpen := rfl
  finish draft := ⟨fun element => some ⟨element, draft.contextNames.getD []⟩, fun others => by
    cases helement : Element.record.ofMembers others <;> simp [record, helement]⟩

theorem ContextElement.respects_decoder : decoder.Respects (.record fields) :=
  Record.respects lawful_record (by simp [record]) fieldsOf_slots
    (flattens_element.tolerates Element.lawful_record Element.respects_decoder)

theorem UserInfo.respects_decoder : decoder.Respects (.record fields) :=
  Record.respects_plain lawful_record rfl (by simp [record])
    (Record.fieldsOf_cons lawful_text respects_text
    (Record.fieldsOf_cons lawful_text respects_text
    (Record.fieldsOf_cons (lawful_list lawful_text) respects_texts .nil)))

theorem Catalog.respects_decoder : decoder.Respects schema :=
  have hmodule := Record.lawful_decoder Module.lawful_record
  have happ := Record.lawful_decoder App.lawful_record
  have hcontext := Record.lawful_decoder ContextElement.lawful_record
  have huser := Record.lawful_decoder UserInfo.lawful_record
  Record.respects_plain lawful_record rfl (by simp [record])
    (Record.fieldsOf_cons (lawful_list hmodule) (.list hmodule fun _ => Module.respects_decoder)
    (Record.fieldsOf_cons (lawful_list happ) (.list happ fun _ => App.respects_decoder)
    (Record.fieldsOf_cons (lawful_list hcontext)
      (.list hcontext fun _ => ContextElement.respects_decoder)
    (Record.fieldsOf_cons (lawful_option lawful_boolean) (respects_boolean.option lawful_boolean)
    (Record.fieldsOf_cons (lawful_option huser) (UserInfo.respects_decoder.option huser) .nil)))))

/-! ## Whole documents -/

/-- The texts of the documents are changed into each other, one change after the other, and the
blanks around them may be others. -/
inductive Catalog.Edited : Document → Document → Prop
  | of {before t after before' t' after' : Document} : Blank before → Blank after → IsText t →
    Relation.ReflTransGen (Edit schema maxNesting) t t' → Blank before' → Blank after' →
    Edited (before ++ t ++ after) (before' ++ t' ++ after')

/-- A call does the same of two inputs that hold the same catalog. -/
theorem Program.run_of_read_eq {w : Surroundings} {d d' : Document}
    (h : Catalog.read inputName d' = Catalog.read inputName d) (arguments : List String) :
    run { w with input := d' } arguments = run { w with input := d } arguments := by
  have hcatalog (path? : Option String) :
      readCatalog { w with input := d' } path? = readCatalog { w with input := d } path? := by
    rw [readCatalog, readCatalog]
    cases path?.filter (!isInput ·) with
    | none => exact congrArg Logged.ofExcept h
    | some path => rfl
  have hanswer : answer { w with input := d' } = answer { w with input := d } := by
    funext settings o
    rw [answer, answer, report, report, hcatalog]
  rw [run, run, hanswer]
  rfl

/-- Every document of a catalog has a text that can be changed. From a document that was changed the
same catalog is decoded, and a call does the same of it. -/
theorem Catalog.ofDocument_edited {d : Document} {c : Catalog} (h : ofDocument d = .ok c) :
    Edited d d ∧ ∀ d', Edited d d' → ofDocument d' = .ok c ∧
      ∀ (w : Surroundings) (arguments : List String),
        Program.run { w with input := d' } arguments = Program.run { w with input := d } arguments := by
  have hlawful := Record.lawful_decoder lawful_record
  constructor
  · obtain ⟨before, t, after, hb, ht, ha, rfl⟩ := hlawful.exists_text h
    exact .of hb ha ht .refl hb ha
  · intro d' hedited
    have hsame : ofDocument d' = .ok c := by
      obtain ⟨hb, ha, ht, hedits, hb', ha'⟩ := hedited
      -- All texts on the way are texts of the catalog.
      suffices hmade : IsText _ ∧ whole? (decoder.live maxNesting) _ = some c from
        (hlawful.parse_eq_ok hmade.1 hb' ha').mpr hmade.2
      induction hedits with
      | refl => exact ⟨ht, (hlawful.parse_eq_ok ht hb ha).mp h⟩
      | tail _ hedit ih => exact ⟨hedit.isText_right, respects_decoder hedit ih.2⟩
    exact ⟨hsame, fun w arguments =>
      Program.run_of_read_eq (by rw [read, read, hsame, h]) arguments⟩

/-- An application with its members in another order and with one that says whether it is active. -/
theorem Catalog.ofDocument_edited_app :
    let text (s : String) : Json := .string s
    let document (app : List (String × Json)) : Document :=
      .ofText (Json.object [("apps", .array [.object app])]).compact
    let first := document [("title", text "t"), ("path", text "p"), ("element", text "e")]
    let second := document [("element", text "e"), ("isActive", .bool true), ("title", text "t"),
      ("path", text "p")]
    let c : Catalog := ⟨[], [⟨⟨⟨"", none⟩, "e", [], none, none⟩, "t", "", "p", .zero false, none⟩], [],
      none, none⟩
    Catalog.ofDocument first = .ok c ∧ Catalog.Edited first second ∧
      Catalog.ofDocument second = .ok c ∧ ∀ (w : Surroundings) (arguments : List String),
        Program.run { w with input := second } arguments =
          Program.run { w with input := first } arguments := by
  intro text document first second c
  let reordered : Json := .object [("element", text "e"), ("title", text "t"), ("path", text "p")]
  have htext (s : String) : IsText (compactText (text s)) := (spells_string 0 s).1
  have hfits : Fits 3 (.object [("apps", .array [.object [("title", text "t"), ("path", text "p"),
      ("element", text "e")]])]) :=
    .object (List.forall_mem_singleton.mpr (.array (List.forall_mem_singleton.mpr (.object
      (List.forall_mem_cons.mpr ⟨.string _, List.forall_mem_cons.mpr ⟨.string _,
        List.forall_mem_singleton.mpr (.string _)⟩⟩)))))
  have hread : Catalog.ofDocument first = .ok c :=
    (Record.lawful_decoder lawful_record).parse_written (hfits.mono (by decide)) (by nofun) rfl _
      List.mem_cons_self
  -- An application is changed where it stands in the catalog.
  have hchange {app app' : Json}
      (h : Edit (.record App.fields) (maxNesting - 2) (compactText app) (compactText app')) :
      Edit schema maxNesting (compactText (.object [("apps", .array [app])]))
        (compactText (.object [("apps", .array [app'])])) := by
    have hlist : Edit (.list (.record App.fields)) (maxNesting - 1) (compactText (.array [app]))
        (compactText (.array [app'])) :=
      Edit.compact_item [] [] (List.forall_mem_singleton.mpr h.isText_left) h
    refine Edit.compact_member [] [] (List.forall_mem_singleton.mpr hlist.isText_left) ?_
    rw [schema, Schema.inside_compact]
    exact hlist
  have hreorder : Edit (.record App.fields) (maxNesting - 2)
      (compactText (.object [("title", text "t"), ("path", text "p"), ("element", text "e")]))
      (compactText reordered) :=
    Edit.compact_perm (by simp [htext]) (by decide)
      (List.perm_append_comm : ([("title", text "t"), ("path", text "p")] ++ [_]).Perm _)
  have hinsert : Edit (.record App.fields) (maxNesting - 2) (compactText reordered) (compactText
      (.object [("element", text "e"), ("isActive", .bool true), ("title", text "t"),
        ("path", text "p")])) :=
    Edit.compact_insert [("element", text "e")] _ (by simp [htext]) (by decide)
      ((Fits.bool true).spells_scalar (by nofun) trivial)
  have hedited : Edited first second := by
    have hedits := (Relation.ReflTransGen.single (hchange hreorder)).tail (hchange hinsert)
    have h := Edited.of blank_nil blank_nil (hchange hreorder).isText_left hedits blank_nil blank_nil
    simp only [List.nil_append, List.append_nil] at h
    exact h
  obtain ⟨-, hsame⟩ := ofDocument_edited hread
  exact ⟨hread, hedited, hsame second hedited⟩

end MicroFrontends
