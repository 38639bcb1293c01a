import MicroFrontends.Catalog.Encode
import MicroFrontends.Proofs.Catalog.Decoders
import MicroFrontends.Registry.Basic

/-!
# Decoding what was encoded

What the catalog's encoders make of a value is decoded to the value again. For records this is said
of their members (`Module.ofMembers_append` and so on), with any members after them that are no field
of the record or of a record that shares the object with it. So applications may stand in an object
with members of their own, as those of a listing do.
-/

namespace MicroFrontends

open Json Decoder

/-! ## Members one after another -/

namespace Json

variable {σ α β : Type}

theorem Decoder.kept_option {inner : Decoder α} {v : Json} {a : α} (hnull : v ≠ .null)
    (h : inner.kept v = .ok a) : (option inner).kept v = .ok (some a) := by
  simp only [option, h]
  rfl

/-- None of the members is a field of the record. -/
def Record.Foreign (r : Record σ α) (ms : Members) : Prop := ∀ m ∈ ms, r.slot? m.1 = none

namespace Record.Foreign

variable {r : Record σ α} {ms ms' : Members} {name : String}

theorem append (h : r.Foreign ms) (h' : r.Foreign ms') : r.Foreign (ms ++ ms') :=
  List.forall_mem_append.mpr ⟨h, h'⟩

theorem nil : r.Foreign [] := List.forall_mem_nil _

theorem cons {v : Json} (hname : r.slot? name = none) (h : r.Foreign ms) :
    r.Foreign ((name, v) :: ms) := List.forall_mem_cons.mpr ⟨hname, h⟩

theorem optional {encode : β → Json} (hname : r.slot? name = none) (o : Option β) :
    r.Foreign (Json.optional name encode o) := by
  cases o with
  | none => exact nil
  | some b => exact cons hname nil

end Record.Foreign

/-- The members make one state of a record into another. -/
def Record.Adds (r : Record σ α) (ms : Members) (s s' : Record.State σ) : Prop :=
  ms.foldlM r.addMember s = .ok s'

namespace Record.Adds

variable {r : Record σ α} {ms ms' : Members} {s s' s'' : State σ}

theorem append (h : r.Adds ms s s') (h' : r.Adds ms' s' s'') : r.Adds (ms ++ ms') s s'' := by
  rw [Adds, List.foldlM_append, h, Except.ok_bind, h']

theorem cons {m : String × Json} (h : r.Adds [m] s s') (h' : r.Adds ms s' s'') :
    r.Adds (m :: ms) s s'' := append h h'

section
variable {name : String} {get? : σ → Option β} {put : σ → β → σ} {decoder : Decoder β}
  {isOptional : Bool} {draft draft' : σ} {others : Members}

theorem field {v : Json} {b : β} (hslot : r.slot? name = some (.of name get? put decoder isOptional))
    (hnone : get? draft = none) (hv : decoder.kept v = .ok b) (hput : put draft b = draft') :
    r.Adds [(name, v)] (draft, others) (draft', others) := by
  have hfilled : (Slot.of name get? put decoder isOptional).isFilled draft = false :=
    Option.isSome_eq_false_iff.mpr (Option.isNone_iff_eq_none.mpr hnone)
  have hfill : (Slot.of name get? put decoder isOptional).fill.kept v = .ok (put · b) := by
    show (decoder.kept v >>= fun v => Except.ok (put · v)) = _
    rw [hv]
    rfl
  rw [Adds, List.foldlM_cons, addMember, hslot]
  simp only [hfilled, Bool.false_eq_true, if_false, hfill, ← hput]
  rfl

/-- A member that is there only if it has a value. -/
theorem optional {get? : σ → Option (Option β)} {put : σ → Option β → σ} {encode : β → Json}
    (hslot : r.slot? name = some (.of name get? put (.option decoder) isOptional))
    (hnone : get? draft = none) {o : Option β} (hnull : ∀ b ∈ o, encode b ≠ .null)
    (hv : ∀ b ∈ o, decoder.kept (encode b) = .ok b)
    (hput : o.elim draft (fun b => put draft (some b)) = draft') :
    r.Adds (Json.optional name encode o) (draft, others) (draft', others) := by
  subst hput
  cases o with
  | none => rfl
  | some b =>
    show r.Adds [(name, encode b)] (draft, others) (put draft (some b), others)
    exact field hslot hnone (kept_option (hnull b rfl) (hv b rfl)) rfl

end

/-- Members that are no field are kept by an open record. -/
theorem foreign_open (ho : r.isOpen = true) (h : r.Foreign ms) :
    r.Adds ms s (s.1, s.2 ++ ms) := by
  induction ms generalizing s with
  | nil => rw [List.append_nil]; rfl
  | cons m ms ih =>
    have hm : r.addMember s m = .ok (s.1, s.2 ++ [m]) := by
      simp only [addMember, h m List.mem_cons_self, ho, if_true]
    have hms := ih (s := (s.1, s.2 ++ [m])) fun m' hm' => h m' (List.mem_cons_of_mem _ hm')
    rw [Adds, List.foldlM_cons, hm, Except.ok_bind, hms, List.append_assoc, List.singleton_append]

/-- Members that are no field are left out by a plain record. -/
theorem foreign_plain (ho : r.isOpen = false) (h : r.Foreign ms) :
    r.Adds ms s s := by
  induction ms with
  | nil => rfl
  | cons m ms ih =>
    have hm : r.addMember s m = .ok s := by
      simp only [addMember, h m List.mem_cons_self, ho, Bool.false_eq_true, if_false]
    rw [Adds, List.foldlM_cons, hm, Except.ok_bind]
    exact ih fun m' hm' => h m' (List.mem_cons_of_mem _ hm')

theorem ofMembers_eq {a : α} (h : r.Adds ms (r.start, []) s) (hfinish : r.finish s.1 s.2 = .ok a) :
    r.ofMembers ms = .ok a := by
  rw [ofMembers, h, Except.ok_bind, hfinish]

end Record.Adds

/-! ## Values made of others -/

theorem Decoder.kept_list_map {inner : Decoder α} {encode : β → Json} {f : β → α} {l : List β}
    (h : ∀ b ∈ l, inner.kept (encode b) = .ok (f b)) :
    (list inner).kept (.array (l.map encode)) = .ok (l.map f) := by
  show (l.map encode).mapM inner.kept = .ok (l.map f)
  induction l with
  | nil => rfl
  | cons b l ih =>
    rw [List.map_cons, List.mapM_cons, h b List.mem_cons_self, Except.ok_bind,
      ih fun b hb => h b (List.mem_cons_of_mem _ hb)]
    rfl

theorem Decoder.kept_list {inner : Decoder α} {encode : α → Json} {l : List α}
    (h : ∀ a ∈ l, inner.kept (encode a) = .ok a) :
    (list inner).kept (.array (l.map encode)) = .ok l :=
  (kept_list_map h).trans (congrArg Except.ok (List.map_id l))

theorem Decoder.kept_texts (l : List String) : (list text).kept (ofTexts l) = .ok l :=
  kept_list fun _ _ => rfl

theorem Decoder.kept_ofDict {d : Dict String} (h : d.Sorted) : (dict text).kept (ofDict d) = .ok d := by
  have hfold (d' start : Dict String) : (d'.map fun e => (e.1, Json.string e.2)).foldlM
      (fun (entries : Dict String) (m : String × Json) => do
        return entries.insert m.1 (← text.kept m.2)) start =
      (.ok (d'.foldl (fun d e => d.insert e.1 e.2) start) : Except Problem (Dict String)) := by
    induction d' generalizing start with
    | nil => rfl
    | cons e d' ih => exact ih _
  refine (hfold d []).trans (congrArg Except.ok ?_)
  exact Dict.Sorted.foldl_insert (d := []) h

end Json

/-! ## Modules -/

theorem getD_map_some {α : Type} (o : Option α) : (o.map some).getD none = o := by
  cases o <;> rfl

theorem Module.ofMembers_append (m : Module) {others : Members} (h : record.Foreign others) :
    record.ofMembers (m.members ++ others) = .ok m := by
  have hurl : record.Adds [("load_url", .string m.loadUrl)] (record.start, [])
      (⟨some m.loadUrl, none⟩, []) := .field rfl rfl rfl rfl
  have hstyles : record.Adds (optional "styles" ofTexts m.styles) (⟨some m.loadUrl, none⟩, [])
      (⟨some m.loadUrl, m.styles.map some⟩, []) :=
    .optional rfl rfl (fun _ _ => by nofun) (fun l _ => kept_texts l) (by cases m.styles <;> rfl)
  refine ((hurl.append hstyles).append (.foreign_plain rfl h)).ofMembers_eq ?_
  show (Except.ok ⟨m.loadUrl, (m.styles.map some).getD none⟩ : Except Problem Module) = _
  rw [getD_map_some]

theorem Module.foreign_members {σ α : Type} {r : Record σ α} (hurl : r.slot? "load_url" = none)
    (hstyles : r.slot? "styles" = none) (m : Module) : r.Foreign m.members :=
  (Record.Foreign.cons hurl .nil).append (.optional hstyles _)

/-! ## Elements -/

theorem Attribute.kept_toJson {room : Nat} {a : Attribute} (h : a.Tidy room) :
    Attribute.decoder.kept a.toJson = .ok a := by
  have hname : record.Adds [("name", .string a.name)] (record.start, []) (⟨some a.name, none⟩, []) :=
    .field rfl rfl rfl rfl
  have hvalue : record.Adds [("value", a.value)] (⟨some a.name, none⟩, [])
      (⟨some a.name, some a.value⟩, []) := .field rfl rfl (congrArg Except.ok h.1) rfl
  exact (hname.append hvalue).ofMembers_eq rfl

theorem Element.ofMembers_append {room : Nat} {e : Element} (he : e.Tidy room) {others : Members}
    (h : record.Foreign others) (hmodule : Module.record.Foreign others) :
    record.ofMembers (e.members ++ others) = .ok e := by
  have hcode : record.Adds e.code.members (record.start, []) (record.start, e.code.members) :=
    .foreign_open rfl (e.code.foreign_members rfl rfl)
  have htag : record.Adds [("element", .string e.tag)] (record.start, e.code.members)
      (⟨some e.tag, none, none, none⟩, e.code.members) := .field rfl rfl rfl rfl
  have hattributes : record.Adds [("attributes", .array (e.attributes.map Attribute.toJson))]
      (⟨some e.tag, none, none, none⟩, e.code.members)
      (⟨some e.tag, some e.attributes, none, none⟩, e.code.members) :=
    .field rfl rfl (kept_list fun a ha => Attribute.kept_toJson (he.attributes a ha)) rfl
  have hlabels : record.Adds (optional "labels" ofDict e.labels)
      (⟨some e.tag, some e.attributes, none, none⟩, e.code.members)
      (⟨some e.tag, some e.attributes, e.labels.map some, none⟩, e.code.members) :=
    .optional rfl rfl (fun _ _ => by nofun) (fun d hd => kept_ofDict (he.labels d hd))
      (by cases e.labels <;> rfl)
  have hroles : record.Adds (optional "roles" ofTexts e.roles)
      (⟨some e.tag, some e.attributes, e.labels.map some, none⟩, e.code.members)
      (⟨some e.tag, some e.attributes, e.labels.map some, e.roles.map some⟩, e.code.members) :=
    .optional rfl rfl (fun _ _ => by nofun) (fun l _ => kept_texts l) (by cases e.roles <;> rfl)
  refine ((((hcode.append (htag.cons hattributes)).append hlabels).append hroles).append
    (.foreign_open rfl h)).ofMembers_eq ?_
  show (Module.record.ofMembers (e.code.members ++ others) >>= fun code => (Except.ok ⟨code, e.tag,
    e.attributes, (e.labels.map some).getD none, (e.roles.map some).getD none⟩ :
      Except Problem Element)) = _
  rw [e.code.ofMembers_append hmodule, Except.ok_bind, getD_map_some, getD_map_some]

theorem Element.foreign_members {σ α : Type} {r : Record σ α} (hurl : r.slot? "load_url" = none)
    (hstyles : r.slot? "styles" = none) (htag : r.slot? "element" = none)
    (hattributes : r.slot? "attributes" = none) (hlabels : r.slot? "labels" = none)
    (hroles : r.slot? "roles" = none) (e : Element) : r.Foreign e.members :=
  ((Record.Foreign.append (e.code.foreign_members hurl hstyles)
    (.cons htag (.cons hattributes .nil))).append (.optional hlabels _)).append (.optional hroles _)

/-! ## Applications and context elements -/

theorem App.ofMembers_append {room : Nat} {app : App} (happ : app.element.Tidy room)
    {others : Members} (h : record.Foreign others) (helement : Element.record.Foreign others)
    (hmodule : Module.record.Foreign others) : record.ofMembers (app.members ++ others) = .ok app := by
  have helem : record.Adds app.element.members (record.start, []) (record.start, app.element.members) :=
    .foreign_open rfl (app.element.foreign_members rfl rfl rfl rfl rfl rfl)
  have htitle : record.Adds [("title", .string app.title)] (record.start, app.element.members)
      (⟨some app.title, none, none, none, none⟩, app.element.members) := .field rfl rfl rfl rfl
  have hdetails : record.Adds [("details", .string app.details)]
      (⟨some app.title, none, none, none, none⟩, app.element.members)
      (⟨some app.title, some app.details, none, none, none⟩, app.element.members) :=
    .field rfl rfl rfl rfl
  have hpath : record.Adds [("path", .string app.path)]
      (⟨some app.title, some app.details, none, none, none⟩, app.element.members)
      (⟨some app.title, some app.details, some app.path, none, none⟩, app.element.members) :=
    .field rfl rfl rfl rfl
  have hpriority : record.Adds [("priority", .float app.priority)]
      (⟨some app.title, some app.details, some app.path, none, none⟩, app.element.members)
      (⟨some app.title, some app.details, some app.path, some app.priority, none⟩,
        app.element.members) := .field rfl rfl rfl rfl
  have hicon : record.Adds (optional "icon" .string app.icon)
      (⟨some app.title, some app.details, some app.path, some app.priority, none⟩,
        app.element.members)
      (⟨some app.title, some app.details, some app.path, some app.priority, app.icon.map some⟩,
        app.element.members) :=
    .optional rfl rfl (fun _ _ => by nofun) (fun _ _ => rfl) (by cases app.icon <;> rfl)
  refine (((helem.append (htitle.cons (hdetails.cons (hpath.cons hpriority)))).append hicon).append
    (.foreign_open rfl h)).ofMembers_eq ?_
  show (Element.record.ofMembers (app.element.members ++ others) >>= fun element =>
    (Except.ok ⟨element, app.title, app.details, app.path, app.priority,
      (app.icon.map some).getD none⟩ : Except Problem App)) = _
  rw [Element.ofMembers_append happ helement hmodule, Except.ok_bind, getD_map_some]

theorem ContextElement.ofMembers_append {room : Nat} {e : ContextElement} (he : e.element.Tidy room)
    {others : Members} (h : record.Foreign others) (helement : Element.record.Foreign others)
    (hmodule : Module.record.Foreign others) : record.ofMembers (e.members ++ others) = .ok e := by
  have helem : record.Adds e.element.members (record.start, []) (record.start, e.element.members) :=
    .foreign_open rfl (e.element.foreign_members rfl rfl rfl rfl rfl rfl)
  have hnames : record.Adds [("contextNames", ofTexts e.contextNames)]
      (record.start, e.element.members) (⟨some e.contextNames⟩, e.element.members) :=
    .field rfl rfl (kept_texts _) rfl
  refine ((helem.append hnames).append (.foreign_open rfl h)).ofMembers_eq ?_
  show (Element.record.ofMembers (e.element.members ++ others) >>= fun element =>
    (Except.ok ⟨element, e.contextNames⟩ : Except Problem ContextElement)) = _
  rw [Element.ofMembers_append he helement hmodule, Except.ok_bind]

theorem NavigableApp.kept_toJson {room : Nat} {entry : NavigableApp}
    (h : entry.app.element.Tidy room) : App.decoder.kept entry.toJson = .ok entry.app :=
  App.ofMembers_append h (.cons rfl .nil) (.cons rfl .nil) (.cons rfl .nil)

/-! ## The catalog -/

theorem UserInfo.kept_toJson (u : UserInfo) : UserInfo.decoder.kept u.toJson = .ok u := by
  have hid : record.Adds [("id", .string u.id)] (record.start, []) (⟨some u.id, none, none⟩, []) :=
    .field rfl rfl rfl rfl
  have hname : record.Adds [("name", .string u.name)] (⟨some u.id, none, none⟩, [])
      (⟨some u.id, some u.name, none⟩, []) := .field rfl rfl rfl rfl
  have hroles : record.Adds [("roles", ofTexts u.roles)] (⟨some u.id, some u.name, none⟩, [])
      (⟨some u.id, some u.name, some u.roles⟩, []) := .field rfl rfl (kept_texts _) rfl
  exact (hid.cons (hname.cons hroles)).ofMembers_eq rfl

theorem Module.kept_toJson (m : Module) : Module.decoder.kept m.toJson = .ok m := by
  have h := m.ofMembers_append .nil
  rwa [List.append_nil] at h

theorem App.kept_toJson {room : Nat} {app : App} (h : app.element.Tidy room) :
    App.decoder.kept app.toJson = .ok app := by
  have h := App.ofMembers_append h .nil .nil .nil
  rwa [List.append_nil] at h

theorem ContextElement.kept_toJson {room : Nat} {e : ContextElement} (h : e.element.Tidy room) :
    ContextElement.decoder.kept e.toJson = .ok e := by
  have h := ContextElement.ofMembers_append h .nil .nil .nil
  rwa [List.append_nil] at h

theorem Catalog.kept_toJson {room : Nat} {c : Catalog} (h : c.Tidy room) :
    Catalog.decoder.kept c.toJson = .ok c := by
  have hpreload : record.Adds [("preload", .array (c.preload.map Module.toJson))] (record.start, [])
      (⟨some c.preload, none, none, none, none⟩, []) :=
    .field rfl rfl (kept_list fun m _ => m.kept_toJson) rfl
  have happs : record.Adds [("apps", .array (c.apps.map App.toJson))]
      (⟨some c.preload, none, none, none, none⟩, [])
      (⟨some c.preload, some c.apps, none, none, none⟩, []) :=
    .field rfl rfl (kept_list fun app happ => App.kept_toJson (h.apps app happ)) rfl
  have hcontexts : record.Adds [("contexts", .array (c.contexts.map ContextElement.toJson))]
      (⟨some c.preload, some c.apps, none, none, none⟩, [])
      (⟨some c.preload, some c.apps, some c.contexts, none, none⟩, []) :=
    .field rfl rfl (kept_list fun e he => ContextElement.kept_toJson (h.contexts e he)) rfl
  have hanonymous : record.Adds (optional "anonymous" .bool c.anonymous)
      (⟨some c.preload, some c.apps, some c.contexts, none, none⟩, [])
      (⟨some c.preload, some c.apps, some c.contexts, c.anonymous.map some, none⟩, []) :=
    .optional rfl rfl (fun _ _ => by nofun) (fun _ _ => rfl) (by cases c.anonymous <;> rfl)
  have huser : record.Adds (optional "user" UserInfo.toJson c.user)
      (⟨some c.preload, some c.apps, some c.contexts, c.anonymous.map some, none⟩, [])
      (⟨some c.preload, some c.apps, some c.contexts, c.anonymous.map some, c.user.map some⟩, []) :=
    .optional rfl rfl (fun _ _ => by nofun) (fun u _ => u.kept_toJson) (by cases c.user <;> rfl)
  refine (((hpreload.cons (happs.cons hcontexts)).append hanonymous).append huser).ofMembers_eq ?_
  show (Except.ok ⟨c.preload, c.apps, c.contexts, (c.anonymous.map some).getD none,
    (c.user.map some).getD none⟩ : Except Problem Catalog) = _
  rw [getD_map_some, getD_map_some]

/-! ## Room for what was encoded -/

section
variable {room : Nat}

theorem fits_ofTexts (l : List String) : Fits (room + 1) (ofTexts l) := by
  refine .array fun v hv => ?_
  obtain ⟨s, -, rfl⟩ := List.mem_map.mp hv
  exact .string s

theorem fits_ofDict (d : Dict String) : Fits (room + 1) (ofDict d) := by
  refine .object fun m hm => ?_
  obtain ⟨e, -, rfl⟩ := List.mem_map.mp hm
  exact .string e.2

theorem fits_optional {α : Type} {name : String} {encode : α → Json} {o : Option α}
    (h : ∀ a ∈ o, Fits room (encode a)) : ∀ m ∈ optional name encode o, Fits room m.2 := by
  cases o with
  | none => nofun
  | some a => exact List.forall_mem_singleton.mpr (h a rfl)

theorem fits_list {α : Type} {encode : α → Json} {l : List α} (h : ∀ a ∈ l, Fits room (encode a)) :
    Fits (room + 1) (.array (l.map encode)) := by
  refine .array fun v hv => ?_
  obtain ⟨a, ha, rfl⟩ := List.mem_map.mp hv
  exact h a ha

theorem Module.fits_members (m : Module) : ∀ p ∈ m.members, Fits (room + 1) p.2 :=
  List.forall_mem_append.mpr ⟨List.forall_mem_singleton.mpr (.string _),
    fits_optional fun l _ => fits_ofTexts l⟩

theorem Attribute.fits_toJson {a : Attribute} (h : a.Tidy room) : Fits (room + 1) a.toJson :=
  .object (List.forall_mem_cons.mpr ⟨.string _, List.forall_mem_singleton.mpr h.2⟩)

theorem Element.fits_members {e : Element} (h : e.Tidy room) :
    ∀ p ∈ e.members, Fits (room + 2) p.2 := by
  simp only [members, List.forall_mem_append, List.forall_mem_cons]
  exact ⟨⟨⟨e.code.fits_members, .string _,
    fits_list fun a ha => Attribute.fits_toJson (h.attributes a ha), List.forall_mem_nil _⟩,
    fits_optional fun d _ => fits_ofDict d⟩, fits_optional fun l _ => fits_ofTexts l⟩

theorem App.fits_members {app : App} (h : app.element.Tidy room) :
    ∀ p ∈ app.members, Fits (room + 2) p.2 := by
  simp only [members, List.forall_mem_append, List.forall_mem_cons]
  exact ⟨⟨Element.fits_members h, .string _, .string _, .string _, .float _, List.forall_mem_nil _⟩,
    fits_optional fun s _ => .string s⟩

theorem ContextElement.fits_toJson {e : ContextElement} (h : e.element.Tidy room) :
    Fits (room + 3) e.toJson :=
  .object (List.forall_mem_append.mpr ⟨Element.fits_members h,
    List.forall_mem_singleton.mpr (fits_ofTexts _)⟩)

theorem NavigableApp.fits_toJson {entry : NavigableApp} (h : entry.app.element.Tidy room) :
    Fits (room + 3) entry.toJson :=
  .object (List.forall_mem_append.mpr ⟨App.fits_members h, List.forall_mem_singleton.mpr (.bool _)⟩)

theorem UserInfo.fits_toJson (u : UserInfo) : Fits (room + 2) u.toJson :=
  .object (List.forall_mem_cons.mpr ⟨.string _, List.forall_mem_cons.mpr ⟨.string _,
    List.forall_mem_singleton.mpr (fits_ofTexts _)⟩⟩)

theorem Catalog.fits_toJson {c : Catalog} (h : c.Tidy room) : Fits (room + 5) c.toJson := by
  refine .object ?_
  simp only [List.forall_mem_append, List.forall_mem_cons]
  exact ⟨⟨⟨fits_list fun m _ => .object m.fits_members,
    fits_list fun app happ => .object (App.fits_members (h.apps app happ)),
    fits_list fun e he => ContextElement.fits_toJson (h.contexts e he), List.forall_mem_nil _⟩,
    fits_optional fun b _ => .bool b⟩, fits_optional fun u _ => u.fits_toJson⟩

end

/-! ## Floats of what was encoded -/

/-- The floats that occur in the values of an element's attributes. -/
def Element.floats (e : Element) : List Binary64 := e.attributes.flatMap (·.value.floats)

/-- The floats that occur in an application, its priority among them. -/
def App.floats (app : App) : List Binary64 := app.element.floats ++ [app.priority]

/-- The floats that occur in a catalog. -/
def Catalog.floats (c : Catalog) : List Binary64 :=
  c.apps.flatMap App.floats ++ c.contexts.flatMap (·.element.floats)

theorem floats_optional {α : Type} {name : String} {encode : α → Json}
    (h : ∀ a, (encode a).floats = []) (o : Option α) : floatsMembers (optional name encode o) = [] := by
  cases o with
  | none => rfl
  | some a =>
    show floatsMembers [(name, encode a)] = []
    rw [floatsMembers, h, floatsMembers, List.append_nil]

theorem floats_ofTexts (l : List String) : (ofTexts l).floats = [] := by
  rw [ofTexts, floats, floatsItems_map]
  simp [floats]

theorem floats_ofDict (d : Dict String) : (ofDict d).floats = [] := by
  rw [ofDict, floats]
  induction d with
  | nil => rfl
  | cons e d ih => rw [List.map_cons, floatsMembers, floats, ih, List.append_nil]

theorem Module.floats_members (m : Module) : floatsMembers m.members = [] := by
  rw [members, floatsMembers_append, floats_optional floats_ofTexts]
  simp [floatsMembers, Json.floats]

theorem Attribute.floats_toJson (a : Attribute) : a.toJson.floats = a.value.floats := by
  simp [toJson, Json.floats, floatsMembers]

theorem Element.floats_members (e : Element) : floatsMembers e.members = e.floats := by
  simp only [members, floatsMembers_append, floats_optional floats_ofTexts,
    floats_optional floats_ofDict, e.code.floats_members, floatsMembers, Json.floats, floatsItems_map,
    Attribute.floats_toJson, floats, List.append_nil, List.nil_append]

theorem App.floats_members (app : App) : floatsMembers app.members = app.floats := by
  have hicon : floatsMembers (Json.optional "icon" .string app.icon) = [] :=
    floats_optional (fun _ => rfl) _
  simp only [members, floatsMembers_append, hicon, app.element.floats_members, floatsMembers,
    Json.floats, floats, List.append_nil, List.nil_append]

theorem ContextElement.floats_toJson (e : ContextElement) : e.toJson.floats = e.element.floats := by
  simp only [toJson, members, Json.floats, floatsMembers_append, e.element.floats_members,
    floatsMembers, floats_ofTexts, List.append_nil]

theorem NavigableApp.floats_toJson (entry : NavigableApp) : entry.toJson.floats = entry.app.floats := by
  simp only [toJson, Json.floats, floatsMembers_append, entry.app.floats_members, floatsMembers,
    List.append_nil]

theorem UserInfo.floats_toJson (u : UserInfo) : u.toJson.floats = [] := by
  simp only [toJson, Json.floats, floatsMembers, floats_ofTexts, List.append_nil]

/-- The floats that are written are those that occur in the catalog. -/
theorem Catalog.floats_toJson (c : Catalog) : c.toJson.floats = c.floats := by
  have hanonymous : floatsMembers (Json.optional "anonymous" .bool c.anonymous) = [] :=
    floats_optional (fun _ => rfl) _
  simp only [toJson, Json.floats, floatsMembers_append, floatsMembers, floatsItems_map, hanonymous,
    floats_optional UserInfo.floats_toJson, Module.toJson, Module.floats_members, App.toJson,
    App.floats_members, ContextElement.floats_toJson, floats, List.append_nil]
  simp

end MicroFrontends
