import MicroFrontends.Proofs.FirstOccurrences
import MicroFrontends.Proofs.Registry.Html

/-!
# Which attributes an element is rendered with

The attributes that an element has are all rendered. Of the extra ones, each name that the element
does not have is rendered once, with the value that it has where it first occurs.

* `AddsNew configured extra added` : `added` are these extra attributes (`addsNew_newAttributes`),
  and no others are (`AddsNew.unique`);
* `newAttributes_append` : extra attributes are taken like configured ones by those after them;
* `Attribute.spelling` : the characters of an attribute, which are all that it is rendered as
  (`Element.toList_htmlWith_eq`);
* `Element.htmlWith_append_iff` : which further attributes change nothing;
* `Element.htmlWith_adds` : what an element with extra attributes is rendered as.
-/

namespace MicroFrontends

/-- The attributes with new names among the extra ones: each name once, with its first value, in the
order in which the names first occur. -/
structure AddsNew (configured extra added : List Attribute) : Prop where
  sublist : added.Sublist extra
  names : FirstOccurrences (extra.map Attribute.name) (· ∉ configured.map Attribute.name)
    (added.map Attribute.name)
  first : ∀ a ∈ added, extra.find? (·.name == a.name) = some a

/-- The names say which attributes are added. -/
theorem AddsNew.unique {configured extra added other : List Attribute}
    (h : AddsNew configured extra added) (ho : AddsNew configured extra other) : added = other := by
  have hfound {l : List Attribute} (hl : AddsNew configured extra l) :
      (l.map Attribute.name).map (fun name => extra.find? (·.name == name)) = l.map some := by
    rw [List.map_map]
    exact List.map_congr_left hl.first
  refine List.map_injective_iff.mpr (Option.some_injective _) ?_
  rw [← hfound h, ← hfound ho, h.names.unique ho.names]

/-! ## Extra attributes one after another -/

theorem any_name_eq (l : List Attribute) (name : String) :
    l.any (·.name == name) = decide (name ∈ l.map Attribute.name) := by
  rw [Bool.eq_iff_iff]
  simp

section
variable (configured extra more : List Attribute) (a : Attribute)

theorem isNewAttribute_append_left {i : Nat} (hi : i ≤ extra.length) :
    isNewAttribute configured (extra ++ more) (a, i) = isNewAttribute configured extra (a, i) := by
  simp only [isNewAttribute, List.take_append_of_le_length hi]

theorem isNewAttribute_append_right (i : Nat) :
    isNewAttribute configured (extra ++ more) (a, i + extra.length) =
      isNewAttribute (configured ++ extra) more (a, i) := by
  have htake : (extra ++ more).take (i + extra.length) = extra ++ more.take i := by
    rw [Nat.add_comm, List.take_length_add_append]
  simp only [isNewAttribute, htake, List.any_append, Bool.not_or, Bool.and_assoc]

/-- Further extra attributes are added as if the ones before them were configured. -/
theorem newAttributes_append : newAttributes configured (extra ++ more) =
    newAttributes configured extra ++ newAttributes (configured ++ extra) more := by
  have hleft : extra.zipIdx.filter (isNewAttribute configured (extra ++ more)) =
      extra.zipIdx.filter (isNewAttribute configured extra) :=
    List.filter_congr fun (a, i) hmem =>
      isNewAttribute_append_left configured extra more a
        (Nat.le_of_lt (by simpa using (List.mem_zipIdx hmem).2.1))
  have hright : ((more.zipIdx extra.length).filter
      (isNewAttribute configured (extra ++ more))).map Prod.fst =
      (more.zipIdx.filter (isNewAttribute (configured ++ extra) more)).map Prod.fst := by
    rw [← Nat.add_zero extra.length, ← List.map_snd_add_zipIdx_eq_zipIdx, List.filter_map,
      List.map_map]
    exact congrArg _ (List.filter_congr fun (a, i) _ =>
      isNewAttribute_append_right configured extra more a i)
  simp only [newAttributes, List.zipIdx_append, List.filter_append, List.map_append, Nat.zero_add,
    hleft, hright]

theorem newAttributes_singleton : newAttributes configured [a] =
    if a.name ∈ configured.map Attribute.name then [] else [a] := by
  have hnew : isNewAttribute configured [a] (a, 0) =
      decide (a.name ∉ configured.map Attribute.name) := by
    rw [isNewAttribute, List.take_zero, List.any_nil, any_name_eq, decide_not, Bool.not_false,
      Bool.and_true]
  rw [newAttributes, List.zipIdx_singleton, List.filter_cons, hnew]
  by_cases ha : a.name ∈ configured.map Attribute.name <;> simp [ha]

/-- One more extra attribute is added if its name is new. -/
theorem newAttributes_concat : newAttributes configured (extra ++ [a]) =
    if a.name ∈ (configured ++ extra).map Attribute.name then newAttributes configured extra
    else newAttributes configured extra ++ [a] := by
  rw [newAttributes_append, newAttributes_singleton]
  split
  · rw [List.append_nil]
  · rfl

theorem addsNew_newAttributes : AddsNew configured extra (newAttributes configured extra) := by
  induction extra using List.reverseRecOn with
  | nil => exact ⟨.slnil, .nil, List.forall_mem_nil _⟩
  | append_singleton extra a ih =>
    have hfirst : ∀ b ∈ newAttributes configured extra,
        (extra ++ [a]).find? (·.name == b.name) = some b := by
      intro b hb
      rw [List.find?_append, ih.first b hb]
      rfl
    rw [newAttributes_concat]
    split
    · next hseen =>
      rw [List.map_append, List.mem_append] at hseen
      refine ⟨ih.sublist.trans (List.sublist_append_left extra [a]), ?_, hfirst⟩
      rw [List.map_append]
      exact ih.names.concat_old hseen.resolve_left
    · next hnew =>
      rw [List.map_append, List.mem_append, not_or] at hnew
      refine ⟨ih.sublist.append (.refl [a]), ?_, List.forall_mem_append.mpr ⟨hfirst, ?_⟩⟩
      · rw [List.map_append, List.map_append]
        exact ih.names.concat_new hnew.2 hnew.1
      · have hnone : extra.find? (·.name == a.name) = none :=
          List.find?_eq_none.mpr fun b hb heq =>
            hnew.2 (List.mem_map.mpr ⟨b, hb, beq_iff_eq.mp heq⟩)
        rw [List.forall_mem_singleton, List.find?_append, hnone]
        simp

/-- A name that is configured is left out, and one that comes twice has its first value. -/
example : newAttributes [⟨"a", .null⟩] [⟨"b", .bool true⟩, ⟨"a", .bool true⟩, ⟨"b", .null⟩,
    ⟨"c", .null⟩] = [⟨"b", .bool true⟩, ⟨"c", .null⟩] := rfl

theorem newAttributes_eq_nil_iff : newAttributes configured extra = [] ↔
    ∀ a ∈ extra, a.name ∈ configured.map Attribute.name := by
  have hnames := (addsNew_newAttributes configured extra).names.mem_iff
  constructor
  · intro hnone a ha
    by_contra hnew
    have hadded := (hnames a.name).mpr ⟨List.mem_map_of_mem ha, hnew⟩
    rw [hnone] at hadded
    exact List.not_mem_nil hadded
  · intro hseen
    refine List.eq_nil_iff_forall_not_mem.mpr fun a ha => ?_
    obtain ⟨hmem, hnew⟩ := (hnames a.name).mp (List.mem_map_of_mem ha)
    obtain ⟨b, hb, hname⟩ := List.mem_map.mp hmem
    exact hnew (hname ▸ hseen b hb)

end

/-! ## The text of attributes -/

/-- An attribute with a text for its value: its name, and the text between quotes, in which each
character that cannot stand there is escaped. -/
def spellAttribute (name text : String) : List Char :=
  ' ' :: name.toList ++ "=\"".toList ++ text.toList.flatMap escapeChar ++ ['"']

/-- The characters of an attribute. A string is its own text, and any other value has compact JSON
for a text. -/
def Attribute.spelling : Attribute → List Char
  | ⟨name, .string text⟩ => spellAttribute name text
  | ⟨name, value⟩ => spellAttribute name value.compact

theorem Attribute.toList_html (a : Attribute) : a.html.toList = a.spelling := by
  obtain ⟨name, value⟩ := a
  cases value <;> simp [html, valueText, spelling, spellAttribute, escapeHtml_eq_flatMap]

theorem attributesText_eq_flatMap (attributes : List Attribute) :
    attributesText attributes = attributes.flatMap Attribute.spelling := by
  rw [attributesText, List.flatMap_map]
  exact congrArg (attributes.flatMap ·) (funext Attribute.toList_html)

theorem attributesText_append (as bs : List Attribute) :
    attributesText (as ++ bs) = attributesText as ++ attributesText bs := by
  simp only [attributesText, List.map_append, List.flatMap_append]

theorem attributesText_eq_nil_iff {attributes : List Attribute} :
    attributesText attributes = [] ↔ attributes = [] := by
  cases attributes with
  | nil => exact iff_of_true rfl rfl
  | cons a attributes => simp [attributesText_cons]

/-! ## Elements -/

namespace Element

variable (e : Element) (extra more : List Attribute)

theorem attributesWith_append : e.attributesWith (extra ++ more) =
    e.attributesWith extra ++ newAttributes (e.attributes ++ extra) more := by
  rw [attributesWith, newAttributes_append, ← List.append_assoc]
  rfl

/-- Further extra attributes change nothing exactly if the element or the extra attributes have all
of their names. -/
theorem htmlWith_append_iff : e.htmlWith (extra ++ more) = e.htmlWith extra ↔
    ∀ a ∈ more, a.name ∈ (e.attributes ++ extra).map Attribute.name := by
  rw [← newAttributes_eq_nil_iff, ← attributesText_eq_nil_iff, ← String.toList_inj,
    toList_htmlWith, toList_htmlWith, attributesWith_append, attributesText_append,
    List.append_cancel_left_eq, List.append_assoc]
  simp

/-- An element with extra attributes is the tag with the characters of all attributes in it. -/
theorem toList_htmlWith_eq : (e.htmlWith extra).toList = ('<' :: e.tag.toList) ++
    ((e.attributesWith extra).flatMap Attribute.spelling ++
      ("></".toList ++ e.tag.toList ++ ['>'])) := by
  rw [toList_htmlWith, attributesText_eq_flatMap]

/-- An element with extra attributes is rendered as the one that has all of them. -/
theorem htmlWith_eq_html :
    e.htmlWith extra = { e with attributes := e.attributesWith extra : Element }.html := by
  have hall (attributes : List Attribute) :
      { e with attributes := attributes : Element }.attributesWith [] = attributes :=
    List.append_nil attributes
  rw [html, htmlWith, htmlWith, hall]

/-- What an element with extra attributes is rendered as: all the attributes that it has, and after
them the extra ones whose names it does not have, each name once, with its first value, in the order
in which they come. Each of them stands in the tag with its name and its value, and nothing else
does. So further extra attributes change nothing exactly if the element or the extra attributes have
all of their names, as the extra attributes do themselves. -/
theorem htmlWith_adds : ∃ added, (∀ other, AddsNew e.attributes extra other ↔ other = added) ∧
    (added.map Attribute.name).Nodup ∧
    e.attributesWith extra = e.attributes ++ added ∧
    (e.htmlWith extra).toList = ('<' :: e.tag.toList) ++
      ((e.attributes ++ added).flatMap Attribute.spelling ++
        ("></".toList ++ e.tag.toList ++ ['>'])) ∧
    e.htmlWith extra = { e with attributes := e.attributes ++ added : Element }.html ∧
    (∀ further, e.htmlWith (extra ++ further) = e.htmlWith extra ↔
      ∀ a ∈ further, a.name ∈ (e.attributes ++ extra).map Attribute.name) ∧
    e.htmlWith (extra ++ extra) = e.htmlWith extra := by
  have hadds := addsNew_newAttributes e.attributes extra
  refine ⟨newAttributes e.attributes extra, fun other => ?_, hadds.names.nodup, rfl,
    e.toList_htmlWith_eq extra, e.htmlWith_eq_html extra, e.htmlWith_append_iff extra, ?_⟩
  · exact ⟨fun h => h.unique hadds, fun h => h ▸ hadds⟩
  · refine (e.htmlWith_append_iff extra extra).mpr fun a ha => ?_
    exact List.mem_map_of_mem (List.mem_append_right _ ha)

/-- An element that has a name twice, with an extra attribute of that name and two of a new one. A
number and an object stand as JSON, with the quotes of the object escaped. -/
theorem htmlWith_adds_orders :
    let e : Element := ⟨⟨"", none⟩, "orders-app", [⟨"api", .string "/api?a=1&b=2"⟩,
      ⟨"size", .int 20⟩, ⟨"api", .string "/old"⟩], none, none⟩
    let extra : List Attribute := [⟨"api", .string "/override"⟩, ⟨"base", .string "/ui"⟩,
      ⟨"options", .object [("dense", .bool true)]⟩, ⟨"base", .string "/ignored"⟩]
    e.htmlWith extra = "<orders-app api=\"/api?a=1&amp;b=2\" size=\"20\" api=\"/old\"" ++
      " base=\"/ui\" options=\"\x7b&quot;dense&quot;:true\x7d\"></orders-app>" ∧
    e.htmlWith (extra ++ extra) = e.htmlWith extra := by
  intro e extra
  obtain ⟨added, -, -, hwith, htext, -, -, htwice⟩ := e.htmlWith_adds extra
  refine ⟨?_, htwice⟩
  rw [← String.toList_inj, htext, ← hwith]
  decide

end Element

end MicroFrontends
