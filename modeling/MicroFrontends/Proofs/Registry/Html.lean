import Mathlib.Data.List.TakeWhile
import MicroFrontends.Proofs.Runs
import MicroFrontends.Registry.Html

/-!
# What is escaped can be read back

Escaping keeps quotes out of attribute values, so the quotes of an element's HTML are those around
its values, and every second piece between them is a value. One pass over such a piece that takes
`&amp;` and `&quot;` for what they stand for gives the value's text back.

* `escapeHtml_cons` : escaping goes character by character, however the text is cut;
* `unescape_escapeHtml` : reading back what was escaped;
* `everySecond_splitOn_attributes` : where the values of attributes stand;
* `Element.htmlWith_values` : what can be read back from an element's HTML.
-/

namespace MicroFrontends

/-! ## Escaping character by character -/

/-- A character as it stands in a quoted attribute value. -/
def escapeChar (c : Char) : List Char := if isSpecial c then entity c else [c]

theorem escapeChar_cases (c : Char) :
    (c = '&' ∧ escapeChar c = "&amp;".toList) ∨ (c = '"' ∧ escapeChar c = "&quot;".toList) ∨
      (c ≠ '&' ∧ c ≠ '"' ∧ escapeChar c = [c]) := by
  by_cases hamp : c = '&'
  · exact .inl ⟨hamp, by rw [hamp]; rfl⟩
  · by_cases hquote : c = '"'
    · exact .inr (.inl ⟨hquote, by rw [hquote]; rfl⟩)
    · exact .inr (.inr ⟨hamp, hquote, by simp [escapeChar, isSpecial, hamp, hquote]⟩)

theorem flatMap_escapeChar_plain {plain : List Char} (h : ∀ c ∈ plain, (!isSpecial c) = true) :
    plain.flatMap escapeChar = plain := by
  induction plain with
  | nil => rfl
  | cons c plain ih =>
    rw [List.forall_mem_cons, Bool.not_eq_true'] at h
    rw [List.flatMap_cons, ih h.2, escapeChar, if_neg (Bool.eq_false_iff.mp h.1)]
    rfl

theorem escapeHtml_eq_flatMap (text : List Char) : escapeHtml text = text.flatMap escapeChar := by
  fun_induction escapeHtml text with
  | case1 text hrest => exact (flatMap_escapeChar_plain (List.dropWhile_eq_nil_iff.mp hrest)).symm
  | case2 text c rest hrest ih =>
    have hc : isSpecial c = true := by
      have hstop := eq_false_of_mem_head?_dropWhile c (by rw [hrest]; rfl)
      simpa using hstop
    have htext : text = text.takeWhile (!isSpecial ·) ++ c :: rest := by
      rw [← hrest, List.takeWhile_append_dropWhile]
    conv => rhs; rw [htext]
    rw [List.flatMap_append, List.flatMap_cons,
      flatMap_escapeChar_plain fun _ => List.mem_takeWhile_imp, escapeChar, if_pos hc, ih,
      List.append_assoc]

@[simp] theorem escapeHtml_nil : escapeHtml [] = [] := by rw [escapeHtml_eq_flatMap, List.flatMap_nil]

@[simp] theorem escapeHtml_cons (c : Char) (text : List Char) :
    escapeHtml (c :: text) = escapeChar c ++ escapeHtml text := by
  rw [escapeHtml_eq_flatMap, escapeHtml_eq_flatMap, List.flatMap_cons]

/-! ## Ampersands and quotes in what was escaped -/

theorem quote_not_mem_escapeHtml (text : List Char) : '"' ∉ escapeHtml text := by
  induction text with
  | nil => simp
  | cons c text ih =>
    rw [escapeHtml_cons, List.mem_append, not_or]
    refine ⟨?_, ih⟩
    obtain ⟨-, h⟩ | ⟨-, h⟩ | ⟨-, hquote, h⟩ := escapeChar_cases c
    · rw [h]; decide
    · rw [h]; decide
    · rw [h, List.mem_singleton]
      exact hquote.symm

/-- After an ampersand, the text goes on as one of the two that are written for characters does. -/
def EndsEntity (rest : List Char) : Prop := "amp;".toList <+: rest ∨ "quot;".toList <+: rest

/-- Every ampersand begins what is written for a character. -/
def EntitiesOnly (piece : List Char) : Prop :=
  ∀ before rest, piece = before ++ '&' :: rest → EndsEntity rest

namespace EntitiesOnly

variable {piece : List Char}

theorem nil : EntitiesOnly [] := by
  intro before rest h
  simp at h

theorem cons_plain {c : Char} (hc : c ≠ '&') (h : EntitiesOnly piece) :
    EntitiesOnly (c :: piece) := by
  rintro (_ | ⟨d, before⟩) rest hpiece
  · exact absurd (List.cons.inj hpiece).1 hc
  · exact h before rest (List.cons.inj hpiece).2

theorem cons_ampersand (he : EndsEntity piece) (h : EntitiesOnly piece) :
    EntitiesOnly ('&' :: piece) := by
  rintro (_ | ⟨d, before⟩) rest hpiece
  · rwa [← (List.cons.inj hpiece).2]
  · exact h before rest (List.cons.inj hpiece).2

theorem append_plain {plain : List Char} (hplain : '&' ∉ plain) (h : EntitiesOnly piece) :
    EntitiesOnly (plain ++ piece) := by
  induction plain with
  | nil => exact h
  | cons c plain ih =>
    rw [List.mem_cons, not_or] at hplain
    exact cons_plain (Ne.symm hplain.1) (ih hplain.2)

end EntitiesOnly

theorem entitiesOnly_escapeHtml (text : List Char) : EntitiesOnly (escapeHtml text) := by
  induction text with
  | nil =>
    rw [escapeHtml_nil]
    exact .nil
  | cons c text ih =>
    rw [escapeHtml_cons]
    obtain ⟨-, h⟩ | ⟨-, h⟩ | ⟨hamp, -, h⟩ := escapeChar_cases c <;> rw [h]
    · exact .cons_ampersand (.inl (List.prefix_append _ _))
        (.append_plain (by decide : '&' ∉ "amp;".toList) ih)
    · exact .cons_ampersand (.inr (List.prefix_append _ _))
        (.append_plain (by decide : '&' ∉ "quot;".toList) ih)
    · exact .cons_plain hamp ih

/-! ## Reading back what was escaped -/

/-- The text with `&amp;` and `&quot;` replaced by the characters that they are written for, in one
pass: what a replacement makes is not looked at again. -/
def unescapeHtml : List Char → List Char
  | '&' :: 'a' :: 'm' :: 'p' :: ';' :: rest => '&' :: unescapeHtml rest
  | '&' :: 'q' :: 'u' :: 'o' :: 't' :: ';' :: rest => '"' :: unescapeHtml rest
  | c :: rest => c :: unescapeHtml rest
  | [] => []

theorem unescape_escapeChar_append (c : Char) (rest : List Char) :
    unescapeHtml (escapeChar c ++ rest) = c :: unescapeHtml rest := by
  obtain ⟨rfl, h⟩ | ⟨rfl, h⟩ | ⟨hamp, -, h⟩ := escapeChar_cases c <;> rw [h]
  · exact unescapeHtml.eq_1 rest
  · exact unescapeHtml.eq_2 rest
  · exact unescapeHtml.eq_3 c rest (fun _ hc _ => hamp hc) (fun _ hc _ => hamp hc)

theorem unescape_escapeHtml (text : List Char) : unescapeHtml (escapeHtml text) = text := by
  induction text with
  | nil => rw [escapeHtml_nil, unescapeHtml]
  | cons c text ih => rw [escapeHtml_cons, unescape_escapeChar_append, ih]

theorem escapeHtml_inj {s t : List Char} (h : escapeHtml s = escapeHtml t) : s = t := by
  rw [← unescape_escapeHtml s, h, unescape_escapeHtml]

/-! ## Where values stand -/

/-- Every second one of a list's elements, the first one left out. -/
def everySecond {α : Type} : List α → List α
  | _ :: b :: rest => b :: everySecond rest
  | _ => []

/-- The attributes as they stand in a tag. -/
def attributesText (attributes : List Attribute) : List Char :=
  (attributes.map Attribute.html).flatMap String.toList

theorem attributesText_cons (a : Attribute) (attributes : List Attribute) :
    attributesText (a :: attributes) = (' ' :: a.name.toList ++ ['=']) ++
      '"' :: (escapeHtml a.valueText.toList ++ '"' :: attributesText attributes) := by
  simp [attributesText, Attribute.html]

theorem count_quote_append {before : List Char} (h : '"' ∉ before) (rest : List Char) :
    (before ++ '"' :: rest).count '"' = rest.count '"' + 1 := by
  rw [List.count_append, List.count_eq_zero.mpr h, List.count_cons_self, Nat.zero_add]

section
variable {attributes : List Attribute} (names : ∀ a ∈ attributes, '"' ∉ a.name.toList)
include names

/-- There are no quotes in the attributes but the two around each value. -/
theorem count_quote_attributesText : (attributesText attributes).count '"' = 2 * attributes.length := by
  induction attributes with
  | nil => rfl
  | cons a attributes ih =>
    rw [List.forall_mem_cons] at names
    have hopening : '"' ∉ ' ' :: a.name.toList ++ ['='] := by simp [names.1]
    rw [attributesText_cons, count_quote_append hopening,
      count_quote_append (quote_not_mem_escapeHtml _), ih names.2, List.length_cons]
    omega

/-- Between texts without quotes, the values of attributes are every second one of the pieces. -/
theorem everySecond_splitOn_attributes {before after : List Char} (hbefore : '"' ∉ before)
    (hafter : '"' ∉ after) :
    everySecond ((before ++ (attributesText attributes ++ after)).splitOn '"') =
      attributes.map (escapeHtml ·.valueText.toList) := by
  induction attributes generalizing before with
  | nil =>
    have hnone : '"' ∉ before ++ after := by simp [hbefore, hafter]
    rw [attributesText, List.map_nil, List.flatMap_nil, List.nil_append,
      List.splitOn_eq_singleton hnone]
    rfl
  | cons a attributes ih =>
    rw [List.forall_mem_cons] at names
    have hopening : '"' ∉ before ++ (' ' :: a.name.toList ++ ['=']) := by
      simp [hbefore, names.1]
    have htext : before ++ (attributesText (a :: attributes) ++ after) =
        (before ++ (' ' :: a.name.toList ++ ['='])) ++ '"' ::
          (escapeHtml a.valueText.toList ++ '"' :: ([] ++ (attributesText attributes ++ after))) := by
      simp [attributesText_cons]
    rw [htext, List.splitOn_append_cons_self_of_not_mem hopening,
      List.splitOn_append_cons_self_of_not_mem (quote_not_mem_escapeHtml _), everySecond,
      ih names.2 (List.not_mem_nil), List.map_cons]

end

/-! ## Elements -/

theorem newAttributes_sublist (configured extra : List Attribute) :
    (newAttributes configured extra).Sublist extra := by
  conv => rhs; rw [← List.zipIdx_map_fst 0 extra]
  exact List.filter_sublist.map Prod.fst

theorem Element.mem_of_mem_attributesWith {e : Element} {extra : List Attribute} :
    ∀ a ∈ e.attributesWith extra, a ∈ e.attributes ++ extra := by
  intro a ha
  exact ((List.Sublist.refl e.attributes).append (newAttributes_sublist _ extra)).subset ha

theorem Element.toList_htmlWith (e : Element) (extra : List Attribute) :
    (e.htmlWith extra).toList = ('<' :: e.tag.toList) ++
      (attributesText (e.attributesWith extra) ++ ("></".toList ++ e.tag.toList ++ ['>'])) := by
  simp [htmlWith, attributesText]

/-- The pieces of an element's HTML that stand for its values. -/
def valuePieces (html : String) : List (List Char) := everySecond (html.toList.splitOn '"')

/-- Provided that there are no quotes in names, the values that an element is rendered with can be
read back from its HTML, whatever they are. They stand between every other pair of neighbouring
quotes, in order, and what is read back from such a piece is the value's text. No value has quotes
of its own in the HTML, and no two texts are rendered alike. -/
theorem Element.htmlWith_values (e : Element) (extra : List Attribute) (htag : '"' ∉ e.tag.toList)
    (hnames : ∀ a ∈ e.attributes ++ extra, '"' ∉ a.name.toList) :
    valuePieces (e.htmlWith extra) =
        (e.attributesWith extra).map (escapeHtml ·.valueText.toList) ∧
      (∀ piece ∈ valuePieces (e.htmlWith extra), EntitiesOnly piece) ∧
      (valuePieces (e.htmlWith extra)).map unescapeHtml =
        (e.attributesWith extra).map (·.valueText.toList) ∧
      (e.htmlWith extra).toList.count '"' = 2 * (e.attributesWith extra).length ∧
      ∀ s t, escapeHtml s = escapeHtml t → s = t := by
  have hshown : ∀ a ∈ e.attributesWith extra, '"' ∉ a.name.toList :=
    fun a ha => hnames a (mem_of_mem_attributesWith a ha)
  have hbefore : '"' ∉ '<' :: e.tag.toList := by simp [htag]
  have hafter : '"' ∉ "></".toList ++ e.tag.toList ++ ['>'] := by simp [htag]
  have hpieces : valuePieces (e.htmlWith extra) =
      (e.attributesWith extra).map (escapeHtml ·.valueText.toList) := by
    rw [valuePieces, toList_htmlWith]
    exact everySecond_splitOn_attributes hshown hbefore hafter
  refine ⟨hpieces, ?_, ?_, ?_, fun _ _ => escapeHtml_inj⟩
  · rw [hpieces, List.forall_mem_map]
    exact fun a _ => entitiesOnly_escapeHtml _
  · rw [hpieces, List.map_map]
    exact List.map_congr_left fun a _ => unescape_escapeHtml _
  · rw [toList_htmlWith, List.count_append, List.count_append, List.count_eq_zero.mpr hbefore,
      List.count_eq_zero.mpr hafter, count_quote_attributesText hshown, Nat.zero_add, Nat.add_zero]

/-- A text with quotes and with text that looks escaped, and an object. Of the extra attributes, the
one that the element has is left out. -/
theorem Element.htmlWith_values_orders :
    let e : Element := ⟨⟨"", none⟩, "orders-app", [⟨"title", .string "say \"hi\" & &amp;"⟩], none, none⟩
    let extra : List Attribute := [⟨"title", .null⟩, ⟨"options", .object [("dense", .bool true)]⟩]
    '"' ∉ e.tag.toList ∧ (∀ a ∈ e.attributes ++ extra, '"' ∉ a.name.toList) ∧
      (valuePieces (e.htmlWith extra)).map unescapeHtml =
        ["say \"hi\" & &amp;".toList, "\x7b\"dense\":true\x7d".toList] := by
  intro e extra
  have htag : '"' ∉ e.tag.toList := by decide
  have hnames : ∀ a ∈ e.attributes ++ extra, '"' ∉ a.name.toList := by simp [e, extra]
  exact ⟨htag, hnames, (Element.htmlWith_values e extra htag hnames).2.2.1.trans rfl⟩

end MicroFrontends
