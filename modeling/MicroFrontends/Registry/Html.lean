import MicroFrontends.Catalog.Basic
import MicroFrontends.Json.Render

/-!
# Elements as HTML

`Element.html` writes an element as an empty tag with its attributes, and `Element.htmlWith` adds
attributes that the element does not have. An attribute's value is a text or else compact JSON; in
it, ampersands and quotes are escaped, which is all that a quoted value needs.
-/

namespace MicroFrontends

/-- The characters that cannot stand as they are in a quoted attribute value. -/
def isSpecial (c : Char) : Bool := c = '&' || c = '"'

/-- What is written for a special character. -/
def entity (c : Char) : List Char := if c = '&' then "&amp;".toList else "&quot;".toList

/-- A text as it stands in a quoted attribute value. What stands before the first special character
stays as it is, what is written for that character follows, and the rest is written likewise. -/
def escapeHtml (text : List Char) : List Char :=
  match _h : text.dropWhile (!isSpecial ·) with
  | [] => text
  | c :: rest => text.takeWhile (!isSpecial ·) ++ entity c ++ escapeHtml rest
termination_by text.length
decreasing_by
  have hsuffix := (List.dropWhile_suffix (l := text) (!isSpecial ·)).length_le
  rw [_h, List.length_cons] at hsuffix
  omega

/-- The text of an attribute's value. -/
def Attribute.valueText (a : Attribute) : String :=
  match a.value with
  | .string s => s
  | v => v.compact

/-- The attribute as it stands in a tag. -/
def Attribute.html (a : Attribute) : String :=
  " " ++ a.name ++ "=\"" ++ String.ofList (escapeHtml a.valueText.toList) ++ "\""

/-- The extra attribute at a place has a name that no configured attribute has, and no extra one
before it. -/
def isNewAttribute (configured extra : List Attribute) : Attribute × Nat → Bool
  | (a, i) =>
    let seen (b : Attribute) : Bool := b.name == a.name
    !configured.any seen && !(extra.take i).any seen

/-- The extra attributes with new names. -/
def newAttributes (configured extra : List Attribute) : List Attribute :=
  (extra.zipIdx.filter (isNewAttribute configured extra)).map Prod.fst

namespace Element

/-- The element's attributes and the extra ones that it does not have. -/
def attributesWith (e : Element) (extra : List Attribute) : List Attribute :=
  e.attributes ++ newAttributes e.attributes extra

/-- The element with extra attributes as HTML. -/
def htmlWith (e : Element) (extra : List Attribute) : String :=
  "<" ++ e.tag ++ String.join ((e.attributesWith extra).map Attribute.html) ++ "></" ++ e.tag ++ ">"

/-- The element as HTML. -/
def html (e : Element) : String := e.htmlWith []

end Element

end MicroFrontends
