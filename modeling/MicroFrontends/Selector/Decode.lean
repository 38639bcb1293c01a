import MicroFrontends.Json.Decoder
import MicroFrontends.Json.Render
import MicroFrontends.Selector.Basic

/-!
# Selectors in JSON

Selectors and expressions are stored as texts, which are parsed when they are read.
-/

namespace MicroFrontends

open Json

/-- An expression as its text. -/
def Expr.decoder : Decoder Expr := Decoder.text.refine fun s => (Expr.parse s).mapError .selector

/-- A selector as its text, or `null` for the empty one. -/
def Selector.decoder : Decoder Selector :=
  (Decoder.option .text).refine fun
    | some s => (Selector.parse s).mapError .selector
    | none => .ok .all

/-- A selector as it is stored. In contrast to `Expr.stored` there is a text for any expression. -/
def Selector.toJson (s : Selector) : Json := .string s.render

end MicroFrontends
