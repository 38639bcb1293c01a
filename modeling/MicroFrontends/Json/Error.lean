import MicroFrontends.Json.Document
import MicroFrontends.Json.Value
import MicroFrontends.Selector.Error

/-!
# What can be wrong with a JSON document

* `Json.Fault` : a document that is not JSON, or ends too early;
* `Json.Problem` : a value that does not fit what is wanted of it;
* `Json.Failure` : either of them as readers raise it, with the rest of the document;
* `JsonError` : either of them with line and column.

A problem is raised without a place where it does not concern the reading itself. The array or
object around it settles the place (`Failure.settle`); there is none around the whole document.
-/

namespace MicroFrontends

namespace Json

/-- A document that is not well-formed, or that ends in the middle of something. -/
inductive Fault where
  | endInList
  | endInObject
  | endInString
  | endInValue
  | expectedColon
  | expectedListCommaOrEnd
  | expectedObjectCommaOrEnd
  | expectedIdent
  | expectedValue
  | invalidEscape
  | invalidNumber
  | numberOutOfRange
  | invalidCodePoint
  | controlCharacter
  | keyMustBeString
  | loneSurrogate
  | trailingComma
  | trailingCharacters
  | endOfHexEscape
  | tooDeep
deriving DecidableEq, Repr

namespace Fault

/-- The document ends too early. -/
def isEnd : Fault → Bool
  | endInList | endInObject | endInString | endInValue => true
  | _ => false

def message : Fault → String
  | endInList => "EOF while parsing a list"
  | endInObject => "EOF while parsing an object"
  | endInString => "EOF while parsing a string"
  | endInValue => "EOF while parsing a value"
  | expectedColon => "expected `:`"
  | expectedListCommaOrEnd => "expected `,` or `]`"
  | expectedObjectCommaOrEnd => "expected `,` or `\x7d`"
  | expectedIdent => "expected ident"
  | expectedValue => "expected value"
  | invalidEscape => "invalid escape"
  | invalidNumber => "invalid number"
  | numberOutOfRange => "number out of range"
  | invalidCodePoint => "invalid unicode code point"
  | controlCharacter => "control character (\\u0000-\\u001F) found while parsing a string"
  | keyMustBeString => "key must be a string"
  | loneSurrogate => "lone leading surrogate in hex escape"
  | trailingComma => "trailing comma"
  | trailingCharacters => "trailing characters"
  | endOfHexEscape => "unexpected end of hex escape"
  | tooDeep => "recursion limit exceeded"

end Fault

/-- What a value is, as messages name it. -/
inductive Shape where
  | null
  | bool (value : Bool)
  | int (value : Int)
  | float (value : Binary64)
  | string (value : String)
  | sequence
  | map
deriving DecidableEq, Repr

/-- The shape of a value. -/
def shape : Json → Shape
  | null => .null
  | bool b => .bool b
  | int n => .int n
  | float x => .float x
  | string s => .string s
  | array _ => .sequence
  | object _ => .map

def Shape.message : Shape → String
  | null => "null"
  | bool b => "boolean `" ++ (if b then "true" else "false") ++ "`"
  | int n => "integer `" ++ toString n ++ "`"
  | float x => "floating point `" ++ x.renderShort ++ "`"
  | string s => "string " ++ Text.quote s
  | sequence => "sequence"
  | map => "map"

/-- A well-formed value that is not what is wanted. -/
inductive Problem where
  | invalidType (found : Shape) (expected : String)
  | invalidLength (length : Nat) (expected : String)
  | missingField (name : String)
  | duplicateField (name : String)
  | unknownVariant (name : String) (variants : List String)
  | selector (error : SelectorError)
deriving DecidableEq, Repr

/-- A name as messages show it. -/
def ticked (name : String) : String := "`" ++ name ++ "`"

def Problem.message : Problem → String
  | invalidType found expected => "invalid type: " ++ found.message ++ ", expected " ++ expected
  | invalidLength n expected => "invalid length " ++ toString n ++ ", expected " ++ expected
  | missingField name => "missing field " ++ ticked name
  | duplicateField name => "duplicate field " ++ ticked name
  | unknownVariant name variants =>
    "unknown variant " ++ ticked name ++ ", expected one of " ++
      ", ".intercalate (variants.map ticked)
  | selector error => error.message

/-- What made a reader stop. A place is given by the rest of the document and a number of bytes
after it. -/
inductive Failure where
  | fault (cause : Fault) (rest : Document) (extra : Nat)
  | problem (cause : Problem) (rest : Document)
  /-- A problem without a place, raised where `rest` was left. -/
  | placeless (cause : Problem) (rest : Document)
deriving DecidableEq, Repr

/-- Gives a problem without a place the one that `close` makes of where it was raised. -/
def Failure.settle (close : Document → Document) : Failure → Failure
  | placeless cause rest => .problem cause (close rest)
  | failure => failure

end Json

/-- What is wrong with a JSON document, and where. -/
inductive JsonError where
  | fault (cause : Json.Fault) (position : Position)
  | problem (cause : Json.Problem) (position : Option Position)
deriving DecidableEq, Repr

namespace JsonError

/-- The error for a failure of a reader of `document`. -/
def ofFailure (document : Document) : Json.Failure → JsonError
  | .fault cause rest extra => fault cause (.of document rest extra)
  | .problem cause rest => problem cause (some (.of document rest 0))
  | .placeless cause _ => problem cause none

/-- The words that say where an error is. -/
def placeSuffix (p : Position) : String :=
  " at line " ++ toString p.line ++ " column " ++ toString p.column

def message : JsonError → String
  | fault cause position => cause.message ++ placeSuffix position
  | problem cause position => cause.message ++ (position.map placeSuffix).getD ""

end JsonError

end MicroFrontends
