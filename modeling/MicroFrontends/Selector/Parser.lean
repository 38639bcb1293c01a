import MicroFrontends.Selector.Error
import MicroFrontends.Selector.Expr
import MicroFrontends.Selector.Lexer

/-!
# Reading expressions from tokens

The grammar, in which `!` binds tighter than `&&`, which binds tighter than `||`:

    or         := and ( '||' and )*
    and        := unary ( '&&' unary )*
    unary      := '!' unary | primary
    primary    := '(' or ')' | comparison
    comparison := label [ ( '=' | '!=' ) ( label | string ) ]

Each function reads from the start of a token list and gives the tokens that are left. The functions
that nest take the number of levels that they may still open, `room`: the inside of a group and the
operand of a negation are one level deeper, and each operand of a chain is one level deeper than the
one before it. As each nested call has less room, every reading ends.

* `parseOr` : reads one expression;
* `parseTokens` : reads a token list that is one expression as a whole;
* `Expr.parse` : reads selector text.
-/

namespace MicroFrontends

/-- What was expected at the start of the tokens `rest`. -/
structure Blame where
  expected : Expected
  rest : List Token
deriving DecidableEq, Repr

/-- The value after a comparison sign. -/
def parseValue : List Token → Except Blame (String × List Token)
  | ⟨.label value, _⟩ :: rest => .ok (value, rest)
  | ⟨.string value, _⟩ :: rest => .ok (value, rest)
  | tokens => .error ⟨.value, tokens⟩

/-- What may follow a label: a comparison with a value, or nothing. -/
def parseComparison (label : String) : List Token → Except Blame (Expr × List Token)
  | ⟨.equals, _⟩ :: rest => do
    let (value, rest) ← parseValue rest
    return (.equals label value, rest)
  | ⟨.notEquals, _⟩ :: rest => do
    let (value, rest) ← parseValue rest
    return (.not (.equals label value), rest)
  | tokens => .ok (.present label, tokens)

mutual

/-- An expression. -/
def parseOr (room : Nat) (tokens : List Token) : Except Blame (Expr × List Token) := do
  let (lhs, rest) ← parseAnd room tokens
  parseOrChain room lhs rest
termination_by (room, 4)

/-- The further operands of a `||` chain, each added to what was read so far. -/
def parseOrChain (room : Nat) (lhs : Expr) (tokens : List Token) :
    Except Blame (Expr × List Token) :=
  match tokens with
  | ⟨.or, _⟩ :: rest =>
    match room with
    | 0 => .error ⟨.shallowerNesting, tokens⟩
    | room + 1 => do
      let (rhs, rest) ← parseAnd room rest
      parseOrChain room (.or lhs rhs) rest
  | _ => .ok (lhs, tokens)
termination_by (room, 0)

/-- An operand of a `||` chain. -/
def parseAnd (room : Nat) (tokens : List Token) : Except Blame (Expr × List Token) := do
  let (lhs, rest) ← parseUnary room tokens
  parseAndChain room lhs rest
termination_by (room, 3)

/-- The further operands of a `&&` chain, each added to what was read so far. -/
def parseAndChain (room : Nat) (lhs : Expr) (tokens : List Token) :
    Except Blame (Expr × List Token) :=
  match tokens with
  | ⟨.and, _⟩ :: rest =>
    match room with
    | 0 => .error ⟨.shallowerNesting, tokens⟩
    | room + 1 => do
      let (rhs, rest) ← parseUnary room rest
      parseAndChain room (.and lhs rhs) rest
  | _ => .ok (lhs, tokens)
termination_by (room, 0)

/-- An operand of a `&&` chain. -/
def parseUnary (room : Nat) (tokens : List Token) : Except Blame (Expr × List Token) :=
  match tokens with
  | ⟨.not, _⟩ :: rest =>
    match room with
    | 0 => .error ⟨.shallowerNesting, tokens⟩
    | room + 1 => do
      let (arg, rest) ← parseUnary room rest
      return (.not arg, rest)
  | _ => parsePrimary room tokens
termination_by (room, 2)

/-- A group or a comparison. -/
def parsePrimary (room : Nat) (tokens : List Token) : Except Blame (Expr × List Token) :=
  match tokens with
  | ⟨.lparen, _⟩ :: rest =>
    match room with
    | 0 => .error ⟨.shallowerNesting, tokens⟩
    | room + 1 => do
      let (e, rest) ← parseOr room rest
      match rest with
      | ⟨.rparen, _⟩ :: rest => return (e, rest)
      | _ => throw ⟨.closingParen, rest⟩
  | ⟨.label label, _⟩ :: rest => parseComparison label rest
  | _ => .error ⟨.operand, tokens⟩
termination_by (room, 1)

end

/-- Nothing may be left but the token that stands for the end, which may be missing. -/
def expectEnd : List Token → Except Blame Unit
  | [] => .ok ()
  | ⟨.endOfInput, _⟩ :: _ => .ok ()
  | tokens => .error ⟨.endOfInput, tokens⟩

/-- The error for a blame: its first token, or the end of a text whose last byte is before
`stop`. -/
def Blame.toSyntaxError (b : Blame) (stop : Nat) : SyntaxError :=
  let found := b.rest.headD (.endAt stop)
  ⟨b.expected, found.kind.describe, found.span.start⟩

/-- The offset after the last token. -/
def stopOf (tokens : List Token) : Nat := (tokens.getLast?.map (·.span.stop)).getD 0

/-- The expression that the tokens form as a whole. -/
def parseTokens (tokens : List Token) : Except SyntaxError Expr :=
  let parsed := do
    let (e, rest) ← parseOr maxDepth tokens
    expectEnd rest
    return e
  parsed.mapError (·.toSyntaxError (stopOf tokens))

/-- Reads selector text. A blank text is no expression. -/
def Expr.parse (source : String) : Except SelectorError Expr := do
  let tokens ← (tokenize source).mapError .lexical
  (parseTokens tokens).mapError .syntactic

end MicroFrontends
