import LineCalculator.Syntax.Operator

/-!
# Tokens

The words of the language: what kinds there are, how each of a fixed spelling is
spelled, and what a token keeps of the source it came from.

An operator token and the token of its compound assignment carry the operator
itself, so what a token means needs no second table.  Only numbers come in
several forms; the form is the radix mark the number began with, and it is kept
beside the digits because messages show both.
-/

namespace LineCalculator

/-- A place in a source text.  Lines and columns count from one. -/
structure Position where
  line : Nat
  column : Nat
  deriving DecidableEq

/-- The kinds of tokens. -/
inductive TokenKind where
  | number
  | identifier
  | newline
  | openBracket
  | closeBracket
  | comma
  | equals
  | bang
  /-- Two plus signs: adds one to a variable. -/
  | increment
  /-- Two minus signs: takes one from a variable. -/
  | decrement
  /-- A binary operator; the minus sign is also the unary one. -/
  | operator (op : BinaryOp)
  /-- A binary operator followed by an equals sign. -/
  | compound (op : BinaryOp)
  deriving DecidableEq

/-- The forms of number literals. -/
inductive NumberForm where
  /-- Decimal, without a mark. -/
  | bare
  | binary
  | octal
  /-- Decimal, marked as such. -/
  | decimal
  | hexadecimal
  deriving DecidableEq

namespace NumberForm

/-- The mark that a number of a form begins with. -/
def mark : NumberForm → List Char
  | bare => []
  | binary => ['0', 'b']
  | octal => ['0', 'o']
  | decimal => ['0', 'd']
  | hexadecimal => ['0', 'x']

/-- The radix that the digits are in. -/
def radix : NumberForm → Nat
  | bare | decimal => 10
  | binary => 2
  | octal => 8
  | hexadecimal => 16

/-- Whether a number of a form may hold a point. -/
def hasPoint : NumberForm → Bool
  | bare | decimal => true
  | _ => false

end NumberForm

/-- A token. -/
structure Token where
  kind : TokenKind
  /-- The characters of the token; of a number, its digits and point alone. -/
  lexeme : String
  /-- The form of a number, `bare` for every other token. -/
  form : NumberForm
  /-- Where the token begins. -/
  position : Position
  /-- How many characters of the source it covers. -/
  length : Nat
  deriving DecidableEq

namespace TokenKind

/-- The name of a kind, as messages give it. -/
def name : TokenKind → String
  | number => "NUMBER"
  | identifier => "IDENTIFIER"
  | newline => "NEWLINE"
  | openBracket => "BRACKET_OPEN"
  | closeBracket => "BRACKET_CLOSE"
  | comma => "COMMA"
  | equals => "EQUAL"
  | bang => "BANG"
  | increment => "PLUS_X2"
  | decrement => "MINUS_X2"
  | operator op => op.spelledName
  | compound op => op.spelledName ++ "_EQUAL"

/-- The kinds that are one character long, whatever follows. -/
def punctuation : List (Char × TokenKind) :=
  [('(', openBracket), (')', closeBracket), (',', comma), ('=', equals), ('!', bang)]

/-- The kinds of which one may begin another, so that the longest is taken. -/
def operators : List (List Char × TokenKind) :=
  BinaryOp.all.map (fun op => (op.symbol, operator op)) ++
    BinaryOp.all.map (fun op => (op.symbol ++ ['='], compound op)) ++
    [(['+', '+'], increment), (['-', '-'], decrement)]

/-- The binary operator of a level that a token stands for. -/
def operatorAt? (level : Nat) : TokenKind → Option BinaryOp
  | operator op => if op.level = level then some op else none
  | _ => none

/-- The unary operator that a token stands for. -/
def unary? : TokenKind → Option UnaryOp
  | operator .subtract => some .negate
  | bang => some .complement
  | _ => none

end TokenKind

namespace Token

/-- A token as messages show it: its kind, and its characters as they are.  Of
the end of a line only the kind is shown. -/
def text (t : Token) : String :=
  "<" ++ t.kind.name ++ ">" ++
    if t.kind = .newline then "" else String.ofList t.form.mark ++ t.lexeme

end Token

end LineCalculator
