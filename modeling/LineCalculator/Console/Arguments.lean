import LineCalculator.Text.Letter

/-!
# Arguments of the command line

The arguments are expressions, apart from the two options.  Since an expression
may begin with a minus sign, as an option does, an argument that begins with one
has the following role: a name of an option, whole or begun, is the option; a
negative number, a lone minus sign and whatever holds a space are expressions;
anything else is a mistake.  After `--`, which itself is dropped, everything is
an expression.

An option takes effect before any expression is looked at and in the order of
the arguments, also when a mistake stands before it.
-/

namespace LineCalculator

/-- What the arguments ask for. -/
inductive Arguments where
  | expressions (texts : List String)
  | version
  | help
  /-- The arguments do not make sense. -/
  | misuse
  deriving DecidableEq

namespace Arguments

/-- What a single argument before `--` is. -/
inductive Role where
  | expression
  | version
  | help
  /-- An option that was given something it does not take. -/
  | malformed
  /-- The beginning of more than one option. -/
  | ambiguous
  | unknown
  deriving DecidableEq

/-- The options with long names. -/
def longOptions : List (List Char × Role) :=
  [("--help".toList, .help), ("--version".toList, .version)]

/-- Whether some characters, after a minus sign, make it a negative number:
digits, with or without a point before the last of them.  A newline at the end
is overlooked. -/
def isMagnitude (text : List Char) : Bool :=
  let text := if text.getLast? = some '\n' then text.dropLast else text
  let whole := text.takeWhile Text.isDecimalDigit
  match text.dropWhile Text.isDecimalDigit with
  | [] => !whole.isEmpty
  | '.' :: fraction => !fraction.isEmpty && fraction.all Text.isDecimalDigit
  | _ => false

/-- The role of an argument that is the name of no option. -/
def otherRole (tail : List Char) : Role :=
  if isMagnitude tail || tail.contains ' ' then .expression else .unknown

/-- The role of an argument that begins with two minus signs. -/
def longRole (text : List Char) : Role :=
  let name := text.takeWhile (· != '=')
  match longOptions.filter (name.isPrefixOf ·.1) with
  | [] => otherRole (text.drop 1)
  | [option] => if name.length < text.length then .malformed else option.2
  | _ => .ambiguous

/-- The role of an argument. -/
def role (text : List Char) : Role :=
  match text with
  | '-' :: '-' :: _ => longRole text
  | '-' :: 'h' :: '=' :: _ => .malformed
  | '-' :: 'h' :: _ => .help
  | '-' :: c :: more => otherRole (c :: more)
  | _ => .expression

/-- What options come to, if there are any. -/
def ofOptions? : List Role → Option Arguments
  | [] => none
  | .version :: _ => some version
  | .help :: _ => some help
  | .malformed :: _ => some misuse
  | _ :: rest => ofOptions? rest

/-- What the arguments ask for. -/
def ofList (arguments : List String) : Arguments :=
  let before := arguments.takeWhile (· != "--")
  let after := (arguments.dropWhile (· != "--")).drop 1
  let roles := before.map fun argument => role argument.toList
  if roles.contains .ambiguous then misuse
  else
    match ofOptions? roles with
    | some options => options
    | none => if roles.contains .unknown then misuse else expressions (before ++ after)

end Arguments

end LineCalculator
