import SyntaxTree.Number.Format
import SyntaxTree.Render.Precedence
import SyntaxTree.Render.Quoted

/-
# Expressions as text

An expression is written on one line with the parentheses that it needs and no others, apart from
those that belong to a generator and those around an integer whose attribute is taken.  Literals
prefer the given quote.
-/

namespace SyntaxTree

/-- Items between commas. -/
def commaSeparated (items : List Bytes) : Bytes := Bytes.joinWith (text ", ") items

/-- A text in parentheses. -/
def parenthesize (s : Bytes) : Bytes := text "(" ++ s ++ text ")"

/-- A text in parentheses if they are needed. -/
def parenthesizeIf (needed : Bool) (s : Bytes) : Bytes := if needed then parenthesize s else s

/-- A constant as text. -/
def Constant.write (quote : Byte) : Constant → Bytes
  | none => text "None"
  | boolean value => if value then text "True" else text "False"
  | integer digits => digits
  | float value => FloatFormat.source.write value
  | imaginary value => FloatFormat.writeImaginary value
  | string value => Render.quoteString value quote
  | bytes value => Render.quoteBytes value quote
  | ellipsis => text "..."

/-- Whether an expression is an integer. -/
def Expr.isInteger : Expr → Bool
  | .node _ (.constant (.integer _)) => true
  | _ => false

mutual

/-- The literal text of an f-string without its expressions. -/
def Expr.literalText : List Expr → Bytes
  | [] => []
  | .node _ (.constant (.string value)) :: rest => value ++ Expr.literalText rest
  | .node _ (.field _ _ spec) :: rest => FormatSpec.literalText spec ++ Expr.literalText rest
  | _ :: rest => Expr.literalText rest

/-- The literal text of a format specification. -/
def FormatSpec.literalText : Option FormatSpec → Bytes
  | none => []
  | some (.mk _ values) => Expr.literalText values

end

/-- The elements of a tuple, with the comma that a single one needs. -/
def tupleText (items : List Bytes) : Bytes :=
  commaSeparated items ++ if items.length = 1 then text "," else []

/-- A keyword argument or an unpacked mapping. -/
def argumentText (name : Option Bytes) (value : Bytes) : Bytes :=
  match name with
  | some name => name ++ text "=" ++ value
  | none => text "**" ++ value

/-- A default behind a parameter; blanks stand around the sign behind an annotation. -/
def defaultText (isAnnotated : Bool) (value : Bytes) : Bytes :=
  (if isAnnotated then text " = " else text "=") ++ value

/-- The defaults of positional parameters, aligned with the last ones of `count` parameters. -/
def alignDefaults (count : Nat) (defaults : List Bytes) : List (Option Bytes) :=
  let defaults := defaults.take count
  List.replicate (count - defaults.length) none ++ defaults.map some

/-- A parameter that has been written, and whether an annotation is part of it. -/
structure ParameterText where
  name : Bytes
  isAnnotated : Bool

/-- A parameter with its default. -/
def ParameterText.withDefault (parameter : ParameterText) (default : Option Bytes) : Bytes :=
  match default with
  | some value => parameter.name ++ defaultText parameter.isAnnotated value
  | none => parameter.name

mutual

/-- An expression at a place that demands a precedence. -/
def Expr.write (quote : Byte) (context : Precedence) : Expr → Bytes
  | .node _ shape => parenthesizeIf (!context ≤ shape.precedence) (shape.write quote)

/-- The text of a shape without parentheses around it. -/
def Expr.Shape.write (quote : Byte) : Expr.Shape → Bytes
  | .name id _ => id
  | .constant value => value.write quote
  | .boolean op values =>
    Bytes.joinWith (text " " ++ op.symbol ++ text " ")
      (Expr.writeAll quote op.operandPrecedence values)
  | .named target value =>
    target.write quote .atom ++ text " := " ++ value.write quote .test
  | .binary op left right =>
    left.write quote op.leftPrecedence ++ text " " ++ op.symbol ++ text " " ++
      right.write quote op.rightPrecedence
  | .unary op operand =>
    op.symbol ++ (if op = .not then text " " else []) ++ operand.write quote op.precedence
  | .lambda parameters body =>
    let items := parameters.writeItems quote false
    text "lambda" ++ (if items = [] then [] else text " " ++ commaSeparated items) ++ text ": " ++
      body.write quote .test
  | .conditional test body orelse =>
    body.write quote .or ++ text " if " ++ test.write quote .or ++ text " else " ++
      orelse.write quote .test
  | .dict items => text "\x7b" ++ commaSeparated (DictItem.writeAll quote items) ++ text "\x7d"
  | .set elements =>
    if elements.isEmpty then text "\x7b*()\x7d"
    else text "\x7b" ++ commaSeparated (Expr.writeAll quote .test elements) ++ text "\x7d"
  | .list elements _ => text "[" ++ commaSeparated (Expr.writeAll quote .test elements) ++ text "]"
  | .tuple elements _ =>
    if elements.isEmpty then text "()" else tupleText (Expr.writeAll quote .test elements)
  | .listComp element clauses =>
    text "[" ++ element.write quote .test ++ Comprehension.writeAll quote clauses ++ text "]"
  | .setComp element clauses =>
    text "\x7b" ++ element.write quote .test ++ Comprehension.writeAll quote clauses ++ text "\x7d"
  | .dictComp key value clauses =>
    text "\x7b" ++ key.write quote .test ++ text ": " ++ value.write quote .test ++
      Comprehension.writeAll quote clauses ++ text "\x7d"
  | .generator element clauses =>
    text "(" ++ element.write quote .test ++ Comprehension.writeAll quote clauses ++ text ")"
  | .await value => text "await " ++ value.write quote .atom
  | .yield value =>
    match value with
    | some value => text "yield " ++ value.write quote .tuple
    | none => text "yield"
  | .yieldFrom value => text "yield from " ++ value.write quote .test
  | .compare left rest => left.write quote .bitOr ++ Comparison.writeAll quote rest
  | .call callee arguments keywords =>
    callee.write quote .atom ++
      parenthesize (commaSeparated
        (Expr.writeAll quote .test arguments ++ Keyword.writeAll quote keywords))
  | .field value conversion spec =>
    let source := value.write quote .or
    text "\x7b" ++ (if source.head? = some Byte.openBrace then text " " else []) ++ source ++
      (match conversion with
        | some conversion => [ascii '!', conversion.letter]
        | none => []) ++
      FormatSpec.write quote spec ++ text "\x7d"
  | .fstring values =>
    let chosen := Render.chooseQuote (Expr.literalText values) quote
    ascii 'f' :: chosen :: Expr.writeParts quote chosen true values ++ [chosen]
  | .attribute value name _ =>
    parenthesizeIf value.isInteger (value.write quote .atom) ++ text "." ++ name
  | .subscript value index _ =>
    value.write quote .atom ++ text "[" ++ index.writeIndex quote ++ text "]"
  | .starred value _ => text "*" ++ value.write quote .bitOr
  | .slice lower upper step =>
    Expr.writeOptional quote [] lower ++ text ":" ++ Expr.writeOptional quote [] upper ++
      Expr.writeOptional quote (text ":") step

/-- The text between the brackets of a subscript: a tuple needs no parentheses there. -/
def Expr.writeIndex (quote : Byte) : Expr → Bytes
  | .node _ (.tuple elements _) =>
    if elements.isEmpty then text "()" else tupleText (Expr.writeAll quote .test elements)
  | .node _ shape => parenthesizeIf (!Precedence.test ≤ shape.precedence) (shape.write quote)

/-- Expressions at places that demand the same precedence. -/
def Expr.writeAll (quote : Byte) (context : Precedence) : List Expr → List Bytes
  | [] => []
  | e :: rest => e.write quote context :: Expr.writeAll quote context rest

/-- An expression behind a mark, or nothing. -/
def Expr.writeOptional (quote : Byte) (mark : Bytes) : Option Expr → Bytes
  | none => []
  | some e => mark ++ e.write quote .test

/-- The parts of an f-string between its quotes; braces are doubled in literal text unless it
belongs to a format specification. -/
def Expr.writeParts (quote chosen : Byte) (doubleBraces : Bool) : List Expr → Bytes
  | [] => []
  | .node _ (.constant (.string value)) :: rest =>
    Render.escape chosen doubleBraces value ++ Expr.writeParts quote chosen doubleBraces rest
  | e :: rest => e.write quote .atom ++ Expr.writeParts quote chosen doubleBraces rest

/-- A format specification behind its colon, or nothing. -/
def FormatSpec.write (quote : Byte) : Option FormatSpec → Bytes
  | none => []
  | some (.mk _ values) => text ":" ++ Expr.writeParts quote quote false values

/-- The items of a dict display. -/
def DictItem.writeAll (quote : Byte) : List DictItem → List Bytes
  | [] => []
  | .entry key value :: rest =>
    (key.write quote .test ++ text ": " ++ value.write quote .test) :: DictItem.writeAll quote rest
  | .unpack value :: rest => (text "**" ++ value.write quote .bitOr) :: DictItem.writeAll quote rest

/-- The further comparisons of a chain. -/
def Comparison.writeAll (quote : Byte) : List Comparison → Bytes
  | [] => []
  | .mk op operand :: rest =>
    text " " ++ op.symbol ++ text " " ++ operand.write quote .bitOr ++
      Comparison.writeAll quote rest

/-- The clauses of a comprehension. -/
def Comprehension.writeAll (quote : Byte) : List Comprehension → Bytes
  | [] => []
  | .mk _ target iterable conditions isAsync :: rest =>
    (if isAsync then text " async for " else text " for ") ++ target.write quote .tuple ++
      text " in " ++ iterable.write quote .or ++
      ((Expr.writeAll quote .or conditions).map (text " if " ++ ·)).flatten ++
      Comprehension.writeAll quote rest

/-- Keyword arguments. -/
def Keyword.writeAll (quote : Byte) : List Keyword → List Bytes
  | [] => []
  | .mk _ name value :: rest =>
    argumentText name (value.write quote .test) :: Keyword.writeAll quote rest

/-- A parameter; `annotated` says whether annotations are written. -/
def Parameter.write (quote : Byte) (annotated : Bool) : Parameter → ParameterText
  | .mk _ name hint =>
    if annotated then ⟨name ++ Expr.writeOptional quote (text ": ") hint, hint.isSome⟩
    else ⟨name, false⟩

/-- A list of parameters. -/
def Parameter.writeAll (quote : Byte) (annotated : Bool) : List Parameter → List ParameterText
  | [] => []
  | p :: rest => p.write quote annotated :: Parameter.writeAll quote annotated rest

/-- A parameter behind a mark, or nothing. -/
def Parameter.writeOptional (quote : Byte) (annotated : Bool) (mark : Bytes) :
    Option Parameter → List Bytes
  | none => []
  | some p => [mark ++ (p.write quote annotated).name]

/-- Parameters that are given by keyword only. -/
def KeywordOnly.writeAll (quote : Byte) (annotated : Bool) : List KeywordOnly → List Bytes
  | [] => []
  | .mk parameter default :: rest =>
    let written := parameter.write quote annotated
    (written.name ++ Expr.writeOptional quote (defaultText written.isAnnotated []) default) ::
      KeywordOnly.writeAll quote annotated rest

/-- The parameters of a function and the marks between them. -/
def Parameters.writeItems (quote : Byte) (annotated : Bool) : Parameters → List Bytes
  | .mk positionalOnly positional variadic keywordOnly variadicKeyword defaults =>
    let first := Parameter.writeAll quote annotated positionalOnly
    let second := Parameter.writeAll quote annotated positional
    let defaults :=
      alignDefaults (first.length + second.length) (Expr.writeAll quote .test defaults)
    List.zipWith ParameterText.withDefault first defaults ++
      (if positionalOnly.isEmpty then [] else [text "/"]) ++
      List.zipWith ParameterText.withDefault second (defaults.drop first.length) ++
      (if variadic.isNone ∧ !keywordOnly.isEmpty then [text "*"]
        else Parameter.writeOptional quote annotated (text "*") variadic) ++
      KeywordOnly.writeAll quote annotated keywordOnly ++
      Parameter.writeOptional quote annotated (text "**") variadicKeyword

end

end SyntaxTree
