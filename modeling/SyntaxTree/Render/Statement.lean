import SyntaxTree.Render.Line
import SyntaxTree.Render.Pattern

/-
# Statements as lines

A simple statement is one line, or several if it is too long and has brackets to split.  A compound
statement is a header at its depth and a block one level deeper; a block without statements is
written as one that does nothing.
-/

namespace SyntaxTree

/-! ## Parts of statements -/

/-- An expression that may be a tuple without parentheses, but not a yield. -/
def Expr.writeValue (quote : Byte) (e : Expr) : Bytes :=
  match e.shape with
  | .yield _ | .yieldFrom _ => parenthesize (e.write quote .tuple)
  | _ => e.write quote .tuple

/-- The lines of a head and a value with brackets that may be split, if the value is of that kind.
A tuple has brackets only where it is split. -/
def Expr.splitLines? (style : Style) (depth : Nat) (head : Bytes) (e : Expr) :
    Option (List Line) :=
  let quote := style.quote
  match e.shape with
  | .call callee arguments keywords =>
    let items := Expr.writeAll quote .test arguments ++ Keyword.writeAll quote keywords
    some (Bracketed.lines style depth
      ⟨head ++ callee.write quote .atom, ascii '(', items, ascii ')', [], false⟩)
  | .list elements _ =>
    some (Bracketed.lines style depth
      ⟨head, ascii '[', Expr.writeAll quote .test elements, ascii ']', [], false⟩)
  | .dict items =>
    some (Bracketed.lines style depth
      ⟨head, Byte.openBrace, DictItem.writeAll quote items, Byte.closeBrace, [], false⟩)
  | .tuple elements _ =>
    let flat := head ++ e.write quote .tuple
    if elements.isEmpty then none
    else if style.fits depth flat then some [.code depth flat]
    else
      some (Bracketed.lines style depth
        ⟨head, ascii '(', Expr.writeAll quote .test elements, ascii ')', [], true⟩)
  | _ => none

/-- An imported name and the name it gets. -/
def Alias.write (a : Alias) : Bytes :=
  match a.renamed with
  | some name => a.name ++ text " as " ++ name
  | none => a.name

/-- A context manager and its target. -/
def WithItem.write (quote : Byte) (item : WithItem) : Bytes :=
  item.context.write quote .test ++
    match item.target with
    | some target => text " as " ++ target.write quote .bitOr
    | none => []

/-- The mark in front of a type parameter. -/
def TypeParamKind.mark : TypeParamKind → Bytes
  | typeVar => []
  | typeVarTuple => text "*"
  | paramSpec => text "**"

/-- A type parameter. -/
def TypeParam.write (quote : Byte) (p : TypeParam) : Bytes :=
  p.kind.mark ++ p.name ++ Expr.writeOptional quote (text ": ") p.bound ++
    Expr.writeOptional quote (text " = ") p.default

/-- Type parameters in brackets, or nothing. -/
def TypeParam.writeAll (quote : Byte) (params : List TypeParam) : Bytes :=
  if params.isEmpty then []
  else text "[" ++ commaSeparated (params.map (TypeParam.write quote)) ++ text "]"

/-- The word in front of an asynchronous statement. -/
def asyncText (isAsync : Bool) : Bytes := if isAsync then text "async " else []

/-- Decorators, one on each line. -/
def decoratorLines (style : Style) (depth : Nat) (decorators : List Expr) : List Line :=
  decorators.map fun e => .code depth (text "@" ++ e.write style.quote .named)

/-- The header of a with statement; parentheses go around the items only where they are split. -/
def withHeader (style : Style) (depth : Nat) (isAsync : Bool) (items : List WithItem) :
    List Line :=
  let head := asyncText isAsync ++ text "with "
  let items := items.map (WithItem.write style.quote)
  let flat := head ++ commaSeparated items ++ text ":"
  if style.fits depth flat then [.code depth flat]
  else Bracketed.lines style depth ⟨head, ascii '(', items, ascii ')', text ":", false⟩

/-- An import of names from a module; a single name is never split off. -/
def importFromLines (style : Style) (depth level : Nat) (source : Option Bytes)
    (names : List Alias) : List Line :=
  let head :=
    text "from " ++ List.replicate level (ascii '.') ++ source.getD [] ++ text " import "
  let names := names.map Alias.write
  let flat := head ++ commaSeparated names
  if names.length = 1 ∨ style.fits depth flat then [.code depth flat]
  else Bracketed.lines style depth ⟨head, ascii '(', names, ascii ')', [], false⟩

/-- An annotated assignment; a name in parentheses keeps them. -/
def annotatedLines (style : Style) (depth : Nat) (target hint : Expr) (value : Option Expr)
    (simple : Bool) : List Line :=
  let quote := style.quote
  let head :=
    parenthesizeIf (!simple && target.isName) (target.write quote .tuple) ++ text ": " ++
      hint.write quote .test
  match value with
  | none => [.code depth head]
  | some value =>
    let head := head ++ text " = "
    (value.splitLines? style depth head).getD [.code depth (head ++ value.write quote .tuple)]

/-- An expression statement; a tuple is never split. -/
def expressionLines (style : Style) (depth : Nat) (value : Expr) : List Line :=
  let flat := [Line.code depth (value.write style.quote .tuple)]
  match value.shape with
  | .tuple .. => flat
  | _ => (value.splitLines? style depth []).getD flat

/-- The header of a handler. -/
def handlerHeader (quote : Byte) (isStar : Bool) (type : Option Expr) (name : Option Bytes) :
    Bytes :=
  (if isStar then text "except*" else text "except") ++
    Expr.writeOptional quote (text " ") type ++
    (match name with
      | some name => text " as " ++ name
      | none => []) ++ text ":"

/-- The header of a case. -/
def caseHeader (quote : Byte) (pattern : Pattern) (guard : Option Expr) : Bytes :=
  text "case " ++ pattern.write quote false ++
    (match guard with
      | some guard => text " if " ++ guard.write quote .named
      | none => []) ++ text ":"

/-! ## Statements -/

mutual

/-- The lines of a statement at a depth. -/
def Stmt.lines (style : Style) (depth : Nat) : Stmt → List Line
  | .node _ (.functionDef isAsync name decorators typeParams parameters returns body) =>
    let quote := style.quote
    let head := asyncText isAsync ++ text "def " ++ name ++ TypeParam.writeAll quote typeParams
    let tail := Expr.writeOptional quote (text " -> ") returns ++ text ":"
    decoratorLines style depth decorators ++
      Bracketed.lines style depth
        ⟨head, ascii '(', parameters.writeItems quote true, ascii ')', tail, false⟩ ++
      Stmt.block style (depth + 1) body
  | .node _ (.classDef name decorators typeParams bases keywords body) =>
    let quote := style.quote
    let head := text "class " ++ name ++ TypeParam.writeAll quote typeParams
    let items := Expr.writeAll quote .test bases ++ Keyword.writeAll quote keywords
    decoratorLines style depth decorators ++
      (if items.isEmpty then [.code depth (head ++ text ":")]
        else Bracketed.lines style depth ⟨head, ascii '(', items, ascii ')', text ":", false⟩) ++
      Stmt.block style (depth + 1) body
  | .node _ (.returnValue none) => [.code depth (text "return")]
  | .node _ (.returnValue (some value)) =>
    let head := text "return "
    (value.splitLines? style depth head).getD
      [.code depth (head ++ value.writeValue style.quote)]
  | .node _ (.delete targets) =>
    [.code depth (text "del " ++ commaSeparated (Expr.writeAll style.quote .bitOr targets))]
  | .node _ (.assign targets value) =>
    let head := ((Expr.writeAll style.quote .tuple targets).map (· ++ text " = ")).flatten
    (value.splitLines? style depth head).getD
      [.code depth (head ++ value.write style.quote .tuple)]
  | .node _ (.augmentedAssign target op value) =>
    [.code depth (target.write style.quote .tuple ++ text " " ++ op.symbol ++ text "= " ++
      value.write style.quote .tuple)]
  | .node _ (.annotatedAssign target hint value simple) =>
    annotatedLines style depth target hint value simple
  | .node _ (.forLoop isAsync target iterable body orelse) =>
    .code depth (asyncText isAsync ++ text "for " ++ target.write style.quote .tuple ++
        text " in " ++ iterable.writeValue style.quote ++ text ":") ::
      Stmt.block style (depth + 1) body ++ Stmt.elseBlock style depth orelse
  | .node _ (.whileLoop test body orelse) =>
    .code depth (text "while " ++ test.write style.quote .named ++ text ":") ::
      Stmt.block style (depth + 1) body ++ Stmt.elseBlock style depth orelse
  | .node _ (.conditional test body orelse) =>
    .code depth (text "if " ++ test.write style.quote .named ++ text ":") ::
      Stmt.block style (depth + 1) body ++ Stmt.elseChain style depth orelse
  | .node _ (.withBlock isAsync items body) =>
    withHeader style depth isAsync items ++ Stmt.block style (depth + 1) body
  | .node _ (.matchBlock subject cases) =>
    .code depth (text "match " ++ subject.writeValue style.quote ++ text ":") ::
      MatchCase.lines style (depth + 1) cases
  | .node _ (.raise exception cause) =>
    [.code depth (text "raise" ++ Expr.writeOptional style.quote (text " ") exception ++
      Expr.writeOptional style.quote (text " from ") cause)]
  | .node _ (.tryBlock isStar body handlers orelse finalbody) =>
    .code depth (text "try:") :: Stmt.block style (depth + 1) body ++
      ExceptHandler.lines style depth isStar handlers ++ Stmt.elseBlock style depth orelse ++
      Stmt.finalBlock style depth finalbody
  | .node _ (.assertion test message) =>
    [.code depth (text "assert " ++ test.write style.quote .test ++
      Expr.writeOptional style.quote (text ", ") message)]
  | .node _ (.importNames names) =>
    [.code depth (text "import " ++ commaSeparated (names.map Alias.write))]
  | .node _ (.importFrom level source names) => importFromLines style depth level source names
  | .node _ (.globalNames names) => [.code depth (text "global " ++ commaSeparated names)]
  | .node _ (.nonlocalNames names) => [.code depth (text "nonlocal " ++ commaSeparated names)]
  | .node _ (.expression value) => expressionLines style depth value
  | .node _ .pass => [.code depth (text "pass")]
  | .node _ .breakLoop => [.code depth (text "break")]
  | .node _ .continueLoop => [.code depth (text "continue")]
  | .node _ (.typeAlias name typeParams value) =>
    [.code depth (text "type " ++ name.write style.quote .atom ++
      TypeParam.writeAll style.quote typeParams ++ text " = " ++ value.write style.quote .test)]
  | .node _ (.blank count) => List.replicate count.toNat .blank

/-- The lines of statements one after the other. -/
def Stmt.linesAll (style : Style) (depth : Nat) : List Stmt → List Line
  | [] => []
  | stmt :: rest => stmt.lines style depth ++ Stmt.linesAll style depth rest

/-- The lines of a block. -/
def Stmt.block (style : Style) (depth : Nat) : List Stmt → List Line
  | [] => [.code depth (text "pass")]
  | stmt :: rest => stmt.lines style depth ++ Stmt.linesAll style depth rest

/-- The block behind `else`, if it has statements. -/
def Stmt.elseBlock (style : Style) (depth : Nat) : List Stmt → List Line
  | [] => []
  | stmt :: rest =>
    .code depth (text "else:") ::
      (stmt.lines style (depth + 1) ++ Stmt.linesAll style (depth + 1) rest)

/-- The alternative of a condition: another condition alone is written as `elif`. -/
def Stmt.elseChain (style : Style) (depth : Nat) : List Stmt → List Line
  | [] => []
  | [.node _ (.conditional test body orelse)] =>
    .code depth (text "elif " ++ test.write style.quote .named ++ text ":") ::
      Stmt.block style (depth + 1) body ++ Stmt.elseChain style depth orelse
  | stmt :: rest =>
    .code depth (text "else:") ::
      (stmt.lines style (depth + 1) ++ Stmt.linesAll style (depth + 1) rest)

/-- The block behind `finally`, if it has statements. -/
def Stmt.finalBlock (style : Style) (depth : Nat) : List Stmt → List Line
  | [] => []
  | stmt :: rest =>
    .code depth (text "finally:") ::
      (stmt.lines style (depth + 1) ++ Stmt.linesAll style (depth + 1) rest)

/-- The lines of cases. -/
def MatchCase.lines (style : Style) (depth : Nat) : List MatchCase → List Line
  | [] => []
  | .mk _ pattern guard body :: rest =>
    .code depth (caseHeader style.quote pattern guard) ::
      Stmt.block style (depth + 1) body ++ MatchCase.lines style depth rest

/-- The lines of handlers. -/
def ExceptHandler.lines (style : Style) (depth : Nat) (isStar : Bool) :
    List ExceptHandler → List Line
  | [] => []
  | .mk _ type name body :: rest =>
    .code depth (handlerHeader style.quote isStar type name) ::
      Stmt.block style (depth + 1) body ++ ExceptHandler.lines style depth isStar rest

end

/-! ## Modules -/

/-- The types of the arguments and of the result of a function. -/
def Module.writeSignature (quote : Byte) (m : Module) : Bytes :=
  parenthesize (commaSeparated (Expr.writeAll quote .test m.argumentTypes)) ++
    Expr.writeOptional quote (text " -> ") m.returns ++ text "\n"

/-- A module as source text, however many blanks are in front of its lines. -/
def Module.write (style : Style) (m : Module) : Bytes :=
  match m.mode with
  | .exec | .interactive => Line.writeAll style (Stmt.linesAll style 0 m.body)
  | .eval =>
    match m.expression with
    | some e => e.writeValue style.quote ++ text "\n"
    | none => []
  | .functionType => m.writeSignature style.quote

/-- A module as source text, if the blanks in front of its lines can be counted.  Writing has no
other way to fail. -/
def Module.write? (style : Style) (m : Module) : Option Bytes :=
  match m.mode with
  | .exec | .interactive => Line.writeAll? style (Stmt.linesAll style 0 m.body)
  | .eval | .functionType => some (m.write style)

end SyntaxTree
