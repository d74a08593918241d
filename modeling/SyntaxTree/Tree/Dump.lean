import SyntaxTree.Number.Format
import SyntaxTree.Tree.Basic

/-
# Dumps

A dump shows a tree without its positions.  Every node has a line with its label, and under it each
field that is not empty has a line with its name and, further indented, the nodes it holds.  An
entry that is absent within a list shows as a dash.
-/

namespace SyntaxTree

/-! ## Documents -/

mutual

/-- A labelled node with its fields. -/
inductive Doc where
  | node (label : Bytes) (fields : List Doc.Field)

/-- A named field with its entries. -/
inductive Doc.Field where
  | mk (name : Bytes) (entries : List Doc.Entry)

/-- An entry of a field. -/
inductive Doc.Entry where
  | absent
  | present (doc : Doc)

end

/-- A line of text under a number of indentations. -/
structure DumpLine where
  depth : Nat
  content : Bytes
  deriving DecidableEq, Repr

/-- A line as text: two spaces for each indentation. -/
def DumpLine.render (line : DumpLine) : Bytes :=
  Bytes.spaces (2 * line.depth) ++ line.content ++ text "\n"

mutual

/-- The lines of a document. -/
def Doc.lines (depth : Nat) : Doc → List DumpLine
  | .node label fields => ⟨depth, label⟩ :: Doc.fieldLines (depth + 1) fields

/-- The lines of fields; an empty field has none. -/
def Doc.fieldLines (depth : Nat) : List Doc.Field → List DumpLine
  | [] => []
  | .mk name entries :: fields =>
    let shown := Doc.entryLines (depth + 1) entries
    (if shown = [] then [] else ⟨depth, name ++ text ":"⟩ :: shown) ++ Doc.fieldLines depth fields

/-- The lines of the entries of a field. -/
def Doc.entryLines (depth : Nat) : List Doc.Entry → List DumpLine
  | [] => []
  | .absent :: entries => ⟨depth, text "-"⟩ :: Doc.entryLines depth entries
  | .present doc :: entries => Doc.lines depth doc ++ Doc.entryLines depth entries

end

/-- The text of a document. -/
def Doc.render (doc : Doc) : Bytes := (doc.lines 0).flatMap DumpLine.render

/-- A node without fields. -/
def Doc.leaf (label : Bytes) : Doc := .node label []

/-- A field by its name. -/
def Doc.Field.named (name : String) (entries : List Doc.Entry) : Doc.Field :=
  .mk (text name) entries

/-! ## Labels -/

/-- The name of a context. -/
def Context.name : Context → Bytes
  | .load => text "Load"
  | .store => text "Store"
  | .delete => text "Del"

/-- A byte between quotes: quotes and backslashes are escaped, control characters are written by
their value. -/
def quotedByte (b : Byte) : Bytes :=
  if b = Byte.doubleQuote ∨ b = Byte.backslash then [Byte.backslash, b]
  else if b < 0x20 ∨ b = 0x7F then
    text "\\x" ++ [Byte.hexDigit (b.toNat / 16), Byte.hexDigit (b.toNat % 16)]
  else [b]

/-- A text between quotes. -/
def quoted (s : Bytes) : Bytes := text "\"" ++ s.flatMap quotedByte ++ text "\""

/-- The type and value of a constant. -/
def Constant.label : Constant → Bytes
  | .none => text "None"
  | .boolean value => if value then text "bool True" else text "bool False"
  | .integer digits => text "int " ++ digits
  | .float value => text "float " ++ FloatFormat.exact.write value
  | .imaginary value => text "complex " ++ FloatFormat.exact.write value ++ text "j"
  | .string value => text "str " ++ quoted value
  | .bytes value => text "bytes " ++ quoted value
  | .ellipsis => text "Ellipsis"

/-- A name, or a dash if there is none. -/
def optionalName (name : Option Bytes) : Bytes := name.getD (text "-")

/-- Names with commas between them; empty names at the beginning leave no trace. -/
def joinNames (names : List Bytes) : Bytes :=
  Bytes.joinWith (text ",") (names.dropWhile (· = []))

/-- The name of a kind of type parameter. -/
def TypeParamKind.name : TypeParamKind → Bytes
  | .typeVar => text "TypeVar"
  | .paramSpec => text "ParamSpec"
  | .typeVarTuple => text "TypeVarTuple"

/-- A label that depends on a flag. -/
def labelIf (flag : Bool) (yes no : String) : Bytes := text (if flag then yes else no)

/-! ## Expressions -/

mutual

/-- The document of an expression. -/
def Expr.doc : Expr → Doc
  | .node _ shape => Expr.Shape.doc shape

/-- The document of an expression's shape. -/
def Expr.Shape.doc : Expr.Shape → Doc
  | .name id context => .leaf (text "Name id=" ++ id ++ text " ctx=" ++ context.name)
  | .constant value => .leaf (text "Constant " ++ value.label)
  | .boolean op values => .node (text "BoolOp op=" ++ op.name) [.named "values" (Expr.docs values)]
  | .named target value =>
    .node (text "NamedExpr")
      [.named "target" [.present target.doc], .named "value" [.present value.doc]]
  | .binary op left right =>
    .node (text "BinOp op=" ++ op.name)
      [.named "left" [.present left.doc], .named "right" [.present right.doc]]
  | .unary op operand =>
    .node (text "UnaryOp op=" ++ op.name) [.named "operand" [.present operand.doc]]
  | .lambda parameters body =>
    .node (text "Lambda")
      [.named "args" [.present parameters.doc], .named "body" [.present body.doc]]
  | .conditional test body orelse =>
    .node (text "IfExp")
      [.named "test" [.present test.doc], .named "body" [.present body.doc],
        .named "orelse" [.present orelse.doc]]
  | .dict items =>
    .node (text "Dict")
      [.named "keys" (DictItem.keyDocs items), .named "values" (DictItem.valueDocs items)]
  | .set elements => .node (text "Set") [.named "elts" (Expr.docs elements)]
  | .list elements context =>
    .node (text "List ctx=" ++ context.name) [.named "elts" (Expr.docs elements)]
  | .tuple elements context =>
    .node (text "Tuple ctx=" ++ context.name) [.named "elts" (Expr.docs elements)]
  | .listComp element clauses =>
    .node (text "ListComp")
      [.named "elt" [.present element.doc], .named "generators" (Comprehension.docs clauses)]
  | .setComp element clauses =>
    .node (text "SetComp")
      [.named "elt" [.present element.doc], .named "generators" (Comprehension.docs clauses)]
  | .dictComp key value clauses =>
    .node (text "DictComp")
      [.named "key" [.present key.doc], .named "value" [.present value.doc],
        .named "generators" (Comprehension.docs clauses)]
  | .generator element clauses =>
    .node (text "GeneratorExp")
      [.named "elt" [.present element.doc], .named "generators" (Comprehension.docs clauses)]
  | .await value => .node (text "Await") [.named "value" [.present value.doc]]
  | .yield value => .node (text "Yield") [.named "value" (Expr.optionalDoc value)]
  | .yieldFrom value => .node (text "YieldFrom") [.named "value" [.present value.doc]]
  | .compare left rest =>
    .node (text "Compare ops=" ++ joinNames (rest.map fun | .mk op _ => op.name))
      [.named "left" [.present left.doc], .named "comparators" (Comparison.docs rest)]
  | .call callee arguments keywords =>
    .node (text "Call")
      [.named "func" [.present callee.doc], .named "args" (Expr.docs arguments),
        .named "keywords" (Keyword.docs keywords)]
  | .field value conversion spec =>
    .node (text "FormattedValue conversion=" ++ optionalName (conversion.map ([·.letter])))
      [.named "value" [.present value.doc], .named "format_spec" (FormatSpec.optionalDoc spec)]
  | .fstring values => .node (text "JoinedStr") [.named "values" (Expr.docs values)]
  | .attribute value name context =>
    .node (text "Attribute attr=" ++ name ++ text " ctx=" ++ context.name)
      [.named "value" [.present value.doc]]
  | .subscript value index context =>
    .node (text "Subscript ctx=" ++ context.name)
      [.named "value" [.present value.doc], .named "slice" [.present index.doc]]
  | .starred value context =>
    .node (text "Starred ctx=" ++ context.name) [.named "value" [.present value.doc]]
  | .slice lower upper step =>
    .node (text "Slice")
      [.named "lower" (Expr.optionalDoc lower), .named "upper" (Expr.optionalDoc upper),
        .named "step" (Expr.optionalDoc step)]

/-- The entries of a list of expressions. -/
def Expr.docs : List Expr → List Doc.Entry
  | [] => []
  | e :: rest => .present e.doc :: Expr.docs rest

/-- The entries of an expression that may be missing. -/
def Expr.optionalDoc : Option Expr → List Doc.Entry
  | none => []
  | some e => [.present e.doc]

/-- The keys of dict items; an unpacked mapping has none. -/
def DictItem.keyDocs : List DictItem → List Doc.Entry
  | [] => []
  | .entry key _ :: rest => .present key.doc :: DictItem.keyDocs rest
  | .unpack _ :: rest => .absent :: DictItem.keyDocs rest

/-- The values of dict items. -/
def DictItem.valueDocs : List DictItem → List Doc.Entry
  | [] => []
  | .entry _ value :: rest => .present value.doc :: DictItem.valueDocs rest
  | .unpack value :: rest => .present value.doc :: DictItem.valueDocs rest

/-- The operands of the further comparisons of a chain. -/
def Comparison.docs : List Comparison → List Doc.Entry
  | [] => []
  | .mk _ operand :: rest => .present operand.doc :: Comparison.docs rest

/-- The document of a clause of a comprehension. -/
def Comprehension.doc : Comprehension → Doc
  | .mk _ target iterable conditions isAsync =>
    .node (labelIf isAsync "comprehension is_async=1" "comprehension is_async=0")
      [.named "target" [.present target.doc], .named "iter" [.present iterable.doc],
        .named "ifs" (Expr.docs conditions)]

/-- The clauses of a comprehension. -/
def Comprehension.docs : List Comprehension → List Doc.Entry
  | [] => []
  | clause :: rest => .present clause.doc :: Comprehension.docs rest

/-- The document of a keyword argument. -/
def Keyword.doc : Keyword → Doc
  | .mk _ name value =>
    .node (text "keyword arg=" ++ optionalName name) [.named "value" [.present value.doc]]

/-- The keyword arguments of a call. -/
def Keyword.docs : List Keyword → List Doc.Entry
  | [] => []
  | keyword :: rest => .present keyword.doc :: Keyword.docs rest

/-- The document of a format specification, which is shown as an f-string. -/
def FormatSpec.doc : FormatSpec → Doc
  | .mk _ values => .node (text "JoinedStr") [.named "values" (Expr.docs values)]

/-- The format specification of a field, if it has one. -/
def FormatSpec.optionalDoc : Option FormatSpec → List Doc.Entry
  | none => []
  | some spec => [.present spec.doc]

/-- The document of a parameter. -/
def Parameter.doc : Parameter → Doc
  | .mk _ name hint =>
    .node (text "arg name=" ++ name) [.named "annotation" (Expr.optionalDoc hint)]

/-- The entries of a list of parameters. -/
def Parameter.docs : List Parameter → List Doc.Entry
  | [] => []
  | p :: rest => .present p.doc :: Parameter.docs rest

/-- The entries of a parameter that may be missing. -/
def Parameter.optionalDoc : Option Parameter → List Doc.Entry
  | none => []
  | some p => [.present p.doc]

/-- The parameters that are given by keyword only. -/
def KeywordOnly.docs : List KeywordOnly → List Doc.Entry
  | [] => []
  | .mk parameter _ :: rest => .present parameter.doc :: KeywordOnly.docs rest

/-- The defaults of parameters that are given by keyword only. -/
def KeywordOnly.defaultDocs : List KeywordOnly → List Doc.Entry
  | [] => []
  | .mk _ none :: rest => .absent :: KeywordOnly.defaultDocs rest
  | .mk _ (some default) :: rest => .present default.doc :: KeywordOnly.defaultDocs rest

/-- The document of the parameters of a function. -/
def Parameters.doc : Parameters → Doc
  | .mk positionalOnly positional variadic keywordOnly variadicKeyword defaults =>
    .node (text "arguments")
      [.named "posonlyargs" (Parameter.docs positionalOnly),
        .named "args" (Parameter.docs positional),
        .named "vararg" (Parameter.optionalDoc variadic),
        .named "kwonlyargs" (KeywordOnly.docs keywordOnly),
        .named "kw_defaults" (KeywordOnly.defaultDocs keywordOnly),
        .named "kwarg" (Parameter.optionalDoc variadicKeyword),
        .named "defaults" (Expr.docs defaults)]

end

/-! ## Patterns -/

mutual

/-- The document of a pattern. -/
def Pattern.doc : Pattern → Doc
  | .node _ shape => Pattern.Shape.doc shape

/-- The document of a pattern's shape. -/
def Pattern.Shape.doc : Pattern.Shape → Doc
  | .value value => .node (text "MatchValue") [.named "value" [.present value.doc]]
  | .singleton value => .leaf (text "MatchSingleton " ++ value.constant.label)
  | .sequence patterns => .node (text "MatchSequence") [.named "patterns" (Pattern.docs patterns)]
  | .mapping entries rest =>
    .node (text "MatchMapping rest=" ++ optionalName rest)
      [.named "keys" (entries.map fun entry => .present entry.1.doc),
        .named "patterns" (Pattern.valueDocs entries)]
  | .record callee patterns attributes =>
    .node (text "MatchClass kwd_attrs=" ++ joinNames (attributes.map Prod.fst))
      [.named "cls" [.present callee.doc], .named "patterns" (Pattern.docs patterns),
        .named "kwd_patterns" (Pattern.attributeDocs attributes)]
  | .star name => .leaf (text "MatchStar name=" ++ optionalName name)
  | .as pattern name =>
    .node (text "MatchAs name=" ++ optionalName name)
      [.named "pattern" (Pattern.optionalDoc pattern)]
  | .or patterns => .node (text "MatchOr") [.named "patterns" (Pattern.docs patterns)]

/-- The entries of a list of patterns. -/
def Pattern.docs : List Pattern → List Doc.Entry
  | [] => []
  | p :: rest => .present p.doc :: Pattern.docs rest

/-- The entries of a pattern that may be missing. -/
def Pattern.optionalDoc : Option Pattern → List Doc.Entry
  | none => []
  | some p => [.present p.doc]

/-- The patterns of the values of a mapping. -/
def Pattern.valueDocs : List (Expr × Pattern) → List Doc.Entry
  | [] => []
  | (_, p) :: rest => .present p.doc :: Pattern.valueDocs rest

/-- The patterns of named attributes. -/
def Pattern.attributeDocs : List (Bytes × Pattern) → List Doc.Entry
  | [] => []
  | (_, p) :: rest => .present p.doc :: Pattern.attributeDocs rest

end

/-! ## Statements -/

/-- The document of an imported name. -/
def Alias.doc (name : Alias) : Doc :=
  .leaf (text "alias name=" ++ name.name ++ text " asname=" ++ optionalName name.renamed)

/-- The document of an item of a with statement. -/
def WithItem.doc (item : WithItem) : Doc :=
  .node (text "withitem")
    [.named "context_expr" [.present item.context.doc],
      .named "optional_vars" (Expr.optionalDoc item.target)]

/-- The document of a type parameter. -/
def TypeParam.doc (param : TypeParam) : Doc :=
  .node (param.kind.name ++ text " name=" ++ param.name)
    [.named "bound" (Expr.optionalDoc param.bound),
      .named "default_value" (Expr.optionalDoc param.default)]

/-- The entries of documents that are all present. -/
def Doc.entries {α : Type} (doc : α → Doc) (items : List α) : List Doc.Entry :=
  items.map fun item => .present (doc item)

mutual

/-- The document of a statement. -/
def Stmt.doc : Stmt → Doc
  | .node _ shape => Stmt.Shape.doc shape

/-- The document of a statement's shape. -/
def Stmt.Shape.doc : Stmt.Shape → Doc
  | .functionDef isAsync name decorators typeParams parameters returns body =>
    .node (labelIf isAsync "AsyncFunctionDef" "FunctionDef" ++ text " name=" ++ name)
      [.named "decorators" (Expr.docs decorators),
        .named "type_params" (Doc.entries TypeParam.doc typeParams),
        .named "args" [.present parameters.doc], .named "returns" (Expr.optionalDoc returns),
        .named "body" (Stmt.docs body)]
  | .classDef name decorators typeParams bases keywords body =>
    .node (text "ClassDef name=" ++ name)
      [.named "decorators" (Expr.docs decorators),
        .named "type_params" (Doc.entries TypeParam.doc typeParams),
        .named "bases" (Expr.docs bases), .named "keywords" (Keyword.docs keywords),
        .named "body" (Stmt.docs body)]
  | .returnValue value => .node (text "Return") [.named "value" (Expr.optionalDoc value)]
  | .delete targets => .node (text "Delete") [.named "targets" (Expr.docs targets)]
  | .assign targets value =>
    .node (text "Assign")
      [.named "targets" (Expr.docs targets), .named "value" [.present value.doc]]
  | .augmentedAssign target op value =>
    .node (text "AugAssign op=" ++ op.name)
      [.named "target" [.present target.doc], .named "value" [.present value.doc]]
  | .annotatedAssign target hint value simple =>
    .node (labelIf simple "AnnAssign simple=1" "AnnAssign simple=0")
      [.named "target" [.present target.doc], .named "annotation" [.present hint.doc],
        .named "value" (Expr.optionalDoc value)]
  | .forLoop isAsync target iterable body orelse =>
    .node (labelIf isAsync "AsyncFor" "For")
      [.named "target" [.present target.doc], .named "iter" [.present iterable.doc],
        .named "body" (Stmt.docs body), .named "orelse" (Stmt.docs orelse)]
  | .whileLoop test body orelse =>
    .node (text "While")
      [.named "test" [.present test.doc], .named "body" (Stmt.docs body),
        .named "orelse" (Stmt.docs orelse)]
  | .conditional test body orelse =>
    .node (text "If")
      [.named "test" [.present test.doc], .named "body" (Stmt.docs body),
        .named "orelse" (Stmt.docs orelse)]
  | .withBlock isAsync items body =>
    .node (labelIf isAsync "AsyncWith" "With")
      [.named "items" (Doc.entries WithItem.doc items), .named "body" (Stmt.docs body)]
  | .matchBlock subject cases =>
    .node (text "Match")
      [.named "subject" [.present subject.doc], .named "cases" (MatchCase.docs cases)]
  | .raise exception cause =>
    .node (text "Raise")
      [.named "exc" (Expr.optionalDoc exception), .named "cause" (Expr.optionalDoc cause)]
  | .tryBlock isStar body handlers orelse finalbody =>
    .node (labelIf isStar "TryStar" "Try")
      [.named "body" (Stmt.docs body), .named "handlers" (ExceptHandler.docs handlers),
        .named "orelse" (Stmt.docs orelse), .named "finalbody" (Stmt.docs finalbody)]
  | .assertion test message =>
    .node (text "Assert")
      [.named "test" [.present test.doc], .named "msg" (Expr.optionalDoc message)]
  | .importNames names => .node (text "Import") [.named "names" (Doc.entries Alias.doc names)]
  | .importFrom level source names =>
    .node (text "ImportFrom module=" ++ optionalName source ++ text " level=" ++ Bytes.ofNat level)
      [.named "names" (Doc.entries Alias.doc names)]
  | .globalNames names => .leaf (text "Global names=" ++ joinNames names)
  | .nonlocalNames names => .leaf (text "Nonlocal names=" ++ joinNames names)
  | .expression value => .node (text "Expr") [.named "value" [.present value.doc]]
  | .pass => .leaf (text "Pass")
  | .breakLoop => .leaf (text "Break")
  | .continueLoop => .leaf (text "Continue")
  | .typeAlias name typeParams value =>
    .node (text "TypeAlias")
      [.named "name" [.present name.doc],
        .named "type_params" (Doc.entries TypeParam.doc typeParams),
        .named "value" [.present value.doc]]
  | .blank count => .leaf (text "Blank count=" ++ Bytes.ofInt count)

/-- The entries of a list of statements. -/
def Stmt.docs : List Stmt → List Doc.Entry
  | [] => []
  | s :: rest => .present s.doc :: Stmt.docs rest

/-- The document of a case of a match statement. -/
def MatchCase.doc : MatchCase → Doc
  | .mk _ pattern guard body =>
    .node (text "match_case")
      [.named "pattern" [.present pattern.doc], .named "guard" (Expr.optionalDoc guard),
        .named "body" (Stmt.docs body)]

/-- The cases of a match statement. -/
def MatchCase.docs : List MatchCase → List Doc.Entry
  | [] => []
  | c :: rest => .present c.doc :: MatchCase.docs rest

/-- The document of a handler of a try statement. -/
def ExceptHandler.doc : ExceptHandler → Doc
  | .mk _ type name body =>
    .node (text "ExceptHandler name=" ++ optionalName name)
      [.named "type" (Expr.optionalDoc type), .named "body" (Stmt.docs body)]

/-- The handlers of a try statement. -/
def ExceptHandler.docs : List ExceptHandler → List Doc.Entry
  | [] => []
  | handler :: rest => .present handler.doc :: ExceptHandler.docs rest

end

/-! ## Modules and nodes -/

/-- The document of a module. -/
def Module.doc (m : Module) : Doc :=
  .node (text "Module mode=" ++ m.mode.name)
    [.named "body" (Stmt.docs m.body), .named "expression" (Expr.optionalDoc m.expression),
      .named "argtypes" (Expr.docs m.argumentTypes), .named "returns" (Expr.optionalDoc m.returns)]

/-- A node of a tree: a module, a statement, an expression, a pattern, or a part of one of them.
A format specification is an f-string. -/
inductive Node where
  | module (m : Module)
  | stmt (s : Stmt)
  | expr (e : Expr)
  | pattern (p : Pattern)
  | parameters (p : Parameters)
  | parameter (p : Parameter)
  | keyword (k : Keyword)
  | importAlias (a : Alias)
  | withItem (item : WithItem)
  | matchCase (c : MatchCase)
  | exceptHandler (h : ExceptHandler)
  | comprehension (c : Comprehension)
  | typeParam (p : TypeParam)

/-- The document of a node. -/
def Node.doc : Node → Doc
  | module m => m.doc
  | stmt s => s.doc
  | expr e => e.doc
  | pattern p => p.doc
  | parameters p => p.doc
  | parameter p => p.doc
  | keyword k => k.doc
  | importAlias a => a.doc
  | withItem item => item.doc
  | matchCase c => c.doc
  | exceptHandler h => h.doc
  | comprehension c => c.doc
  | typeParam p => p.doc

/-- The dump of a node. -/
def Node.dump (n : Node) : Bytes := n.doc.render

/-- The dump of a module. -/
def Module.dump (m : Module) : Bytes := (Node.module m).dump

/-- The dump of an expression. -/
def Expr.dump (e : Expr) : Bytes := (Node.expr e).dump

end SyntaxTree
