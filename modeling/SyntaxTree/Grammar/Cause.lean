import SyntaxTree.Token.Basic

/-
# Causes of syntax errors

Every way in which tokens can fail to form a tree is a cause.  A cause knows its wording and the
spellings that would have been accepted in its place.
-/

namespace SyntaxTree

/-- What ends in a colon. -/
inductive Header where
  | ifCondition | elifCondition | elseWord | whileCondition | forClause | withClause | tryWord
  | exceptClause | finallyWord | functionSignature | className | casePattern | lambdaParameters
  deriving DecidableEq, Repr

/-- The wording of a header. -/
def Header.phrase : Header → Bytes
  | ifCondition => text "if condition"
  | elifCondition => text "elif condition"
  | elseWord => text "else"
  | whileCondition => text "while condition"
  | forClause => text "for clause"
  | withClause => text "with clause"
  | tryWord => text "try"
  | exceptClause => text "except clause"
  | finallyWord => text "finally"
  | functionSignature => text "function signature"
  | className => text "class name"
  | casePattern => text "case pattern"
  | lambdaParameters => text "lambda parameters"

/-- A place where one particular token must stand. -/
inductive Missing where
  | colon (header : Header)
  | functionTypeOpen | functionTypeClose | functionTypeArrow
  | decoratorEnd | parametersOpen | parametersClose
  | forIn | comprehensionIn | importWord | importClose
  | aliasEqual | typeParamsOpen | typeParamsClose
  | patternClose | sequenceClose | mappingColon | mappingClose
  | classPatternOpen | classPatternClose
  | conditionalElse | subscriptClose | yieldClose | generatorClose | parenClose
  | listCompClose | listClose | setCompClose | setClose | dictCompClose | dictClose | dictColon
  | argumentsClose
  deriving DecidableEq, Repr

namespace Missing

/-- The kind of the token. -/
def kind : Missing → TokenKind
  | colon _ | mappingColon | dictColon => .colon
  | functionTypeOpen | parametersOpen | classPatternOpen => .openParen
  | functionTypeClose | parametersClose | importClose | patternClose | classPatternClose
  | yieldClose | generatorClose | parenClose | argumentsClose => .closeParen
  | functionTypeArrow => .arrow
  | decoratorEnd => .newline
  | forIn | comprehensionIn => .kwIn
  | importWord => .kwImport
  | aliasEqual => .equal
  | typeParamsOpen => .openBracket
  | typeParamsClose | sequenceClose | subscriptClose | listCompClose | listClose => .closeBracket
  | mappingClose | setCompClose | setClose | dictCompClose | dictClose => .closeBrace
  | conditionalElse => .kwElse

/-- The spelling of the token. -/
def spelling (m : Missing) : Bytes :=
  match m.kind with
  | .colon => text ":"
  | .openParen => text "("
  | .closeParen => text ")"
  | .arrow => text "->"
  | .kwIn => text "in"
  | .kwImport => text "import"
  | .equal => text "="
  | .openBracket => text "["
  | .closeBracket => text "]"
  | .closeBrace => text "\x7d"
  | .kwElse => text "else"
  | _ => text "NEWLINE"

/-- Where the token is missing. -/
def phrase : Missing → Bytes
  | colon header => text " after " ++ header.phrase
  | functionTypeOpen => text " to start a function type"
  | functionTypeClose | functionTypeArrow => text " after argument types"
  | decoratorEnd => text " after decorator"
  | parametersOpen => text " after function name"
  | parametersClose => text " after parameters"
  | forIn => text " after for target"
  | comprehensionIn => text " after comprehension target"
  | importWord => text " after module name"
  | importClose => text " after import list"
  | aliasEqual => text " in type alias"
  | typeParamsOpen | parenClose => []
  | typeParamsClose => text " after type parameters"
  | patternClose => text " after pattern"
  | sequenceClose => text " of sequence pattern"
  | mappingColon => text " after mapping pattern key"
  | mappingClose => text " after mapping pattern"
  | classPatternOpen => text " in class pattern"
  | classPatternClose => text " after class pattern"
  | conditionalElse => text " after conditional expression"
  | subscriptClose => text " after subscript"
  | yieldClose => text " after yield expression"
  | generatorClose => text " after generator expression"
  | listCompClose => text " after list comprehension"
  | listClose => text " after list elements"
  | setCompClose => text " after set comprehension"
  | setClose => text " after set elements"
  | dictCompClose => text " after dict comprehension"
  | dictClose => text " after dict entries"
  | dictColon => text " after dict key"
  | argumentsClose => text " after arguments"

/-- The wording of a missing token. -/
def message (m : Missing) : Bytes :=
  let shown := match m with
    | decoratorEnd => text "newline"
    | sequenceClose => text "end"
    | _ => text "'" ++ m.spelling ++ text "'"
  text "Expected " ++ shown ++ m.phrase

end Missing

/-- What a missing name would have been. -/
inductive NameRole where
  | functionName | className | exceptionName | globalName | nonlocalName
  | moduleName | submoduleName | aliasName | importedName
  | typeParameter | parameter
  | starPattern | asPattern | mappingRest | patternAttribute | attributeName
  deriving DecidableEq, Repr

/-- The wording of the role of a name. -/
def NameRole.phrase : NameRole → Bytes
  | functionName => text "function name"
  | className => text "class name"
  | exceptionName => text "exception name after 'as'"
  | globalName => text "name after 'global'"
  | nonlocalName => text "name after 'nonlocal'"
  | moduleName => text "module name"
  | submoduleName => text "name after '.'"
  | aliasName => text "alias name"
  | importedName => text "name to import"
  | typeParameter => text "type parameter name"
  | parameter => text "parameter name"
  | starPattern => text "name after '*' in pattern"
  | asPattern => text "name after 'as' in pattern"
  | mappingRest => text "name after '**' in pattern"
  | patternAttribute => text "attribute name"
  | attributeName => text "attribute name after '.'"

/-- What an expression is called where it cannot be a target. -/
inductive Nature where
  | none | true | false | ellipsis | literal | call | comparison | lambda | conditional | named
  | await | yield | fstring | dict | set | list | tuple | listComp | setComp | dictComp
  | generator | starred | slice | other
  deriving DecidableEq, Repr

/-- The wording of a nature. -/
def Nature.phrase : Nature → Bytes
  | none => text "None"
  | true => text "True"
  | false => text "False"
  | ellipsis => text "ellipsis"
  | literal => text "literal"
  | call => text "function call"
  | comparison => text "comparison"
  | lambda => text "lambda"
  | conditional => text "conditional expression"
  | named => text "named expression"
  | await => text "await expression"
  | yield => text "yield expression"
  | fstring => text "f-string expression"
  | dict => text "dict literal"
  | set => text "set display"
  | list => text "list"
  | tuple => text "tuple"
  | listComp => text "list comprehension"
  | setComp => text "set comprehension"
  | dictComp => text "dict comprehension"
  | generator => text "generator expression"
  | starred => text "starred"
  | slice => text "slice"
  | other => text "expression"

/-- Why an escape in a literal cannot be read. -/
inductive EscapeCause where
  /-- An octal escape of a bytes literal denotes more than a byte. -/
  | octalTooLarge (digits : Bytes)
  | truncatedHex
  | truncatedShort
  | truncatedLong
  | illegalCode
  | malformedName
  | unknownName
  deriving DecidableEq, Repr

/-- The wording of a fault in an escape. -/
def EscapeCause.message : EscapeCause → Bytes
  | octalTooLarge digits => text "invalid octal escape sequence '\\" ++ digits ++ text "'"
  | truncatedHex => text "truncated \\xXX escape"
  | truncatedShort => text "truncated \\uXXXX escape"
  | truncatedLong => text "truncated \\UXXXXXXXX escape"
  | illegalCode => text "illegal Unicode character"
  | malformedName => text "malformed \\N character escape"
  | unknownName => text "unknown Unicode character name"

/-- Why the text of an f-string cannot be read. -/
inductive FStringCause where
  | singleBrace
  | unclosedField
  /-- The expression is empty in front of the given byte. -/
  | emptyExpression (b : Byte)
  | invalidConversion
  /-- The expression cannot be divided into tokens. -/
  | lexical (cause : LexicalCause)
  /-- The division was given up before the body came to its end. -/
  | unending
  deriving DecidableEq, Repr

/-- The wording of a fault in an f-string. -/
def FStringCause.message (cause : FStringCause) : Bytes :=
  text "f-string: " ++
    match cause with
    | singleBrace => text "single '\x7d' is not allowed"
    | unclosedField => text "expecting '\x7d'"
    | emptyExpression b => text "valid expression required before '" ++ [b] ++ text "'"
    | invalidConversion => text "invalid conversion character: expected 's', 'r', or 'a'"
    | lexical cause => cause.description
    | unending => text "division does not end"

/-- Why tokens do not form a tree. -/
inductive SyntaxCause where
  | missing (what : Missing)
  | missingName (role : NameRole)
  /-- No expression begins here; `atEnd` says whether the line or the block ends. -/
  | noExpression (atEnd : Bool)
  /-- More tokens stand where the input should end. -/
  | trailingTokens
  /-- A simple statement is not followed by its end. -/
  | unfinishedStatement
  | unexpectedIndent
  | missingBlock
  | asyncAlone
  | decoratorAlone
  | mixedHandlers
  | missingExceptionType
  | tryAlone
  | nothingDeleted
  | trailingImportComma
  | missingCase
  | emptyTypeParams
  | afterVariadicKeyword
  | secondSlash
  | slashAfterStar
  | slashFirst
  | variadicKeywordDefault
  | secondStar
  | variadicDefault
  | bareStar
  | missingDefault
  | starredPattern
  | wildcardTarget
  | noPattern
  | noNumber
  | positionalPatternAfterKeyword
  | formattedPattern
  | realAfterReal
  | starredInParentheses
  | starredValue
  | starredAfterUnpacking
  | positionalAfterUnpacking
  | positionalAfterKeyword
  | lonelyStarredTarget
  | cannotAssign (nature : Nature)
  | cannotDelete (nature : Nature)
  | cannotAugment (nature : Nature)
  | cannotAnnotate (nature : Nature)
  | mixedBytes
  | escape (cause : EscapeCause)
  | fstring (cause : FStringCause)
  /-- The reading was given up before it came to its end. -/
  | unending
  deriving DecidableEq, Repr

namespace SyntaxCause

/-- The wording of a cause. -/
def message : SyntaxCause → Bytes
  | missing what => what.message
  | missingName role => text "Expected " ++ role.phrase
  | noExpression atEnd => if atEnd then text "Expected expression" else text "invalid syntax"
  | trailingTokens | unfinishedStatement => text "invalid syntax"
  | unexpectedIndent => text "unexpected indent"
  | missingBlock => text "expected an indented block"
  | asyncAlone => text "Expected 'def', 'for' or 'with' after 'async'"
  | decoratorAlone => text "Expected 'def' or 'class' after decorator"
  | mixedHandlers => text "cannot have both 'except' and 'except*' on the same 'try'"
  | missingExceptionType => text "expected one or more exception types"
  | tryAlone => text "Expected 'except' or 'finally' block"
  | nothingDeleted => text "Expected expression after 'del'"
  | trailingImportComma => text "trailing comma not allowed without surrounding parentheses"
  | missingCase => text "Expected 'case' in match statement"
  | emptyTypeParams => text "Type parameter list cannot be empty"
  | afterVariadicKeyword => text "arguments cannot follow var-keyword argument"
  | secondSlash => text "/ may appear only once"
  | slashAfterStar => text "/ must be ahead of *"
  | slashFirst => text "at least one argument must precede /"
  | variadicKeywordDefault => text "var-keyword argument cannot have default value"
  | secondStar => text "* argument may appear only once"
  | variadicDefault => text "var-positional argument cannot have default value"
  | bareStar => text "named arguments must follow bare *"
  | missingDefault => text "parameter without a default follows parameter with a default"
  | starredPattern => text "can't use starred pattern here"
  | wildcardTarget => text "cannot use '_' as a target"
  | noPattern => text "Expected pattern"
  | noNumber => text "Expected number after '-'"
  | positionalPatternAfterKeyword => text "positional patterns follow keyword patterns"
  | formattedPattern => text "patterns may only match literals and attribute lookups"
  | realAfterReal => text "imaginary number required in complex literal"
  | starredInParentheses => text "cannot use starred expression here"
  | starredValue => text "can't use starred expression here"
  | starredAfterUnpacking =>
    text "iterable argument unpacking follows keyword argument unpacking"
  | positionalAfterUnpacking => text "positional argument follows keyword argument unpacking"
  | positionalAfterKeyword => text "positional argument follows keyword argument"
  | lonelyStarredTarget => text "starred assignment target must be in a list or tuple"
  | cannotAssign nature => text "cannot assign to " ++ nature.phrase
  | cannotDelete nature => text "cannot delete " ++ nature.phrase
  | cannotAugment nature =>
    text "'" ++ nature.phrase ++ text "' is an illegal expression for augmented assignment"
  | cannotAnnotate nature =>
    if nature = .tuple ∨ nature = .list then
      text "only single target (not " ++ nature.phrase ++ text ") can be annotated"
    else text "illegal target for annotation: " ++ nature.phrase
  | mixedBytes => text "cannot mix bytes and nonbytes literals"
  | escape cause => cause.message
  | fstring cause => cause.message
  | unending => text "reading does not end"

/-- The spellings that would have been accepted, in the order of their bytes. -/
def expected : SyntaxCause → List Bytes
  | missing what => [what.spelling]
  | missingName _ => [text "NAME"]
  | noExpression _ | nothingDeleted => [text "expression"]
  | unfinishedStatement => [text ";", text "NEWLINE"]
  | missingBlock => [text "INDENT"]
  | asyncAlone => [text "def", text "for", text "with"]
  | decoratorAlone => [text "class", text "def"]
  | tryAlone => [text "except", text "finally"]
  | missingCase => [text "case"]
  | noPattern | noNumber => [text "pattern"]
  | _ => []

/-- Whether a reading was given up because one of its bounds was too small for the tokens ahead. -/
def isUnending : SyntaxCause → Bool
  | unending | fstring .unending => true
  | _ => false

end SyntaxCause

end SyntaxTree
