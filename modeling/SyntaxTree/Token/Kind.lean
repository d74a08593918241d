import SyntaxTree.Text.Bytes

/-
# Kinds of tokens

Layout, keywords, operators, and the tokens whose text carries a value.  The words `match`, `case`,
`type` and `_` are ordinary identifiers.
-/

namespace SyntaxTree

/-- What a token is: layout and comments, a keyword, an operator or a bracket, or a name or
literal. -/
inductive TokenKind where
  | endOfInput | newline | indent | dedent | comment
  | kwAnd | kwAs | kwAssert | kwAsync | kwAwait | kwBreak
  | kwClass | kwContinue | kwDef | kwDel | kwElif | kwElse
  | kwExcept | kwFinally | kwFor | kwFrom | kwGlobal | kwIf
  | kwImport | kwIn | kwIs | kwLambda | kwNonlocal | kwNot
  | kwOr | kwPass | kwRaise | kwReturn | kwTry | kwWhile
  | kwWith | kwYield | boolean | noneWord
  | arrow | colon | colonEqual | semicolon | comma | dot
  | ellipsis | equal | atSign | atEqual | plusEqual | plus
  | minusEqual | minus | starEqual | star | doubleStarEqual | doubleStar
  | slashEqual | slash | doubleSlashEqual | doubleSlash | percentEqual | percent
  | shiftLeftEqual | shiftLeft | shiftRightEqual | shiftRight | ampersandEqual | ampersand
  | caretEqual | caret | pipeEqual | pipe | tilde | equalEqual
  | notEqual | less | lessEqual | greater | greaterEqual | openParen
  | closeParen | openBracket | closeBracket | openBrace | closeBrace
  | identifier | integer | float | imaginary | string | bytes
  | fstring
  deriving DecidableEq, Repr

namespace TokenKind

/-- All kinds: layout, keywords, operators, names and literals. -/
def all : List TokenKind := [
  .endOfInput, .newline, .indent, .dedent, .comment, .kwAnd, .kwAs, .kwAssert, .kwAsync,
  .kwAwait, .kwBreak, .kwClass, .kwContinue, .kwDef, .kwDel, .kwElif, .kwElse, .kwExcept,
  .kwFinally, .kwFor, .kwFrom, .kwGlobal, .kwIf, .kwImport, .kwIn, .kwIs, .kwLambda, .kwNonlocal,
  .kwNot, .kwOr, .kwPass, .kwRaise, .kwReturn, .kwTry, .kwWhile, .kwWith, .kwYield, .boolean,
  .noneWord, .arrow, .colon, .colonEqual, .semicolon, .comma, .dot, .ellipsis, .equal, .atSign,
  .atEqual, .plusEqual, .plus, .minusEqual, .minus, .starEqual, .star, .doubleStarEqual,
  .doubleStar, .slashEqual, .slash, .doubleSlashEqual, .doubleSlash, .percentEqual, .percent,
  .shiftLeftEqual, .shiftLeft, .shiftRightEqual, .shiftRight, .ampersandEqual, .ampersand,
  .caretEqual, .caret, .pipeEqual, .pipe, .tilde, .equalEqual, .notEqual, .less, .lessEqual,
  .greater, .greaterEqual, .openParen, .closeParen, .openBracket, .closeBracket, .openBrace,
  .closeBrace, .identifier, .integer, .float, .imaginary, .string, .bytes, .fstring]

/-- The name of a kind. -/
def name : TokenKind → String
  | .endOfInput => "End"
  | .newline => "Newline"
  | .indent => "Indent"
  | .dedent => "Dedent"
  | .comment => "Comment"
  | .kwAnd => "And"
  | .kwAs => "As"
  | .kwAssert => "Assert"
  | .kwAsync => "Async"
  | .kwAwait => "Await"
  | .kwBreak => "Break"
  | .kwClass => "Class"
  | .kwContinue => "Continue"
  | .kwDef => "Def"
  | .kwDel => "Del"
  | .kwElif => "Elif"
  | .kwElse => "Else"
  | .kwExcept => "Except"
  | .kwFinally => "Finally"
  | .kwFor => "For"
  | .kwFrom => "From"
  | .kwGlobal => "Global"
  | .kwIf => "If"
  | .kwImport => "Import"
  | .kwIn => "In"
  | .kwIs => "Is"
  | .kwLambda => "Lambda"
  | .kwNonlocal => "Nonlocal"
  | .kwNot => "Not"
  | .kwOr => "Or"
  | .kwPass => "Pass"
  | .kwRaise => "Raise"
  | .kwReturn => "Return"
  | .kwTry => "Try"
  | .kwWhile => "While"
  | .kwWith => "With"
  | .kwYield => "Yield"
  | .boolean => "BoolLit"
  | .noneWord => "NoneLit"
  | .arrow => "Arrow"
  | .colon => "Colon"
  | .colonEqual => "ColonEqual"
  | .semicolon => "Semicolon"
  | .comma => "Comma"
  | .dot => "Dot"
  | .ellipsis => "Ellipsis"
  | .equal => "Equal"
  | .atSign => "At"
  | .atEqual => "AtEqual"
  | .plusEqual => "PlusEqual"
  | .plus => "Plus"
  | .minusEqual => "MinusEqual"
  | .minus => "Minus"
  | .starEqual => "StarEqual"
  | .star => "Star"
  | .doubleStarEqual => "StarStarEqual"
  | .doubleStar => "StarStar"
  | .slashEqual => "SlashEqual"
  | .slash => "Slash"
  | .doubleSlashEqual => "SlashSlashEqual"
  | .doubleSlash => "SlashSlash"
  | .percentEqual => "PercentEqual"
  | .percent => "Percent"
  | .shiftLeftEqual => "LShiftEqual"
  | .shiftLeft => "LShift"
  | .shiftRightEqual => "RShiftEqual"
  | .shiftRight => "RShift"
  | .ampersandEqual => "AmpEqual"
  | .ampersand => "Amp"
  | .caretEqual => "CaretEqual"
  | .caret => "Caret"
  | .pipeEqual => "PipeEqual"
  | .pipe => "Pipe"
  | .tilde => "Tilde"
  | .equalEqual => "EqEq"
  | .notEqual => "NotEq"
  | .less => "Lt"
  | .lessEqual => "Le"
  | .greater => "Gt"
  | .greaterEqual => "Ge"
  | .openParen => "LParen"
  | .closeParen => "RParen"
  | .openBracket => "LBracket"
  | .closeBracket => "RBracket"
  | .openBrace => "LBrace"
  | .closeBrace => "RBrace"
  | .identifier => "Ident"
  | .integer => "Int"
  | .float => "Float"
  | .imaginary => "Imag"
  | .string => "String"
  | .bytes => "Bytes"
  | .fstring => "FString"

/-! ## Spellings -/

/-- The reserved words. -/
def keywords : List (Bytes × TokenKind) := [
  (text "and", .kwAnd), (text "as", .kwAs), (text "assert", .kwAssert), (text "async", .kwAsync),
  (text "await", .kwAwait), (text "break", .kwBreak), (text "class", .kwClass),
  (text "continue", .kwContinue), (text "def", .kwDef), (text "del", .kwDel),
  (text "elif", .kwElif), (text "else", .kwElse), (text "except", .kwExcept),
  (text "finally", .kwFinally), (text "for", .kwFor), (text "from", .kwFrom),
  (text "global", .kwGlobal), (text "if", .kwIf), (text "import", .kwImport), (text "in", .kwIn),
  (text "is", .kwIs), (text "lambda", .kwLambda), (text "nonlocal", .kwNonlocal),
  (text "not", .kwNot), (text "or", .kwOr), (text "pass", .kwPass), (text "raise", .kwRaise),
  (text "return", .kwReturn), (text "try", .kwTry), (text "while", .kwWhile),
  (text "with", .kwWith), (text "yield", .kwYield), (text "True", .boolean),
  (text "False", .boolean), (text "None", .noneWord)]

/-- The operators and brackets, longer spellings before their beginnings. -/
def operators : List (Bytes × TokenKind) := [
  (text "**=", .doubleStarEqual), (text "//=", .doubleSlashEqual),
  (text ">>=", .shiftRightEqual), (text "<<=", .shiftLeftEqual), (text "...", .ellipsis),
  (text "->", .arrow), (text ":=", .colonEqual), (text "**", .doubleStar),
  (text "//", .doubleSlash), (text "<<", .shiftLeft), (text ">>", .shiftRight),
  (text "<=", .lessEqual), (text ">=", .greaterEqual), (text "==", .equalEqual),
  (text "!=", .notEqual), (text "+=", .plusEqual), (text "-=", .minusEqual),
  (text "*=", .starEqual), (text "/=", .slashEqual), (text "%=", .percentEqual),
  (text "&=", .ampersandEqual), (text "|=", .pipeEqual), (text "^=", .caretEqual),
  (text "@=", .atEqual), (text "+", .plus), (text "-", .minus), (text "*", .star),
  (text "/", .slash), (text "%", .percent), (text "@", .atSign), (text "&", .ampersand),
  (text "|", .pipe), (text "^", .caret), (text "~", .tilde), (text "<", .less),
  (text ">", .greater), (text "(", .openParen), (text ")", .closeParen),
  (text "[", .openBracket), (text "]", .closeBracket), (text "\x7b", .openBrace),
  (text "\x7d", .closeBrace), (text ",", .comma), (text ":", .colon), (text ";", .semicolon),
  (text ".", .dot), (text "=", .equal)]

/-- The kind of a word: a keyword or an identifier. -/
def ofWord (word : Bytes) : TokenKind := (keywords.lookup word).getD .identifier

/-- An opening bracket of any of the three shapes. -/
def isOpening : TokenKind → Bool
  | .openParen | .openBracket | .openBrace => true
  | _ => false

/-- A closing bracket of any of the three shapes. -/
def isClosing : TokenKind → Bool
  | .closeParen | .closeBracket | .closeBrace => true
  | _ => false

/-- A token that only shows the layout of lines. -/
def isLayout : TokenKind → Bool
  | .newline | .indent | .dedent => true
  | _ => false

/-- A string, bytes or f-string literal. -/
def isText : TokenKind → Bool
  | .string | .bytes | .fstring => true
  | _ => false

/-- A numeric literal. -/
def isNumber : TokenKind → Bool
  | .integer | .float | .imaginary => true
  | _ => false

end TokenKind

end SyntaxTree
