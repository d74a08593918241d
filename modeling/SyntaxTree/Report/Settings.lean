import SyntaxTree.Number.Reading
import SyntaxTree.Render.Line

/-
# Settings

A style is set by pairs of an option and a value, and by the variables of an environment.  Numbers
are decimal and have an upper limit; words may be in capital or small letters.
-/

namespace SyntaxTree

/-- What the value of an option should have been. -/
inductive ExpectedValue where
  | positive
  | smaller
  | atMost (limit : Nat)
  | truthValue
  | quotes
  deriving DecidableEq, Repr

/-- The wording of an expected value. -/
def ExpectedValue.phrase : ExpectedValue → Bytes
  | positive => text "a positive integer"
  | smaller => text "a smaller integer"
  | atMost limit => text "at most " ++ Bytes.ofNat limit
  | truthValue => text "true or false"
  | quotes => text "single or double"

/-- A setting that cannot be made. -/
inductive SettingError where
  | unknownOption (option : Bytes)
  | badValue (option value : Bytes) (expected : ExpectedValue)
  deriving DecidableEq, Repr

/-- The wording of a fault in a setting. -/
def SettingError.message : SettingError → Bytes
  | unknownOption option => text "unknown generator option '" ++ option ++ text "'"
  | badValue option value expected =>
    text "invalid value '" ++ value ++ text "' for '" ++ option ++ text "': expected " ++
      expected.phrase

/-! ## Values -/

/-- The words for a true value. -/
def trueWords : List Bytes := [text "1", text "true", text "yes"]

/-- The words for a false value. -/
def falseWords : List Bytes := [text "0", text "false", text "no"]

/-- A positive number up to a limit, in at most nine digits. -/
def readNumber (limit : Nat) (value : Bytes) : Except ExpectedValue Int :=
  let number := Numeral.ofDigits 10 value
  if value = [] ∨ !value.all Byte.isDigit then .error .positive
  else if 9 < value.length then .error .smaller
  else if number = 0 then .error .positive
  else if limit < number then .error (.atMost limit)
  else .ok number

/-- A truth value. -/
def readTruthValue (value : Bytes) : Except ExpectedValue Bool :=
  if value.toLower ∈ trueWords then .ok true
  else if value.toLower ∈ falseWords then .ok false
  else .error .truthValue

/-- The kind of the preferred quotes: whether they are single. -/
def readQuotes (value : Bytes) : Except ExpectedValue Bool :=
  if value.toLower = text "single" then .ok true
  else if value.toLower = text "double" then .ok false
  else .error .quotes

/-! ## Options -/

/-- The options of a style. -/
inductive StyleOption where
  | indent | trailingCommas | maxLineLength | quotes
  deriving DecidableEq, Repr

namespace StyleOption

/-- All options, in the order in which the environment sets them. -/
def all : List StyleOption := [.indent, .trailingCommas, .maxLineLength, .quotes]

/-- The name of an option. -/
def name : StyleOption → Bytes
  | indent => text "indent"
  | trailingCommas => text "trailing-commas"
  | maxLineLength => text "max-line-length"
  | quotes => text "quotes"

/-- The option with the given name. -/
def ofName? (name : Bytes) : Option StyleOption := all.find? (·.name = name)

end StyleOption

namespace Style

/-- The style with another value of an option. -/
def withOption (option : StyleOption) (value : Bytes) (style : Style) :
    Except ExpectedValue Style :=
  match option with
  | .indent => (readNumber 16 value).map fun n => { style with indent := n }
  | .trailingCommas => (readTruthValue value).map fun b => { style with trailingCommas := b }
  | .maxLineLength => (readNumber 100000 value).map fun n => { style with maxLineLength := n }
  | .quotes => (readQuotes value).map fun b => { style with singleQuotes := b }

/-- The style with another value of the option that is named. -/
def set (name value : Bytes) (style : Style) : Except SettingError Style :=
  match StyleOption.ofName? name with
  | none => .error (.unknownOption name)
  | some option => (style.withOption option value).mapError (.badValue name value)

end Style

/-! ## The environment -/

/-- The variables of an environment and their values. -/
abbrev Environment := List (Bytes × Bytes)

namespace Environment

/-- The variable of a family of programs that stands for an option: both in capital letters, and
words joined by underscores. -/
def variableName (family option : Bytes) : Bytes :=
  Bytes.toUpper (family ++ text "_" ++
    option.map fun b => if b = ascii '-' then Byte.underscore else b)

/-- The value of an option; a value ends at its first NUL byte. -/
def get? (family option : Bytes) (env : Environment) : Option Bytes :=
  (env.lookup (variableName family option)).map Bytes.untilNul

/-- The style that an environment sets. -/
def style (family : Bytes) (env : Environment) : Except SettingError Style :=
  StyleOption.all.foldlM (fun style option =>
    match env.get? family option.name with
    | none => .ok style
    | some value => style.set option.name value) .default

/-- Whether an environment asks for colours. -/
def wantsColor (family : Bytes) (env : Environment) : Bool :=
  match env.get? family (text "color") with
  | none => false
  | some value => value.toLower ∈ trueWords

end Environment

end SyntaxTree
