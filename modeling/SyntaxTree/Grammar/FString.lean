import SyntaxTree.Grammar.Literal
import SyntaxTree.Token.Text

/-
# The pieces of an f-string

The body of an f-string is literal text and replacement fields.  A field holds the source of an
expression, and behind it an optional equals sign that shows the source, an optional conversion and
an optional format specification, which is a list of pieces again.  The division into pieces needs
no grammar of expressions; where it fails, the fault is the last piece.
-/

namespace SyntaxTree.FString

/-- A piece of the body of an f-string. -/
inductive Piece where
  /-- Literal text, its escapes unread. -/
  | literal (s : Bytes)
  /-- A brace that is written twice. -/
  | brace (b : Byte)
  /-- A replacement field.  Its source begins `offset` bytes behind the beginning of the body, and
  `echo` is what an equals sign shows. -/
  | field (offset : Nat) (source echo : Bytes) (conversion : Option Conversion)
      (spec : Option (List Piece))
  /-- A fault at an offset of the body. -/
  | fault (cause : FStringCause) (offset : Nat)

/-! ## Literal text -/

/-- A brace of either direction. -/
def isBrace (b : Byte) : Bool := b == Byte.openBrace || b == Byte.closeBrace

/-- What follows the literal text at the beginning: nothing or a brace.  Braces in the escape of a
character by its name do not count; `inName` says that one is open. -/
def literalEnd (isRaw : Bool) : (inName : Bool) → Bytes → Bytes
  | _, [] => []
  | true, b :: s => literalEnd isRaw (b ≠ Byte.closeBrace) s
  | false, [b] => if isBrace b then [b] else []
  | false, b :: c :: s =>
    if isBrace b then b :: c :: s
    else if b = Byte.backslash ∧ !isRaw then
      if c = ascii 'N' ∧ s.head? = some Byte.openBrace then literalEnd isRaw true s
      else if isBrace c then c :: s
      else literalEnd isRaw false s
    else literalEnd isRaw false (c :: s)

theorem suffix_of_literalEnd (isRaw inName : Bool) (s : Bytes) :
    literalEnd isRaw inName s <:+ s := by
  fun_induction literalEnd isRaw inName s with grind [List.suffix_cons_iff]

/-- Literal text takes up at least one byte where no brace begins. -/
theorem length_literalEnd_lt {isRaw : Bool} {b : Byte} {s : Bytes} (h : isBrace b = false) :
    (literalEnd isRaw false (b :: s)).length < (b :: s).length := by
  match s with
  | [] => simp [literalEnd, h]
  | c :: s =>
    have h₁ := (suffix_of_literalEnd isRaw true s).length_le
    have h₂ := (suffix_of_literalEnd isRaw false s).length_le
    have h₃ := (suffix_of_literalEnd isRaw false (c :: s)).length_le
    grind [literalEnd]

/-! ## Fields -/

/-- What follows the closing quotes of a string literal that is open. -/
def afterQuoted (d : Delimiter) : Bytes → Bytes
  | [] => []
  | [_] => []
  | b :: c :: s =>
    if b = Byte.backslash then afterQuoted d s
    else if b = d.quote then
      if !d.triple then c :: s
      else if c = d.quote ∧ s.head? = some d.quote then s.tail
      else afterQuoted d (c :: s)
    else afterQuoted d (c :: s)

/-- What follows the string literal that begins with `quote`, where `s` stands behind that byte. -/
def afterString (quote : Byte) (s : Bytes) : Bytes :=
  if [quote, quote].isPrefixOf s then afterQuoted ⟨quote, true⟩ (s.drop 2)
  else afterQuoted ⟨quote, false⟩ s

theorem suffix_of_afterQuoted (d : Delimiter) (s : Bytes) : afterQuoted d s <:+ s := by
  fun_induction afterQuoted d s with grind [List.suffix_cons_iff, List.tail_suffix]

theorem suffix_of_afterString (quote : Byte) (s : Bytes) : afterString quote s <:+ s := by
  unfold afterString
  split
  · exact (suffix_of_afterQuoted _ _).trans (List.drop_suffix 2 s)
  · exact suffix_of_afterQuoted _ _

/-- White space between the tokens of a line. -/
def isGap (b : Byte) : Bool := b == Byte.space || b == Byte.tab

/-- Whether the equals sign in front of `s` shows the source of the field: neither part of another
operator nor followed by anything but the end of the expression. -/
def isEcho (previous : Option Byte) (s : Bytes) : Bool :=
  s.head? != some (ascii '=') &&
  previous.any (fun b => b ∉ text "=!<>") &&
  (s.dropWhile isGap).head?.any (· ∈ text "\x7d!:")

/-- Whether the expression of a field ends in front of `b`, outside of brackets. -/
def endsField (previous : Option Byte) (b : Byte) (s : Bytes) : Bool :=
  (b == ascii '!' && s.head? != some (ascii '=')) || b == ascii ':' ||
    (b == ascii '=' && isEcho previous s)

/-- What follows the expression of a field, behind `depth` open brackets and the byte `previous`:
a closing bracket, an exclamation mark, a colon, an equals sign, or nothing. -/
def fieldEnd (depth : Nat) (previous : Option Byte) (s : Bytes) : Bytes :=
  match s with
  | [] => []
  | b :: s =>
    if b.isQuote then
      have := (suffix_of_afterString b s).length_le
      fieldEnd depth (some b) (afterString b s)
    else if b ∈ text "([\x7b" then fieldEnd (depth + 1) (some b) s
    else if b ∈ text ")]\x7d" then
      if depth = 0 then b :: s else fieldEnd (depth - 1) (some b) s
    else if depth = 0 ∧ endsField previous b s then b :: s
    else fieldEnd depth (some b) s
termination_by s.length

theorem suffix_of_fieldEnd (depth : Nat) (previous : Option Byte) (s : Bytes) :
    fieldEnd depth previous s <:+ s := by
  fun_induction fieldEnd depth previous s with
    grind [List.suffix_cons_iff, suffix_of_afterString, List.IsSuffix.trans]

/-- White space, line ends included. -/
def isWhite (b : Byte) : Bool := b.isBlank || b.isLineEnd

/-- What follows the equals sign that shows the source, if `s` begins with it. -/
def echoEnd (s : Bytes) : Bytes :=
  if s.head? = some (ascii '=') then s.tail.dropWhile isGap else s

/-- The conversion with the given letter. -/
def conversion? (letter : Byte) : Option Conversion :=
  [Conversion.str, .repr, .ascii].find? (·.letter = letter)

/-- The conversion at the beginning and what follows; nothing if its letter is wrong. -/
def readConversion : Bytes → Option (Option Conversion × Bytes)
  | [] => some (none, [])
  | b :: s =>
    if b = ascii '!' then
      match s with
      | [] => none
      | letter :: rest => (conversion? letter).map fun conversion => (some conversion, rest)
    else some (none, b :: s)

/-! ## The division -/

/-- The part of `s` in front of its suffix `rest`. -/
def upTo (s rest : Bytes) : Bytes := s.take (s.length - rest.length)

/-- The pieces at the beginning of `s`, the end of a body of `size` bytes, and what follows them:
nothing, or a closing brace that belongs to no field.  Every step takes a byte, so a `limit` above
the number of bytes is enough; a smaller one may run out, which is a fault. -/
def divideUpTo (isRaw : Bool) (size : Nat) :
    (limit : Nat) → (inSpec : Bool) → Bytes → List Piece × Bytes
  | 0, _, s => ([.fault .unending (size - s.length)], [])
  | _ + 1, _, [] => ([], [])
  | limit + 1, inSpec, b :: s =>
    let place (rest : Bytes) := size - rest.length
    if b = Byte.openBrace then
      if !inSpec ∧ s.head? = some Byte.openBrace then
        let (pieces, rest) := divideUpTo isRaw size limit inSpec s.tail
        (.brace b :: pieces, rest)
      else match fieldEnd 0 none s with
      | [] => ([.fault .unclosedField (place (b :: s))], [])
      | stop :: tail =>
        let source := upTo s (stop :: tail)
        if source.all isWhite then ([.fault (.emptyExpression stop) (place (stop :: tail))], [])
        else
          let afterEcho := echoEnd (stop :: tail)
          let echo := if stop = ascii '=' then upTo s afterEcho else []
          match readConversion afterEcho with
          | none =>
            ([.field (place s) source echo none none,
              .fault .invalidConversion (place afterEcho.tail)], [])
          | some (conversion, afterConversion) =>
            let (spec, afterSpec) :=
              if afterConversion.head? = some (ascii ':') then
                let (pieces, rest) := divideUpTo isRaw size limit true afterConversion.tail
                (some pieces, rest)
              else (none, afterConversion)
            let field := Piece.field (place s) source echo conversion spec
            if afterSpec.head? = some Byte.closeBrace then
              let (pieces, rest) := divideUpTo isRaw size limit inSpec afterSpec.tail
              (field :: pieces, rest)
            else ([field, .fault .unclosedField (place afterSpec)], [])
    else if b = Byte.closeBrace then
      if !inSpec ∧ s.head? = some Byte.closeBrace then
        let (pieces, rest) := divideUpTo isRaw size limit inSpec s.tail
        (.brace b :: pieces, rest)
      else ([], b :: s)
    else
      let after := literalEnd isRaw false (b :: s)
      let (pieces, rest) := divideUpTo isRaw size limit inSpec after
      (.literal (upTo (b :: s) after).unifyLineEnds :: pieces, rest)

/-- The pieces of the body of an f-string. -/
def divide (isRaw : Bool) (body : Bytes) : List Piece :=
  let (pieces, rest) := divideUpTo isRaw body.length (body.length + 1) false body
  if rest = [] then pieces
  else pieces ++ [.fault .singleBrace (body.length - rest.length)]

end SyntaxTree.FString
