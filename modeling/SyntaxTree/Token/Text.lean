import SyntaxTree.Token.Basic

/-
# The extent of string literals

A string literal ends at its closing quote, an f-string at the closing quote outside of its
replacement fields, and a field holds expressions with literals of their own.  The constructs that
are open at a place form a stack, and one walk over the text keeps it.
-/

namespace SyntaxTree

/-- A quote and whether it is written three times. -/
structure Delimiter where
  quote : Byte
  triple : Bool
  deriving DecidableEq, Repr

/-- A construct that is open inside of a string literal. -/
inductive Frame where
  /-- The body of a string or bytes literal. -/
  | plain (delimiter : Delimiter) (bytes : Bool)
  /-- The literal part of an f-string. -/
  | formatted (delimiter : Delimiter)
  /-- The expression of a replacement field, behind `depth` open brackets and directly behind the
  letters of `word`; the delimiter is that of the f-string around it. -/
  | field (delimiter : Delimiter) (depth : Nat) (word : Bytes)
  /-- The format specification of a replacement field. -/
  | spec (delimiter : Delimiter)
  deriving DecidableEq, Repr

namespace Frame

/-- The fault of a source that ends inside of the construct. -/
def unterminated : Frame → LexicalCause
  | plain d _ => .unterminatedText d.triple
  | formatted d => .unterminatedFString d.triple
  | field .. | spec .. => .unterminatedField

end Frame

/-- The prefixes of string literals in small letters. -/
def stringPrefixes : List Bytes :=
  [text "r", text "b", text "f", text "u", text "rb", text "br", text "rf", text "fr"]

/-- Whether a word in front of a quote makes the literal behind it raw, bytes or formatted. -/
def isStringPrefix (word : Bytes) : Bool := stringPrefixes.contains word.toLower

/-- The frame of the literal that a delimiter opens behind a word. -/
def Frame.ofPrefix (word : Bytes) (delimiter : Delimiter) : Frame :=
  let letters := if isStringPrefix word then word.toLower else []
  if ascii 'f' ∈ letters then .formatted delimiter
  else .plain delimiter (ascii 'b' ∈ letters)

/-- What follows the constructs of the stack once all of them are closed. -/
def afterFrames : List Frame → Bytes → Except LexicalCause Bytes
  | [], s => .ok s
  | frame :: _, [] => .error frame.unterminated
  | .plain d bytes :: outer, b :: s =>
    let frame := Frame.plain d bytes
    if b = Byte.backslash then
      match s with
      | [] => .error frame.unterminated
      | [_] => afterFrames (frame :: outer) []
      | b₁ :: b₂ :: rest =>
        if b₁ = Byte.carriageReturn ∧ b₂ = Byte.lineFeed then afterFrames (frame :: outer) rest
        else afterFrames (frame :: outer) (b₂ :: rest)
    else if b.isLineEnd && !d.triple then .error frame.unterminated
    else if bytes && b.isNonAscii then .error .nonAsciiBytes
    else if b = d.quote then
      if d.triple then
        match s with
        | b₁ :: b₂ :: rest =>
          if b₁ = d.quote ∧ b₂ = d.quote then afterFrames outer rest
          else afterFrames (frame :: outer) (b₁ :: b₂ :: rest)
        | [b₁] => afterFrames (frame :: outer) [b₁]
        | [] => afterFrames (frame :: outer) []
      else afterFrames outer s
    else afterFrames (frame :: outer) s
  | .formatted d :: outer, b :: s =>
    let frame := Frame.formatted d
    if b = Byte.backslash then
      match s with
      | [] => .error frame.unterminated
      | [b₁] =>
        if b₁ = Byte.openBrace ∨ b₁ = Byte.closeBrace then afterFrames (frame :: outer) [b₁]
        else afterFrames (frame :: outer) []
      | b₁ :: b₂ :: rest =>
        if b₁ = Byte.openBrace ∨ b₁ = Byte.closeBrace then
          afterFrames (frame :: outer) (b₁ :: b₂ :: rest)
        else if b₁ = Byte.carriageReturn ∧ b₂ = Byte.lineFeed then
          afterFrames (frame :: outer) rest
        else afterFrames (frame :: outer) (b₂ :: rest)
    else if b.isLineEnd && !d.triple then .error frame.unterminated
    else if b = d.quote then
      if d.triple then
        match s with
        | b₁ :: b₂ :: rest =>
          if b₁ = d.quote ∧ b₂ = d.quote then afterFrames outer rest
          else afterFrames (frame :: outer) (b₁ :: b₂ :: rest)
        | [b₁] => afterFrames (frame :: outer) [b₁]
        | [] => afterFrames (frame :: outer) []
      else afterFrames outer s
    else if b = Byte.openBrace then
      match s with
      | [] => .error .unterminatedField
      | b₁ :: rest =>
        if b₁ = Byte.openBrace then afterFrames (frame :: outer) rest
        else afterFrames (.field d 0 [] :: frame :: outer) (b₁ :: rest)
    else afterFrames (frame :: outer) s
  | .field d depth word :: outer, b :: s =>
    if b.isQuote then
      match s with
      | b₁ :: b₂ :: rest =>
        if b₁ = b ∧ b₂ = b then
          afterFrames (.ofPrefix word ⟨b, true⟩ :: .field d depth [] :: outer) rest
        else
          afterFrames (.ofPrefix word ⟨b, false⟩ :: .field d depth [] :: outer) (b₁ :: b₂ :: rest)
      | [b₁] => afterFrames (.ofPrefix word ⟨b, false⟩ :: .field d depth [] :: outer) [b₁]
      | [] => .error (Frame.ofPrefix word ⟨b, false⟩).unterminated
    else if b = ascii '(' ∨ b = ascii '[' ∨ b = Byte.openBrace then
      afterFrames (.field d (depth + 1) [] :: outer) s
    else if b = ascii ')' ∨ b = ascii ']' then afterFrames (.field d (depth - 1) [] :: outer) s
    else if b = Byte.closeBrace then
      if depth = 0 then afterFrames outer s else afterFrames (.field d (depth - 1) [] :: outer) s
    else if b = ascii ':' ∧ depth = 0 then afterFrames (.spec d :: outer) s
    else afterFrames (.field d depth (if b.isLetter then word ++ [b] else []) :: outer) s
  | .spec d :: outer, b :: s =>
    let frame := Frame.spec d
    if b = Byte.openBrace then
      match s with
      | [] => .error .unterminatedField
      | b₁ :: rest =>
        if b₁ = Byte.openBrace then afterFrames (frame :: outer) rest
        else afterFrames (.field d 0 [] :: frame :: outer) (b₁ :: rest)
    else if b = Byte.closeBrace then afterFrames outer s
    else if b.isLineEnd && !d.triple then .error frame.unterminated
    else if b = d.quote then
      if d.triple then
        match s with
        | b₁ :: b₂ :: rest =>
          if b₁ = d.quote ∧ b₂ = d.quote then .error frame.unterminated
          else afterFrames (frame :: outer) (b₁ :: b₂ :: rest)
        | [b₁] => afterFrames (frame :: outer) [b₁]
        | [] => afterFrames (frame :: outer) []
      else .error frame.unterminated
    else afterFrames (frame :: outer) s

/-- What follows the literal that begins with a quote, behind the letters of its prefix. -/
def afterText (word : Bytes) (quote : Byte) (s : Bytes) : Except LexicalCause Bytes :=
  match s with
  | b₁ :: b₂ :: rest =>
    if b₁ = quote ∧ b₂ = quote then afterFrames [.ofPrefix word ⟨quote, true⟩] rest
    else afterFrames [.ofPrefix word ⟨quote, false⟩] s
  | _ => afterFrames [.ofPrefix word ⟨quote, false⟩] s

/-- The kind of the literal behind a prefix. -/
def textKind (word : Bytes) : TokenKind :=
  match Frame.ofPrefix word ⟨Byte.doubleQuote, false⟩ with
  | .formatted _ => .fstring
  | .plain _ true => .bytes
  | _ => .string

/-! ## What follows a literal is a suffix -/

theorem suffix_of_afterFrames {frames : List Frame} {s rest : Bytes}
    (h : afterFrames frames s = .ok rest) : rest <:+ s := by
  fun_induction afterFrames frames s <;> grind [List.suffix_cons_iff, List.suffix_refl]

theorem suffix_of_afterText {word : Bytes} {quote : Byte} {s rest : Bytes}
    (h : afterText word quote s = .ok rest) : rest <:+ s := by
  unfold afterText at h
  split at h <;> grind [suffix_of_afterFrames, List.suffix_cons_iff]

end SyntaxTree
