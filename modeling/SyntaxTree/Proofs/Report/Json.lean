import SyntaxTree.Grammar.Literal
import SyntaxTree.Proofs.Dump.Label
import SyntaxTree.Proofs.Number.Layout
import SyntaxTree.Proofs.Render.Tree
import SyntaxTree.Proofs.Text.Utf8

/-
# JSON

What a JSON text denotes, by a reader for programs that are given one: white space, words, numbers
in decimal notation, strings with their escapes, arrays and objects, in well-formed UTF-8.  A number
denotes its digits and a power of ten, so that nothing is rounded.

The second half says for the forms of a text what they are read as: natural numbers, decimals,
strings that need no escapes, and objects whose members are separated by commas.
-/

namespace SyntaxTree

/-- What a JSON text denotes.  The members of an object stand in the order of the text. -/
inductive Json where
  | null
  | boolean (b : Bool)
  /-- The number `mantissa * 10 ^ exponent`. -/
  | number (mantissa exponent : Int)
  | string (s : Bytes)
  | array (items : List Json)
  | object (members : List (Bytes × Json))

namespace Json

/-! ## White space and numbers -/

/-- White space between the parts of a text. -/
def isSpace (b : Byte) : Bool :=
  b == Byte.space || b == Byte.tab || b == Byte.lineFeed || b == Byte.carriageReturn

/-- What follows white space. -/
def skip (s : Bytes) : Bytes := s.dropWhile isSpace

/-- Digits, at least one, and what follows them. -/
def readDigits (s : Bytes) : Option (Bytes × Bytes) :=
  if s.takeWhile Byte.isDigit = [] then none
  else some (s.takeWhile Byte.isDigit, s.dropWhile Byte.isDigit)

/-- The digits of a whole number, which begin with a zero only if there are no others. -/
def readWhole (s : Bytes) : Option (Bytes × Bytes) :=
  (readDigits s).filter fun found => found.1.head? ≠ some (ascii '0') ∨ found.1.length = 1

/-- The digits behind a point, if there is one. -/
def readFraction (s : Bytes) : Option (Bytes × Bytes) :=
  if s.head? = some (ascii '.') then readDigits s.tail else some ([], s)

/-- The number behind the letter of an exponent, if there is one. -/
def readExponent (s : Bytes) : Option (Int × Bytes) :=
  if s.head? = some (ascii 'e') ∨ s.head? = some (ascii 'E') then
    let (isNegative, s) := Numeral.readSign s.tail
    (readDigits s).map fun (digits, rest) =>
      let magnitude : Int := Numeral.ofDigits 10 digits
      (if isNegative then -magnitude else magnitude, rest)
  else some (0, s)

/-- A number and what follows it. -/
def readNumber (s : Bytes) : Option (Json × Bytes) := do
  let isNegative := s.head? = some (ascii '-')
  let (whole, s) ← readWhole (if isNegative then s.tail else s)
  let (fraction, s) ← readFraction s
  let (exponent, s) ← readExponent s
  let magnitude : Int := Numeral.ofDigits 10 (whole ++ fraction)
  return (.number (if isNegative then -magnitude else magnitude) (exponent - fraction.length), s)

/-! ## Strings -/

/-- The byte that a letter behind a backslash denotes. -/
def escape? (letter : Byte) : Option Byte :=
  if letter = Byte.doubleQuote ∨ letter = Byte.backslash ∨ letter = ascii '/' then some letter
  else if letter = ascii 'b' then some 8
  else if letter = ascii 'f' then some Byte.formFeed
  else if letter = ascii 'n' then some Byte.lineFeed
  else if letter = ascii 'r' then some Byte.carriageReturn
  else if letter = ascii 't' then some Byte.tab
  else none

/-- The code point of two surrogates. -/
def ofSurrogates (high low : Nat) : Nat := 0x10000 + (high - 0xD800) * 0x400 + (low - 0xDC00)

/-- What a string denotes that has been opened, and what follows its closing quote.  A code point
beyond the first 65536 may be written as a pair of surrogates, and a surrogate only within a
pair. -/
def readString : Bytes → Option (Bytes × Bytes)
  | [] => none
  | b :: s =>
    if b = Byte.doubleQuote then some ([], s)
    else if b = Byte.backslash then
      match s with
      | [] => none
      | letter :: s =>
        match escape? letter with
        | some c => (readString s).map fun (value, rest) => (c :: value, rest)
        | none =>
          match s with
          | h₁ :: h₂ :: h₃ :: h₄ :: s =>
            match Literal.hexDigits? 4 [h₁, h₂, h₃, h₄] with
            | none => none
            | some code =>
              if letter ≠ ascii 'u' then none
              else if 0xD800 ≤ code ∧ code < 0xDC00 then
                match s with
                | back :: u :: l₁ :: l₂ :: l₃ :: l₄ :: s =>
                  match Literal.hexDigits? 4 [l₁, l₂, l₃, l₄] with
                  | none => none
                  | some low =>
                    if [back, u] = text "\\u" ∧ 0xDC00 ≤ low ∧ low < 0xE000 then
                      (readString s).map fun (value, rest) =>
                        (Utf8.encode (ofSurrogates code low) ++ value, rest)
                    else none
                | _ => none
              else if 0xDC00 ≤ code ∧ code < 0xE000 then none
              else (readString s).map fun (value, rest) => (Utf8.encode code ++ value, rest)
          | _ => none
    else if b < 0x20 then none
    else (readString s).map fun (value, rest) => (b :: value, rest)

/-! ## Arrays and objects -/

section Lists

variable {α : Type} (read : Bytes → Option (α × Bytes)) (close : Byte)

/-- Items with commas between them, at least one, and what follows the byte that closes them.  Every
item takes a byte, so the number of bytes is enough for a `limit`. -/
def readItems : (limit : Nat) → Bytes → Option (List α × Bytes)
  | 0, _ => none
  | limit + 1, s => do
    let (item, rest) ← read s
    match skip rest with
    | [] => none
    | b :: rest =>
      if b = close then some ([item], rest)
      else if b = ascii ',' then
        (readItems limit rest).map fun (items, rest) => (item :: items, rest)
      else none

/-- Items with commas between them, if there are any, and what follows the byte that closes them. -/
def readList (s : Bytes) : Option (List α × Bytes) :=
  match skip s with
  | [] => none
  | b :: rest => if b = close then some ([], rest) else readItems read close s.length s

end Lists

/-- A name, a colon and a value, and what follows them. -/
def readMember (read : Bytes → Option (Json × Bytes)) (s : Bytes) :
    Option ((Bytes × Json) × Bytes) := do
  let rest ← Bytes.dropPrefix? [Byte.doubleQuote] (skip s)
  let (name, rest) ← readString rest
  let rest ← Bytes.dropPrefix? [ascii ':'] (skip rest)
  let (value, rest) ← read rest
  return ((name, value), rest)

/-- A value in which less than `depth` others are nested, and what follows it. -/
def readValue : (depth : Nat) → Bytes → Option (Json × Bytes)
  | 0, _ => none
  | depth + 1, s =>
    match skip s with
    | [] => none
    | b :: s =>
      if b = Byte.openBrace then
        (readList (readMember (readValue depth)) Byte.closeBrace s).map fun (members, rest) =>
          (.object members, rest)
      else if b = ascii '[' then
        (readList (readValue depth) (ascii ']') s).map fun (items, rest) => (.array items, rest)
      else if b = Byte.doubleQuote then
        (readString s).map fun (value, rest) => (.string value, rest)
      else if b = ascii 'n' then
        (Bytes.dropPrefix? (text "ull") s).map fun rest => (.null, rest)
      else if b = ascii 't' then
        (Bytes.dropPrefix? (text "rue") s).map fun rest => (.boolean true, rest)
      else if b = ascii 'f' then
        (Bytes.dropPrefix? (text "alse") s).map fun rest => (.boolean false, rest)
      else readNumber (b :: s)

/-- What a text denotes.  It is well-formed UTF-8, and nothing follows the value but white space. -/
def ofBytes? (s : Bytes) : Option Json :=
  if (Utf8.decodeAll? s).isNone then none
  else match readValue (s.length + 1) s with
    | some (value, rest) => if skip rest = [] then some value else none
    | none => none

/-! ## Forms of a text -/

/-- A byte behind which a value does not go on. -/
def isMark (b : Byte) : Bool := isSpace b || b == ascii ',' || b == Byte.closeBrace

/-- What follows a value does not go on with it. -/
def IsEnd (rest : Bytes) : Prop := ∀ b ∈ rest.head?, isMark b

/-- A text denotes a value in which less than `depth` others are nested: it is well-formed UTF-8,
and the value is read wherever something follows that does not go on with it. -/
structure Denotes (depth : Nat) (s : Bytes) (value : Json) : Prop where
  wellFormed : (Utf8.decodeAll? s).isSome
  reads {rest : Bytes} (h : IsEnd rest) : readValue depth (s ++ rest) = some (value, rest)

/-- A text denotes a member of an object. -/
structure DenotesMember (depth : Nat) (s : Bytes) (member : Bytes × Json) : Prop where
  wellFormed : (Utf8.decodeAll? s).isSome
  reads {rest : Bytes} (h : IsEnd rest) :
    readMember (readValue depth) (s ++ rest) = some (member, rest)

theorem isSpace_iff_mem {b : Byte} :
    isSpace b ↔ b ∈ [Byte.space, Byte.tab, Byte.lineFeed, Byte.carriageReturn] := by
  simp only [isSpace, Bool.or_eq_true, beq_iff_eq, or_assoc, List.mem_cons, List.not_mem_nil,
    or_false]

theorem isMark_iff_mem {b : Byte} :
    isMark b ↔ b ∈ [Byte.space, Byte.tab, Byte.lineFeed, Byte.carriageReturn, ascii ',',
      Byte.closeBrace] := by
  simp only [isMark, isSpace, Bool.or_eq_true, beq_iff_eq, or_assoc, List.mem_cons,
    List.not_mem_nil, or_false]

theorem isDigit_of_isMark {b : Byte} (hb : isMark b) : b.isDigit = false := by
  have hmarks : [Byte.space, Byte.tab, Byte.lineFeed, Byte.carriageReturn, ascii ',',
      Byte.closeBrace].all (!·.isDigit) := rfl
  exact Bool.eq_false_of_not_eq_true' (List.all_eq_true.mp hmarks b (isMark_iff_mem.mp hb))

theorem isSpace_of_isDigit {b : Byte} (hb : b.isDigit) : isSpace b = false := by
  by_contra hspace
  have hmark : isMark b := by rw [isMark, Bool.eq_true_of_not_eq_false hspace]; rfl
  rw [isDigit_of_isMark hmark] at hb
  cases hb

theorem lt_of_isSpace {b : Byte} (hb : isSpace b) : b < 0x80 := by
  have hspaces : [Byte.space, Byte.tab, Byte.lineFeed, Byte.carriageReturn].all (· < 0x80) := rfl
  exact of_decide_eq_true (List.all_eq_true.mp hspaces b (isSpace_iff_mem.mp hb))

theorem isEnd_cons {b : Byte} (hb : isMark b) (s : Bytes) : IsEnd (b :: s) := by
  rintro _ ⟨⟩
  exact hb

/-- Nothing that follows a value is a digit or a part of a number. -/
theorem IsEnd.not_number {rest : Bytes} (h : IsEnd rest) :
    (∀ b ∈ rest.head?, b.isDigit = false) ∧ rest.head? ≠ some (ascii '.') ∧
      rest.head? ≠ some (ascii 'e') ∧ rest.head? ≠ some (ascii 'E') := by
  have hmark {b : Byte} (hb : rest.head? = some b) : isMark b := h b hb
  exact ⟨fun b hb => isDigit_of_isMark (hmark hb), fun hb => absurd (hmark hb) (by decide),
    fun hb => absurd (hmark hb) (by decide), fun hb => absurd (hmark hb) (by decide)⟩

theorem isSome_decodeAll?_append {s t : Bytes} (hs : (Utf8.decodeAll? s).isSome)
    (ht : (Utf8.decodeAll? t).isSome) : (Utf8.decodeAll? (s ++ t)).isSome := by
  obtain ⟨codes, hcodes⟩ := Option.isSome_iff_exists.mp hs
  obtain ⟨rfl, hscalars⟩ := Utf8.eq_encodeAll_of_decodeAll? hcodes
  rw [Utf8.decodeAll?_encodeAll_append hscalars, Option.isSome_map]
  exact ht

/-- Texts of ASCII are well-formed. -/
theorem isSome_decodeAll?_ascii {s : Bytes} (h : ∀ b ∈ s, b < 0x80) :
    (Utf8.decodeAll? s).isSome := by
  induction s with
  | nil => rw [Utf8.decodeAll?]; rfl
  | cons b s ih =>
    obtain ⟨hb, hs⟩ := List.forall_mem_cons.mp h
    have hdecode : Utf8.decode? (b :: s) = some (b.toNat, s) := by
      rw [Utf8.decode?, if_pos hb]
    rw [Utf8.decodeAll?_of_decode? hdecode, Option.isSome_map]
    exact ih hs

theorem isSome_decodeAll?_of_all {s : Bytes} (h : s.all (· < 0x80)) : (Utf8.decodeAll? s).isSome :=
  isSome_decodeAll?_ascii fun b hb => of_decide_eq_true (List.all_eq_true.mp h b hb)

/-! ### White space -/

theorem skip_append {white : Bytes} (h : white.all isSpace) (s : Bytes) :
    skip (white ++ s) = skip s :=
  List.dropWhile_append_of_pos (List.all_eq_true.mp h)

theorem isSome_decodeAll?_white {white : Bytes} (h : white.all isSpace) :
    (Utf8.decodeAll? white).isSome :=
  isSome_decodeAll?_ascii fun b hb => lt_of_isSpace (List.all_eq_true.mp h b hb)

theorem skip_cons_of_not {b : Byte} (h : isSpace b = false) (s : Bytes) : skip (b :: s) = b :: s :=
  List.dropWhile_cons_of_neg (by simp [h])

/-! ### Numbers -/

/-- Digits are read up to a byte that is none. -/
theorem readDigits_append {digits rest : Bytes} (hne : digits ≠ [])
    (hdigits : ∀ b ∈ digits, b.isDigit) (hrest : ∀ b ∈ rest.head?, b.isDigit = false) :
    readDigits (digits ++ rest) = some (digits, rest) := by
  have htake : rest.takeWhile Byte.isDigit = [] := by
    cases rest with
    | nil => rfl
    | cons b rest => exact List.takeWhile_cons_of_neg (by simp [hrest b rfl])
  have hdrop : rest.dropWhile Byte.isDigit = rest := by
    cases rest with
    | nil => rfl
    | cons b rest => exact List.dropWhile_cons_of_neg (by simp [hrest b rfl])
  rw [readDigits, List.takeWhile_append_of_pos hdigits, List.dropWhile_append_of_pos hdigits, htake,
    hdrop, List.append_nil, if_neg hne]

theorem head?_ofNat_ne {n : Nat} (h : n ≠ 0) : (Bytes.ofNat n).head? ≠ some (ascii '0') := by
  induction n using Nat.strongRecOn with
  | ind n ih =>
    have hdigit : ∀ m < 10, m ≠ 0 → Byte.digit m ≠ ascii '0' := by decide
    rw [Bytes.ofNat]
    split
    · next hsmall => exact fun hhead => hdigit n hsmall h (Option.some.inj hhead)
    · next hlarge =>
      rw [List.head?_append_of_ne_nil _ (Number.ofNat_ne_nil (n / 10))]
      exact ih (n / 10) (by omega) (by omega)

/-- A numeral has no zeros in front. -/
theorem readWhole_ofNat (n : Nat) {rest : Bytes} (hrest : ∀ b ∈ rest.head?, b.isDigit = false) :
    readWhole (Bytes.ofNat n ++ rest) = some (Bytes.ofNat n, rest) := by
  have hfirst : (Bytes.ofNat n).head? ≠ some (ascii '0') ∨ (Bytes.ofNat n).length = 1 := by
    by_cases hn : n = 0
    · right
      rw [hn, Bytes.ofNat]
      rfl
    · exact .inl (head?_ofNat_ne hn)
  rw [readWhole, readDigits_append (Number.ofNat_ne_nil n) (isDigit_of_mem_ofNat n) hrest]
  simp only [Option.filter_some, decide_eq_true hfirst, if_true]

/-- A number begins with a digit, which stands for itself. -/
theorem readNumber_ofNat (n : Nat) (rest : Bytes) :
    readNumber (Bytes.ofNat n ++ rest) = (do
      let (whole, s) ← readWhole (Bytes.ofNat n ++ rest)
      let (fraction, s) ← readFraction s
      let (exponent, s) ← readExponent s
      return (.number (Numeral.ofDigits 10 (whole ++ fraction)) (exponent - fraction.length),
      s)) := by
  have hsign : ¬(Bytes.ofNat n ++ rest).head? = some (ascii '-') := by
    intro hhead
    rw [List.head?_append_of_ne_nil _ (Number.ofNat_ne_nil n)] at hhead
    exact absurd (isDigit_of_mem_ofNat n _ (List.mem_of_mem_head? hhead)) (by decide)
  rw [readNumber]
  simp only [hsign, if_false]

theorem readExponent_of_isEnd {rest : Bytes} (h : IsEnd rest) :
    readExponent rest = some (0, rest) := by
  obtain ⟨-, -, hsmall, hcapital⟩ := h.not_number
  rw [readExponent, if_neg (not_or.mpr ⟨hsmall, hcapital⟩)]

/-- A value that begins with a digit is a number. -/
theorem readValue_ofNat (depth n : Nat) (rest : Bytes) :
    readValue (depth + 1) (Bytes.ofNat n ++ rest) = readNumber (Bytes.ofNat n ++ rest) := by
  have hdigit := isDigit_of_mem_ofNat n
  obtain ⟨b, s, hs⟩ := List.exists_cons_of_ne_nil (Number.ofNat_ne_nil n)
  rw [hs] at hdigit ⊢
  obtain ⟨hb, -⟩ := List.forall_mem_cons.mp hdigit
  have hspace : isSpace b = false := isSpace_of_isDigit hb
  have hne {c : Byte} (hc : c.isDigit = false) : b ≠ c := by
    rintro rfl
    rw [hb] at hc
    cases hc
  rw [List.cons_append, readValue, skip_cons_of_not hspace]
  dsimp only
  rw [if_neg (hne rfl), if_neg (hne rfl), if_neg (hne rfl), if_neg (hne rfl), if_neg (hne rfl),
    if_neg (hne rfl)]

theorem lt_of_isDigit {s : Bytes} (h : ∀ b ∈ s, b.isDigit) : ∀ b ∈ s, b < 0x80 := by
  intro b hb
  have hdigit := h b hb
  rw [Byte.isDigit, Bool.and_eq_true, decide_eq_true_eq, decide_eq_true_eq] at hdigit
  exact UInt8.lt_of_le_of_lt hdigit.2 (by decide)

/-- The numeral of a natural number. -/
theorem denotes_ofNat (depth n : Nat) : Denotes (depth + 1) (Bytes.ofNat n) (.number n 0) where
  wellFormed := isSome_decodeAll?_ascii (lt_of_isDigit (isDigit_of_mem_ofNat n))
  reads {rest} h := by
    obtain ⟨hdigit, hpoint, -, -⟩ := h.not_number
    rw [readValue_ofNat, readNumber_ofNat, readWhole_ofNat n hdigit]
    simp only [Option.bind_eq_bind, Option.bind_some, readFraction, if_neg hpoint,
      readExponent_of_isEnd h, List.append_nil, ofDigits_ofNat]
    rfl

/-- Digits behind a point divide by powers of ten. -/
theorem denotes_decimal (depth whole : Nat) {fraction : Bytes} (hne : fraction ≠ [])
    (hdigits : ∀ b ∈ fraction, b.isDigit) :
    Denotes (depth + 1) (Bytes.ofNat whole ++ ascii '.' :: fraction)
      (.number (Numeral.ofDigits 10 (Bytes.ofNat whole ++ fraction)) (-fraction.length)) where
  wellFormed := by
    refine isSome_decodeAll?_ascii
      (List.forall_mem_append.mpr ⟨?_, List.forall_mem_cons.mpr ⟨?_, ?_⟩⟩)
    · exact lt_of_isDigit (isDigit_of_mem_ofNat whole)
    · decide
    · exact lt_of_isDigit hdigits
  reads {rest} h := by
    obtain ⟨hdigit, -, -, -⟩ := h.not_number
    rw [List.append_assoc, List.cons_append, readValue_ofNat, readNumber_ofNat,
      readWhole_ofNat whole (by rintro _ ⟨⟩; rfl)]
    simp only [Option.bind_eq_bind, Option.bind_some, readFraction, List.head?_cons, if_true,
      List.tail_cons, readDigits_append hne hdigits hdigit, readExponent_of_isEnd h]
    rw [zero_sub]
    rfl

/-! ### Strings -/

/-- A code point that stands for itself in a string: no quote, no backslash and no control
character. -/
def isUnescaped (code : Nat) : Bool := 0x20 ≤ code && code != 0x22 && code != 0x5C

/-- A text that stands for itself in a string. -/
def isPlain (s : Bytes) : Bool := (Utf8.decodeAll? s).any (·.all isUnescaped)

theorem isPlain_iff {s : Bytes} :
    isPlain s ↔
      ∃ codes, (∀ c ∈ codes, Utf8.IsScalar c ∧ isUnescaped c) ∧ s = Utf8.encodeAll codes := by
  constructor
  · intro h
    cases hcodes : Utf8.decodeAll? s with
    | none =>
      rw [isPlain, hcodes] at h
      cases h
    | some codes =>
      rw [isPlain, hcodes] at h
      obtain ⟨hs, hscalars⟩ := Utf8.eq_encodeAll_of_decodeAll? hcodes
      exact ⟨codes, fun c hc => ⟨hscalars c hc, List.all_eq_true.mp h c hc⟩, hs⟩
  · rintro ⟨codes, hcodes, rfl⟩
    rw [isPlain, Utf8.decodeAll?_encodeAll fun c hc => (hcodes c hc).1]
    exact List.all_eq_true.mpr fun c hc => (hcodes c hc).2

theorem isSome_decodeAll?_of_isPlain {s : Bytes} (h : isPlain s) : (Utf8.decodeAll? s).isSome := by
  obtain ⟨codes, hcodes, rfl⟩ := isPlain_iff.mp h
  rw [Utf8.decodeAll?_encodeAll fun c hc => (hcodes c hc).1]
  rfl

/-- The bytes of a plain text are no quotes, no backslashes and no control characters. -/
theorem forall_mem_of_isPlain {s : Bytes} (h : isPlain s) :
    ∀ b ∈ s, b ≠ Byte.doubleQuote ∧ b ≠ Byte.backslash ∧ ¬ b < 0x20 := by
  obtain ⟨codes, hcodes, rfl⟩ := isPlain_iff.mp h
  intro b hb
  obtain ⟨code, hcode, hb⟩ := List.mem_flatMap.mp hb
  obtain ⟨hscalar, hunescaped⟩ := hcodes code hcode
  have hne {c : Byte} (hc : b.toNat ≠ c.toNat) : b ≠ c := fun h => hc (congrArg _ h)
  rw [UInt8.lt_iff_toNat_lt]
  by_cases hascii : code < 0x80
  · rw [Utf8.encode_ascii hascii] at hb
    have hbyte : b.toNat = code := by
      rw [List.mem_singleton.mp hb, Utf8.toNat_toUInt8]
      omega
    simp only [isUnescaped, Bool.and_eq_true, decide_eq_true_eq, bne_iff_ne] at hunescaped
    refine ⟨hne ?_, hne ?_, ?_⟩
    · exact hbyte ▸ hunescaped.1.2
    · exact hbyte ▸ hunescaped.2
    · exact hbyte ▸ Nat.not_lt.mpr hunescaped.1.1
  · have hlarge := Utf8.le_toNat_of_mem_encode (Nat.not_lt.mp hascii) hscalar.le b hb
    refine ⟨hne fun h => ?_, hne fun h => ?_, fun h => ?_⟩
    · rw [h] at hlarge
      exact absurd hlarge (by decide)
    · rw [h] at hlarge
      exact absurd hlarge (by decide)
    · exact absurd (Nat.lt_of_le_of_lt hlarge h) (by decide)

/-- A plain text is read up to the closing quote. -/
theorem readString_plain {s : Bytes} (h : isPlain s) (rest : Bytes) :
    readString (s ++ Byte.doubleQuote :: rest) = some (s, rest) := by
  have hbytes := forall_mem_of_isPlain h
  clear h
  induction s with
  | nil =>
    rw [List.nil_append, readString.eq_def]
    exact if_pos rfl
  | cons b s ih =>
    obtain ⟨⟨hquote, hback, hcontrol⟩, hs⟩ := List.forall_mem_cons.mp hbytes
    rw [List.cons_append, readString.eq_def]
    dsimp only
    rw [if_neg hquote, if_neg hback, if_neg hcontrol, ih hs, Option.map_some]

/-- The code point of a small letter for that of a capital one. -/
def lowerCode (code : Nat) : Nat := if 0x41 ≤ code ∧ code ≤ 0x5A then code + 0x20 else code

theorem toLower_encode {code : Nat} (h : Utf8.IsScalar code) :
    (Utf8.encode code).toLower = Utf8.encode (lowerCode code) := by
  by_cases hascii : code < 0x80
  · have hall : ∀ c < 0x80, (Utf8.encode c).toLower = Utf8.encode (lowerCode c) := by
      decide +kernel
    exact hall code hascii
  · have hlower : lowerCode code = code := if_neg (by omega)
    have hbyte (b : Byte) (hb : 0x80 ≤ b.toNat) : b.toLower = b := by
      have hupper : ¬ b.isUpper := by
        rw [Byte.isUpper, Bool.and_eq_true, decide_eq_true_eq, decide_eq_true_eq]
        exact fun h => absurd (Nat.le_trans hb (UInt8.le_iff_toNat_le.mp h.2)) (by decide)
      exact if_neg hupper
    have hlarge := Utf8.le_toNat_of_mem_encode (Nat.not_lt.mp hascii) h.le
    rw [hlower, Bytes.toLower]
    exact (List.map_congr_left fun b hb => hbyte b (hlarge b hb)).trans (List.map_id' _)

/-- A plain text stays plain in small letters. -/
theorem isPlain_toLower {s : Bytes} (h : isPlain s) : isPlain s.toLower := by
  obtain ⟨codes, hcodes, rfl⟩ := isPlain_iff.mp h
  refine isPlain_iff.mpr ⟨codes.map lowerCode, List.forall_mem_map.mpr fun c hc => ?_, ?_⟩
  · rw [lowerCode]
    split
    · next hupper =>
      refine ⟨⟨by omega, ?_⟩, ?_⟩
      · simp only [Utf8.IsSurrogate]
        omega
      · simp only [isUnescaped, Bool.and_eq_true, decide_eq_true_eq, bne_iff_ne]
        omega
    · exact hcodes c hc
  · rw [Utf8.encodeAll, Utf8.encodeAll, List.flatMap_map, Bytes.toLower, List.map_flatMap]
    exact List.flatMap_congr fun c hc => toLower_encode (hcodes c hc).1

/-! ### Members and objects -/

theorem readValue_append {white : Bytes} (h : white.all isSpace) (depth : Nat) (s : Bytes) :
    readValue (depth + 1) (white ++ s) = readValue (depth + 1) s := by
  rw [readValue, skip_append h, readValue]

/-- A plain name, a colon and a value. -/
theorem Denotes.member {depth : Nat} {white name s : Bytes} {value : Json}
    (h : Denotes (depth + 1) s value) (hname : isPlain name) (hwhite : white.all isSpace) :
    DenotesMember (depth + 1) (white ++ text "\"" ++ name ++ text "\": " ++ s) (name, value) where
  wellFormed := by
    have hwhite := isSome_decodeAll?_white hwhite
    have hquote := isSome_decodeAll?_of_all (show (text "\"").all (· < 0x80) from rfl)
    have hcolon := isSome_decodeAll?_of_all (show (text "\": ").all (· < 0x80) from rfl)
    exact isSome_decodeAll?_append (isSome_decodeAll?_append (isSome_decodeAll?_append
      (isSome_decodeAll?_append hwhite hquote) (isSome_decodeAll?_of_isPlain hname)) hcolon)
      h.wellFormed
  reads {rest} hrest := by
    have hread : readValue (depth + 1) (Byte.space :: (s ++ rest)) = some (value, rest) :=
      (readValue_append (show [Byte.space].all isSpace from rfl) depth (s ++ rest)).trans
        (h.reads hrest)
    have hopen : skip (white ++ text "\"" ++ name ++ text "\": " ++ s ++ rest) =
        [Byte.doubleQuote] ++ (name ++ Byte.doubleQuote :: (text ": " ++ s ++ rest)) := by
      simp only [List.append_assoc]
      rw [skip_append hwhite]
      exact skip_cons_of_not rfl _
    have hcolon : skip (text ": " ++ s ++ rest) = [ascii ':'] ++ Byte.space :: (s ++ rest) :=
      skip_cons_of_not rfl _
    rw [readMember, hopen, Bytes.dropPrefix?_append]
    simp only [Option.bind_eq_bind, Option.bind_some]
    rw [readString_plain hname]
    simp only [Option.bind_some]
    rw [hcolon, Bytes.dropPrefix?_append]
    simp only [Option.bind_some]
    rw [hread]
    rfl

/-- A member begins with the quote of its name. -/
theorem head?_skip_of_readMember {read : Bytes → Option (Json × Bytes)} {s rest : Bytes}
    {member : Bytes × Json} (h : readMember read s = some (member, rest)) :
    (skip s).head? = some Byte.doubleQuote := by
  obtain ⟨behind, hquote, -⟩ := Option.bind_eq_some_iff.mp h
  rw [Bytes.eq_append_of_dropPrefix? hquote]
  rfl

/-- There are as many bytes between items as there are items, but for one. -/
theorem length_le_joinWith {separator : Bytes} (hseparator : separator ≠ []) (items : List Bytes) :
    items.length ≤ (Bytes.joinWith separator items).length + 1 := by
  have hpos := List.length_pos_iff.mpr hseparator
  induction items with
  | nil => exact Nat.zero_le _
  | cons item rest ih =>
    cases rest with
    | nil => exact Nat.le_add_left 1 _
    | cons next rest =>
      rw [Bytes.joinWith, List.length_append, List.length_append, List.length_cons]
      · omega
      · exact List.cons_ne_nil next rest

theorem isEnd_white {white : Bytes} (h : white.all isSpace) (rest : Bytes) :
    IsEnd (white ++ Byte.closeBrace :: rest) := by
  cases white with
  | nil => exact isEnd_cons (by decide) rest
  | cons b white =>
    have hb : isSpace b := (List.all_eq_true.mp h) b List.mem_cons_self
    exact isEnd_cons (by rw [isMark, hb]; rfl) _

/-- Items that are read each in front of an end are read with commas between them. -/
theorem readItems_joinWith {α : Type} {read : Bytes → Option (α × Bytes)} {white : Bytes}
    (hwhite : white.all isSpace) {items : List (Bytes × α)} (hne : items ≠ [])
    (h : ∀ item ∈ items, ∀ {rest : Bytes}, IsEnd rest → read (item.1 ++ rest) = some (item.2, rest))
    {limit : Nat} (hlimit : items.length ≤ limit) (rest : Bytes) :
    readItems read Byte.closeBrace limit
        (Bytes.joinWith (text ",") (items.map (·.1)) ++ (white ++ Byte.closeBrace :: rest)) =
      some (items.map (·.2), rest) := by
  induction items generalizing limit with
  | nil => exact absurd rfl hne
  | cons item items ih =>
    obtain ⟨hitem, hitems⟩ := List.forall_mem_cons.mp h
    obtain ⟨limit, rfl⟩ := Nat.exists_eq_succ_of_ne_zero (Nat.ne_zero_of_lt hlimit)
    cases items with
    | nil =>
      have hskip : skip (white ++ Byte.closeBrace :: rest) = Byte.closeBrace :: rest :=
        (skip_append hwhite _).trans (skip_cons_of_not rfl _)
      rw [List.map_singleton, Bytes.joinWith, readItems, hitem (isEnd_white hwhite rest)]
      simp only [Option.bind_eq_bind, Option.bind_some, hskip, if_true, List.map_singleton]
    | cons next items =>
      have hmore := ih (List.cons_ne_nil next items) hitems (Nat.le_of_succ_le_succ hlimit)
      have hjoin : Bytes.joinWith (text ",") ((item :: next :: items).map (·.1)) =
          item.1 ++ text "," ++ Bytes.joinWith (text ",") ((next :: items).map (·.1)) := rfl
      have hread (behind : Bytes) :
          read (item.1 ++ (text "," ++ behind)) = some (item.2, text "," ++ behind) :=
        hitem (isEnd_cons (by decide) behind)
      rw [hjoin, List.append_assoc, List.append_assoc, readItems, hread]
      generalize Bytes.joinWith (text ",") ((next :: items).map (·.1)) ++ _ = behind at hmore ⊢
      have hskip : skip (text "," ++ behind) = ascii ',' :: behind := skip_cons_of_not rfl _
      simp only [Option.bind_eq_bind, Option.bind_some, hskip]
      rw [if_neg (by decide), if_pos trivial, hmore]
      rfl

/-- Where items are read, the first of them is. -/
theorem exists_of_readItems {α : Type} {read : Bytes → Option (α × Bytes)} {close : Byte}
    {limit : Nat} {s : Bytes} {result : List α × Bytes}
    (h : readItems read close limit s = some result) : ∃ item rest, read s = some (item, rest) := by
  cases limit with
  | zero => cases h
  | succ limit =>
    obtain ⟨⟨item, rest⟩, hread, -⟩ := Option.bind_eq_some_iff.mp h
    exact ⟨item, rest, hread⟩

theorem isSome_decodeAll?_joinWith {separator : Bytes}
    (hseparator : (Utf8.decodeAll? separator).isSome) {items : List Bytes}
    (h : ∀ item ∈ items, (Utf8.decodeAll? item).isSome) :
    (Utf8.decodeAll? (Bytes.joinWith separator items)).isSome := by
  induction items with
  | nil =>
    rw [Bytes.joinWith, Utf8.decodeAll?]
    rfl
  | cons item rest ih =>
    obtain ⟨hitem, hrest⟩ := List.forall_mem_cons.mp h
    cases rest with
    | nil => exact hitem
    | cons next rest =>
      rw [Bytes.joinWith]
      · exact isSome_decodeAll?_append (isSome_decodeAll?_append hitem hseparator) (ih hrest)
      · exact List.cons_ne_nil next rest

/-- An object that is empty. -/
theorem denotes_object_nil (depth : Nat) :
    Denotes (depth + 1) (text "\x7b\x7d") (.object []) where
  wellFormed := isSome_decodeAll?_of_all rfl
  reads {rest} _ := by
    have hopen : skip (text "\x7b\x7d" ++ rest) = Byte.openBrace :: Byte.closeBrace :: rest :=
      skip_cons_of_not rfl _
    have hclose : skip (Byte.closeBrace :: rest) = Byte.closeBrace :: rest := skip_cons_of_not rfl _
    rw [readValue, hopen]
    dsimp only
    rw [if_pos rfl, readList, hclose]
    rfl

/-- An object is denoted by its members with commas between them, in braces. -/
theorem denotes_object {depth : Nat} {white : Bytes} (hwhite : white.all isSpace)
    {items : List (Bytes × Bytes × Json)} (hne : items ≠ [])
    (h : ∀ item ∈ items, DenotesMember depth item.1 item.2) :
    Denotes (depth + 1)
      (text "\x7b" ++ Bytes.joinWith (text ",") (items.map (·.1)) ++ white ++ text "\x7d")
      (.object (items.map (·.2))) where
  wellFormed := by
    have hcomma := isSome_decodeAll?_of_all (show (text ",").all (· < 0x80) from rfl)
    have hopen := isSome_decodeAll?_of_all (show (text "\x7b").all (· < 0x80) from rfl)
    have hclose := isSome_decodeAll?_of_all (show (text "\x7d").all (· < 0x80) from rfl)
    refine isSome_decodeAll?_append (isSome_decodeAll?_append (isSome_decodeAll?_append hopen ?_)
      (isSome_decodeAll?_white hwhite)) hclose
    exact isSome_decodeAll?_joinWith hcomma
      (List.forall_mem_map.mpr fun item hitem => (h item hitem).wellFormed)
  reads {rest} _ := by
    have hlength : items.length ≤ (Bytes.joinWith (text ",") (items.map (·.1))).length + 1 := by
      have hjoin := length_le_joinWith (show text "," ≠ [] by decide) (items.map (·.1))
      rwa [List.length_map] at hjoin
    have hlimit : items.length ≤ (Bytes.joinWith (text ",") (items.map (·.1)) ++
        (white ++ Byte.closeBrace :: rest)).length := by
      rw [List.length_append, List.length_append, List.length_cons]
      omega
    have hitems :=
      readItems_joinWith hwhite hne (fun item hitem => (h item hitem).reads) hlimit rest
    have hopen :
        text "\x7b" ++ Bytes.joinWith (text ",") (items.map (·.1)) ++ white ++ text "\x7d" ++
        rest = Byte.openBrace :: (Bytes.joinWith (text ",") (items.map (·.1)) ++
          (white ++ Byte.closeBrace :: rest)) := by
      simp only [List.append_assoc]
      rfl
    rw [hopen]
    generalize Bytes.joinWith (text ",") (items.map (·.1)) ++ _ = body at hitems ⊢
    -- The first item is a member, so that the list is not taken for an empty one.
    obtain ⟨member, behind, hmember⟩ := exists_of_readItems hitems
    have hbody := List.eq_cons_of_mem_head? (head?_skip_of_readMember hmember)
    have hlist : readList (readMember (readValue depth)) Byte.closeBrace body =
        some (items.map (·.2), rest) := by
      rw [readList, hbody]
      dsimp only
      rw [if_neg (by decide), hitems]
    rw [readValue, skip_cons_of_not rfl]
    dsimp only
    rw [if_pos rfl, hlist]
    rfl

/-! ### Whole texts -/

/-- A text that denotes a value, and white space behind it. -/
theorem Denotes.ofBytes? {s white : Bytes} {value : Json} (hwhite : white.all isSpace)
    (h : Denotes ((s ++ white).length + 1) s value) : ofBytes? (s ++ white) = some value := by
  have hend : IsEnd white := by
    cases white with
    | nil => exact nofun
    | cons b white =>
      have hb : isSpace b := (List.all_eq_true.mp hwhite) b List.mem_cons_self
      exact isEnd_cons (by rw [isMark, hb]; rfl) _
  have hskip : skip white = [] := List.dropWhile_eq_nil_iff.mpr (List.all_eq_true.mp hwhite)
  have hutf8 := isSome_decodeAll?_append h.wellFormed (isSome_decodeAll?_white hwhite)
  rw [← Bool.not_eq_false, Option.isSome_eq_false_iff] at hutf8
  rw [Json.ofBytes?, if_neg hutf8, h.reads hend]
  exact if_pos hskip

end Json

end SyntaxTree
