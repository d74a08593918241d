import SyntaxTree.Grammar.FString
import SyntaxTree.Proofs.Text.Utf8
import SyntaxTree.Proofs.Token.Frame
import SyntaxTree.Render.Quoted

/-
# Escapes

The body of a written literal is a sequence of pieces, each a plain byte or an escape.  A piece is
passed over by the walk that looks for the closing quote, and reads as the bytes that it was written
for, whatever stands behind it.
-/

namespace SyntaxTree

open Literal Render

/-! ## Escaped texts -/

/-- A byte with which a backslash forms one pair for every reader: it ends no line, is no brace and
does not announce the name of a character. -/
def Byte.isEscapable (b : Byte) : Bool :=
  !b.isLineEnd && !b.isNonAscii && b != ascii 'N' && !FString.isBrace b

/-- Texts in which a backslash is paired with an escapable byte, and any other byte is of a
class. -/
inductive IsEscaped (isOf : Byte → Bool) : Bytes → Prop where
  | nil : IsEscaped isOf []
  | plain {b : Byte} {s : Bytes} (hb : b ≠ Byte.backslash) (hof : isOf b)
    (hs : IsEscaped isOf s) : IsEscaped isOf (b :: s)
  | pair {b : Byte} {s : Bytes} (hb : b.isEscapable) (hs : IsEscaped isOf s) :
    IsEscaped isOf (Byte.backslash :: b :: s)

namespace IsEscaped

variable {isOf : Byte → Bool} {s t : Bytes}

theorem append (hs : IsEscaped isOf s) (ht : IsEscaped isOf t) : IsEscaped isOf (s ++ t) := by
  induction hs with
  | nil => exact ht
  | plain hb hof _ ih => exact .plain hb hof ih
  | pair hb _ ih => exact .pair hb ih

/-- A text without backslashes whose bytes are all of the class. -/
theorem of_forall (h : ∀ b ∈ s, b ≠ Byte.backslash ∧ isOf b) : IsEscaped isOf s := by
  induction s with
  | nil => exact .nil
  | cons b s ih =>
    obtain ⟨⟨hb, hof⟩, hs⟩ := List.forall_mem_cons.mp h
    exact .plain hb hof (ih hs)

/-- A class without line ends admits none at all. -/
theorem not_isLineEnd (hclass : ∀ b, isOf b → b.isLineEnd = false) (hs : IsEscaped isOf s) :
    ∀ b ∈ s, b.isLineEnd = false := by
  induction hs with
  | nil => exact List.forall_mem_nil _
  | plain _ hof _ ih => exact List.forall_mem_cons.mpr ⟨hclass _ hof, ih⟩
  | @pair b s hb _ ih =>
    have hend : b.isLineEnd = false := by
      simp only [Byte.isEscapable, Bool.and_eq_true, Bool.not_eq_true'] at hb
      exact hb.1.1.1
    exact List.forall_mem_cons.mpr ⟨rfl, List.forall_mem_cons.mpr ⟨hend, ih⟩⟩

end IsEscaped

/-- Without carriage returns there is nothing to unify. -/
theorem Bytes.unifyLineEnds_of_notMem {s : Bytes} (h : ∀ b ∈ s, b.isLineEnd = false) :
    s.unifyLineEnds = s := by
  induction s with
  | nil => rfl
  | cons b s ih =>
    obtain ⟨hb, hs⟩ := List.forall_mem_cons.mp h
    have hreturn : b ≠ Byte.carriageReturn := by
      rintro rfl
      exact nomatch hb
    rw [unifyLineEnds, if_neg hreturn, ih hs]

/-! ## Classes of plain bytes -/

namespace Byte

/-- A byte that stands for itself in a string literal between two quotes. -/
def isText (quote b : Byte) : Bool := b != quote && !b.isLineEnd

/-- A byte that stands for itself in a bytes literal between two quotes. -/
def isRawText (quote b : Byte) : Bool := isText quote b && !b.isNonAscii

/-- A byte that stands for itself in the literal part of an f-string between two quotes. -/
def isLiteralText (quote b : Byte) : Bool := isText quote b && !FString.isBrace b

variable {quote b : Byte}

theorem isText_iff : isText quote b ↔ b ≠ quote ∧ b.isLineEnd = false := by
  simp [isText]

theorem isQuote_iff : b.isQuote ↔ b = doubleQuote ∨ b = singleQuote := by
  simp [isQuote]

theorem isText_of_isRawText (h : isRawText quote b) : isText quote b :=
  (Bool.and_eq_true _ _ ▸ h).1

theorem ne_backslash_of_isQuote (h : b.isQuote) : b ≠ backslash := by
  rintro rfl
  exact nomatch h

end Byte

/-! ## Pieces of a literal -/

/-- A piece of the body of a literal that is read as a value, whatever stands behind it and whatever
names characters have. -/
structure Encodes (isBytes : Bool) (isOf : Byte → Bool) (piece value : Bytes) : Prop where
  escaped : IsEscaped isOf piece
  unescape : ∀ names rest, unescape names isBytes (piece ++ rest) =
    (Literal.unescape names isBytes rest).map (value ++ ·)

namespace Encodes

variable {isBytes : Bool} {isOf : Byte → Bool} {piece piece' value value' : Bytes} {b : Byte}

theorem nil : Encodes isBytes isOf [] [] where
  escaped := .nil
  unescape names rest := by
    rw [List.nil_append]
    cases Literal.unescape names isBytes rest <;> rfl

theorem append (h : Encodes isBytes isOf piece value) (h' : Encodes isBytes isOf piece' value') :
    Encodes isBytes isOf (piece ++ piece') (value ++ value') where
  escaped := h.escaped.append h'.escaped
  unescape names rest := by
    rw [List.append_assoc, h.unescape, h'.unescape]
    cases Literal.unescape names isBytes rest with
    | error => rfl
    | ok rest => exact congrArg Except.ok (List.append_assoc value value' rest).symm

/-- The pieces of a text that is written item by item. -/
theorem flatMap {ι : Type} {pieces values : ι → Bytes} {items : List ι}
    (h : ∀ i ∈ items, Encodes isBytes isOf (pieces i) (values i)) :
    Encodes isBytes isOf (items.flatMap pieces) (items.flatMap values) := by
  induction items with
  | nil => exact nil
  | cons i items ih =>
    obtain ⟨hi, hitems⟩ := List.forall_mem_cons.mp h
    exact hi.append (ih hitems)

/-- A byte that stands for itself. -/
theorem plain (hb : b ≠ Byte.backslash) (hof : isOf b) : Encodes isBytes isOf [b] [b] where
  escaped := .plain hb hof .nil
  unescape _ rest := by
    cases rest with
    | nil => rw [List.append_nil, Literal.unescape, Literal.unescape]; rfl
    | cons c rest => rw [List.singleton_append, Literal.unescape, if_neg hb]; rfl

/-- An escape that begins with a letter behind the backslash. -/
theorem pair {t : Bytes} (hb : b.isEscapable) (ht : IsEscaped isOf t)
    (hread : ∀ names rest, readEscape names isBytes b (t ++ rest) = .ok (value, rest)) :
    Encodes isBytes isOf (Byte.backslash :: b :: t) value where
  escaped := .pair hb ht
  unescape names rest := by
    rw [List.cons_append, List.cons_append, Literal.unescape, if_pos rfl]
    split
    · rename_i herror
      cases (hread names rest).symm.trans herror
    · rename_i hok
      obtain ⟨rfl, rfl⟩ := Prod.mk.inj (Except.ok.inj ((hread names rest).symm.trans hok))
      rfl

/-- A backslash and a letter that denotes a byte. -/
theorem simple {letter : Byte} (hletter : letter.isEscapable)
    (hread : simpleEscape? letter = some b) :
    Encodes isBytes isOf [Byte.backslash, letter] [b] := by
  refine pair hletter .nil fun names rest => ?_
  have hfeed : letter ≠ Byte.lineFeed := by
    rintro rfl
    exact nomatch hletter
  rw [readEscape, if_neg hfeed, hread]
  rfl

/-- The whole body of a literal. -/
theorem unescape_eq (h : Encodes isBytes isOf piece value) (names : Unicode.CharacterNames) :
    Literal.unescape names isBytes piece = .ok value := by
  have hread := h.unescape names []
  rw [List.append_nil, Literal.unescape] at hread
  rw [hread]
  exact congrArg Except.ok (List.append_nil value)

end Encodes

/-! ## Hexadecimal digits -/

/-- A hexadecimal digit denotes the number it was written for. -/
theorem digitValue_hexDigit : ∀ n < 16, Numeral.digitValue (Byte.hexDigit n) = n := by decide

/-- A hexadecimal digit is a plain byte of every literal. -/
theorem hexDigit_plain : ∀ n < 16, (Byte.hexDigit n).isHexDigit ∧
    Byte.hexDigit n ≠ Byte.backslash ∧ (Byte.hexDigit n).isQuote = false ∧
      (Byte.hexDigit n).isLineEnd = false ∧ (Byte.hexDigit n).isNonAscii = false ∧
        FString.isBrace (Byte.hexDigit n) = false := by
  decide

/-- A class that admits the hexadecimal digits. -/
def AdmitsDigits (isOf : Byte → Bool) : Prop := ∀ n < 16, isOf (Byte.hexDigit n)

theorem admitsDigits_isText {quote : Byte} (hquote : quote.isQuote) :
    AdmitsDigits (Byte.isText quote) := by
  intro n hn
  obtain ⟨-, -, hdigit, hend, -⟩ := hexDigit_plain n hn
  refine Byte.isText_iff.mpr ⟨?_, hend⟩
  rintro rfl
  exact nomatch hdigit.symm.trans hquote

theorem admitsDigits_isRawText {quote : Byte} (hquote : quote.isQuote) :
    AdmitsDigits (Byte.isRawText quote) := by
  intro n hn
  rw [Byte.isRawText, admitsDigits_isText hquote n hn, (hexDigit_plain n hn).2.2.2.2.1]
  rfl

theorem admitsDigits_isLiteralText {quote : Byte} (hquote : quote.isQuote) :
    AdmitsDigits (Byte.isLiteralText quote) := by
  intro n hn
  rw [Byte.isLiteralText, admitsDigits_isText hquote n hn, (hexDigit_plain n hn).2.2.2.2.2]
  rfl

/-- Written digits are plain bytes. -/
theorem isEscaped_hexDigits {isOf : Byte → Bool} (hdigits : AdmitsDigits isOf) {ns : List Nat}
    (hns : ∀ n ∈ ns, n < 16) : IsEscaped isOf (ns.map Byte.hexDigit) :=
  IsEscaped.of_forall <| List.forall_mem_map.mpr fun n hn =>
    ⟨(hexDigit_plain n (hns n hn)).2.1, hdigits n (hns n hn)⟩

/-- Written digits read back in front of any text. -/
theorem hexDigits?_append {ns : List Nat} (hns : ∀ n ∈ ns, n < 16) (rest : Bytes) :
    hexDigits? ns.length (ns.map Byte.hexDigit ++ rest) =
      some (ns.foldl (fun m n => m * 16 + n) 0) := by
  have htake : (ns.map Byte.hexDigit ++ rest).take ns.length = ns.map Byte.hexDigit :=
    List.take_left' (List.length_map _)
  have hall : (ns.map Byte.hexDigit).all Byte.isHexDigit := by
    refine List.all_eq_true.mpr (List.forall_mem_map.mpr fun n hn => ?_)
    exact (hexDigit_plain n (hns n hn)).1
  have hvalue : Numeral.ofDigits 16 (ns.map Byte.hexDigit) =
      ns.foldl (fun m n => m * 16 + n) 0 := by
    rw [Numeral.ofDigits, List.foldl_map]
    refine List.foldl_ext _ _ _ fun m n hn => ?_
    rw [digitValue_hexDigit n (hns n hn)]
  rw [hexDigits?, htake, if_pos ⟨List.length_map _, hall⟩, hvalue]

/-- The four digits of a number between one and sixteen times `0x1000`. -/
theorem hexPadded_four {n : Nat} (hn : 0x1000 ≤ n) (hn' : n < 0x10000) :
    Bytes.hexPadded 4 n =
      [n / 0x1000, n / 0x100 % 16, n / 0x10 % 16, n % 16].map Byte.hexDigit := by
  have hdigits : Bytes.ofNatHex n =
      [n / 0x1000, n / 0x100 % 16, n / 0x10 % 16, n % 16].map Byte.hexDigit := by
    rw [Bytes.ofNatHex, if_neg (by omega), Bytes.ofNatHex, if_neg (by omega), Bytes.ofNatHex,
      if_neg (by omega), Bytes.ofNatHex, if_pos (by omega)]
    simp only [Nat.div_div_eq_div_mul]
    rfl
  rw [Bytes.hexPadded, hdigits]
  rfl

/-- A byte by its two hexadecimal digits. -/
theorem encodes_hexEscape {isBytes : Bool} {isOf : Byte → Bool} (hdigits : AdmitsDigits isOf)
    {b : Byte} (hb : isBytes = true ∨ b.toNat < 0x80) :
    Encodes isBytes isOf (hexEscape b) [b] := by
  have hns : ∀ n ∈ [b.toNat / 16, b.toNat % 16], n < 16 := by
    have := b.toNat_lt
    simp only [List.mem_cons, List.not_mem_nil, or_false]
    omega
  have hbyte : (if isBytes then [b.toNat.toUInt8] else Utf8.encode b.toNat) = [b] := by
    rcases hb with rfl | hb
    · simp
    · rw [Utf8.encode, if_pos hb]
      simp
  refine Encodes.pair (b := ascii 'x') rfl (isEscaped_hexDigits hdigits hns) fun _ rest => ?_
  have hcode := hexDigits?_append hns rest
  rw [show [b.toNat / 16, b.toNat % 16].foldl (fun m n => m * 16 + n) 0 = b.toNat by
    simp only [List.foldl_cons, List.foldl_nil]
    omega] at hcode
  change hexDigits? 2 ([_, _] ++ rest) = _ at hcode
  show readHex isBytes ([_, _] ++ rest) = _
  rw [readHex, hcode]
  exact congrArg (fun value => Except.ok (value, rest)) hbyte

/-- A code point by its four hexadecimal digits. -/
theorem encodes_code {isOf : Byte → Bool} (hdigits : AdmitsDigits isOf) {code : Nat}
    (hcode : 0x1000 ≤ code) (hcode' : code < 0x10000) :
    Encodes false isOf (text "\\u" ++ Bytes.hexPadded 4 code) (Utf8.encode code) := by
  have hns : ∀ n ∈ [code / 0x1000, code / 0x100 % 16, code / 0x10 % 16, code % 16], n < 16 := by
    simp only [List.mem_cons, List.not_mem_nil, or_false]
    omega
  rw [hexPadded_four hcode hcode']
  refine Encodes.pair (b := ascii 'u') rfl (isEscaped_hexDigits hdigits hns) fun _ rest => ?_
  have hread := hexDigits?_append hns rest
  rw [show [code / 0x1000, code / 0x100 % 16, code / 0x10 % 16, code % 16].foldl
      (fun m n => m * 16 + n) 0 = code by
    simp only [List.foldl_cons, List.foldl_nil]
    omega] at hread
  change hexDigits? 4 ([_, _, _, _] ++ rest) = _ at hread
  show readCode 4 .truncatedShort ([_, _, _, _] ++ rest) = _
  rw [readCode, hread]
  exact if_neg (by omega)

/-! ## Bytes as they are written -/

theorem shortEscape?_eq_none {b : Byte} (h : shortEscape? b = none) :
    b ≠ Byte.backslash ∧ b.isLineEnd = false := by
  unfold shortEscape? at h
  split at h
  · exact nomatch h
  rename_i hback
  split at h
  · exact nomatch h
  rename_i hfeed
  split at h
  · exact nomatch h
  rename_i hreturn
  exact ⟨hback, by simp [Byte.isLineEnd, hfeed, hreturn]⟩

section Byte

variable {isBytes : Bool} {isOf : Byte → Bool} {quote b : Byte}

/-- A short escape denotes its byte in every literal. -/
theorem encodes_shortEscape {piece : Bytes} (h : shortEscape? b = some piece) :
    Encodes isBytes isOf piece [b] := by
  unfold shortEscape? at h
  split at h
  · rename_i hb
    subst hb
    obtain rfl := Option.some.inj h
    exact .simple rfl rfl
  split at h
  · rename_i hb
    subst hb
    obtain rfl := Option.some.inj h
    exact .simple rfl rfl
  split at h
  · rename_i hb
    subst hb
    obtain rfl := Option.some.inj h
    exact .simple rfl rfl
  split at h
  · rename_i hb
    subst hb
    obtain rfl := Option.some.inj h
    exact .simple rfl rfl
  · exact nomatch h

/-- The closing quote behind a backslash denotes itself. -/
theorem encodes_quote (hquote : quote.isQuote) :
    Encodes isBytes isOf [Byte.backslash, quote] [quote] := by
  rcases Byte.isQuote_iff.mp hquote with rfl | rfl <;> exact .simple rfl rfl

/-- A byte of a string literal, where no brace is written twice. -/
theorem encodes_escapeByte {doubleBraces : Bool} (hquote : quote.isQuote)
    (hdigits : AdmitsDigits isOf) (hof : Byte.isText quote b → isOf b)
    (hbrace : doubleBraces = true → FString.isBrace b = false) :
    Encodes false isOf (escapeByte quote doubleBraces b) [b] := by
  rw [escapeByte]
  split
  · rename_i hshort
    exact encodes_shortEscape hshort
  rename_i hnone
  obtain ⟨hback, hend⟩ := shortEscape?_eq_none hnone
  split
  · rename_i hb
    subst hb
    exact encodes_quote hquote
  rename_i hne
  split
  · rename_i hdouble
    obtain ⟨hdouble, rfl | rfl⟩ := hdouble
    · exact nomatch hbrace hdouble
    · exact nomatch hbrace hdouble
  split
  · rename_i hcontrol
    refine encodes_hexEscape hdigits (.inr ?_)
    rcases hcontrol with hcontrol | rfl
    · exact Nat.lt_trans (UInt8.lt_iff_toNat_lt.mp hcontrol) (by decide)
    · decide
  · exact .plain hback (hof (Byte.isText_iff.mpr ⟨hne, hend⟩))

/-- A byte of a bytes literal. -/
theorem encodes_escapeRaw (hquote : quote.isQuote) :
    Encodes true (Byte.isRawText quote) (escapeRaw quote b) [b] := by
  rw [escapeRaw]
  split
  · rename_i hb
    obtain ⟨rfl, -⟩ := hb
    exact encodes_quote hquote
  rename_i hne
  split
  · rename_i hshort
    exact encodes_shortEscape hshort
  rename_i hnone
  obtain ⟨hback, hend⟩ := shortEscape?_eq_none hnone
  split
  · exact encodes_hexEscape (admitsDigits_isRawText hquote) (.inl rfl)
  · rename_i hvisible
    have hascii : b.isNonAscii = false := by
      simp only [Byte.isNonAscii, decide_eq_false_iff_not, UInt8.le_iff_toNat_le]
      simp only [UInt8.le_iff_toNat_le, UInt8.lt_iff_toNat_lt] at hvisible
      simp at *
      omega
    refine .plain hback ?_
    rw [Byte.isRawText, Byte.isText_iff.mpr ⟨fun hb => hne ⟨hb, hback⟩, hend⟩, hascii]
    rfl

end Byte

/-! ## Code points as they are written -/

section Code

variable {quote : Byte} {doubleBraces : Bool}

/-- A byte that begins no surrogate is written by itself. -/
theorem escape_cons {b : Byte} {s : Bytes} (h : b = 0xED → ∀ c ∈ s.head?, c < 0xA0) :
    escape quote doubleBraces (b :: s) =
      escapeByte quote doubleBraces b ++ escape quote doubleBraces s := by
  match s with
  | [] => rfl
  | [c] => rfl
  | c :: c' :: s =>
    rw [escape, if_neg]
    rintro ⟨hb, -, hc⟩
    exact absurd (h hb c rfl) (UInt8.not_lt.mpr hc)

/-- Bytes that begin no surrogate are written one by one. -/
theorem escape_append {s : Bytes} (h : ∀ b ∈ s, b ≠ 0xED) (t : Bytes) :
    escape quote doubleBraces (s ++ t) =
      s.flatMap (escapeByte quote doubleBraces) ++ escape quote doubleBraces t := by
  induction s with
  | nil => rfl
  | cons b s ih =>
    obtain ⟨hb, hs⟩ := List.forall_mem_cons.mp h
    rw [List.cons_append, escape_cons fun heq => absurd heq hb, ih hs, List.flatMap_cons,
      List.append_assoc]

/-- How a code point is written. -/
def escapeCode (quote : Byte) (doubleBraces : Bool) (code : Nat) : Bytes :=
  if Utf8.IsSurrogate code then text "\\u" ++ Bytes.hexPadded 4 code
  else (Utf8.encode code).flatMap (escapeByte quote doubleBraces)

/-- The code points of a text are written one by one. -/
theorem escape_encode (hquote : quote.isQuote) {code : Nat} (hcode : code ≤ 0x10FFFF) (s : Bytes) :
    escape quote doubleBraces (Utf8.encode code ++ s) =
      escapeCode quote doubleBraces code ++ escape quote doubleBraces s := by
  rw [escapeCode]
  split
  · rename_i hsurrogate
    have hlead : (0xED : Byte) ≠ quote := by
      rintro rfl
      exact nomatch hquote
    have hsecond : (0xA0 : Byte) ≤ Utf8.continuation (code / 0x40) := by
      obtain ⟨hlow, hhigh⟩ := hsurrogate
      rw [UInt8.le_iff_toNat_le, Utf8.toNat_continuation]
      show 0xA0 ≤ _
      omega
    have hescape : surrogateEscape (Utf8.continuation (code / 0x40)) (Utf8.continuation code) =
        text "\\u" ++ Bytes.hexPadded 4 code := by
      obtain ⟨hlow, hhigh⟩ := hsurrogate
      rw [surrogateEscape, Utf8.toNat_continuation, Utf8.toNat_continuation]
      congr 2
      omega
    rw [Utf8.encode_surrogate hsurrogate, List.cons_append, List.cons_append,
      List.singleton_append, escape, if_pos ⟨rfl, hlead, hsecond⟩, hescape]
  · rename_i hsurrogate
    obtain hplain | ⟨b, t, hencode, hb, ht⟩ := Utf8.encode_of_not_surrogate hsurrogate hcode
    · exact escape_append hplain s
    · have hlow : ∀ c ∈ (b :: t ++ s).head?, c < 0xA0 := by
        rintro c hc
        obtain rfl : b = c := Option.some.inj hc
        exact hb
      rw [hencode, List.cons_append, escape_cons fun _ => hlow, escape_append ht,
        List.flatMap_cons (x := 0xED), List.append_assoc]

/-- A text is written code point by code point. -/
theorem escape_encodeAll (hquote : quote.isQuote) {codes : List Nat}
    (hcodes : ∀ code ∈ codes, code ≤ 0x10FFFF) :
    escape quote doubleBraces (Utf8.encodeAll codes) =
      codes.flatMap (escapeCode quote doubleBraces) := by
  induction codes with
  | nil => rfl
  | cons code codes ih =>
    obtain ⟨hcode, hcodes⟩ := List.forall_mem_cons.mp hcodes
    rw [Utf8.encodeAll, List.flatMap_cons, ← Utf8.encodeAll, escape_encode hquote hcode, ih hcodes,
      List.flatMap_cons]

/-- The braces among the code points. -/
def isBraceCode (code : Nat) : Bool := code == 0x7B || code == 0x7D

/-- Only the code point of a brace is written with the byte of one. -/
theorem isBrace_of_mem_encode {code : Nat} (hbrace : isBraceCode code = false)
    (hcode : code ≤ 0x10FFFF) : ∀ b ∈ Utf8.encode code, FString.isBrace b = false := by
  intro b hb
  have hopen : b.toNat ≠ 0x7B ∧ b.toNat ≠ 0x7D := by
    by_cases hascii : code < 0x80
    · rw [Utf8.encode_ascii hascii, List.mem_singleton] at hb
      simp only [isBraceCode, Bool.or_eq_false_iff, beq_eq_false_iff_ne] at hbrace
      rw [hb, Utf8.toNat_toUInt8]
      omega
    · have hle := Utf8.le_toNat_of_mem_encode (Nat.not_lt.mp hascii) hcode b hb
      omega
  rw [FString.isBrace, Bool.or_eq_false_iff, beq_eq_false_iff_ne, beq_eq_false_iff_ne]
  constructor
  · rintro rfl
    exact hopen.1 rfl
  · rintro rfl
    exact hopen.2 rfl

/-- A code point of a string literal, or one other than a brace in an f-string. -/
theorem encodes_escapeCode {isOf : Byte → Bool} (hquote : quote.isQuote)
    (hdigits : AdmitsDigits isOf)
    (hof : ∀ b, Byte.isText quote b → (doubleBraces = true → FString.isBrace b = false) → isOf b)
    {code : Nat} (hcode : code ≤ 0x10FFFF)
    (hbrace : doubleBraces = true → isBraceCode code = false) :
    Encodes false isOf (escapeCode quote doubleBraces code) (Utf8.encode code) := by
  rw [escapeCode]
  split
  · rename_i hsurrogate
    obtain ⟨hlow, hhigh⟩ := hsurrogate
    exact encodes_code hdigits (by omega) (by omega)
  · have hbytes : ∀ b ∈ Utf8.encode code, doubleBraces = true → FString.isBrace b = false :=
      fun b hb hdouble => isBrace_of_mem_encode (hbrace hdouble) hcode b hb
    have hpieces : Encodes false isOf _ ((Utf8.encode code).flatMap fun b => [b]) :=
      Encodes.flatMap fun b hb => encodes_escapeByte hquote hdigits
        (fun htext => hof b htext (hbytes b hb)) (hbytes b hb)
    rwa [List.flatMap_singleton'] at hpieces

end Code

/-! ## Whole bodies -/

/-- The body of a string literal reads as its text. -/
theorem encodes_escape {quote : Byte} (hquote : quote.isQuote) {codes : List Nat}
    (hcodes : ∀ code ∈ codes, code ≤ 0x10FFFF) :
    Encodes false (Byte.isText quote) (escape quote false (Utf8.encodeAll codes))
      (Utf8.encodeAll codes) := by
  rw [escape_encodeAll hquote hcodes]
  exact Encodes.flatMap fun code hcode => encodes_escapeCode hquote (admitsDigits_isText hquote)
    (fun _ htext _ => htext) (hcodes code hcode) nofun

/-- The body of a bytes literal reads as its bytes. -/
theorem encodes_raw {quote : Byte} (hquote : quote.isQuote) (s : Bytes) :
    Encodes true (Byte.isRawText quote) (s.flatMap (escapeRaw quote)) s := by
  have hpieces : Encodes true (Byte.isRawText quote) (s.flatMap (escapeRaw quote))
      (s.flatMap fun b => [b]) :=
    Encodes.flatMap fun _ _ => encodes_escapeRaw hquote
  rwa [List.flatMap_singleton'] at hpieces

end SyntaxTree
