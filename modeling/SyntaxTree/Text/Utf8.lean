import SyntaxTree.Text.Bytes

/-
# UTF-8

Code points as bytes and back.  Writing is generous: a surrogate is written like any other code
point of three bytes.  Reading is strict: overlong forms, surrogates and values past U+10FFFF are
refused.
-/

namespace SyntaxTree.Utf8

/-- The continuation byte that carries the low six bits of `n`. -/
def continuation (n : Nat) : Byte := (0x80 + n % 0x40).toUInt8

/-- The bytes of a code point. -/
def encode (code : Nat) : Bytes :=
  if code < 0x80 then [code.toUInt8]
  else if code < 0x800 then
    [(0xC0 + code / 0x40).toUInt8, continuation code]
  else if code < 0x10000 then
    [(0xE0 + code / 0x1000).toUInt8, continuation (code / 0x40), continuation code]
  else
    [(0xF0 + code / 0x40000).toUInt8, continuation (code / 0x1000), continuation (code / 0x40),
      continuation code]

/-- The six bits that a continuation byte carries. -/
def payload? (b : Byte) : Option Nat :=
  if b.isContinuation then some (b.toNat - 0x80) else none

/-- Reads `count` continuation bytes and appends their bits to those of `code`. -/
def decodeTail? : (count code : Nat) → Bytes → Option (Nat × Bytes)
  | 0, code, s => some (code, s)
  | _ + 1, _, [] => none
  | count + 1, code, b :: s =>
    (payload? b).bind fun bits => decodeTail? count (code * 0x40 + bits) s

/-- Neither overlong in three bytes nor a surrogate. -/
def isThreeByteCode (code : Nat) : Bool := (0x800 ≤ code && code < 0xD800) || 0xE000 ≤ code

/-- Neither overlong in four bytes nor past the last code point. -/
def isFourByteCode (code : Nat) : Bool := 0x10000 ≤ code && code ≤ 0x10FFFF

/-- The first code point of a text and the bytes behind it. -/
def decode? : Bytes → Option (Nat × Bytes)
  | [] => none
  | b :: s =>
    if b < 0x80 then some (b.toNat, s)
    else if b < 0xC2 then none
    else if b < 0xE0 then decodeTail? 1 (b.toNat - 0xC0) s
    else if b < 0xF0 then (decodeTail? 2 (b.toNat - 0xE0) s).filter (isThreeByteCode ·.1)
    else if b < 0xF5 then (decodeTail? 3 (b.toNat - 0xF0) s).filter (isFourByteCode ·.1)
    else none

theorem suffix_of_decodeTail? {count code result : Nat} {s rest : Bytes}
    (h : decodeTail? count code s = some (result, rest)) : rest <:+ s := by
  fun_induction decodeTail? count code s with
  | case1 => simp_all
  | case2 => simp at h
  | case3 count code b s ih =>
    obtain ⟨bits, _, h⟩ := Option.bind_eq_some_iff.1 h
    exact (ih bits h).trans (List.suffix_cons b s)

/-- What follows the first code point is a suffix of what follows the first byte. -/
theorem suffix_of_decode? {b : Byte} {s rest : Bytes} {code : Nat}
    (h : decode? (b :: s) = some (code, rest)) : rest <:+ s := by
  rw [decode?] at h
  split at h
  · simp_all
  split at h
  · simp at h
  split at h
  · exact suffix_of_decodeTail? h
  split at h
  · exact suffix_of_decodeTail? (Option.filter_eq_some_iff.1 h).1
  split at h
  · exact suffix_of_decodeTail? (Option.filter_eq_some_iff.1 h).1
  · simp at h

/-- Reading a code point uses up at least one byte. -/
theorem length_lt_of_decode? {b : Byte} {s rest : Bytes} {code : Nat}
    (h : decode? (b :: s) = some (code, rest)) : rest.length < (b :: s).length :=
  Nat.lt_succ_of_le (suffix_of_decode? h).length_le

/-- The code points of a text, if all of it is well formed. -/
def decodeAll? (s : Bytes) : Option (List Nat) :=
  match s with
  | [] => some []
  | b :: tail =>
    match h : decode? (b :: tail) with
    | none => none
    | some (code, rest) =>
      have := length_lt_of_decode? h
      (decodeAll? rest).map (code :: ·)
termination_by s.length
decreasing_by exact this

/-- The bytes of a list of code points. -/
def encodeAll (codes : List Nat) : Bytes := codes.flatMap encode

end SyntaxTree.Utf8
