import SyntaxTree.Text.Utf8

/-
# Bytes of code points

A code point beyond ASCII is written with bytes beyond ASCII, and only surrogates and the code
points in front of them begin with the byte `0xED`.  What is read is what has been written, and only
code points that are no surrogates are read.
-/

namespace SyntaxTree.Utf8

theorem toNat_toUInt8 (n : Nat) : n.toUInt8.toNat = n % 0x100 := by
  rw [Nat.toUInt8, UInt8.toNat_ofNat']

theorem toNat_continuation (n : Nat) : (continuation n).toNat = 0x80 + n % 0x40 := by
  rw [continuation, toNat_toUInt8]
  omega

/-- Whether a code point is a surrogate. -/
def IsSurrogate (code : Nat) : Prop := 0xD800 ≤ code ∧ code < 0xE000

instance (code : Nat) : Decidable (IsSurrogate code) :=
  inferInstanceAs (Decidable (_ ∧ _))

variable {code : Nat}

/-- A character of ASCII is its own byte. -/
theorem encode_ascii (h : code < 0x80) : encode code = [code.toUInt8] := by
  rw [encode, if_pos h]

/-- Characters beyond ASCII are written with bytes beyond ASCII. -/
theorem le_toNat_of_mem_encode (hcode : 0x80 ≤ code) (hmax : code ≤ 0x10FFFF) :
    ∀ b ∈ encode code, 0x80 ≤ b.toNat := by
  have hcontinuation (n : Nat) : 0x80 ≤ (continuation n).toNat := by
    rw [toNat_continuation]
    exact Nat.le_add_right _ _
  rw [encode, if_neg (by omega)]
  split
  · simp only [List.forall_mem_cons, hcontinuation, toNat_toUInt8]
    exact ⟨by omega, trivial, List.forall_mem_nil _⟩
  split
  · simp only [List.forall_mem_cons, hcontinuation, toNat_toUInt8]
    exact ⟨by omega, trivial, trivial, List.forall_mem_nil _⟩
  · simp only [List.forall_mem_cons, hcontinuation, toNat_toUInt8]
    exact ⟨by omega, trivial, trivial, trivial, List.forall_mem_nil _⟩

/-- The three bytes of a surrogate. -/
theorem encode_surrogate (h : IsSurrogate code) :
    encode code = [0xED, continuation (code / 0x40), continuation code] := by
  obtain ⟨hlow, hhigh⟩ := h
  rw [encode, if_neg (by omega), if_neg (by omega), if_pos (by omega),
    show 0xE0 + code / 0x1000 = 0xED by omega]
  rfl

/-- A code point that is no surrogate has no byte `0xED` with a high byte behind it. -/
theorem encode_of_not_surrogate (h : ¬ IsSurrogate code) (hmax : code ≤ 0x10FFFF) :
    (∀ b ∈ encode code, b ≠ 0xED) ∨
      ∃ b s, encode code = 0xED :: b :: s ∧ b < 0xA0 ∧ ∀ c ∈ b :: s, c ≠ 0xED := by
  have hne {b : Byte} (hb : b.toNat ≠ 0xED) : b ≠ 0xED := by
    rintro rfl
    exact hb rfl
  have hcontinuation (n : Nat) : continuation n ≠ 0xED := by
    refine hne ?_
    rw [toNat_continuation]
    omega
  by_cases hascii : code < 0x80
  · left
    rw [encode_ascii hascii]
    refine List.forall_mem_singleton.mpr (hne ?_)
    rw [toNat_toUInt8]
    omega
  rw [encode, if_neg hascii]
  split
  · left
    refine List.forall_mem_cons.mpr ⟨hne ?_, List.forall_mem_singleton.mpr (hcontinuation _)⟩
    rw [toNat_toUInt8]
    omega
  split
  · by_cases hlead : code / 0x1000 = 0xD
    · right
      rw [hlead]
      refine ⟨_, _, rfl, ?_, ?_⟩
      · rw [UInt8.lt_iff_toNat_lt, toNat_continuation]
        simp only [IsSurrogate] at h
        show _ < 0xA0
        omega
      · exact List.forall_mem_cons.mpr ⟨hcontinuation _,
          List.forall_mem_singleton.mpr (hcontinuation _)⟩
    · left
      refine List.forall_mem_cons.mpr ⟨hne ?_, List.forall_mem_cons.mpr ⟨hcontinuation _,
        List.forall_mem_singleton.mpr (hcontinuation _)⟩⟩
      rw [toNat_toUInt8]
      omega
  · left
    refine List.forall_mem_cons.mpr ⟨hne ?_, List.forall_mem_cons.mpr ⟨hcontinuation _,
      List.forall_mem_cons.mpr ⟨hcontinuation _, List.forall_mem_singleton.mpr (hcontinuation _)⟩⟩⟩
    rw [toNat_toUInt8]
    omega

/-! ## Reading what has been written -/

/-- A code point that can be read. -/
structure IsScalar (code : Nat) : Prop where
  le : code ≤ 0x10FFFF
  not_surrogate : ¬ IsSurrogate code

theorem isContinuation_iff (b : Byte) : b.isContinuation ↔ 0x80 ≤ b.toNat ∧ b.toNat < 0xC0 := by
  have hall : ∀ n < 0x100, (Byte.isContinuation (.ofNat n) ↔ 0x80 ≤ n ∧ n < 0xC0) := by
    decide +kernel
  simpa using hall b.toNat b.toNat_lt

theorem continuation_congr {m n : Nat} (h : m % 0x40 = n % 0x40) :
    continuation m = continuation n := by
  rw [continuation, continuation, h]

theorem payload?_continuation (n : Nat) : payload? (continuation n) = some (n % 0x40) := by
  have hb := toNat_continuation n
  rw [payload?, if_pos ((isContinuation_iff _).mpr (by omega)), hb, Nat.add_sub_cancel_left]

theorem eq_continuation_of_payload? {b : Byte} {n : Nat} (h : payload? b = some n) :
    n < 0x40 ∧ b = continuation n := by
  obtain ⟨hcontinuation, hn⟩ := Option.ite_none_right_eq_some.mp h
  obtain rfl := Option.some.inj hn
  obtain ⟨hlow, hhigh⟩ := (isContinuation_iff b).mp hcontinuation
  refine ⟨by omega, UInt8.toNat_inj.mp ?_⟩
  rw [toNat_continuation]
  omega

theorem decodeTail?_continuation (count code n : Nat) (s : Bytes) :
    decodeTail? (count + 1) code (continuation n :: s) =
      decodeTail? count (code * 0x40 + n % 0x40) s := by
  rw [decodeTail?, payload?_continuation, Option.bind_some]

theorem exists_of_decodeTail? {count code result : Nat} {s rest : Bytes}
    (h : decodeTail? (count + 1) code s = some (result, rest)) :
    ∃ n s', n < 0x40 ∧ s = continuation n :: s' ∧
      decodeTail? count (code * 0x40 + n) s' = some (result, rest) := by
  cases s with
  | nil => cases h
  | cons b s =>
    rw [decodeTail?] at h
    obtain ⟨n, hn, htail⟩ := Option.bind_eq_some_iff.mp h
    obtain ⟨hlt, rfl⟩ := eq_continuation_of_payload? hn
    exact ⟨n, s, hlt, rfl, htail⟩

theorem decode?_cons (b : Byte) (s : Bytes) :
    decode? (b :: s) =
      if b.toNat < 0x80 then some (b.toNat, s)
      else if b.toNat < 0xC2 then none
      else if b.toNat < 0xE0 then decodeTail? 1 (b.toNat - 0xC0) s
      else if b.toNat < 0xF0 then (decodeTail? 2 (b.toNat - 0xE0) s).filter (isThreeByteCode ·.1)
      else if b.toNat < 0xF5 then (decodeTail? 3 (b.toNat - 0xF0) s).filter (isFourByteCode ·.1)
      else none := by
  simp only [decode?, UInt8.lt_iff_toNat_lt]
  rfl

theorem isThreeByteCode_iff :
    isThreeByteCode code ↔ 0x800 ≤ code ∧ ¬ IsSurrogate code := by
  simp only [isThreeByteCode, IsSurrogate, Bool.or_eq_true, Bool.and_eq_true, decide_eq_true_eq]
  omega

theorem isFourByteCode_iff : isFourByteCode code ↔ 0x10000 ≤ code ∧ code ≤ 0x10FFFF := by
  simp only [isFourByteCode, Bool.and_eq_true, decide_eq_true_eq]

/-- What has been written is read again. -/
theorem decode?_encode (h : IsScalar code) (rest : Bytes) :
    decode? (encode code ++ rest) = some (code, rest) := by
  have hmax := h.le
  have hlead {n : Nat} (hn : n < 0x100) : n.toUInt8.toNat = n := by
    rw [toNat_toUInt8, Nat.mod_eq_of_lt hn]
  rw [encode]
  split
  · rw [List.singleton_append, decode?_cons, hlead (by omega), if_pos (by omega)]
  split
  · rw [List.cons_append, List.singleton_append, decode?_cons, hlead (by omega), if_neg (by omega),
      if_neg (by omega), if_pos (by omega), decodeTail?_continuation, decodeTail?,
      show (0xC0 + code / 0x40 - 0xC0) * 0x40 + code % 0x40 = code by omega]
  split
  · rw [List.cons_append, List.cons_append, List.singleton_append, decode?_cons, hlead (by omega),
      if_neg (by omega), if_neg (by omega), if_neg (by omega), if_pos (by omega),
      decodeTail?_continuation, decodeTail?_continuation, decodeTail?,
      show ((0xE0 + code / 0x1000 - 0xE0) * 0x40 + code / 0x40 % 0x40) * 0x40 + code % 0x40 = code
        by omega]
    exact Option.filter_eq_some_iff.mpr
      ⟨rfl, isThreeByteCode_iff.mpr ⟨by omega, h.not_surrogate⟩⟩
  · rw [List.cons_append, List.cons_append, List.cons_append, List.singleton_append, decode?_cons,
      hlead (by omega), if_neg (by omega), if_neg (by omega), if_neg (by omega), if_neg (by omega),
      if_pos (by omega), decodeTail?_continuation, decodeTail?_continuation,
      decodeTail?_continuation, decodeTail?,
      show (((0xF0 + code / 0x40000 - 0xF0) * 0x40 + code / 0x1000 % 0x40) * 0x40 +
        code / 0x40 % 0x40) * 0x40 + code % 0x40 = code by omega]
    exact Option.filter_eq_some_iff.mpr ⟨rfl, isFourByteCode_iff.mpr ⟨by omega, hmax⟩⟩

/-- What is read has been written. -/
theorem eq_encode_of_decode? {s rest : Bytes} (h : decode? s = some (code, rest)) :
    s = encode code ++ rest ∧ IsScalar code := by
  cases s with
  | nil => cases h
  | cons b s =>
  have hb := b.toNat_lt
  have hlead {n : Nat} (hn : n = b.toNat) : n.toUInt8 = b := by
    rw [hn, Nat.toUInt8, UInt8.ofNat_toNat]
  -- One case for each length: the lead byte gives the upper bits, each continuation six more.
  rw [decode?_cons] at h
  split at h
  · obtain ⟨rfl, rfl⟩ := Prod.mk.inj (Option.some.inj h)
    refine ⟨?_, by omega, by unfold IsSurrogate; omega⟩
    rw [encode_ascii (by omega), hlead rfl]
    rfl
  split at h
  · cases h
  split at h
  · obtain ⟨n, s, hn, rfl, hcode⟩ := exists_of_decodeTail? h
    obtain ⟨rfl, rfl⟩ := Prod.mk.inj (Option.some.inj hcode)
    refine ⟨?_, by omega, by unfold IsSurrogate; omega⟩
    rw [encode, if_neg (by omega), if_pos (by omega), hlead (by omega),
      continuation_congr (show ((b.toNat - 0xC0) * 0x40 + n) % 0x40 = n % 0x40 by omega)]
    rfl
  split at h
  · obtain ⟨htail, hcode⟩ := Option.filter_eq_some_iff.mp h
    obtain ⟨hlow, hsurrogate⟩ := isThreeByteCode_iff.mp hcode
    obtain ⟨m, behind, hm, rfl, hbehind⟩ := exists_of_decodeTail? htail
    obtain ⟨n, last, hn, rfl, hlast⟩ := exists_of_decodeTail? hbehind
    obtain ⟨rfl, rfl⟩ := Prod.mk.inj (Option.some.inj hlast)
    dsimp only at hlow hsurrogate
    refine ⟨?_, by omega, hsurrogate⟩
    rw [encode, if_neg (by omega), if_neg (by omega), if_pos (by omega), hlead (by omega),
      continuation_congr (show (((b.toNat - 0xE0) * 0x40 + m) * 0x40 + n) / 0x40 % 0x40 = m % 0x40
        by omega),
      continuation_congr (show (((b.toNat - 0xE0) * 0x40 + m) * 0x40 + n) % 0x40 = n % 0x40
        by omega)]
    rfl
  split at h
  · obtain ⟨htail, hcode⟩ := Option.filter_eq_some_iff.mp h
    obtain ⟨hlow, hmax⟩ := isFourByteCode_iff.mp hcode
    obtain ⟨l, second, hl, rfl, hsecond⟩ := exists_of_decodeTail? htail
    obtain ⟨m, third, hm, rfl, hthird⟩ := exists_of_decodeTail? hsecond
    obtain ⟨n, last, hn, rfl, hlast⟩ := exists_of_decodeTail? hthird
    obtain ⟨rfl, rfl⟩ := Prod.mk.inj (Option.some.inj hlast)
    dsimp only at hlow hmax
    refine ⟨?_, hmax, by unfold IsSurrogate; omega⟩
    rw [encode, if_neg (by omega), if_neg (by omega), if_neg (by omega), hlead (by omega),
      continuation_congr (show ((((b.toNat - 0xF0) * 0x40 + l) * 0x40 + m) * 0x40 + n) / 0x1000 %
        0x40 = l % 0x40 by omega),
      continuation_congr (show ((((b.toNat - 0xF0) * 0x40 + l) * 0x40 + m) * 0x40 + n) / 0x40 %
        0x40 = m % 0x40 by omega),
      continuation_congr (show ((((b.toNat - 0xF0) * 0x40 + l) * 0x40 + m) * 0x40 + n) %
        0x40 = n % 0x40 by omega)]
    rfl
  · cases h

/-- What stands behind a character does not change it. -/
theorem decode?_append {b : Byte} {s rest : Bytes} (h : decode? (b :: s) = some (code, rest))
    (t : Bytes) : decode? (b :: (s ++ t)) = some (code, rest ++ t) := by
  obtain ⟨hs, hscalar⟩ := eq_encode_of_decode? h
  rw [← List.cons_append, hs, List.append_assoc, decode?_encode hscalar]

theorem exists_encode_eq_cons (hcode : 0x80 ≤ code) (hmax : code ≤ 0x10FFFF) :
    ∃ b t, encode code = b :: t ∧ b.isNonAscii ∧ ∀ c ∈ t, c.isNonAscii := by
  have hbeyond : ∀ b ∈ encode code, b.isNonAscii := fun b hb =>
    decide_eq_true (UInt8.le_iff_toNat_le.mpr (le_toNat_of_mem_encode hcode hmax b hb))
  have hcons : ∃ b t, encode code = b :: t := by
    rw [encode, if_neg (Nat.not_lt.mpr hcode)]
    split
    · exact ⟨_, _, rfl⟩
    split
    · exact ⟨_, _, rfl⟩
    · exact ⟨_, _, rfl⟩
  obtain ⟨b, t, hencode⟩ := hcons
  rw [hencode] at hbeyond
  exact ⟨b, t, hencode, List.forall_mem_cons.mp hbeyond⟩

/-- A character beyond ASCII is made of bytes beyond ASCII. -/
theorem exists_of_decode? {b : Byte} {s rest : Bytes} (hb : b.isNonAscii)
    (h : decode? (b :: s) = some (code, rest)) : ∃ t, s = t ++ rest ∧ ∀ c ∈ t, c.isNonAscii := by
  obtain ⟨hs, hscalar⟩ := eq_encode_of_decode? h
  have hlarge : 0x80 ≤ code := Nat.not_lt.mp fun hsmall => by
    rw [encode_ascii hsmall] at hs
    rw [(List.cons.inj hs).1] at hb
    have htoNat := UInt8.le_iff_toNat_le.mp (of_decide_eq_true hb)
    rw [toNat_toUInt8, show (128 : Byte).toNat = 128 from rfl] at htoNat
    omega
  obtain ⟨first, t, hencode, -, ht⟩ := exists_encode_eq_cons hlarge hscalar.le
  rw [hencode] at hs
  exact ⟨t, (List.cons.inj hs).2, ht⟩

theorem decodeAll?_of_decode? {s rest : Bytes} (h : decode? s = some (code, rest)) :
    decodeAll? s = (decodeAll? rest).map (code :: ·) := by
  cases s with
  | nil => cases h
  | cons b tail =>
    rw [decodeAll?]
    split
    · next hnone => cases hnone.symm.trans h
    · next hsome =>
      obtain ⟨rfl, rfl⟩ := Prod.mk.inj (Option.some.inj (hsome.symm.trans h))
      rfl

/-- Code points that have been written are read in front of whatever follows them. -/
theorem decodeAll?_encodeAll_append {codes : List Nat} (h : ∀ c ∈ codes, IsScalar c) (s : Bytes) :
    decodeAll? (encodeAll codes ++ s) = (decodeAll? s).map (codes ++ ·) := by
  induction codes with
  | nil => cases hs : decodeAll? s <;> simp [encodeAll, hs]
  | cons code codes ih =>
    obtain ⟨hcode, hcodes⟩ := List.forall_mem_cons.mp h
    rw [encodeAll, List.flatMap_cons, ← encodeAll, List.append_assoc,
      decodeAll?_of_decode? (decode?_encode hcode _), ih hcodes, Option.map_map]
    rfl

theorem decodeAll?_encodeAll {codes : List Nat} (h : ∀ c ∈ codes, IsScalar c) :
    decodeAll? (encodeAll codes) = some codes := by
  have happend := decodeAll?_encodeAll_append h []
  rwa [List.append_nil, decodeAll?, Option.map_some, List.append_nil] at happend

/-- A text that can be read is that of its code points. -/
theorem eq_encodeAll_of_decodeAll? {s : Bytes} {codes : List Nat} (h : decodeAll? s = some codes) :
    s = encodeAll codes ∧ ∀ c ∈ codes, IsScalar c := by
  fun_induction decodeAll? s generalizing codes with
  | case1 =>
    cases h
    exact ⟨rfl, List.forall_mem_nil _⟩
  | case2 => cases h
  | case3 b tail code rest hdecode hlt ih =>
    obtain ⟨codes, hcodes, rfl⟩ := Option.map_eq_some_iff.mp h
    obtain ⟨hs, hscalar⟩ := eq_encode_of_decode? hdecode
    obtain ⟨hrest, hscalars⟩ := ih hcodes
    refine ⟨?_, List.forall_mem_cons.mpr ⟨hscalar, hscalars⟩⟩
    rw [hs, encodeAll, List.flatMap_cons, ← encodeAll, ← hrest]

end SyntaxTree.Utf8
