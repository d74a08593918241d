import SyntaxTree.Proofs.Token.Identifier
import SyntaxTree.Proofs.Token.Source
import SyntaxTree.Proofs.Unicode.Normal

/-
# Names read alone

The text of an identifier is in normal form, and tokenized alone it is a single word again, with the
same text.  It is the identifier that it was, unless it is spelled like a keyword; the source has
then spelled it with characters beyond ASCII.
-/

namespace SyntaxTree

open Unicode (SpellsName isIdentifierStart isIdentifierContinue)

/-! ## Words as code points -/

namespace Unicode

variable {code : Nat} {codes : List Nat}

theorem isScalar_of_continue (h : isIdentifierContinue code) : Utf8.IsScalar code := by
  have hsubset : isSubset continuations [(0, 0xD7FF), (0xE000, 0x10FFFF)] := by decide +kernel
  rw [isIdentifierContinue_eq] at h
  have hscalar := inRanges_of_subset hsubset h
  simp only [inRanges, List.any_cons, List.any_nil, Bool.or_false, Bool.or_eq_true,
    Bool.and_eq_true, decide_eq_true_eq] at hscalar
  exact ⟨by omega, by unfold Utf8.IsSurrogate; omega⟩

/-- The characters of ASCII among those of identifiers. -/
theorem ascii_agree : ∀ n < 0x80,
    Lexeme.isWordByte (.ofNat n) = (bits continuations &&& mask (0, 0x7F)).testBit n ∧
      Byte.startsWord (.ofNat n) = (bits starts &&& mask (0, 0x7F)).testBit n := by
  decide +kernel

theorem testBit_and_ascii {ranges : List (Nat × Nat)} (h : code < 0x80) :
    (bits ranges &&& mask (0, 0x7F)).testBit code = inRanges ranges code := by
  have hmask : (mask (0, 0x7F)).testBit code = true := by
    rw [testBit_mask, decide_eq_true (Nat.zero_le code), decide_eq_true (Nat.le_of_lt_succ h)]
    rfl
  rw [Nat.testBit_and, testBit_bits, hmask, Bool.and_true]

theorem isWordByte_eq (h : code < 0x80) :
    Lexeme.isWordByte code.toUInt8 = isIdentifierContinue code := by
  rw [isIdentifierContinue_eq, ← testBit_and_ascii h]
  exact (ascii_agree code h).1

theorem startsWord_eq (h : code < 0x80) :
    Byte.startsWord code.toUInt8 = isIdentifierStart code := by
  rw [isIdentifierStart_eq, ← testBit_and_ascii h]
  exact (ascii_agree code h).2

end Unicode

/-- A byte of a word is a character of ASCII. -/
theorem Byte.toNat_lt_of_isWordByte {b : Byte} (h : Lexeme.isWordByte b) : b.toNat < 0x80 := by
  have hascii := of_decide_eq_false (not_isNonAscii_of_isWordByte h)
  exact UInt8.lt_iff_toNat_lt.mp (UInt8.not_le.mp hascii)

namespace Lexeme

variable {code : Nat} {codes : List Nat} {b : Byte} {s rest : Bytes}

/-- A character of a name continues the word. -/
theorem afterWord_encode (h : isIdentifierContinue code) (rest : Bytes) :
    afterWord (Utf8.encode code ++ rest) = afterWord rest := by
  have hscalar := Unicode.isScalar_of_continue h
  by_cases hascii : code < 0x80
  · have hbyte : isWordByte code.toUInt8 := by rw [Unicode.isWordByte_eq hascii, h]
    rw [Utf8.encode_ascii hascii, List.singleton_append, afterWord,
      if_neg (by rw [Byte.not_isNonAscii_of_isWordByte hbyte]; exact Bool.noConfusion),
      if_pos hbyte]
  · obtain ⟨b, t, hencode, hb, -⟩ := Utf8.exists_encode_eq_cons (Nat.not_lt.mp hascii) hscalar.le
    have hdecode := Utf8.decode?_encode hscalar rest
    rw [hencode, List.cons_append] at hdecode ⊢
    rw [afterWord_of_decode? hb hdecode, if_pos h]

theorem afterWord_encodeAll (h : ∀ c ∈ codes, isIdentifierContinue c) :
    afterWord (Utf8.encodeAll codes) = [] := by
  induction codes with
  | nil => rw [Utf8.encodeAll, List.flatMap_nil, afterWord]
  | cons code codes ih =>
    obtain ⟨hcode, hcodes⟩ := List.forall_mem_cons.mp h
    rw [Utf8.encodeAll, List.flatMap_cons, ← Utf8.encodeAll, afterWord_encode hcode, ih hcodes]

/-- What continues a word is made of characters that continue names. -/
theorem exists_codes_of_afterWord (s : Bytes) :
    ∃ codes, (∀ c ∈ codes, isIdentifierContinue c) ∧ s = Utf8.encodeAll codes ++ afterWord s := by
  fun_induction afterWord s with
  | case2 b tail _ code rest hdecode _ hcontinue ih =>
    obtain ⟨codes, hcodes, hrest⟩ := ih
    refine ⟨code :: codes, List.forall_mem_cons.mpr ⟨hcontinue, hcodes⟩, ?_⟩
    rw [(Utf8.eq_encode_of_decode? hdecode).1, Utf8.encodeAll, List.flatMap_cons, ← Utf8.encodeAll,
      List.append_assoc, ← hrest]
  | case5 b tail _ hword ih =>
    obtain ⟨codes, hcodes, htail⟩ := ih
    have hascii : b.toNat < 0x80 := Byte.toNat_lt_of_isWordByte hword
    have hb : b.toNat.toUInt8 = b := by rw [Nat.toUInt8, UInt8.ofNat_toNat]
    refine ⟨b.toNat :: codes, List.forall_mem_cons.mpr ⟨?_, hcodes⟩, ?_⟩
    · rw [← Unicode.isWordByte_eq hascii, hb, hword]
    · rw [Utf8.encodeAll, List.flatMap_cons, ← Utf8.encodeAll, Utf8.encode_ascii hascii, hb,
        List.append_assoc, ← htail]
      rfl
  | _ => exact ⟨[], List.forall_mem_nil _, rfl⟩

/-! ## Names -/

/-- A name that stands alone is read to its end. -/
theorem afterName_encodeAll (h : SpellsName codes) :
    ∃ b t, Utf8.encodeAll codes = b :: t ∧ b.startsName ∧
      afterName b t = .ok (.ofWord (Utf8.encodeAll codes), []) := by
  obtain ⟨⟨code, codes, rfl, hstart⟩, hcontinues⟩ := h
  obtain ⟨hcode, hcodes⟩ := List.forall_mem_cons.mp hcontinues
  have hscalar := Unicode.isScalar_of_continue hcode
  have hall : Utf8.encodeAll (code :: codes) = Utf8.encode code ++ Utf8.encodeAll codes := rfl
  have hword (word : Bytes) : afterWordOrText (before word []) [] = .ok (.ofWord word, []) := by
    rw [before, List.length_nil, Nat.sub_zero, List.take_length]
    rfl
  by_cases hascii : code < 0x80
  · have hbyte : Byte.startsWord code.toUInt8 := by rw [Unicode.startsWord_eq hascii, hstart]
    rw [Utf8.encode_ascii hascii] at hall
    refine ⟨code.toUInt8, Utf8.encodeAll codes, hall, by rw [Byte.startsName, hbyte]; rfl, ?_⟩
    rw [afterName, if_neg, afterWord_encodeAll hcodes, hword, hall]
    · rfl
    · rw [Byte.not_isNonAscii_of_isWordByte (Byte.isWordByte_of_startsWord hbyte)]
      exact Bool.noConfusion
  · obtain ⟨b, t, hencode, hb, -⟩ := Utf8.exists_encode_eq_cons (Nat.not_lt.mp hascii) hscalar.le
    have hdecode := Utf8.decode?_encode hscalar (Utf8.encodeAll codes)
    rw [hencode, List.cons_append] at hall hdecode
    refine ⟨b, _, hall, by rw [Byte.startsName, hb, Bool.or_true], ?_⟩
    rw [afterName, if_pos hb, hdecode]
    dsimp only
    rw [if_pos hstart, afterWord_encodeAll hcodes, hword, hall]

/-- What is read as an identifier spells a name that is no keyword. -/
theorem exists_codes_of_afterName (hb : b.startsName)
    (h : afterName b s = .ok (.identifier, rest)) :
    ∃ codes, SpellsName codes ∧ b :: s = Utf8.encodeAll codes ++ rest ∧
      TokenKind.ofWord (Utf8.encodeAll codes) = .identifier := by
  have hname (code : Nat) {behind : Bytes} (hstart : isIdentifierStart code)
      (hs : b :: s = Utf8.encode code ++ behind)
      (h : afterWordOrText (before (b :: s) (afterWord behind)) (afterWord behind) =
        .ok (.identifier, rest)) :
      ∃ codes, SpellsName codes ∧ b :: s = Utf8.encodeAll codes ++ rest ∧
        TokenKind.ofWord (Utf8.encodeAll codes) = .identifier := by
    obtain ⟨hkind, rfl⟩ := ofWord_of_afterWordOrText h
    obtain ⟨codes, hcodes, hbehind⟩ := exists_codes_of_afterWord behind
    have hall : b :: s = Utf8.encodeAll (code :: codes) ++ afterWord behind := by
      rw [hs, Utf8.encodeAll, List.flatMap_cons, ← Utf8.encodeAll, List.append_assoc, ← hbehind]
    rw [hall, before_append] at hkind
    exact ⟨code :: codes, ⟨⟨code, codes, rfl, hstart⟩,
      List.forall_mem_cons.mpr ⟨Unicode.isIdentifierContinue_of_start hstart, hcodes⟩⟩, hall, hkind⟩
  unfold afterName at h
  split at h
  · split at h
    · cases h
    · next hdecode =>
      split at h
      · next hstart => exact hname _ hstart (Utf8.eq_encode_of_decode? hdecode).1 h
      · cases h
  · next hbeyond =>
    have hword : b.startsWord := (Bool.or_eq_true_iff.mp hb).resolve_right hbeyond
    have hascii : b.toNat < 0x80 :=
      Byte.toNat_lt_of_isWordByte (Byte.isWordByte_of_startsWord hword)
    have hbyte : b.toNat.toUInt8 = b := by rw [Nat.toUInt8, UInt8.ofNat_toNat]
    refine hname b.toNat ?_ ?_ h
    · rw [← Unicode.startsWord_eq hascii, hbyte, hword]
    · rw [Utf8.encode_ascii hascii, hbyte]
      rfl

/-- Only a name is read as an identifier. -/
theorem exists_codes_of_next (h : next b s = .ok (.token .identifier, rest)) :
    ∃ codes, SpellsName codes ∧ b :: s = Utf8.encodeAll codes ++ rest ∧
      TokenKind.ofWord (Utf8.encodeAll codes) = .identifier := by
  have htoken := afterToken_of_next h
  have hoperators : ∀ entry ∈ TokenKind.operators, entry.2 ≠ .identifier := by decide
  unfold afterToken at htoken
  split at htoken
  · cases Number.isNumber_of_after htoken
  split at htoken
  · next hb =>
    refine exists_codes_of_afterName ?_ htoken
    rwa [Byte.startsName, Byte.startsWord]
  split at htoken
  · obtain ⟨_, -, htext⟩ := exists_of_map_eq_ok htoken
    cases htext
  · unfold afterOperator at htoken
    split at htoken
    · next hfind =>
      obtain ⟨hkind, -⟩ := Prod.mk.inj (Except.ok.inj htoken)
      exact absurd hkind (hoperators _ (List.mem_of_find?_eq_some hfind))
    · cases htoken

end Lexeme

/-! ## Normal forms -/

theorem Unicode.normalize_encodeAll {codes : List Nat} (h : ∀ c ∈ codes, isIdentifierContinue c) :
    normalize (Utf8.encodeAll codes) = Utf8.encodeAll (normalizeCodes codes) := by
  rw [normalize, Utf8.decodeAll?_encodeAll fun c hc => isScalar_of_continue (h c hc)]

/-- The text of an identifier is that of a name, and stays as it is. -/
theorem exists_name_of_tokenText {codes : List Nat} (h : SpellsName codes) :
    ∃ name, SpellsName name ∧
      Layout.tokenText .identifier (Utf8.encodeAll codes) = Utf8.encodeAll name ∧
      Layout.tokenText .identifier (Utf8.encodeAll name) = Utf8.encodeAll name := by
  have hnormal := h.normalizeCodes
  by_cases hbeyond : (Utf8.encodeAll codes).any Byte.isNonAscii
  · refine ⟨_, hnormal, ?_, ?_⟩
    · rw [Layout.tokenText, if_pos ⟨rfl, hbeyond⟩, Unicode.normalize_encodeAll h.continues]
    · rw [Layout.tokenText, Unicode.normalize_encodeAll hnormal.continues,
        Unicode.normalizeCodes_normalizeCodes h.continues, ite_self]
  · have hsame : Layout.tokenText .identifier (Utf8.encodeAll codes) = Utf8.encodeAll codes :=
      if_neg fun hand => hbeyond hand.2
    exact ⟨codes, h, hsame, hsame⟩

/-! ## Names as sources -/

/-- The mark of an encoding begins no name. -/
theorem dropMark_encodeAll {codes : List Nat} (h : SpellsName codes) :
    dropMark (Utf8.encodeAll codes) = Utf8.encodeAll codes := by
  obtain ⟨mark, hsource, rfl | rfl⟩ := exists_append_dropMark (Utf8.encodeAll codes)
  · exact hsource.symm
  · obtain ⟨⟨code, rest, rfl, hstart⟩, hcontinues⟩ := h
    obtain ⟨hcode, -⟩ := List.forall_mem_cons.mp hcontinues
    have hmark : byteOrderMark = Utf8.encode 0xFEFF := by decide
    have hscalar : Utf8.IsScalar 0xFEFF := ⟨by decide, by decide⟩
    have hdecode := Utf8.decode?_encode hscalar (dropMark (Utf8.encodeAll (code :: rest)))
    rw [← hmark, ← hsource, Utf8.encodeAll, List.flatMap_cons,
      Utf8.decode?_encode (Unicode.isScalar_of_continue hcode)] at hdecode
    obtain ⟨rfl, -⟩ := Prod.mk.inj (Option.some.inj hdecode)
    rw [Unicode.isIdentifierStart_eq, ← Unicode.testBit_bits] at hstart
    exact absurd hstart (by decide +kernel)

/-- A name whose text stays as it is, alone in a source, is one word of that text. -/
theorem tokenize_encodeAll {codes : List Nat} (h : SpellsName codes)
    (hnormal : Layout.tokenText .identifier (Utf8.encodeAll codes) = Utf8.encodeAll codes)
    (keepComments : Bool) :
    ∃ word newline final,
    tokenize keepComments (Utf8.encodeAll codes) = .ok [word, newline, final] ∧
      word.kind = TokenKind.ofWord (Utf8.encodeAll codes) ∧ word.text = Utf8.encodeAll codes ∧
      newline.kind = .newline ∧ final.kind = .endOfInput := by
  have hmark := dropMark_encodeAll h
  obtain ⟨b, t, hs, hb, hname⟩ := Lexeme.afterName_encodeAll h
  rw [hs] at hmark hname hnormal ⊢
  have hnext : Lexeme.next b (t ++ []) = .ok (.token (.ofWord (b :: t)), []) := by
    rw [List.append_nil]
    exact Lexeme.next_of_startsName hb hname
  have hdivision : Division.ofBytes (b :: t) = ⟨[⟨.token (.ofWord (b :: t)), b :: t⟩], none⟩ := by
    have hone := Division.ofBytes_append hnext
    rw [List.append_nil] at hone
    rw [hone, Division.ofBytes]
    rfl
  have htext : Layout.tokenText (.ofWord (b :: t)) (b :: t) = b :: t := by
    by_cases hkind : TokenKind.ofWord (b :: t) = .identifier
    · rw [hkind, hnormal]
    · exact if_neg fun hand => hkind hand.1
  rw [tokenize, hmark, hdivision]
  exact ⟨_, _, _, rfl, rfl, htext, rfl, rfl⟩

/-! ## The identifiers of a source -/

theorem exists_name_of_tokenize {keepComments : Bool} {source : Bytes} {tokens : List Token}
    (h : tokenize keepComments source = .ok tokens) {t : Token} (ht : t ∈ tokens)
    (hkind : t.kind = .identifier) :
    ∃ codes, SpellsName codes ∧ Utf8.encodeAll codes <:+: source ∧
      TokenKind.ofWord (Utf8.encodeAll codes) = .identifier ∧
      t.text = Layout.tokenText .identifier (Utf8.encodeAll codes) := by
  have hproper : t.kind.isProper := by rw [hkind]; rfl
  obtain ⟨front, b, u, rest, hbody, -, -, htext, hnext⟩ :=
    (isLexemeOf_of_tokenize h t ht hproper).exists_lexeme
  rw [hkind] at hnext htext
  obtain ⟨codes, hname, hspelling, hword⟩ := Lexeme.exists_codes_of_next hnext
  have hcodes : b :: u = Utf8.encodeAll codes := List.append_cancel_right hspelling
  obtain ⟨mark, hsource, -⟩ := exists_append_dropMark source
  refine ⟨codes, hname, ⟨mark ++ front, rest, ?_⟩, hword, hcodes ▸ htext⟩
  rw [hsource, hbody, hcodes]
  simp only [List.append_assoc]

/-- The text of an identifier, tokenized alone, is one word with the same text.  The word is that
identifier again, or else a keyword that the source has spelled with characters beyond ASCII. -/
theorem tokenize_text_of_identifier {keepComments : Bool} {source : Bytes} {tokens : List Token}
    (h : tokenize keepComments source = .ok tokens) {t : Token} (ht : t ∈ tokens)
    (hkind : t.kind = .identifier) (alone : Bool) :
    ∃ word newline final, tokenize alone t.text = .ok [word, newline, final] ∧
      word.text = t.text ∧ newline.kind = .newline ∧ final.kind = .endOfInput ∧
      (word.kind = .identifier ∨ ∃ spelling, spelling <:+: source ∧
        spelling.any Byte.isNonAscii ∧ t.text = Unicode.normalize spelling) := by
  obtain ⟨codes, hname, hinfix, hword, htext⟩ := exists_name_of_tokenize h ht hkind
  obtain ⟨name, hnormal, hsame, hstays⟩ := exists_name_of_tokenText hname
  rw [hsame] at htext
  obtain ⟨word, newline, final, htokens, hwordKind, hwordText, hkinds⟩ :=
    tokenize_encodeAll hnormal hstays alone
  rw [← htext] at htokens hwordText hwordKind
  refine ⟨word, newline, final, htokens, hwordText, hkinds.1, hkinds.2, ?_⟩
  by_cases hbeyond : (Utf8.encodeAll codes).any Byte.isNonAscii
  · right
    rw [Layout.tokenText, if_pos ⟨rfl, hbeyond⟩] at hsame
    exact ⟨_, hinfix, hbeyond, htext.trans hsame.symm⟩
  · left
    rw [Layout.tokenText, if_neg fun hand => hbeyond hand.2] at hsame
    rw [hwordKind, htext, ← hsame, hword]

/-- The letters of a keyword in full width are an identifier with the text of the keyword. -/
example : (tokenize false (Utf8.encodeAll [0xFF49, 0xFF46])).toOption.map (·.map Token.word) =
    some [⟨.identifier, text "if"⟩, ⟨.newline, text "\n"⟩, ⟨.endOfInput, []⟩] := by
  decide +kernel

/-- The text of an identifier that is spelled like no keyword is a name that is read as it is
written. -/
theorem isIdentifier_of_tokenize {keepComments : Bool} {source : Bytes} {tokens : List Token}
    (h : tokenize keepComments source = .ok tokens) {t : Token} (ht : t ∈ tokens)
    (hkind : t.kind = .identifier) (hword : TokenKind.ofWord t.text = .identifier) :
    IsIdentifier t.text := by
  obtain ⟨codes, hname, -, -, htext⟩ := exists_name_of_tokenize h ht hkind
  obtain ⟨name, hnormal, hsame, hstays⟩ := exists_name_of_tokenText hname
  obtain ⟨b, u, hs, hb, hafter⟩ := Lexeme.afterName_encodeAll hnormal
  rw [hsame] at htext
  rw [← htext] at hs hstays hafter
  rw [hword] at hafter
  exact ⟨⟨b, u, hs, hb, hafter⟩, hstays⟩

end SyntaxTree
