import SyntaxTree.Proofs.Grammar.Word
import SyntaxTree.Proofs.Number.Grammar
import SyntaxTree.Token.Layout

/-
# Texts that divide into words

A lexeme is found at the beginning of a text if what stands behind it does not carry it on.  Texts
of words and single blanks divide into these words, whatever place they begin at.
-/

namespace SyntaxTree

/-! ## Bytes around words -/

namespace Byte

/-- A byte that ends a word in front of it. -/
def endsWord (b : Byte) : Bool := !Lexeme.isWordByte b && !b.isNonAscii && !b.isQuote

/-- The bytes of words are those of ASCII characters. -/
theorem not_isNonAscii_of_isWordByte {b : Byte} (h : Lexeme.isWordByte b) :
    b.isNonAscii = false := by
  simp only [Lexeme.isWordByte, isLetter, isUpper, isLower, isDigit, underscore, Bool.or_eq_true,
    Bool.and_eq_true, decide_eq_true_eq, beq_iff_eq, UInt8.le_iff_toNat_le] at h
  simp only [isNonAscii, decide_eq_false_iff_not, UInt8.le_iff_toNat_le]
  rcases h with ((h | h) | h) | rfl
  all_goals simp at *
  all_goals omega

/-- A byte that a name or keyword can begin with. -/
def startsWord (b : Byte) : Bool := b.isLetter || b == underscore

theorem isWordByte_of_startsWord {b : Byte} (h : b.startsWord) : Lexeme.isWordByte b := by
  simp only [startsWord, Bool.or_eq_true] at h
  simp only [Lexeme.isWordByte, Bool.or_eq_true]
  exact h.elim (fun h => .inl (.inl h)) .inr

/-- A byte that a name can begin with, beyond ASCII too. -/
def startsName (b : Byte) : Bool := b.startsWord || b.isNonAscii

/-- A byte that a name can begin with is no digit. -/
theorem not_isDigit_of_startsWord {b : Byte} (h : b.startsWord) : b.isDigit = false := by
  simp only [startsWord, isLetter, isUpper, isLower, underscore, Bool.or_eq_true, Bool.and_eq_true,
    decide_eq_true_eq, beq_iff_eq, UInt8.le_iff_toNat_le] at h
  rcases h with (h | h) | rfl
  · simp only [isDigit, Bool.and_eq_false_iff, decide_eq_false_iff_not, UInt8.le_iff_toNat_le]
    simp at *
    omega
  · simp only [isDigit, Bool.and_eq_false_iff, decide_eq_false_iff_not, UInt8.le_iff_toNat_le]
    simp at *
    omega
  · rfl

/-- A byte is none of those outside of its class. -/
theorem ne_of_class {isOf : Byte → Bool} {b c : Byte} (h : isOf b) (hc : isOf c = false) :
    b ≠ c := by
  rintro rfl
  exact absurd h (by simp [hc])

/-- No name begins with a blank. -/
theorem not_isBlank_of_startsName {b : Byte} (h : b.startsName) : b.isBlank = false := by
  have hne : ∀ {c : Byte}, c.startsName = false → b ≠ c := fun hc => ne_of_class h hc
  simp [isBlank, hne (c := space) rfl, hne (c := tab) rfl, hne (c := formFeed) rfl]

end Byte

/-! ## Single lexemes -/

/-- A stretch of bytes ends where the first other byte stands. -/
theorem Bytes.takeWhile_append_stop {p : Byte → Bool} {s t : Bytes} (hs : ∀ b ∈ s, p b)
    (ht : ∀ b ∈ t.head?, p b = false) :
    (s ++ t).takeWhile p = s ∧ (s ++ t).dropWhile p = t := by
  rw [List.takeWhile_append_of_pos hs, List.dropWhile_append_of_pos hs]
  cases t with
  | nil => exact ⟨List.append_nil s, rfl⟩
  | cons b t =>
    have hb : ¬ p b := by simp [ht b rfl]
    rw [List.takeWhile_cons_of_neg hb, List.dropWhile_cons_of_neg hb]
    exact ⟨List.append_nil s, rfl⟩

/-- What holds of identifiers and of every keyword holds of the kind of a word. -/
theorem TokenKind.forall_ofWord {p : TokenKind → Prop} (hname : p .identifier)
    (hkeywords : ∀ entry ∈ keywords, p entry.2) (word : Bytes) : p (ofWord word) := by
  rw [ofWord]
  cases hlookup : keywords.lookup word with
  | none => exact hname
  | some kind =>
    obtain ⟨_, _, hsplit, -⟩ := List.lookup_eq_some_iff.mp hlookup
    exact hkeywords (word, kind) (by rw [hsplit]; simp)

/-- What stands in front of the rest of a text. -/
theorem Lexeme.before_append (s rest : Bytes) : before (s ++ rest) rest = s := by
  rw [before, List.length_append, Nat.add_sub_cancel]
  exact List.take_left

/-- A lexeme that is found in front of the rest of a text is the first of its division. -/
theorem Division.ofBytes_append {b : Byte} {t rest : Bytes} {kind : LexemeKind}
    (h : Lexeme.next b (t ++ rest) = .ok (kind, rest)) :
    ofBytes (b :: (t ++ rest)) = cons ⟨kind, b :: t⟩ (ofBytes rest) := by
  have hbefore : Lexeme.before (b :: (t ++ rest)) rest = b :: t :=
    Lexeme.before_append (b :: t) rest
  rw [ofBytes]
  split
  · rename_i herror
    cases h.symm.trans herror
  · rename_i kind' rest' hok
    obtain ⟨rfl, rfl⟩ := Prod.mk.inj (Except.ok.inj (h.symm.trans hok))
    rw [hbefore]

namespace Lexeme

/-- A word ends in front of a byte that ends it. -/
theorem afterWord_append {t rest : Bytes} (ht : t.all isWordByte)
    (hrest : ∀ b ∈ rest.head?, b.endsWord) : afterWord (t ++ rest) = rest := by
  induction t with
  | nil =>
    cases rest with
    | nil => rw [List.nil_append, afterWord]
    | cons b rest =>
      have hb : b.endsWord := hrest b rfl
      simp only [Byte.endsWord, Bool.and_eq_true, Bool.not_eq_true'] at hb
      rw [List.nil_append, afterWord]
      simp [hb]
  | cons b t ih =>
    simp only [List.all_cons, Bool.and_eq_true] at ht
    rw [List.cons_append, afterWord]
    simp only [Byte.not_isNonAscii_of_isWordByte ht.1, Bool.false_eq_true, if_false, ht.1, if_true]
    exact ih ht.2

theorem afterWord_of_decode? {b : Byte} {s rest : Bytes} {code : Nat} (hb : b.isNonAscii)
    (h : Utf8.decode? (b :: s) = some (code, rest)) :
    afterWord (b :: s) =
      if Unicode.isIdentifierContinue code then afterWord rest else b :: s := by
  rw [afterWord, if_pos hb]
  split
  · next hdecode =>
    obtain ⟨rfl, rfl⟩ := Prod.mk.inj (Option.some.inj (h.symm.trans hdecode))
    rfl
  · next hnone => cases h.symm.trans hnone

/-- A word in front of a byte that ends it is no prefix of a literal. -/
theorem afterWordOrText_of_ends {rest : Bytes} (hrest : ∀ b ∈ rest.head?, b.endsWord)
    (word : Bytes) : afterWordOrText word rest = .ok (.ofWord word, rest) := by
  cases rest with
  | nil => rfl
  | cons b rest =>
    have hb : b.endsWord := hrest b rfl
    simp only [Byte.endsWord, Bool.and_eq_true, Bool.not_eq_true'] at hb
    simp [afterWordOrText, hb]

/-- Lexemes other than blanks, line ends, comments and joins are tokens. -/
theorem next_eq_of_afterToken {b : Byte} {s rest : Bytes} {kind : TokenKind}
    (hblank : b.isBlank = false) (hend : b.isLineEnd = false) (hcomment : b ≠ ascii '#')
    (hjoin : b ≠ Byte.backslash) (h : afterToken b s = .ok (kind, rest)) :
    next b s = .ok (.token kind, rest) := by
  rw [next, hblank, hend, if_neg hcomment, if_neg hjoin, h]
  rfl

/-- A byte that a name can begin with begins neither blanks, lines, comments nor numbers. -/
theorem next_of_startsName {b : Byte} {s rest : Bytes} {kind : TokenKind} (hb : b.startsName)
    (h : afterName b s = .ok (kind, rest)) : next b s = .ok (.token kind, rest) := by
  have hne : ∀ {c : Byte}, c.startsName = false → b ≠ c := fun hc => Byte.ne_of_class hb hc
  have hend : b.isLineEnd = false := by
    simp [Byte.isLineEnd, hne (c := Byte.lineFeed) rfl, hne (c := Byte.carriageReturn) rfl]
  have hdigit : b.isDigit = false := by
    refine (Bool.or_eq_true_iff.mp hb).elim Byte.not_isDigit_of_startsWord fun hbeyond => ?_
    by_contra hdigit
    rw [Bool.not_eq_false] at hdigit
    have hword : isWordByte b := by simp [isWordByte, hdigit]
    exact absurd hbeyond (by simp [Byte.not_isNonAscii_of_isWordByte hword])
  have hdot : (b == ascii '.') = false := by simpa using hne (c := ascii '.') rfl
  have hname : b.isLetter || b == Byte.underscore || b.isNonAscii := hb
  refine next_eq_of_afterToken (Byte.not_isBlank_of_startsName hb) hend (hne rfl) (hne rfl) ?_
  rw [afterToken, hdigit, hdot, Bool.false_or, Bool.false_and, if_neg Bool.false_ne_true,
    if_pos hname, h]

/-- A text that begins like a name begins with one, with a keyword or with a prefix. -/
theorem next_of_startsWord {b : Byte} {s rest : Bytes} {kind : TokenKind} (hb : b.startsWord)
    (h : afterWordOrText (before (b :: s) (afterWord s)) (afterWord s) = .ok (kind, rest)) :
    next b s = .ok (.token kind, rest) := by
  have hascii := Byte.not_isNonAscii_of_isWordByte (Byte.isWordByte_of_startsWord hb)
  refine next_of_startsName (by rw [Byte.startsName, hb, Bool.true_or]) ?_
  rw [afterName, hascii, if_neg Bool.false_ne_true, h]

/-- A name or keyword is found in front of a byte that ends it. -/
theorem next_word {b : Byte} {t rest : Bytes} (hb : b.startsWord) (ht : t.all isWordByte)
    (hrest : ∀ b ∈ rest.head?, b.endsWord) :
    next b (t ++ rest) = .ok (.token (.ofWord (b :: t)), rest) := by
  refine next_of_startsWord hb ?_
  rw [afterWord_append ht hrest, ← List.cons_append, before_append]
  exact afterWordOrText_of_ends hrest (b :: t)

end Lexeme

/-! ## Integers -/

namespace Number

/-- The digits of a decimal numeral without superfluous zeros. -/
def IsCanonical (digits : Bytes) : Prop :=
  digits.all Byte.isDigit ∧ digits ≠ [] ∧ (digits.head? = some (ascii '0') → digits = [ascii '0'])

theorem digitRun_of_all {t : Bytes} (ht : t.all Byte.isDigit) : DigitRun .decimal t := by
  induction t with
  | nil => exact .nil
  | cons d t ih =>
    simp only [List.all_cons, Bool.and_eq_true] at ht
    exact .digit (NumberBase.decimal.isDigit_iff_mem.mp ht.1) (ih ht.2)

/-- A canonical numeral is an integer literal. -/
theorem IsCanonical.isInteger {t : Bytes} (h : IsCanonical t) : IsInteger t := by
  obtain ⟨hdigits, hne, hzero⟩ := h
  obtain ⟨b, t, rfl⟩ := List.exists_cons_of_ne_nil hne
  have hfilter : (b :: t).filter (· ≠ Byte.underscore) = b :: t :=
    List.filter_eq_self.mpr fun c hc =>
      decide_eq_true (Byte.ne_of_class (List.all_eq_true.mp hdigits c hc) rfl)
  simp only [List.all_cons, Bool.and_eq_true] at hdigits
  refine .decimal (.mk (NumberBase.decimal.isDigit_iff_mem.mp hdigits.1)
    (digitRun_of_all hdigits.2)) ?_
  rw [hfilter]
  by_cases hb : b = ascii '0'
  · exact .inl (by simp [hzero (congrArg some hb)])
  · exact .inr (by simpa using hb)

/-- A byte that ends a word ends a numeral. -/
theorem ends_of_endsWord {s : Bytes} (h : ∀ c ∈ s.head?, c.endsWord) : Ends s := by
  intro c hc
  have hends := h c hc
  simp only [Byte.endsWord, Lexeme.isWordByte, Bool.and_eq_true, Bool.not_eq_true',
    Bool.or_eq_false_iff, beq_eq_false_iff_ne] at hends
  simp [hends]

/-- A canonical numeral is found in front of a byte that ends it. -/
theorem after_append {b : Byte} {t rest : Bytes} (h : IsCanonical (b :: t))
    (hrest : ∀ b ∈ rest.head?, b.endsWord ∧ b ≠ ascii '.') :
    after b (t ++ rest) = .ok (.integer, rest) :=
  after_literal (.integer h.isInteger) rfl (ends_of_endsWord fun c hc => (hrest c hc).1)
    fun hpoint => (hrest _ hpoint).2 rfl

end Number

namespace Lexeme

/-- A number begins with a byte that begins no other lexeme. -/
theorem plain_of_begins {b : Byte} {s : Bytes} (h : Number.Begins b s) :
    b.isBlank = false ∧ b.isLineEnd = false ∧ b.isNonAscii = false ∧ b ≠ ascii '#' ∧
      b ≠ Byte.backslash := by
  have hplain : ∀ c : Byte, c.isDigit ∨ c = ascii '.' → c.isBlank = false ∧ c.isLineEnd = false ∧
      c.isNonAscii = false ∧ c ≠ ascii '#' ∧ c ≠ Byte.backslash :=
    Byte.forall_of_lt (by decide +kernel)
  exact hplain b (h.imp_right And.left)

/-- A number is a lexeme. -/
theorem next_of_number {b : Byte} {s rest : Bytes} {kind : TokenKind} (hb : Number.Begins b s)
    (h : Number.after b s = .ok (kind, rest)) : next b s = .ok (.token kind, rest) := by
  obtain ⟨hblank, hend, -, hmark, hbackslash⟩ := plain_of_begins hb
  refine next_eq_of_afterToken hblank hend hmark hbackslash ?_
  rw [afterToken, if_pos, h]
  rcases hb with hb | ⟨rfl, hs⟩
  · rw [hb, Bool.true_or]
  · rw [hs]
    rfl

/-- A canonical numeral is a lexeme in front of a byte that does not carry it on. -/
theorem next_integer {b : Byte} {t rest : Bytes} (h : Number.IsCanonical (b :: t))
    (hrest : ∀ b ∈ rest.head?, b.endsWord ∧ b ≠ ascii '.') :
    next b (t ++ rest) = .ok (.token .integer, rest) :=
  next_of_number (.inl (List.all_eq_true.mp h.1 b List.mem_cons_self)) (Number.after_append h hrest)

/-! ## Operators and blanks -/

/-- A blank is found in front of what is none. -/
theorem next_blank {rest : Bytes} (hrest : ∀ b ∈ rest.head?, b.isBlank = false) :
    next Byte.space rest = .ok (.blank, rest) := by
  have hdrop : rest.dropWhile Byte.isBlank = rest := by
    cases rest with
    | nil => rfl
    | cons b rest => simp [hrest b rfl]
  rw [next, if_pos (show Byte.space.isBlank = true from rfl), hdrop]

/-- A byte that carries an operator on to a longer one. -/
def CarriesOn (s : Bytes) (b : Byte) : Prop := ∃ x ∈ TokenKind.operators, s ++ [b] <+: x.1

/-- A longer operator stands in front of those that it begins with. -/
theorem pairwise_operators : TokenKind.operators.Pairwise fun x y => ¬ x.1 <+: y.1 := by
  decide +kernel

/-- The longest operator is found first. -/
theorem find_operator {s rest : Bytes} {kind : TokenKind} :
    ∀ {table : List (Bytes × TokenKind)}, table.Pairwise (fun x y => ¬ x.1 <+: y.1) →
      (∀ c ∈ rest.head?, ∀ x ∈ table, ¬ s ++ [c] <+: x.1) → (s, kind) ∈ table →
      table.find? (·.1.isPrefixOf (s ++ rest)) = some (s, kind) := by
  intro table
  induction table with
  | nil => exact fun _ _ h => nomatch h
  | cons x table ih =>
    intro hpairs hrest hmem
    obtain ⟨hx, hpairs⟩ := List.pairwise_cons.mp hpairs
    obtain rfl | hmem := List.mem_cons.mp hmem
    · rw [List.find?_cons_of_pos]
      simp
    · rw [List.find?_cons_of_neg]
      · exact ih hpairs (fun c hc y hy => hrest c hc y (List.mem_cons_of_mem x hy)) hmem
      intro hfound
      rw [List.isPrefixOf_iff_prefix] at hfound
      obtain hshort | ⟨u, hu⟩ := List.prefix_or_prefix_of_prefix hfound (List.prefix_append s rest)
      · exact hx _ hmem hshort
      · rw [← hu, List.prefix_append_right_inj] at hfound
        cases u with
        | nil => exact hx _ hmem (by simp [← hu])
        | cons c u =>
          obtain ⟨v, rfl⟩ := hfound
          exact hrest c rfl x (by simp) (by rw [← hu]; simp)

/-- The first byte of an operator begins nothing else. -/
theorem operator_begins : ∀ x ∈ TokenKind.operators, ∀ b ∈ x.1.head?,
    (b.isBlank || b.isLineEnd || b == ascii '#' || b == Byte.backslash || b.isDigit ||
      b.startsWord || b.isNonAscii || b.isQuote) = false := by
  have hall : TokenKind.operators.all fun x => x.1.head?.all fun b =>
      !(b.isBlank || b.isLineEnd || b == ascii '#' || b == Byte.backslash || b.isDigit ||
        b.startsWord || b.isNonAscii || b.isQuote) := by decide +kernel
  intro x hx b hb
  have hbegins := List.all_eq_true.mp hall x hx
  rw [Option.mem_def.mp hb, Option.all_some] at hbegins
  exact (Bool.not_eq_true' _).mp hbegins

/-- Behind its first byte an operator goes on with signs only. -/
theorem operator_goesOn :
    ∀ x ∈ TokenKind.operators, ∀ b ∈ x.1.tail, b ∈ SyntaxTree.text "*/<=>." := by
  have hall : TokenKind.operators.all fun x =>
      x.1.tail.all fun b => (SyntaxTree.text "*/<=>.").contains b := by decide +kernel
  intro x hx b hb
  exact List.contains_iff_mem.mp (List.all_eq_true.mp (List.all_eq_true.mp hall x hx) b hb)

/-- Operators of several bytes have a second byte that is no digit. -/
theorem operator_second {x : Bytes × TokenKind} (hx : x ∈ TokenKind.operators) :
    ∀ b ∈ x.1.tail.head?, b.isDigit = false := by
  have hsigns : ∀ b ∈ SyntaxTree.text "*/<=>.", b.isDigit = false :=
    List.forall_iff_forall_mem.mp (by decide)
  exact fun b hb => hsigns b (operator_goesOn x hx b (List.mem_of_mem_head? hb))

/-- An operator is found in front of a byte that does not carry it on. -/
theorem next_operator {b : Byte} {t rest : Bytes} {kind : TokenKind}
    (hkind : (b :: t, kind) ∈ TokenKind.operators)
    (hrest : ∀ c ∈ rest.head?, ¬ CarriesOn (b :: t) c)
    (hdot : b :: t = [ascii '.'] → ∀ c ∈ rest.head?, c.isDigit = false) :
    next b (t ++ rest) = .ok (.token kind, rest) := by
  have hb := operator_begins _ hkind b rfl
  simp only [Bool.or_eq_false_iff, Byte.startsWord, beq_eq_false_iff_ne] at hb
  obtain ⟨⟨⟨⟨⟨⟨⟨hblank, hend⟩, hcomment⟩, hjoin⟩, hdigit⟩, hletter, hunderscore⟩, hascii⟩,
    hquote⟩ := hb
  have hfraction : (b == ascii '.' && (t ++ rest).head?.any Byte.isDigit) = false := by
    rw [Bool.and_eq_false_iff]
    by_cases hb : b = ascii '.'
    · refine .inr ?_
      cases t with
      | nil =>
        cases rest with
        | nil => rfl
        | cons c rest => simpa using hdot (by rw [hb]) c rfl
      | cons c t => simpa using operator_second hkind c rfl
    · exact .inl (by simpa using hb)
  have hname : (b.isLetter || b == Byte.underscore || b.isNonAscii) = false := by
    simpa [hletter, hascii] using hunderscore
  refine next_eq_of_afterToken hblank hend hcomment hjoin ?_
  have hfind := find_operator pairwise_operators
    (fun c hc x hx hcarries => hrest c hc ⟨x, hx, hcarries⟩) hkind
  rw [afterToken, hdigit, hfraction, hname, hquote, afterOperator, ← List.cons_append, hfind]
  simp

end Lexeme

end SyntaxTree
