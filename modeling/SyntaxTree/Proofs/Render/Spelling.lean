import SyntaxTree.Proofs.Grammar.Phrase
import SyntaxTree.Proofs.Token.Identifier
import SyntaxTree.Render.Expression

/-
# Texts of expressions

The text of an expression begins with a byte that an operand can begin with, and divides into its
words in front of every byte that can stand behind an operand.
-/

namespace SyntaxTree

/-! ## Bytes around operands -/

namespace Byte

/-- A byte that an operand can begin with. -/
def startsOperand (b : Byte) : Bool :=
  b.startsWord || b.isDigit || b.isQuote || b == ascii '(' || b == ascii '[' || b == openBrace ||
    b == ascii '+' || b == ascii '-' || b == ascii '~'

/-- A byte that can stand behind an operand; a point only where `dotted` says so. -/
def endsOperand (dotted : Bool) (b : Byte) : Bool :=
  b == space || b == ascii '(' || b == ascii ')' || b == ascii '[' || b == ascii ']' ||
    b == closeBrace || b == ascii ',' || b == ascii ':' || (dotted && b == ascii '.')

theorem endsWord_of_endsOperand {dotted : Bool} {b : Byte} (h : b.endsOperand dotted) :
    b.endsWord := by
  simp only [endsOperand, Bool.or_eq_true, Bool.and_eq_true, beq_iff_eq] at h
  rcases h with (((((((rfl | rfl) | rfl) | rfl) | rfl) | rfl) | rfl) | rfl) | ⟨-, rfl⟩ <;> rfl

theorem ne_dot_of_endsOperand {b : Byte} (h : b.endsOperand false) : b ≠ ascii '.' :=
  ne_of_class h rfl

/-- Where no point is allowed, less can stand behind an operand. -/
theorem endsOperand_of_false {b : Byte} (dotted : Bool) (h : b.endsOperand false) :
    b.endsOperand dotted := by
  simp only [endsOperand, Bool.false_and, Bool.or_false] at h
  simp only [endsOperand, h, Bool.true_or]

theorem startsOperand_of_startsWord {b : Byte} (h : b.startsWord) : b.startsOperand := by
  simp only [startsOperand, h, Bool.true_or]

theorem startsOperand_of_isDigit {b : Byte} (h : b.isDigit) : b.startsOperand := by
  simp only [startsOperand, h, Bool.true_or, Bool.or_true]

/-- An operand begins with a visible character of ASCII. -/
theorem startsOperand_plain {b : Byte} (h : b.startsOperand) :
    b.isBlank = false ∧ b.isNonAscii = false := by
  have hblank : b.isBlank = false := by
    have hne : ∀ {c : Byte}, c.startsOperand = false → b ≠ c := fun hc => ne_of_class h hc
    simp [isBlank, hne (c := space) rfl, hne (c := tab) rfl, hne (c := formFeed) rfl]
  refine ⟨hblank, ?_⟩
  simp only [startsOperand, isQuote, Bool.or_eq_true, beq_iff_eq] at h
  rcases h with (((((((h | h) | rfl | rfl) | rfl) | rfl) | rfl) | rfl) | rfl) | rfl
  · exact not_isNonAscii_of_isWordByte (isWordByte_of_startsWord h)
  · exact not_isNonAscii_of_isWordByte (by simp [Lexeme.isWordByte, h])
  all_goals rfl

end Byte

/-! ## Words -/

/-- The bytes of a name or keyword. -/
def IsWord (s : Bytes) : Prop := ∃ b t, s = b :: t ∧ b.startsWord ∧ t.all Lexeme.isWordByte

/-- Names that can be written as they are: words of ASCII characters that are no keywords. -/
def IsName (s : Bytes) : Prop := IsWord s ∧ ∀ x ∈ TokenKind.keywords, x.1 ≠ s

/-- A word is in normal form. -/
theorem IsWord.tokenText_eq {s : Bytes} (h : IsWord s) (kind : TokenKind) :
    Layout.tokenText kind s = s := by
  obtain ⟨b, t, rfl, hb, ht⟩ := h
  have hascii : (b :: t).any Byte.isNonAscii = false := by
    refine List.any_eq_false.mpr (List.forall_mem_cons.mpr ⟨?_, fun c hc => ?_⟩)
    · simp [Byte.not_isNonAscii_of_isWordByte (Byte.isWordByte_of_startsWord hb)]
    · simp [Byte.not_isNonAscii_of_isWordByte (List.all_eq_true.mp ht c hc)]
  rw [Layout.tokenText, hascii]
  simp

theorem IsName.ofWord {s : Bytes} (h : IsName s) : TokenKind.ofWord s = .identifier := by
  have hlookup : TokenKind.keywords.lookup s = none := by
    refine List.lookup_eq_none_iff.mpr fun x hx => ?_
    simpa using (h.2 x hx).symm
  rw [TokenKind.ofWord, hlookup]
  rfl

/-- A name is an identifier. -/
theorem IsName.isIdentifier {s : Bytes} (h : IsName s) : IsIdentifier s := by
  have hkind := h.ofWord
  refine ⟨?_, h.1.tokenText_eq _⟩
  obtain ⟨⟨b, t, rfl, hb, ht⟩, -⟩ := h
  have hascii := Byte.not_isNonAscii_of_isWordByte (Byte.isWordByte_of_startsWord hb)
  have hends : ∀ c ∈ ([] : Bytes).head?, c.endsWord := nofun
  have hafter : Lexeme.afterWord t = [] := by simpa using Lexeme.afterWord_append ht hends
  have hbefore : Lexeme.before (b :: t) [] = b :: t := by
    simpa using Lexeme.before_append (b :: t) []
  refine ⟨b, t, rfl, by rw [Byte.startsName, hb, Bool.true_or], ?_⟩
  rw [Lexeme.afterName, hascii, if_neg Bool.false_ne_true, hafter, hbefore,
    Lexeme.afterWordOrText_of_ends hends, hkind]

/-- No name or keyword is a comment. -/
theorem ofWord_ne_comment (s : Bytes) : TokenKind.ofWord s ≠ .comment :=
  TokenKind.forall_ofWord (p := (· ≠ .comment)) nofun (by decide) s

/-- Operators have texts, and none is an identifier or a comment. -/
theorem operators_plain :
    ∀ x ∈ TokenKind.operators, x.1 ≠ [] ∧ x.2 ≠ .identifier ∧ x.2 ≠ .comment := by
  decide

namespace Divides

/-- A name or keyword in front of a byte that ends it. -/
theorem word {s rest : Bytes} (hs : IsWord s) (hrest : ∀ b ∈ rest.head?, b.endsWord) :
    Divides (s ++ rest) rest [⟨.ofWord s, s⟩] := by
  have hspelling := hs.tokenText_eq (.ofWord s)
  obtain ⟨b, t, rfl, hb, ht⟩ := hs
  exact of_next (Lexeme.next_word hb ht hrest) ⟨ofWord_ne_comment _, hspelling⟩

/-- An integer in front of a byte that does not carry it on. -/
theorem integer {s rest : Bytes} (hs : Number.IsCanonical s)
    (hrest : ∀ b ∈ rest.head?, b.endsWord ∧ b ≠ ascii '.') :
    Divides (s ++ rest) rest [⟨.integer, s⟩] := by
  obtain ⟨b, t, rfl⟩ := List.exists_cons_of_ne_nil hs.2.1
  exact of_next (Lexeme.next_integer hs hrest) ⟨nofun, rfl⟩

/-- An operator in front of a byte that does not carry it on. -/
theorem operator {s rest : Bytes} {kind : TokenKind} (hs : (s, kind) ∈ TokenKind.operators)
    (hrest : ∀ c ∈ rest.head?, ¬ Lexeme.CarriesOn s c)
    (hdot : s = [ascii '.'] → ∀ c ∈ rest.head?, c.isDigit = false) :
    Divides (s ++ rest) rest [⟨kind, s⟩] := by
  obtain ⟨hne, hkind, hcomment⟩ := operators_plain _ hs
  obtain ⟨b, t, rfl⟩ := List.exists_cons_of_ne_nil hne
  refine of_next (Lexeme.next_operator hs hrest hdot) ⟨hcomment, ?_⟩
  rw [Layout.tokenText, if_neg (fun h => hkind h.1)]

end Divides

/-! ## What carries no operator on -/

/-- A byte that is none of the signs carries no operator on. -/
theorem Lexeme.not_carriesOn (isOf : Byte → Bool)
    (hsigns : (SyntaxTree.text "*/<=>.").all fun b => !isOf b) {s : Bytes} (hs : s ≠ []) {c : Byte}
    (hc : isOf c) : ¬ CarriesOn s c := by
  rintro ⟨x, hx, t, ht⟩
  obtain ⟨b, s, rfl⟩ := List.exists_cons_of_ne_nil hs
  have hmem : c ∈ x.1.tail := by
    rw [← ht]
    simp
  have hsign := List.all_eq_true.mp hsigns c (operator_goesOn x hx c hmem)
  rw [hc] at hsign
  cases hsign

/-- An operator that begins no longer one is carried on by nothing. -/
theorem Lexeme.not_carriesOn_of_alone {s : Bytes}
    (hs : ∀ x ∈ TokenKind.operators, s <+: x.1 → x.1 = s) (c : Byte) : ¬ CarriesOn s c := by
  rintro ⟨x, hx, hprefix⟩
  have heq := hs x hx ((List.prefix_append s [c]).trans hprefix)
  have hlength := hprefix.length_le
  rw [heq, List.length_append, List.length_singleton] at hlength
  omega

/-- An operator that begins no longer one is a word whatever stands behind it. -/
theorem Divides.alone {s : Bytes} {kind : TokenKind} (hs : (s, kind) ∈ TokenKind.operators)
    (halone : ∀ x ∈ TokenKind.operators, s <+: x.1 → x.1 = s) (hdot : s ≠ [ascii '.'])
    {rest : Bytes} : Divides (s ++ rest) rest [⟨kind, s⟩] :=
  .operator hs (fun c _ => Lexeme.not_carriesOn_of_alone halone c) fun h => absurd h hdot

/-! ## Brackets -/

/-- A bracket or a comma: it can stand behind an operand and begins no longer operator. -/
structure Bracket (s : Bytes) (kind : TokenKind) : Prop where
  listed : (s, kind) ∈ TokenKind.operators
  ends : ∃ b t, s = b :: t ∧ b.endsOperand false
  alone : ∀ x ∈ TokenKind.operators, s <+: x.1 → x.1 = s

namespace Bracket

theorem openParen : Bracket (text "(") .openParen :=
  ⟨by decide, ⟨_, _, rfl, rfl⟩, by decide⟩

theorem closeParen : Bracket (text ")") .closeParen :=
  ⟨by decide, ⟨_, _, rfl, rfl⟩, by decide⟩

theorem openBracket : Bracket (text "[") .openBracket :=
  ⟨by decide, ⟨_, _, rfl, rfl⟩, by decide⟩

theorem closeBracket : Bracket (text "]") .closeBracket :=
  ⟨by decide, ⟨_, _, rfl, rfl⟩, by decide⟩

theorem closeBrace : Bracket (text "\x7d") .closeBrace :=
  ⟨by decide, ⟨_, _, rfl, rfl⟩, by decide⟩

theorem comma : Bracket (text ",") .comma :=
  ⟨by decide, ⟨_, _, rfl, rfl⟩, by decide⟩

/-- A bracket is a word whatever stands behind it. -/
theorem divides {s : Bytes} {kind : TokenKind} (h : Bracket s kind) (rest : Bytes) :
    Divides (s ++ rest) rest [⟨kind, s⟩] := by
  obtain ⟨hlisted, ⟨b, t, rfl, hb⟩, halone⟩ := h
  refine .alone hlisted halone fun hdot => ?_
  obtain ⟨rfl, -⟩ := List.cons.inj hdot
  exact absurd hb (by decide)

end Bracket

/-! ## Signs between operands -/

/-- A text that has the given words in front of a blank. -/
structure Signs (s : Bytes) (ws : List Word) : Prop where
  begins : ∃ b t, s = b :: t ∧ b.isBlank = false
  divides : ∀ rest, rest.head? = some Byte.space → Divides (s ++ rest) rest ws

/-- A name or keyword. -/
theorem Signs.word {s : Bytes} (hs : IsWord s) : Signs s [⟨.ofWord s, s⟩] where
  begins := by
    obtain ⟨b, t, rfl, hb, -⟩ := hs
    exact ⟨b, t, rfl, (Byte.startsOperand_plain (Byte.startsOperand_of_startsWord hb)).1⟩
  divides := by
    intro rest hrest
    refine Divides.word hs fun b hb => ?_
    obtain rfl := Option.some.inj (hrest.symm.trans hb)
    rfl

/-- An operator. -/
theorem Signs.operator {s : Bytes} {kind : TokenKind} (hs : (s, kind) ∈ TokenKind.operators) :
    Signs s [⟨kind, s⟩] where
  begins := by
    obtain ⟨b, t, rfl⟩ := List.exists_cons_of_ne_nil (operators_plain _ hs).1
    have hb := Lexeme.operator_begins _ hs b rfl
    simp only [Bool.or_eq_false_iff] at hb
    exact ⟨b, t, rfl, hb.1.1.1.1.1.1.1⟩
  divides := by
    intro rest hrest
    have hspace : ∀ c ∈ rest.head?, c = Byte.space :=
      fun c hc => (Option.some.inj (hrest.symm.trans hc)).symm
    refine Divides.operator hs (fun c hc => ?_) (fun _ c hc => by rw [hspace c hc]; rfl)
    exact Lexeme.not_carriesOn (· == Byte.space) rfl (operators_plain _ hs).1
      (by simp [hspace c hc])

/-- Two words with a blank between them. -/
theorem Signs.pair {s s' : Bytes} {ws ws' : List Word} (h : Signs s ws) (h' : Signs s' ws') :
    Signs (s ++ text " " ++ s') (ws ++ ws') where
  begins := by
    obtain ⟨b, t, rfl, hb⟩ := h.begins
    exact ⟨b, _, rfl, hb⟩
  divides := by
    intro rest hrest
    obtain ⟨b, t, rfl, hb⟩ := h'.begins
    have hblank : Divides (text " " ++ (b :: t ++ rest)) (b :: t ++ rest) [] :=
      Divides.blank fun c hc => by
        obtain rfl := Option.some.inj hc
        exact hb
    rw [List.append_assoc, List.append_assoc]
    exact (h.divides _ rfl).trans (hblank.trans (h'.divides rest hrest))

/-! ## Texts around operands -/

/-- A text between two operands. -/
structure Separates (s : Bytes) (ws : List Word) : Prop where
  begins : ∃ b t, s = b :: t ∧ b.endsOperand false
  divides : ∀ rest, (∀ b ∈ rest.head?, b.startsOperand) → Divides (s ++ rest) rest ws

/-- A text between two items that ends with a blank. -/
structure Spaced (s : Bytes) (ws : List Word) : Prop where
  begins : ∃ b t, s = b :: t ∧ b.endsOperand false
  divides : ∀ rest, (∀ b ∈ rest.head?, b.isBlank = false) → Divides (s ++ rest) rest ws

/-- What separates items separates operands. -/
theorem Spaced.separates {s : Bytes} {ws : List Word} (h : Spaced s ws) : Separates s ws where
  begins := h.begins
  divides := fun rest hrest =>
    h.divides rest fun b hb => (Byte.startsOperand_plain (hrest b hb)).1

/-- A text in front of an operand, itself the beginning of one. -/
structure Opening (s : Bytes) (ws : List Word) : Prop where
  begins : ∃ b t, s = b :: t ∧ b.startsOperand
  divides : ∀ rest, (∀ b ∈ rest.head?, b.startsOperand) → Divides (s ++ rest) rest ws

/-- The text of an operand. -/
structure Spells (dotted : Bool) (s : Bytes) (ws : List Word) : Prop where
  begins : ∃ b t, s = b :: t ∧ b.startsOperand
  divides : ∀ rest, (∀ b ∈ rest.head?, b.endsOperand dotted) → Divides (s ++ rest) rest ws

/-- A blank in front of an operand. -/
theorem Divides.space {rest : Bytes} (hrest : ∀ b ∈ rest.head?, b.startsOperand) :
    Divides (text " " ++ rest) rest [] :=
  Divides.blank fun b hb => (Byte.startsOperand_plain (hrest b hb)).1

/-- A sign between blanks separates items. -/
theorem Signs.between {s : Bytes} {ws : List Word} (h : Signs s ws) :
    Spaced (text " " ++ s ++ text " ") ws where
  begins := ⟨Byte.space, _, rfl, rfl⟩
  divides := by
    intro rest hrest
    obtain ⟨b, t, rfl, hb⟩ := h.begins
    have hblank : Divides (text " " ++ (b :: t ++ (text " " ++ rest)))
        (b :: t ++ (text " " ++ rest)) [] :=
      Divides.blank fun c hc => by
        obtain rfl := Option.some.inj hc
        exact hb
    rw [List.append_assoc, List.append_assoc]
    have hwords := hblank.trans ((h.divides (text " " ++ rest) rfl).trans (.blank hrest))
    rw [List.nil_append, List.append_nil] at hwords
    exact hwords

/-- A sign between blanks separates operands. -/
theorem Signs.spaced {s : Bytes} {ws : List Word} (h : Signs s ws) :
    Separates (text " " ++ s ++ text " ") ws :=
  h.between.separates

namespace Spells

variable {dotted dotted' : Bool} {s l r : Bytes} {ws ws' ws'' : List Word}

/-- Where no point is allowed, less can stand behind an operand. -/
theorem undotted (h : Spells dotted s ws) : Spells false s ws where
  begins := h.begins
  divides := fun rest hrest => h.divides rest fun b hb => Byte.endsOperand_of_false _ (hrest b hb)

/-- Two operands and what stands between them. -/
theorem separated (hl : Spells dotted l ws) (hs : Separates s ws') (hr : Spells dotted' r ws'') :
    Spells dotted' (l ++ s ++ r) (ws ++ (ws' ++ ws'')) where
  begins := by
    obtain ⟨b, t, rfl, hb⟩ := hl.begins
    exact ⟨b, _, rfl, hb⟩
  divides := by
    intro rest hrest
    obtain ⟨b, t, rfl, hb⟩ := hs.begins
    obtain ⟨b', t', rfl, hb'⟩ := hr.begins
    rw [List.append_assoc, List.append_assoc]
    refine (hl.divides _ ?_).trans ((hs.divides _ ?_).trans (hr.divides rest hrest))
    · intro c hc
      obtain rfl := Option.some.inj hc
      exact Byte.endsOperand_of_false _ hb
    · intro c hc
      obtain rfl := Option.some.inj hc
      exact hb'

/-- What stands in front of an operand makes it one. -/
theorem opened (hs : Opening s ws) (hr : Spells dotted r ws') :
    Spells dotted (s ++ r) (ws ++ ws') where
  begins := by
    obtain ⟨b, t, rfl, hb⟩ := hs.begins
    exact ⟨b, _, rfl, hb⟩
  divides := by
    intro rest hrest
    obtain ⟨b, t, rfl, hb⟩ := hr.begins
    rw [List.append_assoc]
    refine (hs.divides _ ?_).trans (hr.divides rest hrest)
    intro c hc
    obtain rfl := Option.some.inj hc
    exact hb

/-- An operand with a bracket or a comma behind it. -/
theorem closed (h : Spells dotted l ws) {kind : TokenKind} (hs : Bracket s kind) :
    Spells true (l ++ s) (ws ++ [⟨kind, s⟩]) where
  begins := by
    obtain ⟨b, t, rfl, hb⟩ := h.begins
    exact ⟨b, _, rfl, hb⟩
  divides := by
    intro rest _
    rw [List.append_assoc]
    refine (h.divides _ ?_).trans (hs.divides rest)
    obtain ⟨b, t, rfl, hb⟩ := hs.ends
    intro c hc
    obtain rfl := Option.some.inj hc
    exact Byte.endsOperand_of_false _ hb

/-- Further operands, each behind what separates it from those in front of it. -/
theorem further {α : Type} {ts : List Bytes} {xs : List (Further α)}
    (h : List.Forall₂ (fun t x => ∃ s r, t = s ++ r ∧ Separates s x.sign ∧ Spells false r x.words)
      ts xs) :
    ∀ {l : Bytes} {ws : List Word}, Spells false l ws →
      Spells false (l ++ ts.flatten) (ws ++ xs.flatMap Further.all) := by
  induction h with
  | nil =>
    intro l ws hl
    simpa using hl
  | @cons t x ts xs hx _ ih =>
    intro l ws hl
    obtain ⟨s, r, rfl, hs, hr⟩ := hx
    have hall := ih (hl.separated hs hr)
    rw [List.flatten_cons, List.flatMap_cons, Further.all]
    simp only [List.append_assoc] at hall ⊢
    exact hall

end Spells

/-! ## Openings -/

/-- An operator that an operand can begin with. -/
theorem Opening.operator {s : Bytes} {kind : TokenKind} (hs : (s, kind) ∈ TokenKind.operators)
    (hbegins : ∃ b t, s = b :: t ∧ b.startsOperand) : Opening s [⟨kind, s⟩] where
  begins := hbegins
  divides := by
    intro rest hrest
    obtain ⟨b, t, rfl, hb⟩ := hbegins
    refine .operator hs
      (fun c hc => Lexeme.not_carriesOn Byte.startsOperand rfl (by simp) (hrest c hc)) ?_
    intro hdot
    obtain ⟨rfl, -⟩ := List.cons.inj hdot
    exact absurd hb (by decide)

/-- A word with a blank behind it. -/
theorem Opening.word {s : Bytes} (hs : IsWord s) : Opening (s ++ text " ") [⟨.ofWord s, s⟩] where
  begins := by
    obtain ⟨b, t, rfl, hb, -⟩ := hs
    exact ⟨b, _, rfl, Byte.startsOperand_of_startsWord hb⟩
  divides := by
    intro rest hrest
    rw [List.append_assoc]
    exact ((Signs.word hs).divides (text " " ++ rest) rfl).trans (.space hrest)

/-- One opening behind another. -/
theorem Opening.trans {s s' : Bytes} {ws ws' : List Word} (h : Opening s ws)
    (h' : Opening s' ws') : Opening (s ++ s') (ws ++ ws') where
  begins := by
    obtain ⟨b, t, rfl, hb⟩ := h.begins
    exact ⟨b, _, rfl, hb⟩
  divides := by
    intro rest hrest
    obtain ⟨b, t, rfl, hb⟩ := h'.begins
    rw [List.append_assoc]
    refine (h.divides _ ?_).trans (h'.divides rest hrest)
    intro c hc
    obtain rfl := Option.some.inj hc
    exact hb

/-! ## Atoms -/

/-- A name or keyword. -/
theorem Spells.word {s : Bytes} (hs : IsWord s) : Spells true s [⟨.ofWord s, s⟩] where
  begins := by
    obtain ⟨b, t, rfl, hb, -⟩ := hs
    exact ⟨b, t, rfl, Byte.startsOperand_of_startsWord hb⟩
  divides := fun _ hrest => Divides.word hs fun b hb => Byte.endsWord_of_endsOperand (hrest b hb)

/-- A name. -/
theorem Spells.name {s : Bytes} (hs : IsName s) : Spells true s [⟨.identifier, s⟩] :=
  hs.ofWord ▸ .word hs.1

/-- An integer. -/
theorem Spells.integer {s : Bytes} (hs : Number.IsCanonical s) :
    Spells false s [⟨.integer, s⟩] where
  begins := by
    obtain ⟨b, t, rfl⟩ := List.exists_cons_of_ne_nil hs.2.1
    exact ⟨b, t, rfl, Byte.startsOperand_of_isDigit (List.all_eq_true.mp hs.1 b (by simp))⟩
  divides := by
    intro rest hrest
    exact Divides.integer hs fun b hb =>
      ⟨Byte.endsWord_of_endsOperand (hrest b hb), Byte.ne_dot_of_endsOperand (hrest b hb)⟩

/-! ## Operands and brackets -/

/-- An opening bracket behind an operand, with an operand behind it. -/
theorem Separates.bracket {s : Bytes} {kind : TokenKind} (hs : Bracket s kind) :
    Separates s [⟨kind, s⟩] where
  begins := hs.ends
  divides := fun rest _ => hs.divides rest

/-- A comma and a blank between items. -/
theorem Spaced.comma : Spaced (text ", ") [⟨.comma, text ","⟩] where
  begins := ⟨_, _, rfl, rfl⟩
  divides := fun rest hrest => (Bracket.comma.divides (text " " ++ rest)).trans (.blank hrest)

/-- A comma and a blank between operands. -/
theorem Separates.comma : Separates (text ", ") [⟨.comma, text ","⟩] := Spaced.comma.separates

namespace Spells

variable {dotted dotted' : Bool} {l r s : Bytes} {ws ws' : List Word}

/-- An operand in parentheses. -/
theorem parenthesized (h : Spells dotted s ws) :
    Spells true (parenthesize s)
      (⟨.openParen, text "("⟩ :: (ws ++ [⟨.closeParen, text ")"⟩])) := by
  have hopening : Opening (text "(") [⟨.openParen, text "("⟩] :=
    .operator Bracket.openParen.listed ⟨_, _, rfl, rfl⟩
  exact (h.opened hopening).closed .closeParen

/-- Empty parentheses. -/
theorem emptyParentheses :
    Spells true (text "()") [⟨.openParen, text "("⟩, ⟨.closeParen, text ")"⟩] where
  begins := ⟨_, _, rfl, rfl⟩
  divides := fun rest _ =>
    (Bracket.openParen.divides (text ")" ++ rest)).trans (Bracket.closeParen.divides rest)

/-- A call without arguments. -/
theorem emptyCall (h : Spells dotted l ws) :
    Spells true (l ++ parenthesize [])
      (ws ++ [⟨.openParen, text "("⟩, ⟨.closeParen, text ")"⟩]) := by
  have hcall := (h.closed .openParen).closed .closeParen
  simpa [parenthesize] using hcall

/-- A call with arguments. -/
theorem call (h : Spells dotted l ws) (hr : Spells dotted' r ws') :
    Spells true (l ++ parenthesize r)
      (ws ++ ⟨.openParen, text "("⟩ :: (ws' ++ [⟨.closeParen, text ")"⟩])) := by
  have hcall := (h.separated (.bracket .openParen) hr).closed .closeParen
  simp only [List.append_assoc, List.singleton_append] at hcall
  simpa [parenthesize] using hcall

/-- A subscript. -/
theorem subscript (h : Spells dotted l ws) (hr : Spells dotted' r ws') :
    Spells true (l ++ text "[" ++ r ++ text "]")
      (ws ++ ⟨.openBracket, text "["⟩ :: (ws' ++ [⟨.closeBracket, text "]"⟩])) := by
  have hsubscript := (h.separated (.bracket .openBracket) hr).closed .closeBracket
  simpa using hsubscript

end Spells

/-- An attribute. -/
theorem Spells.attribute {l s : Bytes} {ws : List Word} (h : Spells true l ws) (hs : IsName s) :
    Spells true (l ++ text "." ++ s) (ws ++ [⟨.dot, text "."⟩, ⟨.identifier, s⟩]) where
  begins := by
    obtain ⟨b, t, rfl, hb⟩ := h.begins
    exact ⟨b, _, rfl, hb⟩
  divides := by
    intro rest hrest
    rw [List.append_assoc, List.append_assoc]
    have hname := (Spells.name hs).divides rest hrest
    obtain ⟨b, t, rfl, hb, -⟩ := hs.1
    have hdot : Divides (text "." ++ (b :: t ++ rest)) (b :: t ++ rest) [⟨.dot, text "."⟩] := by
      refine .operator (by decide)
        (fun c hc => Lexeme.not_carriesOn Byte.startsWord rfl (by decide) ?_) fun _ c hc => ?_
      · obtain rfl := Option.some.inj hc
        exact hb
      · obtain rfl := Option.some.inj hc
        exact Byte.not_isDigit_of_startsWord hb
    refine (h.divides _ ?_).trans (hdot.trans hname)
    intro c hc
    obtain rfl := Option.some.inj hc
    rfl

/-! ## Headers -/

/-- What is written for an operand begins with a visible character of ASCII. -/
theorem Spells.begins_plain {dotted : Bool} {s : Bytes} {ws : List Word} (h : Spells dotted s ws)
    (rest : Bytes) : ∃ b t, s ++ rest = b :: t ∧ b.isBlank = false ∧ b.isNonAscii = false := by
  obtain ⟨b, t, rfl, hb⟩ := h.begins
  exact ⟨b, _, rfl, Byte.startsOperand_plain hb⟩

/-- A colon at the end of a line. -/
theorem Divides.colon_line (rest : Bytes) :
    Divides (text ":" ++ (text "\n" ++ rest)) (text "\n" ++ rest) [⟨.colon, text ":"⟩] := by
  refine .operator (by decide) (fun c hc => ?_) fun _ c hc => ?_
  · obtain rfl := Option.some.inj hc
    exact Lexeme.not_carriesOn (· == Byte.lineFeed) rfl (by decide) rfl
  · obtain rfl := Option.some.inj hc
    rfl

/-- A word, an operand and a colon at the end of a line. -/
theorem Spells.header {word s : Bytes} {ws : List Word} {dotted : Bool} (hword : IsWord word)
    (h : Spells dotted s ws) (rest : Bytes) :
    Divides (word ++ text " " ++ s ++ (text ":" ++ (text "\n" ++ rest))) (text "\n" ++ rest)
      (⟨.ofWord word, word⟩ :: (ws ++ [⟨.colon, text ":"⟩])) := by
  refine ((h.opened (.word hword)).divides _ fun c hc => ?_).trans (.colon_line rest)
  obtain rfl := Option.some.inj hc
  rfl

end SyntaxTree
