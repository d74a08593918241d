import SyntaxTree.Proofs.Grammar.Paid
import SyntaxTree.Proofs.Render.Operator
import SyntaxTree.Proofs.Token.Point

/-
# What texts offer

The text of an operand divides into words that supply a number of parentheses, unless one of its
points stands directly behind digits: such a point becomes part of a number.
-/

namespace SyntaxTree

/-- What begins with a byte that an operand can begin with still does with more behind it. -/
theorem exists_startsOperand_append {s : Bytes} (h : ∃ b t, s = b :: t ∧ b.startsOperand)
    (rest : Bytes) : ∃ b t, s ++ rest = b :: t ∧ b.startsOperand := by
  obtain ⟨b, t, rfl, hb⟩ := h
  exact ⟨b, t ++ rest, rfl, hb⟩

/-! ## Words -/

/-- Words that supply so many parentheses, the first of which is no point. -/
structure WordsOffer (parens : Nat) (ws : List Word) : Prop where
  supply : Weight.parens.supply (ws.map Word.kind) = parens
  head : (ws.map Word.kind).head? ≠ some .dot

/-- Words that a point can follow: the last of them is no integer. -/
def EndsApart (ws : List Word) : Prop := ∃ kind ∈ (ws.map Word.kind).getLast?, kind ≠ .integer

theorem WordsOffer.append {n n' : Nat} {ws ws' : List Word} (h : WordsOffer n ws)
    (h' : WordsOffer n' ws') : WordsOffer (n + n') (ws ++ ws') where
  supply := by
    rw [List.map_append, Weight.parens.supply_append (.inr h'.head), h.supply, h'.supply]
  head := by
    cases ws with
    | nil => exact h'.head
    | cons w ws => exact h.head

/-- A single word offers what its kind counts. -/
theorem WordsOffer.word {kind : TokenKind} (hkind : kind ≠ .dot) (s : Bytes) :
    WordsOffer (Weight.parens.ofKind kind) [⟨kind, s⟩] where
  supply := by simp [Weight.supply, Weight.ofNext]
  head := by simpa using hkind

theorem EndsApart.append {ws' : List Word} (h : EndsApart ws') (ws : List Word) :
    EndsApart (ws ++ ws') := by
  obtain ⟨kind, hlast, hkind⟩ := h
  refine ⟨kind, ?_, hkind⟩
  rw [List.map_append, List.getLast?_append, hlast]
  rfl

/-! ## Points behind digits -/

/-- A text that divides into words in front of what an operand can begin with, and that begins like
an operand unless it is empty. -/
structure Leading (front : Bytes) : Prop where
  begins : ∀ b ∈ front.head?, b.startsOperand
  divides : ∃ ws, ∀ rest, (∀ b ∈ rest.head?, b.startsOperand) → Divides (front ++ rest) rest ws

theorem Leading.nil : Leading [] := ⟨nofun, [], fun _ _ => ⟨[], rfl, .nil⟩⟩

theorem Opening.leading {s front : Bytes} {ws : List Word} (hs : Opening s ws) (h : Leading front) :
    Leading (s ++ front) where
  begins := by
    obtain ⟨b, t, rfl, hb⟩ := hs.begins
    rintro c hc
    obtain rfl := Option.some.inj hc
    exact hb
  divides := by
    obtain ⟨ws', hdivides⟩ := h.divides
    refine ⟨ws ++ ws', fun rest hrest => ?_⟩
    rw [List.append_assoc]
    refine (hs.divides _ fun b hb => ?_).trans (hdivides rest hrest)
    cases front with
    | nil => exact hrest b hb
    | cons c front => exact h.begins b hb

/-- An operand and what separates it from another one stand in front of that. -/
theorem Spells.opening {dotted : Bool} {l s : Bytes} {ws ws' : List Word} (hl : Spells dotted l ws)
    (hs : Separates s ws') : Opening (l ++ s) (ws ++ ws') where
  begins := exists_startsOperand_append hl.begins _
  divides := by
    intro rest hrest
    obtain ⟨b, t, rfl, hb⟩ := hs.begins
    rw [List.append_assoc]
    refine (hl.divides _ fun c hc => ?_).trans (hs.divides rest hrest)
    obtain rfl := Option.some.inj hc
    exact Byte.endsOperand_of_false _ hb

/-- A text with digits at its end, behind whole words. -/
def EndsInDigits (s : Bytes) : Prop :=
  ∃ front digits, s = front ++ digits ∧ Number.IsCanonical digits ∧ Leading front

/-- A text with a point directly behind digits, behind whole words. -/
def PointsAtDigits (s : Bytes) : Prop :=
  ∃ front digits post, s = front ++ (digits ++ ascii '.' :: post) ∧ Number.IsCanonical digits ∧
    Leading front

theorem EndsInDigits.behind {s r : Bytes} {ws : List Word} (h : EndsInDigits r)
    (hs : Opening s ws) : EndsInDigits (s ++ r) := by
  obtain ⟨front, digits, rfl, hdigits, hfront⟩ := h
  exact ⟨s ++ front, digits, (List.append_assoc ..).symm, hdigits, hs.leading hfront⟩

theorem EndsInDigits.point {s : Bytes} (h : EndsInDigits s) (post : Bytes) :
    PointsAtDigits (s ++ ascii '.' :: post) := by
  obtain ⟨front, digits, rfl, hdigits, hfront⟩ := h
  exact ⟨front, digits, post, List.append_assoc .., hdigits, hfront⟩

theorem PointsAtDigits.behind {s r : Bytes} {ws : List Word} (h : PointsAtDigits r)
    (hs : Opening s ws) : PointsAtDigits (s ++ r) := by
  obtain ⟨front, digits, post, rfl, hdigits, hfront⟩ := h
  exact ⟨s ++ front, digits, post, (List.append_assoc ..).symm, hdigits, hs.leading hfront⟩

theorem PointsAtDigits.append {s : Bytes} (h : PointsAtDigits s) (rest : Bytes) :
    PointsAtDigits (s ++ rest) := by
  obtain ⟨front, digits, post, rfl, hdigits, hfront⟩ := h
  exact ⟨front, digits, post ++ rest, by simp, hdigits, hfront⟩

/-! ## Texts of operands -/

/-- The text of an operand whose words supply so many parentheses, unless one of its points stands
directly behind digits. -/
structure Offers (parens points : Nat) (s : Bytes) : Prop where
  begins : ∃ b t, s = b :: t ∧ b.startsOperand
  points : s.count (ascii '.') = points
  words : PointsAtDigits s ∨ ∃ ws, Spells false s ws ∧ WordsOffer parens ws ∧
    (EndsInDigits s ∨ Spells true s ws ∧ EndsApart ws)

/-- A text in front of an operand that supplies so many parentheses, unless one of its points stands
directly behind digits. -/
structure OffersBefore (parens points : Nat) (s : Bytes) : Prop where
  begins : ∃ b t, s = b :: t ∧ b.startsOperand
  points : s.count (ascii '.') = points
  words : PointsAtDigits s ∨ ∃ ws, Opening s ws ∧ WordsOffer parens ws

/-- A text between operands that supplies so many parentheses. -/
structure OffersBetween (parens : Nat) (s : Bytes) : Prop where
  noPoint : s.count (ascii '.') = 0
  words : ∃ ws, Separates s ws ∧ WordsOffer parens ws

namespace Offers

variable {n n' q q' : Nat} {s l r : Bytes}

theorem name {id : Bytes} (hid : IsName id) : Offers 0 0 id where
  begins := (Spells.name hid).begins
  points := by
    obtain ⟨⟨b, t, rfl, hb, ht⟩, -⟩ := hid
    refine List.count_eq_zero.mpr fun hmem => ?_
    rcases List.mem_cons.mp hmem with rfl | hmem
    · exact absurd hb (by decide)
    · exact absurd (List.all_eq_true.mp ht _ hmem) (by decide)
  words := .inr ⟨_, (Spells.name hid).undotted, ⟨rfl, nofun⟩,
    .inr ⟨Spells.name hid, .identifier, rfl, nofun⟩⟩

theorem integer {digits : Bytes} (h : Number.IsCanonical digits) : Offers 0 0 digits where
  begins := (Spells.integer h).begins
  points := by
    refine List.count_eq_zero.mpr fun hmem => ?_
    exact absurd (List.all_eq_true.mp h.1 _ hmem) (by decide)
  words := .inr ⟨_, Spells.integer h, ⟨rfl, nofun⟩, .inl ⟨[], digits, rfl, h, .nil⟩⟩

/-- An operand with a text behind it that separates it from another. -/
theorem before (h : Offers n q l) (hs : OffersBetween n' s) : OffersBefore (n + n') q (l ++ s) where
  begins := exists_startsOperand_append h.begins _
  points := by rw [List.count_append, h.points, hs.noPoint, Nat.add_zero]
  words := by
    rcases h.words with hpoint | ⟨ws, hspells, hoffer, -⟩
    · exact .inl (hpoint.append s)
    · obtain ⟨ws', hseparates, hoffer'⟩ := hs.words
      exact .inr ⟨ws ++ ws', hspells.opening hseparates, hoffer.append hoffer'⟩

/-- An operand with a bracket behind it. -/
theorem closed (h : Offers n q l) {kind : TokenKind} (hs : Bracket s kind)
    (hpoint : s.count (ascii '.') = 0) (hkind : kind ≠ .integer ∧ kind ≠ .dot) :
    Offers (n + Weight.parens.ofKind kind) q (l ++ s) where
  begins := exists_startsOperand_append h.begins _
  points := by rw [List.count_append, h.points, hpoint, Nat.add_zero]
  words := by
    rcases h.words with hpoint | ⟨ws, hspells, hoffer, -⟩
    · exact .inl (hpoint.append s)
    · have hclosed := hspells.closed hs
      exact .inr ⟨_, hclosed.undotted, hoffer.append (.word hkind.2 s),
        .inr ⟨hclosed, .append ⟨kind, rfl, hkind.1⟩ ws⟩⟩

/-- A point directly behind digits is part of a number; behind another operand it takes an
attribute. -/
theorem «attribute» (h : Offers n q l) {name : Bytes} (hname : IsName name) :
    Offers n (q + 1) (l ++ (text "." ++ name)) where
  begins := exists_startsOperand_append h.begins _
  points := by
    rw [List.count_append, List.count_append, h.points, (Offers.name hname).points]
    rfl
  words := by
    rcases h.words with hpoint | ⟨ws, hspells, hoffer, hends⟩
    · exact .inl (hpoint.append _)
    -- The words that were found end where the point begins, unless a number takes the point.
    rcases hends with hdigits | ⟨hdotted, kind, hlast, hkind⟩
    · exact .inl (hdigits.point name)
    · have hattribute := hdotted.attribute hname
      rw [List.append_assoc] at hattribute
      refine .inr ⟨_, hattribute.undotted, ⟨?_, ?_⟩,
        .inr ⟨hattribute, .append ⟨.identifier, rfl, nofun⟩ ws⟩⟩
      · rw [List.map_append, Weight.parens.supply_append (.inl fun hinteger => ?_), hoffer.supply]
        · rfl
        · rw [hlast] at hinteger
          exact hkind (Option.some.inj hinteger)
      · cases ws with
        | nil => cases hlast
        | cons w ws => exact hoffer.head

end Offers

/-- An operand behind what stands in front of it. -/
theorem OffersBefore.operand {n n' q q' : Nat} {s r : Bytes}
    (hs : OffersBefore n q s) (h : Offers n' q' r) :
    Offers (n + n') (q + q') (s ++ r) where
  begins := exists_startsOperand_append hs.begins _
  points := by rw [List.count_append, hs.points, h.points]
  words := by
    rcases hs.words with hpoint | ⟨ws, hopening, hoffer⟩
    · exact .inl (hpoint.append r)
    rcases h.words with hpoint | ⟨ws', hspells, hoffer', hends⟩
    · exact .inl (hpoint.behind hopening)
    · refine .inr ⟨ws ++ ws', hspells.opened hopening, hoffer.append hoffer', ?_⟩
      rcases hends with hdigits | ⟨hdotted, happart⟩
      · exact .inl (hdigits.behind hopening)
      · exact .inr ⟨hdotted.opened hopening, happart.append ws⟩

/-! ## What stands in front of operands and between them -/

theorem Opening.offers {s : Bytes} {ws : List Word} {n : Nat} (h : Opening s ws)
    (hpoint : s.count (ascii '.') = 0) (hoffer : WordsOffer n ws) : OffersBefore n 0 s :=
  ⟨h.begins, hpoint, .inr ⟨ws, h, hoffer⟩⟩

namespace OffersBefore

theorem openParen : OffersBefore 1 0 (text "(") :=
  (Opening.operator Bracket.openParen.listed ⟨_, _, rfl, rfl⟩).offers rfl ⟨rfl, nofun⟩

theorem unary (op : UnaryOperator) :
    OffersBefore 0 0 (op.symbol ++ if op = .not then text " " else []) :=
  op.opening.offers (by cases op <;> decide) (by cases op <;> exact ⟨rfl, nofun⟩)

theorem lambda : OffersBefore 0 0 (text "lambda: ") :=
  Opening.lambda.offers (by decide) ⟨rfl, nofun⟩

theorem await : OffersBefore 0 0 (text "await ") :=
  (Opening.word ⟨_, _, rfl, rfl, rfl⟩ : Opening (text "await" ++ text " ") _).offers
    (by decide) ⟨rfl, nofun⟩

end OffersBefore

namespace OffersBetween

theorem boolean (op : BoolOperator) : OffersBetween 0 (text " " ++ op.symbol ++ text " ") :=
  ⟨by cases op <;> decide, _, op.signs.spaced, by cases op <;> exact ⟨rfl, nofun⟩⟩

theorem binary (op : BinaryOperator) : OffersBetween 0 (text " " ++ op.symbol ++ text " ") :=
  ⟨by cases op <;> decide, _, op.signs.spaced, by cases op <;> exact ⟨rfl, nofun⟩⟩

theorem comparison (op : CompareOperator) :
    OffersBetween 0 (text " " ++ op.symbol ++ text " ") := by
  obtain ⟨ws, hsigns, hkinds⟩ := op.exists_signs
  refine ⟨by cases op <;> decide, ws, hsigns.spaced, ?_, ?_⟩
  · rw [hkinds]
    cases op <;> rfl
  · rw [hkinds]
    cases op <;> exact nofun

theorem word {s : Bytes} (hs : IsWord s) (hpoint : s.count (ascii '.') = 0)
    (hoffer : WordsOffer 0 [⟨.ofWord s, s⟩]) : OffersBetween 0 (text " " ++ s ++ text " ") := by
  refine ⟨?_, _, (Signs.word hs).spaced, hoffer⟩
  rw [List.count_append, List.count_append, hpoint]
  rfl

theorem ifWord : OffersBetween 0 (text " if ") :=
  word (s := text "if") ⟨_, _, rfl, rfl, rfl⟩ rfl ⟨rfl, nofun⟩

theorem elseWord : OffersBetween 0 (text " else ") :=
  word (s := text "else") ⟨_, _, rfl, rfl, rfl⟩ rfl ⟨rfl, nofun⟩

theorem comma : OffersBetween 0 (text ", ") :=
  ⟨rfl, _, .comma, rfl, nofun⟩

theorem openParen : OffersBetween 1 (text "(") :=
  ⟨rfl, _, .bracket .openParen, rfl, nofun⟩

theorem openBracket : OffersBetween 0 (text "[") :=
  ⟨rfl, _, .bracket .openBracket, rfl, nofun⟩

end OffersBetween

/-! ## What is read from a text -/

theorem Weight.points_supply (kinds : List TokenKind) :
    Weight.points.supply kinds = kinds.countP (· = .dot) := by
  induction kinds with
  | nil => rfl
  | cons kind kinds ih =>
    rw [supply, ih, List.countP_cons, Nat.add_comm]
    cases kind <;> simp [ofNext, ofKind, points]

/-- The points ahead of a cursor are among those of all tokens. -/
theorem Cursor.ahead_points_le (lines : List Bytes) (tokens : List Token) :
    (ofTokens lines tokens).ahead .points ≤ tokens.countP Token.isPoint := by
  have hsublist : (ofTokens lines tokens).rest.Sublist tokens := by
    unfold ofTokens
    dsimp only
    split
    · exact List.nil_sublist _
    · split
      · exact (List.dropLast_sublist _).trans List.filter_sublist
      · exact List.filter_sublist
  rw [ahead, Weight.points_supply, List.countP_map]
  exact hsublist.countP_le

/-- Where a point stands directly behind digits, there are fewer points among the tokens. -/
theorem PointsAtDigits.countP_lt {s : Bytes} (h : PointsAtDigits s) (hmark : dropMark s = s)
    {tokens : List Token} (htokens : tokenize false s = .ok tokens) :
    tokens.countP Token.isPoint < s.count (ascii '.') := by
  have hfailure : (Division.ofBytes s).failure = none := by
    rw [tokenize, hmark] at htokens
    exact Layout.failure_eq_none_of_tokens htokens
  rw [countP_isPoint_of_tokenize htokens, hmark]
  obtain ⟨front, digits, post, rfl, hdigits, -, ws, hdivides⟩ := h
  obtain ⟨ls, hfront, -⟩ := hdivides (digits ++ ascii '.' :: post) fun b hb => by
    obtain ⟨d, t, rfl⟩ := List.exists_cons_of_ne_nil hdigits.2.1
    obtain rfl := Option.some.inj hb
    exact Byte.startsOperand_of_isDigit (List.all_eq_true.mp hdigits.1 d List.mem_cons_self)
  exact Division.countP_isPoint_lt hdigits hfront hfailure

/-- The tokens of a line supply what its words do. -/
theorem IsLine.ahead_eq {lines : List Bytes} {tokens : List Token} {ws : List Word} (w : Weight)
    (h : IsLine (.ok tokens) ws) :
    (Cursor.ofTokens lines tokens).ahead w = w.supply (ws.map Word.kind) := by
  obtain ⟨ts, newline, final, heq, rfl, hcomment, hnewline, hfinal⟩ := h
  obtain rfl := Except.ok.inj heq
  have hcomment' : ∀ t ∈ ts ++ [newline], t.kind ≠ .comment :=
    List.forall_mem_append.mpr ⟨hcomment, by simp [hnewline]⟩
  obtain ⟨-, hrest⟩ := Cursor.words_ofTokens lines hcomment' hfinal
  rw [List.append_assoc, List.singleton_append] at hrest
  rw [Cursor.ahead, hrest, List.map_append, w.supply_append (.inr (by simp [hnewline])),
    List.map_map, List.map_singleton, hnewline]
  rfl

/-- What is read from a text demands no more parentheses than its words supply, or it has fewer
points than the text. -/
theorem Offers.demand_le [Unicode.CharacterNames] {n q : Nat} {s : Bytes} (h : Offers n q s)
    {e : Expr} (hread : Expr.ofSource s = .ok e) :
    e.demand .parens .test ≤ n ∨ e.demand .points .test < q := by
  -- The tokens are those of the words, or some point is missing among them.
  obtain ⟨tokens, htokens, hdemand⟩ := Expr.demand_le_of_ofSource hread
  obtain ⟨b, t, rfl, hb⟩ := h.begins
  obtain ⟨hblank, hascii⟩ := Byte.startsOperand_plain hb
  rcases h.words with hpoint | ⟨ws, hspells, hoffer, -⟩
  · right
    calc e.demand .points .test
        ≤ _ := hdemand .points
      _ ≤ tokens.countP Token.isPoint := Cursor.ahead_points_le _ _
      _ < (b :: t).count (ascii '.') := hpoint.countP_lt (dropMark_cons hascii t) htokens
      _ = q := h.points
  · left
    have hwords := hspells.divides [] nofun
    rw [List.append_nil] at hwords
    have hline := hwords.tokenize hblank hascii
    rw [htokens] at hline
    calc e.demand .parens .test
        ≤ _ := hdemand .parens
      _ = Weight.parens.supply (ws.map Word.kind) := hline.ahead_eq .parens
      _ = n := hoffer.supply

end SyntaxTree
