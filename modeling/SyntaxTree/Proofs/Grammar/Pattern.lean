import SyntaxTree.Grammar.Pattern
import SyntaxTree.Proofs.Grammar.Separated
import SyntaxTree.Proofs.Token.Block
import SyntaxTree.Proofs.Tree.Bare
import SyntaxTree.Tree.Edit

/-
# Words that read as a pattern

The grammar of patterns has three levels: closed patterns, alternatives, and patterns with a name
for what they match.  Words read as a pattern at a level, however deep the nesting may go, if the
reading of the level takes exactly these words in front of each word that does not carry it on.
-/

namespace SyntaxTree

open Parse

/-! ## Levels -/

/-- The levels of patterns, the loosest first. -/
inductive PatternLevel where
  /-- A pattern and perhaps a name. -/
  | whole
  | alternatives
  /-- A pattern without operators. -/
  | closed

namespace PatternLevel

/-- The reading of a level. -/
def parse (inner : Parse Pattern) (field : FieldReading) : PatternLevel → Parse Pattern
  | whole => asPattern inner field
  | alternatives => orPattern inner field
  | closed => closedPattern inner field

/-- A word behind a pattern that does not carry its level on. -/
def endsAt (level : PatternLevel) : TokenKind → Bool
  | .comma | .colon | .closeParen | .closeBracket | .closeBrace => true
  | .kwAs => match level with
    | whole => false
    | _ => true
  | .pipe => match level with
    | closed => true
    | _ => false
  | _ => false

theorem ne_of_endsAt {level : PatternLevel} {kind kind' : TokenKind} (h : level.endsAt kind)
    (h' : level.endsAt kind' = false) : kind ≠ kind' := by
  rintro rfl
  exact nomatch h.symm.trans h'

/-- What ends alternatives ends each of them. -/
theorem endsAt_closed {kind : TokenKind} (h : alternatives.endsAt kind) : closed.endsAt kind := by
  cases kind <;> first | rfl | exact nomatch h

/-- What ends a pattern with a name ends one without. -/
theorem endsAt_alternatives {kind : TokenKind} (h : whole.endsAt kind) :
    alternatives.endsAt kind := by
  cases kind <;> first | rfl | exact nomatch h

end PatternLevel

/-- A word that a pattern can begin with. -/
def TokenKind.beginsPattern : TokenKind → Bool
  | .identifier | .integer | .minus | .string | .bytes | .noneWord | .boolean
  | .openParen | .openBracket | .openBrace => true
  | _ => false

theorem TokenKind.ne_of_beginsPattern {kind kind' : TokenKind} (h : kind.beginsPattern)
    (h' : kind'.beginsPattern = false) : kind ≠ kind' := by
  rintro rfl
  exact nomatch h.symm.trans h'

/-- Words that begin like a pattern, close their brackets, and cannot be taken for a keyword pattern
or a star. -/
structure OpensPattern (ws : List Word) (p : Pattern) : Prop where
  begins : ∃ w tail, ws = w :: tail ∧ w.kind.beginsPattern
  second : ∀ w ∈ ws.tail.head?, w.kind ≠ .equal
  closes : ClosesBrackets ws
  notStar : p.isStar = false

/-- Words that read as a pattern at a level. -/
structure ReadsPattern (level : PatternLevel) (ws : List Word) (p : Pattern) : Prop
    extends OpensPattern ws p where
  run : ∀ (field : FieldReading) (n : Nat) (c : Cursor) (f : Word) (more : List Word),
    ws.length ≤ n → c.words = ws ++ f :: more → level.endsAt f.kind →
    ∃ v c', level.parse (patternUpTo field n) field c = .ok v c' ∧ c'.words = f :: more ∧ v.bare = p

/-- A pattern that comes from no source. -/
def Pattern.new (shape : Pattern.Shape) : Pattern := .node .none shape

/-- The tree of a pattern tells whether it is a star. -/
theorem Pattern.isStar_bare (p : Pattern) : p.bare.isStar = p.isStar := by
  obtain ⟨_, shape⟩ := p
  cases shape <;> rfl

/-! ## From level to level -/

/-- Words in front of a word that is no equals sign. -/
theorem OpensPattern.append {ws more : List Word} {w : Word} {p p' : Pattern}
    (h : OpensPattern ws p) (hp' : p'.isStar = false) (hw : w.kind ≠ .equal)
    (hmore : ClosesBrackets (w :: more)) : OpensPattern (ws ++ w :: more) p' := by
  obtain ⟨first, tail, rfl, hfirst⟩ := h.begins
  refine ⟨⟨first, tail ++ w :: more, rfl, hfirst⟩, ?_, h.closes.append hmore, hp'⟩
  cases tail with
  | nil =>
    intro w' hw'
    obtain rfl : w = w' := Option.some.inj hw'
    exact hw
  | cons second tail => exact h.second

/-- Words between brackets. -/
theorem OpensPattern.bracketed {ws : List Word} {o close : Word} {p : Pattern}
    (hp : p.isStar = false) (ho : o.kind.isOpening) (hclose : close.kind.isClosing)
    (hsecond : ∀ w ∈ (ws ++ [close]).head?, w.kind ≠ .equal) (hws : ClosesBrackets ws) :
    OpensPattern (o :: (ws ++ [close])) p where
  begins := by
    refine ⟨o, _, rfl, ?_⟩
    cases hkind : o.kind <;> first | rfl | exact nomatch hkind ▸ ho
  second := hsecond
  closes := .bracketed ho hclose hws
  notStar := hp

/-- A closed pattern is a single alternative. -/
theorem ReadsPattern.alternatives {ws : List Word} {p : Pattern} (h : ReadsPattern .closed ws p) :
    ReadsPattern .alternatives ws p where
  toOpensPattern := h.toOpensPattern
  run := by
    intro field n c f more hn hc hf
    obtain ⟨v, c', hrun, hc', hv⟩ :=
      h.run field n c f more hn hc (PatternLevel.endsAt_closed hf)
    replace hrun : closedPattern (patternUpTo field n) field c = .ok v c' := hrun
    refine ⟨v, c', ?_, hc', hv⟩
    show orPattern _ _ c = _
    rw [orPattern, bind_ok (peek_run c), bind_ok hrun, bind_ok ((collect_run _ hc').trans
      (collectUpTo_none ?_ _))]
    · rfl
    · rw [bind_ok (accept_false hc' (PatternLevel.ne_of_endsAt hf rfl))]
      rfl

/-- Alternatives need no name. -/
theorem ReadsPattern.whole {ws : List Word} {p : Pattern} (h : ReadsPattern .alternatives ws p) :
    ReadsPattern .whole ws p where
  toOpensPattern := h.toOpensPattern
  run := by
    intro field n c f more hn hc hf
    obtain ⟨v, c', hrun, hc', hv⟩ :=
      h.run field n c f more hn hc (PatternLevel.endsAt_alternatives hf)
    replace hrun : orPattern (patternUpTo field n) field c = .ok v c' := hrun
    refine ⟨v, c', ?_, hc', hv⟩
    show asPattern _ _ c = _
    rw [asPattern, bind_ok (peek_run c), bind_ok hrun,
      bind_ok (accept_false hc' (PatternLevel.ne_of_endsAt hf rfl))]
    rfl

/-- A pattern within words that are more. -/
theorem ReadsPattern.inner {ws : List Word} {p : Pattern} (h : ReadsPattern .whole ws p)
    (field : FieldReading) {n : Nat} (hn : ws.length < n) {c : Cursor} {f : Word}
    {more : List Word} (hc : c.words = ws ++ f :: more) (hf : PatternLevel.whole.endsAt f.kind) :
    ∃ v c', patternUpTo field n c = .ok v c' ∧ c'.words = f :: more ∧ v.bare = p := by
  obtain ⟨n, rfl⟩ := Nat.exists_eq_add_of_lt hn
  exact h.run field _ c f more (Nat.le_add_right _ _) hc hf

/-- Where no star stands, a pattern is read. -/
theorem ReadsPattern.starOr {ws : List Word} {p : Pattern} (h : ReadsPattern .whole ws p)
    (field : FieldReading) {n : Nat} (hn : ws.length < n) {c : Cursor} {f : Word}
    {more : List Word} (hc : c.words = ws ++ f :: more) (hf : PatternLevel.whole.endsAt f.kind) :
    ∃ v c', Parse.starOr (patternUpTo field n) c = .ok v c' ∧ c'.words = f :: more ∧
      v.bare = p := by
  obtain ⟨v, c', hrun, hc', hv⟩ := h.inner field hn hc hf
  obtain ⟨w, tail, rfl, hw⟩ := h.begins
  refine ⟨v, c', ?_, hc', hv⟩
  rw [Parse.starOr, bind_ok (at?_run hc _),
    if_neg (by simpa using TokenKind.ne_of_beginsPattern hw rfl), hrun]

/-! ## Operators and parentheses -/

/-- A name for what alternatives match. -/
theorem ReadsPattern.as {ws : List Word} {p : Pattern} {sign name : Word}
    (h : ReadsPattern .alternatives ws p) (hsign : sign.kind = .kwAs)
    (hname : name.kind = .identifier) (htext : name.text ≠ text "_") :
    ReadsPattern .whole (ws ++ [sign, name]) (.new (.as (some p) (some name.text))) where
  toOpensPattern := by
    refine h.toOpensPattern.append rfl (hsign.trans_ne nofun) ?_
    exact .cons (by rw [hsign]; rfl) (by rw [hsign]; rfl)
      (.single (by rw [hname]; rfl) (by rw [hname]; rfl))
  run := by
    intro field n c f more hn hc hf
    rw [List.length_append] at hn
    rw [List.append_assoc] at hc
    obtain ⟨v, c₁, hrun, hc₁, hv⟩ := h.run field n c sign (name :: f :: more) (by omega) hc
      (by rw [hsign]; rfl)
    replace hrun : orPattern (patternUpTo field n) field c = .ok v c₁ := hrun
    have hc₂ := Cursor.words_advance hc₁ (by simp)
    have hpeek : c₁.advance.peek.text = name.text := congrArg Word.text (Cursor.word_peek hc₂)
    have hexpect : expectName .asPattern c₁.advance = .ok c₁.advance.peek c₁.advance.advance := by
      rw [expectName, bind_ok (at?_run hc₂ _), if_pos (by simpa using hname)]
      rfl
    refine ⟨.node (c₁.advance.advance.spanFrom c.peek.start) (.as (some v) (some name.text)),
      c₁.advance.advance, ?_, Cursor.words_advance hc₂ (by simp), ?_⟩
    · show asPattern _ _ c = _
      rw [asPattern, bind_ok (peek_run c), bind_ok hrun, bind_ok (accept_true hc₁ hsign)]
      simp only [if_true]
      rw [bind_ok hexpect, hpeek, if_neg htext]
      rfl
    · rw [Pattern.bare, Pattern.Shape.bare, Pattern.bareOption, hv]
      rfl

/-- Patterns that are the given ones apart from positions. -/
theorem Pattern.bareAll_eq {ι : Type} {as : List Pattern} {pieces : List ι} {value : ι → Pattern}
    (h : List.Forall₂ (fun a i => a.bare = value i) as pieces) :
    Pattern.bareAll as = pieces.map value := by
  induction h with
  | nil => rfl
  | cons ha _ ih =>
    rw [Pattern.bareAll, ha, ih]
    rfl

/-- Words and the pattern that they read as. -/
abbrev PatternPiece := List Word × Pattern

/-- Two or more alternatives. -/
theorem ReadsPattern.or {first : PatternPiece} {rest : List PatternPiece} {sign : Word}
    (hsign : sign.kind = .pipe) (hfirst : ReadsPattern .closed first.1 first.2)
    (hrest : ∀ x ∈ rest, ReadsPattern .closed x.1 x.2) (hne : rest ≠ []) :
    ReadsPattern .alternatives ([sign].intercalate ((first :: rest).map Prod.fst))
      (.new (.or ((first :: rest).map Prod.snd))) where
  toOpensPattern := by
    have hcloses : ClosesBrackets (([sign].intercalate ((first :: rest).map Prod.fst))) := by
      refine .intercalate (.single (by rw [hsign]; rfl) (by rw [hsign]; rfl)) ?_
      refine List.forall_mem_map.mpr (List.forall_mem_cons.mpr ⟨hfirst.closes, fun x hx => ?_⟩)
      exact (hrest x hx).closes
    obtain ⟨x, rest, rfl⟩ := List.exists_cons_of_ne_nil hne
    obtain ⟨w, tail, hws, hw⟩ := hfirst.begins
    refine ⟨?_, ?_, hcloses, rfl⟩
    · exact ⟨w, _, by rw [List.map_cons, intercalate_cons, hws]; rfl, hw⟩
    · have hsecond := hfirst.second
      rw [List.map_cons, intercalate_cons]
      rw [hws] at hsecond ⊢
      cases tail with
      | nil =>
        intro w' hw'
        obtain rfl : sign = w' := Option.some.inj hw'
        exact hsign.trans_ne nofun
      | cons second tail => exact hsecond
  run := by
    intro field n c f more hn hc hf
    rw [List.map_cons, intercalate_cons, List.append_assoc, List.flatMap_map] at hc
    have hlength : ∀ x ∈ first :: rest, x.1.length ≤ n := fun x hx =>
      Nat.le_trans (length_le_length_intercalate (List.mem_map_of_mem hx)) hn
    have hreads : ∀ x ∈ rest, ReadsItem (do
        if ← accept .pipe then return some (← closedPattern (patternUpTo field n) field)
        else return none) (PatternLevel.closed.endsAt ·) ([sign] ++ x.1) (·.bare = x.2) := by
      intro x hx
      refine ⟨⟨sign, x.1, rfl, by rw [hsign]; rfl⟩, fun c f more hc hf => ?_⟩
      obtain ⟨v, c', hrun, hc', hv⟩ := (hrest x hx).run field n c.advance f more
        (hlength x (List.mem_cons_of_mem first hx)) (Cursor.words_advance hc (by simp)) hf
      replace hrun : closedPattern (patternUpTo field n) field c.advance = .ok v c' := hrun
      refine ⟨v, c', ?_, hc', hv⟩
      rw [bind_ok (accept_true hc hsign)]
      simp only [if_true]
      rw [bind_ok hrun]
      rfl
    have hclosed := PatternLevel.endsAt_closed hf
    -- The first alternative stands in front of a pipe or of the word behind all of them.
    obtain ⟨f', more', hnext, hf'⟩ := exists_next_item more hreads hclosed
    obtain ⟨v, c₁, hrun, hc₁, hv⟩ :=
      hfirst.run field n c f' more' (hlength first (by simp)) (hc.trans (by rw [hnext])) hf'
    replace hrun : closedPattern (patternUpTo field n) field c = .ok v c₁ := hrun
    obtain ⟨as, c₂, hcollect, hc₂, has⟩ := collect_items hreads hclosed (fun c hc => ⟨c, by
      rw [bind_ok (accept_false hc (PatternLevel.ne_of_endsAt hf rfl))]
      rfl, hc⟩) (hc₁.trans hnext.symm)
    refine ⟨.node (c₂.spanFrom c.peek.start) (.or (v :: as)), c₂, ?_, hc₂, ?_⟩
    · show orPattern _ _ c = _
      rw [orPattern, bind_ok (peek_run c), bind_ok hrun, bind_ok hcollect, if_neg]
      · rfl
      · rw [has.length_eq]
        exact mt List.length_eq_zero_iff.mp hne
    · rw [Pattern.bare, Pattern.Shape.bare, Pattern.bareAll, hv, Pattern.bareAll_eq has]
      rfl

/-- A pattern in parentheses. -/
theorem ReadsPattern.group {ws : List Word} {p : Pattern} {o close : Word}
    (ho : o.kind = .openParen) (hclose : close.kind = .closeParen)
    (h : ReadsPattern .whole ws p) : ReadsPattern .closed (o :: (ws ++ [close])) p where
  toOpensPattern := by
    refine .bracketed h.notStar (by rw [ho]; rfl) (by rw [hclose]; rfl) ?_ h.closes
    obtain ⟨w, tail, rfl, hw⟩ := h.begins
    intro w' hw'
    obtain rfl : w = w' := Option.some.inj hw'
    exact TokenKind.ne_of_beginsPattern hw rfl
  run := by
    intro field n c f more hn hc hf
    rw [List.length_cons, List.length_append] at hn
    rw [List.cons_append, List.append_assoc] at hc
    have hadvance := Cursor.words_advance hc (by simp)
    obtain ⟨v, c', hrun, hc', hv⟩ := h.starOr field (n := n) (by omega) hadvance
      (by rw [hclose]; rfl)
    have hstar : v.isStar = false := by rw [← Pattern.isStar_bare, hv, h.notStar]
    obtain ⟨w, tail, rfl, hw⟩ := h.begins
    refine ⟨v, c'.advance, ?_, Cursor.words_advance hc' (by simp), hv⟩
    show closedPattern _ _ c = _
    rw [closedPattern, bind_ok (peek_run c), Cursor.kind_peek hc, ho]
    dsimp only
    rw [bind_ok (next_run c), parenthesizedPattern,
      bind_ok (accept_false hadvance (TokenKind.ne_of_beginsPattern hw rfl))]
    simp only [Bool.false_eq_true, if_false]
    rw [bind_ok hrun, bind_ok (at?_run hc' _), hstar, if_pos (by simpa using hclose),
      bind_ok (next_run c')]
    rfl

/-! ## Sequences -/

/-- The rest of a sequence: a star and a name. -/
theorem Parse.ReadsPiece.star (field : FieldReading) (n : Nat) {sign name : Word}
    (hsign : sign.kind = .star) (hname : name.kind = .identifier) :
    ReadsPiece (starOr (patternUpTo field n)) .closeBracket [sign, name]
      (·.bare = .new (.star (boundName name.text))) where
  begins := ⟨sign, [name], rfl, hsign.trans_ne nofun⟩
  run := by
    intro c f more hc hf
    have hc₁ := Cursor.words_advance hc (by simp)
    have hpeek : c.advance.peek.text = name.text := congrArg Word.text (Cursor.word_peek hc₁)
    have hexpect : expectName .starPattern c.advance = .ok c.advance.peek c.advance.advance := by
      rw [expectName, bind_ok (at?_run hc₁ _), if_pos (by simpa using hname)]
      rfl
    refine ⟨.node (c.advance.advance.spanFrom c.peek.start) (.star (boundName name.text)),
      c.advance.advance, ?_, Cursor.words_advance hc₁ (by simp), rfl⟩
    rw [starOr, bind_ok (at?_run hc _), if_pos (by simpa using hsign), bind_ok (next_run c),
      bind_ok hexpect, hpeek]
    rfl

/-- A pattern within a sequence. -/
theorem ReadsPattern.piece {ws : List Word} {p : Pattern} (h : ReadsPattern .whole ws p)
    (field : FieldReading) {n : Nat} (hn : ws.length < n) :
    ReadsPiece (Parse.starOr (patternUpTo field n)) .closeBracket ws (·.bare = p) where
  begins := by
    obtain ⟨w, tail, hws, hw⟩ := h.begins
    exact ⟨w, tail, hws, TokenKind.ne_of_beginsPattern hw rfl⟩
  run := by
    intro c f more hc hf
    refine h.starOr field hn hc ?_
    obtain hf | hf := hf <;> rw [hf] <;> rfl

/-- A pattern within a sequence, or a star. -/
def ReadsElement (x : PatternPiece) : Prop :=
  ReadsPattern .whole x.1 x.2 ∨ ∃ sign name : Word, sign.kind = .star ∧
    name.kind = .identifier ∧ x = ([sign, name], .new (.star (boundName name.text)))

theorem ReadsElement.closes {x : PatternPiece} (h : ReadsElement x) : ClosesBrackets x.1 := by
  obtain h | ⟨sign, name, hsign, hname, rfl⟩ := h
  · exact h.closes
  · exact .cons (by rw [hsign]; rfl) (by rw [hsign]; rfl)
      (.single (by rw [hname]; rfl) (by rw [hname]; rfl))

/-- No piece begins with an equals sign. -/
theorem ReadsElement.second {x : PatternPiece} (h : ReadsElement x) :
    ∃ w tail, x.1 = w :: tail ∧ w.kind ≠ .equal := by
  obtain h | ⟨sign, name, hsign, hname, rfl⟩ := h
  · obtain ⟨w, tail, hws, hw⟩ := h.begins
    exact ⟨w, tail, hws, TokenKind.ne_of_beginsPattern hw rfl⟩
  · exact ⟨sign, [name], rfl, hsign.trans_ne nofun⟩

/-- The first word between brackets is that of the first piece or the closing bracket. -/
theorem second_ne_equal {sign : Word} {close : Word} {wss : List (List Word)}
    (hclose : close.kind ≠ .equal) (h : ∀ ws ∈ wss, ∃ w tail, ws = w :: tail ∧ w.kind ≠ .equal) :
    ∀ w ∈ ([sign].intercalate wss ++ [close]).head?, w.kind ≠ .equal := by
  intro w hw
  cases wss with
  | nil =>
    obtain rfl : close = w := Option.some.inj hw
    exact hclose
  | cons ws wss =>
    obtain ⟨first, tail, rfl, hfirst⟩ := h ws (by simp)
    rw [intercalate_cons] at hw
    obtain rfl : first = w := Option.some.inj hw
    exact hfirst

/-- A sequence in brackets. -/
theorem ReadsPattern.sequence {pieces : List PatternPiece} {o close : Word}
    (ho : o.kind = .openBracket) (hclose : close.kind = .closeBracket)
    (h : ∀ x ∈ pieces, ReadsElement x) :
    ReadsPattern .closed (o :: ([Word.comma].intercalate (pieces.map Prod.fst) ++ [close]))
      (.new (.sequence (pieces.map Prod.snd))) where
  toOpensPattern := by
    refine .bracketed rfl (by rw [ho]; rfl) (by rw [hclose]; rfl) ?_ ?_
    · refine second_ne_equal (hclose.trans_ne nofun) ?_
      exact List.forall_mem_map.mpr fun x hx => (h x hx).second
    · refine .intercalate (.single rfl rfl) ?_
      exact List.forall_mem_map.mpr fun x hx => (h x hx).closes
  run := by
    intro field n c f more hn hc hf
    rw [List.length_cons, List.length_append] at hn
    rw [List.cons_append, List.append_assoc] at hc
    have hpieces : ∀ x ∈ pieces,
        ReadsPiece (Parse.starOr (patternUpTo field n)) .closeBracket x.1 (·.bare = x.2) := by
      intro x hx
      have hlength : x.1.length ≤ ([Word.comma].intercalate (pieces.map Prod.fst)).length :=
        length_le_length_intercalate (List.mem_map_of_mem hx)
      obtain hx | ⟨sign, name, hsign, hname, rfl⟩ := h x hx
      · exact hx.piece field (by omega)
      · exact .star field n hsign hname
    obtain ⟨as, c', hrun, hc', has⟩ := itemsUntil_run Prod.fst (fun a x => Pattern.bare a = x.2)
      (by decide) hpieces (Cursor.words_advance hc (by simp)) hclose
    refine ⟨.node (c'.advance.spanFrom c.peek.start) (.sequence as), c'.advance, ?_,
      Cursor.words_advance hc' (by simp), ?_⟩
    · show closedPattern _ _ c = _
      rw [closedPattern, bind_ok (peek_run c), Cursor.kind_peek hc, ho]
      dsimp only
      rw [bind_ok (next_run c), sequencePattern, bind_ok hrun,
        bind_ok (expect_run .sequenceClose hc' hclose)]
      rfl
    · rw [Pattern.bare, Pattern.Shape.bare, Pattern.bareAll_eq has]
      rfl

end SyntaxTree
