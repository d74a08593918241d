import SyntaxTree.Proofs.Grammar.Pattern
import SyntaxTree.Proofs.Grammar.Phrase

/-
# Values and names in patterns

A closed pattern without brackets is a literal, a singleton, a dotted name or a name that is bound.
Literals and dotted names are the keys of mappings too.
-/

namespace SyntaxTree

open Parse

/-! ## Dotted names -/

/-- An attribute of a value that began at a place, if a point follows. -/
def Parse.dottedStep (start : Position) (value : Expr) : Parse (ForInStep Expr) := do
  if ← accept .dot then
    let name ← expectName .patternAttribute
    return .yield (← exprFrom start (.attribute value name.text .load))
  else return .done value

/-- Words that are a name and attributes of it. -/
inductive ReadsDotted : List Word → Expr → Prop where
  | name {w : Word} (hw : w.kind = .identifier) : ReadsDotted [w] (.new (.name w.text .load))
  | «attribute» {ws : List Word} {e : Expr} {dot name : Word} (h : ReadsDotted ws e)
    (hdot : dot.kind = .dot) (hname : name.kind = .identifier) :
    ReadsDotted (ws ++ [dot, name]) (.new (.attribute e name.text .load))

namespace ReadsDotted

variable {ws : List Word} {e : Expr}

/-- A name comes first, and behind it a point if anything does. -/
theorem begins (h : ReadsDotted ws e) : ∃ w tail, ws = w :: tail ∧ w.kind = .identifier ∧
    ∀ w' ∈ tail.head?, w'.kind = .dot := by
  induction h with
  | name hw => exact ⟨_, [], rfl, hw, nofun⟩
  | «attribute» _ hdot hname ih =>
    obtain ⟨w, tail, rfl, hw, htail⟩ := ih
    refine ⟨w, _, rfl, hw, ?_⟩
    cases tail with
    | nil =>
      intro w' hw'
      exact Option.some.inj hw' ▸ hdot
    | cons second tail => exact htail

theorem closes (h : ReadsDotted ws e) : ClosesBrackets ws := by
  induction h with
  | name hw => exact .single (by rw [hw]; rfl) (by rw [hw]; rfl)
  | «attribute» _ hdot hname ih =>
    exact ih.append (.cons (by rw [hdot]; rfl) (by rw [hdot]; rfl)
      (.single (by rw [hname]; rfl) (by rw [hname]; rfl)))

/-- The words lead to the value, with which the reading of attributes goes on. -/
theorem leads (h : ReadsDotted ws e) : ∀ {c : Cursor} {f : Word} {more : List Word},
    c.words = ws ++ f :: more →
    ∃ v c' k, dottedValue c = iterateUpTo (dottedStep c.peek.start) k v c' ∧
      c'.words = f :: more ∧ more.length < k ∧ v.bare = e := by
  induction h with
  | @name w hw =>
    intro c f more hc
    have hadvance := Cursor.words_advance hc (by simp)
    refine ⟨.node (c.advance.spanFrom c.peek.start) (.name c.peek.text .load), c.advance,
      more.length + 1, ?_, hadvance, Nat.lt_succ_self _, ?_⟩
    · rw [← iterate_run _ _ hadvance, dottedValue, bind_ok (next_run c)]
      rfl
    · rw [← Cursor.word_peek hc]
      rfl
  | @«attribute» ws e dot name _ hdot hname ih =>
    intro c f more hc
    rw [List.append_assoc, List.cons_append, List.singleton_append] at hc
    obtain ⟨v, c₁, k, hrun, hc₁, hk, hv⟩ := ih hc
    simp only [List.length_cons] at hk
    obtain ⟨k, rfl⟩ := Nat.exists_eq_add_of_lt hk
    have hc₂ := Cursor.words_advance hc₁ (by simp)
    have hpeek : c₁.advance.peek.text = name.text := congrArg Word.text (Cursor.word_peek hc₂)
    have hexpect : expectName .patternAttribute c₁.advance =
        .ok c₁.advance.peek c₁.advance.advance := by
      rw [expectName, bind_ok (at?_run hc₂ _), if_pos (by simpa using hname)]
      rfl
    let value : Expr :=
      .node (c₁.advance.advance.spanFrom c.peek.start) (.attribute v name.text .load)
    have hstep : dottedStep c.peek.start v c₁ = .ok (.yield value) c₁.advance.advance := by
      rw [dottedStep, bind_ok (accept_true hc₁ hdot)]
      simp only [if_true]
      rw [bind_ok hexpect, hpeek]
      rfl
    refine ⟨value, c₁.advance.advance, more.length + 1 + 1 + k, ?_,
      Cursor.words_advance hc₂ (by simp), by omega, ?_⟩
    · exact hrun.trans (iterateUpTo_yield hstep _)
    · rw [Expr.bare, Expr.Shape.bare, hv]
      rfl

/-- A dotted name is read up to a word that is no point. -/
theorem run (h : ReadsDotted ws e) {c : Cursor} {f : Word} {more : List Word}
    (hc : c.words = ws ++ f :: more) (hf : f.kind ≠ .dot) :
    ∃ v c', dottedValue c = .ok v c' ∧ c'.words = f :: more ∧ v.bare = e := by
  obtain ⟨v, c', k, hrun, hc', hk, hv⟩ := h.leads hc
  obtain ⟨k, rfl⟩ := Nat.exists_eq_add_of_lt hk
  refine ⟨v, c', hrun.trans (iterateUpTo_done ?_ _), hc', hv⟩
  rw [dottedStep, bind_ok (accept_false hc' hf)]
  rfl

/-- A name with attributes has a point behind it. -/
theorem second (h : ReadsDotted ws e) (htail : ws.tail ≠ []) :
    ∃ w w' tail, ws = w :: w' :: tail ∧ w.kind = .identifier ∧ w'.kind = .dot := by
  obtain ⟨w, tail, rfl, hw, hdot⟩ := h.begins
  obtain ⟨w', tail, rfl⟩ := List.exists_cons_of_ne_nil htail
  exact ⟨w, w', tail, rfl, hw, hdot w' rfl⟩

/-- A single word is a name without attributes. -/
theorem eq_name {w : Word} (h : ReadsDotted [w] e) : e = .new (.name w.text .load) := by
  generalize hws : [w] = ws at h
  cases h with
  | name _ =>
    obtain ⟨rfl, -⟩ := List.cons.inj hws
    rfl
  | «attribute» _ _ _ =>
    have hlength := congrArg List.length hws
    rw [List.length_append, List.length_cons] at hlength
    simp at hlength

/-- An attribute has words behind the name. -/
theorem tail_ne_nil {value : Expr} {name : Bytes} {span : Span}
    (h : ReadsDotted ws (.node span (.attribute value name .load))) : ws.tail ≠ [] := by
  cases h with
  | «attribute» h hdot hname =>
    obtain ⟨w, tail, rfl, -⟩ := h.begins
    simp

/-- A dotted name is an expression. -/
theorem expression (h : ReadsDotted ws e) : Leads .atom ws e := by
  induction h with
  | name hw => exact .name hw
  | «attribute» _ hdot hname ih => exact ih.attribute hdot hname

theorem opens (h : ReadsDotted ws e) {p : Pattern} (hp : p.isStar = false) : OpensPattern ws p := by
  obtain ⟨w, tail, rfl, hw, hdot⟩ := h.begins
  exact ⟨⟨w, tail, rfl, by rw [hw]; rfl⟩, fun w' hw' => (hdot w' hw').trans_ne nofun, h.closes, hp⟩

end ReadsDotted

/-- The pattern that begins with a name. -/
theorem Parse.closedPattern_name {inner : Parse Pattern} {field : FieldReading} {c : Cursor}
    {w : Word} {ws : List Word} (hc : c.words = w :: ws) (hw : w.kind = .identifier) :
    closedPattern inner field c = namePattern inner c.peek c := by
  rw [closedPattern, bind_ok (peek_run c), Cursor.kind_peek hc, hw]

/-- The value of a dotted name. -/
theorem ReadsPattern.dotted {ws : List Word} {e : Expr} (h : ReadsDotted ws e)
    (htail : ws.tail ≠ []) : ReadsPattern .closed ws (.new (.value e)) where
  toOpensPattern := h.opens rfl
  run := by
    intro field n c f more _ hc hf
    obtain ⟨v, c', hrun, hc', hv⟩ := h.run hc (PatternLevel.ne_of_endsAt hf rfl)
    obtain ⟨w, w', tail, rfl, hw, hw'⟩ := h.second htail
    refine ⟨.node (c'.spanFrom c.peek.start) (.value v), c', ?_, hc', ?_⟩
    · refine (closedPattern_name hc hw).trans ?_
      rw [namePattern, bind_ok (kindAt_run hc), if_pos (by simpa using hw'), bind_ok hrun,
        bind_ok (at?_run hc' _), if_neg (by simpa using PatternLevel.ne_of_endsAt hf rfl)]
      rfl
    · rw [Pattern.bare, Pattern.Shape.bare, hv]
      rfl

/-- A name that is bound, or the wildcard. -/
theorem ReadsPattern.capture {w : Word} (hw : w.kind = .identifier) :
    ReadsPattern .closed [w] (.new (.as none (boundName w.text))) where
  begins := ⟨w, [], rfl, by rw [hw]; rfl⟩
  second := nofun
  closes := .single (by rw [hw]; rfl) (by rw [hw]; rfl)
  notStar := rfl
  run := by
    intro field n c f more _ hc hf
    have hc' := Cursor.words_advance hc (by simp)
    have htext : c.peek.text = w.text := congrArg Word.text (Cursor.word_peek hc)
    refine ⟨.node (c.advance.spanFrom c.peek.start) (.as none (boundName w.text)), c.advance, ?_,
      hc', rfl⟩
    refine (closedPattern_name hc hw).trans ?_
    rw [namePattern, bind_ok (kindAt_run hc),
      if_neg (by simpa using PatternLevel.ne_of_endsAt hf rfl), bind_ok (next_run c),
      bind_ok (at?_run hc' _), if_neg (by simpa using PatternLevel.ne_of_endsAt hf rfl), htext]
    rfl

/-! ## Singletons -/

/-- A value that is compared by identity. -/
theorem ReadsPattern.none {w : Word} (hw : w.kind = .noneWord) :
    ReadsPattern .closed [w] (.new (.singleton .none)) where
  begins := ⟨w, [], rfl, by rw [hw]; rfl⟩
  second := nofun
  closes := .single (by rw [hw]; rfl) (by rw [hw]; rfl)
  notStar := rfl
  run := by
    intro field n c f more _ hc _
    refine ⟨.node (c.advance.spanFrom c.peek.start) (.singleton .none), c.advance, ?_,
      Cursor.words_advance hc (by simp), rfl⟩
    show closedPattern _ _ c = _
    rw [closedPattern, bind_ok (peek_run c), Cursor.kind_peek hc, hw]
    rfl

theorem ReadsPattern.boolean {w : Word} (hw : w.kind = .boolean) :
    ReadsPattern .closed [w] (.new (.singleton (.boolean (w.text == text "True")))) where
  begins := ⟨w, [], rfl, by rw [hw]; rfl⟩
  second := nofun
  closes := .single (by rw [hw]; rfl) (by rw [hw]; rfl)
  notStar := rfl
  run := by
    intro field n c f more _ hc _
    have htext : c.peek.text = w.text := congrArg Word.text (Cursor.word_peek hc)
    refine ⟨.node (c.advance.spanFrom c.peek.start) (.singleton (.boolean (isTrueWord c.peek))),
      c.advance, ?_, Cursor.words_advance hc (by simp), by rw [isTrueWord, htext]; rfl⟩
    show closedPattern _ _ c = _
    rw [closedPattern, bind_ok (peek_run c), Cursor.kind_peek hc, hw]
    rfl

/-! ## Literals -/

/-- A word that a literal value can begin with. -/
def TokenKind.beginsLiteral : TokenKind → Bool
  | .integer | .minus | .string | .bytes | .noneWord | .boolean => true
  | _ => false

/-- Words that read as a literal value. -/
structure ReadsLiteral (ws : List Word) (e : Expr) : Prop where
  begins : ∃ w tail, ws = w :: tail ∧ w.kind.beginsLiteral
  second : ∀ w ∈ ws.tail.head?, w.kind ≠ .equal
  closes : ClosesBrackets ws
  run : ∀ (field : FieldReading) (c : Cursor) (f : Word) (more : List Word),
    c.words = ws ++ f :: more → PatternLevel.closed.endsAt f.kind →
    ∃ v c', literalValue field c = .ok v c' ∧ c'.words = f :: more ∧ v.bare = e

namespace ReadsLiteral

/-- A literal of a single word. -/
theorem word {w : Word} {e : Expr} (hw : w.kind.beginsLiteral)
    (hrun : ∀ (field : FieldReading) (c : Cursor) (f : Word) (more : List Word),
      c.words = w :: f :: more → PatternLevel.closed.endsAt f.kind →
      ∃ v, literalValue field c = .ok v c.advance ∧ v.bare = e) : ReadsLiteral [w] e where
  begins := ⟨w, [], rfl, hw⟩
  second := nofun
  closes := by
    refine .single ?_ ?_ <;> cases hkind : w.kind <;> first | rfl | exact nomatch hkind ▸ hw
  run := by
    intro field c f more hc hf
    obtain ⟨v, hrun, hv⟩ := hrun field c f more hc hf
    exact ⟨v, c.advance, hrun, Cursor.words_advance hc (by simp), hv⟩

theorem none {w : Word} (hw : w.kind = .noneWord) :
    ReadsLiteral [w] (.new (.constant .none)) := by
  refine word (by rw [hw]; rfl) fun field c f more hc _ =>
    ⟨.node (c.advance.spanFrom c.peek.start) (.constant .none), ?_, rfl⟩
  rw [literalValue, bind_ok (peek_run c), Cursor.kind_peek hc, hw]
  rfl

theorem boolean {w : Word} (hw : w.kind = .boolean) :
    ReadsLiteral [w] (.new (.constant (.boolean (w.text == text "True")))) := by
  refine word (by rw [hw]; rfl) fun field c f more hc _ =>
    ⟨.node (c.advance.spanFrom c.peek.start) (.constant (.boolean (isTrueWord c.peek))), ?_, ?_⟩
  · rw [literalValue, bind_ok (peek_run c), Cursor.kind_peek hc, hw]
    rfl
  · rw [← Cursor.word_peek hc]
    rfl

/-- A literal in quotes. -/
theorem text {w : Word} {value : Constant} (hw : w.kind = .string ∨ w.kind = .bytes)
    (hrun : ∀ (field : FieldReading) (c : Cursor) (f : Word) (more : List Word),
      c.words = w :: f :: more → f.kind.isText = false →
      ∃ span, strings field c = .ok (.node span (.constant value)) c.advance) :
    ReadsLiteral [w] (.new (.constant value)) := by
  refine word (by obtain hw | hw := hw <;> rw [hw] <;> rfl) fun field c f more hc hf => ?_
  have hnot : f.kind.isText = false := by
    cases hkind : f.kind <;> first | rfl | exact nomatch hkind ▸ hf
  obtain ⟨span, hstrings⟩ := hrun field c f more hc hnot
  refine ⟨.node span (.constant value), ?_, rfl⟩
  have hunformatted : unformatted field c = .ok (.node span (.constant value)) c.advance := by
    rw [unformatted, bind_ok hstrings]
    rfl
  rw [literalValue, bind_ok (peek_run c), Cursor.kind_peek hc]
  obtain hw | hw := hw <;> rw [hw] <;> exact hunformatted

end ReadsLiteral

/-! ## Literals as expressions -/

/-- The word `None`. -/
theorem Leads.none {w : Word} (hw : w.kind = .noneWord) :
    Leads .atom [w] (.new (.constant .none)) := by
  refine Leads.word (by rw [hw]; decide) rfl fun read field c more hc =>
    ⟨.node (c.advance.spanFrom c.peek.start) (.constant .none), ?_, rfl⟩
  rw [atom, bind_ok (peek_run c), Cursor.kind_peek hc, hw]
  rfl

/-- A truth value. -/
theorem Leads.boolean {w : Word} (hw : w.kind = .boolean) :
    Leads .atom [w] (.new (.constant (.boolean (w.text == text "True")))) := by
  refine Leads.word (by rw [hw]; decide) rfl fun read field c more hc =>
    ⟨.node (c.advance.spanFrom c.peek.start) (.constant (.boolean (isTrueWord c.peek))), ?_, ?_⟩
  · rw [atom, bind_ok (peek_run c), Cursor.kind_peek hc, hw]
    rfl
  · rw [← Cursor.word_peek hc]
    rfl

/-- A literal in quotes, which a further one would carry on. -/
theorem Reads.text {w : Word} {value : Constant} (hw : w.kind = .string ∨ w.kind = .bytes)
    (hrun : ∀ (field : FieldReading) (c : Cursor) (f : Word) (more : List Word),
      c.words = w :: f :: more → f.kind.isText = false →
      ∃ span, strings field c = .ok (.node span (.constant value)) c.advance) :
    Reads .atom [w] (.new (.constant value)) where
  begins := ⟨w, [], rfl, by obtain hw | hw := hw <;> rw [hw] <;> decide⟩
  second := nofun
  notStarred := rfl
  run := by
    intro field n c f more _ hc hf
    have hnot : f.kind.isText = false := by
      cases hkind : f.kind <;> first | rfl | exact absurd (hkind ▸ hf) (by decide)
    obtain ⟨span, hstrings⟩ := hrun field c f more hc hnot
    have hadvance := Cursor.words_advance hc (by simp)
    have hatom :
        atom (readUpTo field n) field c = .ok (.node span (.constant value)) c.advance := by
      rw [atom, bind_ok (peek_run c), Cursor.kind_peek hc]
      obtain hw | hw := hw <;> rw [hw] <;> exact hstrings
    refine ⟨.node span (.constant value), c.advance, ?_, hadvance, rfl⟩
    show primary _ _ c = _
    rw [primary, bind_ok hatom, iterate_run _ _ hadvance]
    exact iterateUpTo_done (Level.step_done _ field _ hadvance hf (.inr rfl)) _

/-- A number is complete where neither sign follows. -/
theorem Parse.complexNumber_run {c c' : Cursor} {f : Word} {more : List Word}
    {v : Expr} (hrun : signedNumber c = .ok v c') (hc' : c'.words = f :: more)
    (hf : PatternLevel.closed.endsAt f.kind) : complexNumber c = .ok v c' := by
  rw [complexNumber, bind_ok (peek_run c), bind_ok hrun, bind_ok (kind_run hc')]
  cases hkind : f.kind <;> first | rfl | exact nomatch hkind ▸ hf

/-- The value of an integer token. -/
theorem Parse.numberOf_run {c d : Cursor} {t : Token} (hword : c.peek.word = t.word) :
    ∃ v, numberOf c.peek d = .ok v d ∧ v.bare = .new (.constant (Literal.number t)) := by
  have hkind : c.peek.kind = t.kind := congrArg Word.kind hword
  have htext : c.peek.text = t.text := congrArg Word.text hword
  refine ⟨.node (d.spanFrom c.peek.start) (.constant (Literal.number c.peek)), rfl, ?_⟩
  rw [Expr.bare, Expr.Shape.bare, Literal.number, Literal.number, hkind, htext]
  rfl

/-- An integer. -/
theorem ReadsLiteral.integer {t : Token} (ht : t.kind = .integer) :
    ReadsLiteral [t.word] (.new (.constant (Literal.number t))) := by
  have hkind : t.word.kind = .integer := ht
  refine word (by rw [hkind]; rfl) fun field c f more hc hf => ?_
  obtain ⟨v, hnumber, hv⟩ := numberOf_run (d := c.advance) (Cursor.word_peek hc)
  refine ⟨v, ?_, hv⟩
  have hsigned : signedNumber c = .ok v c.advance := by
    rw [signedNumber, bind_ok (peek_run c),
      bind_ok (accept_false (k := .minus) hc (hkind.trans_ne nofun)), bind_ok (kind_run hc), hkind,
      if_pos (by rfl), bind_ok (next_run c), bind_ok hnumber]
    rfl
  rw [literalValue, bind_ok (peek_run c), Cursor.kind_peek hc, hkind]
  exact complexNumber_run hsigned (Cursor.words_advance hc (by simp)) hf

/-- An integer with a minus sign. -/
theorem ReadsLiteral.negative {sign : Word} {t : Token} (hsign : sign.kind = .minus)
    (ht : t.kind = .integer) : ReadsLiteral [sign, t.word]
      (.new (.unary .minus (.new (.constant (Literal.number t))))) where
  begins := ⟨sign, [t.word], rfl, by rw [hsign]; rfl⟩
  second := by
    intro w hw
    obtain rfl := Option.some.inj hw
    exact ht.trans_ne nofun
  closes := .cons (by rw [hsign]; rfl) (by rw [hsign]; rfl)
    (.single (congrArg TokenKind.isOpening ht) (congrArg TokenKind.isClosing ht))
  run := by
    intro field c f more hc hf
    have hkind : t.word.kind = .integer := ht
    have hadvance := Cursor.words_advance hc (by simp)
    have hc' := Cursor.words_advance hadvance (by simp)
    obtain ⟨v, hnumber, hv⟩ := numberOf_run (d := c.advance.advance) (Cursor.word_peek hadvance)
    let value : Expr := .node (c.advance.advance.spanFrom c.peek.start) (.unary .minus v)
    have hsigned : signedNumber c = .ok value c.advance.advance := by
      rw [signedNumber, bind_ok (peek_run c), bind_ok (accept_true hc hsign),
        bind_ok (kind_run hadvance), hkind, if_pos (by rfl), bind_ok (next_run _), bind_ok hnumber]
      rfl
    refine ⟨value, c.advance.advance, ?_, hc', ?_⟩
    · rw [literalValue, bind_ok (peek_run c), Cursor.kind_peek hc, hsign]
      exact complexNumber_run hsigned hc' hf
    · rw [Expr.bare, Expr.Shape.bare, hv]
      rfl

/-- A literal that is compared by its value. -/
theorem ReadsPattern.literal {ws : List Word} {e : Expr} (h : ReadsLiteral ws e)
    (hvalue : ∀ w ∈ ws.head?, w.kind ≠ .noneWord ∧ w.kind ≠ .boolean) :
    ReadsPattern .closed ws (.new (.value e)) where
  begins := by
    obtain ⟨w, tail, rfl, hw⟩ := h.begins
    refine ⟨w, tail, rfl, ?_⟩
    cases hkind : w.kind <;> rw [hkind] at hw <;> first | rfl | cases hw
  second := h.second
  closes := h.closes
  notStar := rfl
  run := by
    intro field n c f more _ hc hf
    obtain ⟨v, c', hrun, hc', hv⟩ := h.run field c f more hc hf
    obtain ⟨w, tail, rfl, hw⟩ := h.begins
    obtain ⟨hnone, hboolean⟩ := hvalue w rfl
    refine ⟨.node (c'.spanFrom c.peek.start) (.value v), c', ?_, hc', ?_⟩
    · have hvalue : (do
          let value ← literalValue field
          patternFrom c.peek.start (.value value)) c =
            .ok (.node (c'.spanFrom c.peek.start) (.value v)) c' := by
        rw [bind_ok hrun]
        rfl
      show closedPattern _ _ c = _
      rw [closedPattern, bind_ok (peek_run c), Cursor.kind_peek hc]
      cases hkind : w.kind <;> rw [hkind] at hw <;> first
        | exact hvalue
        | exact absurd hkind hnone
        | exact absurd hkind hboolean
        | cases hw
    · rw [Pattern.bare, Pattern.Shape.bare, hv]
      rfl

end SyntaxTree
