import SyntaxTree.Proofs.Depth.Expression
import SyntaxTree.Proofs.Grammar.Draft
import SyntaxTree.Proofs.Grammar.Text
import SyntaxTree.Proofs.Token.Source
import SyntaxTree.Unicode.NameTable

/-
# Adjacent literals

What a literal adds to a draft depends neither on the draft nor on the place where it is read.  So
the values of literals that stand side by side are those of all their parts in order, where
neighbouring texts are one and empty ones are none.
-/

namespace SyntaxTree

open Parse

/-- A cursor in front of a token. -/
theorem Cursor.of_rest_eq_cons {c : Cursor} {t : Token} {rest : List Token}
    (h : c.rest = t :: rest) :
    c.peek = t ∧ c.advance.rest = rest ∧ c.advance.final = c.final ∧ c.advance.lines = c.lines := by
  obtain ⟨_, _, rest', _, _⟩ := c
  obtain rfl : rest' = t :: rest := h
  exact ⟨rfl, rfl, rfl, rfl⟩

namespace Parse

/-! ## The parts of a literal -/

/-- Readings of fields that leave the cursor, and give the same wherever the source is the same. -/
def FieldSteady (field : FieldReading) : Prop :=
  ∀ ⦃source place c value c'⦄, field.read source place c = .ok value c' →
    c' = c ∧ ∀ d : Cursor, d.lines = c.lines → field.read source place d = .ok value d

theorem fieldSteady_fieldUpTo {names : Unicode.CharacterNames} :
    ∀ depth : Nat, FieldSteady (fieldUpTo names depth)
  | 0 => fun _ _ _ _ _ h => by cases h
  | depth + 1 => fun source place c value c' h => by
    cases htokens : tokenize false (text "(" ++ source ++ text ")") with
    | error e =>
      rw [fieldUpTo_lexical htokens] at h
      cases h
    | ok tokens =>
      rw [fieldUpTo_tokens htokens] at h
      generalize hwhole : wholeExpression (fieldUpTo names depth) _ = r at h
      cases r with
      | error e c₁ => cases h
      | ok v c₁ =>
        cases h
        refine ⟨rfl, fun d hd => ?_⟩
        rw [fieldUpTo_tokens htokens, hd, hwhole]

/-- Wherever the lines of the source are the given ones, a reading adds parts to any draft, and
leaves the cursor. -/
def AddsParts (lines : List Bytes) (span : Span) (add : Draft → Parse Draft)
    (parts : List LiteralPart) : Prop :=
  ∀ (c : Cursor) (draft : Draft), c.lines = lines → add draft c = .ok (draft.adds span parts) c

variable {field : FieldReading} {t : Token} {base : Nat} {isRaw : Bool} {c c' : Cursor}
  {draft draft' : Draft}

theorem exists_parts_addLiteral {names : Unicode.CharacterNames} {isBytes : Bool} {s : Bytes}
    (h : addLiteral names t isRaw isBytes draft s c = .ok draft' c') :
    ∃ value, ∀ lines,
      AddsParts lines t.span (addLiteral names t isRaw isBytes · s) [.text value] := by
  cases isRaw with
  | true => exact ⟨s, fun _ _ _ _ => rfl⟩
  | false =>
    rw [addLiteral, if_neg Bool.false_ne_true] at h
    cases hvalue : Literal.unescape names isBytes s with
    | error cause =>
      rw [hvalue] at h
      cases h
    | ok value =>
      refine ⟨value, fun _ d draft _ => ?_⟩
      show addLiteral names t false isBytes draft s d = _
      rw [addLiteral, if_neg Bool.false_ne_true, hvalue]
      rfl

mutual

/-- A piece adds the same parts wherever it is read. -/
theorem exists_parts_addPiece (hfield : FieldSteady field) :
    ∀ (piece : FString.Piece) {draft draft' : Draft} {c c' : Cursor},
      addPiece field t base isRaw draft piece c = .ok draft' c' →
        ∃ parts, AddsParts c.lines t.span (addPiece field t base isRaw · piece) parts
  | .literal s, _, _, c, _, h => by
    rw [addPiece] at h
    obtain ⟨value, hadds⟩ := exists_parts_addLiteral h
    refine ⟨[.text value], fun d draft hd => ?_⟩
    show addPiece field t base isRaw draft (.literal s) d = _
    rw [addPiece]
    exact hadds c.lines d draft hd
  | .brace b, _, _, c, _, h => by
    refine ⟨[.text [b]], fun d draft hd => ?_⟩
    show addPiece field t base isRaw draft (.brace b) d = _
    rw [addPiece]
    rfl
  | .fault cause offset, _, _, c, _, h => by
    rw [addPiece] at h
    cases h
  | .field offset source echo conversion spec, draft, _, c, _, h => by
    rw [addPiece] at h
    obtain ⟨value, c₁, hvalue, hbehind⟩ := exists_of_bind_eq_ok h
    obtain ⟨rfl, hsteady⟩ := hfield hvalue
    obtain ⟨spec', c₂, hspec, -⟩ := exists_of_bind_eq_ok hbehind
    obtain ⟨-, hspec⟩ := readSpec_steady hfield spec hspec
    refine ⟨[.text echo, .field value
      (if echo ≠ [] ∧ conversion = none ∧ spec'.isNone then some .repr else conversion) spec'],
      fun d draft hd => ?_⟩
    show addPiece field t base isRaw draft (.field offset source echo conversion spec) d = _
    rw [addPiece, bind_ok (hsteady d hd), bind_ok (hspec d hd)]
    rfl

theorem exists_parts_addPieces (hfield : FieldSteady field) :
    ∀ (pieces : List FString.Piece) {draft draft' : Draft} {c c' : Cursor},
      addPieces field t base isRaw draft pieces c = .ok draft' c' →
        ∃ parts, AddsParts c.lines t.span (addPieces field t base isRaw · pieces) parts
  | [], _, _, c, _, h => by
    refine ⟨[], fun d draft hd => ?_⟩
    show addPieces field t base isRaw draft [] d = _
    rw [addPieces]
    rfl
  | piece :: rest, draft, _, c, _, h => by
    rw [addPieces] at h
    obtain ⟨middle, c₁, hpiece, hrest⟩ := exists_of_bind_eq_ok h
    obtain ⟨parts, hparts⟩ := exists_parts_addPiece hfield piece hpiece
    obtain ⟨-, rfl⟩ := EStateM.Result.ok.inj ((hparts c draft rfl).symm.trans hpiece)
    obtain ⟨more, hmore⟩ := exists_parts_addPieces hfield rest hrest
    refine ⟨parts ++ more, fun d draft hd => ?_⟩
    show addPieces field t base isRaw draft (piece :: rest) d = _
    have hadds : (draft.adds t.span parts).adds t.span more = draft.adds t.span (parts ++ more) :=
      List.foldl_append.symm
    rw [addPieces, bind_ok (hparts d draft hd), ← hadds]
    exact hmore d _ hd

theorem readSpec_steady (hfield : FieldSteady field) :
    ∀ (spec : Option (List FString.Piece)) {spec' : Option FormatSpec} {c c' : Cursor},
      readSpec field t base isRaw spec c = .ok spec' c' →
        c' = c ∧ ∀ d : Cursor, d.lines = c.lines →
          readSpec field t base isRaw spec d = .ok spec' d
  | none, _, c, _, h => by
    rw [readSpec] at h
    cases h
    refine ⟨rfl, fun d hd => ?_⟩
    rw [readSpec]
    rfl
  | some pieces, _, c, _, h => by
    rw [readSpec] at h
    obtain ⟨draft, c₁, hpieces, h⟩ := exists_of_bind_eq_ok h
    obtain ⟨parts, hparts⟩ := exists_parts_addPieces hfield pieces hpieces
    obtain ⟨rfl, rfl⟩ := EStateM.Result.ok.inj ((hparts c .empty rfl).symm.trans hpieces)
    cases h
    refine ⟨rfl, fun d hd => ?_⟩
    rw [readSpec, bind_ok (hparts d .empty hd)]
    rfl

end

/-- A literal that is read adds the same parts wherever it is read, and one text if it is no
f-string. -/
theorem exists_parts_addToken (hfield : FieldSteady field) {isBytes : Bool}
    (h : addToken field isBytes draft t c = .ok draft' c') :
    (Literal.Parts.of t.text).isBytes = isBytes ∧
      ∃ parts, AddsParts c.lines t.span (addToken field isBytes · t) parts ∧
        ((Literal.Parts.of t.text).isFormatted = false → ∃ s, parts = [.text s]) := by
  rw [addToken] at h
  split at h
  · cases h
  next hbytes =>
  have hbytes := not_not.mp hbytes
  refine ⟨hbytes, ?_⟩
  split at h
  · next hformatted =>
    obtain ⟨parts, hparts⟩ := exists_parts_addPieces hfield _ h
    refine ⟨parts, fun d draft hd => ?_, fun hnot => absurd hformatted (by simp [hnot])⟩
    show addToken field isBytes draft t d = _
    rw [addToken, if_neg (not_not.mpr hbytes), if_pos hformatted]
    exact hparts d draft hd
  · next hformatted =>
    obtain ⟨value, hadds⟩ := exists_parts_addLiteral h
    refine ⟨_, fun d draft hd => ?_, fun _ => ⟨value, rfl⟩⟩
    show addToken field isBytes draft t d = _
    rw [addToken, if_neg (not_not.mpr hbytes), if_neg hformatted]
    exact hadds c.lines d draft hd

/-! ## Runs of literals -/

/-- A run of literals goes on with the token at the cursor if that is one. -/
def literalStep (field : FieldReading) (isBytes : Bool) (run : Draft × Bool) :
    Parse (ForInStep (Draft × Bool)) := do
  if (← kind).isText then
    let token ← next
    let draft ← addToken field isBytes run.1 token
    return .yield (draft, run.2 || (Literal.Parts.of token.text).isFormatted)
  else return .done run

/-- What a run of literals denotes, by its first token. -/
def literalShape (first : Token) (run : Draft × Bool) : Expr.Shape :=
  if first.kind = .bytes then .constant (.bytes run.1.pending)
  else if run.2 then .fstring (run.1.flush first.span).values
  else .constant (.string run.1.pending)

theorem strings_eq (field : FieldReading) (c : Cursor) :
    strings field c =
      (iterate (literalStep field (c.peek.kind = .bytes)) (.empty, false) >>= fun run =>
        exprFrom c.peek.start (literalShape c.peek run)) c := by
  rw [strings, bind_ok (peek_run c)]
  refine congrFun (congrArg _ (funext fun run => ?_)) c
  obtain ⟨draft, isFormatted⟩ := run
  dsimp only [literalShape]
  by_cases hbytes : c.peek.kind = .bytes
  · simp only [if_pos hbytes]
  · simp only [if_neg hbytes]
    split <;> rfl

/-- A literal adds its parts wherever the lines of the source are the given ones, and belongs to a
run of bytes literals or to one of others.  If it is no f-string, it has one part. -/
structure IsAdded (field : FieldReading) (isBytes : Bool) (lines : List Bytes)
    (literal : Token × List LiteralPart) : Prop where
  isText : literal.1.kind.isText
  adds : AddsParts lines literal.1.span (addToken field isBytes · literal.1) literal.2
  isBytes_eq : (Literal.Parts.of literal.1.text).isBytes = isBytes
  plain : (Literal.Parts.of literal.1.text).isFormatted = false → ∃ s, literal.2 = [.text s]

/-- Literals that each add their parts. -/
def AreAdded (field : FieldReading) (isBytes : Bool) (lines : List Bytes)
    (literals : List (Token × List LiteralPart)) : Prop :=
  ∀ literal ∈ literals, IsAdded field isBytes lines literal

/-- The part of the run that literals form. -/
def literalRun (run : Draft × Bool) (literals : List (Token × List LiteralPart)) : Draft × Bool :=
  (run.1.addAll literals,
    run.2 || literals.any fun literal => (Literal.Parts.of literal.1.text).isFormatted)

theorem literalStep_done {isBytes : Bool} {run : Draft × Bool} (h : c.peek.kind.isText = false) :
    literalStep field isBytes run c = .ok (.done run) c := by
  have hkind : kind c = .ok c.peek.kind c := rfl
  rw [literalStep, bind_ok hkind, h]
  rfl

theorem literalStep_text {isBytes : Bool} {run : Draft × Bool} (h : c.peek.kind.isText) :
    literalStep field isBytes run c =
      (addToken field isBytes run.1 c.peek >>= fun draft =>
        pure (.yield (draft, run.2 || (Literal.Parts.of c.peek.text).isFormatted))) c.advance := by
  have hkind : kind c = .ok c.peek.kind c := rfl
  rw [literalStep, bind_ok hkind, if_pos h]
  rfl

/-- The tokens of literals are taken one after the other, up to one that is none. -/
theorem iterateUpTo_literals {isBytes : Bool} {lines : List Bytes} {after : List Token}
    {literals : List (Token × List LiteralPart)} (h : AreAdded field isBytes lines literals)
    {limit : Nat} (hlimit : literals.length < limit) (run : Draft × Bool) {c : Cursor}
    (hlines : c.lines = lines) (hc : c.rest = literals.map Prod.fst ++ after)
    (hstop : (after.headD c.final).kind.isText = false) :
    ∃ c', iterateUpTo (literalStep field isBytes) limit run c =
      .ok (literalRun run literals) c' ∧ c'.rest = after ∧ c'.final = c.final := by
  induction literals generalizing limit run c with
  | nil =>
    obtain ⟨limit, rfl⟩ := Nat.exists_eq_add_of_lt hlimit
    rw [List.map_nil, List.nil_append] at hc
    have hdone : literalStep field isBytes run c = .ok (.done run) c :=
      literalStep_done (by rw [Cursor.peek, hc, hstop])
    refine ⟨c, (iterateUpTo_done hdone _).trans ?_, hc, rfl⟩
    simp [literalRun, Draft.addAll]
  | cons literal literals ih =>
    obtain ⟨t, parts⟩ := literal
    obtain ⟨hliteral, hrest⟩ := List.forall_mem_cons.mp h
    obtain ⟨limit, rfl⟩ := Nat.exists_eq_succ_of_ne_zero (Nat.ne_zero_of_lt hlimit)
    rw [List.map_cons, List.cons_append] at hc
    obtain ⟨hpeek, hbehind, hfinal, hkept⟩ := Cursor.of_rest_eq_cons hc
    have hstep : literalStep field isBytes run c = .ok (.yield (literalRun run [(t, parts)]))
        c.advance := by
      rw [literalStep_text (hpeek ▸ hliteral.isText), hpeek,
        bind_ok (hliteral.adds c.advance run.1 (hkept.trans hlines))]
      simp [literalRun, Draft.addAll]
      rfl
    obtain ⟨c', hrun, hc', hend⟩ := ih hrest (Nat.lt_of_succ_lt_succ hlimit)
      (literalRun run [(t, parts)]) (hkept.trans hlines) hbehind (hfinal ▸ hstop)
    refine ⟨c', ?_, hc', hend.trans hfinal⟩
    rw [iterateUpTo_yield hstep, hrun]
    simp [literalRun, Draft.addAll, Bool.or_assoc]

/-- Literals that have been read add their parts. -/
theorem exists_areAdded_of_iterateUpTo (hfield : FieldSteady field) {isBytes : Bool}
    {ts after : List Token} (htext : ∀ t ∈ ts, t.kind.isText) {limit : Nat}
    {run run' : Draft × Bool} {c c' : Cursor} (hc : c.rest = ts ++ after)
    (h : iterateUpTo (literalStep field isBytes) limit run c = .ok run' c') :
    ∃ literals : List (Token × List LiteralPart),
      literals.map Prod.fst = ts ∧ AreAdded field isBytes c.lines literals := by
  induction ts generalizing limit run c with
  | nil => exact ⟨[], rfl, List.forall_mem_nil _⟩
  | cons t ts ih =>
    obtain ⟨ht, hts⟩ := List.forall_mem_cons.mp htext
    rw [List.cons_append] at hc
    obtain ⟨hpeek, hbehind, -, hkept⟩ := Cursor.of_rest_eq_cons hc
    cases limit with
    | zero => cases h
    | succ limit =>
      rw [iterateUpTo] at h
      obtain ⟨next, c₁, hstep, hgoes⟩ := exists_of_bind_eq_ok h
      rw [literalStep_text (hpeek ▸ ht), hpeek] at hstep
      obtain ⟨draft, c₂, hadd, hyield⟩ := exists_of_bind_eq_ok hstep
      obtain ⟨hbytes, parts, hparts, hplain⟩ := exists_parts_addToken hfield hadd
      obtain ⟨-, rfl⟩ := EStateM.Result.ok.inj ((hparts c.advance run.1 rfl).symm.trans hadd)
      cases hyield
      obtain ⟨literals, hliterals, hadded⟩ := ih hts hbehind hgoes
      refine ⟨(t, parts) :: literals, by rw [List.map_cons, hliterals], ?_⟩
      rw [hkept] at hadded hparts
      exact List.forall_mem_cons.mpr ⟨⟨ht, hparts, hbytes, hplain⟩, hadded⟩

/-- Literals that stand at the cursor are read as the run that they form. -/
theorem strings_of_areAdded {lines : List Bytes} {after : List Token} {t : Token}
    {parts : List LiteralPart} {literals : List (Token × List LiteralPart)}
    (h : AreAdded field (t.kind = .bytes) lines ((t, parts) :: literals)) {c : Cursor}
    (hlines : c.lines = lines) (hc : c.rest = t :: (literals.map Prod.fst ++ after))
    (hstop : (after.headD c.final).kind.isText = false) :
    ∃ span c', strings field c = .ok (.node span
        (literalShape t (literalRun (.empty, false) ((t, parts) :: literals)))) c' ∧
      c'.rest = after ∧ c'.final = c.final := by
  have hpeek := (Cursor.of_rest_eq_cons hc).1
  have hlength : ((t, parts) :: literals).length < c.rest.length + 1 := by
    rw [hc, List.length_cons, List.length_cons, List.length_append, List.length_map]
    omega
  obtain ⟨c', hrun, hafter, hfinal⟩ :=
    iterateUpTo_literals h hlength (.empty, false) hlines hc hstop
  refine ⟨c'.spanFrom t.start, c', ?_, hafter, hfinal⟩
  rw [strings_eq, hpeek]
  exact bind_ok hrun

/-- Literals that are read as one value add their parts. -/
theorem exists_areAdded_of_strings (hfield : FieldSteady field) {ts after : List Token} {t : Token}
    (htext : ∀ u ∈ t :: ts, u.kind.isText) {c c' : Cursor} {v : Expr}
    (hc : c.rest = t :: ts ++ after) (h : strings field c = .ok v c') :
    ∃ literals : List (Token × List LiteralPart),
      literals.map Prod.fst = t :: ts ∧ AreAdded field (t.kind = .bytes) c.lines literals := by
  have hpeek := (Cursor.of_rest_eq_cons hc).1
  rw [strings_eq, hpeek] at h
  obtain ⟨run, c₁, hrun, -⟩ := exists_of_bind_eq_ok h
  exact exists_areAdded_of_iterateUpTo hfield htext hc hrun

/-- Where fields may be nested deeper, literals add the same parts. -/
theorem AreAdded.mono {field field' : FieldReading} (hfield : FieldApprox field field')
    {isBytes : Bool} {lines : List Bytes} {literals : List (Token × List LiteralPart)}
    (h : AreAdded field isBytes lines literals) : AreAdded field' isBytes lines literals := by
  intro literal hliteral
  obtain ⟨htext, hadds, hbytes, hplain⟩ := h literal hliteral
  refine ⟨htext, fun c draft hc => ?_, hbytes, hplain⟩
  exact (Approx.addToken hfield isBytes draft literal.1).ok (hadds c draft hc)

/-! ### The values of literals -/

/-- The value of a run of literals, without positions. -/
theorem literalShape_bare (first : Token) (literals : List (Token × List LiteralPart)) :
    (literalShape first (literalRun (.empty, false) literals)).bare =
      if first.kind = .bytes then .constant (.bytes (Draft.empty.addAll literals).pending)
      else if literals.any fun literal => (Literal.Parts.of literal.1.text).isFormatted then
        .fstring (joinTexts (literals.flatMap fun literal => literal.2.map LiteralPart.bare))
      else .constant (.string (Draft.empty.addAll literals).pending) := by
  have hvalues : Expr.bareAll ((Draft.empty.addAll literals).flush first.span).values =
      joinTexts (literals.flatMap fun literal => literal.2.map LiteralPart.bare) := by
    rw [Expr.bareAll_eq_map, Draft.flush_values, Draft.before_addAll _ _ isJoined_nil]
    exact isJoined_nil.foldr _
  unfold literalShape literalRun
  split
  · rfl
  · dsimp only
    rw [Bool.false_or]
    split
    · exact congrArg Expr.Shape.fstring hvalues
    · rfl

/-- The text of a literal that is no f-string. -/
def literalText (literal : Token × List LiteralPart) : Bytes :=
  (Draft.empty.addAll [literal]).pending

/-- The text of a run of literals that are no f-strings. -/
theorem pending_addAll {literals : List (Token × List LiteralPart)}
    (h : ∀ literal ∈ literals, ∃ s, literal.2 = [.text s]) (draft : Draft) :
    (draft.addAll literals).pending = draft.pending ++ literals.flatMap literalText := by
  induction literals generalizing draft with
  | nil => exact (List.append_nil _).symm
  | cons literal literals ih =>
    obtain ⟨t, parts⟩ := literal
    obtain ⟨⟨s, rfl⟩, hrest⟩ := List.forall_mem_cons.mp h
    have htext : literalText (t, [.text s]) = s := List.nil_append s
    rw [List.flatMap_cons, htext, ← List.append_assoc]
    exact ih hrest (draft.append s)

/-! ### Whole expressions of literals -/

/-- A run of literals up to the end of the input is a whole expression. -/
theorem wholeExpression_of_strings {t : Token} {ts : List Token} {v : Expr} {c c₁ : Cursor}
    (hc : c.rest = t :: ts) (ht : t.kind.isText) (h : strings field c = .ok v c₁)
    (hc₁ : c₁.rest = []) (hend : c₁.final.kind = .endOfInput) :
    wholeExpression field c = .ok v c₁ := by
  have hwords : c.words = t.word :: (ts.map Token.word ++ [c.final.word]) := by
    rw [Cursor.words, hc, List.cons_append, List.map_cons, List.map_append]
    rfl
  have hlast : c₁.words = [c₁.final.word] := by rw [Cursor.words, hc₁]; rfl
  have hfinal : c₁.final.word.kind = .endOfInput := hend
  have hbegins : t.word.kind.Begins .atom := by
    show t.kind.Begins .atom
    cases hkind : t.kind <;> rw [hkind] at ht <;> first | decide | cases ht
  have hprimary (n : Nat) : primary (readUpTo field n) field c = .ok v c₁ := by
    rw [primary, bind_ok ((atom_text _ hwords ht).trans h), iterate_run _ _ hlast]
    exact iterateUpTo_done (Level.step_done (readUpTo field n) field v hlast
      (by rw [hfinal]; decide) (.inr rfl)) _
  have hread (n : Nat) : readUpTo field (n + 1) .expression c = .ok v c₁ := by
    rw [readUpTo, goal_eq]
    have hrank : Level.expression.rank ≤ Level.atom.rank := by decide
    exact Level.parse_mono hrank hwords hbegins (hprimary n) hlast (by rw [hfinal]; decide)
  have hlist := starExpressions_single hwords (hbegins.ne (by decide))
    (hread (ts.map Token.word ++ [c.final.word]).length) hlast (by rw [hfinal]; decide)
  rw [wholeExpression, bind_ok (limit_run hwords),
    bind_ok (skipNewlines_none hwords (hbegins.ne (by decide))), bind_ok (at?_run hwords _),
    if_neg (by simpa using hbegins.ne (by decide)), bind_ok hlist,
    bind_ok (skipNewlines_none hlast (by rw [hfinal]; decide)), bind_ok (at?_run hlast _),
    if_pos (by simpa using hfinal)]
  rfl

/-- A whole expression that begins with a literal begins with a run of literals. -/
theorem exists_strings_of_wholeExpression {t : Token} {ts : List Token} {v : Expr} {c c' : Cursor}
    (hc : c.rest = t :: ts) (ht : t.kind.isText) (h : wholeExpression field c = .ok v c') :
    ∃ u c₁, strings field c = .ok u c₁ := by
  have hwords : c.words = t.word :: (ts.map Token.word ++ [c.final.word]) := by
    rw [Cursor.words, hc, List.cons_append, List.map_cons, List.map_append]
    rfl
  have hbegins : t.word.kind.Begins .atom := by
    show t.kind.Begins .atom
    cases hkind : t.kind <;> rw [hkind] at ht <;> first | decide | cases ht
  rw [wholeExpression, bind_ok (limit_run hwords),
    bind_ok (skipNewlines_none hwords (hbegins.ne (by decide))), bind_ok (at?_run hwords _),
    if_neg (by simpa using hbegins.ne (by decide))] at h
  obtain ⟨value, c₁, hvalue, -⟩ := exists_of_bind_eq_ok h
  rw [starExpressions, tupleOf] at hvalue
  obtain ⟨first, c₂, hfirst, -⟩ := exists_of_bind_eq_ok hvalue
  rw [starExpression_run hwords (hbegins.ne (by decide)), readUpTo, goal_eq] at hfirst
  have hrank : Level.expression.rank ≤ Level.atom.rank := by decide
  obtain ⟨u, c₃, hprimary⟩ := Level.exists_of_parse_mono hrank hwords hbegins hfirst
  obtain ⟨u', c₄, hatom, -⟩ := exists_of_bind_eq_ok hprimary
  exact ⟨u', c₄, (atom_text _ hwords ht).symm.trans hatom⟩

end Parse

/-! ## Literals of a source -/

/-- The cursor in front of literals alone. -/
theorem Cursor.ofTokens_text (lines : List Bytes) {t : Token} {ts : List Token}
    (h : ∀ u ∈ t :: ts, u.kind.isText) :
    (ofTokens lines (t :: ts)).rest = t :: ts ∧
      (ofTokens lines (t :: ts)).final.kind = .endOfInput := by
  have hne {u : Token} (hu : u ∈ t :: ts) {kind : TokenKind} (hkind : kind.isText = false) :
      u.kind ≠ kind := by
    intro heq
    exact Bool.noConfusion ((h u hu).symm.trans (heq ▸ hkind))
  have hfilter : (t :: ts).filter (·.kind ≠ .comment) = t :: ts :=
    List.filter_eq_self.mpr fun u hu => by simpa using hne hu rfl
  refine ⟨?_, final_ofTokens lines _⟩
  rw [ofTokens, hfilter]
  obtain ⟨last, hlast⟩ : ∃ last, (t :: ts).getLast? = some last := ⟨_, List.getLast?_cons⟩
  simp only [hlast]
  rw [if_neg (hne (List.mem_of_getLast? hlast) rfl)]

/-! ### The value of a run -/

/-- The value of a run of literals, without positions. -/
def runShape (first : Token) (literals : List (Token × List LiteralPart)) : Expr.Shape :=
  (literalShape first (literalRun (.empty, false) literals)).bare

variable {first : Token} {literals : List (Token × List LiteralPart)}

theorem runShape_bytes (hfirst : first.kind = .bytes)
    (h : ∀ literal ∈ literals, ∃ s, literal.2 = [.text s]) :
    Expr.new (runShape first literals) = .bytes (literals.map literalText).flatten := by
  rw [runShape, literalShape_bare, if_pos hfirst, pending_addAll h, ← List.flatMap_def]
  rfl

theorem runShape_strings (hfirst : first.kind ≠ .bytes)
    (hformatted : ∀ literal ∈ literals, (Literal.Parts.of literal.1.text).isFormatted = false)
    (h : ∀ literal ∈ literals, ∃ s, literal.2 = [.text s]) :
    Expr.new (runShape first literals) = .str (literals.map literalText).flatten := by
  have hnone : ¬ literals.any fun literal => (Literal.Parts.of literal.1.text).isFormatted := by
    simpa using hformatted
  rw [runShape, literalShape_bare, if_neg hfirst, if_neg hnone, pending_addAll h,
    ← List.flatMap_def]
  rfl

theorem runShape_fstring (hfirst : first.kind ≠ .bytes)
    (hformatted : ∃ literal ∈ literals, (Literal.Parts.of literal.1.text).isFormatted) :
    runShape first literals =
      .fstring (joinTexts (literals.flatMap fun literal => literal.2.map LiteralPart.bare)) := by
  rw [runShape, literalShape_bare, if_neg hfirst, if_pos (List.any_eq_true.mpr hformatted)]

/-- In front of others, the parts of a literal's value are those of the literal. -/
theorem foldr_literalParts {literal : Token × List LiteralPart} (hfirst : first.kind ≠ .bytes)
    (hplain : (Literal.Parts.of literal.1.text).isFormatted = false → ∃ s, literal.2 = [.text s])
    {rest : List Expr} (h : IsJoined rest) :
    (Expr.new (runShape first [literal])).literalParts.foldr consPart rest =
      (literal.2.map LiteralPart.bare).foldr consPart rest := by
  cases hformatted : (Literal.Parts.of literal.1.text).isFormatted with
  | true =>
    rw [runShape_fstring hfirst ⟨literal, List.mem_cons_self, hformatted⟩, List.flatMap_cons,
      List.flatMap_nil, List.append_nil]
    exact foldr_joinTexts h _
  | false =>
    obtain ⟨t, parts⟩ := literal
    obtain ⟨s, rfl⟩ := hplain hformatted
    have htext : literalText (t, [.text s]) = s := List.nil_append s
    rw [runShape_strings hfirst (List.forall_mem_singleton.mpr hformatted)
      (List.forall_mem_singleton.mpr ⟨s, rfl⟩), List.map_singleton, List.flatten_singleton, htext]
    rfl

/-! ### Readings of a run -/

section Readings

variable [names : Unicode.CharacterNames]

/-- Tokens are read as a value by themselves, and wherever they stand in front of a token that is no
literal and fields may be nested deep enough. -/
structure StandFor (source : Bytes) (run : List Token) (e : Expr) : Prop where
  alone : ∃ v, onlyExpression.ofTokens source run = .ok v ∧ v.bare = e
  inPlace : ∀ (depth : Nat) (c : Cursor) (after : List Token),
    (∀ t ∈ run, t.text.length < depth) → c.lines = Bytes.lines source → c.rest = run ++ after →
    (after.headD c.final).kind.isText = false →
    ∃ v c', strings (fieldUpTo names depth) c = .ok v c' ∧ c'.rest = after ∧ v.bare = e

/-- Tokens are read as no value, neither by themselves nor at any place of a source. -/
structure StandForNothing (source : Bytes) (run : List Token) : Prop where
  alone : ∀ v, onlyExpression.ofTokens source run ≠ .ok v
  inPlace : ∀ (depth : Nat) (c : Cursor) (after : List Token), c.lines = Bytes.lines source →
    c.rest = run ++ after → ∀ v c', strings (fieldUpTo names depth) c ≠ .ok v c'

variable {source : Bytes} {t : Token}

/-- Literals stand for the value of the run that they form. -/
theorem standFor_of_areAdded {parts : List LiteralPart}
    {literals : List (Token × List LiteralPart)}
    (h : ∀ depth, (∀ u ∈ t :: literals.map Prod.fst, u.text.length < depth) →
      AreAdded (fieldUpTo names depth) (t.kind = .bytes) (Bytes.lines source)
        ((t, parts) :: literals)) :
    StandFor source (t :: literals.map Prod.fst) (.new (runShape t ((t, parts) :: literals))) := by
  have hplace : ∀ (depth : Nat) (c : Cursor) (after : List Token),
      (∀ u ∈ t :: literals.map Prod.fst, u.text.length < depth) → c.lines = Bytes.lines source →
      c.rest = t :: literals.map Prod.fst ++ after → (after.headD c.final).kind.isText = false →
      ∃ v c', strings (fieldUpTo names depth) c = .ok v c' ∧ c'.rest = after ∧ c'.final = c.final ∧
        v.bare = .new (runShape t ((t, parts) :: literals)) := by
    intro depth c after hdepth hlines hc hstop
    obtain ⟨span, c', hrun, hafter, hfinal⟩ :=
      strings_of_areAdded (h depth hdepth) hlines hc hstop
    exact ⟨_, c', hrun, hafter, hfinal, rfl⟩
  refine ⟨?_, fun depth c after hdepth hlines hc hstop => ?_⟩
  · have htexts : ∀ u ∈ t :: literals.map Prod.fst, u.kind.isText := by
      have hadded := h _ (fun u hu => Nat.lt_succ_of_le
        ((Cursor.length_text_le_foldl (t :: literals.map Prod.fst) 0).2 u hu))
      intro u hu
      have hmem : u ∈ ((t, parts) :: literals).map Prod.fst := hu
      obtain ⟨literal, hliteral, rfl⟩ := List.mem_map.mp hmem
      exact (hadded literal hliteral).isText
    obtain ⟨hrest, hend⟩ := Cursor.ofTokens_text (Bytes.lines source) htexts
    have hlines := Cursor.lines_ofTokens (Bytes.lines source) (t :: literals.map Prod.fst)
    generalize hcursor : Cursor.ofTokens (Bytes.lines source) (t :: literals.map Prod.fst) = c
      at hrest hend hlines
    have hfield : field c = .ok (fieldUpTo names
      (c.rest.foldl (fun n token => max n token.text.length) 0 + 1)) c := rfl
    obtain ⟨v, c', hrun, hc', hfinal, hv⟩ := hplace _ c [] (fun u hu => Nat.lt_succ_of_le
      ((Cursor.length_text_le_foldl c.rest 0).2 u (hrest ▸ hu))) hlines
      (hrest.trans (List.append_nil _).symm) (by rw [List.headD_nil, hend]; rfl)
    have hwhole := wholeExpression_of_strings hrest (htexts t List.mem_cons_self) hrun hc'
      (hfinal ▸ hend)
    refine ⟨v, ofTokens_eq_ok.mpr ⟨c', ?_⟩, hv⟩
    rw [hcursor, Parse.onlyExpression, bind_ok hfield, hwhole]
  · obtain ⟨v, c', hrun, hafter, -, hv⟩ := hplace depth c after hdepth hlines hc hstop
    exact ⟨v, c', hrun, hafter, hv⟩

/-- Literals that are read by themselves are read as literals. -/
theorem exists_strings_of_onlyExpression {ts : List Token} (htext : ∀ u ∈ t :: ts, u.kind.isText)
    {v : Expr} (h : onlyExpression.ofTokens source (t :: ts) = .ok v) :
    ∃ c u c₁, c.lines = Bytes.lines source ∧ c.rest = t :: ts ∧
      strings (fieldUpTo names ((t :: ts).foldl (fun n token => max n token.text.length) 0 + 1)) c =
        .ok u c₁ := by
  obtain ⟨hrest, hend⟩ := Cursor.ofTokens_text (Bytes.lines source) htext
  have hlines := Cursor.lines_ofTokens (Bytes.lines source) (t :: ts)
  obtain ⟨c', hrun⟩ := ofTokens_eq_ok.mp h
  generalize Cursor.ofTokens (Bytes.lines source) (t :: ts) = c at hrest hlines hrun
  have hfield : field c = .ok (fieldUpTo names
    (c.rest.foldl (fun n token => max n token.text.length) 0 + 1)) c := rfl
  rw [Parse.onlyExpression, bind_ok hfield, hrest] at hrun
  obtain ⟨u, c₁, hstrings⟩ :=
    exists_strings_of_wholeExpression hrest (htext t List.mem_cons_self) hrun
  exact ⟨c, u, c₁, hlines, hrest, hstrings⟩

/-- A literal that is read by itself adds parts, and they tell its value. -/
theorem exists_parts_of_onlyExpression (htext : t.kind.isText) {v : Expr}
    (h : onlyExpression.ofTokens source [t] = .ok v) :
    ∃ parts, (∀ depth, t.text.length < depth →
        IsAdded (fieldUpTo names depth) (t.kind = .bytes) (Bytes.lines source) (t, parts)) ∧
      v.bare = .new (runShape t [(t, parts)]) := by
  have htexts : ∀ u ∈ [t], u.kind.isText := List.forall_mem_singleton.mpr htext
  obtain ⟨c, u, c₁, hlines, hc, hrun⟩ := exists_strings_of_onlyExpression htexts h
  obtain ⟨literals, hliterals, hadded⟩ := exists_areAdded_of_strings (fieldSteady_fieldUpTo _)
    htexts (hc.trans (List.append_nil _).symm) hrun
  obtain ⟨⟨t', parts⟩, rest, rfl, rfl, hnil⟩ := List.map_eq_cons_iff.mp hliterals
  obtain rfl := List.map_eq_nil_iff.mp hnil
  rw [hlines] at hadded
  have hparts : ∀ depth, t'.text.length < depth →
      IsAdded (fieldUpTo names depth) (t'.kind = .bytes) (Bytes.lines source) (t', parts) := by
    intro depth hdepth
    have hdeep : [t'].foldl (fun n token => max n token.text.length) 0 + 1 ≤ depth := by
      simpa using Nat.succ_le_of_lt hdepth
    exact hadded.mono (fieldApprox_fieldUpTo hdeep) _ List.mem_cons_self
  refine ⟨parts, hparts, ?_⟩
  have hone : ∀ depth, (∀ u ∈ t' :: List.map Prod.fst ([] : List (Token × List LiteralPart)),
      u.text.length < depth) →
      AreAdded (fieldUpTo names depth) (t'.kind = .bytes) (Bytes.lines source) [(t', parts)] :=
    fun depth hdepth => List.forall_mem_singleton.mpr
      (hparts depth (hdepth t' List.mem_cons_self))
  obtain ⟨v', hv', hbare⟩ := (standFor_of_areAdded hone).alone
  obtain rfl := Except.ok.inj (hv'.symm.trans h)
  exact hbare

/-! ## Runs of literals of a source -/

/-- Each of some literals is read by itself as one of some values. -/
def ReadEach (source : Bytes) (run : List Token) (values : List Expr) : Prop :=
  List.Forall₂ (fun t v => onlyExpression.ofTokens source [t] = .ok v) run values

/-- Literals of a source that each add their parts, and the values of the literals. -/
structure AddEach (source : Bytes) (literals : List (Token × List LiteralPart))
    (values : List Expr) : Prop where
  adds : ∀ literal ∈ literals, ∀ depth, literal.1.text.length < depth →
    IsAdded (fieldUpTo names depth) (literal.1.kind = .bytes) (Bytes.lines source) literal
  bare : values.map Expr.bare = literals.map fun literal => .new (runShape literal.1 [literal])

/-- Literals that are read one by one add their parts. -/
theorem ReadEach.exists_literals {run : List Token} {values : List Expr}
    (h : ReadEach source run values) (htext : ∀ t ∈ run, t.kind.isText) :
    ∃ literals : List (Token × List LiteralPart), literals.map Prod.fst = run ∧
      AddEach source literals values := by
  induction h with
  | nil => exact ⟨[], rfl, List.forall_mem_nil _, rfl⟩
  | @cons t v run values hread _ ih =>
    obtain ⟨ht, hrun⟩ := List.forall_mem_cons.mp htext
    obtain ⟨parts, hadded, hv⟩ := exists_parts_of_onlyExpression ht hread
    obtain ⟨literals, hliterals, hall, hvalues⟩ := ih hrun
    refine ⟨(t, parts) :: literals, by rw [List.map_cons, hliterals],
      List.forall_mem_cons.mpr ⟨hadded, hall⟩, ?_⟩
    rw [List.map_cons, List.map_cons, hv, hvalues]

namespace AddEach

variable {literals : List (Token × List LiteralPart)} {values : List Expr}

/-- A literal that is no f-string has one part. -/
theorem plain (h : AddEach source literals values) {literal : Token × List LiteralPart}
    (hliteral : literal ∈ literals) :
    (Literal.Parts.of literal.1.text).isFormatted = false → ∃ s, literal.2 = [.text s] :=
  (h.adds literal hliteral (literal.1.text.length + 1) (Nat.lt_succ_self _)).plain

/-- The literals are read side by side if all of them are bytes or none is. -/
theorem exists_standFor (h : AddEach source literals values) (hne : literals ≠ [])
    {isBytes : Bool} (hbytes : ∀ literal ∈ literals, decide (literal.1.kind = .bytes) = isBytes) :
    ∃ literal ∈ literals,
      StandFor source (literals.map Prod.fst) (.new (runShape literal.1 literals)) := by
  obtain ⟨⟨t, parts⟩, literals, rfl⟩ := List.exists_cons_of_ne_nil hne
  refine ⟨_, List.mem_cons_self, standFor_of_areAdded fun depth hdepth literal hliteral => ?_⟩
  have hsame : decide (literal.1.kind = .bytes) = decide (t.kind = .bytes) :=
    (hbytes _ hliteral).trans (hbytes _ List.mem_cons_self).symm
  have hlength := hdepth literal.1 (List.mem_map_of_mem (f := Prod.fst) hliteral)
  exact hsame ▸ h.adds literal hliteral depth hlength

/-- Strings are concatenated. -/
theorem strings (h : AddEach source literals values) (hne : literals ≠ [])
    (hkinds : ∀ literal ∈ literals, literal.1.kind ≠ .bytes ∧
      (Literal.Parts.of literal.1.text).isFormatted = false) :
    ∃ texts : List Bytes, values.map Expr.bare = texts.map Expr.str ∧
      StandFor source (literals.map Prod.fst) (.str texts.flatten) := by
  have htexts : ∀ literal ∈ literals, ∃ s, literal.2 = [.text s] :=
    fun literal hliteral => h.plain hliteral (hkinds literal hliteral).2
  refine ⟨literals.map literalText, ?_, ?_⟩
  · rw [h.bare, List.map_map]
    refine List.map_congr_left fun literal hliteral => ?_
    rw [runShape_strings (hkinds literal hliteral).1
      (List.forall_mem_singleton.mpr (hkinds literal hliteral).2)
      (List.forall_mem_singleton.mpr (htexts literal hliteral)), List.map_singleton,
      List.flatten_singleton]
    rfl
  · obtain ⟨literal, hliteral, hstand⟩ := h.exists_standFor hne
      fun literal hliteral => decide_eq_false (hkinds literal hliteral).1
    rwa [runShape_strings (hkinds literal hliteral).1 (fun _ hl => (hkinds _ hl).2) htexts]
      at hstand

/-- Bytes are concatenated. -/
theorem bytes (h : AddEach source literals values) (hne : literals ≠ [])
    (hkinds : ∀ literal ∈ literals, literal.1.kind = .bytes ∧
      (Literal.Parts.of literal.1.text).isFormatted = false) :
    ∃ texts : List Bytes, values.map Expr.bare = texts.map Expr.bytes ∧
      StandFor source (literals.map Prod.fst) (.bytes texts.flatten) := by
  have htexts : ∀ literal ∈ literals, ∃ s, literal.2 = [.text s] :=
    fun literal hliteral => h.plain hliteral (hkinds literal hliteral).2
  refine ⟨literals.map literalText, ?_, ?_⟩
  · rw [h.bare, List.map_map]
    refine List.map_congr_left fun literal hliteral => ?_
    rw [runShape_bytes (hkinds literal hliteral).1
      (List.forall_mem_singleton.mpr (htexts literal hliteral)), List.map_singleton,
      List.flatten_singleton]
    rfl
  · obtain ⟨literal, hliteral, hstand⟩ := h.exists_standFor hne
      fun literal hliteral => decide_eq_true (hkinds literal hliteral).1
    rwa [runShape_bytes (hkinds literal hliteral).1 htexts] at hstand

/-- Among f-strings, the parts of all values are joined. -/
theorem fstring (h : AddEach source literals values) (hne : literals ≠ [])
    (hkinds : ∀ literal ∈ literals, literal.1.kind ≠ .bytes)
    (hformatted : ∃ literal ∈ literals, (Literal.Parts.of literal.1.text).isFormatted) :
    StandFor source (literals.map Prod.fst)
      (.new (.fstring (joinTexts (values.flatMap fun v => v.bare.literalParts)))) := by
  have hjoined : joinTexts (values.flatMap fun v => v.bare.literalParts) =
      joinTexts (literals.flatMap fun literal => literal.2.map LiteralPart.bare) := by
    rw [← List.flatMap_map, h.bare, List.flatMap_map]
    exact joinTexts_flatMap_congr fun literal hliteral rest hrest =>
      foldr_literalParts (hkinds literal hliteral) (h.plain hliteral) hrest
  obtain ⟨literal, hliteral, hstand⟩ := h.exists_standFor hne
    fun literal hliteral => decide_eq_false (hkinds literal hliteral)
  rwa [hjoined, ← runShape_fstring (hkinds literal hliteral) hformatted]

end AddEach

/-- A bytes literal and another one have no value together. -/
theorem standForNothing_of_mixed {run : List Token} {b u : Token}
    (hkind : ∀ t ∈ run, (Literal.Parts.of t.text).isBytes = decide (t.kind = .bytes))
    (htext : ∀ t ∈ run, t.kind.isText) (hb : b ∈ run) (hbytes : b.kind = .bytes) (hu : u ∈ run)
    (hother : u.kind ≠ .bytes) : StandForNothing source run := by
  have hnone : ∀ (depth : Nat) (c : Cursor) (after : List Token), c.rest = run ++ after →
      ∀ v c', strings (fieldUpTo names depth) c ≠ .ok v c' := by
    intro depth c after hc v c' hrun
    obtain ⟨t, ts, rfl⟩ := List.exists_cons_of_ne_nil (List.ne_nil_of_mem hb)
    obtain ⟨literals, hliterals, hadded⟩ :=
      exists_areAdded_of_strings (fieldSteady_fieldUpTo depth) htext hc hrun
    have hsame : ∀ w ∈ t :: ts, decide (w.kind = .bytes) = decide (t.kind = .bytes) := by
      intro w hw
      obtain ⟨literal, hliteral, rfl⟩ := List.mem_map.mp (hliterals ▸ hw)
      exact (hkind _ hw).symm.trans (hadded literal hliteral).isBytes_eq
    have hmixed := (hsame b hb).trans (hsame u hu).symm
    exact hother (of_decide_eq_true (hmixed ▸ decide_eq_true hbytes))
  refine ⟨fun v h => ?_, fun depth c after _ hc => hnone depth c after hc⟩
  obtain ⟨t, ts, rfl⟩ := List.exists_cons_of_ne_nil (List.ne_nil_of_mem hb)
  obtain ⟨c, w, c₁, -, hc, hrun⟩ := exists_strings_of_onlyExpression htext h
  exact hnone _ c [] (hc.trans (List.append_nil _).symm) w c₁ hrun

/-- Literals that stand side by side are concatenated.  If each of some string and bytes literals of
a source is read by itself, then so are they side by side: strings and bytes as the concatenation of
their values, and strings among f-strings as the f-string whose values are the parts of all in
order, with neighbouring texts joined and empty ones left out.  A bytes literal and one of another
kind are read as nothing. -/
theorem adjacent_literals_concatenate {keepComments : Bool} {source : Bytes}
    {tokens run : List Token} (htokens : tokenize keepComments source = .ok tokens)
    (hrun : ∀ t ∈ run, t ∈ tokens ∧ t.kind.isText) (hne : run ≠ []) :
    (∀ values, ReadEach source run values →
      ((∀ t ∈ run, t.kind = .string) → ∃ texts : List Bytes,
        values.map Expr.bare = texts.map Expr.str ∧ StandFor source run (.str texts.flatten)) ∧
      ((∀ t ∈ run, t.kind = .bytes) → ∃ texts : List Bytes,
        values.map Expr.bare = texts.map Expr.bytes ∧
          StandFor source run (.bytes texts.flatten)) ∧
      ((∀ t ∈ run, t.kind ≠ .bytes) → (∃ t ∈ run, t.kind = .fstring) → StandFor source run
        (.new (.fstring (joinTexts (values.flatMap fun v => v.bare.literalParts)))))) ∧
    ((∃ t ∈ run, t.kind = .bytes) → (∃ t ∈ run, t.kind ≠ .bytes) →
      StandForNothing source run) := by
  have htext (t : Token) (ht : t ∈ run) : t.kind.isText := (hrun t ht).2
  have hparts : ∀ t ∈ run, (Literal.Parts.of t.text).isBytes = decide (t.kind = .bytes) ∧
      (Literal.Parts.of t.text).isFormatted = decide (t.kind = .fstring) := by
    intro t ht
    have hlexeme := isLexemeOf_of_tokenize htokens t (hrun t ht).1
      (TokenKind.isProper_of_isText (htext t ht))
    obtain ⟨front, rest, -, -, -, hliteral⟩ := hlexeme.exists_literal (htext t ht)
    exact hliteral.parts
  refine ⟨fun values hvalues => ?_, ?_⟩
  · obtain ⟨literals, rfl, hadded⟩ := hvalues.exists_literals htext
    have hliterals : literals ≠ [] := fun hnil => hne (by rw [hnil]; rfl)
    have htoken {literal : Token × List LiteralPart} (h : literal ∈ literals) :
        literal.1 ∈ literals.map Prod.fst := List.mem_map_of_mem h
    have hformatted {literal : Token × List LiteralPart} (h : literal ∈ literals) :
        (Literal.Parts.of literal.1.text).isFormatted = decide (literal.1.kind = .fstring) :=
      (hparts _ (htoken h)).2
    refine ⟨fun hkinds => hadded.strings hliterals fun literal h => ?_,
      fun hkinds => hadded.bytes hliterals fun literal h => ?_,
      fun hkinds hsome => hadded.fstring hliterals (fun literal h => hkinds _ (htoken h)) ?_⟩
    · rw [hformatted h, hkinds _ (htoken h)]
      decide
    · rw [hformatted h, hkinds _ (htoken h)]
      decide
    · obtain ⟨t, ht, hkind⟩ := hsome
      obtain ⟨literal, hliteral, rfl⟩ := List.mem_map.mp ht
      exact ⟨literal, hliteral, (hformatted hliteral).trans (decide_eq_true hkind)⟩
  · rintro ⟨b, hb, hbytes⟩ ⟨u, hu, hother⟩
    exact standForNothing_of_mixed (fun t ht => (hparts t ht).1) htext hb hbytes hu hother

end Readings

open scoped Unicode.NameTable in
/-- A string and an f-string without fields have one text. -/
theorem adjacent_literals_concatenate_text :
    ∃ tokens, tokenize false (text "'a' f'b'\n") = .ok tokens ∧
      StandFor (text "'a' f'b'\n") (tokens.filter (·.kind.isText))
        (.new (.fstring [.str (text "ab")])) := by
  let a : Token := ⟨.string, text "'a'", ⟨1, 1⟩, ⟨1, 4⟩⟩
  let b : Token := ⟨.fstring, text "f'b'", ⟨1, 5⟩, ⟨1, 9⟩⟩
  have htokens : tokenize false (text "'a' f'b'\n") = .ok
      [a, b, ⟨.newline, text "\n", ⟨1, 9⟩, ⟨1, 10⟩⟩, .empty .endOfInput [] ⟨2, 1⟩] := by
    decide +kernel
  have hvalues : ReadEach (text "'a' f'b'\n") [a, b]
      [.node ⟨a.start, a.stop⟩ (.constant (.string (text "a"))),
        .node ⟨b.start, b.stop⟩
          (.fstring [.node ⟨b.start, b.stop⟩ (.constant (.string (text "b")))])] := by
    refine .cons ?_ (.cons ?_ .nil) <;> with_unfolding_all rfl
  have hall : ∀ t ∈ [a, b], t ∈ [a, b, ⟨.newline, text "\n", ⟨1, 9⟩, ⟨1, 10⟩⟩,
      .empty .endOfInput [] ⟨2, 1⟩] ∧ t.kind.isText := by decide
  refine ⟨_, htokens, ?_⟩
  exact ((adjacent_literals_concatenate htokens hall (by simp)).1 _ hvalues).2.2
    (by decide) ⟨b, by decide⟩

end SyntaxTree
