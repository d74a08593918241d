import SyntaxTree.Proofs.Grammar.FString
import SyntaxTree.Proofs.Render.Tree
import SyntaxTree.Unicode.NameTable

/-
# Written f-strings

The body of a written f-string consists of literal text, of braces that are written twice and of
fields that are names.  The walk for the closing quote passes over each of them, and each adds to
the values what it was written for, so that the f-string reads back.
-/

namespace SyntaxTree

open Literal Parse Render

/-! ## Parts of an f-string -/

/-- A part of an f-string: a text that is not empty, or a field that is a name. -/
inductive Expr.IsPart : Expr → Prop where
  | text (span : Span) {codes : List Nat} (hne : codes ≠ [])
    (hcodes : ∀ code ∈ codes, code ≤ 0x10FFFF) :
    IsPart (.node span (.constant (.string (Utf8.encodeAll codes))))
  | field (span inner : Span) {id : Bytes} (hid : IsName id) (conversion : Option Conversion) :
    IsPart (.node span (.field (.node inner (.name id .load)) conversion none))

/-- Whether a part is text. -/
def Expr.isTextPart : Expr → Bool
  | .node _ (.constant (.string _)) => true
  | _ => false

/-- Code points are written with at least one byte each. -/
theorem Utf8.encodeAll_ne_nil {codes : List Nat} (h : codes ≠ []) : encodeAll codes ≠ [] := by
  obtain ⟨code, codes, rfl⟩ := List.exists_cons_of_ne_nil h
  have hencode : encode code ≠ [] := by
    unfold encode
    split_ifs <;> exact List.cons_ne_nil _ _
  rw [encodeAll, List.flatMap_cons]
  exact List.append_ne_nil_of_left_ne_nil hencode _

/-! ## Written code points -/

/-- A brace among the code points is written twice. -/
theorem Render.escapeCode_brace {quote : Byte} (hquote : quote.isQuote) {code : Nat}
    (hcode : isBraceCode code) : ∃ b, FString.isBrace b ∧ Utf8.encode code = [b] ∧
      escapeCode quote true code = [b, b] := by
  simp only [isBraceCode, Bool.or_eq_true, beq_iff_eq] at hcode
  rcases hcode with rfl | rfl
  · refine ⟨Byte.openBrace, rfl, rfl, ?_⟩
    rcases Byte.isQuote_iff.mp hquote with rfl | rfl <;> decide
  · refine ⟨Byte.closeBrace, rfl, rfl, ?_⟩
    rcases Byte.isQuote_iff.mp hquote with rfl | rfl <;> decide

/-- Any other code point is written as a piece of literal text. -/
theorem Render.encodes_literalCode {quote : Byte} (hquote : quote.isQuote) {code : Nat}
    (hcode : code ≤ 0x10FFFF) (hbrace : isBraceCode code = false) :
    Encodes false (Byte.isLiteralText quote) (escapeCode quote true code) (Utf8.encode code) := by
  refine encodes_escapeCode hquote (admitsDigits_isLiteralText hquote) ?_ hcode fun _ => hbrace
  intro b htext hplain
  rw [Byte.isLiteralText, htext, hplain rfl]
  rfl

theorem Byte.isLiteralText_iff {quote b : Byte} : isLiteralText quote b ↔
    b ≠ quote ∧ b.isLineEnd = false ∧ FString.isBrace b = false := by
  simp [isLiteralText, isText_iff, and_assoc]

/-! ## The extent of a body -/

/-- Bodies of f-strings: literal text, braces that are written twice, and fields that are names. -/
inductive IsFormatted (quote : Byte) : Bytes → Prop where
  | nil : IsFormatted quote []
  | text {piece s : Bytes} (hpiece : IsEscaped (Byte.isLiteralText quote) piece)
    (hs : IsFormatted quote s) : IsFormatted quote (piece ++ s)
  | brace {b : Byte} {s : Bytes} (hb : FString.isBrace b) (hs : IsFormatted quote s) :
    IsFormatted quote (b :: b :: s)
  | field {id s : Bytes} (hid : IsWord id) (conversion : Option Conversion)
    (hs : IsFormatted quote s) : IsFormatted quote
      (Byte.openBrace :: (id ++ (FString.conversionText conversion ++ Byte.closeBrace :: s)))

namespace Frame

variable {quote b : Byte}

/-- An f-string goes on behind a byte of its literal text. -/
theorem step_formatted (hback : b ≠ Byte.backslash) (hb : Byte.isLiteralText quote b) (s : Bytes) :
    (formatted ⟨quote, false⟩).step b s = .ok ([formatted ⟨quote, false⟩], s) := by
  obtain ⟨hquote, hend, hbrace⟩ := Byte.isLiteralText_iff.mp hb
  have hopen : b ≠ Byte.openBrace := by
    rintro rfl
    exact nomatch hbrace
  rw [step, if_neg hback, hend, Bool.false_and, if_neg Bool.false_ne_true, if_neg hquote,
    if_neg hopen]

/-- An f-string goes on behind a pair. -/
theorem step_formatted_pair (hb : b.isEscapable) (s : Bytes) :
    (formatted ⟨quote, false⟩).step Byte.backslash (b :: s) =
      .ok ([formatted ⟨quote, false⟩], s) := by
  obtain ⟨hend, -, -, hbrace⟩ := Byte.isEscapable_iff.mp hb
  have hhead :
      ¬ ((b :: s).head? = some Byte.openBrace ∨ (b :: s).head? = some Byte.closeBrace) := by
    rintro (h | h)
    · obtain rfl := Option.some.inj h
      exact nomatch hbrace
    · obtain rfl := Option.some.inj h
      exact nomatch hbrace
  rw [step, if_pos rfl, if_neg (List.cons_ne_nil b s), if_neg hhead, escaped_cons hend]

/-- Two opening braces are literal text. -/
theorem step_openBraces {triple : Bool} (hquote : quote.isQuote) (s : Bytes) :
    (formatted ⟨quote, triple⟩).step Byte.openBrace (Byte.openBrace :: s) =
      .ok ([formatted ⟨quote, triple⟩], s) := by
  rcases Byte.isQuote_iff.mp hquote with rfl | rfl <;> rfl

/-- An opening brace in front of anything else begins a field. -/
theorem step_openBrace {triple : Bool} (hquote : quote.isQuote) (hb : b ≠ Byte.openBrace)
    (s : Bytes) : (formatted ⟨quote, triple⟩).step Byte.openBrace (b :: s) =
      .ok ([field ⟨quote, triple⟩ 0 [], formatted ⟨quote, triple⟩], b :: s) := by
  have hopen : openField (formatted ⟨quote, triple⟩) ⟨quote, triple⟩ (b :: s) =
      .ok ([field ⟨quote, triple⟩ 0 [], formatted ⟨quote, triple⟩], b :: s) := if_neg hb
  rcases Byte.isQuote_iff.mp hquote with rfl | rfl <;> exact hopen

/-- A closing brace is taken for literal text. -/
theorem step_closeBrace (hquote : quote.isQuote) (s : Bytes) :
    (formatted ⟨quote, false⟩).step Byte.closeBrace s = .ok ([formatted ⟨quote, false⟩], s) := by
  rcases Byte.isQuote_iff.mp hquote with rfl | rfl <;> rfl

/-- An f-string ends at its quote. -/
theorem step_formatted_quote (hquote : quote.isQuote) (s : Bytes) :
    (formatted ⟨quote, false⟩).step quote s = .ok ([], s) := by
  rcases Byte.isQuote_iff.mp hquote with rfl | rfl <;> rfl

/-- A field goes on behind a byte that is neither a quote, a bracket nor a colon. -/
theorem step_field (hb : Lexeme.isWordByte b ∨ b = ascii '!') (d : Delimiter) (word s : Bytes) :
    ∃ word', (field d 0 word).step b s = .ok ([field d 0 word'], s) := by
  have hne {c : Byte} (hword : Lexeme.isWordByte c = false) (hmark : c ≠ ascii '!') : b ≠ c := by
    rcases hb with hb | rfl
    · exact Byte.ne_of_class hb hword
    · exact hmark.symm
  have hquote : ¬ b.isQuote := by
    rw [Byte.isQuote_iff]
    exact not_or.mpr ⟨hne rfl (by decide), hne rfl (by decide)⟩
  have hopen : ¬ (b = ascii '(' ∨ b = ascii '[' ∨ b = Byte.openBrace) :=
    not_or.mpr ⟨hne rfl (by decide), not_or.mpr ⟨hne rfl (by decide), hne rfl (by decide)⟩⟩
  have hclose : ¬ (b = ascii ')' ∨ b = ascii ']') :=
    not_or.mpr ⟨hne rfl (by decide), hne rfl (by decide)⟩
  refine ⟨if b.isLetter then word ++ [b] else [], ?_⟩
  rw [step, if_neg hquote, if_neg hopen, if_neg hclose, if_neg (hne rfl (by decide)),
    if_neg fun h => hne rfl (by decide) h.1]

end Frame

/-- A field that is a name ends at its closing brace. -/
theorem afterFrames_field {s : Bytes} (hs : ∀ b ∈ s, Lexeme.isWordByte b ∨ b = ascii '!')
    (d : Delimiter) (word : Bytes) (outer : List Frame) (rest : Bytes) :
    afterFrames (.field d 0 word :: outer) (s ++ Byte.closeBrace :: rest) =
      afterFrames outer rest := by
  induction s generalizing word with
  | nil => rw [List.nil_append, afterFrames_cons]; rfl
  | cons b s ih =>
    obtain ⟨hb, hs⟩ := List.forall_mem_cons.mp hs
    obtain ⟨word', hstep⟩ := Frame.step_field hb d word (s ++ Byte.closeBrace :: rest)
    rw [List.cons_append, afterFrames_cons, hstep]
    exact ih hs word'

/-- The mark of a conversion holds no quote, no bracket and no colon. -/
theorem FString.forall_mem_conversionText (conversion : Option Conversion) :
    ∀ b ∈ conversionText conversion, Lexeme.isWordByte b ∨ b = ascii '!' := by
  cases conversion with
  | none => exact List.forall_mem_nil _
  | some conversion => cases conversion <;> exact List.forall_iff_forall_mem.mp (by decide)

namespace IsFormatted

variable {quote : Byte} {s : Bytes}

/-- The walk for the closing quote passes over the body of an f-string. -/
theorem afterFrames_append (hquote : quote.isQuote) (hs : IsFormatted quote s) (outer : List Frame)
    (rest : Bytes) : afterFrames (.formatted ⟨quote, false⟩ :: outer) (s ++ rest) =
      afterFrames (.formatted ⟨quote, false⟩ :: outer) rest := by
  induction hs with
  | nil => rfl
  | text hpiece _ ih =>
    rw [List.append_assoc, hpiece.afterFrames_append
      (fun b s hback hb => Frame.step_formatted hback hb s)
      (fun b s hb => Frame.step_formatted_pair hb s), ih]
  | @brace b s hb _ ih =>
    rw [List.cons_append, List.cons_append]
    simp only [FString.isBrace, Bool.or_eq_true, beq_iff_eq] at hb
    rcases hb with rfl | rfl
    · rw [afterFrames_cons, Frame.step_openBraces hquote]
      exact ih
    · rw [afterFrames_cons, Frame.step_closeBrace hquote]
      show afterFrames (.formatted ⟨quote, false⟩ :: outer) (Byte.closeBrace :: (s ++ rest)) = _
      rw [afterFrames_cons, Frame.step_closeBrace hquote]
      exact ih
  | @field id s hid conversion _ ih =>
    obtain ⟨b, t, rfl, hb, ht⟩ := hid
    have hopen : b ≠ Byte.openBrace := Byte.ne_of_class hb rfl
    have hname : ∀ c ∈ b :: t ++ FString.conversionText conversion,
        Lexeme.isWordByte c ∨ c = ascii '!' := by
      refine List.forall_mem_append.mpr ⟨List.forall_mem_cons.mpr ⟨.inl ?_, fun c hc => .inl ?_⟩,
        FString.forall_mem_conversionText conversion⟩
      · exact Byte.isWordByte_of_startsWord hb
      · exact List.all_eq_true.mp ht c hc
    have hfield := afterFrames_field hname ⟨quote, false⟩ [] (.formatted ⟨quote, false⟩ :: outer)
      (s ++ rest)
    rw [List.cons_append, List.append_assoc, List.append_assoc, List.cons_append, List.cons_append,
      afterFrames_cons, Frame.step_openBrace hquote hopen, ← ih, ← hfield, List.append_assoc,
      List.cons_append]
    rfl

/-- The body of an f-string does not begin with its quote. -/
theorem head_ne (hquote : quote.isQuote) (hs : IsFormatted quote s) :
    ∀ b ∈ s.head?, b ≠ quote := by
  have hbrace {b : Byte} (hb : FString.isBrace b) : b ≠ quote := by
    rintro rfl
    rcases Byte.isQuote_iff.mp hquote with rfl | rfl <;> exact nomatch hb
  induction hs with
  | nil => exact nofun
  | @text piece s hpiece _ ih =>
    intro b hb
    cases piece with
    | nil => exact ih b hb
    | cons c piece =>
      exact hpiece.head_ne hquote (fun b hb => (Byte.isLiteralText_iff.mp hb).1) b hb
  | brace hb _ _ =>
    intro c hc
    obtain rfl := Option.some.inj hc
    exact hbrace hb
  | field _ _ _ _ =>
    intro c hc
    obtain rfl := Option.some.inj hc
    exact hbrace rfl

/-- Written code points in front of a body make a longer body. -/
theorem codes (hquote : quote.isQuote) {codes : List Nat} (hcodes : ∀ code ∈ codes, code ≤ 0x10FFFF)
    (hs : IsFormatted quote s) :
    IsFormatted quote (codes.flatMap (escapeCode quote true) ++ s) := by
  induction codes with
  | nil => exact hs
  | cons code codes ih =>
    obtain ⟨hcode, hcodes⟩ := List.forall_mem_cons.mp hcodes
    rw [List.flatMap_cons, List.append_assoc]
    cases hbrace : isBraceCode code with
    | true =>
      obtain ⟨b, hb, -, hescape⟩ := escapeCode_brace hquote hbrace
      rw [hescape]
      exact .brace hb (ih hcodes)
    | false => exact .text (encodes_literalCode hquote hcode hbrace).escaped (ih hcodes)

end IsFormatted

/-- The text of a field that is a name. -/
theorem Expr.write_nameField (quote : Byte) (p : Precedence) (span inner : Span) {id : Bytes}
    (hid : IsWord id) (conversion : Option Conversion) (s : Bytes) :
    Expr.write quote p (.node span (.field (.node inner (.name id .load)) conversion none)) ++ s =
      Byte.openBrace :: (id ++ (FString.conversionText conversion ++ Byte.closeBrace :: s)) := by
  obtain ⟨b, t, rfl, hb, -⟩ := hid
  have hhead : (b :: t).head? ≠ some Byte.openBrace :=
    fun h => Byte.ne_of_class hb rfl (Option.some.inj h)
  have hname : Expr.write quote .or (.node inner (.name (b :: t) .load)) = b :: t :=
    Expr.write_of_le (show Precedence.or ≤ .atom by decide)
  have hprecedence : p ≤ .atom := by cases p <;> decide
  rw [Expr.write_of_le hprecedence]
  cases conversion with
  | none =>
    rw [Expr.Shape.write, hname, if_neg hhead]
    simp +decide [FormatSpec.write, FString.conversionText, text]
  | some conversion =>
    rw [Expr.Shape.write, hname, if_neg hhead]
    simp +decide [FormatSpec.write, FString.conversionText, text]

/-- The parts of an f-string form a body. -/
theorem isFormatted_writeParts {quote chosen : Byte} (hchosen : chosen.isQuote) {values : List Expr}
    (hparts : ∀ e ∈ values, e.IsPart) :
    IsFormatted chosen (Expr.writeParts quote chosen true values) := by
  induction values with
  | nil => exact .nil
  | cons e values ih =>
    obtain ⟨he, hrest⟩ := List.forall_mem_cons.mp hparts
    cases he with
    | text span hne hcodes =>
      rw [Expr.writeParts, escape_encodeAll hchosen hcodes]
      exact .codes hchosen hcodes (ih hrest)
    | field span inner hid conversion =>
      rw [Expr.writeParts, Expr.write_nameField quote .atom span inner hid.1]
      · exact .field hid.1 conversion (ih hrest)
      · rintro _ _ ⟨⟩

/-! ## What the parts add -/

/-- Moving the tokens of a line leaves its words as they are. -/
theorem IsLine.inField {tokens : List Token} {ws : List Word} (h : IsLine (.ok tokens) ws)
    (place : Position) : IsLine (.ok (tokens.map (·.inField place))) ws := by
  obtain ⟨ts, newline, final, htokens, rfl, hcomment, hnewline, hfinal⟩ := h
  obtain rfl := Except.ok.inj htokens
  refine ⟨ts.map (·.inField place), newline.inField place, final.inField place, ?_, ?_, ?_,
    hnewline, hfinal⟩
  · rw [List.map_append]
    rfl
  · rw [List.map_map]
    rfl
  · exact List.forall_mem_map.mpr hcomment

/-- A field reads as what its source reads as in parentheses. -/
theorem Parse.fieldUpTo_run {names : Unicode.CharacterNames} {source : Bytes} {ws : List Word}
    {e : Expr} (hline : IsLine (tokenize false (text "(" ++ source ++ text ")")) ws)
    (hlist : ReadsList ws e) (depth : Nat) (place : Position) (c : Cursor) :
    ∃ v, (fieldUpTo names (depth + 1)).read source place c = .ok v c ∧ v.bare = e := by
  obtain ⟨tokens, htokens⟩ : ∃ tokens, tokenize false (text "(" ++ source ++ text ")") =
      .ok tokens := by
    obtain ⟨ts, newline, final, htokens, -⟩ := hline
    exact ⟨_, htokens⟩
  rw [htokens] at hline
  obtain ⟨ts, newline, final, hts, hnewline, hfinal, hcursor⟩ :=
    (hline.inField place).exists_cursor
  obtain rfl := Except.ok.inj hts
  obtain ⟨v, c', hrun, hv⟩ :=
    hlist.wholeExpression (fieldUpTo names depth) (hcursor c.lines) hnewline hfinal
  refine ⟨v, ?_, hv⟩
  rw [fieldUpTo]
  dsimp only
  rw [htokens]
  dsimp only
  refine (bind_ok (p := get) (a := c) rfl).trans ?_
  rw [EStateM.run, hrun]
  rfl

/-- The field of a name reads as the name. -/
theorem Parse.fieldUpTo_name {names : Unicode.CharacterNames} {id : Bytes} (hid : IsName id)
    (depth : Nat) (place : Position) (c : Cursor) :
    ∃ v, (fieldUpTo names (depth + 1)).read id place c = .ok v c ∧
      v.bare = .new (.name id .load) := by
  have hspells := (Spells.name hid).parenthesized
  have hwords := hspells.divides [] nofun
  rw [List.append_nil] at hwords
  have hline : IsLine (tokenize false (parenthesize id)) _ := Divides.tokenize hwords rfl rfl
  have hgroup : Leads .atom (⟨.openParen, text "("⟩ :: ([⟨.identifier, id⟩] ++
      [⟨.closeParen, text ")"⟩])) (.new (.name id .load)) :=
    Leads.group rfl rfl (((Leads.name rfl).reads (.inr rfl)).mono (Nat.zero_le _))
  exact fieldUpTo_run hline
    (Reads.list ((hgroup.reads (.inr rfl)).mono (Nat.zero_le _))) depth place
    c

/-- Written code points add themselves. -/
theorem Parse.Adds.codes {field : FieldReading} {token : Token} {base size : Nat} {c : Cursor}
    {quote : Byte} (hquote : quote.isQuote) {codes : List Nat}
    (hcodes : ∀ code ∈ codes, code ≤ 0x10FFFF) {s : Bytes} {draft draft' : Draft}
    (h : Adds field token base size c s (draft.append (Utf8.encodeAll codes)) draft') :
    Adds field token base size c (codes.flatMap (escapeCode quote true) ++ s) draft draft' := by
  induction codes generalizing draft with
  | nil =>
    rw [Utf8.encodeAll, List.flatMap_nil, Draft.append, List.append_nil] at h
    exact h
  | cons code codes ih =>
    obtain ⟨hcode, hcodes⟩ := List.forall_mem_cons.mp hcodes
    have hfirst : draft.append (Utf8.encodeAll (code :: codes)) =
        (draft.append (Utf8.encode code)).append (Utf8.encodeAll codes) := by
      rw [Utf8.encodeAll, List.flatMap_cons, ← Utf8.encodeAll, Draft.append, Draft.append,
        Draft.append, List.append_assoc]
    rw [hfirst] at h
    have hrest := ih hcodes h
    rw [List.flatMap_cons, List.append_assoc]
    cases hbrace : isBraceCode code with
    | true =>
      obtain ⟨b, hb, hencode, hescape⟩ := escapeCode_brace hquote hbrace
      rw [hescape]
      rw [hencode] at hrest
      exact .brace hb hrest
    | false =>
      refine Adds.piece (fun b hb => ?_) (encodes_literalCode hquote hcode hbrace) hrest
      obtain ⟨-, hend, hplain⟩ := Byte.isLiteralText_iff.mp hb
      exact ⟨hplain, hend⟩

/-! ## Drafts with all their text -/

namespace Draft

variable {span : Span} {draft : Draft}

/-- Text behind a value becomes a value of its own. -/
theorem flush_append (hpending : draft.pending = []) {s : Bytes} (hs : s ≠ []) :
    ((draft.append s).flush span).values =
      (draft.flush span).values ++ [.node span (.constant (.string s))] := by
  rw [flush, flush, if_pos hpending, append, hpending, List.nil_append, if_neg hs]

theorem pending_flush : (draft.flush span).pending = [] := by
  rw [flush]
  split
  · assumption
  · rfl

/-- A value stands behind all that has been added before. -/
theorem flush_push (value : Expr) :
    ((draft.push span value).flush span).values = (draft.flush span).values ++ [value] := by
  rw [push, flush, if_pos pending_flush]

end Draft

/-- The trees of a list that is put together. -/
theorem Expr.bareAll_append (es es' : List Expr) :
    bareAll (es ++ es') = bareAll es ++ bareAll es' := by
  induction es with
  | nil => rfl
  | cons e es ih => rw [List.cons_append, bareAll, bareAll, ih, List.cons_append]

/-- The parts of an f-string add themselves, if no two texts stand side by side. -/
theorem Parse.exists_adds {names : Unicode.CharacterNames} {token : Token} {base size : Nat}
    {c : Cursor} {quote chosen : Byte} (hchosen : chosen.isQuote) (depth : Nat) {values : List Expr}
    (hparts : ∀ e ∈ values, e.IsPart)
    (hchain : values.IsChain fun e e' => ¬ (e.isTextPart ∧ e'.isTextPart)) {draft : Draft}
    (hpending : draft.pending ≠ [] → ∀ e ∈ values.head?, ¬ e.isTextPart) :
    ∃ draft', Adds (fieldUpTo names (depth + 1)) token base size c
        (Expr.writeParts quote chosen true values) draft draft' ∧
      Expr.bareAll (draft'.flush token.span).values =
        Expr.bareAll (draft.flush token.span).values ++ Expr.bareAll values := by
  induction values generalizing draft with
  | nil => exact ⟨draft, .nil, (List.append_nil _).symm⟩
  | cons e values ih =>
    obtain ⟨he, hrest⟩ := List.forall_mem_cons.mp hparts
    cases he with
    | @text span codes hne hcodes =>
      -- the text follows a field, or nothing, so it is a value of its own
      have hempty : draft.pending = [] := by
        by_contra hpending'
        exact hpending hpending' _ rfl rfl
      have hnext : ∀ e ∈ values.head?, ¬ e.isTextPart :=
        fun e he htext => (List.isChain_cons.mp hchain).1 e he ⟨rfl, htext⟩
      obtain ⟨draft', hadds, hvalues⟩ : ∃ draft',
          Adds (fieldUpTo names (depth + 1)) token base size c
            (Expr.writeParts quote chosen true values)
              (draft.append (Utf8.encodeAll codes)) draft' ∧
              _ := ih hrest hchain.tail fun _ => hnext
      refine ⟨draft', ?_, ?_⟩
      · rw [Expr.writeParts, escape_encodeAll hchosen hcodes]
        exact .codes hchosen hcodes hadds
      · rw [hvalues, Draft.flush_append hempty (Utf8.encodeAll_ne_nil hne), Expr.bareAll_append,
          List.append_assoc]
        rfl
    | @field span inner id hid conversion =>
      obtain ⟨value, hvalue, hadds⟩ := Adds.exists_field hid.1 conversion
        (fun place => fieldUpTo_name hid depth place c) (Expr.writeParts quote chosen true values)
      obtain ⟨draft', hadds', hvalues⟩ : ∃ draft',
          Adds (fieldUpTo names (depth + 1)) token base size c
            (Expr.writeParts quote chosen true values) (draft.push token.span value) draft' ∧ _ :=
        ih hrest hchain.tail fun h => absurd Draft.pending_flush h
      refine ⟨draft', ?_, ?_⟩
      · rw [Expr.writeParts, Expr.write_nameField quote .atom span inner hid.1]
        · exact hadds hadds'
        · rintro _ _ ⟨⟩
      · rw [hvalues, Draft.flush_push, Expr.bareAll_append, List.append_assoc, Expr.bareAll, hvalue]
        rfl

/-! ## Written f-strings read back -/

/-- An f-string whose body is divided into parts denotes what the parts add. -/
theorem Parse.strings_formatted {field : FieldReading} {c : Cursor} {f : Word} {more : List Word}
    {body : Bytes} {quote : Byte} {draft : Draft}
    (hc : c.words = ⟨.fstring, [ascii 'f'] ++ quote :: (body ++ [quote])⟩ :: f :: more)
    (hf : f.kind.isText = false) (hquote : quote.isQuote) (hbody : IsFormatted quote body)
    (hadds : Adds field c.peek 2 body.length c.advance body .empty draft) :
    strings field c = .ok (.node (c.advance.spanFrom c.peek.start)
      (.fstring (draft.flush c.peek.span).values)) c.advance := by
  have htext : c.peek.text = [ascii 'f'] ++ quote :: (body ++ [quote]) :=
    congrArg Word.text (Cursor.word_peek hc)
  have hparts :
    Parts.of ([ascii 'f'] ++ quote :: (body ++ [quote])) = ⟨false, false, true, 2, body⟩ :=
    Parts.of_quoted hquote (List.forall_mem_singleton.mpr rfl) (hbody.head_ne hquote)
  obtain ⟨hrun, hrest⟩ := hadds (body.length + 1) (Nat.lt_succ_self _)
  have hdivide : FString.divide false body =
      (FString.divideUpTo false body.length (body.length + 1) false body).1 := if_pos hrest
  have hadd : addToken field false .empty c.peek c.advance = .ok draft c.advance := by
    rw [addToken, htext, hparts]
    dsimp only
    rw [if_neg (not_not_intro rfl), if_pos rfl, hdivide, hrun]
  rw [strings_run hc rfl hf hadd, hparts]
  rfl

/-- The body of an f-string between quotes behind its prefix is a token. -/
theorem Divides.formatted {quote : Byte} {body rest : Bytes} (hquote : quote.isQuote)
    (hbody : IsFormatted quote body) (hrest : ∀ b ∈ rest.head?, b ≠ quote) :
    Divides (ascii 'f' :: quote :: (body ++ [quote]) ++ rest) rest
      [⟨.fstring, ascii 'f' :: quote :: (body ++ [quote])⟩] := by
  have hafter : afterText [ascii 'f'] quote (body ++ [quote] ++ rest) = .ok rest := by
    rw [List.append_assoc, List.singleton_append,
      afterText_append (hbody.head_ne hquote) hrest]
    show afterFrames [.formatted ⟨quote, false⟩] _ = _
    rw [hbody.afterFrames_append hquote, afterFrames_cons, Frame.step_formatted_quote hquote]
    show afterFrames [] rest = _
    rw [afterFrames]
  exact of_next (t := quote :: (body ++ [quote]))
    (Lexeme.next_prefixed (t := []) hquote rfl rfl rfl hafter) ⟨by rintro ⟨⟩, rfl⟩

/-- A written f-string of texts, no two side by side, and fields that are names is a single token
and reads back, for either preferred quote and at every place. -/
theorem Expr.ofSource_write_fstring [names : Unicode.CharacterNames] {quote : Byte}
    (hquote : quote.isQuote) (p : Precedence) (span : Span) {values : List Expr}
    (hparts : ∀ e ∈ values, e.IsPart)
    (hchain : values.IsChain fun e e' => ¬ (e.isTextPart ∧ e'.isTextPart)) :
    IsLine (tokenize false (Expr.write quote p (.node span (.fstring values))))
        [⟨.fstring, Expr.write quote p (.node span (.fstring values))⟩] ∧
      ∃ v, Expr.ofSource (Expr.write quote p (.node span (.fstring values))) = .ok v ∧
        v.bare = (Expr.node span (.fstring values)).bare := by
  have hprecedence : p ≤ .atom := by cases p <;> decide
  rw [Expr.write_of_le hprecedence, Expr.Shape.write]
  have hchosen := isQuote_chooseQuote hquote (Expr.literalText values)
  generalize chooseQuote (Expr.literalText values) quote = chosen at hchosen
  have hbody : IsFormatted chosen (Expr.writeParts quote chosen true values) :=
    isFormatted_writeParts hchosen hparts
  have hdivides : Divides (ascii 'f' :: chosen :: (Expr.writeParts quote chosen true values ++
      [chosen]) ++ []) [] _ := .formatted hchosen hbody nofun
  rw [List.append_nil] at hdivides
  have hline := hdivides.tokenize rfl rfl
  refine ⟨hline, Expr.ofSource_atom hline ⟨.atom, rfl, Nat.le_refl _⟩ ?_⟩
  intro depth c newline final hc hnewline
  obtain ⟨draft, hadds, hvalues⟩ : ∃ draft, Adds (fieldUpTo names (depth + 1)) c.peek 2 _ c.advance
      (Expr.writeParts quote chosen true values) .empty draft ∧ _ :=
    exists_adds hchosen depth hparts hchain fun h => absurd rfl h
  refine ⟨_, fun read => (atom_text read hc rfl).trans
    (strings_formatted hc (by rw [hnewline]; rfl) hchosen hbody hadds), ?_⟩
  rw [Expr.bare, Expr.Shape.bare, hvalues]
  rfl

/-- Braces, a quote and a backslash around a field with a conversion. -/
def Expr.mixedFString : Expr :=
  .new (.fstring [.new (.constant (.string (Utf8.encodeAll [0x7B, 0x22, 0x5C]))),
    .new (.field (.new (.name (text "x") .load)) (some .repr) none),
    .new (.constant (.string (Utf8.encodeAll [0x7D, 0x4E])))])

open scoped Unicode.NameTable in
/-- The braces of the texts are written twice, those of the field once. -/
theorem Expr.ofSource_write_mixedFString :
    mixedFString.write Byte.doubleQuote .atom = text "f'\x7b\x7b\"\\\\\x7bx!r\x7d\x7d\x7dN'" ∧
      ∃ v, Expr.ofSource (mixedFString.write Byte.doubleQuote .atom) = .ok v ∧
        v.bare = mixedFString.bare := by
  refine ⟨by decide +kernel, (Expr.ofSource_write_fstring rfl .atom _ ?_ ?_).2⟩
  · have hx : IsName (text "x") := ⟨⟨_, _, rfl, rfl, rfl⟩, by decide⟩
    refine List.forall_mem_cons.mpr ⟨.text _ (by decide) (by decide), List.forall_mem_cons.mpr
      ⟨.field _ _ hx _, List.forall_mem_singleton.mpr (.text _ (by decide) (by decide))⟩⟩
  · simp [Expr.isTextPart, Expr.new]

end SyntaxTree
