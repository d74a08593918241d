import SyntaxTree.Proofs.Grammar.Concatenation
import SyntaxTree.Proofs.Grammar.Doubled
import SyntaxTree.Proofs.Grammar.Enclosed
import SyntaxTree.Proofs.Token.Cover
import SyntaxTree.Unicode.NameTable

/-
# Strings as f-strings

A string and the f-string whose body is the same with doubled braces are one token each, and denote
the same text.
-/

namespace SyntaxTree

open Literal Parse

/-! ## Prefixes -/

theorem Byte.isLetter_of_isLower_toLower {b : Byte} (h : b.toLower.isLower) : b.isLetter := by
  unfold toLower at h
  split at h
  · next hupper => simp [isLetter, hupper]
  · simp [isLetter, h]

/-- A prefix is made of letters. -/
theorem isLetter_of_isStringPrefix {word : Bytes} (h : isStringPrefix word) :
    ∀ b ∈ word, b.isLetter := by
  have hall : ∀ p ∈ stringPrefixes, ∀ b ∈ p, b.isLower := by decide +kernel
  intro b hb
  exact Byte.isLetter_of_isLower_toLower
    (hall _ (isStringPrefix_iff.mp h) _ (List.mem_map_of_mem hb))

/-- No quote is part of a prefix. -/
theorem not_isQuote_of_isStringPrefix {word : Bytes} (h : word = [] ∨ isStringPrefix word) :
    ∀ b ∈ word, b.isQuote = false := by
  rcases h with rfl | h
  · exact List.forall_mem_nil _
  · intro b hb
    have hletter := isLetter_of_isStringPrefix h b hb
    have hdouble : b ≠ Byte.doubleQuote := Byte.ne_of_class hletter rfl
    have hsingle : b ≠ Byte.singleQuote := Byte.ne_of_class hletter rfl
    simp [Byte.isQuote, hdouble, hsingle]

/-- Behind the prefix of a string stands no other literal. -/
theorem Frame.ofPrefix_of_string {word : Bytes} (h : textKind word = .string) (d : Delimiter) :
    Frame.ofPrefix word d = .plain d false := by
  unfold textKind Frame.ofPrefix at h
  unfold Frame.ofPrefix
  generalize (if isStringPrefix word then word.toLower else []) = letters at h ⊢
  by_cases hf : ascii 'f' ∈ letters
  · simp [hf] at h
  · by_cases hb : ascii 'b' ∈ letters
    · simp [hf, hb] at h
    · simp [hf, hb]

/-- Behind a prefix with the letter for it stands an f-string. -/
theorem Frame.ofPrefix_of_formatted {word : Bytes} (h : isStringPrefix word)
    (hf : ascii 'f' ∈ word.toLower) (d : Delimiter) : Frame.ofPrefix word d = .formatted d := by
  rw [Frame.ofPrefix, if_pos h]
  exact if_pos hf

/-! ## Single literals as sources -/

/-- A source that is a literal is a single token. -/
theorem Lexeme.IsLiteral.isLine {kind : TokenKind} {s : Bytes} (h : IsLiteral kind s []) :
    IsLine (tokenize false s) [⟨kind, s⟩] := by
  obtain ⟨word, quote, u, rfl, hprefix, -, hquote, rfl, hafter⟩ := h.exists_parts
  have hspelled : Word.IsSpelled ⟨textKind word, word ++ quote :: u⟩ := by
    have hkind : textKind word ≠ .comment ∧ textKind word ≠ .identifier := by
      unfold textKind
      split <;> decide
    exact ⟨hkind.1, if_neg fun h => hkind.2 h.1⟩
  cases word with
  | nil =>
    obtain ⟨hblank, hascii⟩ := Byte.isQuote_plain hquote
    have hdivides : Divides (quote :: u ++ []) [] [⟨textKind [], [] ++ quote :: u⟩] :=
      .of_next (textKind_nil ▸ Lexeme.next_quote hquote hafter) hspelled
    rw [List.append_nil] at hdivides
    exact hdivides.tokenize hblank hascii
  | cons b t =>
    have hletters : isStringPrefix (b :: t) := hprefix.resolve_left (List.cons_ne_nil b t)
    obtain ⟨hb, ht⟩ := List.forall_mem_cons.mp (isLetter_of_isStringPrefix hletters)
    have hstarts : b.startsWord := by simp [Byte.startsWord, hb]
    have hwords : t.all Lexeme.isWordByte := by
      refine List.all_eq_true.mpr fun c hc => ?_
      simp [Lexeme.isWordByte, ht c hc]
    have hnext : Lexeme.next b (t ++ quote :: u ++ []) = .ok (.token (textKind (b :: t)), []) := by
      rw [List.append_assoc]
      exact Lexeme.next_prefixed hquote hstarts hwords hletters hafter
    have hdivides : Divides (b :: (t ++ quote :: u) ++ []) [] _ := .of_next hnext hspelled
    rw [List.append_nil] at hdivides
    have hname : b.startsName := by rw [Byte.startsName, hstarts, Bool.true_or]
    exact hdivides.tokenize (Byte.not_isBlank_of_startsName hname)
      (Byte.not_isNonAscii_of_isWordByte (Byte.isWordByte_of_startsWord hstarts))

/-- A source that is a single token is a literal if its kind says so. -/
theorem IsLine.isLiteral {kind : TokenKind} {s : Bytes}
    (h : IsLine (tokenize false s) [⟨kind, s⟩]) (htext : kind.isText) :
    Lexeme.IsLiteral kind s [] := by
  obtain ⟨ts, newline, final, htokens, hwords, -⟩ := h
  obtain ⟨t, rest, rfl, hword, hnil⟩ := List.map_eq_cons_iff.mp hwords
  obtain ⟨rfl, rfl⟩ : kind = t.kind ∧ s = t.text := by
    rw [Token.word] at hword
    cases hword
    exact ⟨rfl, rfl⟩
  have hlexeme := isLexemeOf_of_tokenize htokens t (List.mem_append_left _ List.mem_cons_self)
    (TokenKind.isProper_of_isText htext)
  obtain ⟨front, rest, hsource, -, -, hliteral⟩ := hlexeme.exists_literal htext
  obtain ⟨mark, hmark, -⟩ := exists_append_dropMark t.text
  obtain rfl : rest = [] := by
    have hlength := congrArg List.length hmark
    rw [hsource] at hlength
    simp only [List.length_append] at hlength
    exact List.eq_nil_of_length_eq_zero (by omega)
  exact hliteral

/-! ## Literals between quotes -/

namespace Delimiter

/-- The literal with a body behind the letters of a prefix. -/
def enclose (d : Delimiter) (word body : Bytes) : Bytes := word ++ (d.marks ++ (body ++ d.marks))

/-- A body may stand between the quotes of a delimiter: behind a single quote no two others follow,
for three quotes would begin it. -/
def Admits (d : Delimiter) (body : Bytes) : Prop :=
  d.triple = false → Bytes.dropPrefix? [d.quote, d.quote] (body ++ d.marks) = none

variable {d : Delimiter} {word body : Bytes}

theorem marks_append (d : Delimiter) (s : Bytes) :
    d.marks ++ s = d.quote :: (d.marks.tail ++ s) := by
  unfold marks
  split <;> rfl

theorem enclose_eq (d : Delimiter) (word body : Bytes) :
    d.enclose word body = word ++ d.quote :: (d.marks.tail ++ (body ++ d.marks)) := by
  rw [enclose, marks_append]

/-- The walk over the body begins behind the quotes. -/
theorem afterText_of_admits (h : d.Admits body) (word : Bytes) :
    afterText word d.quote (d.marks.tail ++ (body ++ d.marks)) =
      afterFrames [.ofPrefix word d] (body ++ d.marks) := by
  obtain ⟨quote, triple⟩ := d
  cases triple with
  | false =>
    have hnone : Bytes.dropPrefix? [quote, quote] (body ++ [quote]) = none := h rfl
    show afterText word quote (body ++ [quote]) = _
    rw [afterText_eq, hnone]
    rfl
  | true =>
    have hsome : Bytes.dropPrefix? [quote, quote]
        ([quote, quote] ++ (body ++ [quote, quote, quote])) = some _ :=
      Bytes.dropPrefix?_append _ _
    show afterText word quote ([quote, quote] ++ (body ++ [quote, quote, quote])) = _
    rw [afterText_eq, hsome]
    rfl

/-- A body of the style of its quotes is admitted if its literal is read. -/
theorem admits_of_afterText (hstyle : d.triple ∨ ¬ [d.quote, d.quote] <+: body)
    (h : afterText word d.quote (d.marks.tail ++ (body ++ d.marks)) = .ok []) : d.Admits body := by
  obtain ⟨quote, triple⟩ := d
  rintro ⟨⟩
  have hstyle : ¬ [quote, quote] <+: body := hstyle.resolve_left Bool.false_ne_true
  have h : afterText word quote (body ++ [quote]) = .ok [] := h
  show Bytes.dropPrefix? [quote, quote] (body ++ [quote]) = none
  cases hdrop : Bytes.dropPrefix? [quote, quote] (body ++ [quote]) with
  | none => rfl
  | some rest =>
    rw [afterText_eq, hdrop] at h
    have hsplit := Bytes.eq_append_of_dropPrefix? hdrop
    rcases List.eq_nil_or_concat rest with rfl | ⟨front, b, rfl⟩
    · cases h
    · rw [List.concat_eq_append, ← List.append_assoc] at hsplit
      obtain ⟨hbody, -⟩ := List.append_inj' hsplit rfl
      exact absurd ⟨front, hbody.symm⟩ hstyle

end Delimiter

namespace Literal

variable {d : Delimiter} {word body : Bytes}

theorem quoteCount_of_admits (h : d.Admits body) :
    quoteCount (d.marks ++ (body ++ d.marks)) = d.marks.length := by
  obtain ⟨quote, triple⟩ := d
  cases triple with
  | false =>
    have hnone : Bytes.dropPrefix? [quote, quote] (body ++ [quote]) = none := h rfl
    show quoteCount (quote :: (body ++ [quote])) = 1
    unfold quoteCount
    split
    · next heq =>
      obtain ⟨rfl, hbehind⟩ := List.cons.inj heq
      refine if_neg ?_
      rintro ⟨rfl, rfl⟩
      rw [hbehind, Bytes.dropPrefix?, if_pos rfl, Bytes.dropPrefix?, if_pos rfl] at hnone
      cases hnone
    · rfl
  | true =>
    show quoteCount (quote :: quote :: quote :: (body ++ [quote, quote, quote])) = 3
    rcases body with _ | ⟨a, _ | ⟨b, _ | ⟨c, body⟩⟩⟩ <;> exact if_pos ⟨rfl, rfl⟩

/-- The letters of the prefix and the body of a literal. -/
theorem Parts.of_enclose (hquote : d.quote.isQuote) (hword : ∀ b ∈ word, b.isQuote = false)
    (h : d.Admits body) :
    Parts.of (d.enclose word body) =
      { isRaw := ascii 'r' ∈ Bytes.toLower word
        isBytes := ascii 'b' ∈ Bytes.toLower word
        isFormatted := ascii 'f' ∈ Bytes.toLower word
        offset := word.length + d.marks.length
        body := body } := by
  have hnot : ∀ b ∈ word, (!b.isQuote) = true := by simpa using hword
  have htake : (d.enclose word body).takeWhile (!·.isQuote) = word := by
    rw [Delimiter.enclose_eq, List.takeWhile_append_of_pos hnot,
      List.takeWhile_cons_of_neg (by simpa using hquote), List.append_nil]
  have hdrop : (d.enclose word body).dropWhile (!·.isQuote) = d.marks ++ (body ++ d.marks) := by
    rw [Delimiter.enclose_eq, List.dropWhile_append_of_pos hnot,
      List.dropWhile_cons_of_neg (by simpa using hquote), ← Delimiter.marks_append]
  have hlength : (d.marks ++ (body ++ d.marks)).length - 2 * d.marks.length = body.length := by
    simp only [List.length_append]
    omega
  rw [Parts.of, htake, hdrop, quoteCount_of_admits h, hlength, List.drop_left, List.take_left,
    Bytes.toLower, List.length_map]

end Literal

/-! ## What a literal denotes -/

namespace Parse

variable {field : FieldReading} {token : Token} {draft draft' : Draft} {c c' : Cursor}
  {value : Bytes}

/-- A string adds what its body denotes. -/
theorem addToken_string (hbytes : (Parts.of token.text).isBytes = false)
    (hformatted : (Parts.of token.text).isFormatted = false)
    (h : valueOf field.names (Parts.of token.text).isRaw (Parts.of token.text).body = .ok value)
    (draft : Draft) (c : Cursor) :
    addToken field false draft token c = .ok (draft.append value) c := by
  rw [addToken, if_neg (not_not_intro hbytes), hformatted, if_neg Bool.false_ne_true, hbytes]
  exact addLiteral_of_valueOf token draft c h

/-- An f-string without fields adds what its pieces do. -/
theorem addToken_fstring (hbytes : (Parts.of token.text).isBytes = false)
    (hformatted : (Parts.of token.text).isFormatted)
    (h : AddsText field.names (Parts.of token.text).isRaw (Parts.of token.text).body value)
    (draft : Draft) (c : Cursor) :
    addToken field false draft token c = .ok (draft.append value) c := by
  obtain ⟨hadds, hrest⟩ := h field token (Parts.of token.text).offset
    (Parts.of token.text).body.length _ draft c rfl (Nat.lt_succ_self _)
  have hdivide : FString.divide (Parts.of token.text).isRaw (Parts.of token.text).body = _ :=
    if_pos hrest
  rw [addToken, if_neg (not_not_intro hbytes), if_pos hformatted, hdivide]
  exact hadds

/-- The body of a string that is read denotes a text. -/
theorem exists_valueOf_of_addToken (hbytes : (Parts.of token.text).isBytes = false)
    (hformatted : (Parts.of token.text).isFormatted = false)
    (h : addToken field false draft token c = .ok draft' c') :
    ∃ value,
      valueOf field.names (Parts.of token.text).isRaw (Parts.of token.text).body = .ok value := by
  rw [addToken, if_neg (not_not_intro hbytes), hformatted, if_neg Bool.false_ne_true, hbytes,
    addLiteral] at h
  unfold valueOf
  split at h
  · next hraw => exact ⟨_, if_pos hraw⟩
  · next hraw =>
    cases hvalue : unescape field.names false (Parts.of token.text).body.unifyLineEnds with
    | error cause =>
      rw [hvalue] at h
      cases h
    | ok value => exact ⟨value, if_neg hraw⟩

end Parse

/-- The walk over a string ends at its closing quotes, and its style is that of its quotes. -/
theorem Delimiter.admits_of_isLine {d : Delimiter} {word body : Bytes} (hquote : d.quote.isQuote)
    (hword : word = [] ∨ isStringPrefix word)
    (hstyle : d.triple ∨ ¬ [d.quote, d.quote] <+: body)
    (hline : IsLine (tokenize false (d.enclose word body)) [⟨.string, d.enclose word body⟩]) :
    d.Admits body ∧ afterFrames [.plain d false] (body ++ d.marks) = .ok [] := by
  obtain ⟨word', quote, u, hs, -, hletters, hquote', hkind, hafter⟩ :=
    (hline.isLiteral rfl).exists_parts
  obtain ⟨rfl, rfl, rfl⟩ : word = word' ∧ d.quote = quote ∧
      d.marks.tail ++ (body ++ d.marks) = u := by
    rw [Delimiter.enclose_eq] at hs
    have hwords := congrArg (List.takeWhile (!·.isQuote)) hs
    have hplain := not_isQuote_of_isStringPrefix hword
    rw [List.takeWhile_append_of_pos (by simpa using hplain),
      List.takeWhile_append_of_pos (by simpa using hletters),
      List.takeWhile_cons_of_neg (by simpa using hquote),
      List.takeWhile_cons_of_neg (by simpa using hquote'), List.append_nil, List.append_nil]
      at hwords
    obtain rfl := hwords
    obtain ⟨rfl, rfl⟩ := List.cons.inj (List.append_cancel_left hs)
    exact ⟨rfl, rfl, rfl⟩
  rw [List.append_nil] at hafter
  have hadmits := Delimiter.admits_of_afterText hstyle hafter
  rw [Delimiter.afterText_of_admits hadmits, Frame.ofPrefix_of_string hkind.symm] at hafter
  exact ⟨hadmits, hafter⟩

/-- The body between the quotes of a string, with doubled braces, is one between those of an
f-string. -/
theorem IsDoubled.isLiteral {d : Delimiter} {word body body' : Bytes} (h : IsDoubled body body')
    (hquote : d.quote.isQuote) (hword : isStringPrefix word ∧ ascii 'f' ∈ word.toLower)
    (hadmits : d.Admits body) (hafter : afterFrames [.plain d false] (body ++ d.marks) = .ok []) :
    d.Admits body' ∧ Lexeme.IsLiteral .fstring (d.enclose word body') [] := by
  have hadmits' : d.Admits body' := fun htriple => h.dropPrefix?_quotes hquote (hadmits htriple)
  have hkind : textKind word = .fstring := by
    rw [textKind_of_isStringPrefix hword.1, if_pos hword.2]
  refine ⟨hadmits', ⟨word, d.quote, d.marks.tail ++ (body' ++ d.marks),
    d.enclose_eq word body', .inr hword.1, not_isQuote_of_isStringPrefix (.inr hword.1), hquote,
    hkind.symm, ?_⟩⟩
  rw [List.append_nil, Delimiter.afterText_of_admits hadmits',
    Frame.ofPrefix_of_formatted hword.1 hword.2]
  exact h.afterFrames_eq hquote hafter

/-! ## Sources with one literal -/

section Sources

variable [names : Unicode.CharacterNames]

/-- A string or an f-string without fields is read as the text that it adds. -/
theorem Expr.ofSource_literal {kind : TokenKind} {s value : Bytes}
    (hline : IsLine (tokenize false s) [⟨kind, s⟩]) (htext : kind.isText) (hbytes : kind ≠ .bytes)
    (hadd : ∀ (field : FieldReading) (token : Token) (c : Cursor), field.names = names →
      token.text = s → addToken field false .empty token c = .ok (Draft.empty.append value) c) :
    ∃ v, Expr.ofSource s = .ok v ∧ v.bare =
      if (Parts.of s).isFormatted then .new (.fstring (if value = [] then [] else [.str value]))
      else .str value := by
  have hbegins : kind.Begins .atom := by
    cases kind <;> first | decide | cases htext
  refine Expr.ofSource_atom hline hbegins fun depth c newline final hc hnewline => ?_
  have hpeek : c.peek.text = s := congrArg Word.text (Cursor.word_peek hc)
  have hrun : addToken (fieldUpTo names (depth + 1)) (kind = .bytes) .empty c.peek c.advance =
      .ok (Draft.empty.append value) c.advance := by
    rw [decide_eq_false hbytes]
    exact hadd _ _ _ rfl hpeek
  have hstrings := strings_run hc htext (by rw [hnewline]; rfl) hrun
  rw [if_neg hbytes] at hstrings
  refine ⟨_, fun read => (atom_text read hc htext).trans hstrings, ?_⟩
  cases hformatted : (Parts.of s).isFormatted with
  | true =>
    have hvalues : consText value [] = if value = [] then [] else [.str value] :=
      consText_of_none rfl value
    rw [if_pos rfl, if_pos rfl, Expr.bare, Expr.Shape.bare, Expr.bareAll_eq_map,
      Draft.flush_values, ← hvalues]
    rfl
  | false => rfl

/-- A source is a single token of a kind, and forms an expression. -/
structure LiteralForms (kind : TokenKind) (s : Bytes) (e : Expr) : Prop where
  line : IsLine (tokenize false s) [⟨kind, s⟩]
  value : ∃ v, Expr.ofSource s = .ok v ∧ v.bare = e

/-- A string that is read adds something to some draft. -/
theorem exists_addToken_of_ofSource {kind : TokenKind} {s : Bytes} {v : Expr}
    (hline : IsLine (tokenize false s) [⟨kind, s⟩]) (htext : kind.isText)
    (h : Expr.ofSource s = .ok v) :
    ∃ field token draft c draft' c', field.names = names ∧ token.text = s ∧
      addToken field (kind = .bytes) draft token c = .ok draft' c' := by
  obtain ⟨ts, newline, final, htokens, hwords, hcomment, hnewline, hfinal⟩ := hline
  obtain ⟨t, rest, rfl, hword, hnil⟩ := List.map_eq_cons_iff.mp hwords
  obtain rfl := List.map_eq_nil_iff.mp hnil
  obtain ⟨rfl, rfl⟩ : kind = t.kind ∧ s = t.text := by
    rw [Token.word] at hword
    cases hword
    exact ⟨rfl, rfl⟩
  rw [Expr.ofSource, Parse.ofSource, htokens] at h
  obtain ⟨c', hrun⟩ := ofTokens_eq_ok.mp h
  have hc : (Cursor.ofTokens (Bytes.lines t.text) ([t] ++ [newline, final])).rest =
      [t, newline] := by
    have hkept : ∀ u ∈ [t, newline, final], u.kind ≠ .comment := by
      simpa [hnewline, hfinal] using hcomment
    have hfilter : [t, newline, final].filter (·.kind ≠ .comment) = [t, newline, final] :=
      List.filter_eq_self.mpr fun u hu => decide_eq_true (hkept u hu)
    rw [List.singleton_append, Cursor.ofTokens, hfilter]
    simp [hfinal]
  generalize Cursor.ofTokens (Bytes.lines t.text) ([t] ++ [newline, final]) = c at hc hrun
  have hfield : field c = .ok (fieldUpTo names
    (c.rest.foldl (fun n token => max n token.text.length) 0 + 1)) c := rfl
  rw [Parse.onlyExpression, bind_ok hfield] at hrun
  obtain ⟨u, c₁, hstrings⟩ := exists_strings_of_wholeExpression hc htext hrun
  obtain ⟨literals, hliterals, hadded⟩ := exists_areAdded_of_strings (fieldSteady_fieldUpTo _)
    (List.forall_mem_singleton.mpr htext) hc hstrings
  obtain ⟨⟨u, parts⟩, rest, rfl, rfl, -⟩ := List.map_eq_cons_iff.mp hliterals
  exact ⟨_, u, .empty, c, _, c, names_fieldUpTo _, rfl,
    (hadded _ List.mem_cons_self).adds c .empty rfl⟩

/-- A string is read as the text that its body denotes. -/
theorem literalForms_string {s value : Bytes} (hliteral : Lexeme.IsLiteral .string s [])
    (h : valueOf names (Parts.of s).isRaw (Parts.of s).body = .ok value) :
    LiteralForms .string s (.str value) := by
  obtain ⟨hbytes, hformatted⟩ := hliteral.parts
  have hadd (field : FieldReading) (token : Token) (c : Cursor)
      (hnames : field.names = names) (htoken : token.text = s) :
      addToken field false .empty token c = .ok (Draft.empty.append value) c := by
    subst htoken
    exact addToken_string hbytes hformatted (hnames ▸ h) .empty c
  refine ⟨hliteral.isLine, ?_⟩
  have hread := Expr.ofSource_literal hliteral.isLine rfl (by decide) hadd
  rwa [hformatted] at hread

/-- A string that is read as a text has a body that denotes it. -/
theorem LiteralForms.valueOf_eq {s value : Bytes} (h : LiteralForms .string s (.str value)) :
    valueOf names (Parts.of s).isRaw (Parts.of s).body = .ok value := by
  have hliteral := h.line.isLiteral rfl
  obtain ⟨hbytes, hformatted⟩ := hliteral.parts
  obtain ⟨v, hv, hvalue⟩ := h.value
  obtain ⟨value', hvalue'⟩ : ∃ value',
      valueOf names (Parts.of s).isRaw (Parts.of s).body = .ok value' := by
    obtain ⟨field, token, draft, c, draft', c', hnames, rfl, hadd⟩ :=
      exists_addToken_of_ofSource h.line rfl hv
    exact hnames ▸ exists_valueOf_of_addToken hbytes hformatted hadd
  -- The reading has one result, so the text that the body denotes is the one that was read.
  obtain ⟨v', hv', hbare⟩ := (literalForms_string hliteral hvalue').value
  obtain rfl := Except.ok.inj (hv'.symm.trans hv)
  obtain rfl : value' = value := by
    have hsame := hbare.symm.trans hvalue
    simpa [Expr.str, Expr.new] using hsame
  exact hvalue'

/-- An f-string whose pieces add a text is read as that text. -/
theorem literalForms_fstring {s value : Bytes} (hliteral : Lexeme.IsLiteral .fstring s [])
    (h : AddsText names (Parts.of s).isRaw (Parts.of s).body value) :
    LiteralForms .fstring s (.new (.fstring (if value = [] then [] else [.str value]))) := by
  obtain ⟨hbytes, hformatted⟩ := hliteral.parts
  have hadd (field : FieldReading) (token : Token) (c : Cursor)
      (hnames : field.names = names) (htoken : token.text = s) :
      addToken field false .empty token c = .ok (Draft.empty.append value) c := by
    subst htoken
    exact addToken_fstring hbytes hformatted (hnames ▸ h) .empty c
  refine ⟨hliteral.isLine, ?_⟩
  have hread := Expr.ofSource_literal hliteral.isLine rfl (by decide) hadd
  rwa [hformatted] at hread

/-- A string and the f-string with doubled braces denote the same text.  If a body forms a string
between some quotes, behind a prefix or none, then the body with doubled braces forms an f-string
between them, behind a prefix that is raw if the other one is.  The f-string has the text as its
only value, or none if the text is empty.

No name of a character in the body contains a NUL byte: the name would end there, and what follows
it up to the brace would be part of the string but code in the f-string.  Between single quotes the
body does not begin with two more of them, for three quotes are those of the other style. -/
theorem formatted_reads_plain (hnames : names.AreStandard) {d : Delimiter}
    {word word' body value : Bytes} (hquote : d.quote.isQuote)
    (hword : word = [] ∨ isStringPrefix word)
    (hword' : isStringPrefix word' ∧ ascii 'f' ∈ word'.toLower)
    (hraw : ascii 'r' ∈ word'.toLower ↔ ascii 'r' ∈ word.toLower)
    (hstyle : d.triple ∨ ¬ [d.quote, d.quote] <+: body)
    (hnul : ascii 'r' ∈ word.toLower ∨ NoNulInNames body)
    (h : LiteralForms .string (d.enclose word body) (.str value)) :
    LiteralForms .fstring
      (d.enclose word' (FString.doubleBraces (ascii 'r' ∈ word.toLower) false body))
      (.new (.fstring (if value = [] then [] else [.str value]))) := by
  obtain ⟨hadmits, hafter⟩ := Delimiter.admits_of_isLine hquote hword hstyle h.line
  have hbody := h.valueOf_eq
  rw [Parts.of_enclose hquote (not_isQuote_of_isStringPrefix hword) hadmits] at hbody
  have hdoubled : IsDoubled body
      (FString.doubleBraces (ascii 'r' ∈ word.toLower) false body) := by
    cases hcase : decide (ascii 'r' ∈ word.toLower) with
    | true => exact .raw body
    | false =>
      exact .of_isReadable hnames ⟨_, hcase ▸ hbody⟩ (hnul.resolve_left (of_decide_eq_false hcase))
  obtain ⟨hadmits', hliteral⟩ := hdoubled.isLiteral hquote hword' hadmits hafter
  refine literalForms_fstring hliteral ?_
  rw [Parts.of_enclose hquote (not_isQuote_of_isStringPrefix (.inr hword'.1)) hadmits',
    decide_eq_decide.mpr hraw]
  exact addsText_doubleBraces hbody

end Sources

open scoped Unicode.NameTable in
/-- The braces of a name stay single, and one that stands alone is doubled. -/
theorem formatted_reads_plain_name :
    LiteralForms .string (text "'\\N\x7bSPACE\x7d\x7b'") (.str (text " \x7b")) ∧
      LiteralForms .fstring (text "f'\\N\x7bSPACE\x7d\x7b\x7b'")
        (.new (.fstring [.str (text " \x7b")])) := by
  let d : Delimiter := ⟨Byte.singleQuote, false⟩
  let body : Bytes := text "\\N\x7bSPACE\x7d\x7b"
  let t : Token := ⟨.string, d.enclose [] body, ⟨1, 1⟩, ⟨1, 13⟩⟩
  have hline : IsLine (tokenize false (d.enclose [] body)) [⟨.string, d.enclose [] body⟩] := by
    refine ⟨[t], .empty .newline (text "\n") ⟨1, 13⟩, .empty .endOfInput [] ⟨1, 13⟩, ?_, rfl,
      by decide, rfl, rfl⟩
    decide +kernel
  have hplain : LiteralForms .string (d.enclose [] body) (.str (text " \x7b")) := by
    refine literalForms_string (hline.isLiteral rfl) ?_
    decide +kernel
  have hread : LiteralForms .fstring (d.enclose (text "f") (FString.doubleBraces false false body))
      (.new (.fstring [.str (text " \x7b")])) :=
    formatted_reads_plain Unicode.NameTable.areStandard rfl (.inl rfl) ⟨rfl, by decide⟩ (by decide)
      (.inr (by decide)) (.inr (noNulInNames_of_notMem (by decide))) hplain
  exact ⟨hplain, hread⟩

end SyntaxTree
