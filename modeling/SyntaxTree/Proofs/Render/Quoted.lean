import SyntaxTree.Proofs.Grammar.Text
import SyntaxTree.Proofs.Render.Escape
import SyntaxTree.Unicode.NameTable

/-
# Written literals

A written string or bytes literal is one token, which ends at the closing quote although the quote
may stand in the text, and the token reads as the text that was written.
-/

namespace SyntaxTree

open Literal Parse Render

/-! ## Escaped texts inside of a literal -/

/-- What stands behind an escaped character that ends no line. -/
theorem escaped_cons {b : Byte} (hb : b.isLineEnd = false) (s : Bytes) : escaped (b :: s) = s := by
  have hpair : ¬ (b = Byte.carriageReturn ∧ s.head? = some Byte.lineFeed) := by
    rintro ⟨rfl, -⟩
    exact nomatch hb
  exact if_neg hpair

theorem Byte.isEscapable_iff {b : Byte} : b.isEscapable ↔ b.isLineEnd = false ∧
    b.isNonAscii = false ∧ b ≠ ascii 'N' ∧ FString.isBrace b = false := by
  simp [isEscapable, and_assoc]

namespace Frame

variable {quote b : Byte} {bytes : Bool}

/-- A literal goes on behind a byte of its text. -/
theorem step_plain (hback : b ≠ Byte.backslash) (htext : Byte.isText quote b)
    (hascii : bytes = true → b.isNonAscii = false) (s : Bytes) :
    (plain ⟨quote, false⟩ bytes).step b s = .ok ([plain ⟨quote, false⟩ bytes], s) := by
  obtain ⟨hquote, hend⟩ := Byte.isText_iff.mp htext
  have hbeyond : ¬ (bytes && b.isNonAscii) = true := by simpa using hascii
  rw [step, if_neg hback, hend, Bool.false_and, if_neg Bool.false_ne_true, if_neg hbeyond,
    if_neg hquote]

/-- A literal goes on behind a pair. -/
theorem step_plain_pair (hb : b.isEscapable) (s : Bytes) :
    (plain ⟨quote, false⟩ bytes).step Byte.backslash (b :: s) =
      .ok ([plain ⟨quote, false⟩ bytes], s) := by
  rw [step, if_pos rfl, if_neg (List.cons_ne_nil b s),
    escaped_cons (Byte.isEscapable_iff.mp hb).1]

/-- A literal ends at its quote. -/
theorem step_plain_quote (hquote : quote.isQuote) (s : Bytes) :
    (plain ⟨quote, false⟩ bytes).step quote s = .ok ([], s) := by
  rcases Byte.isQuote_iff.mp hquote with rfl | rfl <;> cases bytes <;> rfl

end Frame

/-- A walk passes over an escaped text if it passes over its plain bytes and its pairs. -/
theorem IsEscaped.afterFrames_append {f : Frame} {isOf : Byte → Bool}
    (hplain : ∀ b s, b ≠ Byte.backslash → isOf b → f.step b s = .ok ([f], s))
    (hpair : ∀ b s, b.isEscapable → f.step Byte.backslash (b :: s) = .ok ([f], s))
    {s : Bytes} (hs : IsEscaped isOf s) (outer : List Frame) (rest : Bytes) :
    afterFrames (f :: outer) (s ++ rest) = afterFrames (f :: outer) rest := by
  induction hs with
  | nil => rfl
  | @plain b s hb hof _ ih =>
    rw [List.cons_append, afterFrames_cons, hplain b _ hb hof]
    exact ih
  | @pair b s hb _ ih =>
    rw [List.cons_append, List.cons_append, afterFrames_cons, hpair b _ hb]
    exact ih

/-- An escaped text without plain quotes does not begin with one. -/
theorem IsEscaped.head_ne {isOf : Byte → Bool} {quote : Byte} (hquote : quote.isQuote)
    (hof : ∀ b, isOf b → b ≠ quote) {s : Bytes} (hs : IsEscaped isOf s) :
    ∀ b ∈ s.head?, b ≠ quote := by
  intro b hb
  cases hs with
  | nil => exact nomatch hb
  | plain _ hclass _ =>
    obtain rfl := Option.some.inj hb
    exact hof _ hclass
  | pair _ _ =>
    obtain rfl := Option.some.inj hb
    exact (Byte.ne_backslash_of_isQuote hquote).symm

/-! ## Literals as lexemes -/

/-- A text that begins with another byte, or is empty, opens no triple quotes. -/
theorem afterText_append {word s rest : Bytes} {quote : Byte} (hs : ∀ b ∈ s.head?, b ≠ quote)
    (hrest : ∀ b ∈ rest.head?, b ≠ quote) :
    afterText word quote (s ++ quote :: rest) =
      afterFrames [.ofPrefix word ⟨quote, false⟩] (s ++ quote :: rest) := by
  have hnone : Bytes.dropPrefix? [quote, quote] (s ++ quote :: rest) = none := by
    cases s with
    | nil =>
      rw [List.nil_append, Bytes.dropPrefix?, if_pos rfl]
      cases rest with
      | nil => rfl
      | cons b rest => exact if_neg (hrest b rfl).symm
    | cons b s => exact if_neg (hs b rfl).symm
  rw [afterText_eq, hnone]
  rfl

namespace Lexeme

variable {quote b : Byte} {s rest : Bytes}

/-- A literal without letters in front of it. -/
theorem next_quote (hquote : quote.isQuote) (h : afterText [] quote s = .ok rest) :
    next quote s = .ok (.token .string, rest) := by
  have htoken : afterToken quote s = .ok (.string, rest) := by
    rcases Byte.isQuote_iff.mp hquote with rfl | rfl
    · exact congrArg (Except.map (TokenKind.string, ·)) h
    · exact congrArg (Except.map (TokenKind.string, ·)) h
  rcases Byte.isQuote_iff.mp hquote with rfl | rfl <;>
    exact next_eq_of_afterToken rfl rfl (by decide) (by decide) htoken

/-- A word ends in front of a quote. -/
theorem afterWord_quote (hquote : quote.isQuote) {t : Bytes} (ht : t.all isWordByte) (s : Bytes) :
    afterWord (t ++ quote :: s) = quote :: s := by
  induction t with
  | nil =>
    rcases Byte.isQuote_iff.mp hquote with rfl | rfl <;> rw [List.nil_append, afterWord] <;> rfl
  | cons b t ih =>
    simp only [List.all_cons, Bool.and_eq_true] at ht
    rw [List.cons_append, afterWord]
    simp only [Byte.not_isNonAscii_of_isWordByte ht.1, Bool.false_eq_true, if_false, ht.1, if_true]
    exact ih ht.2

/-- A literal behind the letters of a prefix. -/
theorem next_prefixed {t : Bytes} (hquote : quote.isQuote) (hb : b.startsWord)
    (ht : t.all isWordByte) (hletters : isStringPrefix (b :: t))
    (h : afterText (b :: t) quote s = .ok rest) :
    next b (t ++ quote :: s) = .ok (.token (textKind (b :: t)), rest) := by
  refine next_of_startsWord hb ?_
  rw [afterWord_quote hquote ht, ← List.cons_append, before_append, afterWordOrText, hquote,
    hletters, if_pos (Bool.true_and true), h]
  rfl

end Lexeme

/-! ## Written strings and bytes -/

/-- The chosen quote is one. -/
theorem isQuote_chooseQuote {preferred : Byte} (hpreferred : preferred.isQuote) (s : Bytes) :
    (chooseQuote s preferred).isQuote := by
  unfold chooseQuote
  dsimp only
  split_ifs <;> first | rfl | exact hpreferred

/-- A literal that is no f-string ends at the first quote that no backslash stands in front of. -/
theorem afterText_escaped {word body rest : Bytes} {quote : Byte} {bytes : Bool}
    {isOf : Byte → Bool} (hquote : quote.isQuote)
    (hword : Frame.ofPrefix word ⟨quote, false⟩ = .plain ⟨quote, false⟩ bytes)
    (hof : ∀ b, isOf b → Byte.isText quote b ∧ (bytes = true → b.isNonAscii = false))
    (hbody : IsEscaped isOf body) (hrest : ∀ b ∈ rest.head?, b ≠ quote) :
    afterText word quote (body ++ quote :: rest) = .ok rest := by
  have hclass : ∀ b, isOf b → b ≠ quote := fun b hb => (Byte.isText_iff.mp (hof b hb).1).1
  rw [afterText_append (hbody.head_ne hquote hclass) hrest, hword,
    hbody.afterFrames_append
      (fun b s hb hclass => Frame.step_plain hb (hof b hclass).1 (hof b hclass).2 s)
      (fun b s hb => Frame.step_plain_pair hb s), afterFrames_cons, Frame.step_plain_quote hquote]
  show afterFrames [] rest = _
  rw [afterFrames]

namespace Divides

variable {quote : Byte} {body rest : Bytes}

/-- An escaped text between quotes is a token. -/
theorem quoted (hquote : quote.isQuote) (hbody : IsEscaped (Byte.isText quote) body)
    (hrest : ∀ b ∈ rest.head?, b ≠ quote) :
    Divides (quote :: (body ++ [quote]) ++ rest) rest [⟨.string, quote :: (body ++ [quote])⟩] := by
  have hafter : afterText [] quote (body ++ [quote] ++ rest) = .ok rest := by
    have hword : Frame.ofPrefix [] ⟨quote, false⟩ = .plain ⟨quote, false⟩ false := rfl
    rw [List.append_assoc]
    exact afterText_escaped hquote hword (fun b hb => ⟨hb, nofun⟩) hbody hrest
  exact of_next (Lexeme.next_quote hquote hafter) ⟨nofun, rfl⟩

/-- An escaped text between quotes behind the prefix of bytes is a token. -/
theorem quotedBytes (hquote : quote.isQuote) (hbody : IsEscaped (Byte.isRawText quote) body)
    (hrest : ∀ b ∈ rest.head?, b ≠ quote) :
    Divides (ascii 'b' :: quote :: (body ++ [quote]) ++ rest) rest
      [⟨.bytes, ascii 'b' :: quote :: (body ++ [quote])⟩] := by
  have hafter : afterText [ascii 'b'] quote (body ++ [quote] ++ rest) = .ok rest := by
    have hof : ∀ b, Byte.isRawText quote b →
        Byte.isText quote b ∧ (true = true → b.isNonAscii = false) := by
      intro b hb
      simp only [Byte.isRawText, Bool.and_eq_true, Bool.not_eq_true'] at hb
      exact ⟨hb.1, fun _ => hb.2⟩
    rw [List.append_assoc]
    exact afterText_escaped hquote rfl hof hbody hrest
  exact of_next (t := quote :: (body ++ [quote]))
    (Lexeme.next_prefixed (t := []) hquote rfl rfl rfl hafter)
    ⟨by rintro ⟨⟩, rfl⟩

end Divides

/-! ## Literals that denote a value -/

namespace Parse

variable {field : FieldReading} {c : Cursor} {f : Word} {more : List Word}
  {body value : Bytes} {quote : Byte}

/-- A literal whose body denotes a value adds it. -/
theorem addToken_quoted {letters : Bytes} {isBytes : Bool} {isOf : Byte → Bool}
    (hquote : quote.isQuote) (hletters : ∀ b ∈ letters, b.isQuote = false)
    (hraw : ascii 'r' ∉ letters.toLower) (hformatted : ascii 'f' ∉ letters.toLower)
    (hbytes : decide (ascii 'b' ∈ letters.toLower) = isBytes)
    (hof : ∀ b, isOf b → Byte.isText quote b) (hbody : Encodes isBytes isOf body value)
    (draft : Draft) {token : Token} (htoken : token.text = letters ++ quote :: (body ++ [quote]))
    (c : Cursor) : addToken field isBytes draft token c = .ok (draft.append value) c := by
  have hhead : ∀ b ∈ body.head?, b ≠ quote :=
    hbody.escaped.head_ne hquote fun b hb => (Byte.isText_iff.mp (hof b hb)).1
  have hends : ∀ b ∈ body, b.isLineEnd = false :=
    hbody.escaped.not_isLineEnd fun b hb => (Byte.isText_iff.mp (hof b hb)).2
  rw [addToken, htoken, Parts.of_quoted hquote hletters hhead]
  dsimp only
  rw [if_neg (by simpa using hbytes), if_neg (by simpa using hformatted),
    Bytes.unifyLineEnds_of_notMem hends, addLiteral, if_neg (by simpa using hraw), hbytes,
    hbody.unescape_eq]
  rfl

/-- A string literal alone denotes its text. -/
theorem strings_quoted (hc : c.words = ⟨.string, quote :: (body ++ [quote])⟩ :: f :: more)
    (hf : f.kind.isText = false) (hquote : quote.isQuote)
    (hbody : Encodes false (Byte.isText quote) body value) :
    ∃ span, strings field c = .ok (.node span (.constant (.string value))) c.advance := by
  have htext : c.peek.text = [] ++ quote :: (body ++ [quote]) :=
    congrArg Word.text (Cursor.word_peek hc)
  have hadd : addToken field false .empty c.peek c.advance = .ok ⟨[], value⟩ c.advance :=
    addToken_quoted hquote (List.forall_mem_nil _) List.not_mem_nil List.not_mem_nil rfl
      (fun _ hb => hb) hbody .empty htext c.advance
  have hformatted : (Parts.of ([] ++ quote :: (body ++ [quote]))).isFormatted = false :=
    congrArg Parts.isFormatted (Parts.of_quoted hquote (List.forall_mem_nil _)
      (hbody.escaped.head_ne hquote fun b hb => (Byte.isText_iff.mp hb).1))
  refine ⟨c.advance.spanFrom c.peek.start, ?_⟩
  rw [strings_run hc rfl hf hadd, ← List.nil_append (quote :: (body ++ [quote])), hformatted]
  rfl

/-- A bytes literal alone denotes its bytes. -/
theorem strings_quotedBytes
    (hc : c.words = ⟨.bytes, ascii 'b' :: quote :: (body ++ [quote])⟩ :: f :: more)
    (hf : f.kind.isText = false) (hquote : quote.isQuote)
    (hbody : Encodes true (Byte.isRawText quote) body value) :
    ∃ span, strings field c = .ok (.node span (.constant (.bytes value))) c.advance := by
  have htext : c.peek.text = [ascii 'b'] ++ quote :: (body ++ [quote]) :=
    congrArg Word.text (Cursor.word_peek hc)
  have hbytes : decide (ascii 'b' ∈ Bytes.toLower [ascii 'b']) = true := rfl
  have hadd : addToken field true .empty c.peek c.advance = .ok ⟨[], value⟩ c.advance :=
    addToken_quoted hquote (List.forall_mem_singleton.mpr rfl) (by decide) (by decide) hbytes
      (fun _ hb => Byte.isText_of_isRawText hb) hbody .empty htext c.advance
  exact ⟨_, strings_run hc rfl hf hadd⟩

end Parse

/-! ## Written literals read back -/

section Whole

variable {quote : Byte} {body value : Bytes}

/-- A quote begins a line. -/
theorem Byte.isQuote_plain {b : Byte} (h : b.isQuote) :
    b.isBlank = false ∧ b.isNonAscii = false := by
  rcases isQuote_iff.mp h with rfl | rfl <;> decide

/-- A string literal is a single token and denotes its text. -/
theorem Expr.ofSource_quoted [names : Unicode.CharacterNames] (hquote : quote.isQuote)
    (hbody : Encodes false (Byte.isText quote) body value) :
    IsLine (tokenize false (quote :: (body ++ [quote]))) [⟨.string, quote :: (body ++ [quote])⟩] ∧
      ∃ v, Expr.ofSource (quote :: (body ++ [quote])) = .ok v ∧
        v.bare = .new (.constant (.string value)) := by
  obtain ⟨hblank, hascii⟩ := Byte.isQuote_plain hquote
  have hdivides : Divides (quote :: (body ++ [quote]) ++ []) [] _ :=
    .quoted hquote hbody.escaped nofun
  rw [List.append_nil] at hdivides
  have hline := hdivides.tokenize hblank hascii
  refine ⟨hline, Expr.ofSource_atom hline ⟨.atom, rfl, Nat.le_refl _⟩ ?_⟩
  intro depth c newline final hc hnewline
  obtain ⟨span, hrun⟩ : ∃ span, strings (fieldUpTo names (depth + 1)) c = .ok (.node span _) _ :=
    strings_quoted hc (by rw [hnewline]; rfl) hquote hbody
  exact ⟨_, fun read => (atom_text read hc rfl).trans hrun, rfl⟩

/-- A bytes literal is a single token and denotes its bytes. -/
theorem Expr.ofSource_quotedBytes [names : Unicode.CharacterNames] (hquote : quote.isQuote)
    (hbody : Encodes true (Byte.isRawText quote) body value) :
    IsLine (tokenize false (ascii 'b' :: quote :: (body ++ [quote])))
        [⟨.bytes, ascii 'b' :: quote :: (body ++ [quote])⟩] ∧
      ∃ v, Expr.ofSource (ascii 'b' :: quote :: (body ++ [quote])) = .ok v ∧
        v.bare = .new (.constant (.bytes value)) := by
  have hdivides : Divides (ascii 'b' :: quote :: (body ++ [quote]) ++ []) [] _ :=
    .quotedBytes hquote hbody.escaped nofun
  rw [List.append_nil] at hdivides
  have hline := hdivides.tokenize rfl rfl
  refine ⟨hline, Expr.ofSource_atom hline ⟨.atom, rfl, Nat.le_refl _⟩ ?_⟩
  intro depth c newline final hc hnewline
  obtain ⟨span, hrun⟩ : ∃ span, strings (fieldUpTo names (depth + 1)) c = .ok (.node span _) _ :=
    strings_quotedBytes hc (by rw [hnewline]; rfl) hquote hbody
  exact ⟨_, fun read => (atom_text read hc rfl).trans hrun, rfl⟩

end Whole

/-- For either preferred quote, the literal of a text of code points is a single token that denotes
the text, and the literal of any bytes is a single token that denotes them. -/
theorem quoted_reads_back [Unicode.CharacterNames] {preferred : Byte}
    (hpreferred : preferred.isQuote) :
    (∀ codes : List Nat, (∀ code ∈ codes, code ≤ 0x10FFFF) →
      IsLine (tokenize false (quoteString (Utf8.encodeAll codes) preferred))
          [⟨.string, quoteString (Utf8.encodeAll codes) preferred⟩] ∧
        ∃ v, Expr.ofSource (quoteString (Utf8.encodeAll codes) preferred) = .ok v ∧
          v.bare = .new (.constant (.string (Utf8.encodeAll codes)))) ∧
    ∀ s : Bytes,
      IsLine (tokenize false (quoteBytes s preferred)) [⟨.bytes, quoteBytes s preferred⟩] ∧
        ∃ v, Expr.ofSource (quoteBytes s preferred) = .ok v ∧
          v.bare = .new (.constant (.bytes s)) := by
  constructor
  · intro codes hcodes
    have hquote := isQuote_chooseQuote hpreferred (Utf8.encodeAll codes)
    exact Expr.ofSource_quoted hquote (encodes_escape hquote hcodes)
  · intro s
    have hquote := isQuote_chooseQuote hpreferred s
    exact Expr.ofSource_quotedBytes hquote (encodes_raw hquote s)

open scoped Unicode.NameTable in
/-- A quote, a backslash, a line end, a control character, a surrogate and a letter. -/
theorem quoted_reads_back_mixed :
    quoteString (Utf8.encodeAll [0x22, 0x27, 0x5C, 0xA, 0x7F, 0xD800, 0x30]) Byte.doubleQuote =
        text "\"\\\"'\\\\\\n\\x7f\\ud8000\"" ∧
      ∃ v, Expr.ofSource (text "\"\\\"'\\\\\\n\\x7f\\ud8000\"") = .ok v ∧
        v.bare = .new (.constant (.string
          (Utf8.encodeAll [0x22, 0x27, 0x5C, 0xA, 0x7F, 0xD800, 0x30]))) := by
  have hwritten : quoteString (Utf8.encodeAll [0x22, 0x27, 0x5C, 0xA, 0x7F, 0xD800, 0x30])
      Byte.doubleQuote = text "\"\\\"'\\\\\\n\\x7f\\ud8000\"" := by decide +kernel
  refine ⟨hwritten, ?_⟩
  rw [← hwritten]
  exact ((quoted_reads_back rfl).1 _ (by decide)).2

end SyntaxTree
