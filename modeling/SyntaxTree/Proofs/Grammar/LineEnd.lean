import SyntaxTree.Grammar.Module
import SyntaxTree.Proofs.Token.Cover
import SyntaxTree.Proofs.Token.LineEnd
import SyntaxTree.Proofs.Token.Plain
import SyntaxTree.Tree.Dump
import SyntaxTree.Unicode.NameTable

/-
# Sources under other line ends

Carriage returns, or pairs of carriage return and line feed, may end the lines of a source in place
of line feeds.  The source has the same tokens then at the same places, but for the line ends that
literals hold, and the same errors.  If each of its literals is in one line, then it forms the same
module.
-/

namespace SyntaxTree

open Bytes

variable {e : LineEnd}

/-! ## What is in one line -/

/-- Whether a lexeme may hold line ends. -/
def LexemeKind.spansLines : LexemeKind → Bool
  | .lineEnd | .join => true
  | .token kind => kind.isText
  | .blank | .comment => false

theorem Byte.not_isLineEnd_of_isNameByte {b : Byte} (h : b.isNameByte) : b.isLineEnd = false := by
  refine Bool.eq_false_iff.mpr fun hend => ?_
  rcases Byte.isLineEnd_iff.mp hend with rfl | rfl <;> cases h

theorem isText_textKind (word : Bytes) : (textKind word).isText := by
  unfold textKind
  split <;> rfl

namespace Lexeme

variable {b : Byte} {t rest : Bytes}

theorem not_isLineEnd_of_afterName {kind : TokenKind} (hb : b.isNameByte)
    (h : afterName b (t ++ rest) = .ok (kind, rest)) (hkind : kind.isText = false) :
    ∀ c ∈ b :: t, c.isLineEnd = false := by
  obtain ⟨u, after, hsplit, hname, h⟩ := exists_word_of_afterName hb h
  have hword (h : (TokenKind.ofWord (b :: u), after) = (kind, rest)) :
      ∀ c ∈ b :: t, c.isLineEnd = false := by
    obtain ⟨-, rfl⟩ := Prod.mk.inj h
    obtain rfl : t = u := List.append_cancel_right hsplit
    exact fun c hc => Byte.not_isLineEnd_of_isNameByte (hname c hc)
  unfold afterWordOrText at h
  split at h
  · split at h
    · obtain ⟨behind, -, h⟩ := exists_of_map_eq_ok h
      obtain ⟨rfl, -⟩ := Prod.mk.inj h
      exact absurd (isText_textKind (b :: u)) (by simp [hkind])
    · exact hword (Except.ok.inj h)
  · exact hword (Except.ok.inj h)

theorem not_isLineEnd_of_afterToken {kind : TokenKind}
    (h : afterToken b (t ++ rest) = .ok (kind, rest)) (hkind : kind.isText = false) :
    ∀ c ∈ b :: t, c.isLineEnd = false := by
  unfold afterToken at h
  split at h
  · next hdigit =>
    obtain ⟨front, hsplit, hfront⟩ := Number.spares_of_after (not_isLineEnd_of_number hdigit) h
    obtain rfl : b :: t = front := List.append_cancel_right hsplit
    exact hfront
  split at h
  · next hb => exact not_isLineEnd_of_afterName (by grind [Byte.isNameByte, isWordByte]) h hkind
  split at h
  · obtain ⟨behind, -, h⟩ := exists_of_map_eq_ok h
    obtain ⟨rfl, -⟩ := Prod.mk.inj h
    cases hkind
  · exact not_isLineEnd_of_afterOperator h

/-- Blanks, comments, names, numbers and operators are in one line. -/
theorem not_isLineEnd_of_next {kind : LexemeKind} (h : next b (t ++ rest) = .ok (kind, rest))
    (hkind : kind.spansLines = false) : ∀ c ∈ b :: t, c.isLineEnd = false := by
  unfold next at h
  split at h
  · next hblank =>
    obtain ⟨-, hrest⟩ := Prod.mk.inj (Except.ok.inj h)
    intro c hc
    have hc : c.isBlank := by
      rcases List.mem_cons.mp hc with rfl | hc
      · exact hblank
      · exact (forall_mem_of_dropWhile hrest).1 c hc
    refine Bool.eq_false_iff.mpr fun hend => ?_
    rcases Byte.isLineEnd_iff.mp hend with rfl | rfl <;> cases hc
  split at h
  · obtain ⟨rfl, -⟩ := Prod.mk.inj (Except.ok.inj h)
    cases hkind
  split at h
  · next hmark =>
    obtain ⟨-, hrest⟩ := Prod.mk.inj (Except.ok.inj h)
    refine List.forall_mem_cons.mpr ⟨hmark ▸ rfl, fun c hc => ?_⟩
    simpa using (forall_mem_of_dropWhile hrest).1 c hc
  split at h
  · obtain ⟨behind, -, h⟩ := exists_of_map_eq_ok h
    obtain ⟨rfl, -⟩ := Prod.mk.inj h
    cases hkind
  · obtain ⟨⟨kind', rest'⟩, htoken, h⟩ := exists_of_map_eq_ok h
    obtain ⟨rfl, rfl⟩ := Prod.mk.inj h
    exact not_isLineEnd_of_afterToken htoken hkind

end Lexeme

/-! ## The division of a source -/

/-- A lexeme with other line ends. -/
def Lexeme.withLineEnds (e : LineEnd) (lexeme : Lexeme) : Lexeme :=
  { lexeme with text := Bytes.withLineEnds e lexeme.text }

/-- A lexeme that holds no carriage return, and a line feed only if it may hold line ends. -/
structure Lexeme.IsFed (lexeme : Lexeme) : Prop where
  return_notMem : Byte.carriageReturn ∉ lexeme.text
  feed_notMem : lexeme.kind.spansLines = false → Byte.lineFeed ∉ lexeme.text

namespace Division

/-- A division with other line ends. -/
def withLineEnds (e : LineEnd) (division : Division) : Division :=
  { division with lexemes := division.lexemes.map (Lexeme.withLineEnds e) }

theorem ofBytes_of_error {b : Byte} {s : Bytes} {cause : LexicalCause}
    (h : Lexeme.next b s = .error cause) : ofBytes (b :: s) = ⟨[], some cause⟩ := by
  rw [ofBytes]
  split
  · next hcause =>
    obtain rfl := Except.error.inj (h.symm.trans hcause)
    rfl
  · next hok => cases h.symm.trans hok

/-- Another line end is one lexeme, too. -/
theorem ofBytes_withLineEnds_lineFeed (s : Bytes) :
    ofBytes (Bytes.withLineEnds e (Byte.lineFeed :: s)) =
      cons ⟨.lineEnd, Bytes.withLineEnds e [Byte.lineFeed]⟩ (ofBytes (Bytes.withLineEnds e s)) := by
  have hnext : Lexeme.next Byte.carriageReturn (e.behind ++ Bytes.withLineEnds e s) =
      .ok (.lineEnd, Bytes.withLineEnds e s) := by
    rw [Lexeme.next_of_isLineEnd rfl, Lexeme.afterLineEnd_withLineEnds]
  rw [withLineEnds_lineFeed, ofBytes_append hnext]
  simp

/-- A source is divided in the same way under other line ends. -/
theorem ofBytes_withLineEnds {s : Bytes} (h : Byte.carriageReturn ∉ s) :
    ofBytes (Bytes.withLineEnds e s) = (ofBytes s).withLineEnds e := by
  fun_induction ofBytes s with
  | case1 => simp [ofBytes, withLineEnds, empty]
  | case2 b tail cause hnext =>
    obtain ⟨hb, htail⟩ := List.ne_and_not_mem_of_not_mem_cons h
    have hfeed : b ≠ Byte.lineFeed := by
      rintro rfl
      cases hnext
    have hline : b.isLineEnd = false := by simp [Byte.isLineEnd, hfeed, Ne.symm hb]
    have hnext' : Lexeme.next b (Bytes.withLineEnds e tail) = .error cause := by
      rw [Lexeme.next_withLineEnds hline htail, hnext]
      rfl
    rw [withLineEnds_cons hfeed, ofBytes_of_error hnext']
    rfl
  | case3 b tail kind rest hnext _ ih =>
    obtain ⟨t, rfl⟩ := Lexeme.suffix_of_next hnext
    obtain ⟨hb, htail⟩ := List.ne_and_not_mem_of_not_mem_cons h
    have hrest : Byte.carriageReturn ∉ rest := fun hmem => htail (List.mem_append_right t hmem)
    have hbefore : Lexeme.before (b :: (t ++ rest)) rest = b :: t :=
      Lexeme.before_append (b :: t) rest
    rw [hbefore]
    by_cases hfeed : b = Byte.lineFeed
    · -- Without carriage returns a line feed is a whole line end.
      subst hfeed
      have hafter : Lexeme.afterLineEnd Byte.lineFeed (t ++ rest) = t ++ rest :=
        if_neg fun hpair => by cases hpair.1
      obtain ⟨rfl, hafter'⟩ := Prod.mk.inj (Except.ok.inj hnext)
      obtain rfl : t = [] := by simpa using hafter.symm.trans hafter'
      rw [List.nil_append, ofBytes_withLineEnds_lineFeed, ih htail]
      rfl
    · -- The lexeme stands in front of the rest again, so it is the first one.
      have hline : b.isLineEnd = false := by simp [Byte.isLineEnd, hfeed, Ne.symm hb]
      have hnext' : Lexeme.next b (Bytes.withLineEnds e t ++ Bytes.withLineEnds e rest) =
          .ok (kind, Bytes.withLineEnds e rest) := by
        rw [← withLineEnds_append, Lexeme.next_withLineEnds hline htail, hnext]
        rfl
      rw [withLineEnds_cons hfeed, withLineEnds_append, ofBytes_append hnext', ih hrest,
        ← withLineEnds_cons hfeed]
      rfl

theorem isFed_of_mem_ofBytes {s : Bytes} (h : Byte.carriageReturn ∉ s) :
    ∀ lexeme ∈ (ofBytes s).lexemes, lexeme.IsFed := by
  fun_induction ofBytes s with
  | case1 => exact List.forall_mem_nil _
  | case2 => exact List.forall_mem_nil _
  | case3 b tail kind rest hnext _ ih =>
    obtain ⟨t, rfl⟩ := Lexeme.suffix_of_next hnext
    have hbefore : Lexeme.before (b :: (t ++ rest)) rest = b :: t :=
      Lexeme.before_append (b :: t) rest
    rw [← List.cons_append] at h
    refine List.forall_mem_cons.mpr ⟨?_, ih fun hmem => h (List.mem_append_right _ hmem)⟩
    rw [hbefore]
    exact ⟨fun hmem => h (List.mem_append_left _ hmem), fun hkind hmem =>
      absurd (Lexeme.not_isLineEnd_of_next hnext hkind _ hmem) (by decide)⟩

end Division

/-! ## The tokens of a source -/

/-- A token with other line ends; layout tokens have conventional texts, and no other token than a
literal holds a line end. -/
def Token.withLineEnds (e : LineEnd) (t : Token) : Token :=
  if t.kind.isText then { t with text := Bytes.withLineEnds e t.text } else t

namespace Token

/-- Literals in one line stay as they are. -/
theorem map_withLineEnds {ts : List Token}
    (h : ∀ t ∈ ts, t.kind.isText → Byte.lineFeed ∉ t.text) :
    ts.map (Token.withLineEnds e) = ts := by
  have hsame (t : Token) (ht : t ∈ ts) : t.withLineEnds e = t := by
    unfold withLineEnds
    split
    · next htext => rw [withLineEnds_of_notMem (h t ht htext)]
    · rfl
  rw [List.map_congr_left hsame, List.map_id']

/-- Tokens that stand for no piece of the source stay as they are. -/
theorem map_withLineEnds_of_filter {ts : List Token} (h : ts.filter isPlaced = []) :
    ts.map (Token.withLineEnds e) = ts := by
  refine map_withLineEnds fun t ht htext => absurd ?_ (List.filter_eq_nil_iff.mp h t ht)
  have hproper := TokenKind.isProper_of_isText htext
  simp only [TokenKind.isProper, Bool.and_eq_true] at hproper
  exact Bool.and_eq_true_iff.mpr ⟨hproper.1.1, hproper.2⟩

end Token

namespace Layout

theorem advance_withLineEnds {s : Bytes} (h : Byte.carriageReturn ∉ s) (layout : Layout) :
    layout.advance (Bytes.withLineEnds e s) = layout.advance s := by
  unfold advance
  rw [Position.advance_withLineEnds h]

theorem token_withLineEnds {layout : Layout} {kind : TokenKind} {s : Bytes}
    (h : Lexeme.IsFed ⟨.token kind, s⟩) :
    layout.token kind (Bytes.withLineEnds e s) = (layout.token kind s).withLineEnds e := by
  unfold token Token.withLineEnds
  rw [Position.advance_withLineEnds h.return_notMem]
  split
  · next htext =>
    have hname : kind ≠ .identifier := by
      rintro rfl
      cases htext
    simp [tokenText, hname]
  · next htext =>
    rw [withLineEnds_of_notMem (h.feed_notMem (Bool.eq_false_iff.mpr htext))]

theorem step_withLineEnds {keepComments : Bool} {layout : Layout} {lexeme : Lexeme}
    (h : lexeme.IsFed) :
    layout.step keepComments (lexeme.withLineEnds e) =
      (layout.step keepComments lexeme).map (Prod.map (List.map (Token.withLineEnds e)) id) := by
  have hadvance := advance_withLineEnds (e := e) h.return_notMem
  obtain ⟨kind, s⟩ := lexeme
  -- The tokens in front of a line are none of the literals.
  have hopened {opened : List Token} {layout' : Layout}
      (hopen : layout.openLine = .ok (opened, layout')) :
      opened.map (Token.withLineEnds e) = opened :=
    Token.map_withLineEnds_of_filter (opens_of_openLine hopen).isPlaced_eq_false
  have hflat (hkind : kind.spansLines = false) : Lexeme.withLineEnds e ⟨kind, s⟩ = ⟨kind, s⟩ :=
    congrArg (Lexeme.mk kind) (withLineEnds_of_notMem (h.feed_notMem hkind))
  cases kind with
  | blank =>
    rw [hflat rfl]
    rfl
  | comment =>
    rw [hflat rfl]
    cases keepComments <;> rfl
  | lineEnd =>
    simp only [step, Lexeme.withLineEnds, hadvance]
    split
    · cases layout.lineOpen <;> rfl
    · rfl
  | join =>
    simp only [step, Lexeme.withLineEnds, hadvance]
    cases hopen : layout.openLine with
    | error => rfl
    | ok result =>
      obtain ⟨opened, layout'⟩ := result
      simp only [bind, Except.bind, Except.map, Prod.map, hopened hopen, id]
  | token kind =>
    simp only [step, Lexeme.withLineEnds, hadvance, token_withLineEnds h]
    cases hopen : layout.openLine with
    | error => rfl
    | ok result =>
      obtain ⟨opened, layout'⟩ := result
      simp only [bind, Except.bind, Except.map, Prod.map, List.map_append, hopened hopen, id]
      rfl

theorem tokens_withLineEnds {keepComments : Bool} {failure : Option LexicalCause} {layout : Layout}
    {lexemes : List Lexeme} (h : ∀ lexeme ∈ lexemes, lexeme.IsFed) :
    layout.tokens keepComments failure (lexemes.map (Lexeme.withLineEnds e)) =
      (layout.tokens keepComments failure lexemes).map (List.map (Token.withLineEnds e)) := by
  induction lexemes generalizing layout with
  | nil =>
    cases failure with
    | some cause => rfl
    | none =>
      have hfinish := Token.map_withLineEnds_of_filter (e := e) (finish_isPlaced_eq_false layout)
      simp only [List.map_nil, tokens, Except.map, hfinish]
  | cons lexeme rest ih =>
    obtain ⟨hlexeme, hrest⟩ := List.forall_mem_cons.mp h
    rw [List.map_cons, tokens, tokens, step_withLineEnds hlexeme]
    cases hstep : layout.step keepComments lexeme with
    | error => rfl
    | ok result =>
      obtain ⟨emitted, layout'⟩ := result
      simp only [bind, Except.bind, Except.map, Prod.map, id, ih hrest]
      cases layout'.tokens keepComments failure rest with
      | error => rfl
      | ok more => simp

end Layout

theorem dropMark_withLineEnds (source : Bytes) :
    dropMark (withLineEnds e source) = withLineEnds e (dropMark source) := by
  have hmark : ∀ b ∈ ([0xEF, 0xBB, 0xBF] : Bytes), b.isLineEnd = false :=
    List.forall_iff_forall_mem.mp (by decide)
  unfold dropMark
  rw [dropPrefix?_withLineEnds hmark]
  cases dropPrefix? [0xEF, 0xBB, 0xBF] source <;> rfl

/-- Under other line ends a source has the same tokens at the same places, but for the line ends
that literals hold, and the same error if it has none. -/
theorem tokenize_withLineEnds {source : Bytes} (h : Byte.carriageReturn ∉ source)
    (keepComments : Bool) :
    tokenize keepComments (withLineEnds e source) =
      (tokenize keepComments source).map (List.map (Token.withLineEnds e)) := by
  obtain ⟨mark, hmark⟩ := exists_append_dropMark source
  have hdrop : Byte.carriageReturn ∉ dropMark source := fun hmem =>
    h (hmark.1 ▸ List.mem_append_right mark hmem)
  unfold tokenize
  simp only [dropMark_withLineEnds, Division.ofBytes_withLineEnds hdrop]
  exact Layout.tokens_withLineEnds (Division.isFed_of_mem_ofBytes hdrop)

/-! ## What a source forms -/

/-- What is read from a source is the same under other line ends if each literal is in one line. -/
theorem Parse.ofSource_withLineEnds {α : Type} {reading : Parse α} {source : Bytes}
    (h : Byte.carriageReturn ∉ source)
    (htexts : ∀ tokens, tokenize false source = .ok tokens →
      ∀ t ∈ tokens, t.kind.isText → Byte.lineFeed ∉ t.text) :
    reading.ofSource (withLineEnds e source) = reading.ofSource source := by
  unfold ofSource
  rw [tokenize_withLineEnds h]
  cases htokens : tokenize false source with
  | error => rfl
  | ok tokens =>
    have hsame := Token.map_withLineEnds (e := e) (htexts tokens htokens)
    simp only [Except.map, hsame]
    unfold ofTokens
    rw [lines_withLineEnds h]

/-- A source whose literals are each in one line forms the same module under other line ends, or
fails with the same error. -/
theorem Module.ofSource_withLineEnds [Unicode.CharacterNames] {mode : Mode} {source : Bytes}
    (h : Byte.carriageReturn ∉ source)
    (htexts : ∀ tokens, tokenize false source = .ok tokens →
      ∀ t ∈ tokens, t.kind.isText → Byte.lineFeed ∉ t.text) :
    ofSource mode (withLineEnds e source) = ofSource mode source :=
  Parse.ofSource_withLineEnds h htexts

open scoped Unicode.NameTable in
/-- A field that shows its own source shows the line ends in it as they stand. -/
example :
    let source := text "f'\x7b\nx=\x7d'\n"
    (Module.ofSource .exec (withLineEnds .pair source)).map Module.dump ≠
      (Module.ofSource .exec source).map Module.dump := by decide +kernel

end SyntaxTree
