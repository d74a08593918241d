import SyntaxTree.Proofs.Text.Splitting
import SyntaxTree.Proofs.Grammar.Column

/-
# Tokens at their bytes

A token has a line and a column, and it starts at some byte of the source.  The offsets of these
bytes are counted along the lexemes, and the line of a token is the one that its byte belongs to
when the source is split into lines.
-/

namespace SyntaxTree

open Bytes

/-! ## Offsets of tokens -/

/-- The offset where a token starts that is found at an offset; an indentation starts in front of
its blanks. -/
def Token.offset (found : Nat) (t : Token) : Nat :=
  if t.kind = .indent then found - t.text.length else found

namespace Layout

/-- The tokens of the rest of a source with their offsets, as far as there are any. -/
def located (keepComments : Bool) (failure : Option LexicalCause) :
    Nat → Layout → List Lexeme → List (Nat × Token)
  | offset, layout, [] =>
    match failure with
    | none => layout.finish.map fun t => (t.offset offset, t)
    | some _ => []
  | offset, layout, lexeme :: rest =>
    match layout.step keepComments lexeme with
    | .error _ => []
    | .ok (emitted, layout) =>
      emitted.map (fun t => (t.offset offset, t)) ++
        located keepComments failure (offset + lexeme.text.length) layout rest

/-- The tokens with their offsets are the tokens. -/
theorem map_snd_located {keepComments : Bool} {failure : Option LexicalCause} {layout : Layout}
    {lexemes : List Lexeme} {tokens : List Token}
    (h : layout.tokens keepComments failure lexemes = .ok tokens) (offset : Nat) :
    (layout.located keepComments failure offset lexemes).map Prod.snd = tokens := by
  induction lexemes generalizing layout offset tokens with
  | nil =>
    cases failure with
    | none =>
      obtain rfl : layout.finish = tokens := Except.ok.inj h
      rw [located, List.map_map]
      exact List.map_id _
    | some cause => cases h
  | cons lexeme rest ih =>
    obtain ⟨⟨emitted, layout'⟩, hstep, h⟩ := exists_of_bind_eq_ok h
    obtain ⟨more, hmore, h⟩ := exists_of_bind_eq_ok h
    obtain rfl : emitted ++ more = tokens := Except.ok.inj h
    rw [located, hstep, List.map_append, ih hmore, List.map_map]
    exact congrArg (· ++ more) (List.map_id emitted)

end Layout

/-- The tokens of a source with their offsets; if the source cannot be read to its end, the ones in
front of the place where the reading stops. -/
def locatedTokens (keepComments : Bool) (source : Bytes) : List (Nat × Token) :=
  let division := Division.ofBytes (dropMark source)
  Layout.start.located keepComments division.failure (source.length - (dropMark source).length)
    division.lexemes

/-! ## Margins -/

/-- Where a lexeme of a kind stands in its line: blanks are within it, a comment goes on to its end,
and what is joined to the next line or is a token does not begin with a line end. -/
def LexemeKind.StandsInLine (kind : LexemeKind) (s rest : Bytes) : Prop :=
  match kind with
  | .blank => ∀ b ∈ s, b.isBlank
  | .comment => ∀ b ∈ rest.head?, b.isLineEnd
  | .lineEnd => True
  | .join | .token _ => ∀ b ∈ s.head?, b.isLineEnd = false

theorem Lexeme.standsInLine_of_next {b : Byte} {t rest : Bytes} {kind : LexemeKind}
    (h : next b (t ++ rest) = .ok (kind, rest)) : kind.StandsInLine (b :: t) rest := by
  unfold next at h
  split at h
  · next hblank =>
    obtain ⟨rfl, hrest⟩ := Prod.mk.inj (Except.ok.inj h)
    exact List.forall_mem_cons.mpr ⟨hblank, (forall_mem_of_dropWhile hrest).1⟩
  split at h
  · obtain ⟨rfl, -⟩ := Prod.mk.inj (Except.ok.inj h)
    trivial
  next hend =>
  have hfirst : ∀ c ∈ (b :: t).head?, c.isLineEnd = false :=
    fun c hc => Option.some.inj hc ▸ Bool.eq_false_iff.mpr hend
  split at h
  · obtain ⟨rfl, hrest⟩ := Prod.mk.inj (Except.ok.inj h)
    intro c hc
    simpa using (forall_mem_of_dropWhile hrest).2 c hc
  split at h
  · obtain ⟨_, -, hrest⟩ := exists_of_map_eq_ok h
    obtain ⟨rfl, -⟩ := Prod.mk.inj hrest
    exact hfirst
  · obtain ⟨_, -, hrest⟩ := exists_of_map_eq_ok h
    obtain ⟨rfl, -⟩ := Prod.mk.inj hrest
    exact hfirst

theorem Byte.not_isLineEnd_of_isBlank {b : Byte} (h : b.isBlank) : b.isLineEnd = false := by
  refine Bool.eq_false_iff.mpr fun hend => ?_
  rcases Byte.isLineEnd_iff.mp hend with rfl | rfl <;> cases h

namespace Layout

variable {keepComments : Bool} {front rest t : Bytes} {b : Byte} {kind : LexemeKind}
  {layout layout' : Layout} {emitted : List Token}

/-- A layout at the place between two parts of a text.  The margin of a line that has not begun is
what stands right in front, unless the line ends before it begins. -/
structure IsAt (layout : Layout) (front rest : Bytes) : Prop where
  parts : PartsNoLineEnd front rest
  place : layout.place = Position.origin.advance front
  margin : ∀ blanks ∈ layout.margin, layout.depth = 0 ∧
    ((∀ c ∈ rest.head?, c.isLineEnd) ∨ blanks <:+ front ∧ ∀ c ∈ blanks, c.isBlank)

theorem isAt_start (s : Bytes) : start.IsAt [] s where
  parts hlast := by cases hlast
  place := rfl
  margin blanks hblanks := by
    obtain rfl : [] = blanks := Option.some.inj hblanks
    exact ⟨rfl, .inr ⟨List.nil_suffix, List.forall_mem_nil _⟩⟩

/-- A lexeme leads from one place of a text to the next. -/
theorem Adds.isAt (h : Adds keepComments layout ⟨kind, b :: t⟩ emitted layout')
    (hnext : Lexeme.next b (t ++ rest) = .ok (kind, rest))
    (hat : layout.IsAt front (b :: t ++ rest)) : layout'.IsAt (front ++ b :: t) rest where
  parts := hat.parts.append (Lexeme.partsNoLineEnd_of_next hnext)
  place := by rw [h.place_eq, hat.place, Position.advance_append hat.parts.left]
  margin := by
    have hline := Lexeme.standsInLine_of_next hnext
    intro blanks hblanks
    cases h with
    | blank =>
      obtain ⟨old, hold, rfl⟩ := Option.map_eq_some_iff.mp hblanks
      exact ⟨(hat.margin old hold).1, .inr ⟨List.suffix_append _ _, hline⟩⟩
    | comment => exact ⟨(hat.margin blanks hblanks).1, .inl hline⟩
    | lineEnd _ hdepth =>
      obtain rfl : [] = blanks := Option.some.inj hblanks
      exact ⟨hdepth, .inr ⟨List.nil_suffix, List.forall_mem_nil _⟩⟩
    | innerEnd _ hdepth => exact absurd (hat.margin blanks hblanks).1 hdepth
    | join _ hopens => exact nomatch hopens.margin_eq_none.symm.trans hblanks
    | token _ _ hopens => exact nomatch hopens.margin_eq_none.symm.trans hblanks

/-! ## The lines of tokens -/

variable {mark : Bytes}

/-- The place of a layout is in the line of the byte that follows. -/
theorem IsAt.isWithin (hat : layout.IsAt front rest) (hmark : ∀ c ∈ mark, c.isLineEnd = false) :
    IsWithin (mark ++ (front ++ rest)) layout.place.line (mark.length + front.length) :=
  hat.place ▸ isWithin_advance hmark hat.parts

/-- A token in line with the byte at its offset. -/
def StartsInLine (source : Bytes) (found : Nat) (u : Token) : Prop :=
  IsWithin source u.start.line (u.offset found)

theorem inLine_of_place {source : Bytes} {found : Nat} {u : Token} (hkind : u.kind ≠ .indent)
    (h : IsWithin source u.start.line found) : StartsInLine source found u := by
  rwa [StartsInLine, Token.offset, if_neg hkind]

/-- What is added in front of the first token of a line starts in that line. -/
theorem Opens.inLine (h : layout.Opens emitted layout') (hat : layout.IsAt front rest)
    (hrest : ∃ c ∈ rest.head?, c.isLineEnd = false) (hmark : ∀ c ∈ mark, c.isLineEnd = false) :
    ∀ u ∈ emitted, StartsInLine (mark ++ (front ++ rest)) (mark.length + front.length) u := by
  cases h with
  | begun => exact List.forall_mem_nil _
  | @deeper blanks hmargin =>
    refine List.forall_mem_singleton.mpr ?_
    obtain ⟨c, hc, hline⟩ := hrest
    obtain ⟨-, hend | ⟨⟨above, rfl⟩, hblanks⟩⟩ := hat.margin blanks hmargin
    · exact nomatch hline.symm.trans (hend c hc)
    · -- The walk over the blanks stays in the line, so the line is that of the place in front.
      have hends : ∀ c ∈ blanks, c.isLineEnd = false :=
        fun c hc => Byte.not_isLineEnd_of_isBlank (hblanks c hc)
      have hparts : PartsNoLineEnd above (blanks ++ rest) := by
        cases blanks with
        | nil => simpa using hat.parts
        | cons first blanks =>
          rintro - hfeed
          have hfirst := hends first List.mem_cons_self
          rw [Option.some.inj hfeed] at hfirst
          cases hfirst
      have hplace : layout.place.line = (Position.origin.advance above).line := by
        rw [hat.place, Position.advance_append hparts.left, Position.line_advance hends]
      show IsWithin _ layout.place.line (mark.length + (above ++ blanks).length - blanks.length)
      rw [hplace, List.append_assoc, List.length_append, ← Nat.add_assoc, Nat.add_sub_cancel]
      exact isWithin_advance hmark hparts
  | shallower closed =>
    intro u hu
    obtain ⟨_, -, rfl⟩ := List.mem_map.mp hu
    exact inLine_of_place nofun (hat.isWithin hmark)

/-- The tokens that a lexeme adds are in line with their bytes. -/
theorem Adds.inLine (h : Adds keepComments layout ⟨kind, b :: t⟩ emitted layout')
    (hnext : Lexeme.next b (t ++ rest) = .ok (kind, rest))
    (hat : layout.IsAt front (b :: t ++ rest)) (hmark : ∀ c ∈ mark, c.isLineEnd = false) :
    ∀ u ∈ emitted,
      StartsInLine (mark ++ (front ++ (b :: t ++ rest))) (mark.length + front.length) u := by
  have hline := Lexeme.standsInLine_of_next hnext
  have hplace := hat.isWithin hmark
  cases h with
  | blank | innerEnd => exact List.forall_mem_nil _
  | comment =>
    intro u hu
    obtain ⟨-, rfl⟩ : keepComments ∧ u = _ := by simpa using hu
    exact inLine_of_place nofun hplace
  | lineEnd =>
    intro u hu
    obtain ⟨-, rfl⟩ : layout.lineOpen ∧ u = _ := by simpa using hu
    exact inLine_of_place nofun hplace
  | join _ hopens => exact hopens.inLine hat ⟨b, rfl, hline b rfl⟩ hmark
  | token _ hkind hopens =>
    refine List.forall_mem_append.mpr ⟨hopens.inLine hat ⟨b, rfl, hline b rfl⟩ hmark, ?_⟩
    refine List.forall_mem_singleton.mpr (inLine_of_place ?_ ?_)
    · rintro rfl
      exact nomatch hkind
    · show IsWithin _ (Layout.place _).line _
      rwa [hopens.place_eq]

/-- The tokens of the rest of a source are in line with their bytes. -/
theorem IsAt.inLine_of_mem_located {s : Bytes} (hat : layout.IsAt front s)
    (hmark : ∀ c ∈ mark, c.isLineEnd = false) (keepComments : Bool) :
    ∀ p ∈ layout.located keepComments (Division.ofBytes s).failure (mark.length + front.length)
      (Division.ofBytes s).lexemes, IsWithin (mark ++ (front ++ s)) p.2.start.line p.1 := by
  fun_induction Division.ofBytes s generalizing layout front with
  | case1 =>
    intro p hp
    obtain ⟨u, hu, rfl⟩ := List.mem_map.mp hp
    refine inLine_of_place (ne_indent_of_mem_finish hu) ?_
    rw [(layout.forall_mem_finish u hu).1]
    exact hat.isWithin hmark
  | case2 => exact List.forall_mem_nil _
  | case3 b tail kind rest hnext _ ih =>
    obtain ⟨t, rfl⟩ := Lexeme.suffix_of_next hnext
    have hbefore : Lexeme.before (b :: (t ++ rest)) rest = b :: t :=
      Lexeme.before_append (b :: t) rest
    rw [hbefore]
    show ∀ p ∈ layout.located keepComments _ _ (⟨kind, b :: t⟩ :: _), _
    rw [located]
    cases hstep : layout.step keepComments ⟨kind, b :: t⟩ with
    | error e => exact List.forall_mem_nil _
    | ok result =>
      obtain ⟨emitted, layout'⟩ := result
      have hadds : Adds keepComments layout ⟨kind, b :: t⟩ emitted layout' :=
        adds_of_step (fun kind' (hkind : kind = .token kind') =>
          Lexeme.isProper_of_next (hkind ▸ hnext)) hstep
      refine List.forall_mem_append.mpr ⟨?_, ?_⟩
      · intro p hp
        obtain ⟨u, hu, rfl⟩ := List.mem_map.mp hp
        exact hadds.inLine hnext hat hmark u hu
      · have hmore := ih (hadds.isAt hnext hat)
        rwa [List.length_append, ← Nat.add_assoc, List.append_assoc] at hmore

end Layout

/-- Splitting a source, looking for one of its lines and counting the lines on the way see the same
lines: a line is found where there is one at its number, and it is that one; and the byte where a
token starts belongs to the line of the token, its end included, or the source ends there with that
line. -/
theorem lines_agree (source : Bytes) :
    (∀ n : Int, 1 ≤ n → lineAt (lines source) n = (lineBehind? (n - 1).toNat source).getD []) ∧
    (endedLines source).flatten = source ∧ (endedLines source).map firstLine = lines source ∧
    ∀ keepComments,
      (∀ tokens, tokenize keepComments source = .ok tokens →
        (locatedTokens keepComments source).map Prod.snd = tokens) ∧
      ∀ p ∈ locatedTokens keepComments source, IsWithin source p.2.start.line p.1 := by
  refine ⟨fun n hn => lineAt_lines hn source, flatten_endedLines source,
    map_firstLine_endedLines source, fun keepComments => ⟨fun tokens h => ?_, ?_⟩⟩
  · exact Layout.map_snd_located h _
  · obtain ⟨mark, hsource, hmark⟩ := exists_append_dropMark source
    have hlength : source.length - (dropMark source).length = mark.length := by
      conv_lhs => rw [hsource]
      rw [List.length_append, ← hsource, Nat.add_sub_cancel]
    have hwithin := (Layout.isAt_start (dropMark source)).inLine_of_mem_located
      (not_isLineEnd_of_mark hmark) keepComments
    rw [List.nil_append, ← hsource] at hwithin
    rw [locatedTokens, hlength]
    exact hwithin

/-- A block behind a pair of carriage return and line feed begins in the second line, at its
blank. -/
theorem lines_agree_block :
    let source := text "if x:\r\n\ty"
    let indent : Token := ⟨.indent, text "\t", ⟨2, 1⟩, ⟨2, 2⟩⟩
    1 ≤ (2 : Int) ∧ lineAt (lines source) 2 = (lineBehind? 1 source).getD [] ∧
      (∃ tokens, tokenize false source = .ok tokens ∧
        (locatedTokens false source).map Prod.snd = tokens) ∧
      (7, indent) ∈ locatedTokens false source ∧ IsWithin source 2 7 := by
  intro source indent
  obtain ⟨hlines, -, -, htokens⟩ := lines_agree source
  have hindent : (7, indent) ∈ locatedTokens false source := by decide +kernel
  obtain ⟨tokens, hok, -⟩ := exists_of_map_eq_ok (f := List.length)
    (show (tokenize false source).map List.length = .ok 9 by decide +kernel)
  exact ⟨by decide, hlines 2 (by decide), ⟨tokens, hok, (htokens false).1 tokens hok⟩, hindent,
    (htokens false).2 (7, indent) hindent⟩

end SyntaxTree
