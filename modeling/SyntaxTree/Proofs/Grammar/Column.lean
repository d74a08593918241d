import SyntaxTree.Proofs.Build.Reading
import SyntaxTree.Proofs.Text.Column
import SyntaxTree.Proofs.Token.Source

/-
# Places of messages

The places of tokens lead back to the bytes of the source where the tokens stand, and so does the
place of a message about a token.  So a mark that a message suggests is put in where it is missing.
In the first line behind a byte order mark, which the columns leave out, all of this is one
character off.
-/

namespace SyntaxTree

open Bytes

/-! ## Lexemes begin with whole characters -/

namespace Lexeme

/-- A lexeme does not begin within a character. -/
theorem not_isContinuation_of_next {b : Byte} {s rest : Bytes} {kind : LexemeKind}
    (h : next b s = .ok (kind, rest)) : b.isContinuation = false := by
  refine Bool.eq_false_iff.mpr fun hb => ?_
  have hbeyond := Byte.isNonAscii_of_isContinuation hb
  have hne (c : Byte) (hc : c.isNonAscii = false) : b ≠ c := by
    rintro rfl
    exact Bool.noConfusion (hbeyond.symm.trans hc)
  have hname : afterToken b s = afterName b s := by
    have hdigit : b.isDigit = false := by
      rw [Byte.isNonAscii, decide_eq_true_iff] at hbeyond
      simp only [Byte.isDigit, Bool.and_eq_false_iff, decide_eq_false_iff_not]
      exact .inr fun hle => absurd (UInt8.le_trans hbeyond hle) (by decide)
    rw [afterToken, hdigit, beq_false_of_ne (hne _ rfl), if_neg (by simp), hbeyond,
      if_pos (by simp)]
  have hnone : Utf8.decode? (b :: s) = none := by
    cases hdecode : Utf8.decode? (b :: s) with
    | none => rfl
    | some decoded => exact absurd hb (by simp [Utf8.not_isContinuation_of_decode? hdecode])
  have hblank : ¬ b.isBlank := by
    simp [Byte.isBlank, hne _ (show Byte.space.isNonAscii = false from rfl),
      hne _ (show Byte.tab.isNonAscii = false from rfl),
      hne _ (show Byte.formFeed.isNonAscii = false from rfl)]
  have hend : ¬ b.isLineEnd := by
    rw [Byte.isLineEnd_iff]
    exact not_or.mpr ⟨hne _ rfl, hne _ rfl⟩
  rw [next, if_neg hblank, if_neg hend, if_neg (hne _ rfl), if_neg (hne _ rfl), hname, afterName,
    if_pos hbeyond, hnone] at h
  cases h

end Lexeme

/-- What is read from one layout to another begins with a whole character. -/
theorem Layout.Run.isWhole {keepComments : Bool} {s : Bytes} {layout final : Layout}
    {tokens : List Token} (h : Run keepComments s layout tokens final) : IsWhole s := by
  cases h with
  | nil => exact isWhole_nil
  | cons hnext => exact fun c hc => Option.some.inj hc ▸ Lexeme.not_isContinuation_of_next hnext

/-! ## Places of tokens -/

theorem not_isLineEnd_of_mark {mark : Bytes} (h : mark = [] ∨ mark = byteOrderMark) :
    ∀ b ∈ mark, b.isLineEnd = false := by
  rcases h with rfl | rfl
  · exact List.forall_mem_nil _
  · simp only [byteOrderMark, List.forall_mem_cons]
    exact ⟨rfl, rfl, rfl, List.forall_mem_nil _⟩

/-- A place that the walk over a text reaches, in front of a whole character. -/
def Position.IsPlaceOf (p : Position) (s : Bytes) : Prop :=
  ∃ front rest, s = front ++ rest ∧ p.IsBetween front rest

/-- A token that starts at a place of a text, and stops at one unless it belongs to the layout. -/
structure Token.StandsIn (t : Token) (s : Bytes) : Prop where
  start : t.start.IsPlaceOf s
  stop : t.kind.isLayout = false → t.stop.IsPlaceOf s

namespace Layout

variable {front rest : Bytes} {layout layout' : Layout} {emitted : List Token}

theorem Opens.standsIn (h : layout.Opens emitted layout')
    (hplace : layout.place.IsBetween front rest)
    (hwhole : ∀ line ∈ Bytes.lines (front ++ rest), IsWhole line) :
    ∀ t ∈ emitted, t.StandsIn (front ++ rest) := by
  cases h with
  | begun => exact List.forall_mem_nil _
  | deeper =>
    refine List.forall_mem_singleton.mpr ⟨hplace.exists_lineStart hwhole, fun hnot => ?_⟩
    cases hnot
  | shallower closed =>
    intro t ht
    obtain ⟨_, -, rfl⟩ := List.mem_map.mp ht
    refine ⟨⟨front, rest, rfl, hplace⟩, fun hnot => ?_⟩
    cases hnot

theorem Adds.standsIn {keepComments : Bool} {kind : LexemeKind} {s : Bytes}
    (h : Adds keepComments layout ⟨kind, s⟩ emitted layout')
    (hplace : layout.place.IsBetween front (s ++ rest))
    (hbehind : layout'.place.IsBetween (front ++ s) rest)
    (hwhole : ∀ line ∈ Bytes.lines (front ++ (s ++ rest)), IsWhole line) :
    ∀ t ∈ emitted, t.StandsIn (front ++ (s ++ rest)) := by
  have hstart : layout.place.IsPlaceOf (front ++ (s ++ rest)) := ⟨front, s ++ rest, rfl, hplace⟩
  have hstop : layout'.place.IsPlaceOf (front ++ (s ++ rest)) :=
    ⟨front ++ s, rest, (List.append_assoc ..).symm, hbehind⟩
  cases h with
  | blank | innerEnd => exact List.forall_mem_nil _
  | comment =>
    intro t ht
    obtain ⟨-, rfl⟩ : keepComments ∧ t = _ := by simpa using ht
    exact ⟨hstart, fun _ => hstop⟩
  | lineEnd =>
    intro t ht
    obtain ⟨-, rfl⟩ : layout.lineOpen ∧ t = _ := by simpa using ht
    refine ⟨hstart, fun hnot => ?_⟩
    cases hnot
  | join _ hopens => exact hopens.standsIn hplace hwhole
  | token _ hkind hopens =>
    refine List.forall_mem_append.mpr ⟨hopens.standsIn hplace hwhole, ?_⟩
    refine List.forall_mem_singleton.mpr ⟨?_, fun _ => hstop⟩
    show Position.IsPlaceOf (Layout.place _) _
    rwa [hopens.place_eq]

/-- The tokens of a run are at places of the whole text. -/
theorem Run.standsIn {keepComments : Bool} {s : Bytes} {final : Layout} {tokens : List Token}
    (h : Run keepComments s layout tokens final) (hplace : layout.place.IsBetween front s)
    (hwhole : ∀ line ∈ Bytes.lines (front ++ s), IsWhole line) :
    (∀ t ∈ tokens, t.StandsIn (front ++ s)) ∧ final.place.IsPlaceOf (front ++ s) := by
  induction h generalizing front with
  | nil => exact ⟨List.forall_mem_nil _, front, [], rfl, hplace⟩
  | @cons b t rest kind layout layout' final emitted more hnext hadds hrun ih =>
    have hbehind : layout'.place.IsBetween (front ++ b :: t) rest := by
      refine ⟨?_, hrun.isWhole, ?_⟩
      · exact hplace.parts.append (Lexeme.partsNoLineEnd_of_next hnext)
      · rw [hadds.place_eq, hplace.eq, Position.advance_append hplace.parts.left]
    have hsame : front ++ (b :: t ++ rest) = front ++ b :: t ++ rest := (List.append_assoc ..).symm
    obtain ⟨hmore, hfinal⟩ := ih hbehind (hsame ▸ hwhole)
    rw [← hsame] at hmore hfinal
    exact ⟨List.forall_mem_append.mpr ⟨hadds.standsIn hplace hbehind hwhole, hmore⟩, hfinal⟩

end Layout

/-- The lines behind a mark begin with whole characters. -/
theorem isWhole_lines_of_append {mark s : Bytes} (hmark : ∀ b ∈ mark, b.isLineEnd = false)
    (hs : IsWhole s) (h : ∀ line ∈ Bytes.lines (mark ++ s), IsWhole line) :
    ∀ line ∈ lines s, IsWhole line := by
  obtain ⟨rest, hrest⟩ := exists_lines_eq s
  rw [lines_append hmark, hrest] at h
  rw [hrest]
  exact List.forall_mem_cons.mpr ⟨hs.firstLine, (List.forall_mem_cons.mp h).2⟩

/-- The tokens of a well-formed source are at places of the text behind its mark. -/
theorem standsIn_of_tokenize {keepComments : Bool} {source : Bytes} {codes : List Nat}
    {tokens : List Token} (h : tokenize keepComments source = .ok tokens)
    (hcodes : Utf8.decodeAll? source = some codes) :
    ∀ t ∈ tokens, t.StandsIn (dropMark source) := by
  obtain ⟨body, final, rfl, hrun⟩ := exists_run_of_tokenize h
  obtain ⟨mark, hsource, hmark⟩ := exists_append_dropMark source
  have hwhole := Utf8.isWhole_of_decodeAll? hcodes
  rw [hsource] at hwhole
  have hstart : Layout.start.place.IsBetween [] (dropMark source) := by
    refine ⟨?_, hrun.isWhole, rfl⟩
    intro hlast
    cases hlast
  obtain ⟨hbody, hfinal⟩ := hrun.standsIn hstart
    (isWhole_lines_of_append (not_isLineEnd_of_mark hmark) hrun.isWhole hwhole)
  refine List.forall_mem_append.mpr ⟨hbody, fun t ht => ?_⟩
  obtain ⟨hstart, hstop⟩ := final.forall_mem_finish t ht
  exact ⟨hstart ▸ hfinal, fun _ => hstop ▸ hfinal⟩

/-- The column of a token leads back to its first byte: in a well-formed source, the line of a token
is what stands in front of it there and what begins with it, and as many characters as the columns
in front of the token, and those of a mark in the first line, take up what stands in front. -/
theorem offsetOfColumn_of_tokenize {keepComments : Bool} {source : Bytes} {codes : List Nat}
    {tokens : List Token} (htokens : tokenize keepComments source = .ok tokens)
    (hcodes : Utf8.decodeAll? source = some codes) {t : Token} (ht : t ∈ tokens)
    (hproper : t.kind.isProper) :
    ∃ mark front spelling rest, source = mark ++ (front ++ (spelling ++ rest)) ∧
      (mark = [] ∨ mark = byteOrderMark) ∧ t.text = Layout.tokenText t.kind spelling ∧
      lineAt (lines source) t.start.line = lastLine mark front ++ firstLine (spelling ++ rest) ∧
      offsetOfColumn
        ((t.start.column - 1).toNat + (if t.start.line = 1 then characters mark else 0))
        (lineAt (lines source) t.start.line) = (lastLine mark front).length := by
  obtain ⟨mark, hsource, hmark⟩ := exists_append_dropMark source
  obtain ⟨front, b, u, rest, hbody, hparts, hstart, htext, hnext⟩ :=
    (isLexemeOf_of_tokenize htokens t ht hproper).exists_lexeme
  have hplace : t.start.IsBetween front (b :: u ++ rest) :=
    ⟨hparts, fun c hc => Option.some.inj hc ▸ Lexeme.not_isContinuation_of_next hnext, hstart⟩
  have hwhole := Utf8.isWhole_of_decodeAll? hcodes
  rw [hbody] at hsource
  rw [hsource] at hwhole ⊢
  exact ⟨mark, front, b :: u, rest, rfl, hmark, htext,
    hplace.lineAt_eq (not_isLineEnd_of_mark hmark),
    hplace.offset_eq (not_isLineEnd_of_mark hmark) hwhole⟩

/-! ## Messages -/

/-- A message about a token points to where the token starts, or to where one in front stops. -/
theorem Cursor.isPlaceOf_anchor {c : Cursor} {t : Token} {s : Bytes} (ht : t.StandsIn s)
    (hc : ∀ u ∈ c.before, u.StandsIn s) : (c.anchor t).IsPlaceOf s := by
  unfold anchor
  split
  · split
    · exact ht.start
    · next hlast =>
      obtain ⟨hbefore, hlayout⟩ := not_or.mp hlast
      exact (hc _ (last_mem_before hbefore)).stop (Bool.eq_false_iff.mpr hlayout)
  · exact ht.start

/-- A suggestion is the line of an error with the one mark that was expected put in. -/
theorem ErrorContext.exists_of_suggestion {ls : List Bytes} {place : Position}
    {expected : List Bytes} {s : Bytes} (h : (of ls place expected).suggestion = some s) :
    ∃ spelling, expected = [spelling] ∧
      s = insertAtColumn (lineAt ls place.line) spelling place.column := by
  unfold of at h
  dsimp only at h
  split at h
  · split at h
    · exact ⟨_, rfl, (Option.some.inj h).symm⟩
    · cases h
  · cases h

/-- A mark that is suggested is put in where it is missing: at the byte of the place that the
message points to, unless this is in the first line behind a byte order mark. -/
theorem suggestion_of_failAtToken {α : Type} {keepComments : Bool} {source : Bytes}
    {codes : List Nat} {tokens : List Token} (htokens : tokenize keepComments source = .ok tokens)
    (hcodes : Utf8.decodeAll? source = some codes) {c c' : Cursor} {t : Token}
    (hlines : c.lines = lines source) (ht : t ∈ tokens) (hc : ∀ u ∈ c.before, u ∈ tokens)
    {cause : SyntaxCause} {e : SyntaxError}
    (hfail : Parse.failAtToken (α := α) cause t c = .error e c') {s : Bytes}
    (hs : e.suggestion = some s) :
    ∃ mark front rest spelling, source = mark ++ (front ++ rest) ∧
      (mark = [] ∨ mark = byteOrderMark) ∧ e.place.IsBetween front rest ∧
      cause.expected = [spelling] ∧
      ((e.place.line = 1 → mark = []) → s = lastLine mark front ++ spelling ++ firstLine rest) := by
  obtain ⟨mark, hsource, hmark⟩ := exists_append_dropMark source
  have hwithin := standsIn_of_tokenize htokens hcodes
  obtain ⟨front, rest, hbody, hplace⟩ :=
    Cursor.isPlaceOf_anchor (hwithin t ht) fun u hu => hwithin u (hc u hu)
  have hwhole := Utf8.isWhole_of_decodeAll? hcodes
  obtain rfl : c.errorAt cause (c.anchor t) t.shown = e := by cases hfail; rfl
  obtain ⟨context, hcontext, hs⟩ := Option.bind_eq_some_iff.mp hs
  have hof : ErrorContext.of c.lines (c.anchor t) cause.expected = context := by
    simp only [Cursor.errorAt] at hcontext
    split at hcontext
    · exact Option.some.inj hcontext
    · cases hcontext
  obtain ⟨spelling, hexpected, rfl⟩ := ErrorContext.exists_of_suggestion (hof ▸ hs)
  rw [hbody] at hsource
  refine ⟨mark, front, rest, spelling, hsource, hmark, hplace, hexpected, fun hfirst => ?_⟩
  rw [hlines, hsource]
  exact hplace.insertAtColumn_eq (not_isLineEnd_of_mark hmark) (hsource ▸ hwhole) hfirst spelling

/-- Behind a byte order mark, the first line is one character longer than its columns tell. -/
example : insertAtColumn (lineAt (lines (byteOrderMark ++ text "if x\n")) 1) (text ":") 5 =
    byteOrderMark ++ text "if :x" := by decide

end SyntaxTree
