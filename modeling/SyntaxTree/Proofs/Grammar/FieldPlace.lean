import SyntaxTree.Proofs.Build.Text
import SyntaxTree.Proofs.Token.Source

/-
# Places of fields in the source

The place of a field is found by a walk over its f-string with line feeds alone.  It is the place
that the walk over the whole source reaches there, unless carriage returns stand alone in front of
the field: each of them is a line end that the literal does not see.
-/

namespace SyntaxTree

/-! ## Carriage returns that stand alone -/

/-- How many carriage returns of a text have no line feed behind them. -/
def Bytes.loneReturns : Bytes → Nat
  | [] => 0
  | b :: s =>
    if b = Byte.carriageReturn ∧ s.head? ≠ some Byte.lineFeed then loneReturns s + 1
    else loneReturns s

namespace Position

/-- A walk with line feeds alone counts those. -/
theorem lag_line (p : Position) (s : Bytes) :
    (p.lag s).line = p.line + s.count Byte.lineFeed := by
  induction s generalizing p with
  | nil => exact (Int.add_zero p.line).symm
  | cons b s ih =>
    rw [lag_cons, ih]
    split
    · next hb =>
      rw [hb, List.count_cons_self]
      simp only [nextLine]
      omega
    · next hb =>
      rw [List.count_cons_of_ne hb]
      split <;> rfl

/-- A walk counts the line feeds, and the carriage returns that stand alone. -/
theorem advance_line (p : Position) (s : Bytes) :
    (p.advance s).line = p.line + s.count Byte.lineFeed + s.loneReturns := by
  fun_induction advance p s with
  | case1 p => simp [Bytes.loneReturns]
  | case2 p b s hpair ih =>
    have hfeed : b ≠ Byte.lineFeed := by
      rw [hpair.1]
      decide
    rw [ih, List.count_cons_of_ne hfeed, Bytes.loneReturns, if_neg fun h => h.2 hpair.2]
  | case3 p b s hpair hend ih =>
    rw [ih]
    rcases Byte.isLineEnd_iff.mp hend with rfl | rfl
    · rw [List.count_cons_self, Bytes.loneReturns, if_neg fun h => absurd h.1 (by decide)]
      simp only [nextLine]
      omega
    · rw [List.count_cons_of_ne (by decide), Bytes.loneReturns,
        if_pos ⟨rfl, fun hfeed => hpair ⟨rfl, hfeed⟩⟩]
      simp only [nextLine]
      omega
  | case4 p b s hpair hend _ ih =>
    rw [Byte.isLineEnd_iff, not_or] at hend
    rw [ih, List.count_cons_of_ne hend.1, Bytes.loneReturns, if_neg fun h => hend.2 h.1]
  | case5 p b s hpair hend _ ih =>
    rw [Byte.isLineEnd_iff, not_or] at hend
    rw [ih, List.count_cons_of_ne hend.1, Bytes.loneReturns, if_neg fun h => hend.2 h.1]
    rfl

/-- Where no carriage return stands alone, line feeds tell the whole place. -/
theorem lag_eq_advance (p : Position) {s : Bytes} (h : s.loneReturns = 0) :
    p.lag s = p.advance s := by
  fun_induction advance p s with
  | case1 p => rfl
  | case2 p b s hpair ih =>
    rw [Bytes.loneReturns, if_neg fun h => h.2 hpair.2] at h
    obtain ⟨rfl, hfeed⟩ := hpair
    obtain ⟨s, rfl⟩ := List.head?_eq_some_iff.mp hfeed
    -- the column of the carriage return is forgotten at the line feed
    have hforget : p.lag (Byte.carriageReturn :: Byte.lineFeed :: s) =
        p.lag (Byte.lineFeed :: s) := rfl
    rw [hforget]
    exact ih h
  | case3 p b s hpair hend ih =>
    have hreturn : b ≠ Byte.carriageReturn := by
      rintro rfl
      rw [Bytes.loneReturns, if_pos ⟨rfl, fun hfeed => hpair ⟨rfl, hfeed⟩⟩] at h
      cases h
    rw [Bytes.loneReturns, if_neg fun h => hreturn h.1] at h
    rw [lag_cons, if_pos ((Byte.isLineEnd_iff.mp hend).resolve_right hreturn), ih h]
  | case4 p b s hpair hend hcontinuation ih =>
    rw [Byte.isLineEnd_iff, not_or] at hend
    rw [Bytes.loneReturns, if_neg fun h => hend.2 h.1] at h
    rw [lag_cons, if_neg hend.1, if_pos hcontinuation, ih h]
  | case5 p b s hpair hend hcontinuation ih =>
    rw [Byte.isLineEnd_iff, not_or] at hend
    rw [Bytes.loneReturns, if_neg fun h => hend.2 h.1] at h
    rw [lag_cons, if_neg hend.1, if_neg hcontinuation, ih h]

end Position

/-! ## Where fields begin -/

/-- A piece is a field that begins at an offset of the body, or has one in its format
specification. -/
inductive FString.Piece.FieldAt (offset : Nat) : Piece → Prop where
  | self {source echo : Bytes} {conversion : Option Conversion} {spec : Option (List Piece)} :
    FieldAt offset (.field offset source echo conversion spec)
  | spec {outer : Nat} {source echo : Bytes} {conversion : Option Conversion}
    {pieces : List Piece} {piece : Piece} (hpiece : piece ∈ pieces) (h : FieldAt offset piece) :
    FieldAt offset (.field outer source echo conversion (some pieces))

/-- A field begins behind an opening brace of the body. -/
theorem FString.Piece.StandsIn.exists_brace {body : Bytes} {piece : Piece} {offset : Nat}
    (h : piece.StandsIn body) (hfield : piece.FieldAt offset) :
    ∃ front behind, body = front ++ Byte.openBrace :: behind ∧ offset = front.length + 1 := by
  induction hfield with
  | self =>
    cases h with
    | field hbody => exact ⟨_, _, hbody, rfl⟩
  | spec hpiece _ ih =>
    cases h with
    | field _ _ hspec => exact ih (hspec _ rfl _ hpiece)

/-- A field of an f-string begins behind an opening brace of its text. -/
theorem Literal.Parts.exists_brace_of_fieldAt {s : Bytes} {piece : FString.Piece}
    (hpiece : piece ∈ FString.divide (of s).isRaw (of s).body) {offset : Nat}
    (hfield : piece.FieldAt offset) :
    ∃ front behind, s = front ++ Byte.openBrace :: behind ∧
      (of s).offset + offset = front.length + 1 := by
  obtain ⟨front, behind, hbody, rfl⟩ :=
    (FString.standsIn_of_mem_divide hpiece).exists_brace hfield
  obtain ⟨back, hback⟩ := exists_body_append s
  rw [hbody, List.append_assoc, List.cons_append] at hback
  refine ⟨s.take (of s).offset ++ front, behind ++ back, ?_, ?_⟩
  · rw [List.append_assoc, ← hback, List.take_append_drop]
  · have hlength := congrArg List.length hback
    rw [List.length_drop, List.length_append, List.length_cons] at hlength
    rw [List.length_append, List.length_take]
    omega

/-- The place behind the beginning of a text is where the walk leads, as far as it counts line feeds
alone. -/
theorem Token.placeAt_eq_advance {t : Token} {place : Position} {front rest inside behind : Bytes}
    (hstart : t.start = place.advance front) (htext : t.text = inside ++ behind)
    (hfront : PartsNoLineEnd front (t.text ++ rest)) :
    (place.advance (front ++ inside)).line =
        (t.placeAt inside.length).line + Bytes.loneReturns inside ∧
      (Bytes.loneReturns inside = 0 →
        t.placeAt inside.length = place.advance (front ++ inside)) := by
  have hwalk : place.advance (front ++ inside) = t.start.advance inside := by
    rw [htext, List.append_assoc] at hfront
    rw [hstart, Position.advance_append hfront.left]
  rw [hwalk, placeAt_eq, htext, List.take_left' rfl]
  refine ⟨?_, Position.lag_eq_advance t.start⟩
  rw [Position.advance_line, Position.lag_line]

/-- The places of fields are those of the source.  Each f-string of a source stands somewhere in it,
and the walk over the source up to a field is as many lines ahead of the place of the field as
carriage returns stand alone between the beginning of the literal and the field; if there are none,
the places are the same. -/
theorem placeAt_field_of_tokenize {keepComments : Bool} {source : Bytes} {tokens : List Token}
    (htokens : tokenize keepComments source = .ok tokens) {t : Token} (ht : t ∈ tokens)
    (hkind : t.kind = .fstring) :
    ∃ front rest, dropMark source = front ++ (t.text ++ rest) ∧
      t.start = Position.origin.advance front ∧
      ∀ piece ∈ FString.divide (Literal.Parts.of t.text).isRaw (Literal.Parts.of t.text).body,
        ∀ offset, piece.FieldAt offset → ∃ inside behind, t.text = inside ++ behind ∧
          inside.length = (Literal.Parts.of t.text).offset + offset ∧
          (Position.origin.advance (front ++ inside)).line =
            (t.placeAt inside.length).line + Bytes.loneReturns inside ∧
          (Bytes.loneReturns inside = 0 →
            t.placeAt inside.length = Position.origin.advance (front ++ inside)) := by
  have htext : t.kind.isText := by
    rw [hkind]
    rfl
  obtain ⟨front, rest, hsource, hfront, hstart, -⟩ :=
    (isLexemeOf_of_tokenize htokens t ht (TokenKind.isProper_of_isText htext)).exists_literal htext
  refine ⟨front, rest, hsource, hstart, fun piece hpiece offset hfield => ?_⟩
  obtain ⟨inside, behind, hinside, hoffset⟩ := Literal.Parts.exists_brace_of_fieldAt hpiece hfield
  have hbrace : t.text = (inside ++ [Byte.openBrace]) ++ behind := by
    rw [hinside, List.append_assoc, List.singleton_append]
  refine ⟨inside ++ [Byte.openBrace], behind, hbrace, ?_, ?_⟩
  · rw [hoffset, List.length_append, List.length_singleton]
  · exact Token.placeAt_eq_advance hstart hbrace hfront

/-- A carriage return stands alone in front of a field. -/
example :
    let t : Token := ⟨.fstring, text "f'''\r\x7bx\x7d'''", ⟨1, 1⟩, ⟨2, 7⟩⟩
    t.placeAt 6 = ⟨1, 7⟩ ∧ Position.origin.advance (t.text.take 6) = ⟨2, 2⟩ := by decide

end SyntaxTree
