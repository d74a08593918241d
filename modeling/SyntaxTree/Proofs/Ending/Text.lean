import SyntaxTree.Proofs.Build.Text
import SyntaxTree.Proofs.Ending.Reading

/-
# String literals are read to their end

The pieces of an f-string are read one after the other.  Only its fields hold expressions, and the
source of a field is shorter than the literal around it.
-/

namespace SyntaxTree

/-! ## Bodies of literals -/

namespace Literal

theorem one_le_quoteCount (s : Bytes) : 1 ≤ quoteCount s := by
  unfold quoteCount
  split
  · split <;> decide
  · exact Nat.le_refl 1

/-- A literal has a quote in front of its body and one behind it. -/
theorem Parts.length_body_add_two_le {s : Bytes} (h : (Parts.of s).body ≠ []) :
    (Parts.of s).body.length + 2 ≤ s.length := by
  have hquoted := (List.dropWhile_suffix (l := s) fun b => !b.isQuote).length_le
  have hcount := one_le_quoteCount (s.dropWhile fun b => !b.isQuote)
  have hpos := List.length_pos_iff.mpr h
  simp only [Parts.of, List.length_take, List.length_drop] at hpos ⊢
  omega

end Literal

/-- The source of a field is shorter than the body it stands in. -/
theorem FString.length_source_add_two_le {body front source behind : Bytes} {stop : Byte}
    (h : body = front ++ Byte.openBrace :: (source ++ stop :: behind)) :
    source.length + 2 ≤ body.length := by
  rw [h]
  simp only [List.length_append, List.length_cons]
  omega

namespace Parse

variable {α : Type} {depth limit : Nat} {pre : Token → Prop} {field : FieldReading}

/-! ## Pieces -/

section Pieces

variable {n base : Nat} {t : Token} {isRaw : Bool} {body : Bytes}

theorem addLiteral_ends {names : Unicode.CharacterNames} (isBytes : Bool) (draft : Draft)
    (s : Bytes) :
    Ends n limit pre never (addLiteral names t isRaw isBytes draft s) := by
  unfold addLiteral
  refine .ite (fun _ => .pure id) fun _ => ?_
  split
  · exact .failAt _ _ rfl
  · exact .pure id

mutual

/-- The pieces of a body come to an end if its length bounds the nesting of fields. -/
theorem addPiece_ends (hfield : FieldEnds depth field) (hbody : body.length ≤ depth) :
    ∀ (piece : FString.Piece) (draft : Draft) {pre : Token → Prop}, piece.StandsIn body →
      Ends n limit pre never (addPiece field t base isRaw draft piece)
  | .literal s, draft, _, _ => addLiteral_ends false draft s
  | .brace b, draft, _, _ => .pure id
  | .fault cause offset, draft, _, hpiece => by
    cases hpiece with
    | fault hcause hoffset =>
    refine .failAt _ _ ?_
    cases cause with
    | unending => exact absurd rfl hcause
    | _ => rfl
  | .field offset source echo conversion spec, draft, pre, hpiece => by
    cases hpiece with
    | field hsource hstop hspec =>
    have hlength := FString.length_source_add_two_le hsource
    refine (hfield source _ (by omega)).bind fun value => ?_
    exact (readSpec_ends hfield hbody spec hspec).bind fun _ => .pure id

theorem addPieces_ends (hfield : FieldEnds depth field) (hbody : body.length ≤ depth) :
    ∀ (pieces : List FString.Piece) (draft : Draft) {pre : Token → Prop},
      (∀ piece ∈ pieces, piece.StandsIn body) →
        Ends n limit pre never (addPieces field t base isRaw draft pieces)
  | [], draft, _, _ => .pure id
  | piece :: rest, draft, _, hpieces => by
    obtain ⟨hpiece, hrest⟩ := List.forall_mem_cons.mp hpieces
    exact (addPiece_ends hfield hbody piece draft hpiece).bind fun middle =>
      addPieces_ends hfield hbody rest middle hrest

theorem readSpec_ends (hfield : FieldEnds depth field) (hbody : body.length ≤ depth) :
    ∀ (spec : Option (List FString.Piece)) {pre : Token → Prop},
      (∀ pieces ∈ spec, ∀ piece ∈ pieces, piece.StandsIn body) →
        Ends n limit pre never (readSpec field t base isRaw spec)
  | none, _, _ => .pure id
  | some pieces, _, hpieces =>
    (addPieces_ends hfield hbody pieces .empty (hpieces pieces rfl)).bind fun _ => .pure id

end

theorem addToken_ends (hfield : FieldEnds depth field) (ht : t.text.length ≤ depth + 2)
    (isBytes : Bool) (draft : Draft) : Ends n limit pre never (addToken field isBytes draft t) := by
  refine .ite (fun _ => .failAtToken t rfl) fun _ => .ite (fun _ => ?_) fun _ => ?_
  · have hbody : (Literal.Parts.of t.text).body.length ≤ depth := by
      by_cases hnil : (Literal.Parts.of t.text).body = []
      · rw [hnil]
        exact Nat.zero_le depth
      · have := Literal.Parts.length_body_add_two_le hnil
        omega
    exact addPieces_ends hfield hbody _ draft fun _ => FString.standsIn_of_mem_divide
  · exact addLiteral_ends _ draft _

end Pieces

/-! ## Runs of literals -/

namespace Ends

/-- A literal that is taken is as short as the bounds demand. -/
theorem nextText {taken : α → Prop} {k : Token → Parse α} (hpre : ∀ t, pre t → t.kind.isText)
    (h : ∀ t, t.text.length ≤ depth + 2 → Ends depth limit anywhere never (k t)) :
    Ends depth limit pre taken (Parse.next >>= k) := by
  intro c hc ht
  have htext := hpre _ ht
  have hkind : c.peek.kind ≠ .endOfInput := by
    intro hend
    rw [hend] at htext
    cases htext
  have hmem : c.peek ∈ c.rest := by
    obtain ⟨_, _, rest, final, _⟩ := c
    cases rest with
    | nil => exact absurd hc.ends hkind
    | cons t rest => exact List.mem_cons_self
  rw [bind_ok (next_run c)]
  have hmove := c.movesTo_advance
  have hk := h c.peek (hc.texts _ hmem htext) c.advance (hc.move hmove) trivial
  exact hk.behind hmove (Cursor.length_advance_lt hc.ends hkind)

/-- A run of literals ends where no literal follows. -/
theorem strings (hfield : FieldEnds depth field) :
    Ends depth limit (fun t => t.kind.isText) always (Parse.strings field) := by
  have hstep (isBytes : Bool) (run : Draft × Bool) {pre : Token → Prop} {taken : ForInStep _ → Prop}
      (hpre : ∀ t, pre t → ¬ t.kind.isText → ¬ taken (.done run)) :
      Ends depth limit pre taken (Parse.kind >>= fun kind => if kind.isText then
        Parse.next >>= fun token => addToken field isBytes run.1 token >>= fun draft =>
          Pure.pure (ForInStep.yield
            (draft, run.2 || (Literal.Parts.of token.text).isFormatted))
        else Pure.pure (.done run)) := by
    refine kind fun t ht => ite (fun htext => ?_) fun htext => pure (hpre t ht htext)
    refine nextText (by rintro _ rfl; exact htext) fun token htoken => ?_
    exact (addToken_ends hfield htoken _ _).bind fun _ => pure id
  refine peek fun t ht => ?_
  refine first (iterateFirst (hstep _ _ ?_) fun run => hstep _ run fun _ _ _ => id) fun run => ?_
  · rintro _ rfl htext
    exact absurd ht htext
  refine ite (fun _ => ?_) fun _ => ite (fun _ => ?_) fun _ => ?_
  · exact exprFrom _ _
  · exact exprFrom _ _
  · exact exprFrom _ _

end Ends

end Parse

end SyntaxTree
