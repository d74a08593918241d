import SyntaxTree.Proofs.Build.Reading
import SyntaxTree.Proofs.Grammar.Piece

/-
# What string literals build

The values of an f-string lie within its run of literals: texts between the beginning and the end of
their literal, and fields where their sources stand in it.
-/

namespace SyntaxTree

/-! ## Places of fields -/

/-- A literal between two places, with a body that begins behind its prefix and its quotes. -/
structure Token.Hosts (lo hi : Position) (base : Nat) (body : Bytes) (t : Token) : Prop where
  isSound : t.IsSound
  isText : t.kind.isText
  exists_eq : ∃ back, t.text.drop base = body ++ back
  le_start : lo ≤ t.start
  stop_le : t.stop ≤ hi

namespace Token.Hosts

variable {lo hi : Position} {base : Nat} {body : Bytes} {t : Token}

theorem span_isIn (h : t.Hosts lo hi base body) : t.span.IsIn (some ⟨lo, hi⟩) := by
  refine ⟨?_, ?_⟩
  · rintro _ ⟨⟩
    exact h.isSound.start_le_stop
  · rintro _ ⟨⟩
    refine ⟨h.le_start, ?_⟩
    rintro _ ⟨⟩
    exact h.stop_le

/-- A field that stands in the body of a literal lies within the literal. -/
theorem field_within (h : t.Hosts lo hi base body) {front source behind : Bytes} {stop : Byte}
    (hfield : body = front ++ Byte.openBrace :: (source ++ stop :: behind))
    (hstop : stop.isColumn) :
    1 ≤ (t.placeAt (base + (front.length + 1))).line ∧
      lo ≤ (t.placeAt (base + (front.length + 1))).inField .origin ∧
      (t.placeAt (base + (front.length + 1))).inField
        (Position.origin.advance (SyntaxTree.text "(" ++ source ++ SyntaxTree.text ")")) ≤ hi := by
  obtain ⟨back, hbody⟩ := h.exists_eq
  obtain ⟨whole, hwhole⟩ : ∃ whole, whole = t.text.take base ++ front := ⟨_, rfl⟩
  have htake : t.text.take (base + (front.length + 1)) = whole ++ [Byte.openBrace] := by
    have hbrace : body ++ back =
        (front ++ [Byte.openBrace]) ++ (source ++ stop :: behind ++ back) := by
      rw [hfield]
      simp
    rw [List.take_add, hbody, hbrace, List.take_left' (by simp), hwhole, List.append_assoc]
  have hall : t.text = whole ++ Byte.openBrace :: (source ++ stop :: (behind ++ back)) := by
    rw [← List.take_append_drop base t.text, hbody, hfield, hwhole]
    simp
  have hline := h.isSound.one_le_line
  rw [Token.placeAt_eq, htake]
  refine ⟨?_, ?_, ?_⟩
  · exact Int.le_trans hline (Position.line_le_of_le (Position.le_lag _ _))
  · rw [Position.lag_append_column (by decide), Position.nextColumn_inField_origin]
    exact Position.le_trans h.le_start (Position.le_lag _ _)
  · refine Position.le_trans ?_ h.stop_le
    rw [h.isSound.stop_of_isText h.isText, hall]
    exact Position.inField_le_advance hline hstop

end Token.Hosts

/-- The body of a literal stands behind its offset. -/
theorem Literal.Parts.exists_body_append (s : Bytes) :
    ∃ back, s.drop (Parts.of s).offset = (Parts.of s).body ++ back := by
  have hletters : (Bytes.toLower (s.takeWhile (!·.isQuote))).length =
      (s.takeWhile (!·.isQuote)).length := List.length_map _
  have hquoted : s.drop (s.takeWhile (!·.isQuote)).length = s.dropWhile (!·.isQuote) := by
    calc s.drop (s.takeWhile (!·.isQuote)).length
      _ = (s.takeWhile (!·.isQuote) ++ s.dropWhile (!·.isQuote)).drop
          (s.takeWhile (!·.isQuote)).length := by rw [List.takeWhile_append_dropWhile]
      _ = s.dropWhile (!·.isQuote) := List.drop_left
  simp only [Parts.of, hletters, ← List.drop_drop, hquoted]
  exact ⟨_, (List.take_append_drop _ _).symm⟩

/-! ## Drafts -/

/-- Values stay separated if a further one does not join the last. -/
theorem Expr.AreSeparated.concat {values : List Expr} {e : Expr} (h : Expr.AreSeparated values)
    (hne : e.shape ≠ .constant (.string []))
    (hlast : ∀ e' ∈ values.getLast?, ¬ (e'.isText ∧ e.isText)) :
    Expr.AreSeparated (values ++ [e]) where
  nonempty := forall_mem_concat h.nonempty hne
  apart := List.isChain_append.mpr ⟨h.apart, .singleton e, fun e' he' e'' he'' => by
    obtain rfl : e = e'' := by simpa using he''
    exact hlast e' he'⟩

/-- The values of an f-string so far lie between two places, and text may follow them. -/
structure Draft.IsBuilt (lo hi : Position) (draft : Draft) : Prop where
  within : ∀ e ∈ draft.values, (Node.expr e).Within .load lo hi
  separated : Expr.AreSeparated draft.values
  last : ∀ e ∈ draft.values.getLast?, e.isText = false

namespace Draft.IsBuilt

variable {lo hi : Position} {draft : Draft} {span : Span}

theorem empty (lo hi : Position) : Draft.empty.IsBuilt lo hi where
  within := List.forall_mem_nil _
  separated := ⟨List.forall_mem_nil _, .nil⟩
  last := nofun

/-- The pending text becomes a value if there is any. -/
theorem flush (h : draft.IsBuilt lo hi) (hspan : span.IsIn (some ⟨lo, hi⟩)) :
    (∀ e ∈ (draft.flush span).values, (Node.expr e).Within .load lo hi) ∧
      Expr.AreSeparated (draft.flush span).values := by
  unfold Draft.flush
  split
  · exact ⟨h.within, h.separated⟩
  · next hpending =>
    refine ⟨forall_mem_concat h.within ?_,
      h.separated.concat (by simpa [Expr.shape] using hpending) fun e he => by simp [h.last e he]⟩
    exact Node.Fits.wellFormed (by simp) (.inr hspan)

/-- A value that is no text may follow any other. -/
theorem push {value : Expr} (h : draft.IsBuilt lo hi) (hspan : span.IsIn (some ⟨lo, hi⟩))
    (hvalue : (Node.expr value).Within .load lo hi) (htext : value.isText = false) :
    (draft.push span value).IsBuilt lo hi := by
  obtain ⟨hwithin, hseparated⟩ := h.flush hspan
  refine ⟨forall_mem_concat hwithin hvalue,
    hseparated.concat ?_ fun e he => by simp [htext], ?_⟩
  · intro hshape
    obtain ⟨_, shape⟩ := value
    obtain rfl : shape = _ := hshape
    cases htext
  · simp [Draft.push, htext]

end Draft.IsBuilt

namespace Parse

/-- The expression of a field stands where its source does, and the cursor stays where it is. -/
def FieldBuilds (field : FieldReading) : Prop :=
  ∀ ⦃source place c e c'⦄, 1 ≤ place.line → field.read source place c = .ok e c' →
    c' = c ∧ e.Stands .load (place.inField .origin)
      (place.inField (Position.origin.advance (text "(" ++ source ++ text ")")))

/-! ## Pieces -/

section Pieces

variable {field : FieldReading} {t : Token} {lo hi : Position} {isRaw : Bool} {base : Nat}
  {body back : Bytes}

theorem addLiteral_built {names : Unicode.CharacterNames} {isBytes : Bool} {draft draft' : Draft}
    {s : Bytes} {c c' : Cursor} (h : draft.IsBuilt lo hi)
    (hrun : addLiteral names t isRaw isBytes draft s c = .ok draft' c') :
    c' = c ∧ draft'.IsBuilt lo hi := by
  have hdraft (s : Bytes) : (draft.append s).IsBuilt lo hi := ⟨h.within, h.separated, h.last⟩
  unfold addLiteral at hrun
  cases isRaw with
  | true =>
    cases hrun
    exact ⟨rfl, hdraft s⟩
  | false =>
    cases hvalue : Literal.unescape names isBytes s with
    | error cause =>
      rw [hvalue] at hrun
      cases hrun
    | ok value =>
      rw [hvalue] at hrun
      cases hrun
      exact ⟨rfl, hdraft value⟩

mutual

/-- The pieces of a literal keep a draft between two places around the literal. -/
theorem addPiece_built (hfield : FieldBuilds field) (ht : t.Hosts lo hi base body) :
    ∀ (piece : FString.Piece) {draft draft' : Draft} {c c' : Cursor}, piece.StandsIn body →
      draft.IsBuilt lo hi → addPiece field t base isRaw draft piece c = .ok draft' c' →
        c' = c ∧ draft'.IsBuilt lo hi
  | .literal _, _, _, _, _, _, h, hrun => addLiteral_built h hrun
  | .brace _, _, _, _, _, _, h, hrun => by
    cases hrun
    exact ⟨rfl, h.within, h.separated, h.last⟩
  | .fault _ _, _, _, _, _, _, _, hrun => by cases hrun
  | .field _ source _ _ spec, _, _, c, c', hpiece, h, hrun => by
    cases hpiece with
    | field hsource hstop hspec =>
    obtain ⟨hline, hstart, hend⟩ := ht.field_within hsource hstop
    obtain ⟨value, c₁, hvalue, hrest⟩ := exists_of_bind_eq_ok hrun
    obtain ⟨o, c₂, ho, hlast⟩ := exists_of_bind_eq_ok hrest
    obtain ⟨hc₁, hstands⟩ := hfield hline hvalue
    obtain ⟨hc₂, hspec⟩ := readSpec_built hfield ht spec hspec ho
    cases hlast
    have hstands := hstands.widen hstart hend
    refine ⟨hc₂.trans hc₁, Draft.IsBuilt.push ⟨h.within, h.separated, h.last⟩ ht.span_isIn ?_ rfl⟩
    exact Node.Fits.within (by simpa using ⟨hstands.within, hspec⟩) rfl (.inr hstands.le_start)

theorem addPieces_built (hfield : FieldBuilds field) (ht : t.Hosts lo hi base body) :
    ∀ (pieces : List FString.Piece) {draft draft' : Draft} {c c' : Cursor},
      (∀ piece ∈ pieces, piece.StandsIn body) → draft.IsBuilt lo hi →
        addPieces field t base isRaw draft pieces c = .ok draft' c' → c' = c ∧ draft'.IsBuilt lo hi
  | [], _, _, _, _, _, h, hrun => by
    cases hrun
    exact ⟨rfl, h⟩
  | piece :: rest, _, _, _, _, hpieces, h, hrun => by
    obtain ⟨hpiece, hrest⟩ := List.forall_mem_cons.mp hpieces
    obtain ⟨middle, c₁, hfirst, hlast⟩ := exists_of_bind_eq_ok hrun
    obtain ⟨hc₁, hmiddle⟩ := addPiece_built hfield ht piece hpiece h hfirst
    obtain ⟨hc', hdraft⟩ := addPieces_built hfield ht rest hrest hmiddle hlast
    exact ⟨hc'.trans hc₁, hdraft⟩

theorem readSpec_built (hfield : FieldBuilds field) (ht : t.Hosts lo hi base body) :
    ∀ (spec : Option (List FString.Piece)) {o : Option FormatSpec} {c c' : Cursor},
      (∀ pieces ∈ spec, ∀ piece ∈ pieces, piece.StandsIn body) →
        readSpec field t base isRaw spec c = .ok o c' →
          c' = c ∧ ∀ s ∈ o, (Node.expr s.expr).Within .load lo hi
  | none, _, _, _, _, hrun => by
    cases hrun
    exact ⟨rfl, nofun⟩
  | some pieces, _, _, _, hpieces, hrun => by
    obtain ⟨draft, c₁, hread, hrest⟩ := exists_of_bind_eq_ok hrun
    obtain ⟨hc₁, hdraft⟩ :=
      addPieces_built hfield ht pieces (hpieces pieces rfl) (.empty lo hi) hread
    cases hrest
    obtain ⟨hwithin, hseparated⟩ := hdraft.flush ht.span_isIn
    refine ⟨hc₁, ?_⟩
    rintro _ ⟨⟩
    exact Node.Fits.within (by simpa using ⟨hseparated, hwithin⟩) rfl (.inr ht.le_start)

end

theorem addToken_built {isBytes : Bool} {draft draft' : Draft} {c c' : Cursor}
    (hfield : FieldBuilds field) (ht : t.IsSound) (htext : t.kind.isText) (hlo : lo ≤ t.start)
    (hhi : t.stop ≤ hi) (h : draft.IsBuilt lo hi)
    (hrun : addToken field isBytes draft t c = .ok draft' c') : c' = c ∧ draft'.IsBuilt lo hi := by
  have hhosts : t.Hosts lo hi (Literal.Parts.of t.text).offset (Literal.Parts.of t.text).body :=
    ⟨ht, htext, Literal.Parts.exists_body_append t.text, hlo, hhi⟩
  simp only [addToken] at hrun
  split at hrun
  -- Text and bytes side by side are a fault, so nothing is given.
  · obtain ⟨e, c₁, herror⟩ := fails_failAtToken (α := Draft) .mixedBytes t c
    rw [herror] at hrun
    cases hrun
  split at hrun
  · exact addPieces_built hfield hhosts _ (fun _ => FString.standsIn_of_mem_divide) h hrun
  · exact addLiteral_built h hrun

end Pieces

/-! ## Runs of literals -/

namespace Builds

variable {known : Position → Prop} {pre : Token → Prop} {lo : Position} {field : FieldReading}

/-- A literal at the cursor keeps a draft that begins in front of it. -/
theorem addNext (hfield : FieldBuilds field) {isBytes : Bool} {draft : Draft}
    (hpre : ∀ t, pre t → t.kind.isText) {k : Token → Draft → Parse α} {P : Position → α → Prop}
    (hdraft : ∀ hi, known hi → draft.IsBuilt lo hi)
    (hk : ∀ t draft', pre t → t.IsSound → Builds (fun hi => known hi ∧ t.stop ≤ hi ∧
      draft'.IsBuilt lo hi) anywhere lo (k t draft') P) :
    Builds known pre lo
      (Parse.next >>= fun t => addToken field isBytes draft t >>= fun draft' => k t draft') P := by
  intro c a c' hc ht hrun
  obtain ⟨t, c₁, hnext, hrest⟩ := exists_of_bind_eq_ok hrun
  obtain ⟨draft', c₂, hadd, hlast⟩ := exists_of_bind_eq_ok hrest
  have hproper : ∀ t, pre t → t.kind.isProper :=
    fun t ht => TokenKind.isProper_of_isText (hpre t ht)
  obtain ⟨hmove, hnow⟩ := nextSound hproper hc ht hnext
  have hbuilt (hi : Position) (hhi : c₁.front ≤ hi) : c₂ = c₁ ∧ draft'.IsBuilt lo hi := by
    obtain ⟨hpre', hsound, hlo, hstop⟩ := hnow hi hhi
    exact addToken_built hfield hsound (hpre t hpre') hlo hstop
      (hdraft hi ((hc.move hmove).known hi hhi)) hadd
  obtain ⟨hpre', hsound, -, -⟩ := hnow _ (Position.le_refl _)
  obtain ⟨rfl, -⟩ := hbuilt _ (Position.le_refl _)
  have hc₁ : c₂.IsAt (fun hi => known hi ∧ t.stop ≤ hi ∧ draft'.IsBuilt lo hi) lo :=
    (hc.move hmove).and fun hi hhi => ⟨(hnow hi hhi).2.2.2, (hbuilt hi hhi).2⟩
  obtain ⟨hmove', ha⟩ := hk t draft' hpre' hsound hc₁ trivial hlast
  exact ⟨hmove.trans hmove', ha⟩

/-- A run of literals stands behind the beginning of the first one. -/
theorem strings (hfield : FieldBuilds field) :
    Builds known (fun t => t.kind.isText) lo (Parse.strings field) (Expr.Stands .load lo) := by
  refine peek fun first hfirst hlo => ?_
  -- The first literal begins the draft, and all values lie behind its beginning.
  refine bind (iterateFirst (I := fun hi run => run.1.IsBuilt first.start hi ∧ first.IsSound ∧
    first.stop ≤ hi) (kind fun t ht => ?_) fun run => kind fun t _ => ?_) fun run => ?_
  · refine ite (fun htext => ?_) fun htext => absurd (ht ▸ hfirst) htext
    refine addNext hfield (by rintro _ rfl; exact htext) (fun hi _ => .empty first.start hi) ?_
    rintro _ draft' rfl hsound
    exact pure fun hi hknown => ⟨hknown.2.2, ht ▸ hsound, ht ▸ hknown.2.1⟩
  · refine ite (fun htext => ?_) fun _ => pure fun _ => id
    refine addNext hfield (by rintro _ rfl; exact htext) (fun hi hknown => hknown.1) ?_
    exact fun _ draft' _ _ => pure fun hi hknown => ⟨hknown.2.2, hknown.1.2⟩
  · have hstart {hi : Position} (h : first.IsSound ∧ first.stop ≤ hi) : first.start ≤ hi :=
      Position.le_trans h.1.start_le_stop h.2
    refine ite (fun _ => ?_) fun _ => ite (fun _ => ?_) fun _ => ?_
    · exact exprFrom hlo fun hi hknown => ⟨hstart hknown.2.2, by simp⟩
    · refine exprFrom hlo fun hi hknown => ⟨hstart hknown.2.2, ?_⟩
      obtain ⟨-, hbuilt, hsound, hstop⟩ := hknown
      have hspan : first.span.IsIn (some ⟨first.start, hi⟩) := by
        refine ⟨?_, ?_⟩
        · rintro _ ⟨⟩
          exact hsound.start_le_stop
        · rintro _ ⟨⟩
          refine ⟨Position.le_refl _, ?_⟩
          rintro _ ⟨⟩
          exact hstop
      obtain ⟨hwithin, hseparated⟩ := hbuilt.flush hspan
      simpa using ⟨hseparated, hwithin⟩
    · exact exprFrom hlo fun hi hknown => ⟨hstart hknown.2.2, by simp⟩

end Builds

end Parse

end SyntaxTree
