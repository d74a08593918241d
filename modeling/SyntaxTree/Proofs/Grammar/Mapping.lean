import SyntaxTree.Proofs.Grammar.Columns
import SyntaxTree.Proofs.Grammar.Value

/-
# Mappings and classes

The loops over the entries of a mapping and over the patterns of a class take what stands between
two commas.  The keyword patterns of a class stand behind the others, and the rest of a mapping
behind all entries.
-/

namespace SyntaxTree

open Parse

/-! ## Classes -/

/-- An equals sign. -/
def Word.equal : Word := ⟨.equal, SyntaxTree.text "="⟩

/-- A pattern of a class, behind its name and an equals sign if it has one. -/
structure RecordPiece where
  name : Option Word
  pattern : PatternPiece

namespace RecordPiece

/-- The words of a pattern of a class. -/
def words : RecordPiece → List Word
  | ⟨none, x⟩ => x.1
  | ⟨some name, x⟩ => name :: Word.equal :: x.1

/-- The patterns of a class with one more; one without a name does not stand behind one with a
name. -/
def add (found : List Pattern × List (Bytes × Pattern)) :
    RecordPiece → Option (List Pattern × List (Bytes × Pattern))
  | ⟨none, x⟩ => if found.2 = [] then some (found.1 ++ [x.2], []) else none
  | ⟨some name, x⟩ => some (found.1, found.2 ++ [(name.text, x.2)])

/-- A pattern without a name. -/
def plain (x : PatternPiece) : RecordPiece := ⟨none, x⟩

/-- A pattern behind its name. -/
def keyword (x : Bytes × PatternPiece) : RecordPiece := ⟨some ⟨.identifier, x.1⟩, x.2⟩

/-- Patterns with a name are added behind all others. -/
theorem foldlM_add (xs : List PatternPiece) (ys : List (Bytes × PatternPiece)) :
    (xs.map plain ++ ys.map keyword).foldlM add ([], []) =
      some (xs.map Prod.snd, ys.map fun y => (y.1, y.2.2)) := by
  have hplain (ps : List Pattern) : (xs.map plain).foldlM add (ps, []) =
      some (ps ++ xs.map Prod.snd, []) := by
    induction xs generalizing ps with
    | nil => rw [List.map_nil, List.map_nil, List.append_nil]; rfl
    | cons x xs ih =>
      rw [List.map_cons, List.foldlM_cons, List.map_cons, plain, add, if_pos rfl]
      exact (ih _).trans (by rw [List.append_assoc, List.singleton_append])
  have hkeyword (ps : List Pattern) (as : List (Bytes × Pattern)) :
      (ys.map keyword).foldlM add (ps, as) = some (ps, as ++ ys.map fun y => (y.1, y.2.2)) := by
    induction ys generalizing as with
    | nil => rw [List.map_nil, List.map_nil, List.append_nil]; rfl
    | cons y ys ih =>
      rw [List.map_cons, List.foldlM_cons, List.map_cons, keyword, add]
      exact (ih _).trans (by rw [List.append_assoc, List.singleton_append])
  rw [List.foldlM_append, hplain]
  exact hkeyword _ _

/-- Words that read as a pattern of a class. -/
structure Reads (x : RecordPiece) : Prop where
  name : ∀ w ∈ x.name, w.kind = .identifier
  pattern : ReadsPattern .whole x.pattern.1 x.pattern.2

end RecordPiece

/-- A draft has read the given patterns. -/
def Parse.RecordDraft.Shows (draft : RecordDraft)
    (found : List Pattern × List (Bytes × Pattern)) : Prop :=
  Pattern.bareAll draft.positional = found.1 ∧
    draft.attributes.map id Pattern.bare = .ofRows found.2

theorem Pattern.bareAll_append (ps qs : List Pattern) :
    Pattern.bareAll (ps ++ qs) = Pattern.bareAll ps ++ Pattern.bareAll qs := by
  induction ps with
  | nil => rfl
  | cons p ps ih => rw [List.cons_append, Pattern.bareAll, ih, Pattern.bareAll, List.cons_append]

theorem Pattern.bareAttributes_eq_map (attributes : List (Bytes × Pattern)) :
    Pattern.bareAttributes attributes = attributes.map (Prod.map id Pattern.bare) := by
  induction attributes with
  | nil => rfl
  | cons x xs ih => rw [Pattern.bareAttributes, ih, List.map_cons]; rfl

theorem Pattern.bareEntries_eq_map (entries : List (Expr × Pattern)) :
    Pattern.bareEntries entries = entries.map (Prod.map Expr.bare Pattern.bare) := by
  induction entries with
  | nil => rfl
  | cons x xs ih => rw [Pattern.bareEntries, ih, List.map_cons]; rfl

/-- A pattern of a class is taken. -/
theorem RecordPiece.Reads.takes {x : RecordPiece} (h : x.Reads) (field : FieldReading) {n : Nat}
    (hn : x.words.length < n) :
    TakesPiece (addRecord (patternUpTo field n)) .closeParen RecordDraft.Shows RecordPiece.add
      RecordPiece.words x where
  begins := by
    obtain ⟨name, ws, p⟩ := x
    cases name with
    | none =>
      obtain ⟨w, tail, hws, hw⟩ := h.pattern.begins
      exact ⟨w, tail, hws, TokenKind.ne_of_beginsPattern hw rfl⟩
    | some name => exact ⟨name, _, rfl, (h.name name rfl).trans_ne nofun⟩
  run := by
    intro draft found found' c f more hdraft hadd hc hf
    have hends : PatternLevel.whole.endsAt f.kind := by obtain hf | hf := hf <;> rw [hf] <;> rfl
    obtain ⟨hpositional, hattributes⟩ := hdraft
    obtain ⟨name, ws, p⟩ := x
    cases name with
    | none =>
      rw [RecordPiece.add] at hadd
      split at hadd
      · rename_i hnone
        obtain rfl := Option.some.inj hadd
        obtain ⟨v, c', hrun, hc', hv⟩ := h.pattern.inner field hn hc hends
        -- no equals sign stands behind the first word
        have hequal : (c.peekAt 1).kind ≠ .equal := by
          obtain ⟨w, tail, hws, -⟩ := h.pattern.begins
          have hsecond := h.pattern.second
          dsimp only at hws hsecond
          cases tail with
          | nil =>
            rw [Cursor.kind_peekAt_one (hc.trans (by rw [words, hws]; rfl))]
            obtain hf | hf := hf <;> rw [hf] <;> exact nofun
          | cons second tail =>
            rw [Cursor.kind_peekAt_one (hc.trans (by rw [words, hws]; rfl))]
            exact hsecond second (by rw [hws]; rfl)
        have hnames : draft.attributes.left = [] := by
          rw [hnone] at hattributes
          exact List.map_eq_nil_iff.mp (congrArg Columns.left hattributes)
        refine ⟨⟨draft.positional ++ [v], draft.attributes⟩, c', ?_, hc', ?_, hnone ▸ hattributes⟩
        · have hat : at? .identifier c = .ok (c.peek.kind == .identifier) c := rfl
          have hkind : kindAt 1 c = .ok (c.peekAt 1).kind c := rfl
          rw [addRecord, bind_ok hat, bind_ok hkind, if_neg (by simp [hequal]),
            if_neg (by simp [hnames]), bind_ok hrun]
          rfl
        · rw [Pattern.bareAll_append, hpositional, Pattern.bareAll, hv]
          rfl
      · exact nomatch hadd
    | some name =>
      obtain rfl := Option.some.inj hadd
      have hname := h.name name rfl
      have hc₁ := Cursor.words_advance hc (by simp)
      have htext : c.peek.text = name.text := congrArg Word.text (Cursor.word_peek hc)
      have hlength : ws.length < n := Nat.lt_of_le_of_lt (Nat.le_add_right _ 2) hn
      obtain ⟨v, c', hrun, hc', hv⟩ :=
        h.pattern.inner field hlength (Cursor.words_advance hc₁ (by simp)) hends
      refine ⟨⟨draft.positional, (draft.attributes.addLeft name.text).addRight v⟩, c', ?_, hc',
        hpositional, ?_⟩
      · rw [addRecord, bind_ok (at?_run hc _), bind_ok (kindAt_run hc), hname,
          if_pos (by rfl), bind_ok (next_run c), bind_ok (next_run _), bind_ok hrun, htext]
        rfl
      · rw [Columns.map_addRight, Columns.map_addLeft, hattributes, hv, Columns.ofRows_concat]
        rfl

/-- The words of a pattern of a class close their brackets. -/
theorem RecordPiece.Reads.closes {x : RecordPiece} (h : x.Reads) : ClosesBrackets x.words := by
  obtain ⟨name, ws, p⟩ := x
  cases name with
  | none => exact h.pattern.closes
  | some name =>
    have hname := h.name name rfl
    exact .cons (by rw [hname]; rfl) (by rw [hname]; rfl) (.cons rfl rfl h.pattern.closes)

/-- The parentheses of a class and the patterns between them. -/
theorem Parse.recordPattern_run {pieces : List RecordPiece} {ps : List Pattern}
    {as : List (Bytes × Pattern)} (h : ∀ x ∈ pieces, x.Reads)
    (hadd : pieces.foldlM RecordPiece.add ([], []) = some (ps, as)) (field : FieldReading) {n : Nat}
    (hn : ([Word.comma].intercalate (pieces.map RecordPiece.words)).length < n) (callee : Expr)
    {c : Cursor} {o close f : Word} {more : List Word} (ho : o.kind = .openParen)
    (hclose : close.kind = .closeParen)
    (hc : c.words =
      o :: ([Word.comma].intercalate (pieces.map RecordPiece.words) ++ close :: f :: more)) :
    ∃ v c', recordPattern (patternUpTo field n) callee c = .ok v c' ∧ c'.words = f :: more ∧
      v.bare = .new (.record callee.bare ps as) := by
  have hadvance := Cursor.words_advance hc (by simp)
  have htakes : ∀ x ∈ pieces, TakesPiece (addRecord (patternUpTo field n)) .closeParen
      RecordDraft.Shows RecordPiece.add RecordPiece.words x := fun x hx =>
    (h x hx).takes field (Nat.lt_of_le_of_lt
      (length_le_length_intercalate (List.mem_map_of_mem hx)) hn)
  obtain ⟨draft, c', hrun, hc', hpositional, hattributes⟩ := iterate_pieceStep (by decide) htakes
    hadd (⟨rfl, rfl⟩ : RecordDraft.Shows ⟨[], .empty⟩ ([], [])) (.inl rfl)
    (by rw [List.append_nil]; exact hadvance) hclose
  refine ⟨.node (c'.advance.spanFrom callee.span.start)
    (.record callee draft.positional draft.attributes.rows), c'.advance, ?_,
    Cursor.words_advance hc' (by simp), ?_⟩
  · rw [recordPattern, bind_ok (expect_run .classPatternOpen hc ho), recordStep, bind_ok hrun,
      bind_ok (expect_run .classPatternClose hc' hclose)]
    rfl
  · rw [Pattern.bare, Pattern.Shape.bare, hpositional, Pattern.bareAttributes_eq_map,
      Columns.map_rows_of_map_eq hattributes]
    rfl

/-- A class and its patterns. -/
theorem ReadsPattern.record {ws : List Word} {e : Expr} {o close : Word}
    {pieces : List RecordPiece} {ps : List Pattern} {as : List (Bytes × Pattern)}
    (hcallee : ReadsDotted ws e) (ho : o.kind = .openParen) (hclose : close.kind = .closeParen)
    (h : ∀ x ∈ pieces, x.Reads)
    (hadd : pieces.foldlM RecordPiece.add ([], []) = some (ps, as)) :
    ReadsPattern .closed
      (ws ++ o :: ([Word.comma].intercalate (pieces.map RecordPiece.words) ++ [close]))
      (.new (.record e ps as)) where
  toOpensPattern := by
    have hopens : OpensPattern ws (.new (.record e ps as)) := hcallee.opens rfl
    refine hopens.append rfl (ho.trans_ne nofun) (.bracketed (by rw [ho]; rfl) (by rw [hclose]; rfl)
      (.intercalate (.single rfl rfl) ?_))
    exact List.forall_mem_map.mpr fun x hx => (h x hx).closes
  run := by
    intro field n c f more hn hc hf
    simp only [List.length_append, List.length_cons] at hn
    rw [List.append_assoc, List.cons_append, List.append_assoc, List.singleton_append] at hc
    have hdot : o.kind ≠ .dot := ho.trans_ne nofun
    obtain ⟨w, tail, hws, hw, htail⟩ := hcallee.begins
    have hclosed : closedPattern (patternUpTo field n) field c =
        namePattern (patternUpTo field n) c.peek c :=
      closedPattern_name (hc.trans (by rw [hws]; rfl)) hw
    cases tail with
    | nil =>
      -- the class is a plain name, which is taken before the parentheses are seen
      subst hws
      obtain rfl := hcallee.eq_name
      have htext : c.peek.text = w.text := congrArg Word.text (Cursor.word_peek hc)
      have hadvance := Cursor.words_advance hc (by simp)
      obtain ⟨v, c', hrun, hc', hv⟩ := recordPattern_run h hadd field (n := n) (by omega)
        (.node (c.advance.spanFrom c.peek.start) (.name c.peek.text .load)) ho hclose hadvance
      have hname : nameOf c.peek .load c.advance = .ok
          (.node (c.advance.spanFrom c.peek.start) (.name c.peek.text .load)) c.advance := rfl
      refine ⟨v, c', hclosed.trans ?_, hc', ?_⟩
      · rw [namePattern, bind_ok (kindAt_run hc), if_neg (by simpa using hdot),
          bind_ok (next_run c), bind_ok (at?_run hadvance _), if_pos (by simpa using ho),
          bind_ok hname, hrun]
      · rw [hv, Expr.bare, Expr.Shape.bare, htext]
        rfl
    | cons second tail =>
      obtain ⟨callee, c₁, hvalue, hc₁, hcallee'⟩ := hcallee.run hc hdot
      obtain ⟨v, c', hrun, hc', hv⟩ := recordPattern_run h hadd field (n := n) (by omega) callee ho
        hclose hc₁
      refine ⟨v, c', hclosed.trans ?_, hc', by rw [hv, hcallee']⟩
      rw [namePattern, bind_ok (kindAt_run (hc.trans (by rw [hws]; rfl))),
        if_pos (by simpa using htail second rfl), bind_ok hvalue, bind_ok (at?_run hc₁ _),
        if_pos (by simpa using ho), hrun]

/-! ## Mappings -/

/-- Words that read as a key of a mapping. -/
def ReadsKey (ws : List Word) (e : Expr) : Prop :=
  ReadsLiteral ws e ∨ ReadsDotted ws e ∧ ws.tail ≠ []

theorem ReadsKey.closes {ws : List Word} {e : Expr} (h : ReadsKey ws e) : ClosesBrackets ws :=
  h.elim ReadsLiteral.closes fun h => h.1.closes

/-- A key is read in front of its colon. -/
theorem ReadsKey.run {ws : List Word} {e : Expr} (h : ReadsKey ws e) (field : FieldReading)
    {c : Cursor} {f : Word} {more : List Word} (hc : c.words = ws ++ f :: more)
    (hf : f.kind = .colon) :
    ∃ v c', mappingKey field c = .ok v c' ∧ c'.words = f :: more ∧ v.bare = e := by
  obtain h | ⟨h, htail⟩ := h
  · obtain ⟨v, c', hrun, hc', hv⟩ := h.run field c f more hc (by rw [hf]; rfl)
    obtain ⟨w, tail, rfl, hw⟩ := h.begins
    have hne : w.kind ≠ .identifier := fun hkind => nomatch hkind ▸ hw
    have hkind : kindAt 1 c = .ok (c.peekAt 1).kind c := rfl
    refine ⟨v, c', ?_, hc', hv⟩
    rw [mappingKey, bind_ok (at?_run hc _), bind_ok hkind, if_neg (by simp [hne]), hrun]
  · obtain ⟨v, c', hrun, hc', hv⟩ := h.run hc (hf.trans_ne nofun)
    obtain ⟨w, w', tail, rfl, hw, hw'⟩ := h.second htail
    refine ⟨v, c', ?_, hc', hv⟩
    rw [mappingKey, bind_ok (at?_run hc _), bind_ok (kindAt_run hc), if_pos (by simp [hw, hw']),
      hrun]

/-- A key and its pattern. -/
structure EntryPiece where
  keyWords : List Word
  key : Expr
  pattern : PatternPiece

namespace EntryPiece

/-- The words of an entry. -/
def words (x : EntryPiece) : List Word := x.keyWords ++ Word.colon :: x.pattern.1

/-- The key and the pattern of an entry. -/
def value (x : EntryPiece) : Expr × Pattern := (x.key, x.pattern.2)

/-- Words that read as an entry. -/
structure Reads (x : EntryPiece) : Prop where
  key : ReadsKey x.keyWords x.key
  pattern : ReadsPattern .whole x.pattern.1 x.pattern.2

end EntryPiece

/-- An entry begins neither with a bracket nor with a star. -/
theorem ReadsKey.begins {ws : List Word} {e : Expr} (h : ReadsKey ws e) :
    ∃ w tail, ws = w :: tail ∧ w.kind ≠ .closeBrace ∧ w.kind ≠ .doubleStar ∧ w.kind ≠ .equal := by
  obtain h | ⟨h, -⟩ := h
  · obtain ⟨w, tail, hws, hw⟩ := h.begins
    refine ⟨w, tail, hws, ?_, ?_, ?_⟩ <;> intro hkind <;> exact nomatch hkind ▸ hw
  · obtain ⟨w, tail, hws, hw, -⟩ := h.begins
    exact ⟨w, tail, hws, hw.trans_ne nofun, hw.trans_ne nofun, hw.trans_ne nofun⟩

/-- The words of an entry close their brackets. -/
theorem EntryPiece.Reads.closes {x : EntryPiece} (h : x.Reads) : ClosesBrackets x.words :=
  h.key.closes.append (.cons rfl rfl h.pattern.closes)

/-- The entries of a mapping that have been read, without its rest. -/
def ShowsEntries (draft : MappingDraft) (entries : List (Expr × Pattern)) : Prop :=
  draft.entries.map Expr.bare Pattern.bare = .ofRows entries ∧ draft.rest = none

/-- The entries of a mapping with one more. -/
def EntryPiece.add (entries : List (Expr × Pattern)) (x : EntryPiece) :
    Option (List (Expr × Pattern)) :=
  some (entries ++ [x.value])

theorem EntryPiece.foldlM_add (pieces : List EntryPiece) (entries : List (Expr × Pattern)) :
    pieces.foldlM EntryPiece.add entries = some (entries ++ pieces.map EntryPiece.value) := by
  induction pieces generalizing entries with
  | nil => rw [List.foldlM_nil, List.map_nil, List.append_nil]; rfl
  | cons x pieces ih =>
    rw [List.foldlM_cons, EntryPiece.add, List.map_cons]
    exact (ih _).trans (by rw [List.append_assoc, List.singleton_append])

/-- An entry is taken in front of a comma, behind which the mapping goes on, or of its end. -/
theorem Parse.mappingStep_run {x : EntryPiece} (h : x.Reads) (field : FieldReading) {n : Nat}
    (hn : x.words.length < n) {found : MappingDraft}
    {entries : List (Expr × Pattern)} (hfound : ShowsEntries found entries) {c : Cursor} {f : Word}
    {more : List Word} (hc : c.words = x.words ++ f :: more)
    (hf : PatternLevel.whole.endsAt f.kind) :
    ∃ found' c', ShowsEntries found' (entries ++ [x.value]) ∧ c'.words = f :: more ∧
      mappingStep (patternUpTo field n) field found c =
        if f.kind = .comma then .ok (.yield found') c'.advance else .ok (.done found') c' := by
  obtain ⟨hentries, hrest⟩ := hfound
  have hlength := hn
  rw [EntryPiece.words, List.length_append, List.length_cons] at hlength
  rw [EntryPiece.words, List.append_assoc, List.cons_append] at hc
  obtain ⟨key, c₁, hkey, hc₁, hkey'⟩ := h.key.run field hc rfl
  obtain ⟨v, c', hrun, hc', hv⟩ := h.pattern.inner field (n := n) (by omega)
    (Cursor.words_advance hc₁ (by simp)) hf
  obtain ⟨w, tail, hws, hclose, hstar, -⟩ := h.key.begins
  have hc₀ : c.words = w :: (tail ++ Word.colon :: (x.pattern.1 ++ f :: more)) := by
    rw [hc, hws]
    rfl
  let added : MappingDraft := { found with entries := (found.entries.addLeft key).addRight v }
  refine ⟨added, c', ⟨?_, hrest⟩, hc', ?_⟩
  · rw [Columns.map_addRight, Columns.map_addLeft, hentries, hkey', hv, EntryPiece.value,
      Columns.ofRows_concat]
  · rw [mappingStep, bind_ok (at?_run hc₀ _), if_neg (by simpa using hclose),
      bind_ok (accept_false hc₀ hstar), if_neg (by simp), bind_ok hkey,
      bind_ok (expect_run .mappingColon hc₁ rfl)]
    dsimp only
    rw [bind_ok hrun]
    split
    · rename_i hcomma
      rw [bind_ok (accept_true hc' hcomma)]
      rfl
    · rename_i hcomma
      rw [bind_ok (accept_false hc' hcomma)]
      rfl

/-- The words of the rest of a mapping. -/
def restWords (rest : Option Word) : List (List Word) :=
  rest.toList.map fun name => [⟨.doubleStar, text "**"⟩, name]

/-- The entries of a mapping and its rest are read up to the closing brace. -/
theorem Parse.mappingSteps_run {pieces : List EntryPiece} {rest : Option Word}
    (h : ∀ x ∈ pieces, x.Reads) (hrest : ∀ name ∈ rest, name.kind = .identifier)
    (field : FieldReading) {n : Nat}
    (hn : ([Word.comma].intercalate (pieces.map EntryPiece.words ++ restWords rest)).length < n)
    {c : Cursor} {f : Word} {more : List Word} (hf : f.kind = .closeBrace)
    (hc : c.words =
      [Word.comma].intercalate (pieces.map EntryPiece.words ++ restWords rest) ++ f :: more) :
    ∃ entries c', iterate (mappingStep (patternUpTo field n) field) ⟨.empty, none⟩ c =
        .ok ⟨entries, rest.map Word.text⟩ c' ∧ c'.words = f :: more ∧
      entries.map Expr.bare Pattern.bare = .ofRows (pieces.map EntryPiece.value) := by
  have hlength : ∀ x ∈ pieces, x.words.length < n := fun x hx =>
    Nat.lt_of_le_of_lt (length_le_length_intercalate
      (List.mem_append_left _ (List.mem_map_of_mem hx))) hn
  have hyields : ∀ x ∈ pieces, YieldsPiece (mappingStep (patternUpTo field n) field) ShowsEntries
      EntryPiece.add EntryPiece.words x := by
    intro x hx found entries entries' c more hmore hfound hadd hc
    obtain rfl := Option.some.inj hadd
    obtain ⟨found', c', hfound', hc', hstep⟩ :=
      mappingStep_run (h x hx) field (hlength x hx) hfound hc rfl
    exact ⟨found', c'.advance, hstep.trans (if_pos rfl), Cursor.words_advance hc' hmore, hfound'⟩
  have hadd := EntryPiece.foldlM_add pieces []
  rw [List.nil_append] at hadd
  have hnone : ShowsEntries ⟨.empty, none⟩ [] := ⟨rfl, rfl⟩
  cases rest with
  | some name =>
    -- all entries have a comma behind them, and the rest ends the mapping
    rw [restWords, Option.toList_some, List.map_singleton, intercalate_concat, List.append_assoc,
      List.cons_append] at hc
    obtain ⟨⟨entries, found⟩, c₁, k, hrun, hc₁, hentries, hfound⟩ :=
      iterate_pieces hyields hadd hnone hc
    have hc₂ := Cursor.words_advance hc₁ (by simp)
    have hc₃ := Cursor.words_advance hc₂ (by simp)
    have htext : c₁.advance.peek.text = name.text := congrArg Word.text (Cursor.word_peek hc₂)
    have hexpect : expectName .mappingRest c₁.advance = .ok c₁.advance.peek c₁.advance.advance := by
      rw [expectName, bind_ok (at?_run hc₂ _), if_pos (by simpa using hrest name rfl)]
      rfl
    refine ⟨entries, c₁.advance.advance, hrun.trans (iterateUpTo_done ?_ k), hc₃, hentries⟩
    rw [mappingStep, bind_ok (at?_run hc₁ _), if_neg (by decide),
      bind_ok (accept_true (k := .doubleStar) hc₁ rfl), if_pos rfl, bind_ok hexpect,
      bind_ok (accept_false (k := .comma) hc₃ (hf.trans_ne (by rintro ⟨⟩))), htext]
    rfl
  | none =>
    rw [restWords, Option.toList_none, List.map_nil, List.append_nil] at hc
    obtain rfl | ⟨init, last, rfl⟩ := List.eq_nil_or_concat' pieces
    · refine ⟨.empty, c, ?_, hc, rfl⟩
      rw [iterate_run _ _ hc]
      refine iterateUpTo_done ?_ _
      rw [mappingStep, bind_ok (at?_run hc _), if_pos (by simpa using hf)]
      rfl
    · obtain ⟨w, tail, hw, -⟩ := (h last (by simp)).key.begins
      obtain ⟨⟨entries, found⟩, c', hrun, hc', hentries, hfound⟩ := iterate_concat
        (fun x hx => hyields x (by simp [hx])) (fun {found entries c} hfound hadd hc => by
          obtain ⟨found', c', hfound', hc', hstep⟩ := mappingStep_run (h last (by simp)) field
            (hlength last (by simp)) hfound hc (by rw [hf]; rfl)
          rw [show entries ++ [last.value] = _ from Option.some.inj hadd] at hfound'
          exact ⟨found', c', hstep.trans (if_neg (by rw [hf]; rintro ⟨⟩)), hc', hfound'⟩)
        hadd hnone (by simp [EntryPiece.words, hw]) hc
      obtain rfl : found = none := hfound
      exact ⟨entries, c', hrun, hc', hentries⟩

/-- A mapping in braces. -/
theorem ReadsPattern.mapping {pieces : List EntryPiece} {rest : Option Word} {o close : Word}
    (ho : o.kind = .openBrace) (hclose : close.kind = .closeBrace) (h : ∀ x ∈ pieces, x.Reads)
    (hrest : ∀ name ∈ rest, name.kind = .identifier) :
    ReadsPattern .closed
      (o :: ([Word.comma].intercalate (pieces.map EntryPiece.words ++ restWords rest) ++ [close]))
      (.new (.mapping (pieces.map EntryPiece.value) (rest.map Word.text))) where
  toOpensPattern := by
    refine .bracketed rfl (by rw [ho]; rfl) (by rw [hclose]; rfl) ?_ ?_
    · refine second_ne_equal (hclose.trans_ne nofun) (List.forall_mem_append.mpr ⟨?_, ?_⟩)
      · refine List.forall_mem_map.mpr fun x hx => ?_
        obtain ⟨w, tail, hw, -, -, hequal⟩ := (h x hx).key.begins
        exact ⟨w, _, by rw [EntryPiece.words, hw]; rfl, hequal⟩
      · exact List.forall_mem_map.mpr fun name _ => ⟨_, [name], rfl, nofun⟩
    · refine .intercalate (.single rfl rfl) (List.forall_mem_append.mpr ⟨?_, ?_⟩)
      · exact List.forall_mem_map.mpr fun x hx => (h x hx).closes
      · refine List.forall_mem_map.mpr fun name hname => ?_
        have hkind := hrest name (Option.mem_toList.mp hname)
        exact .cons rfl rfl (.single (by rw [hkind]; rfl) (by rw [hkind]; rfl))
  run := by
    intro field n c f more hn hc hf
    rw [List.length_cons, List.length_append] at hn
    rw [List.cons_append, List.append_assoc] at hc
    obtain ⟨entries, c', hrun, hc', hentries⟩ := mappingSteps_run h hrest field (n := n)
      (by omega) hclose (Cursor.words_advance hc (by simp))
    refine ⟨.node (c'.advance.spanFrom c.peek.start) (.mapping entries.rows (rest.map Word.text)),
      c'.advance, ?_, Cursor.words_advance hc' (by simp), ?_⟩
    · show closedPattern _ _ c = _
      rw [closedPattern, bind_ok (peek_run c), Cursor.kind_peek hc, ho]
      dsimp only
      rw [bind_ok (next_run c), mappingPattern, bind_ok hrun,
        bind_ok (expect_run .mappingClose hc' hclose)]
      rfl
    · rw [Pattern.bare, Pattern.Shape.bare, Pattern.bareEntries_eq_map,
        Columns.map_rows_of_map_eq hentries]
      rfl

end SyntaxTree
