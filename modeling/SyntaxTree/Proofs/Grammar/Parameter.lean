import SyntaxTree.Proofs.Grammar.Columns
import SyntaxTree.Proofs.Grammar.Phrase
import SyntaxTree.Proofs.Grammar.Separated
import SyntaxTree.Proofs.Tree.Signature

/-
# Parameter lists in words

The words of a parameter list are taken item by item.  Each item is added to the sections that have
been read if they admit it, and refused otherwise, so that exactly the legal lists are read, and are
read as their sections.
-/

namespace SyntaxTree

open Parse

/-- Words that are an item of a parameter list. -/
inductive ReadsParameter : ParameterItem → List Word → Prop where
  | plain (name : Bytes) : ReadsParameter (.plain name none) [⟨.identifier, name⟩]
  | default (name : Bytes) {ws : List Word} {e : Expr} (h : Reads .expression ws e) :
    ReadsParameter (.plain name (some e)) (⟨.identifier, name⟩ :: ⟨.equal, text "="⟩ :: ws)
  | slash : ReadsParameter .slash [⟨.slash, text "/"⟩]
  | bareStar : ReadsParameter (.star none) [⟨.star, text "*"⟩]
  | star (name : Bytes) :
    ReadsParameter (.star (some name)) [⟨.star, text "*"⟩, ⟨.identifier, name⟩]
  | doubleStar (name : Bytes) :
    ReadsParameter (.doubleStar name) [⟨.doubleStar, text "**"⟩, ⟨.identifier, name⟩]

/-- The places of parameter lists: between parentheses, where parameters can have annotations, and
in front of the colon of a lambda. -/
inductive ListsParameters : (close : TokenKind) → (annotated : Bool) → Prop where
  | definition : ListsParameters .closeParen true
  | lambda : ListsParameters .colon false

/-- What can stand behind a parameter without an annotation. -/
structure TokenKind.EndsParameter (annotated : Bool) (kind : TokenKind) : Prop where
  expression : kind.Ends .expression
  notName : kind ≠ .identifier
  notEqual : kind ≠ .equal
  notColon : annotated = true → kind ≠ .colon

theorem ListsParameters.ends {close : TokenKind} {annotated : Bool}
    (h : ListsParameters close annotated) {kind : TokenKind}
    (hkind : kind = .comma ∨ kind = close) : kind.EndsParameter annotated := by
  cases h <;> obtain rfl | rfl := hkind <;> exact ⟨by decide, nofun, nofun, nofun⟩

/-! ## Drafts -/

/-- A draft holds the sections that have been read. -/
structure Parse.ParameterDraft.Shows (draft : ParameterDraft) (x : Signature) : Prop where
  positionalOnly :
    draft.positionalOnly.map Parameter.bare = x.positionalOnly.map (Signature.parameter ·.1)
  positional : draft.positional.map Parameter.bare = x.positional.map (Signature.parameter ·.1)
  star : draft.star.isSome = x.star
  variadic : draft.variadic.map Parameter.bare = x.variadic.map Signature.parameter
  keywordOnly : draft.keywordOnly.map Parameter.bare Expr.bareOption =
    .ofRows (x.keywordOnly.map fun p => (Signature.parameter p.1, p.2))
  variadicKeyword :
    draft.variadicKeyword.map Parameter.bare = x.variadicKeyword.map Signature.parameter
  defaults :
    draft.defaults.map Expr.bare = (x.positionalOnly ++ x.positional).filterMap (·.2)
  wellFormed : x.WellFormed

namespace Parse

variable {draft : ParameterDraft} {x : Signature} {c : Cursor} {name : Bytes} {f : Word}
  {more ws : List Word} {annotated : Bool}

theorem ParameterDraft.Shows.empty : ParameterDraft.empty.Shows .empty :=
  ⟨rfl, rfl, rfl, rfl, rfl, rfl, rfl, .empty⟩

/-- The parameters of a draft are those of its sections. -/
theorem ParameterDraft.Shows.bare (h : draft.Shows x) : draft.parameters.bare = x.parameters := by
  have hkeywords : (draft.keywordOnly.rows.map fun row => KeywordOnly.mk row.1 row.2).map
      KeywordOnly.bare = x.keywordOnly.map fun p => .mk (Signature.parameter p.1) p.2 := by
    have hpairs := congrArg (List.map fun row => KeywordOnly.mk row.1 row.2)
      (Columns.map_rows_of_map_eq h.keywordOnly)
    rw [List.map_map, List.map_map] at hpairs
    rw [List.map_map]
    exact hpairs
  rw [ParameterDraft.parameters, Parameters.bare, Parameter.bareAll_eq_map,
    Parameter.bareAll_eq_map, Parameter.bareOption_eq_map, KeywordOnly.bareAll_eq_map,
    Parameter.bareOption_eq_map, Expr.bareAll_eq_map, h.positionalOnly, h.positional, h.variadic,
    hkeywords, h.variadicKeyword, h.defaults]
  rfl

/-- A reading adds an item to the sections if they admit it, and fails otherwise. -/
structure ExtendsDraft (reading : Parse ParameterDraft) (c : Cursor) (x : Signature)
    (item : ParameterItem) (left : List Word) : Prop where
  adds : x.admits item → ∃ draft c', reading c = .ok draft c' ∧ c'.words = left ∧
    draft.Shows (x.extend item)
  refuses : ¬ x.admits item → ∃ e c', reading c = .error e c'

theorem ExtendsDraft.of_eq {reading reading' : Parse ParameterDraft} {c' : Cursor}
    {item : ParameterItem} {left : List Word} (h : ExtendsDraft reading' c' x item left)
    (heq : reading c = reading' c') : ExtendsDraft reading c x item left :=
  ⟨fun hadmits => heq ▸ h.adds hadmits, fun hrefuses => heq ▸ h.refuses hrefuses⟩

/-! ## Items -/

/-- A parameter without an annotation is a name. -/
theorem parameter_run (read : Reading) (starHint : Bool)
    (hc : c.words = ⟨.identifier, name⟩ :: f :: more) (hf : annotated = true → f.kind ≠ .colon) :
    parameter read annotated starHint c =
      .ok (.mk (c.advance.spanFrom c.peek.start) name none) c.advance := by
  have hadvance := Cursor.words_advance hc (by simp)
  have hname : c.peek.text = name := congrArg Word.text (Cursor.word_peek hc)
  have hexpect : expectName .parameter c = .ok c.peek c.advance := by
    rw [expectName, bind_ok (at?_run hc _), if_pos (by rfl)]
    rfl
  have hhint (value : Parse Expr) :
      parameterHint annotated value c.advance = .ok none c.advance := by
    cases annotated with
    | false => rfl
    | true =>
      rw [parameterHint, if_pos rfl, bind_ok (accept_false hadvance (hf rfl))]
      rfl
  rw [parameter, bind_ok hexpect, bind_ok (hhint _), hname]
  rfl

section Marks

variable (hs : draft.Shows x) (hlast : x.variadicKeyword = none)

include hs hlast

/-- A slash makes the parameters in front of it positional-only. -/
theorem slashParameter_run {w : Word} (hc : c.words = w :: f :: more) :
    ExtendsDraft (slashParameter draft) c x .slash (f :: more) := by
  have hfirst : draft.positionalOnly.length = 0 ↔ x.positionalOnly = [] := by
    have hlength := congrArg List.length hs.positionalOnly
    rw [List.length_map, List.length_map] at hlength
    rw [hlength, List.length_eq_zero_iff]
  have hsecond : draft.positional.length = 0 ↔ x.positional = [] := by
    have hlength := congrArg List.length hs.positional
    rw [List.length_map, List.length_map] at hlength
    rw [hlength, List.length_eq_zero_iff]
  have hadmits : x.admits .slash ↔ x.positionalOnly = [] ∧ x.star = false ∧ x.positional ≠ [] := by
    simp [Signature.admits, hlast, and_assoc]
  rw [← hs.star, ← hfirst, ne_eq, ← hsecond] at hadmits
  constructor
  · intro h
    obtain ⟨hx, hstar, hne⟩ := hadmits.mp h
    refine ⟨{ draft with positionalOnly := draft.positional, positional := [] }, c.advance, ?_,
      Cursor.words_advance hc (by simp), hs.positional, rfl, hs.star, hs.variadic, hs.keywordOnly,
      hs.variadicKeyword, ?_, hs.wellFormed.extend h⟩
    · rw [slashParameter, bind_ok (next_run c), if_neg (not_not_intro hx),
        if_neg (by simp [hstar]), if_neg hne]
      rfl
    · have hdefaults := hs.defaults
      rw [hfirst.mp hx] at hdefaults
      simpa [Signature.extend] using hdefaults
  · intro h
    rw [slashParameter, bind_ok (next_run c)]
    by_cases hx : draft.positionalOnly.length = 0
    · rw [if_neg (not_not_intro hx)]
      by_cases hstar : draft.star.isSome
      · exact ⟨_, _, by rw [if_pos hstar]; rfl⟩
      · rw [if_neg hstar, if_pos]
        · exact ⟨_, _, rfl⟩
        · by_contra hne
          exact h (hadmits.mpr ⟨hx, by simpa using hstar, hne⟩)
    · exact ⟨_, _, by rw [if_pos hx]; rfl⟩

/-- A star admits no other one in front of it. -/
theorem admits_star_iff (name : Option Bytes) :
    x.admits (.star name) ↔ ¬ draft.star.isSome := by
  simp [Signature.admits, hlast, hs.star]

/-- A star alone. -/
theorem starParameter_bare (read : Reading) {w : Word} (hc : c.words = w :: f :: more)
    (hf : f.kind ≠ .identifier) :
    ExtendsDraft (starParameter read annotated draft) c x (.star none) (f :: more) := by
  have hadvance := Cursor.words_advance hc (by simp)
  constructor
  · intro h
    have hnone := (admits_star_iff hs hlast none).mp h
    obtain ⟨hvariadic, -⟩ := hs.wellFormed.star (hs.star ▸ Bool.eq_false_iff.mpr hnone)
    refine ⟨{ draft with star := some c.peek }, c.advance, ?_, hadvance, hs.positionalOnly,
      hs.positional, rfl, ?_, hs.keywordOnly, hs.variadicKeyword, hs.defaults,
      hs.wellFormed.extend h⟩
    · rw [starParameter, bind_ok (next_run c), if_neg hnone,
        bind_ok (at?_run hadvance _), if_neg (by simpa using hf)]
      rfl
    · exact hs.variadic.trans (congrArg _ hvariadic)
  · intro h
    have hsome := not_not.mp (mt (admits_star_iff hs hlast none).mpr h)
    rw [starParameter, bind_ok (next_run c), if_pos hsome]
    exact ⟨_, _, rfl⟩

/-- A star with a name. -/
theorem starParameter_named (read : Reading) {w : Word}
    (hc : c.words = w :: ⟨.identifier, name⟩ :: f :: more) (hf : f.kind.EndsParameter annotated) :
    ExtendsDraft (starParameter read annotated draft) c x (.star (some name)) (f :: more) := by
  have hadvance := Cursor.words_advance hc (by simp)
  have hbehind := Cursor.words_advance hadvance (by simp)
  let added : Parameter := .mk (c.advance.advance.spanFrom c.advance.peek.start) name none
  constructor
  · intro h
    have hnone := (admits_star_iff hs hlast (some name)).mp h
    refine ⟨{ draft with star := some c.peek, variadic := some added }, c.advance.advance, ?_,
      hbehind, hs.positionalOnly, hs.positional, rfl, rfl, hs.keywordOnly, hs.variadicKeyword,
      hs.defaults, hs.wellFormed.extend h⟩
    rw [starParameter, bind_ok (next_run c), if_neg hnone,
      bind_ok (at?_run hadvance _), if_pos (by rfl),
      bind_ok (parameter_run read true hadvance hf.notColon), bind_ok (at?_run hbehind _),
      if_neg (by simpa using hf.notEqual)]
    rfl
  · intro h
    have hsome := not_not.mp (mt (admits_star_iff hs hlast (some name)).mpr h)
    rw [starParameter, bind_ok (next_run c), if_pos hsome]
    exact ⟨_, _, rfl⟩

/-- Two stars with a name. -/
theorem keywordsParameter_run (read : Reading) {w : Word}
    (hc : c.words = w :: ⟨.identifier, name⟩ :: f :: more) (hf : f.kind.EndsParameter annotated) :
    ExtendsDraft (keywordsParameter read annotated draft) c x (.doubleStar name) (f :: more) := by
  have hadvance := Cursor.words_advance hc (by simp)
  have hbehind := Cursor.words_advance hadvance (by simp)
  have hadmits : x.admits (.doubleStar name) := by simp [Signature.admits, hlast]
  let added : Parameter := .mk (c.advance.advance.spanFrom c.advance.peek.start) name none
  refine ⟨fun h => ?_, fun h => absurd hadmits h⟩
  refine ⟨{ draft with variadicKeyword := some added }, c.advance.advance, ?_, hbehind,
    hs.positionalOnly, hs.positional, hs.star, hs.variadic, hs.keywordOnly, rfl, hs.defaults,
    hs.wellFormed.extend h⟩
  rw [keywordsParameter, bind_ok (next_run c),
    bind_ok (parameter_run read false hadvance hf.notColon), bind_ok (at?_run hbehind _),
    if_neg (by simpa using hf.notEqual)]
  rfl

/-- Behind a star, parameters are given by keyword only; in front of it none without a default
follows one with a default. -/
theorem addPlain_run (span : Span) (name : Bytes) (default : Option Expr)
    (hc : c.words = f :: more) :
    ExtendsDraft (addPlain draft span name none default) c x
      (.plain name (Expr.bareOption default)) (f :: more) := by
  have hdefault : (Expr.bareOption default).isSome = default.isSome := by cases default <;> rfl
  -- The draft has a default exactly if some positional parameter has one.
  have hnone : (x.positionalOnly ++ x.positional).all (·.2.isNone) ↔ draft.defaults.length = 0 := by
    rw [← List.length_map Expr.bare, hs.defaults, List.length_eq_zero_iff,
      List.filterMap_eq_nil_iff, List.all_eq_true]
    simp only [Option.isNone_iff_eq_none]
  have hadmits : x.admits (.plain name (Expr.bareOption default)) ↔
      draft.star.isSome ∨ default.isSome ∨ draft.defaults.length = 0 := by
    simp only [Signature.admits, hlast, hdefault, ← hs.star, Option.isNone_none, Bool.true_and,
      Bool.or_eq_true, hnone, or_assoc]
  unfold addPlain
  -- Behind a star a name and its default make a row; in front of it they go to lists of their own.
  by_cases hstar : draft.star.isSome
  · have hx : x.star = true := hs.star ▸ hstar
    rw [if_pos hstar]
    refine ⟨fun h => ⟨_, c, rfl, hc, ?_⟩, fun h => absurd (hadmits.mpr (.inl hstar)) h⟩
    have hwellFormed := hs.wellFormed.extend h
    rw [Signature.extend, if_pos hx] at hwellFormed ⊢
    refine ⟨hs.positionalOnly, hs.positional, hs.star, hs.variadic, ?_, hs.variadicKeyword,
      hs.defaults, hwellFormed⟩
    rw [Columns.map_addRight, Columns.map_addLeft, hs.keywordOnly, List.map_append,
      List.map_singleton, Columns.ofRows_concat]
    rfl
  · have hx : ¬ x.star = true := hs.star ▸ hstar
    rw [if_neg hstar]
    let parameter : Parameter := .mk span name none
    have hshows (h : x.admits (.plain name (Expr.bareOption default))) (defaults : List Expr)
        (hdefaults : defaults.map Expr.bare =
          draft.defaults.map Expr.bare ++ (Expr.bareOption default).toList) :
        { draft with positional := draft.positional ++ [parameter], defaults := defaults }.Shows
          (x.extend (.plain name (Expr.bareOption default))) := by
      have hwellFormed := hs.wellFormed.extend h
      rw [Signature.extend, if_neg hx] at hwellFormed ⊢
      refine ⟨hs.positionalOnly, ?_, hs.star, hs.variadic, hs.keywordOnly, hs.variadicKeyword, ?_,
        hwellFormed⟩
      · rw [List.map_append, List.map_append, hs.positional, List.map_singleton,
          List.map_singleton]
        rfl
      · rw [hdefaults, hs.defaults, List.filterMap_append, List.filterMap_append,
          List.filterMap_append, List.append_assoc]
        cases default <;> rfl
    cases default with
    | some value =>
      refine ⟨fun h => ⟨_, c, rfl, hc, hshows h _ (by simp)⟩, fun h => absurd ?_ h⟩
      exact hadmits.mpr (.inr (.inl rfl))
    | none =>
      by_cases hlength : draft.defaults.length = 0
      · refine ⟨fun h => ⟨_, c, ?_, hc, hshows h draft.defaults (by simp)⟩, fun h => absurd ?_ h⟩
        · rw [if_neg (not_not_intro hlength)]
          rfl
        · exact hadmits.mpr (.inr (.inr hlength))
      · refine ⟨fun h => absurd (hadmits.mp h) (by simp [hstar, hlength]), fun _ => ?_⟩
        exact ⟨_, _, by rw [if_pos hlength]; rfl⟩

end Marks

/-- An item is added to the sections if they admit it. -/
theorem addParameter_run {item : ParameterItem} (hs : draft.Shows x)
    (hitem : ReadsParameter item ws) (field : FieldReading) {n : Nat} (hn : ws.length < n)
    (hc : c.words = ws ++ f :: more) (hf : f.kind.EndsParameter annotated) :
    ExtendsDraft (addParameter (readUpTo field n) annotated draft) c x item (f :: more) := by
  have hdouble : draft.variadicKeyword.isSome = x.variadicKeyword.isSome := by
    simpa using congrArg Option.isSome hs.variadicKeyword
  -- Nothing may stand behind the keywords parameter; otherwise the first word tells the item.
  cases hlast : x.variadicKeyword with
  | some name =>
    have hrefused : x.admits item = false := by simp [Signature.admits, hlast]
    refine ⟨fun h => absurd h (by simp [hrefused]), fun _ => ?_⟩
    exact ⟨_, _, by rw [addParameter, if_pos (by simp [hdouble, hlast])]; rfl⟩
  | none =>
    have hopen : ¬ draft.variadicKeyword.isSome := by simp [hdouble, hlast]
    cases hitem with
    | slash =>
      refine (slashParameter_run hs hlast hc).of_eq ?_
      rw [addParameter, if_neg hopen, bind_ok (kind_run hc)]
    | bareStar =>
      have hbare : ExtendsDraft (starParameter (readUpTo field n) annotated draft) c x _ _ :=
        starParameter_bare hs hlast _ hc hf.notName
      refine hbare.of_eq ?_
      rw [addParameter, if_neg hopen, bind_ok (kind_run hc)]
    | star name =>
      refine (starParameter_named hs hlast (readUpTo field n) hc hf).of_eq ?_
      rw [addParameter, if_neg hopen, bind_ok (kind_run hc)]
    | doubleStar name =>
      refine (keywordsParameter_run hs hlast (readUpTo field n) hc hf).of_eq ?_
      rw [addParameter, if_neg hopen, bind_ok (kind_run hc)]
    | plain name =>
      have hadvance := Cursor.words_advance hc (by simp)
      refine (addPlain_run hs hlast (c.advance.spanFrom c.peek.start) name none hadvance).of_eq ?_
      rw [addParameter, if_neg hopen, bind_ok (kind_run hc)]
      show plainParameter _ _ _ c = _
      rw [plainParameter, bind_ok (parameter_run _ false hc hf.notColon)]
      dsimp only
      rw [bind_ok (accept_false hadvance hf.notEqual)]
      rfl
    | @default name ws e h =>
      have hequal := Cursor.words_advance hc (by simp)
      have hvalue := Cursor.words_advance hequal (by simp)
      rw [List.length_cons, List.length_cons] at hn
      obtain ⟨v, c', hrun, hc', rfl⟩ := h.read (g := .expression) field (n := n) (by omega) hvalue
        hf.expression
      have hdefault : (some <$> readUpTo field n .expression) c.advance.advance =
          .ok (some v) c' := bind_ok hrun
      refine (addPlain_run hs hlast (c.advance.spanFrom c.peek.start) name (some v) hc').of_eq ?_
      rw [addParameter, if_neg hopen, bind_ok (kind_run hc)]
      show plainParameter _ _ _ c = _
      rw [plainParameter, bind_ok (parameter_run _ false hc (fun _ => by rintro ⟨⟩))]
      dsimp only
      rw [bind_ok (accept_true (k := .equal) hequal rfl), if_pos rfl, bind_ok hdefault]

/-! ## Whole lists -/

/-- The draft at the end of a list has a star that is not left bare exactly if its sections are
complete. -/
theorem ParameterDraft.Shows.isComplete_iff (h : draft.Shows x) : x.IsComplete ↔
    (draft.star.isSome → ¬ (draft.variadic.isNone ∧ draft.keywordOnly.left.length = 0)) := by
  have hvariadic : draft.variadic.isNone = x.variadic.isNone := by
    simpa using congrArg Option.isNone h.variadic
  have hkeywords : draft.keywordOnly.left.length = x.keywordOnly.length := by
    simpa [Columns.ofRows] using congrArg (List.length ∘ Columns.left) h.keywordOnly
  have hsome : ¬ x.variadic.isNone = true ↔ x.variadic.isSome = true := by
    rw [← Option.not_isSome, Bool.not_eq_true', Bool.not_eq_false]
  rw [Signature.IsComplete, h.star, hvariadic, hkeywords, List.length_eq_zero_iff, not_and_or,
    hsome]

section Lists

variable {items : List ParameterItem} {wss : List (List Word)} {close : TokenKind}
  {trailing : List Word} (h : List.Forall₂ ReadsParameter items wss)
  (hplace : ListsParameters close annotated) (field : FieldReading) {n : Nat}
  (hn : ([Word.comma].intercalate wss).length < n)
  (htrailing : trailing = [] ∨ trailing = [Word.comma] ∧ items ≠ [])
  (hc : c.words = [Word.comma].intercalate wss ++ trailing ++ f :: more) (hf : f.kind = close)

include h hplace hn htrailing hc hf

/-- A list is taken item by item: either all of its items are admitted, or the reading fails. -/
theorem parameterSteps_run :
    Decides (Signature.empty.ofItems items) ParameterDraft.Shows
      (iterate (parameterStep (readUpTo field n) close annotated) .empty) c (f :: more) := by
  refine iterate_pieceStep_decides h ?_ (fun hitem => ?_) (fun hitem hn hs hc hf => ?_) hn .empty
    htrailing hc hf
  · cases hplace <;> rintro ⟨⟩
  · cases hitem <;> cases hplace <;> exact ⟨_, _, rfl, by rintro ⟨⟩⟩
  · have hextends := addParameter_run hs hitem field hn hc (hplace.ends hf)
    exact .of_admits hextends.adds hextends.refuses

/-- A legal list is read as its sections. -/
theorem parameters_run (hlegal : ParameterItem.Legal items) :
    ∃ ps c' x, parameters (readUpTo field n) close annotated c = .ok ps c' ∧ c'.words = f :: more ∧
      Signature.empty.ofItems items = some x ∧ x.IsComplete ∧ ps.bare = x.parameters := by
  obtain ⟨x, hx, hcomplete⟩ := Signature.legal_iff.mp hlegal
  obtain ⟨draft, c', hrun, hc', hs⟩ :=
    (parameterSteps_run h hplace field hn htrailing hc hf).adds hx
  refine ⟨draft.parameters, c', x, ?_, hc', hx, hcomplete, hs.bare⟩
  rw [parameters, bind_ok hrun]
  cases hstar : draft.star with
  | none => rfl
  | some star =>
    dsimp only
    rw [if_neg (hs.isComplete_iff.mp hcomplete (by rw [hstar]; rfl))]
    rfl

/-- A list that is not legal is refused. -/
theorem parameters_error (hillegal : ¬ ParameterItem.Legal items) :
    ∃ e c', parameters (readUpTo field n) close annotated c = .error e c' := by
  have hdecides := parameterSteps_run h hplace field hn htrailing hc hf
  cases hx : Signature.empty.ofItems items with
  | none =>
    obtain ⟨e, c', hrun⟩ := hdecides.refuses hx
    exact ⟨e, c', by rw [parameters, bind_error hrun]⟩
  | some x =>
    obtain ⟨draft, c', hrun, -, hs⟩ := hdecides.adds hx
    have hcomplete : ¬ x.IsComplete := fun hcomplete =>
      hillegal (Signature.legal_iff.mpr ⟨x, hx, hcomplete⟩)
    rw [hs.isComplete_iff, Classical.not_imp, not_not] at hcomplete
    obtain ⟨star, hstar⟩ := Option.isSome_iff_exists.mp hcomplete.1
    rw [parameters, bind_ok hrun, hstar]
    dsimp only
    rw [if_pos hcomplete.2]
    exact ⟨_, _, rfl⟩

/-- Exactly the legal lists are read. -/
theorem exists_parameters_iff :
    (∃ ps c', parameters (readUpTo field n) close annotated c = .ok ps c') ↔
      ParameterItem.Legal items := by
  constructor
  · rintro ⟨ps, c', hrun⟩
    by_contra hillegal
    obtain ⟨e, c'', hfail⟩ := parameters_error h hplace field hn htrailing hc hf hillegal
    exact nomatch hrun.symm.trans hfail
  · intro hlegal
    obtain ⟨ps, c', -, hrun, -⟩ := parameters_run h hplace field hn htrailing hc hf hlegal
    exact ⟨ps, c', hrun⟩

/-- What is read holds the items of the list in their order, each default with the parameter that
carried it, and nothing else. -/
theorem items_of_parameters {ps : Parameters} {c' : Cursor}
    (hrun : parameters (readUpTo field n) close annotated c = .ok ps c') :
    c'.words = f :: more ∧ ps.bare.items = items ∧
      ∃ x : Signature, x.items = items ∧ ps.bare = x.parameters := by
  have hlegal := (exists_parameters_iff h hplace field hn htrailing hc hf).mp ⟨ps, c', hrun⟩
  obtain ⟨ps', c'', x, hrun', hc', hx, hcomplete, hps⟩ :=
    parameters_run h hplace field hn htrailing hc hf hlegal
  obtain ⟨rfl, rfl⟩ := EStateM.Result.ok.inj (hrun.symm.trans hrun')
  obtain ⟨hitems, hwellFormed⟩ := Signature.items_ofItems .empty hx
  replace hitems : x.items = items := hitems
  exact ⟨hc', by rw [hps, Signature.items_parameters hwellFormed hcomplete, hitems],
    x, hitems, hps⟩

end Lists

end Parse

/-! ## Lambdas -/

/-- A parameter list opens neither an assignment nor a keyword argument. -/
theorem ReadsParameter.begins {item : ParameterItem} {ws : List Word} (h : ReadsParameter item ws) :
    ∃ w tail, ws = w :: tail ∧ w.kind ≠ .colonEqual ∧ w.kind ≠ .equal := by
  cases h <;> exact ⟨_, _, rfl, nofun, nofun⟩

/-- A lambda with a legal list of parameters. -/
theorem Reads.lambdaOf {items : List ParameterItem} {wss : List (List Word)} {x : Signature}
    (h : List.Forall₂ ReadsParameter items wss) (hx : Signature.empty.ofItems items = some x)
    (hcomplete : x.IsComplete) {ws : List Word} {e : Expr} (hbody : Reads .expression ws e) :
    Reads .expression
      (⟨.kwLambda, text "lambda"⟩ :: ([Word.comma].intercalate wss ++ Word.colon :: ws))
      (.new (.lambda x.parameters e)) where
  begins := ⟨_, _, rfl, by decide⟩
  second := by
    intro w hw
    cases h with
    | nil =>
      obtain rfl := Option.some.inj hw
      exact ⟨nofun, nofun⟩
    | @cons item ws' items wss hitem hrest =>
      obtain ⟨first, tail, rfl, hfirst⟩ := hitem.begins
      rw [intercalate_cons] at hw
      obtain rfl := Option.some.inj hw
      exact hfirst
  notStarred := rfl
  run := by
    intro field n c f more hn hc hf
    rw [List.length_cons, List.length_append, List.length_cons] at hn
    rw [List.cons_append, List.append_assoc] at hc
    have hlist := Cursor.words_advance hc (by simp)
    rw [← List.append_nil ([Word.comma].intercalate wss)] at hlist
    obtain ⟨ps, c₁, x', hps, hc₁, hx', -, hbare⟩ := parameters_run h .lambda field (n := n)
      (by omega) (.inl rfl) hlist rfl (Signature.legal_iff.mpr ⟨x, hx, hcomplete⟩)
    obtain rfl := Option.some.inj (hx'.symm.trans hx)
    obtain ⟨v, c', hrun, hc', hv⟩ := hbody.read (g := .expression) field (n := n) (by omega)
      (Cursor.words_advance hc₁ (by simp)) hf
    refine ⟨.node (c'.spanFrom c.peek.start) (.lambda ps v), c', ?_, hc', ?_⟩
    · show Parse.expression _ _ c = _
      rw [Parse.expression, bind_ok (at?_run hc _), if_pos (by rfl), Parse.lambda,
        bind_ok (next_run c), bind_ok hps, expectColon,
        bind_ok (expect_run (.colon .lambdaParameters) hc₁ rfl), bind_ok hrun]
      rfl
    · rw [Expr.bare, Expr.Shape.bare, hv, hbare]
      rfl

end SyntaxTree
