import Mathlib.Data.List.Forall2
import SyntaxTree.Proofs.Grammar.Word

/-
# Words between commas

A list of pieces is read either piece by piece with a comma in front of each further one, or by a
loop that takes a piece and the comma behind it.  What a loop has seen so far is shown by its state.
-/

namespace SyntaxTree

/-- A comma. -/
def Word.comma : Word := ⟨.comma, SyntaxTree.text ","⟩

/-- A colon. -/
def Word.colon : Word := ⟨.colon, SyntaxTree.text ":"⟩

/-- The words of pieces with commas between them: each piece but the first has a comma in front. -/
theorem intercalate_cons {α : Type} (sign ws : List α) (wss : List (List α)) :
    sign.intercalate (ws :: wss) = ws ++ wss.flatMap (sign ++ ·) := by
  induction wss generalizing ws with
  | nil => simp
  | cons ws' wss ih =>
    rw [List.intercalate_cons_cons, ih ws', List.flatMap_cons, List.append_assoc, List.append_assoc]

/-- The words of pieces with commas between them: each piece in front of others has a comma behind
it. -/
theorem intercalate_split {α : Type} (sign ws : List α) (wss wss' : List (List α)) :
    sign.intercalate (wss ++ ws :: wss') =
      wss.flatMap (· ++ sign) ++ sign.intercalate (ws :: wss') := by
  induction wss with
  | nil => rfl
  | cons first wss ih =>
    rw [List.cons_append, List.intercalate_cons_of_ne_nil (by simp), ih, List.flatMap_cons,
      List.append_assoc, List.append_assoc, List.append_assoc]

/-- The words of pieces with commas between them: each piece but the last has a comma behind it. -/
theorem intercalate_concat {α : Type} (sign last : List α) (wss : List (List α)) :
    sign.intercalate (wss ++ [last]) = wss.flatMap (· ++ sign) ++ last := by
  rw [intercalate_split, List.intercalate_singleton]

/-- A piece is no longer than all pieces together. -/
theorem length_le_length_intercalate {α : Type} {sign ws : List α} {wss : List (List α)}
    (h : ws ∈ wss) : ws.length ≤ (sign.intercalate wss).length := by
  obtain _ | ⟨first, rest⟩ := wss
  · exact nomatch h
  rw [intercalate_cons, List.length_append]
  obtain rfl | h := List.mem_cons.mp h
  · exact Nat.le_add_right _ _
  · have hle := (List.sublist_flatten_of_mem (List.mem_map_of_mem (f := (sign ++ ·)) h)).length_le
    rw [← List.flatMap_def, List.length_append] at hle
    omega

namespace Parse

variable {α ι σ τ : Type}

/-! ## Further pieces behind commas -/

/-- Words that are read as a piece in front of a comma or of a closing word. -/
structure ReadsPiece (item : Parse α) (close : TokenKind) (ws : List Word) (result : α → Prop) :
    Prop where
  begins : ∃ w tail, ws = w :: tail ∧ w.kind ≠ close
  run : ∀ (c : Cursor) (f : Word) (more : List Word), c.words = ws ++ f :: more →
    f.kind = .comma ∨ f.kind = close → ∃ a c', item c = .ok a c' ∧ c'.words = f :: more ∧ result a

variable {item : Parse α} {close : TokenKind} {words : ι → List Word} {result : α → ι → Prop}
  {pieces : List ι} {c : Cursor} {f : Word} {more : List Word}

/-- A piece behind a comma is a further one. -/
theorem ReadsPiece.further {ws : List Word} {result : α → Prop}
    (h : ReadsPiece item close ws result) :
    ReadsItem (furtherItem (at? close) item) (fun kind => kind = .comma ∨ kind = close)
      (Word.comma :: ws) result where
  begins := ⟨Word.comma, ws, rfl, .inl rfl⟩
  run := by
    intro c f more hc hf
    have hadvance := Cursor.words_advance hc (by simp)
    obtain ⟨a, c', hrun, hc', ha⟩ := h.run c.advance f more hadvance hf
    obtain ⟨w, tail, rfl, hw⟩ := h.begins
    refine ⟨a, c', ?_, hc', ha⟩
    rw [furtherItem, bind_ok (accept_true (k := .comma) hc rfl)]
    simp only [if_true]
    rw [bind_ok (at?_run hadvance _), if_neg (by simpa using hw), bind_ok hrun]
    rfl

/-- Further pieces are read up to the closing word. -/
theorem moreItems_run (words : ι → List Word) (result : α → ι → Prop) (hclose : close ≠ .comma)
    (hpieces : ∀ i ∈ pieces, ReadsPiece item close (words i) (result · i))
    (hc : c.words = (pieces.map words).flatMap ([Word.comma] ++ ·) ++ f :: more)
    (hf : f.kind = close) :
    ∃ as c', moreItems (at? close) item c = .ok as c' ∧ c'.words = f :: more ∧
      List.Forall₂ result as pieces := by
  rw [List.flatMap_map] at hc
  refine collect_items (fun i hi => (hpieces i hi).further) (.inr hf) (fun c hc => ⟨c, ?_, hc⟩) hc
  rw [furtherItem, bind_ok (accept_false hc (hf.trans_ne hclose))]
  rfl

/-- Pieces with commas between them are read up to the closing word. -/
theorem itemsUntil_run (words : ι → List Word) (result : α → ι → Prop) (hclose : close ≠ .comma)
    (hpieces : ∀ i ∈ pieces, ReadsPiece item close (words i) (result · i))
    (hc : c.words = [Word.comma].intercalate (pieces.map words) ++ f :: more)
    (hf : f.kind = close) :
    ∃ as c', itemsUntil close item c = .ok as c' ∧ c'.words = f :: more ∧
      List.Forall₂ result as pieces := by
  cases pieces with
  | nil =>
    refine ⟨[], c, ?_, hc, .nil⟩
    rw [itemsUntil, bind_ok (at?_run hc _), if_pos (by simpa using hf)]
    rfl
  | cons i pieces =>
    obtain ⟨hi, hpieces⟩ := List.forall_mem_cons.mp hpieces
    obtain ⟨w, tail, hws, hw⟩ := hi.begins
    rw [List.map_cons, intercalate_cons, List.append_assoc] at hc
    obtain ⟨g, behind, hnext, hg⟩ :=
      exists_next_item more (fun j hj => (hpieces j hj).further) (.inr hf)
    rw [← List.flatMap_map] at hnext
    obtain ⟨a, c₁, hrun, hc₁, ha⟩ := hi.run c g behind (hc.trans (congrArg (words i ++ ·) hnext)) hg
    obtain ⟨as, c₂, hmore, hc₂, has⟩ :=
      moreItems_run words result hclose hpieces (hc₁.trans hnext.symm) hf
    refine ⟨a :: as, c₂, ?_, hc₂, .cons ha has⟩
    rw [itemsUntil, bind_ok (at?_run (hc.trans (by rw [hws]; rfl)) _), if_neg (by simpa using hw),
      bind_ok hrun, bind_ok hmore]
    rfl

/-! ## Pieces with commas behind them -/

variable {step : σ → Parse (ForInStep σ)} {shows : σ → τ → Prop} {add : τ → ι → Option τ}
  {s : σ} {x x' : τ}

/-- A step that takes a piece and the comma behind it, and shows that it has added the piece. -/
def YieldsPiece (step : σ → Parse (ForInStep σ)) (shows : σ → τ → Prop) (add : τ → ι → Option τ)
    (words : ι → List Word) (i : ι) : Prop :=
  ∀ {s : σ} {x x' : τ} {c : Cursor} {more : List Word}, more ≠ [] → shows s x →
    add x i = some x' → c.words = words i ++ Word.comma :: more →
      ∃ s' c', step s c = .ok (.yield s') c' ∧ c'.words = more ∧ shows s' x'

/-- Pieces that each have a comma behind them are taken one after the other. -/
theorem iterateUpTo_pieces (hmore : more ≠ []) :
    ∀ {pieces : List ι} {s : σ} {x : τ} {c : Cursor} (limit : Nat),
      (∀ i ∈ pieces, YieldsPiece step shows add words i) → pieces.foldlM add x = some x' →
      shows s x →
      c.words = (pieces.map words).flatMap (· ++ [Word.comma]) ++ more →
      ∃ s' c', iterateUpTo step (pieces.length + limit) s c = iterateUpTo step limit s' c' ∧
        c'.words = more ∧ shows s' x' := by
  intro pieces
  induction pieces with
  | nil =>
    intro s x c limit _ hadd hs hc
    obtain rfl : x = x' := Option.some.inj hadd
    exact ⟨s, c, by rw [List.length_nil, Nat.zero_add], hc, hs⟩
  | cons i pieces ih =>
    intro s x c limit hpieces hadd hs hc
    obtain ⟨hi, hpieces⟩ := List.forall_mem_cons.mp hpieces
    rw [List.foldlM_cons] at hadd
    obtain ⟨x₁, hx₁, hadd⟩ := Option.bind_eq_some_iff.mp hadd
    rw [List.map_cons, List.flatMap_cons, List.append_assoc, List.append_assoc,
      List.singleton_append] at hc
    obtain ⟨s₁, c₁, hrun, hc₁, hs₁⟩ := hi (by simp [hmore]) hs hx₁ hc
    obtain ⟨s₂, c₂, hrest, hc₂, hs₂⟩ := ih limit hpieces hadd hs₁ hc₁
    refine ⟨s₂, c₂, ?_, hc₂, hs₂⟩
    rw [List.length_cons, Nat.add_right_comm, iterateUpTo_yield hrun, hrest]

/-- Pieces with commas behind them are not more than their words. -/
theorem length_pieces_le (words : ι → List Word) (pieces : List ι) :
    pieces.length ≤ ((pieces.map words).flatMap (· ++ [Word.comma])).length := by
  rw [List.flatMap_map]
  exact length_le_length_flatMap fun i _ => by simp

/-- A loop takes pieces that each have a comma behind them, and goes on with what follows. -/
theorem iterate_pieces (hpieces : ∀ i ∈ pieces, YieldsPiece step shows add words i)
    (hadd : pieces.foldlM add x = some x') (hs : shows s x)
    (hc : c.words = (pieces.map words).flatMap (· ++ [Word.comma]) ++ f :: more) :
    ∃ s' c' k, iterate step s c = iterateUpTo step (k + 1) s' c' ∧ c'.words = f :: more ∧
      shows s' x' := by
  have hlength := congrArg List.length hc
  rw [c.length_words, List.length_append, List.length_cons] at hlength
  obtain ⟨k, hk⟩ := Nat.exists_eq_add_of_le (length_pieces_le words pieces)
  obtain ⟨s', c', hrun, hc', hs'⟩ :=
    iterateUpTo_pieces (List.cons_ne_nil f more) (k + more.length + 1) hpieces hadd hs hc
  refine ⟨s', c', k + more.length, ?_, hc', hs'⟩
  rw [← hrun, show pieces.length + (k + more.length + 1) = c.rest.length + 1 by omega]
  rfl

/-- A loop that takes all pieces but the last with their commas, and is done behind the last. -/
theorem iterate_concat {init : List ι} {last : ι}
    (hinit : ∀ i ∈ init, YieldsPiece step shows add words i)
    (hlast : ∀ {s : σ} {x : τ} {c : Cursor}, shows s x → add x last = some x' →
      c.words = words last ++ f :: more →
      ∃ s' c', step s c = .ok (.done s') c' ∧ c'.words = f :: more ∧ shows s' x')
    (hadd : (init ++ [last]).foldlM add x = some x') (hs : shows s x)
    (hwords : words last ≠ [])
    (hc : c.words = [Word.comma].intercalate ((init ++ [last]).map words) ++ f :: more) :
    ∃ s' c', iterate step s c = .ok s' c' ∧ c'.words = f :: more ∧ shows s' x' := by
  rw [List.foldlM_append] at hadd
  obtain ⟨x₁, hx₁, hadd⟩ := Option.bind_eq_some_iff.mp hadd
  rw [List.foldlM_cons] at hadd
  obtain ⟨x₂, hx₂, hadd⟩ := Option.bind_eq_some_iff.mp hadd
  obtain rfl : x₂ = x' := Option.some.inj hadd
  obtain ⟨w, tail, hw⟩ := List.exists_cons_of_ne_nil hwords
  rw [List.map_append, List.map_singleton, intercalate_concat, List.append_assoc, hw,
    List.cons_append] at hc
  obtain ⟨s₁, c₁, k, hrun, hc₁, hs₁⟩ := iterate_pieces hinit hx₁ hs hc
  obtain ⟨s₂, c₂, hdone, hc₂, hs₂⟩ := hlast hs₁ hx₂ (by rw [hc₁, hw]; rfl)
  exact ⟨s₂, c₂, hrun.trans (iterateUpTo_done hdone k), hc₂, hs₂⟩

/-! ## Loops over pieces and their commas -/

/-- A piece is taken in front of a comma or of the closing word, where it can be added. -/
structure TakesPiece (take : σ → Parse σ) (close : TokenKind) (shows : σ → τ → Prop)
    (add : τ → ι → Option τ) (words : ι → List Word) (i : ι) : Prop where
  begins : ∃ w tail, words i = w :: tail ∧ w.kind ≠ close
  run : ∀ {s : σ} {x x' : τ} {c : Cursor} {f : Word} {more : List Word}, shows s x →
    add x i = some x' → c.words = words i ++ f :: more → f.kind = .comma ∨ f.kind = close →
      ∃ s' c', take s c = .ok s' c' ∧ c'.words = f :: more ∧ shows s' x'

variable {take : σ → Parse σ} {i : ι}

/-- Where the closing word stands, the loop is done. -/
theorem pieceStep_stop (s : σ) (hc : c.words = f :: more) (hf : f.kind = close) :
    pieceStep close take s c = .ok (.done s) c := by
  rw [pieceStep, bind_ok (at?_run hc _), if_pos (by simpa using hf)]
  rfl

/-- A piece with a comma behind it. -/
theorem TakesPiece.yields (h : TakesPiece take close shows add words i) :
    YieldsPiece (pieceStep close take) shows add words i := by
  intro s x x' c more hmore hs hadd hc
  obtain ⟨w, tail, hw, hclose⟩ := h.begins
  obtain ⟨s', c', hrun, hc', hs'⟩ := h.run hs hadd hc (.inl rfl)
  refine ⟨s', c'.advance, ?_, Cursor.words_advance hc' hmore, hs'⟩
  rw [pieceStep, bind_ok (at?_run (hc.trans (by rw [hw]; rfl)) _), if_neg (by simpa using hclose),
    bind_ok hrun, bind_ok (accept_true (k := .comma) hc' rfl)]
  rfl

/-- A piece in front of the closing word. -/
theorem TakesPiece.done (h : TakesPiece take close shows add words i) (hclose : close ≠ .comma)
    (hs : shows s x) (hadd : add x i = some x') (hc : c.words = words i ++ f :: more)
    (hf : f.kind = close) :
    ∃ s' c', pieceStep close take s c = .ok (.done s') c' ∧ c'.words = f :: more ∧
      shows s' x' := by
  obtain ⟨w, tail, hw, hbegins⟩ := h.begins
  obtain ⟨s', c', hrun, hc', hs'⟩ := h.run hs hadd hc (.inr hf)
  refine ⟨s', c', ?_, hc', hs'⟩
  rw [pieceStep, bind_ok (at?_run (hc.trans (by rw [hw]; rfl)) _), if_neg (by simpa using hbegins),
    bind_ok hrun, bind_ok (accept_false hc' (hf.trans_ne hclose))]
  rfl

/-- A loop over pieces with commas between them, and perhaps one behind the last. -/
theorem iterate_pieceStep {trailing : List Word} (hclose : close ≠ .comma)
    (hpieces : ∀ i ∈ pieces, TakesPiece take close shows add words i)
    (hadd : pieces.foldlM add x = some x') (hs : shows s x)
    (htrailing : trailing = [] ∨ trailing = [Word.comma] ∧ pieces ≠ [])
    (hc : c.words = [Word.comma].intercalate (pieces.map words) ++ trailing ++ f :: more)
    (hf : f.kind = close) :
    ∃ s' c', iterate (pieceStep close take) s c = .ok s' c' ∧ c'.words = f :: more ∧
      shows s' x' := by
  have hyields : ∀ i ∈ pieces, YieldsPiece (pieceStep close take) shows add words i :=
    fun i hi => (hpieces i hi).yields
  -- where each piece has a comma behind it, the loop stops at the closing word
  have hstop (hc : c.words = (pieces.map words).flatMap (· ++ [Word.comma]) ++ f :: more) :
      ∃ s' c', iterate (pieceStep close take) s c = .ok s' c' ∧ c'.words = f :: more ∧
        shows s' x' := by
    obtain ⟨s', c', k, hrun, hc', hs'⟩ := iterate_pieces hyields hadd hs hc
    exact ⟨s', c', hrun.trans (iterateUpTo_done (pieceStep_stop s' hc' hf) k), hc', hs'⟩
  obtain rfl | ⟨init, last, rfl⟩ := List.eq_nil_or_concat' pieces
  · obtain rfl | ⟨-, hne⟩ := htrailing
    · exact hstop hc
    · exact absurd rfl hne
  obtain rfl | ⟨rfl, -⟩ := htrailing
  · obtain ⟨w, tail, hw, -⟩ := (hpieces last (by simp)).begins
    refine iterate_concat (fun i hi => hyields i (by simp [hi])) ?_ hadd hs (by simp [hw])
      (by simpa using hc)
    exact fun hs hadd hc => (hpieces last (by simp)).done hclose hs hadd hc hf
  · refine hstop (hc.trans ?_)
    rw [List.map_append, List.map_singleton, intercalate_concat, List.flatMap_append,
      List.flatMap_singleton, ← List.append_assoc]

/-! ## Pieces that cannot be added -/

/-- Where not all pieces can be added, there is a first one that cannot. -/
theorem exists_of_foldlM_eq_none {pieces : List ι} {x : τ} (h : pieces.foldlM add x = none) :
    ∃ front i back x', pieces = front ++ i :: back ∧ front.foldlM add x = some x' ∧
      add x' i = none := by
  induction pieces generalizing x with
  | nil => cases h
  | cons i pieces ih =>
    rw [List.foldlM_cons] at h
    cases hadd : add x i with
    | none => exact ⟨[], i, pieces, x, rfl, rfl, hadd⟩
    | some x₁ =>
      rw [hadd] at h
      obtain ⟨front, j, back, x', rfl, hfront, hj⟩ := ih h
      exact ⟨i :: front, j, back, x', rfl, by rw [List.foldlM_cons, hadd]; exact hfront, hj⟩

/-- A piece is refused in front of a comma or of the closing word, where it cannot be added. -/
def RefusesPiece (take : σ → Parse σ) (close : TokenKind) (shows : σ → τ → Prop)
    (add : τ → ι → Option τ) (words : ι → List Word) (i : ι) : Prop :=
  ∀ {s : σ} {x : τ} {c : Cursor} {f : Word} {more : List Word}, shows s x → add x i = none →
    c.words = words i ++ f :: more → f.kind = .comma ∨ f.kind = close →
      ∃ e c', take s c = .error e c'

/-- A loop fails at the first piece that is refused. -/
theorem iterate_pieceStep_error {trailing : List Word}
    (hpieces : ∀ i ∈ pieces, TakesPiece take close shows add words i)
    (hrefuses : ∀ i ∈ pieces, RefusesPiece take close shows add words i)
    (hadd : pieces.foldlM add x = none) (hs : shows s x)
    (htrailing : trailing = [] ∨ trailing = [Word.comma])
    (hc : c.words = [Word.comma].intercalate (pieces.map words) ++ trailing ++ f :: more)
    (hf : f.kind = close) : ∃ e c', iterate (pieceStep close take) s c = .error e c' := by
  obtain ⟨front, i, back, x', rfl, hfront, hi⟩ := exists_of_foldlM_eq_none hadd
  -- behind the piece stands a comma or the closing word
  obtain ⟨g, behind, hbehind, hg⟩ : ∃ g behind, (back.map words).flatMap ([Word.comma] ++ ·) ++
      (trailing ++ f :: more) = g :: behind ∧ (g.kind = .comma ∨ g.kind = close) := by
    cases back with
    | cons j back => exact ⟨Word.comma, _, rfl, .inl rfl⟩
    | nil =>
      obtain rfl | rfl := htrailing
      · exact ⟨f, more, rfl, .inr hf⟩
      · exact ⟨Word.comma, f :: more, rfl, .inl rfl⟩
  rw [List.map_append, List.map_cons, intercalate_split, intercalate_cons, List.append_assoc,
    List.append_assoc, List.append_assoc, hbehind] at hc
  obtain ⟨w, tail, hw, hbegins⟩ := (hpieces i (by simp)).begins
  have hyields : ∀ j ∈ front, YieldsPiece (pieceStep close take) shows add words j :=
    fun j hj => (hpieces j (by simp [hj])).yields
  rw [hw] at hc
  obtain ⟨s', c', k, hrun, hc', hs'⟩ := iterate_pieces hyields hfront hs hc
  obtain ⟨e, c'', hfail⟩ := hrefuses i (by simp) hs' hi (by rw [hc', hw]; rfl) hg
  refine ⟨e, c'', hrun.trans ?_⟩
  have hstep : pieceStep close take s' c' = .error e c'' := by
    rw [pieceStep, bind_ok (at?_run hc' _), if_neg (by simpa using hbegins), bind_error hfail]
  rw [iterateUpTo, bind_error hstep]

/-! ## Pieces that are added or refused -/

/-- A reading that shows the result of adding something, and fails where there is none. -/
structure Decides (result : Option τ) (shows : σ → τ → Prop) (reading : Parse σ) (c : Cursor)
    (left : List Word) : Prop where
  adds : ∀ {x}, result = some x → ∃ s c', reading c = .ok s c' ∧ c'.words = left ∧ shows s x
  refuses : result = none → ∃ e c', reading c = .error e c'

/-- What may be added is added, and what may not is refused. -/
theorem Decides.of_admits {admitted : Prop} [Decidable admitted] {reading : Parse σ}
    {left : List Word}
    (hadds : admitted → ∃ s c', reading c = .ok s c' ∧ c'.words = left ∧ shows s x)
    (hrefuses : ¬ admitted → ∃ e c', reading c = .error e c') :
    Decides (if admitted then some x else none) shows reading c left where
  adds hx := by
    obtain ⟨hadmitted, hx⟩ := Option.ite_none_right_eq_some.mp hx
    obtain rfl := Option.some.inj hx
    exact hadds hadmitted
  refuses hnone := hrefuses fun hadmitted => nomatch (if_pos hadmitted).symm.trans hnone

/-- Where each piece is added or refused, so are all of them together. -/
theorem iterate_pieceStep_decides {spells : ι → List Word → Prop} {items : List ι}
    {wss : List (List Word)} {trailing : List Word} {n : Nat} (h : List.Forall₂ spells items wss)
    (hclose : close ≠ .comma)
    (hbegins : ∀ {i ws}, spells i ws → ∃ w tail, ws = w :: tail ∧ w.kind ≠ close)
    (hdecides : ∀ {i ws s x c f more}, spells i ws → ws.length < n → shows s x →
      c.words = ws ++ f :: more → f.kind = .comma ∨ f.kind = close →
        Decides (add x i) shows (take s) c (f :: more))
    (hn : ([Word.comma].intercalate wss).length < n) (hs : shows s x)
    (htrailing : trailing = [] ∨ trailing = [Word.comma] ∧ items ≠ [])
    (hc : c.words = [Word.comma].intercalate wss ++ trailing ++ f :: more) (hf : f.kind = close) :
    Decides (items.foldlM add x) shows (iterate (pieceStep close take) s) c (f :: more) := by
  let pieces := items.zip wss
  let addFirst (x : τ) (p : ι × List Word) : Option τ := add x p.1
  have hpieces : ∀ p ∈ pieces, spells p.1 p.2 := fun p hp => (List.forall₂_iff_zip.mp h).2 hp
  have hitems : pieces.map Prod.fst = items := List.map_fst_zip (Nat.le_of_eq h.length_eq)
  have hwords : pieces.map Prod.snd = wss := List.map_snd_zip (Nat.le_of_eq h.length_eq.symm)
  have hfold : items.foldlM add x = pieces.foldlM addFirst x := by rw [← hitems, List.foldlM_map]
  have hlength : ∀ p ∈ pieces, p.2.length < n := fun p hp =>
    Nat.lt_of_le_of_lt (length_le_length_intercalate (hwords ▸ List.mem_map_of_mem hp)) hn
  have htakes : ∀ p ∈ pieces, TakesPiece take close shows addFirst Prod.snd p := fun p hp =>
    ⟨hbegins (hpieces p hp),
      fun hs hadd hc hf => (hdecides (hpieces p hp) (hlength p hp) hs hc hf).adds hadd⟩
  have hrefuses : ∀ p ∈ pieces, RefusesPiece take close shows addFirst Prod.snd p :=
    fun p hp _ _ _ _ _ hs hadd hc hf =>
      (hdecides (hpieces p hp) (hlength p hp) hs hc hf).refuses hadd
  rw [← hwords] at hc
  rw [hfold]
  refine ⟨fun hx => iterate_pieceStep hclose htakes hx hs ?_ hc hf, fun hnone => ?_⟩
  · refine htrailing.imp_right (And.imp_right fun hne hnil => hne ?_)
    rw [← hitems, hnil, List.map_nil]
  · exact iterate_pieceStep_error htakes hrefuses hnone hs (htrailing.imp_right And.left) hc hf

end Parse

end SyntaxTree
