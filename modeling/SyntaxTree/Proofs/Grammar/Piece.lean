import SyntaxTree.Grammar.FString
import SyntaxTree.Proofs.Text.Place

/-
# Fields within their literal

The source of a replacement field stands in the body of its f-string between an opening brace and a
byte that ends it, also where the field belongs to a format specification.  A fault is found at a
place of the body, and the division never gives up before it has come to the end of the body.
-/

namespace SyntaxTree.FString

/-- The fields of a piece stand in a body, those of its format specification included, and its
faults are faults of the body. -/
inductive Piece.StandsIn (body : Bytes) : Piece → Prop where
  | literal {s : Bytes} : StandsIn body (.literal s)
  | brace {b : Byte} : StandsIn body (.brace b)
  | field {front source behind echo : Bytes} {stop : Byte} {conversion : Option Conversion}
    {spec : Option (List Piece)}
    (hbody : body = front ++ Byte.openBrace :: (source ++ stop :: behind)) (hstop : stop.isColumn)
    (hspec : ∀ pieces ∈ spec, ∀ piece ∈ pieces, StandsIn body piece) :
    StandsIn body (.field (front.length + 1) source echo conversion spec)
  | fault {cause : FStringCause} {offset : Nat} (hcause : cause ≠ .unending)
    (hoffset : offset ≤ body.length) : StandsIn body (.fault cause offset)

/-! ## Parts of a field -/

theorem upTo_append {s rest : Bytes} (h : rest <:+ s) : upTo s rest ++ rest = s := by
  obtain ⟨front, rfl⟩ := h
  simp [upTo]

/-- The expression of a field ends in front of a column. -/
theorem isColumn_of_fieldEnd {depth : Nat} {previous : Option Byte} {s tail : Bytes} {stop : Byte}
    (h : fieldEnd depth previous s = stop :: tail) : stop.isColumn := by
  have hclosing : ∀ b ∈ text ")]\x7d", b.isColumn = true :=
    List.forall_iff_forall_mem.mp (by decide)
  fun_induction fieldEnd depth previous s with
  | case1 => cases h
  | case2 depth previous b s hquote hlength ih => exact ih h
  | case3 depth previous b s hquote hopening ih => exact ih h
  | case4 previous b s hquote hopening hb =>
    obtain ⟨rfl, -⟩ := List.cons.inj h
    exact hclosing b hb
  | case5 depth previous b s hquote hopening hb hdepth ih => exact ih h
  | case6 depth previous b s hquote hopening hb hends =>
    obtain ⟨rfl, -⟩ := List.cons.inj h
    have hb := hends.2
    simp only [endsField, Bool.or_eq_true, Bool.and_eq_true, beq_iff_eq] at hb
    rcases hb with (⟨rfl, -⟩ | rfl) | ⟨rfl, -⟩ <;> decide
  | case7 depth previous b s hquote hopening hb hends ih => exact ih h

theorem suffix_of_echoEnd (s : Bytes) : echoEnd s <:+ s := by
  unfold echoEnd
  split
  · exact (List.dropWhile_suffix _).trans (List.tail_suffix s)
  · exact List.suffix_rfl

theorem suffix_of_readConversion {s rest : Bytes} {conversion : Option Conversion}
    (h : readConversion s = some (conversion, rest)) : rest <:+ s := by
  unfold readConversion at h
  split at h
  · cases h
    exact List.suffix_rfl
  · next b s =>
    split at h
    · split at h
      · cases h
      · next letter _ =>
        obtain ⟨_, -, hrest⟩ := Option.map_eq_some_iff.mp h
        cases hrest
        exact (List.suffix_cons letter _).trans (List.suffix_cons b _)
    · cases h
      exact List.suffix_rfl

/-! ## One field -/

/-- The pieces of the field whose opening brace stands in front of `s`, and what follows its closing
brace.  Nothing follows where the last piece is a fault. -/
def divideField (isRaw : Bool) (size limit : Nat) (s : Bytes) : List Piece × Option Bytes :=
  let place (rest : Bytes) := size - rest.length
  match fieldEnd 0 none s with
  | [] => ([.fault .unclosedField (place (Byte.openBrace :: s))], none)
  | stop :: tail =>
    let source := upTo s (stop :: tail)
    if source.all isWhite then ([.fault (.emptyExpression stop) (place (stop :: tail))], none)
    else
      let afterEcho := echoEnd (stop :: tail)
      let echo := if stop = ascii '=' then upTo s afterEcho else []
      match readConversion afterEcho with
      | none =>
        ([.field (place s) source echo none none,
          .fault .invalidConversion (place afterEcho.tail)], none)
      | some (conversion, afterConversion) =>
        let (spec, afterSpec) :=
          if afterConversion.head? = some (ascii ':') then
            let (pieces, rest) := divideUpTo isRaw size limit true afterConversion.tail
            (some pieces, rest)
          else (none, afterConversion)
        let field := Piece.field (place s) source echo conversion spec
        if afterSpec.head? = some Byte.closeBrace then ([field], some afterSpec.tail)
        else ([field, .fault .unclosedField (place afterSpec)], none)

/-- A field whose source ends in front of a column, in the body at an opening brace. -/
theorem field_standsIn {body s tail echo : Bytes} {stop : Byte} {conversion : Option Conversion}
    {spec : Option (List Piece)} (h : Byte.openBrace :: s <:+ body)
    (hsuffix : stop :: tail <:+ s)
    (hstop : stop.isColumn) (hspec : ∀ pieces ∈ spec, ∀ piece ∈ pieces, piece.StandsIn body) :
    (Piece.field (body.length - s.length) (upTo s (stop :: tail)) echo conversion spec).StandsIn
      body := by
  obtain ⟨front, rfl⟩ := h
  have hlength : (front ++ Byte.openBrace :: s).length - s.length = front.length + 1 := by
    rw [List.length_append, List.length_cons]
    omega
  rw [hlength]
  exact .field (by rw [upTo_append hsuffix]) hstop hspec

/-- The pieces of a field stand in the body if those of a format specification do, and what follows
the field stands behind its closing brace. -/
theorem standsIn_divideField {isRaw : Bool} {body s : Bytes} {limit : Nat}
    (h : Byte.openBrace :: s <:+ body)
    (hpieces : ∀ {rest : Bytes}, rest <:+ s →
      (∀ piece ∈ (divideUpTo isRaw body.length limit true rest).1, piece.StandsIn body) ∧
        (divideUpTo isRaw body.length limit true rest).2 <:+ rest) :
    (∀ piece ∈ (divideField isRaw body.length limit s).1, piece.StandsIn body) ∧
      ∀ rest ∈ (divideField isRaw body.length limit s).2, Byte.closeBrace :: rest <:+ s := by
  have hfault (cause : FStringCause) (rest : Bytes) (hcause : cause ≠ .unending) :
      (Piece.fault cause (body.length - rest.length)).StandsIn body :=
    .fault hcause (Nat.sub_le _ _)
  have hnone : ∀ rest ∈ (none : Option Bytes), Byte.closeBrace :: rest <:+ s := by rintro _ ⟨⟩
  unfold divideField
  dsimp only
  split
  · exact ⟨List.forall_mem_singleton.mpr (hfault _ _ (by rintro ⟨⟩)), hnone⟩
  · next stop tail hend =>
    have hsuffix : stop :: tail <:+ s := hend ▸ suffix_of_fieldEnd 0 none s
    have hstop := isColumn_of_fieldEnd hend
    have hecho := (suffix_of_echoEnd (stop :: tail)).trans hsuffix
    split
    · exact ⟨List.forall_mem_singleton.mpr (hfault _ _ (by rintro ⟨⟩)), hnone⟩
    split
    · refine ⟨List.forall_mem_cons.mpr ⟨?_, ?_⟩, hnone⟩
      · exact field_standsIn h hsuffix hstop (by rintro _ ⟨⟩)
      · exact List.forall_mem_singleton.mpr (hfault _ _ (by rintro ⟨⟩))
    · next conversion afterConversion hconversion =>
      have hafter := (suffix_of_readConversion hconversion).trans hecho
      generalize hspec : (if afterConversion.head? = some (ascii ':') then _ else _) = spec
      -- The pieces of the format specification are divided like those of the body.
      obtain ⟨hinner, hbehind⟩ :
          (∀ pieces ∈ spec.1, ∀ piece ∈ pieces, piece.StandsIn body) ∧ spec.2 <:+ s := by
        have htail := (List.tail_suffix afterConversion).trans hafter
        subst hspec
        split
        · exact ⟨by rintro _ ⟨⟩; exact (hpieces htail).1, (hpieces htail).2.trans htail⟩
        · exact ⟨by rintro _ ⟨⟩, hafter⟩
      have hfield (echo : Bytes) : (Piece.field (body.length - s.length)
          (upTo s (stop :: tail)) echo conversion spec.1).StandsIn body :=
        field_standsIn h hsuffix hstop hinner
      split
      · next hclose =>
        refine ⟨List.forall_mem_singleton.mpr (hfield _), ?_⟩
        rintro _ ⟨⟩
        rwa [List.cons_head?_tail hclose]
      · refine ⟨List.forall_mem_cons.mpr ⟨hfield _, ?_⟩, hnone⟩
        exact List.forall_mem_singleton.mpr (hfault _ _ (by rintro ⟨⟩))

/-! ## The division -/

/-- Literal text from a byte on that is no brace takes that byte. -/
theorem suffix_of_literalEnd_cons (isRaw : Bool) {b : Byte} (hb : isBrace b = false) (s : Bytes) :
    literalEnd isRaw false (b :: s) <:+ s := by
  have hlt : (literalEnd isRaw false (b :: s)).length < (b :: s).length := length_literalEnd_lt hb
  exact (List.suffix_cons_iff.mp (suffix_of_literalEnd isRaw false (b :: s))).resolve_left
    fun heq => Nat.lt_irrefl _ (heq ▸ hlt)

/-- At a byte the division comes to a field, to a brace that is written twice, to a closing brace
that belongs to no field of its own, or to literal text. -/
theorem step_cases (inSpec : Bool) (b : Byte) (s : Bytes) :
    (b = Byte.openBrace ∧ (inSpec ∨ s.head? ≠ some Byte.openBrace)) ∨
      (inSpec = false ∧ isBrace b ∧ ∃ t, s = b :: t) ∨
      (b = Byte.closeBrace ∧ (inSpec ∨ s.head? ≠ some Byte.closeBrace)) ∨ isBrace b = false := by
  cases hbrace : isBrace b with
  | false => exact .inr (.inr (.inr rfl))
  | true =>
    by_cases hdouble : inSpec = false ∧ ∃ t, s = b :: t
    · exact .inr (.inl ⟨hdouble.1, rfl, hdouble.2⟩)
    have hsingle : inSpec ∨ s.head? ≠ some b := by
      rw [← Bool.not_eq_false, ← not_and_or]
      exact fun h => hdouble ⟨h.1, _, List.eq_cons_of_mem_head? h.2⟩
    simp only [isBrace, Bool.or_eq_true, beq_iff_eq] at hbrace
    rcases hbrace with rfl | rfl
    · exact .inl ⟨rfl, hsingle⟩
    · exact .inr (.inr (.inl ⟨rfl, hsingle⟩))

section Steps

variable {isRaw inSpec : Bool} {size limit : Nat} {b : Byte} {s : Bytes}

/-- The division at the brace of a field: the field, and the pieces that follow it. -/
theorem divideUpTo_openBrace (h : inSpec ∨ s.head? ≠ some Byte.openBrace) :
    divideUpTo isRaw size (limit + 1) inSpec (Byte.openBrace :: s) =
      match divideField isRaw size limit s with
      | (pieces, none) => (pieces, [])
      | (pieces, some rest) =>
        (pieces ++ (divideUpTo isRaw size limit inSpec rest).1,
          (divideUpTo isRaw size limit inSpec rest).2) := by
  have hdouble : ¬((!inSpec) = true ∧ s.head? = some Byte.openBrace) := by
    rintro ⟨hspec, hhead⟩
    rcases h with rfl | h
    · cases hspec
    · exact h hhead
  rw [divideUpTo, if_pos rfl, if_neg hdouble, divideField]
  dsimp only
  cases fieldEnd 0 none s with
  | nil => rfl
  | cons stop tail =>
    dsimp only
    by_cases hwhite : (upTo s (stop :: tail)).all isWhite
    · rw [if_pos hwhite, if_pos hwhite]
    rw [if_neg hwhite, if_neg hwhite]
    cases readConversion (echoEnd (stop :: tail)) with
    | none => rfl
    | some found =>
      dsimp only
      generalize (if found.2.head? = some (ascii ':') then _ else _) = spec
      by_cases hclose : spec.2.head? = some Byte.closeBrace
      · rw [if_pos hclose, if_pos hclose]
        rfl
      · rw [if_neg hclose, if_neg hclose]

/-- A brace that is written twice. -/
theorem divideUpTo_brace (hb : isBrace b) :
    divideUpTo isRaw size (limit + 1) false (b :: b :: s) =
      (.brace b :: (divideUpTo isRaw size limit false s).1,
        (divideUpTo isRaw size limit false s).2) := by
  simp only [isBrace, Bool.or_eq_true, beq_iff_eq] at hb
  rcases hb with rfl | rfl
  · rw [divideUpTo, if_pos rfl, if_pos ⟨rfl, rfl⟩]
    rfl
  · rw [divideUpTo, if_neg (by decide), if_pos rfl, if_pos ⟨rfl, rfl⟩]
    rfl

/-- The division stops in front of a closing brace that belongs to no field of its own. -/
theorem divideUpTo_closeBrace (h : inSpec ∨ s.head? ≠ some Byte.closeBrace) :
    divideUpTo isRaw size (limit + 1) inSpec (Byte.closeBrace :: s) =
      ([], Byte.closeBrace :: s) := by
  have hdouble : ¬((!inSpec) = true ∧ s.head? = some Byte.closeBrace) := by
    rintro ⟨hspec, hhead⟩
    rcases h with rfl | h
    · cases hspec
    · exact h hhead
  rw [divideUpTo, if_neg (by decide), if_pos rfl, if_neg hdouble]

/-- A body that begins with no brace is divided behind its literal text. -/
theorem divideUpTo_literal (hb : isBrace b = false) :
    divideUpTo isRaw size (limit + 1) inSpec (b :: s) =
      (.literal (upTo (b :: s) (literalEnd isRaw false (b :: s))).unifyLineEnds ::
          (divideUpTo isRaw size limit inSpec (literalEnd isRaw false (b :: s))).1,
        (divideUpTo isRaw size limit inSpec (literalEnd isRaw false (b :: s))).2) := by
  simp only [isBrace, Bool.or_eq_false_iff, beq_eq_false_iff_ne] at hb
  rw [divideUpTo, if_neg hb.1, if_neg hb.2]

end Steps

/-- The pieces of an end of a body stand in the body if as many are allowed as it has bytes. -/
theorem standsIn_divideUpTo (isRaw : Bool) {body : Bytes} (limit : Nat) (inSpec : Bool) {s : Bytes}
    (h : s <:+ body) (hlimit : s.length < limit) :
    (∀ piece ∈ (divideUpTo isRaw body.length limit inSpec s).1, piece.StandsIn body) ∧
      (divideUpTo isRaw body.length limit inSpec s).2 <:+ s := by
  induction limit generalizing inSpec s with
  | zero => exact absurd hlimit (Nat.not_lt_zero _)
  | succ limit ih =>
    cases s with
    | nil => exact ⟨List.forall_mem_nil _, List.nil_suffix⟩
    | cons b s =>
      have hs : s.length < limit := Nat.lt_of_succ_lt_succ hlimit
      -- Each step goes on behind a byte, so its rest is short enough for the steps that are left.
      have hrest (inSpec : Bool) {rest : Bytes} (hrest : rest <:+ s) :=
        ih inSpec ((hrest.trans (List.suffix_cons b s)).trans h)
          (Nat.lt_of_le_of_lt hrest.length_le hs)
      have hbehind {rest rest' : Bytes} (hrest : rest <:+ s) (h : rest' <:+ rest) :
          rest' <:+ b :: s := (h.trans hrest).trans (List.suffix_cons b s)
      rcases step_cases inSpec b s with ⟨rfl, hsingle⟩ | ⟨rfl, hb, s, rfl⟩ | ⟨rfl, hsingle⟩ | hb
      · obtain ⟨hpieces, hclose⟩ := standsIn_divideField h (hrest true)
        rw [divideUpTo_openBrace hsingle]
        generalize divideField isRaw body.length limit s = field at hpieces hclose
        obtain ⟨pieces, _ | rest⟩ := field
        · exact ⟨hpieces, List.nil_suffix⟩
        · have hsuffix := (List.suffix_cons _ rest).trans (hclose rest rfl)
          obtain ⟨hmore, hlast⟩ := hrest inSpec hsuffix
          exact ⟨List.forall_mem_append.mpr ⟨hpieces, hmore⟩, hbehind hsuffix hlast⟩
      · have hsuffix := List.suffix_cons b s
        obtain ⟨hmore, hlast⟩ := hrest false hsuffix
        rw [divideUpTo_brace hb]
        exact ⟨List.forall_mem_cons.mpr ⟨.brace, hmore⟩, hbehind hsuffix hlast⟩
      · rw [divideUpTo_closeBrace hsingle]
        exact ⟨List.forall_mem_nil _, List.suffix_rfl⟩
      · have hsuffix := suffix_of_literalEnd_cons isRaw hb s
        obtain ⟨hmore, hlast⟩ := hrest inSpec hsuffix
        rw [divideUpTo_literal hb]
        exact ⟨List.forall_mem_cons.mpr ⟨.literal, hmore⟩, hbehind hsuffix hlast⟩

/-- The pieces of a body stand in it. -/
theorem standsIn_of_mem_divide {isRaw : Bool} {body : Bytes} {piece : Piece}
    (h : piece ∈ divide isRaw body) : piece.StandsIn body := by
  have hpieces := (standsIn_divideUpTo isRaw (body.length + 1) false (List.suffix_refl body)
    (Nat.lt_succ_self _)).1
  simp only [divide] at h
  split at h
  · exact hpieces piece h
  · rcases List.mem_append.mp h with h | h
    · exact hpieces piece h
    · obtain rfl := List.mem_singleton.mp h
      exact .fault nofun (Nat.sub_le _ _)

end SyntaxTree.FString
