import SyntaxTree.Proofs.Render.Items
import SyntaxTree.Proofs.Render.Operator
import SyntaxTree.Unicode.NameTable

/-
# Trees of operators

The text of a tree of operators reads as the tree, whatever precedence its place demands: the
parentheses that are left out are those that the grammar does not need.
-/

namespace SyntaxTree

open Parse

/-! ## Trees of operators -/

/-- Trees of names, integers, operators, conditional expressions, lambdas without parameters,
assignments, tuples, attributes, calls with positional arguments and subscripts. -/
inductive Expr.IsOperatorTree : Expr → Prop where
  | name (span : Span) {id : Bytes} (hid : IsName id) :
    IsOperatorTree (.node span (.name id .load))
  | integer (span : Span) {digits : Bytes} (hdigits : Number.IsCanonical digits) :
    IsOperatorTree (.node span (.constant (.integer digits)))
  | boolean (span : Span) (op : BoolOperator) {values : List Expr} (hlength : 2 ≤ values.length)
    (h : ∀ e ∈ values, e.IsOperatorTree) : IsOperatorTree (.node span (.boolean op values))
  | binary (span : Span) (op : BinaryOperator) {left right : Expr} (hl : left.IsOperatorTree)
    (hr : right.IsOperatorTree) : IsOperatorTree (.node span (.binary op left right))
  | unary (span : Span) (op : UnaryOperator) {operand : Expr} (h : operand.IsOperatorTree) :
    IsOperatorTree (.node span (.unary op operand))
  | compare (span : Span) {left : Expr} {rest : List Comparison} (hl : left.IsOperatorTree)
    (hrest : rest ≠ []) (h : ∀ op e, .mk op e ∈ rest → e.IsOperatorTree) :
    IsOperatorTree (.node span (.compare left rest))
  | conditional (span : Span) {test body orelse : Expr} (htest : test.IsOperatorTree)
    (hbody : body.IsOperatorTree) (horelse : orelse.IsOperatorTree) :
    IsOperatorTree (.node span (.conditional test body orelse))
  | lambda (span : Span) {body : Expr} (h : body.IsOperatorTree) :
    IsOperatorTree (.node span (.lambda (.mk [] [] none [] none []) body))
  | await (span : Span) {value : Expr} (h : value.IsOperatorTree) :
    IsOperatorTree (.node span (.await value))
  | named (span target : Span) {id : Bytes} {value : Expr} (hid : IsName id)
    (h : value.IsOperatorTree) :
    IsOperatorTree (.node span (.named (.node target (.name id .store)) value))
  | tuple (span : Span) {elements : List Expr} (h : ∀ e ∈ elements, e.IsOperatorTree) :
    IsOperatorTree (.node span (.tuple elements .load))
  | «attribute» (span : Span) {value : Expr} {name : Bytes} (h : value.IsOperatorTree)
    (hname : IsName name) : IsOperatorTree (.node span (.attribute value name .load))
  | call (span : Span) {callee : Expr} {arguments : List Expr} (h : callee.IsOperatorTree)
    (harguments : ∀ e ∈ arguments, e.IsOperatorTree) :
    IsOperatorTree (.node span (.call callee arguments []))
  | subscript (span : Span) {value index : Expr} (h : value.IsOperatorTree)
    (hindex : index.IsOperatorTree) : IsOperatorTree (.node span (.subscript value index .load))

/-! ## Written expressions -/

/-- An expression whose text reads as it at every place: within others, on its own, and as the index
of a subscript. -/
structure Written (quote : Byte) (e : Expr) : Prop where
  inside : ∀ p : Precedence, .yield ≤ p → ∃ ws,
    Spells (p == .atom && !e.isInteger) (e.write quote p) ws ∧ Fits p.level ws e.bare
  list : ∃ ws, Spells false (e.write quote .tuple) ws ∧ ReadsList ws e.bare
  index : ∃ ws, Spells false (e.writeIndex quote) ws ∧ ReadsIndex ws e.bare

/-- Where a point is allowed, it need not stand. -/
theorem Spells.of_true {s : Bytes} {ws : List Word} (h : Spells true s ws) (dotted : Bool) :
    Spells dotted s ws := by
  cases dotted with
  | false => exact h.undotted
  | true => exact h

/-- What binds at least as its place demands is written as it is. -/
theorem Expr.write_of_le {quote : Byte} {p : Precedence} {span : Span} {s : Expr.Shape}
    (h : p ≤ s.precedence) : Expr.write quote p (.node span s) = s.write quote := by
  simp [Expr.write, h, parenthesizeIf]

/-- What binds less than its place demands is written in parentheses. -/
theorem Expr.write_of_lt {quote : Byte} {p : Precedence} {span : Span} {s : Expr.Shape}
    (h : s.precedence.rank < p.rank) :
    Expr.write quote p (.node span s) = parenthesize (s.write quote) := by
  have hle : ¬ p ≤ s.precedence := Nat.not_le.mpr h
  simp [Expr.write, hle, parenthesizeIf]

/-- What binds at least like a test is an index as it is. -/
theorem Expr.writeIndex_eq {quote : Byte} {span : Span} {shape : Expr.Shape}
    (h : .test ≤ shape.precedence) :
    Expr.writeIndex quote (.node span shape) = shape.write quote := by
  cases shape with
  | tuple elements context => rw [Expr.writeIndex, Expr.Shape.write]
  | _ => simp [Expr.writeIndex, h, parenthesizeIf]

/-- An expression in parentheses holds together wherever it stands. -/
theorem Leads.inside {ws : List Word} {e : Expr} (h : Leads .atom ws e) (p : Precedence) :
    Fits p.level ws e := by
  refine Fits.mono ?_ (h.fits (.inr rfl))
  cases p <;> decide

/-- What binds at least like a test is written without parentheses or with them. -/
theorem Written.of_shape {quote : Byte} {span : Span} {shape : Expr.Shape} {p : Precedence}
    {dotted : Bool} {ws : List Word} (hshape : shape.precedence = p) (htest : .test ≤ p)
    (hspells : Spells dotted (shape.write quote) ws)
    (hdotted : p = .atom → dotted = !(Expr.node span shape).isInteger)
    (hfits : Fits p.level ws (Expr.node span shape).bare) : Written quote (.node span shape) where
  inside := by
    intro q _
    by_cases hq : q ≤ p
    · refine ⟨ws, ?_, hfits.mono (Precedence.rank_level_mono hq)⟩
      rw [Expr.write_of_le (by rw [hshape]; exact hq)]
      by_cases hatom : q = .atom
      · subst hatom
        rw [beq_self_eq_true, Bool.true_and, ← hdotted (Precedence.eq_atom_of_le hq)]
        exact hspells
      · rw [show (q == .atom) = false by simpa using hatom, Bool.false_and]
        exact hspells.undotted
    · have hgroup : Leads .atom (⟨.openParen, text "("⟩ :: (ws ++ [⟨.closeParen, text ")"⟩])) _ :=
        Leads.group rfl rfl (hfits.reads.mono (Nat.zero_le _))
      refine ⟨_, ?_, hgroup.inside q⟩
      rw [Expr.write_of_lt (by rw [hshape]; exact Nat.not_le.mp hq)]
      exact hspells.parenthesized.of_true _
  list := by
    refine ⟨ws, ?_, Reads.list (hfits.reads.mono (Nat.zero_le _))⟩
    rw [Expr.write_of_le (by rw [hshape]; exact Nat.le_trans (by decide) htest)]
    exact hspells.undotted
  index := by
    refine ⟨ws, ?_, Reads.index (hfits.reads.mono (Nat.zero_le _))⟩
    rw [Expr.writeIndex_eq (by rw [hshape]; exact htest)]
    exact hspells.undotted

/-- An atom other than an integer. -/
theorem Written.of_atom {quote : Byte} {span : Span} {shape : Expr.Shape} {ws : List Word}
    (hshape : shape.precedence = .atom) (hinteger : (Expr.node span shape).isInteger = false)
    (hspells : Spells true (shape.write quote) ws)
    (hleads : Leads .atom ws (Expr.node span shape).bare) : Written quote (.node span shape) :=
  of_shape hshape (by decide) hspells (fun _ => by rw [hinteger]; rfl) (hleads.fits (.inr rfl))

/-! ## Lists of expressions -/

/-- The first item and all others, each behind a separator. -/
theorem Bytes.joinWith_cons (separator item : Bytes) (rest : List Bytes) :
    joinWith separator (item :: rest) = item ++ (rest.map (separator ++ ·)).flatten := by
  induction rest generalizing item with
  | nil => simp [joinWith]
  | cons next rest ih =>
    rw [joinWith, ih next, List.map_cons, List.flatten_cons]
    · simp
    · exact List.cons_ne_nil next rest

theorem Expr.writeAll_eq_map (quote : Byte) (p : Precedence) (es : List Expr) :
    Expr.writeAll quote p es = es.map (·.write quote p) := by
  induction es with
  | nil => rfl
  | cons e es ih => rw [Expr.writeAll, ih, List.map_cons]

/-- Further operands, each behind the same separator. -/
theorem Written.further {α : Type} (op : α) {separator : Bytes} {sign : List Word}
    (hseparator : Separates separator sign) {quote : Byte} {p : Precedence} (hp : .yield ≤ p) :
    ∀ {es : List Expr}, (∀ e ∈ es, Written quote e) →
      ∃ xs : List (Further α),
        List.Forall₂ (fun t x => ∃ s r, t = s ++ r ∧ Separates s x.sign ∧ Spells false r x.words)
          ((es.map (·.write quote p)).map (separator ++ ·)) xs ∧
        xs.map Further.value = Expr.bareAll es ∧ (∀ x ∈ xs, x.sign = sign ∧ x.op = op) ∧
        ∀ x ∈ xs, Reads p.level x.words x.value := by
  intro es
  induction es with
  | nil =>
    intro _
    exact ⟨[], .nil, rfl, nofun, nofun⟩
  | cons e es ih =>
    intro h
    obtain ⟨xs, htexts, hvalues, hsigns, hreads⟩ :=
      ih fun e' he' => h e' (List.mem_cons_of_mem e he')
    obtain ⟨ws, hspells, hfits⟩ := (h e (by simp)).inside p hp
    refine ⟨⟨sign, op, ws, e.bare⟩ :: xs, .cons ?_ htexts, ?_, ?_, ?_⟩
    · exact ⟨separator, _, rfl, hseparator, hspells.undotted⟩
    · rw [List.map_cons, hvalues, Expr.bareAll]
    · exact List.forall_mem_cons.mpr ⟨⟨rfl, rfl⟩, hsigns⟩
    · exact List.forall_mem_cons.mpr ⟨hfits.reads, hreads⟩

/-- The items of a tuple. -/
theorem Written.tupleItems {quote : Byte} {e : Expr} {es : List Expr}
    (h : ∀ e' ∈ e :: es, Written quote e') :
    ∃ ws dotted, Spells dotted (tupleText (Expr.writeAll quote .test (e :: es))) ws ∧
      TupleItems ws (Expr.bareAll (e :: es)) := by
  obtain ⟨ws, hspells, hfits⟩ := (h e (by simp)).inside .test (by decide)
  obtain ⟨xs, htexts, hvalues, hsigns, hreads⟩ :=
    Written.further () Separates.comma (p := .test) (by decide)
      fun e' he' => h e' (List.mem_cons_of_mem e he')
  have hcommas : ∀ x ∈ xs, ∃ w, x.sign = [w] ∧ w.kind = .comma :=
    fun x hx => ⟨_, (hsigns x hx).1, rfl⟩
  rw [Expr.writeAll_eq_map, List.map_cons, tupleText, commaSeparated, Bytes.joinWith_cons,
    Expr.bareAll, ← hvalues]
  by_cases hes : es = []
  · subst hes
    obtain rfl : xs = [] := by
      cases htexts
      rfl
    refine ⟨ws ++ [⟨.comma, text ","⟩], true, ?_, .single hfits.reads rfl⟩
    have hcomma := hspells.closed .comma
    simpa using hcomma
  · refine ⟨_, false, ?_, .several hfits.reads ?_ hcommas hreads⟩
    · have hitems := Spells.further htexts hspells.undotted
      simpa [hes] using hitems
    · rintro rfl
      exact hes (by simpa using htexts.length_eq)

/-! ## Each shape -/

/-- A canonical numeral has no leading zero to drop. -/
theorem Number.IsCanonical.numeralOfDecimal {digits : Bytes} (h : IsCanonical digits) :
    Literal.integerNumeral.numeralOfDecimal digits = digits := by
  obtain ⟨-, hne, hzero⟩ := h
  obtain ⟨b, t, rfl⟩ := List.exists_cons_of_ne_nil hne
  rw [Literal.integerNumeral.numeralOfDecimal]
  by_cases hb : b = ascii '0'
  · subst hb
    obtain ⟨-, rfl⟩ := List.cons.inj (hzero rfl)
    rfl
  · rw [List.dropWhile_cons_of_neg (by simpa using hb)]

/-- A canonical numeral is the numeral of its value. -/
theorem Number.IsCanonical.integerNumeral {digits : Bytes} (h : IsCanonical digits) :
    Literal.integerNumeral (digits.filter (· ≠ Byte.underscore)) = digits := by
  have hdigits := List.all_eq_true.mp h.1
  have hkept : digits.filter (· ≠ Byte.underscore) = digits := by
    refine List.filter_eq_self.mpr fun b hb => ?_
    simpa using Byte.ne_of_class (hdigits b hb) (c := Byte.underscore) rfl
  rw [hkept]
  unfold Literal.integerNumeral
  split
  · next zero marker d digits =>
    have hmarker : marker.isDigit := hdigits marker (by simp)
    have hletter : ¬ marker.isLetter := by
      intro hletter
      have hdigit :=
        Byte.not_isDigit_of_startsWord (b := marker) (by simp [Byte.startsWord, hletter])
      exact absurd hmarker (by simp [hdigit])
    rw [if_neg (fun h => hletter h.2), h.numeralOfDecimal]
  · exact h.numeralOfDecimal

namespace Written

variable {quote : Byte} {span : Span}

theorem name {id : Bytes} (hid : IsName id) : Written quote (.node span (.name id .load)) :=
  of_atom rfl rfl (Spells.name hid) (Leads.name (w := ⟨.identifier, id⟩) rfl)

theorem integer {digits : Bytes} (h : Number.IsCanonical digits) :
    Written quote (.node span (.constant (.integer digits))) := by
  have hleads := Leads.integer (t := .empty .integer digits .origin) rfl
  have hvalue : Literal.number (.empty .integer digits .origin) = .integer digits :=
    congrArg Constant.integer h.integerNumeral
  rw [hvalue] at hleads
  exact of_shape (p := .atom) rfl (by decide) (Spells.integer h) (fun _ => rfl)
    (hleads.fits (.inr rfl))

theorem boolean {op : BoolOperator} {values : List Expr} (hlength : 2 ≤ values.length)
    (h : ∀ e ∈ values, Written quote e) : Written quote (.node span (.boolean op values)) := by
  obtain _ | ⟨e, es⟩ := values
  · simp at hlength
  have hyield : .yield ≤ op.operandPrecedence := by cases op <;> decide
  obtain ⟨hlevel, hoperand⟩ := op.level_precedence
  obtain ⟨ws, hspells, hfits⟩ := (h e (by simp)).inside op.operandPrecedence hyield
  obtain ⟨xs, htexts, hvalues, hsigns, hreads⟩ :=
    further op op.signs.spaced hyield fun e' he' => h e' (List.mem_cons_of_mem e he')
  have hxs : xs ≠ [] := by
    rintro rfl
    have hes := htexts.length_eq
    simp only [List.length_map, List.length_nil] at hes
    simp [hes] at hlength
  rw [hoperand] at hfits hreads
  have hjoined := Reads.joined hfits.reads hxs
    (fun x hx => ⟨_, (hsigns x hx).1, rfl⟩) hreads
  rw [hvalues, ← hlevel] at hjoined
  have htext := Spells.further htexts hspells.undotted
  rw [← Bytes.joinWith_cons, ← List.map_cons, ← Expr.writeAll_eq_map] at htext
  refine of_shape (p := op.precedence) rfl (by cases op <;> decide) htext ?_
    (hjoined.fits (by cases op <;> decide))
  intro hatom
  cases op <;> exact nomatch hatom

theorem binary {op : BinaryOperator} {left right : Expr} (hl : Written quote left)
    (hr : Written quote right) : Written quote (.node span (.binary op left right)) := by
  obtain ⟨ws, hspells, hfits⟩ := hl.inside op.leftPrecedence (by cases op <;> decide)
  obtain ⟨ws', hspells', hfits'⟩ := hr.inside op.rightPrecedence (by cases op <;> decide)
  have htext := hspells.separated op.signs.spaced hspells'
  simp only [← List.append_assoc] at htext
  refine of_shape (p := op.precedence) rfl (by cases op <;> decide) htext ?_ ?_
  · intro hatom
    cases op <;> exact nomatch hatom
  by_cases hop : op = .pow
  · subst hop
    have hreads := Reads.pow (w := ⟨.doubleStar, text "**"⟩) rfl hfits.reads hfits'.reads
    exact (List.append_assoc .. ▸ hreads.fits (by decide))
  · obtain ⟨hoperand, hleft⟩ := BinaryOperator.operand?_level hop
    rw [hleft] at hfits
    have hrepeats : op.precedence.level.Repeats := .inl (by rw [hoperand]; rfl)
    have hleads := (hfits.leads hrepeats).operation hoperand
      (w := ⟨op.kind, op.symbol⟩) (BinaryOperator.operator?_kind hop) hfits'.reads
    exact List.append_assoc .. ▸ hleads.fits hrepeats

theorem unary {op : UnaryOperator} {operand : Expr} (h : Written quote operand) :
    Written quote (.node span (.unary op operand)) := by
  obtain ⟨ws, hspells, hfits⟩ := h.inside op.precedence (by cases op <;> decide)
  refine of_shape (p := op.precedence) rfl (by cases op <;> decide) (hspells.opened op.opening)
    ?_ ?_
  · intro hatom
    cases op <;> exact nomatch hatom
  refine Reads.fits ?_ (by cases op <;> decide)
  cases op with
  | not => exact Reads.not rfl hfits.reads
  | _ => exact Reads.sign rfl hfits.reads

theorem conditional {test body orelse : Expr} (htest : Written quote test)
    (hbody : Written quote body) (horelse : Written quote orelse) :
    Written quote (.node span (.conditional test body orelse)) := by
  obtain ⟨ws, hspells, hfits⟩ := hbody.inside .or (by decide)
  obtain ⟨ws₁, hspells₁, hfits₁⟩ := htest.inside .or (by decide)
  obtain ⟨ws₂, hspells₂, hfits₂⟩ := horelse.inside .test (by decide)
  have hif : Signs (text "if") [⟨.kwIf, text "if"⟩] := .keyword ⟨_, _, rfl, rfl, rfl⟩ rfl
  have helse : Signs (text "else") [⟨.kwElse, text "else"⟩] := .keyword ⟨_, _, rfl, rfl, rfl⟩ rfl
  have htext := (hspells.separated hif.spaced hspells₁).separated helse.spaced hspells₂
  have hreads : Reads .expression
      (ws ++ ⟨.kwIf, text "if"⟩ :: (ws₁ ++ ⟨.kwElse, text "else"⟩ :: ws₂)) _ :=
    Reads.conditional hfits.reads rfl hfits₁.reads rfl hfits₂.reads
  have hwords : ws ++ ([⟨.kwIf, text "if"⟩] ++ ws₁) ++ ([⟨.kwElse, text "else"⟩] ++ ws₂) =
      ws ++ ⟨.kwIf, text "if"⟩ :: (ws₁ ++ ⟨.kwElse, text "else"⟩ :: ws₂) := by
    simp
  rw [hwords] at htext
  exact of_shape (p := .test) rfl (by decide) htext nofun (hreads.fits (by decide))

/-- The further comparisons of a chain. -/
theorem comparisons {rest : List Comparison} (h : ∀ op e, .mk op e ∈ rest → Written quote e) :
    ∃ (xs : List (Further CompareOperator)) (ts : List Bytes),
      List.Forall₂ (fun t x => ∃ s r, t = s ++ r ∧ Separates s x.sign ∧ Spells false r x.words)
        ts xs ∧ Comparison.writeAll quote rest = ts.flatten ∧
      (xs.map fun x => .mk x.op x.value) = Comparison.bareAll rest ∧
      (∀ x ∈ xs, x.sign.map Word.kind = x.op.kinds) ∧
      ∀ x ∈ xs, Reads .bitOr x.words x.value := by
  induction rest with
  | nil => exact ⟨[], [], .nil, rfl, rfl, nofun, nofun⟩
  | cons c rest ih =>
    obtain ⟨op, e⟩ := c
    obtain ⟨xs, ts, htexts, hwritten, hvalues, hsigns, hreads⟩ :=
      ih fun op' e' he' => h op' e' (List.mem_cons_of_mem _ he')
    obtain ⟨sign, hsign, hkinds⟩ := op.exists_signs
    obtain ⟨ws, hspells, hfits⟩ := (h op e (by simp)).inside .bitOr (by decide)
    refine ⟨⟨sign, op, ws, e.bare⟩ :: xs, _ :: ts,
      .cons ⟨_, _, rfl, hsign.spaced, hspells.undotted⟩ htexts, ?_, ?_, ?_, ?_⟩
    · rw [Comparison.writeAll, hwritten, List.flatten_cons]
    · rw [List.map_cons, hvalues, Comparison.bareAll]
    · exact List.forall_mem_cons.mpr ⟨hkinds, hsigns⟩
    · exact List.forall_mem_cons.mpr ⟨hfits.reads, hreads⟩

theorem compare {left : Expr} {rest : List Comparison} (hl : Written quote left)
    (hrest : rest ≠ []) (h : ∀ op e, .mk op e ∈ rest → Written quote e) :
    Written quote (.node span (.compare left rest)) := by
  obtain ⟨ws, hspells, hfits⟩ := hl.inside .bitOr (by decide)
  obtain ⟨xs, ts, htexts, hwritten, hvalues, hsigns, hreads⟩ := comparisons h
  have hxs : xs ≠ [] := by
    rintro rfl
    cases rest with
    | nil => exact hrest rfl
    | cons c rest =>
      obtain ⟨op, e⟩ := c
      exact nomatch hvalues
  have hchain := Reads.chain hfits.reads hxs hsigns hreads
  rw [hvalues] at hchain
  have htext := Spells.further htexts hspells.undotted
  rw [← hwritten] at htext
  exact of_shape (p := .comparison) rfl (by decide) htext nofun (hchain.fits (by decide))

theorem lambda {body : Expr} (h : Written quote body) :
    Written quote (.node span (.lambda (.mk [] [] none [] none []) body)) := by
  obtain ⟨ws, hspells, hfits⟩ := h.inside .test (by decide)
  have hreads : Reads .expression (⟨.kwLambda, text "lambda"⟩ :: ⟨.colon, text ":"⟩ :: ws) _ :=
    Reads.lambda rfl rfl hfits.reads
  exact of_shape (p := .test) rfl (by decide) (hspells.opened .lambda) nofun
    (hreads.fits (by decide))

theorem await {value : Expr} (h : Written quote value) :
    Written quote (.node span (.await value)) := by
  obtain ⟨ws, hspells, hfits⟩ := h.inside .atom (by decide)
  have hopening : Opening (text "await" ++ text " ") [⟨.kwAwait, text "await"⟩] :=
    .word ⟨_, _, rfl, rfl, rfl⟩
  have hreads := Reads.await (w := ⟨.kwAwait, text "await"⟩) rfl hfits.reads
  exact of_shape (p := .await) rfl (by decide) (hspells.opened hopening) nofun
    (hreads.fits (by decide))

end Written

theorem Written.attribute {quote : Byte} {span : Span} {value : Expr} {name : Bytes}
    (h : Written quote value) (hname : IsName name) :
    Written quote (.node span (.attribute value name .load)) := by
  obtain ⟨ws, hspells, hfits⟩ := h.inside .atom (by decide)
  have hvalue : ∃ ws', Spells true (parenthesizeIf value.isInteger (value.write quote .atom)) ws' ∧
      Leads .atom ws' value.bare := by
    cases hinteger : value.isInteger with
    | false =>
      rw [hinteger] at hspells
      exact ⟨ws, hspells, hfits.leads (.inr rfl)⟩
    | true =>
      -- an integer stands in parentheses here, lest its point belong to a number
      exact ⟨_, hspells.parenthesized,
        Leads.group rfl rfl (hfits.reads.mono (Nat.zero_le _))⟩
  obtain ⟨ws', hspells', hleads⟩ := hvalue
  exact of_atom rfl rfl (hspells'.attribute hname) (hleads.attribute rfl rfl)

namespace Written

variable {quote : Byte} {span : Span}

/-- Arguments without marks are written for what they are. -/
theorem exists_arguments {arguments : List Expr} (h : ∀ e ∈ arguments, Written quote e) :
    ∃ wss, List.Forall₂ SpellsItem (Expr.writeAll quote .test arguments) wss ∧
      List.Forall₂ ReadsArgument (arguments.map fun e => .plain e.bare) wss := by
  induction arguments with
  | nil => exact ⟨[], .nil, .nil⟩
  | cons e es ih =>
    obtain ⟨he, hes⟩ := List.forall_mem_cons.mp h
    obtain ⟨ws, hspells, hfits⟩ := he.inside .test (by decide)
    obtain ⟨wss, htexts, hreads⟩ := ih hes
    exact ⟨ws :: wss, .cons hspells.item htexts, .cons (.plain hfits.reads) hreads⟩

theorem call {callee : Expr} {arguments : List Expr} (h : Written quote callee)
    (harguments : ∀ e ∈ arguments, Written quote e) :
    Written quote (.node span (.call callee arguments [])) := by
  obtain ⟨ws, hspells, hfits⟩ := h.inside .atom (by decide)
  obtain ⟨wss, htexts, hreads⟩ := exists_arguments harguments
  have hlegal : ArgumentItem.Legal (arguments.map fun e => .plain e.bare) :=
    List.pairwise_map.mpr (List.pairwise_of_forall fun _ _ => trivial)
  have hleads := (hfits.leads (.inr rfl)).call
    (show (Word.mk .openParen (text "(")).kind = .openParen from rfl) hreads hlegal
    (show (Word.mk .closeParen (text ")")).kind = .closeParen from rfl)
  have htext : (Expr.Shape.call callee arguments []).write quote = callee.write quote .atom ++
      parenthesize (commaSeparated (Expr.writeAll quote .test arguments)) := by
    rw [Expr.Shape.write, Keyword.writeAll, List.append_nil]
  refine of_atom rfl rfl (htext ▸ hspells.callOf htexts) ?_
  rw [Expr.bare, Expr.Shape.bare, Expr.bareAll_eq_map]
  simpa [Function.comp_def, ArgumentItem.positional?, ArgumentItem.keyword?, Expr.new] using hleads

theorem subscript {value index : Expr} (h : Written quote value) (hindex : Written quote index) :
    Written quote (.node span (.subscript value index .load)) := by
  obtain ⟨ws, hspells, hfits⟩ := h.inside .atom (by decide)
  obtain ⟨ws', hspells', hreads⟩ := hindex.index
  refine of_atom rfl rfl (hspells.subscript hspells')
    ((hfits.leads (.inr rfl)).subscript rfl hreads rfl)

theorem tuple {elements : List Expr} (h : ∀ e ∈ elements, Written quote e) :
    Written quote (.node span (.tuple elements .load)) := by
  cases elements with
  | nil => exact of_atom rfl rfl Spells.emptyParentheses (Leads.emptyTuple rfl rfl)
  | cons e es =>
    obtain ⟨ws, dotted, hspells, hitems⟩ := tupleItems h
    refine ⟨fun p hp => ?_, ⟨ws, ?_, hitems.readsList⟩, ⟨ws, ?_, hitems.index⟩⟩
    · have hleads : Leads .atom (⟨.openParen, text "("⟩ :: (ws ++ [⟨.closeParen, text ")"⟩])) _ :=
        Leads.tuple rfl rfl hitems
      have hlt : Precedence.tuple.rank < p.rank := Nat.lt_of_lt_of_le (by decide) hp
      refine ⟨_, ?_, hleads.inside p⟩
      rw [Expr.write_of_lt (s := .tuple (e :: es) .load) hlt]
      exact hspells.parenthesized.of_true _
    · rw [Expr.write_of_le (show Precedence.tuple ≤ .tuple by decide)]
      exact hspells.undotted
    · exact hspells.undotted

theorem named {target : Span} {id : Bytes} {value : Expr} (hid : IsName id)
    (h : Written quote value) :
    Written quote (.node span (.named (.node target (.name id .store)) value)) := by
  obtain ⟨ws, hspells, hfits⟩ := h.inside .test (by decide)
  have hsign : Signs (text ":=") [⟨.colonEqual, text ":="⟩] := .operator (by decide)
  have hgroup := ((Spells.name hid).separated hsign.spaced hspells).parenthesized
  have hleads : Leads .atom (⟨.openParen, text "("⟩ ::
      ([⟨.identifier, id⟩] ++ ([⟨.colonEqual, text ":="⟩] ++ ws) ++ [⟨.closeParen, text ")"⟩])) _ :=
    Leads.named rfl rfl rfl rfl hfits.reads
  have hreads : Reads .expression _ _ := (hleads.reads (.inr rfl)).mono (Nat.zero_le _)
  refine ⟨fun p hp => ⟨_, ?_, hleads.inside p⟩, ⟨_, ?_, hreads.list⟩, ⟨_, ?_, hreads.index⟩⟩
  · have hlt : Precedence.named.rank < p.rank := Nat.lt_of_lt_of_le (by decide) hp
    rw [Expr.write_of_lt (s := .named _ _) hlt]
    exact hgroup.of_true _
  · rw [Expr.write_of_lt (s := .named _ _) (show Precedence.named.rank < _ by decide)]
    exact hgroup.undotted
  · exact hgroup.undotted

end Written

/-- Every tree of operators is written so that it reads as itself. -/
theorem Expr.IsOperatorTree.written {e : Expr} (h : e.IsOperatorTree) (quote : Byte) :
    Written quote e := by
  induction h with
  | name span hid => exact .name hid
  | integer span hdigits => exact .integer hdigits
  | boolean span op hlength _ ih => exact .boolean hlength ih
  | binary span op _ _ ihl ihr => exact .binary ihl ihr
  | unary span op _ ih => exact .unary ih
  | compare span _ hrest _ ihl ih => exact .compare ihl hrest ih
  | conditional span _ _ _ ihtest ihbody ihorelse => exact .conditional ihtest ihbody ihorelse
  | lambda span _ ih => exact .lambda ih
  | await span _ ih => exact .await ih
  | named span target hid _ ih => exact .named hid ih
  | tuple span _ ih => exact .tuple ih
  | «attribute» span _ hname ih => exact Written.attribute ih hname
  | call span _ _ ih iharguments => exact .call ih iharguments
  | subscript span _ _ ih ihindex => exact .subscript ih ihindex

/-! ## Written trees read back -/

/-- A text whose words read as an expression is a source of it. -/
theorem Spells.ofSource [Unicode.CharacterNames] {dotted : Bool} {s : Bytes} {ws : List Word}
    {e : Expr} (h : Spells dotted s ws) (hread : ReadsList ws e) :
    ∃ v, Expr.ofSource s = .ok v ∧ v.bare = e := by
  have hwords := h.divides [] nofun
  obtain ⟨b, t, rfl, hb⟩ := h.begins
  obtain ⟨hblank, hascii⟩ := Byte.startsOperand_plain hb
  rw [List.append_nil] at hwords
  obtain ⟨ts, newline, final, htokens, rfl, hcomment, hnewline, hfinal⟩ :=
    hwords.tokenize hblank hascii
  rw [Expr.ofSource, Parse.ofSource, htokens]
  exact hread.onlyExpression hcomment hnewline hfinal _

/-- A tree of operators reads back from its text at every place that demands at least the strength
of a tuple: the parentheses that are left out are those that the grammar does not need. -/
theorem Expr.ofSource_write [Unicode.CharacterNames] {e : Expr} (h : e.IsOperatorTree)
    (quote : Byte) {p : Precedence} (hp : .tuple ≤ p) :
    ∃ v, Expr.ofSource (e.write quote p) = .ok v ∧ v.bare = e.bare := by
  have hwritten := h.written quote
  by_cases htuple : p = .tuple
  · subst htuple
    obtain ⟨ws, hspells, hread⟩ := hwritten.list
    exact hspells.ofSource hread
  · have hyield : .yield ≤ p := by
      cases p <;> first | exact absurd rfl htuple | exact absurd hp (by decide) | decide
    obtain ⟨ws, hspells, hfits⟩ := hwritten.inside p hyield
    exact hspells.ofSource (Reads.list (hfits.reads.mono (Nat.zero_le _)))

/-- The power of a tuple. -/
def Expr.tuplePower : Expr :=
  .new (.binary .pow (.new (.tuple [.new (.name (text "a") .load),
    .new (.unary .minus (.new (.constant (.integer (text "1")))))] .load))
    (.new (.name (text "b") .load)))

open scoped Unicode.NameTable in
/-- The base of a power that is a tuple stands in parentheses. -/
theorem Expr.ofSource_write_tuplePower :
    tuplePower.write Byte.doubleQuote .factor = text "(a, -1) ** b" ∧
      ∃ v, Expr.ofSource (tuplePower.write Byte.doubleQuote .factor) = .ok v ∧
        v.bare = tuplePower.bare := by
  refine ⟨by decide +kernel, Expr.ofSource_write ?_ _ (by decide)⟩
  have ha : IsName (text "a") := ⟨⟨_, _, rfl, rfl, rfl⟩, by decide⟩
  have hb : IsName (text "b") := ⟨⟨_, _, rfl, rfl, rfl⟩, by decide⟩
  have hone : (Expr.new (.constant (.integer (text "1")))).IsOperatorTree :=
    .integer _ ⟨rfl, by decide, by decide⟩
  refine .binary _ _ (.tuple _ ?_) (.name _ hb)
  exact List.forall_mem_cons.mpr
    ⟨.name _ ha, List.forall_mem_singleton.mpr (.unary _ .minus hone)⟩

end SyntaxTree
