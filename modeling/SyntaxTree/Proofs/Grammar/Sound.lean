import Mathlib.Data.List.Chain
import SyntaxTree.Proofs.Grammar.Derives

/-
# Soundness of the grammar of operators

Where only words of the grammar of operators are ahead, no call follows an operand and no
parentheses are empty, a reading that succeeds has taken words that derive the tree it gives.
-/

namespace SyntaxTree

open Parse

/-! ## Plain words -/

/-- The words of the grammar of operators. -/
def TokenKind.isOperatorWord : TokenKind → Bool
  | .identifier | .integer | .openParen | .closeParen | .kwAwait | .kwIf | .kwElse | .kwAnd | .kwOr
  | .kwNot | .equalEqual | .notEqual | .less | .lessEqual | .greater | .greaterEqual | .kwIn
  | .kwIs | .pipe | .caret | .ampersand | .shiftLeft | .shiftRight | .plus | .minus | .star
  | .slash | .doubleSlash | .percent | .atSign | .doubleStar | .tilde => true
  | _ => false

/-- The last word of an operand. -/
def TokenKind.endsOperand : TokenKind → Bool
  | .identifier | .integer | .closeParen => true
  | _ => false

/-- Words next to each other where neither a call nor an empty pair of parentheses begins. -/
def Word.MayPrecede (w w' : Word) : Prop :=
  (w.kind.endsOperand → w'.kind ≠ .openParen) ∧ (w.kind = .openParen → w'.kind ≠ .closeParen)

instance (w w' : Word) : Decidable (w.MayPrecede w') :=
  inferInstanceAs (Decidable (_ ∧ _))

/-- Words of the grammar of operators up to the end of the input. -/
structure Plain (ws : List Word) : Prop where
  kinds : ∀ w ∈ ws, w.kind.isOperatorWord ∨ w.kind = .newline ∨ w.kind = .endOfInput
  adjacent : ws.IsChain Word.MayPrecede
  ends : ∀ w ∈ ws.getLast?, w.kind = .endOfInput

/-- There is always a word ahead. -/
theorem Cursor.exists_words (c : Cursor) : ∃ w tail, c.words = w :: tail := by
  refine List.exists_cons_of_ne_nil ?_
  simp [words]

/-- The token at a distance is one of those ahead. -/
theorem Cursor.word_peekAt_mem (c : Cursor) (distance : Nat) :
    (c.peekAt distance).word ∈ c.words := by
  refine List.mem_map_of_mem ?_
  rw [peekAt, List.getD_eq_getElem?_getD]
  cases h : c.rest[distance]? with
  | none => exact List.mem_append_right _ (List.mem_singleton_self c.final)
  | some t => exact List.mem_append_left _ (List.mem_of_getElem? h)

namespace Plain

variable {ws ws' : List Word} {w : Word}

/-- What stands behind plain words is plain. -/
theorem of_append (h : Plain (ws ++ ws')) : Plain ws' where
  kinds := fun w hw => h.kinds w (List.mem_append_right ws hw)
  adjacent := h.adjacent.right_of_append
  ends := by
    intro w hw
    refine h.ends w ?_
    rw [List.getLast?_append, Option.mem_def.mp hw]
    rfl

/-- What stands behind the first of plain words is plain. -/
theorem of_cons (h : Plain (w :: ws)) : Plain ws := by
  rw [← List.singleton_append] at h
  exact h.of_append

/-- Words of the grammar of operators are plain in front of a line end and the end of the input. -/
theorem of_isOperatorWord (hkinds : ∀ w ∈ ws, w.kind.isOperatorWord)
    (hadjacent : ws.IsChain Word.MayPrecede) {newline final : Word}
    (hnewline : newline.kind = .newline) (hfinal : final.kind = .endOfInput) :
    Plain (ws ++ [newline, final]) where
  kinds := by
    refine List.forall_mem_append.mpr ⟨fun w hw => .inl (hkinds w hw), ?_⟩
    simp [hnewline, hfinal]
  adjacent := by
    refine List.isChain_append.mpr ⟨hadjacent, ?_, ?_⟩
    · rw [List.isChain_pair]
      constructor <;> simp [hnewline, hfinal, TokenKind.endsOperand]
    · intro w _ w' hw'
      obtain rfl : newline = w' := by simpa using hw'
      constructor <;> simp [hnewline]
  ends := by simp [hfinal]

/-- No word of another kind is among plain words. -/
theorem kind_ne (h : Plain ws) (hw : w ∈ ws) {kind : TokenKind}
    (hkind : kind.isOperatorWord = false ∧ kind ≠ .newline ∧ kind ≠ .endOfInput) :
    w.kind ≠ kind := by
  rintro rfl
  have hw := h.kinds w hw
  simp [hkind] at hw

/-- The cursor moves on behind a word that is not the last one. -/
theorem words_advance {c : Cursor} (h : Plain c.words) (hc : c.words = w :: ws)
    (hw : w.kind ≠ .endOfInput) : c.advance.words = ws := by
  refine Cursor.words_advance hc ?_
  rintro rfl
  rw [hc] at h
  exact hw (h.ends w rfl)

end Plain

/-! ## Sound readings -/

/-- A reading of plain words that takes words which form its result. -/
def Takes {α : Type} (p : Parse α) (forms : List Word → α → Prop) : Prop :=
  ∀ c a c', Plain c.words → p c = .ok a c' → ∃ ws, c.words = ws ++ c'.words ∧ forms ws a

namespace Takes

variable {α β : Type}

/-- A reading leaves plain words behind the ones that it takes. -/
theorem run {p : Parse α} {forms : List Word → α → Prop} (hp : Takes p forms) {c c' : Cursor}
    {a : α} (hc : Plain c.words) (h : p c = .ok a c') :
    ∃ ws, c.words = ws ++ c'.words ∧ Plain c'.words ∧ forms ws a := by
  obtain ⟨ws, hws, ha⟩ := hp c a c' hc h
  exact ⟨ws, hws, (hws ▸ hc).of_append, ha⟩

/-- Behind the word at the cursor, a reading takes words of its own. -/
theorem behind {p : Parse α} {forms : List Word → α → Prop} (hp : Takes p forms)
    {c c' : Cursor} {w : Word} {tail : List Word} {a : α} (hc : Plain c.words)
    (hwords : c.words = w :: tail) (hw : w.kind ≠ .endOfInput) (h : p c.advance = .ok a c') :
    ∃ ws, c.words = w :: ws ++ c'.words ∧ forms ws a := by
  have hadvance := hc.words_advance hwords hw
  obtain ⟨ws, hws, ha⟩ := hp _ _ _ (hadvance ▸ (hwords ▸ hc).of_cons) h
  refine ⟨ws, ?_, ha⟩
  rw [hwords, ← hadvance, hws]
  rfl

/-- The next word is taken if it is of the kind asked for. -/
theorem accept {kind : TokenKind} (hkind : kind ≠ .endOfInput) :
    Takes (Parse.accept kind) fun ws taken =>
      if taken then ∃ w, ws = [w] ∧ w.kind = kind else ws = [] := by
  intro c taken c' hc h
  obtain ⟨w, tail, hwords⟩ := c.exists_words
  by_cases hw : w.kind = kind
  · rw [accept_true hwords hw] at h
    cases h
    refine ⟨[w], ?_, w, rfl, hw⟩
    rw [hc.words_advance hwords (by rw [hw]; exact hkind), hwords]
    rfl
  · rw [accept_false hwords hw] at h
    cases h
    exact ⟨[], rfl, rfl⟩

/-- A word that must stand at the cursor is taken. -/
theorem expect {what : Missing} (hkind : what.kind ≠ .endOfInput) :
    Takes (Parse.expect what) fun ws _ => ∃ w, ws = [w] ∧ w.kind = what.kind := by
  intro c a c' hc h
  rw [Parse.expect] at h
  obtain ⟨taken, c₁, haccept, h⟩ := Parse.exists_of_bind_eq_ok h
  obtain ⟨ws, hws, -, htaken⟩ := (accept hkind).run hc haccept
  cases taken with
  | false => cases h
  | true =>
    cases h
    exact ⟨ws, hws, htaken⟩

/-- Words that form an item, or none where there is no item. -/
def FormsItem {ι : Type} (words : ι → List Word) (result : α → ι → Prop) (piece : ι → Prop)
    (ws : List Word) : Option α → Prop
  | none => ws = []
  | some a => ∃ i, ws = words i ∧ result a i ∧ piece i

/-- Collected items take the words of one item after the other. -/
theorem collectUpTo {ι : Type} {item : Parse (Option α)} {words : ι → List Word}
    {result : α → ι → Prop} {piece : ι → Prop}
    (hitem : Takes item (FormsItem words result piece)) :
    ∀ limit : Nat, Takes (Parse.collectUpTo item limit) fun ws as =>
      ∃ pieces : List ι, ws = pieces.flatMap words ∧ List.Forall₂ result as pieces ∧
        ∀ i ∈ pieces, piece i := by
  intro limit
  induction limit with
  | zero =>
    intro c as c' _ h
    cases h
  | succ limit ih =>
    intro c as c' hc h
    rw [Parse.collectUpTo] at h
    obtain ⟨found, c₁, hfound, h⟩ := Parse.exists_of_bind_eq_ok h
    obtain ⟨ws, hws, hc₁, hresult⟩ := hitem.run hc hfound
    cases found with
    | none =>
      cases h
      exact ⟨ws, hws, [], hresult, .nil, List.forall_mem_nil _⟩
    | some a =>
      obtain ⟨i, rfl, ha, hi⟩ := hresult
      obtain ⟨rest, c₂, hrest, h⟩ := Parse.exists_of_bind_eq_ok h
      cases h
      obtain ⟨ws', hws', pieces, rfl, has, hpieces⟩ := ih c₁ rest c' hc₁ hrest
      refine ⟨_, ?_, i :: pieces, rfl, .cons ha has, List.forall_mem_cons.mpr ⟨hi, hpieces⟩⟩
      rw [hws, hws', List.flatMap_cons, List.append_assoc]

/-- What is collected where the cursor stands takes the words of one item after the other. -/
theorem collect {ι : Type} {item : Parse (Option α)} {words : ι → List Word}
    {result : α → ι → Prop} {piece : ι → Prop}
    (hitem : Takes item (FormsItem words result piece)) :
    Takes (Parse.collect item) fun ws as =>
      ∃ pieces : List ι, ws = pieces.flatMap words ∧ List.Forall₂ result as pieces ∧
        ∀ i ∈ pieces, piece i :=
  fun c as c' hc h => collectUpTo hitem (c.rest.length + 1) c as c' hc h

end Takes

/-- A reading of plain words that takes words from which its result derives. -/
abbrev TakesLevel (level : Level) (p : Parse Expr) : Prop :=
  Takes p fun ws v => Derives level ws v.bare

/-! ## Operations -/

/-- An operation is an operator and an operand. -/
theorem Takes.operation {level next : Level} {operand : Parse Expr} (h : TakesLevel next operand)
    (left : Expr) :
    Takes (Parse.operation level.operator? operand left) fun ws r =>
      match r with
      | .done v => ws = [] ∧ v = left
      | .yield v => ∃ w op ws' r, ws = w :: ws' ∧ (w.kind, op) ∈ level.operators ∧
          Derives next ws' r ∧ v.bare = .new (.binary op left.bare r) := by
  intro c r c' hc h'
  obtain ⟨w, tail, hwords⟩ := c.exists_words
  rw [Parse.operation, bind_ok (kind_run hwords)] at h'
  cases hop : level.operator? w.kind with
  | none =>
    rw [hop] at h'
    cases h'
    exact ⟨[], rfl, rfl, rfl⟩
  | some op =>
    rw [hop] at h'
    dsimp only at h'
    rw [bind_ok (next_run c)] at h'
    obtain ⟨right, c₁, hright, h'⟩ := Parse.exists_of_bind_eq_ok h'
    cases h'
    have hend : w.kind ≠ .endOfInput := by
      intro hw
      have hcontinues := TokenKind.continues?_of_operator? hop
      rw [hw] at hcontinues
      cases hcontinues
    obtain ⟨ws, hws, hderives⟩ := h.behind hc hwords hend hright
    have hmem := Level.mem_operators_iff.mpr hop
    exact ⟨w :: ws, hws, w, op, ws, right.bare, rfl, hmem, hderives, rfl⟩

/-- Repeated operations associate to the left. -/
theorem Takes.operations {level next : Level} {operand : Parse Expr} (h : TakesLevel next operand) :
    ∀ (limit : Nat) (left : Expr),
      Takes (Parse.iterateUpTo (Parse.operation level.operator? operand) limit left) fun ws v =>
        ∃ rest : List (Further BinaryOperator), ws = rest.flatMap Further.all ∧
          v.bare = Further.applied left.bare rest ∧
          (∀ x ∈ rest, ∃ w, x.sign = [w] ∧ (w.kind, x.op) ∈ level.operators) ∧
          ∀ x ∈ rest, Derives next x.words x.value := by
  intro limit
  induction limit with
  | zero =>
    intro left c v c' _ hrun
    cases hrun
  | succ limit ih =>
    intro left c v c' hc hrun
    rw [Parse.iterateUpTo] at hrun
    obtain ⟨r, c₁, hstep, hmore⟩ := Parse.exists_of_bind_eq_ok hrun
    obtain ⟨ws, hws, hc₁, hresult⟩ := (Takes.operation h left).run hc hstep
    cases r with
    | done v =>
      obtain ⟨rfl, rfl⟩ := hresult
      cases hmore
      exact ⟨[], hws, [], rfl, rfl, List.forall_mem_nil _, List.forall_mem_nil _⟩
    | yield v₁ =>
      obtain ⟨w, op, ws', r, rfl, hop, hderives, hbare⟩ := hresult
      obtain ⟨ws, hws', rest, rfl, hv, hsigns, hoperands⟩ := ih v₁ c₁ v c' hc₁ hmore
      refine ⟨_, ?_, ⟨[w], op, ws', r⟩ :: rest, rfl, ?_, ?_, ?_⟩
      · rw [hws, hws', List.flatMap_cons, List.append_assoc]
        rfl
      · rw [hv, hbare]
        rfl
      · exact List.forall_mem_cons.mpr ⟨⟨w, rfl, hop⟩, hsigns⟩
      · exact List.forall_mem_cons.mpr ⟨hderives, hoperands⟩

/-- A level of operations takes the words of its operands and operators. -/
theorem TakesLevel.leftAssociative {read : Reading} {field : FieldReading} {level next : Level}
    (hnext : level.operand? = some next) (h : TakesLevel next (next.parse read field)) :
    TakesLevel level (level.parse read field) := by
  intro c v c' hc hrun
  rw [Level.parse_eq_leftAssociative hnext, Parse.leftAssociative] at hrun
  obtain ⟨first, c₁, hfirst, hrun⟩ := Parse.exists_of_bind_eq_ok hrun
  obtain ⟨ws, hws, hc₁, hfirst⟩ := h.run hc hfirst
  obtain ⟨f, more, hwords⟩ := c₁.exists_words
  rw [iterate_run _ _ hwords] at hrun
  obtain ⟨ws', hws', rest, rfl, hv, hsigns, hoperands⟩ := Takes.operations h _ first _ _ _ hc₁ hrun
  refine ⟨ws ++ rest.flatMap Further.all, by rw [hws, hws', List.append_assoc], ?_⟩
  show Derives level _ v.bare
  rw [hv]
  exact .operations hnext hfirst hsigns hoperands

/-! ## Comparisons and conditions -/

/-- The words that spell a comparison are taken. -/
theorem Takes.compareOperator : Takes Parse.compareOperator fun ws found =>
    match found with
    | none => ws = []
    | some op => ws.map Word.kind = op.kinds := by
  intro c found c' hc h
  obtain ⟨w, tail, hwords⟩ := c.exists_words
  -- Most comparisons are one word; `not in` needs a look behind `not`, and `not` may follow `is`.
  have htake : ∀ op : CompareOperator, op.kinds = [w.kind] → w.kind ≠ .endOfInput →
      compareOperator.take op c = .ok found c' →
      ∃ ws, c.words = ws ++ c'.words ∧ found = some op ∧ ws.map Word.kind = op.kinds := by
    intro op hop hend h
    rw [compareOperator.take, bind_ok (next_run c)] at h
    cases h
    exact ⟨[w], by rw [hc.words_advance hwords hend, hwords]; rfl, rfl, hop.symm⟩
  rw [Parse.compareOperator, bind_ok (kind_run hwords)] at h
  cases hkind : w.kind with
  | kwNot =>
    rw [hkind] at h
    have hat : kindAt 1 c = .ok (c.peekAt 1).kind c := rfl
    dsimp only at h
    rw [bind_ok hat] at h
    split at h
    · rename_i hin
      have hadvance := hc.words_advance hwords (by rw [hkind]; decide)
      obtain ⟨w', tail', hwords'⟩ := c.advance.exists_words
      have hsecond : c.words = w :: w' :: tail' := by rw [hwords, ← hadvance, hwords']
      have hin' : w'.kind = .kwIn := by
        rw [← Cursor.kind_peekAt_one hsecond]
        simpa using hin
      have hplain : Plain c.advance.words := hadvance ▸ (hwords ▸ hc).of_cons
      have hadvance' := hplain.words_advance hwords' (by rw [hin']; decide)
      cases h
      refine ⟨[w, w'], by rw [hadvance', hsecond]; rfl, ?_⟩
      show [w.kind, w'.kind] = _
      rw [hkind, hin']
      rfl
    · cases h
      exact ⟨[], rfl, rfl⟩
  | kwIs =>
    rw [hkind] at h
    dsimp only at h
    rw [bind_ok (next_run c)] at h
    obtain ⟨taken, c₁, haccept, h⟩ := Parse.exists_of_bind_eq_ok h
    cases h
    obtain ⟨ws, hws, htaken⟩ :=
      (Takes.accept (by decide)).behind hc hwords (by rw [hkind]; decide) haccept
    refine ⟨w :: ws, hws, ?_⟩
    cases taken with
    | false =>
      obtain rfl := htaken
      show [w.kind] = _
      rw [hkind]
      rfl
    | true =>
      obtain ⟨w', rfl, hw'⟩ := htaken
      show [w.kind, w'.kind] = _
      rw [hkind, hw']
      rfl
  | equalEqual | notEqual | less | lessEqual | greater | greaterEqual | kwIn =>
    rw [hkind] at h
    obtain ⟨ws, hws, rfl, hkinds⟩ := htake _ (by rw [hkind]; rfl) (by rw [hkind]; decide) h
    exact ⟨ws, hws, hkinds⟩
  | _ =>
    rw [hkind] at h
    cases h
    exact ⟨[], rfl, rfl⟩

/-- A further comparison is an operator and an operand. -/
theorem Takes.furtherComparison {operand : Parse Expr} (h : TakesLevel .bitOr operand) :
    Takes (Parse.furtherComparison operand) (FormsItem Further.all Further.IsComparison
      fun x => x.sign.map Word.kind = x.op.kinds ∧ Derives .bitOr x.words x.value) := by
  intro c found c' hc hrun
  rw [Parse.furtherComparison] at hrun
  obtain ⟨op, c₁, hop, hrun⟩ := Parse.exists_of_bind_eq_ok hrun
  obtain ⟨sign, hsign, hc₁, hresult⟩ := Takes.compareOperator.run hc hop
  cases op with
  | none =>
    cases hrun
    exact ⟨sign, hsign, hresult⟩
  | some op =>
    obtain ⟨v, c₂, hv, hrun⟩ := Parse.exists_of_bind_eq_ok hrun
    cases hrun
    obtain ⟨ws, hws, hderives⟩ := h _ _ _ hc₁ hv
    exact ⟨sign ++ ws, by rw [hsign, hws, List.append_assoc], ⟨sign, op, ws, v.bare⟩, rfl,
      ⟨v, rfl, rfl⟩, hresult, hderives⟩

/-- A further condition is the word in front of it and an operand. -/
theorem Takes.furtherCondition {op : BoolOperator} {operand : Parse Expr}
    (h : TakesLevel op.operandLevel operand) :
    Takes (Parse.furtherCondition op.kind operand)
      (FormsItem (@Further.all BoolOperator) (fun a x => a.bare = x.value) fun x =>
        (∃ w, x.sign = [w] ∧ w.kind = op.kind) ∧ Derives op.operandLevel x.words x.value) := by
  intro c found c' hc hrun
  rw [Parse.furtherCondition] at hrun
  obtain ⟨taken, c₁, haccept, hrun⟩ := Parse.exists_of_bind_eq_ok hrun
  obtain ⟨sign, hsign, hc₁, htaken⟩ :=
    (Takes.accept (by cases op <;> decide)).run hc haccept
  cases taken with
  | false =>
    cases hrun
    exact ⟨sign, hsign, htaken⟩
  | true =>
    obtain ⟨w, rfl, hw⟩ := htaken
    obtain ⟨v, c₂, hv, hrun⟩ := Parse.exists_of_bind_eq_ok hrun
    cases hrun
    obtain ⟨ws, hws, hderives⟩ := h _ _ _ hc₁ hv
    exact ⟨[w] ++ ws, by rw [hsign, hws, List.append_assoc], ⟨[w], op, ws, v.bare⟩, rfl, rfl,
      ⟨w, rfl, hw⟩, hderives⟩

/-- Conditions joined by one operator take the words of all of them. -/
theorem TakesLevel.joined {op : BoolOperator} {operand : Parse Expr}
    (h : TakesLevel op.operandLevel operand) :
    TakesLevel op.level (Parse.joined op op.kind operand) := by
  intro c v c' hc hrun
  rw [Parse.joined] at hrun
  obtain ⟨first, c₁, hfirst, hrun⟩ := Parse.exists_of_bind_eq_ok hrun
  obtain ⟨ws, hws, hc₁, hfirst⟩ := h.run hc hfirst
  obtain ⟨as, c₂, hcollect, hrun⟩ := Parse.exists_of_bind_eq_ok hrun
  obtain ⟨_, hws₁, rest, rfl, has, hrest⟩ := (Takes.furtherCondition h).collect _ _ _ hc₁ hcollect
  by_cases hlength : as.length = 0
  · rw [if_pos hlength] at hrun
    cases hrun
    obtain rfl := List.length_eq_zero_iff.mp (has.length_eq ▸ hlength)
    exact ⟨ws, by rw [hws, hws₁]; rfl, .looser (by cases op <;> decide) hfirst⟩
  · rw [if_neg hlength] at hrun
    cases hrun
    refine ⟨ws ++ rest.flatMap Further.all, by rw [hws, hws₁, List.append_assoc], ?_⟩
    have hderives := Derives.joined hfirst (fun h => hlength (by rw [has.length_eq, h]; rfl))
      (fun x hx => (hrest x hx).1) (fun x hx => (hrest x hx).2)
    rw [← Expr.bareAll_eq has] at hderives
    exact hderives

/-- A chain of comparisons takes the words of all of them. -/
theorem TakesLevel.comparison {read : Reading} {field : FieldReading}
    (h : TakesLevel .bitOr (Parse.bitOr read field)) :
    TakesLevel .comparison (Parse.comparison read field) := by
  intro c v c' hc hrun
  rw [Parse.comparison_eq] at hrun
  obtain ⟨first, c₁, hfirst, hrun⟩ := Parse.exists_of_bind_eq_ok hrun
  obtain ⟨ws, hws, hc₁, hfirst⟩ := h.run hc hfirst
  obtain ⟨as, c₂, hcollect, hrun⟩ := Parse.exists_of_bind_eq_ok hrun
  obtain ⟨_, hws₁, rest, rfl, has, hrest⟩ := (Takes.furtherComparison h).collect _ _ _ hc₁ hcollect
  by_cases hlength : as.length = 0
  · rw [if_pos hlength] at hrun
    cases hrun
    obtain rfl := List.length_eq_zero_iff.mp (has.length_eq ▸ hlength)
    exact ⟨ws, by rw [hws, hws₁]; rfl, .looser (by decide) hfirst⟩
  · rw [if_neg hlength] at hrun
    cases hrun
    refine ⟨ws ++ rest.flatMap Further.all, by rw [hws, hws₁, List.append_assoc], ?_⟩
    have hderives := Derives.chain hfirst (fun h => hlength (by rw [has.length_eq, h]; rfl))
      (fun x hx => (hrest x hx).1) (fun x hx => (hrest x hx).2)
    rw [← Comparison.bareAll_eq has] at hderives
    exact hderives

/-! ## Atoms -/

section Levels

variable {read : Reading} {field : FieldReading} (hread : ∀ g : Goal, TakesLevel g.level (read g))
include hread

/-- Where an assignment or a starred expression could stand, it is a starred one or it derives. -/
theorem Takes.starNamed : Takes (Parse.starNamed read) fun ws v =>
    v.isStarred = true ∨ Derives .expression ws v.bare := by
  intro c v c' hc h
  obtain ⟨w, tail, hwords⟩ := c.exists_words
  rw [Parse.starNamed, starredOr, bind_ok (at?_run hwords _)] at h
  by_cases hstar : w.kind = .star
  · rw [if_pos (by simpa using hstar), bind_ok (next_run c)] at h
    obtain ⟨value, c₁, hvalue, h⟩ := Parse.exists_of_bind_eq_ok h
    cases h
    have hadvance := hc.words_advance hwords (by rw [hstar]; decide)
    obtain ⟨ws, hws, -⟩ := hread .operand _ _ _ (hadvance ▸ (hwords ▸ hc).of_cons) hvalue
    refine ⟨w :: ws, ?_, .inl rfl⟩
    rw [hwords, ← hadvance, hws]
    rfl
  · have hassign : ((c.peekAt 1).kind == .colonEqual) = false := by
      have hne : (c.peekAt 1).kind ≠ .colonEqual := hc.kind_ne (c.word_peekAt_mem 1) (by decide)
      simpa using hne
    have hkind : kindAt 1 c = .ok (c.peekAt 1).kind c := rfl
    rw [if_neg (by simpa using hstar), namedExpression, bind_ok (at?_run hwords _),
      bind_ok hkind, hassign, Bool.and_false] at h
    obtain ⟨ws, hws, hderives⟩ := hread .expression c v c' hc h
    exact ⟨ws, hws, .inr hderives⟩

/-- Parentheses with something in them hold an expression. -/
theorem Parse.parenthesized_takes {start : Position} {c c' : Cursor} {w : Word} {tail : List Word}
    {v : Expr} (hc : Plain c.words) (hwords : c.words = w :: tail) (hw : w.kind ≠ .closeParen)
    (h : parenthesized read start c = .ok v c') :
    ∃ ws close, c.words = ws ++ close :: c'.words ∧ close.kind = .closeParen ∧
      Derives .expression ws v.bare := by
  have hyield : w.kind ≠ .kwYield := hc.kind_ne (by simp [hwords]) (by decide)
  have hstep := h
  rw [parenthesized, bind_ok (accept_false hwords hw)] at hstep
  simp only [Bool.false_eq_true, if_false] at hstep
  rw [bind_ok (at?_run hwords _), show (w.kind == .kwYield) = false by simpa using hyield] at hstep
  simp only [Bool.false_eq_true, if_false] at hstep
  obtain ⟨first, c₁, hfirst, -⟩ := Parse.exists_of_bind_eq_ok hstep
  obtain ⟨ws, hws, hc₁, hresult⟩ := (Takes.starNamed hread).run hc hfirst
  obtain ⟨f, more, hwords₁⟩ := c₁.exists_words
  have hf : f ∈ c₁.words := by simp [hwords₁]
  rw [parenthesized_run hwords hw hyield hfirst hwords₁ (hc₁.kind_ne hf (by decide))
    (hc₁.kind_ne hf (by decide))] at h
  by_cases hclose : f.kind = .closeParen
  · rw [bind_ok (accept_true hwords₁ hclose)] at h
    simp only [if_true] at h
    obtain hstarred | hderives := hresult
    · rw [hstarred] at h
      cases h
    · split at h
      · cases h
      · cases h
        refine ⟨ws, f, ?_, hclose, hderives⟩
        rw [hws, hwords₁, hc₁.words_advance hwords₁ (by rw [hclose]; decide)]
  · -- without a comma or a closing parenthesis the reading fails
    have hnone : furtherItem (at? .closeParen) (starNamed read) c₁ = .ok none c₁ := by
      rw [furtherItem, bind_ok (accept_false hwords₁ (hc₁.kind_ne hf (by decide)))]
      rfl
    rw [bind_ok (accept_false hwords₁ hclose)] at h
    simp only [Bool.false_eq_true, if_false] at h
    rw [moreItems, bind_ok ((collect_run _ hwords₁).trans (collectUpTo_none hnone _))] at h
    obtain ⟨_, c₂, hexpect, -⟩ := Parse.exists_of_bind_eq_ok h
    obtain ⟨_, hws₂, -, w', rfl, hw'⟩ := (Takes.expect (by decide)).run hc₁ hexpect
    rw [hwords₁] at hws₂
    obtain rfl : f = w' := (List.cons.inj hws₂).1
    exact absurd hw' hclose

/-- An atom ends with the last word of an operand. -/
theorem Parse.atom_takes {c c' : Cursor} {v : Expr} (hc : Plain c.words)
    (h : atom read field c = .ok v c') :
    ∃ ws l, c.words = ws ++ l :: c'.words ∧ l.kind.endsOperand ∧
      Derives .atom (ws ++ [l]) v.bare := by
  obtain ⟨w, tail, hwords⟩ := c.exists_words
  have hw : c.peek.word = w := Cursor.word_peek hwords
  have hkinds := hc.kinds w (by simp [hwords])
  rw [← hw] at hkinds
  rw [atom, bind_ok (peek_run c)] at h
  cases hkind : c.peek.kind with
  | identifier =>
    rw [hkind] at h
    cases h
    have hadvance := hc.words_advance hwords (by rw [← hw]; exact hkind.trans_ne (by decide))
    refine ⟨[], w, by rw [hwords, hadvance]; rfl, by rw [← hw]; exact congrArg _ hkind, ?_⟩
    rw [← hw]
    exact .name hkind
  | integer =>
    rw [hkind] at h
    cases h
    have hadvance := hc.words_advance hwords (by rw [← hw]; exact hkind.trans_ne (by decide))
    refine ⟨[], w, by rw [hwords, hadvance]; rfl, by rw [← hw]; exact congrArg _ hkind, ?_⟩
    rw [← hw, Expr.bare, Expr.Shape.bare, Literal.number, hkind]
    exact .integer hkind (Number.hasNumeral_iff.mpr rfl)
  | openParen =>
    rw [hkind] at h
    dsimp only at h
    rw [bind_ok (next_run c)] at h
    have hopen : w.kind = .openParen := by rw [← hw]; exact hkind
    have hadvance := hc.words_advance hwords (by rw [hopen]; decide)
    have hplain : Plain c.advance.words := hadvance ▸ (hwords ▸ hc).of_cons
    obtain ⟨w', tail', hwords'⟩ := c.advance.exists_words
    have hclose : w'.kind ≠ .closeParen := by
      have hadjacent := hc.adjacent
      rw [hwords, ← hadvance, hwords', List.isChain_cons_cons] at hadjacent
      exact hadjacent.1.2 hopen
    obtain ⟨ws, l, hws, hl, hderives⟩ := parenthesized_takes hread hplain hwords' hclose h
    refine ⟨w :: ws, l, ?_, by rw [hl]; rfl, .group hopen hl hderives⟩
    rw [hwords, ← hadvance, hws]
    rfl
  | _ =>
    rw [show c.peek.word.kind = c.peek.kind from rfl, hkind] at hkinds
    first
      | exact absurd hkinds (by decide)
      | rw [hkind] at h; cases h

/-- Behind an atom there is neither an attribute nor a call nor a subscript. -/
theorem TakesLevel.primary : TakesLevel .atom (Parse.primary read field) := by
  intro c v c' hc h
  rw [Parse.primary] at h
  obtain ⟨first, c₁, hatom, h⟩ := Parse.exists_of_bind_eq_ok h
  obtain ⟨ws, l, hws, hl, hderives⟩ := atom_takes hread hc hatom
  have hc₁ : Plain (l :: c₁.words) := (hws ▸ hc).of_append
  obtain ⟨f, more, hwords⟩ := c₁.exists_words
  have hf : f ∈ l :: c₁.words := by simp [hwords]
  have hcall : f.kind ≠ .openParen := by
    have hadjacent := hc₁.adjacent
    rw [hwords, List.isChain_cons_cons] at hadjacent
    exact hadjacent.1.1 hl
  have hends : f.kind.Ends .atom := by
    have hkinds := hc₁.kinds f hf
    cases hkind : f.kind <;> rw [hkind] at hkinds hcall <;>
      first | decide | exact absurd hkinds (by decide) | exact absurd rfl hcall
  have hdone := Level.step_done read field first hwords hends (.inr rfl)
  rw [iterate_run _ _ hwords] at h
  have hrun := h.symm.trans (iterateUpTo_done hdone more.length)
  cases hrun
  exact ⟨ws ++ [l], by rw [hws]; simp, hderives⟩

/-! ## Signs and powers -/

theorem TakesLevel.awaited : TakesLevel .awaited (Parse.awaited read field) := by
  intro c v c' hc h
  obtain ⟨w, tail, hwords⟩ := c.exists_words
  rw [Parse.awaited, bind_ok (at?_run hwords _)] at h
  by_cases hw : w.kind = .kwAwait
  · rw [if_pos (by simpa using hw), bind_ok (next_run c)] at h
    obtain ⟨value, c₁, hvalue, h⟩ := Parse.exists_of_bind_eq_ok h
    cases h
    obtain ⟨ws, hws, hderives⟩ :=
      (TakesLevel.primary hread).behind hc hwords (by rw [hw]; decide) hvalue
    exact ⟨w :: ws, hws, .await hw hderives⟩
  · rw [if_neg (by simpa using hw)] at h
    obtain ⟨ws, hws, hderives⟩ := TakesLevel.primary hread c v c' hc h
    exact ⟨ws, hws, .looser (by decide) hderives⟩

theorem TakesLevel.power : TakesLevel .power (Parse.power read field) := by
  intro c v c' hc h
  rw [Parse.power] at h
  obtain ⟨base, c₁, hbase, h⟩ := Parse.exists_of_bind_eq_ok h
  obtain ⟨ws, hws, hc₁, hbase⟩ := (TakesLevel.awaited hread).run hc hbase
  obtain ⟨taken, c₂, haccept, h⟩ := Parse.exists_of_bind_eq_ok h
  obtain ⟨sign, hsign, hc₂, htaken⟩ := (Takes.accept (by decide)).run hc₁ haccept
  cases taken with
  | false =>
    cases h
    obtain rfl := htaken
    exact ⟨ws, by rw [hws, hsign]; rfl, .looser (by decide) hbase⟩
  | true =>
    obtain ⟨w, rfl, hw⟩ := htaken
    obtain ⟨exponent, c₃, hexponent, h⟩ := Parse.exists_of_bind_eq_ok h
    cases h
    obtain ⟨ws', hws', hexponent⟩ := hread .factor _ _ _ hc₂ hexponent
    exact ⟨ws ++ w :: ws', by rw [hws, hsign, hws']; simp, .pow hbase hw hexponent⟩

theorem TakesLevel.factor : TakesLevel .factor (Parse.factor read field) := by
  intro c v c' hc h
  obtain ⟨w, tail, hwords⟩ := c.exists_words
  rw [Parse.factor, bind_ok (kind_run hwords)] at h
  cases hop : signOf? w.kind with
  | none =>
    rw [hop] at h
    obtain ⟨ws, hws, hderives⟩ := TakesLevel.power hread c v c' hc h
    exact ⟨ws, hws, .looser (by decide) hderives⟩
  | some op =>
    rw [hop] at h
    dsimp only at h
    rw [bind_ok (next_run c)] at h
    obtain ⟨operand, c₁, hoperand, h⟩ := Parse.exists_of_bind_eq_ok h
    cases h
    have hend : w.kind ≠ .endOfInput := by
      intro hw
      rw [hw] at hop
      cases hop
    obtain ⟨ws, hws, hderives⟩ := (hread .factor).behind hc hwords hend hoperand
    exact ⟨w :: ws, hws, .sign (UnaryOperator.mem_signs_iff.mpr hop) hderives⟩

/-! ## All levels -/

theorem TakesLevel.inversion (h : TakesLevel .comparison (Parse.comparison read field)) :
    TakesLevel .inversion (Parse.inversion read field) := by
  intro c v c' hc hrun
  obtain ⟨w, tail, hwords⟩ := c.exists_words
  rw [Parse.inversion, bind_ok (at?_run hwords _)] at hrun
  by_cases hw : w.kind = .kwNot
  · rw [if_pos (by simpa using hw), bind_ok (next_run c)] at hrun
    obtain ⟨operand, c₁, hoperand, hrun⟩ := Parse.exists_of_bind_eq_ok hrun
    cases hrun
    obtain ⟨ws, hws, hderives⟩ :=
      (hread .inversion).behind hc hwords (by rw [hw]; decide) hoperand
    exact ⟨w :: ws, hws, .not hw hderives⟩
  · rw [if_neg (by simpa using hw)] at hrun
    obtain ⟨ws, hws, hderives⟩ := h c v c' hc hrun
    exact ⟨ws, hws, .looser (by decide) hderives⟩

theorem TakesLevel.expression (h : TakesLevel .disjunction (Parse.disjunction read field)) :
    TakesLevel .expression (Parse.expression read field) := by
  intro c v c' hc hrun
  obtain ⟨w, tail, hwords⟩ := c.exists_words
  have hlambda : w.kind ≠ .kwLambda := hc.kind_ne (by simp [hwords]) (by decide)
  rw [Parse.expression, bind_ok (at?_run hwords _), if_neg (by simpa using hlambda)] at hrun
  obtain ⟨body, c₁, hbody, hrun⟩ := Parse.exists_of_bind_eq_ok hrun
  obtain ⟨ws, hws, hc₁, hbody⟩ := h.run hc hbody
  obtain ⟨taken, c₂, haccept, hrun⟩ := Parse.exists_of_bind_eq_ok hrun
  obtain ⟨wsIf, hwsIf, hc₂, htaken⟩ := (Takes.accept (by decide)).run hc₁ haccept
  cases taken with
  | false =>
    cases hrun
    obtain rfl := htaken
    exact ⟨ws, by rw [hws, hwsIf]; rfl, .looser (by decide) hbody⟩
  | true =>
    obtain ⟨wIf, rfl, hif⟩ := htaken
    obtain ⟨test, c₃, htest, hrun⟩ := Parse.exists_of_bind_eq_ok hrun
    obtain ⟨ws₁, hws₁, hc₃, htest⟩ := (hread .disjunction).run hc₂ htest
    obtain ⟨_, c₄, helse, hrun⟩ := Parse.exists_of_bind_eq_ok hrun
    obtain ⟨_, hwsElse, hc₄, wElse, rfl, helse⟩ := (Takes.expect (by decide)).run hc₃ helse
    obtain ⟨orelse, c₅, horelse, hrun⟩ := Parse.exists_of_bind_eq_ok hrun
    cases hrun
    obtain ⟨ws₂, hws₂, horelse⟩ := hread .expression _ _ _ hc₄ horelse
    refine ⟨ws ++ wIf :: (ws₁ ++ wElse :: ws₂), ?_, .conditional hbody hif htest helse horelse⟩
    rw [hws, hwsIf, hws₁, hwsElse, hws₂]
    simp

/-- Each goal takes words from which what it gives derives. -/
theorem TakesLevel.goal (g : Goal) : TakesLevel g.level (Parse.goal read field g) := by
  have hbitOr : TakesLevel .bitOr (Parse.bitOr read field) :=
    .leftAssociative rfl <| .leftAssociative rfl <| .leftAssociative rfl <| .leftAssociative rfl <|
      .leftAssociative rfl <| .leftAssociative rfl (.factor hread)
  have hinversion := TakesLevel.inversion hread (.comparison hbitOr)
  have hconjunction : TakesLevel BoolOperator.and.level (Parse.conjunction read field) :=
    .joined hinversion
  have hdisjunction : TakesLevel BoolOperator.or.level (Parse.disjunction read field) :=
    .joined hconjunction
  cases g with
  | expression => exact .expression hread hdisjunction
  | disjunction => exact hdisjunction
  | inversion => exact hinversion
  | operand => exact hbitOr
  | factor => exact .factor hread

end Levels

/-- However deep expressions may be nested, a reading takes words from which what it gives
derives. -/
theorem Parse.readUpTo_takes (field : FieldReading) :
    ∀ (n : Nat) (g : Goal), TakesLevel g.level (readUpTo field n g) := by
  intro n
  induction n with
  | zero =>
    intro g c v c' _ h
    cases h
  | succ n ih => exact TakesLevel.goal ih

end SyntaxTree
