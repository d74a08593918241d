import Mathlib.Data.List.Forall2
import SyntaxTree.Proofs.Grammar.Separated
import SyntaxTree.Proofs.Render.Spelling

/-
# Items in texts

The text of an item need not be that of an operand: a star may stand in front of it or alone.  Items
are joined by texts that end with a blank, and stand between brackets whether there are any or not.
-/

namespace SyntaxTree

/-- The text of an item: it divides into its words where an operand can end. -/
structure SpellsItem (s : Bytes) (ws : List Word) : Prop where
  begins : ∃ b t, s = b :: t ∧ b.isBlank = false
  divides : ∀ rest, (∀ b ∈ rest.head?, b.endsOperand false) → Divides (s ++ rest) rest ws

/-- The text of an operand is that of an item. -/
theorem Spells.item {dotted : Bool} {s : Bytes} {ws : List Word} (h : Spells dotted s ws) :
    SpellsItem s ws where
  begins := by
    obtain ⟨b, t, rfl, hb⟩ := h.begins
    exact ⟨b, t, rfl, (Byte.startsOperand_plain hb).1⟩
  divides := h.undotted.divides

/-- An identifier is an item. -/
theorem SpellsItem.identifier {name : Bytes} (h : IsIdentifier name) :
    SpellsItem name [⟨.identifier, name⟩] where
  begins := by
    obtain ⟨b, t, rfl, hb⟩ := h.begins
    exact ⟨b, t, rfl, Byte.not_isBlank_of_startsName hb⟩
  divides := fun _ hrest => h.divides fun b hb => Byte.endsWord_of_endsOperand (hrest b hb)

/-! ## Marks -/

/-- A mark in front of an item, itself an operator. -/
structure Mark (s : Bytes) (kind : TokenKind) : Prop where
  listed : (s, kind) ∈ TokenKind.operators
  notDot : s ≠ [ascii '.']

namespace Mark

variable {s : Bytes} {kind : TokenKind}

theorem begins (h : Mark s kind) : ∃ b t, s = b :: t ∧ b.isBlank = false := by
  obtain ⟨b, t, rfl⟩ := List.exists_cons_of_ne_nil (operators_plain _ h.listed).1
  have hb := Lexeme.operator_begins _ h.listed b rfl
  simp only [Bool.or_eq_false_iff] at hb
  exact ⟨b, t, rfl, hb.1.1.1.1.1.1.1⟩

/-- A mark in front of bytes that no operator goes on with. -/
theorem divides (h : Mark s kind) (isOf : Byte → Bool)
    (hsigns : (text "*/<=>.").all fun b => !isOf b) {rest : Bytes}
    (hrest : ∀ b ∈ rest.head?, isOf b) : Divides (s ++ rest) rest [⟨kind, s⟩] :=
  .operator h.listed
    (fun c hc => Lexeme.not_carriesOn isOf hsigns (operators_plain _ h.listed).1 (hrest c hc))
    fun hdot => absurd hdot h.notDot

/-- A mark alone is an item. -/
theorem item (h : Mark s kind) : SpellsItem s [⟨kind, s⟩] where
  begins := h.begins
  divides := fun _ hrest => h.divides (Byte.endsOperand false) rfl hrest

/-- A mark in front of an operand. -/
theorem front (h : Mark s kind) {dotted : Bool} {r : Bytes} {ws : List Word}
    (hr : Spells dotted r ws) : SpellsItem (s ++ r) (⟨kind, s⟩ :: ws) where
  begins := by
    obtain ⟨b, t, rfl, hb⟩ := h.begins
    exact ⟨b, _, rfl, hb⟩
  divides := by
    intro rest hrest
    have hwords := hr.undotted.divides rest hrest
    obtain ⟨b, t, rfl, hb⟩ := hr.begins
    rw [List.append_assoc]
    refine (h.divides Byte.startsOperand rfl fun c hc => ?_).trans hwords
    obtain rfl := Option.some.inj hc
    exact hb

/-- A mark in front of a name. -/
theorem name (h : Mark s kind) {name : Bytes} (hname : IsIdentifier name) :
    SpellsItem (s ++ name) [⟨kind, s⟩, ⟨.identifier, name⟩] where
  begins := by
    obtain ⟨b, t, rfl, hb⟩ := h.begins
    exact ⟨b, _, rfl, hb⟩
  divides := by
    intro rest hrest
    have hword := (SpellsItem.identifier hname).divides rest hrest
    obtain ⟨b, t, rfl, hb⟩ := hname.begins
    rw [List.append_assoc]
    refine (h.divides Byte.startsName rfl fun c hc => ?_).trans hword
    obtain rfl := Option.some.inj hc
    exact hb

theorem star : Mark (text "*") .star := ⟨by decide, by decide⟩

theorem doubleStar : Mark (text "**") .doubleStar := ⟨by decide, by decide⟩

theorem slash : Mark (text "/") .slash := ⟨by decide, by decide⟩

theorem equal : Mark (text "=") .equal := ⟨by decide, by decide⟩

end Mark

/-- A name with an equals sign and a value behind it. -/
theorem SpellsItem.keyword {name r : Bytes} {ws : List Word} {dotted : Bool}
    (hname : IsIdentifier name) (hr : Spells dotted r ws) :
    SpellsItem (name ++ text "=" ++ r) (⟨.identifier, name⟩ :: ⟨.equal, text "="⟩ :: ws) where
  begins := by
    obtain ⟨b, t, rfl, hb⟩ := (identifier hname).begins
    exact ⟨b, _, rfl, hb⟩
  divides := by
    intro rest hrest
    have hvalue := (Mark.equal.front hr).divides rest hrest
    rw [List.append_assoc] at hvalue
    rw [List.append_assoc, List.append_assoc]
    refine (hname.divides fun c hc => ?_).trans hvalue
    obtain rfl := Option.some.inj hc
    rfl

/-! ## Items between others -/

/-- A colon and a blank between items. -/
theorem Spaced.colon : Spaced (text ": ") [Word.colon] where
  begins := ⟨_, _, rfl, rfl⟩
  divides := by
    intro rest hrest
    have hcolon : Signs (text ":") [Word.colon] := .operator (by decide)
    exact (hcolon.divides (text " " ++ rest) rfl).trans (.blank hrest)

/-- Items with the same text between each two. -/
theorem SpellsItem.joined {separator : Bytes} {sign : List Word} (hsign : Spaced separator sign)
    {items : List Bytes} {wss : List (List Word)} (h : List.Forall₂ SpellsItem items wss)
    (hne : items ≠ []) : SpellsItem (Bytes.joinWith separator items) (sign.intercalate wss) := by
  induction h with
  | nil => exact absurd rfl hne
  | @cons item ws items wss hitem hrest ih =>
    cases hrest with
    | nil =>
      rw [List.intercalate_singleton]
      exact hitem
    | @cons next ws' items wss hnext hrest =>
      have hothers := ih (List.cons_ne_nil next items)
      obtain ⟨b, t, hb, hblank⟩ := hothers.begins
      obtain ⟨b', t', hb', hends⟩ := hsign.begins
      rw [Bytes.joinWith, List.intercalate_cons_cons, List.append_assoc, List.append_assoc]
      · refine ⟨?_, fun rest hwords => ?_⟩
        · obtain ⟨first, tail, rfl, hfirst⟩ := hitem.begins
          exact ⟨first, _, rfl, hfirst⟩
        · rw [List.append_assoc, List.append_assoc]
          refine (hitem.divides _ ?_).trans
            ((hsign.divides _ ?_).trans (hothers.divides rest hwords))
          · rw [hb']
            exact fun c hc => Option.some.inj hc ▸ hends
          · rw [hb]
            exact fun c hc => Option.some.inj hc ▸ hblank
      · exact nofun

/-- Operands with the same text between each two are one if there are any. -/
theorem Spells.joined {separator : Bytes} {sign : List Word} (hsign : Spaced separator sign)
    {items : List Bytes} {wss : List (List Word)} (h : List.Forall₂ (Spells false) items wss)
    (hne : items ≠ []) : Spells false (Bytes.joinWith separator items) (sign.intercalate wss) where
  begins := by
    cases h with
    | nil => exact absurd rfl hne
    | @cons item ws items wss hitem hrest =>
      obtain ⟨b, t, rfl, hb⟩ := hitem.begins
      cases hrest with
      | nil => exact ⟨b, t, rfl, hb⟩
      | cons _ _ => exact ⟨b, _, rfl, hb⟩
  divides := (SpellsItem.joined hsign (h.imp fun _ _ h => h.item) hne).divides

/-- Items in front of a byte that can stand behind an operand, whether there are any or not. -/
theorem SpellsItem.divides_joined {separator : Bytes} {sign : List Word}
    (hsign : Spaced separator sign) {items : List Bytes} {wss : List (List Word)}
    (h : List.Forall₂ SpellsItem items wss) {rest : Bytes}
    (hrest : ∀ b ∈ rest.head?, b.endsOperand false) :
    Divides (Bytes.joinWith separator items ++ rest) rest (sign.intercalate wss) := by
  by_cases hne : items = []
  · subst hne
    cases h
    exact ⟨[], rfl, .nil⟩
  · exact (joined hsign h hne).divides rest hrest

/-! ## Items between brackets -/

/-- An opening bracket in front of items. -/
structure OpeningBracket (s : Bytes) (kind : TokenKind) : Prop where
  listed : (s, kind) ∈ TokenKind.operators
  alone : ∀ x ∈ TokenKind.operators, s <+: x.1 → x.1 = s
  begins : ∃ b t, s = b :: t ∧ b.startsOperand

namespace OpeningBracket

variable {o close : Bytes} {kind kind' : TokenKind} {items : List Bytes} {wss : List (List Word)}

theorem paren : OpeningBracket (text "(") .openParen :=
  ⟨by decide, by decide, ⟨_, _, rfl, rfl⟩⟩

theorem bracket : OpeningBracket (text "[") .openBracket :=
  ⟨by decide, by decide, ⟨_, _, rfl, rfl⟩⟩

theorem brace : OpeningBracket (text "\x7b") .openBrace :=
  ⟨by decide, by decide, ⟨_, _, rfl, rfl⟩⟩

/-- Items between brackets. -/
theorem enclosed (ho : OpeningBracket o kind) (hclose : Bracket close kind')
    (h : List.Forall₂ SpellsItem items wss) :
    Spells true (o ++ commaSeparated items ++ close)
      (⟨kind, o⟩ :: ([Word.comma].intercalate wss ++ [⟨kind', close⟩])) where
  begins := by
    obtain ⟨b, t, rfl, hb⟩ := ho.begins
    exact ⟨b, _, rfl, hb⟩
  divides := by
    intro rest _
    have hdot : o ≠ [ascii '.'] := by
      obtain ⟨b, t, rfl, hb⟩ := ho.begins
      intro hdot
      obtain ⟨rfl, -⟩ := List.cons.inj hdot
      exact absurd hb (by decide)
    rw [List.append_assoc, List.append_assoc]
    refine (Divides.alone ho.listed ho.alone hdot).trans
      ((SpellsItem.divides_joined .comma h ?_).trans (hclose.divides rest))
    obtain ⟨b, t, rfl, hb⟩ := hclose.ends
    intro c hc
    obtain rfl := Option.some.inj hc
    exact hb

end OpeningBracket

/-- Items in parentheses behind an operand. -/
theorem Spells.callOf {dotted : Bool} {l : Bytes} {ws : List Word} (hl : Spells dotted l ws)
    {items : List Bytes} {wss : List (List Word)} (h : List.Forall₂ SpellsItem items wss) :
    Spells true (l ++ parenthesize (commaSeparated items))
      (ws ++ ⟨.openParen, text "("⟩ :: ([Word.comma].intercalate wss ++
        [⟨.closeParen, text ")"⟩])) where
  begins := by
    obtain ⟨b, t, rfl, hb⟩ := hl.begins
    exact ⟨b, _, rfl, hb⟩
  divides := by
    intro rest hrest
    rw [List.append_assoc]
    refine (hl.undotted.divides _ fun c hc => ?_).trans
      ((OpeningBracket.paren.enclosed .closeParen h).divides rest hrest)
    obtain rfl := Option.some.inj hc
    rfl

end SyntaxTree
