import SyntaxTree.Proofs.Grammar.Statement
import SyntaxTree.Proofs.Render.Items
import SyntaxTree.Proofs.Token.Nested
import SyntaxTree.Render.Statement

/-
# Lines in texts

A line is written behind the margin of its depth.  A line whose words close their brackets is read
by itself; the lines of a block are read between the marks of its indentation, which only depend on
the depth and on the width of a block.
-/

namespace SyntaxTree

/-! ## Texts of lines -/

instance (s : Bytes) : Decidable (IsWord s) :=
  match s with
  | [] => .isFalse fun ⟨_, _, h, _⟩ => nomatch h
  | b :: t => decidable_of_iff (b.startsWord ∧ t.all Lexeme.isWordByte)
      ⟨fun h => ⟨b, t, rfl, h⟩, fun ⟨_, _, h, h'⟩ => by cases h; exact h'⟩

/-- A word of the table of keywords. -/
def Word.IsKeyword (w : Word) : Prop := (w.text, w.kind) ∈ TokenKind.keywords

/-- Keywords are spelled like names, found in their table, and no brackets. -/
theorem keywords_spelled : ∀ x ∈ TokenKind.keywords, IsWord x.1 ∧ TokenKind.ofWord x.1 = x.2 ∧
    x.2.isOpening = false ∧ x.2.isClosing = false := by
  decide +kernel

theorem Word.IsKeyword.isWord {w : Word} (h : w.IsKeyword) : IsWord w.text :=
  (keywords_spelled _ h).1

theorem Word.IsKeyword.ofWord {w : Word} (h : w.IsKeyword) : TokenKind.ofWord w.text = w.kind :=
  (keywords_spelled _ h).2.1

theorem Word.IsKeyword.closes {w : Word} (h : w.IsKeyword) : ClosesBrackets [w] :=
  .single (keywords_spelled _ h).2.2.1 (keywords_spelled _ h).2.2.2

theorem ClosesBrackets.identifier (name : Bytes) : ClosesBrackets [⟨.identifier, name⟩] :=
  .single rfl rfl

/-- The text of a line of words. -/
structure SpellsLine (s : Bytes) (ws : List Word) : Prop where
  begins : ∃ b t, s = b :: t ∧ b.isBlank = false
  words : ∃ w tail, ws = w :: tail
  divides : ∀ rest, Divides (s ++ (text "\n" ++ rest)) (text "\n" ++ rest) ws

namespace SpellsItem

variable {l r s name : Bytes} {ws ws' : List Word}

/-- A keyword. -/
theorem word {w : Word} (h : w.IsKeyword) : SpellsItem w.text [w] := by
  have hitem := (Spells.word h.isWord).item
  rwa [h.ofWord] at hitem

/-- Two items with a blank between them. -/
theorem blank (hl : SpellsItem l ws) (hr : SpellsItem r ws') :
    SpellsItem (l ++ text " " ++ r) (ws ++ ws') where
  begins := by
    obtain ⟨b, t, rfl, hb⟩ := hl.begins
    exact ⟨b, _, rfl, hb⟩
  divides := by
    intro rest hrest
    obtain ⟨b, t, rfl, hb⟩ := hr.begins
    rw [List.append_assoc, List.append_assoc]
    refine (hl.divides _ fun c hc => ?_).trans
      (Divides.trans (.blank fun c hc => ?_) (hr.divides rest hrest))
    · obtain rfl := Option.some.inj hc
      rfl
    · obtain rfl := Option.some.inj hc
      exact hb

/-- Items in parentheses behind an item. -/
theorem called (hl : SpellsItem l ws) {items : List Bytes} {wss : List (List Word)}
    (h : List.Forall₂ SpellsItem items wss) :
    SpellsItem (l ++ parenthesize (commaSeparated items))
      (ws ++ Word.openParen :: ([Word.comma].intercalate wss ++ [Word.closeParen])) where
  begins := by
    obtain ⟨b, t, rfl, hb⟩ := hl.begins
    exact ⟨b, _, rfl, hb⟩
  divides := by
    intro rest hrest
    rw [List.append_assoc]
    refine (hl.divides _ fun c hc => ?_).trans
      ((OpeningBracket.paren.enclosed .closeParen h).undotted.divides rest hrest)
    obtain rfl := Option.some.inj hc
    rfl

/-- An item and a colon are a header. -/
theorem header (h : SpellsItem s ws) (hne : ws ≠ []) :
    SpellsLine (s ++ text ":") (ws ++ [Word.colon]) where
  begins := by
    obtain ⟨b, t, rfl, hb⟩ := h.begins
    exact ⟨b, _, rfl, hb⟩
  words := by
    obtain ⟨w, tail, rfl⟩ := List.exists_cons_of_ne_nil hne
    exact ⟨w, _, rfl⟩
  divides := by
    intro rest
    rw [List.append_assoc]
    refine (h.divides _ fun c hc => ?_).trans (.colon_line rest)
    obtain rfl := Option.some.inj hc
    rfl

end SpellsItem

/-- A keyword that is a line. -/
theorem SpellsLine.word {w : Word} (h : w.IsKeyword) : SpellsLine w.text [w] where
  begins := (SpellsItem.word h).begins
  words := ⟨_, _, rfl⟩
  divides := by
    intro rest
    have hword : Divides (w.text ++ (text "\n" ++ rest)) (text "\n" ++ rest)
        [⟨TokenKind.ofWord w.text, w.text⟩] :=
      Divides.word h.isWord fun c hc => Option.some.inj hc ▸ rfl
    rwa [h.ofWord] at hword

/-- A name that is a line. -/
theorem SpellsLine.identifier {name : Bytes} (h : IsIdentifier name) :
    SpellsLine name [⟨.identifier, name⟩] where
  begins := (SpellsItem.identifier h).begins
  words := ⟨_, _, rfl⟩
  divides := by
    intro rest
    refine h.divides fun c hc => ?_
    obtain rfl := Option.some.inj hc
    rfl

/-! ## Lines and their words -/

theorem Style.width_pos (style : Style) : 0 < style.width := by
  rw [width]
  omega

namespace Line

variable {style : Style} {depth : Nat} {lines lines' : List Line} {ws ws' : List Word}

theorem writeAll_append (style : Style) (lines lines' : List Line) :
    writeAll style (lines ++ lines') = writeAll style lines ++ writeAll style lines' :=
  List.flatMap_append

/-- A line has a text exactly if its blanks can be counted. -/
theorem write?_eq (style : Style) (line : Line) :
    line.write? style = if style.HasMargin line.depth then some (line.write style) else none := by
  cases line with
  | code depth s =>
    rw [write?, Style.margin?, apply_ite (Option.map _)]
    rfl
  | blank =>
    have hmargin : style.HasMargin 0 := by simp [Style.HasMargin]
    exact (if_pos hmargin).symm

/-- Lines have a text exactly if the blanks of each of them can be counted. -/
theorem writeAll?_eq (style : Style) (lines : List Line) :
    writeAll? style lines =
      if ∀ line ∈ lines, style.HasMargin line.depth then some (writeAll style lines) else none := by
  induction lines with
  | nil => rfl
  | cons line lines ih =>
    have hcons : writeAll? style (line :: lines) =
        (line.write? style).bind fun s => (writeAll? style lines).map (s ++ ·) := by
      rw [writeAll?, List.mapM_cons, writeAll?]
      cases line.write? style <;> cases lines.mapM (write? style) <;> rfl
    rw [hcons, ih, write?_eq]
    by_cases hline : style.HasMargin line.depth
    · by_cases hlines : ∀ line ∈ lines, style.HasMargin line.depth
      · have hboth : ∀ l ∈ line :: lines, style.HasMargin l.depth := by
          rw [List.forall_mem_cons]
          exact ⟨hline, hlines⟩
        rw [if_pos hline, if_pos hlines, if_pos hboth]
        rfl
      · have hnone : ¬ ∀ l ∈ line :: lines, style.HasMargin l.depth :=
          fun h => hlines (List.forall_mem_cons.mp h).2
        rw [if_pos hline, if_neg hlines, if_neg hnone]
        rfl
    · have hnone : ¬ ∀ l ∈ line :: lines, style.HasMargin l.depth :=
        fun h => hline (h line List.mem_cons_self)
      rw [if_neg hline, if_neg hnone]
      rfl

/-- Lines at a depth, deeper blocks among them, and their words. -/
def HaveWords (style : Style) (depth : Nat) (lines : List Line) (ws : List Word) : Prop :=
  Layout.AreLinesAt style.width depth (writeAll style lines) ws

theorem HaveWords.append (h : HaveWords style depth lines ws)
    (h' : HaveWords style depth lines' ws') :
    HaveWords style depth (lines ++ lines') (ws ++ ws') := by
  rw [HaveWords, writeAll_append]
  exact Layout.AreLinesAt.append h h'

/-- Lines at a depth that may be missing. -/
def MayHaveWords (style : Style) (depth : Nat) (lines : List Line) (ws : List Word) : Prop :=
  lines = [] ∧ ws = [] ∨ HaveWords style depth lines ws

theorem HaveWords.append_may (h : HaveWords style depth lines ws)
    (h' : MayHaveWords style depth lines' ws') :
    HaveWords style depth (lines ++ lines') (ws ++ ws') := by
  obtain ⟨rfl, rfl⟩ | h' := h'
  · rwa [List.append_nil, List.append_nil]
  · exact h.append h'

end Line

namespace SpellsLine

variable {s : Bytes} {ws : List Word}

/-- A line of words at a depth. -/
theorem isLineAt (h : SpellsLine s ws) (hclosed : ClosesBrackets ws) (style : Style) (depth : Nat) :
    Layout.IsLineAt style.width depth (Line.writeAll style [.code depth s])
      (ws ++ [Word.newline]) := by
  obtain ⟨⟨b, t, rfl, hb⟩, ⟨w, tail, rfl⟩, hdivides⟩ := h
  have hline := Layout.IsLineAt.of_divides style.width_pos hb hdivides hclosed depth
  rwa [← List.append_nil (_ ++ text "\n")] at hline

theorem haveWords (h : SpellsLine s ws) (hclosed : ClosesBrackets ws) (style : Style)
    (depth : Nat) :
    Line.HaveWords style depth [.code depth s] (ws ++ [Word.newline]) :=
  (h.isLineAt hclosed style depth).areLines

/-- A line with its margin. -/
theorem divides_margin (h : SpellsLine s ws) (style : Style) (depth : Nat) (rest : Bytes) :
    Divides (style.margin depth ++ s ++ (text "\n" ++ rest)) (text "\n" ++ rest) ws := by
  have hdivides := h.divides rest
  obtain ⟨b, t, rfl, hb⟩ := h.begins
  rw [List.append_assoc]
  refine (Divides.spaces _ fun c hc => ?_).trans hdivides
  obtain rfl := Option.some.inj hc
  exact hb

/-- A line that opens a bracket, one within the bracket and one that closes it are a single line. -/
theorem isLineAt_split {inner last : Bytes} {ws' ws'' : List Word} (h : SpellsLine s ws)
    (hdepth : depthBehind 0 ws = 1) (hinner : SpellsLine inner ws') (hclosed : ClosesBrackets ws')
    (hlast : SpellsLine last ws'') (hback : depthBehind 1 ws'' = 0) (style : Style) (depth : Nat) :
    Layout.IsLineAt style.width depth
      (Line.writeAll style [.code depth s, .code (depth + 1) inner, .code depth last])
      (ws ++ (ws' ++ (ws'' ++ [Word.newline]))) := by
  obtain ⟨⟨b, t, rfl, hb⟩, ⟨w, tail, rfl⟩, hdivides⟩ := h
  have hline := Layout.isLineAt_split style.width_pos hb hdivides hdepth
    (hinner.divides_margin style (depth + 1)) hclosed (hlast.divides_margin style depth) hback depth
  have hmargin : style.margin depth = Bytes.spaces (depth * style.width) := rfl
  simpa [Line.writeAll, Line.write, hmargin] using hline

end SpellsLine

/-- A header and its block. -/
theorem Line.haveWords_block {style : Style} {depth : Nat} {front : List Line} {ws ws' : List Word}
    (h : Layout.IsLineAt style.width depth (writeAll style front)
      (ws ++ [Word.colon] ++ [Word.newline]))
    {body : List Line} (hbody : HaveWords style (depth + 1) body ws') :
    HaveWords style depth (front ++ body) (ws ++ blockWords ((depth + 1) * style.width) ws') := by
  have hblock := h.block style.width_pos hbody
  rw [HaveWords, writeAll_append]
  simpa [blockWords] using hblock

theorem SpellsItem.haveWords_block {s : Bytes} {ws ws' : List Word} (h : SpellsItem s ws)
    (hne : ws ≠ []) (hclosed : ClosesBrackets ws) {style : Style} {depth : Nat} {body : List Line}
    (hbody : Line.HaveWords style (depth + 1) body ws') :
    Line.HaveWords style depth (.code depth (s ++ text ":") :: body)
      (ws ++ blockWords ((depth + 1) * style.width) ws') :=
  Line.haveWords_block
    ((h.header hne).isLineAt (hclosed.append (.single rfl rfl)) style depth) hbody

end SyntaxTree
