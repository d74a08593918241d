import SyntaxTree.Proofs.Grammar.Compound
import SyntaxTree.Proofs.Render.Lines
import SyntaxTree.Proofs.Render.Tree
import SyntaxTree.Unicode.NameTable

/-
# Written blocks

Statements of control flow whose expressions are names read back from the lines that are written for
them, at every depth and however wide their blocks are indented.  The alternative of a condition is
written as `elif` where it is a condition alone, and as `else` otherwise.
-/

namespace SyntaxTree

open Parse

/-! ## Statements of names and blocks -/

/-- A handler that has no type, or names in its header.  A starred one has a type. -/
inductive ExceptHandler.IsNamed (isStar : Bool) : ExceptHandler → Prop where
  | bare (hstar : isStar = false) (span : Span) (body : List Stmt) :
    IsNamed isStar (.mk span none none body)
  | typed (span typeSpan : Span) {type : Bytes} (htype : IsIdentifier type) {name : Option Bytes}
    (hname : ∀ s ∈ name, IsIdentifier s) (body : List Stmt) :
    IsNamed isStar (.mk span (some (.node typeSpan (.name type .load))) name body)

/-- The block of a handler. -/
def ExceptHandler.body : ExceptHandler → List Stmt
  | .mk _ _ _ body => body

/-- Statements of control flow whose expressions are names and whose blocks are not empty. -/
inductive Stmt.IsSkeleton : Stmt → Prop where
  | pass (span : Span) : IsSkeleton (.node span .pass)
  | breakLoop (span : Span) : IsSkeleton (.node span .breakLoop)
  | continueLoop (span : Span) : IsSkeleton (.node span .continueLoop)
  | returnNone (span : Span) : IsSkeleton (.node span (.returnValue none))
  | expression (span nameSpan : Span) {name : Bytes} (hname : IsIdentifier name) :
    IsSkeleton (.node span (.expression (.node nameSpan (.name name .load))))
  | conditional (span testSpan : Span) {test : Bytes} (htest : IsIdentifier test)
    {body orelse : List Stmt} (hne : body ≠ []) (hbody : ∀ s ∈ body, s.IsSkeleton)
    (horelse : ∀ s ∈ orelse, s.IsSkeleton) :
    IsSkeleton (.node span (.conditional (.node testSpan (.name test .load)) body orelse))
  | whileLoop (span testSpan : Span) {test : Bytes} (htest : IsIdentifier test)
    {body orelse : List Stmt} (hne : body ≠ []) (hbody : ∀ s ∈ body, s.IsSkeleton)
    (horelse : ∀ s ∈ orelse, s.IsSkeleton) :
    IsSkeleton (.node span (.whileLoop (.node testSpan (.name test .load)) body orelse))
  | forLoop (span targetSpan iterableSpan : Span) {target iterable : Bytes}
    (htarget : IsIdentifier target) (hiterable : IsIdentifier iterable) {body orelse : List Stmt}
    (hne : body ≠ []) (hbody : ∀ s ∈ body, s.IsSkeleton) (horelse : ∀ s ∈ orelse, s.IsSkeleton) :
    IsSkeleton (.node span (.forLoop false (.node targetSpan (.name target .store))
      (.node iterableSpan (.name iterable .load)) body orelse))
  | withBlock (span itemSpan nameSpan : Span) {name : Bytes} (hname : IsIdentifier name)
    {body : List Stmt} (hne : body ≠ []) (hbody : ∀ s ∈ body, s.IsSkeleton) :
    IsSkeleton (.node span
      (.withBlock false [⟨itemSpan, .node nameSpan (.name name .load), none⟩] body))
  | functionDef (span : Span) {name : Bytes} (hname : IsIdentifier name) {body : List Stmt}
    (hne : body ≠ []) (hbody : ∀ s ∈ body, s.IsSkeleton) :
    IsSkeleton (.node span
      (.functionDef false name [] [] (.mk [] [] none [] none []) none body))
  | classDef (span : Span) {name : Bytes} (hname : IsIdentifier name) {body : List Stmt}
    (hne : body ≠ []) (hbody : ∀ s ∈ body, s.IsSkeleton) :
    IsSkeleton (.node span (.classDef name [] [] [] [] body))
  | tryBlock (span : Span) {isStar : Bool} {body : List Stmt} {handlers : List ExceptHandler}
    {orelse finalbody : List Stmt} (hne : body ≠ []) (hbody : ∀ s ∈ body, s.IsSkeleton)
    (hnamed : ∀ h ∈ handlers, h.IsNamed isStar) (hblocks : ∀ h ∈ handlers, h.body ≠ [])
    (hhandlers : ∀ h ∈ handlers, ∀ s ∈ h.body, s.IsSkeleton)
    (horelse : ∀ s ∈ orelse, s.IsSkeleton) (hfinal : ∀ s ∈ finalbody, s.IsSkeleton)
    (hnone : handlers = [] → isStar = false ∧ orelse = [])
    (hsome : handlers ≠ [] ∨ finalbody ≠ []) :
    IsSkeleton (.node span (.tryBlock isStar body handlers orelse finalbody))

/-! ## Readings of written statements -/

/-- A statement that reads back from its lines. -/
def Stmt.ReadsAlone (style : Style) (s : Stmt) : Prop :=
  ∀ depth, ∃ ws, ReadsAs ws s.bare ∧ Line.HaveWords style depth (s.lines style depth) ws

/-- A statement that reads back from its lines, alone and as the alternative of a condition. -/
structure Stmt.ReadsBack (style : Style) (s : Stmt) : Prop where
  alone : s.ReadsAlone style
  chained (depth : Nat) :
    ∃ ws, ReadsElse ws [s.bare] ∧ Line.MayHaveWords style depth (Stmt.elseChain style depth [s]) ws

section Parts

variable {style : Style} {ss : List Stmt}

/-- A block with statements has their lines. -/
theorem Stmt.block_eq (hne : ss ≠ []) (depth : Nat) :
    Stmt.block style depth ss = Stmt.linesAll style depth ss := by
  obtain ⟨s, ss, rfl⟩ := List.exists_cons_of_ne_nil hne
  rw [Stmt.block, Stmt.linesAll]

/-- Statements that read back one by one read back together. -/
theorem Stmt.exists_readsAll (hne : ss ≠ []) (h : ∀ s ∈ ss, s.ReadsAlone style) (depth : Nat) :
    ∃ ws, ReadsAll ws (Stmt.bareAll ss) ∧
      Line.HaveWords style depth (Stmt.linesAll style depth ss) ws := by
  induction ss with
  | nil => exact absurd rfl hne
  | cons s ss ih =>
    obtain ⟨hs, hss⟩ := List.forall_mem_cons.mp h
    obtain ⟨ws, hreads, hlines⟩ := hs depth
    rw [linesAll]
    by_cases hnil : ss = []
    · subst hnil
      exact ⟨ws ++ [], .cons hreads .nil,
        by rw [linesAll, List.append_nil, List.append_nil]; exact hlines⟩
    · obtain ⟨ws', hreads', hlines'⟩ := ih hnil hss
      exact ⟨ws ++ ws', .cons hreads hreads', hlines.append hlines'⟩

/-- A block behind a keyword. -/
theorem Stmt.exists_readsPart (word : Word) (hword : word.IsKeyword) (hne : ss ≠ [])
    (h : ∀ s ∈ ss, s.ReadsAlone style) (depth : Nat) :
    ∃ ws, ReadsPart word ws (Stmt.bareAll ss) ∧ Line.HaveWords style depth
      (.code depth (word.text ++ text ":") :: Stmt.linesAll style (depth + 1) ss) ws := by
  obtain ⟨ws, hreads, hlines⟩ := exists_readsAll hne h (depth + 1)
  have hheader := (SpellsItem.word hword).haveWords_block (by simp) hword.closes hlines
  exact ⟨_, .block _ hreads, hheader⟩

/-- The block behind `else`. -/
theorem Stmt.exists_elseBlock (h : ∀ s ∈ ss, s.ReadsAlone style) (depth : Nat) :
    ∃ ws, ReadsPart Word.elseWord ws (Stmt.bareAll ss) ∧ (ss = [] → ws = []) ∧
      Line.MayHaveWords style depth (Stmt.elseBlock style depth ss) ws := by
  cases ss with
  | nil => exact ⟨[], .none, fun _ => rfl, .inl ⟨by rw [Stmt.elseBlock], rfl⟩⟩
  | cons s ss =>
    obtain ⟨ws, hreads, hlines⟩ := exists_readsPart Word.elseWord
      (by simp [Word.IsKeyword, TokenKind.keywords, Word.elseWord]) (List.cons_ne_nil s ss) h depth
    refine ⟨ws, hreads, nofun, .inr ?_⟩
    rw [Stmt.elseBlock, ← Stmt.linesAll]
    exact hlines

/-- The block behind `finally`. -/
theorem Stmt.exists_finalBlock (h : ∀ s ∈ ss, s.ReadsAlone style) (depth : Nat) :
    ∃ ws, ReadsPart Word.finallyWord ws (Stmt.bareAll ss) ∧
      Line.MayHaveWords style depth (Stmt.finalBlock style depth ss) ws := by
  cases ss with
  | nil => exact ⟨[], .none, .inl ⟨by rw [Stmt.finalBlock], rfl⟩⟩
  | cons s ss =>
    obtain ⟨ws, hreads, hlines⟩ := exists_readsPart Word.finallyWord
      (by simp [Word.IsKeyword, TokenKind.keywords, Word.finallyWord])
        (List.cons_ne_nil s ss) h depth
    refine ⟨ws, hreads, .inr ?_⟩
    rw [Stmt.finalBlock, ← Stmt.linesAll]
    exact hlines

/-- Several statements as the alternative of a condition stand behind `else`. -/
theorem Stmt.elseChain_cons_cons (s s' : Stmt) (ss : List Stmt) (depth : Nat) :
    Stmt.elseChain style depth (s :: s' :: ss) = Stmt.elseBlock style depth (s :: s' :: ss) := by
  rw [Stmt.elseChain, Stmt.elseBlock]
  nofun

/-- The alternative of a condition. -/
theorem Stmt.exists_elseChain (h : ∀ s ∈ ss, s.ReadsBack style) (depth : Nat) :
    ∃ ws, ReadsElse ws (Stmt.bareAll ss) ∧
      Line.MayHaveWords style depth (Stmt.elseChain style depth ss) ws := by
  match ss, h with
  | [], _ => exact ⟨[], .part .none, .inl ⟨by rw [Stmt.elseChain], rfl⟩⟩
  | [s], h =>
    obtain ⟨ws, hreads, hlines⟩ := (h s (by simp)).chained depth
    exact ⟨ws, hreads, hlines⟩
  | s :: s' :: ss, h =>
    obtain ⟨ws, hreads, -, hlines⟩ := exists_elseBlock (fun s hs => (h s hs).alone) depth
    exact ⟨ws, .part hreads, by rwa [elseChain_cons_cons]⟩

/-- A statement that is no condition stands behind `else` where it is an alternative. -/
theorem Stmt.ReadsAlone.readsBack {span : Span} {shape : Stmt.Shape}
    (h : Stmt.ReadsAlone style (.node span shape))
    (hshape : ∀ test body orelse, shape ≠ .conditional test body orelse) :
    Stmt.ReadsBack style (.node span shape) where
  alone := h
  chained := by
    intro depth
    obtain ⟨ws, hreads, -, hlines⟩ := exists_elseBlock (List.forall_mem_singleton.mpr h) depth
    have hchain : Stmt.elseChain style depth [.node span shape] =
        Stmt.elseBlock style depth [.node span shape] := by
      rw [Stmt.elseChain, Stmt.elseBlock]
      intro span' test body orelse heq
      exact absurd (Stmt.node.inj heq).2 (hshape _ _ _)
    exact ⟨ws, .part hreads, by rwa [hchain]⟩

variable {body orelse : List Stmt}

/-- The lines of a block that is not empty. -/
theorem Stmt.exists_block (hne : body ≠ []) (h : ∀ s ∈ body, s.ReadsBack style) (depth : Nat) :
    ∃ ws, ReadsAll ws (Stmt.bareAll body) ∧
      Line.HaveWords style depth (Stmt.block style depth body) ws := by
  rw [block_eq hne]
  exact exists_readsAll hne (fun s hs => (h s hs).alone) depth

/-- A name is written as it is. -/
theorem Expr.write_name (quote : Byte) (p : Precedence) (span : Span) (name : Bytes)
    (context : Context) : Expr.write quote p (.node span (.name name context)) = name := by
  have hatom : p ≤ .atom := by cases p <;> decide
  rw [write_of_le hatom, Shape.write]

/-- A condition that is a name, and its block. -/
theorem Stmt.exists_readsBranch (word : Word) (hword : word.IsKeyword) {test : Bytes}
    (htest : IsIdentifier test) (hne : body ≠ []) (h : ∀ s ∈ body, s.ReadsBack style)
    (depth : Nat) :
    ∃ ws, ReadsBranch word ws (.new (.name test .load)) (Stmt.bareAll body) ∧
      Line.HaveWords style depth (.code depth (word.text ++ text " " ++ test ++ text ":") ::
        Stmt.block style (depth + 1) body) ws := by
  obtain ⟨ws, hreads, hlines⟩ := exists_block hne h (depth + 1)
  have hheader := ((SpellsItem.word hword).blank (.identifier htest)).haveWords_block (by simp)
    (hword.closes.append (.identifier test)) hlines
  have hname : Reads .expression [⟨.identifier, test⟩] (.new (.name test .load)) :=
    ((Leads.name rfl).reads (.inr rfl)).mono (Nat.zero_le _)
  exact ⟨_, .mk _ hname hreads, hheader⟩

end Parts

namespace Stmt.ReadsBack

variable {style : Style} {body orelse : List Stmt}

/-- A statement of a single keyword. -/
theorem word {w : Word} (hword : w.IsKeyword) {shape : Stmt.Shape}
    (hw : (w.kind, shape) ∈ [(.kwPass, .pass), (.kwBreak, .breakLoop), (.kwContinue, .continueLoop),
      (.kwReturn, .returnValue none)]) (span : Span)
    (hlines : ∀ depth, Stmt.lines style depth (.node span shape) = [.code depth w.text]) :
    Stmt.ReadsBack style (.node span shape) := by
  refine Stmt.ReadsAlone.readsBack (fun depth => ⟨_, .word hw, ?_⟩) ?_
  · rw [hlines]
    exact (SpellsLine.word hword).haveWords hword.closes style depth
  · rintro test body orelse rfl
    simp at hw

/-- A name. -/
theorem expression (span nameSpan : Span) {name : Bytes} (hname : IsIdentifier name) :
    Stmt.ReadsBack style (.node span (.expression (.node nameSpan (.name name .load)))) := by
  refine Stmt.ReadsAlone.readsBack (fun depth => ⟨_, .name name, ?_⟩) nofun
  have hlines :
      Stmt.lines style depth (.node span (.expression (.node nameSpan (.name name .load)))) =
      [.code depth name] := by
    rw [Stmt.lines, expressionLines, Expr.write_name]
    rfl
  rw [hlines]
  exact (SpellsLine.identifier hname).haveWords (.identifier name) style depth

/-- A condition and its alternative. -/
theorem conditional (span testSpan : Span) {test : Bytes} (htest : IsIdentifier test)
    (hne : body ≠ []) (hbody : ∀ s ∈ body, s.ReadsBack style)
    (horelse : ∀ s ∈ orelse, s.ReadsBack style) : Stmt.ReadsBack style
      (.node span (.conditional (.node testSpan (.name test .load)) body orelse)) where
  alone := by
    intro depth
    obtain ⟨ws, hreads, hlines⟩ := Stmt.exists_readsBranch ⟨.kwIf, text "if"⟩
      (by simp [Word.IsKeyword, TokenKind.keywords]) htest hne hbody depth
    obtain ⟨ws', hreads', hlines'⟩ := Stmt.exists_elseChain horelse depth
    refine ⟨_, .conditional rfl hreads hreads', ?_⟩
    rw [Stmt.lines, Expr.write_name]
    exact hlines.append_may hlines'
  chained := by
    intro depth
    obtain ⟨ws, hreads, hlines⟩ := Stmt.exists_readsBranch Word.elifWord
      (by simp [Word.IsKeyword, TokenKind.keywords, Word.elifWord]) htest hne hbody depth
    obtain ⟨ws', hreads', hlines'⟩ := Stmt.exists_elseChain horelse depth
    refine ⟨_, .elif hreads hreads', .inr ?_⟩
    rw [Stmt.elseChain, Expr.write_name]
    exact hlines.append_may hlines'

/-- A loop with a condition. -/
theorem whileLoop (span testSpan : Span) {test : Bytes} (htest : IsIdentifier test)
    (hne : body ≠ []) (hbody : ∀ s ∈ body, s.ReadsBack style)
    (horelse : ∀ s ∈ orelse, s.ReadsBack style) : Stmt.ReadsBack style
      (.node span (.whileLoop (.node testSpan (.name test .load)) body orelse)) := by
  refine Stmt.ReadsAlone.readsBack (fun depth => ?_) nofun
  obtain ⟨ws, hreads, hlines⟩ := Stmt.exists_readsBranch ⟨.kwWhile, text "while"⟩
    (by simp [Word.IsKeyword, TokenKind.keywords]) htest hne hbody depth
  obtain ⟨ws', hreads', -, hlines'⟩ :=
    Stmt.exists_elseBlock (fun s hs => (horelse s hs).alone) depth
  refine ⟨_, .whileLoop rfl hreads hreads', ?_⟩
  rw [Stmt.lines, Expr.write_name]
  exact hlines.append_may hlines'

/-- A loop over a name. -/
theorem forLoop (span targetSpan iterableSpan : Span) {target iterable : Bytes}
    (htarget : IsIdentifier target) (hiterable : IsIdentifier iterable) (hne : body ≠ [])
    (hbody : ∀ s ∈ body, s.ReadsBack style) (horelse : ∀ s ∈ orelse, s.ReadsBack style) :
    Stmt.ReadsBack style (.node span (.forLoop false (.node targetSpan (.name target .store))
      (.node iterableSpan (.name iterable .load)) body orelse)) := by
  refine Stmt.ReadsAlone.readsBack (fun depth => ?_) nofun
  obtain ⟨ws, hreads, hlines⟩ := Stmt.exists_block hne hbody (depth + 1)
  obtain ⟨ws', hreads', -, hlines'⟩ :=
    Stmt.exists_elseBlock (fun s hs => (horelse s hs).alone) depth
  have hfor : Word.IsKeyword ⟨.kwFor, text "for"⟩ := by
    simp [Word.IsKeyword, TokenKind.keywords]
  have hin : Word.IsKeyword ⟨.kwIn, text "in"⟩ := by
    simp [Word.IsKeyword, TokenKind.keywords]
  have hheader := (((SpellsItem.word hfor).blank (.identifier htarget)).blank (.word hin)).blank
    (.identifier hiterable)
  have hclosed :=
    ((hfor.closes.append (.identifier target)).append hin.closes).append (.identifier iterable)
  have hwords := (hheader.haveWords_block (by simp) hclosed hlines).append_may hlines'
  refine ⟨_, .forLoop (w := ⟨.kwFor, text "for"⟩) rfl target iterable ((depth + 1) * style.width)
    (s := ⟨.kwIn, text "in"⟩) rfl hreads hreads', ?_⟩
  have hsplit : text "for " = text "for" ++ text " " ∧
      text " in " = text " " ++ (text "in" ++ text " ") := ⟨rfl, rfl⟩
  rw [Stmt.lines, Expr.write_name, Expr.writeValue, Expr.shape, Expr.write_name, asyncText,
    hsplit.1, hsplit.2]
  simpa using hwords

/-- A function without parameters. -/
theorem functionDef (span : Span) {name : Bytes} (hname : IsIdentifier name) (hne : body ≠ [])
    (hbody : ∀ s ∈ body, s.ReadsBack style) : Stmt.ReadsBack style
      (.node span (.functionDef false name [] [] (.mk [] [] none [] none []) none body)) := by
  refine Stmt.ReadsAlone.readsBack (fun depth => ?_) nofun
  obtain ⟨ws, hreads, hlines⟩ := Stmt.exists_block hne hbody (depth + 1)
  have hdef : Word.IsKeyword ⟨.kwDef, text "def"⟩ := by
    simp [Word.IsKeyword, TokenKind.keywords]
  refine ⟨_, .functionDef (w := ⟨.kwDef, text "def"⟩) rfl name .nil (.inl rfl) rfl nofun
    ((depth + 1) * style.width) hreads, ?_⟩
  have hheader := (((SpellsItem.word hdef).blank (.identifier hname)).called .nil).haveWords_block
    (by simp) ((hdef.closes.append (.identifier name)).append (.bracketed rfl rfl .nil)) hlines
  have hsplit : text "def " = text "def" ++ text " " := rfl
  have hparens : parenthesize (commaSeparated []) = [ascii '('] ++ [ascii ')'] := rfl
  have hitems (parameters : Parameters) (h : parameters = .mk [] [] none [] none []) :
      parameters.writeItems style.quote true = [] := by
    rw [h, Parameters.writeItems]
    rfl
  rw [hparens] at hheader
  rw [Stmt.lines, hitems _ rfl, Bracketed.lines, if_pos (.inl rfl), hsplit]
  simpa [asyncText, TypeParam.writeAll, decoratorLines, Bracketed.flat, Bytes.joinWith,
    Bracketed.needsComma, Expr.writeOptional] using hheader

/-- A class without bases. -/
theorem classDef (span : Span) {name : Bytes} (hname : IsIdentifier name) (hne : body ≠ [])
    (hbody : ∀ s ∈ body, s.ReadsBack style) :
    Stmt.ReadsBack style (.node span (.classDef name [] [] [] [] body)) := by
  refine Stmt.ReadsAlone.readsBack (fun depth => ?_) nofun
  obtain ⟨ws, hreads, hlines⟩ := Stmt.exists_block hne hbody (depth + 1)
  have hclass : Word.IsKeyword ⟨.kwClass, text "class"⟩ := by
    simp [Word.IsKeyword, TokenKind.keywords]
  refine ⟨_, .classDef (w := ⟨.kwClass, text "class"⟩) rfl name ((depth + 1) * style.width) hreads,
    ?_⟩
  have hheader := ((SpellsItem.word hclass).blank (.identifier hname)).haveWords_block (by simp)
    (hclass.closes.append (.identifier name)) hlines
  have hsplit : text "class " = text "class" ++ text " " := rfl
  rw [Stmt.lines, hsplit]
  simpa [TypeParam.writeAll, decoratorLines, Expr.writeAll, Keyword.writeAll] using hheader

end Stmt.ReadsBack

/-! ## Headers of context managers and handlers -/

section Headers

variable {style : Style} {name : Bytes}

/-- An item, a blank and a parenthesis at the end of a line. -/
theorem SpellsItem.openLine {s : Bytes} {ws : List Word} (h : SpellsItem s ws) (hne : ws ≠ []) :
    SpellsLine (s ++ text " " ++ text "(") (ws ++ [Word.openParen]) where
  begins := by
    obtain ⟨b, t, rfl, hb⟩ := h.begins
    exact ⟨b, _, rfl, hb⟩
  words := by
    obtain ⟨w, tail, rfl⟩ := List.exists_cons_of_ne_nil hne
    exact ⟨w, _, rfl⟩
  divides := by
    intro rest
    rw [List.append_assoc, List.append_assoc]
    refine (h.divides _ fun c hc => ?_).trans
      ((Divides.blank fun c hc => ?_).trans (Bracket.openParen.divides _))
    · obtain rfl := Option.some.inj hc
      rfl
    · obtain rfl := Option.some.inj hc
      rfl

/-- The end of a header with parentheses. -/
theorem SpellsLine.closeHeader :
    SpellsLine (text ")" ++ text ":") [Word.closeParen, Word.colon] where
  begins := ⟨_, _, rfl, rfl⟩
  words := ⟨_, _, rfl⟩
  divides := by
    intro rest
    rw [List.append_assoc]
    exact (Bracket.closeParen.divides _).trans (.colon_line rest)

/-- The only item between brackets, on a line of its own. -/
theorem exists_onlyItem (hname : IsIdentifier name) (depth : Nat) (closing : Bool) :
    ∃ s trailing, (trailing = [] ∨ trailing = [Word.comma]) ∧
      Line.ofItems depth closing [name] = [.code depth s] ∧
      SpellsLine s (⟨.identifier, name⟩ :: trailing) := by
  cases closing with
  | false =>
    refine ⟨name ++ [], [], .inl rfl, rfl, ?_⟩
    rw [List.append_nil]
    exact .identifier hname
  | true =>
    obtain ⟨b, t, hb, hblank⟩ := (SpellsItem.identifier hname).begins
    refine ⟨name ++ text ",", [Word.comma], .inr rfl, rfl,
      ⟨b, t ++ text ",", by rw [hb]; rfl, hblank⟩, ⟨_, _, rfl⟩, fun rest => ?_⟩
    rw [List.append_assoc]
    refine ((SpellsItem.identifier hname).divides _ fun c hc => ?_).trans (Bracket.comma.divides _)
    obtain rfl := Option.some.inj hc
    rfl

/-- A header with an item in parentheses on its line. -/
theorem SpellsLine.enclosedHeader {word : Word} (hword : word.IsKeyword)
    (hname : IsIdentifier name) :
    SpellsLine (word.text ++ text " " ++ parenthesize (commaSeparated [name]) ++ text ":")
      (word :: [Word.openParen, ⟨.identifier, name⟩, Word.closeParen, Word.colon]) :=
  ((SpellsItem.word hword).blank
    (OpeningBracket.paren.enclosed .closeParen (.cons (.identifier hname) .nil)).item).header
    (by simp)

/-- A name as a context manager stands alone in its header, or in parentheses, on the same line or
on one of its own. -/
theorem exists_readsManager (style : Style) (depth : Nat) {item : WithItem}
    (hitem : item.write style.quote = name) (hname : IsIdentifier name) :
    ∃ ws, ReadsManager name ws ∧ Layout.IsLineAt style.width depth
      (Line.writeAll style (withHeader style depth false [item]))
      (⟨.kwWith, text "with"⟩ :: ws ++ [Word.colon] ++ [Word.newline]) := by
  have hwith : Word.IsKeyword ⟨.kwWith, text "with"⟩ := by
    simp [Word.IsKeyword, TokenKind.keywords]
  have hsplit : text "with " = text "with" ++ text " " := rfl
  rw [withHeader, List.map_singleton, hitem, hsplit]
  split
  · have hheader := ((SpellsItem.word hwith).blank (.identifier hname)).header (by simp)
    refine ⟨_, .alone, hheader.isLineAt ?_ style depth⟩
    exact (hwith.closes.append (.identifier name)).append (.single rfl rfl)
  let b : Bracketed := ⟨asyncText false ++ (text "with" ++ text " "), ascii '(', [name], ascii ')',
    text ":", false⟩
  by_cases hfits : style.fits depth b.flat
  · -- the length of the longer text may have left the integers at which it is compared
    have hlines : b.lines style depth =
        [.code depth
          (text "with" ++ text " " ++ parenthesize (commaSeparated [name]) ++ text ":")] := by
      rw [Bracketed.lines, if_pos (.inr hfits)]
      simp only [b, Bracketed.flat, parenthesize, List.append_assoc]
      rfl
    have hclosed : ClosesBrackets
        (⟨.kwWith, text "with"⟩ ::
          [Word.openParen, ⟨.identifier, name⟩, Word.closeParen, Word.colon]) :=
      fun _ => rfl
    have hline := (SpellsLine.enclosedHeader hwith hname).isLineAt hclosed style depth
    refine ⟨_, .enclosed (.inl rfl), ?_⟩
    rw [hlines]
    exact hline
  · obtain ⟨s, trailing, htrailing, hitems, hinner⟩ :=
      exists_onlyItem hname (depth + 1) (style.trailingCommas || b.needsComma)
    have hlines : b.lines style depth = [.code depth (text "with" ++ text " " ++ text "("),
        .code (depth + 1) s, .code depth (text ")" ++ text ":")] := by
      rw [Bracketed.lines, if_neg (by simpa [b] using hfits), hitems]
      rfl
    have hclosed : ClosesBrackets (⟨.identifier, name⟩ :: trailing) := by
      obtain rfl | rfl := htrailing
      · exact .identifier name
      · exact .cons rfl rfl (.single rfl rfl)
    have hline := ((SpellsItem.word hwith).openLine (by simp)).isLineAt_split rfl hinner hclosed
      .closeHeader rfl style depth
    refine ⟨_, .enclosed htrailing, ?_⟩
    rw [hlines]
    simpa using hline

/-- A star behind a keyword. -/
theorem SpellsItem.starred {w : Word} (h : w.IsKeyword) :
    SpellsItem (w.text ++ text "*") [w, Word.star] where
  begins := by
    obtain ⟨b, t, ht, hb⟩ := (SpellsItem.word h).begins
    exact ⟨b, t ++ text "*", by rw [ht]; rfl, hb⟩
  divides := by
    intro rest hrest
    have hword : Divides (w.text ++ (text "*" ++ rest)) (text "*" ++ rest)
        [⟨TokenKind.ofWord w.text, w.text⟩] := by
      refine .word h.isWord fun c hc => ?_
      obtain rfl := Option.some.inj hc
      rfl
    rw [h.ofWord] at hword
    rw [List.append_assoc]
    exact hword.trans (Mark.star.item.divides rest hrest)

/-- The word in front of a handler, starred or not. -/
theorem SpellsItem.exceptWord (isStar : Bool) :
    SpellsItem (if isStar then text "except*" else text "except")
      (Word.exceptWord :: starWords isStar) := by
  have hexcept : Word.exceptWord.IsKeyword := by
    simp [Word.IsKeyword, TokenKind.keywords, Word.exceptWord]
  cases isStar with
  | false => exact .word hexcept
  | true => exact .starred hexcept

/-- A name behind `as`, if there is one. -/
theorem SpellsItem.renamed {s : Bytes} {ws : List Word} (h : SpellsItem s ws)
    (name : Option Bytes) :
    (∀ n ∈ name, IsIdentifier n) →
      SpellsItem (s ++ (match name with | some name => text " as " ++ name | none => []))
        (ws ++ asWords name) := by
  intro hname
  cases name with
  | none => simpa [asWords] using h
  | some name =>
    have has : Word.asWord.IsKeyword := by simp [Word.IsKeyword, TokenKind.keywords, Word.asWord]
    have hsplit : text " as " = text " " ++ (Word.asWord.text ++ text " ") := rfl
    have hitem := (h.blank (.word has)).blank (.identifier (hname name rfl))
    rw [hsplit]
    simpa [asWords] using hitem

theorem ClosesBrackets.starWords (isStar : Bool) : ClosesBrackets (starWords isStar) := by
  cases isStar
  · exact .nil
  · exact .single rfl rfl

theorem ClosesBrackets.asWords (name : Option Bytes) : ClosesBrackets (asWords name) := by
  cases name
  · exact .nil
  · exact .cons rfl rfl (.identifier _)

/-- A handler reads back from its lines. -/
theorem ExceptHandler.IsNamed.exists_readsHandler {isStar : Bool} {handler : ExceptHandler}
    (h : handler.IsNamed isStar) (hne : handler.body ≠ [])
    (hbody : ∀ s ∈ handler.body, s.ReadsBack style) (depth : Nat) :
    ∃ ws, ReadsHandler isStar ws handler.bare ∧
      Line.HaveWords style depth (ExceptHandler.lines style depth isStar [handler]) ws := by
  cases h with
  | bare hstar span body =>
    obtain ⟨ws, hreads, hlines⟩ := Stmt.exists_block hne hbody (depth + 1)
    have hheader := (SpellsItem.exceptWord false).haveWords_block (List.cons_ne_nil _ _)
      (.single rfl rfl) hlines
    subst hstar
    refine ⟨_, .bare rfl ((depth + 1) * style.width) hreads, ?_⟩
    rw [ExceptHandler.lines, ExceptHandler.lines, List.append_nil]
    simpa [handlerHeader, Expr.writeOptional, SyntaxTree.starWords, ExceptHandler.body] using
      hheader
  | @typed span typeSpan type htype name hname body =>
    obtain ⟨ws, hreads, hlines⟩ := Stmt.exists_block hne hbody (depth + 1)
    have hheader := (((SpellsItem.exceptWord isStar).blank (.identifier htype)).renamed name
      hname).haveWords_block (by simp)
      (((ClosesBrackets.single rfl rfl).append (.starWords isStar)).append
        (.identifier type) |>.append (.asWords name)) hlines
    have hreadsType : Reads .expression [⟨.identifier, type⟩] (.new (.name type .load)) :=
      ((Leads.name rfl).reads (.inr rfl)).mono (Nat.zero_le _)
    refine ⟨_, .typed hreadsType name ((depth + 1) * style.width) hreads, ?_⟩
    rw [ExceptHandler.lines, ExceptHandler.lines, List.append_nil]
    cases name <;>
      simpa [handlerHeader, Expr.writeOptional, Expr.write_name, ExceptHandler.body] using hheader

/-- Handlers read back from their lines. -/
theorem ExceptHandler.exists_readsHandlers {isStar : Bool} {handlers : List ExceptHandler}
    (hnamed : ∀ h ∈ handlers, h.IsNamed isStar) (hne : ∀ h ∈ handlers, h.body ≠ [])
    (hbody : ∀ h ∈ handlers, ∀ s ∈ h.body, s.ReadsBack style) (depth : Nat) :
    ∃ ws, ReadsHandlers isStar ws (ExceptHandler.bareAll handlers) ∧
      Line.MayHaveWords style depth (ExceptHandler.lines style depth isStar handlers) ws := by
  induction handlers with
  | nil => exact ⟨[], .nil, .inl ⟨by rw [ExceptHandler.lines], rfl⟩⟩
  | cons handler handlers ih =>
    obtain ⟨hnamed, hothers⟩ := List.forall_mem_cons.mp hnamed
    obtain ⟨hne, hne'⟩ := List.forall_mem_cons.mp hne
    obtain ⟨hbody, hbody'⟩ := List.forall_mem_cons.mp hbody
    obtain ⟨ws, hreads, hlines⟩ := hnamed.exists_readsHandler hne hbody depth
    obtain ⟨ws', hreads', hlines'⟩ := ih hothers hne' hbody'
    have hsplit : ExceptHandler.lines style depth isStar (handler :: handlers) =
        ExceptHandler.lines style depth isStar [handler] ++
          ExceptHandler.lines style depth isStar handlers := by
      obtain ⟨span, type, name, body⟩ := handler
      simp [ExceptHandler.lines]
    rw [ExceptHandler.bareAll, hsplit]
    exact ⟨_, .cons hreads hreads', .inr (hlines.append_may hlines')⟩

end Headers

namespace Stmt.ReadsBack

variable {style : Style} {body orelse : List Stmt}

/-- A block with a name as its context manager. -/
theorem withBlock (span itemSpan nameSpan : Span) {name : Bytes} (hname : IsIdentifier name)
    (hne : body ≠ []) (hbody : ∀ s ∈ body, s.ReadsBack style) : Stmt.ReadsBack style
      (.node span
      (.withBlock false [⟨itemSpan, .node nameSpan (.name name .load), none⟩] body)) := by
  refine Stmt.ReadsAlone.readsBack (fun depth => ?_) nofun
  obtain ⟨ws, hreads, hlines⟩ := Stmt.exists_block hne hbody (depth + 1)
  have hitem : WithItem.write style.quote ⟨itemSpan, .node nameSpan (.name name .load), none⟩ =
      name := by
    rw [WithItem.write, Expr.write_name, List.append_nil]
  obtain ⟨ws', hmanager, hheader⟩ := exists_readsManager style depth hitem hname
  refine ⟨_,
    .withBlock (w := ⟨.kwWith, text "with"⟩) rfl hmanager ((depth + 1) * style.width) hreads, ?_⟩
  rw [Stmt.lines]
  exact Line.haveWords_block hheader hlines

/-- A try statement. -/
theorem tryBlock (span : Span) {isStar : Bool} {handlers : List ExceptHandler}
    {finalbody : List Stmt}
    (hne : body ≠ []) (hbody : ∀ s ∈ body, s.ReadsBack style)
    (hnamed : ∀ h ∈ handlers, h.IsNamed isStar) (hblocks : ∀ h ∈ handlers, h.body ≠ [])
    (hhandlers : ∀ h ∈ handlers, ∀ s ∈ h.body, s.ReadsBack style)
    (horelse : ∀ s ∈ orelse, s.ReadsBack style) (hfinal : ∀ s ∈ finalbody, s.ReadsBack style)
    (hnone : handlers = [] → isStar = false ∧ orelse = [])
    (hsome : handlers ≠ [] ∨ finalbody ≠ []) :
    Stmt.ReadsBack style (.node span (.tryBlock isStar body handlers orelse finalbody)) := by
  refine Stmt.ReadsAlone.readsBack (fun depth => ?_) nofun
  obtain ⟨ws, hreads, hlines⟩ := Stmt.exists_block hne hbody (depth + 1)
  obtain ⟨ws₁, hreads₁, hlines₁⟩ :=
    ExceptHandler.exists_readsHandlers hnamed hblocks hhandlers depth
  obtain ⟨ws₂, hreads₂, hnil, hlines₂⟩ :=
    Stmt.exists_elseBlock (fun s hs => (horelse s hs).alone) depth
  obtain ⟨ws₃, hreads₃, hlines₃⟩ := Stmt.exists_finalBlock (fun s hs => (hfinal s hs).alone) depth
  have hbare (handlers : List ExceptHandler) :
      ExceptHandler.bareAll handlers = [] → handlers = [] := by
    cases handlers <;> simp [ExceptHandler.bareAll]
  have hbare' (ss : List Stmt) : Stmt.bareAll ss = [] → ss = [] := by
    cases ss <;> simp [Stmt.bareAll]
  refine ⟨_, .tryBlock (w := ⟨.kwTry, text "try"⟩) rfl ((depth + 1) * style.width) hreads hreads₁
    hreads₂ hreads₃ (fun h => ?_) (hsome.imp (mt (hbare _)) (mt (hbare' _))), ?_⟩
  · obtain ⟨hstar, helse⟩ := hnone (hbare _ h)
    exact ⟨hstar, hnil helse⟩
  · have htry : Word.IsKeyword ⟨.kwTry, text "try"⟩ := by
      simp [Word.IsKeyword, TokenKind.keywords]
    have hheader := (SpellsItem.word htry).haveWords_block (by simp) htry.closes hlines
    have hsplit : text "try:" = text "try" ++ text ":" := rfl
    have hwords := ((hheader.append_may hlines₁).append_may hlines₂).append_may hlines₃
    rw [Stmt.lines, hsplit]
    simpa using hwords

end Stmt.ReadsBack

/-! ## Modules of such statements -/

/-- Statements of control flow read back, whatever the style they are written in. -/
theorem Stmt.IsSkeleton.readsBack {s : Stmt} (h : s.IsSkeleton) (style : Style) :
    s.ReadsBack style := by
  induction h with
  | pass span =>
    exact .word (w := ⟨.kwPass, text "pass"⟩) (by simp [Word.IsKeyword, TokenKind.keywords])
      (by simp) span fun _ => by rw [lines]
  | breakLoop span =>
    exact .word (w := ⟨.kwBreak, text "break"⟩) (by simp [Word.IsKeyword, TokenKind.keywords])
      (by simp) span fun _ => by rw [lines]
  | continueLoop span =>
    exact .word (w := ⟨.kwContinue, text "continue"⟩) (by simp [Word.IsKeyword, TokenKind.keywords])
      (by simp) span fun _ => by
      rw [lines]
  | returnNone span =>
    exact .word (w := ⟨.kwReturn, text "return"⟩) (by simp [Word.IsKeyword, TokenKind.keywords])
      (by simp) span fun _ => by
      rw [lines]
  | expression span nameSpan hname => exact .expression span nameSpan hname
  | conditional span testSpan htest hne _ _ hbody horelse =>
    exact .conditional span testSpan htest hne hbody horelse
  | whileLoop span testSpan htest hne _ _ hbody horelse =>
    exact .whileLoop span testSpan htest hne hbody horelse
  | forLoop span targetSpan iterableSpan htarget hiterable hne _ _ hbody horelse =>
    exact .forLoop span targetSpan iterableSpan htarget hiterable hne hbody horelse
  | withBlock span itemSpan nameSpan hname hne _ hbody =>
    exact .withBlock span itemSpan nameSpan hname hne hbody
  | functionDef span hname hne _ hbody => exact .functionDef span hname hne hbody
  | classDef span hname hne _ hbody => exact .classDef span hname hne hbody
  | tryBlock span hne _ hnamed hblocks _ _ _ hnone hsome hbody hhandlers horelse hfinal =>
    exact .tryBlock span hne hbody hnamed hblocks hhandlers horelse hfinal hnone hsome

/-- A module of statements is written as its lines are, if the blanks of each can be counted. -/
theorem Module.write?_eq (style : Style) {m : Module}
    (hmode : m.mode = .exec ∨ m.mode = .interactive) :
    m.write? style =
      if ∀ line ∈ Stmt.linesAll style 0 m.body, style.HasMargin line.depth then
        some (m.write style) else none := by
  rcases hmode with hmode | hmode <;>
  · rw [Module.write?, Module.write, hmode]
    exact Line.writeAll?_eq style _

-- the break is two blocks deep, and twice 2 ^ 30 is no signed integer of 32 bits
example :
    { Module.empty .exec with
      body := [.new (.conditional (.new (.name (text "a") .load))
        [.new (.conditional (.new (.name (text "b") .load)) [.new .breakLoop] [])] [])] }.write?
      ⟨2 ^ 30, true, 88, false⟩ = none := by
  decide +kernel

end SyntaxTree
