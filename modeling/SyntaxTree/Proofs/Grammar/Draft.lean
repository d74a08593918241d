import SyntaxTree.Grammar.Text
import SyntaxTree.Tree.Edit
import SyntaxTree.Proofs.Tree.Bare

/-
# Drafts

What a literal adds to a draft is a list of parts, texts and fields.  The values of a draft are
those of its parts, where neighbouring texts have been joined and empty ones left out.
-/

namespace SyntaxTree

/-! ## Parts of values -/

/-- A string without a position. -/
def Expr.str (s : Bytes) : Expr := .new (.constant (.string s))

/-- A bytes object without a position. -/
def Expr.bytes (s : Bytes) : Expr := .new (.constant (.bytes s))

/-- The text of a string. -/
def Expr.text? : Expr → Option Bytes
  | .node _ (.constant (.string s)) => some s
  | _ => none

/-- The parts of a literal: those of an f-string, or the literal itself. -/
def Expr.literalParts : Expr → List Expr
  | .node _ (.fstring values) => values
  | e => [e]

/-- A text in front of parts is joined to one that they begin with, and left out if it is empty. -/
def consText (s : Bytes) (rest : List Expr) : List Expr :=
  match rest.head?.bind Expr.text? with
  | some t => .str (s ++ t) :: rest.tail
  | none => if s = [] then rest else .str s :: rest

/-- A part in front of others. -/
def consPart (e : Expr) (rest : List Expr) : List Expr :=
  match e.text? with
  | some s => consText s rest
  | none => e :: rest

/-- Parts of which neighbouring texts have been joined, and empty ones left out. -/
def joinTexts (parts : List Expr) : List Expr := parts.foldr consPart []

/-- A list of parts to which empty text adds nothing. -/
def IsJoined (rest : List Expr) : Prop := consText [] rest = rest

theorem consText_of_text {t : Bytes} {e : Expr} (h : e.text? = some t) (s : Bytes)
    (rest : List Expr) : consText s (e :: rest) = .str (s ++ t) :: rest := by
  rw [consText, List.head?_cons, Option.bind_some, h]
  rfl

theorem consText_of_none {rest : List Expr} (h : rest.head?.bind Expr.text? = none) (s : Bytes) :
    consText s rest = if s = [] then rest else .str s :: rest := by
  rw [consText, h]

/-- Two texts in front are one. -/
theorem consText_consText (s t : Bytes) (rest : List Expr) :
    consText s (consText t rest) = consText (s ++ t) rest := by
  cases hrest : rest.head?.bind Expr.text? with
  | some u =>
    obtain ⟨e, hhead, he⟩ := Option.bind_eq_some_iff.mp hrest
    obtain ⟨rest, rfl⟩ := List.head?_eq_some_iff.mp hhead
    rw [consText_of_text he, consText_of_text rfl, consText_of_text he, List.append_assoc]
  | none =>
    rw [consText_of_none hrest t, consText_of_none hrest (s ++ t)]
    by_cases ht : t = []
    · rw [if_pos ht, ht, List.append_nil, consText_of_none hrest]
    · rw [if_neg ht, consText_of_text rfl, if_neg (by simp [ht])]

theorem consPart_str (s : Bytes) (rest : List Expr) :
    consPart (.str s) rest = consText s rest := rfl

theorem isJoined_nil : IsJoined [] := rfl

theorem IsJoined.consText (s : Bytes) (rest : List Expr) : IsJoined (consText s rest) := by
  rw [IsJoined, consText_consText, List.nil_append]

theorem IsJoined.consPart (e : Expr) (rest : List Expr) : IsJoined (consPart e rest) := by
  unfold SyntaxTree.consPart
  split
  · exact .consText _ rest
  · next he => exact (consText_of_none (by simpa using he) []).trans (if_pos rfl)

theorem IsJoined.foldr {rest : List Expr} (h : IsJoined rest) (parts : List Expr) :
    IsJoined (parts.foldr SyntaxTree.consPart rest) := by
  cases parts with
  | nil => exact h
  | cons e parts => exact .consPart e _

/-- A text may be joined to parts before or after they are put in front of others. -/
theorem foldr_consText {rest : List Expr} (h : IsJoined rest) (s : Bytes) (parts : List Expr) :
    (consText s parts).foldr consPart rest = consText s (parts.foldr consPart rest) := by
  cases hparts : parts.head?.bind Expr.text? with
  | some t =>
    obtain ⟨e, hhead, he⟩ := Option.bind_eq_some_iff.mp hparts
    obtain ⟨parts, rfl⟩ := List.head?_eq_some_iff.mp hhead
    rw [consText_of_text he, List.foldr_cons, List.foldr_cons, consPart_str, consPart, he,
      consText_consText]
  | none =>
    rw [consText_of_none hparts]
    by_cases hs : s = []
    · rw [if_pos hs, hs]
      exact (h.foldr parts).symm
    · rw [if_neg hs]
      rfl

/-- Parts may be joined before they are put in front of others. -/
theorem foldr_joinTexts {rest : List Expr} (h : IsJoined rest) (parts : List Expr) :
    (joinTexts parts).foldr consPart rest = parts.foldr consPart rest := by
  induction parts with
  | nil => rfl
  | cons e parts ih =>
    rw [joinTexts, List.foldr_cons, List.foldr_cons, ← joinTexts]
    cases he : e.text? with
    | none =>
      rw [consPart, consPart, he]
      dsimp only
      rw [List.foldr_cons, consPart, he, ih]
    | some s =>
      rw [consPart, consPart, he]
      dsimp only
      rw [foldr_consText h, ih]

theorem joinTexts_append (parts more : List Expr) :
    joinTexts (parts ++ more) = parts.foldr consPart (joinTexts more) :=
  List.foldr_append

/-- Lists of parts that are alike in front of all others may be exchanged one by one. -/
theorem joinTexts_flatMap_congr {ι : Type} {is : List ι} {parts parts' : ι → List Expr}
    (h : ∀ i ∈ is, ∀ rest, IsJoined rest →
      (parts i).foldr consPart rest = (parts' i).foldr consPart rest) :
    joinTexts (is.flatMap parts) = joinTexts (is.flatMap parts') := by
  induction is with
  | nil => rfl
  | cons i is ih =>
    obtain ⟨hi, his⟩ := List.forall_mem_cons.mp h
    rw [List.flatMap_cons, List.flatMap_cons, joinTexts_append, joinTexts_append, ih his]
    exact hi _ (isJoined_nil.foldr _)

/-! ## Parts of drafts -/

/-- What a piece of a literal adds to a draft. -/
inductive LiteralPart where
  | text (s : Bytes)
  | field (value : Expr) (conversion : Option Conversion) (spec : Option FormatSpec)

namespace LiteralPart

/-- The expression that a part forms on its own. -/
def expr : LiteralPart → Expr
  | text s => .str s
  | field value conversion spec => .node ⟨value.span.start, none⟩ (.field value conversion spec)

/-- The same without positions. -/
def bare (part : LiteralPart) : Expr := part.expr.bare

end LiteralPart

namespace Draft

/-- The draft with another part. -/
def add (span : Span) (draft : Draft) : LiteralPart → Draft
  | .text s => draft.append s
  | .field value conversion spec =>
    draft.push span (.node ⟨value.span.start, none⟩ (.field value conversion spec))

/-- The draft with further parts. -/
def adds (span : Span) (draft : Draft) (parts : List LiteralPart) : Draft :=
  parts.foldl (add span) draft

/-- The values of a draft in front of further parts, without positions. -/
def before (draft : Draft) (rest : List Expr) : List Expr :=
  draft.values.map Expr.bare ++ consText draft.pending rest

theorem flush_values (span : Span) (draft : Draft) :
    (draft.flush span).values.map Expr.bare = draft.before [] := by
  have hnone : consText draft.pending [] =
      if draft.pending = [] then [] else [.str draft.pending] := consText_of_none rfl _
  rw [before, hnone, flush]
  split
  · exact (List.append_nil _).symm
  · exact List.map_append

theorem before_add (span : Span) (draft : Draft) (part : LiteralPart) {rest : List Expr}
    (h : IsJoined rest) :
    (draft.add span part).before rest = draft.before (consPart part.bare rest) := by
  cases part with
  | text s => exact congrArg _ (consText_consText draft.pending s rest).symm
  | field value conversion spec =>
    have hpending : (draft.add span (.field value conversion spec)).before rest =
        ((draft.flush span).values ++ [(LiteralPart.field value conversion spec).expr]).map
          Expr.bare ++
          consText (draft.flush span).pending rest := rfl
    have hflushed : (draft.flush span).pending = [] := by
      unfold flush
      split
      · next hnil => exact hnil
      · rfl
    rw [hpending, hflushed, h, List.map_append, flush_values, before, before]
    have hfield : (consPart (LiteralPart.field value conversion spec).bare rest).head?.bind
      Expr.text? = none := rfl
    rw [consText_of_none hfield, consText_of_none rfl]
    split <;> simp [LiteralPart.bare, consPart, LiteralPart.expr, Expr.text?]

/-- Parts are added to a draft in front of what follows. -/
theorem before_adds (span : Span) (draft : Draft) (parts : List LiteralPart) {rest : List Expr}
    (h : IsJoined rest) :
    (draft.adds span parts).before rest =
      draft.before ((parts.map LiteralPart.bare).foldr consPart rest) := by
  induction parts generalizing draft with
  | nil => rfl
  | cons part parts ih =>
    rw [List.map_cons, List.foldr_cons, ← before_add span draft part (h.foldr _)]
    exact ih (draft.add span part)

/-- The parts of literals that stand side by side are added one after the other. -/
def addAll (draft : Draft) (literals : List (Token × List LiteralPart)) : Draft :=
  literals.foldl (fun draft literal => draft.adds literal.1.span literal.2) draft

theorem before_addAll (draft : Draft) (literals : List (Token × List LiteralPart))
    {rest : List Expr} (h : IsJoined rest) :
    (draft.addAll literals).before rest =
      draft.before ((literals.flatMap fun literal => literal.2.map LiteralPart.bare).foldr consPart
        rest) := by
  induction literals generalizing draft with
  | nil => rfl
  | cons literal literals ih =>
    rw [List.flatMap_cons, List.foldr_append, ← before_adds literal.1.span draft _ (h.foldr _)]
    exact ih (draft.adds literal.1.span literal.2)

end Draft

end SyntaxTree
