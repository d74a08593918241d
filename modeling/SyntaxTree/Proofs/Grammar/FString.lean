import SyntaxTree.Proofs.Grammar.Piece
import SyntaxTree.Proofs.Grammar.Text
import SyntaxTree.Proofs.Render.Quoted
import SyntaxTree.Proofs.Render.Spelling

/-
# The body of an f-string piece by piece

The division of a body takes literal text as far as it goes, over any number of written pieces.
What the pieces add to a draft does not depend on that: a written piece in front of a body adds its
value, and the body adds what it adds alone.
-/

namespace SyntaxTree

open Literal Parse Render

/-! ## Literal text -/

namespace Bytes

/-- Line ends behind a text without any are unified by themselves. -/
theorem unifyLineEnds_append {s : Bytes} (h : ∀ b ∈ s, b.isLineEnd = false) (t : Bytes) :
    unifyLineEnds (s ++ t) = s ++ unifyLineEnds t := by
  induction s with
  | nil => rfl
  | cons b s ih =>
    obtain ⟨hb, hs⟩ := List.forall_mem_cons.mp h
    have hreturn : b ≠ Byte.carriageReturn := by
      rintro rfl
      exact nomatch hb
    rw [List.cons_append, unifyLineEnds, if_neg hreturn, ih hs, List.cons_append]

end Bytes

namespace FString

theorem upTo_left (s rest : Bytes) : upTo (s ++ rest) rest = s := by
  rw [upTo, List.length_append, Nat.add_sub_cancel]
  exact List.take_left

/-- A plain byte belongs to literal text. -/
theorem literalEnd_plain {b : Byte} (hback : b ≠ Byte.backslash) (hbrace : isBrace b = false)
    (s : Bytes) : literalEnd false false (b :: s) = literalEnd false false s := by
  cases s with
  | nil => simp [literalEnd, hbrace]
  | cons c s =>
    rw [literalEnd, hbrace, if_neg Bool.false_ne_true, if_neg fun h => hback h.1]

/-- A pair belongs to literal text. -/
theorem literalEnd_pair {b : Byte} (hb : b.isEscapable) (s : Bytes) :
    literalEnd false false (Byte.backslash :: b :: s) = literalEnd false false s := by
  obtain ⟨-, -, hname, hbrace⟩ := Byte.isEscapable_iff.mp hb
  have hback : isBrace Byte.backslash = false := by decide
  rw [literalEnd, hback, if_neg Bool.false_ne_true, if_pos ⟨rfl, rfl⟩, if_neg fun h => hname h.1,
    hbrace, if_neg Bool.false_ne_true]

/-- A written piece belongs to literal text. -/
theorem literalEnd_append {isOf : Byte → Bool} (hof : ∀ b, isOf b → isBrace b = false) {s : Bytes}
    (hs : IsEscaped isOf s) (rest : Bytes) :
    literalEnd false false (s ++ rest) = literalEnd false false rest := by
  induction hs with
  | nil => rfl
  | plain hback hclass _ ih =>
    rw [List.cons_append, literalEnd_plain hback (hof _ hclass), ih]
  | pair hb _ ih => rw [List.cons_append, List.cons_append, literalEnd_pair hb, ih]

/-- Literal text ends where there is none. -/
theorem literalEnd_eq_self {s : Bytes} (hs : ∀ b ∈ s.head?, isBrace b) :
    literalEnd false false s = s := by
  match s with
  | [] => rw [literalEnd]
  | [b] => rw [literalEnd, if_pos (hs b rfl)]
  | b :: c :: s => rw [literalEnd, if_pos (hs b rfl)]

/-- A written piece does not begin with a brace. -/
theorem isBrace_head {isOf : Byte → Bool} (hof : ∀ b, isOf b → isBrace b = false) {s : Bytes}
    (hs : IsEscaped isOf s) : ∀ b ∈ s.head?, isBrace b = false := by
  intro b hb
  cases hs with
  | nil => exact nomatch hb
  | plain _ hclass _ =>
    obtain rfl := Option.some.inj hb
    exact hof _ hclass
  | pair _ _ =>
    obtain rfl := Option.some.inj hb
    decide

/-! ## The division at each piece -/

variable {size limit : Nat} {s rest : Bytes}

/-- The end of a field that is a name: its closing brace, or the mark of a conversion. -/
theorem fieldEnd_word {s : Bytes} (hs : s.all Lexeme.isWordByte) (previous : Option Byte)
    {stop : Byte}
    (hstop : stop = Byte.closeBrace ∨ stop = ascii '!' ∧ rest.head? ≠ some (ascii '=')) :
    fieldEnd 0 previous (s ++ stop :: rest) = stop :: rest := by
  induction s generalizing previous with
  | nil =>
    rw [List.nil_append, fieldEnd]
    rcases hstop with rfl | ⟨rfl, hrest⟩
    · rfl
    · have hends : endsField previous (ascii '!') rest := by simp [endsField, hrest]
      rw [if_neg (by decide), if_neg (by decide), if_neg (by decide), if_pos ⟨rfl, hends⟩]
  | cons b s ih =>
    simp only [List.all_cons, Bool.and_eq_true] at hs
    have hne {c : Byte} (hc : Lexeme.isWordByte c = false) : b ≠ c :=
      Byte.ne_of_class hs.1 hc
    have hquote : ¬ b.isQuote := by
      rw [Byte.isQuote_iff]
      exact not_or.mpr ⟨hne rfl, hne rfl⟩
    have hopen : b ∉ text "([\x7b" := by
      have : ∀ c ∈ text "([\x7b", Lexeme.isWordByte c = false :=
        List.forall_iff_forall_mem.mp (by decide)
      exact fun hmem => hne (this b hmem) rfl
    have hclose : b ∉ text ")]\x7d" := by
      have : ∀ c ∈ text ")]\x7d", Lexeme.isWordByte c = false :=
        List.forall_iff_forall_mem.mp (by decide)
      exact fun hmem => hne (this b hmem) rfl
    have hends : ¬ endsField previous b (s ++ stop :: rest) := by
      simp [endsField, hne (c := ascii '!') rfl, hne (c := ascii ':') rfl,
        hne (c := ascii '=') rfl]
    rw [List.cons_append, fieldEnd, if_neg hquote, if_neg hopen, if_neg hclose,
      if_neg fun h => hends h.2, ih hs.2]

/-- The mark of a conversion, or nothing. -/
def conversionText : Option Conversion → Bytes
  | some conversion => [ascii '!', conversion.letter]
  | none => []

/-- Behind the name of a field stands the mark of its conversion, or its closing brace. -/
theorem exists_stop (conversion : Option Conversion) (rest : Bytes) : ∃ stop tail,
    conversionText conversion ++ Byte.closeBrace :: rest = stop :: tail ∧
      (stop = Byte.closeBrace ∨ stop = ascii '!' ∧ tail.head? ≠ some (ascii '=')) ∧
      readConversion (stop :: tail) = some (conversion, Byte.closeBrace :: rest) := by
  cases conversion with
  | none => exact ⟨_, _, rfl, .inl rfl, rfl⟩
  | some conversion =>
    refine ⟨_, _, rfl, .inr ⟨rfl, fun h => ?_⟩, ?_⟩
    · cases conversion <;> exact nomatch h
    · cases conversion <;> rfl

/-- A field that is a name, with an optional conversion. -/
theorem divideUpTo_field {id : Bytes} (hid : IsWord id) (conversion : Option Conversion) :
    divideUpTo false size (limit + 1) false
        (Byte.openBrace :: (id ++ (conversionText conversion ++ Byte.closeBrace :: rest))) =
      (.field (size - (id ++ (conversionText conversion ++ Byte.closeBrace :: rest)).length) id []
          conversion none :: (divideUpTo false size limit false rest).1,
        (divideUpTo false size limit false rest).2) := by
  obtain ⟨stop, tail, htail, hstop, hconversion⟩ := exists_stop conversion rest
  obtain ⟨b, t, rfl, hb, ht⟩ := hid
  have hword := Byte.isWordByte_of_startsWord hb
  have hall : (b :: t).all Lexeme.isWordByte := by simp [hword, ht]
  have hend : fieldEnd 0 none (b :: t ++ stop :: tail) = stop :: tail :=
    fieldEnd_word hall none hstop
  have hsource : upTo (b :: t ++ stop :: tail) (stop :: tail) = b :: t := upTo_left _ _
  have hdouble : ¬ (!false ∧ (b :: t ++ stop :: tail).head? = some Byte.openBrace) := by
    rintro ⟨-, h⟩
    exact Byte.ne_of_class hword rfl (Option.some.inj h)
  have hwhite : (b :: t).all isWhite = false := by
    rw [List.all_cons, Bool.and_eq_false_iff]
    left
    have hne : ∀ c, Lexeme.isWordByte c = false → b ≠ c := fun _ hc => Byte.ne_of_class hword hc
    simp [isWhite, Byte.isBlank, Byte.isLineEnd, hne Byte.space rfl, hne Byte.tab rfl,
      hne Byte.formFeed rfl, hne Byte.lineFeed rfl, hne Byte.carriageReturn rfl]
  have hequal : stop ≠ ascii '=' := by rcases hstop with rfl | ⟨rfl, -⟩ <;> decide
  have hecho : echoEnd (stop :: tail) = stop :: tail := if_neg fun h => hequal (Option.some.inj h)
  rw [htail, divideUpTo, if_pos rfl, if_neg hdouble, hend]
  dsimp only
  rw [hsource, hwhite, if_neg Bool.false_ne_true, hecho, if_neg hequal, hconversion]
  rfl

end FString

/-! ## What a body adds -/

namespace Parse

/-- Adding the pieces of a body to a draft gives another one. -/
def Adds (field : FieldReading) (token : Token) (base size : Nat) (c : Cursor) (s : Bytes)
    (draft draft' : Draft) : Prop :=
  ∀ limit, s.length < limit →
    addPieces field token base false draft (FString.divideUpTo false size limit false s).1 c =
      .ok draft' c ∧ (FString.divideUpTo false size limit false s).2 = []

variable {field : FieldReading} {token : Token} {base size : Nat} {c : Cursor} {s : Bytes}
  {draft draft' : Draft}

theorem Adds.nil : Adds field token base size c [] draft draft := by
  intro limit hlimit
  obtain ⟨limit, rfl⟩ := Nat.exists_eq_add_of_lt hlimit
  rw [List.length_nil, Nat.zero_add, FString.divideUpTo]
  exact ⟨rfl, rfl⟩

/-- A brace that is written twice adds one. -/
theorem Adds.brace {b : Byte} (hb : FString.isBrace b)
    (h : Adds field token base size c s (draft.append [b]) draft') :
    Adds field token base size c (b :: b :: s) draft draft' := by
  intro limit hlimit
  rw [List.length_cons] at hlimit
  obtain ⟨limit, rfl⟩ := Nat.exists_eq_succ_of_ne_zero (Nat.ne_zero_of_lt hlimit)
  obtain ⟨hadds, hrest⟩ := h limit (by rw [List.length_cons] at hlimit; omega)
  rw [FString.divideUpTo_brace hb]
  refine ⟨?_, hrest⟩
  rw [addPieces, addPiece]
  exact hadds

/-- A field that shows nothing of its source pushes its value. -/
theorem addPiece_field {id : Bytes} {conversion : Option Conversion} {offset : Nat} {v : Expr}
    (hrun : field.read id (token.placeAt (base + offset)) c = .ok v c) (draft : Draft) :
    addPiece field token base false draft (.field offset id [] conversion none) c =
      .ok (draft.push token.span (.node ⟨v.span.start, none⟩ (.field v conversion none))) c := by
  have hspec : readSpec field token base false none c = .ok none c := by
    rw [readSpec]
    rfl
  have hempty : draft.append [] = draft := by rw [Draft.append, List.append_nil]
  rw [addPiece, bind_ok hrun, bind_ok hspec]
  simp only [ne_eq, not_true, false_and, if_false, hempty]
  rfl

/-- A field that is a name adds what the name is read as. -/
theorem Adds.exists_field {id : Bytes} (hid : IsWord id) (conversion : Option Conversion)
    {e : Expr} (hfield : ∀ place, ∃ v, field.read id place c = .ok v c ∧ v.bare = e) (s : Bytes) :
    ∃ value : Expr, value.bare = .new (.field e conversion none) ∧
      ∀ {draft draft' : Draft},
        Adds field token base size c s (draft.push token.span value) draft' →
        Adds field token base size c
          (Byte.openBrace :: (id ++ (FString.conversionText conversion ++ Byte.closeBrace :: s)))
          draft draft' := by
  obtain ⟨v, hrun, hv⟩ := hfield (token.placeAt (base +
    (size - (id ++ (FString.conversionText conversion ++ Byte.closeBrace :: s)).length)))
  refine ⟨.node ⟨v.span.start, none⟩ (.field v conversion none), ?_, ?_⟩
  · rw [Expr.bare, Expr.Shape.bare, hv]
    rfl
  intro draft draft' h limit hlimit
  simp only [List.length_cons, List.length_append] at hlimit
  obtain ⟨limit, rfl⟩ := Nat.exists_eq_succ_of_ne_zero (Nat.ne_zero_of_lt hlimit)
  obtain ⟨hadds, hrest⟩ := h limit (by omega)
  rw [FString.divideUpTo_field hid]
  refine ⟨?_, hrest⟩
  rw [addPieces, bind_ok (addPiece_field hrun draft)]
  exact hadds

/-- Literal text in front of more of it is added first. -/
theorem addLiteral_append {names : Unicode.CharacterNames} {isOf : Byte → Bool}
    {piece value : Bytes} (hpiece : Encodes false isOf piece value) (draft : Draft) (t : Bytes) :
    addLiteral names token false false draft (piece ++ t) =
      addLiteral names token false false (draft.append value) t := by
  rw [addLiteral, addLiteral, hpiece.unescape]
  cases Literal.unescape names false t with
  | error cause => rfl
  | ok value' =>
    have happend : draft.append (value ++ value') = (draft.append value).append value' := by
      rw [Draft.append, Draft.append, Draft.append, List.append_assoc]
    exact congrArg (fun d => (pure d : Parse Draft)) happend

/-- A written piece adds its value. -/
theorem Adds.piece {isOf : Byte → Bool}
    (hof : ∀ b, isOf b → FString.isBrace b = false ∧ b.isLineEnd = false) {piece value : Bytes}
    (hpiece : Encodes false isOf piece value)
    (h : Adds field token base size c s (draft.append value) draft') :
    Adds field token base size c (piece ++ s) draft draft' := by
  have hbrace : ∀ b, isOf b → FString.isBrace b = false := fun b hb => (hof b hb).1
  have hends := hpiece.escaped.not_isLineEnd fun b hb => (hof b hb).2
  have hliteral := FString.literalEnd_append hbrace hpiece.escaped s
  have hhead := FString.isBrace_head hbrace hpiece.escaped
  obtain _ | ⟨b, piece⟩ := piece
  · have hvalue := hpiece.unescape_eq field.names
    rw [Literal.unescape] at hvalue
    obtain rfl := Except.ok.inj hvalue
    rwa [Draft.append, List.append_nil] at h
  intro limit hlimit
  simp only [List.length_cons, List.length_append] at hlimit
  obtain ⟨limit, rfl⟩ := Nat.exists_eq_succ_of_ne_zero (Nat.ne_zero_of_lt hlimit)
  rw [List.cons_append, FString.divideUpTo_literal (hhead b rfl), ← List.cons_append, hliteral]
  by_cases hs : ∀ b ∈ s.head?, FString.isBrace b
  · -- the literal text ends with the piece
    obtain ⟨hadds, hrest⟩ := h limit (by omega)
    have hadd : addLiteral field.names token false false draft (b :: piece) c =
        .ok (draft.append value) c := by
      rw [addLiteral, if_neg Bool.false_ne_true, hpiece.unescape_eq]
      rfl
    rw [FString.literalEnd_eq_self hs, FString.upTo_left, Bytes.unifyLineEnds_of_notMem hends,
      addPieces, addPiece, bind_ok hadd]
    exact ⟨hadds, hrest⟩
  · -- the literal text goes on behind the piece
    obtain ⟨r, s, rfl⟩ : ∃ r t, s = r :: t := by
      cases s with
      | nil => exact absurd (by simp) hs
      | cons r s => exact ⟨r, s, rfl⟩
    have hr : FString.isBrace r = false := by simpa using hs
    obtain ⟨hadds, hrest⟩ := h (limit + 1) (by rw [List.length_cons] at hlimit ⊢; omega)
    obtain ⟨t, ht⟩ := FString.suffix_of_literalEnd false false (r :: s)
    rw [FString.divideUpTo_literal hr] at hadds hrest
    generalize FString.literalEnd false false (r :: s) = after at *
    rw [← ht, FString.upTo_left, addPieces, addPiece] at hadds
    rw [← ht, ← List.append_assoc, FString.upTo_left, Bytes.unifyLineEnds_append hends, addPieces,
      addPiece, addLiteral_append hpiece]
    exact ⟨hadds, hrest⟩

end Parse

end SyntaxTree
