import SyntaxTree.Proofs.Grammar.Chunk
import SyntaxTree.Proofs.Grammar.Concatenation
import SyntaxTree.Proofs.Render.FString

/-
# Doubled braces

An f-string without fields is a string whose braces are written twice, but for those around the
names of characters.  Its pieces add, chunk by chunk, what the body of the string denotes.
-/

namespace SyntaxTree

open Literal Parse

namespace FString

/-- A body in which braces are written twice, but for those in the escape of a character by its
name; `inName` says that one is open. -/
def doubleBraces (isRaw : Bool) : (inName : Bool) → Bytes → Bytes
  | _, [] => []
  | true, b :: s => b :: doubleBraces isRaw (b ≠ Byte.closeBrace) s
  | false, [b] => if isBrace b then [b, b] else [b]
  | false, b :: c :: s =>
    if isBrace b then b :: b :: doubleBraces isRaw false (c :: s)
    else if b = Byte.backslash ∧ !isRaw then
      if c = ascii 'N' ∧ s.head? = some Byte.openBrace then b :: c :: doubleBraces isRaw true s
      else if isBrace c then b :: doubleBraces isRaw false (c :: s)
      else b :: c :: doubleBraces isRaw false s
    else b :: doubleBraces isRaw false (c :: s)

variable {isRaw inName : Bool} {b c : Byte} {s : Bytes}

theorem doubleBraces_nil : doubleBraces isRaw inName [] = [] := by
  cases inName <;> rfl

/-- What happens to the first of two bytes outside the names of characters. -/
theorem doubleBraces_cons_cons : doubleBraces isRaw false (b :: c :: s) =
    if isBrace b then b :: b :: doubleBraces isRaw false (c :: s)
    else if b = Byte.backslash ∧ !isRaw then
      if c = ascii 'N' ∧ s.head? = some Byte.openBrace then b :: c :: doubleBraces isRaw true s
      else if isBrace c then b :: doubleBraces isRaw false (c :: s)
      else b :: c :: doubleBraces isRaw false s
    else b :: doubleBraces isRaw false (c :: s) := rfl

theorem doubleBraces_true_cons :
    doubleBraces isRaw true (b :: s) = b :: doubleBraces isRaw (b ≠ Byte.closeBrace) s := by
  cases s <;> rfl

theorem doubleBraces_brace (hb : isBrace b) :
    doubleBraces isRaw false (b :: s) = b :: b :: doubleBraces isRaw false s := by
  cases s with
  | nil => exact if_pos hb
  | cons c s => rw [doubleBraces_cons_cons, if_pos hb]

theorem doubleBraces_ordinary (hback : isRaw ∨ b ≠ Byte.backslash) (hb : isBrace b = false) :
    doubleBraces isRaw false (b :: s) = b :: doubleBraces isRaw false s := by
  have hnot : ¬ (b = Byte.backslash ∧ !isRaw) := by
    rcases hback with rfl | hback
    · simp
    · exact fun h => hback h.1
  cases s with
  | nil => exact if_neg (Bool.eq_false_iff.mp hb)
  | cons c s => rw [doubleBraces_cons_cons, hb, if_neg Bool.false_ne_true, if_neg hnot]

theorem doubleBraces_name (hs : s.head? = some Byte.openBrace) :
    doubleBraces false false (Byte.backslash :: ascii 'N' :: s) =
      Byte.backslash :: ascii 'N' :: doubleBraces false true s := by
  have hbrace : ¬ isBrace Byte.backslash := by decide
  rw [doubleBraces_cons_cons, if_neg hbrace, if_pos ⟨rfl, rfl⟩, if_pos ⟨rfl, hs⟩]

theorem doubleBraces_lone (hc : isBrace c) :
    doubleBraces false false (Byte.backslash :: c :: s) =
      Byte.backslash :: doubleBraces false false (c :: s) := by
  have hbrace : ¬ isBrace Byte.backslash := by decide
  have hname : c ≠ ascii 'N' := by
    rintro rfl
    cases hc
  rw [doubleBraces_cons_cons, if_neg hbrace, if_pos ⟨rfl, rfl⟩, if_neg fun h => hname h.1,
    if_pos hc]

theorem doubleBraces_escaped (hc : isBrace c = false)
    (hname : ¬ (c = ascii 'N' ∧ s.head? = some Byte.openBrace)) :
    doubleBraces false false (Byte.backslash :: c :: s) =
      Byte.backslash :: c :: doubleBraces false false s := by
  have hbrace : ¬ isBrace Byte.backslash := by decide
  rw [doubleBraces_cons_cons, if_neg hbrace, if_pos ⟨rfl, rfl⟩, if_neg hname, hc,
    if_neg Bool.false_ne_true]

/-- The name of a character stays as it is. -/
theorem doubleBraces_inName {name : Bytes} (hclose : ∀ b ∈ name, b ≠ Byte.closeBrace) (t : Bytes) :
    doubleBraces isRaw true (name ++ Byte.closeBrace :: t) =
      name ++ Byte.closeBrace :: doubleBraces isRaw false t := by
  induction name with
  | nil => rfl
  | cons b name ih =>
    obtain ⟨hb, hname⟩ := List.forall_mem_cons.mp hclose
    have hdecide : decide (b ≠ Byte.closeBrace) = true := decide_eq_true hb
    rw [List.cons_append, doubleBraces_true_cons, hdecide, ih hname, List.cons_append]

theorem head?_doubleBraces : (doubleBraces isRaw inName s).head? = s.head? := by
  fun_cases doubleBraces isRaw inName s <;> rfl

/-! ## Literal text -/

/-- Literal text has no braces to double, and ends where it did. -/
theorem exists_literal_doubleBraces (isRaw inName : Bool) (s : Bytes) :
    ∃ u, s = u ++ literalEnd isRaw inName s ∧
      doubleBraces isRaw inName s = u ++ doubleBraces isRaw false (literalEnd isRaw inName s) ∧
      literalEnd isRaw inName (doubleBraces isRaw inName s) =
        doubleBraces isRaw false (literalEnd isRaw inName s) := by
  -- Where the text ends there is a brace or nothing, so the doubled rest is no literal text either.
  have hself {s : Bytes} (hs : ∀ b ∈ s.head?, isBrace b) :
      literalEnd isRaw false (doubleBraces isRaw false s) = doubleBraces isRaw false s := by
    cases s with
    | nil => rfl
    | cons b s =>
      rw [doubleBraces_brace (hs b rfl)]
      exact literalEnd_brace (hs b rfl)
  fun_induction literalEnd isRaw inName s with
  | case1 inName =>
    refine ⟨[], rfl, by rw [doubleBraces_nil, doubleBraces_nil]; rfl, ?_⟩
    rw [doubleBraces_nil, doubleBraces_nil]
    cases inName <;> rfl
  | case2 b s ih =>
    obtain ⟨u, hs, hdouble, hend⟩ := ih
    refine ⟨b :: u, by rw [List.cons_append, ← hs], ?_, ?_⟩
    · rw [doubleBraces_true_cons, hdouble, List.cons_append]
    · rw [doubleBraces_true_cons, literalEnd, hend]
  | case3 b hb => exact ⟨[], rfl, rfl, hself fun c hc => Option.some.inj hc ▸ hb⟩
  | case4 b hb =>
    have hdouble : doubleBraces isRaw false [b] = [b] := if_neg hb
    refine ⟨[b], rfl, hdouble, ?_⟩
    rw [hdouble]
    exact if_neg hb
  | case5 b c s hb => exact ⟨[], rfl, rfl, hself fun c hc => Option.some.inj hc ▸ hb⟩
  -- The name of a character begins: its braces are left alone up to the closing one.
  | case6 b c s hb hback hname ih =>
    obtain ⟨rfl, hraw⟩ := hback
    obtain ⟨rfl, hhead⟩ := hname
    obtain rfl : isRaw = false := by simpa using hraw
    obtain ⟨u, hs, hdouble, hend⟩ := ih
    refine ⟨Byte.backslash :: ascii 'N' :: u, ?_, ?_, ?_⟩
    · rw [List.cons_append, List.cons_append, ← hs]
    · rw [doubleBraces_name hhead, hdouble]; rfl
    · rw [doubleBraces_name hhead, literalEnd_name (head?_doubleBraces.trans hhead), hend]
  -- A brace behind a backslash is doubled, and the text ends between the two.
  | case7 b c s hb hback hname hc =>
    obtain ⟨rfl, hraw⟩ := hback
    obtain rfl : isRaw = false := by simpa using hraw
    refine ⟨[Byte.backslash], rfl, doubleBraces_lone hc, ?_⟩
    rw [doubleBraces_lone hc, doubleBraces_brace hc, literalEnd_lone hc]
  | case8 b c s hb hback hname hc ih =>
    obtain ⟨rfl, hraw⟩ := hback
    obtain rfl : isRaw = false := by simpa using hraw
    have hc := Bool.eq_false_iff.mpr hc
    obtain ⟨u, hs, hdouble, hend⟩ := ih
    refine ⟨Byte.backslash :: c :: u, ?_, ?_, ?_⟩
    · rw [List.cons_append, List.cons_append, ← hs]
    · rw [doubleBraces_escaped hc hname, hdouble]; rfl
    · rw [doubleBraces_escaped hc hname, literalEnd_escaped hc, hend]
      rwa [head?_doubleBraces]
  | case9 b c s hb hback ih =>
    have hback : isRaw ∨ b ≠ Byte.backslash := by
      by_cases hraw : isRaw
      · exact .inl hraw
      · exact .inr fun h => hback ⟨h, by simpa using hraw⟩
    have hb := Bool.eq_false_iff.mpr hb
    obtain ⟨u, hs, hdouble, hend⟩ := ih
    refine ⟨b :: u, by rw [List.cons_append, ← hs], ?_, ?_⟩
    · rw [doubleBraces_ordinary hback hb, hdouble]; rfl
    · rw [doubleBraces_ordinary hback hb, literalEnd_ordinary hback hb, hend]

end FString

namespace Parse

/-! ## What a body without fields adds -/

/-- The pieces of a body add a text to every draft. -/
def AddsText (names : Unicode.CharacterNames) (isRaw : Bool) (s value : Bytes) : Prop :=
  ∀ (field : FieldReading) (token : Token) (base size limit : Nat) (draft : Draft) (c : Cursor),
    field.names = names → s.length < limit →
      addPieces field token base isRaw draft (FString.divideUpTo isRaw size limit false s).1 c =
        .ok (draft.append value) c ∧ (FString.divideUpTo isRaw size limit false s).2 = []

variable {names : Unicode.CharacterNames} {isRaw : Bool} {b : Byte} {s value : Bytes}

theorem AddsText.nil : AddsText names isRaw [] [] := by
  intro field token base size limit draft c hnames hlimit
  obtain ⟨limit, rfl⟩ := Nat.exists_eq_succ_of_ne_zero (Nat.ne_zero_of_lt hlimit)
  rw [FString.divideUpTo, Draft.append, List.append_nil]
  exact ⟨rfl, rfl⟩

/-- A brace that is written twice adds one. -/
theorem AddsText.brace (hb : FString.isBrace b) (h : AddsText names isRaw s value) :
    AddsText names isRaw (b :: b :: s) (b :: value) := by
  intro field token base size limit draft c hnames hlimit
  rw [List.length_cons] at hlimit
  obtain ⟨limit, rfl⟩ := Nat.exists_eq_succ_of_ne_zero (Nat.ne_zero_of_lt hlimit)
  have hlength : s.length < limit := by
    rw [List.length_cons] at hlimit
    omega
  obtain ⟨hadds, hrest⟩ := h field token base size limit (draft.append [b]) c hnames hlength
  rw [FString.divideUpTo_brace hb]
  refine ⟨?_, hrest⟩
  rw [addPieces, addPiece]
  refine hadds.trans ?_
  rw [Draft.append, Draft.append, Draft.append, List.append_assoc, List.singleton_append]

/-- Literal text adds what it denotes. -/
theorem addLiteral_of_valueOf (token : Token) (draft : Draft) (c : Cursor)
    (h : valueOf names isRaw s = .ok value) :
    addLiteral names token isRaw false draft s.unifyLineEnds c = .ok (draft.append value) c := by
  cases isRaw with
  | true =>
    cases h
    rfl
  | false =>
    have hvalue : unescape names false s.unifyLineEnds = .ok value := h
    rw [addLiteral, if_neg Bool.false_ne_true, hvalue]
    rfl

/-- Literal text up to a brace adds what it denotes. -/
theorem AddsText.literal {u rest behind : Bytes} (hb : FString.isBrace b = false)
    (hend : FString.literalEnd isRaw false (b :: u ++ rest) = rest)
    (hvalue : valueOf names isRaw (b :: u) = .ok value) (h : AddsText names isRaw rest behind) :
    AddsText names isRaw (b :: u ++ rest) (value ++ behind) := by
  intro field token base size limit draft c hnames hlimit
  obtain ⟨limit, rfl⟩ := Nat.exists_eq_succ_of_ne_zero (Nat.ne_zero_of_lt hlimit)
  have hlength : rest.length < limit := by
    simp only [List.length_append, List.length_cons] at hlimit
    omega
  obtain ⟨hadds, hrest⟩ := h field token base size limit (draft.append value) c hnames hlength
  rw [List.cons_append] at hend ⊢
  rw [FString.divideUpTo_literal hb, hend, ← List.cons_append, FString.upTo_left]
  refine ⟨?_, hrest⟩
  rw [addPieces, addPiece, hnames, bind_ok (addLiteral_of_valueOf token draft c hvalue), hadds]
  rw [Draft.append, Draft.append, Draft.append, List.append_assoc]

/-- A body with doubled braces adds what the body denotes. -/
theorem addsText_doubleBraces (h : valueOf names isRaw s = .ok value) :
    AddsText names isRaw (FString.doubleBraces isRaw false s) value := by
  -- The induction is on the length, for a chunk of literal text may take more than one byte.
  induction hlength : s.length using Nat.strong_induction_on generalizing s value with
  | _ n ih =>
    cases s with
    | nil =>
      rw [valueOf_nil] at h
      obtain rfl := Except.ok.inj h
      exact .nil
    | cons b s =>
      cases hb : FString.isBrace b with
      | true =>
        rw [valueOf_brace isRaw hb] at h
        obtain ⟨behind, hbehind, rfl⟩ := exists_of_map_eq_ok h
        rw [FString.doubleBraces_brace hb]
        exact .brace hb (ih s.length (hlength ▸ Nat.lt_succ_self _) hbehind rfl)
      | false =>
        have hlt : (FString.literalEnd isRaw false (b :: s)).length < (b :: s).length :=
          FString.length_literalEnd_lt hb
        obtain ⟨u, hu, hdouble, hend⟩ := FString.exists_literal_doubleBraces isRaw false (b :: s)
        rw [hdouble] at hend ⊢
        generalize hrest : FString.literalEnd isRaw false (b :: s) = rest at *
        rw [hu] at hrest h
        obtain ⟨front, behind, hfront, hbehind, rfl⟩ := exists_of_valueOf_append hrest h
        cases u with
        | nil => exact absurd (congrArg List.length hu) (Nat.ne_of_gt hlt)
        | cons c u =>
          obtain ⟨rfl, -⟩ := List.cons.inj hu
          exact .literal hb hend hfront (ih rest.length (hlength ▸ hlt) hbehind rfl)

end Parse

end SyntaxTree
