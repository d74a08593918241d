import SyntaxTree.Proofs.Ending.Expression
import SyntaxTree.Proofs.Token.Extent

/-
# The body of an f-string from index to index

The division of a body gives pieces and what is left behind them, and the index where that begins is
how far the body has been read.  A field and the parts of a body are thus read from one index of the
body to another, whatever stands in it: a quote, an escape or a conversion at its end leads out of
it nowhere.  The source of a field is read on its own.  It is shorter than the literal around it by
more than the parentheses it is read in, so that literals within literals come to an end.
-/

namespace SyntaxTree

namespace FString

variable {isRaw inSpec : Bool} {size limit limit' : Nat} {body s : Bytes}

/-! ## What follows pieces -/

/-- Nothing follows the pieces, or a closing brace. -/
theorem head?_divideUpTo (isRaw : Bool) (size limit : Nat) (inSpec : Bool) (s : Bytes) :
    ∀ b ∈ (divideUpTo isRaw size limit inSpec s).2.head?, b = Byte.closeBrace := by
  induction limit generalizing inSpec s with
  | zero => exact nofun
  | succ limit ih =>
    cases s with
    | nil => exact nofun
    | cons b s =>
      rcases step_cases inSpec b s with ⟨rfl, hsingle⟩ | ⟨rfl, hb, s, rfl⟩ | ⟨rfl, hsingle⟩ | hb
      · rw [divideUpTo_openBrace hsingle]
        generalize divideField isRaw size limit s = field
        obtain ⟨pieces, _ | rest⟩ := field
        · exact nofun
        · exact ih inSpec rest
      · rw [divideUpTo_brace hb]
        exact ih false s
      · rw [divideUpTo_closeBrace hsingle]
        rintro _ ⟨⟩
        rfl
      · rw [divideUpTo_literal hb]
        exact ih inSpec _

/-- A field that nothing follows has a fault. -/
theorem exists_fault_of_divideField (h : (divideField isRaw size limit s).2 = none) :
    ∃ cause offset, .fault cause offset ∈ (divideField isRaw size limit s).1 := by
  unfold divideField at h ⊢
  dsimp only at h ⊢
  cases hend : fieldEnd 0 none s with
  | nil => exact ⟨_, _, List.mem_singleton_self _⟩
  | cons stop tail =>
    rw [hend] at h
    dsimp only at h ⊢
    split
    · exact ⟨_, _, List.mem_singleton_self _⟩
    next hwhite =>
    rw [if_neg hwhite] at h
    cases hconversion : readConversion (echoEnd (stop :: tail)) with
    | none => exact ⟨_, _, List.mem_cons_of_mem _ (List.mem_singleton_self _)⟩
    | some found =>
      rw [hconversion] at h
      dsimp only at h ⊢
      generalize (if found.2.head? = some (ascii ':') then _ else _) = spec at h ⊢
      split
      · next hclose =>
        rw [if_pos hclose] at h
        cases h
      · exact ⟨_, _, List.mem_cons_of_mem _ (List.mem_singleton_self _)⟩

/-! ## Limits -/

/-- A field depends on the limit by its format specification only. -/
theorem divideField_congr
    (h : ∀ {rest : Bytes}, rest <:+ s →
      divideUpTo isRaw size limit true rest = divideUpTo isRaw size limit' true rest) :
    divideField isRaw size limit s = divideField isRaw size limit' s := by
  unfold divideField
  dsimp only
  cases hend : fieldEnd 0 none s with
  | nil => rfl
  | cons stop tail =>
    have hecho := (suffix_of_echoEnd (stop :: tail)).trans (hend ▸ suffix_of_fieldEnd 0 none s)
    dsimp only
    cases hconversion : readConversion (echoEnd (stop :: tail)) with
    | none => rfl
    | some found =>
      have hafter := (suffix_of_readConversion hconversion).trans hecho
      dsimp only
      rw [h ((List.tail_suffix found.2).trans hafter)]

/-- All limits above the number of bytes are the same. -/
theorem divideUpTo_eq_of_lt (isRaw inSpec : Bool) (h : s <:+ body) (hlimit : s.length < limit)
    (hlimit' : s.length < limit') :
    divideUpTo isRaw body.length limit inSpec s = divideUpTo isRaw body.length limit' inSpec s := by
  induction limit generalizing limit' inSpec s with
  | zero => exact absurd hlimit (Nat.not_lt_zero _)
  | succ limit ih =>
    obtain ⟨limit', rfl⟩ := Nat.exists_eq_succ_of_ne_zero (Nat.ne_zero_of_lt hlimit')
    cases s with
    | nil => rw [divideUpTo, divideUpTo]
    | cons b s =>
      have hs : s.length < limit := Nat.lt_of_succ_lt_succ hlimit
      have hs' : s.length < limit' := Nat.lt_of_succ_lt_succ hlimit'
      have hbody := (List.suffix_cons b s).trans h
      have hrest (inSpec : Bool) {rest : Bytes} (hrest : rest <:+ s) :=
        ih inSpec (hrest.trans hbody) (Nat.lt_of_le_of_lt hrest.length_le hs)
          (Nat.lt_of_le_of_lt hrest.length_le hs')
      rcases step_cases inSpec b s with ⟨rfl, hsingle⟩ | ⟨rfl, hb, s, rfl⟩ | ⟨rfl, hsingle⟩ | hb
      · have hclose := (standsIn_divideField h fun {rest} hrest =>
          standsIn_divideUpTo isRaw limit true (hrest.trans hbody)
            (Nat.lt_of_le_of_lt hrest.length_le hs)).2
        rw [divideUpTo_openBrace hsingle, divideUpTo_openBrace hsingle,
          ← divideField_congr (hrest true)]
        generalize divideField isRaw body.length limit s = field at hclose ⊢
        obtain ⟨pieces, _ | rest⟩ := field
        · rfl
        · dsimp only
          rw [hrest inSpec ((List.suffix_cons _ rest).trans (hclose rest rfl))]
      · rw [divideUpTo_brace hb, divideUpTo_brace hb, hrest false (List.suffix_cons b s)]
      · rw [divideUpTo_closeBrace hsingle, divideUpTo_closeBrace hsingle]
      · rw [divideUpTo_literal hb, divideUpTo_literal hb,
          hrest inSpec (suffix_of_literalEnd_cons isRaw hb s)]

/-- The field whose brace stands at an index of the body. -/
theorem standsIn_fieldAt (isRaw : Bool) {start : Nat} (h : body[start]? = some Byte.openBrace) :
    (∀ piece ∈ (divideField isRaw body.length (body.length + 1) (body.drop (start + 1))).1,
        piece.StandsIn body) ∧
      ∀ rest ∈ (divideField isRaw body.length (body.length + 1) (body.drop (start + 1))).2,
        Byte.closeBrace :: rest <:+ body.drop (start + 1) := by
  have hsuffix : Byte.openBrace :: body.drop (start + 1) <:+ body :=
    Bytes.drop_eq_cons h ▸ List.drop_suffix _ _
  refine standsIn_divideField hsuffix fun {rest} hrest => ?_
  have hbody : rest <:+ body := hrest.trans (List.drop_suffix _ _)
  exact standsIn_divideUpTo isRaw _ true hbody (Nat.lt_succ_of_le hbody.length_le)

end FString

namespace Parse

variable {field field' : FieldReading} {t : Token} {base start : Nat} {isRaw inSpec : Bool}
  {body : Bytes} {draft : Draft} {c c' : Cursor}

/-! ## Readings from an index -/

/-- Reads the field whose opening brace stands at an index of a body, and gives the index behind its
closing brace. -/
def replacementField (field : FieldReading) (t : Token) (base : Nat) (isRaw : Bool) (body : Bytes)
    (start : Nat) (draft : Draft) : Parse (Draft × Nat) := do
  let division := FString.divideField isRaw body.length (body.length + 1) (body.drop (start + 1))
  let draft ← addPieces field t base isRaw draft division.1
  return (draft, body.length - (division.2.getD []).length)

/-- Reads the parts of a body from an index on, and gives the index where they end: at the end of
the body, or at a closing brace that belongs to no field among them. -/
def parts (field : FieldReading) (t : Token) (base : Nat) (isRaw : Bool) (body : Bytes)
    (inSpec : Bool) (start : Nat) (draft : Draft) : Parse (Draft × Nat) := do
  let division := FString.divideUpTo isRaw body.length (body.length + 1) inSpec (body.drop start)
  let draft ← addPieces field t base isRaw draft division.1
  return (draft, body.length - division.2.length)

theorem addPieces_append (pieces more : List FString.Piece) (draft : Draft) :
    addPieces field t base isRaw draft (pieces ++ more) =
      addPieces field t base isRaw draft pieces >>= fun draft =>
        addPieces field t base isRaw draft more := by
  induction pieces generalizing draft with
  | nil => rfl
  | cons piece pieces ih =>
    rw [List.cons_append, addPieces, addPieces, bind_assoc]
    exact congrArg _ (funext ih)

/-- Pieces with a fault among them are not added. -/
theorem addPieces_ne_ok {pieces : List FString.Piece} {cause : FStringCause} {offset : Nat}
    (h : .fault cause offset ∈ pieces) {draft' : Draft} :
    addPieces field t base isRaw draft pieces c ≠ .ok draft' c' := by
  induction pieces generalizing draft c with
  | nil => cases h
  | cons piece pieces ih =>
    intro hrun
    rw [addPieces] at hrun
    obtain ⟨middle, c₁, hpiece, hrun⟩ := exists_of_bind_eq_ok hrun
    rcases List.mem_cons.mp h with rfl | h
    · rw [addPiece] at hpiece
      cases hpiece
    · exact ih h hrun

/-- The body of a literal is read from its beginning, and has to be read to its end. -/
theorem addToken_eq_parts {isBytes : Bool}
    (hbytes : (Literal.Parts.of t.text).isBytes = isBytes)
    (hformatted : (Literal.Parts.of t.text).isFormatted) :
    addToken field isBytes draft t = (do
      let literal := Literal.Parts.of t.text
      let (draft, stop) ←
        parts field t literal.offset literal.isRaw literal.body false 0 draft
      if stop = literal.body.length then return draft
      else failAt (.fstring .singleBrace) (t.placeAt (literal.offset + stop)) t.text) := by
  rw [addToken]
  dsimp only
  rw [if_neg (not_not.mpr hbytes), if_pos hformatted]
  generalize Literal.Parts.of t.text = literal
  have hsuffix := (FString.standsIn_divideUpTo literal.isRaw (literal.body.length + 1) false
    (List.suffix_refl literal.body) (Nat.lt_succ_self _)).2
  rw [parts, FString.divide, List.drop_zero]
  dsimp only
  generalize FString.divideUpTo _ _ _ _ _ = division at hsuffix ⊢
  rw [bind_assoc]
  by_cases hrest : division.2 = []
  · rw [if_pos hrest, hrest]
    simp only [pure_bind, List.length_nil, Nat.sub_zero, if_true, bind_pure]
  · have hlength := hsuffix.length_le
    have hpos := List.length_pos_iff.mpr hrest
    have hstop : literal.body.length - division.2.length ≠ literal.body.length := by omega
    rw [if_neg hrest, addPieces_append]
    simp only [pure_bind, if_neg hstop]
    rfl

/-- Parts that begin with a field are the field and the parts behind it. -/
theorem parts_openBrace (hstart : body[start]? = some Byte.openBrace)
    (h : inSpec ∨ body[start + 1]? ≠ some Byte.openBrace) :
    parts field t base isRaw body inSpec start draft =
      replacementField field t base isRaw body start draft >>= fun next =>
        parts field t base isRaw body inSpec next.2 next.1 := by
  have hdrop : body.drop start = Byte.openBrace :: body.drop (start + 1) :=
    Bytes.drop_eq_cons hstart
  have hbody : Byte.openBrace :: body.drop (start + 1) <:+ body := hdrop ▸ List.drop_suffix _ _
  have hlength := hbody.length_le
  rw [← List.head?_drop] at h
  unfold parts replacementField
  rw [hdrop]
  generalize body.drop (start + 1) = s at h hbody hlength ⊢
  rw [List.length_cons] at hlength
  have hsuffix {rest : Bytes} (hrest : rest <:+ s) : rest <:+ body :=
    hrest.trans ((List.suffix_cons _ s).trans hbody)
  have hlt {rest : Bytes} (hrest : rest <:+ s) : rest.length < body.length :=
    Nat.lt_of_le_of_lt hrest.length_le hlength
  have hlimit (inSpec : Bool) {rest : Bytes} (hrest : rest <:+ s) :=
    FString.divideUpTo_eq_of_lt isRaw inSpec (hsuffix hrest) (hlt hrest)
      (Nat.lt_succ_of_lt (hlt hrest))
  have hclose := (FString.standsIn_divideField hbody fun {rest} hrest =>
    FString.standsIn_divideUpTo isRaw _ true (hsuffix hrest) (hlt hrest)).2
  have hfault := @FString.exists_fault_of_divideField isRaw body.length body.length s
  rw [FString.divideUpTo_openBrace h, ← FString.divideField_congr (hlimit true)]
  generalize FString.divideField isRaw body.length body.length s = division at hclose hfault ⊢
  obtain ⟨pieces, _ | rest⟩ := division
  · -- nothing is read behind the fault
    obtain ⟨cause, offset, hmem⟩ := hfault rfl
    funext c
    cases hrun : addPieces field t base isRaw draft pieces c with
    | ok draft' c' => exact absurd hrun (addPieces_ne_ok hmem)
    | error e c' => simp only [bind, EStateM.bind, hrun]
  · have hrest := (List.suffix_cons _ rest).trans (hclose rest rfl)
    simp only [Option.getD_some, bind_assoc, pure_bind, Bytes.drop_length_sub (hsuffix hrest),
      ← hlimit inSpec hrest, addPieces_append]

/-! ## Where readings stop -/

/-- A reading has failed for a cause of the grammar, or it has stopped at an index that is
allowed. -/
def StopsAt (allowed : Nat → Prop) : EStateM.Result SyntaxError Cursor (Draft × Nat) → Prop
  | .ok (_, stop) _ => allowed stop
  | .error e _ => e.cause.isUnending = false

section Stops

variable {depth : Nat} (hfield : FieldEnds depth field) (hbody : body.length ≤ depth)
  (hends : c.final.kind = .endOfInput)

include hfield hbody hends

/-- Pieces of a body are added, or there is an error of the grammar.  They lead to an index that is
allowed if they can be added. -/
theorem addPieces_stopsAt {pieces : List FString.Piece} {stop : Nat} {allowed : Nat → Prop}
    (hpieces : ∀ piece ∈ pieces, piece.StandsIn body)
    (h : (∀ cause offset, .fault cause offset ∉ pieces) → allowed stop) :
    StopsAt allowed
      ((addPieces field t base isRaw draft pieces >>= fun draft => pure (draft, stop)) c) := by
  have hadds {n limit : Nat} : Ends n limit anywhere never
      (addPieces field t base isRaw draft pieces) :=
    addPieces_ends hfield hbody pieces draft hpieces
  have hsettles := hadds c (Cursor.within_longest hends) trivial
  cases hrun : addPieces field t base isRaw draft pieces c with
  | ok draft' c' =>
    rw [bind_ok hrun]
    exact h fun cause offset hmem => addPieces_ne_ok hmem hrun
  | error e c' =>
    rw [hrun] at hsettles
    simp only [bind, EStateM.bind, hrun]
    exact hsettles.2.1

/-- A field is read to the index behind its closing brace. -/
theorem replacementField_stopsAt (hstart : body[start]? = some Byte.openBrace) :
    StopsAt (fun stop => start < stop ∧ stop ≤ body.length ∧
        body[stop - 1]? = some Byte.closeBrace)
      (replacementField field t base isRaw body start draft c) := by
  obtain ⟨hpieces, hclose⟩ := FString.standsIn_fieldAt isRaw hstart
  have hfault := @FString.exists_fault_of_divideField isRaw body.length (body.length + 1)
    (body.drop (start + 1))
  unfold replacementField
  refine addPieces_stopsAt hfield hbody hends hpieces fun hfaultless => ?_
  cases hrest : (FString.divideField isRaw body.length (body.length + 1)
      (body.drop (start + 1))).2 with
  | none =>
    obtain ⟨cause, offset, hmem⟩ := hfault hrest
    exact absurd hmem (hfaultless cause offset)
  | some rest =>
    obtain ⟨hlt, hle, hlast⟩ := Bytes.lt_index_of_suffix (hclose rest hrest)
    exact ⟨Nat.lt_of_succ_lt hlt, hle, hlast⟩

/-- Parts are read to the end of the body or to a closing brace. -/
theorem parts_stopsAt (hstart : start ≤ body.length) :
    StopsAt (fun stop => start ≤ stop ∧ stop ≤ body.length ∧
        (stop = body.length ∨ body[stop]? = some Byte.closeBrace))
      (parts field t base isRaw body inSpec start draft c) := by
  have hdrop := List.drop_suffix start body
  obtain ⟨hpieces, hsuffix⟩ := FString.standsIn_divideUpTo isRaw (body.length + 1) inSpec hdrop
    (Nat.lt_succ_of_le hdrop.length_le)
  have hhead := FString.head?_divideUpTo isRaw body.length (body.length + 1) inSpec
    (body.drop start)
  unfold parts
  refine addPieces_stopsAt hfield hbody hends hpieces fun _ => ?_
  generalize (FString.divideUpTo _ _ _ _ _).2 = rest at hsuffix hhead ⊢
  have hlength := hsuffix.length_le
  rw [List.length_drop] at hlength
  refine ⟨by omega, Nat.sub_le _ _, ?_⟩
  cases rest with
  | nil => exact .inl (Nat.sub_zero _)
  | cons b rest =>
    obtain rfl := hhead b rfl
    rw [← List.head?_drop, Bytes.drop_length_sub (hsuffix.trans hdrop)]
    exact .inr rfl

end Stops

/-! ## What is read on its own -/

/-- Two readings of fields agree on the names of characters, and on the sources that are no longer
than `size` in parentheses. -/
structure AgreeUpTo (size : Nat) (field field' : FieldReading) : Prop where
  names : field.names = field'.names
  read : ∀ source place, (text "(" ++ source ++ text ")").length ≤ size →
    field.read source place = field'.read source place

mutual

/-- A piece of a body depends on how texts are read that are no longer than the body. -/
theorem addPiece_congr (h : AgreeUpTo body.length field field') :
    ∀ (piece : FString.Piece) (draft : Draft), piece.StandsIn body →
      addPiece field t base isRaw draft piece = addPiece field' t base isRaw draft piece
  | .literal s, draft, _ => by rw [addPiece, addPiece, h.names]
  | .brace b, draft, _ => by rw [addPiece, addPiece]
  | .fault cause offset, draft, _ => by rw [addPiece, addPiece]
  | .field offset source echo conversion spec, draft, hpiece => by
    cases hpiece with
    | field hsource hstop hspec =>
    have hlength := FString.length_source_add_two_le hsource
    have hparens : (text "(" ++ source ++ text ")").length ≤ body.length := by
      rw [List.length_append, List.length_append]
      show 1 + source.length + 1 ≤ body.length
      omega
    have hfield (place : Position) : field.read source place = field'.read source place :=
      h.read source place hparens
    rw [addPiece, addPiece, hfield, readSpec_congr h spec hspec]

theorem addPieces_congr (h : AgreeUpTo body.length field field') :
    ∀ (pieces : List FString.Piece) (draft : Draft), (∀ piece ∈ pieces, piece.StandsIn body) →
      addPieces field t base isRaw draft pieces = addPieces field' t base isRaw draft pieces
  | [], draft, _ => by rw [addPieces, addPieces]
  | piece :: rest, draft, hpieces => by
    obtain ⟨hpiece, hrest⟩ := List.forall_mem_cons.mp hpieces
    rw [addPieces, addPieces, addPiece_congr h piece draft hpiece]
    exact congrArg _ (funext fun middle => addPieces_congr h rest middle hrest)

theorem readSpec_congr (h : AgreeUpTo body.length field field') :
    ∀ spec : Option (List FString.Piece),
      (∀ pieces ∈ spec, ∀ piece ∈ pieces, piece.StandsIn body) →
        readSpec field t base isRaw spec = readSpec field' t base isRaw spec
  | none, _ => by rw [readSpec, readSpec]
  | some pieces, hpieces => by
    rw [readSpec, readSpec, addPieces_congr h pieces .empty (hpieces pieces rfl)]

end

/-- A field depends on how texts are read that are no longer than the body. -/
theorem replacementField_congr (h : AgreeUpTo body.length field field')
    (hstart : body[start]? = some Byte.openBrace) :
    replacementField field t base isRaw body start draft =
      replacementField field' t base isRaw body start draft := by
  unfold replacementField
  dsimp only
  rw [addPieces_congr h _ draft (FString.standsIn_fieldAt isRaw hstart).1]

theorem parts_congr (h : AgreeUpTo body.length field field') :
    parts field t base isRaw body inSpec start draft =
      parts field' t base isRaw body inSpec start draft := by
  have hdrop := List.drop_suffix start body
  have hpieces := (FString.standsIn_divideUpTo isRaw (body.length + 1) inSpec hdrop
    (Nat.lt_succ_of_le hdrop.length_le)).1
  unfold parts
  dsimp only
  rw [addPieces_congr h _ draft hpieces]

end Parse

/-- A formatted literal has a letter and a quote in front of its body, and a quote behind it. -/
theorem Literal.Parts.length_body_add_three_le {s : Bytes} (h : (Parts.of s).isFormatted)
    (hbody : (Parts.of s).body ≠ []) : (Parts.of s).body.length + 3 ≤ s.length := by
  have hletters : 1 ≤ (s.takeWhile (!·.isQuote)).length := by
    refine List.length_pos_iff.mpr fun hnil => ?_
    simp only [Parts.of, hnil, decide_eq_true_eq] at h
    cases h
  have hsplit := congrArg List.length (List.takeWhile_append_dropWhile (p := (!·.isQuote)) (l := s))
  have hcount := one_le_quoteCount (s.dropWhile (!·.isQuote))
  have hpos := List.length_pos_iff.mpr hbody
  rw [List.length_append] at hsplit
  simp only [Parts.of, List.length_take, List.length_drop] at hpos ⊢
  omega

/-! ## All bodies -/

open Parse in
/-- Every body is read forward and to no index outside of it.  A field is read to the index behind
its closing brace, and parts to the end of the body or to a closing brace, or there is an error of
the grammar.  What they make of fields depends on how texts are read that are no longer than the
body, in their parentheses, and the body of a literal with fields is shorter than the literal by
three bytes if there is one. -/
theorem fields_stop_in_body {names : Unicode.CharacterNames} {depth : Nat} {body : Bytes}
    (hbody : body.length ≤ depth) (t : Token) (base : Nat) (isRaw : Bool) (draft : Draft)
    {c : Cursor} (hends : c.final.kind = .endOfInput) :
    (∀ start, body[start]? = some Byte.openBrace →
        StopsAt
          (fun stop => start < stop ∧ stop ≤ body.length ∧ body[stop - 1]? = some Byte.closeBrace)
          (replacementField (fieldUpTo names depth) t base isRaw body start draft c)) ∧
      (∀ inSpec start, start ≤ body.length →
        StopsAt
          (fun stop => start ≤ stop ∧ stop ≤ body.length ∧
            (stop = body.length ∨ body[stop]? = some Byte.closeBrace))
          (parts (fieldUpTo names depth) t base isRaw body inSpec start draft c)) ∧
      (∀ field field', AgreeUpTo body.length field field' →
        (∀ start, body[start]? = some Byte.openBrace →
          replacementField field t base isRaw body start draft =
            replacementField field' t base isRaw body start draft) ∧
        ∀ inSpec start, parts field t base isRaw body inSpec start draft =
          parts field' t base isRaw body inSpec start draft) ∧
      ∀ s, (Literal.Parts.of s).isFormatted → (Literal.Parts.of s).body ≠ [] →
        (Literal.Parts.of s).body.length + 3 ≤ s.length := by
  have hfield : FieldEnds depth (fieldUpTo names depth) := fieldEnds_fieldUpTo depth
  refine ⟨fun start hstart => ?_, fun inSpec start hstart => ?_, fun field field' h => ⟨?_, ?_⟩,
    fun s => Literal.Parts.length_body_add_three_le⟩
  · exact replacementField_stopsAt hfield hbody hends hstart
  · exact parts_stopsAt hfield hbody hends hstart
  · exact fun start hstart => replacementField_congr h hstart
  · exact fun inSpec start => parts_congr h

open Parse Unicode.NameTable in
/-- A field whose format specification has a field of its own. -/
theorem fields_stop_in_body_nested :
    (text "\x7bx!r:\x7bw\x7d\x7d").length ≤ 9 ∧
      (text "\x7bx!r:\x7bw\x7d\x7d")[0]? = some Byte.openBrace ∧
      ((replacementField (fieldUpTo tableNames 9)
        (.empty .string (text "f'\x7bx!r:\x7bw\x7d\x7d'") .origin) 2 false
        (text "\x7bx!r:\x7bw\x7d\x7d") 0 .empty).run' (.ofTokens [] [])).map Prod.snd = some 9 ∧
      StopsAt
        (fun stop => 0 < stop ∧ stop ≤ (text "\x7bx!r:\x7bw\x7d\x7d").length ∧
          (text "\x7bx!r:\x7bw\x7d\x7d")[stop - 1]? = some Byte.closeBrace)
        (replacementField (fieldUpTo tableNames 9)
          (.empty .string (text "f'\x7bx!r:\x7bw\x7d\x7d'") .origin) 2 false
          (text "\x7bx!r:\x7bw\x7d\x7d") 0 .empty (.ofTokens [] [])) := by
  have hbody : (text "\x7bx!r:\x7bw\x7d\x7d").length ≤ 9 := by decide +kernel
  have hstart : (text "\x7bx!r:\x7bw\x7d\x7d")[0]? = some Byte.openBrace := by decide +kernel
  refine ⟨hbody, hstart, by decide +kernel, ?_⟩
  -- The texts are left open here: comparing two readings of them would evaluate them.
  generalize Token.empty .string (text "f'\x7bx!r:\x7bw\x7d\x7d'") .origin = t
  generalize text "\x7bx!r:\x7bw\x7d\x7d" = body at hbody hstart ⊢
  exact (fields_stop_in_body hbody t 2 false .empty (Cursor.final_ofTokens [] [])).1 0 hstart

end SyntaxTree
