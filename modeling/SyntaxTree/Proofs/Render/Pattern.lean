import SyntaxTree.Proofs.Grammar.Match
import SyntaxTree.Proofs.Render.Items
import SyntaxTree.Proofs.Render.Quoted
import SyntaxTree.Proofs.Render.Tree
import SyntaxTree.Render.Pattern

/-
# Written patterns

The text of a pattern reads as the pattern on its own, in front of a name and as one of several
alternatives, however its parts are nested: parentheses stand around named patterns and alternatives
exactly where the grammar needs them, and sequences are always written in brackets.
-/

namespace SyntaxTree

open Parse

/-! ## Dotted names -/

/-- Names and attributes of them. -/
inductive Expr.IsDotted : Expr → Prop where
  | name (span : Span) {id : Bytes} (hid : IsName id) : IsDotted (.node span (.name id .load))
  | «attribute» (span : Span) {value : Expr} {name : Bytes} (h : value.IsDotted)
    (hname : IsName name) : IsDotted (.node span (.attribute value name .load))

/-- A dotted name is written for what it is. -/
theorem Expr.IsDotted.spells {e : Expr} (h : e.IsDotted) (quote : Byte) {p : Precedence} :
    ∃ ws, Spells true (e.write quote p) ws ∧ ReadsDotted ws e.bare := by
  have hatom : ∀ {q : Precedence}, q ≤ .atom := fun {q} => by cases q <;> decide
  induction h generalizing p with
  | name span hid =>
    rw [write_of_le hatom]
    exact ⟨_, .name hid, .name (w := ⟨.identifier, _⟩) rfl⟩
  | @«attribute» span value name h hname ih =>
    obtain ⟨ws, hspells, hreads⟩ := ih (p := .atom)
    have hinteger : value.isInteger = false := by cases h <;> rfl
    rw [write_of_le hatom, Shape.write, hinteger]
    exact ⟨_, hspells.attribute hname, .attribute hreads rfl rfl⟩

/-! ## Literals -/

/-- Integers, their negatives, strings of code points, and bytes. -/
inductive Expr.IsPatternLiteral : Expr → Prop where
  | integer (span : Span) {digits : Bytes} (h : Number.IsCanonical digits) :
    IsPatternLiteral (.node span (.constant (.integer digits)))
  | negative (span inner : Span) {digits : Bytes} (h : Number.IsCanonical digits) :
    IsPatternLiteral (.node span (.unary .minus (.node inner (.constant (.integer digits)))))
  | string (span : Span) {codes : List Nat} (h : ∀ code ∈ codes, code ≤ 0x10FFFF) :
    IsPatternLiteral (.node span (.constant (.string (Utf8.encodeAll codes))))
  | bytes (span : Span) (s : Bytes) : IsPatternLiteral (.node span (.constant (.bytes s)))

section Quoted

variable {quote : Byte} {body value : Bytes}

/-- What can stand behind an operand is no quote. -/
theorem Byte.ne_of_endsOperand {dotted : Bool} {b : Byte} (h : b.endsOperand dotted)
    (hquote : quote.isQuote) : b ≠ quote := by
  rcases Byte.isQuote_iff.mp hquote with rfl | rfl <;>
    exact ne_of_class h (by cases dotted <;> rfl)

/-- A string literal. -/
theorem Spells.quoted (hquote : quote.isQuote) (hbody : IsEscaped (Byte.isText quote) body) :
    Spells true (quote :: (body ++ [quote])) [⟨.string, quote :: (body ++ [quote])⟩] where
  begins := ⟨quote, _, rfl, by rcases Byte.isQuote_iff.mp hquote with rfl | rfl <;> rfl⟩
  divides := fun _ hrest =>
    .quoted hquote hbody fun b hb => Byte.ne_of_endsOperand (hrest b hb) hquote

/-- A bytes literal. -/
theorem Spells.quotedBytes (hquote : quote.isQuote)
    (hbody : IsEscaped (Byte.isRawText quote) body) :
    Spells true (ascii 'b' :: quote :: (body ++ [quote]))
      [⟨.bytes, ascii 'b' :: quote :: (body ++ [quote])⟩] where
  begins := ⟨ascii 'b', _, rfl, rfl⟩
  divides := fun _ hrest =>
    .quotedBytes hquote hbody fun b hb => Byte.ne_of_endsOperand (hrest b hb) hquote

end Quoted

/-- A literal is written for what it is. -/
theorem Expr.IsPatternLiteral.spells {e : Expr} (h : e.IsPatternLiteral) {quote : Byte}
    (hquote : quote.isQuote) :
    ∃ ws, Spells false (e.write quote .bitOr) ws ∧ ReadsLiteral ws e.bare ∧
      ∀ w ∈ ws.head?, w.kind ≠ .noneWord ∧ w.kind ≠ .boolean := by
  have hnumber : ∀ {digits : Bytes}, Number.IsCanonical digits →
      Literal.number (.empty .integer digits .origin) = .integer digits :=
    fun h => congrArg Constant.integer h.integerNumeral
  cases h with
  | @integer span digits h =>
    have hliteral := ReadsLiteral.integer (t := .empty .integer digits .origin) rfl
    rw [hnumber h] at hliteral
    exact ⟨_, .integer h, hliteral, by rintro _ ⟨⟩; exact ⟨nofun, nofun⟩⟩
  | @negative span inner digits h =>
    have hliteral : ReadsLiteral [⟨.minus, text "-"⟩, ⟨.integer, digits⟩] _ :=
      .negative (t := .empty .integer digits .origin) rfl rfl
    rw [hnumber h] at hliteral
    have hminus : Opening (text "-") [⟨.minus, text "-"⟩] :=
      .operator (by decide) ⟨_, _, rfl, rfl⟩
    exact ⟨_, (Spells.integer h).opened hminus, hliteral, by rintro _ ⟨⟩; exact ⟨nofun, nofun⟩⟩
  | @string span codes h =>
    have hchosen := isQuote_chooseQuote hquote (Utf8.encodeAll codes)
    have hbody := encodes_escape hchosen h
    exact ⟨_, (Spells.quoted hchosen hbody.escaped).undotted,
      .text (.inl rfl) fun _ _ _ _ hc hf => strings_quoted hc hf hchosen hbody,
      by rintro _ ⟨⟩; exact ⟨nofun, nofun⟩⟩
  | bytes span s =>
    have hchosen := isQuote_chooseQuote hquote s
    have hbody := encodes_raw hchosen s
    exact ⟨_, (Spells.quotedBytes hchosen hbody.escaped).undotted,
      .text (.inr rfl) fun _ _ _ _ hc hf => strings_quotedBytes hc hf hchosen hbody,
      by rintro _ ⟨⟩; exact ⟨nofun, nofun⟩⟩

/-! ## Keys -/

/-- The keys of mappings: literals, singletons and dotted names. -/
inductive Expr.IsPatternKey : Expr → Prop where
  | literal {e : Expr} (h : e.IsPatternLiteral) : IsPatternKey e
  | singleton (span : Span) (value : Singleton) :
    IsPatternKey (.node span (.constant value.constant))
  | dotted (span : Span) {value : Expr} {name : Bytes} (h : value.IsDotted) (hname : IsName name) :
    IsPatternKey (.node span (.attribute value name .load))

/-- A singleton is a keyword. -/
theorem Singleton.isWord (value : Singleton) (quote : Byte) :
    IsWord (value.constant.write quote) := by
  rcases value with _ | _ | _ <;> exact ⟨_, _, rfl, rfl, rfl⟩

/-- A key is written for what it is. -/
theorem Expr.IsPatternKey.spells {e : Expr} (h : e.IsPatternKey) {quote : Byte}
    (hquote : quote.isQuote) :
    ∃ ws, Spells false (e.write quote .bitOr) ws ∧ ReadsKey ws e.bare := by
  cases h with
  | literal h =>
    obtain ⟨ws, hspells, hreads, -⟩ := h.spells hquote
    exact ⟨ws, hspells, .inl hreads⟩
  | singleton span value =>
    refine ⟨_, (Spells.word (value.isWord quote)).undotted, .inl ?_⟩
    rcases value with _ | _ | _
    · exact ReadsLiteral.none rfl
    · exact ReadsLiteral.boolean (w := ⟨.boolean, text "False"⟩) rfl
    · exact ReadsLiteral.boolean (w := ⟨.boolean, text "True"⟩) rfl
  | @dotted span value name h hname =>
    have hdotted : Expr.IsDotted (.node span (.attribute value name .load)) :=
      .attribute span h hname
    obtain ⟨ws, hspells, hreads⟩ := hdotted.spells quote (p := .bitOr)
    exact ⟨ws, hspells.undotted, .inr ⟨hreads, hreads.tail_ne_nil⟩⟩

/-! ## Patterns -/

/-- Patterns of literals, singletons, dotted names, sequences, mappings, classes, names and
alternatives.  A star stands only directly in a sequence, and only the wildcard and the rest of a
mapping are spelled with an underscore alone. -/
inductive Pattern.IsPlain : Pattern → Prop where
  | literal (span : Span) {e : Expr} (h : e.IsPatternLiteral) : IsPlain (.node span (.value e))
  | dotted (span inner : Span) {value : Expr} {name : Bytes} (h : value.IsDotted)
    (hname : IsName name) :
    IsPlain (.node span (.value (.node inner (.attribute value name .load))))
  | singleton (span : Span) (value : Singleton) : IsPlain (.node span (.singleton value))
  | sequence (span : Span) {patterns : List Pattern}
    (hstars : ∀ span name, .node span (.star (some name)) ∈ patterns →
      IsName name ∧ name ≠ text "_")
    (h : ∀ p ∈ patterns, p.isStar = false → p.IsPlain) :
    IsPlain (.node span (.sequence patterns))
  | mapping (span : Span) {entries : List (Expr × Pattern)} {rest : Option Bytes}
    (hkeys : ∀ x ∈ entries, x.1.IsPatternKey) (h : ∀ x ∈ entries, x.2.IsPlain)
    (hrest : ∀ name ∈ rest, IsName name) : IsPlain (.node span (.mapping entries rest))
  | record (span : Span) {callee : Expr} {patterns : List Pattern}
    {attributes : List (Bytes × Pattern)} (hcallee : callee.IsDotted)
    (h : ∀ p ∈ patterns, p.IsPlain) (hnames : ∀ x ∈ attributes, IsName x.1)
    (hattributes : ∀ x ∈ attributes, x.2.IsPlain) :
    IsPlain (.node span (.record callee patterns attributes))
  | wildcard (span : Span) : IsPlain (.node span (.as none none))
  | capture (span : Span) {name : Bytes} (hname : IsName name) (hne : name ≠ text "_") :
    IsPlain (.node span (.as none (some name)))
  | as (span : Span) {pattern : Pattern} {name : Bytes} (h : pattern.IsPlain)
    (hname : IsName name) (hne : name ≠ text "_") :
    IsPlain (.node span (.as (some pattern) (some name)))
  | or (span : Span) {patterns : List Pattern} (hlength : 2 ≤ patterns.length)
    (h : ∀ p ∈ patterns, p.IsPlain) : IsPlain (.node span (.or patterns))

/-- A pattern whose text reads as it at every place. -/
structure Pattern.Written (quote : Byte) (p : Pattern) : Prop where
  /-- As one of several alternatives. -/
  inside : ∃ ws, Spells false (p.write quote true) ws ∧ ReadsPattern .closed ws p.bare
  /-- In front of a name. -/
  renamed : ∃ ws, Spells false (p.write quote p.isAs) ws ∧ ReadsPattern .alternatives ws p.bare
  /-- On its own. -/
  alone : ∃ ws, Spells false (p.write quote false) ws ∧ ReadsPattern .whole ws p.bare

namespace Pattern.Written

variable {quote : Byte} {span : Span}

/-- A pattern that is written alike at every place. -/
theorem of_closed {p : Pattern} {s : Bytes} {ws : List Word} {dotted : Bool}
    (hwrite : ∀ nested, p.write quote nested = s) (hspells : Spells dotted s ws)
    (hreads : ReadsPattern .closed ws p.bare) : p.Written quote where
  inside := ⟨ws, hwrite true ▸ hspells.undotted, hreads⟩
  renamed := ⟨ws, hwrite p.isAs ▸ hspells.undotted, hreads.alternatives⟩
  alone := ⟨ws, hwrite false ▸ hspells.undotted, hreads.alternatives.whole⟩

theorem literal {e : Expr} (h : e.IsPatternLiteral) (hquote : quote.isQuote) :
    Written quote (.node span (.value e)) := by
  obtain ⟨ws, hspells, hreads, hvalue⟩ := h.spells hquote
  exact of_closed (fun _ => by rfl) hspells (.literal hreads hvalue)

theorem dotted {inner : Span} {value : Expr} {name : Bytes} (h : value.IsDotted)
    (hname : IsName name) :
    Written quote (.node span (.value (.node inner (.attribute value name .load)))) := by
  have hdotted : Expr.IsDotted (.node inner (.attribute value name .load)) :=
    .attribute inner h hname
  obtain ⟨ws, hspells, hreads⟩ := hdotted.spells quote (p := .bitOr)
  exact of_closed (fun _ => by rfl) hspells (.dotted hreads hreads.tail_ne_nil)

theorem singleton (value : Singleton) : Written quote (.node span (.singleton value)) := by
  refine of_closed (fun _ => by rfl) (.word (value.isWord quote)) ?_
  rcases value with _ | _ | _
  · exact ReadsPattern.none rfl
  · exact ReadsPattern.boolean (w := ⟨.boolean, text "False"⟩) rfl
  · exact ReadsPattern.boolean (w := ⟨.boolean, text "True"⟩) rfl

/-- The word that a pattern binds. -/
theorem bindingText_spec {name : Option Bytes} (h : ∀ n ∈ name, IsName n ∧ n ≠ text "_") :
    IsName (bindingText name) ∧ boundName (bindingText name) = name := by
  cases name with
  | none => exact ⟨⟨⟨_, _, rfl, rfl, rfl⟩, by decide⟩, if_pos rfl⟩
  | some name =>
    obtain ⟨hname, hne⟩ := h name rfl
    exact ⟨hname, if_neg hne⟩

theorem capture {name : Option Bytes} (h : ∀ n ∈ name, IsName n ∧ n ≠ text "_") :
    Written quote (.node span (.as none name)) := by
  obtain ⟨hname, hbound⟩ := bindingText_spec h
  have hreads := ReadsPattern.capture (w := ⟨.identifier, bindingText name⟩) rfl
  rw [hbound] at hreads
  exact of_closed (fun _ => by rfl) (.name hname) hreads

/-! ### Lists of patterns -/

end Pattern.Written

/-- What is there for each item is there for all of them. -/
theorem exists_forall₂ {α β : Type} {related : α → β → Prop} {property : β → Prop} {as : List α}
    (h : ∀ a ∈ as, ∃ b, related a b ∧ property b) :
    ∃ bs, List.Forall₂ related as bs ∧ ∀ b ∈ bs, property b := by
  induction as with
  | nil => exact ⟨[], .nil, List.forall_mem_nil _⟩
  | cons a as ih =>
    obtain ⟨ha, has⟩ := List.forall_mem_cons.mp h
    obtain ⟨b, hab, hb⟩ := ha
    obtain ⟨bs, hbs, hproperty⟩ := ih has
    exact ⟨b :: bs, .cons hab hbs, List.forall_mem_cons.mpr ⟨hb, hproperty⟩⟩

/-- Items and pieces that are spelled alike one by one are so as lists. -/
theorem SpellsItem.forall₂ {α β : Type} {write : α → Bytes} {words : β → List Word} {as : List α}
    {bs : List β} {related : α → β → Prop} (h : List.Forall₂ related as bs)
    (hspells : ∀ a b, related a b → SpellsItem (write a) (words b)) :
    List.Forall₂ SpellsItem (as.map write) (bs.map words) :=
  List.forall₂_map_left_iff.mpr (List.forall₂_map_right_iff.mpr (h.imp hspells))

namespace Pattern

theorem writeAll_eq_map (quote : Byte) (nested : Bool) (ps : List Pattern) :
    writeAll quote nested ps = ps.map (·.write quote nested) := by
  induction ps with
  | nil => rfl
  | cons p ps ih => rw [writeAll, ih, List.map_cons]

theorem writeEntries_eq_map (quote : Byte) (xs : List (Expr × Pattern)) :
    writeEntries quote xs =
      xs.map fun x => x.1.write quote .bitOr ++ text ": " ++ x.2.write quote false := by
  induction xs with
  | nil => rfl
  | cons x xs ih => rw [writeEntries, ih, List.map_cons]

theorem writeAttributes_eq_map (quote : Byte) (xs : List (Bytes × Pattern)) :
    writeAttributes quote xs = xs.map fun x => x.1 ++ text "=" ++ x.2.write quote false := by
  induction xs with
  | nil => rfl
  | cons x xs ih => rw [writeAttributes, ih, List.map_cons]

/-- Attributes that have the given patterns apart from positions. -/
theorem bareAttributes_eq {ι : Type} {xs : List (Bytes × Pattern)} {pieces : List ι}
    {value : ι → Bytes × Pattern}
    (h : List.Forall₂ (fun x i => (x.1, x.2.bare) = value i) xs pieces) :
    bareAttributes xs = pieces.map value := by
  induction h with
  | nil => rfl
  | cons hx _ ih => rw [bareAttributes, hx, ih, List.map_cons]

/-- Entries that have the given keys and patterns apart from positions. -/
theorem bareEntries_eq {ι : Type} {xs : List (Expr × Pattern)} {pieces : List ι}
    {value : ι → Expr × Pattern}
    (h : List.Forall₂ (fun x i => (x.1.bare, x.2.bare) = value i) xs pieces) :
    bareEntries xs = pieces.map value := by
  induction h with
  | nil => rfl
  | cons hx _ ih => rw [bareEntries, hx, ih, List.map_cons]

end Pattern

namespace Pattern.Written

variable {quote : Byte} {span : Span}

/-- The piece of a pattern within a sequence, a mapping or a class. -/
theorem exists_piece {p : Pattern} (h : p.Written quote) :
    ∃ x : PatternPiece, (SpellsItem (p.write quote false) x.1 ∧ p.bare = x.2) ∧
      ReadsPattern .whole x.1 x.2 := by
  obtain ⟨ws, hspells, hreads⟩ := h.alone
  exact ⟨(ws, p.bare), ⟨hspells.item, rfl⟩, hreads⟩

/-- The piece of a star within a sequence. -/
theorem exists_star {name : Option Bytes} (h : ∀ n ∈ name, IsName n ∧ n ≠ text "_") :
    ∃ x : PatternPiece, (SpellsItem (Pattern.write quote false (.node span (.star name))) x.1 ∧
      Pattern.bare (.node span (.star name)) = x.2) ∧ ReadsElement x := by
  obtain ⟨hname, hbound⟩ := bindingText_spec h
  refine ⟨([⟨.star, text "*"⟩, ⟨.identifier, bindingText name⟩], .new (.star name)), ⟨?_, rfl⟩,
    .inr ⟨⟨.star, text "*"⟩, ⟨.identifier, bindingText name⟩, rfl, rfl, by rw [hbound]⟩⟩
  rw [write]
  exact Mark.star.front (.name hname)

theorem sequence {patterns : List Pattern}
    (hstars : ∀ span name, .node span (.star (some name)) ∈ patterns →
      IsName name ∧ name ≠ text "_")
    (h : ∀ p ∈ patterns, p.isStar = false → p.Written quote) :
    Written quote (.node span (.sequence patterns)) := by
  have hpieces : ∀ p ∈ patterns, ∃ x : PatternPiece,
      (SpellsItem (p.write quote false) x.1 ∧ p.bare = x.2) ∧ ReadsElement x := by
    intro p hp
    cases hstar : p.isStar with
    | false =>
      obtain ⟨x, hx, hreads⟩ := (h p hp hstar).exists_piece
      exact ⟨x, hx, .inl hreads⟩
    | true =>
      obtain ⟨span, shape⟩ := p
      cases shape with
      | star name => exact exists_star fun n hn => hstars span n (by rw [← hn]; exact hp)
      | _ => exact nomatch hstar
  obtain ⟨pieces, hpieces, hreads⟩ := exists_forall₂ hpieces
  have hbare := bareAll_eq (hpieces.imp fun _ _ h => h.2)
  refine of_closed (fun _ => by rw [write, writeAll_eq_map])
    (OpeningBracket.bracket.enclosed .closeBracket (SpellsItem.forall₂ hpieces fun _ _ h => h.1)) ?_
  rw [bare, Shape.bare, hbare]
  exact .sequence rfl rfl hreads

theorem record {callee : Expr} {patterns : List Pattern} {attributes : List (Bytes × Pattern)}
    (hcallee : callee.IsDotted) (h : ∀ p ∈ patterns, p.Written quote)
    (hnames : ∀ x ∈ attributes, IsName x.1) (hattributes : ∀ x ∈ attributes, x.2.Written quote) :
    Written quote (.node span (.record callee patterns attributes)) := by
  obtain ⟨ws, hspells, hdotted⟩ := hcallee.spells quote (p := .atom)
  obtain ⟨xs, hxs, hxsReads⟩ := exists_forall₂ fun p hp => (h p hp).exists_piece
  have hkeywords : ∀ x ∈ attributes, ∃ y : Bytes × PatternPiece,
      (SpellsItem (x.1 ++ text "=" ++ x.2.write quote false) (RecordPiece.keyword y).words ∧
        (x.1, x.2.bare) = (y.1, y.2.2)) ∧ (RecordPiece.keyword y).Reads := by
    intro x hx
    obtain ⟨ws, hspells, hreads⟩ := (hattributes x hx).alone
    refine ⟨(x.1, ws, x.2.bare), ⟨.keyword (hnames x hx).isIdentifier hspells, rfl⟩, ?_, hreads⟩
    rintro _ ⟨⟩
    rfl
  obtain ⟨ys, hys, hysReads⟩ := exists_forall₂ hkeywords
  have hitems : List.Forall₂ SpellsItem
      (writeAll quote false patterns ++ writeAttributes quote attributes)
      ((xs.map RecordPiece.plain ++ ys.map RecordPiece.keyword).map RecordPiece.words) := by
    rw [writeAll_eq_map, writeAttributes_eq_map, List.map_append, List.map_map, List.map_map]
    exact List.rel_append (SpellsItem.forall₂ hxs fun _ _ h => h.1)
      (SpellsItem.forall₂ hys fun _ _ h => h.1)
  refine of_closed (fun _ => by rfl) (hspells.callOf hitems) ?_
  rw [bare, Shape.bare, bareAll_eq (hxs.imp fun _ _ h => h.2),
    bareAttributes_eq (hys.imp fun _ _ h => h.2)]
  refine .record hdotted rfl rfl (List.forall_mem_append.mpr ⟨?_, ?_⟩)
    (RecordPiece.foldlM_add xs ys)
  · exact List.forall_mem_map.mpr fun x hx => ⟨nofun, hxsReads x hx⟩
  · exact List.forall_mem_map.mpr hysReads

theorem mapping {entries : List (Expr × Pattern)} {rest : Option Bytes}
    (hkeys : ∀ x ∈ entries, x.1.IsPatternKey) (h : ∀ x ∈ entries, x.2.Written quote)
    (hrest : ∀ name ∈ rest, IsName name) (hquote : quote.isQuote) :
    Written quote (.node span (.mapping entries rest)) := by
  have hpieces : ∀ x ∈ entries, ∃ y : EntryPiece,
      (SpellsItem (x.1.write quote .bitOr ++ text ": " ++ x.2.write quote false) y.words ∧
        (x.1.bare, x.2.bare) = y.value) ∧ y.Reads := by
    intro x hx
    obtain ⟨ws, hkey, hreads⟩ := (hkeys x hx).spells hquote
    obtain ⟨ws', hpattern, hreads'⟩ := (h x hx).alone
    exact ⟨⟨ws, x.1.bare, ws', x.2.bare⟩,
      ⟨(hkey.separated Spaced.colon.separates hpattern).item, rfl⟩, hreads, hreads'⟩
  obtain ⟨pieces, hpieces, hreads⟩ := exists_forall₂ hpieces
  let name : Option Word := rest.map (⟨.identifier, ·⟩)
  have hname : ∀ w ∈ name, w.kind = .identifier := by
    intro w hw
    obtain ⟨id, -, rfl⟩ := Option.map_eq_some_iff.mp hw
    rfl
  have hlast : List.Forall₂ SpellsItem (rest.toList.map (text "**" ++ ·)) (restWords name) := by
    cases rest with
    | none => exact .nil
    | some id => exact .cons (Mark.doubleStar.front (.name (hrest id rfl))) .nil
  have hitems := List.rel_append (SpellsItem.forall₂ hpieces fun _ _ h => h.1) hlast
  refine of_closed (s := text "\x7b" ++ commaSeparated (writeEntries quote entries ++
    rest.toList.map (text "**" ++ ·)) ++ text "\x7d") (fun _ => ?_)
    (OpeningBracket.brace.enclosed .closeBrace (writeEntries_eq_map quote entries ▸ hitems)) ?_
  · cases rest <;> rw [write] <;> rfl
  · have hbare : name.map Word.text = rest := by cases rest <;> rfl
    rw [bare, Shape.bare, bareEntries_eq (hpieces.imp fun _ _ h => h.2)]
    refine Eq.subst (motive := fun rest => ReadsPattern .closed _ (.new (.mapping _ rest))) hbare ?_
    exact .mapping rfl rfl hreads hname

/-! ### Operators -/

/-- A pattern in parentheses is one of several alternatives. -/
theorem parenthesized {dotted : Bool} {s : Bytes} {ws : List Word} {p : Pattern}
    (hspells : Spells dotted s ws) (hreads : ReadsPattern .whole ws p) :
    ∃ ws', Spells false (parenthesize s) ws' ∧ ReadsPattern .closed ws' p :=
  ⟨_, hspells.parenthesized.undotted, .group rfl rfl hreads⟩

theorem as {pattern : Pattern} {name : Bytes} (h : pattern.Written quote) (hname : IsName name)
    (hne : name ≠ text "_") : Written quote (.node span (.as (some pattern) (some name))) := by
  obtain ⟨ws, hspells, hreads⟩ := h.renamed
  have hsign : Signs (text "as") [⟨.kwAs, text "as"⟩] := .keyword ⟨_, _, rfl, rfl, rfl⟩ rfl
  have htext := hspells.separated hsign.spaced (.name hname)
  have hwhole : ReadsPattern .whole (ws ++ [⟨.kwAs, text "as"⟩, ⟨.identifier, name⟩])
      (Pattern.node span (.as (some pattern) (some name))).bare := hreads.as rfl rfl hne
  have hgroup := parenthesized htext hwhole
  refine ⟨?_, ?_, ⟨_, ?_, hwhole⟩⟩
  · rw [write]
    exact hgroup
  · obtain ⟨ws, hspells, hclosed⟩ := hgroup
    refine ⟨ws, ?_, hclosed.alternatives⟩
    rw [write]
    exact hspells
  · rw [write]
    exact htext.undotted

theorem or {patterns : List Pattern} (hlength : 2 ≤ patterns.length)
    (h : ∀ p ∈ patterns, p.Written quote) : Written quote (.node span (.or patterns)) := by
  have hpieces : ∀ p ∈ patterns, ∃ x : PatternPiece,
      (Spells false (p.write quote true) x.1 ∧ p.bare = x.2) ∧ ReadsPattern .closed x.1 x.2 := by
    intro p hp
    obtain ⟨ws, hspells, hreads⟩ := (h p hp).inside
    exact ⟨(ws, p.bare), ⟨hspells, rfl⟩, hreads⟩
  obtain ⟨pieces, hpieces, hreads⟩ := exists_forall₂ hpieces
  have hsign : Signs (text "|") [⟨.pipe, text "|"⟩] := .operator (by decide)
  have htexts :
      List.Forall₂ (Spells false) (writeAll quote true patterns) (pieces.map Prod.fst) := by
    rw [writeAll_eq_map]
    exact List.forall₂_map_left_iff.mpr
      (List.forall₂_map_right_iff.mpr (hpieces.imp fun _ _ h => h.1))
  have htext := Spells.joined hsign.between htexts (by
    rw [writeAll_eq_map]
    rintro hnil
    simp [List.map_eq_nil_iff.mp hnil] at hlength)
  obtain ⟨first, rest, rfl⟩ : ∃ first rest, pieces = first :: rest := by
    cases hpieces with
    | nil => simp at hlength
    | cons _ _ => exact ⟨_, _, rfl⟩
  have hrest : rest ≠ [] := by
    rintro rfl
    rw [hpieces.length_eq] at hlength
    simp at hlength
  obtain ⟨hfirst, hothers⟩ := List.forall_mem_cons.mp hreads
  have hor : ReadsPattern .alternatives ([⟨.pipe, text "|"⟩].intercalate _) _ :=
    .or rfl hfirst hothers hrest
  rw [← bareAll_eq (hpieces.imp fun _ _ h => h.2)] at hor
  refine ⟨?_, ⟨_, ?_, hor⟩, ⟨_, ?_, hor.whole⟩⟩
  · rw [write]
    exact parenthesized htext hor.whole
  · rw [write]
    exact htext
  · rw [write]
    exact htext

end Pattern.Written

/-- Every plain pattern is written so that it reads as itself. -/
theorem Pattern.IsPlain.written {p : Pattern} (h : p.IsPlain) {quote : Byte}
    (hquote : quote.isQuote) : p.Written quote := by
  induction h with
  | literal span h => exact .literal h hquote
  | dotted span inner h hname => exact .dotted h hname
  | singleton span value => exact .singleton value
  | sequence span hstars _ ih => exact .sequence hstars ih
  | mapping span hkeys _ hrest ih => exact .mapping hkeys ih hrest hquote
  | record span hcallee _ hnames _ ih ihattributes => exact .record hcallee ih hnames ihattributes
  | wildcard span => exact .capture nofun
  | capture span hname hne => exact .capture fun n hn => Option.some.inj hn ▸ ⟨hname, hne⟩
  | as span _ hname hne ih => exact .as ih hname hne
  | or span hlength _ ih => exact .or hlength ih

end SyntaxTree
