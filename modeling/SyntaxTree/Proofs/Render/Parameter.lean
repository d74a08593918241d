import SyntaxTree.Proofs.Grammar.Compound
import SyntaxTree.Proofs.Render.Bare
import SyntaxTree.Proofs.Render.Closed
import SyntaxTree.Proofs.Render.Lines
import SyntaxTree.Proofs.Render.Pattern
import SyntaxTree.Unicode.NameTable

/-
# Written parameter lists

The parameters in a tree are written item by item, in the order in which the items were read.  What
is written for a legal list therefore reads as the list, in a function definition and in a lambda,
and its defaults come back to the parameters that carried them.
-/

namespace SyntaxTree

open Parse

/-! ## Items and their texts -/

/-- Trees of operators, the named constants, strings of code points, and bytes. -/
inductive Expr.IsSimple : Expr → Prop where
  | tree {e : Expr} (h : e.IsOperatorTree) : IsSimple e
  | singleton (span : Span) (value : Singleton) : IsSimple (.node span (.constant value.constant))
  | string (span : Span) {codes : List Nat} (h : ∀ code ∈ codes, code ≤ 0x10FFFF) :
    IsSimple (.node span (.constant (.string (Utf8.encodeAll codes))))
  | bytes (span : Span) (s : Bytes) : IsSimple (.node span (.constant (.bytes s)))

/-- A simple expression is written for what it is, and closes its brackets. -/
theorem Expr.IsSimple.spells {e : Expr} (h : e.IsSimple) {quote : Byte} (hquote : quote.isQuote)
    {p : Precedence} (hp : .yield ≤ p) :
    ∃ ws, Spells false (e.write quote p) ws ∧ Reads .expression ws e.bare ∧ ClosesBrackets ws := by
  have hatom : p ≤ .atom := p.le_atom
  cases h with
  | tree h =>
    obtain ⟨ws, hspells, hfits⟩ := (h.written quote).inside p hp
    obtain ⟨ws', hspells', hclosed⟩ := (h.closes quote).inside p
    obtain rfl := hspells.unique hspells'
    exact ⟨ws, hspells.undotted, hfits.reads.mono (Nat.zero_le _), hclosed⟩
  | singleton span value =>
    rw [write_of_le (s := .constant _) hatom]
    refine ⟨_, (Spells.word (value.isWord quote)).undotted, ?_⟩
    rcases value with _ | _ | _
    · exact ⟨((Leads.none rfl).reads (.inr rfl)).mono (Nat.zero_le _), .single rfl rfl⟩
    · have hleads := Leads.boolean (w := ⟨.boolean, text "False"⟩) rfl
      exact ⟨(hleads.reads (.inr rfl)).mono (Nat.zero_le _), .single rfl rfl⟩
    · have hleads := Leads.boolean (w := ⟨.boolean, text "True"⟩) rfl
      exact ⟨(hleads.reads (.inr rfl)).mono (Nat.zero_le _), .single rfl rfl⟩
  | @string span codes h =>
    have hchosen := isQuote_chooseQuote hquote (Utf8.encodeAll codes)
    have hbody := encodes_escape hchosen h
    rw [write_of_le (s := .constant _) hatom]
    have hreads := Reads.text (.inl rfl) fun _ _ _ _ hc hf => strings_quoted hc hf hchosen hbody
    exact ⟨_, (Spells.quoted hchosen hbody.escaped).undotted, hreads.mono (Nat.zero_le _),
      .single rfl rfl⟩
  | bytes span s =>
    have hchosen := isQuote_chooseQuote hquote s
    have hbody := encodes_raw hchosen s
    rw [write_of_le (s := .constant _) hatom]
    have hreads :=
      Reads.text (.inr rfl) fun _ _ _ _ hc hf => strings_quotedBytes hc hf hchosen hbody
    exact ⟨_, (Spells.quotedBytes hchosen hbody.escaped).undotted, hreads.mono (Nat.zero_le _),
      .single rfl rfl⟩

namespace ParameterItem

/-- An item without positions. -/
def bare : ParameterItem → ParameterItem
  | .plain name default => .plain name (default.map Expr.bare)
  | item => item

/-- The text of an item. -/
def write (quote : Byte) : ParameterItem → Bytes
  | .plain name default =>
    ParameterText.withDefault ⟨name, false⟩ (default.map (Expr.write quote .test))
  | .slash => text "/"
  | .star name => text "*" ++ name.getD []
  | .doubleStar name => text "**" ++ name

/-- The names of an item can stand in a source, and its default is a simple expression. -/
def IsSimple : ParameterItem → Prop
  | .plain name default => IsIdentifier name ∧ ∀ e ∈ default, e.IsSimple
  | .slash => True
  | .star name => ∀ s ∈ name, IsIdentifier s
  | .doubleStar name => IsIdentifier name

/-- An item is written for what it is, and closes its brackets. -/
theorem IsSimple.spells {item : ParameterItem} (h : item.IsSimple) {quote : Byte}
    (hquote : quote.isQuote) :
    ∃ ws, SpellsItem (item.write quote) ws ∧ ReadsParameter item.bare ws ∧ ClosesBrackets ws := by
  match item, h with
  | .plain name none, h => exact ⟨_, .identifier h.1, .plain name, .identifier name⟩
  | .plain name (some e), h =>
    obtain ⟨ws, hspells, hreads, hclosed⟩ := (h.2 e rfl).spells hquote (p := .test) (by decide)
    have hitem := SpellsItem.keyword h.1 hspells
    rw [List.append_assoc] at hitem
    exact ⟨_, hitem, .default name hreads, .cons rfl rfl (.cons rfl rfl hclosed)⟩
  | .slash, _ => exact ⟨_, Mark.slash.item, .slash, .single rfl rfl⟩
  | .star none, _ => exact ⟨_, Mark.star.item, .bareStar, .single rfl rfl⟩
  | .star (some name), h =>
    exact ⟨_, Mark.star.name (h name rfl), .star name, .cons rfl rfl (.identifier name)⟩
  | .doubleStar name, h =>
    exact ⟨_, Mark.doubleStar.name h, .doubleStar name, .cons rfl rfl (.identifier name)⟩

/-- The items of a list are written for what they are. -/
theorem exists_spells {items : List ParameterItem} (h : ∀ item ∈ items, item.IsSimple)
    {quote : Byte}
    (hquote : quote.isQuote) :
    ∃ wss, List.Forall₂ SpellsItem (items.map (write quote)) wss ∧
      List.Forall₂ ReadsParameter (items.map bare) wss ∧ ∀ ws ∈ wss, ClosesBrackets ws := by
  induction items with
  | nil => exact ⟨[], .nil, .nil, nofun⟩
  | cons item items ih =>
    obtain ⟨hitem, hitems⟩ := List.forall_mem_cons.mp h
    obtain ⟨ws, hspells, hreads, hclosed⟩ := hitem.spells hquote
    obtain ⟨wss, hspells', hreads', hclosed'⟩ := ih hitems
    exact ⟨ws :: wss, .cons hspells hspells', .cons hreads hreads',
      List.forall_mem_cons.mpr ⟨hclosed, hclosed'⟩⟩

end ParameterItem

/-! ## Sections and their texts -/

/-- Plain parameters with aligned defaults without positions. -/
theorem ParameterItem.zipWith_plain_bare (names : List Bytes) (defaults : List (Option Expr)) :
    List.zipWith .plain names (defaults.map (Option.map Expr.bare)) =
      (List.zipWith .plain names defaults).map bare := by
  rw [List.zipWith_map_right, List.map_zipWith]
  rfl

/-- The items of parameters without positions. -/
theorem Parameters.items_bare (ps : Parameters) :
    ps.bare.items = ps.items.map ParameterItem.bare := by
  obtain ⟨positionalOnly, positional, variadic, keywordOnly, variadicKeyword, defaults⟩ := ps
  have hname (p : Parameter) : p.bare.name = p.name := by
    cases p
    rfl
  have hnames (ps : List Parameter) :
      (ps.map Parameter.bare).map Parameter.name = ps.map Parameter.name := by
    rw [List.map_map]
    exact List.map_congr_left fun p _ => hname p
  have haligned (count : Nat) : alignLast count (defaults.map Expr.bare) =
      (alignLast count defaults).map (Option.map Expr.bare) := by
    simp [alignLast]
  have hkeywords : (keywordOnly.map KeywordOnly.bare).map KeywordOnly.item =
      (keywordOnly.map KeywordOnly.item).map ParameterItem.bare := by
    rw [List.map_map, List.map_map]
    refine List.map_congr_left fun k _ => ?_
    obtain ⟨p, default⟩ := k
    cases default <;> simp [KeywordOnly.bare, KeywordOnly.item, ParameterItem.bare, hname]
  have hvariadic :
      (variadic.map Parameter.bare).map Parameter.name = variadic.map Parameter.name := by
    cases variadic <;> simp [hname]
  have hdouble : ((variadicKeyword.map Parameter.bare).toList.map fun p =>
      ParameterItem.doubleStar p.name) =
      (variadicKeyword.toList.map fun p => .doubleStar p.name).map
        ParameterItem.bare := by
    cases variadicKeyword <;> simp [hname, ParameterItem.bare]
  rw [Parameters.bare, Parameter.bareAll_eq_map, Parameter.bareAll_eq_map,
    Parameter.bareOption_eq_map, KeywordOnly.bareAll_eq_map, Parameter.bareOption_eq_map,
    Expr.bareAll_eq_map, items, items]
  simp only [List.length_map, haligned, hnames, hvariadic, hkeywords, hdouble, ← List.map_drop,
    ParameterItem.zipWith_plain_bare, List.map_append, List.isEmpty_map, Option.isNone_map]
  congr 3
  · congr 2
    · split <;> rfl
  · split <;> rfl

namespace Signature

open ParameterItem

variable (quote : Byte) (annotated : Bool)

/-- A parameter without an annotation is written as its name. -/
theorem write_parameter (name : Bytes) :
    (parameter name).write quote annotated = ⟨name, false⟩ := by
  cases annotated
  · rfl
  · simp [parameter, Parameter.write, Expr.writeOptional]

theorem writeAll_parameter (ps : List (Bytes × Option Expr)) :
    Parameter.writeAll quote annotated (ps.map (parameter ·.1)) = ps.map fun p => ⟨p.1, false⟩ := by
  induction ps with
  | nil => rfl
  | cons p ps ih => rw [List.map_cons, Parameter.writeAll, write_parameter, ih, List.map_cons]

/-- Names and the defaults that belong to them are the texts of the items. -/
theorem zipWith_withDefault (ps : List (Bytes × Option Expr)) (defaults : List (Option Bytes)) :
    List.zipWith ParameterText.withDefault (ps.map fun p => ⟨p.1, false⟩)
        (ps.map (fun p => p.2.map (Expr.write quote .test)) ++ defaults) =
      (plains ps).map (write quote) := by
  induction ps with
  | nil => rfl
  | cons p ps ih => exact congrArg (write quote (.plain p.1 p.2) :: ·) ih

/-- The texts of the defaults belong to the parameters that carry the defaults. -/
theorem alignDefaults_filterMap {ps : List (Bytes × Option Expr)}
    (h : ps.Pairwise fun p q => p.2.isSome → q.2.isSome) :
    alignDefaults ps.length (Expr.writeAll quote .test (ps.filterMap (·.2))) =
      ps.map fun p => p.2.map (Expr.write quote .test) := by
  have haligned := congrArg (List.map (Option.map (Expr.write quote .test))) (alignLast_filterMap h)
  have hlength : (ps.filterMap (·.2)).length ≤ ps.length := List.length_filterMap_le _ ps
  rw [alignLast, List.map_append, List.map_replicate, List.map_map] at haligned
  rw [alignDefaults, Expr.writeAll_eq_map, List.take_of_length_le (by simpa using hlength)]
  simpa [Function.comp_def] using haligned

/-- Parameters behind a star are written as plain ones. -/
theorem writeAll_keywordOnly (ps : List (Bytes × Option Expr)) :
    KeywordOnly.writeAll quote annotated (ps.map fun p => .mk (parameter p.1) p.2) =
      (plains ps).map (write quote) := by
  induction ps with
  | nil => rfl
  | cons p ps ih =>
    obtain ⟨name, default⟩ := p
    rw [List.map_cons, KeywordOnly.writeAll, write_parameter, ih]
    cases default <;>
      simp [plains, write, ParameterText.withDefault, Expr.writeOptional, defaultText]

/-- The sections of a legal list are written as its items. -/
theorem writeItems_parameters {x : Signature} (hx : x.WellFormed) (hcomplete : x.IsComplete) :
    x.parameters.writeItems quote annotated = x.items.map (write quote) := by
  have haligned := alignDefaults_filterMap quote hx.defaults
  rw [List.length_append, List.map_append] at haligned
  have hfirst := zipWith_withDefault quote x.positionalOnly
  have hsecond := zipWith_withDefault quote x.positional []
  rw [List.append_nil] at hsecond
  have hslash : (if x.positionalOnly.isEmpty then [] else [text "/"]) =
      (if x.positionalOnly.isEmpty then [] else [.slash]).map (write quote) := by
    split <;> rfl
  have hstar : (if x.variadic.isNone ∧ !x.keywordOnly.isEmpty then [text "*"]
        else Parameter.writeOptional quote annotated (text "*") (x.variadic.map parameter)) =
      (if x.star then [.star x.variadic] else []).map (write quote) := by
    cases hstar : x.star with
    | false =>
      obtain ⟨hnone, hempty⟩ := hx.star hstar
      rw [hnone, hempty]
      rfl
    | true =>
      cases hvariadic : x.variadic with
      | none =>
        have hkeywords : x.keywordOnly ≠ [] := (hcomplete hstar).resolve_left (by simp [hvariadic])
        rw [if_pos (by simpa using hkeywords)]
        rfl
      | some name => simp [Parameter.writeOptional, write_parameter, write]
  have hdouble :
      Parameter.writeOptional quote annotated (text "**") (x.variadicKeyword.map parameter) =
      (x.variadicKeyword.toList.map .doubleStar).map (write quote) := by
    cases x.variadicKeyword with
    | none => rfl
    | some name => simp [Parameter.writeOptional, write_parameter, write]
  simp only [parameters, Parameters.writeItems, writeAll_parameter, List.length_map, haligned,
    hfirst, hsecond, List.drop_left', writeAll_keywordOnly, List.isEmpty_map, Option.isNone_map,
    hslash, hstar, hdouble, items, List.map_append]

end Signature

/-! ## Lists at their places -/

/-- Parameters that read back from their items, in front of the colon of a lambda and between the
parentheses of a definition. -/
structure Parameters.ReadsBack [Unicode.CharacterNames] (quote : Byte) (ps : Parameters) :
    Prop where
  lambda : ∃ e, Expr.ofSource
      (text "lambda " ++ commaSeparated (ps.writeItems quote false) ++ text ": x") = .ok e ∧
    e.bare = .new (.lambda ps.bare (.new (.name (text "x") .load)))
  definition : ∃ m, Module.ofSource .exec
      (text "def f(" ++ commaSeparated (ps.writeItems quote true) ++ text "):\n    pass\n") =
        .ok m ∧
    m.bare.body = [.new (.functionDef false (text "f") [] [] ps.bare none [.new .pass])]

section Places

variable {texts : List Bytes} {items : List ParameterItem} {wss : List (List Word)} {x : Signature}
  (htexts : List.Forall₂ SpellsItem texts wss) (hreads : List.Forall₂ ReadsParameter items wss)
  (hx : Signature.empty.ofItems items = some x) (hcomplete : x.IsComplete)

include htexts hreads hx hcomplete

/-- The text of a lambda is read with its parameters. -/
theorem Expr.ofSource_lambda [Unicode.CharacterNames] : ∃ e, Expr.ofSource
      (text "lambda " ++ commaSeparated texts ++ text ": x") = .ok e ∧
    e.bare = .new (.lambda x.parameters (.new (.name (text "x") .load))) := by
  have hlambda : Word.IsKeyword ⟨.kwLambda, text "lambda"⟩ := by
    simp [Word.IsKeyword, TokenKind.keywords]
  have hname : IsName (text "x") := ⟨⟨_, _, rfl, rfl, rfl⟩, by decide⟩
  have hbody : Reads .expression [⟨.identifier, text "x"⟩] (.new (.name (text "x") .load)) :=
    ((Leads.name rfl).reads (.inr rfl)).mono (Nat.zero_le _)
  have hspells : Spells true (text "lambda " ++ commaSeparated texts ++ text ": x")
      (⟨.kwLambda, text "lambda"⟩ :: ([Word.comma].intercalate wss ++
        Word.colon :: [⟨.identifier, text "x"⟩])) := by
    have hsplit : text "lambda " = text "lambda" ++ text " " ∧ text ": x" = text ": " ++ text "x" :=
      ⟨rfl, rfl⟩
    refine ⟨⟨_, _, rfl, rfl⟩, fun rest hrest => ?_⟩
    rw [hsplit.1, hsplit.2]
    simp only [List.append_assoc]
    have hvisible : ∀ b ∈ (commaSeparated texts ++ (text ": " ++ (text "x" ++ rest))).head?,
        b.isBlank = false := by
      intro b hb
      cases htexts with
      | nil =>
        obtain rfl := Option.some.inj hb
        rfl
      | @cons item ws items wss hitem hitems =>
        obtain ⟨first, tail, hfirst, hblank⟩ :=
          (SpellsItem.joined Spaced.comma (.cons hitem hitems) (List.cons_ne_nil _ _)).begins
        rw [commaSeparated, hfirst] at hb
        exact Option.some.inj hb ▸ hblank
    refine ((SpellsItem.word hlambda).divides _ fun b hb => ?_).trans
      ((Divides.blank hvisible).trans
        ((SpellsItem.divides_joined .comma htexts fun b hb => ?_).trans
        ((Spaced.colon.divides _ fun b hb => ?_).trans ((Spells.name hname).divides rest hrest))))
    · obtain rfl := Option.some.inj hb
      rfl
    · obtain rfl := Option.some.inj hb
      rfl
    · obtain rfl := Option.some.inj hb
      rfl
  exact hspells.ofSource (Reads.lambdaOf hreads hx hcomplete hbody).list

/-- The text of a definition is read with its parameters. -/
theorem Module.ofSource_definition [Unicode.CharacterNames]
    (hclosed : ∀ ws ∈ wss, ClosesBrackets ws) : ∃ m, Module.ofSource .exec
      (text "def f(" ++ commaSeparated texts ++ text "):\n    pass\n") = .ok m ∧
    m.bare.body = [.new (.functionDef false (text "f") [] [] x.parameters none [.new .pass])] := by
  have hname : IsIdentifier (text "f") := IsName.isIdentifier ⟨⟨_, _, rfl, rfl, rfl⟩, by decide⟩
  have hdef : Word.IsKeyword ⟨.kwDef, text "def"⟩ := by
    simp [Word.IsKeyword, TokenKind.keywords]
  have hpass : Word.IsKeyword ⟨.kwPass, text "pass"⟩ := by
    simp [Word.IsKeyword, TokenKind.keywords]
  have hheader := ((SpellsItem.word hdef).blank (.identifier hname)).called htexts
  have hlines := hheader.haveWords_block (by simp) ((hdef.closes.append (.identifier _)).append
      (.bracketed rfl rfl (.intercalate (.single rfl rfl) hclosed)))
    ((SpellsLine.word hpass).haveWords hpass.closes Style.default 1)
  have hbody : ReadsAs [⟨.kwPass, text "pass"⟩, Word.newline] (.new (Stmt.Shape.bare .pass)) :=
    .word (List.mem_cons_self ..)
  have hstatement :=
    ReadsAs.functionDef (w := ⟨.kwDef, text "def"⟩) rfl (text "f") hreads (.inl rfl) hx
    hcomplete ((0 + 1) * Style.default.width) (.cons hbody .nil)
  have hwords := Layout.AreLinesAt.hasWords hlines
  have hmargin : Style.default.margin 0 = [] ∧ Style.default.margin 1 = text "    " := ⟨rfl, rfl⟩
  have hsource : Line.writeAll Style.default [.code 0 (text "def" ++ text " " ++ text "f" ++
        parenthesize (commaSeparated texts) ++ text ":"), .code (0 + 1) (text "pass")] =
      text "def f(" ++ commaSeparated texts ++ text "):\n    pass\n" := by
    have hsplit : text "def f(" = text "def" ++ text " " ++ text "f" ++ text "(" ∧
        text "):\n    pass\n" = text ")" ++ text ":" ++ text "\n" ++ text "    " ++ text "pass" ++
          text "\n" := ⟨rfl, rfl⟩
    rw [hsplit.1, hsplit.2]
    simp [Line.writeAll, Line.write, hmargin, parenthesize]
  rw [hsource] at hwords
  obtain ⟨m, hm, hbare⟩ := (ReadsAll.cons hstatement .nil).ofSource (by simpa using hwords)
  exact ⟨m, hm, by rw [hbare]; rfl⟩

end Places

/-! ## Parameter lists are read exactly and written back -/

section Exact

variable {items : List ParameterItem} {wss : List (List Word)} {close : TokenKind}
    {annotated : Bool}
  {trailing more : List Word} {c : Cursor} {f : Word} {n : Nat}

/-- What has been read from a legal list of simple items reads back from its own items. -/
theorem Parameters.readsBack [Unicode.CharacterNames] {x : Signature} {ps : Parameters}
    (hx : Signature.empty.ofItems items = some x) (hcomplete : x.IsComplete)
    (hps : ps.bare = x.parameters) (hsimple : ∀ item ∈ items, item.IsSimple) {quote : Byte}
    (hquote : quote.isQuote) : ps.ReadsBack quote := by
  obtain ⟨hitems, hwellFormed⟩ := Signature.items_ofItems .empty hx
  replace hitems : x.items = items := hitems
  have hparameters : ps.bare.items = items := by
    rw [hps, Signature.items_parameters hwellFormed hcomplete, hitems]
  have hbare : items.map ParameterItem.bare = items := by
    rw [← hparameters, ← Parameters.items_bare, Parameters.bare_bare]
  have hwritten (annotated : Bool) : ps.writeItems quote annotated =
      items.map (ParameterItem.write quote) := by
    rw [← Parameters.writeItems_bare, hps,
      Signature.writeItems_parameters quote annotated hwellFormed
      hcomplete, hitems]
  obtain ⟨wss, htexts, hreads, hclosed⟩ := ParameterItem.exists_spells hsimple hquote
  rw [hbare] at hreads
  refine ⟨?_, ?_⟩
  · rw [hwritten, hps]
    exact Expr.ofSource_lambda htexts hreads hx hcomplete
  · rw [hwritten, hps]
    exact Module.ofSource_definition htexts hreads hx hcomplete hclosed

/-- Exactly the legal parameter lists are read; what is read holds the items of the list in their
order, each default with the parameter that carried it; and it reads back from what is written for
it, as a lambda and as a definition. -/
theorem Parse.parameters_exact [Unicode.CharacterNames] (h : List.Forall₂ ReadsParameter items wss)
    (hplace : ListsParameters close annotated) (field : FieldReading)
    (hn : ([Word.comma].intercalate wss).length < n)
    (htrailing : trailing = [] ∨ trailing = [Word.comma] ∧ items ≠ [])
    (hc : c.words = [Word.comma].intercalate wss ++ trailing ++ f :: more) (hf : f.kind = close) :
    ((∃ ps c', parameters (readUpTo field n) close annotated c = .ok ps c') ↔
        ParameterItem.Legal items) ∧
      ∀ ps c', parameters (readUpTo field n) close annotated c = .ok ps c' →
        c'.words = f :: more ∧ ps.bare.items = items ∧
          ((∀ item ∈ items, item.IsSimple) →
            ∀ quote : Byte, quote.isQuote → ps.ReadsBack quote) := by
  have hiff := exists_parameters_iff h hplace field hn htrailing hc hf
  refine ⟨hiff, fun ps c' hrun => ?_⟩
  obtain ⟨hc', hitems, -⟩ := items_of_parameters h hplace field hn htrailing hc hf hrun
  refine ⟨hc', hitems, fun hsimple quote hquote => ?_⟩
  obtain ⟨ps', c'', x, hrun', -, hx, hcomplete, hps⟩ :=
    parameters_run h hplace field hn htrailing hc hf (hiff.mp ⟨ps, c', hrun⟩)
  obtain ⟨rfl, rfl⟩ := EStateM.Result.ok.inj (hrun.symm.trans hrun')
  exact Parameters.readsBack hx hcomplete hps hsimple hquote

/-- A cursor in front of words that have no places. -/
def Cursor.ofWords (ws : List Word) : Cursor :=
  ⟨[], [], ws.map fun w => .empty w.kind w.text .origin, .empty .endOfInput [] .origin, 0⟩

open scoped Unicode.NameTable in
/-- A default in front of a slash, a bare star, and a comma at the end. -/
theorem Parse.parameters_exact_bareStar :
    ∃ ps c', parameters
        (readUpTo ⟨Unicode.NameTable.tableNames, fun _ _ => pure (.new (.constant .none))⟩ 20)
        .closeParen true
        (.ofWords [⟨.identifier, text "a"⟩, ⟨.equal, text "="⟩, ⟨.identifier, text "b"⟩, Word.comma,
          ⟨.slash, text "/"⟩, Word.comma, Word.star, Word.comma, ⟨.identifier, text "c"⟩,
          Word.comma, Word.closeParen]) = .ok ps c' ∧
      ps.bare.items = [.plain (text "a") (some (.new (.name (text "b") .load))), .slash, .star none,
        .plain (text "c") none] ∧
      ps.ReadsBack Byte.doubleQuote := by
  have ha : IsName (text "a") := ⟨⟨_, _, rfl, rfl, rfl⟩, by decide⟩
  have hb : IsName (text "b") := ⟨⟨_, _, rfl, rfl, rfl⟩, by decide⟩
  have hc : IsName (text "c") := ⟨⟨_, _, rfl, rfl, rfl⟩, by decide⟩
  have hb' : Reads .expression [⟨.identifier, text "b"⟩] (.new (.name (text "b") .load)) :=
    ((Leads.name rfl).reads (.inr rfl)).mono (Nat.zero_le _)
  obtain ⟨hiff, hall⟩ := parameters_exact (n := 20) (f := Word.closeParen)
    (c := .ofWords [⟨.identifier, text "a"⟩, ⟨.equal, text "="⟩, ⟨.identifier, text "b"⟩,
      Word.comma, ⟨.slash, text "/"⟩, Word.comma, Word.star, Word.comma, ⟨.identifier, text "c"⟩,
      Word.comma, Word.closeParen])
    (.cons (.default (text "a") hb')
      (.cons .slash (.cons .bareStar (.cons (.plain (text "c")) .nil))))
    .definition ⟨Unicode.NameTable.tableNames, fun _ _ => pure (.new (.constant .none))⟩ (by decide)
    (.inr ⟨rfl, List.cons_ne_nil _ _⟩) rfl rfl
  have hlegal :
      ParameterItem.Legal [.plain (text "a") (some (.new (.name (text "b") .load))), .slash,
      .star none, .plain (text "c") none] :=
    Signature.legal_iff.mpr ⟨_, rfl, fun _ => .inr (List.cons_ne_nil _ _)⟩
  obtain ⟨ps, c', hrun⟩ := hiff.mpr hlegal
  obtain ⟨-, hitems, hreads⟩ := hall ps c' hrun
  refine ⟨ps, c', hrun, hitems, hreads ?_ _ rfl⟩
  simp only [List.mem_cons, List.not_mem_nil, or_false]
  rintro item (rfl | rfl | rfl | rfl)
  · exact ⟨ha.isIdentifier, fun e he => Option.some.inj he ▸ .tree (.name _ hb)⟩
  · trivial
  · nofun
  · exact ⟨hc.isIdentifier, nofun⟩

end Exact

end SyntaxTree
