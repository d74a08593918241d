import SyntaxTree.Proofs.Render.Pattern
import SyntaxTree.Unicode.NameTable

/-
# Written match statements

A match statement with a single case, laid out on three lines, reads back with the subject and the
pattern that were written.
-/

namespace SyntaxTree

open Parse

/-! ## Header lines -/

section Header

variable {word s rest : Bytes} {kind : TokenKind} {ws more : List Word} {dotted : Bool}

/-- The words of a header close their brackets. -/
theorem ClosesBrackets.header (hkind : TokenKind.ofWord word = .identifier)
    (h : ClosesBrackets ws) :
    ClosesBrackets (⟨.ofWord word, word⟩ :: (ws ++ [⟨.colon, text ":"⟩])) :=
  .cons (by rw [hkind]; rfl) (by rw [hkind]; rfl) (h.append (.single rfl rfl))

/-- A header in the first line of a source. -/
theorem hasWords_header (hword : IsWord word) (hkind : TokenKind.ofWord word = .identifier)
    (h : Spells dotted s ws) (hws : ClosesBrackets ws)
    (hrest : ∀ {layout : Layout}, layout.AtLine [] [] → HasWords (layout.ofText rest) more) :
    HasWords (tokenize false (word ++ text " " ++ s ++ (text ":" ++ (text "\n" ++ rest))))
      (⟨.ofWord word, word⟩ :: (ws ++ [⟨.colon, text ":"⟩]) ++ Word.newline :: more) := by
  have hline := h.header hword rest
  obtain ⟨b, t, hbegins, hblank, hascii⟩ :=
    (h.opened (.word hword)).begins_plain (text ":" ++ (text "\n" ++ rest))
  rw [hbegins] at hline
  rw [hbegins, tokenize_cons hascii]
  refine Layout.hasWords_outer ⟨rfl, rfl, rfl, rfl⟩ hblank hline fun hlayout => ?_
  exact Layout.hasWords_lineEnd (hws.header hkind 0 ▸ hlayout) hrest

/-- A header in the first line of a block. -/
theorem Layout.hasWords_header {layout : Layout} {levels : List Nat} {n : Nat}
    (hlayout : layout.AtLine levels []) (hdeeper : levels.headD 0 < n) (hword : IsWord word)
    (hkind : TokenKind.ofWord word = .identifier) (h : Spells dotted s ws)
    (hws : ClosesBrackets ws) (hrest : ∀ {layout : Layout}, layout.AtLine (n :: levels) [] →
      HasWords (layout.ofText rest) more) :
    HasWords (layout.ofText (Bytes.spaces n ++
        (word ++ text " " ++ s ++ (text ":" ++ (text "\n" ++ rest)))))
      (Word.indent n :: (⟨.ofWord word, word⟩ :: (ws ++ [⟨.colon, text ":"⟩]) ++
        Word.newline :: more)) := by
  have hline := h.header hword rest
  obtain ⟨b, t, hbegins, hblank, -⟩ :=
    (h.opened (.word hword)).begins_plain (text ":" ++ (text "\n" ++ rest))
  rw [hbegins] at hline ⊢
  refine hasWords_deeper hlayout hdeeper hblank hline fun hlayout => ?_
  exact hasWords_lineEnd (hws.header hkind 0 ▸ hlayout) hrest

end Header

/-! ## Match statements -/

/-- The text of a match statement with a single case and a lone `pass` in its block. -/
def matchText (subject : Bytes) (outer : Nat) (pattern : Bytes) (inner : Nat) : Bytes :=
  text "match " ++ subject ++ text ":\n" ++ Bytes.spaces outer ++ text "case " ++ pattern ++
    text ":\n" ++ Bytes.spaces inner ++ text "pass\n"

section Layout

variable {subject pattern : Bytes} {ws ps : List Word} {dotted dotted' : Bool} {outer inner : Nat}

/-- The lines of a match statement. -/
theorem matchText_eq : matchText subject outer pattern inner =
    text "match" ++ text " " ++ subject ++ (text ":" ++ (text "\n" ++ (Bytes.spaces outer ++
      (text "case" ++ text " " ++ pattern ++ (text ":" ++ (text "\n" ++ (Bytes.spaces inner ++
        (text "pass" ++ (text "\n" ++ []))))))))) := by
  have hsplit : text "match " = text "match" ++ text " " ∧ text "case " = text "case" ++ text " " ∧
      text ":\n" = text ":" ++ text "\n" ∧ text "pass\n" = text "pass" ++ text "\n" := by
    decide
  obtain ⟨hmatch, hcase, hcolon, hpass⟩ := hsplit
  rw [matchText, hmatch, hcase, hcolon, hpass]
  simp only [List.append_assoc, List.append_nil]

/-- The words of a match statement, line by line. -/
theorem matchWords_eq : matchWords ws ps outer inner ++ [Word.final] =
    Word.matchWord :: (ws ++ [Word.colon]) ++ (Word.newline :: Word.indent outer ::
      (Word.caseWord :: (ps ++ [Word.colon]) ++ (Word.newline :: Word.indent inner ::
        ([Word.pass] ++ (Word.newline :: [Word.dedent, Word.dedent, Word.final]))))) := by
  simp [matchWords, caseWords]

/-- A match statement has the words of its lines and of the blocks around them. -/
theorem matchText_hasWords (hsubject : Spells dotted subject ws) (hws : ClosesBrackets ws)
    (hpattern : Spells dotted' pattern ps) (hps : ClosesBrackets ps) (houter : 0 < outer)
    (hinner : outer < inner) :
    HasWords (tokenize false (matchText subject outer pattern inner))
      (matchWords ws ps outer inner ++ [Word.final]) := by
  have hmatch : IsWord (text "match") := ⟨_, _, rfl, rfl, rfl⟩
  have hcase : IsWord (text "case") := ⟨_, _, rfl, rfl, rfl⟩
  have hpass : Divides (text "pass" ++ (text "\n" ++ [])) (text "\n" ++ []) [Word.pass] := by
    refine Divides.word ⟨_, _, rfl, rfl, rfl⟩ fun c hc => ?_
    obtain rfl := Option.some.inj hc
    rfl
  rw [matchText_eq, matchWords_eq]
  refine hasWords_header hmatch rfl hsubject hws fun hlayout => ?_
  refine Layout.hasWords_header hlayout houter hcase rfl hpattern hps fun hlayout => ?_
  refine Layout.hasWords_deeper hlayout hinner rfl hpass fun hlayout => ?_
  exact Layout.hasWords_lineEnd hlayout fun hlayout => Layout.hasWords_end hlayout

end Layout

/-- A plain pattern reads back from its text as the only case of a match statement, whatever quote
is preferred: the parentheses and brackets that are written are those that the grammar needs. -/
theorem Pattern.ofSource_matchText [Unicode.CharacterNames] {p : Pattern} (h : p.IsPlain)
    {quote : Byte} (hquote : quote.isQuote) {subject : Expr} (hsubject : subject.IsDotted)
    {outer inner : Nat} (houter : 0 < outer) (hinner : outer < inner) :
    ∃ m, Module.ofSource .exec
        (matchText (subject.write quote .test) outer (p.write quote false) inner) = .ok m ∧
      m.bare = { (Module.empty .exec).bare with
        body := [.new (.matchBlock subject.bare [.mk .none p.bare none [.new .pass]])] } := by
  obtain ⟨ws, hspells, hdotted⟩ := hsubject.spells quote (p := .test)
  obtain ⟨ps, hpattern, hreads⟩ := (h.written hquote).alone
  have hexpression : Reads .expression ws subject.bare :=
    (hdotted.expression.reads (.inr rfl)).mono (Nat.zero_le _)
  exact (ReadsStmt.matchBlock hexpression hreads outer inner).ofSource
    (matchText_hasWords hspells hdotted.closes hpattern hreads.closes houter hinner)

/-- Alternatives with a name, one of them a sequence. -/
def Pattern.namedChoice : Pattern :=
  .new (.as (some (.new (.or [.new (.value (.new (.constant (.integer (text "1"))))),
    .new (.sequence [.new (.star none), .new (.as none (some (text "x")))])])))
    (some (text "y")))

/-- A mapping with a negative key. -/
def Pattern.negativeKey : Pattern :=
  .new (.mapping [(.new (.unary .minus (.new (.constant (.integer (text "1"))))),
    .new (.singleton .none))] (some (text "rest")))

/-- A pattern that is named twice. -/
def Pattern.namedTwice : Pattern :=
  .new (.as (some (.new (.as (some (.new (.as none (some (text "c"))))) (some (text "d")))))
    (some (text "e")))

/-- Alternatives that are named, keyed and within a class. -/
def Pattern.nestedChoice : Pattern :=
  .new (.or [namedChoice, negativeKey,
    .new (.record (.new (.attribute (.new (.name (text "a") .load)) (text "B") .load))
      [.new (.as none none)] [(text "k", namedTwice)])])

/-- A letter is a name other than an underscore. -/
theorem IsName.letter {b : Byte} (hb : b.isLetter) : IsName [b] ∧ [b] ≠ text "_" := by
  have hkeywords : ∀ x ∈ TokenKind.keywords, x.1.length ≠ 1 := by decide
  refine ⟨⟨⟨b, [], rfl, by simp [Byte.startsWord, hb], rfl⟩, fun x hx h => ?_⟩, ?_⟩
  · exact hkeywords x hx (congrArg List.length h)
  · rintro h
    obtain rfl := (List.cons.inj h).1
    cases hb

open scoped Unicode.NameTable in
/-- Parentheses stand around the named alternative and around the inner name, and nowhere else. -/
theorem Pattern.ofSource_matchText_nestedChoice :
    nestedChoice.write Byte.doubleQuote false =
        text "(1 | [*_, x] as y) | \x7b-1: None, **rest\x7d | a.B(_, k=(c as d) as e)" ∧
      ∃ m, Module.ofSource .exec (matchText (Expr.write Byte.doubleQuote .test
          (.new (.name (text "v") .load))) 2 (nestedChoice.write Byte.doubleQuote false) 4) =
          .ok m ∧
        m.bare = { (Module.empty .exec).bare with
          body := [.new (.matchBlock (Expr.new (.name (text "v") .load)).bare
            [.mk .none nestedChoice.bare none [.new .pass]])] } := by
  have hcapture : ∀ b : Byte, b.isLetter → (Pattern.new (.as none (some [b]))).IsPlain :=
    fun b hb => .capture _ (IsName.letter hb).1 (IsName.letter hb).2
  have hrest : IsName (text "rest") := ⟨⟨_, _, rfl, rfl, rfl⟩, by decide⟩
  have hone : Number.IsCanonical (text "1") := ⟨rfl, by decide, by decide⟩
  have hnamed : namedChoice.IsPlain := by
    refine .as _ (.or _ (Nat.le_refl 2) ?_) (IsName.letter rfl).1 (IsName.letter rfl).2
    refine List.forall_mem_cons.mpr ⟨.literal _ (.integer _ hone), List.forall_mem_singleton.mpr ?_⟩
    refine .sequence _ (fun span name h => ?_) ?_
    · simp [Pattern.new] at h
    · exact List.forall_mem_cons.mpr ⟨nofun, List.forall_mem_singleton.mpr fun _ => hcapture _ rfl⟩
  have hmapping : negativeKey.IsPlain := by
    refine .mapping _ (List.forall_mem_singleton.mpr (.literal (.negative _ _ hone)))
      (List.forall_mem_singleton.mpr (.singleton _ _)) fun name h => ?_
    obtain rfl := Option.some.inj h
    exact hrest
  have htwice : namedTwice.IsPlain :=
    .as _ (.as _ (hcapture _ rfl) (IsName.letter rfl).1 (IsName.letter rfl).2)
      (IsName.letter rfl).1 (IsName.letter rfl).2
  have hrecord : (Pattern.new (.record (.new (.attribute (.new (.name (text "a") .load)) (text "B")
      .load)) [.new (.as none none)] [(text "k", namedTwice)])).IsPlain :=
    .record _ (.attribute _ (.name _ (IsName.letter rfl).1) (IsName.letter rfl).1)
      (List.forall_mem_singleton.mpr (.wildcard _))
      (List.forall_mem_singleton.mpr (IsName.letter rfl).1) (List.forall_mem_singleton.mpr htwice)
  refine ⟨by decide, Pattern.ofSource_matchText ?_ rfl (.name _ (IsName.letter rfl).1)
    (by decide) (by decide)⟩
  exact .or _ (Nat.le_succ 2) (List.forall_mem_cons.mpr ⟨hnamed, List.forall_mem_cons.mpr
    ⟨hmapping, List.forall_mem_singleton.mpr hrecord⟩⟩)

end SyntaxTree
