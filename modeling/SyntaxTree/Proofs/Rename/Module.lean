import SyntaxTree.Proofs.Grammar.Module
import SyntaxTree.Proofs.Rename.Statement
import SyntaxTree.Unicode.NameTable

/-
# Modules over renamed tokens

The soft keywords are names wherever they begin no statement of their own.  So a source without such
statements forms the same tree whatever names stand in place of the soft keywords, and a source with
one of them forms no tree then.
-/

namespace SyntaxTree

/-! ## Soft words -/

/-- The words that are keywords in some places and names in all others. -/
def softWords : List Bytes := [text "match", text "case", text "type", text "_"]

/-- A name, replaced by a fresh one if it is a soft word. -/
def replaceSoft (fresh : Bytes → Bytes) (name : Bytes) : Bytes :=
  if softWords.contains name then fresh name else name

section Fresh

variable {fresh : Bytes → Bytes} (hfresh : ∀ word ∈ softWords, fresh word ∉ softWords)

include hfresh

theorem replaceSoft_notMem (name : Bytes) : replaceSoft fresh name ∉ softWords := by
  unfold replaceSoft
  split
  · next h => exact hfresh name (List.contains_iff_mem.mp h)
  · next h => exact fun hmem => h (List.contains_iff_mem.mpr hmem)

theorem isHard_replaceSoft : IsHard (replaceSoft fresh) where
  ne_match name heq := replaceSoft_notMem hfresh name (heq ▸ by decide)
  ne_type name heq := replaceSoft_notMem hfresh name (heq ▸ by decide)
  star := if_neg (by decide)

end Fresh

/-! ## Renamed tokens -/

/-- The cursors in front of plain tokens and of the renamed ones. -/
theorem Cursor.alike_ofTokens (σ : Bytes → Bytes) (lines lines' : List Bytes) {tokens : List Token}
    (h : ∀ t ∈ tokens, t.IsPlain) :
    (ofTokens lines tokens).Alike σ (ofTokens lines' (tokens.map (Token.rename σ))) := by
  have hfilter : (tokens.map (Token.rename σ)).filter (·.kind ≠ .comment) =
      (tokens.filter (·.kind ≠ .comment)).map (Token.rename σ) := by
    rw [List.filter_map]
    simp only [Function.comp_def, Token.kind_rename]
  have hplain : ∀ t ∈ tokens.filter (·.kind ≠ .comment), t.IsPlain :=
    fun t ht => h t (List.mem_of_mem_filter ht)
  rw [ofTokens, ofTokens, hfilter]
  generalize tokens.filter (·.kind ≠ .comment) = kept at hplain
  have hempty (place : Position) : (Token.empty .endOfInput [] place).IsPlain :=
    Token.isPlain_of_kind rfl rfl
  rw [List.getLast?_map]
  cases hlast : kept.getLast? with
  | none => exact ⟨rfl, rfl, rfl, rfl, List.forall_mem_singleton.mpr (hempty _)⟩
  | some last =>
    simp only [Option.map_some, Token.kind_rename, Token.stop_rename]
    split
    · next hend =>
      refine ⟨rfl, List.map_dropLast.symm, rfl, hend, List.forall_mem_cons.mpr ⟨?_, ?_⟩⟩
      · exact hplain last (List.mem_of_getLast? hlast)
      · exact fun t ht => hplain t (List.dropLast_subset kept ht)
    · exact ⟨rfl, rfl, rfl, rfl, List.forall_mem_cons.mpr ⟨hempty _, hplain⟩⟩

/-! ## Whole modules -/

namespace Parse

variable {σ : Bytes → Bytes}

/-- At the end of the input there are no statements. -/
theorem moduleUpTo_nil (field : FieldReading) (limit : Nat) {c : Cursor}
    (h : c.peek.kind = .endOfInput) : moduleUpTo field limit c = .ok (Module.empty .exec) c := by
  have hend : at? .endOfInput c = .ok true c := by rw [at?_peek, h, beq_self_eq_true]
  have hbody : untilEnd (at? .endOfInput) (statementsUpTo (readUpTo field limit) field limit) c =
      .ok [] c := by
    have hcollect : ∀ step : Parse (Option (List Stmt)), step c = .ok none c →
        collect step c = .ok [] c := by
      intro step hstep
      show collectUpTo step (c.rest.length + 1) c = _
      rw [collectUpTo, bind_ok hstep]
      rfl
    rw [untilEnd, bind_ok (hcollect _ (by rw [bind_ok hend]; rfl))]
    rfl
  rw [moduleUpTo, bind_ok hbody]
  rfl

theorem Mirrors.moduleUpTo (hσ : IsHard σ) {limit : Nat} (hlimit : 1 < limit)
    {field field' : FieldReading} (hnames : field'.names = field.names) :
    Mirrors σ False anywhere (Becomes (Module.rename σ)) (fun m => m.isSoft = true)
      (Parse.moduleUpTo field limit) (Parse.moduleUpTo field' limit) := by
  have hstatements : Mirrors σ False anywhere (Becomes (List.map (Stmt.rename σ))) SoftStmts
      (Parse.statementsUpTo (readUpTo field limit) field limit)
      (Parse.statementsUpTo (readUpTo field' limit) field' limit) :=
    statementsUpTo hσ (readingMirrors_readUpTo σ True hnames limit)
      (stopsBehindName_readUpTo field hlimit) limit
  refine (untilEnd (atKind .endOfInput) hstatements).bindSoft ?_ fun body hbody => .pure hbody
  rintro body _ rfl hbody
  exact pure (by simp [Becomes, Module.rename, Module.empty]) hbody

/-- A module is read over renamed tokens like over the tokens themselves, unless a soft keyword
begins a statement. -/
theorem outcome_execModule [Unicode.CharacterNames] (hσ : IsHard σ) {c d : Cursor}
    (h : c.Alike σ d) :
    Outcome σ False c (Becomes (Module.rename σ)) (fun m => m.isSoft = true) (execModule c)
      (execModule d) := by
  obtain ⟨_, hc⟩ := exists_execModule_eq c
  obtain ⟨_, hd⟩ := exists_execModule_eq d
  rw [hc, hd, h.length_rest]
  by_cases hrest : c.rest = []
  · have hkind : c.peek.kind = .endOfInput := by rw [Cursor.peek, hrest]; exact h.ends
    have hkind' : d.peek.kind = .endOfInput := by rw [h.peek, Token.kind_rename, hkind]
    rw [moduleUpTo_nil _ _ hkind, moduleUpTo_nil _ _ hkind']
    exact .ok rfl (by decide) h False.elim
  · have hlimit : 1 < c.rest.length + 1 := Nat.succ_lt_succ (List.length_pos_iff.mpr hrest)
    refine Mirrors.moduleUpTo hσ hlimit ?_ h trivial
    rfl

end Parse

/-- The tokens of a source with other names in place of the soft words form a module exactly if
those of the source form one without match statements and type aliases, and then it is that module
with the names replaced. -/
theorem execModule_replaceSoft_iff [Unicode.CharacterNames] {keepComments : Bool} {source : Bytes}
    {tokens : List Token} {fresh : Bytes → Bytes}
    (htokens : tokenize keepComments source = .ok tokens)
    (hfstring : ∀ t ∈ tokens, t.kind ≠ .fstring)
    (hfresh : ∀ word ∈ softWords, fresh word ∉ softWords) (source' : Bytes) (renamed : Module) :
    Parse.execModule.ofTokens source' (tokens.map (Token.rename (replaceSoft fresh))) =
      .ok renamed ↔
      ∃ m, Parse.execModule.ofTokens source tokens = .ok m ∧ m.isSoft = false ∧
        m.rename (replaceSoft fresh) = renamed := by
  have hplain (t : Token) (ht : t ∈ tokens) : t.IsPlain :=
    isPlain_of_tokenize htokens t ht (hfstring t ht)
  have houtcome := Parse.outcome_execModule (isHard_replaceSoft hfresh)
    (Cursor.alike_ofTokens _ (Bytes.lines source) (Bytes.lines source') hplain)
  simp only [Parse.ofTokens_eq_ok]
  constructor
  · rintro ⟨d, hd⟩
    rw [hd] at houtcome
    generalize Parse.execModule _ = r at houtcome ⊢
    cases houtcome with
    | ok hab hsoft => exact ⟨_, ⟨_, rfl⟩, Bool.eq_false_iff.mpr hsoft, hab⟩
  · rintro ⟨m, ⟨c, hc⟩, hsoft, rfl⟩
    rw [hc] at houtcome
    generalize Parse.execModule _ = r at houtcome ⊢
    cases houtcome with
    | ok hab =>
      obtain rfl := hab
      exact ⟨_, rfl⟩
    | soft h => exact absurd h (by simp [hsoft])

open scoped Unicode.NameTable in
/-- The words in an annotation, in a subscript and in a call. -/
theorem execModule_replaceSoft_iff_annotation :
    ∃ tokens m, tokenize false (text "match[_]: type = case(_)\n") = .ok tokens ∧
      Parse.execModule.ofTokens (text "match[_]: type = case(_)\n") tokens = .ok m ∧
      Parse.execModule.ofTokens [] (tokens.map (Token.rename (replaceSoft (text "x" ++ ·)))) =
        .ok (m.rename (replaceSoft (text "x" ++ ·))) := by
  obtain ⟨tokens, htokens, hchecks⟩ := exists_of_map_eq_ok
    (f := fun tokens : List Token => (tokens.all (·.kind ≠ .fstring),
      (Parse.execModule.ofTokens (text "match[_]: type = case(_)\n") tokens).map Module.isSoft))
    (show (tokenize false (text "match[_]: type = case(_)\n")).map _ = .ok (true, .ok false) by
      decide +kernel)
  obtain ⟨hfstring, hsoft⟩ := Prod.mk.inj hchecks
  have hall (t : Token) (ht : t ∈ tokens) : t.kind ≠ .fstring :=
    of_decide_eq_true (List.all_eq_true.mp hfstring t ht)
  obtain ⟨m, hread, hsoft⟩ := exists_of_map_eq_ok hsoft
  exact ⟨tokens, m, htokens, hread,
    (execModule_replaceSoft_iff htokens hall (by decide) [] _).mpr ⟨m, hread, hsoft, rfl⟩⟩

end SyntaxTree
