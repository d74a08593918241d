import Mathlib.Data.List.Chain
import SyntaxTree.Proofs.Token.Run

/-
# Indentation in front of tokens

The indentation of a block stands in front of the first token of its first line.  Only a join can
take the place of that token, and the line may then end without one.  So indentation is followed by
a token of the source where every join continues a line that has a token.
-/

namespace SyntaxTree

/-- Behind each indentation stands a token of the source. -/
def AreFirm (tokens : List Token) : Prop :=
  tokens.IsChain fun t u => t.kind = .indent → u.kind.isProper

/-- Whether every join continues a line that has a token, as the first line has if `begun`. -/
def Lexeme.joinsContinue : (begun : Bool) → List Lexeme → Bool
  | _, [] => true
  | begun, lexeme :: rest =>
    match lexeme.kind with
    | .join => begun && joinsContinue begun rest
    | .token _ => joinsContinue true rest
    | .lineEnd => joinsContinue false rest
    | .blank | .comment => joinsContinue begun rest

/-! ## Firm lists -/

/-- Without indentation there is nothing to follow. -/
theorem areFirm_of_forall_ne {ts : List Token} (h : ∀ t ∈ ts, t.kind ≠ .indent) : AreFirm ts := by
  induction ts with
  | nil => exact .nil
  | cons t ts ih =>
    obtain ⟨ht, hts⟩ := List.forall_mem_cons.mp h
    exact List.isChain_cons.mpr ⟨fun _ _ hindent => absurd hindent ht, ih hts⟩

namespace AreFirm

variable {ts us : List Token} {t : Token}

theorem append (h : AreFirm ts) (h' : AreFirm us) (hlast : ∀ t ∈ ts.getLast?, t.kind ≠ .indent) :
    AreFirm (ts ++ us) :=
  List.isChain_append.mpr ⟨h, h', fun t ht _ _ hindent => absurd hindent (hlast t ht)⟩

/-- A token of the source may stand behind any tokens. -/
theorem concat (h : AreFirm ts) (ht : t.kind.isProper) : AreFirm (ts ++ [t]) := by
  refine List.isChain_append.mpr ⟨h, .singleton t, fun _ _ u hu _ => ?_⟩
  obtain rfl : t = u := by simpa using hu
  exact ht

end AreFirm

namespace Layout

theorem Opens.areFirm {layout opened : Layout} {emitted : List Token}
    (h : layout.Opens emitted opened) : AreFirm emitted := by
  cases h with
  | begun => exact .nil
  | deeper => exact .singleton _
  | shallower closed =>
    refine areFirm_of_forall_ne fun t ht => ?_
    obtain ⟨_, -, rfl⟩ := List.mem_map.mp ht
    exact TokenKind.noConfusion

theorem areFirm_finish (layout : Layout) : AreFirm layout.finish :=
  areFirm_of_forall_ne fun _ ht => ne_indent_of_mem_finish ht

/-- What a lexeme adds is firm and does not end with indentation, unless it is a join that begins a
line. -/
theorem Adds.areFirm {layout layout' : Layout} {lexeme : Lexeme} {emitted : List Token}
    (h : Adds false layout lexeme emitted layout')
    (hjoin : lexeme.kind = .join → layout.margin = none) :
    AreFirm emitted ∧ ∀ t ∈ emitted.getLast?, t.kind ≠ .indent := by
  have hnil : AreFirm [] ∧ ∀ t ∈ ([] : List Token).getLast?, t.kind ≠ .indent :=
    ⟨.nil, fun t ht => absurd ht (Option.not_mem_none t)⟩
  cases h with
  | blank => exact hnil
  | comment => exact hnil
  | lineEnd =>
    split
    · exact ⟨.singleton _, by simp⟩
    · exact hnil
  | innerEnd => exact hnil
  | join s hopens =>
    have hmargin := hjoin rfl
    cases hopens with
    | begun => exact hnil
    | deeper hsome | shallower _ _ hsome =>
      rw [hmargin] at hsome
      cases hsome
  | token s hproper hopens =>
    refine ⟨hopens.areFirm.concat hproper, fun t ht => ?_⟩
    rw [List.getLast?_concat, Option.mem_some_iff] at ht
    subst ht
    rintro rfl
    cases hproper

/-- The flag stays true as long as the line goes on, and so the line has no margin. -/
theorem Adds.exists_begun {layout layout' : Layout} {lexeme : Lexeme} {rest : List Lexeme}
    {emitted : List Token} {begun : Bool} (h : Adds false layout lexeme emitted layout')
    (hbegun : begun → layout.margin = none)
    (hjoins : Lexeme.joinsContinue begun (lexeme :: rest)) :
    (lexeme.kind = .join → layout.margin = none) ∧
      ∃ begun' : Bool, (begun' → layout'.margin = none) ∧ Lexeme.joinsContinue begun' rest := by
  rw [Lexeme.joinsContinue] at hjoins
  cases h with
  | blank => exact ⟨LexemeKind.noConfusion, begun, fun h => by simp [advance, hbegun h], hjoins⟩
  | comment => exact ⟨LexemeKind.noConfusion, begun, hbegun, hjoins⟩
  | lineEnd | innerEnd => exact ⟨LexemeKind.noConfusion, false, Bool.noConfusion, hjoins⟩
  | join s hopens =>
    obtain ⟨hbegins, hjoins⟩ := Bool.and_eq_true_iff.mp hjoins
    exact ⟨fun _ => hbegun hbegins, begun, fun _ => hopens.margin_eq_none, hjoins⟩
  | token s hproper hopens =>
    exact ⟨LexemeKind.noConfusion, true, fun _ => hopens.margin_eq_none, hjoins⟩

/-- The tokens of a text whose joins continue lines are firm, whatever firm tokens follow them. -/
theorem Run.areFirm {s : Bytes} {layout final : Layout} {body more : List Token} {begun : Bool}
    (h : Run false s layout body final) (hmore : AreFirm more)
    (hbegun : begun → layout.margin = none)
    (hjoins : Lexeme.joinsContinue begun (Division.ofBytes s).lexemes) :
    AreFirm (body ++ more) := by
  induction h generalizing begun with
  | nil => exact hmore
  | @cons b t rest kind layout layout' final emitted body hnext hadds hrest ih =>
    rw [List.cons_append, Division.ofBytes_append hnext] at hjoins
    obtain ⟨hjoin, begun', hbegun', hjoins'⟩ := hadds.exists_begun hbegun hjoins
    obtain ⟨hemitted, hlast⟩ := hadds.areFirm hjoin
    rw [List.append_assoc]
    exact hemitted.append (ih hbegun' hjoins') hlast

end Layout

/-- Where every join continues a line that has a token, tokens of the source stand behind the
indentation of blocks. -/
theorem areFirm_of_tokenize {source : Bytes} {tokens : List Token}
    (h : tokenize false source = .ok tokens)
    (hjoins : Lexeme.joinsContinue false (Division.ofBytes (dropMark source)).lexemes) :
    AreFirm tokens := by
  obtain ⟨body, final, rfl, hrun⟩ := exists_run_of_tokenize h
  exact hrun.areFirm final.areFirm_finish Bool.noConfusion hjoins

end SyntaxTree
