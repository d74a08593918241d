import SyntaxTree.Proofs.Build.Reading
import SyntaxTree.Proofs.Build.Target
import SyntaxTree.Proofs.Rename.Phrase

/-
# What phrases build

Each phrase of an expression builds well-formed parts if the expressions within it are well formed.
-/

namespace SyntaxTree.Parse

variable {α β : Type}

/-! ## Drafts -/

/-- The parameters that have been read lie between two places, and no default is without its
parameter. -/
structure ParameterDraft.IsBuilt (lo hi : Position) (draft : ParameterDraft) : Prop where
  positionalOnly : ∀ p ∈ draft.positionalOnly, (Node.parameter p).Within .load lo hi
  positional : ∀ p ∈ draft.positional, (Node.parameter p).Within .load lo hi
  variadic : ∀ p ∈ draft.variadic, (Node.parameter p).Within .load lo hi
  keywordOnly : ∀ p ∈ draft.keywordOnly.left, (Node.parameter p).Within .load lo hi
  keywordDefaults : ∀ default ∈ draft.keywordOnly.right, ∀ e ∈ default,
    (Node.expr e).Within .load lo hi
  variadicKeyword : ∀ p ∈ draft.variadicKeyword, (Node.parameter p).Within .load lo hi
  defaults : ∀ e ∈ draft.defaults, (Node.expr e).Within .load lo hi
  count : draft.defaults.length ≤ draft.positionalOnly.length + draft.positional.length

theorem ParameterDraft.IsBuilt.empty (lo hi : Position) : ParameterDraft.empty.IsBuilt lo hi where
  positionalOnly := nofun
  positional := nofun
  variadic := nofun
  keywordOnly := nofun
  keywordDefaults := nofun
  variadicKeyword := nofun
  defaults := nofun
  count := Nat.le_refl 0

/-- The parameters of a draft lie where the draft does. -/
theorem ParameterDraft.IsBuilt.within {lo hi : Position} {draft : ParameterDraft}
    (h : draft.IsBuilt lo hi) : (Node.parameters draft.parameters).Within .load lo hi := by
  have hrows := Columns.forall_rows h.keywordOnly h.keywordDefaults
  refine Node.Fits.within ⟨⟨h.count, by simp⟩, nofun, ?_⟩ rfl (.inl rfl)
  simp only [Node.links, Parameters.links, ParameterDraft.parameters, Link.allHold_append,
    Link.allHold_each, Link.holds_part, List.mem_append, List.mem_map, List.mem_filterMap,
    Option.mem_toList]
  refine ⟨fun p hp => ?_, fun e he => ?_⟩
  · rcases hp with (((hp | hp) | hp) | ⟨_, ⟨row, hrow, rfl⟩, rfl⟩) | hp
    · exact h.positionalOnly p hp
    · exact h.positional p hp
    · exact h.variadic p hp
    · exact (hrows row hrow).1
    · exact h.variadicKeyword p hp
  · rcases he with he | ⟨_, ⟨row, hrow, rfl⟩, he⟩
    · exact h.defaults e he
    · exact (hrows row hrow).2 e he

/-- The keys and the values that have been read lie between two places. -/
structure DictDraft.IsBuilt (lo hi : Position) (draft : DictDraft) : Prop where
  keys : ∀ key ∈ draft.left, ∀ e ∈ key, (Node.expr e).Within .load lo hi
  values : ∀ e ∈ draft.right, (Node.expr e).Within .load lo hi

theorem DictDraft.IsBuilt.empty (lo hi : Position) : DictDraft.IsBuilt lo hi .empty where
  keys := nofun
  values := nofun

theorem DictDraft.IsBuilt.add {lo hi : Position} {draft : DictDraft} (h : draft.IsBuilt lo hi)
    {key : Option Expr} (hkey : ∀ e ∈ key, (Node.expr e).Within .load lo hi) {value : Expr}
    (hvalue : (Node.expr value).Within .load lo hi) :
    DictDraft.IsBuilt lo hi ((draft.addLeft key).addRight value) where
  keys := forall_mem_concat h.keys hkey
  values := forall_mem_concat h.values hvalue

/-- The items of a draft lie where the draft does. -/
theorem DictDraft.IsBuilt.items {lo hi : Position} {draft : DictDraft} (h : draft.IsBuilt lo hi) :
    ∀ item ∈ draft.items, Link.AllHold .load (some ⟨lo, hi⟩) item.links := by
  refine List.forall_mem_map.mpr fun row hrow => ?_
  obtain ⟨hkey, hvalue⟩ := Columns.forall_rows h.keys h.values row hrow
  obtain ⟨key, value⟩ := row
  cases key with
  | some key => simpa using ⟨hkey key rfl, hvalue⟩
  | none => simpa using hvalue

/-- The arguments that have been read lie between two places. -/
structure ArgumentDraft.IsBuilt (lo hi : Position) (draft : ArgumentDraft) : Prop where
  positional : ∀ e ∈ draft.positional, (Node.expr e).Within .load lo hi
  keywords : ∀ k ∈ draft.keywords, (Node.keyword k).Within .load lo hi

namespace Builds

variable {known : Position → Prop} {pre : Token → Prop} {lo start : Position} {read : Reading}
  {P : Position → α → Prop} {Q : Position → β → Prop}

/-! ## Items and commas -/

section Items

variable {stops : Parse Bool} {item : Parse α}

/-- An item that is read behind a word. -/
theorem behind (word : TokenKind) (h : Builds known anywhere lo item P) :
    Builds known pre lo (Parse.accept word >>= fun b =>
      if b then item >>= fun a => Pure.pure (some a) else Pure.pure none)
      fun hi o => ∀ a ∈ o, P hi a :=
  ifAccept word h.found notFound

/-- Where the word stands there is at least one such item. -/
theorem collectBehind (word : TokenKind) (h : Builds known anywhere lo item P) :
    Builds known (fun t => t.kind = word) lo (Parse.collect (Parse.accept word >>= fun b =>
      if b then item >>= fun a => Pure.pure (some a) else Pure.pure none))
      fun hi as => as ≠ [] ∧ ∀ a ∈ as, P hi a := by
  intro c as c' hc hpre hrun
  have hcollect : Builds known anywhere lo _ _ := collect (behind word h)
  obtain ⟨hmove, has⟩ := hcollect hc trivial hrun
  refine ⟨hmove, fun hi hhi => ⟨collect_ne_nil (fun c' hnone => ?_) hrun, has hi hhi⟩⟩
  rw [Mirrors.accept_bind, bind_ok (at?_peek word c), if_pos (beq_iff_eq.mpr hpre)] at hnone
  obtain ⟨t, c₁, -, hitem⟩ := exists_of_bind_eq_ok hnone
  obtain ⟨a, c₂, -, ha⟩ := exists_of_bind_eq_ok hitem
  cases ha

theorem moreItems (hstops : Looks stops) (h : Builds known anywhere lo item P) :
    Builds known pre lo (Parse.moreItems stops item) fun hi as => ∀ a ∈ as, P hi a :=
  collect (ifAccept .comma (test hstops notFound h.found) notFound)

theorem itemsUntil (close : TokenKind) (h : Builds known anywhere lo item P) :
    Builds known pre lo (Parse.itemsUntil close item) fun hi as => ∀ a ∈ as, P hi a := by
  refine ifAt close (pure fun _ _ => List.forall_mem_nil _) (h.at_any.bind fun first => ?_)
  have hrest : Builds known anywhere lo _ _ := moreItems (Looks.at? close) h
  refine (hrest.knowing fun _ => And.left).bind fun rest => pure fun hi hknown => ?_
  exact List.forall_mem_cons.mpr ⟨hknown.1.2, hknown.2⟩

theorem skipNewlines : Builds known pre lo Parse.skipNewlines whatever :=
  (collect (P := whatever) (ifAccept .newline (pure fun _ _ _ _ => trivial)
    notFound)).andThen fun _ => pure fun _ _ => trivial

end Items

theorem tupleOf {stops : Parse Bool} {item : Parse Expr} (hstops : Looks stops)
    (h : BuildsExpr item) : BuildsExpr (Parse.tupleOf stops item) := by
  intro known pre lo
  refine h.first fun first hlo => ifAt .comma ?_ (pure fun hi hfirst => hfirst.behind hlo)
  refine (moreItems hstops h.within).bind fun rest => exprFrom hlo fun hi ⟨hfirst, hrest⟩ => ?_
  exact ⟨hfirst.start_le, by simpa using ⟨hfirst.within, hrest⟩⟩

/-! ## Stars and names -/

/-- A name stands where its token begins. -/
theorem nameOf {t : Token} (context : Context) (hlo : lo ≤ t.start)
    (h : ∀ hi, known hi → t.start ≤ hi) :
    Builds known pre t.start (Parse.nameOf t context) fun hi e =>
      e.Stands context lo hi ∧ e.isPlace :=
  (spanFrom context (fun span => .expr (.node span (.name t.text context))) (fun _ => rfl) hlo
    fun hi hknown => ⟨h hi hknown, by simp⟩).bind fun _ => pure fun _ hknown => ⟨hknown.2, rfl⟩

section Stars

variable (h : ReadingBuilds read)

include h

theorem starredOr {plain : Parse Expr} (hplain : BuildsExpr plain) :
    BuildsExpr (Parse.starredOr read plain) := by
  intro known pre lo
  refine ifAt .star (next (proper rfl) fun t _ hlo => ?_) hplain.builds
  refine (h .operand).bind fun value => exprFrom hlo fun hi ⟨hstart, hvalue⟩ => ?_
  exact ⟨hstart, by simpa using hvalue.within⟩

theorem namedExpression : BuildsExpr (Parse.namedExpression read) := by
  intro known pre lo
  refine ifPair rfl (fun t _ hlo => ?_) (h .expression).builds
  refine (nameOf .store (Position.le_refl _) fun _ => And.right).bind fun target => ?_
  refine (h .expression).bind fun value => exprFrom hlo ?_
  rintro hi ⟨⟨⟨-, hstart⟩, htarget, hplace⟩, hvalue⟩
  exact ⟨hstart, by simpa using ⟨⟨hplace, htarget.within⟩, hvalue.within⟩⟩

theorem starExpression : BuildsExpr (Parse.starExpression read) := starredOr h (h .expression)

theorem starNamed : BuildsExpr (Parse.starNamed read) := starredOr h (namedExpression h)

theorem starExpressions : BuildsExpr (Parse.starExpressions read) :=
  tupleOf Looks.startsNoItem (starExpression h)

theorem starTarget : BuildsExpr (Parse.starTarget read) := starredOr h (h .operand)

end Stars

/-! ## Targets -/

theorem storeTarget {e : Expr} (h : ∀ hi, known hi → e.Stands .load lo hi) :
    Builds known pre start (Parse.storeTarget e) fun hi e' =>
      e'.Stands .store lo hi ∧ e'.IsTarget false false := by
  unfold Parse.storeTarget
  split
  · exact failAtSpan ..
  · next hfault =>
    have htarget := Expr.isTarget_of_targetFault? e hfault
    exact pure fun hi hknown =>
      ⟨(h hi hknown).withContext htarget .store, htarget.withContext .store⟩

theorem deleteTarget {e : Expr} (h : ∀ hi, known hi → e.Stands .load lo hi) :
    Builds known pre start (Parse.deleteTarget e) fun hi e' =>
      e'.Stands .delete lo hi ∧ e'.IsTarget true false := by
  unfold Parse.deleteTarget
  split
  · exact failAtSpan ..
  · next hfault =>
    have htarget := Expr.isTarget_of_targetFault? e hfault
    exact pure fun hi hknown =>
      ⟨(h hi hknown).withContext htarget .delete, htarget.withContext .delete⟩

theorem placeTarget {e : Expr} {cause : SyntaxCause}
    (h : ∀ hi, known hi → e.Stands .load lo hi) :
    Builds known pre start
      (if e.isPlace then Pure.pure (e.withContext .store) else Parse.failAtSpan cause e.span)
      fun hi e' => e'.Stands .store lo hi ∧ e'.isPlace :=
  ite (fun hplace => pure fun hi hknown => by
    have htarget : e.IsTarget false false := .place hplace
    exact ⟨(h hi hknown).withContext htarget .store, by simpa using hplace⟩) fun _ => failAtSpan ..

section Phrases

variable (h : ReadingBuilds read)

include h

theorem starTargets :
    Builds known pre lo (Parse.starTargets read) fun hi e =>
      e.Stands .store lo hi ∧ e.IsTarget false false :=
  (tupleOf Looks.startsNoItem (starTarget h)).bind fun _ => storeTarget fun _ => And.right

/-! ## Yields -/

theorem yieldExpr :
    Builds known (fun t => t.kind = .kwYield) lo (Parse.yieldExpr read) (Expr.Stands .load lo) := by
  refine next (proper rfl) fun t _ hlo => ifAccept .kwFrom ?_ (test Looks.startsStarred ?_ ?_)
  · refine (h .expression).bind fun value => exprFrom hlo fun hi ⟨hstart, hvalue⟩ => ?_
    exact ⟨hstart, by simpa using hvalue.within⟩
  · refine (starExpressions h).bind fun value => exprFrom hlo fun hi ⟨hstart, hvalue⟩ => ?_
    exact ⟨hstart, by simpa using hvalue.within⟩
  · exact exprFrom hlo fun hi hstart => ⟨hstart, by simp⟩

theorem yieldOrExpressions : BuildsExpr (Parse.yieldOrExpressions read) :=
  fun _ _ _ => ifAt .kwYield (yieldExpr h) (starExpressions h).builds

/-! ## Comprehensions -/

theorem clauseBehind (isAsync : Bool) (hlo : lo ≤ start) :
    Builds (start ≤ ·) pre start (Parse.clauseBehind read start isAsync) fun hi clause =>
      (Node.comprehension clause).Stands .load lo hi := by
  refine (starTargets h).bind fun target => (expect _ rfl).andThen fun _ => ?_
  refine (h .disjunction).bind fun iterable => ?_
  refine (collect (behind .kwIf (h .disjunction).within)).bind fun conditions => ?_
  refine nodeFrom (fun span => .mk span target iterable conditions isAsync) .comprehension
    (fun _ => rfl) hlo ?_
  rintro hi ⟨⟨⟨hstart, htarget, hshape⟩, hiterable⟩, hconditions⟩
  exact ⟨hstart, by simpa using ⟨⟨hshape, htarget.within⟩, hiterable.within, hconditions⟩⟩

theorem clauses :
    Builds known pre lo (Parse.clauses read) fun hi clauses =>
      ∀ clause ∈ clauses, (Node.comprehension clause).Within .load lo hi := by
  have hsome {t : Token} (isAsync : Bool) (hlo : lo ≤ t.start) :
      Builds (t.start ≤ ·) anywhere t.start
        (some <$> Parse.clauseBehind read t.start isAsync)
        fun hi o => ∀ clause ∈ o, (Node.comprehension clause).Within .load lo hi :=
    ((clauseBehind h isAsync hlo).imp fun _ _ hclause => hclause.within).someOf
  refine collect ?_
  rw [furtherClause_eq]
  exact ifAt .kwFor (next (proper rfl) fun t _ hlo => hsome false hlo)
    (ifPair rfl (fun t _ hlo => (hsome true hlo).knowing fun _ => And.right)
      notFound)

omit h in
/-- Where a clause begins there is one. -/
theorem clauses_ne_nil {c c' : Cursor} {cs : List Comprehension}
    (hstarts : startsClause c = .ok true c) (hrun : Parse.clauses read c = .ok cs c') :
    cs ≠ [] := by
  refine collect_ne_nil (fun c' hnone => ?_) hrun
  rw [bind_ok hstarts, if_pos rfl] at hnone
  obtain ⟨clause, c₁, -, h⟩ := exists_of_bind_eq_ok hnone
  cases h

/-- Clauses are read where one begins. -/
theorem ifClauses {k : List Comprehension → Parse β} {p' : Parse β}
    (hk : ∀ cs, cs ≠ [] → Builds (fun hi => known hi ∧
      ∀ clause ∈ cs, (Node.comprehension clause).Within .load lo hi) anywhere lo (k cs) Q)
    (h' : Builds known pre lo p' Q) :
    Builds known pre lo
      (startsClause >>= fun b => if b then Parse.clauses read >>= k else p') Q := by
  intro c b c' hc hpre hrun
  obtain ⟨starts, hstarts⟩ := Looks.startsClause c
  rw [bind_ok hstarts] at hrun
  cases starts with
  | false => exact h' hc hpre hrun
  | true =>
    obtain ⟨cs, c₁, hclauses, hrest⟩ := exists_of_bind_eq_ok hrun
    obtain ⟨hmove, hcs⟩ := clauses h hc hpre hclauses
    obtain ⟨hmove', hb⟩ := hk cs (clauses_ne_nil hstarts hclauses)
      ((hc.move hmove).and hcs) trivial hrest
    exact ⟨hmove.trans hmove', hb⟩

/-! ## Parameters -/

omit h in
theorem parameterHint (annotated : Bool) {value : Parse Expr} (hvalue : BuildsExpr value) :
    Builds known pre lo (Parse.parameterHint annotated value) fun hi o =>
      ∀ e ∈ o, (Node.expr e).Within .load lo hi :=
  ite (fun _ => behind .colon hvalue.within) fun _ => notFound

theorem parameter (annotated starHint : Bool) :
    Builds known pre lo (Parse.parameter read annotated starHint) fun hi p =>
      (Node.parameter p).Within .load lo hi := by
  have hvalue : BuildsExpr (if starHint then Parse.starExpression read else read .expression) := by
    split
    · exact starExpression h
    · exact h .expression
  refine nameFirst fun t hlo => (parameterHint annotated hvalue).bind fun hint => ?_
  refine (nodeFrom (fun span => .mk span t.text hint) .parameter (fun _ => rfl) hlo ?_).imp
    fun _ _ hp => hp.within
  exact fun hi ⟨hstart, hhint⟩ => ⟨hstart, by simpa using hhint⟩

omit h in
theorem slashParameter (draft : ParameterDraft) :
    Builds (fun hi => draft.IsBuilt lo hi) pre lo (Parse.slashParameter draft) fun hi draft =>
      draft.IsBuilt lo hi := by
  refine skip fun slash _ => ite (fun _ => failAtToken ..) fun hnone => ?_
  refine ite (fun _ => failAtToken ..) fun _ => ite (fun _ => failAtToken ..) fun _ => ?_
  -- What was positional so far becomes positional only, with the defaults it has.
  refine pure fun hi hdraft => { hdraft with
    positionalOnly := hdraft.positional, positional := nofun, count := ?_ }
  have hcount := hdraft.count
  rw [Classical.not_not.mp hnone, Nat.zero_add] at hcount
  exact hcount

theorem starParameter (annotated : Bool) (draft : ParameterDraft) :
    Builds (fun hi => draft.IsBuilt lo hi) pre lo (Parse.starParameter read annotated draft)
      fun hi draft => draft.IsBuilt lo hi := by
  refine skip fun star _ => ite (fun _ => failAtToken ..) fun _ => ifAt .identifier ?_ ?_
  · refine (parameter h annotated true).bind fun variadic => ifAt .equal (failHere _) (pure ?_)
    rintro hi ⟨hdraft, hvariadic⟩
    exact { hdraft with variadic := by rintro _ ⟨⟩; exact hvariadic }
  · exact pure fun hi hdraft => { hdraft with }

theorem keywordsParameter (annotated : Bool) (draft : ParameterDraft) :
    Builds (fun hi => draft.IsBuilt lo hi) pre lo (Parse.keywordsParameter read annotated draft)
      fun hi draft => draft.IsBuilt lo hi := by
  refine skip fun _ _ => (parameter h annotated false).bind fun variadic => ?_
  refine ifAt .equal (failHere _) (pure ?_)
  rintro hi ⟨hdraft, hvariadic⟩
  exact { hdraft with variadicKeyword := by rintro _ ⟨⟩; exact hvariadic }

theorem plainParameter (annotated : Bool) (draft : ParameterDraft) :
    Builds (fun hi => draft.IsBuilt lo hi) pre lo (Parse.plainParameter read annotated draft)
      fun hi draft => draft.IsBuilt lo hi := by
  refine (parameter h annotated false).bind fun p => ?_
  obtain ⟨span, name, hint⟩ := p
  refine optionally (accept .equal) (h .expression).within fun default => ?_
  -- Behind a star a default has the slot of its parameter, in front of one it is counted.
  refine ite (fun _ => pure ?_) fun _ => ?_
  · rintro hi ⟨⟨hdraft, hparameter⟩, hdefault⟩
    refine { hdraft with keywordOnly := ?_, keywordDefaults := ?_ }
    · exact forall_mem_concat hdraft.keywordOnly hparameter
    · exact forall_mem_concat hdraft.keywordDefaults hdefault
  cases default with
  | some value =>
    refine pure ?_
    rintro hi ⟨⟨hdraft, hparameter⟩, hdefault⟩
    refine { hdraft with positional := ?_, defaults := ?_, count := ?_ }
    · exact forall_mem_concat hdraft.positional hparameter
    · exact forall_mem_concat hdraft.defaults (hdefault value rfl)
    · have hcount := hdraft.count
      simp only [List.length_append, List.length_singleton]
      omega
  | none =>
    refine ite (fun _ => failAtSpan ..) fun _ => pure ?_
    rintro hi ⟨⟨hdraft, hparameter⟩, -⟩
    refine { hdraft with positional := ?_, count := ?_ }
    · exact forall_mem_concat hdraft.positional hparameter
    · have hcount := hdraft.count
      simp only [List.length_append, List.length_singleton]
      omega

theorem addParameter (annotated : Bool) (draft : ParameterDraft) :
    Builds (fun hi => draft.IsBuilt lo hi) pre lo (Parse.addParameter read annotated draft)
      fun hi draft => draft.IsBuilt lo hi := by
  refine ite (fun _ => failHere _) fun _ => kind fun t _ => ?_
  split
  · exact slashParameter draft
  · exact keywordsParameter h annotated draft
  · exact starParameter h annotated draft
  · exact plainParameter h annotated draft

theorem parameterStep (close : TokenKind) (annotated : Bool) (draft : ParameterDraft) :
    Builds (fun hi => draft.IsBuilt lo hi) pre lo (Parse.parameterStep read close annotated draft)
      fun hi r => r.value.IsBuilt lo hi := by
  refine ifAt close (pure fun _ => id) ((addParameter h annotated draft).bind fun draft => ?_)
  exact ifAccept .comma (pure fun _ => And.right) (pure fun _ => And.right)

theorem parameters (close : TokenKind) (annotated : Bool) :
    Builds known pre lo (Parse.parameters read close annotated) fun hi parameters =>
      (Node.parameters parameters).Within .load lo hi := by
  refine (iterate (fun hi _ => ParameterDraft.IsBuilt.empty lo hi)
    (parameterStep h close annotated)).bind fun draft => ?_
  split
  · exact ite (fun _ => failAtToken ..) fun _ => pure fun _ hdraft => hdraft.2.within
  · exact pure fun _ hdraft => hdraft.2.within

theorem lambda :
    Builds known (fun t => t.kind = .kwLambda) lo (Parse.lambda read) (Expr.Stands .load lo) := by
  refine next (proper rfl) fun t _ hlo => (parameters h .colon false).bind fun parameters => ?_
  refine (expect _ rfl).andThen fun _ => (h .expression).bind fun body => exprFrom hlo ?_
  rintro hi ⟨⟨hstart, hparameters⟩, hbody⟩
  exact ⟨hstart, by simpa using ⟨hparameters, hbody.within⟩⟩

/-! ## Arguments -/

theorem plainArgument : BuildsExpr (Parse.plainArgument read) := by
  intro known pre lo
  refine (namedExpression h).first fun value hlo => ifClauses h (fun cs hcs => exprFrom hlo ?_)
    (pure fun hi hvalue => hvalue.behind hlo)
  exact fun hi ⟨hvalue, hclauses⟩ =>
    ⟨hvalue.start_le, by simpa using ⟨hcs, hvalue.within, hclauses⟩⟩

omit h in
theorem keywordFrom {value : Expr} (name : Option Bytes) (hlo : lo ≤ start)
    (hvalue : ∀ hi, known hi → value.Stands .load start hi) :
    Builds known pre start (Parse.spanFrom start) fun hi span =>
      (Node.keyword (.mk span name value)).Within .load lo hi :=
  (spanFrom .load (fun span => .keyword (.mk span name value)) (fun _ => rfl) hlo
    fun hi hknown => ⟨(hvalue hi hknown).le, by simpa using (hvalue hi hknown).within⟩).imp
      fun _ _ hk => hk.within

theorem addArgument (draft : ArgumentDraft) :
    Builds (fun hi => draft.IsBuilt lo hi) pre lo (Parse.addArgument read draft) fun hi draft =>
      draft.IsBuilt lo hi := by
  -- The arguments so far may begin in front of this one.
  have hpositional {e : Expr} {hi : Position} (hdraft : draft.IsBuilt lo hi)
      (he : (Node.expr e).Within .load lo hi) :
      ArgumentDraft.IsBuilt lo hi ⟨draft.positional ++ [e], draft.keywords⟩ :=
    ⟨forall_mem_concat hdraft.positional he, hdraft.keywords⟩
  have hkeyword {k : Keyword} {hi : Position} (hdraft : draft.IsBuilt lo hi)
      (hk : (Node.keyword k).Within .load lo hi) :
      ArgumentDraft.IsBuilt lo hi ⟨draft.positional, draft.keywords ++ [k]⟩ :=
    ⟨hdraft.positional, forall_mem_concat hdraft.keywords hk⟩
  refine peek fun start _ hlo => ?_
  refine ifAccept .star ?starred (ifAccept .doubleStar ?unpacked (ifPair rfl ?named ?plain))
  case starred =>
    refine ite (fun _ => failAtToken ..) fun _ => (h .expression).bind fun value => ?_
    refine (exprFrom hlo fun hi hknown => ⟨hknown.2.le, by simpa using hknown.2.within⟩).bind
      fun e => pure ?_
    exact fun hi ⟨⟨hdraft, _⟩, he⟩ => hpositional hdraft he.within
  case unpacked =>
    refine (h .expression).bind fun value => (keywordFrom none hlo fun _ => And.right).bind
      fun span => pure ?_
    exact fun hi ⟨⟨hdraft, _⟩, hk⟩ => hkeyword hdraft hk
  case named =>
    rintro t rfl -
    refine (h .expression).bind fun value =>
      (keywordFrom (some t.text) hlo fun _ => And.right).bind fun span => pure ?_
    exact fun hi ⟨⟨⟨hdraft, _⟩, _⟩, hk⟩ => hkeyword hdraft hk
  case plain =>
    refine (plainArgument h).bind fun value => ?_
    refine ite (fun _ => failAtSpan ..) fun _ => ite (fun _ => failAtSpan ..) fun _ => pure ?_
    exact fun hi ⟨hdraft, hvalue⟩ => hpositional hdraft (hvalue.behind hlo).within

theorem argumentStep (draft : ArgumentDraft) :
    Builds (fun hi => draft.IsBuilt lo hi) pre lo (Parse.argumentStep read draft) fun hi r =>
      r.value.IsBuilt lo hi := by
  refine ifAt .closeParen (pure fun _ => id) ((addArgument h draft).bind fun draft => ?_)
  exact ifAccept .comma (pure fun _ => And.right) (pure fun _ => And.right)

theorem arguments :
    Builds known pre lo (Parse.arguments read) fun hi draft => draft.IsBuilt lo hi ∧ lo ≤ hi := by
  refine (iterate (fun hi _ => ⟨nofun, nofun⟩) (argumentStep h)).bind fun draft => ?_
  exact (expect _ rfl).bind fun _ => pure fun hi hknown => ⟨hknown.1.2, hknown.2⟩

/-! ## Subscripts -/

theorem sliceBehind {lower upper : Option Expr} (hlo : lo ≤ start)
    (hknown : ∀ hi, known hi → start ≤ hi ∧ (∀ e ∈ lower, (Node.expr e).Within .load start hi) ∧
      ∀ e ∈ upper, (Node.expr e).Within .load start hi) :
    Builds known pre start (Parse.sliceBehind read start lower upper) (Expr.Stands .load lo) := by
  have hshape (step : Option Expr) : Builds
      (fun hi => known hi ∧ ∀ e ∈ step, (Node.expr e).Within .load start hi) anywhere start
      (Parse.exprFrom start (.slice lower upper step)) (Expr.Stands .load lo) := by
    refine exprFrom hlo fun hi ⟨hi', hstep⟩ => ?_
    obtain ⟨hstart, hlower, hupper⟩ := hknown hi hi'
    suffices hparts : ∀ e, lower = some e ∨ upper = some e ∨ step = some e →
        (Node.expr e).Within .load start hi from ⟨hstart, by simpa using hparts⟩
    rintro e (he | he | he)
    · exact hlower e he
    · exact hupper e he
    · exact hstep e he
  refine ifAccept .colon (look (Looks.at? _) fun _ => look (Looks.at? _) fun _ =>
    ite (fun _ => absent hshape) fun _ => present (h .expression).within hshape) (absent hshape)

theorem sliceFrom {lower : Option Expr} (hlo : lo ≤ start)
    (hlower : ∀ hi, known hi → ∀ e ∈ lower, (Node.expr e).Within .load start hi) :
    Builds known (fun t => t.kind = .colon) start (Parse.sliceFrom read start lower)
      (Expr.Stands .load lo) := by
  refine (nextToken (proper rfl)).bind fun _ => test Looks.endsSlicePart ?_ ?_
  · refine (sliceBehind h hlo fun hi hknown => ?_).at_any
    exact ⟨Position.le_trans hknown.2.2.1 hknown.2.2.2, hlower hi hknown.1, nofun⟩
  · refine present (h .expression).within fun upper => sliceBehind h hlo fun hi hknown => ?_
    obtain ⟨⟨hlow, -, hle, hle'⟩, hupper⟩ := hknown
    exact ⟨Position.le_trans hle hle', hlower hi hlow, hupper⟩

theorem sliceOrIndex : BuildsExpr (Parse.sliceOrIndex read) := by
  intro known pre lo
  refine peek fun start _ hlo => ite (fun _ => ?_) fun _ => ite (fun hcolon => ?_) fun _ => ?_
  · exact (starExpression h).builds.imp fun _ _ he => he.behind hlo
  · exact (sliceFrom h hlo fun _ _ _ he => absurd he (by simp)).at_token hcolon
  · refine (namedExpression h).bind fun lower => ifAt .colon (sliceFrom h hlo ?_) (pure ?_)
    · rintro hi ⟨-, hlower⟩ _ ⟨⟩
      exact hlower.within
    · exact fun hi hknown => hknown.2.behind hlo

theorem slices : BuildsExpr (Parse.slices read) := tupleOf (Looks.at? _) (sliceOrIndex h)

/-! ## Displays -/

theorem parenthesized (hlo : lo ≤ start) :
    Builds (start ≤ ·) pre start (Parse.parenthesized read start) (Expr.Stands .load lo) := by
  refine ifAccept .closeParen ?_ (ifAt .kwYield ?_ ((starNamed h).bind fun first => ?_))
  · exact exprFrom hlo fun hi hstart => ⟨hstart, by simp⟩
  · refine (yieldExpr h).bind fun value => (expect _ rfl).andThen fun _ => pure ?_
    exact fun hi hknown => hknown.2.behind hlo
  refine ifClauses h (fun cs hcs => ?_) (ifAccept .closeParen ?_ ?_)
  · refine (expect _ rfl).andThen fun _ => exprFrom hlo ?_
    exact fun hi ⟨⟨hstart, hfirst⟩, hclauses⟩ =>
      ⟨hstart, by simpa using ⟨hcs, hfirst.within, hclauses⟩⟩
  · exact ite (fun _ => failAtSpan ..) fun _ => pure fun hi hknown => hknown.2.behind hlo
  · refine (moreItems (Looks.at? _) (starNamed h).within).bind fun rest => ?_
    refine (expect _ rfl).andThen fun _ => exprFrom hlo ?_
    exact fun hi ⟨⟨hstart, hfirst⟩, hrest⟩ => ⟨hstart, by simpa using ⟨hfirst.within, hrest⟩⟩

theorem listDisplay (hlo : lo ≤ start) :
    Builds (start ≤ ·) pre start (Parse.listDisplay read start) (Expr.Stands .load lo) := by
  refine ifAccept .closeBracket ?_ ((starNamed h).bind fun first => ?_)
  · exact exprFrom hlo fun hi hstart => ⟨hstart, by simp⟩
  refine ifClauses h (fun cs hcs => ?_) ?_
  · refine (expect _ rfl).andThen fun _ => exprFrom hlo ?_
    exact fun hi ⟨⟨hstart, hfirst⟩, hclauses⟩ =>
      ⟨hstart, by simpa using ⟨hcs, hfirst.within, hclauses⟩⟩
  · refine (moreItems (Looks.at? _) (starNamed h).within).bind fun rest => ?_
    refine (expect _ rfl).andThen fun _ => exprFrom hlo ?_
    exact fun hi ⟨⟨hstart, hfirst⟩, hrest⟩ => ⟨hstart, by simpa using ⟨hfirst.within, hrest⟩⟩

theorem addDictItem (draft : DictDraft) :
    Builds (fun hi => draft.IsBuilt lo hi) pre lo (Parse.addDictItem read draft)
      fun hi draft => draft.IsBuilt lo hi := by
  refine ifAccept .doubleStar ((h .operand).bind fun value => pure ?_)
    ((h .expression).bind fun key => (expect _ rfl).andThen fun _ =>
      (h .expression).bind fun value => pure ?_)
  · rintro hi ⟨hdraft, hvalue⟩
    exact hdraft.add (by simp) hvalue.within
  · rintro hi ⟨⟨hdraft, hkey⟩, hvalue⟩
    exact hdraft.add (by rintro _ ⟨⟩; exact hkey.within) hvalue.within

theorem dictStep (draft : DictDraft) :
    Builds (fun hi => draft.IsBuilt lo hi) pre lo (Parse.dictStep read draft)
      fun hi r => r.value.IsBuilt lo hi := by
  refine ifAccept .comma (ifAt .closeBrace (pure fun _ => id) ?_) (pure fun _ => id)
  exact (addDictItem h draft).bind fun draft => pure fun _ => And.right

theorem dictRest {first : DictDraft} (hlo : lo ≤ start)
    (hfirst : ∀ hi, known hi → start ≤ hi ∧ first.IsBuilt start hi) :
    Builds known pre start (Parse.dictRest read start first) (Expr.Stands .load lo) := by
  refine (iterate (fun hi hknown => (hfirst hi hknown).2) (dictStep h)).bind fun draft => ?_
  refine (expect _ rfl).andThen fun _ => exprFrom hlo ?_
  rintro hi ⟨hknown, hdraft⟩
  exact ⟨(hfirst hi hknown).1, by simpa using hdraft.items⟩

theorem braceDisplay (hlo : lo ≤ start) :
    Builds (start ≤ ·) pre start (Parse.braceDisplay read start) (Expr.Stands .load lo) := by
  refine ifAccept .closeBrace ?_ (ifAt .doubleStar ?_ ((starNamed h).bind fun first => ?_))
  · exact exprFrom hlo fun hi hstart => ⟨hstart, by simp⟩
  · exact ((addDictItem h .empty).knowing fun _ _ => .empty _ _).bind fun first =>
      dictRest h hlo fun hi => id
  refine ifAccept .colon ((h .expression).bind fun value => ?_) ?_
  · refine ifClauses h (fun cs hcs => ?_) (dictRest h hlo ?_)
    · refine (expect _ rfl).andThen fun _ => exprFrom hlo ?_
      exact fun hi ⟨⟨⟨hstart, hfirst⟩, hvalue⟩, hclauses⟩ =>
        ⟨hstart, by simpa using ⟨hcs, hfirst.within, hvalue.within, hclauses⟩⟩
    · rintro hi ⟨⟨hstart, hfirst⟩, hvalue⟩
      exact ⟨hstart, (DictDraft.IsBuilt.empty start hi).add
        (by rintro _ ⟨⟩; exact hfirst.within) hvalue.within⟩
  refine ifClauses h (fun cs hcs => ?_) ?_
  · refine (expect _ rfl).andThen fun _ => exprFrom hlo ?_
    exact fun hi ⟨⟨hstart, hfirst⟩, hclauses⟩ =>
      ⟨hstart, by simpa using ⟨hcs, hfirst.within, hclauses⟩⟩
  · refine (moreItems (Looks.at? _) (starNamed h).within).bind fun rest => ?_
    refine (expect _ rfl).andThen fun _ => exprFrom hlo ?_
    exact fun hi ⟨⟨hstart, hfirst⟩, hrest⟩ => ⟨hstart, by simpa using ⟨hfirst.within, hrest⟩⟩

end Phrases

end Builds

end SyntaxTree.Parse
