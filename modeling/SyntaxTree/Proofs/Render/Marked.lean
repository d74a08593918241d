import SyntaxTree.Render.Expression

/-
# Texts with marks at their parentheses

An expression is written with the parentheses that its place demands, and those around an integer
whose attribute is taken.  Where these pairs are marked, one can leave some of them out.
-/

namespace SyntaxTree

/-! ## Marked texts -/

/-- A text in which the pairs of parentheses are marked that were put around parts of it. -/
inductive Marked where
  | plain (s : Bytes)
  | append (front behind : Marked)
  | pair (inside : Marked)

namespace Marked

instance : Append Marked := ⟨append⟩

/-- A marked text in parentheses if they are needed. -/
def pairIf (needed : Bool) (m : Marked) : Marked := if needed then pair m else m

/-- Marked texts with a separator between each two neighbours. -/
def joinWith (separator : Bytes) : List Marked → Marked
  | [] => plain []
  | [m] => m
  | m :: rest => m ++ plain separator ++ joinWith separator rest

/-- The text with all its parentheses. -/
def whole : Marked → Bytes
  | plain s => s
  | append front behind => front.whole ++ behind.whole
  | pair inside => parenthesize inside.whole

/-- The marked text without `n` of the marked pairs. -/
inductive Omits : Marked → (n : Nat) → Bytes → Prop where
  | plain (s : Bytes) : Omits (.plain s) 0 s
  | append {front behind : Marked} {n n' : Nat} {s s' : Bytes} (h : front.Omits n s)
    (h' : behind.Omits n' s') : Omits (.append front behind) (n + n') (s ++ s')
  | keep {inside : Marked} {n : Nat} {s : Bytes} (h : inside.Omits n s) :
    Omits (.pair inside) n (parenthesize s)
  | leave {inside : Marked} {n : Nat} {s : Bytes} (h : inside.Omits n s) :
    Omits (.pair inside) (n + 1) s

@[simp]
theorem whole_append (m m' : Marked) : (m ++ m').whole = m.whole ++ m'.whole := rfl

@[simp]
theorem whole_plain (s : Bytes) : (plain s).whole = s := rfl

@[simp]
theorem whole_pairIf (needed : Bool) (m : Marked) :
    (pairIf needed m).whole = parenthesizeIf needed m.whole := by
  cases needed <;> rfl

theorem whole_joinWith (separator : Bytes) (ms : List Marked) :
    (joinWith separator ms).whole = Bytes.joinWith separator (ms.map whole) := by
  induction ms with
  | nil => rfl
  | cons m rest ih =>
    cases rest with
    | nil => rfl
    | cons next rest =>
      rw [joinWith, whole_append, whole_append, ih]
      · rfl
      · exact nofun

/-- A text from which no pair is left out has all of them. -/
theorem omits_zero {m : Marked} {s : Bytes} : m.Omits 0 s ↔ s = m.whole := by
  induction m generalizing s with
  | plain t =>
    constructor
    · rintro ⟨⟩
      rfl
    · rintro rfl
      exact .plain _
  | append front behind ih ih' =>
    constructor
    · intro h
      generalize hn : 0 = n at h
      cases h with
      | append h h' =>
        obtain ⟨rfl, rfl⟩ := Nat.add_eq_zero_iff.mp hn.symm
        rw [whole, ih.mp h, ih'.mp h']
    · rintro rfl
      exact .append (ih.mpr rfl) (ih'.mpr rfl)
  | pair inside ih =>
    constructor
    · rintro (⟨⟩ | ⟨⟩ | h)
      rw [whole, ih.mp h]
    · rintro rfl
      exact .keep (ih.mpr rfl)

end Marked

/-! ## Marked expressions -/

mutual

/-- An expression at a place that demands a precedence, where the parentheses around operations are
marked.  What has no operators is written as it is. -/
def Expr.marked (quote : Byte) (context : Precedence) : Expr → Marked
  | .node _ shape => .pairIf (!context ≤ shape.precedence) (shape.marked quote)

/-- The marked text of a shape without parentheses around it. -/
def Expr.Shape.marked (quote : Byte) : Expr.Shape → Marked
  | .boolean op values =>
    .joinWith (text " " ++ op.symbol ++ text " ") (Expr.markedAll quote op.operandPrecedence values)
  | .binary op left right =>
    left.marked quote op.leftPrecedence ++ .plain (text " " ++ op.symbol ++ text " ") ++
      right.marked quote op.rightPrecedence
  | .unary op operand =>
    .plain (op.symbol ++ (if op = .not then text " " else [])) ++ operand.marked quote op.precedence
  | .lambda parameters body =>
    let items := parameters.writeItems quote false
    .plain (text "lambda" ++ (if items = [] then [] else text " " ++ commaSeparated items) ++
      text ": ") ++ body.marked quote .test
  | .conditional test body orelse =>
    body.marked quote .or ++ .plain (text " if ") ++ test.marked quote .or ++
      .plain (text " else ") ++ orelse.marked quote .test
  | .await value => .plain (text "await ") ++ value.marked quote .atom
  | .compare left rest => left.marked quote .bitOr ++ Comparison.markedAll quote rest
  | .call callee arguments keywords =>
    callee.marked quote .atom ++ .plain (text "(") ++
      .joinWith (text ", ") (Expr.markedAll quote .test arguments ++
        (Keyword.writeAll quote keywords).map .plain) ++ .plain (text ")")
  | .attribute value name _ =>
    .pairIf value.isInteger (value.marked quote .atom) ++ .plain (text "." ++ name)
  | .subscript value index _ =>
    value.marked quote .atom ++ .plain (text "[") ++ index.markedIndex quote ++ .plain (text "]")
  | shape => .plain (shape.write quote)

/-- The marked text between the brackets of a subscript. -/
def Expr.markedIndex (quote : Byte) : Expr → Marked
  | .node span (.tuple elements context) =>
    .plain (Expr.writeIndex quote (.node span (.tuple elements context)))
  | .node _ shape => .pairIf (!Precedence.test ≤ shape.precedence) (shape.marked quote)

/-- Marked expressions at places that demand the same precedence. -/
def Expr.markedAll (quote : Byte) (context : Precedence) : List Expr → List Marked
  | [] => []
  | e :: rest => e.marked quote context :: Expr.markedAll quote context rest

/-- The marked further comparisons of a chain. -/
def Comparison.markedAll (quote : Byte) : List Comparison → Marked
  | [] => .plain []
  | .mk op operand :: rest =>
    .plain (text " " ++ op.symbol ++ text " ") ++
      (operand.marked quote .bitOr ++ Comparison.markedAll quote rest)

end

variable (quote : Byte)

mutual

/-- With all its parentheses, the marked text of an expression is its text. -/
theorem Expr.whole_marked (context : Precedence) :
    ∀ e : Expr, (e.marked quote context).whole = e.write quote context
  | .node _ shape => by
    rw [Expr.marked, Marked.whole_pairIf, Expr.write, Expr.Shape.whole_marked shape]

theorem Expr.Shape.whole_marked :
    ∀ shape : Expr.Shape, (shape.marked quote).whole = shape.write quote
  | .boolean op values => by
    rw [Expr.Shape.marked, Expr.Shape.write, Marked.whole_joinWith, Expr.whole_markedAll]
  | .binary op left right => by
    simp [Expr.Shape.marked, Expr.Shape.write, Expr.whole_marked _ left, Expr.whole_marked _ right]
  | .unary op operand => by
    simp [Expr.Shape.marked, Expr.Shape.write, Expr.whole_marked _ operand]
  | .lambda parameters body => by
    simp [Expr.Shape.marked, Expr.Shape.write, Expr.whole_marked _ body]
  | .conditional test body orelse => by
    simp [Expr.Shape.marked, Expr.Shape.write, Expr.whole_marked _ test,
      Expr.whole_marked _ body, Expr.whole_marked _ orelse]
  | .await value => by simp [Expr.Shape.marked, Expr.Shape.write, Expr.whole_marked _ value]
  | .compare left rest => by
    simp [Expr.Shape.marked, Expr.Shape.write, Expr.whole_marked _ left,
      Comparison.whole_markedAll rest]
  | .call callee arguments keywords => by
    have hplain : Marked.whole ∘ Marked.plain = id := rfl
    simp [Expr.Shape.marked, Expr.Shape.write, Expr.whole_marked _ callee, Marked.whole_joinWith,
      Expr.whole_markedAll _ arguments, parenthesize, commaSeparated, hplain]
  | .attribute value _ _ => by
    simp [Expr.Shape.marked, Expr.Shape.write, Expr.whole_marked _ value]
  | .subscript value index _ => by
    simp [Expr.Shape.marked, Expr.Shape.write, Expr.whole_marked _ value,
      Expr.whole_markedIndex index]
  | .name .. | .constant _ | .named .. | .dict _ | .set _ | .list .. | .tuple .. | .listComp ..
  | .setComp .. | .dictComp .. | .generator .. | .yield _ | .yieldFrom _ | .field .. | .fstring _
  | .starred .. | .slice .. => rfl

theorem Expr.whole_markedIndex : ∀ e : Expr, (e.markedIndex quote).whole = e.writeIndex quote
  | .node _ shape => by
    have hshape := Expr.Shape.whole_marked shape
    cases shape with
    | tuple elements context => rw [Expr.markedIndex, Marked.whole_plain]
    | _ => rw [Expr.markedIndex, Expr.writeIndex, Marked.whole_pairIf, hshape] <;> exact nofun

theorem Expr.whole_markedAll (context : Precedence) :
    ∀ es : List Expr,
      (Expr.markedAll quote context es).map Marked.whole = Expr.writeAll quote context es
  | [] => rfl
  | e :: es => by
    rw [Expr.markedAll, List.map_cons, Expr.whole_marked context e, Expr.whole_markedAll context es,
      Expr.writeAll]

theorem Comparison.whole_markedAll :
    ∀ rest : List Comparison,
      (Comparison.markedAll quote rest).whole = Comparison.writeAll quote rest
  | [] => rfl
  | .mk op operand :: rest => by
    simp [Comparison.markedAll, Comparison.writeAll, Expr.whole_marked _ operand,
      Comparison.whole_markedAll rest]

end

end SyntaxTree
