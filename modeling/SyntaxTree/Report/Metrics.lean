import SyntaxTree.Grammar.Module
import SyntaxTree.Render.Statement
import SyntaxTree.Report.Figures
import SyntaxTree.Tree.Outline
import SyntaxTree.Unicode.NameTable

/-
# Metrics

What is measured while sources are read and written: how long each stage took, the geometry of the
last tree, counters and gauges.  Times are microseconds of a clock that the caller reads.
-/

namespace SyntaxTree

/-- Characters are called by the names of the table where no others are given. -/
instance (priority := low) defaultNames : Unicode.CharacterNames := Unicode.NameTable.tableNames

/-- The readings of a clock, one for each time that it is looked at. -/
abbrev Clock := Nat → UInt64

/-- What has been measured. -/
structure Metrics where
  /-- When the stages under way began. -/
  active : Figures
  /-- How long the finished stages took. -/
  durations : Figures
  /-- The nodes and the depth of the last tree. -/
  geometry : Option (UInt64 × UInt64)
  counters : Figures
  gauges : Figures
  deriving DecidableEq, Repr

namespace Metrics

/-- Nothing measured yet. -/
def empty : Metrics := ⟨.empty, .empty, none, .empty, .empty⟩

/-! ## Measuring -/

/-- Begins a stage, anew if it is under way. -/
def start (stage : Bytes) (now : UInt64) (m : Metrics) : Metrics :=
  { m with active := m.active.set stage now }

/-- Ends a stage that is under way and adds its time to the earlier ones. -/
def stop (stage : Bytes) (now : UInt64) (m : Metrics) : Metrics :=
  match m.active.get? stage with
  | none => m
  | some began =>
    { m with active := m.active.erase stage, durations := m.durations.add stage (now - began) }

/-- Increases a counter. -/
def count (name : Bytes) (amount : UInt64) (m : Metrics) : Metrics :=
  { m with counters := m.counters.add name amount }

/-- Sets a counter. -/
def setCounter (name : Bytes) (value : UInt64) (m : Metrics) : Metrics :=
  { m with counters := m.counters.set name value }

/-- Sets a gauge. -/
def setGauge (name : Bytes) (value : UInt64) (m : Metrics) : Metrics :=
  { m with gauges := m.gauges.set name value }

/-- Sets the geometry. -/
def setGeometry (nodes depth : UInt64) (m : Metrics) : Metrics :=
  { m with geometry := some (nodes, depth) }

/-! ## Measured readings -/

/-- Reads a module and measures both stages of it.  What was measured before an error stays. -/
def readModule [Unicode.CharacterNames] (clock : Clock) (mode : Mode) (source : Bytes)
    (m : Metrics) : Except ReadError Module × Metrics :=
  let m := (m.start (text "tokenize") (clock 0)).stop (text "tokenize") (clock 1)
  match tokenize false source with
  | .error e => (.error (.lexical e), m)
  | .ok tokens =>
    let m := m.setCounter (text "tokens") tokens.length.toUInt64
    let m := (m.start (text "parse") (clock 2)).stop (text "parse") (clock 3)
    match (Parse.moduleIn mode).ofTokens source tokens with
    | .error e => (.error e, m)
    | .ok tree =>
      let geometry := tree.outline.geometry
      let m := m.setCounter (text "statements") tree.body.length.toUInt64
      (.ok tree, m.setGeometry geometry.nodes.toUInt64 geometry.maxDepth.toUInt64)

/-- Writes a module and measures that stage. -/
def writeModule (clock : Clock) (style : Style) (tree : Module) (m : Metrics) : Bytes × Metrics :=
  let written := tree.write style
  let m := (m.start (text "generate") (clock 0)).stop (text "generate") (clock 1)
  (written, m.setGauge (text "output_bytes") written.length.toUInt64)

/-! ## Summaries -/

/-- The numeral of a count. -/
def numeral (n : UInt64) : Bytes := Bytes.ofNat n.toNat

/-- Microseconds as milliseconds with three decimals. -/
def milliseconds (n : UInt64) : Bytes :=
  let decimals := Bytes.ofNat (n.toNat % 1000)
  Bytes.ofNat (n.toNat / 1000) ++ text "." ++
    List.replicate (3 - decimals.length) (ascii '0') ++ decimals

/-- A line of the summary for each figure. -/
def figureLines (f : Figures) : Bytes :=
  f.entries.flatMap fun (name, value) => text "  " ++ name ++ text "=" ++ numeral value ++ text "\n"

/-- The summary for readers. -/
def summaryText (m : Metrics) : Bytes :=
  text "== Metrics ==\n" ++
    (m.durations.entries.flatMap fun (stage, time) =>
      text "  " ++ stage ++ text ": " ++ milliseconds time ++ text " ms\n") ++
    (match m.geometry with
      | some (nodes, depth) =>
        text "  AST: nodes=" ++ numeral nodes ++ text ", max_depth=" ++ numeral depth ++ text "\n"
      | none => []) ++
    figureLines m.counters ++ figureLines m.gauges

/-- An object of the summary for programs: a name and its figures.  Names stand between quotes as
they are. -/
def figureObject (name : Bytes) (value : UInt64 → Bytes) (f : Figures) : Bytes :=
  let items := f.entries.map fun (key, n) => text "    \"" ++ key ++ text "\": " ++ value n
  text "\n  \"" ++ name ++ text "\": \x7b" ++
    (if items = [] then text "\x7d"
      else text "\n" ++ Bytes.joinWith (text ",\n") items ++ text "\n  \x7d")

/-- A further object of the summary, if it has figures. -/
def furtherObject (name : Bytes) (f : Figures) : Bytes :=
  if f.entries = [] then [] else text "," ++ figureObject name numeral f

/-- The summary for programs; the names of stages are in small letters. -/
def summaryJson (m : Metrics) : Bytes :=
  text "\x7b" ++
    figureObject (text "durations_ms") milliseconds (m.durations.rename Bytes.toLower) ++
    (match m.geometry with
      | some (nodes, depth) =>
        text ",\n  \"ast\": \x7b \"nodes\": " ++ numeral nodes ++ text ", \"max_depth\": " ++
          numeral depth ++ text " \x7d"
      | none => []) ++
    furtherObject (text "counters") m.counters ++ furtherObject (text "gauges") m.gauges ++
    text "\n\x7d\n"

end Metrics

end SyntaxTree
