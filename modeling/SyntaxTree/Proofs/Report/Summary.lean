import SyntaxTree.Proofs.Report.Figures
import SyntaxTree.Proofs.Report.Json
import SyntaxTree.Report.Metrics

/-
# The summary for programs

The summary for programs is a JSON text of an object.  Times under the names of stages always stand
in it, then the geometry, counters and gauges, each if there are any.  Names stand between quotes as
they are, so that the summary can be read where all names are plain: well-formed UTF-8 without
quotes, backslashes and control characters.
-/

namespace SyntaxTree

open Json

/-! ## What a summary shows -/

/-- Counts as the members of an object. -/
def Figures.json (value : UInt64 → Json) (f : Figures) : Json :=
  .object (f.entries.map fun (name, n) => (name, value n))

namespace Metrics

variable {m : Metrics}

/-- A count. -/
def natural (n : UInt64) : Json := .number n.toNat 0

/-- A count of thousandths. -/
def thousandths (n : UInt64) : Json := .number n.toNat (-3)

/-- The further member that a summary has for figures, if there are any. -/
def furtherMember (name : Bytes) (f : Figures) : List (Bytes × Json) :=
  if f.entries = [] then [] else [(name, f.json natural)]

/-- What a summary shows of the geometry. -/
def geometryMember : Option (UInt64 × UInt64) → List (Bytes × Json)
  | none => []
  | some (nodes, depth) =>
    [(text "ast", .object [(text "nodes", natural nodes), (text "max_depth", natural depth)])]

/-- What a summary shows. -/
def json (m : Metrics) : Json :=
  .object ((text "durations_ms", (m.durations.rename Bytes.toLower).json thousandths) ::
    (geometryMember m.geometry ++ furtherMember (text "counters") m.counters ++
      furtherMember (text "gauges") m.gauges))

/-- All names that a summary shows are plain. -/
structure IsPlain (m : Metrics) : Prop where
  durations : ∀ name ∈ m.durations.names, Json.isPlain name
  counters : ∀ name ∈ m.counters.names, Json.isPlain name
  gauges : ∀ name ∈ m.gauges.names, Json.isPlain name

/-! ## Values -/

theorem denotes_numeral (depth : Nat) (n : UInt64) :
    Denotes (depth + 1) (numeral n) (natural n) :=
  denotes_ofNat depth n.toNat

/-- A number below a power of ten has no more digits than the power has zeros. -/
theorem length_ofNat_le {n k : Nat} (h : n < 10 ^ (k + 1)) : (Bytes.ofNat n).length ≤ k + 1 := by
  induction k generalizing n with
  | zero =>
    rw [Bytes.ofNat, if_pos (show n < 10 from h)]
    exact Nat.le_refl 1
  | succ k ih =>
    rw [Bytes.ofNat]
    split
    · exact Nat.le_add_left 1 _
    · rw [List.length_append]
      have hfewer : n / 10 < 10 ^ (k + 1) := by
        rw [Nat.pow_succ] at h
        omega
      exact Nat.succ_le_succ (ih hfewer)

/-- Digits in front of others count as often as the others can. -/
theorem ofDigits_append (s t : Bytes) :
    Numeral.ofDigits 10 (s ++ t) =
      Numeral.ofDigits 10 s * 10 ^ t.length + Numeral.ofDigits 10 t := by
  have hfold (n : Nat) : t.foldl (fun n b => n * 10 + Numeral.digitValue b) n =
      n * 10 ^ t.length + Numeral.ofDigits 10 t := by
    induction t using List.reverseRecOn with
    | nil => exact (Nat.mul_one n).symm
    | append_singleton t b ih =>
      rw [Numeral.ofDigits, List.foldl_append, List.foldl_append, ih, List.length_append]
      simp only [List.foldl_cons, List.foldl_nil, List.length_singleton, Nat.pow_succ]
      rw [← Numeral.ofDigits]
      ring
  rw [Numeral.ofDigits, List.foldl_append, hfold]
  rfl

theorem ofDigits_zeros (k : Nat) : Numeral.ofDigits 10 (List.replicate k (ascii '0')) = 0 := by
  induction k with
  | zero => rfl
  | succ k ih =>
    rw [List.replicate_succ']
    rw [ofDigits_append, ih, Nat.zero_mul]
    rfl

/-- Thousandths are shown exactly. -/
theorem denotes_milliseconds (depth : Nat) (n : UInt64) :
    Denotes (depth + 1) (milliseconds n) (thousandths n) := by
  have hdecimals : (Bytes.ofNat (n.toNat % 1000)).length ≤ 3 :=
    length_ofNat_le (k := 2) (Nat.mod_lt _ (by decide))
  obtain ⟨fraction, hfraction⟩ : ∃ fraction, fraction =
      List.replicate (3 - (Bytes.ofNat (n.toNat % 1000)).length) (ascii '0') ++
        Bytes.ofNat (n.toNat % 1000) := ⟨_, rfl⟩
  have hne : fraction ≠ [] :=
    hfraction ▸ List.append_ne_nil_of_right_ne_nil _ (Number.ofNat_ne_nil _)
  have hdigits : ∀ b ∈ fraction, b.isDigit := by
    rw [hfraction]
    exact List.forall_mem_append.mpr ⟨fun b hb => List.eq_of_mem_replicate hb ▸ rfl,
      isDigit_of_mem_ofNat _⟩
  have hlength : fraction.length = 3 := by
    rw [hfraction, List.length_append, List.length_replicate]
    omega
  have hvalue : Numeral.ofDigits 10 (Bytes.ofNat (n.toNat / 1000) ++ fraction) = n.toNat := by
    rw [ofDigits_append, hlength, ofDigits_ofNat, hfraction, ofDigits_append, ofDigits_zeros,
      ofDigits_ofNat]
    omega
  have hshown : milliseconds n = Bytes.ofNat (n.toNat / 1000) ++ ascii '.' :: fraction := by
    rw [milliseconds, hfraction]
    simp [text]
  have hdenotes := denotes_decimal depth (n.toNat / 1000) hne hdigits
  rw [hvalue, hlength] at hdenotes
  exact hshown ▸ hdenotes

/-! ## Members -/

/-- Items on lines of their own are items with commas between them. -/
theorem joinWith_lines {items : List Bytes} (hne : items ≠ []) :
    text "\n" ++ Bytes.joinWith (text ",\n") items =
      Bytes.joinWith (text ",") (items.map (text "\n" ++ ·)) := by
  obtain ⟨item, rest, rfl⟩ := List.exists_cons_of_ne_nil hne
  have hseparator : text ",\n" = text "," ++ text "\n" := rfl
  rw [List.map_cons, Bytes.joinWith_cons, Bytes.joinWith_cons, List.map_map, List.append_assoc,
    hseparator]
  simp only [Function.comp_def, List.append_assoc]

section Figures

variable {depth : Nat} {value : UInt64 → Bytes} {shown : UInt64 → Json}
  (hvalue : ∀ n, Denotes (depth + 1) (value n) (shown n)) {f : Figures}
  (hf : ∀ name ∈ f.names, Json.isPlain name)

include hvalue hf

/-- Figures under plain names are the members of an object. -/
theorem denotes_figures :
    Denotes (depth + 2)
      (text "\x7b" ++
        let items := f.entries.map fun (key, n) => text "    \"" ++ key ++ text "\": " ++ value n
        if items = [] then text "\x7d"
        else text "\n" ++ Bytes.joinWith (text ",\n") items ++ text "\n  \x7d")
      (f.json shown) := by
  have hitems : ∀ item ∈ f.entries.map fun (key, n) =>
      (text "\n" ++ (text "    \"" ++ key ++ text "\": " ++ value n), key, shown n),
      DenotesMember (depth + 1) item.1 item.2 := by
    refine List.forall_mem_map.mpr fun (key, n) hentry => ?_
    have hkey := hf key (List.mem_map_of_mem hentry)
    have hmember := (hvalue n).member hkey (show (text "\n    ").all isSpace by decide)
    exact hmember
  by_cases hnil : f.entries = []
  · rw [Figures.json, hnil]
    exact denotes_object_nil (depth + 1)
  · have hobject := denotes_object (show (text "\n  ").all isSpace by decide)
      (mt List.map_eq_nil_iff.mp hnil) hitems
    dsimp only
    rw [if_neg (mt List.map_eq_nil_iff.mp hnil), joinWith_lines (mt List.map_eq_nil_iff.mp hnil),
      List.map_map]
    rw [List.map_map, List.map_map, List.append_assoc, List.append_assoc] at hobject
    exact hobject

/-- Figures are a member of the summary. -/
theorem denotes_figureObject {name : Bytes} (hname : Json.isPlain name) :
    DenotesMember (depth + 2) (figureObject name value f) (name, f.json shown) := by
  have hmember := (denotes_figures hvalue hf).member hname
    (show (text "\n  ").all isSpace by decide)
  simp only [List.append_assoc] at hmember
  simp only [figureObject, List.append_assoc]
  exact hmember

end Figures

/-- The text of a geometry. -/
def geometryText (nodes depth : UInt64) : Bytes :=
  text "\n  \"ast\": \x7b \"nodes\": " ++ numeral nodes ++ text ", \"max_depth\": " ++
    numeral depth ++
    text " \x7d"

/-- A geometry is a member of the summary. -/
theorem denotes_geometry (depth : Nat) (nodes maxDepth : UInt64) :
    DenotesMember (depth + 2) (geometryText nodes maxDepth)
      (text "ast",
      .object [(text "nodes", natural nodes), (text "max_depth", natural maxDepth)]) := by
  have hspace : (text " ").all isSpace := by decide
  have hnodes := (denotes_numeral depth nodes).member
    (show Json.isPlain (text "nodes") by decide +kernel) hspace
  have hdepth := (denotes_numeral depth maxDepth).member
    (show Json.isPlain (text "max_depth") by decide +kernel) hspace
  have hitems : ∀ item ∈ [
      (text " \"nodes\": " ++ numeral nodes, text "nodes", natural nodes),
      (text " \"max_depth\": " ++ numeral maxDepth, text "max_depth", natural maxDepth)],
      DenotesMember (depth + 1) item.1 item.2 :=
    List.forall_mem_cons.mpr ⟨hnodes, List.forall_mem_singleton.mpr hdepth⟩
  have hmember := (denotes_object hspace (List.cons_ne_nil _ _) hitems).member
    (show Json.isPlain (text "ast") by decide +kernel) (show (text "\n  ").all isSpace by decide)
  simp only [List.map_cons, List.map_nil, Bytes.joinWith, List.append_assoc] at hmember
  simp only [geometryText, List.append_assoc]
  exact hmember

/-! ## The summary -/

/-- The texts of the further members for figures, and what they show. -/
def furtherItems (name : Bytes) (f : Figures) : List (Bytes × Bytes × Json) :=
  if f.entries = [] then [] else [(figureObject name numeral f, name, f.json natural)]

/-- The text of the member for the geometry, and what it shows. -/
def geometryItems : Option (UInt64 × UInt64) → List (Bytes × Bytes × Json)
  | none => []
  | some (nodes, depth) => (geometryMember (some (nodes, depth))).map (geometryText nodes depth, ·)

/-- The texts of the members of a summary, and what they show. -/
def items (m : Metrics) : List (Bytes × Bytes × Json) :=
  (figureObject (text "durations_ms") milliseconds (m.durations.rename Bytes.toLower),
      text "durations_ms", (m.durations.rename Bytes.toLower).json thousandths) ::
    (geometryItems m.geometry ++ furtherItems (text "counters") m.counters ++
      furtherItems (text "gauges") m.gauges)

theorem furtherItems_texts (name : Bytes) (f : Figures) :
    (((furtherItems name f).map (·.1)).map (text "," ++ ·)).flatten = furtherObject name f := by
  rw [furtherItems, furtherObject]
  split
  · rfl
  · simp

theorem furtherItems_members (name : Bytes) (f : Figures) :
    (furtherItems name f).map (·.2) = furtherMember name f := by
  rw [furtherItems, furtherMember]
  split <;> rfl

/-- The summary is that of its members, with commas between them and in braces. -/
theorem summaryJson_eq (m : Metrics) :
    m.summaryJson = text "\x7b" ++ Bytes.joinWith (text ",") (m.items.map (·.1)) ++ text "\n" ++
      text "\x7d" ++ text "\n" := by
  have hgeometry : (((geometryItems m.geometry).map (·.1)).map (text "," ++ ·)).flatten =
      m.geometry.elim [] fun geometry => text "," ++ geometryText geometry.1 geometry.2 := by
    cases m.geometry with
    | none => rfl
    | some geometry => exact List.append_nil _
  rw [items, List.map_cons, Bytes.joinWith_cons, List.map_append, List.map_append, List.map_append,
    List.map_append, List.flatten_append, List.flatten_append, furtherItems_texts,
    furtherItems_texts, hgeometry, summaryJson]
  simp only [List.append_assoc]
  cases m.geometry with
  | none => rfl
  | some geometry =>
    simp only [Option.elim_some, geometryText, List.append_assoc]
    rfl

theorem json_eq (m : Metrics) : m.json = .object (m.items.map (·.2)) := by
  have hgeometry : (geometryItems m.geometry).map (·.2) = geometryMember m.geometry := by
    cases m.geometry <;> rfl
  rw [json, items, List.map_cons, List.map_append, List.map_append, furtherItems_members,
    furtherItems_members, hgeometry]

theorem denotes_furtherItems {name : Bytes} {f : Figures} (hname : Json.isPlain name)
    (hf : ∀ name ∈ f.names, Json.isPlain name) (depth : Nat) :
    ∀ item ∈ furtherItems name f, DenotesMember (depth + 2) item.1 item.2 := by
  rw [furtherItems]
  split
  · exact List.forall_mem_nil _
  · exact List.forall_mem_singleton.mpr (denotes_figureObject (denotes_numeral depth) hf hname)

/-- The members of a summary whose names are plain are read as what they show. -/
theorem denotes_items (h : m.IsPlain) (depth : Nat) :
    ∀ item ∈ m.items, DenotesMember (depth + 2) item.1 item.2 := by
  have hdurations : ∀ name ∈ (m.durations.rename Bytes.toLower).names, Json.isPlain name := by
    intro name hname
    obtain ⟨stage, hstage, rfl⟩ := Figures.mem_names_rename hname
    exact isPlain_toLower (h.durations stage hstage)
  have hgeometry : ∀ item ∈ geometryItems m.geometry, DenotesMember (depth + 2) item.1 item.2 := by
    cases m.geometry with
    | none => exact List.forall_mem_nil _
    | some geometry => exact List.forall_mem_singleton.mpr (denotes_geometry depth _ _)
  refine List.forall_mem_cons.mpr ⟨?_, List.forall_mem_append.mpr
    ⟨List.forall_mem_append.mpr ⟨hgeometry, ?_⟩, ?_⟩⟩
  · exact denotes_figureObject (denotes_milliseconds depth) hdurations (by decide +kernel)
  · exact denotes_furtherItems (by decide +kernel) h.counters depth
  · exact denotes_furtherItems (by decide +kernel) h.gauges depth

/-- A summary whose names are plain is read as what it shows. -/
theorem ofBytes?_summaryJson (h : m.IsPlain) : Json.ofBytes? m.summaryJson = some m.json := by
  have hwhite : (text "\n").all isSpace := by decide
  rw [summaryJson_eq, json_eq]
  refine Denotes.ofBytes? hwhite ?_
  obtain ⟨depth, hdepth⟩ : ∃ depth, (text "\x7b" ++ Bytes.joinWith (text ",") (m.items.map (·.1)) ++
      text "\n" ++ text "\x7d" ++ text "\n").length = depth + 2 := by
    refine Nat.exists_eq_add_of_le' ?_
    simp only [List.length_append, text, List.length_map]
    show 2 ≤ 1 + _ + 1 + 1 + 1
    omega
  rw [hdepth]
  exact denotes_object hwhite (List.cons_ne_nil _ _) (denotes_items h depth)

/-! ## Measuring step by step -/

/-- What can be done with metrics. -/
inductive Operation where
  | start (stage : Bytes) (now : UInt64)
  | stop (stage : Bytes) (now : UInt64)
  | count (name : Bytes) (amount : UInt64)
  | setCounter (name : Bytes) (value : UInt64)
  | setGauge (name : Bytes) (value : UInt64)
  | setGeometry (nodes depth : UInt64)

namespace Operation

/-- Does an operation. -/
def apply : Operation → Metrics → Metrics
  | .start stage now => Metrics.start stage now
  | .stop stage now => Metrics.stop stage now
  | .count name amount => Metrics.count name amount
  | .setCounter name value => Metrics.setCounter name value
  | .setGauge name value => Metrics.setGauge name value
  | .setGeometry nodes depth => Metrics.setGeometry nodes depth

/-- The name that an operation uses. -/
def name? : Operation → Option Bytes
  | .start name _ | .stop name _ | .count name _ | .setCounter name _ | .setGauge name _ =>
    some name
  | .setGeometry _ _ => none

/-- What an operation makes of the counter under a name, which is a natural number of any size. -/
def recordCounter (name : Bytes) (recorded : Option Nat) : Operation → Option Nat
  | .count key amount => if name = key then some (recorded.getD 0 + amount.toNat) else recorded
  | .setCounter key value => if name = key then some value.toNat else recorded
  | _ => recorded

/-- What an operation makes of the gauge under a name. -/
def recordGauge (name : Bytes) (recorded : Option Nat) : Operation → Option Nat
  | .setGauge key value => if name = key then some value.toNat else recorded
  | _ => recorded

end Operation

/-- The metrics after operations. -/
def after (ops : List Operation) : Metrics := ops.foldl (fun m op => op.apply m) empty

/-- The counter that operations record under a name. -/
def recordedCounter (ops : List Operation) (name : Bytes) : Option Nat :=
  ops.foldl (Operation.recordCounter name) none

/-- The gauge that operations record under a name. -/
def recordedGauge (ops : List Operation) (name : Bytes) : Option Nat :=
  ops.foldl (Operation.recordGauge name) none

/-- Figures show what has been recorded, modulo the number of their words. -/
structure Shows (f : Figures) (recorded : Bytes → Option Nat) : Prop where
  ordered : f.IsOrdered
  get? (name : Bytes) : (f.get? name).map UInt64.toNat = (recorded name).map (· % 2 ^ 64)

variable {op : Operation}

/-- Where all names are plain they stay so under operations that use plain ones. -/
theorem IsPlain.apply (h : m.IsPlain) (hop : ∀ name ∈ op.name?, Json.isPlain name) :
    (op.apply m).IsPlain := by
  have hnames {f f' : Figures} {key : Bytes} (hkey : Json.isPlain key)
      (hf : ∀ name ∈ f.names, Json.isPlain name)
      (hf' : ∀ name ∈ f'.names, name = key ∨ name ∈ f.names) :
      ∀ name ∈ f'.names, Json.isPlain name := fun name hname =>
    (hf' name hname).elim (fun heq => heq ▸ hkey) (hf name)
  cases op with
  | start stage now => exact ⟨h.durations, h.counters, h.gauges⟩
  | stop stage now =>
    show (Metrics.stop stage now m).IsPlain
    rw [Metrics.stop]
    split
    · exact h
    · exact ⟨hnames (hop stage rfl) h.durations fun _ => Figures.mem_names_add, h.counters,
        h.gauges⟩
  | count key amount =>
    exact ⟨h.durations, hnames (hop key rfl) h.counters fun _ => Figures.mem_names_add, h.gauges⟩
  | setCounter key value =>
    exact ⟨h.durations, hnames (hop key rfl) h.counters fun _ => Figures.mem_names_set, h.gauges⟩
  | setGauge key value =>
    exact ⟨h.durations, h.counters, hnames (hop key rfl) h.gauges fun _ => Figures.mem_names_set⟩
  | setGeometry nodes depth => exact ⟨h.durations, h.counters, h.gauges⟩

theorem isPlain_after {ops : List Operation}
    (h : ∀ op ∈ ops, ∀ name ∈ op.name?, Json.isPlain name) : (after ops).IsPlain := by
  induction ops using List.reverseRecOn with
  | nil => exact ⟨List.forall_mem_nil _, List.forall_mem_nil _, List.forall_mem_nil _⟩
  | append_singleton ops op ih =>
    obtain ⟨hops, hop⟩ := List.forall_mem_append.mp h
    rw [after, List.foldl_append]
    exact (ih hops).apply (hop op List.mem_cons_self)

/-- Setting a count records it. -/
theorem Shows.set {f : Figures} {recorded : Bytes → Option Nat} (h : Shows f recorded) (key : Bytes)
    (value : UInt64) :
    Shows (f.set key value) fun name => if name = key then some value.toNat else recorded name where
  ordered := h.ordered.set key value
  get? name := by
    rw [h.ordered.get?_set]
    split
    · exact congrArg some (Nat.mod_eq_of_lt value.toNat_lt).symm
    · exact h.get? name

/-- Adding to a count records the sum. -/
theorem Shows.add {f : Figures} {recorded : Bytes → Option Nat} (h : Shows f recorded) (key : Bytes)
    (amount : UInt64) :
    Shows (f.add key amount) fun name =>
      if name = key then some ((recorded name).getD 0 + amount.toNat) else recorded name where
  ordered := h.ordered.add key amount
  get? name := by
    rw [h.ordered.get?_add]
    split
    · next heq =>
      subst heq
      have hcount : ((f.get? name).getD 0).toNat = (recorded name).getD 0 % 2 ^ 64 := by
        have hget := h.get? name
        cases hf : f.get? name <;> cases hrecorded : recorded name <;> rw [hf, hrecorded] at hget
        · rfl
        · cases hget
        · cases hget
        · exact Option.some.inj hget
      rw [Option.map_some, Option.map_some, UInt64.toNat_add, hcount, Nat.mod_add_mod]
    · exact h.get? name

theorem shows_counters_apply {recorded : Bytes → Option Nat} (h : Shows m.counters recorded) :
    Shows (op.apply m).counters fun name => op.recordCounter name (recorded name) := by
  cases op with
  | stop stage now =>
    show Shows (Metrics.stop stage now m).counters recorded
    rw [Metrics.stop]
    split <;> exact h
  | count key amount => exact h.add key amount
  | setCounter key value => exact h.set key value
  | _ => exact h

theorem shows_gauges_apply {recorded : Bytes → Option Nat} (h : Shows m.gauges recorded) :
    Shows (op.apply m).gauges fun name => op.recordGauge name (recorded name) := by
  cases op with
  | stop stage now =>
    show Shows (Metrics.stop stage now m).gauges recorded
    rw [Metrics.stop]
    split <;> exact h
  | setGauge key value => exact h.set key value
  | _ => exact h

/-- Counters and gauges are what operations have recorded. -/
theorem shows_after (ops : List Operation) :
    Shows (after ops).counters (recordedCounter ops) ∧
      Shows (after ops).gauges (recordedGauge ops) := by
  induction ops using List.reverseRecOn with
  | nil => exact ⟨⟨Figures.isOrdered_empty, fun _ => rfl⟩, Figures.isOrdered_empty, fun _ => rfl⟩
  | append_singleton ops op ih =>
    have hafter : after (ops ++ [op]) = op.apply (after ops) := List.foldl_append ..
    have hcounter : recordedCounter (ops ++ [op]) = fun name =>
        op.recordCounter name (recordedCounter ops name) := funext fun _ => List.foldl_append ..
    have hgauge : recordedGauge (ops ++ [op]) = fun name =>
        op.recordGauge name (recordedGauge ops name) := funext fun _ => List.foldl_append ..
    rw [hafter, hcounter, hgauge]
    exact ⟨shows_counters_apply ih.1, shows_gauges_apply ih.2⟩

/-- After operations under plain names the summary is read as what it shows, and its counters and
gauges are those that have been recorded. -/
theorem summaryJson_readable {ops : List Operation}
    (h : ∀ op ∈ ops, ∀ name ∈ op.name?, Json.isPlain name) :
    Json.ofBytes? (after ops).summaryJson = some (after ops).json ∧
      Shows (after ops).counters (recordedCounter ops) ∧
      Shows (after ops).gauges (recordedGauge ops) :=
  ⟨ofBytes?_summaryJson (isPlain_after h), shows_after ops⟩

/-- A quote in a name ends the name early, and the summary is no JSON text. -/
example : Json.ofBytes? (after [.count (text "a\"b") 1]).summaryJson = none := by decide +kernel

end Metrics

end SyntaxTree
