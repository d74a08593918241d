import Mathlib.Data.Set.Function
import SyntaxTree.Number.Reading
import SyntaxTree.Proofs.Dump.Branch
import SyntaxTree.Proofs.Dump.Legible
import SyntaxTree.Tree.Outline

/-
# Labels

The label of a node begins with a word that tells the kind of the node, and what follows tells its
scalars: every way in which a dump spells a name, a list of names, a numeral, a text or a constant
can be read back.
-/

namespace SyntaxTree

/-! ## Printable texts -/

/-- A text without control characters. -/
def IsPrintable (s : Bytes) : Prop := ∀ b ∈ s, Byte.space ≤ b

@[simp] theorem isPrintable_nil : IsPrintable [] := by
  intro b hb
  simp at hb

@[simp] theorem isPrintable_cons (b : Byte) (s : Bytes) :
    IsPrintable (b :: s) ↔ Byte.space ≤ b ∧ IsPrintable s := by
  simp [IsPrintable]

@[simp] theorem isPrintable_append (s t : Bytes) :
    IsPrintable (s ++ t) ↔ IsPrintable s ∧ IsPrintable t := by
  simp only [IsPrintable, List.mem_append]
  constructor
  · intro h
    exact ⟨fun b hb => h b (Or.inl hb), fun b hb => h b (Or.inr hb)⟩
  · rintro ⟨hs, ht⟩ b (hb | hb)
    · exact hs b hb
    · exact ht b hb

instance (s : Bytes) : Decidable (IsPrintable s) :=
  List.decidableBAll (Byte.space ≤ ·) s

/-- A legible name is printable. -/
theorem IsLegible.isPrintable {s : Bytes} (h : IsLegible s) : IsPrintable s :=
  fun b hb => UInt8.le_of_lt (h.visible b hb)

/-- A legible name has no space. -/
theorem IsLegible.space_not_mem {s : Bytes} (h : IsLegible s) : Byte.space ∉ s :=
  fun hmem => UInt8.lt_irrefl _ (h.visible _ hmem)

/-- A printable text has no line end. -/
theorem IsPrintable.lineFeed_not_mem {s : Bytes} (h : IsPrintable s) : Byte.lineFeed ∉ s :=
  fun hmem => absurd (h _ hmem) (by decide)

/-! ## Names of operators, contexts, modes and kinds -/

theorem BinaryOperator.name_injective : Function.Injective BinaryOperator.name := by
  intro a b h
  cases a <;> cases b <;> first | rfl | exact absurd h (by decide)

theorem UnaryOperator.name_injective : Function.Injective UnaryOperator.name := by
  intro a b h
  cases a <;> cases b <;> first | rfl | exact absurd h (by decide)

theorem BoolOperator.name_injective : Function.Injective BoolOperator.name := by
  intro a b h
  cases a <;> cases b <;> first | rfl | exact absurd h (by decide)

theorem CompareOperator.name_injective : Function.Injective CompareOperator.name := by
  intro a b h
  cases a <;> cases b <;> first | rfl | exact absurd h (by decide)

theorem Context.name_injective : Function.Injective Context.name := by
  intro a b h
  cases a <;> cases b <;> first | rfl | exact absurd h (by decide)

theorem Mode.name_injective : Function.Injective Mode.name := by
  intro a b h
  cases a <;> cases b <;> first | rfl | exact absurd h (by decide)

theorem TypeParamKind.name_injective : Function.Injective TypeParamKind.name := by
  intro a b h
  cases a <;> cases b <;> first | rfl | exact absurd h (by decide)

/-- The name of a comparison is legible. -/
theorem CompareOperator.isLegible_name (op : CompareOperator) : IsLegible op.name := by
  cases op <;> decide

/-- A label that depends on a flag tells the flag. -/
theorem labelIf_inj {yes no : String} (h : text yes ≠ text no) {a b : Bool}
    (hab : labelIf a yes no = labelIf b yes no) : a = b := by
  cases a <;> cases b <;> simp_all [labelIf, eq_comm]

/-! ## Names -/

/-- The spelling of a name that may be missing tells the name. -/
theorem optionalName_inj {a b : Option Bytes} (ha : IsLegibleOption a) (hb : IsLegibleOption b)
    (h : optionalName a = optionalName b) : a = b := by
  cases a with
  | none =>
    cases b with
    | none => rfl
    | some s => exact absurd h.symm (hb s rfl).ne_dash
  | some r =>
    cases b with
    | none => exact absurd h (ha r rfl).ne_dash
    | some s => exact congrArg some h

/-- The spelling of a name that may be missing has no space. -/
theorem space_not_mem_optionalName {a : Option Bytes} (ha : IsLegibleOption a) :
    Byte.space ∉ optionalName a := by
  cases a with
  | none => decide
  | some s => exact (ha s rfl).space_not_mem

/-- The spelling of a name that may be missing is printable. -/
theorem isPrintable_optionalName {a : Option Bytes} (ha : IsLegibleOption a) :
    IsPrintable (optionalName a) := by
  cases a with
  | none => decide
  | some s => exact (ha s rfl).isPrintable

/-- The letter of a conversion, or a dash, tells the conversion. -/
theorem optionalName_letter_inj {a b : Option Conversion}
    (h : optionalName (a.map ([·.letter])) = optionalName (b.map ([·.letter]))) : a = b := by
  rcases a with _ | _ | _ | _ <;> rcases b with _ | _ | _ | _ <;>
    first | rfl | exact absurd h (by decide)

/-- Legible names stay as they are when names are joined. -/
theorem joinNames_cons {name : Bytes} (h : IsLegible name) (names : List Bytes) :
    joinNames (name :: names) = Bytes.joinWith (text ",") (name :: names) := by
  rw [joinNames, List.dropWhile_cons_of_neg]
  simpa using h.ne_nil

/-- Names with commas between them can be told apart. -/
theorem joinWith_comma_inj : ∀ {names others : List Bytes}, (∀ n ∈ names, IsLegible n) →
    (∀ n ∈ others, IsLegible n) →
    Bytes.joinWith (text ",") names = Bytes.joinWith (text ",") others → names = others
  | [], [], _, _, _ => rfl
  | [], [b], _, hb, h => absurd h.symm (hb b (by simp)).ne_nil
  | [], b :: b' :: bs, _, _, h => by simp [Bytes.joinWith, text] at h
  | [a], [], ha, _, h => absurd h (ha a (by simp)).ne_nil
  | [a], [b], _, _, h => congrArg ([·]) h
  | [a], b :: b' :: bs, ha, _, h => by
    have hcomma : ascii ',' ∈ a := by
      simp only [Bytes.joinWith] at h
      rw [h]
      simp [text]
    exact absurd hcomma (ha a (by simp)).noComma
  | a :: a' :: as, [], _, _, h => by simp [Bytes.joinWith, text] at h
  | a :: a' :: as, [b], _, hb, h => by
    have hcomma : ascii ',' ∈ b := by
      simp only [Bytes.joinWith] at h
      rw [← h]
      simp [text]
    exact absurd hcomma (hb b (by simp)).noComma
  | a :: a' :: as, b :: b' :: bs, ha, hb, h => by
    simp only [Bytes.joinWith, List.append_assoc, show text "," = [ascii ','] from rfl,
      List.singleton_append] at h
    obtain ⟨rfl, hrest⟩ := append_cons_inj (ha a (by simp)).noComma (hb b (by simp)).noComma h
    have := joinWith_comma_inj (fun n hn => ha n (List.mem_cons_of_mem _ hn))
      (fun n hn => hb n (List.mem_cons_of_mem _ hn)) hrest
    rw [this]

/-- Legible names can be read back from their joined spelling. -/
theorem joinNames_inj {names others : List Bytes} (hn : ∀ n ∈ names, IsLegible n)
    (ho : ∀ n ∈ others, IsLegible n) (h : joinNames names = joinNames others) :
    names = others := by
  have hjoin : ∀ {ns : List Bytes}, (∀ n ∈ ns, IsLegible n) →
      joinNames ns = Bytes.joinWith (text ",") ns := by
    intro ns hns
    cases ns with
    | nil => rfl
    | cons n ns => exact joinNames_cons (hns n (by simp)) ns
  rw [hjoin hn, hjoin ho] at h
  exact joinWith_comma_inj hn ho h

/-- Printable items with commas between them are printable. -/
theorem isPrintable_joinWith_comma : ∀ {items : List Bytes}, (∀ s ∈ items, IsPrintable s) →
    IsPrintable (Bytes.joinWith (text ",") items)
  | [], _ => isPrintable_nil
  | [s], h => h s (by simp)
  | s :: t :: items, h => by
    rw [Bytes.joinWith, isPrintable_append, isPrintable_append]
    · exact ⟨⟨h s (by simp), by decide⟩,
        isPrintable_joinWith_comma fun r hr => h r (List.mem_cons_of_mem _ hr)⟩
    · simp

/-- Joined legible names are printable. -/
theorem isPrintable_joinNames {names : List Bytes} (h : ∀ n ∈ names, IsLegible n) :
    IsPrintable (joinNames names) := by
  cases names with
  | nil => exact isPrintable_nil
  | cons n names =>
    rw [joinNames_cons (h n (by simp))]
    exact isPrintable_joinWith_comma fun s hs => (h s hs).isPrintable

/-! ## Numerals -/

/-- The value of a decimal digit. -/
theorem digitValue_digit : ∀ n < 10, Numeral.digitValue (Byte.digit n) = n := by decide

/-- A decimal numeral denotes the number it was written for. -/
theorem ofDigits_ofNat (n : Nat) : Numeral.ofDigits 10 (Bytes.ofNat n) = n := by
  induction n using Nat.strongRecOn with
  | ind n ih =>
    rw [Bytes.ofNat]
    split
    · rename_i h
      simp [Numeral.ofDigits, digitValue_digit n h]
    · rename_i h
      have hlast := digitValue_digit (n % 10) (Nat.mod_lt n (by decide))
      have hmore := ih (n / 10) (by omega)
      simp only [Numeral.ofDigits] at hmore
      simp only [Numeral.ofDigits, List.foldl_append, hmore, List.foldl_cons, List.foldl_nil, hlast]
      omega

/-- The bytes of a decimal numeral are digits. -/
theorem isDigit_of_mem_ofNat (n : Nat) : ∀ b ∈ Bytes.ofNat n, b.isDigit := by
  have hdigit : ∀ m < 10, (Byte.digit m).isDigit := by decide
  induction n using Nat.strongRecOn with
  | ind n ih =>
    intro b hb
    rw [Bytes.ofNat] at hb
    split at hb
    · rename_i h
      rw [List.mem_singleton.mp hb]
      exact hdigit n h
    · rename_i h
      rcases List.mem_append.mp hb with hb | hb
      · exact ih (n / 10) (by omega) b hb
      · rw [List.mem_singleton.mp hb]
        exact hdigit (n % 10) (Nat.mod_lt n (by decide))

theorem ofNat_injective : Function.Injective Bytes.ofNat := by
  intro m n h
  rw [← ofDigits_ofNat m, h, ofDigits_ofNat]

theorem ofInt_injective : Function.Injective Bytes.ofInt := by
  have hminus : ∀ (m n : Nat), Bytes.ofNat m ≠ ascii '-' :: Bytes.ofNat n := by
    intro m n h
    exact absurd (isDigit_of_mem_ofNat m (ascii '-') (by simp [h])) (by decide)
  intro m n h
  cases m with
  | ofNat m =>
    cases n with
    | ofNat n => exact congrArg Int.ofNat (ofNat_injective h)
    | negSucc n => exact absurd h (hminus m (n + 1))
  | negSucc m =>
    cases n with
    | ofNat n => exact absurd h.symm (hminus n (m + 1))
    | negSucc n => exact congrArg Int.negSucc (Nat.succ.inj (ofNat_injective (List.cons.inj h).2))

/-- A digit is printable. -/
theorem isPrintable_ofNat (n : Nat) : IsPrintable (Bytes.ofNat n) := by
  intro b hb
  have := isDigit_of_mem_ofNat n b hb
  simp only [Byte.isDigit, Bool.and_eq_true, decide_eq_true_eq] at this
  exact UInt8.le_trans (by decide) this.1

theorem isPrintable_ofInt (n : Int) : IsPrintable (Bytes.ofInt n) := by
  cases n with
  | ofNat n => exact isPrintable_ofNat n
  | negSucc n => exact (isPrintable_cons _ _).mpr ⟨by decide, isPrintable_ofNat (n + 1)⟩

/-- A part of a printable text is printable. -/
theorem IsPrintable.mono {s t : Bytes} (ht : IsPrintable t) (h : s ⊆ t) : IsPrintable s :=
  fun b hb => ht b (h hb)

/-- Zeros are printable. -/
theorem isPrintable_replicate_zero (n : Nat) : IsPrintable (List.replicate n (ascii '0')) := by
  intro b hb
  rw [List.eq_of_mem_replicate hb]
  decide

/-- Digits without trailing zeros are among the digits. -/
theorem trimZeros_subset (s : Bytes) : Decimal.trimZeros s ⊆ s := by
  cases s with
  | nil => exact List.Subset.refl []
  | cons first rest =>
    refine List.cons_subset_cons first fun b hb => ?_
    have := List.dropWhile_sublist (· = ascii '0') |>.subset (List.mem_reverse.mp hb)
    exact List.mem_reverse.mp this

/-- The text of a positive decimal number is printable. -/
theorem isPrintable_decimal (d : Decimal) : IsPrintable (FloatFormat.exact.decimal d) := by
  have hdigits : IsPrintable (Decimal.trimZeros (Bytes.ofNat d.digits)) :=
    (isPrintable_ofNat d.digits).mono (trimZeros_subset _)
  have htake : ∀ n, IsPrintable ((Decimal.trimZeros (Bytes.ofNat d.digits)).take n) :=
    fun n => hdigits.mono (List.take_subset n _)
  have hdrop : ∀ n, IsPrintable ((Decimal.trimZeros (Bytes.ofNat d.digits)).drop n) :=
    fun n => hdigits.mono (List.drop_subset n _)
  unfold FloatFormat.decimal
  dsimp only
  split
  · unfold FloatFormat.positional
    dsimp only
    split
    · simp only [isPrintable_append]
      exact ⟨⟨by decide, isPrintable_replicate_zero _⟩, hdigits⟩
    · split
      · simp only [isPrintable_append]
        exact ⟨⟨hdigits, isPrintable_replicate_zero _⟩, by decide⟩
      · simp only [isPrintable_append]
        exact ⟨⟨htake _, by decide⟩, hdrop _⟩
  · unfold FloatFormat.scientific
    simp only [isPrintable_append]
    refine ⟨⟨⟨⟨⟨htake 1, ?_⟩, hdrop 1⟩, ?_⟩, ?_⟩, isPrintable_ofNat _⟩ <;> split <;> decide

/-- The text of a number in a dump is printable. -/
theorem isPrintable_exact_write (x : Binary64) : IsPrintable (FloatFormat.exact.write x) := by
  have hsign : IsPrintable (if x.isNegative then text "-" else []) := by
    split <;> decide
  unfold FloatFormat.write
  dsimp only
  split
  · cases x.isNegative <;> decide
  · exact (isPrintable_append _ _).mpr ⟨hsign, by decide⟩
  · exact (isPrintable_append _ _).mpr ⟨hsign, by decide⟩
  · exact (isPrintable_append _ _).mpr ⟨hsign, isPrintable_decimal _⟩

/-! ## Quoted texts -/

/-- The hexadecimal digits of different numbers are different. -/
theorem hexDigit_inj : ∀ m < 16, ∀ n < 16, Byte.hexDigit m = Byte.hexDigit n → m = n := by decide

/-- A byte between quotes is escaped by a backslash, written by its value, or left alone. -/
theorem quotedByte_cases (b : Byte) :
    quotedByte b = [Byte.backslash, b] ∧ b ≠ ascii 'x' ∨
      quotedByte b =
        [Byte.backslash, ascii 'x', Byte.hexDigit (b.toNat / 16), Byte.hexDigit (b.toNat % 16)] ∨
      quotedByte b = [b] ∧ b ≠ Byte.backslash := by
  unfold quotedByte
  split
  · rename_i h
    refine Or.inl ⟨rfl, ?_⟩
    rcases h with rfl | rfl <;> decide
  · rename_i h
    split
    · exact Or.inr (Or.inl rfl)
    · exact Or.inr (Or.inr ⟨rfl, fun heq => h (Or.inr heq)⟩)

/-- A byte between quotes, in front of more text, tells the byte and the text. -/
theorem quotedByte_append_inj {a b : Byte} {s t : Bytes}
    (h : quotedByte a ++ s = quotedByte b ++ t) : a = b ∧ s = t := by
  rcases quotedByte_cases a with ⟨ha, hax⟩ | ha | ⟨ha, hab⟩ <;>
    rcases quotedByte_cases b with ⟨hb, hbx⟩ | hb | ⟨hb, hbb⟩ <;>
    rw [ha, hb] at h <;>
    simp only [List.cons_append, List.nil_append, List.cons.injEq, true_and] at h
  · exact h
  · exact absurd h.1 hax
  · exact absurd h.1.symm hbb
  · exact absurd h.1.symm hbx
  · obtain ⟨hdiv, hmod, hrest⟩ := h
    have hbound : ∀ c : Byte, c.toNat / 16 < 16 := fun c => by have := c.toNat_lt; omega
    have hdiv := hexDigit_inj _ (hbound a) _ (hbound b) hdiv
    have hmod := hexDigit_inj _ (Nat.mod_lt _ (by decide)) _ (Nat.mod_lt _ (by decide)) hmod
    refine ⟨UInt8.toNat_inj.mp ?_, hrest⟩
    omega
  · exact absurd h.1.symm hbb
  · exact absurd h.1 hab
  · exact absurd h.1 hab
  · exact h

/-- A byte between quotes is not nothing. -/
theorem quotedByte_ne_nil (b : Byte) : quotedByte b ≠ [] := by
  rcases quotedByte_cases b with ⟨h, _⟩ | h | ⟨h, _⟩ <;> simp [h]

theorem flatMap_quotedByte_injective :
    ∀ {s t : Bytes}, s.flatMap quotedByte = t.flatMap quotedByte → s = t
  | [], [], _ => rfl
  | [], b :: t, h => absurd h.symm (by simp [quotedByte_ne_nil])
  | a :: s, [], h => absurd h (by simp [quotedByte_ne_nil])
  | a :: s, b :: t, h => by
    rw [List.flatMap_cons, List.flatMap_cons] at h
    obtain ⟨rfl, hrest⟩ := quotedByte_append_inj h
    rw [flatMap_quotedByte_injective hrest]

/-- A text can be read back from between its quotes, whatever its bytes are. -/
theorem quoted_injective : Function.Injective quoted := by
  intro s t h
  simp only [quoted, List.append_assoc] at h
  exact flatMap_quotedByte_injective (List.append_cancel_right (List.append_cancel_left h))

/-- A hexadecimal digit is printable. -/
theorem space_le_hexDigit : ∀ n < 16, Byte.space ≤ Byte.hexDigit n := by decide

/-- A text between quotes has no control characters. -/
theorem isPrintable_quoted (s : Bytes) : IsPrintable (quoted s) := by
  have hbyte : ∀ b : Byte, IsPrintable (quotedByte b) := by
    intro b
    unfold quotedByte
    split
    · rename_i h
      rcases h with rfl | rfl <;> decide
    · split
      · have := b.toNat_lt
        simp only [isPrintable_append, isPrintable_cons]
        exact ⟨by decide, space_le_hexDigit _ (by omega), space_le_hexDigit _ (by omega),
          isPrintable_nil⟩
      · rename_i h
        rw [not_or, UInt8.not_lt] at h
        exact (isPrintable_cons _ _).mpr ⟨h.1, isPrintable_nil⟩
  simp only [quoted, isPrintable_append]
  refine ⟨⟨by decide, ?_⟩, by decide⟩
  intro b hb
  obtain ⟨a, _, hb⟩ := List.mem_flatMap.mp hb
  exact hbyte a b hb

/-! ## Words and constants -/

/-- The first word of a label and what follows it can be told apart. -/
theorem first_word_inj (next : Bytes) {s t r u : Bytes} (hs : Byte.space ∉ s)
    (ht : Byte.space ∉ t) (h : s ++ (Byte.space :: next) ++ r = t ++ (Byte.space :: next) ++ u) :
    s = t ∧ r = u := by
  simp only [List.append_assoc, List.cons_append] at h
  obtain ⟨hword, hrest⟩ := append_cons_inj hs ht h
  exact ⟨hword, List.append_cancel_left hrest⟩

/-- A word of a label after its beginning and what follows it can be told apart. -/
theorem label_word_inj {word : Bytes} (next : Bytes) {s t r u : Bytes} (hs : Byte.space ∉ s)
    (ht : Byte.space ∉ t)
    (h : word ++ s ++ (Byte.space :: next) ++ r = word ++ t ++ (Byte.space :: next) ++ u) :
    s = t ∧ r = u := by
  simp only [List.append_assoc] at h
  have hrest := List.append_cancel_left h
  rw [← List.append_assoc, ← List.append_assoc] at hrest
  exact first_word_inj next hs ht hrest

/-- The first two bytes of the labels of constants. -/
def Constant.headings : List Bytes :=
  [text "No", text "bo", text "in", text "fl", text "co", text "st", text "by", text "El"]

/-- The first two bytes of a constant's label tell its sort. -/
theorem Constant.idxOf_take_label (c : Constant) :
    Constant.headings.idxOf (c.label.take 2) = c.ctorIdx := by
  cases c with
  | boolean value => cases value <;> rfl
  | _ => rfl

/-- The labels of legible constants tell them apart. -/
theorem Constant.label_inj {numbers : Set Binary64}
    (hnum : Set.InjOn FloatFormat.exact.write numbers) {a b : Constant} (ha : a.Legible numbers)
    (hb : b.Legible numbers) (h : a.label = b.label) : a = b := by
  have hsort : a.ctorIdx = b.ctorIdx := by
    rw [← Constant.idxOf_take_label, h, Constant.idxOf_take_label]
  cases a with
  | none =>
    cases b with
    | none => rfl
    | _ => exact nomatch hsort
  | boolean value =>
    cases b with
    | boolean value' => cases value <;> cases value' <;> first | rfl | exact absurd h (by decide)
    | _ => exact nomatch hsort
  | integer digits =>
    cases b with
    | integer digits' => exact congrArg Constant.integer (List.append_cancel_left h)
    | _ => exact nomatch hsort
  | float value =>
    cases b with
    | float value' => exact congrArg Constant.float (hnum ha hb (List.append_cancel_left h))
    | _ => exact nomatch hsort
  | imaginary value =>
    cases b with
    | imaginary value' =>
      have := List.append_cancel_left (List.append_cancel_right h)
      exact congrArg Constant.imaginary (hnum ha hb this)
    | _ => exact nomatch hsort
  | string value =>
    cases b with
    | string value' =>
      exact congrArg Constant.string (quoted_injective (List.append_cancel_left h))
    | _ => exact nomatch hsort
  | bytes value =>
    cases b with
    | bytes value' =>
      exact congrArg Constant.bytes (quoted_injective (List.append_cancel_left h))
    | _ => exact nomatch hsort
  | ellipsis =>
    cases b with
    | ellipsis => rfl
    | _ => exact nomatch hsort

end SyntaxTree
