import SyntaxTree.Grammar.Error
import SyntaxTree.Proofs.Token.Plain
import SyntaxTree.Proofs.Text.Place

/-
# Columns and bytes

A place counts the characters of its line on the way to it, and a message counts them once more to
find the byte of the line again.  Both counts agree in a text whose lines begin with whole
characters, as those of well-formed UTF-8 do, up to a mark in front of the first line that the walk
over the text has left out.
-/

namespace SyntaxTree

/-! ## The line of a place -/

namespace Bytes

/-- How many characters begin in a text. -/
def characters (s : Bytes) : Nat := s.countP (!·.isContinuation)

/-- The line that a text ends in, where its first line has `line` in front. -/
def lastLine (line : Bytes) : Bytes → Bytes
  | [] => line
  | b :: s => if b.isLineEnd then lastLine [] s else lastLine (line ++ [b]) s

/-- The line that a text begins with. -/
def firstLine (s : Bytes) : Bytes := s.takeWhile (!·.isLineEnd)

/-- Lines of which the first has more text in front. -/
def prependLine (line : Bytes) : List Bytes → List Bytes
  | [] => [line]
  | first :: rest => (line ++ first) :: rest

theorem firstLine_cons_of_isLineEnd {b : Byte} (hb : b.isLineEnd) (s : Bytes) :
    firstLine (b :: s) = [] :=
  List.takeWhile_cons_of_neg (by simp [hb])

theorem firstLine_cons {b : Byte} (hb : b.isLineEnd = false) (s : Bytes) :
    firstLine (b :: s) = b :: firstLine s :=
  List.takeWhile_cons_of_pos (by simp [hb])

/-- A text always has a first line. -/
theorem exists_lines_eq (s : Bytes) : ∃ rest, lines s = firstLine s :: rest := by
  fun_induction lines s with
  | case1 => exact ⟨[], rfl⟩
  | case2 b s hpair ih =>
    obtain ⟨rest, hrest⟩ := ih
    obtain ⟨s, rfl⟩ := List.head?_eq_some_iff.mp hpair.2
    rw [firstLine_cons_of_isLineEnd (by decide)] at hrest
    rw [hpair.1, firstLine_cons_of_isLineEnd (by decide)]
    exact ⟨rest, hrest⟩
  | case3 b s _ hend _ => exact ⟨lines s, by rw [firstLine_cons_of_isLineEnd hend]⟩
  | case4 b s _ _ hnil ih =>
    obtain ⟨rest, hrest⟩ := ih
    cases hnil.symm.trans hrest
  | case5 b s _ hend line rest hlines ih =>
    obtain ⟨rest', hrest⟩ := ih
    obtain ⟨rfl, rfl⟩ := List.cons.inj (hlines.symm.trans hrest)
    exact ⟨rest, by rw [firstLine_cons (Bool.eq_false_iff.mpr hend)]⟩

theorem lines_cons {b : Byte} (hb : b.isLineEnd = false) (s : Bytes) :
    lines (b :: s) = prependLine [b] (lines s) := by
  have hreturn : b ≠ Byte.carriageReturn := by
    rintro rfl
    cases hb
  rw [lines, if_neg fun h => hreturn h.1, hb, if_neg Bool.false_ne_true]
  cases lines s <;> rfl

theorem prependLine_nil (s : Bytes) : prependLine [] (lines s) = lines s := by
  obtain ⟨rest, hrest⟩ := exists_lines_eq s
  rw [hrest]
  rfl

theorem prependLine_append (line more : Bytes) (ls : List Bytes) :
    prependLine (line ++ more) ls = prependLine line (prependLine more ls) := by
  cases ls with
  | nil => rfl
  | cons first rest => exact congrArg (· :: rest) (List.append_assoc line more first)

/-- A text without line ends belongs to the first line of what stands behind it. -/
theorem lines_append {mark : Bytes} (h : ∀ b ∈ mark, b.isLineEnd = false) (s : Bytes) :
    lines (mark ++ s) = prependLine mark (lines s) := by
  induction mark with
  | nil => exact (prependLine_nil s).symm
  | cons b mark ih =>
    obtain ⟨hb, hmark⟩ := List.forall_mem_cons.mp h
    rw [List.cons_append, lines_cons hb, ih hmark, ← prependLine_append, List.singleton_append]

/-! ## The line that a text ends in -/

theorem lastLine_cons_of_isLineEnd {b : Byte} (hb : b.isLineEnd) (line s : Bytes) :
    lastLine line (b :: s) = lastLine [] s := by
  rw [lastLine, if_pos hb]

theorem lastLine_cons {b : Byte} (hb : ¬ b.isLineEnd) (line s : Bytes) :
    lastLine line (b :: s) = lastLine (line ++ [b]) s := by
  rw [lastLine, if_neg hb]

theorem lastLine_append (line s t : Bytes) :
    lastLine line (s ++ t) = lastLine (lastLine line s) t := by
  induction s generalizing line with
  | nil => rfl
  | cons b s ih =>
    rw [List.cons_append, lastLine, lastLine]
    split <;> exact ih _

theorem lastLine_of_inLine {s : Bytes} (h : ∀ b ∈ s, b.isLineEnd = false) (line : Bytes) :
    lastLine line s = line ++ s := by
  induction s generalizing line with
  | nil => exact (List.append_nil line).symm
  | cons b s ih =>
    obtain ⟨hb, hs⟩ := List.forall_mem_cons.mp h
    rw [lastLine, hb, if_neg Bool.false_ne_true, ih hs, List.append_assoc, List.singleton_append]

/-- A text is what ends in front of its last line, and that line. -/
theorem exists_append_lastLine (s : Bytes) :
    ∃ u, s = u ++ lastLine [] s ∧ lastLine [] u = [] ∧
      ∀ b ∈ lastLine [] s, b.isLineEnd = false := by
  induction s using List.reverseRecOn with
  | nil => exact ⟨[], rfl, rfl, List.forall_mem_nil _⟩
  | append_singleton s b ih =>
    rw [lastLine_append]
    cases hb : b.isLineEnd with
    | true =>
      have hnil : lastLine (lastLine [] s) [b] = [] := lastLine_cons_of_isLineEnd hb _ []
      exact ⟨s ++ [b], by rw [hnil, List.append_nil], by rw [lastLine_append, hnil],
        by rw [hnil]; exact List.forall_mem_nil _⟩
    | false =>
      obtain ⟨u, hu, hlast, hends⟩ := ih
      have hb' : ∀ c ∈ [b], c.isLineEnd = false := List.forall_mem_singleton.mpr hb
      rw [lastLine_of_inLine hb']
      exact ⟨u, by rw [← List.append_assoc, ← hu], hlast, List.forall_mem_append.mpr ⟨hends, hb'⟩⟩

/-- What stands in front of a pair does not matter for the line behind it. -/
theorem lastLine_pair {b : Byte} {s : Bytes}
    (hpair : b = Byte.carriageReturn ∧ s.head? = some Byte.lineFeed) (line : Bytes) :
    lastLine line (b :: s) = lastLine line s := by
  obtain ⟨rfl, hfeed⟩ := hpair
  obtain ⟨s, rfl⟩ := List.head?_eq_some_iff.mp hfeed
  rfl

end Bytes

open Bytes

/-! ## The walk over a text -/

namespace Position

/-- The line that a walk over a text leads to. -/
theorem getD_lines_advance {front rest : Bytes} (h : PartsNoLineEnd front rest) (p : Position)
    (line : Bytes) :
    (prependLine line (lines (front ++ rest))).getD ((p.advance front).line - p.line).toNat [] =
      lastLine line front ++ firstLine rest := by
  fun_induction advance p front generalizing line with
  | case1 p =>
    obtain ⟨more, hmore⟩ := exists_lines_eq rest
    rw [List.nil_append, hmore, Int.sub_self]
    rfl
  | case2 p b s hpair ih =>
    rw [List.cons_append, lines, if_pos (h.pair_iff.mpr hpair), lastLine_pair hpair]
    exact ih h.tail line
  | case3 p b s hpair hend ih =>
    have hline := line_le_of_le (le_advance p.nextLine s)
    have hcount : ((p.nextLine.advance s).line - p.line).toNat =
        ((p.nextLine.advance s).line - p.nextLine.line).toNat + 1 := by
      simp only [nextLine] at hline ⊢
      omega
    have hbehind := ih h.tail []
    rw [prependLine_nil] at hbehind
    rw [List.cons_append, lines, if_neg (mt h.pair_iff.mp hpair), if_pos hend, hcount,
      lastLine_cons_of_isLineEnd hend]
    exact hbehind
  | case4 p b s hpair hend hcontinuation ih | case5 p b s hpair hend hcontinuation ih =>
    rw [List.cons_append, lines_cons (Bool.eq_false_iff.mpr hend), ← prependLine_append,
      lastLine_cons hend]
    exact ih h.tail (line ++ [b])

/-- A walk within a line stays there. -/
theorem line_advance {s : Bytes} (h : ∀ b ∈ s, b.isLineEnd = false) (p : Position) :
    (p.advance s).line = p.line := by
  fun_induction advance p s with
  | case1 p => rfl
  | case2 p b s hpair ih => exact ih (List.forall_mem_cons.mp h).2
  | case3 p b s _ hend ih => exact absurd hend (by simp [h b List.mem_cons_self])
  | case4 p b s _ _ _ ih => exact ih (List.forall_mem_cons.mp h).2
  | case5 p b s _ _ _ ih => exact ih (List.forall_mem_cons.mp h).2

/-- The columns of a walk count the characters of the line that it leads to. -/
theorem column_advance {p : Position} {line : Bytes} {d : Nat}
    (h : p.column + d = 1 + characters line) (front : Bytes) :
    (p.advance front).column + (if (p.advance front).line = p.line then d else 0 : Nat) =
      1 + characters (lastLine line front) := by
  fun_induction advance p front generalizing line d with
  | case1 p => rwa [if_pos rfl]
  | case2 p b s hpair ih =>
    rw [lastLine_pair hpair]
    exact ih h
  | case3 p b s hpair hend ih =>
    have hline : (p.nextLine.advance s).line ≠ p.line := by
      have := line_le_of_le (le_advance p.nextLine s)
      simp only [nextLine] at this ⊢
      omega
    have hnext : p.nextLine.column + (0 : Nat) = 1 + characters [] := rfl
    rw [lastLine_cons_of_isLineEnd hend, if_neg hline, ← ih hnext, ite_self]
  | case4 p b s hpair hend hcontinuation ih =>
    rw [lastLine_cons hend]
    refine ih ?_
    rw [h, characters, characters, List.countP_append]
    simp [hcontinuation]
  | case5 p b s hpair hend hcontinuation ih =>
    rw [lastLine_cons hend]
    refine ih ?_
    rw [characters, List.countP_append]
    simp [hcontinuation, nextColumn, characters] at h ⊢
    omega

end Position

/-! ## The way back to a byte -/

/-- A line of whole characters, so that its columns lead back to its bytes. -/
def Bytes.IsWhole (s : Bytes) : Prop := ∀ b ∈ s.head?, b.isContinuation = false

theorem Bytes.isWhole_nil : IsWhole [] := fun b hb => by cases hb

theorem Bytes.IsWhole.left {s t : Bytes} (h : IsWhole (s ++ t)) : IsWhole s := by
  cases s with
  | nil => exact isWhole_nil
  | cons b s => exact h

theorem Bytes.IsWhole.firstLine {s : Bytes} (h : IsWhole s) : IsWhole s.firstLine := by
  rw [← List.takeWhile_append_dropWhile (p := (!·.isLineEnd)) (l := s)] at h
  exact h.left

theorem Bytes.IsWhole.append {s t : Bytes} (hs : IsWhole s) (ht : IsWhole t) :
    IsWhole (s ++ t) := by
  cases s with
  | nil => exact ht
  | cons b s => exact hs

/-- What continues a character ends where another one begins. -/
theorem takeWhile_isContinuation {s t : Bytes} (hs : ∀ b ∈ s, b.isContinuation) (ht : IsWhole t) :
    (s ++ t).takeWhile Byte.isContinuation = s ∧ (s ++ t).dropWhile Byte.isContinuation = t :=
  takeWhile_append_stop hs ht

/-- The characters of the beginning of a line take up its bytes. -/
theorem offsetOfColumn_append {s t : Bytes} (hs : IsWhole s) (ht : IsWhole t) :
    offsetOfColumn (characters s) (s ++ t) = s.length := by
  induction hlength : s.length using Nat.strong_induction_on generalizing s with
  | _ n ih =>
    cases s with
    | nil => exact hlength
    | cons b s =>
      -- the first character is `b` and what continues it
      obtain ⟨more, s, rfl, hmore, hs'⟩ : ∃ more u, s = more ++ u ∧
          (∀ c ∈ more, c.isContinuation) ∧ IsWhole u :=
        ⟨_, _, List.takeWhile_append_dropWhile.symm,
          Lexeme.forall_mem_of_dropWhile (by rw [List.takeWhile_append_dropWhile])⟩
      have hcount : characters (b :: (more ++ s)) = characters s + 1 := by
        have hnone : more.countP (!·.isContinuation) = 0 :=
          List.countP_eq_zero.mpr fun c hc => by simp [hmore c hc]
        rw [characters, List.countP_cons_of_pos (by simp [hs b rfl]), List.countP_append, hnone,
          Nat.zero_add, characters]
      obtain ⟨htake, hdrop⟩ := takeWhile_isContinuation hmore (hs'.append ht)
      rw [List.length_cons, List.length_append] at hlength
      rw [hcount, List.cons_append, List.append_assoc, offsetOfColumn, htake, hdrop,
        ih _ (by omega) hs' rfl]
      omega

/-! ## Whole characters -/

theorem Byte.lt_of_isContinuation {b : Byte} (h : b.isContinuation) : b < 0xC2 := by
  have hbits : b &&& 0xC0 = 0x80 := eq_of_beq h
  have htoNat : b.toNat &&& 0xC0 = 0x80 := (UInt8.toNat_and b 0xC0).symm.trans (congrArg _ hbits)
  have hsmall : ∀ n < 256, n &&& 0xC0 = 0x80 → n < 0xC2 := by decide +kernel
  exact UInt8.lt_iff_toNat_lt.mpr (hsmall _ b.toNat_lt htoNat)

namespace Utf8

/-- A character begins with a byte that continues none. -/
theorem not_isContinuation_of_decode? {b : Byte} {s rest : Bytes} {code : Nat}
    (h : decode? (b :: s) = some (code, rest)) : b.isContinuation = false := by
  refine Bool.eq_false_iff.mpr fun hb => ?_
  have hlarge : ¬ b < 0x80 :=
    UInt8.not_lt.mpr (of_decide_eq_true (Byte.isNonAscii_of_isContinuation hb))
  rw [decode?, if_neg hlarge, if_pos (Byte.lt_of_isContinuation hb)] at h
  cases h

theorem isWhole_of_mem_prependLine {line : Bytes} (h : IsWhole line) {ls : List Bytes}
    (hls : ∀ l ∈ ls, IsWhole l) : ∀ l ∈ prependLine line ls, IsWhole l := by
  cases ls with
  | nil => exact List.forall_mem_singleton.mpr h
  | cons first rest =>
    obtain ⟨hfirst, hrest⟩ := List.forall_mem_cons.mp hls
    exact List.forall_mem_cons.mpr ⟨h.append hfirst, hrest⟩

/-- The lines of well-formed text begin with whole characters. -/
theorem isWhole_of_decodeAll? {s : Bytes} {codes : List Nat} (h : decodeAll? s = some codes) :
    ∀ line ∈ lines s, IsWhole line := by
  fun_induction decodeAll? s generalizing codes with
  | case1 => exact List.forall_mem_singleton.mpr isWhole_nil
  | case2 => cases h
  | case3 b tail code rest hdecode _ ih =>
    obtain ⟨codes, hcodes, -⟩ := Option.map_eq_some_iff.mp h
    have hhead : b.isContinuation = false := not_isContinuation_of_decode? hdecode
    have hwhole (t : Bytes) : IsWhole (b :: t) := fun c hc => Option.some.inj hc ▸ hhead
    by_cases hb : b.isNonAscii
    · obtain ⟨t, rfl, ht⟩ := exists_of_decode? hb hdecode
      have hends : ∀ c ∈ b :: t, c.isLineEnd = false := by
        intro c hc
        have hbeyond : c.isNonAscii := by
          rcases List.mem_cons.mp hc with rfl | hc
          · exact hb
          · exact ht c hc
        refine Bool.eq_false_iff.mpr fun hend => ?_
        rcases Byte.isLineEnd_iff.mp hend with rfl | rfl <;> cases hbeyond
      rw [← List.cons_append, lines_append hends]
      exact isWhole_of_mem_prependLine (hwhole t) (ih hcodes)
    · have hsmall : b < 0x80 := by simpa [Byte.isNonAscii] using hb
      rw [decode?, if_pos hsmall] at hdecode
      obtain ⟨-, rfl⟩ := Prod.mk.inj (Option.some.inj hdecode)
      cases hend : b.isLineEnd with
      | true =>
        rw [lines, if_pos hend]
        split
        · exact ih hcodes
        · exact List.forall_mem_cons.mpr ⟨isWhole_nil, ih hcodes⟩
      | false =>
        rw [lines_cons hend]
        exact isWhole_of_mem_prependLine (hwhole []) (ih hcodes)

end Utf8

theorem isWhole_lineAt {ls : List Bytes} (h : ∀ line ∈ ls, IsWhole line) (number : Int) :
    IsWhole (lineAt ls number) := by
  unfold lineAt
  split
  · exact isWhole_nil
  rw [List.getD_eq_getElem?_getD]
  cases hget : ls[(number - 1).toNat]? with
  | none => exact isWhole_nil
  | some line => exact h line (List.mem_of_getElem? hget)

/-! ## Places that are reached -/

/-- A place that the walk over a text reaches between two parts of it, in front of a whole
character. -/
structure Position.IsBetween (p : Position) (front rest : Bytes) : Prop where
  parts : PartsNoLineEnd front rest
  whole : IsWhole rest
  eq : p = origin.advance front

namespace Position.IsBetween

variable {p : Position} {front rest mark : Bytes}

/-- The line of a place, in a text that may have a mark in front. -/
theorem lineAt_eq (h : p.IsBetween front rest) (hmark : ∀ b ∈ mark, b.isLineEnd = false) :
    lineAt (lines (mark ++ (front ++ rest))) p.line = lastLine mark front ++ firstLine rest := by
  have hline : 1 ≤ p.line := h.eq ▸ line_le_of_le (le_advance origin front)
  rw [lineAt, if_neg (by omega), lines_append hmark, h.eq]
  exact getD_lines_advance h.parts origin mark

/-- The characters in front of a place in its line are as many as its columns, and those of a mark
in the first line. -/
theorem column_eq (h : p.IsBetween front rest) (mark : Bytes) :
    (p.column - 1).toNat + (if p.line = 1 then characters mark else 0) =
      characters (lastLine mark front) := by
  have hstart : origin.column + characters mark = 1 + characters mark := rfl
  have hcolumn := column_advance hstart front
  have hpos : 1 ≤ (origin.advance front).column := column_pos_advance (Int.le_refl 1) front
  have hline : origin.line = 1 := rfl
  rw [hline] at hcolumn
  rw [h.eq]
  by_cases hfirst : (origin.advance front).line = 1
  · rw [if_pos hfirst] at hcolumn ⊢
    omega
  · rw [if_neg hfirst] at hcolumn ⊢
    omega

/-- The columns of a place, and the characters of a mark in the first line, lead back to its
byte. -/
theorem offset_eq (h : p.IsBetween front rest) (hmark : ∀ b ∈ mark, b.isLineEnd = false)
    (hwhole : ∀ line ∈ lines (mark ++ (front ++ rest)), IsWhole line) :
    offsetOfColumn ((p.column - 1).toNat + (if p.line = 1 then characters mark else 0))
      (lineAt (lines (mark ++ (front ++ rest))) p.line) = (lastLine mark front).length := by
  have hline := isWhole_lineAt hwhole p.line
  rw [h.lineAt_eq hmark] at hline ⊢
  rw [h.column_eq mark]
  exact offsetOfColumn_append hline.left h.whole.firstLine

/-- A mark is put in at the byte of a place, unless the first line has a mark of its own. -/
theorem insertAtColumn_eq (h : p.IsBetween front rest) (hmark : ∀ b ∈ mark, b.isLineEnd = false)
    (hwhole : ∀ line ∈ lines (mark ++ (front ++ rest)), IsWhole line)
    (hfirst : p.line = 1 → mark = []) (spelling : Bytes) :
    insertAtColumn (lineAt (lines (mark ++ (front ++ rest))) p.line) spelling p.column =
      lastLine mark front ++ spelling ++ firstLine rest := by
  have hnone : (if p.line = 1 then characters mark else 0) = 0 := by
    split
    · next hline =>
      rw [hfirst hline]
      rfl
    · rfl
  have hoffset := h.offset_eq hmark hwhole
  rw [hnone, Nat.add_zero] at hoffset
  rw [insertAtColumn, hoffset, h.lineAt_eq hmark, List.take_left' rfl, List.drop_left' rfl]

/-- The beginning of the line of a place. -/
theorem exists_lineStart (h : p.IsBetween front rest)
    (hwhole : ∀ line ∈ lines (front ++ rest), IsWhole line) :
    ∃ front' rest', front ++ rest = front' ++ rest' ∧
      (⟨p.line, 1⟩ : Position).IsBetween front' rest' := by
  obtain ⟨u, hfront, hlast, hends⟩ := exists_append_lastLine front
  have hwhole' : ∀ line ∈ lines ([] ++ (front ++ rest)), IsWhole line := hwhole
  have hline := isWhole_lineAt hwhole' p.line
  rw [h.lineAt_eq (List.forall_mem_nil _)] at hline
  have hmiddle := hline.left
  generalize lastLine [] front = middle at hfront hends hmiddle
  subst hfront
  have hparts : PartsNoLineEnd u middle := by
    intro _ hfeed
    have := hends _ (List.mem_of_mem_head? hfeed)
    cases this
  refine ⟨u, middle ++ rest, List.append_assoc u middle rest, ?_, hmiddle.append h.whole, ?_⟩
  · cases middle with
    | nil => simpa using h.parts
    | cons b middle => exact hparts
  · have hstart : origin.column + (0 : Nat) = 1 + characters [] := rfl
    have hcolumn := column_advance hstart u
    rw [hlast, ite_self] at hcolumn
    have hplace : (origin.advance u).line = p.line := by
      rw [h.eq, advance_append hparts, line_advance hends]
    have hone : (origin.advance u).column = 1 := (Int.add_zero _).symm.trans hcolumn
    rw [← hplace, ← hone]

end Position.IsBetween

end SyntaxTree
