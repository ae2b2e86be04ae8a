import CardRules.Mana.Production
import CardRules.Proofs.Mana.Symbols
import CardRules.Proofs.Text.Letters
import Mathlib.Algebra.GroupWithZero.Nat
import Mathlib.Data.List.Induction
import Mathlib.Data.List.Nodup

/-!
# How much mana is produced

The mana of an "add" effect is read from the text after the cost, and here it is counted. A text that
says "any color" gives the amount it is asked for. A row of color symbols (`symbolRow`) gives one mana if
there is an "or" in it, and otherwise one mana for each symbol, as long as these are no more than a byte
can count (`size_produced_row`).

`Gives` is what is expected of the text of a mana ability: just the amount it is asked for. A list of
symbols without "or" (`gapsWithoutOr`) is the exception: as a choice it is asked for one mana, and it
gives one of each symbol (`gives_choice`).
-/

set_option autoImplicit false

namespace CardRules

/-- The letter of a color is one of twelve. -/
theorem Color.mem_of_ofSymbol? {c : Char} (h : (ofSymbol? c).isSome) :
    c ∈ "WUBRGCwubrgc".toList := by
  obtain ⟨color, hcolor⟩ := Option.isSome_iff_exists.1 h
  have hupper : color.symbol = c.toUpper := by simpa using List.find?_some hcolor
  have hcases : c = color.symbol ∨ c.toNat = color.symbol.toNat + 32 := by
    rw [hupper]
    delta Char.toUpper
    split
    · rename_i hlower
      obtain ⟨hlow, hhigh⟩ : 97 ≤ c.val.toNat ∧ c.val.toNat ≤ 122 := by
        simpa [UInt32.le_iff_toNat_le] using hlower
      have hshift : ('A'.val - 'a'.val).toNat = 4294967264 := rfl
      simp only [Char.toNat, UInt32.toNat_add]
      omega
    · exact .inl rfl
  have hletter : c = color.symbol ∨ c = color.symbol.toLower := by
    refine hcases.imp_right fun hnat => Char.toNat_inj.1 (hnat.trans ?_)
    cases color <;> rfl
  rcases hletter with rfl | rfl
  · cases color <;> decide
  · cases color <;> decide

namespace Mana

/-! ## Amounts of several colors -/

/-- All the mana of a list of amounts. -/
def size (yields : List (Color × UInt8)) : Nat := (yields.map fun entry => entry.2.toNat).sum

@[simp]
theorem size_nil : size [] = 0 := rfl

@[simp]
theorem size_cons (entry : Color × UInt8) (yields : List (Color × UInt8)) :
    size (entry :: yields) = entry.2.toNat + size yields := by
  simp [size]

@[simp]
theorem size_append (yields more : List (Color × UInt8)) :
    size (yields ++ more) = size yields + size more := by
  simp [size]

variable {yields : List (Color × UInt8)} {yield : Color × UInt8}

theorem size_le_addYield (yields : List (Color × UInt8)) (yield : Color × UInt8) :
    size yields ≤ size (addYield yields yield) := by
  unfold addYield
  split
  · clear * -
    induction yields with
    | nil => exact Nat.le_refl _
    | cons entry yields ih =>
      rw [List.map_cons, size_cons, size_cons]
      have hentry : entry.2.toNat ≤ (Capped.addByte entry.2 yield.2).toNat := by
        have := entry.2.toNat_lt
        rw [Capped.toNat_addByte]
        omega
      split
      · dsimp only
        omega
      · omega
  · rw [size_append]
    exact Nat.le_add_right _ _

theorem size_le_foldl_addYield (more yields : List (Color × UInt8)) :
    size yields ≤ size (more.foldl addYield yields) := by
  induction more generalizing yields with
  | nil => exact Nat.le_refl _
  | cons yield more ih => exact (size_le_addYield yields yield).trans (ih _)

/-- A color is listed once, where it first came. -/
theorem keys_addYield (yields : List (Color × UInt8)) (yield : Color × UInt8) :
    (addYield yields yield).map (·.1) =
      if yield.1 ∈ yields.map (·.1) then yields.map (·.1) else yields.map (·.1) ++ [yield.1] := by
  have hany : (yields.any (·.1 == yield.1)) = true ↔ yield.1 ∈ yields.map (·.1) := by simp
  unfold addYield
  split
  · rename_i hold
    rw [if_pos (hany.1 hold), List.map_map]
    refine List.map_congr_left fun entry _ => ?_
    dsimp only [Function.comp_apply]
    split <;> rfl
  · rename_i hnew
    rw [if_neg (mt hany.2 hnew), List.map_append, List.map_singleton]

theorem nodup_addYield (h : (yields.map (·.1)).Nodup) :
    ((addYield yields yield).map (·.1)).Nodup := by
  rw [keys_addYield]
  split
  · exact h
  · rename_i hnew
    exact List.nodup_append.2 ⟨h, List.nodup_singleton _, fun color hcolor other hother hsame =>
      hnew (List.mem_singleton.1 hother ▸ hsame ▸ hcolor)⟩

/-- An amount is added once, as long as there is room. -/
theorem size_addYield (h : (yields.map (·.1)).Nodup)
    (hroom : size yields + yield.2.toNat ≤ 255) :
    size (addYield yields yield) = size yields + yield.2.toNat := by
  unfold addYield
  split
  · rename_i hany
    induction yields with
    | nil => simp at hany
    | cons entry yields ih =>
      rw [List.map_cons, List.nodup_cons] at h
      rw [size_cons] at hroom
      rw [List.map_cons, size_cons, size_cons]
      by_cases hentry : entry.1 = yield.1
      · have hrest : yields.map (fun entry =>
            if entry.1 == yield.1 then (entry.1, Capped.addByte entry.2 yield.2) else entry) =
              yields := by
          rw [List.map_congr_left (g := id), List.map_id]
          intro other hother
          rw [if_neg, id]
          rintro hkey
          exact h.1 (List.mem_map.2 ⟨other, hother, (beq_iff_eq.1 hkey).trans hentry.symm⟩)
        rw [hrest, if_pos (beq_iff_eq.2 hentry), Capped.toNat_addByte]
        omega
      · have hany : (yields.any fun entry => entry.1 == yield.1) = true := by
          simpa [hentry] using hany
        rw [if_neg (by simpa using hentry), ih h.2 (by omega) hany]
        omega
  · rw [size_append, size_cons, size_nil, Nat.add_zero]

/-- One mana of each of some colors, taken together. -/
def oneEach (colors : List Color) : List (Color × UInt8) :=
  (colors.map fun color => (color, 1)).foldl addYield []

theorem oneEach_spec {colors : List Color} (h : colors.length ≤ 255) :
    ((oneEach colors).map (·.1)).Nodup ∧ size (oneEach colors) = colors.length := by
  induction colors using List.reverseRecOn with
  | nil => exact ⟨List.nodup_nil, rfl⟩
  | append_singleton colors color ih =>
    rw [List.length_append, List.length_singleton] at h
    obtain ⟨hkeys, hsize⟩ := ih (by omega)
    have hone : (color, (1 : UInt8)).2.toNat = 1 := rfl
    rw [oneEach, List.map_append, List.foldl_append, ← oneEach]
    refine ⟨nodup_addYield hkeys, ?_⟩
    rw [List.map_singleton, List.foldl_cons, List.foldl_nil, size_addYield hkeys (by omega), hsize,
      hone, List.length_append, List.length_singleton]

theorem mem_of_mem_keys_oneEach {colors : List Color} {color : Color}
    (h : color ∈ (oneEach colors).map (·.1)) : color ∈ colors := by
  induction colors using List.reverseRecOn with
  | nil => exact h
  | append_singleton colors last ih =>
    rw [oneEach, List.map_append, List.foldl_append, ← oneEach, List.map_singleton, List.foldl_cons,
      List.foldl_nil, keys_addYield] at h
    rw [List.mem_append, List.mem_singleton]
    split at h
    · exact .inl (ih h)
    · exact (List.mem_append.1 h).imp ih List.mem_singleton.1

/-- Beyond a byte, amounts are not exact any more, but they do not get smaller. -/
theorem min_le_size_oneEach (colors : List Color) : min 255 colors.length ≤ size (oneEach colors) := by
  have hfirst : size (oneEach (colors.take 255)) = min 255 colors.length := by
    rw [(oneEach_spec (by rw [List.length_take]; omega)).2, List.length_take]
  have hall : oneEach colors =
      ((colors.drop 255).map fun color => (color, 1)).foldl addYield (oneEach (colors.take 255)) := by
    rw [oneEach, oneEach, ← List.foldl_append, ← List.map_append, List.take_append_drop]
  calc min 255 colors.length = size (oneEach (colors.take 255)) := hfirst.symm
    _ ≤ size (oneEach colors) := hall ▸ size_le_foldl_addYield _ _

/-! ## Rows of symbols -/

/-- Symbols of one letter each, with what stands before them. -/
def symbolRow (parts : List (List Char × Char)) : List Char :=
  parts.flatMap fun part => part.1 ++ ['{', part.2, '}']

/-- A part of a row: a gap without the letters that would matter, and a color symbol. -/
structure IsPart (part : List Char × Char) : Prop where
  gap : ∀ c ∈ Text.lower part.1, c ∉ ['{', ':', 'n']
  color : (Color.ofSymbol? part.2).isSome

variable {parts : List (List Char × Char)}

theorem mem_lower_symbolRow (h : ∀ part ∈ parts, IsPart part) {c : Char}
    (hc : c ∈ Text.lower (symbolRow parts)) :
    (∃ part ∈ parts, c ∈ Text.lower part.1) ∨ c ∈ "\x7b\x7dwubrgc".toList := by
  obtain ⟨d, hd, rfl⟩ := List.mem_map.1 hc
  obtain ⟨part, hpart, hd⟩ := List.mem_flatMap.1 hd
  rcases List.mem_append.1 hd with hgap | hsymbol
  · exact .inl ⟨part, hpart, List.mem_map_of_mem hgap⟩
  · right
    have hletter : ∀ e ∈ "WUBRGCwubrgc".toList, e.toLower ∈ "\x7b\x7dwubrgc".toList :=
      Text.forall_mem_of_all (by decide)
    simp only [List.mem_cons, List.not_mem_nil, or_false] at hsymbol
    rcases hsymbol with rfl | rfl | rfl
    · decide
    · exact hletter _ (Color.mem_of_ofSymbol? (h part hpart).color)
    · decide

/-- What no gap has, and no symbol, is not in the row. -/
theorem not_mem_lower_symbolRow (h : ∀ part ∈ parts, IsPart part) {c : Char}
    (hgap : ∀ part ∈ parts, c ∉ Text.lower part.1) (hc : c ∉ "\x7b\x7dwubrgc".toList) :
    c ∉ Text.lower (symbolRow parts) := by
  intro hmem
  rcases mem_lower_symbolRow h hmem with ⟨part, hpart, hpartc⟩ | hsymbol
  · exact hgap part hpart hpartc
  · exact hc hsymbol

/-- The pieces of a row and its symbols in turn. -/
theorem symbolRow_eq_interleaved (parts : List (List Char × Char)) :
    symbolRow parts = interleaved (parts.map fun part => (part.1, [part.2])) [] := by
  induction parts with
  | nil => rfl
  | cons part parts ih =>
    rw [symbolRow, List.flatMap_cons, ← symbolRow, ih, List.append_assoc]
    rfl

theorem symbolsIn_symbolRow (h : ∀ part ∈ parts, IsPart part) :
    symbolsIn (symbolRow parts) = parts.map fun part => [part.2] := by
  have hparts : ∀ part ∈ parts.map fun part => (part.1, [part.2]),
      '{' ∉ part.1 ∧ part.2 ≠ [] ∧ '}' ∉ part.2 := by
    rw [List.forall_mem_map]
    intro part hpart
    refine ⟨fun hmem => (h part hpart).gap '{' (List.mem_map_of_mem hmem) (by decide), nofun, ?_⟩
    intro hclose
    have hcolor := Color.mem_of_ofSymbol? (h part hpart).color
    rw [← List.mem_singleton.1 hclose] at hcolor
    exact absurd hcolor (by decide)
  rw [symbolRow_eq_interleaved, symbolsIn_interleaved hparts List.not_mem_nil, List.map_map]
  rfl

theorem length_le_symbolRow (parts : List (List Char × Char)) :
    parts.length ≤ (symbolRow parts).length := by
  induction parts with
  | nil => exact Nat.le_refl _
  | cons part parts ih =>
    rw [symbolRow, List.flatMap_cons, ← symbolRow, List.length_cons, List.length_append,
      List.length_append]
    simp only [List.length_cons]
    omega

/-- The colors of the symbols of a row. -/
def rowColors (parts : List (List Char × Char)) : List Color :=
  parts.filterMap fun part => Color.ofSymbol? part.2

theorem length_rowColors (h : ∀ part ∈ parts, IsPart part) :
    (rowColors parts).length = parts.length := by
  rw [rowColors, List.length_filterMap_eq_countP, List.countP_eq_length]
  exact fun part hpart => (h part hpart).color

/-! ## What the text gives -/

/-- The amount as a byte. -/
def byte (amount : Int32) : UInt8 := UInt8.ofNat (min 255 amount.toInt.toNat)

theorem afterCost_of_colon {cost rest : List Char} (h : ':' ∉ rest) :
    afterCost (cost ++ ':' :: rest) = rest := by
  have hrest : ∀ c ∈ rest, (c == ':') = false := by
    intro c hc
    rw [beq_eq_false_iff_ne]
    rintro rfl
    exact h hc
  rw [afterCost, List.splitOn_eq_splitOnP, List.splitOnP_append_cons _ _ (by rfl),
    List.splitOnP_eq_singleton hrest, List.getLast?_append]
  rfl

/-- "Any color" gives the amount, in whatever color is chosen. -/
theorem produced_anyColor {text : String}
    (h : Text.occurs "any color".toList (Text.lower (afterCost text.toList)) = true ∨
      Text.occurs "any one color".toList (Text.lower (afterCost text.toList)) = true)
    (amount : Int32) (choice : Option Color) :
    produced text amount choice = [(choice.getD .white, byte amount)] := by
  unfold produced
  dsimp only
  rw [if_pos (by simpa using h)]
  rfl

/-- A row of symbols says nothing about any color. -/
theorem row_not_any (h : ∀ part ∈ parts, IsPart part) :
    (Text.occurs "any color".toList (Text.lower (symbolRow parts)) ||
      Text.occurs "any one color".toList (Text.lower (symbolRow parts))) = false := by
  have hany : 'n' ∉ Text.lower (symbolRow parts) :=
    not_mem_lower_symbolRow h (fun part hpart hc => (h part hpart).gap _ hc (by decide)) (by decide)
  rw [Text.occurs_eq_false (by decide) hany, Text.occurs_eq_false (by decide) hany, Bool.or_self]

theorem options_symbolRow (h : ∀ part ∈ parts, IsPart part) :
    (symbolsIn (symbolRow parts)).filterMap symbolColor? = rowColors parts := by
  rw [symbolsIn_symbolRow h, List.filterMap_map]
  rfl

theorem exists_rowColors (hne : parts ≠ []) (h : ∀ part ∈ parts, IsPart part) :
    ∃ first rest, rowColors parts = first :: rest := by
  refine List.exists_cons_of_ne_nil (List.ne_nil_of_length_pos ?_)
  rw [length_rowColors h]
  exact List.length_pos_iff.2 hne

/-- With "or" there is one mana, of the color chosen if its symbol is there and else of the first one.
Otherwise there is one mana for each symbol. -/
theorem produced_row {text : String} (hrow : afterCost text.toList = symbolRow parts)
    (hne : parts ≠ []) (h : ∀ part ∈ parts, IsPart part) (amount : Int32) (choice : Option Color) :
    if Text.occurs " or ".toList (Text.lower (symbolRow parts)) then
      ∃ color, (choice.filter (rowColors parts).contains).or (rowColors parts).head? = some color ∧
        produced text amount choice = [(color, max (byte amount) 1)]
    else produced text amount choice = oneEach (rowColors parts) := by
  have hyields : (symbolsIn (symbolRow parts)).filterMap symbolYield? =
      (rowColors parts).map fun color => (color, 1) := by
    rw [symbolsIn_symbolRow h, List.filterMap_map, rowColors, List.map_filterMap]
    refine List.filterMap_congr fun part hpart => ?_
    obtain ⟨color, hcolor⟩ := Option.isSome_iff_exists.1 (h part hpart).color
    simp [symbolYield?, symbolColor?, hcolor]
  obtain ⟨first, rest, hcolors⟩ := exists_rowColors hne h
  have hcount : 0 < size (oneEach (first :: rest)) :=
    Nat.lt_of_lt_of_le (Nat.lt_min.2 ⟨by decide, Nat.succ_pos _⟩)
      (min_le_size_oneEach (first :: rest))
  have hsome : (oneEach (first :: rest)).isEmpty = false := by
    rw [List.isEmpty_eq_false_iff]
    intro hnil
    simp [hnil] at hcount
  unfold produced
  dsimp only
  rw [hrow, options_symbolRow h, hyields, hcolors, ← oneEach, hsome, row_not_any h,
    if_neg Bool.false_ne_true]
  cases Text.occurs " or ".toList (Text.lower (symbolRow parts)) with
  | true =>
    refine ⟨(choice.filter (first :: rest).contains).getD first, ?_, rfl⟩
    cases choice.filter (first :: rest).contains <;> rfl
  | false => rfl

/-- A row with "or" gives one mana, if asked for no more. Another row gives as many as it has symbols,
and at least a byte's worth if there are more. -/
theorem size_produced_row {text : String} (hrow : afterCost text.toList = symbolRow parts)
    (hne : parts ≠ []) (h : ∀ part ∈ parts, IsPart part) (amount : Int32) (choice : Option Color) :
    if Text.occurs " or ".toList (Text.lower (symbolRow parts)) then
      size (produced text amount choice) = (max (byte amount) 1).toNat
    else min 255 parts.length ≤ size (produced text amount choice) ∧
      (parts.length ≤ 255 → size (produced text amount choice) = parts.length) := by
  have hproduced := produced_row hrow hne h amount choice
  split at hproduced
  · rename_i hor
    obtain ⟨color, -, hproduced⟩ := hproduced
    rw [if_pos hor, hproduced, size_cons, size_nil, Nat.add_zero]
  · rename_i hor
    rw [if_neg hor, hproduced, ← length_rowColors h]
    exact ⟨min_le_size_oneEach _, fun hsmall => (oneEach_spec hsmall).2⟩

/-! ## What the text is asked for -/

/-- Whether there is a gap between the symbols of a text after its cost, and no "or". -/
def gapsWithoutOr (text : String) : Bool :=
  let effect := afterCost text.toList
  (effect.dropWhile (· != '{')).contains ' ' && !Text.occurs " or ".toList (Text.lower effect)

/-- A text gives the amount it is asked for, except one that lists symbols without "or". -/
def Gives (text : String) (amount : Int32) : Prop :=
  text.length < UInt32.size → 0 ≤ amount.toInt → amount.toInt ≤ 255 → ∀ choice,
    ((size (produced text amount choice) : Int) = amount.toInt ↔ gapsWithoutOr text = false) ∧
      (gapsWithoutOr text = true → amount = 1 ∧ 2 ≤ size (produced text amount choice))

theorem gives_of_eq {text : String} {amount : Int32} (hgaps : gapsWithoutOr text = false)
    (hsize : text.length < UInt32.size → 0 ≤ amount.toInt → amount.toInt ≤ 255 →
      ∀ choice, (size (produced text amount choice) : Int) = amount.toInt) : Gives text amount := by
  intro hlength hlow hhigh choice
  refine ⟨⟨fun _ => hgaps, fun _ => hsize hlength hlow hhigh choice⟩, ?_⟩
  rw [hgaps]
  exact nofun

theorem toNat_byte {amount : Int32} (hlow : 0 ≤ amount.toInt) (hhigh : amount.toInt ≤ 255) :
    ((byte amount).toNat : Int) = amount.toInt := by
  rw [byte, UInt8.toNat_ofNat']
  omega

/-- "Any color" gives any amount. -/
theorem gives_anyColor {text : String}
    (h : Text.occurs "any color".toList (Text.lower (afterCost text.toList)) = true ∨
      Text.occurs "any one color".toList (Text.lower (afterCost text.toList)) = true)
    (hbrace : '{' ∉ afterCost text.toList) (amount : Int32) : Gives text amount := by
  have hgaps : gapsWithoutOr text = false := by
    have hdrop : (afterCost text.toList).dropWhile (· != '{') = [] := by
      rw [List.dropWhile_eq_nil_iff]
      rintro c hc
      rw [bne_iff_ne]
      rintro rfl
      exact hbrace hc
    rw [gapsWithoutOr, hdrop]
    rfl
  refine gives_of_eq hgaps fun _ hlow hhigh choice => ?_
  rw [produced_anyColor h, size_cons, size_nil, Nat.add_zero, toNat_byte hlow hhigh]

/-- The text of a row after its first gap. -/
theorem dropWhile_symbolRow {lead : List Char} {first : Char} (h : IsPart (lead, first))
    (more : List (List Char × Char)) :
    (symbolRow ((lead, first) :: more)).dropWhile (· != '{') =
      '{' :: first :: '}' :: symbolRow more := by
  have hlead : ∀ c ∈ lead, (c != '{') = true := by
    intro c hc
    rw [bne_iff_ne]
    rintro rfl
    exact h.gap '{' (List.mem_map_of_mem hc) (by decide)
  rw [symbolRow, List.flatMap_cons, ← symbolRow, List.append_assoc, List.dropWhile_append_of_pos hlead]
  rfl

theorem toInt_ofNat_of_nonneg {n : Nat} (h : n < UInt32.size) (hnonneg : 0 ≤ (Int32.ofNat n).toInt) :
    (Int32.ofNat n).toInt = n := by
  rw [Int32.toInt_ofNat'] at hnonneg ⊢
  simp only [Int.bmod_def, UInt32.size, Int32.size] at h hnonneg ⊢
  omega

/-- Symbols without gaps give as many mana as there are. -/
theorem gives_fixed {text : String} {lead : List Char} {first : Char} {more : List (List Char × Char)}
    (hrow : afterCost text.toList = symbolRow ((lead, first) :: more))
    (hparts : ∀ part ∈ (lead, first) :: more, IsPart part) (hlead : 'o' ∉ Text.lower lead)
    (hmore : ∀ part ∈ more, part.1 = []) (hlength : more.length < text.length) :
    Gives text (Int32.ofNat (more.length + 1)) := by
  have hor : Text.occurs " or ".toList (Text.lower (symbolRow ((lead, first) :: more))) = false := by
    refine Text.occurs_eq_false (c := 'o') (by decide) ?_
    refine not_mem_lower_symbolRow hparts (fun part hpart => ?_) (by decide)
    rcases List.mem_cons.1 hpart with rfl | hrest
    · exact hlead
    · simp [hmore part hrest, Text.lower]
  have hgaps : gapsWithoutOr text = false := by
    have hspace : ' ' ∉ Text.lower (symbolRow (([], first) :: more)) := by
      refine not_mem_lower_symbolRow ?_ ?_ (by decide)
      · intro part hpart
        rcases List.mem_cons.1 hpart with rfl | hrest
        · exact ⟨by simp [Text.lower], (hparts (lead, first) (by simp)).color⟩
        · exact hparts part (by simp [hrest])
      · intro part hpart
        rcases List.mem_cons.1 hpart with rfl | hrest
        · simp [Text.lower]
        · simp [hmore part hrest, Text.lower]
    have hnone : ('{' :: first :: '}' :: symbolRow more).contains ' ' = false := by
      rw [← Bool.not_eq_true, List.contains_iff_mem]
      exact fun hmem => hspace (List.mem_map_of_mem hmem)
    rw [gapsWithoutOr, hrow, dropWhile_symbolRow (hparts _ (by simp)), hnone]
    rfl
  refine gives_of_eq hgaps fun hsize hlow hhigh choice => ?_
  have hcount : (Int32.ofNat (more.length + 1)).toInt = (more.length + 1 : Nat) :=
    toInt_ofNat_of_nonneg (by omega) hlow
  have hproduced := size_produced_row hrow (List.cons_ne_nil _ _) hparts
    (Int32.ofNat (more.length + 1)) choice
  rw [hor] at hproduced
  rw [hproduced.2 (by rw [List.length_cons]; omega), hcount, List.length_cons]

/-- A choice of symbols, with a gap before each but the first, gives one mana if it says "or". -/
theorem gives_choice {text : String} {lead : List Char} {first : Char} {more : List (List Char × Char)}
    (hrow : afterCost text.toList = symbolRow ((lead, first) :: more))
    (hparts : ∀ part ∈ (lead, first) :: more, IsPart part) (hne : more ≠ [])
    (hmore : ∀ part ∈ more, ' ' ∈ part.1) : Gives text 1 := by
  have hgap : ('{' :: first :: '}' :: symbolRow more).contains ' ' = true := by
    obtain ⟨second, rest, rfl⟩ := List.exists_cons_of_ne_nil hne
    rw [List.contains_iff_mem]
    simp [symbolRow, hmore second (by simp)]
  have hgaps : gapsWithoutOr text =
      !Text.occurs " or ".toList (Text.lower (symbolRow ((lead, first) :: more))) := by
    rw [gapsWithoutOr, hrow, dropWhile_symbolRow (hparts _ (by simp)), hgap, Bool.true_and]
  intro _ _ _ choice
  have hproduced := size_produced_row hrow (List.cons_ne_nil _ _) hparts 1 choice
  rw [hgaps]
  split at hproduced
  · rename_i hor
    rw [hor, hproduced]
    exact ⟨by decide, nofun⟩
  · rename_i hor
    have htwo : 2 ≤ size (produced text 1 choice) := by
      have hlength : 0 < more.length := List.length_pos_iff.2 hne
      have hleast := hproduced.1
      rw [List.length_cons] at hleast
      omega
    rw [Bool.not_eq_true] at hor
    rw [hor]
    refine ⟨⟨fun hone => ?_, nofun⟩, fun _ => ⟨rfl, htwo⟩⟩
    have hamount : (1 : Int32).toInt = 1 := rfl
    omega

end Mana

end CardRules
