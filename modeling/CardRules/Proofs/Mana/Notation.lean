import CardRules.Proofs.Cost.Combined
import CardRules.Proofs.Mana.Production

/-!
# The notations of a mana cost

A cost is written in two ways: in symbols (`ManaCost.text`), and in the compact notation of card files,
which is the generic number and then one letter for each X and each colored mana (`ManaCost.compact`).
Both are read one sign after the other, and a sign that is repeated is counted as long as a byte can count
(`foldl_replicate_x`, `foldl_replicate_color`). So each notation gives back the cost that was written
(`ofText_notations`).
-/

set_option autoImplicit false

namespace CardRules

/-! ## Cutting at open braces -/

theorem splitOn_append_of_notMem {c : Char} {front s first : List Char} (h : c ∉ front)
    {rest : List (List Char)} (hs : s.splitOn c = first :: rest) :
    (front ++ s).splitOn c = (front ++ first) :: rest := by
  induction front with
  | nil => exact hs
  | cons d front ih =>
    rw [List.mem_cons, not_or] at h
    rw [List.cons_append, List.splitOn_cons_eq_if_modifyHead, if_neg (by simpa using Ne.symm h.1), ih h.2]
    rfl

/-- An open brace starts a part, which ends at the brace that closes it. -/
theorem symbolParts_symbol {inside : List Char} (hopen : '{' ∉ inside) (hclose : '}' ∉ inside)
    (s : List Char) : symbolParts ('{' :: inside ++ '}' :: s) = inside :: symbolParts s := by
  obtain ⟨first, rest, hs⟩ := List.exists_cons_of_ne_nil (List.splitOnP_ne_nil (· == '{') s)
  have hs : s.splitOn '{' = first :: rest := hs
  have hfront : '{' ∉ inside ++ ['}'] := by simp [hopen]
  have hcut : ('{' :: inside ++ '}' :: s).splitOn '{' = [] :: (inside ++ ['}'] ++ first) :: rest := by
    rw [List.cons_append, List.splitOn_cons_eq_if_modifyHead, if_pos (beq_self_eq_true '{'),
      List.append_cons, splitOn_append_of_notMem hfront hs]
  have hclosed : (inside ++ ['}'] ++ first).takeWhile (· != '}') = inside := by
    have hinside : ∀ c ∈ inside, (c != '}') = true := by
      intro c hc
      rw [bne_iff_ne]
      rintro rfl
      exact hclose hc
    rw [List.append_assoc, List.takeWhile_append_of_pos hinside]
    exact List.append_nil inside
  rw [symbolParts, symbolParts, hcut, hs]
  simp only [List.drop_one, List.tail_cons, List.map_cons, hclosed]

theorem symbolParts_cons {c : Char} (h : c ≠ '{') (s : List Char) :
    symbolParts (c :: s) = symbolParts s := by
  rw [symbolParts, List.splitOn_cons_eq_if_modifyHead, if_neg (by simpa using h), List.drop_one,
    List.tail_modifyHead, ← List.drop_one]
  rfl

theorem braced_cons (symbol : List Char) (symbols : List (List Char)) :
    braced (symbol :: symbols) = '{' :: symbol ++ '}' :: braced symbols := by
  rw [List.append_cons]
  rfl

/-- Symbols without braces inside are what follows the open braces. -/
theorem symbolParts_braced {symbols : List (List Char)}
    (h : ∀ symbol ∈ symbols, '{' ∉ symbol ∧ '}' ∉ symbol) : symbolParts (braced symbols) = symbols := by
  induction symbols with
  | nil => rfl
  | cons symbol symbols ih =>
    rw [List.forall_mem_cons] at h
    rw [braced_cons, symbolParts_symbol h.1.1 h.1.2, ih h.2]

namespace ManaCost

theorem addColor_addColor (cost : ManaCost) (color : Color) (a b : UInt8) :
    (cost.addColor color a).addColor color b = cost.addColor color (Capped.addByte a b) := by
  cases color <;> simp [addColor, amountOf, Capped.addByte_assoc]

@[simp]
theorem addColor_zero (cost : ManaCost) (color : Color) : cost.addColor color 0 = cost := by
  cases color <;> simp [addColor, amountOf]

/-! ## Repeated signs -/

section Repeated

variable {α : Type} {add : ManaCost → α → ManaCost} {sign : α}

theorem foldl_replicate_x (h : ∀ cost, add cost sign = { cost with x := cost.x + 1 }) (n : Nat)
    (cost : ManaCost) :
    (List.replicate n sign).foldl add cost = { cost with x := cost.x + UInt8.ofNat n } := by
  induction n with
  | zero => simp
  | succ n ih =>
    rw [List.replicate_succ', List.foldl_append, ih, List.foldl_cons, List.foldl_nil, h,
      UInt8.ofNat_add, UInt8.add_assoc]
    rfl

theorem foldl_replicate_color {color : Color} (h : ∀ cost, add cost sign = cost.addColor color 1)
    {n : Nat} (hn : n ≤ 255) (cost : ManaCost) :
    (List.replicate n sign).foldl add cost = cost.addColor color (UInt8.ofNat n) := by
  induction n with
  | zero => exact (addColor_zero cost color).symm
  | succ n ih =>
    have hless : n ≤ 255 := Nat.le_of_succ_le hn
    have hone : Capped.addByte (UInt8.ofNat n) 1 = UInt8.ofNat (n + 1) := by
      rw [← UInt8.toNat_inj, Capped.toNat_addByte, UInt8.toNat_ofNat_of_lt' (Nat.lt_succ_of_le hless),
        UInt8.toNat_ofNat_of_lt' (Nat.lt_succ_of_le hn)]
      exact Nat.min_eq_right hn
    rw [List.replicate_succ', List.foldl_append, ih hless, List.foldl_cons, List.foldl_nil, h,
      addColor_addColor, hone]

/-- One sign for each colored mana, color after color, is counted to the colored mana of the cost. -/
theorem foldl_colors {sign : Color → α} (h : ∀ cost color, add cost (sign color) = cost.addColor color 1)
    (cost : ManaCost) (generic x : UInt8) :
    (Color.all.flatMap fun color => List.replicate (cost.amountOf color).toNat (sign color)).foldl add
      { generic, x } = { cost with generic, x } := by
  have hcolor (color : Color) (read : ManaCost) :
      (List.replicate (cost.amountOf color).toNat (sign color)).foldl add read =
        read.addColor color (cost.amountOf color) := by
    rw [foldl_replicate_color (fun read => h read color) (Nat.le_of_lt_succ (UInt8.toNat_lt _)),
      UInt8.ofNat_toNat]
  rw [List.foldl_flatMap]
  simp only [hcolor, Color.all, List.foldl_cons, List.foldl_nil]
  simp [addColor, amountOf]

end Repeated

/-! ## One sign -/

/-- One letter for each X and each colored mana. -/
def letters (cost : ManaCost) : List Char :=
  List.replicate cost.x.toNat 'X' ++
    Color.all.flatMap fun color => List.replicate (cost.amountOf color).toNat color.symbol

/-- The compact notation of a cost. -/
def compact (cost : ManaCost) : List Char := Text.digits cost.generic.toNat ++ cost.letters

theorem addSymbol_x (cost : ManaCost) : cost.addSymbol ['X'] = { cost with x := cost.x + 1 } := rfl

theorem addSymbol_symbol (cost : ManaCost) (color : Color) :
    cost.addSymbol [color.symbol] = cost.addColor color 1 := by
  cases color <;> rfl

theorem addSymbol_digits (cost : ManaCost) (n : UInt8) :
    cost.addSymbol (Text.digits n.toNat) =
      { cost with generic := Capped.addByte cost.generic n } := by
  unfold addSymbol
  dsimp only
  rw [Text.trim_digits, Text.byte?_digits]

theorem addLetter_x (cost : ManaCost) : cost.addLetter 'X' = { cost with x := cost.x + 1 } := rfl

theorem addLetter_symbol (cost : ManaCost) (color : Color) :
    cost.addLetter color.symbol = cost.addColor color 1 := by
  cases color <;> rfl

/-- Digits are counted apart from the letters. -/
theorem addLetter_digit (cost : ManaCost) {c : Char} (h : c.isDigit = true) :
    cost.addLetter c = cost := by
  have hcolor : Color.ofSymbol? c = none := by
    rw [← Option.not_isSome_iff_eq_none]
    intro hsome
    have hletters : ∀ letter ∈ "WUBRGCwubrgc".toList, letter.isDigit = false :=
      Text.forall_mem_of_all (by decide)
    rw [hletters c (Color.mem_of_ofSymbol? hsome)] at h
    exact Bool.false_ne_true h
  unfold addLetter
  rw [if_neg, hcolor]
  rintro (rfl | rfl)
  · exact absurd h (by decide)
  · exact absurd h (by decide)

/-! ## Symbols -/

theorem mem_symbols_cases {cost : ManaCost} {symbol : List Char} (h : symbol ∈ cost.symbols) :
    symbol = ['X'] ∨ symbol = Text.digits cost.generic.toNat ∨ ∃ color : Color, symbol = [color.symbol] := by
  simp only [symbols, List.mem_append, List.mem_replicate, List.mem_flatMap] at h
  rcases h with (⟨-, rfl⟩ | hnumber) | ⟨color, -, -, rfl⟩
  · exact .inl rfl
  · split at hnumber
    · exact .inr (.inl (List.mem_singleton.mp hnumber))
    · exact absurd hnumber List.not_mem_nil
  · exact .inr (.inr ⟨color, rfl⟩)

/-- Symbols are made of letters and digits. -/
theorem isAlphanum_of_mem_symbols {cost : ManaCost} {symbol : List Char} (h : symbol ∈ cost.symbols) :
    symbol ≠ [] ∧ ∀ c ∈ symbol, c.isAlphanum = true := by
  rcases mem_symbols_cases h with rfl | rfl | ⟨color, rfl⟩
  · exact ⟨List.cons_ne_nil _ _, Text.forall_mem_of_all (by decide)⟩
  · exact ⟨Nat.toDigits_ne_nil, fun c hc => Text.isAlphanum_iff.mpr (.inr (Text.isDigit_of_mem_digits hc))⟩
  · refine ⟨List.cons_ne_nil _ _, Text.forall_mem_of_all ?_⟩
    cases color <;> decide

theorem not_brace_of_mem_symbols {cost : ManaCost} {symbol : List Char} (h : symbol ∈ cost.symbols) :
    '{' ∉ symbol ∧ '}' ∉ symbol := by
  have hletters := (isAlphanum_of_mem_symbols h).2
  exact ⟨fun hc => absurd (hletters '{' hc) (by decide), fun hc => absurd (hletters '}' hc) (by decide)⟩

/-- The symbols of a cost add up to it. -/
theorem foldl_symbols (cost : ManaCost) : cost.symbols.foldl addSymbol {} = cost := by
  have hnumber : (if 0 < cost.generic || cost.isFree then [Text.digits cost.generic.toNat] else []).foldl
      addSymbol { x := cost.x } = { generic := cost.generic, x := cost.x } := by
    split
    · rw [List.foldl_cons, List.foldl_nil, addSymbol_digits, Capped.zero_addByte]
    · rename_i hnone
      -- the number that is not written is zero
      have hzero : cost.generic = 0 := by
        simp only [Bool.or_eq_true, decide_eq_true_eq, not_or, UInt8.not_lt] at hnone
        exact UInt8.le_zero_iff.mp hnone.1
      rw [List.foldl_nil, hzero]
  rw [symbols, List.foldl_append, List.foldl_append, foldl_replicate_x addSymbol_x, UInt8.ofNat_toNat,
    UInt8.zero_add, hnumber, foldl_colors addSymbol_symbol]

/-- Something is written for every cost. -/
theorem symbols_ne_nil (cost : ManaCost) : cost.symbols ≠ [] := by
  intro hnil
  have hempty : cost = {} := by
    rw [← foldl_symbols cost, hnil]
    rfl
  rw [hempty] at hnil
  exact absurd hnil (by decide)

/-! ## Letters -/

theorem not_digit_of_mem_letters {cost : ManaCost} {c : Char} (h : c ∈ cost.letters) :
    c.isDigit = false ∧ c ≠ '{' := by
  simp only [letters, List.mem_append, List.mem_replicate, List.mem_flatMap] at h
  rcases h with ⟨-, rfl⟩ | ⟨color, -, -, rfl⟩
  · decide
  · cases color <;> decide

/-- The letters of a cost add up to it, but for its number. -/
theorem foldl_letters (cost : ManaCost) : cost.letters.foldl addLetter {} = { cost with generic := 0 } := by
  rw [letters, List.foldl_append, foldl_replicate_x addLetter_x, UInt8.ofNat_toNat, UInt8.zero_add,
    foldl_colors addLetter_symbol]

/-- Characters that count for nothing leave a cost as it is. -/
theorem foldl_idle {s : List Char} (h : ∀ c ∈ s, ∀ cost : ManaCost, cost.addLetter c = cost)
    (cost : ManaCost) : s.foldl addLetter cost = cost := by
  induction s with
  | nil => rfl
  | cons c s ih =>
    rw [List.forall_mem_cons] at h
    rw [List.foldl_cons, h.1, ih h.2]

theorem ofCompact_compact (cost : ManaCost) : ofCompact cost.compact = cost := by
  have hdigits : ∀ c ∈ Text.digits cost.generic.toNat, c.isDigit = true :=
    fun _ hc => Text.isDigit_of_mem_digits hc
  have hnumber : cost.compact.filter Char.isDigit = Text.digits cost.generic.toNat := by
    have hletters : cost.letters.filter Char.isDigit = [] :=
      List.filter_eq_nil_iff.mpr fun c hc => by simp [(not_digit_of_mem_letters hc).1]
    rw [compact, List.filter_append, List.filter_eq_self.mpr hdigits, hletters, List.append_nil]
  rw [ofCompact, hnumber, Text.byte?_digits, Option.getD_some, compact, List.foldl_append,
    foldl_idle fun c hc cost => addLetter_digit cost (hdigits c hc), foldl_letters]

/-- The two notations of a cost are both read as the cost that was written, whatever its amounts. -/
theorem ofText_notations (cost : ManaCost) :
    ofText cost.text.toList = cost ∧ ofText cost.compact = cost := by
  constructor
  · have hbrace : (braced cost.symbols).contains '{' = true := by
      obtain ⟨symbol, symbols, hsymbols⟩ := List.exists_cons_of_ne_nil cost.symbols_ne_nil
      rw [hsymbols]
      exact List.contains_iff_mem.mpr List.mem_cons_self
    rw [text, String.toList_ofList, ofText, if_pos hbrace,
      symbolParts_braced fun _ => not_brace_of_mem_symbols, foldl_symbols]
  · have hbrace : '{' ∉ cost.compact := by
      intro hc
      rcases List.mem_append.mp hc with hdigit | hletter
      · exact absurd (Text.isDigit_of_mem_digits hdigit) (by decide)
      · exact (not_digit_of_mem_letters hletter).2 rfl
    rw [ofText, if_neg (mt List.contains_iff_mem.mp hbrace), ofCompact_compact]

example : ({ generic := 12, red := 2, green := 1, x := 1 } : ManaCost).compact = "12XRRG".toList := by
  decide

end ManaCost

end CardRules
