import CardRules.Proofs.Mana.Production

/-!
# Which mana is produced

A text that says "any color" offers the five colors, and any other one the colors of the symbols after
its cost (`offered`). The color chosen is to be taken if it is on offer, and otherwise the first one that
is (`settled?`). A row of symbols keeps to this whatever is chosen. "Any color" takes the choice as it
comes, and so makes colorless mana if this is what was chosen, which no text of that form offers
(`offers_no_colorless`).
-/

set_option autoImplicit false

namespace CardRules

namespace Mana

/-! ## Symbols in a text -/

/-- What is written in braces is found, unless some symbol reaches over an open brace. -/
theorem mem_symbolsFrom {front back : List Char} {letter : Char} (hletter : letter ≠ '}')
    (inside : Option (List Char))
    (h : ∀ symbol ∈ symbolsFrom inside (front ++ '{' :: letter :: '}' :: back), '{' ∉ symbol) :
    [letter] ∈ symbolsFrom inside (front ++ '{' :: letter :: '}' :: back) := by
  induction front generalizing inside with
  | nil =>
    cases inside with
    | none => simp [symbolsFrom, hletter]
    | some seen => simp [symbolsFrom, hletter] at h
  | cons c front ih =>
    cases inside with
    | none =>
      rw [List.cons_append, symbolsFrom] at h ⊢
      split
      · rename_i hopen
        rw [if_pos hopen] at h
        exact ih _ h
      · rename_i hopen
        rw [if_neg hopen] at h
        exact ih _ h
    | some seen =>
      rw [List.cons_append, symbolsFrom] at h ⊢
      by_cases hclosed : c = '}'
      · rw [if_pos hclosed] at h ⊢
        cases hseen : seen.isEmpty with
        | true =>
          rw [hseen, if_pos rfl] at h
          exact ih _ h
        | false =>
          rw [hseen, if_neg Bool.false_ne_true] at h
          exact List.mem_cons_of_mem _ (ih _ fun symbol hsymbol => h symbol (by simp [hsymbol]))
      · rw [if_neg hclosed] at h ⊢
        exact ih _ h

/-- The letters in braces in a row are those of its parts. -/
theorem infix_symbolRow {parts : List (List Char × Char)} (h : ∀ part ∈ parts, IsPart part)
    {letter : Char} (hletter : (Color.ofSymbol? letter).isSome) :
    ['{', letter, '}'] <:+: symbolRow parts ↔ ∃ part ∈ parts, part.2 = letter := by
  have hmark : ∀ {c : Char}, (Color.ofSymbol? c).isSome → c ≠ '{' ∧ c ≠ '}' := by
    intro c hc
    have hplain : ∀ d ∈ "WUBRGCwubrgc".toList, d ≠ '{' ∧ d ≠ '}' := Text.forall_mem_of_all (by decide)
    exact hplain c (Color.mem_of_ofSymbol? hc)
  constructor
  · rintro ⟨front, back, hrow⟩
    have hsymbols : symbolsFrom none (front ++ '{' :: letter :: '}' :: back) =
        parts.map fun part => [part.2] := by
      rw [← symbolsIn_symbolRow h, ← hrow, List.append_assoc]
      rfl
    have hmem : [letter] ∈ symbolsFrom none (front ++ '{' :: letter :: '}' :: back) := by
      refine mem_symbolsFrom (hmark hletter).2 none ?_
      intro symbol hsymbol hopen
      rw [hsymbols] at hsymbol
      obtain ⟨part, hpart, rfl⟩ := List.mem_map.1 hsymbol
      exact (hmark (h part hpart).color).1 (List.mem_singleton.1 hopen).symm
    rw [hsymbols] at hmem
    obtain ⟨part, hpart, hsame⟩ := List.mem_map.1 hmem
    exact ⟨part, hpart, (List.cons.inj hsame).1⟩
  · rintro ⟨part, hpart, rfl⟩
    obtain ⟨before, behind, rfl⟩ := List.append_of_mem hpart
    refine ⟨symbolRow before ++ part.1, symbolRow behind, ?_⟩
    simp [symbolRow]

/-! ## What a text offers -/

/-- Whether any of the five colors may be chosen. -/
def offersAny (text : String) : Bool :=
  let effect := Text.lower (afterCost text.toList)
  Text.occurs "any color".toList effect || Text.occurs "any one color".toList effect

/-- Whether it is left open which color of mana there will be. -/
def leavesChoice (text : String) : Bool :=
  offersAny text || Text.occurs " or ".toList (Text.lower (afterCost text.toList))

/-- The colors on offer: the five, or those of the symbols after the cost. -/
def offered (text : String) : List Color :=
  if offersAny text then Color.five else (symbolsIn (afterCost text.toList)).filterMap symbolColor?

/-- The color that was chosen, or the first one on offer if none was chosen that is. -/
def settled? (text : String) (choice : Option Color) : Option Color :=
  (choice.filter (offered text).contains).or (offered text).head?

/-- The texts of mana abilities. After the cost, "any color" stands without a symbol, or there is nothing
but a row of symbols. -/
inductive IsOffer (text : String) : Prop
  | any (found : offersAny text = true) (plain : '{' ∉ afterCost text.toList)
  | row {parts : List (List Char × Char)} (row : afterCost text.toList = symbolRow parts)
      (nonempty : parts ≠ []) (isPart : ∀ part ∈ parts, IsPart part)

variable {text : String}

theorem offered_of_any (h : offersAny text = true) : offered text = Color.five := if_pos h

theorem offers_no_colorless (h : offersAny text = true) : Color.colorless ∉ offered text := by
  rw [offered_of_any h]
  decide

section Row

variable {parts : List (List Char × Char)} (hrow : afterCost text.toList = symbolRow parts)
  (hparts : ∀ part ∈ parts, IsPart part)

include hrow hparts

theorem not_offersAny_of_row : offersAny text = false := by
  unfold offersAny
  dsimp only
  rw [hrow]
  exact row_not_any hparts

theorem offered_of_row : offered text = rowColors parts := by
  rw [offered, if_neg (by simp [not_offersAny_of_row hrow hparts]), hrow, options_symbolRow hparts]

theorem leavesChoice_of_row :
    leavesChoice text = Text.occurs " or ".toList (Text.lower (symbolRow parts)) := by
  rw [leavesChoice, not_offersAny_of_row hrow hparts, hrow, Bool.false_or]

end Row

/-- Where no color is on offer by name, colors are offered by their symbols. -/
theorem IsOffer.mem_offered (h : IsOffer text) (color : Color) :
    color ∈ offered text ↔
      if offersAny text then color ∈ Color.five
      else ∃ letter, Color.ofSymbol? letter = some color ∧
        ['{', letter, '}'] <:+: afterCost text.toList := by
  cases h with
  | any found plain => rw [if_pos found, offered_of_any found]
  | row row nonempty isPart =>
    rw [if_neg (by simp [not_offersAny_of_row row isPart]), offered_of_row row isPart, row, rowColors,
      List.mem_filterMap]
    constructor
    · rintro ⟨part, hpart, hcolor⟩
      refine ⟨part.2, hcolor, ?_⟩
      exact (infix_symbolRow isPart (by simp [hcolor])).2 ⟨part, hpart, rfl⟩
    · rintro ⟨letter, hcolor, hinfix⟩
      obtain ⟨part, hpart, rfl⟩ := (infix_symbolRow isPart (by simp [hcolor])).1 hinfix
      exact ⟨part, hpart, hcolor⟩

/-- Some color is always on offer, so that a choice is always settled, and by a color on offer. -/
theorem IsOffer.exists_settled (h : IsOffer text) (choice : Option Color) :
    ∃ color ∈ offered text, settled? text choice = some color := by
  obtain ⟨first, rest, hoffered⟩ : ∃ first rest, offered text = first :: rest := by
    cases h with
    | any found plain => exact ⟨_, _, offered_of_any found⟩
    | row row nonempty isPart =>
      rw [offered_of_row row isPart]
      exact exists_rowColors nonempty isPart
  unfold settled?
  cases hchoice : choice.filter (offered text).contains with
  | none => exact ⟨first, by simp [hoffered], by simp [hoffered]⟩
  | some color =>
    obtain ⟨-, hcontains⟩ := Option.filter_eq_some_iff.1 hchoice
    exact ⟨color, List.contains_iff_mem.1 hcontains, rfl⟩

/-- Where a choice is left, the mana is of one color, and it is the settled one unless "any color" is
asked for colorless mana. -/
theorem IsOffer.produced_of_leavesChoice (h : IsOffer text) (hchoice : leavesChoice text = true)
    (amount : Int32) {choice : Option Color}
    (hfine : ¬(offersAny text = true ∧ choice = some .colorless)) {color : Color}
    (hcolor : settled? text choice = some color) :
    ∃ n, produced text amount choice = [(color, n)] := by
  cases h with
  | any found plain =>
    refine ⟨byte amount, ?_⟩
    rw [produced_anyColor (by simpa [offersAny] using found)]
    rw [settled?, offered_of_any found] at hcolor
    cases choice with
    | none =>
      rw [← Option.some.inj hcolor]
      rfl
    | some chosen =>
      have hfive : Color.five.contains chosen = true := by
        cases chosen with
        | colorless => exact absurd ⟨found, rfl⟩ hfine
        | _ => decide
      rw [Option.filter_some, if_pos hfive] at hcolor
      rw [← Option.some.inj hcolor]
      rfl
  | row row nonempty isPart =>
    have hproduced := produced_row row nonempty isPart amount choice
    rw [← leavesChoice_of_row row isPart, if_pos hchoice] at hproduced
    obtain ⟨other, hother, hproduced⟩ := hproduced
    rw [← offered_of_row row isPart, ← settled?, hcolor] at hother
    exact ⟨_, Option.some.inj hother ▸ hproduced⟩

theorem IsOffer.produced_mem_offered (h : IsOffer text) (amount : Int32) {choice : Option Color}
    (hfine : ¬(offersAny text = true ∧ choice = some .colorless)) :
    ∀ entry ∈ produced text amount choice, entry.1 ∈ offered text := by
  cases hchoice : leavesChoice text with
  | true =>
    obtain ⟨color, hoffered, hcolor⟩ := h.exists_settled choice
    obtain ⟨n, hproduced⟩ := h.produced_of_leavesChoice hchoice amount hfine hcolor
    intro entry hentry
    rw [hproduced] at hentry
    rw [List.mem_singleton.1 hentry]
    exact hoffered
  | false =>
    cases h with
    | any found plain => simp [leavesChoice, found] at hchoice
    | row row nonempty isPart =>
      have hproduced := produced_row row nonempty isPart amount choice
      rw [← leavesChoice_of_row row isPart, hchoice, if_neg Bool.false_ne_true] at hproduced
      rw [hproduced, offered_of_row row isPart]
      exact fun entry hentry => mem_of_mem_keys_oneEach (List.mem_map_of_mem hentry)

end Mana

end CardRules
