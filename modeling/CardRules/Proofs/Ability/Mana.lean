import CardRules.Proofs.Ability.Drafted
import CardRules.Proofs.Ability.Refining
import CardRules.Proofs.Mana.Offered

/-!
# Mana abilities add what they were read to add

The mana of an ability is read twice. The amount of its effect is counted when its sentence is read;
which mana it is, is read from the sentence again when the ability is used. Both readings see the same
row of symbols after the colon (`symbolRow`), and agree about it, but for one way to write it: "Add {R}
{G}" is read as a choice, with an amount of one, although it does not say "or", and it gives both.
-/

set_option autoImplicit false

namespace CardRules

namespace Phrasing

open Text Text.Reader Mana

/-! ## What the parts read -/

/-- What stands between a colon and the mana: blanks and the word "add". -/
def IsLead (lead : List Char) : Prop := ∀ c ∈ lower lead, c ∉ ['{', ':', 'n', 'o']

/-- A cost ends at the first colon, and the word "add" stands behind it. -/
theorem reads_addWords :
    addCost.Reads fun cost front => ∃ blanks add, front = cost ++ ':' :: (blanks ++ add) ∧
      (∀ c ∈ blanks, isBlank c = true) ∧ add.map fold = "add ".toList := by
  refine Reads.mono ((reads_upTo ':').bind fun cost => (reads_skip isBlank).bind fun _ =>
    (reads_words "add ").bind fun _ => .pure cost) ?_
  rintro _ _ ⟨cost, _, _, rfl, ⟨rfl, -⟩, _, blanks, _, rfl, hblanks, _, add, _, rfl, hadd, rfl, rfl⟩
  exact ⟨blanks, add, by simp, hblanks, hadd⟩

theorem reads_addCost :
    addCost.Reads fun cost front => ∃ lead, front = cost ++ ':' :: lead ∧ IsLead lead := by
  refine reads_addWords.mono ?_
  rintro cost _ ⟨blanks, add, rfl, hblanks, hadd⟩
  refine ⟨blanks ++ add, rfl, ?_⟩
  intro c hc
  rw [lower, List.map_append, List.mem_append] at hc
  rcases hc with hblank | hword
  · obtain ⟨d, hd, rfl⟩ := List.mem_map.mp hblank
    have hc := hblanks d hd
    rw [← isBlank_toLower] at hc
    intro hmem
    simp only [List.mem_cons, List.not_mem_nil, or_false] at hmem
    rcases hmem with h | h | h | h <;> rw [h] at hc <;> exact absurd hc (by decide)
  · rw [← lower, lower_of_fold hadd (by decide) (by decide)] at hword
    have hplain : ∀ c ∈ "add ".toList, c ∉ ['{', ':', 'n', 'o'] := forall_mem_of_all (by decide)
    exact hplain c hword

/-- A symbol after a gap of some form. -/
def IsSymbolAfter (gap : List Char → Prop) (symbol : List Char) (front : List Char) : Prop :=
  ∃ part : List Char × Char, symbol = [part.2] ∧ front = symbolRow [part] ∧ gap part.1 ∧
    (Color.ofSymbol? part.2).isSome

theorem reads_colorSymbol : colorSymbol.Reads (IsSymbolAfter (· = [])) := by
  refine Reads.mono ((reads_words "\x7b").bind fun _ => (reads_oneChar _).bind fun letter =>
    (reads_words "\x7d").bind fun _ => .pure [letter]) ?_
  rintro _ _ ⟨_, opening, _, rfl, hopening, letter, _, _, rfl, ⟨rfl, hletter⟩, _, closing, _, rfl, hclosing,
    rfl, rfl⟩
  obtain rfl := eq_of_map_fold hopening (by decide)
  obtain rfl := eq_of_map_fold hclosing (by decide)
  exact ⟨([], letter), rfl, rfl, rfl, hletter⟩

/-- Symbols one after the other, each after its gap, make a row. -/
theorem reads_symbols {reader : Reader (List Char)} {gap : List Char → Prop}
    (h : reader.Reads (IsSymbolAfter gap)) :
    (times reader).Reads fun symbols text => ∃ parts : List (List Char × Char),
      symbols = parts.map (fun part => [part.2]) ∧ text = symbolRow parts ∧
        ∀ part ∈ parts, gap part.1 ∧ (Color.ofSymbol? part.2).isSome := by
  refine Reads.mono h.times ?_
  rintro _ _ ⟨ways, rfl, rfl, hways⟩
  induction ways with
  | nil => exact ⟨[], rfl, rfl, by simp⟩
  | cons way ways ih =>
    obtain ⟨part, hsymbol, htext, hgap, hcolor⟩ := hways way (by simp)
    obtain ⟨parts, hsymbols, hrow, hparts⟩ := ih fun other hother => hways other (by simp [hother])
    refine ⟨part :: parts, ?_, ?_, ?_⟩
    · rw [List.map_cons, hsymbol, hsymbols, List.map_cons]
    · rw [List.flatMap_cons, htext, hrow]
      simp [symbolRow]
    · rintro other hother
      rcases List.mem_cons.mp hother with rfl | hrest
      · exact ⟨hgap, hcolor⟩
      · exact hparts other hrest

/-- What stands between two symbols of a choice. -/
def IsChoiceGap (gap : List Char) : Prop :=
  lower gap ∈ [" ", ", ", " or ", ", or "].map String.toList

theorem reads_choiceSymbol :
    Reads (IsSymbolAfter IsChoiceGap) (do
      let _ ← flag (words ",")
      words " "
      let _ ← flag (words "or ")
      colorSymbol) := by
  refine Reads.mono ((reads_words ",").flag.bind fun _ => (reads_words " ").bind fun _ =>
    (reads_words "or ").flag.bind fun _ => reads_colorSymbol) ?_
  rintro _ _ ⟨comma, comma', _, rfl, hcomma, _, space, _, rfl, hspace, or, or', _, rfl, hor,
    ⟨_, letter⟩, rfl, rfl, rfl, hcolor⟩
  obtain rfl := eq_of_map_fold (c := ' ') hspace (by decide)
  refine ⟨(comma' ++ ' ' :: or', letter), rfl, by simp [symbolRow], ?_, hcolor⟩
  have hcomma : lower comma' ∈ ["", ","].map String.toList := by
    cases comma with
    | false => simp [show comma' = [] from hcomma, lower]
    | true =>
      obtain ⟨_, hcomma⟩ := hcomma
      simp [lower_of_fold hcomma (by decide) (by decide)]
  have hor : lower or' ∈ ["", "or "].map String.toList := by
    cases or with
    | false => simp [show or' = [] from hor, lower]
    | true =>
      obtain ⟨_, hor⟩ := hor
      simp [lower_of_fold hor (by decide) (by decide)]
  have hgap : lower (comma' ++ ' ' :: or') = lower comma' ++ ' ' :: lower or' := by simp [lower]
  rw [IsChoiceGap, hgap]
  simp only [List.map_cons, List.map_nil, List.mem_cons, List.not_mem_nil, or_false] at hcomma hor
  rcases hcomma with hcomma | hcomma <;> rcases hor with hor | hor <;> rw [hcomma, hor] <;> decide

/-! ## The drafts -/

/-- A draft of a mana ability has one effect, and its text gives what this effect asks for. -/
def AddsAsWritten (draft : Draft) (text : List Char) : Prop :=
  ∃ effect, draft.effects = [effect] ∧ effect.kind = .addMana ∧ effect.targets = [] ∧
    Gives (String.ofList text) effect.magnitude

theorem addsAsWritten_of_manaDraft {cost text : List Char} {effect : Effect}
    (hkind : effect.kind = .addMana) (htargets : effect.targets = [])
    (h : Gives (String.ofList text) effect.magnitude) :
    ∀ draft ∈ manaDraft cost effect, AddsAsWritten draft text := by
  intro draft hdraft
  unfold manaDraft at hdraft
  split at hdraft
  · rw [← Option.some.inj hdraft]
    exact ⟨effect, rfl, hkind, htargets, h⟩
  · simp at hdraft

theorem isPart_lead {lead : List Char} {first : Char} (hlead : IsLead lead)
    (hfirst : (Color.ofSymbol? first).isSome) : IsPart (lead, first) :=
  ⟨fun c hc hmem => hlead c hc (by simp at hmem ⊢; tauto), hfirst⟩

theorem IsChoiceGap.isPart {part : List Char × Char} (hgap : IsChoiceGap part.1)
    (hcolor : (Color.ofSymbol? part.2).isSome) : IsPart part ∧ ' ' ∈ part.1 := by
  have hall : ∀ gap ∈ [" ", ", ", " or ", ", or "].map String.toList,
      (gap.all fun c => decide (c ∉ ['{', ':', 'n'])) = true ∧ ' ' ∈ gap := by decide
  obtain ⟨hplain, hspace⟩ := hall _ hgap
  obtain ⟨c, hc, hlower⟩ := List.mem_map.mp hspace
  rw [← eq_of_toLower hlower (by decide)]
  exact ⟨⟨forall_mem_of_all hplain, hcolor⟩, hc⟩

/-- The text after the cost of a mana ability. -/
theorem afterCost_ofList (cost : List Char) {row : List Char} (h : ':' ∉ row) :
    afterCost (String.ofList (cost ++ ':' :: row)).toList = row := by
  rw [String.toList_ofList, afterCost_of_colon h]

theorem colon_not_mem_symbolRow {parts : List (List Char × Char)} (h : ∀ part ∈ parts, IsPart part) :
    ':' ∉ symbolRow parts := by
  intro hmem
  refine not_mem_lower_symbolRow h ?_ (by decide) (List.mem_map_of_mem (f := Char.toLower) hmem)
  exact fun part hpart hc => (h part hpart).gap _ hc (by decide)

/-- "{T}: Add {G}{G}" is asked for two mana and gives two. -/
theorem reads_manaFixed :
    manaFixed.reader.Reads fun draft? text =>
      IsOffer (String.ofList text) ∧ ∀ draft ∈ draft?, AddsAsWritten draft text := by
  refine Reads.mono (reads_addCost.bind fun cost => reads_colorSymbol.bind fun first =>
    (reads_symbols reads_colorSymbol).bind fun more => .pure _) ?_
  rintro _ _ ⟨cost, _, _, rfl, ⟨lead, rfl, hlead⟩, _, _, _, rfl, ⟨⟨_, first⟩, rfl, rfl, rfl, hfirst⟩,
    _, _, _, rfl, ⟨more, rfl, rfl, hmore⟩, rfl, rfl⟩
  have htext : cost ++ ':' :: lead ++ (symbolRow [([], first)] ++ (symbolRow more ++ [])) =
      cost ++ ':' :: symbolRow ((lead, first) :: more) := by
    simp [symbolRow]
  have hparts : ∀ part ∈ (lead, first) :: more, IsPart part := by
    intro part hpart
    rcases List.mem_cons.mp hpart with rfl | hrest
    · exact isPart_lead hlead hfirst
    · exact ⟨by simp [(hmore part hrest).1, lower], (hmore part hrest).2⟩
  have hlength : more.length <
      (String.ofList (cost ++ ':' :: symbolRow ((lead, first) :: more))).length := by
    have hrow := length_le_symbolRow ((lead, first) :: more)
    rw [List.length_cons] at hrow
    rw [String.length_ofList, List.length_append, List.length_cons]
    omega
  have hrow := afterCost_ofList cost (colon_not_mem_symbolRow hparts)
  rw [htext]
  refine ⟨.row hrow (List.cons_ne_nil _ _) hparts, addsAsWritten_of_manaDraft rfl rfl ?_⟩
  rw [List.length_cons, List.length_map]
  exact gives_fixed hrow hparts (fun ho => hlead 'o' ho (by decide)) (fun part hpart => (hmore part hpart).1)
    hlength

/-- "{T}: Add {R} or {G}" is asked for one mana. -/
theorem reads_manaChoice :
    manaChoice.reader.Reads fun draft? text =>
      IsOffer (String.ofList text) ∧ ∀ draft ∈ draft?, AddsAsWritten draft text := by
  refine Reads.mono (reads_addCost.bind fun cost => reads_colorSymbol.bind fun first =>
    (reads_symbols reads_choiceSymbol).bind fun more => .pure _) ?_
  rintro _ _ ⟨cost, _, _, rfl, ⟨lead, rfl, hlead⟩, _, _, _, rfl, ⟨⟨_, first⟩, rfl, rfl, rfl, hfirst⟩,
    _, _, _, rfl, ⟨more, rfl, rfl, hmore⟩, rfl, rfl⟩
  have htext : cost ++ ':' :: lead ++ (symbolRow [([], first)] ++ (symbolRow more ++ [])) =
      cost ++ ':' :: symbolRow ((lead, first) :: more) := by
    simp [symbolRow]
  have hparts : ∀ part ∈ (lead, first) :: more, IsPart part := by
    intro part hpart
    rcases List.mem_cons.mp hpart with rfl | hrest
    · exact isPart_lead hlead hfirst
    · exact ((hmore part hrest).1.isPart (hmore part hrest).2).1
  have hrow := afterCost_ofList cost (colon_not_mem_symbolRow hparts)
  rw [htext]
  refine ⟨.row hrow (List.cons_ne_nil _ _) hparts, ?_⟩
  intro draft hdraft
  split at hdraft
  · simp at hdraft
  · rename_i hne
    refine addsAsWritten_of_manaDraft rfl rfl ?_ draft hdraft
    exact gives_choice hrow hparts (by simpa using hne) fun part hpart =>
      ((hmore part hpart).1.isPart (hmore part hpart).2).2

section AnyColor

variable {lead n one row : List Char}
  (hlower : lower row = lower lead ++ lower n ++ " mana of any ".toList ++ one ++ "color".toList)
  (hone : one = [] ∨ one = "one ".toList)

include hlower hone

theorem occurs_anyColor :
    occurs "any color".toList (lower row) = true ∨ occurs "any one color".toList (lower row) = true := by
  rw [hlower]
  rcases hone with rfl | rfl
  · exact .inl (infix_iff_occurs.mpr ⟨lower lead ++ lower n ++ " mana of ".toList, [], by simp⟩)
  · exact .inr (infix_iff_occurs.mpr ⟨lower lead ++ lower n ++ " mana of ".toList, [], by simp⟩)

/-- There is no colon and no symbol after the cost. -/
theorem marks_not_mem_anyColor (hlead : IsLead lead) (hn : ∀ c ∈ n, isWordChar c = true) :
    ∀ c ∈ [':', '{'], c ∉ row := by
  intro c hc hmem
  have hmark : ∀ c ∈ [':', '{'], c.toLower = c ∧ (c.toNat < 97 ∨ 122 < c.toNat) ∧
      isWordChar c = false ∧ c ∉ " mana of any ".toList ∧ c ∉ [] ∧ c ∉ "one ".toList ∧
      c ∉ "color".toList ∧ c ∈ ['{', ':', 'n', 'o'] :=
    forall_mem_of_all (by decide)
  obtain ⟨hsame, hbeyond, hnoWord, hnotMana, hnotNil, hnotOne, hnotColor, hnotLead⟩ := hmark c hc
  have hlow : c ∈ lower row := List.mem_map.mpr ⟨c, hmem, hsame⟩
  rw [hlower] at hlow
  simp only [List.mem_append] at hlow
  rcases hlow with (((hc | hc) | hc) | hc) | hc
  · exact hlead c hc hnotLead
  · obtain ⟨d, hd, hdc⟩ := List.mem_map.mp hc
    obtain rfl := eq_of_toLower hdc hbeyond
    exact absurd (hn d hd) (by rw [hnoWord]; decide)
  · exact hnotMana hc
  · rcases hone with rfl | rfl
    · exact hnotNil hc
    · exact hnotOne hc
  · exact hnotColor hc

end AnyColor

/-- "{T}: Add three mana of any color" is asked for as much as it says, and gives it. -/
theorem reads_manaAnyColor :
    manaAnyColor.reader.Reads fun draft? text =>
      IsOffer (String.ofList text) ∧ ∀ draft ∈ draft?, AddsAsWritten draft text := by
  refine Reads.mono (reads_addCost.bind fun cost => (reads_runs _).bind fun n =>
    (reads_words " mana of any ").bind fun _ => (reads_words "one ").flag.bind fun _ =>
    (reads_words "color").bind fun _ => .pure _) ?_
  rintro _ _ ⟨cost, _, _, rfl, ⟨lead, rfl, hlead⟩, n, _, _, rfl, ⟨rfl, -, hn⟩, _, mana, _, rfl, hmana,
    there, one, _, rfl, hone, _, color, _, rfl, hcolor, rfl, rfl⟩
  have hmana : lower mana = " mana of any ".toList := lower_of_fold hmana (by decide) (by decide)
  have hcolor : lower color = "color".toList := lower_of_fold hcolor (by decide) (by decide)
  have hone : lower one = [] ∨ lower one = "one ".toList := by
    cases there with
    | false => exact .inl (by simp [show one = [] from hone, lower])
    | true =>
      obtain ⟨_, hone⟩ := hone
      exact .inr (lower_of_fold hone (by decide) (by decide))
  have hlower : lower (lead ++ (n ++ (mana ++ (one ++ (color ++ []))))) =
      lower lead ++ lower n ++ " mana of any ".toList ++ lower one ++ "color".toList := by
    rw [← hmana, ← hcolor]
    simp [lower]
  have hmarks := marks_not_mem_anyColor hlower hone hlead hn
  have hafter : afterCost (String.ofList (cost ++ ':' ::
      (lead ++ (n ++ (mana ++ (one ++ (color ++ []))))))).toList = _ :=
    afterCost_ofList _ (hmarks ':' (by decide))
  have hany := hafter.symm ▸ occurs_anyColor hlower hone
  have hplain := hafter.symm ▸ hmarks '{' (by decide)
  rw [List.append_assoc, List.cons_append]
  refine ⟨.any (by simpa [offersAny] using hany) hplain, ?_⟩
  intro draft hdraft
  obtain ⟨amount, -, hdraft⟩ := Option.bind_eq_some_iff.mp hdraft
  exact addsAsWritten_of_manaDraft rfl rfl (gives_anyColor hany hplain _) draft hdraft

end Phrasing

/-- Whatever phrasings are tried, the sentence of a mana ability offers mana, and its draft adds what it
says. -/
theorem Draft.mana_of_sentence {kinds : List AbilityKind} {sentence : List Char} {draft : Draft}
    (h : ofSentence? (kinds.flatMap Phrasing.ofKind) sentence = some draft) (hmana : draft.kind = .mana) :
    Mana.IsOffer (String.ofList sentence) ∧ Phrasing.AddsAsWritten draft sentence := by
  obtain ⟨phrasing, hphrasing, hread, -⟩ := made_of_sentence h
  rw [hmana] at hphrasing
  simp only [Phrasing.ofKind, List.mem_cons, List.not_mem_nil, or_false] at hphrasing
  rcases hphrasing with rfl | rfl | rfl
  · exact (Phrasing.reads_manaAnyColor.of_read? hread).imp_right fun hadds => hadds draft rfl
  · exact (Phrasing.reads_manaChoice.of_read? hread).imp_right fun hadds => hadds draft rfl
  · exact (Phrasing.reads_manaFixed.of_read? hread).imp_right fun hadds => hadds draft rfl

/-! ## The abilities -/

/-- A mana ability has one effect, and its text gives what this effect asks for. -/
def Ability.AddsAsWritten (ability : Ability) : Prop :=
  ability.kind = .mana → ∃ effect, ability.effects = [effect] ∧ effect.kind = .addMana ∧
    effect.targets = [] ∧ Mana.Gives ability.oracleText effect.magnitude

theorem Draft.addsAsWritten_of_ability? {draft : Draft} {id : AbilityId} {card : CardId}
    {sentence : List Char} {ability : Ability}
    (hdraft : draft.kind = .mana → Phrasing.AddsAsWritten draft sentence)
    (h : draft.ability? id card sentence = some ability) : ability.AddsAsWritten := by
  obtain ⟨hkind, heffects, htext⟩ := ability?_eq_some h
  intro hmana
  obtain ⟨effect, hdraftEffects, heffect, htargets, hgives⟩ := hdraft (hkind ▸ hmana)
  rw [heffects, htext]
  unfold Draft.exclude
  split
  · -- without targets there is nothing to exclude
    rw [hdraftEffects, List.map_singleton]
    refine ⟨_, rfl, heffect, ?_, hgives⟩
    show effect.targets.map _ = []
    rw [htargets, List.map_nil]
  · exact ⟨effect, hdraftEffects, heffect, htargets, hgives⟩

namespace Ability

variable {ability : Ability}

theorem AddsAsWritten.refine (h : ability.AddsAsWritten) : ability.refine.2.AddsAsWritten := by
  intro hmana
  rw [kind_refine] at hmana
  obtain ⟨effect, heffects, hkind, htargets, hgives⟩ := h hmana
  have hlone : Effect.IsLoneMana ability.effects := ⟨effect, heffects, hkind, htargets⟩
  by_cases hfit : ability.PhrasesFit
  · rw [refine_of_fit hfit]
    refine ⟨effect, ?_, hkind, htargets, hgives⟩
    exact (Effect.refineAll_of_loneMana hlone _).trans heffects
  · rw [refine_of_not_fit hfit]
    exact ⟨effect, heffects, hkind, htargets, hgives⟩

theorem AddsAsWritten.limit (h : ability.AddsAsWritten) (timing : Timing) (usageLimit : UsageLimit) :
    { ability with timing, usageLimit }.AddsAsWritten := h

end Ability

theorem Ability.Drafted.addsAsWritten {reader : AbilityReader} {card : CardId} {ability : Ability}
    (h : ability.Drafted reader card) : ability.AddsAsWritten := by
  cases h with
  | mk drafted numbered timing usageLimit =>
    have hmade := Draft.addsAsWritten_of_ability? (fun hmana => (Draft.mana_of_sentence drafted hmana).2)
      numbered
    apply AddsAsWritten.limit
    split
    · exact hmade.refine
    · exact hmade

/-- Every mana ability that was read adds what its sentence says. -/
def Readings.AddAsWritten (readings : Readings) : Prop :=
  ∀ ability ∈ readings.abilities, ability.AddsAsWritten

namespace AbilityReader

theorem addAsWritten_read (reader : AbilityReader) (text : String) (name : Option String)
    (card : CardId) : (reader.read text name card).AddAsWritten :=
  fun _ hability => (drafted_of_mem hability).addsAsWritten

end AbilityReader

end CardRules
