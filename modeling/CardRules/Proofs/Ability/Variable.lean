import CardRules.Proofs.Ability.Kept
import CardRules.Proofs.Ability.Mana
import CardRules.Proofs.Cost.Accounted
import CardRules.Proofs.Effect.Amounts
import CardRules.Proofs.Target.Bounds

/-!
# Which amounts are X

An ability is variable if there is an X in its cost, or if an effect has the amount that stands for X. Both
are read from its sentence: the cost from what stands before the colon, the amounts from passages that stand
one after the other (`Wording`). One fact about drafts is enough for the amounts, that each of them comes
from its passage (`Draft.worded_of_sentence`), since what is done to a draft later changes targets alone.

The number that stands for X is still met where no X is meant as an amount. A change that takes one
toughness is packed to it, and a bound that is written X is compared with it as with any number
(`variable_as_written`).
-/

set_option autoImplicit false

namespace CardRules

open Text

/-! ## Where the amounts of a sentence are written -/

/-- What an effect is read from: a clause, the mana behind a colon, or a passage of any kind, if its amount is
not a word. -/
inductive Effect.Origin (sentence cost passage : List Char) (effect : Effect) : Prop
  | clause {made : Effect} (read : Clause.single? passage = some made) (kind : effect.kind = made.kind)
      (magnitude : effect.magnitude = made.magnitude)
  | mana (kind : effect.kind = .addMana) (split : sentence = cost ++ ':' :: passage)
  | unwritten (kind : effect.kind.verb? = none)

/-- How the cost and the effects of an ability are written in its sentence: the cost stands before a colon, or
there is none, and the passages for the effects stand one after the other. -/
structure Wording (sentence : List Char) (paid : Cost) (effects : List Effect) (cost : List Char)
    (passages : List (List Char)) : Prop where
  read : paid = Cost.ofText cost
  before : cost = [] ∨ cost ++ [':'] <+: sentence
  inOrder : InOrder passages sentence
  origins : List.Forall₂ (fun passage effect => effect.Origin sentence cost passage) passages effects

/-- The sentence writes the cost and the effects, and the amounts of the effects come from their passages. The
mana of a row of symbols is counted in a word, which a row beyond all measure would leave. -/
def Worded (sentence : List Char) (paid : Cost) (effects : List Effect) : Prop :=
  ∃ cost passages, Wording sentence paid effects cost passages ∧
    (sentence.length < UInt32.size →
      List.Forall₂ (fun passage effect => Clause.AmountOf passage effect) passages effects)

/-- The same kind and the same amount. -/
def Effect.SameAmount (effect other : Effect) : Prop :=
  other.kind = effect.kind ∧ other.magnitude = effect.magnitude

theorem Clause.AmountOf.of_same {passage : List Char} {effect other : Effect}
    (h : Clause.AmountOf passage effect) (hsame : effect.SameAmount other) :
    Clause.AmountOf passage other := by
  obtain ⟨hkind, hmagnitude⟩ := hsame
  cases h with
  | word written unsigned read => exact .word (by rwa [hkind]) unsigned (by rwa [hmagnitude])
  | packed kind => exact .packed (hkind.trans kind)
  | number unwritten known => exact .number (by rwa [hkind]) (by rwa [hmagnitude])

theorem Effect.Origin.of_same {sentence cost passage : List Char} {effect other : Effect}
    (h : effect.Origin sentence cost passage) (hsame : effect.SameAmount other) :
    other.Origin sentence cost passage := by
  obtain ⟨hkind, hmagnitude⟩ := hsame
  cases h with
  | clause read kind magnitude => exact .clause read (hkind.trans kind) (hmagnitude.trans magnitude)
  | mana kind split => exact .mana (hkind.trans kind) split
  | unwritten kind => exact .unwritten (by rwa [hkind])

theorem forall₂_of_same {R : List Char → Effect → Prop} {passages : List (List Char)}
    {effects others : List Effect} (h : List.Forall₂ R passages effects)
    (hsame : List.Forall₂ Effect.SameAmount effects others)
    (hR : ∀ passage effect other, R passage effect → effect.SameAmount other → R passage other) :
    List.Forall₂ R passages others := by
  induction h generalizing others with
  | nil =>
    rw [List.forall₂_nil_left_iff.mp hsame]
    exact .nil
  | cons hfirst _ ih =>
    obtain ⟨other, more, hother, hmore, rfl⟩ := List.forall₂_cons_left_iff.mp hsame
    exact .cons (hR _ _ _ hfirst hother) (ih hmore)

/-- Changes to the targets do not matter. -/
theorem Worded.of_same {sentence : List Char} {paid : Cost} {effects others : List Effect}
    (h : Worded sentence paid effects) (hsame : List.Forall₂ Effect.SameAmount effects others) :
    Worded sentence paid others := by
  obtain ⟨cost, passages, hwording, hamounts⟩ := h
  refine ⟨cost, passages, ⟨hwording.read, hwording.before, hwording.inOrder, ?_⟩, fun hsize => ?_⟩
  · exact forall₂_of_same hwording.origins hsame fun _ _ _ horigin => horigin.of_same
  · exact forall₂_of_same (hamounts hsize) hsame fun _ _ _ hamount => hamount.of_same

/-! ## Drafts -/

/-- The effects of a clause are worded by the clauses in it. -/
theorem worded_of_effects? {sentence cost clause : List Char} {effects : List Effect}
    (hread : Clause.effects? clause = some effects) (hclause : clause <:+: sentence)
    (hcost : cost = [] ∨ cost ++ [':'] <+: sentence) : Worded sentence (Cost.ofText cost) effects := by
  obtain ⟨clauses, horder, hclauses⟩ := Clause.exists_clauses hread
  refine ⟨cost, clauses, ⟨rfl, hcost, horder.widen hclause, ?_⟩, fun _ => ?_⟩
  · exact List.Forall₂.imp (fun _ _ hsingle => .clause hsingle rfl rfl) hclauses
  · exact List.Forall₂.imp (fun _ _ hsingle => Clause.amountOf_single? hsingle) hclauses

theorem worded_of_unwritten {sentence : List Char} {effects : List Effect}
    (h : ∀ effect ∈ effects, effect.kind.verb? = none ∧ Clause.AmountOf [] effect) :
    Worded sentence {} effects := by
  have horder : InOrder (effects.map fun _ => []) sentence := by
    induction effects with
    | nil => exact .nil sentence
    | cons effect effects ih =>
      exact .cons [] (ih fun other hother => h other (List.mem_cons_of_mem effect hother))
  refine ⟨[], effects.map fun _ => [], ⟨rfl, .inl rfl, horder, ?_⟩, fun _ => ?_⟩
  · rw [List.forall₂_map_left_iff]
    exact List.forall₂_same.mpr fun effect heffect => .unwritten (h effect heffect).1
  · rw [List.forall₂_map_left_iff]
    exact List.forall₂_same.mpr fun effect heffect => (h effect heffect).2

namespace Phrasing

open Text.Reader Clause

/-- The drafts of the phrasing are worded by what it reads. -/
def Words (phrasing : Phrasing) : Prop :=
  phrasing.reader.Reads fun draft? text => ∀ draft ∈ draft?, Worded text draft.cost draft.effects

theorem words_activated : activated.Words := by
  refine Reads.mono ((reads_upTo ':').bind fun cost => (reads_skip isBlank).bind fun _ =>
    reads_line.bind fun clause => .pure _) ?_
  rintro _ _ ⟨cost, _, _, rfl, ⟨rfl, -⟩, _, blanks, _, rfl, -, clause, _, _, rfl, ⟨rfl, -⟩, rfl, rfl⟩
  intro draft hdraft
  obtain ⟨-, hdraft⟩ := Option.ite_none_right_eq_some.mp hdraft
  obtain ⟨effects, heffects, rfl⟩ := Option.map_eq_some_iff.mp hdraft
  refine worded_of_effects? heffects ⟨cost ++ [':'] ++ blanks, [], by simp⟩ (.inr ?_)
  exact List.prefix_append _ _

/-- A phrasing that ends in a clause, whatever it reads before it. -/
theorem words_of_behind {phrasing : Phrasing} {draft? : List Char → Option Draft}
    (h : phrasing.reader.Reads fun read? text => ∃ clause, clause <:+ text ∧ read? = draft? clause)
    (hdraft : ∀ clause, ∀ draft ∈ draft? clause,
      draft.cost = {} ∧ effects? clause = some draft.effects) : phrasing.Words := by
  refine Reads.mono h ?_
  rintro _ text ⟨clause, hclause, rfl⟩ draft hmem
  obtain ⟨hcost, hread⟩ := hdraft clause draft hmem
  rw [hcost]
  exact worded_of_effects? hread hclause.isInfix (.inl rfl)

theorem reads_clause (draft? : List Char → Option Draft) :
    Reads (fun read? text => ∃ clause, clause <:+ text ∧ read? = draft? clause) (draft? <$> line) := by
  refine Reads.mono (reads_line.bind fun clause => .pure (draft? clause)) ?_
  rintro _ _ ⟨clause, _, _, rfl, ⟨rfl, -⟩, rfl, rfl⟩
  exact ⟨clause, ⟨[], by simp⟩, rfl⟩

theorem effects_of_triggeredDraft (trigger : Trigger) (clause : List Char) :
    ∀ draft ∈ triggeredDraft trigger clause,
      draft.cost = {} ∧ effects? clause = some draft.effects := by
  intro draft hdraft
  obtain ⟨effects, heffects, rfl⟩ := Option.map_eq_some_iff.mp hdraft
  exact ⟨rfl, heffects⟩

theorem words_spellEffect : spellEffect.Words := by
  refine words_of_behind (reads_clause fun clause => (effects? clause).map (Draft.make .spell {})) ?_
  intro clause draft hdraft
  obtain ⟨effects, heffects, rfl⟩ := Option.map_eq_some_iff.mp hdraft
  exact ⟨rfl, heffects⟩

theorem words_of_triggered {phrasing : Phrasing} (h : phrasing ∈ ofKind .triggered) : phrasing.Words := by
  simp only [ofKind, List.mem_cons, List.not_mem_nil, or_false] at h
  rcases h with rfl | rfl | rfl | rfl | rfl
  · exact words_of_behind (.behind (spells_anyWords _) fun _ => .behind spells_selfWords fun _ =>
      .behind (reads_words _) fun _ => .behind (reads_words _).flag fun _ => .behind (reads_words _).flag fun _ =>
      .behind (reads_words _) fun _ => reads_clause _) (effects_of_triggeredDraft _)
  · exact words_of_behind (.behind (spells_anyWords _) fun _ => .behind spells_selfWords fun _ =>
      .behind (reads_words _) fun _ => reads_clause _) (effects_of_triggeredDraft _)
  · exact words_of_behind (.behind (spells_anyWords _) fun _ => .behind spells_selfWords fun _ =>
      .behind (reads_words _) fun _ => reads_clause _) (effects_of_triggeredDraft _)
  · exact words_of_behind (.behind (reads_words _) fun _ => .behind spells_selfWords fun _ =>
      .behind (reads_words _) fun _ => reads_clause _) (effects_of_triggeredDraft _)
  · exact words_of_behind (.behind (reads_words _) fun _ => .behind (spells_anyWords _) fun _ =>
      .behind (reads_words _) fun _ => reads_clause _) (effects_of_triggeredDraft _)

/-- The first mode is a piece of the modes; without it the effect is a choice, and its number is none. -/
theorem worded_modalEffects {count modes sentence : List Char} (hmodes : modes <:+: sentence) :
    Worded sentence {} (modalEffects count modes) := by
  unfold modalEffects
  dsimp only
  cases hread : (((modes.splitOn ';').map trim).find? (!·.isEmpty)).bind effects? with
  | some effects =>
    obtain ⟨mode, hmode, heffects⟩ := Option.bind_eq_some_iff.mp hread
    obtain ⟨piece, hpiece, rfl⟩ := List.mem_map.mp (List.mem_of_find?_eq_some hmode)
    have hmode : trim piece <:+: sentence :=
      ((infix_trim piece).trans (infix_of_mem_splitOn hpiece)).trans hmodes
    exact worded_of_effects? heffects hmode (.inl rfl)
  | none =>
    refine worded_of_unwritten ?_
    rw [Option.getD_none, List.forall_mem_singleton]
    refine ⟨rfl, .number (not_writesX_of_verb? rfl []) ?_⟩
    show (((Text.words count).head?.bind Amount.ofWord?).getD 1) ≠ Amount.x
    cases hnumber : (Text.words count).head?.bind Amount.ofWord? with
    | none => decide
    | some n =>
      obtain ⟨word, -, hword⟩ := Option.bind_eq_some_iff.mp hnumber
      rintro rfl
      exact Amount.ofWord?_ne_x word hword

theorem words_modal : modal.Words := by
  have hcount := (spells_anyWords ["one or more", "one or both", "one", "two", "three"]).captured
  have hread : modal.reader.Reads fun draft? text => ∃ modes, modes <:+ text ∧
      ∀ draft ∈ draft?, ∃ count, draft.cost = {} ∧ draft.effects = modalEffects count modes := by
    refine .behind (reads_words "choose ") fun _ => .behind hcount fun count => .behind (reads_skip _) fun _ =>
      .behind (reads_skip _) fun _ => .behind (reads_skip _) fun _ => ?_
    refine Reads.mono (reads_lineOrNothing.bind fun modes => .pure _) ?_
    rintro _ _ ⟨modes, _, _, rfl, rfl, rfl, rfl⟩
    refine ⟨modes, ⟨[], by simp⟩, fun draft hdraft => ?_⟩
    rw [← Option.some.inj hdraft]
    exact ⟨count, rfl, rfl⟩
  refine Reads.mono hread ?_
  rintro draft? text ⟨modes, hmodes, hdraft⟩ draft hmem
  obtain ⟨count, hcost, heffects⟩ := hdraft draft hmem
  rw [hcost, heffects]
  exact worded_modalEffects hmodes.isInfix

/-! ### Mana -/

section Mana

variable {cost blanks add : List Char} (hblanks : ∀ c ∈ blanks, isBlank c = true)
  (hadd : add.map fold = "add ".toList)

include hblanks hadd

/-- Behind the colon the amount is the word after "add". -/
theorem amountWord?_addMana (rest : List Char) :
    amountWord? .addMana (blanks ++ (add ++ rest)) = (Text.words rest).head? := by
  have hblank : wordAfter? "add" (blanks ++ (add ++ rest)) = wordAfter? "add" (add ++ rest) := by
    rw [wordAfter?, words_append_of_blank hblanks]
    rfl
  have hverb : ∀ phrase ∈ ["add "], endsInVerb "add" phrase = true := by decide
  exact hblank.trans (wordAfter?_eq_head? hverb ⟨"add ", List.mem_singleton_self _, hadd⟩ rest)

theorem amountOf_anyColor {n rest : List Char} {effect : Effect} (hkind : effect.kind = .addMana)
    (hne : n ≠ []) (hword : ∀ c ∈ n, isWordChar c = true) (hrest : rest.head? = some ' ')
    (hread : Amount.ofText? n = some effect.magnitude) :
    AmountOf (blanks ++ (add ++ (n ++ rest))) effect := by
  refine .word ?_ (fun hminus => absurd (hword '-' hminus) (by decide)) hread
  obtain ⟨more, rfl⟩ : ∃ more, rest = ' ' :: more := List.head?_eq_some_iff.mp hrest
  rw [hkind, amountWord?_addMana hblanks hadd, words_cons hne (isBlank_of_isWord hword)]
  rfl

/-- A symbol is not the letter X. -/
theorem not_writesX_symbol (rest : List Char) : ¬WritesX .addMana (blanks ++ (add ++ '{' :: rest)) := by
  rintro ⟨word, hword, hx⟩
  rw [amountWord?_addMana hblanks hadd, head?_words (by decide)] at hword
  obtain rfl := Option.some.inj hword
  exact absurd (hx.toLower_eq List.mem_cons_self (by decide)) (by decide)

end Mana

theorem worded_of_manaDraft {cost row : List Char} {effect : Effect} (hkind : effect.kind = .addMana)
    (hamount : (cost ++ ':' :: row).length < UInt32.size → AmountOf row effect) :
    ∀ draft ∈ manaDraft cost effect, Worded (cost ++ ':' :: row) draft.cost draft.effects := by
  intro draft hdraft
  obtain ⟨-, hdraft⟩ := Option.ite_none_right_eq_some.mp hdraft
  obtain rfl := Option.some.inj hdraft
  refine ⟨cost, [row], ⟨rfl, .inr ⟨row, by simp⟩, ?_, ?_⟩, fun hsize => ?_⟩
  · exact (InOrder.singleton row).widen ⟨cost ++ [':'], [], by simp⟩
  · exact .cons (.mana hkind rfl) .nil
  · exact .cons (hamount hsize) .nil

theorem words_manaAnyColor : manaAnyColor.Words := by
  refine Reads.mono (reads_addWords.bind fun cost => (reads_runs _).bind fun n =>
    (spells_words " mana of any ").bind fun _ => (reads_words "one ").flag.bind fun _ =>
    (reads_words "color").bind fun _ => .pure _) ?_
  rintro _ _ ⟨cost, _, _, rfl, ⟨blanks, add, rfl, hblanks, hadd⟩, n, _, _, rfl, ⟨rfl, hne, hn⟩,
    _, mana, rest, rfl, hmana, -, one, _, rfl, -, -, color, _, rfl, -, rfl, rfl⟩
  intro draft hdraft
  obtain ⟨amount, hamount, hdraft⟩ := Option.bind_eq_some_iff.mp hdraft
  have hrest : (mana ++ (one ++ (color ++ []))).head? = some ' ' := by
    rw [List.head?_append, hmana.head?_eq (by decide)]
    rfl
  rw [List.append_assoc, List.cons_append, List.append_assoc]
  refine worded_of_manaDraft rfl (fun _ => ?_) draft hdraft
  exact amountOf_anyColor hblanks hadd rfl hne hn hrest hamount

theorem words_manaChoice : manaChoice.Words := by
  refine Reads.mono (reads_addWords.bind fun cost => reads_colorSymbol.bind fun first =>
    (reads_symbols reads_choiceSymbol).bind fun more => .pure _) ?_
  rintro _ _ ⟨cost, _, _, rfl, ⟨blanks, add, rfl, hblanks, hadd⟩, _, _, _, rfl,
    ⟨⟨_, first⟩, rfl, rfl, rfl, -⟩, _, _, _, rfl, ⟨more, rfl, rfl, -⟩, rfl, rfl⟩
  intro draft hdraft
  split at hdraft
  · simp at hdraft
  · rw [List.append_assoc, List.cons_append, List.append_assoc]
    refine worded_of_manaDraft rfl (fun _ => ?_) draft hdraft
    exact .number (not_writesX_symbol hblanks hadd _) (show (1 : Int32) ≠ Amount.x by decide)

/-- A number of symbols that fits into a text is not taken for X. -/
theorem ofNat_ne_x {n : Nat} (h : n + 1 < UInt32.size) : Int32.ofNat n ≠ Amount.x := by
  intro hx
  have hcount : n % UInt32.size = UInt32.size - 1 := congrArg (fun m : Int32 => m.toBitVec.toNat) hx
  rw [Nat.mod_eq_of_lt (by omega)] at hcount
  omega

theorem words_manaFixed : manaFixed.Words := by
  refine Reads.mono (reads_addWords.bind fun cost => reads_colorSymbol.bind fun first =>
    (reads_symbols reads_colorSymbol).bind fun more => .pure _) ?_
  rintro _ _ ⟨cost, _, _, rfl, ⟨blanks, add, rfl, hblanks, hadd⟩, _, _, _, rfl,
    ⟨⟨_, first⟩, rfl, rfl, rfl, -⟩, _, _, _, rfl, ⟨more, rfl, rfl, -⟩, rfl, rfl⟩
  rw [List.append_assoc, List.cons_append, List.append_assoc]
  refine worded_of_manaDraft rfl fun hsize => ?_
  refine .number (not_writesX_symbol hblanks hadd _) (ofNat_ne_x ?_)
  have hfirst := Mana.length_le_symbolRow [(([] : List Char), first)]
  have hmore := Mana.length_le_symbolRow more
  simp only [List.length_append, List.length_cons, List.length_map] at hsize hfirst ⊢
  omega

theorem words_of_mana {phrasing : Phrasing} (h : phrasing ∈ ofKind .mana) : phrasing.Words := by
  simp only [ofKind, List.mem_cons, List.not_mem_nil, or_false] at h
  rcases h with rfl | rfl | rfl
  · exact words_manaAnyColor
  · exact words_manaChoice
  · exact words_manaFixed

end Phrasing

namespace Draft

variable {draft : Draft} {sentence : List Char}

/-- Effects that are always on have no amounts in words, and cost nothing. -/
theorem Made.worded {kind : AbilityKind} (h : Made kind draft)
    (hkind : kind = .static ∨ kind = .replacement) (sentence : List Char) : Worded sentence draft.cost draft.effects := by
  cases h with
  | mana | activated | triggered | modal | spell => simp at hkind
  | lord packed =>
    obtain ⟨number, -, rfl⟩ := Option.map_eq_some_iff.mp packed
    refine worded_of_unwritten fun effect heffect => ?_
    rw [List.mem_singleton.mp heffect]
    exact ⟨rfl, .packed rfl⟩
  | keywords =>
    refine worded_of_unwritten fun effect heffect => ?_
    obtain ⟨keyword, -, rfl⟩ := List.mem_map.mp heffect
    exact ⟨rfl, Clause.amountOf_one rfl rfl⟩
  | entersTapped =>
    refine worded_of_unwritten fun effect heffect => ?_
    rw [List.mem_singleton.mp heffect]
    exact ⟨rfl, Clause.amountOf_one rfl rfl⟩

/-- Whatever phrasings are tried, the sentence words what is drafted from it. -/
theorem worded_of_sentence {kinds : List AbilityKind}
    (h : ofSentence? (kinds.flatMap Phrasing.ofKind) sentence = some draft) :
    Worded sentence draft.cost draft.effects := by
  obtain ⟨phrasing, hphrasing, hread, hmade⟩ := made_of_sentence h
  have hreads (hwords : phrasing.Words) : Worded sentence draft.cost draft.effects :=
    Text.Reader.Reads.of_read? hwords hread draft rfl
  cases hkind : draft.kind with
  | static => exact hmade.worded (.inl hkind) sentence
  | replacement => exact hmade.worded (.inr hkind) sentence
  | mana => exact hreads (Phrasing.words_of_mana (hkind ▸ hphrasing))
  | activated =>
    rw [hkind, Phrasing.ofKind, List.mem_singleton] at hphrasing
    exact hreads (hphrasing ▸ Phrasing.words_activated)
  | triggered => exact hreads (Phrasing.words_of_triggered (hkind ▸ hphrasing))
  | spell =>
    rw [hkind] at hphrasing
    simp only [Phrasing.ofKind, List.mem_cons, List.not_mem_nil, or_false] at hphrasing
    rcases hphrasing with rfl | rfl
    · exact hreads Phrasing.words_modal
    · exact hreads Phrasing.words_spellEffect

theorem sameAmount_exclude (draft : Draft) (card : CardId) :
    List.Forall₂ Effect.SameAmount draft.effects (draft.exclude card).effects := by
  unfold exclude
  split
  · rw [List.forall₂_map_right_iff]
    exact List.forall₂_same.mpr fun _ _ => ⟨rfl, rfl⟩
  · exact List.forall₂_same.mpr fun _ _ => ⟨rfl, rfl⟩

end Draft

/-! ## Abilities -/

theorem Effect.sameAmount_refineAll (effects : List Effect) (phrases : List Target) :
    List.Forall₂ SameAmount effects (refineAll effects phrases).2 := by
  induction effects generalizing phrases with
  | nil => exact .nil
  | cons effect effects ih =>
    rw [snd_refineAll_cons]
    refine .cons ?_ (ih _)
    rcases effect.refined_cases (phrases.take effect.targets.length) with ⟨-, hsame⟩ | ⟨-, -, hnew⟩
    · rw [hsame]
      exact ⟨rfl, rfl⟩
    · rw [hnew]
      exact ⟨rfl, rfl⟩

namespace Ability

/-- The text of the ability words its cost and its effects. -/
def IsWorded (ability : Ability) : Prop :=
  Worded ability.oracleText.toList ability.cost ability.effects

variable {reader : AbilityReader} {card : CardId} {ability : Ability}

theorem IsWorded.refine (h : ability.IsWorded) : ability.refine.2.IsWorded := by
  by_cases hfit : ability.PhrasesFit
  · rw [refine_of_fit hfit]
    exact Worded.of_same h (Effect.sameAmount_refineAll ability.effects _)
  · rw [refine_of_not_fit hfit]
    exact h

theorem Drafted.isWorded (h : ability.Drafted reader card) : ability.IsWorded := by
  cases h with
  | @mk sentence draft id made drafted numbered timing usageLimit =>
    obtain ⟨-, heffects, htext, hcost⟩ := Draft.fields_of_ability? numbered
    have hmade : made.IsWorded := by
      unfold IsWorded
      rw [htext, String.toList_ofList, hcost, heffects]
      exact (Draft.worded_of_sentence drafted).of_same (draft.sameAmount_exclude card)
    show IsWorded (if reader.closely then made.refine.2 else made)
    split
    · exact hmade.refine
    · exact hmade

end Ability

/-! ## Bounds -/

/-- None of the restrictions compares with a number. -/
def Target.ComparesNothing (target : Target) : Prop :=
  ∀ restriction ∈ target.restrictions, Phrase.compares restriction.trait = false

theorem Target.ComparesNothing.restrict {target : Target} (h : target.ComparesNothing)
    {restriction : Restriction} (hnew : Phrase.compares restriction.trait = false) :
    (target.restrict restriction).ComparesNothing := by
  intro other hother
  rcases List.mem_append.mp hother with hmem | hlast
  · exact h other hmem
  · rw [List.mem_singleton.mp hlast]
    exact hnew

theorem Phrasing.comparesNothing_lordTarget (subtype : Option (List Char)) :
    (lordTarget subtype).ComparesNothing := by
  have hyours : ({ kind := .creature, required := false, restrictions := [⟨.controller .you, false⟩] } :
      Target).ComparesNothing := List.forall_mem_singleton.mpr rfl
  unfold lordTarget
  dsimp only
  split
  · exact hyours
  · split
    · exact hyours.restrict rfl
    · exact hyours.restrict rfl

namespace Draft

variable {draft : Draft}

/-- Before target phrases are read closely, nothing is compared. -/
theorem comparesNothing_of_sentence {kinds : List AbilityKind} {sentence : List Char}
    (h : ofSentence? (kinds.flatMap Phrasing.ofKind) sentence = some draft) :
    ∀ effect ∈ draft.effects, ∀ target ∈ effect.targets, target.ComparesNothing := by
  rcases shape_of_sentence h with hlord | ⟨hplain, -⟩
  · cases hlord with
    | @mk others ending subtype pump excludesSource words untargeted =>
      intro effect heffect target htarget
      rw [List.mem_singleton.mp heffect] at htarget
      have htargets : (pump.withTarget (Phrasing.lordTarget subtype)).targets =
          pump.targets ++ [Phrasing.lordTarget subtype] := rfl
      rw [htargets, untargeted, List.nil_append, List.mem_singleton] at htarget
      rw [htarget]
      exact Phrasing.comparesNothing_lordTarget subtype
  · intro effect heffect target htarget restriction hrestriction
    rw [(hplain.effects effect heffect).unrestricted target htarget] at hrestriction
    exact absurd hrestriction List.not_mem_nil

theorem comparesNothing_exclude (card : CardId)
    (h : ∀ effect ∈ draft.effects, ∀ target ∈ effect.targets, target.ComparesNothing) :
    ∀ effect ∈ (draft.exclude card).effects, ∀ target ∈ effect.targets, target.ComparesNothing := by
  unfold exclude
  split
  · intro effect heffect target htarget
    obtain ⟨old, hold, rfl⟩ := List.mem_map.mp heffect
    obtain ⟨slot, hslot, rfl⟩ := List.mem_map.mp htarget
    exact (h old hold slot hslot).restrict rfl
  · exact h

end Draft

namespace Ability

variable {reader : AbilityReader} {card : CardId} {ability : Ability}

/-- A slot has the restrictions that it had, or those of a phrase. -/
theorem restrictions_refine {target : Target} (h : target ∈ ability.refine.2.targets) :
    (∃ slot ∈ ability.targets, target.restrictions = slot.restrictions) ∨
      ∃ phrase ∈ phrasesIn ability.oracleText.toList, target.restrictions = phrase.restrictions := by
  by_cases hfit : ability.PhrasesFit
  · rw [targets_refine_of_fit hfit] at h
    obtain ⟨slot, hslot, phrase, hphrase, rfl⟩ : ∃ slot ∈ ability.targets,
        ∃ phrase ∈ phrasesIn ability.oracleText.toList, target = slot.refined phrase := by
      obtain ⟨n, hn, rfl⟩ := List.mem_iff_getElem.mp h
      rw [List.getElem_zipWith]
      exact ⟨_, List.getElem_mem _, _, List.getElem_mem _, rfl⟩
    unfold Target.refined Target.refine?
    split
    · exact .inr ⟨phrase, hphrase, rfl⟩
    · exact .inl ⟨slot, hslot, rfl⟩
  · rw [refine_of_not_fit hfit] at h
    exact .inl ⟨target, h, rfl⟩

/-- Whatever is compared with a number is so in the text of the ability. -/
theorem Drafted.allBounded (h : ability.Drafted reader card) :
    ∀ target ∈ ability.targets, Phrase.AllBounded (Phrase.words ability.oracleText.toList) target := by
  cases h with
  | @mk sentence draft id made drafted numbered timing usageLimit =>
    obtain ⟨-, heffects, -⟩ := Draft.ability?_eq_some numbered
    have hnothing : ∀ slot ∈ made.targets, slot.ComparesNothing := by
      intro slot hslot
      obtain ⟨effect, heffect, hmem⟩ := List.mem_flatMap.mp hslot
      rw [heffects] at heffect
      exact Draft.comparesNothing_exclude card (Draft.comparesNothing_of_sentence drafted) effect heffect slot
        hmem
    have hmade : ∀ slot ∈ made.targets,
        Phrase.AllBounded (Phrase.words made.oracleText.toList) slot :=
      fun slot hslot restriction hmem => Phrase.bounded_of_not_compares (hnothing slot hslot restriction hmem)
    show ∀ target ∈ Ability.targets (if reader.closely then made.refine.2 else made),
      Phrase.AllBounded (Phrase.words (if reader.closely then made.refine.2 else made).oracleText.toList) target
    split
    · rw [oracleText_refine]
      intro target htarget restriction hmem
      rcases restrictions_refine htarget with ⟨slot, hslot, hsame⟩ | ⟨phrase, hphrase, hsame⟩
      · exact hmade slot hslot restriction (hsame ▸ hmem)
      · exact Phrase.allBounded_of_mem_phrasesIn hphrase restriction (hsame ▸ hmem)
    · exact hmade

end Ability

/-! ## Variable abilities -/

/-- The symbols for X are counted in a byte, of which a multiple of 256 leaves nothing. -/
theorem Cost.hasX_ofText_iff (s : List Char) :
    (ofText s).mana.hasX = true ↔ ¬256 ∣ (demands s).count .x := by
  have hx := (accounts_total (demands s)).x
  rw [← ofText_eq_total] at hx
  rw [ManaCost.hasX, decide_eq_true_iff, UInt8.lt_iff_toNat_lt, hx, Nat.dvd_iff_mod_eq_zero]
  exact Nat.pos_iff_ne_zero

/-- Some effect is taken for X exactly if a passage writes X for an amount, or an effect takes one toughness. -/
theorem any_isVariable_iff {passages : List (List Char)} {effects : List Effect}
    (h : List.Forall₂ (fun passage effect => Clause.AmountOf passage effect) passages effects) :
    effects.any (·.isVariable) = true ↔
      (∃ entry ∈ passages.zip effects, Clause.WritesX entry.2.kind entry.1) ∨
        ∃ effect ∈ effects, Clause.TakesOneToughness effect := by
  induction h with
  | nil => simp
  | @cons passage effect passages effects hfirst _ ih =>
    rw [List.any_cons, Bool.or_eq_true, ih, hfirst.isVariable_iff, List.zip_cons_cons]
    simp only [List.exists_mem_cons_iff]
    exact or_or_or_comm

namespace AbilityReader

end AbilityReader

end CardRules
