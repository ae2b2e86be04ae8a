import CardRules.Proofs.Effect.Bare
import CardRules.Proofs.Effect.Packed
import Mathlib.Data.List.Forall2

/-!
# How the amount of an effect is written

X is kept as the number -1, in a field that has the numbers and the packed changes as well. So which
effects of a clause are taken for X is a matter of how their amounts are written (`AmountOf`). Seven
kinds of effects have an amount in words: it is the word behind the verb (`amountWord?`), and no word
without a minus sign names the number -1 but X. A change of power and toughness is packed, and one of
them is packed to -1: the loss of one toughness, which nobody wrote as X.
-/

set_option autoImplicit false

namespace CardRules

open Text

/-! ## Amounts -/

namespace Amount

/-- The text is the letter X, blanks at its ends and case disregarded. -/
def IsX (s : List Char) : Prop := lower (trim s) = ['x']

instance : DecidablePred IsX := fun s => decEq (lower (trim s)) ['x']

/-- Nothing but blanks stands beside it. -/
theorem IsX.toLower_eq {s : List Char} (h : IsX s) {c : Char} (hc : c ∈ s) (hblank : isBlank c = false) :
    c.toLower = 'x' := by
  obtain ⟨front, back, hsplit, hfront, hback⟩ := trim_split s
  have hmem : c ∈ trim s := by
    rw [hsplit, List.mem_append, List.mem_append] at hc
    rcases hc with (hc | hc) | hc
    · exact absurd ((hfront c hc).symm.trans hblank) (by decide)
    · exact hc
    · exact absurd ((hback c hc).symm.trans hblank) (by decide)
  have hlower : c.toLower ∈ lower (trim s) := List.mem_map_of_mem hmem
  rw [h] at hlower
  exact List.mem_singleton.mp hlower

theorem ofWord?_ne_x (s : List Char) : ofWord? s ≠ some x := by
  have hnone : ∀ entry ∈ words, entry.2 ≠ x := by decide
  intro h
  obtain ⟨entry, hentry, hvalue⟩ := Option.map_eq_some_iff.mp h
  exact hnone entry (List.mem_of_find?_eq_some hentry) hvalue

/-- Only X and the numeral -1 are read as the number that stands for X. -/
theorem ofText?_eq_x_iff {s : List Char} :
    ofText? s = some x ↔ IsX s ∨ int? (trim s) = some x := by
  unfold ofText?
  dsimp only
  split
  · rename_i hx
    exact iff_of_true rfl (.inl (sameLetters_iff.mp hx))
  · rename_i hx
    have hnot : ¬IsX s := fun h => hx (sameLetters_iff.mpr h)
    rw [or_iff_right hnot]
    cases hint : int? (trim s) with
    | some n => rfl
    | none => exact iff_of_false (ofWord?_ne_x _) (by simp)

/-- Without a minus sign it is X. -/
theorem ofText?_eq_x_iff_of_notMem {s : List Char} (hs : '-' ∉ s) : ofText? s = some x ↔ IsX s := by
  rw [ofText?_eq_x_iff, or_iff_left]
  intro hint
  obtain ⟨front, back, hsplit, -⟩ := trim_split s
  have htrim : '-' ∉ trim s := fun hminus => hs (by rw [hsplit]; simp [hminus])
  exact absurd (toInt_nonneg_of_int? htrim hint) (by decide)

end Amount

/-! ## The word behind the verb -/

/-- The verb whose object is the amount of an effect of a kind, if the kind has an amount in words. -/
def EffectKind.verb? : EffectKind → Option String
  | drawCards => some "draw"
  | dealDamage => some "deal"
  | gainLife => some "gain"
  | loseLife => some "lose"
  | mill => some "mill"
  | createToken => some "create"
  | addMana => some "add"
  | _ => none

theorem Effect.kind_withTarget? (effect : Effect) (who : Option Target) :
    (effect.withTarget? who).kind = effect.kind ∧ (effect.withTarget? who).magnitude = effect.magnitude := by
  cases who with
  | none => exact ⟨rfl, rfl⟩
  | some target => exact ⟨rfl, rfl⟩

namespace Clause

/-- Whether a word is a verb, perhaps with an s. -/
def isForm (verb : String) (word : List Char) : Bool :=
  word == verb.toList || word == verb.toList ++ ['s']

/-- The word behind the first form of a verb. -/
def wordAfter? (verb : String) (s : List Char) : Option (List Char) :=
  ((Text.words s).dropWhile fun word => !isForm verb (word.map fold)).tail.head?

/-- The word for the amount of an effect of a kind, in a clause for such an effect. -/
def amountWord? (kind : EffectKind) (clause : List Char) : Option (List Char) :=
  kind.verb?.bind fun verb => wordAfter? verb clause

/-- The clause writes X for the amount. -/
def WritesX (kind : EffectKind) (clause : List Char) : Prop :=
  ∃ word, amountWord? kind clause = some word ∧ Amount.IsX word

/-- The phrase ends in a blank, and its last word is its only form of the verb. -/
def endsInVerb (verb : String) (phrase : String) : Bool :=
  phrase.toList.getLast? == some ' ' &&
    ((Text.words phrase.toList).dropWhile fun word => !isForm verb word).length == 1

/-- Folding letters does not move the blanks. -/
theorem splitOnP_map_fold (s : List Char) :
    (s.map fold).splitOnP isBlank = (s.splitOnP isBlank).map (List.map fold) := by
  induction s with
  | nil => rfl
  | cons c s ih =>
    rw [List.map_cons, List.splitOnP_cons_eq_if_modifyHead, List.splitOnP_cons_eq_if_modifyHead,
      isBlank_fold, ih]
    split
    · rfl
    · cases s.splitOnP isBlank with
      | nil => rfl
      | cons first rest => rfl

theorem words_map_fold (s : List Char) :
    Text.words (s.map fold) = (Text.words s).map (List.map fold) := by
  unfold Text.words
  rw [splitOnP_map_fold, List.filter_map]
  congr 1
  refine List.filter_congr fun word _ => ?_
  cases word with
  | nil => rfl
  | cons c word => rfl

theorem isBlank_of_isWord {word : List Char} (h : ∀ c ∈ word, isWordChar c = true) :
    ∀ c ∈ word, isBlank c = false := by
  intro c hc
  rw [← Bool.not_eq_true]
  exact fun hblank => Bool.false_ne_true ((isWordChar_of_isBlank hblank).symm.trans (h c hc))

/-- What spells one of some phrases with a blank in front starts with a blank. -/
theorem Spells.head?_eq {phrases : List String} {text : List Char} (h : Spells phrases text)
    (hphrases : ∀ phrase ∈ phrases, phrase.toList.head? = some ' ') : text.head? = some ' ' := by
  obtain ⟨phrase, hphrase, htext⟩ := h
  have hfirst := hphrases phrase hphrase
  rw [← htext, List.head?_map] at hfirst
  obtain ⟨c, hc, hfold⟩ := Option.map_eq_some_iff.mp hfirst
  rwa [eq_of_fold hfold (by decide)] at hc

section Verb

variable {verb : String} {phrases : List String} {head n rest : List Char}

/-- Behind a phrase that ends in the verb comes the first word of the rest. -/
theorem wordAfter?_eq_head? (hphrases : ∀ phrase ∈ phrases, endsInVerb verb phrase = true)
    (hhead : Spells phrases head) (rest : List Char) :
    wordAfter? verb (head ++ rest) = (Text.words rest).head? := by
  obtain ⟨phrase, hphrase, hfold⟩ := hhead
  have hverb := hphrases phrase hphrase
  rw [endsInVerb, Bool.and_eq_true, beq_iff_eq, beq_iff_eq, ← hfold, words_map_fold,
    List.dropWhile_map, List.length_map, List.length_eq_one_iff] at hverb
  obtain ⟨hlast, verb', hform⟩ := hverb
  -- the blank at the end of the phrase is one in the text
  obtain ⟨front, rfl⟩ : ∃ front, head = front ++ [' '] := by
    rw [List.getLast?_map] at hlast
    obtain ⟨c, hc, hblank⟩ := Option.map_eq_some_iff.mp hlast
    obtain rfl := eq_of_fold hblank (by decide)
    exact List.getLast?_eq_some_iff.mp hc
  have hwords : Text.words (front ++ [' ']) = Text.words front := by
    rw [words_append_blank (by rfl)]
    exact List.append_nil _
  rw [hwords] at hform
  have hform : (Text.words front).dropWhile (fun word => !isForm verb (word.map fold)) = [verb'] := hform
  rw [wordAfter?, List.append_assoc, List.singleton_append, words_append_blank (by rfl),
    List.dropWhile_append, hform]
  rfl

/-- The word between such a phrase and a blank. -/
theorem wordAfter?_append (hphrases : ∀ phrase ∈ phrases, endsInVerb verb phrase = true)
    (hhead : Spells phrases head) (hne : n ≠ []) (hword : ∀ c ∈ n, isWordChar c = true)
    (hrest : rest.head? = some ' ') : wordAfter? verb (head ++ (n ++ rest)) = some n := by
  obtain ⟨more, rfl⟩ : ∃ more, rest = ' ' :: more := List.head?_eq_some_iff.mp hrest
  rw [wordAfter?_eq_head? hphrases hhead, words_cons hne (isBlank_of_isWord hword)]
  rfl

theorem Framed.wordAfter? {tails : List String} {text : List Char} (h : Framed phrases n tails text)
    (hphrases : ∀ phrase ∈ phrases, endsInVerb verb phrase = true)
    (htails : ∀ tail ∈ tails, tail.toList.head? = some ' ') (more : List Char) :
    Clause.wordAfter? verb (text ++ more) = some n := by
  obtain ⟨head, tail, rfl, hhead, htail⟩ := h.parts
  rw [List.append_assoc, List.append_assoc]
  refine wordAfter?_append hphrases hhead h.ne_nil h.isWord ?_
  rw [List.head?_append, htail.head?_eq htails]
  rfl

end Verb

/-! ## The amounts of single clauses -/

/-- How the amount of an effect comes from a clause: a word behind the verb names it, it is packed, or it is
a number that no word is for. -/
inductive AmountOf (clause : List Char) (effect : Effect) : Prop
  | word {n : List Char} (written : amountWord? effect.kind clause = some n) (unsigned : '-' ∉ n)
      (read : Amount.ofText? n = some effect.magnitude)
  | packed (kind : effect.kind = .pump)
  | number (unwritten : ¬WritesX effect.kind clause) (known : effect.magnitude ≠ Amount.x)

/-- A change of power and toughness that takes one toughness and leaves the power alone. -/
def TakesOneToughness (effect : Effect) : Prop := effect.kind = .pump ∧ effect.pumpValues = (0, -1)

/-- Only one change of power and toughness is packed to the number that stands for X. -/
theorem isVariable_iff_pumpValues (effect : Effect) :
    effect.isVariable = true ↔ effect.pumpValues = (0, -1) := by
  rw [Effect.isVariable, beq_iff_eq, Effect.pumpValues]
  constructor
  · intro hx
    rw [hx]
    decide
  · intro hvalues
    obtain ⟨hpower, htoughness⟩ := Pump.toInt_unpack effect.magnitude
    rw [hvalues] at hpower htoughness
    have hsum := Pump.sum_eq effect.magnitude
    rw [← hpower, ← htoughness] at hsum
    exact Int32.toInt_inj.mp hsum.symm

theorem not_writesX_of_verb? {kind : EffectKind} (h : kind.verb? = none) (clause : List Char) :
    ¬WritesX kind clause := by
  rintro ⟨n, hword, -⟩
  rw [amountWord?, h] at hword
  simp at hword

/-- An effect is taken for X exactly if its amount is written so, or it takes one toughness. -/
theorem AmountOf.isVariable_iff {clause : List Char} {effect : Effect} (h : AmountOf clause effect) :
    effect.isVariable = true ↔ WritesX effect.kind clause ∨ TakesOneToughness effect := by
  unfold TakesOneToughness
  cases h with
  | @word n written unsigned read =>
    have hpump : effect.kind ≠ .pump := by
      intro hkind
      rw [hkind] at written
      exact absurd written (by simp [amountWord?, EffectKind.verb?])
    rw [Effect.isVariable, beq_iff_eq, or_iff_left fun h => hpump h.1]
    have hx : effect.magnitude = Amount.x ↔ Amount.IsX n := by
      rw [← Amount.ofText?_eq_x_iff_of_notMem unsigned, read, Option.some_inj]
    rw [hx]
    constructor
    · exact fun hn => ⟨n, written, hn⟩
    · rintro ⟨n', hn', hx'⟩
      obtain rfl := Option.some.inj (written.symm.trans hn')
      exact hx'
  | packed kind =>
    have hunwritten : ¬WritesX effect.kind clause := not_writesX_of_verb? (by rw [kind]; rfl) clause
    rw [isVariable_iff_pumpValues, or_iff_right hunwritten, and_iff_right kind]
  | number unwritten known =>
    have hknown : effect.isVariable ≠ true := by simpa [Effect.isVariable] using known
    refine iff_of_false hknown (not_or.mpr ⟨unwritten, ?_⟩)
    rintro ⟨-, hvalues⟩
    exact hknown ((isVariable_iff_pumpValues effect).mpr hvalues)

section Rules

variable {verb : String} {phrases tails : List String} {n text : List Char} {effect : Effect}

theorem Framed.amountOf (h : Framed phrases n tails text) (hverb : effect.kind.verb? = some verb)
    (hphrases : ∀ phrase ∈ phrases, endsInVerb verb phrase = true)
    (htails : ∀ tail ∈ tails, tail.toList.head? = some ' ')
    (hread : Amount.ofText? n = some effect.magnitude) (more : List Char) :
    AmountOf (text ++ more) effect := by
  refine .word ?_ (fun hminus => absurd (h.isWord '-' hminus) (by decide)) hread
  rw [amountWord?, hverb]
  exact h.wordAfter? hphrases htails more

theorem of_ofAmount {kind : EffectKind} {made : Effect → Effect}
    (hmade : ∀ effect, (made effect).kind = effect.kind ∧ (made effect).magnitude = effect.magnitude)
    (h : effect ∈ (ofAmount kind n).map made) :
    effect.kind = kind ∧ Amount.ofText? n = some effect.magnitude := by
  obtain ⟨whole, hwhole, rfl⟩ := Option.map_eq_some_iff.mp h
  obtain ⟨amount, hamount, rfl⟩ := Option.map_eq_some_iff.mp hwhole
  rw [(hmade _).1, (hmade _).2]
  exact ⟨rfl, hamount⟩

/-- Effects on a target alone have no amount. -/
theorem amountOf_one {clause : List Char} (hverb : effect.kind.verb? = none) (hone : effect.magnitude = 1) :
    AmountOf clause effect :=
  .number (not_writesX_of_verb? hverb clause) (by rw [hone]; decide)

theorem Opening.amountOf {front lead : List Char} {build : Target → Option Effect}
    (h : Opening front lead build) {target : Target} (hmade : effect ∈ build target) (rest : List Char) :
    AmountOf (front ++ rest) effect := by
  cases h with
  | damage words =>
    obtain ⟨hkind, hread⟩ := of_ofAmount (fun effect => effect.kind_withTarget? (some target)) hmade
    exact words.amountOf (by rw [hkind]; rfl) (by decide) (by decide) hread rest
  | counter words =>
    obtain ⟨hmade, -⟩ := Option.filter_eq_some_iff.mp hmade
    obtain rfl := Option.some.inj hmade
    exact amountOf_one rfl rfl
  | named verb_mem words =>
    have hverbs : ∀ entry ∈ targetVerbs, entry.1.verb? = none := by decide
    obtain rfl := Option.some.inj hmade
    exact amountOf_one (hverbs _ verb_mem) rfl
  | upTo verb_mem words =>
    have hverbs : ∀ entry ∈ countedVerbs, entry.1.verb? = none := by decide
    obtain rfl := Option.some.inj hmade
    exact amountOf_one (hverbs _ verb_mem) rfl

theorem EndsOpen.amountOf {heads : List String} {effect? : Option Effect} (h : EndsOpen heads effect? text) :
    ∀ effect ∈ effect?, AmountOf text effect := by
  obtain ⟨-, front, lead, build, rest, hopening, rfl, -, rfl⟩ := h
  intro effect heffect
  obtain ⟨target, -, hmade⟩ := Option.bind_eq_some_iff.mp heffect
  exact hopening.amountOf hmade rest

/-- The rule makes effects whose amounts come from what it read. -/
def Rule.Amounts (rule : Rule) : Prop :=
  rule.Reads fun effect? text => ∀ effect ∈ effect?, AmountOf text effect

/-- Clauses about an amount: somebody draws, mills, gains or loses it. -/
theorem amounts_of_framed (kind : EffectKind) (verb : String) (heads : Bool → List String)
    (tails : List String) {rule : Rule}
    (hreads : rule.Reads fun effect? text => ∃ who n,
      effect? = (ofAmount kind n).map (fun effect => effect.withTarget? who) ∧
        Framed (heads who.isSome) n tails text)
    (hverb : kind.verb? = some verb)
    (hheads : ∀ targeted, ∀ head ∈ heads targeted, endsInVerb verb head = true)
    (htails : ∀ tail ∈ tails, tail.toList.head? = some ' ') : rule.Amounts := by
  refine hreads.mono ?_
  rintro _ text ⟨who, n, rfl, hframed⟩ effect heffect
  obtain ⟨hkind, hread⟩ := of_ofAmount (fun effect => effect.kind_withTarget? who) heffect
  rw [← List.append_nil text]
  exact hframed.amountOf (by rw [hkind, hverb]) (hheads who.isSome) htails hread []

theorem amounts_gainLife : Rule.Amounts gainLife := by
  refine amounts_of_framed .gainLife "gain" (fun _ => verbForms ["", "you "] "gain") [" life"]
    (reads_gainLife.mono ?_) rfl (by decide) (by decide)
  rintro _ text ⟨n, rfl, hframed⟩
  exact ⟨none, n, (congrFun Option.map_id (ofAmount .gainLife n)).symm, hframed⟩

theorem amounts_of_mem {rule : Rule} (h : rule ∈ rules) : rule.Amounts := by
  simp only [rules, List.mem_cons, List.not_mem_nil, or_false] at h
  rcases h with rfl | rfl | rfl | rfl | rfl | rfl | rfl | rfl | rfl | rfl | rfl | rfl | rfl
  · exact amounts_of_framed .drawCards "draw" (fun targeted => verbForms (addressed targeted) "draw")
      [" card", " cards"] reads_draw rfl (by decide) (by decide)
  · exact reads_damage.mono fun _ _ h => h.amountOf
  · exact amounts_gainLife
  · exact amounts_of_framed .loseLife "lose" (fun targeted => verbForms (losers targeted) " lose") [" life"]
      reads_loseLife rfl (by decide) (by decide)
  · exact reads_pump.mono fun _ _ h effect heffect => .packed (h effect heffect).1
  · exact reads_destroy.mono fun _ _ h => h.amountOf
  · exact reads_counter.mono fun _ _ h => h.amountOf
  · exact reads_tap.mono fun _ _ h => h.amountOf
  · refine reads_untap.mono ?_
    rintro effect? text (hopen | ⟨rfl, -⟩) effect heffect
    · exact hopen.amountOf effect heffect
    · obtain rfl := Option.some.inj heffect
      exact amountOf_one rfl rfl
  · exact amounts_of_framed .mill "mill" (fun targeted => verbForms (addressed targeted) "mill")
      [" card", " cards"] reads_mill rfl (by decide) (by decide)
  · exact reads_exile.mono fun _ _ h => h.amountOf
  · refine reads_returnToHand.mono ?_
    rintro _ text ⟨phrase, _, _, _, -, rfl, -⟩ effect heffect
    obtain ⟨target, -, rfl⟩ := Option.map_eq_some_iff.mp heffect
    exact amountOf_one rfl rfl
  · refine reads_tokens.mono ?_
    rintro _ _ ⟨n, front, what, back, rfl, hmade, hframed, -⟩ effect heffect
    obtain ⟨hkind, hread⟩ := hmade effect heffect
    exact hframed.amountOf (by rw [hkind]; rfl) (by decide) (by decide) hread _

/-- The amount of the effect of a clause comes from the clause. -/
theorem amountOf_single? (h : single? text = some effect) : AmountOf text effect := by
  obtain ⟨rule, hrule, hread⟩ := List.exists_of_findSome?_eq_some h
  have hread : rule.read? text = some (some effect) := Option.join_eq_some_iff.mp hread
  exact (amounts_of_mem hrule).of_read? hread effect rfl

end Rules

/-! ## The clauses of a text -/

/-- The clauses of a text, and what is read of each. -/
def ReadAs (clauses : List (List Char)) (effects : List Effect) : Prop :=
  List.Forall₂ (fun clause effect => single? clause = some effect) clauses effects

theorem exists_clauses_within {size : Nat} {s : List Char} {effects : List Effect}
    (h : effectsWithin size s = some effects) :
    ∃ clauses, InOrder clauses s ∧ ReadAs clauses effects := by
  induction size generalizing s effects with
  | zero => simp [effectsWithin] at h
  | succ size ih =>
    rw [effectsWithin] at h
    split at h
    · rename_i lone hlone
      obtain rfl := Option.some.inj h
      exact ⟨[bare s], (InOrder.singleton (bare s)).widen (infix_bare s), .cons hlone .nil⟩
    · obtain ⟨joint, -, hcut⟩ := List.exists_of_findSome?_eq_some h
      obtain ⟨⟨first, second⟩, hsplit, hparts⟩ := Option.bind_eq_some_iff.mp hcut
      obtain ⟨front, hfront, hrest⟩ := Option.bind_eq_some_iff.mp hparts
      obtain ⟨back, hback, hboth⟩ := Option.bind_eq_some_iff.mp hrest
      obtain rfl := Option.some.inj hboth
      obtain ⟨clauses, horder, hread⟩ := ih hfront
      obtain ⟨clauses', horder', hread'⟩ := ih hback
      refine ⟨clauses ++ clauses', ?_, List.rel_append hread hread'⟩
      have hbare := (horder.widen ⟨[], joint.toList, rfl⟩).append horder'
      rw [List.nil_append, ← eq_append_of_cut? hsplit] at hbare
      exact hbare.widen (infix_bare s)

/-- The effects of a text are those of clauses that stand in it one after the other. -/
theorem exists_clauses {s : List Char} {effects : List Effect} (h : effects? s = some effects) :
    ∃ clauses, InOrder clauses s ∧ ReadAs clauses effects :=
  exists_clauses_within h

end Clause

end CardRules
