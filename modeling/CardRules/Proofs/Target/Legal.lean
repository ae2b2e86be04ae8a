import CardRules.Target.Legality
import Mathlib.Data.List.Basic

/-!
# Legality as a conjunction

The check of a candidate goes through a requirement in a fixed order, since it reports the first thing
that speaks against the candidate. Whether there is such a thing does not depend on the order:
a candidate is legal if it is of the category, not out of reach, and every restriction holds
(`accepts_eq_true_iff`). These three are said here from the side of the candidate, by what it is and what
it has.

So legality knows the restrictions and the colors of the source as sets, and there is less of it the more
of them there are (`legality_antitone`). A restriction and its negation share the candidates that have the
property they read out between them, and leave the others to neither (`holds_negated`).
-/

set_option autoImplicit false

namespace CardRules

namespace Candidate

/-- Whether a candidate is known to be of a type. -/
def IsType (candidate : Candidate) (type : CardType) : Prop := ∃ types ∈ candidate.types, type ∈ types

/-- Whether a candidate is known to have a keyword. -/
def Has (candidate : Candidate) (keyword : Keyword) : Prop :=
  ∃ keywords ∈ candidate.keywords, keyword ∈ keywords

theorem hasType_eq_true_iff {candidate : Candidate} {type : CardType} :
    candidate.hasType type = true ↔ candidate.IsType type := by
  simp only [hasType, IsType, Option.any_eq_true, List.contains_iff_mem, Option.mem_def]

theorem hasKeyword_eq_true_iff {candidate : Candidate} {keyword : Keyword} :
    candidate.hasKeyword keyword = true ↔ candidate.Has keyword := by
  simp only [hasKeyword, Has, Option.any_eq_true, List.contains_iff_mem, Option.mem_def]

end Candidate

/-! ## Categories -/

namespace TargetKind

/-- The types of which a permanent must have one for the category. -/
def types : TargetKind → List CardType
  | any => [.creature, .planeswalker]
  | creature | creatureOrPlayer => [.creature]
  | artifact => [.artifact]
  | enchantment => [.enchantment]
  | land => [.land]
  | planeswalker => [.planeswalker]
  | .player | opponent | permanent | spell => []

/-- What a category has of the players, the permanents and the spells, seen by a player. -/
def Covers (kind : TargetKind) (candidate : Candidate) (player : PlayerId) : Prop :=
  match candidate.reference with
  | .player id => kind ∈ [any, creatureOrPlayer, .player] ∨ kind = opponent ∧ id ≠ player
  | .permanent _ => kind = permanent ∨ ∃ type ∈ kind.types, candidate.IsType type
  | .spell _ => kind = spell

theorem matches_eq_true_iff {kind : TargetKind} {candidate : Candidate} {player : PlayerId} :
    kind.matches candidate player = true ↔ kind.Covers candidate player := by
  unfold «matches» Covers
  cases candidate.reference with
  | player id => cases kind <;> simp
  | permanent id => cases kind <;> simp [types, Candidate.hasType_eq_true_iff]
  | spell id => cases kind <;> simp

end TargetKind

/-! ## Out of reach -/

namespace Untargetability

/-- What makes a candidate untargetable for a player's source of some colors. -/
inductive Forbids (candidate : Candidate) (player : PlayerId) (colors : List Color) :
    Untargetability → Prop where
  | shroud (has : candidate.Has .shroud) : Forbids candidate player colors keywords
  | hexproof (has : candidate.Has .hexproof) (foreign : candidate.controller ≠ some player) :
      Forbids candidate player colors keywords
  | protection {color : Color} (source : color ∈ colors) (has : candidate.Has (.protectionFrom color)) :
      Forbids candidate player colors keywords

variable {rules : Untargetability} {candidate : Candidate} {player : PlayerId} {colors : List Color}

theorem forbids_iff :
    rules.Forbids candidate player colors ↔
      rules.shrouds candidate = true ∨
      candidate.controller ≠ some player ∧ rules.hexproofs candidate = true ∨
      rules.protects candidate colors = true := by
  constructor
  · intro h
    cases h with
    | shroud has => exact .inl (Candidate.hasKeyword_eq_true_iff.mpr has)
    | hexproof has foreign => exact .inr (.inl ⟨foreign, Candidate.hasKeyword_eq_true_iff.mpr has⟩)
    | protection source has =>
      exact .inr (.inr (List.any_eq_true.mpr ⟨_, source, Candidate.hasKeyword_eq_true_iff.mpr has⟩))
  · intro h
    cases rules with
    | ignored => simp [shrouds, hexproofs, protects] at h
    | keywords =>
      rcases h with hshroud | ⟨hforeign, hhexproof⟩ | hprotected
      · exact .shroud (Candidate.hasKeyword_eq_true_iff.mp hshroud)
      · exact .hexproof (Candidate.hasKeyword_eq_true_iff.mp hhexproof) hforeign
      · obtain ⟨color, hsource, hhas⟩ := List.any_eq_true.mp hprotected
        exact .protection hsource (Candidate.hasKeyword_eq_true_iff.mp hhas)

/-- A source of more colors, or stricter rules, forbid more. -/
theorem Forbids.mono {rules' : Untargetability} {colors' : List Color}
    (h : rules.Forbids candidate player colors) (hcolors : colors ⊆ colors')
    (hrules : rules' = rules ∨ rules' = .keywords) : rules'.Forbids candidate player colors' := by
  have hkeywords : rules' = .keywords := by
    cases h <;> simpa using hrules
  subst hkeywords
  cases h with
  | shroud has => exact .shroud has
  | hexproof has foreign => exact .hexproof has foreign
  | protection source has => exact .protection (hcolors source) has

end Untargetability

/-! ## Restrictions -/

/-- Whether a candidate has the property that a trait reads. -/
def Trait.isReadable (candidate : Candidate) : Trait → Bool
  | .cardType _ => candidate.types.isSome
  | .subtype _ => candidate.subtypes.isSome
  | .keyword _ => candidate.keywords.isSome
  | .power _ _ => candidate.power.isSome
  | .toughness _ _ => candidate.toughness.isSome
  | .manaValue _ _ => candidate.manaValue.isSome
  | .controller _ => candidate.controllerName.isSome
  | .color _ => candidate.colors.isSome
  | .tapped | .untapped => candidate.tapped.isSome
  | .card _ | .other _ => true

theorem Trait.isSome_holds? (candidate : Candidate) (name : String) (trait : Trait) :
    (trait.holds? candidate name).isSome = trait.isReadable candidate := by
  cases trait with
  | controller relation => cases relation <;> simp [holds?, isReadable]
  | _ => simp [holds?, isReadable]

namespace Restriction

theorem holds_of_not_other {trait : Trait} (h : ∀ text, trait ≠ .other text) (negated : Bool)
    (candidate : Candidate) (name : String) :
    holds ⟨trait, negated⟩ candidate name = (trait.holds? candidate name).any (· != negated) := by
  cases trait with
  | other text => exact absurd rfl (h text)
  | _ => rfl

/-- Of a restriction that can be read its negation is the contrary, and of any other neither holds. -/
theorem holds_negated {trait : Trait} (h : ∀ text, trait ≠ .other text) (candidate : Candidate)
    (name : String) :
    if trait.isReadable candidate then
      holds ⟨trait, true⟩ candidate name = !holds ⟨trait, false⟩ candidate name
    else
      holds ⟨trait, false⟩ candidate name = false ∧ holds ⟨trait, true⟩ candidate name = false := by
  rw [holds_of_not_other h, holds_of_not_other h, ← trait.isSome_holds? candidate name]
  cases trait.holds? candidate name with
  | none => simp
  | some answer => simp

end Restriction

/-! ## Legality -/

namespace Target

variable {rules : Untargetability} {target : Target} {candidate : Candidate} {player : Player}
  {colors : List Color}

/-- One test of several: it has to be passed, and then the others have to. -/
theorem test_eq_none_iff {p : Prop} [Decidable p] {objection : Objection} {others : Option Objection} :
    (if p then some objection else others) = none ↔ ¬p ∧ others = none := by
  split <;> simp_all

theorem objection?_eq_none_iff :
    target.objection? rules candidate player colors = none ↔
      target.kind.matches candidate player.id = true ∧ ¬rules.shrouds candidate = true ∧
        ¬(candidate.controller ≠ some player.id ∧ rules.hexproofs candidate = true) ∧
        ¬rules.protects candidate colors = true ∧
        ∀ restriction ∈ target.restrictions, restriction.holds candidate player.name = true := by
  unfold objection?
  simp only [test_eq_none_iff, Option.map_eq_none_iff, List.find?_eq_none, Bool.not_eq_true',
    Bool.not_eq_false, Bool.and_eq_true, bne_iff_ne]

theorem accepts_eq_true_iff :
    target.accepts rules candidate player colors = true ↔
      target.kind.Covers candidate player.id ∧ ¬rules.Forbids candidate player.id colors ∧
        ∀ restriction ∈ target.restrictions, restriction.holds candidate player.name = true := by
  rw [accepts, Option.isNone_iff_eq_none, objection?_eq_none_iff, TargetKind.matches_eq_true_iff,
    Untargetability.forbids_iff, not_or, not_or, and_assoc, and_assoc]

/-- What is legal stays so with some of the restrictions, for a source of some of the colors, and if
nothing makes untargetable any more. -/
theorem accepts_of_accepts {rules' : Untargetability} {target' : Target} {colors' : List Color}
    (h : target'.accepts rules' candidate player colors' = true) (hkind : target'.kind = target.kind)
    (hrestrictions : target.restrictions ⊆ target'.restrictions) (hcolors : colors ⊆ colors')
    (hrules : rules' = rules ∨ rules' = .keywords) : target.accepts rules candidate player colors = true := by
  rw [accepts_eq_true_iff] at h ⊢
  obtain ⟨hcovers, hfree, hall⟩ := h
  exact ⟨hkind ▸ hcovers, fun hforbids => hfree (hforbids.mono hcolors hrules),
    fun restriction hmem => hall restriction (hrestrictions hmem)⟩

/-- A candidate is legal for a requirement exactly if it is of the category, nothing makes it
untargetable, and every restriction holds. It does not matter in which order and how often a restriction is
given. With more restrictions, for a source of more colors, or when keywords count, no candidate becomes
legal that was not. Of a restriction that has a meaning and its negation never both hold: neither does if the
candidate lacks the property that they read, and otherwise exactly one. -/
theorem legality_antitone (candidate : Candidate) (target : Target) (player : Player)
    (colors : List Color) :
    (∀ rules : Untargetability, target.accepts rules candidate player colors = true ↔
      target.kind.Covers candidate player.id ∧ ¬rules.Forbids candidate player.id colors ∧
        ∀ restriction ∈ target.restrictions, restriction.holds candidate player.name = true) ∧
    (∀ (rules : Untargetability) (restrictions : List Restriction),
      (∀ restriction, restriction ∈ restrictions ↔ restriction ∈ target.restrictions) →
      { target with restrictions }.accepts rules candidate player colors =
        target.accepts rules candidate player colors) ∧
    (∀ (rules rules' : Untargetability) (restrictions : List Restriction) (colors' : List Color),
      rules' = rules ∨ rules' = .keywords → target.restrictions ⊆ restrictions → colors ⊆ colors' →
      target.accepts rules candidate player colors = false →
      { target with restrictions }.accepts rules' candidate player colors' = false) ∧
    (∀ trait : Trait, (∀ text, trait ≠ .other text) →
      let holds (negated : Bool) := Restriction.holds ⟨trait, negated⟩ candidate player.name
      ¬(holds false = true ∧ holds true = true) ∧
      (trait.isReadable candidate = false → holds false = false ∧ holds true = false) ∧
      (trait.isReadable candidate = true → holds true = !holds false)) := by
  refine ⟨fun rules => accepts_eq_true_iff, ?sameRestrictions, ?antitone, ?negation⟩
  case sameRestrictions =>
    intro rules restrictions hsame
    rw [Bool.eq_iff_iff]
    constructor
    · intro h
      exact accepts_of_accepts h rfl (fun restriction => (hsame restriction).mpr) (List.Subset.refl _) (.inl rfl)
    · intro h
      exact accepts_of_accepts h rfl (fun restriction => (hsame restriction).mp) (List.Subset.refl _) (.inl rfl)
  case antitone =>
    intro rules rules' restrictions colors' hrules hrestrictions hcolors hillegal
    rw [← Bool.not_eq_true] at hillegal ⊢
    exact fun h => hillegal (accepts_of_accepts h rfl hrestrictions hcolors hrules)
  case negation =>
    intro trait htrait holds
    have hnegated := Restriction.holds_negated htrait candidate player.name
    cases hreadable : trait.isReadable candidate with
    | false =>
      rw [hreadable, if_neg Bool.false_ne_true] at hnegated
      exact ⟨fun hboth => Bool.false_ne_true (hnegated.1.symm.trans hboth.1), fun _ => hnegated,
        fun h => absurd h Bool.false_ne_true⟩
    | true =>
      rw [hreadable, if_pos rfl] at hnegated
      refine ⟨fun hboth => ?_, fun h => absurd h.symm Bool.false_ne_true, fun _ => hnegated⟩
      have hcontrary : true = !true := hboth.2.symm.trans (hnegated.trans (congrArg _ hboth.1))
      exact absurd hcontrary (by decide)

/-- A green creature of a bear's size that an opponent cannot target. -/
def hexproofBear : Candidate where
  reference := .permanent ⟨9⟩
  controller := some ⟨2⟩
  controllerName := some "Bob"
  types := some [.creature]
  subtypes := some [⟨"Bear"⟩]
  colors := some [.green]
  keywords := some [.hexproof]
  power := some 2
  toughness := some 2
  manaValue := some 2
  tapped := some false

/-- Alice can target the bear as an untapped creature while keywords do not count, in whatever order and
however often that is asked; from a red source and with keywords counting she cannot target it as an artifact
either; and it is either black or not black. -/
theorem legality_antitone_hexproofBear :
    let player : Player := { id := ⟨1⟩, name := "Alice", life := 20 }
    let untapped : Restriction := ⟨.untapped, false⟩
    let nonblack : Restriction := ⟨.color .black, true⟩
    let artifact : Restriction := ⟨.cardType .artifact, false⟩
    let target : Target := { kind := .creature, restrictions := [untapped, nonblack] }
    { target with restrictions := [nonblack, untapped, nonblack] }.accepts .ignored hexproofBear player [] =
        true ∧
      { target with restrictions := [artifact, nonblack] }.accepts .keywords hexproofBear player [.red] =
        false ∧
      nonblack.holds hexproofBear player.name = !Restriction.holds ⟨.color .black, false⟩ hexproofBear "Alice" := by
  intro player untapped nonblack artifact target
  obtain ⟨-, hsame, -, -⟩ := legality_antitone hexproofBear target player []
  obtain ⟨-, -, hantitone, hnegation⟩ :=
    legality_antitone hexproofBear { target with restrictions := [artifact] } player []
  have hlegal : target.accepts .ignored hexproofBear player [] = true := by decide
  refine ⟨(hsame .ignored _ ?_).trans hlegal, hantitone .ignored .keywords _ _ (.inr rfl) ?_ ?_ ?_, ?_⟩
  · intro restriction
    simp only [target, List.mem_cons, List.not_mem_nil, or_false]
    grind
  · simp
  · simp
  · decide
  · exact (hnegation (.color .black) (by simp)).2.2 rfl

end Target

end CardRules
