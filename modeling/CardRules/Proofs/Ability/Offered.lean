import CardRules.Proofs.Ability.Mana

/-!
# Mana abilities produce what they offer

The sentence of a mana ability offers some colors, and the mana it makes is of these, with one exception:
an ability that adds mana "of any color" makes colorless mana if that is what its controller chooses.
-/

set_option autoImplicit false

namespace CardRules

/-- The sentence of a mana ability is one that offers mana. -/
theorem Ability.Drafted.isOffer {reader : AbilityReader} {card : CardId} {ability : Ability}
    (h : ability.Drafted reader card) (hmana : ability.kind = .mana) :
    Mana.IsOffer ability.oracleText := by
  cases h with
  | @mk sentence draft id made drafted numbered timing usageLimit =>
    obtain ⟨hkind, -, htext⟩ := Draft.ability?_eq_some numbered
    have hsame : (if reader.closely then made.refine.2 else made).kind = draft.kind ∧
        (if reader.closely then made.refine.2 else made).oracleText = String.ofList sentence := by
      split
      · rw [made.kind_refine, made.oracleText_refine]
        exact ⟨hkind, htext⟩
      · exact ⟨hkind, htext⟩
    show Mana.IsOffer (if reader.closely then made.refine.2 else made).oracleText
    rw [hsame.2]
    exact (Draft.mana_of_sentence drafted (hsame.1 ▸ hmana)).1

namespace AbilityReader

end AbilityReader

end CardRules
