import CardRules.Effect
import CardRules.Target.Written
import CardRules.Text.Reader
import CardRules.Text.WordChar

/-!
# Clauses

A clause of rules text says what happens: "draw two cards", "target player loses 2 life and you
gain 2 life". A single clause is read by the first of the rules below that reads all of it and
can make an effect of what it read; a rule that reads the clause but finds, say, no amount leaves
it to the next rule. Other clauses are cut in two at ", then ", ", and " or " and ".
-/

set_option autoImplicit false

namespace CardRules.Clause

open Text Text.Reader

/-- A rule reads a clause, and makes an effect of it if it can. -/
abbrev Rule : Type := Reader (Option Effect)

/-- The ways in which a permanent's own text names it. -/
def selfWords : Reader Unit :=
  anyWords ["this permanent", "this creature", "this artifact", "this enchantment", "it"]

/-- An "s" that may be missing. -/
def optionalS : Reader Unit := do
  let _ ← flag (words "s")

/-- An amount, in one word. -/
def amount : Reader (List Char) := runs isWordChar

/-- A word with a sign before it. -/
def signedWord : Reader (List Char) := do
  let sign ← oneChar fun c => c == '+' || c == '-'
  let word ← runs isWordChar
  pure (sign :: word)

/-- A target phrase at the end of a clause. -/
def targetPhrase : Reader (List Char) := do
  words "target "
  let rest ← line
  pure ("target ".toList ++ rest)

/-- A target phrase at the end of a clause, perhaps with a count. -/
def countedPhrase : Reader (List Char) := do
  let count ← maybe (do words "up to "; let n ← amount; words " "; pure n)
  let phrase ← targetPhrase
  pure (match count with
    | some n => "up to ".toList ++ n ++ [' '] ++ phrase
    | none => phrase)

/-- Somebody a clause addresses, when it need not address anybody. -/
def addressee : Reader (Option Target) := do
  let who ← maybe (do
    let who ← Reader.oneOf
      [(do words "target player"; pure (some { kind := .player })), (do words "you"; pure none)]
    words " "
    pure who)
  pure who.join

/-- An effect of a kind with a written amount. -/
def ofAmount (kind : EffectKind) (n : List Char) : Option Effect :=
  (Amount.ofText? n).map fun n => Effect.make kind n

/-- An effect of a kind on a written target. -/
def onTarget (kind : EffectKind) (phrase : List Char) : Option Effect :=
  (Target.ofPhrase? phrase).map fun target => (Effect.make kind 1).withTarget target

/-- "draw two cards" -/
def draw : Rule := do
  let who ← addressee
  words "draw"; optionalS; words " "
  let n ← amount
  words " card"; optionalS
  pure ((ofAmount .drawCards n).map fun effect => effect.withTarget? who)

/-- "deals 3 damage to any target" -/
def damage : Rule := do
  let _ ← flag (do selfWords; words " ")
  words "deal"; optionalS; words " "
  let n ← amount
  words " damage to "
  let phrase ← line
  pure (do
    let target ← Target.ofPhrase? phrase
    let effect ← ofAmount .dealDamage n
    pure (effect.withTarget target))

/-- "you gain 3 life" -/
def gainLife : Rule := do
  let _ ← flag (words "you ")
  words "gain"; optionalS; words " "
  let n ← amount
  words " life"
  pure (ofAmount .gainLife n)

/-- "target player loses 2 life" -/
def loseLife : Rule := do
  let who ← Reader.oneOf
    [(do words "target player"; pure (some { kind := .player })),
      (do words "target opponent"; pure (some { kind := .opponent })),
      (do words "you"; pure none)]
  words " lose"; optionalS; words " "
  let n ← amount
  words " life"
  pure ((ofAmount .loseLife n).map fun effect => effect.withTarget? who)

/-- "gets +2/+2 until end of turn": the words for power and toughness, and how long. -/
def change : Reader (List Char × List Char × Duration) := do
  words " get"; optionalS; words " "
  let power ← signedWord
  words "/"
  let toughness ← signedWord
  let duration ← maybe (do
    words " until end of "
    Reader.oneOf [(do words "turn"; pure Duration.untilEndOfTurn),
      (do words "combat"; pure Duration.untilEndOfCombat)])
  atEnd
  pure (power, toughness, duration.getD .untilEndOfTurn)

/-- "target creature gets +2/+2 until end of turn" -/
def pump : Rule := do
  let (who, power, toughness, duration) ← Reader.oneOf
    [(do selfWords; let change ← change; pure (none, change)),
      (do
        words "target "
        let (rest, change) ← before change
        pure (some ("target ".toList ++ rest), change))]
  pure (do
    let power ← Amount.ofSigned? power
    let toughness ← Amount.ofSigned? toughness
    let effect ← Effect.pump? power toughness duration
    match who with
    | some phrase => (Target.ofPhrase? phrase).map fun target => effect.withTarget target
    | none => pure effect)

/-- "destroy target creature" -/
def destroy : Rule := do
  words "destroy "
  let phrase ← targetPhrase
  pure (onTarget .destroy phrase)

/-- "counter target spell" -/
def counter : Rule := do
  words "counter "
  let phrase ← targetPhrase
  pure ((onTarget .counterSpell phrase).filter fun effect =>
    effect.targets.head?.any fun target => target.kind == .spell)

/-- "tap target creature" -/
def tap : Rule := do
  words "tap "
  let phrase ← countedPhrase
  pure (onTarget .tap phrase)

/-- "untap target land" -/
def untap : Rule := do
  words "untap "
  let phrase ← Reader.oneOf [some <$> countedPhrase, (do selfWords; pure none)]
  pure (match phrase with
    | some phrase => onTarget .untap phrase
    | none => some (Effect.make .untap 1))

/-- "target player mills three cards" -/
def mill : Rule := do
  let who ← addressee
  words "mill"; optionalS; words " "
  let n ← amount
  words " card"; optionalS
  pure ((ofAmount .mill n).map fun effect => effect.withTarget? who)

/-- "exile target creature" -/
def exile : Rule := do
  words "exile "
  let phrase ← targetPhrase
  pure (onTarget .exile phrase)

/-- "return target creature to its owner's hand" -/
def returnToHand : Rule := do
  words "return target "
  let (rest, _) ← before (do
    words " to "
    anyWords ["its", "their"]
    words " owner"
    let _ ← flag (words "'")
    words "s"
    let _ ← flag (words "'")
    words " hand"; optionalS; atEnd)
  pure (onTarget .returnToHand ("target ".toList ++ rest))

/-- "create two 1/1 white Soldier creature tokens" -/
def createToken : Rule := do
  words "create "
  let n ← amount
  words " "
  let (what, _) ← before (do words " token"; optionalS; atEnd)
  pure ((ofAmount .createToken n).map fun effect =>
    effect.described ("create " ++ String.ofList n ++ " " ++ String.ofList what ++ " token(s)"))

/-- The rules, in the order in which they are tried. -/
def rules : List Rule :=
  [draw, damage, gainLife, loseLife, pump, destroy, counter, tap, untap, mill, exile,
    returnToHand, createToken]

/-- The effect of a single clause. -/
def single? (s : List Char) : Option Effect := rules.findSome? fun rule => (rule.read? s).join

/-- A clause without blanks at its ends, final periods and the words "you may". -/
def bare (s : List Char) : List Char :=
  let s := dropBack (· == '.') (trim s)
  (dropFront? "you may ".toList s).getD s

theorem length_bare_le (s : List Char) : (bare s).length ≤ s.length := by
  have h : (dropBack (· == '.') (trim s)).length ≤ s.length :=
    Nat.le_trans (length_dropBack_le _ _) (length_trim_le s)
  simp only [bare]
  cases hd : dropFront? "you may ".toList (dropBack (· == '.') (trim s)) with
  | none => simpa using h
  | some rest =>
    have := length_of_dropFront? hd
    simp only [Option.getD_some]
    omega

/-- What joins two clauses, in the order in which it is looked for. -/
def joints : List String := [", then ", ", and ", " and "]

/-- The effects of a clause of at most `size` characters. -/
def effectsWithin : (size : Nat) → List Char → Option (List Effect)
  | 0, _ => none
  | size + 1, s =>
    match single? (bare s) with
    | some effect => some [effect]
    | none => joints.findSome? fun joint => do
        let (first, second) ← cut? joint.toList (bare s)
        let effects ← effectsWithin size first
        let rest ← effectsWithin size second
        pure (effects ++ rest)

/-- The effects of a clause, in order. -/
def effects? (s : List Char) : Option (List Effect) := effectsWithin (s.length + 1) s

/-- The size only has to exceed the length of the clause. -/
theorem effectsWithin_eq {m n : Nat} {s : List Char} (hm : s.length < m) (hn : s.length < n) :
    effectsWithin m s = effectsWithin n s := by
  induction m generalizing n s with
  | zero => omega
  | succ m ih =>
    obtain ⟨n, rfl⟩ : ∃ k, n = k + 1 := ⟨n - 1, by omega⟩
    have hs := length_bare_le s
    have step : ∀ joint ∈ joints,
        (do let (first, second) ← cut? joint.toList (bare s)
            let effects ← effectsWithin m first
            let rest ← effectsWithin m second
            pure (effects ++ rest)) =
        (do let (first, second) ← cut? joint.toList (bare s)
            let effects ← effectsWithin n first
            let rest ← effectsWithin n second
            pure (effects ++ rest) : Option (List Effect)) := by
      intro joint hj
      have hpos : 0 < joint.toList.length := by
        simp only [joints, List.mem_cons, List.not_mem_nil, or_false] at hj
        rcases hj with rfl | rfl | rfl <;> decide
      cases hc : cut? joint.toList (bare s) with
      | none => rfl
      | some parts =>
        obtain ⟨first, second⟩ := parts
        have hl := length_of_cut? hc
        simp only [Option.bind_eq_bind, Option.bind_some]
        rw [ih (s := first) (n := n) (by omega) (by omega),
          ih (s := second) (n := n) (by omega) (by omega)]
    simp only [effectsWithin]
    cases single? (bare s) with
    | some effect => rfl
    | none =>
      simp only [joints, List.findSome?_cons, List.findSome?_nil]
      rw [step ", then " (by simp [joints]), step ", and " (by simp [joints]),
        step " and " (by simp [joints])]

end CardRules.Clause
