import CardRules.Ability
import CardRules.Cost.Written
import CardRules.Effect.Clause

/-!
# Drafts of abilities

A sentence of rules text is read as a draft of an ability by the first of a table of phrasings
that reads all of it and can build a draft of what it read. The phrasings are grouped by kind of
ability, and the groups stand in the order of `AbilityKind.all`.
-/

set_option autoImplicit false

namespace CardRules

/-- An ability before it has a number and a source. -/
structure Draft where
  name : String
  kind : AbilityKind
  cost : Cost
  effects : List Effect
  trigger : Option Trigger := none
  timing : Timing := {}
  /-- Whether the targets exclude the ability's own source. -/
  excludesSource : Bool := false
deriving DecidableEq, Repr

/-- A draft named after its first effect. -/
def Draft.make (kind : AbilityKind) (cost : Cost) (effects : List Effect) : Draft :=
  { name := (effects.head?.map (·.description)).getD "", kind, cost, effects }

/-- A way to phrase an ability: it reads a sentence, and builds a draft if it can. -/
structure Phrasing where
  name : String
  reader : Text.Reader (Option Draft)

/-- The draft of a sentence in this phrasing. -/
def Phrasing.draft? (phrasing : Phrasing) (sentence : List Char) : Option Draft :=
  (phrasing.reader.read? sentence).join

namespace Phrasing

open Text Text.Reader Clause

/-! ## Mana abilities -/

/-- A cost and its colon, up to the word "add". -/
def addCost : Reader (List Char) := do
  let cost ← upTo ':'
  skip isBlank
  words "add "
  pure cost

/-- A mana ability with a written cost. -/
def manaDraft (cost : List Char) (effect : Effect) : Option Draft :=
  if Cost.isWritten cost then some (.make .mana (Cost.ofText cost) [effect]) else none

/-- The symbol of a color, and its letter. -/
def colorSymbol : Reader (List Char) := do
  words "\x7b"
  let letter ← oneChar fun c => (Color.ofSymbol? c).isSome
  words "\x7d"
  pure [letter]

/-- "{T}: Add one mana of any color" -/
def manaAnyColor : Phrasing where
  name := "mana-any-color"
  reader := do
    let cost ← addCost
    let n ← amount
    words " mana of any "
    let _ ← flag (words "one ")
    words "color"
    pure (do
      let n ← Amount.ofText? n
      manaDraft cost ((Effect.make .addMana n).described
        ("add " ++ toString n.toInt ++ " mana of any color")))

/-- "{T}: Add {R} or {G}" -/
def manaChoice : Phrasing where
  name := "mana-choice"
  reader := do
    let cost ← addCost
    let first ← colorSymbol
    let more ← times (do
      let _ ← flag (words ",")
      words " "
      let _ ← flag (words "or ")
      colorSymbol)
    pure (if more.isEmpty then none
      else manaDraft cost ((Effect.make .addMana 1).described
        ("add one of " ++ " or ".intercalate ((first :: more).map String.ofList))))

/-- "{T}: Add {G}{G}" -/
def manaFixed : Phrasing where
  name := "mana-fixed"
  reader := do
    let cost ← addCost
    let first ← colorSymbol
    let more ← times colorSymbol
    let symbols := first :: more
    pure (manaDraft cost ((Effect.make .addMana (Int32.ofNat symbols.length)).described
      ("add " ++ String.ofList (braced symbols))))

/-! ## Activated abilities -/

/-- "{2}, {T}: Draw a card" -/
def activated : Phrasing where
  name := "activated"
  reader := do
    let cost ← upTo ':'
    skip isBlank
    let clause ← line
    pure (if Cost.isWritten cost then
        (effects? clause).map (Draft.make .activated (Cost.ofText cost))
      else none)

/-! ## Triggered abilities -/

/-- The word that starts a triggered ability. -/
def whenWords : Reader Unit := anyWords ["when ", "whenever "]

/-- A triggered ability with a written effect. -/
def triggeredDraft (trigger : Trigger) (clause : List Char) : Option Draft :=
  (effects? clause).map fun effects => { Draft.make .triggered {} effects with trigger }

/-- "When this permanent enters, draw a card" -/
def entersTrigger : Phrasing where
  name := "etb-trigger"
  reader := do
    whenWords; selfWords; words " enters"
    let _ ← flag (words " the battlefield")
    let _ ← flag (words " under your control")
    words ", "
    triggeredDraft .entersTheBattlefield <$> line

/-- "When this permanent dies, draw a card" -/
def diesTrigger : Phrasing where
  name := "dies-trigger"
  reader := do
    whenWords; selfWords; words " dies, "
    triggeredDraft .dies <$> line

/-- "When this permanent leaves the battlefield, draw a card" -/
def leavesTrigger : Phrasing where
  name := "ltb-trigger"
  reader := do
    whenWords; selfWords; words " leaves the battlefield, "
    triggeredDraft .leavesTheBattlefield <$> line

/-- "Whenever this creature attacks, draw a card" -/
def attacksTrigger : Phrasing where
  name := "attacks-trigger"
  reader := do
    words "whenever "; selfWords; words " attacks, "
    triggeredDraft .attacks <$> line

/-- "At the beginning of your upkeep, draw a card" -/
def upkeepTrigger : Phrasing where
  name := "upkeep-trigger"
  reader := do
    words "at the beginning of "
    anyWords ["your", "each"]
    words " upkeep, "
    triggeredDraft .beginningOfUpkeep <$> line

/-! ## Static abilities -/

/-- A letter, as phrases are read. -/
def isLetter (c : Char) : Bool := (fold c).isLower

/-- A number with its sign. -/
def signedNumber : Reader (List Char) := do
  let sign ← oneChar fun c => c == '+' || c == '-'
  let digits ← runs Char.isDigit
  pure (sign :: digits)

/-- The creatures that a lord affects: the controller's, of a color or a subtype. -/
def lordTarget (subtype : Option (List Char)) : Target :=
  let yours : Target :=
    { kind := .creature, required := false, restrictions := [⟨.controller .you, false⟩] }
  match subtype with
  | none => yours
  | some word => match Color.ofWord? word with
    | some color => yours.restrict ⟨.color color, false⟩
    | none => yours.restrict ⟨.subtype (String.ofList word), false⟩

/-- "Other Elf creatures you control get +1/+1" -/
def lordPump : Phrasing where
  name := "lord-pump"
  reader := do
    let excludesSource ← flag (words "other ")
    let subtype ← maybe (do let word ← runs isLetter; words " "; pure word)
    words "creatures you control get "
    let power ← signedNumber
    words "/"
    let toughness ← signedNumber
    pure (do
      let power ← Amount.ofSigned? power
      let toughness ← Amount.ofSigned? toughness
      let effect ← Effect.pump? power toughness .permanent
      pure { Draft.make .static {} [effect.withTarget (lordTarget subtype)] with excludesSource })

/-- A keyword's letters and spaces. -/
def isKeywordText (s : List Char) : Bool := !s.isEmpty && s.all fun c => isLetter c || c == ' '

/-- Whether a line is made of words, with a comma and a space between its parts. -/
def isKeywordLine (s : List Char) : Bool :=
  match s.splitOn ',' with
  | [] => false
  | first :: rest => isKeywordText first && rest.all fun part =>
      match part with
      | ' ' :: part => isKeywordText part
      | _ => false

/-- "Flying, first strike" -/
def keywords : Phrasing where
  name := "keywords"
  reader := fun s =>
    if isKeywordLine s then
      [(((s.splitOn ',').mapM Keyword.ofText?).map fun keywords =>
        Draft.make .static {} (keywords.map Effect.grant), [])]
    else []

/-! ## Replacement effects -/

/-- "This land enters tapped" -/
def entersTapped : Phrasing where
  name := "enters-tapped"
  reader := do
    selfWords; words " enters"
    let _ ← flag (words " the battlefield")
    words " tapped"
    pure (some (.make .replacement {} [(Effect.make .entersTapped 1).described "enters tapped"]))

/-! ## Instructions of spells -/

/-- The effects of a choice of modes: those of the first mode, if it is understood. -/
def modalEffects (count modes : List Char) : List Effect :=
  let n := ((Text.words count).head?.bind Amount.ofWord?).getD 1
  let first := ((modes.splitOn ';').map trim).find? (!·.isEmpty)
  (first.bind effects?).getD
    [(Effect.make .modal n).described ("choose " ++ String.ofList count)]

/-- "Choose one -- Draw a card; You gain 3 life" -/
def modal : Phrasing where
  name := "modal"
  reader := do
    words "choose "
    let count ← captured (anyWords ["one or more", "one or both", "one", "two", "three"])
    skip isBlank; skip (· == '-'); skip isBlank
    let modes ← lineOrNothing
    let draft := Draft.make .spell {} (modalEffects count modes)
    pure (some { draft with name := "Choose " ++ String.ofList count ++ ": " ++ draft.name })

/-- "Draw two cards" -/
def spellEffect : Phrasing where
  name := "spell-effect"
  reader := do
    let clause ← line
    pure ((effects? clause).map (Draft.make .spell {}))

/-! ## The table -/

/-- The phrasings of a kind of ability, in the order in which they are tried. -/
def ofKind : AbilityKind → List Phrasing
  | .mana => [manaAnyColor, manaChoice, manaFixed]
  | .activated => [activated]
  | .triggered => [entersTrigger, diesTrigger, leavesTrigger, attacksTrigger, upkeepTrigger]
  | .static => [lordPump, keywords]
  | .replacement => [entersTapped]
  | .spell => [modal, spellEffect]

/-- All phrasings, in the order in which they are tried. -/
def table : List Phrasing := AbilityKind.all.flatMap ofKind

end Phrasing

/-- The draft of a sentence in the first phrasing that gives one. -/
def Draft.ofSentence? (phrasings : List Phrasing) (sentence : List Char) : Option Draft :=
  phrasings.findSome? fun phrasing => phrasing.draft? sentence

end CardRules
