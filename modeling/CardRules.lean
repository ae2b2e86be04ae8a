import CardRules.Ability
import CardRules.Ability.Draft
import CardRules.Ability.Reading
import CardRules.Act
import CardRules.Amount
import CardRules.Arguments
import CardRules.Capped
import CardRules.Card
import CardRules.CardFile
import CardRules.CardType
import CardRules.Color
import CardRules.Config
import CardRules.Cost
import CardRules.Cost.Written
import CardRules.Data
import CardRules.Data.Forms.Ability
import CardRules.Data.Forms.Table
import CardRules.Data.Serial
import CardRules.Data.Token
import CardRules.Data.Written
import CardRules.Duration
import CardRules.Effect
import CardRules.Effect.Clause
import CardRules.Effect.Pump
import CardRules.Engine
import CardRules.Engine.Activation
import CardRules.Engine.Effects
import CardRules.Fault
import CardRules.Identity
import CardRules.Invocation
import CardRules.Journal
import CardRules.Keyword
import CardRules.Main
import CardRules.Mana.Cost
import CardRules.Mana.Pool
import CardRules.Mana.Production
import CardRules.Mana.Symbol
import CardRules.Player
import CardRules.Program
import CardRules.Proofs.Ability.Descriptions
import CardRules.Proofs.Ability.Draft
import CardRules.Proofs.Ability.Drafted
import CardRules.Proofs.Ability.Joined
import CardRules.Proofs.Ability.Kept
import CardRules.Proofs.Ability.KeywordLine
import CardRules.Proofs.Ability.Lords
import CardRules.Proofs.Ability.Mana
import CardRules.Proofs.Ability.Offered
import CardRules.Proofs.Ability.Passages
import CardRules.Proofs.Ability.Reading
import CardRules.Proofs.Ability.Refining
import CardRules.Proofs.Ability.Variable
import CardRules.Proofs.Act
import CardRules.Proofs.CardFile
import CardRules.Proofs.Cost.Accounted
import CardRules.Proofs.Cost.Combined
import CardRules.Proofs.Cost.Demands
import CardRules.Proofs.Cost.Fragments
import CardRules.Proofs.Cost.Joined
import CardRules.Proofs.Cost.Notation
import CardRules.Proofs.Cost.Rows
import CardRules.Proofs.Data.Cutting
import CardRules.Proofs.Data.Forms
import CardRules.Proofs.Data.Tokens
import CardRules.Proofs.Data.Written
import CardRules.Proofs.Effect.Amounts
import CardRules.Proofs.Effect.Bare
import CardRules.Proofs.Effect.Compound
import CardRules.Proofs.Effect.Cuts
import CardRules.Proofs.Effect.Openings
import CardRules.Proofs.Effect.Packed
import CardRules.Proofs.Effect.Readings
import CardRules.Proofs.Effect.Wording
import CardRules.Proofs.Engine.Attempt
import CardRules.Proofs.Engine.Chosen
import CardRules.Proofs.Engine.CostPaid
import CardRules.Proofs.Engine.Declined
import CardRules.Proofs.Engine.FixX
import CardRules.Proofs.Engine.Frame
import CardRules.Proofs.Engine.Leaving
import CardRules.Proofs.Engine.Obstacle
import CardRules.Proofs.Engine.Payment
import CardRules.Proofs.Engine.Spending
import CardRules.Proofs.Engine.Suited
import CardRules.Proofs.Engine.Usage
import CardRules.Proofs.Mana.Cheapest
import CardRules.Proofs.Mana.Exact
import CardRules.Proofs.Mana.Notation
import CardRules.Proofs.Mana.Offered
import CardRules.Proofs.Mana.Payment
import CardRules.Proofs.Mana.Production
import CardRules.Proofs.Mana.Symbols
import CardRules.Proofs.Player.Checked
import CardRules.Proofs.Player.Payment
import CardRules.Proofs.Program.Casting
import CardRules.Proofs.Registry.Consistent
import CardRules.Proofs.Registry.Indexed
import CardRules.Proofs.Stack.Call
import CardRules.Proofs.Stack.Casting
import CardRules.Proofs.Stack.ChosenX
import CardRules.Proofs.Stack.Countered
import CardRules.Proofs.Stack.Discipline
import CardRules.Proofs.Stack.Drain
import CardRules.Proofs.Stack.Exclusive
import CardRules.Proofs.Stack.Failing
import CardRules.Proofs.Stack.Fizzling
import CardRules.Proofs.Stack.Illegal
import CardRules.Proofs.Stack.Journals
import CardRules.Proofs.Stack.ManaAtOnce
import CardRules.Proofs.Stack.Marks
import CardRules.Proofs.Stack.Moves
import CardRules.Proofs.Stack.Origin
import CardRules.Proofs.Stack.Query
import CardRules.Proofs.Stack.Round
import CardRules.Proofs.Stack.SorcerySpeed
import CardRules.Proofs.Stack.Step
import CardRules.Proofs.Stack.Triggers
import CardRules.Proofs.Stack.Usage
import CardRules.Proofs.Stack.Venue
import CardRules.Proofs.Table.Careful
import CardRules.Proofs.Table.Conservation
import CardRules.Proofs.Table.Dying
import CardRules.Proofs.Table.Filed
import CardRules.Proofs.Table.Frame
import CardRules.Proofs.Table.Keeps
import CardRules.Proofs.Table.Moving
import CardRules.Proofs.Table.Obstacle
import CardRules.Proofs.Table.Orderly
import CardRules.Proofs.Table.Payment
import CardRules.Proofs.Table.Stranded
import CardRules.Proofs.Table.Tidy
import CardRules.Proofs.Table.TurnEnd
import CardRules.Proofs.Target.Bounds
import CardRules.Proofs.Target.Candidates
import CardRules.Proofs.Target.Choosing
import CardRules.Proofs.Target.Legal
import CardRules.Proofs.Target.Nouns
import CardRules.Proofs.Target.Optional
import CardRules.Proofs.Target.Shares
import CardRules.Proofs.Target.Spoken
import CardRules.Proofs.Target.Trailing
import CardRules.Proofs.Text.Letters
import CardRules.Proofs.Text.Lines
import CardRules.Proofs.Text.Naming
import CardRules.Proofs.Text.Normal
import CardRules.Proofs.Text.Pieces
import CardRules.Proofs.Text.Reader
import CardRules.Proofs.Text.Replaced
import CardRules.Proofs.Text.Sentence
import CardRules.Proofs.Text.Settled
import CardRules.Proofs.Text.Splitting
import CardRules.Proofs.Zone.Taking
import CardRules.Registry
import CardRules.Sentence
import CardRules.Spell
import CardRules.Stack
import CardRules.Stack.Item
import CardRules.Stack.Play
import CardRules.Store
import CardRules.Table
import CardRules.Table.Moves
import CardRules.Target
import CardRules.Target.Candidate
import CardRules.Target.Choosing
import CardRules.Target.Legality
import CardRules.Target.Phrase
import CardRules.Target.Written
import CardRules.Text.Blank
import CardRules.Text.Case
import CardRules.Text.Numeral
import CardRules.Text.Plain
import CardRules.Text.Reader
import CardRules.Text.Search
import CardRules.Text.WordChar
import CardRules.Turn
import CardRules.Zone
