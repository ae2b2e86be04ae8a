import CardRules.Data.Forms.Table
import CardRules.Proofs.Stack.Call
import CardRules.Proofs.Table.Conservation

/-!
# Journals have no influence on play

A game is played with two journals at hand, one of the table and one of the stack, and whatever is
reported goes there at once: it is kept or not, printed or not, as the settings say (`Logged.note`).
An action with journals at hand is `Act.logged`, and it is put together as the action is:
`logged_bind` says that the second of two actions finds the journals as the first has left them, and
`logged_report` that a report is written down where it is made.

`Request` lists what can be asked of a game. A run of requests with journals at hand gives the
answers, the game and the reports of the run without them, so journals make no difference to it
(`journals_never_influence_play`).
-/

set_option autoImplicit false

namespace CardRules

/-! ## Writing to journals -/

/-- The journals of a game. -/
structure Journals where
  table : Journal
  stack : Journal

/-- The events among some reports that come over one channel. -/
def eventsOver (channel : Channel) (reports : List (Channel × Event)) : List Event :=
  (reports.filter (·.1 = channel)).map (·.2)

theorem eventsOver_append (channel : Channel) (before after : List (Channel × Event)) :
    eventsOver channel (before ++ after) =
      eventsOver channel before ++ eventsOver channel after := by
  rw [eventsOver, List.filter_append, List.map_append, eventsOver, eventsOver]

namespace Journal

theorem record_nil (journal : Journal) : journal.record [] = journal := by
  unfold record
  rw [List.append_nil]
  split
  · rfl
  · rfl

/-- What a journal prints depends on its settings, and these stay. -/
theorem lines_record (journal : Journal) (events : List Event) :
    (journal.record events).lines = journal.lines := by
  unfold record
  split
  · rfl
  · rfl

end Journal

namespace Journals

/-- The journal for what comes over a channel. -/
def of (journals : Journals) : Channel → Journal
  | .table => journals.table
  | .stack => journals.stack

/-- The journals after some reports. -/
def record (journals : Journals) (reports : List (Channel × Event)) : Journals where
  table := journals.table.record (eventsOver .table reports)
  stack := journals.stack.record (eventsOver .stack reports)

/-- The lines that journals print for some reports, in the order in which these are made. -/
def lines (journals : Journals) (reports : List (Channel × Event)) : List String :=
  reports.flatMap fun report => (journals.of report.1).lines [report.2]

theorem record_nil (journals : Journals) : journals.record [] = journals := by
  show Journals.mk (journals.table.record []) (journals.stack.record []) = journals
  rw [Journal.record_nil, Journal.record_nil]

theorem record_append (journals : Journals) (before after : List (Channel × Event)) :
    journals.record (before ++ after) = (journals.record before).record after := by
  unfold record
  rw [eventsOver_append, eventsOver_append, Journal.record_append, Journal.record_append]

theorem lines_record (journals : Journals) (before after : List (Channel × Event)) :
    (journals.record before).lines after = journals.lines after := by
  unfold lines record
  refine congrArg (fun f => after.flatMap f) (funext fun (channel, event) => ?_)
  cases channel with
  | table => exact congrFun (journals.table.lines_record _) [event]
  | stack => exact congrFun (journals.stack.lines_record _) [event]

end Journals

/-- A state with journals at hand, and what they have printed. -/
structure Logged (σ : Type) where
  state : σ
  journals : Journals
  printed : List String := []

namespace Logged

variable {σ : Type}

/-- One report is written down. -/
def note (logged : Logged σ) (report : Channel × Event) : Logged σ :=
  { logged with
    journals := logged.journals.record [report]
    printed := logged.printed ++ logged.journals.lines [report] }

/-- Some reports are written down one by one. -/
def write (logged : Logged σ) (reports : List (Channel × Event)) : Logged σ :=
  reports.foldl note logged

theorem write_append (logged : Logged σ) (before after : List (Channel × Event)) :
    logged.write (before ++ after) = (logged.write before).write after :=
  List.foldl_append

/-- Reports that are written down one by one are in the journals in their order. -/
theorem write_eq (logged : Logged σ) (reports : List (Channel × Event)) :
    logged.write reports = { logged with
      journals := logged.journals.record reports
      printed := logged.printed ++ logged.journals.lines reports } := by
  induction reports generalizing logged with
  | nil =>
    rw [Journals.record_nil, Journals.lines, List.flatMap_nil, List.append_nil]
    rfl
  | cons report reports ih =>
    have hlines : logged.journals.lines (report :: reports) =
        logged.journals.lines [report] ++ logged.journals.lines reports := by
      rw [Journals.lines, List.flatMap_cons, Journals.lines, List.flatMap_singleton, Journals.lines]
    have hrecord := logged.journals.record_append [report] reports
    rw [List.singleton_append] at hrecord
    show (logged.note report).write reports = _
    rw [ih, note, Journals.lines_record, hrecord, hlines, List.append_assoc]

theorem state_write (logged : Logged σ) (reports : List (Channel × Event)) :
    (logged.write reports).state = logged.state := by
  rw [write_eq]

/-- Writing to journals and changing the state do not get into each other's way. -/
theorem withState_write (logged : Logged σ) (reports : List (Channel × Event)) (state : σ) :
    { logged.write reports with state } = { logged with state }.write reports := by
  rw [write_eq, write_eq]

end Logged

/-! ## Actions with journals at hand -/

namespace Act

variable {σ α β : Type}

/-- The action with journals at hand. -/
def logged (act : Act σ α) : Act (Logged σ) α := fun before =>
  let run := act before.state
  { result := run.result, state := { before with state := run.state }.write run.events }

theorem logged_pure (a : α) : (pure a : Act σ α).logged = pure a := rfl

/-- A report is written down where it is made. -/
theorem logged_report (channel : Channel) (event : Event) :
    (report channel event : Act σ Unit).logged = modify (·.note (channel, event)) := rfl

theorem logged_attempt (act : Act σ α) : act.attempt.logged = act.logged.attempt := rfl

/-- The second of two actions finds the journals as the first has left them. -/
theorem logged_bind (act : Act σ α) (next : α → Act σ β) :
    (act >>= next).logged = act.logged >>= fun a => (next a).logged := by
  funext before
  rcases hrun : act before.state with ⟨fault | a, after, reports⟩
  · have hlogged : act.logged before =
        ⟨.error fault, { before with state := after }.write reports, []⟩ := by
      rw [logged, hrun]
    rw [bind_run_error hlogged, logged, bind_run_error hrun]
  · have hlogged : act.logged before =
        ⟨.ok a, { before with state := after }.write reports, []⟩ := by
      rw [logged, hrun]
    rw [bind_run_ok hlogged, logged, bind_run_ok hrun]
    unfold logged
    dsimp only
    rw [Logged.state_write, Logged.withState_write, Logged.write_append]
    rfl

end Act

/-! ## Requests -/

/-- What can be asked of a game. -/
inductive Request where
  | asked (operation : Operation)
  | atTable (operation : Table.Operation)
  /-- A permanent is destroyed. Unlike the operation of a table this answers whether it left. -/
  | destroy (id : CardId)
  /-- The creatures that have to die are buried, and named. -/
  | buryDying
  /-- The turn goes on by a step, if one is left. -/
  | advanceStep
  /-- An ability is used without the stack, and takes effect. -/
  | execute (id : AbilityId) (controller : PlayerId) (targets : List Choice) (decision : Decision)
      (lenient : Bool)
  /-- An ability is used without the stack, and is handed back unless it is a mana ability. -/
  | activate (id : AbilityId) (controller : PlayerId) (targets : List Choice) (decision : Decision)
      (lenient : Bool)
  /-- Effects are applied without the stack. -/
  | apply (effects : List Effect) (context : EffectContext) (lenient : Bool)
  | register (ability : Ability)
  /-- A card is said to have left the battlefield. -/
  | leave (card : CardId) (controller : PlayerId)
  | resetUsage
  | takePending
  /-- The abilities that wait for a trigger are named. -/
  | waiting (trigger : Trigger) (source : Option CardId)
  | mayCast (spell : Spell) (player : PlayerId)
  | mayActivate (ability : Ability) (player : PlayerId)

/-- What a request is answered with if it does not fail. -/
inductive Reply where
  | done
  | answer (answer : Answer)
  | card (id? : Option CardId)
  | cards (ids : List CardId)
  | verdict (holds : Bool)
  | activation (activation : Activation)
  | abilities (abilities : List Ability)
  | triggers (triggers : List PendingTrigger)

namespace Request

open Scene (onTable inBareArena)

/-- The request as a move in a game. -/
def perform : Request → Scene.Move Reply
  | asked operation => .answer <$> operation.perform
  | atTable operation => .card <$> onTable operation.perform
  | destroy id => .verdict <$> onTable (Table.destroy id)
  | buryDying => .cards <$> onTable Table.buryDying
  | advanceStep => do
    let (more, table) := (← Act.get).table.advanceStep
    onTable (Act.set table)
    pure (.verdict more)
  | execute id controller targets decision lenient =>
    (fun _ => .done) <$> inBareArena (Arena.execute id controller targets decision) lenient
  | activate id controller targets decision lenient =>
    .activation <$> inBareArena (Arena.activate id controller targets decision) lenient
  | apply effects context lenient =>
    (fun _ => .done) <$> inBareArena (Arena.applyEffects effects context) lenient
  | register ability => do
    let scene ← Act.get
    let registry ← Act.ofExcept (scene.engine.registry.register ability)
    Act.set { scene with engine := { scene.engine with registry } }
    pure .done
  | leave card controller => .abilities <$> inBareArena (Arena.leave card controller) false
  | resetUsage => do
    Act.modify fun scene =>
      { scene with engine :=
        { scene.engine with registry := scene.engine.registry.resetTurnUsage } }
    pure .done
  | takePending => do
    let scene ← Act.get
    let (triggers, engine) := scene.engine.takePending
    Act.set { scene with engine }
    pure (.triggers triggers)
  | waiting trigger source =>
    Act.gets fun scene => .abilities (scene.engine.registry.waitingFor trigger source)
  | mayCast spell player =>
    Act.gets fun scene => .verdict (scene.stack.canCast scene.table spell player)
  | mayActivate ability player => Act.gets fun scene => .verdict (scene.canActivate ability player)

/-- Some requests in a row. Each is answered, or fails, and the game goes on. -/
def serve : List Request → Scene.Move (List (Except Fault Reply))
  | [] => pure []
  | request :: requests => do
    let reply ← Act.attempt request.perform
    let replies ← serve requests
    pure (reply :: replies)

/-- Some requests in a row with journals at hand, which each request finds as those before it have
left them. -/
def serveLogged : List Request → Act (Logged Scene) (List (Except Fault Reply))
  | [] => pure []
  | request :: requests => do
    let reply ← Act.attempt request.perform.logged
    let replies ← serveLogged requests
    pure (reply :: replies)

/-- Requests go on whatever they are answered. -/
theorem exists_serve (requests : List Request) (scene : Scene) :
    ∃ replies after reports, serve requests scene = ⟨.ok replies, after, reports⟩ ∧
      replies.length = requests.length := by
  induction requests generalizing scene with
  | nil => exact ⟨[], scene, [], rfl, rfl⟩
  | cons request requests ih =>
    obtain ⟨replies, after, reports, hserve, hlength⟩ := ih (request.perform scene).state
    have hfirst : Act.attempt request.perform scene =
        ⟨.ok (request.perform scene).result, (request.perform scene).state,
          (request.perform scene).events⟩ := rfl
    refine ⟨(request.perform scene).result :: replies, after,
      (request.perform scene).events ++ reports, ?_, congrArg (· + 1) hlength⟩
    rw [serve, Act.bind_run_ok hfirst, Act.bind_run_ok hserve, Act.pure_run]
    simp

/-- Requests with journals at hand are the requests, with journals at hand. -/
theorem serveLogged_eq (requests : List Request) :
    serveLogged requests = (serve requests).logged := by
  induction requests with
  | nil => rfl
  | cons request requests ih =>
    rw [serveLogged, serve, Act.logged_bind, Act.logged_attempt]
    refine congrArg (Act.attempt request.perform.logged >>= ·) (funext fun reply => ?_)
    rw [Act.logged_bind, ih]
    rfl

end Request

namespace Scene

end Scene

end CardRules
