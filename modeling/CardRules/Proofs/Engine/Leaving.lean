import CardRules.Proofs.Engine.Attempt

/-!
# Leaving the battlefield

The engine keeps books on the permanents. When one leaves the battlefield, its abilities are
forgotten, and those of them that wait for this are queued as triggers for the player who had control
of it. `Booked left` says of two boards that just the cards `left` have gone, in this order, and that
the books were kept for each of them and for no other card.

There are two routes on which a permanent goes, destruction by an effect and sacrifice as a payment,
and both are booked. Everything else leaves the battlefield and the books alone, so whole lists of
effects and whole activations are booked, whether they succeed or fail midway.
-/

set_option autoImplicit false

namespace CardRules

open Act

/-- What is there beside the stack. -/
structure Board where
  table : Table
  engine : Engine

namespace Board

/-- The triggers of a card as it leaves, for the player in control of it. -/
def leaving (board : Board) (id : CardId) : List PendingTrigger :=
  match board.table.card? id with
  | none => []
  | some card =>
    ((board.engine.registry.ofSource id).filter
      (Arena.leaveTriggers (card.isType .creature))).map fun ability =>
        { ability, controller := card.controller }

end Board

/-- No card is on the battlefield twice, and the cards on it have owners with piles. -/
structure Table.Fit (table : Table) : Prop where
  once : table.battlefield.cards.Nodup
  owned (id : CardId) (card : Card) (hid : id ∈ table.battlefield.cards)
    (hcard : table.card? id = some card) : (table.zones? card.owner).isSome = true

/-- These cards have left the battlefield, one after the other, and no others have; their abilities
are forgotten and their triggers are queued, and no others are. -/
structure Booked (left : List CardId) (before after : Board) : Prop where
  once : left.Nodup
  gone (id : CardId) (hid : id ∈ left) : id ∈ before.table.battlefield.cards
  field : after.table.battlefield.cards =
    before.table.battlefield.cards.filter fun id => id ∉ left
  registry : after.engine.registry.abilities =
    before.engine.registry.abilities.filter fun ability => ability.source ∉ left
  pending : after.engine.pending = before.engine.pending ++ left.flatMap before.leaving
  piles (player : PlayerId) :
    (after.table.zones? player).isSome = (before.table.zones? player).isSome
  cards (id : CardId) (hid : id ∉ left) : ∃ f : Card → Card, (∀ card, Card.Alike card (f card)) ∧
    after.table.card? id = (before.table.card? id).map f

theorem Table.Fit.of_booked {left : List CardId} {before after : Board} (h : before.table.Fit)
    (hbooked : Booked left before after) : after.table.Fit where
  once := hbooked.field ▸ h.once.filter _
  owned id card hid hcard := by
    rw [hbooked.field, List.mem_filter, decide_eq_true_iff] at hid
    obtain ⟨hid, hleft⟩ := hid
    obtain ⟨f, hf, hsame⟩ := hbooked.cards id hleft
    rw [hsame] at hcard
    obtain ⟨card', hcard', rfl⟩ := Option.map_eq_some_iff.mp hcard
    rw [hbooked.piles, (hf card').owner]
    exact h.owned id card' hid hcard'

namespace Booked

variable {a b c : Board} {left later : List CardId}

/-- A card that stays keeps its triggers and the player who gets them. -/
theorem leaving_eq (h : Booked left a b) {id : CardId} (hid : id ∉ left) :
    b.leaving id = a.leaving id := by
  have hregistry : b.engine.registry.ofSource id = a.engine.registry.ofSource id := by
    rw [Registry.ofSource, Registry.ofSource, h.registry, List.filter_filter]
    refine List.filter_congr fun ability _ => ?_
    by_cases hsource : ability.source = id
    · rw [hsource, decide_eq_true hid, Bool.and_true]
    · rw [beq_false_of_ne hsource, Bool.false_and]
  obtain ⟨f, hf, hcard⟩ := h.cards id hid
  unfold Board.leaving
  rw [hcard, hregistry]
  cases a.table.card? id with
  | none => rfl
  | some card =>
    simp only [Option.map_some, (hf card).isType, (hf card).controller]

theorem trans (hab : Booked left a b) (hbc : Booked later b c) : Booked (left ++ later) a c := by
  -- what leaves later was there from the start, and is none of those that left before
  have hlater (id : CardId) (hid : id ∈ later) : id ∈ a.table.battlefield.cards ∧ id ∉ left := by
    have hb := hbc.gone id hid
    rwa [hab.field, List.mem_filter, decide_eq_true_iff] at hb
  have hleft (id : CardId) :
      decide (id ∉ left ++ later) = (decide (id ∉ later) && decide (id ∉ left)) := by
    simp [not_or, Bool.and_comm]
  constructor
  · refine List.nodup_append.mpr ⟨hab.once, hbc.once, fun id hid other hother => ?_⟩
    rintro rfl
    exact (hlater id hother).2 hid
  · intro id hid
    rcases List.mem_append.mp hid with hid | hid
    · exact hab.gone id hid
    · exact (hlater id hid).1
  · rw [hbc.field, hab.field, List.filter_filter]
    exact List.filter_congr fun id _ => (hleft id).symm
  · rw [hbc.registry, hab.registry, List.filter_filter]
    exact List.filter_congr fun ability _ => (hleft ability.source).symm
  · have hsame : later.flatMap b.leaving = later.flatMap a.leaving :=
      List.flatMap_congr fun id hid => hab.leaving_eq (hlater id hid).2
    rw [hbc.pending, hab.pending, hsame, List.flatMap_append, List.append_assoc]
  · exact fun player => (hbc.piles player).trans (hab.piles player)
  · intro id hid
    rw [List.mem_append, not_or] at hid
    obtain ⟨f, hf, hb⟩ := hab.cards id hid.1
    obtain ⟨g, hg, hc⟩ := hbc.cards id hid.2
    exact ⟨g ∘ f, fun card => (hf card).trans (hg (f card)), by rw [hc, hb, Option.map_map]⟩

theorem of_quiet {board : Board} {table : Table} (h : Table.Quiet board.table table) :
    Booked [] board { board with table } where
  once := .nil
  gone id hid := absurd hid List.not_mem_nil
  field := by
    rw [h.battlefield]
    exact (List.filter_eq_self.mpr fun id _ => by simp).symm
  registry := (List.filter_eq_self.mpr fun ability _ => by simp).symm
  pending := (List.append_nil _).symm
  piles := h.piles
  cards id _ := h.cards id

/-- A permanent that is buried with its abilities forgotten and its triggers queued. -/
theorem of_bury {board : Board} {id : CardId} (honce : board.table.battlefield.cards.Nodup)
    (hfield : board.table.onBattlefield id = true) (owner : PlayerId) :
    Booked [id] board {
      table := board.table.bury id owner
      engine := { board.engine with
        registry := board.engine.registry.dropSource id
        pending := board.engine.pending ++ board.leaving id } } where
  once := List.pairwise_singleton _ id
  gone key hkey := by
    rw [List.mem_singleton.mp hkey]
    exact List.contains_iff_mem.mp hfield
  field := by
    show board.table.battlefield.cards.erase id = _
    rw [honce.erase_eq_filter]
    refine List.filter_congr fun key _ => ?_
    simp [bne, beq_eq_decide]
  registry := List.filter_congr fun ability _ => by simp [bne, beq_eq_decide]
  pending := by simp
  piles := (Table.keeps_updateZones (board.table.lift id) owner (·.add .graveyard id)).piles
  cards key hkey := by
    rw [List.mem_singleton] at hkey
    rw [Table.card?_bury, if_neg hkey]
    exact Table.exists_alike _

end Booked

/-- Whatever has left a fit table has been booked, and the table is still fit. -/
def Board.Books (before after : Board) : Prop :=
  before.table.Fit → after.table.Fit ∧ ∃ left, Booked left before after

theorem Booked.books {left : List CardId} {before after : Board} (h : Booked left before after) :
    before.Books after :=
  fun hfit => ⟨hfit.of_booked h, left, h⟩

theorem Board.Books.refl (board : Board) : board.Books board :=
  (Booked.of_quiet (Std.Refl.refl board.table)).books

instance : Std.Refl Board.Books := ⟨Board.Books.refl⟩

instance : IsTrans Board Board.Books where
  trans _ _ _ hab hbc ha := by
    obtain ⟨hb, left, hleft⟩ := hab ha
    obtain ⟨hc, later, hlater⟩ := hbc hb
    exact ⟨hc, left ++ later, hleft.trans hlater⟩

namespace Arena

/-- What is there beside the items in view. -/
def board (arena : Arena) : Board := { table := arena.table, engine := arena.engine }

/-- The board moves along a relation. -/
def OnBoard (R : Board → Board → Prop) (before after : Arena) : Prop := R before.board after.board

instance {R : Board → Board → Prop} [Std.Refl R] : Std.Refl (OnBoard R) :=
  ⟨fun arena => Std.Refl.refl arena.board⟩

instance {R : Board → Board → Prop} [IsTrans Board R] : IsTrans Arena (OnBoard R) :=
  ⟨fun a b c => IsTrans.trans a.board b.board c.board⟩

/-! ## The books -/

theorem outcome_forM_queue (abilities : List Ability) (controller : PlayerId) (arena : Arena) :
    (abilities.forM fun ability => Arena.queue { ability, controller }).outcome arena =
      (.ok (), { arena with engine := { arena.engine with
        pending := arena.engine.pending ++
          abilities.map fun ability => { ability, controller } } }) := by
  induction abilities generalizing arena with
  | nil =>
    rw [List.map_nil, List.append_nil]
    rfl
  | cons ability abilities ih =>
    have hqueue : (Arena.queue { ability, controller }).outcome arena =
        (.ok (), { arena with engine := { arena.engine with
          pending := arena.engine.pending ++ [{ ability, controller }] } }) := rfl
    show (Arena.queue { ability, controller } >>= fun _ => abilities.forM fun ability =>
      Arena.queue { ability, controller }).outcome arena = _
    rw [outcome_bind_ok hqueue, ih, List.map_cons, List.append_assoc]
    rfl

/-- The books are kept for a card, given who had control of it and what it was. -/
theorem board_leave (card : CardId) (controller : PlayerId) (arena : Arena) :
    ((leave card controller).outcome arena).2.board = {
      table := arena.table
      engine := { arena.engine with
        registry := arena.engine.registry.dropSource card
        pending := arena.engine.pending ++
          ((arena.engine.registry.ofSource card).filter (leaveTriggers
            ((arena.table.card? card).any fun c => c.isType .creature))).map fun ability =>
              { ability, controller } } } := by
  have hdrop : (changeRegistry (·.dropSource card)).outcome arena =
      (.ok (), { arena with engine := { arena.engine with
        registry := arena.engine.registry.dropSource card } }) := rfl
  have hreport (event : Event) (arena : Arena) :
      (Arena.report event).outcome arena = (.ok (), arena) := rfl
  unfold leave
  rw [outcome_bind_ok (outcome_get arena)]
  dsimp only
  rw [outcome_bind_ok hdrop]
  split
  · rw [outcome_bind_ok (outcome_forM_queue _ _ _)]
    rfl
  · rw [outcome_bind_ok (hreport _ _), outcome_bind_ok (outcome_forM_queue _ _ _)]
    rfl

/-- A permanent that is buried and whose books are kept for the player in control of it is booked. -/
theorem booked_leave {arena : Arena} (hfit : arena.table.Fit) {id : CardId} {card : Card}
    (hfield : arena.table.onBattlefield id = true) (hcard : arena.table.card? id = some card) :
    Booked [id] arena.board ((leave id card.controller).outcome
      { arena with table := arena.table.bury id card.owner }).2.board := by
  have hbooked := Booked.of_bury (show arena.board.table.battlefield.cards.Nodup from hfit.once)
    hfield card.owner
  rw [board_leave]
  -- the card is the same kind of card in the graveyard
  have htype : ((arena.table.bury id card.owner).card? id).any (·.isType .creature) =
      card.isType .creature := by
    rw [Table.card?_bury, if_pos rfl, hcard]
    rfl
  have hleaving : arena.board.leaving id =
      ((arena.engine.registry.ofSource id).filter (leaveTriggers (card.isType .creature))).map
        fun ability => { ability, controller := card.controller } := by
    unfold Board.leaving
    rw [show arena.board.table.card? id = some card from hcard]
    rfl
  rw [hleaving] at hbooked
  dsimp only
  rw [htype]
  exact hbooked

theorem books_destroy (id : CardId) : Along (OnBoard Board.Books) (Arena.destroy id) := by
  intro arena hfit
  have htable := outcome_onTable (Table.destroy id) arena
  unfold Arena.destroy
  rw [outcome_bind_ok (outcome_get arena)]
  dsimp only
  cases hcard : arena.table.permanent? id with
  | none =>
    rw [Table.outcome_destroy_none hcard] at htable
    rw [outcome_bind_error htable]
    exact Board.Books.refl arena.board hfit
  | some card =>
    obtain ⟨hfield, hthere⟩ := Table.permanent?_eq_some_iff.mp hcard
    have howner : (arena.table.zones? card.owner).isSome = true :=
      hfit.owned id card (List.contains_iff_mem.mp hfield) hthere
    rw [Table.outcome_destroy hcard] at htable
    by_cases hlasting : card.hasKeyword .indestructible = true
    · rw [if_pos hlasting] at htable
      rw [outcome_bind_ok htable]
      exact Board.Books.refl arena.board hfit
    · rw [if_neg hlasting, if_pos howner] at htable
      rw [outcome_bind_ok htable, if_pos rfl, hthere]
      dsimp only [Option.map_some]
      rw [snd_outcome_discard]
      exact (booked_leave hfit hfield hthere).books hfit

theorem books_quietly : Quietly (OnBoard Board.Books) :=
  fun _ _ h => (Booked.of_quiet h).books

theorem books_course : Course (OnBoard Board.Books) where
  table := books_quietly
  destroy := books_destroy
  counter arena _ _ _ := Board.Books.refl arena.board

/-! ## Payments -/

/-- The player has control of the card, if it exists. -/
def Controls (arena : Arena) (source : CardId) (controller : PlayerId) : Prop :=
  ∀ card, arena.table.card? source = some card → card.controller = controller

section Payment

variable {arena after : Arena} {source : CardId} {controller : PlayerId}

theorem Controls.of_quiet (h : arena.Controls source controller) (hquiet : QuietTable arena after) :
    after.Controls source controller := by
  intro card hcard
  obtain ⟨f, hf, hsame⟩ := hquiet.cards source
  rw [hsame] at hcard
  obtain ⟨card', hcard', rfl⟩ := Option.map_eq_some_iff.mp hcard
  rw [(hf card').controller]
  exact h card' hcard'

theorem books_paySacrifice (h : arena.Controls source controller) (cost : Cost) :
    OnBoard Board.Books arena ((paySacrifice cost source controller).outcome arena).2 := by
  intro hfit
  unfold paySacrifice
  split
  · have htable := outcome_onTable (Table.sacrifice source) arena
    cases hcard : arena.table.permanent? source with
    | none =>
      rw [Table.outcome_sacrifice_none hcard] at htable
      rw [outcome_bind_error htable]
      exact Board.Books.refl arena.board hfit
    | some card =>
      obtain ⟨hfield, hthere⟩ := Table.permanent?_eq_some_iff.mp hcard
      rw [Table.outcome_sacrifice hfield hthere
        (hfit.owned source card (List.contains_iff_mem.mp hfield) hthere)] at htable
      rw [outcome_bind_ok htable, snd_outcome_discard, ← h card hthere]
      exact (booked_leave hfit hfield hthere).books hfit
  · exact Board.Books.refl arena.board hfit

/-- Paying a cost books the sacrifice, if the one who pays has control of the source. -/
theorem books_payCost (h : arena.Controls source controller) (cost : Cost) :
    OnBoard Board.Books arena ((payCost cost source controller).outcome arena).2 := by
  unfold payCost
  rw [outcome_bind_ok (outcome_get arena)]
  refine rel_bind (Std.Refl.refl arena) fun _ same hdemand => ?_
  obtain rfl : arena = same := (Prod.mk.inj hdemand).2
  -- whoever has control of the source keeps it until it is sacrificed
  refine rel_bind (books_quietly.along_payTap cost source arena) fun _ tapped htap => ?_
  have hquiet := quietTable_quietly.along_payTap cost source arena
  rw [htap] at hquiet
  refine rel_bind (books_quietly.along_payPlayer cost source controller tapped) fun _ paid hpay => ?_
  have hquiet' := quietTable_quietly.along_payPlayer cost source controller tapped
  rw [hpay] at hquiet'
  refine rel_bind (books_quietly.along_payDiscard cost controller paid) fun _ discarded hdiscard => ?_
  have hquiet'' := quietTable_quietly.along_payDiscard cost controller paid
  rw [hdiscard] at hquiet''
  exact books_paySacrifice (((h.of_quiet hquiet).of_quiet hquiet').of_quiet hquiet'') cost

theorem controls_of_checkActivation {rules : Untargetability} {ability : Ability}
    (h : arena.checkActivation rules ability controller = .ok ()) :
    arena.Controls ability.source controller := by
  obtain ⟨-, hcontrol, -⟩ := View.checkActivation_eq_ok_iff.mp h
  intro card hcard
  rw [hcard] at hcontrol
  exact beq_iff_eq.mp hcontrol

end Payment

end Arena

/-! ## Uses aside -/

/-- The ability without the count of its uses. -/
def Ability.unused (ability : Ability) : Ability :=
  { ability with usesThisTurn := 0, usesThisGame := 0 }

namespace Board

/-- The board with no uses of abilities counted. -/
def unused (board : Board) : Board where
  table := board.table
  engine := { board.engine with
    registry := { abilities := board.engine.registry.abilities.map Ability.unused }
    pending := board.engine.pending.map fun trigger =>
      { trigger with ability := trigger.ability.unused } }

theorem leaving_unused (board : Board) (id : CardId) :
    board.unused.leaving id = (board.leaving id).map fun trigger =>
      { trigger with ability := trigger.ability.unused } := by
  have hregistry : board.unused.engine.registry.ofSource id =
      (board.engine.registry.ofSource id).map Ability.unused :=
    List.filter_map
  unfold leaving
  rw [show board.unused.table = board.table from rfl, hregistry]
  cases board.table.card? id with
  | none => rfl
  | some card =>
    dsimp only
    rw [List.filter_map, List.map_map, List.map_map]
    rfl

end Board

theorem Booked.unused {left : List CardId} {before after : Board} (h : Booked left before after) :
    Booked left before.unused after.unused where
  once := h.once
  gone := h.gone
  field := h.field
  registry := by
    show after.engine.registry.abilities.map Ability.unused =
      (before.engine.registry.abilities.map Ability.unused).filter _
    rw [h.registry, List.filter_map]
    rfl
  pending := by
    have hleaving : left.flatMap before.unused.leaving = (left.flatMap before.leaving).map
        fun trigger => { trigger with ability := trigger.ability.unused } := by
      rw [List.map_flatMap]
      exact List.flatMap_congr fun id _ => before.leaving_unused id
    show after.engine.pending.map _ = _
    rw [h.pending, List.map_append, hleaving]
    rfl
  piles := h.piles
  cards := h.cards

/-- The books are kept, uses of abilities aside. -/
def Board.BooksUnused (before after : Board) : Prop := before.unused.Books after.unused

instance : Std.Refl Board.BooksUnused := ⟨fun board => Std.Refl.refl board.unused⟩

instance : IsTrans Board Board.BooksUnused :=
  ⟨fun a b c => IsTrans.trans a.unused b.unused c.unused⟩

theorem Board.Books.unused {before after : Board} (h : before.Books after) :
    before.BooksUnused after := by
  intro hfit
  obtain ⟨hafter, left, hbooked⟩ := h hfit
  exact ⟨hafter, left, hbooked.unused⟩

namespace Arena

theorem booksUnused_course : Course (OnBoard Board.BooksUnused) where
  table arena table h := (books_course.table arena table h).unused
  destroy id arena := (books_course.destroy id arena).unused
  counter arena id items h := (books_course.counter arena id items h).unused

/-- Counting a use is nothing to the books. -/
theorem booksUnused_recordUse (arena : Arena) (id : AbilityId) :
    OnBoard Board.BooksUnused arena
      ((changeRegistry (·.update id Ability.recordUse)).outcome arena).2 := by
  have hsame : (arena.engine.registry.update id Ability.recordUse).abilities.map Ability.unused =
      arena.engine.registry.abilities.map Ability.unused := by
    rw [Registry.update, List.map_map]
    refine List.map_congr_left fun ability _ => ?_
    rw [Function.comp]
    split
    · rfl
    · rfl
  have hboard : ((changeRegistry (·.update id Ability.recordUse)).outcome arena).2.board.unused =
      arena.board.unused :=
    congrArg (fun abilities => { arena.board.unused with
      engine := { arena.board.unused.engine with registry := { abilities } } }) hsame
  show arena.board.unused.Books _
  rw [hboard]
  exact Board.Books.refl _

theorem booksUnused_prepare (id : AbilityId) (controller : PlayerId) (targets : List Choice)
    (decision : Decision) :
    Along (OnBoard Board.BooksUnused) (prepare id controller targets decision) := by
  intro arena
  rcases prepare_cases arena id controller targets decision with
    ⟨fault, hout, -⟩ | ⟨ability, cost, hcleared, hpaid⟩
  · rw [hout]
    exact Std.Refl.refl arena
  · have hcontrols := controls_of_checkActivation hcleared.allowed
    have hbooks := (books_payCost hcontrols cost).unused
    rcases hpaid with ⟨fault, unpaid, hpay, hout⟩ | ⟨paid, hpay, hout⟩
    · rw [hpay] at hbooks
      rw [hout]
      exact hbooks
    · rw [hpay] at hbooks
      rw [hout]
      exact IsTrans.trans _ _ _ hbooks (booksUnused_recordUse paid id)

/-- Every activation is booked, the effects of a mana ability included. -/
theorem booksUnused_activate (id : AbilityId) (controller : PlayerId) (targets : List Choice)
    (decision : Decision) :
    Along (OnBoard Board.BooksUnused) (activate id controller targets decision) := by
  unfold activate
  refine (booksUnused_prepare id controller targets decision).bind fun ability => ?_
  split
  · exact (booksUnused_course.along_applyEffects _ _).bind fun _ => .pure _
  · exact .pure _

end Arena

end CardRules
