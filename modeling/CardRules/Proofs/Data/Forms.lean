import CardRules.Data.Forms.Table
import CardRules.Proofs.Data.Written
import CardRules.Proofs.Stack.Marks

/-!
# Kept values are had again

A type whose values are kept as data is lawful if each value can be had again from its data, and nothing
foreign is in them. Numbers, texts, lists, enumerations and structures each have one reason to be lawful;
the types of the game are made of these. What is lawful can be written as text and be read again
(`LawfulSerial.restores`), and a journal comes back with its settings and without what it has kept
(`kept_values_return`).
-/

set_option autoImplicit false

namespace CardRules

/-- Each value can be had again from its data, in which nothing is foreign. -/
class LawfulSerial (α : Type) [Serial α] : Prop where
  decode_encode (a : α) : decode (encode a) = some a
  native (a : α) : (encode a).Native

export LawfulSerial (decode_encode native)

attribute [simp] LawfulSerial.decode_encode LawfulSerial.native

/-- The data of a value are not those of a missing value. -/
class NeverNull (α : Type) [Serial α] : Prop where
  encode_ne_null (a : α) : encode a ≠ .null

/-! ## Numbers and texts -/

theorem Data.intBetween?_int {low high n : Int} (h : low ≤ n) (h' : n ≤ high) :
    (Data.int n).intBetween? low high = some n := if_pos ⟨h, h'⟩

instance : LawfulSerial Bool where
  decode_encode _ := rfl
  native b := .bool b

instance : LawfulSerial String where
  decode_encode _ := rfl
  native s := .text s

instance : LawfulSerial UInt8 where
  decode_encode n := by
    have hhigh := n.toNat_lt
    show ((Data.int n.toNat).intBetween? 0 255).map _ = _
    rw [Data.intBetween?_int (by omega) (by omega)]
    simp
  native n := .int _

instance : LawfulSerial UInt32 where
  decode_encode n := by
    have hhigh := n.toNat_lt
    show ((Data.int n.toNat).intBetween? 0 4294967295).map _ = _
    rw [Data.intBetween?_int (by omega) (by omega)]
    simp
  native n := .int _

instance : LawfulSerial Int8 where
  decode_encode n := by
    have hlow : -128 ≤ n.toInt := n.le_toInt
    have hhigh : n.toInt ≤ 127 := n.toInt_le
    show ((Data.int n.toInt).intBetween? (-128) 127).map _ = _
    rw [Data.intBetween?_int hlow hhigh]
    simp
  native n := .int _

instance : LawfulSerial Int32 where
  decode_encode n := by
    have hlow : -2147483648 ≤ n.toInt := n.le_toInt
    have hhigh : n.toInt ≤ 2147483647 := n.toInt_le
    show ((Data.int n.toInt).intBetween? (-2147483648) 2147483647).map _ = _
    rw [Data.intBetween?_int hlow hhigh]
    simp
  native n := .int _

instance : NeverNull UInt32 := ⟨fun _ => nofun⟩

instance : NeverNull Int8 := ⟨fun _ => nofun⟩

/-! ## Lists, pairs and missing values -/

section

variable {α β : Type} [Serial α] [Serial β] [LawfulSerial α] [LawfulSerial β]

instance [NeverNull α] : LawfulSerial (Option α) where
  decode_encode a? := by
    cases a? with
    | none => rfl
    | some a =>
      have hvalue : decode (encode a) = some a := decode_encode a
      -- else the value would come back as a missing one
      have hthere : encode a ≠ .null := NeverNull.encode_ne_null a
      show (match encode a with
        | .null => some none
        | d => (decode d).map some) = some (some a)
      split
      · rename_i hnull
        exact absurd hnull hthere
      · rw [hvalue]
        rfl
  native a? := by
    cases a? with
    | none => exact .null
    | some a => exact native a

theorem mapM_decode_map_encode (items : List α) : (items.map encode).mapM decode = some items := by
  induction items with
  | nil => rfl
  | cons a items ih =>
    rw [List.map_cons, List.mapM_cons, decode_encode, ih]
    rfl

instance : LawfulSerial (List α) where
  decode_encode items := mapM_decode_map_encode items
  native items := by
    refine .list fun d hd => ?_
    obtain ⟨a, -, rfl⟩ := List.mem_map.mp hd
    exact native a

instance : LawfulSerial (α × β) where
  decode_encode pair := by
    show (decode (encode pair.1)).bind (fun a => (decode (encode pair.2)).bind fun b => some (a, b)) = _
    rw [decode_encode, Option.bind_some, decode_encode]
    rfl
  native pair := .list (by simp)

end

/-! ## Enumerations -/

/-- No two constants share a name, so each is found under its own. -/
theorem Data.constantOf?_text {α : Type} {all : List α} {name : α → String}
    (hdistinct : (all.map name).Nodup) {a : α} (ha : a ∈ all) :
    (Data.text (name a)).constantOf? all name = some a :=
  (find?_key_eq_some_iff hdistinct).mpr ⟨ha, rfl⟩

instance : LawfulSerial Color where
  decode_encode color := Data.constantOf?_text (by decide) (by cases color <;> decide)
  native color := .text _

instance : LawfulSerial CardType where
  decode_encode type := Data.constantOf?_text (by decide) (by cases type <;> decide)
  native type := .text _

instance : LawfulSerial Duration where
  decode_encode duration := Data.constantOf?_text (by decide) (by cases duration <;> decide)
  native duration := .text _

instance : LawfulSerial TargetKind where
  decode_encode kind := Data.constantOf?_text (by decide) (by cases kind <;> decide)
  native kind := .text _

instance : LawfulSerial Comparison where
  decode_encode comparison := Data.constantOf?_text (by decide) (by cases comparison <;> decide)
  native comparison := .text _

instance : LawfulSerial Control where
  decode_encode control := Data.constantOf?_text (by decide) (by cases control <;> decide)
  native control := .text _

instance : LawfulSerial EffectKind where
  decode_encode kind := Data.constantOf?_text (by decide) (by cases kind <;> decide)
  native kind := .text _

instance : LawfulSerial AbilityKind where
  decode_encode kind := Data.constantOf?_text (by decide) (by cases kind <;> decide)
  native kind := .text _

instance : LawfulSerial Trigger where
  decode_encode trigger := Data.constantOf?_text (by decide) (by cases trigger <;> decide)
  native trigger := .text _

instance : NeverNull Trigger := ⟨fun _ => nofun⟩

instance : LawfulSerial Verbosity where
  decode_encode verbosity := Data.constantOf?_text (by decide) (by cases verbosity <;> decide)
  native verbosity := .text _

instance : LawfulSerial Format where
  decode_encode format := Data.constantOf?_text (by decide) (by cases format <;> decide)
  native format := .text _

instance : LawfulSerial Mode where
  decode_encode mode := Data.constantOf?_text (by decide) (by cases mode <;> decide)
  native mode := .text _

/-! ## Structures -/

namespace Data

variable {α : Type} {members : List (String × Data)} {names : List String}

theorem members?_self (hnames : members.map (·.1) = names) (h : names.Nodup) :
    members? names members = some ⟨members⟩ := by
  subst hnames
  have hall : members.filter (fun member => (members.map (·.1)).contains member.1) = members := by
    rw [List.filter_eq_self]
    intro member hmember
    rw [List.contains_iff_mem]
    exact List.mem_map_of_mem hmember
  unfold members?
  rw [hall, if_pos h]

theorem fields?_bind (hnames : members.map (·.1) = names) (h : names.Nodup)
    (next : Fields → Option α) : ((object members).fields? names >>= next) = next ⟨members⟩ := by
  rw [fields?, members?_self hnames h]
  rfl

theorem someFields?_bind (hnames : members.map (·.1) = names) (h : names.Nodup)
    (next : Fields → Option α) : ((object members).someFields? names >>= next) = next ⟨members⟩ := by
  rw [someFields?, members?_self hnames h]
  rfl

end Data

namespace Fields

variable {α : Type} [Serial α] {name key : String} {d : Data} {members : List (String × Data)}

@[simp] theorem need_cons_self [LawfulSerial α] (a : α) :
    need ⟨(name, encode a) :: members⟩ name = some a := by
  rw [need, List.lookup_cons_self]
  exact decode_encode a

@[simp] theorem need_cons_of_ne (h : name ≠ key) :
    (need ⟨(key, d) :: members⟩ name : Option α) = need ⟨members⟩ name := by
  rw [need, need, List.lookup_cons, beq_false_of_ne h]

@[simp] theorem want_cons_self [LawfulSerial (Option α)] (a? : Option α) :
    want ⟨(name, encode a?) :: members⟩ name = some a? := by
  rw [want, List.lookup_cons_self]
  exact decode_encode a?

@[simp] theorem want_cons_of_ne (h : name ≠ key) :
    (want ⟨(key, d) :: members⟩ name : Option (Option α)) = want ⟨members⟩ name := by
  rw [want, want, List.lookup_cons, beq_false_of_ne h]

@[simp] theorem orElse_cons_self [LawfulSerial α] (a default : α) :
    orElse ⟨(name, encode a) :: members⟩ name default = some a := by
  rw [orElse, List.lookup_cons_self]
  exact decode_encode a

@[simp] theorem orElse_cons_of_ne (h : name ≠ key) (default : α) :
    orElse ⟨(key, d) :: members⟩ name default = orElse ⟨members⟩ name default := by
  rw [orElse, orElse, List.lookup_cons, beq_false_of_ne h]

end Fields

instance : LawfulSerial EntityId where
  decode_encode id := congrArg (Option.map EntityId.mk) (decode_encode id.number)
  native id := native id.number

instance : LawfulSerial AbilityId where
  decode_encode id := congrArg (Option.map AbilityId.mk) (decode_encode id.number)
  native id := native id.number

instance : LawfulSerial ItemId where
  decode_encode id := congrArg (Option.map ItemId.mk) (decode_encode id.number)
  native id := native id.number

instance : LawfulSerial Subtype where
  decode_encode _ := rfl
  native subtype := .text subtype.text

instance : LawfulSerial ManaCost where
  decode_encode cost := (Data.fields?_bind (by rfl) (by decide) _).trans (by simp)
  native cost := .object (by simp)

instance : LawfulSerial Cost where
  decode_encode cost := (Data.fields?_bind (by rfl) (by decide) _).trans (by simp)
  native cost := .object (by simp)

instance : LawfulSerial Keyword where
  decode_encode keyword := by
    cases keyword with
    | protectionFrom color => exact congrArg (Option.map Keyword.protectionFrom) (decode_encode color)
    | other text => exact congrArg (Option.map Keyword.other) (decode_encode text)
    | _ => exact Data.constantOf?_text (by decide) (by decide)
  native keyword := by
    cases keyword with
    | protectionFrom color => exact .object (by simp)
    | other text => exact .object (by simp [Data.Native.text])
    | _ => exact .text _

instance : LawfulSerial Trait where
  decode_encode trait := by
    cases trait with
    | cardType type => exact congrArg (Option.map Trait.cardType) (decode_encode type)
    | subtype text => exact congrArg (Option.map Trait.subtype) (decode_encode text)
    | keyword keyword => exact congrArg (Option.map Trait.keyword) (decode_encode keyword)
    | power comparison n =>
      exact congrArg (Option.map fun (c, n) => Trait.power c n) (decode_encode (comparison, n))
    | toughness comparison n =>
      exact congrArg (Option.map fun (c, n) => Trait.toughness c n) (decode_encode (comparison, n))
    | manaValue comparison n =>
      exact congrArg (Option.map fun (c, n) => Trait.manaValue c n) (decode_encode (comparison, n))
    | controller control => exact congrArg (Option.map Trait.controller) (decode_encode control)
    | color color => exact congrArg (Option.map Trait.color) (decode_encode color)
    | tapped => rfl
    | untapped => rfl
    | card id => exact congrArg (Option.map Trait.card) (decode_encode id)
    | other text => exact congrArg (Option.map Trait.other) (decode_encode text)
  native trait := by
    cases trait with
    | tapped => exact .text _
    | untapped => exact .text _
    | _ => exact .object (by simp [Data.Native.text])

instance : LawfulSerial Restriction where
  decode_encode restriction := (Data.fields?_bind (by rfl) (by decide) _).trans (by simp)
  native restriction := .object (by simp)

instance : LawfulSerial Target where
  decode_encode target := (Data.fields?_bind (by rfl) (by decide) _).trans (by simp)
  native target := .object (by simp)

instance : LawfulSerial Choice where
  decode_encode choice := by
    cases choice with
    | player id => exact congrArg (Option.map Choice.player) (decode_encode id)
    | permanent id => exact congrArg (Option.map Choice.permanent) (decode_encode id)
    | spell id => exact congrArg (Option.map Choice.spell) (decode_encode id)
  native choice := by
    cases choice with
    | _ => exact .object (by simp)

instance : LawfulSerial Effect where
  decode_encode effect := (Data.fields?_bind (by rfl) (by decide) _).trans (by simp)
  native effect := .object (by simp)

instance : LawfulSerial Timing where
  decode_encode timing := (Data.fields?_bind (by rfl) (by decide) _).trans (by simp)
  native timing := .object (by simp)

instance : LawfulSerial UsageLimit where
  decode_encode limit := (Data.fields?_bind (by rfl) (by decide) _).trans (by simp)
  native limit := .object (by simp)

instance : LawfulSerial Ability where
  decode_encode ability := (Data.fields?_bind (by rfl) (by decide) _).trans (by simp)
  native ability := .object (by simp)

instance : LawfulSerial Spell where
  decode_encode spell := (Data.fields?_bind (by rfl) (by decide) _).trans (by simp)
  native spell := .object (by simp)

instance : LawfulSerial Modifier where
  decode_encode modifier := (Data.fields?_bind (by rfl) (by decide) _).trans (by simp)
  native modifier := .object (by simp)

instance : LawfulSerial Card where
  decode_encode card := (Data.fields?_bind (by rfl) (by decide) _).trans (by simp)
  native card := .object (by simp)

/-! ## Reading what was written -/

/-- The one value is had from the data of the other, and from its text on one line or on several. -/
structure Restores {α : Type} [Serial α] (kept restored : α) : Prop where
  data : decode (encode kept) = some restored
  line : (Data.read? (encode kept).line).bind decode = some restored
  block : (Data.read? (encode kept).block).bind decode = some restored

theorem restores_of_native {α : Type} [Serial α] {kept restored : α} (hnative : (encode kept).Native)
    (hdata : decode (encode kept) = some restored) : Restores kept restored where
  data := hdata
  line := by
    rw [Data.read?_line hnative]
    exact hdata
  block := by
    rw [Data.read?_block hnative]
    exact hdata

theorem LawfulSerial.restores {α : Type} [Serial α] [LawfulSerial α] (a : α) : Restores a a :=
  restores_of_native (native a) (decode_encode a)

theorem Journal.native_encode (journal : Journal) : (encode journal).Native := .object (by simp)

theorem Journal.decode_encode (journal : Journal) : decode (encode journal) = some journal.fresh :=
  (Data.someFields?_bind (by rfl) (by decide) _).trans (by simp [fresh])

/-- Kept values return: every ability, spell, card, effect, target requirement, chosen target,
restriction, keyword and mana cost is had again just as it was, whatever texts, lists and numbers are in
it, and a subtype letter for letter. A journal is had again with its verbosity, format and mode, and with
no entries. -/
theorem kept_values_return :
    (∀ ability : Ability, Restores ability ability) ∧
    (∀ spell : Spell, Restores spell spell) ∧
    (∀ card : Card, Restores card card) ∧
    (∀ effect : Effect, Restores effect effect) ∧
    (∀ target : Target, Restores target target) ∧
    (∀ choice : Choice, Restores choice choice) ∧
    (∀ restriction : Restriction, Restores restriction restriction) ∧
    (∀ keyword : Keyword, Restores keyword keyword) ∧
    (∀ cost : ManaCost, Restores cost cost) ∧
    (∀ subtype : Subtype, Restores subtype subtype) ∧
    ∀ journal : Journal, Restores journal { journal with entries := [] } :=
  ⟨LawfulSerial.restores, LawfulSerial.restores, LawfulSerial.restores, LawfulSerial.restores,
    LawfulSerial.restores, LawfulSerial.restores, LawfulSerial.restores, LawfulSerial.restores,
    LawfulSerial.restores, LawfulSerial.restores,
    fun journal => restores_of_native journal.native_encode journal.decode_encode⟩

end CardRules
