import CardRules.Effect.Clause
import CardRules.Proofs.Text.Pieces
import CardRules.Proofs.Text.Reader

/-!
# The wording of clauses

What each rule for clauses reads, and from what text: one `reads_` lemma per rule, in terms of the phrases
that the text spells (`Spells`) around an amount (`Framed`), a change of power and toughness (`IsChange`)
or a target phrase (`EndsOpen`). Nothing after this module looks into a rule to see what it accepts.
-/

set_option autoImplicit false

namespace CardRules.Clause

open Text Text.Reader

/-! ## Phrases -/

/-- A text is one of some phrases, letter case disregarded. -/
def Spells (phrases : List String) (text : List Char) : Prop :=
  ∃ phrase ∈ phrases, text.map fold = phrase.toList

/-- The phrases that start with one of some phrases and go on with one of others. -/
def glue (starts ends : List String) : List String :=
  starts.flatMap fun start => ends.map fun last => start ++ last

theorem Spells.append {starts ends : List String} {front back : List Char} (h : Spells starts front)
    (h' : Spells ends back) : Spells (glue starts ends) (front ++ back) := by
  obtain ⟨start, hstart, hfront⟩ := h
  obtain ⟨last, hlast, hback⟩ := h'
  refine ⟨start ++ last, List.mem_flatMap.mpr ⟨start, hstart, List.mem_map.mpr ⟨last, hlast, rfl⟩⟩, ?_⟩
  rw [List.map_append, hfront, hback, String.toList_append]

theorem Spells.mono {phrases phrases' : List String} {text : List Char} (h : Spells phrases text)
    (hsub : phrases ⊆ phrases') : Spells phrases' text := by
  obtain ⟨phrase, hphrase, htext⟩ := h
  exact ⟨phrase, hsub hphrase, htext⟩

/-- A text starts with one of some phrases, letter case disregarded. -/
def Starts (heads : List String) (text : List Char) : Prop :=
  ∃ head ∈ heads, head.toList <+: text.map fold

theorem Starts.append {heads : List String} {front : List Char} (h : Starts heads front)
    (back : List Char) : Starts heads (front ++ back) := by
  obtain ⟨head, hhead, hstart⟩ := h
  refine ⟨head, hhead, hstart.trans ?_⟩
  rw [List.map_append]
  exact List.prefix_append _ _

theorem Starts.mono {heads heads' : List String} {text : List Char} (h : Starts heads text)
    (hsub : heads ⊆ heads') : Starts heads' text := by
  obtain ⟨head, hhead, hstart⟩ := h
  exact ⟨head, hsub hhead, hstart⟩

/-- What starts with a phrase starts with the front of it. -/
theorem Starts.shorten {heads heads' : List String} {text : List Char} (h : Starts heads text)
    (hshort : ∀ head ∈ heads, ∃ head' ∈ heads', head'.toList <+: head.toList) : Starts heads' text := by
  obtain ⟨head, hhead, hstart⟩ := h
  obtain ⟨head', hhead', hfront⟩ := hshort head hhead
  exact ⟨head', hhead', hfront.trans hstart⟩

theorem Spells.starts {phrases : List String} {text : List Char} (h : Spells phrases text) :
    Starts phrases text := by
  obtain ⟨phrase, hphrase, htext⟩ := h
  exact ⟨phrase, hphrase, htext ▸ List.prefix_rfl⟩

/-- What spells a phrase in two parts is two texts. -/
theorem Spells.split {starts ends : List String} {text : List Char} (h : Spells (glue starts ends) text) :
    ∃ front back, text = front ++ back ∧ Spells starts front ∧ Spells ends back := by
  obtain ⟨phrase, hphrase, htext⟩ := h
  obtain ⟨start, hstart, hends⟩ := List.mem_flatMap.mp hphrase
  obtain ⟨last, hlast, rfl⟩ := List.mem_map.mp hends
  rw [String.toList_append, List.map_eq_append_iff] at htext
  obtain ⟨front, back, rfl, hfront, hback⟩ := htext
  exact ⟨front, back, rfl, ⟨start, hstart, hfront⟩, ⟨last, hlast, hback⟩⟩

theorem spells_words (phrase : String) : Reads (fun _ front => Spells [phrase] front) (words phrase) :=
  (reads_words phrase).mono fun _ _ h => ⟨phrase, List.mem_singleton_self phrase, h⟩

/-- A part that may be missing spells nothing where it is. -/
theorem spells_flag {phrases : List String} {reader : Reader Unit}
    (h : Reads (fun _ front => Spells phrases front) reader) :
    Reads (fun _ front => Spells ("" :: phrases) front) (flag reader) := by
  refine h.flag.mono ?_
  rintro there front hfront
  cases there with
  | true =>
    obtain ⟨-, hspells⟩ := hfront
    exact hspells.mono (List.subset_cons_self "" phrases)
  | false => exact ⟨"", List.mem_cons_self, by rw [show front = [] from hfront]; rfl⟩

theorem spells_anyWords (phrases : List String) :
    Reads (fun _ front => Spells phrases front) (anyWords phrases) := by
  refine Reads.oneOf ?_
  intro reader hreader
  obtain ⟨phrase, hphrase, rfl⟩ := List.mem_map.mp hreader
  exact (spells_words phrase).mono fun _ _ h => h.mono (by simpa using hphrase)

theorem spells_optionalS : Reads (fun _ front => Spells ["", "s"] front) optionalS := by
  refine ((spells_flag (spells_words "s")).bind fun _ => Reads.pure ()).mono ?_
  rintro _ _ ⟨_, front, _, rfl, hfront, -, rfl⟩
  rwa [List.append_nil]

/-- One of some phrases, each of which stands for something. -/
theorem spells_named {α : Type} (phrases : α → List String) (names : List (String × α))
    (h : ∀ name ∈ names, name.1 ∈ phrases name.2) : Reads (fun a front => Spells (phrases a) front)
      (Reader.oneOf (names.map fun name => do words name.1; pure name.2)) := by
  refine Reads.oneOf ?_
  intro reader hreader
  obtain ⟨name, hname, rfl⟩ := List.mem_map.mp hreader
  refine ((spells_words name.1).bind fun _ => Reads.pure name.2).mono ?_
  rintro _ _ ⟨_, front, _, rfl, hfront, rfl, rfl⟩
  rw [List.append_nil]
  exact hfront.mono (by simpa using h name hname)

/-- The ways in which a permanent's own text names it. -/
def selfTexts : List String :=
  ["this permanent", "this creature", "this artifact", "this enchantment", "it"]

theorem spells_selfWords : Reads (fun _ front => Spells selfTexts front) selfWords :=
  spells_anyWords selfTexts

/-- The words that address a target, or nobody in particular. -/
def addressed (targeted : Bool) : List String := if targeted then ["target player "] else ["", "you "]

theorem spells_addressee :
    Reads (fun who front => Spells (addressed who.isSome) front) addressee := by
  have hwho : Reads
      (fun who front => Spells (glue [if who.isSome then "target player" else "you"] [" "]) front) (do
        let who ← Reader.oneOf
          [(do words "target player"; pure (some { kind := .player })), (do words "you"; pure none)]
        words " "
        pure who : Reader (Option Target)) := by
    have hname : Reads (fun who front => Spells [if who.isSome then "target player" else "you"] front)
        (Reader.oneOf [(do words "target player"; pure (some { kind := .player })),
          (do words "you"; pure none)] : Reader (Option Target)) :=
      spells_named (fun who => [if who.isSome then "target player" else "you"])
        [("target player", some ({ kind := .player } : Target)), ("you", none)] (by decide)
    refine (hname.bind fun who => (spells_words " ").bind fun _ => Reads.pure who).mono ?_
    rintro _ _ ⟨who, name, _, rfl, hname, _, blank, _, rfl, hblank, rfl, rfl⟩
    rw [List.append_nil]
    exact hname.append hblank
  refine (hwho.maybe.bind fun who => Reads.pure who.join).mono ?_
  rintro _ _ ⟨who, front, _, rfl, hfront, rfl, rfl⟩
  rw [List.append_nil]
  match who with
  | some (some target) => exact hfront
  | some none => exact hfront.mono (by decide)
  | none => exact ⟨"", by decide, by rw [show front = [] from hfront]; rfl⟩

/-! ## Clauses around an amount -/

/-- A word between a head and a tail. -/
structure Framed (heads : List String) (word : List Char) (tails : List String)
    (text : List Char) : Prop where
  ne_nil : word ≠ []
  isWord : ∀ c ∈ word, isWordChar c = true
  parts : ∃ head tail, text = head ++ (word ++ tail) ∧ Spells heads head ∧ Spells tails tail

theorem Framed.starts {heads tails : List String} {word text : List Char}
    (h : Framed heads word tails text) : Starts heads text := by
  obtain ⟨head, tail, rfl, hhead, -⟩ := h.parts
  exact hhead.starts.append _

/-- A verb, which may end in an s, and a blank. -/
def inflected (verb : String) : List String := glue [verb] (glue ["", "s"] [" "])

/-- What stands before an amount: who does it, and a verb. -/
def verbForms (subjects : List String) (verb : String) : List String := glue subjects (inflected verb)

theorem reads_verb {α : Type} {R : α → List Char → Prop} {next : Reader α} (h : Reads R next)
    (verb : String) : Reads (fun a text => ∃ front back, text = front ++ back ∧
      Spells (inflected verb) front ∧ R a back) (do words verb; optionalS; words " "; next) := by
  refine ((spells_words verb).bind fun _ => spells_optionalS.bind fun _ =>
    (spells_words " ").bind fun _ => h).mono ?_
  rintro a _ ⟨_, verb', _, rfl, hverb, _, s, _, rfl, hs, _, blank, back, rfl, hblank, hback⟩
  exact ⟨verb' ++ (s ++ blank), back, by simp, hverb.append (hs.append hblank), hback⟩

/-- Drawing and milling. -/
theorem reads_cards (kind : EffectKind) (verb : String) :
    Reads (fun effect? text => ∃ who n,
        effect? = (ofAmount kind n).map (fun effect => effect.withTarget? who) ∧
        Framed (verbForms (addressed who.isSome) verb) n [" card", " cards"] text) (do
      let who ← addressee
      words verb; optionalS; words " "
      let n ← amount
      words " card"; optionalS
      pure ((ofAmount kind n).map fun effect => effect.withTarget? who)) := by
  refine (spells_addressee.bind fun who => reads_verb ((reads_runs _).bind fun n =>
    (spells_words " card").bind fun _ => spells_optionalS.bind fun _ => Reads.pure _) verb).mono ?_
  rintro effect? _ ⟨who, subject, _, rfl, hsubject, front, _, rfl, hverb, n, _, _, rfl, ⟨rfl, hne, hword⟩,
    _, card, _, rfl, hcard, _, s, _, rfl, hs, rfl, rfl⟩
  exact ⟨who, n, rfl, hne, hword, subject ++ front, card ++ s, by simp, hsubject.append hverb,
    hcard.append hs⟩

theorem reads_draw :
    draw.Reads fun effect? text => ∃ who n,
      effect? = (ofAmount .drawCards n).map (fun effect => effect.withTarget? who) ∧
        Framed (verbForms (addressed who.isSome) "draw") n [" card", " cards"] text :=
  reads_cards .drawCards "draw"

theorem reads_mill :
    mill.Reads fun effect? text => ∃ who n,
      effect? = (ofAmount .mill n).map (fun effect => effect.withTarget? who) ∧
        Framed (verbForms (addressed who.isSome) "mill") n [" card", " cards"] text :=
  reads_cards .mill "mill"

theorem reads_gainLife :
    gainLife.Reads fun effect? text => ∃ n, effect? = ofAmount .gainLife n ∧
      Framed (verbForms ["", "you "] "gain") n [" life"] text := by
  refine ((spells_flag (spells_words "you ")).bind fun _ => reads_verb ((reads_runs _).bind fun n =>
    (spells_words " life").bind fun _ => Reads.pure _) "gain").mono ?_
  rintro _ _ ⟨_, you, _, rfl, hyou, gain, _, rfl, hgain, n, _, _, rfl, ⟨rfl, hne, hword⟩, _, life, _, rfl,
    hlife, rfl, rfl⟩
  exact ⟨n, rfl, hne, hword, you ++ gain, life, by simp, hyou.append hgain, hlife⟩

/-- Who loses life, a target or not. -/
def losers (targeted : Bool) : List String :=
  if targeted then ["target player", "target opponent"] else ["you"]

theorem reads_loseLife :
    loseLife.Reads fun effect? text => ∃ who n,
      effect? = (ofAmount .loseLife n).map (fun effect => effect.withTarget? who) ∧
        Framed (verbForms (losers who.isSome) " lose") n [" life"] text := by
  have hwho : Reads (fun who front => Spells (losers who.isSome) front) (Reader.oneOf
      [(do words "target player"; pure (some { kind := .player })),
        (do words "target opponent"; pure (some { kind := .opponent })),
        (do words "you"; pure none)] : Reader (Option Target)) :=
    spells_named (fun who => losers who.isSome) [("target player", some ({ kind := .player } : Target)),
      ("target opponent", some { kind := .opponent }), ("you", none)] (by decide)
  refine (hwho.bind fun who => reads_verb ((reads_runs _).bind fun n =>
    (spells_words " life").bind fun _ => Reads.pure _) " lose").mono ?_
  rintro _ _ ⟨who, subject, _, rfl, hsubject, lose, _, rfl, hlose, n, _, _, rfl, ⟨rfl, hne, hword⟩,
    _, life, _, rfl, hlife, rfl, rfl⟩
  exact ⟨who, n, rfl, hne, hword, subject ++ lose, life, by simp, hsubject.append hlose, hlife⟩

/-! ## Changes of power and toughness -/

/-- A word with a sign before it. -/
def IsSigned (text : List Char) : Prop :=
  ∃ sign word, text = sign :: word ∧ sign ∈ ['+', '-'] ∧ word ≠ [] ∧ ∀ c ∈ word, isWordChar c = true

theorem reads_signedWord :
    signedWord.Reads fun word text => word = text ∧ IsSigned text := by
  refine ((reads_oneChar _).bind fun sign => (reads_runs _).bind fun word => Reads.pure _).mono ?_
  rintro _ _ ⟨sign, _, _, rfl, ⟨rfl, hsign⟩, word, _, _, rfl, ⟨rfl, hne, hword⟩, rfl, rfl⟩
  rw [List.append_nil, List.singleton_append]
  exact ⟨rfl, sign, word, rfl, by simpa using hsign, hne, hword⟩

/-- The durations that a change can name, or that it has if it names none. -/
def untilTexts : List String := ["", " until end of turn", " until end of combat"]

/-- A text of the form "gets +2/+2 until end of turn". -/
def IsChange (text : List Char) : Prop :=
  ∃ verb power slash toughness duration, text = verb ++ (power ++ (slash ++ (toughness ++ duration))) ∧
    Spells [" get ", " gets "] verb ∧ IsSigned power ∧ Spells ["/"] slash ∧ IsSigned toughness ∧
    Spells untilTexts duration

theorem reads_change : change.Reads fun _ text => IsChange text := by
  have hend : Reads (fun _ front => Spells ["turn", "combat"] front) (Reader.oneOf
      [(do words "turn"; pure Duration.untilEndOfTurn),
        (do words "combat"; pure Duration.untilEndOfCombat)]) :=
    spells_named (fun _ => ["turn", "combat"])
      [("turn", Duration.untilEndOfTurn), ("combat", .untilEndOfCombat)] (by decide)
  refine (reads_verb (reads_signedWord.bind fun power => (spells_words "/").bind fun _ =>
    reads_signedWord.bind fun toughness =>
    ((spells_words " until end of ").bind fun _ => hend).maybe.bind fun duration =>
    reads_atEnd.bind fun _ => Reads.pure _) " get").mono ?_
  rintro _ _ ⟨get, _, rfl, hget, power, _, _, rfl, ⟨rfl, hpower⟩, _, slash, _, rfl, hslash, toughness, _, _,
    rfl, ⟨rfl, htoughness⟩, duration, ending, _, rfl, hending, _, _, _, rfl, rfl, rfl, rfl⟩
  refine ⟨get, power, slash, toughness, ending, by simp, hget, hpower, hslash, htoughness, ?_⟩
  cases duration with
  | none => exact ⟨"", by decide, by rw [show ending = [] from hending]; rfl⟩
  | some duration =>
    obtain ⟨_, front, back, rfl, hfront, hback⟩ := hending
    exact (hfront.append hback).mono (by decide)

/-- A change of power and toughness belongs to the permanent itself, or to a target. -/
theorem reads_pump :
    pump.Reads fun effect? text => ∀ effect ∈ effect?, effect.kind = .pump ∧
      ∃ subject change, text = subject ++ change ∧ IsChange change ∧
        if effect.targets = [] then Spells selfTexts subject
        else ∃ front rest, subject = front ++ rest ∧ Spells ["target "] front := by
  have hwho : Reads (fun read text => ∃ subject change, text = subject ++ change ∧ IsChange change ∧
      if read.1 = none then Spells selfTexts subject
      else ∃ front rest, subject = front ++ rest ∧ Spells ["target "] front) (Reader.oneOf
        [(do selfWords; let change ← change; pure (none, change)),
          (do
            words "target "
            let read ← before change
            pure (some ("target ".toList ++ read.1), read.2))] :
        Reader (Option (List Char) × List Char × List Char × Duration)) := by
    refine Reads.oneOf ?_
    intro reader hreader
    simp only [List.mem_cons, List.not_mem_nil, or_false] at hreader
    rcases hreader with rfl | rfl
    · refine (spells_selfWords.bind fun _ => reads_change.bind fun change => Reads.pure _).mono ?_
      rintro _ _ ⟨_, name, _, rfl, hname, change, text, _, rfl, hchange, rfl, rfl⟩
      exact ⟨name, text, by simp, hchange, hname⟩
    · refine ((spells_words "target ").bind fun _ => reads_change.before.bind fun read =>
        Reads.pure _).mono ?_
      rintro _ _ ⟨_, front, _, rfl, hfront, ⟨rest, change⟩, _, _, rfl, ⟨back, rfl, hback⟩, rfl, rfl⟩
      exact ⟨front ++ rest, back, by simp, hback, front, rest, rfl, hfront⟩
  refine (hwho.bind fun read => Reads.pure _).mono ?_
  rintro _ _ ⟨⟨who, power, toughness, duration⟩, _, _, rfl, ⟨subject, change, rfl, hchange, hsubject⟩, rfl, rfl⟩
  intro effect heffect
  obtain ⟨_, -, heffect⟩ := Option.bind_eq_some_iff.mp heffect
  obtain ⟨_, -, heffect⟩ := Option.bind_eq_some_iff.mp heffect
  obtain ⟨made, hmade, heffect⟩ := Option.bind_eq_some_iff.mp heffect
  obtain ⟨packed, -, rfl⟩ := Option.map_eq_some_iff.mp hmade
  cases who with
  | none =>
    obtain rfl := Option.some.inj heffect
    exact ⟨rfl, subject, change, by simp, hchange, hsubject⟩
  | some phrase =>
    obtain ⟨target, -, rfl⟩ := Option.map_eq_some_iff.mp heffect
    exact ⟨rfl, subject, change, by simp, hchange, hsubject⟩

/-! ## Clauses that end in a target phrase -/

/-- At least one character, and no line end. -/
def IsLine (text : List Char) : Prop := text ≠ [] ∧ ∀ c ∈ text, isInLine c = true

theorem isInLine_of_notMem {text : List Char} (h : '\n' ∉ text) : ∀ c ∈ text, isInLine c = true := by
  intro c hc
  rw [isInLine, bne_iff_ne]
  rintro rfl
  exact h hc

/-- The phrases that damage is dealt with. -/
def dealForms : List String := verbForms ("" :: glue selfTexts [" "]) "deal"

/-- The verbs that take a target phrase, perhaps with a count. -/
def countedVerbs : List (EffectKind × String) := [(.tap, "tap "), (.untap, "untap ")]

/-- The verbs that take a target phrase, whatever it is. -/
def targetVerbs : List (EffectKind × String) :=
  (.destroy, "destroy ") :: (.exile, "exile ") :: countedVerbs

/-- The front of a clause that ends in a target phrase, the words that the phrase starts with there,
and what is made of the target. -/
inductive Opening : (front lead : List Char) → (Target → Option Effect) → Prop
  | damage {n front : List Char}
      (words : Framed dealForms n [" damage to "] front) :
      Opening front [] fun target =>
        (ofAmount .dealDamage n).map fun effect => effect.withTarget target
  | counter {front : List Char} (words : Spells (glue ["counter "] ["target "]) front) :
      Opening front "target ".toList fun target =>
        (some ((Effect.make .counterSpell 1).withTarget target)).filter fun effect =>
          effect.targets.head?.any fun target => target.kind == .spell
  | named {kind : EffectKind} {verb : String} {front : List Char}
      (verb_mem : (kind, verb) ∈ targetVerbs) (words : Spells (glue [verb] ["target "]) front) :
      Opening front "target ".toList fun target => some ((Effect.make kind 1).withTarget target)
  | upTo {kind : EffectKind} {verb : String} {n front : List Char}
      (verb_mem : (kind, verb) ∈ countedVerbs)
      (words : Framed (glue [verb] ["up to "]) n (glue [" "] ["target "]) front) :
      Opening front ("up to ".toList ++ n ++ [' '] ++ "target ".toList) fun target =>
        some ((Effect.make kind 1).withTarget target)

/-- What is read of a clause that starts with one of some phrases and ends in a target phrase. -/
def EndsOpen (heads : List String) (effect? : Option Effect) (text : List Char) : Prop :=
  Starts heads text ∧ ∃ front lead build rest, Opening front lead build ∧ text = front ++ rest ∧
    IsLine rest ∧ effect? = (Target.ofPhrase? (lead ++ rest)).bind build

theorem reads_damage : damage.Reads (EndsOpen dealForms) := by
  have hself : Reads (fun _ front => Spells (glue selfTexts [" "]) front) (do selfWords; words " ") := by
    refine (spells_selfWords.bind fun _ => spells_words " ").mono ?_
    rintro _ _ ⟨_, name, blank, rfl, hname, hblank⟩
    exact hname.append hblank
  refine ((spells_flag hself).bind fun _ => reads_verb ((reads_runs _).bind fun n =>
    (spells_words " damage to ").bind fun _ => reads_line.bind fun rest => Reads.pure _) "deal").mono ?_
  rintro _ _ ⟨_, subject, _, rfl, hsubject, deal, _, rfl, hdeal, n, _, _, rfl, ⟨rfl, hne, hword⟩,
    _, damage, _, rfl, hdamage, rest, _, _, rfl, ⟨rfl, hline⟩, rfl, rfl⟩
  have hfront : Framed dealForms n [" damage to "] (subject ++ deal ++ (n ++ damage)) :=
    ⟨hne, hword, _, _, rfl, hsubject.append hdeal, hdamage⟩
  refine ⟨?_, _, _, _, rest, .damage hfront, by simp, hline, ?_⟩
  · simpa using hfront.starts.append rest
  · rw [List.nil_append]
    cases Target.ofPhrase? rest with
    | none => rfl
    | some target => cases ofAmount .dealDamage n <;> rfl

theorem onTarget_eq_bind (kind : EffectKind) (phrase : List Char) :
    onTarget kind phrase =
      (Target.ofPhrase? phrase).bind fun target => some ((Effect.make kind 1).withTarget target) := by
  rw [onTarget, Option.map_eq_bind]
  rfl

theorem spells_targetPhrase :
    targetPhrase.Reads fun phrase text => ∃ front rest, text = front ++ rest ∧ Spells ["target "] front ∧
      IsLine rest ∧ phrase = "target ".toList ++ rest := by
  refine ((spells_words "target ").bind fun _ => reads_line.bind fun rest => Reads.pure _).mono ?_
  rintro _ _ ⟨_, front, _, rfl, hfront, rest, _, _, rfl, ⟨rfl, hline⟩, rfl, rfl⟩
  exact ⟨front, rest, by simp, hfront, hline, rfl⟩

theorem endsOpen_of_phrase {kind : EffectKind} {verb : String} (hverb : (kind, verb) ∈ targetVerbs) :
    Reads (EndsOpen [verb]) (do words verb; let phrase ← targetPhrase; pure (onTarget kind phrase)) := by
  refine ((spells_words verb).bind fun _ => spells_targetPhrase.bind fun phrase => Reads.pure _).mono ?_
  rintro _ _ ⟨_, start, _, rfl, hstart, phrase, _, _, rfl, ⟨front, rest, rfl, hfront, hline, rfl⟩, rfl, rfl⟩
  refine ⟨hstart.starts.append _, _, _, _, rest, .named hverb (hstart.append hfront), by simp, hline,
    onTarget_eq_bind kind _⟩

theorem reads_destroy : destroy.Reads (EndsOpen ["destroy "]) :=
  endsOpen_of_phrase (by decide)

theorem reads_exile : exile.Reads (EndsOpen ["exile "]) :=
  endsOpen_of_phrase (by decide)

theorem reads_counter : counter.Reads (EndsOpen ["counter "]) := by
  refine ((spells_words "counter ").bind fun _ => spells_targetPhrase.bind fun phrase =>
    Reads.pure _).mono ?_
  rintro _ _ ⟨_, start, _, rfl, hstart, phrase, _, _, rfl, ⟨front, rest, rfl, hfront, hline, rfl⟩, rfl, rfl⟩
  refine ⟨hstart.starts.append _, _, _, _, rest, .counter (hstart.append hfront), by simp, hline, ?_⟩
  cases hphrase : Target.ofPhrase? ("target ".toList ++ rest) with
  | none => rw [onTarget, hphrase]; rfl
  | some target => rw [onTarget, hphrase]; rfl

/-- A verb in front of a phrase that may have a count. -/
theorem endsOpen_of_counted {kind : EffectKind} {verb : String} (hverb : (kind, verb) ∈ countedVerbs) :
    Reads (fun phrase text => ∀ start, Spells [verb] start →
      EndsOpen [verb] (onTarget kind phrase) (start ++ text)) countedPhrase := by
  refine (((spells_words "up to ").bind fun _ => (reads_runs _).bind fun n => (spells_words " ").bind fun _ =>
    Reads.pure n).maybe.bind fun count => spells_targetPhrase.bind fun phrase => Reads.pure _).mono ?_
  rintro _ _ ⟨count, counted, _, rfl, hcounted, phrase, _, _, rfl, ⟨front, rest, rfl, hfront, hline, rfl⟩,
    rfl, rfl⟩ start hstart
  cases count with
  | none =>
    obtain rfl : counted = [] := hcounted
    have hverb' : (kind, verb) ∈ targetVerbs := List.mem_cons_of_mem _ (List.mem_cons_of_mem _ hverb)
    refine ⟨hstart.starts.append _, _, _, _, rest, .named hverb' (hstart.append hfront), by simp, hline,
      onTarget_eq_bind kind _⟩
  | some n =>
    obtain ⟨_, up, _, rfl, hup, n, _, _, rfl, ⟨rfl, hne, hword⟩, _, blank, _, rfl, hblank, rfl, rfl⟩ := hcounted
    have hframed : Framed (glue [verb] ["up to "]) n (glue [" "] ["target "])
        (start ++ up ++ (n ++ (blank ++ front))) :=
      ⟨hne, hword, _, _, rfl, hstart.append hup, hblank.append hfront⟩
    refine ⟨hstart.starts.append _, _, _, _, rest, .upTo hverb hframed, by simp, hline, ?_⟩
    rw [onTarget_eq_bind, List.append_assoc]

theorem reads_tap : tap.Reads (EndsOpen ["tap "]) := by
  have hverb : (EffectKind.tap, "tap ") ∈ countedVerbs := by decide
  refine ((spells_words "tap ").bind fun _ => (endsOpen_of_counted hverb).bind fun phrase =>
    Reads.pure _).mono ?_
  rintro _ _ ⟨_, start, _, rfl, hstart, phrase, _, _, rfl, hphrase, rfl, rfl⟩
  rw [List.append_nil]
  exact hphrase start hstart

/-- Either a target is untapped, or the permanent itself. -/
theorem reads_untap : untap.Reads fun effect? text => EndsOpen ["untap "] effect? text ∨
    effect? = some (Effect.make .untap 1) ∧ Spells (glue ["untap "] selfTexts) text := by
  have hverb : (EffectKind.untap, "untap ") ∈ countedVerbs := by decide
  have hwhat : Reads (fun phrase? text =>
        (∃ phrase, phrase? = some phrase ∧ ∀ start, Spells ["untap "] start →
          EndsOpen ["untap "] (onTarget .untap phrase) (start ++ text)) ∨
        phrase? = none ∧ Spells selfTexts text)
      (Reader.oneOf [some <$> countedPhrase, (do selfWords; pure none)] :
        Reader (Option (List Char))) := by
    refine Reads.oneOf ?_
    intro reader hreader
    simp only [List.mem_cons, List.not_mem_nil, or_false] at hreader
    rcases hreader with rfl | rfl
    · refine ((endsOpen_of_counted hverb).bind fun phrase => Reads.pure (some phrase)).mono ?_
      rintro _ _ ⟨phrase, text, _, rfl, hphrase, rfl, rfl⟩
      rw [List.append_nil]
      exact .inl ⟨phrase, rfl, hphrase⟩
    · refine (spells_selfWords.bind fun _ => Reads.pure none).mono ?_
      rintro _ _ ⟨_, text, _, rfl, htext, rfl, rfl⟩
      rw [List.append_nil]
      exact .inr ⟨rfl, htext⟩
  refine ((spells_words "untap ").bind fun _ => hwhat.bind fun phrase => Reads.pure _).mono ?_
  rintro _ _ ⟨_, start, _, rfl, hstart, _, text, _, rfl, hphrase, rfl, rfl⟩
  rw [List.append_nil]
  rcases hphrase with ⟨phrase, rfl, htarget⟩ | ⟨rfl, hself⟩
  · exact .inl (htarget start hstart)
  · exact .inr ⟨rfl, hstart.append hself⟩

/-! ## Clauses that end in a fixed word -/

theorem reads_returnToHand :
    returnToHand.Reads fun effect? text => ∃ phrase front rest back, text = front ++ (rest ++ back) ∧
      effect? = onTarget .returnToHand phrase ∧ Spells ["return target "] front ∧
        Spells [" hand", " hands"] back := by
  have hhand : Reads (fun _ text => ∃ owner hand, text = owner ++ hand ∧ Spells [" hand", " hands"] hand) (do
      words " to "
      anyWords ["its", "their"]
      words " owner"
      let _ ← flag (words "'")
      words "s"
      let _ ← flag (words "'")
      words " hand"; optionalS; atEnd) := by
    refine ((spells_words " to ").bind fun _ => (spells_anyWords _).bind fun _ =>
      (spells_words " owner").bind fun _ => (spells_flag (spells_words "'")).bind fun _ =>
      (spells_words "s").bind fun _ => (spells_flag (spells_words "'")).bind fun _ =>
      (spells_words " hand").bind fun _ => spells_optionalS.bind fun _ => reads_atEnd).mono ?_
    rintro _ _ ⟨_, into, _, rfl, -, _, its, _, rfl, -, _, owner, _, rfl, -, _, q, _, rfl, -, _, s, _, rfl, -,
      _, q', _, rfl, -, _, hand, _, rfl, hhand, _, s', _, rfl, hs', rfl⟩
    exact ⟨into ++ (its ++ (owner ++ (q ++ (s ++ q')))), hand ++ s', by simp, hhand.append hs'⟩
  refine ((spells_words "return target ").bind fun _ => hhand.before.bind fun read => Reads.pure _).mono ?_
  rintro _ _ ⟨_, front, _, rfl, hfront, ⟨rest, _⟩, _, _, rfl, ⟨_, rfl, owner, hand, rfl, hhand⟩, rfl, rfl⟩
  exact ⟨_, front, rest ++ owner, hand, by simp, rfl, hfront, hhand⟩

/-- Tokens are created in a number, and what they are stands behind it. -/
theorem reads_tokens :
    createToken.Reads fun effect? text => ∃ n front what back, text = front ++ (what ++ back) ∧
      (∀ effect ∈ effect?, effect.kind = .createToken ∧ Amount.ofText? n = some effect.magnitude) ∧
        Framed ["create "] n [" "] front ∧ Spells [" token", " tokens"] back := by
  have htoken : Reads (fun _ text => Spells [" token", " tokens"] text)
      (do words " token"; optionalS; atEnd) := by
    refine ((spells_words " token").bind fun _ => spells_optionalS.bind fun _ => reads_atEnd).mono ?_
    rintro _ _ ⟨_, token, _, rfl, htoken, _, s, _, rfl, hs, rfl⟩
    rw [List.append_nil]
    exact htoken.append hs
  refine ((spells_words "create ").bind fun _ => (reads_runs _).bind fun n => (spells_words " ").bind fun _ =>
    htoken.before.bind fun read => Reads.pure _).mono ?_
  rintro _ _ ⟨_, front, _, rfl, hfront, n, _, _, rfl, ⟨rfl, hne, hword⟩, _, blank, _, rfl, hblank, ⟨what, _⟩,
    _, _, rfl, ⟨token, rfl, htoken⟩, rfl, rfl⟩
  refine ⟨n, front ++ (n ++ blank), what, token, by simp, ?_, ⟨hne, hword, front, blank, rfl, hfront, hblank⟩,
    htoken⟩
  intro effect heffect
  obtain ⟨made, hmade, rfl⟩ := Option.map_eq_some_iff.mp heffect
  obtain ⟨amount, hamount, rfl⟩ := Option.map_eq_some_iff.mp hmade
  exact ⟨rfl, hamount⟩

theorem reads_createToken :
    createToken.Reads fun effect? text => ∃ front rest back, text = front ++ (rest ++ back) ∧
      (∀ effect ∈ effect?, effect.kind = .createToken) ∧ Spells ["create "] front ∧
        Spells [" token", " tokens"] back := by
  refine reads_tokens.mono ?_
  rintro effect? _ ⟨n, _, what, back, rfl, hmade, hframed, hback⟩
  obtain ⟨front, blank, rfl, hfront, -⟩ := hframed.parts
  exact ⟨front, n ++ (blank ++ what), back, by simp, fun effect heffect => (hmade effect heffect).1, hfront,
    hback⟩

end CardRules.Clause
