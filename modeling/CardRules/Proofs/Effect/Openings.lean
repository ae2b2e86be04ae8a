import CardRules.Proofs.Effect.Wording

/-!
# Which rule reads a clause

The rules are tried in turn, but the order hardly matters: the phrases that clauses start with are apart,
so a clause that starts like those of one rule is read by this rule or by none (`single?_eq`). With it a
text is read without knowing beforehand that it is a clause: whatever stands behind the opening of a
clause that ends in a target phrase is read as the phrase (`single?_of_opening`).
-/

set_option autoImplicit false

namespace CardRules.Clause

open Text Text.Reader

/-! ## How clauses start -/

/-- Phrases of which none starts with another. -/
def Apart (heads heads' : List String) : Prop :=
  ∀ head ∈ heads, ∀ head' ∈ heads', ¬ head.toList <+: head'.toList ∧ ¬ head'.toList <+: head.toList

instance (heads heads' : List String) : Decidable (Apart heads heads') :=
  inferInstanceAs (Decidable (∀ head ∈ heads, ∀ head' ∈ heads',
    ¬ head.toList <+: head'.toList ∧ ¬ head'.toList <+: head.toList))

theorem Apart.symm {heads heads' : List String} (h : Apart heads heads') : Apart heads' heads :=
  fun head' hhead' head hhead => (h head hhead head' hhead').symm

/-- A text does not start with phrases that are apart. -/
theorem Apart.not_starts {heads heads' : List String} (h : Apart heads heads') {text : List Char}
    (hstart : Starts heads text) : ¬ Starts heads' text := by
  rintro ⟨head', hhead', hstart'⟩
  obtain ⟨head, hhead, hstart⟩ := hstart
  rcases List.prefix_or_prefix_of_prefix hstart hstart' with hshort | hshort
  · exact (h head hhead head' hhead').1 hshort
  · exact (h head hhead head' hhead').2 hshort

/-! ## The rule that reads -/

/-- The rules, each with the phrases its clauses start with. -/
def openings : List (Rule × List String) :=
  [(draw, verbForms ["target player ", "", "you "] "draw"),
    (damage, verbForms ("" :: glue selfTexts [" "]) "deal"),
    (gainLife, verbForms ["", "you "] "gain"),
    (loseLife, verbForms ["target player", "target opponent", "you"] " lose"),
    (pump, "target " :: glue selfTexts [" get ", " gets "]),
    (destroy, ["destroy "]),
    (counter, ["counter "]),
    (tap, ["tap "]),
    (untap, ["untap "]),
    (mill, verbForms ["target player ", "", "you "] "mill"),
    (exile, ["exile "]),
    (returnToHand, ["return target "]),
    (createToken, ["create "])]

/-- A rule that makes an effect of a clause has read one that starts like its own. -/
theorem starts_openings : ∀ opening ∈ openings,
    opening.1.Reads fun effect? text => effect?.isSome → Starts opening.2 text := by
  simp only [openings, List.forall_mem_cons]
  refine ⟨reads_draw.mono ?draw, reads_damage.mono ?_, reads_gainLife.mono ?gainLife,
    reads_loseLife.mono ?loseLife, reads_pump.mono ?pump, reads_destroy.mono ?_, reads_counter.mono ?_,
    reads_tap.mono ?_, reads_untap.mono ?untap, reads_mill.mono ?mill, reads_exile.mono ?_,
    reads_returnToHand.mono ?returnToHand, reads_createToken.mono ?createToken, by simp⟩
  case draw | mill | loseLife =>
    rintro _ _ ⟨who, n, -, htext⟩ -
    exact htext.starts.mono (by cases who.isSome <;> decide)
  case gainLife =>
    rintro _ _ ⟨n, -, htext⟩ -
    exact htext.starts
  case pump =>
    intro effect? text htext hsome
    obtain ⟨effect, rfl⟩ := Option.isSome_iff_exists.mp hsome
    obtain ⟨-, subject, _, rfl, ⟨verb, power, _, _, _, rfl, hverb, -⟩, hsubject⟩ := htext effect rfl
    split at hsubject
    · have hstart : Starts (glue selfTexts [" get ", " gets "]) (subject ++ verb) :=
        (hsubject.append hverb).starts
      rw [← List.append_assoc]
      exact (hstart.append _).mono (List.subset_cons_self _ _)
    · obtain ⟨front, rest, rfl, hfront⟩ := hsubject
      rw [List.append_assoc]
      exact (hfront.starts.append _).mono (by decide)
  case untap =>
    rintro _ _ (⟨hstart, -⟩ | ⟨-, htext⟩) -
    · exact hstart
    · obtain ⟨front, back, rfl, hfront, -⟩ := htext.split
      exact hfront.starts.append back
  case returnToHand =>
    rintro _ _ ⟨phrase, front, rest, back, rfl, -, hfront, -⟩ -
    exact hfront.starts.append (rest ++ back)
  case createToken =>
    rintro _ _ ⟨front, rest, back, rfl, -, hfront, -⟩ -
    exact hfront.starts.append (rest ++ back)
  all_goals exact fun _ _ h _ => h.1

theorem findSome?_of_eraseIdx {α β : Type} {f : α → Option β} {as : List α} {i : Nat} {a : α}
    (hi : as[i]? = some a) (h : ∀ b ∈ as.eraseIdx i, f b = none) : as.findSome? f = f a := by
  induction as generalizing i with
  | nil => simp at hi
  | cons b as ih =>
    cases i with
    | zero =>
      obtain rfl : b = a := by simpa using hi
      rw [List.eraseIdx_cons_zero] at h
      rw [List.findSome?_cons, List.findSome?_eq_none_iff.mpr h]
      cases f b <;> rfl
    | succ i =>
      rw [List.eraseIdx_cons_succ, List.forall_mem_cons] at h
      rw [List.findSome?_cons, h.1]
      exact ih (by simpa using hi) h.2

/-- A clause that starts like those of a rule is read by this rule, or by none. -/
theorem single?_eq {i : Nat} {rule : Rule} {heads : List String} {s : List Char}
    (hi : openings[i]? = some (rule, heads))
    (hapart : ∀ opening ∈ openings.eraseIdx i, Apart heads opening.2) (hstart : Starts heads s) :
    single? s = (rule.read? s).join := by
  have hothers : ∀ opening ∈ openings.eraseIdx i, (opening.1.read? s).join = none := by
    intro opening hopening
    rw [← Option.not_isSome_iff_eq_none]
    intro hsome
    obtain ⟨effect, heffect⟩ := Option.isSome_iff_exists.mp hsome
    have hread : opening.1.read? s = some (some effect) := Option.join_eq_some_iff.mp heffect
    have hstart' := (starts_openings opening (List.mem_of_mem_eraseIdx hopening)).of_read? hread rfl
    exact (hapart opening hopening).not_starts hstart hstart'
  have hrules : single? s = openings.findSome? fun opening => (opening.1.read? s).join := rfl
  rw [hrules]
  exact findSome?_of_eraseIdx hi hothers

/-! ## Clauses that end in a target phrase -/

theorem anyWords_eq_nil {phrases : List String} {s : List Char} (h : ¬ Starts phrases s) :
    anyWords phrases s = [] := by
  refine List.flatMap_eq_nil_iff.mpr ?_
  intro reader hreader
  obtain ⟨phrase, hphrase, rfl⟩ := List.mem_map.mp hreader
  exact words_eq_nil fun hstart => h ⟨phrase, hphrase, hstart⟩

theorem bind_eq_nil {α β : Type} {reader : Reader α} {s : List Char} (h : reader s = [])
    (next : α → Reader β) : (reader >>= next) s = [] := by
  rw [bind_run, h, List.flatMap_nil]

theorem prefers_words {phrase : String} {front : List Char} (h : Spells [phrase] front)
    (s : List Char) : Prefers (words phrase) (front ++ s) () s := by
  obtain ⟨_, hphrase, hfront⟩ := h
  rw [List.mem_singleton.mp hphrase] at hfront
  exact .words hfront s

theorem prefers_anyWords {phrases : List String}
    (hapart : phrases.Pairwise fun phrase phrase' => Apart [phrase'] [phrase]) {front : List Char}
    (h : Spells phrases front) (s : List Char) : Prefers (anyWords phrases) (front ++ s) () s := by
  obtain ⟨phrase, hphrase, hfront⟩ := h
  obtain ⟨before, after, rfl⟩ := List.append_of_mem hphrase
  rw [List.pairwise_append] at hapart
  have hspells : Spells [phrase] front := ⟨phrase, List.mem_singleton_self phrase, hfront⟩
  rw [anyWords, List.map_append, List.map_cons]
  refine .oneOf ?_ (prefers_words hspells s)
  intro reader hreader
  obtain ⟨earlier, hearlier, rfl⟩ := List.mem_map.mp hreader
  refine words_eq_nil fun hstart => ?_
  have happart := hapart.2.2 earlier hearlier phrase List.mem_cons_self
  exact happart.not_starts (hspells.starts.append s) ⟨earlier, List.mem_singleton_self earlier, hstart⟩

theorem prefers_optionalS {s t : List Char} (h : Spells ["", "s"] s) (ht : Starts [" "] t) :
    Prefers optionalS (s ++ t) () t := by
  obtain ⟨phrase, hphrase, hs⟩ := h
  rw [List.mem_cons, List.mem_singleton] at hphrase
  rcases hphrase with rfl | rfl
  · obtain rfl : s = [] := List.map_eq_nil_iff.mp hs
    have hapart : Apart [" "] ["s"] := by decide
    refine .bind (.no_flag (words_eq_nil fun hstart => ?_)) (.pure () t)
    exact hapart.not_starts ht ⟨"s", List.mem_singleton_self "s", hstart⟩
  · exact .bind (.flag (.words hs t)) (.pure () t)

/-- A permanent is named in front of a verb, or it is not. -/
theorem prefers_subject {subject t : List Char} (h : Spells ("" :: glue selfTexts [" "]) subject)
    (ht : Starts ["deal"] t) :
    ∃ there, Prefers (flag (do selfWords; words " ")) (subject ++ t) there t := by
  obtain ⟨phrase, hphrase, hsubject⟩ := h
  rcases List.mem_cons.mp hphrase with rfl | hself
  · obtain rfl : subject = [] := List.map_eq_nil_iff.mp hsubject
    have hapart : Apart ["deal"] selfTexts := by decide
    exact ⟨false, .no_flag (bind_eq_nil (anyWords_eq_nil (hapart.not_starts ht)) _)⟩
  · have hspells : Spells (glue selfTexts [" "]) subject := ⟨phrase, hself, hsubject⟩
    obtain ⟨name, blank, rfl, hname, hblank⟩ := hspells.split
    rw [List.append_assoc]
    exact ⟨true, .flag (.bind (prefers_anyWords (by decide) hname _) (prefers_words hblank t))⟩

theorem prefers_amount {n t : List Char} (hne : n ≠ []) (hword : ∀ c ∈ n, isWordChar c = true)
    (ht : Starts [" "] t) : Prefers amount (n ++ t) n t := by
  refine .runs hne hword ?_
  intro c hc
  obtain ⟨phrase, hphrase, hstart⟩ := ht
  rw [List.mem_singleton.mp hphrase] at hstart
  obtain ⟨more, rfl⟩ := List.head?_eq_some_iff.mp hc
  have hblank : fold c = ' ' := (List.cons_prefix_cons.mp hstart).1.symm
  rw [eq_of_fold hblank (by decide)]
  decide

theorem prefers_targetPhrase {front rest : List Char} (h : Spells ["target "] front)
    (hline : IsLine rest) : Prefers targetPhrase (front ++ rest) ("target ".toList ++ rest) [] :=
  .bind (prefers_words h rest) (.bind (.line hline.1 hline.2) (.pure _ []))

theorem prefers_damage {n front rest : List Char} (h : Framed dealForms n [" damage to "] front)
    (hline : IsLine rest) :
    Prefers damage (front ++ rest) ((Target.ofPhrase? rest).bind fun target =>
      (ofAmount .dealDamage n).map fun effect => effect.withTarget target) [] := by
  obtain ⟨head, tail, rfl, hhead, htail⟩ := h.parts
  obtain ⟨subject, _, rfl, hsubject, hverb⟩ := hhead.split
  obtain ⟨deal, _, rfl, hdeal, hforms⟩ := hverb.split
  obtain ⟨s, blank, rfl, hs, hblank⟩ := hforms.split
  have hnext : Starts [" "] (tail ++ rest) := (htail.starts.append rest).shorten (by decide)
  obtain ⟨there, hthere⟩ := prefers_subject hsubject
    (hdeal.starts.append (s ++ (blank ++ (n ++ (tail ++ rest)))))
  have hmade : (do
        let target ← Target.ofPhrase? rest
        let effect ← ofAmount .dealDamage n
        pure (effect.withTarget target)) =
      (Target.ofPhrase? rest).bind fun target =>
        (ofAmount .dealDamage n).map fun effect => effect.withTarget target := by
    cases Target.ofPhrase? rest with
    | none => rfl
    | some target => cases ofAmount .dealDamage n <;> rfl
  rw [← hmade]
  simp only [List.append_assoc]
  exact .bind hthere (.bind (prefers_words hdeal _) (.bind (prefers_optionalS hs (hblank.starts.append _))
    (.bind (prefers_words hblank _) (.bind (prefers_amount h.ne_nil h.isWord hnext)
      (.bind (prefers_words htail rest) (.bind (.line hline.1 hline.2) (.pure _ [])))))))

/-- A verb, and behind it a target phrase with a count. -/
theorem prefers_counted {n front rest : List Char} {verb : String}
    (h : Framed (glue [verb] ["up to "]) n (glue [" "] ["target "]) front) (hline : IsLine rest) :
    ∃ start text, front ++ rest = start ++ text ∧ Spells [verb] start ∧
      Prefers countedPhrase text ("up to ".toList ++ n ++ [' '] ++ ("target ".toList ++ rest)) [] := by
  obtain ⟨head, tail, rfl, hhead, htail⟩ := h.parts
  obtain ⟨start, up, rfl, hstart, hup⟩ := hhead.split
  obtain ⟨blank, front, rfl, hblank, hfront⟩ := htail.split
  refine ⟨start, up ++ (n ++ (blank ++ (front ++ rest))), by simp, hstart, ?_⟩
  have hcount : Prefers (do words "up to "; let n ← amount; words " "; pure n)
      (up ++ (n ++ (blank ++ (front ++ rest)))) n (front ++ rest) :=
    .bind (prefers_words hup _) (.bind (prefers_amount h.ne_nil h.isWord (hblank.starts.append _))
      (.bind (prefers_words hblank _) (.pure n _)))
  exact .bind hcount.maybe (.bind (prefers_targetPhrase hfront hline) (.pure _ []))

theorem prefers_uncounted {front rest : List Char} (h : Spells ["target "] front)
    (hline : IsLine rest) : Prefers countedPhrase (front ++ rest) ("target ".toList ++ rest) [] := by
  have hapart : Apart ["target "] ["up to "] := by decide
  have hcount : words "up to " (front ++ rest) = [] := words_eq_nil fun hstart =>
    hapart.not_starts (h.starts.append rest) ⟨"up to ", List.mem_singleton_self _, hstart⟩
  exact .bind (.nothing (bind_eq_nil hcount _)) (.bind (prefers_targetPhrase h hline) (.pure _ []))

theorem single?_of_prefers {i : Nat} {rule : Rule} {heads : List String} {s : List Char}
    {effect? : Option Effect} (hi : openings[i]? = some (rule, heads))
    (hapart : ∀ opening ∈ openings.eraseIdx i, Apart heads opening.2) (hstart : Starts heads s)
    (h : Prefers rule s effect? []) : single? s = effect? := by
  rw [single?_eq hi hapart hstart, h.read?]
  rfl

theorem single?_of_counted {kind : EffectKind} {verb : String} (hverb : (kind, verb) ∈ countedVerbs)
    {start text phrase : List Char} (hstart : Spells [verb] start)
    (h : Prefers countedPhrase text phrase []) : single? (start ++ text) = onTarget kind phrase := by
  simp only [countedVerbs, List.mem_cons, Prod.mk.injEq, List.not_mem_nil, or_false] at hverb
  rcases hverb with ⟨rfl, rfl⟩ | ⟨rfl, rfl⟩
  · exact single?_of_prefers (i := 7) rfl (by decide) (hstart.starts.append text)
      (.bind (prefers_words hstart text) (.bind h (.pure _ [])))
  · have hwhat : Prefers (Reader.oneOf ([] ++ (some <$> countedPhrase) ::
        [(do selfWords; pure none)] : List (Reader (Option (List Char))))) text (some phrase) [] :=
      .oneOf (by simp) (.bind h (.pure (some phrase) []))
    exact single?_of_prefers (i := 8) rfl (by decide) (hstart.starts.append text)
      (.bind (prefers_words hstart text) (.bind hwhat (.pure _ [])))

/-- A clause that starts like one with a target phrase at its end is read with whatever phrase follows. -/
theorem single?_of_opening {front lead rest : List Char} {build : Target → Option Effect}
    (h : Opening front lead build) (hline : IsLine rest) :
    single? (front ++ rest) = (Target.ofPhrase? (lead ++ rest)).bind build := by
  cases h with
  | damage words =>
    exact single?_of_prefers (i := 1) rfl (by decide) (words.starts.append rest)
      (prefers_damage words hline)
  | counter words =>
    obtain ⟨start, front, rfl, hstart, hfront⟩ := words.split
    have hmade : (onTarget .counterSpell ("target ".toList ++ rest)).filter (fun effect =>
        effect.targets.head?.any fun target => target.kind == .spell) =
      (Target.ofPhrase? ("target ".toList ++ rest)).bind fun target =>
        (some ((Effect.make .counterSpell 1).withTarget target)).filter fun effect =>
          effect.targets.head?.any fun target => target.kind == .spell := by
      rw [onTarget]
      cases Target.ofPhrase? ("target ".toList ++ rest) <;> rfl
    rw [← hmade, List.append_assoc]
    exact single?_of_prefers (i := 6) rfl (by decide) (hstart.starts.append (front ++ rest))
      (.bind (prefers_words hstart _) (.bind (prefers_targetPhrase hfront hline) (.pure _ [])))
  | @named kind verb _ hverb words =>
    obtain ⟨start, front, rfl, hstart, hfront⟩ := words.split
    rw [← onTarget_eq_bind, List.append_assoc]
    simp only [targetVerbs, List.mem_cons, Prod.mk.injEq] at hverb
    rcases hverb with ⟨rfl, rfl⟩ | ⟨rfl, rfl⟩ | hverb
    · exact single?_of_prefers (i := 5) rfl (by decide) (hstart.starts.append (front ++ rest))
        (.bind (prefers_words hstart _) (.bind (prefers_targetPhrase hfront hline) (.pure _ [])))
    · exact single?_of_prefers (i := 10) rfl (by decide) (hstart.starts.append (front ++ rest))
        (.bind (prefers_words hstart _) (.bind (prefers_targetPhrase hfront hline) (.pure _ [])))
    · exact single?_of_counted hverb hstart (prefers_uncounted hfront hline)
  | upTo hverb words =>
    obtain ⟨start, text, hsplit, hstart, htext⟩ := prefers_counted words hline
    rw [hsplit, ← onTarget_eq_bind, List.append_assoc _ "target ".toList]
    exact single?_of_counted hverb hstart htext

end CardRules.Clause
