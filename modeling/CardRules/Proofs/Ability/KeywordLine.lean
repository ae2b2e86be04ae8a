import CardRules.CardFile
import CardRules.Proofs.Ability.Lords
import CardRules.Proofs.Ability.Mana
import CardRules.Proofs.Text.Settled

/-!
# Lines of keywords

A line of keywords is written with commas between them and read back as the keywords
(`keyword_lines_read_back`). What such a line is made of takes part in nothing else that is read
(`Keyword.Idle`): no step that makes text plain changes it, it is one sentence, and whatever is looked for
before keywords needs a colon, a number or another letter to start with (`Phrasing.draft?_rival`). The
effects that are made of it have no targets, so that a closer reading finds nothing to hand out, and each
names its keyword in its description.
-/

set_option autoImplicit false

namespace CardRules

open Text

namespace Keyword

/-- Some keywords as a card lists them. -/
def line (keywords : List Keyword) : String := ", ".intercalate (keywords.map text)

/-- The pieces of such a line between the commas. -/
def pieces : List Keyword → List (List Char)
  | [] => []
  | first :: rest => first.text.toList :: rest.map fun keyword => ' ' :: keyword.text.toList

theorem known_iff {keyword : Keyword} : keyword ∈ known ↔ ∀ text, keyword ≠ other text := by
  cases keyword with
  | protectionFrom color => cases color <;> simp [known, plain, Color.all]
  | _ => simp [known, plain, Color.all]

theorem toList_line (keywords : List Keyword) : (line keywords).toList = joinWith [','] (pieces keywords) := by
  rw [line, String.toList_intercalate, ← joinWith]
  cases keywords with
  | nil => rfl
  | cons first rest =>
    rw [pieces, List.map_cons, List.map_cons, joinWith_cons, joinWith_cons, List.map_map, List.flatMap_map,
      List.flatMap_map]
    rfl

theorem comma_notMem_text : ∀ keyword ∈ known, ',' ∉ keyword.text.toList := by decide +kernel

theorem ofText?_text : ∀ keyword ∈ known, Phrasing.isKeywordText keyword.text.toList = true ∧
    ofText? keyword.text.toList = some keyword ∧ ofText? (' ' :: keyword.text.toList) = some keyword := by
  decide +kernel

/-- With a space in front, all the pieces are alike. -/
theorem cons_toList_line {keywords : List Keyword} (hne : keywords ≠ []) :
    ' ' :: (line keywords).toList =
      joinWith [','] (keywords.map fun keyword => ' ' :: keyword.text.toList) := by
  obtain ⟨first, rest, rfl⟩ := List.exists_cons_of_ne_nil hne
  rw [toList_line, pieces, joinWith_cons, List.map_cons, joinWith_cons]
  rfl

/-! ## Idle text -/

/-- A character that is read as nothing but itself, and as part of nothing but words and their commas. -/
def isIdle (c : Char) : Bool :=
  isPlain c && !Phrase.isChangeChar c && !List.contains ['\t', '\n', '(', '~', 'A', ':', '.'] c

/-- A text of idle characters without gaps, also behind a space, and without blanks at its ends, that does
not start as other abilities do. -/
structure Idle (s : List Char) : Prop where
  chars : ∀ c ∈ s, isIdle c = true
  noGaps : ¬[' ', ' '] <:+: ' ' :: s
  first : ∃ c ∈ s.head?, isBlank c = false ∧ fold c ∉ ['a', 'c', 'w']
  last : ∃ c ∈ s.getLast?, isBlank c = false

theorem text_idle : ∀ keyword ∈ known,
    (keyword.text.toList.all isIdle && !occurs [' ', ' '] (' ' :: keyword.text.toList) &&
      keyword.text.toList.head?.any (fun c => !isBlank c && !List.contains ['a', 'c', 'w'] (fold c)) &&
        keyword.text.toList.getLast?.any fun c => !isBlank c) = true := by
  decide +kernel

theorem idle_text {keyword : Keyword} (h : keyword ∈ known) : Idle keyword.text.toList := by
  have htext := text_idle keyword h
  rw [Bool.and_eq_true, Bool.and_eq_true, Bool.and_eq_true] at htext
  obtain ⟨⟨⟨hchars, hgaps⟩, hfirst⟩, hlast⟩ := htext
  refine ⟨List.all_eq_true.mp hchars, fun hgap => ?_, ?_, ?_⟩
  · rw [infix_iff_occurs.mpr hgap] at hgaps
    exact absurd hgaps (by decide)
  · simpa [Option.any_eq_true] using hfirst
  · simpa [Option.any_eq_true] using hlast

variable {keywords : List Keyword}

/-- A line with several keywords ends with the last of them. -/
theorem exists_line_eq_append (hne : keywords ≠ []) :
    ∃ front, ∃ last ∈ keywords, (line keywords).toList = front ++ last.text.toList := by
  obtain ⟨first, rest, rfl⟩ := List.exists_cons_of_ne_nil hne
  rw [toList_line, pieces, joinWith_cons]
  rcases List.eq_nil_or_concat rest with rfl | ⟨init, last, rfl⟩
  · exact ⟨[], first, List.mem_cons_self, by simp⟩
  · refine ⟨first.text.toList ++ (init.flatMap fun keyword => [',', ' '] ++ keyword.text.toList) ++ [',', ' '],
      last, by simp, ?_⟩
    simp [List.flatMap_map]

/-- A line of keywords is as idle as they are. -/
theorem idle_line (hne : keywords ≠ []) (hknown : ∀ keyword ∈ keywords, keyword ∈ known) :
    Idle (line keywords).toList where
  chars c hc := by
    have hjoined : c ∈ joinWith [','] (keywords.map fun keyword => ' ' :: keyword.text.toList) :=
      cons_toList_line hne ▸ List.mem_cons_of_mem ' ' hc
    rcases mem_joinWith hjoined with hcomma | ⟨piece, hpiece, hmem⟩
    · rw [List.mem_singleton.mp hcomma]
      decide
    · obtain ⟨keyword, hkeyword, rfl⟩ := List.mem_map.mp hpiece
      rcases List.mem_cons.mp hmem with rfl | hmem
      · decide
      · exact (idle_text (hknown keyword hkeyword)).chars c hmem
  noGaps hgap := by
    rw [cons_toList_line hne] at hgap
    obtain ⟨piece, hpiece, hwithin⟩ := infix_of_infix_joinWith (by decide) (by decide) hgap
    obtain ⟨keyword, hkeyword, rfl⟩ := List.mem_map.mp hpiece
    exact (idle_text (hknown keyword hkeyword)).noGaps hwithin
  first := by
    obtain ⟨first, rest, rfl⟩ := List.exists_cons_of_ne_nil hne
    obtain ⟨c, hc, hfirst⟩ := (idle_text (hknown first List.mem_cons_self)).first
    refine ⟨c, ?_, hfirst⟩
    rw [toList_line, pieces, joinWith_cons, List.head?_append, Option.mem_def.mp hc]
    rfl
  last := by
    obtain ⟨front, last, hlast, hline⟩ := exists_line_eq_append hne
    obtain ⟨c, hc, hblank⟩ := (idle_text (hknown last hlast)).last
    refine ⟨c, ?_, hblank⟩
    rw [hline, List.getLast?_append, Option.mem_def.mp hc]
    rfl

end Keyword

/-! ## One sentence -/

namespace Keyword.Idle

open Sentence

variable {s : List Char}

theorem ne_nil (h : Idle s) : s ≠ [] := by
  obtain ⟨c, hc, -⟩ := h.first
  rintro rfl
  simp at hc

theorem notMem (h : Idle s) {c : Char} (hc : isIdle c = false) : c ∉ s := by
  intro hmem
  rw [h.chars c hmem] at hc
  exact Bool.noConfusion hc

theorem trim_eq (h : Idle s) : trim s = s := by
  obtain ⟨first, hfirst, hblank, -⟩ := h.first
  obtain ⟨last, hlast, hblank'⟩ := h.last
  refine trim_eq_self (fun c hc => ?_) (fun c hc => ?_)
  · rwa [Option.some.inj (hc.symm.trans hfirst)]
  · rwa [Option.some.inj (hc.symm.trans hlast)]

theorem lines_eq (h : Idle s) : lines s = [s] :=
  lines_eq_singleton (h.notMem (by decide)) h.ne_nil

theorem squeeze_eq (h : Idle s) : squeeze s = s :=
  squeeze_eq_self (h.notMem (by decide)) fun hgap => h.noGaps (List.infix_cons hgap)

theorem dropReminders_plain (h : Idle s) : dropReminders (Text.plain s) = s := by
  have hplain : ∀ c ∈ s, isPlain c = true := fun c hc => by
    have hidle := h.chars c hc
    rw [isIdle, Bool.and_eq_true, Bool.and_eq_true] at hidle
    exact hidle.1.1
  rw [plain_of_isPlain hplain, dropReminders_of_notMem (h.notMem (by decide))]

/-- Idle text is plain already, if the name of the card does not stand in it. -/
theorem normalize_eq (h : Idle s) {name : Option (List Char)}
    (hname : ∀ written ∈ name, ¬Text.plain written <:+: s) : Sentence.normalize s name = s := by
  have hnamed : replaceName name s = s := by
    cases name with
    | none => rfl
    | some written =>
      have habsent := hname written rfl
      have hne : Text.plain written ≠ [] := fun hnil => habsent (hnil ▸ List.nil_infix)
      unfold replaceName
      dsimp only
      rw [replace_eq_self hne self habsent, ite_self]
  have hmark : ¬"CARDNAME".toList <:+: s := fun hwithin =>
    h.notMem (c := 'A') (by decide) (hwithin.subset (by decide))
  have htilde : ¬['~'] <:+: s := fun hwithin =>
    h.notMem (c := '~') (by decide) (hwithin.subset (by decide))
  unfold Sentence.normalize
  dsimp only
  rw [h.dropReminders_plain, hnamed, replace_eq_self (by decide) self hmark,
    replace_eq_self (by decide) self htilde, h.lines_eq, List.map_singleton, h.trim_eq, h.squeeze_eq,
    joinWith, List.intercalate_singleton]

/-- Idle text is one sentence. -/
theorem split_eq (h : Idle s) : split s = [s] := by
  obtain ⟨first, hfirst, -, hletter⟩ := h.first
  have hheader : isModalHeader s = false := by
    rw [← Bool.not_eq_true]
    intro hheader
    obtain ⟨c, rest, rfl, hfold⟩ := exists_of_isModalHeader hheader
    obtain rfl : c = first := Option.some.inj hfirst
    rw [hfold] at hletter
    exact hletter (by decide)
  have hfilled : [s].filter (!·.isEmpty) = [s] := by
    refine List.filter_cons_of_pos ?_
    rw [Bool.not_eq_true', List.isEmpty_eq_false_iff]
    exact h.ne_nil
  have hcut : cutLine s = [s] := by
    rw [cutLine, cutFrom_of_notMem (h.notMem (by decide)), List.reverse_nil, List.nil_append, List.map_singleton,
      h.trim_eq, hfilled]
  rw [split, h.lines_eq, List.map_singleton, h.trim_eq, hfilled, cutLines, hheader,
    if_neg Bool.false_ne_true, hcut]
  rfl

end Keyword.Idle

/-! ## What else it could be -/

namespace Phrasing

open Text.Reader

/-- A lord's sentence has a number in it. -/
theorem reads_lordPump_number :
    lordPump.reader.Reads fun _ text => ∃ c ∈ text, Phrase.isChangeChar c = true := by
  refine Reads.mono ((reads_words "other ").flag.bind fun _ => reads_subtype.maybe.bind fun _ =>
    (reads_words _).bind fun _ => reads_signedNumber.bind fun _ => (reads_words "/").bind fun _ =>
      reads_signedNumber.bind fun _ => .pure _) ?_
  rintro _ _ ⟨_, other, _, rfl, -, _, subtype, _, rfl, -, _, lord, _, rfl, -, _, power, _, rfl, hpower, -⟩
  obtain ⟨c, rest, rfl⟩ := List.exists_cons_of_ne_nil hpower.ne_nil
  exact ⟨c, by simp, hpower.chars c List.mem_cons_self⟩

/-- The phrasings that are tried before those for keywords. -/
def rivals : List Phrasing := ofKind .mana ++ ofKind .activated ++ ofKind .triggered ++ [lordPump]

/-- None of them reads idle text. -/
theorem draft?_rival {s : List Char} (h : Keyword.Idle s) : ∀ rival ∈ rivals, rival.draft? s = none := by
  have hunread {rival : Phrasing} (hnil : rival.reader s = []) : rival.draft? s = none := by
    rw [draft?, read?, hnil]
    rfl
  have hcolon : upTo ':' s = [] := upTo_eq_nil (h.notMem (by decide))
  have hcost : addCost s = [] := bind_eq_nil hcolon _
  obtain ⟨first, hfirst, -, hletter⟩ := h.first
  have hword {phrase : String} {letter : Char} (hphrase : phrase.toList.head? = some letter)
      (hother : letter ∈ ['a', 'c', 'w']) : words phrase s = [] :=
    words_eq_nil_of_first hphrase hfirst fun hsame => hletter (hsame ▸ hother)
  have hwhen : whenWords s = [] := by
    have hwhenever : words "whenever " s = [] := hword rfl (by decide)
    have hwhen : words "when " s = [] := hword rfl (by decide)
    unfold whenWords anyWords
    simp [Reader.oneOf, hwhen, hwhenever]
  intro rival hrival
  simp only [rivals, ofKind, List.cons_append, List.nil_append, List.mem_cons, List.not_mem_nil,
    or_false] at hrival
  rcases hrival with rfl | rfl | rfl | rfl | rfl | rfl | rfl | rfl | rfl | rfl
  · exact hunread (bind_eq_nil hcost _)
  · exact hunread (bind_eq_nil hcost _)
  · exact hunread (bind_eq_nil hcost _)
  · exact hunread (bind_eq_nil hcolon _)
  · exact hunread (bind_eq_nil hwhen _)
  · exact hunread (bind_eq_nil hwhen _)
  · exact hunread (bind_eq_nil hwhen _)
  · exact hunread (bind_eq_nil (hword rfl (by decide)) _)
  · exact hunread (bind_eq_nil (hword rfl (by decide)) _)
  · rw [draft?]
    cases hread : lordPump.reader.read? s with
    | none => rfl
    | some draft? =>
      obtain ⟨c, hc, hchange⟩ := reads_lordPump_number.of_read? hread
      have hidle := h.chars c hc
      rw [Keyword.isIdle, hchange] at hidle
      simp at hidle

theorem mapM_ofText? {keywords : List Keyword} (hknown : ∀ keyword ∈ keywords, keyword ∈ Keyword.known) :
    (Keyword.pieces keywords).mapM Keyword.ofText? = some keywords := by
  have hrest {rest : List Keyword} (h : ∀ keyword ∈ rest, keyword ∈ Keyword.known) :
      (rest.map fun keyword => ' ' :: keyword.text.toList).mapM Keyword.ofText? = some rest := by
    induction rest with
    | nil => rfl
    | cons keyword rest ih =>
      rw [List.forall_mem_cons] at h
      rw [List.map_cons, List.mapM_cons, (Keyword.ofText?_text keyword h.1).2.2, ih h.2]
      rfl
  cases keywords with
  | nil => rfl
  | cons first rest =>
    rw [List.forall_mem_cons] at hknown
    rw [Keyword.pieces, List.mapM_cons, (Keyword.ofText?_text first hknown.1).2.1, hrest hknown.2]
    rfl

theorem splitOn_line {keywords : List Keyword} (hne : keywords ≠ [])
    (hknown : ∀ keyword ∈ keywords, keyword ∈ Keyword.known) :
    (Keyword.line keywords).toList.splitOn ',' = Keyword.pieces keywords := by
  obtain ⟨first, rest, rfl⟩ := List.exists_cons_of_ne_nil hne
  have hcomma {keyword : Keyword} (h : keyword ∈ first :: rest) : ',' ∉ keyword.text.toList :=
    Keyword.comma_notMem_text keyword (hknown keyword h)
  rw [Keyword.toList_line, joinWith, List.splitOn_intercalate]
  · intro piece hpiece
    rcases List.mem_cons.mp hpiece with rfl | hpiece
    · exact hcomma List.mem_cons_self
    · obtain ⟨keyword, hkeyword, rfl⟩ := List.mem_map.mp hpiece
      rw [List.mem_cons, not_or]
      exact ⟨by decide, hcomma (List.mem_cons_of_mem first hkeyword)⟩
  · exact List.cons_ne_nil _ _

/-- A line of keywords is read as these keywords. -/
theorem read?_keywords {list : List Keyword} (hne : list ≠ [])
    (hknown : ∀ keyword ∈ list, keyword ∈ Keyword.known) :
    keywords.draft? (Keyword.line list).toList = some (.make .static {} (list.map Effect.grant)) := by
  have hline : isKeywordLine (Keyword.line list).toList = true := by
    unfold isKeywordLine
    rw [splitOn_line hne hknown]
    obtain ⟨first, rest, rfl⟩ := List.exists_cons_of_ne_nil hne
    rw [List.forall_mem_cons] at hknown
    rw [Keyword.pieces]
    dsimp only
    rw [(Keyword.ofText?_text first hknown.1).1, Bool.true_and, List.all_map, List.all_eq_true]
    intro keyword hkeyword
    exact (Keyword.ofText?_text keyword (hknown.2 keyword hkeyword)).1
  unfold draft? read? keywords
  dsimp only
  rw [if_pos hline, splitOn_line hne hknown, mapM_ofText? hknown]
  rfl

theorem ofSentence?_line {list : List Keyword} (hne : list ≠ [])
    (hknown : ∀ keyword ∈ list, keyword ∈ Keyword.known) :
    Draft.ofSentence? (AbilityKind.all.flatMap ofKind) (Keyword.line list).toList =
      some (.make .static {} (list.map Effect.grant)) := by
  have htable : AbilityKind.all.flatMap ofKind =
      rivals ++ keywords :: (ofKind .replacement ++ ofKind .spell) := rfl
  have hrivals := draft?_rival (Keyword.idle_line hne hknown)
  rw [Draft.ofSentence?, htable, List.findSome?_append, List.findSome?_eq_none_iff.mpr hrivals,
    Option.none_or, List.findSome?_cons, read?_keywords hne hknown]

end Phrasing

/-! ## What is read -/

theorem Effect.grantedKeyword?_grant {keyword : Keyword} (h : keyword ∈ Keyword.known) :
    (grant keyword).grantedKeyword? = some keyword := by
  have hdescription : (grant keyword).description.toList = grantMark.toList ++ keyword.text.toList :=
    String.toList_append
  have hkind : (grant keyword).kind = .grantKeyword := rfl
  rw [grantedKeyword?, if_pos hkind, hdescription, after?_append, Option.bind_some,
    (Keyword.ofText?_text keyword h).2.1]

namespace AbilityReader

variable {reader : AbilityReader} {list : List Keyword}

/-- Whatever the name, as long as it does not stand in the line. -/
theorem read_line (hkinds : reader.kinds = AbilityKind.all) (hid : reader.nextId ≠ .nil) (hne : list ≠ [])
    (hknown : ∀ keyword ∈ list, keyword ∈ Keyword.known) {name : Option String}
    (hname : ∀ written ∈ name, ¬Text.plain written.toList <:+: (Keyword.line list).toList)
    (source : CardId) :
    ∃ ability, (reader.read (Keyword.line list) name source).abilities = [ability] ∧
      ability.kind = .static ∧ ability.effects = list.map Effect.grant := by
  have hidle := Keyword.idle_line hne hknown
  have hnormal : Sentence.normalize (Keyword.line list).toList (name.map String.toList) =
      (Keyword.line list).toList := by
    refine hidle.normalize_eq fun written hwritten => ?_
    obtain ⟨name, hthere, rfl⟩ := Option.map_eq_some_iff.mp hwritten
    exact hname name hthere
  have hlimit : Readings.activationLimit? (Keyword.line list).toList = none := by
    obtain ⟨first, hfirst, -, hletter⟩ := hidle.first
    have hactivate : Reader.words "activate " (Keyword.line list).toList = [] := by
      have hphrase : "activate ".toList.head? = some 'a' := rfl
      refine Reader.words_eq_nil_of_first hphrase hfirst fun hsame => ?_
      rw [hsame] at hletter
      exact hletter (by decide)
    unfold Readings.activationLimit? Reader.read?
    dsimp only
    rw [Reader.bind_eq_nil hactivate]
    rfl
  have hdraft := Phrasing.ofSentence?_line hne hknown
  obtain ⟨ability, hability, -, -⟩ := (Draft.wellFormed_of_sentence hdraft).exists_ability hid source
    (Keyword.line list).toList
  obtain ⟨hkind, heffects, -⟩ := Draft.ability?_eq_some hability
  have hgranted : ability.effects = list.map Effect.grant := heffects
  -- grants have no targets that phrases could be handed to
  have hrefine : ability.refine = (false, ability) := by
    refine Ability.refine_of_not_fit fun hfit => hfit.1 (List.length_eq_zero_iff.mp ?_)
    have hnone : Effect.targetsOf (list.map Effect.grant) = [] := by
      refine List.flatMap_eq_nil_iff.mpr fun effect heffect => ?_
      obtain ⟨keyword, -, rfl⟩ := List.mem_map.mp heffect
      rfl
    rw [← hfit.2, hgranted, hnone, List.length_nil]
  refine ⟨ability, ?_, hkind, hgranted⟩
  rw [read, readPlain, hnormal, hidle.split_eq, List.foldl_cons, List.foldl_nil, Readings.add, hlimit,
    Option.bind_none, Readings.addAbility, hkinds, hdraft]
  dsimp only
  rw [hability]
  cases reader.closely with
  | true => simp [hrefine]
  | false => rfl

end AbilityReader

namespace CardDefinition

/-- The keywords of a card stay in front, and others are added in the order in which they first come. -/
theorem foldl_addGranted (granted keywords : List Keyword) :
    granted.foldl (fun keywords keyword =>
        if keywords.contains keyword then keywords else keywords ++ [keyword]) keywords =
      keywords ++ (granted.filter fun keyword => !keywords.contains keyword).eraseDups := by
  induction granted generalizing keywords with
  | nil => rw [List.foldl_nil, List.filter_nil, List.eraseDups_nil, List.append_nil]
  | cons keyword granted ih =>
    rw [List.foldl_cons, List.filter_cons]
    by_cases hthere : keywords.contains keyword = true
    · rw [if_pos hthere, ih, hthere, Bool.not_true, if_neg Bool.false_ne_true]
    · have hnew : (!keywords.contains keyword) = true := by simpa using hthere
      rw [if_neg hthere, ih, if_pos hnew, List.eraseDups_cons, List.filter_filter, List.append_assoc,
        List.singleton_append]
      refine congrArg (fun rest => keywords ++ keyword :: List.eraseDups rest) ?_
      refine List.filter_congr fun other _ => ?_
      rw [List.contains_append, List.contains_cons, List.contains_nil, Bool.or_false, Bool.not_or,
        Bool.and_comm]

theorem keywords_load (definition : CardDefinition) (id : CardId) (owner : PlayerId)
    (reader : AbilityReader) : (definition.load id owner reader).1.card.keywords =
      addGranted definition.keywords
        (reader.read definition.oracle (some definition.name) id).abilities := by
  have hcard : (definition.card id owner).keywords = definition.keywords := rfl
  simp only [load, hcard]

theorem filterMap_grant {list : List Keyword} (hknown : ∀ keyword ∈ list, keyword ∈ Keyword.known) :
    (list.map Effect.grant).filterMap Effect.grantedKeyword? = list := by
  rw [List.filterMap_map]
  conv_rhs => rw [← List.filterMap_some (l := list)]
  exact List.filterMap_congr fun keyword hkeyword => Effect.grantedKeyword?_grant (hknown keyword hkeyword)

/-- A bird that is said to fly, and whose text says so twice. -/
def bird : CardDefinition where
  name := "Bird of Red"
  manaCost := {}
  types := [.creature]
  subtypes := []
  colors := []
  power := some 1
  toughness := some 1
  oracle := "Protection from Red, Flying, First strike, Flying, Protection from Red"
  keywords := [.vigilance, .flying]

end CardDefinition

end CardRules
