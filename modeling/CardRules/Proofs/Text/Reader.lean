import CardRules.Text.Reader

/-!
# What readers can answer

A reader lists the ways to read a front part of a text, and what follows a reading chooses among them.
So what is said of an answer is best said of all the ways at once: `Yields P` holds of a reader if
whatever it reads from whatever text satisfies `P`. It is known of a sequence as soon as it is known of
what the sequence ends with, for every result of the parts before.

`Reads R` also says where an answer comes from: the text is a front part, which stands in the relation
`R` to the answer, and the rest. In a sequence the front parts stand one after the other.

`Prefers` goes the other way, from a text to the answer: it is the way that a reader prefers, and a
sequence prefers what its parts prefer, as long as one of them does not have to fall back.
-/

set_option autoImplicit false

namespace CardRules.Text.Reader

variable {α β : Type} {P : α → Prop}

/-- Whatever is read, in whatever way, satisfies `P`. -/
def Yields (P : α → Prop) (reader : Reader α) : Prop := ∀ s, ∀ way ∈ reader s, P way.1

theorem Yields.pure {a : α} (h : P a) : Yields P (pure a) := by
  intro s way hway
  rw [pure_run, List.mem_singleton] at hway
  rw [hway]
  exact h

theorem Yields.bind {reader : Reader β} {next : β → Reader α} (h : ∀ b, Yields P (next b)) :
    Yields P (reader >>= next) := by
  intro s way hway
  rw [bind_run, List.mem_flatMap] at hway
  obtain ⟨first, -, hrest⟩ := hway
  exact h first.1 first.2 way hrest

/-- What is known of the first part may be used for the others. -/
theorem Yields.bind_of {Q : β → Prop} {reader : Reader β} {next : β → Reader α} (hfirst : Yields Q reader)
    (h : ∀ b, Q b → Yields P (next b)) : Yields P (reader >>= next) := by
  intro s way hway
  rw [bind_run, List.mem_flatMap] at hway
  obtain ⟨first, hread, hrest⟩ := hway
  exact h first.1 (hfirst s first hread) first.2 way hrest

theorem Yields.map {reader : Reader β} {f : β → α} (h : ∀ b, P (f b)) : Yields P (f <$> reader) :=
  Yields.bind fun b => .pure (h b)

theorem Yields.oneOf {readers : List (Reader α)} (h : ∀ reader ∈ readers, Yields P reader) :
    Yields P (oneOf readers) := by
  intro s way hway
  obtain ⟨reader, hreader, hread⟩ := List.mem_flatMap.mp hway
  exact h reader hreader s way hread

theorem Yields.maybe {reader : Reader α} (h : Yields P reader) :
    Yields (fun a? => ∀ a ∈ a?, P a) (maybe reader) := by
  intro s way hway
  rw [Reader.maybe, List.mem_append] at hway
  cases hway with
  | inl hthere =>
    obtain ⟨read, hread, rfl⟩ := List.mem_map.mp hthere
    intro a ha
    rw [← Option.some.inj ha]
    exact h s read hread
  | inr hmissing =>
    rw [List.mem_singleton.mp hmissing]
    exact fun a ha => by simp at ha

/-- The answer to a whole text is among what can be read. -/
theorem Yields.of_read? {reader : Reader α} (h : Yields P reader) {s : List Char} {a : α}
    (hread : reader.read? s = some a) : P a := by
  obtain ⟨⟨b, rest⟩, hway, hwhole⟩ := List.exists_of_findSome?_eq_some hread
  dsimp only at hwhole
  split at hwhole
  · rw [← Option.some.inj hwhole]
    exact h s (b, rest) hway
  · simp at hwhole

/-! ## What was read, and from what -/

variable {R : α → List Char → Prop} {T : β → List Char → Prop}

/-- Whatever is read stands in the relation `R` to the front part that it was read from. -/
def Reads (R : α → List Char → Prop) (reader : Reader α) : Prop :=
  ∀ s, ∀ way ∈ reader s, ∃ front, s = front ++ way.2 ∧ R way.1 front

theorem Reads.mono {R' : α → List Char → Prop} {reader : Reader α} (h : Reads R reader)
    (himp : ∀ a front, R a front → R' a front) : Reads R' reader := by
  intro s way hway
  obtain ⟨front, hsplit, hread⟩ := h s way hway
  exact ⟨front, hsplit, himp way.1 front hread⟩

theorem Reads.pure (a : α) : Reads (fun b front => b = a ∧ front = []) (pure a) := by
  intro s way hway
  rw [pure_run, List.mem_singleton] at hway
  subst hway
  exact ⟨[], rfl, rfl, rfl⟩

theorem Reads.bind {reader : Reader β} {next : β → Reader α} {R : β → α → List Char → Prop}
    (hfirst : Reads T reader) (hnext : ∀ b, Reads (R b) (next b)) :
    Reads (fun a text => ∃ b front back, text = front ++ back ∧ T b front ∧ R b a back)
      (reader >>= next) := by
  intro s way hway
  rw [bind_run, List.mem_flatMap] at hway
  obtain ⟨first, hreader, hrest⟩ := hway
  obtain ⟨front, hsplit, hfront⟩ := hfirst s first hreader
  obtain ⟨back, hsplit', hback⟩ := hnext first.1 first.2 way hrest
  refine ⟨front ++ back, ?_, first.1, front, back, rfl, hfront, hback⟩
  rw [hsplit, hsplit', List.append_assoc]

/-- A whole text was read from the whole text. -/
theorem Reads.of_read? {reader : Reader α} (h : Reads R reader) {s : List Char} {a : α}
    (hread : reader.read? s = some a) : R a s := by
  obtain ⟨⟨b, rest⟩, hway, hwhole⟩ := List.exists_of_findSome?_eq_some hread
  obtain ⟨front, hsplit, hfront⟩ := h s _ hway
  dsimp only at hwhole hsplit
  split at hwhole
  · rename_i hempty
    rw [List.isEmpty_iff.mp hempty, List.append_nil] at hsplit
    rw [← Option.some.inj hwhole, hsplit]
    exact hfront
  · simp at hwhole

theorem reads_words (phrase : String) :
    Reads (fun _ front => front.map fold = phrase.toList) (words phrase) := by
  intro s way hway
  unfold words at hway
  generalize phrase.toList = letters at hway ⊢
  fun_induction words.go letters s with
  | case1 s =>
    rw [List.mem_singleton.mp hway]
    exact ⟨[], rfl, rfl⟩
  | case2 => simp at hway
  | case3 letter letters c s hc ih =>
    obtain ⟨front, hsplit, hfront⟩ := ih hway
    refine ⟨c :: front, ?_, ?_⟩
    · rw [List.cons_append, ← hsplit]
    · simp [hfront, beq_iff_eq.mp hc]
  | case4 => simp at hway

theorem Reads.oneOf {readers : List (Reader α)} (h : ∀ reader ∈ readers, Reads R reader) :
    Reads R (oneOf readers) := by
  intro s way hway
  obtain ⟨reader, hreader, hread⟩ := List.mem_flatMap.mp hway
  exact h reader hreader s way hread

theorem Reads.maybe {reader : Reader α} (h : Reads R reader) :
    Reads (fun there front => match there with
      | some a => R a front
      | none => front = []) (maybe reader) := by
  intro s way hway
  rw [Reader.maybe, List.mem_append] at hway
  rcases hway with hthere | hmissing
  · obtain ⟨way, hreader, rfl⟩ := List.mem_map.mp hthere
    exact h s way hreader
  · rw [List.mem_singleton.mp hmissing]
    exact ⟨[], rfl, rfl⟩

theorem Reads.flag {reader : Reader α} (h : Reads R reader) :
    Reads (fun there front => if there then ∃ a, R a front else front = []) (flag reader) := by
  intro s way hway
  rw [Reader.flag, List.mem_append] at hway
  rcases hway with hthere | hmissing
  · obtain ⟨way, hreader, rfl⟩ := List.mem_map.mp hthere
    obtain ⟨front, hsplit, hfront⟩ := h s way hreader
    exact ⟨front, hsplit, way.1, hfront⟩
  · rw [List.mem_singleton.mp hmissing]
    exact ⟨[], rfl, rfl⟩

theorem reads_oneChar (p : Char → Bool) :
    Reads (fun c front => front = [c] ∧ p c = true) (oneChar p) := by
  intro s way hway
  cases s with
  | nil => simp [oneChar] at hway
  | cons c s =>
    rw [oneChar] at hway
    split at hway
    · rename_i hc
      rw [List.mem_singleton.mp hway]
      exact ⟨[c], rfl, rfl, hc⟩
    · simp at hway

theorem reads_skip (p : Char → Bool) :
    Reads (fun _ front => ∀ c ∈ front, p c = true) (skip p) := by
  intro s way hway
  rw [List.mem_singleton.mp hway]
  exact ⟨s.takeWhile p, List.takeWhile_append_dropWhile.symm, List.all_eq_true.mp List.all_takeWhile⟩

theorem reads_runs (p : Char → Bool) :
    Reads (fun text front => text = front ∧ front ≠ [] ∧ ∀ c ∈ front, p c = true) (runs p) := by
  intro s way hway
  unfold runs at hway
  split at hway
  · rename_i hfirst
    rw [List.mem_singleton.mp hway]
    refine ⟨s.takeWhile p, List.takeWhile_append_dropWhile.symm, rfl, ?_,
      List.all_eq_true.mp List.all_takeWhile⟩
    cases s with
    | nil => simp at hfirst
    | cons c s => simp [List.takeWhile_cons_of_pos (show p c = true from hfirst)]
  · simp at hway

theorem reads_upTo (mark : Char) :
    Reads (fun text front => front = text ++ [mark] ∧ mark ∉ text) (upTo mark) := by
  intro s way hway
  have hfront : mark ∉ s.takeWhile (· != mark) := by
    intro hmem
    simpa using List.all_eq_true.mp List.all_takeWhile mark hmem
  have hsplit := List.takeWhile_append_dropWhile (p := (· != mark)) (l := s)
  have hstops := List.head?_dropWhile_not (· != mark) s
  unfold upTo at hway
  cases hdrop : s.dropWhile (· != mark) with
  | nil => cases htake : s.takeWhile (· != mark) <;> simp [htake, hdrop] at hway
  | cons c rest =>
    obtain rfl : c = mark := by simpa [hdrop] using hstops
    have hway : way = (s.takeWhile (· != c), rest) := by
      cases htake : s.takeWhile (· != c) with
      | nil => simp [htake] at hway
      | cons d front => simpa [htake, hdrop] using hway
    rw [hway]
    refine ⟨s.takeWhile (· != c) ++ [c], ?_, rfl, hfront⟩
    rw [List.append_assoc, List.singleton_append, ← hdrop, hsplit]

theorem reads_line : Reads (fun text front => text = front ∧ front ≠ [] ∧ ∀ c ∈ front, isInLine c = true)
    line := by
  intro s way hway
  unfold line lineOrNothing at hway
  split at hway
  · simp at hway
  · rename_i hne
    split at hway
    · rename_i hline
      rw [List.mem_singleton.mp hway]
      exact ⟨s, (List.append_nil s).symm, rfl, by simpa using hne, List.all_eq_true.mp hline⟩
    · simp at hway

theorem reads_lineOrNothing : Reads (fun text front => text = front) lineOrNothing := by
  intro s way hway
  unfold lineOrNothing at hway
  split at hway
  · rw [List.mem_singleton.mp hway]
    exact ⟨s, (List.append_nil s).symm, rfl⟩
  · simp at hway

theorem reads_atEnd : Reads (fun _ front => front = []) atEnd := by
  intro s way hway
  unfold atEnd at hway
  split at hway
  · rename_i hs
    rw [List.mem_singleton.mp hway, List.isEmpty_iff.mp hs]
    exact ⟨[], rfl, rfl⟩
  · simp at hway

theorem Reads.captured {reader : Reader α} (h : Reads R reader) :
    Reads (fun text front => text = front ∧ ∃ a, R a front) (captured reader) := by
  intro s way hway
  obtain ⟨read, hread, rfl⟩ := List.mem_map.mp hway
  obtain ⟨front, hsplit, hfront⟩ := h s read hread
  have htake : s.take (s.length - read.2.length) = front := by
    rw [hsplit, List.length_append, Nat.add_sub_cancel, List.take_left]
  exact ⟨front, hsplit, htake, read.1, hfront⟩

/-- What is read at the end is read from the end, whatever stands before it. -/
theorem Reads.behind {reader : Reader β} {next : β → Reader α} (hfirst : Reads T reader)
    (hnext : ∀ b, Reads (fun a text => ∃ back, back <:+ text ∧ R a back) (next b)) :
    Reads (fun a text => ∃ back, back <:+ text ∧ R a back) (reader >>= next) := by
  refine (hfirst.bind hnext).mono ?_
  rintro a _ ⟨_, front, rest, rfl, -, back, hback, hread⟩
  exact ⟨back, hback.trans (List.suffix_append front rest), hread⟩

/-- The characters before stand in front of what is read. -/
theorem Reads.before {reader : Reader α} (h : Reads R reader) :
    Reads (fun read text => ∃ back, text = read.1 ++ back ∧ R read.2 back) (before reader) := by
  have hgo (seen s : List Char) : ∀ way ∈ before.go reader seen s,
      ∃ back, seen.reverse ++ s = way.1.1 ++ back ++ way.2 ∧ R way.1.2 back := by
    induction s generalizing seen with
    | nil =>
      intro way hway
      rw [before.go, List.append_nil] at hway
      obtain ⟨way, hreader, rfl⟩ := List.mem_map.mp hway
      obtain ⟨back, hsplit, hback⟩ := h [] way hreader
      exact ⟨back, by rw [hsplit, List.append_assoc], hback⟩
    | cons c s ih =>
      intro way hway
      rw [before.go, List.mem_append] at hway
      rcases hway with hhere | hlater
      · obtain ⟨way, hreader, rfl⟩ := List.mem_map.mp hhere
        obtain ⟨back, hsplit, hback⟩ := h (c :: s) way hreader
        exact ⟨back, by rw [hsplit, List.append_assoc], hback⟩
      · split at hlater
        · simpa using ih (c :: seen) way hlater
        · simp at hlater
  intro s way hway
  cases s with
  | nil => simp [Reader.before] at hway
  | cons c s =>
    rw [Reader.before] at hway
    split at hway
    · obtain ⟨back, hsplit, hback⟩ := hgo [c] s way hway
      exact ⟨way.1.1 ++ back, by simpa using hsplit, back, rfl, hback⟩
    · simp at hway

/-- Repetitions stand one after the other. -/
theorem Reads.times {reader : Reader α} (h : Reads R reader) :
    Reads (fun as text => ∃ parts : List (α × List Char), as = parts.map (·.1) ∧
      text = parts.flatMap (·.2) ∧ ∀ part ∈ parts, R part.1 part.2) (times reader) := by
  intro s way hway
  rw [Reader.times, List.mem_singleton] at hway
  subst hway
  generalize s.length = n
  induction n generalizing s with
  | zero => exact ⟨[], rfl, [], rfl, rfl, by simp⟩
  | succ n ih =>
    rw [timesWithin]
    cases hfirst : (reader s).head? with
    | none => exact ⟨[], rfl, [], rfl, rfl, by simp⟩
    | some way =>
      obtain ⟨front, hsplit, hfront⟩ := h s way (List.mem_of_head? hfirst)
      obtain ⟨back, hrest, parts, has, hback, hparts⟩ := ih way.2
      refine ⟨front ++ back, ?_, (way.1, front) :: parts, ?_, ?_, ?_⟩
      · rw [List.append_assoc, ← hrest, ← hsplit]
      · simp [has]
      · simp [hback]
      · simpa using ⟨hfront, fun a b => hparts (a, b)⟩

/-! ## Texts that are not read -/

theorem bind_eq_nil {reader : Reader α} {s : List Char} (h : reader s = [])
    (next : α → Reader β) : (reader >>= next) s = [] := by
  rw [bind_run, h, List.flatMap_nil]

theorem upTo_eq_nil {mark : Char} {s : List Char} (h : mark ∉ s) : upTo mark s = [] := by
  refine List.eq_nil_iff_forall_not_mem.mpr fun way hway => ?_
  obtain ⟨front, hsplit, hfront, -⟩ := reads_upTo mark s way hway
  refine h ?_
  rw [hsplit, hfront]
  simp

/-! ## The preferred way -/

/-- From this text a reader prefers to read `a` and leave `rest`. -/
def Prefers (reader : Reader α) (s : List Char) (a : α) (rest : List Char) : Prop :=
  (reader s).head? = some (a, rest)

theorem Prefers.pure (a : α) (s : List Char) : Prefers (pure a) s a s := rfl

theorem Prefers.bind {reader : Reader β} {next : β → Reader α} {s mid rest : List Char} {b : β} {a : α}
    (hfirst : Prefers reader s b mid) (hnext : Prefers (next b) mid a rest) :
    Prefers (reader >>= next) s a rest := by
  obtain ⟨ways, hways⟩ := List.head?_eq_some_iff.mp hfirst
  obtain ⟨ways', hways'⟩ := List.head?_eq_some_iff.mp hnext
  rw [Prefers, bind_run, hways, List.flatMap_cons]
  show (next b mid ++ _).head? = _
  rw [hways']
  rfl

theorem Prefers.read? {reader : Reader α} {s : List Char} {a : α} (h : Prefers reader s a []) :
    reader.read? s = some a := by
  obtain ⟨ways, hways⟩ := List.head?_eq_some_iff.mp h
  rw [Reader.read?, hways]
  rfl

theorem words_append {phrase : String} {front : List Char} (h : front.map fold = phrase.toList)
    (s : List Char) : words phrase (front ++ s) = [((), s)] := by
  unfold words
  rw [← h]
  clear h
  induction front with
  | nil => rfl
  | cons c front ih =>
    rw [List.map_cons, List.cons_append, words.go, if_pos (beq_self_eq_true _)]
    exact ih

theorem words_eq_nil {phrase : String} {s : List Char} (h : ¬ phrase.toList <+: s.map fold) :
    words phrase s = [] := by
  cases hways : words phrase s with
  | nil => rfl
  | cons way ways =>
    obtain ⟨front, hsplit, hfront⟩ := reads_words phrase s way (by simp [hways])
    refine absurd ⟨way.2.map fold, ?_⟩ h
    rw [hsplit, List.map_append, hfront]

/-- What does not start with the first letter of a phrase does not start with the phrase. -/
theorem words_eq_nil_of_first {phrase : String} {s : List Char} {first letter : Char}
    (hphrase : phrase.toList.head? = some letter) (hfirst : first ∈ s.head?) (h : fold first ≠ letter) :
    words phrase s = [] := by
  refine words_eq_nil ?_
  rintro ⟨rest, hrest⟩
  have hhead : (s.map fold).head? = some (fold first) := by
    rw [List.head?_map, Option.mem_def.mp hfirst]
    rfl
  rw [← hrest, List.head?_append, hphrase] at hhead
  exact h (Option.some.inj hhead).symm

theorem Prefers.words {phrase : String} {front : List Char} (h : front.map fold = phrase.toList)
    (s : List Char) : Prefers (words phrase) (front ++ s) () s := by
  rw [Prefers, words_append h]
  rfl

theorem Prefers.runs {p : Char → Bool} {word : List Char} (hne : word ≠ [])
    (hword : ∀ c ∈ word, p c = true) {s : List Char} (hs : ∀ c ∈ s.head?, p c = false) :
    Prefers (runs p) (word ++ s) word s := by
  have htake : s.takeWhile p = [] := by
    cases s with
    | nil => rfl
    | cons c s => rw [List.takeWhile_cons_of_neg (by simp [hs c rfl])]
  have hdrop : s.dropWhile p = s := by
    cases s with
    | nil => rfl
    | cons c s => rw [List.dropWhile_cons_of_neg (by simp [hs c rfl])]
  have hfirst : (word ++ s).head?.any p = true := by
    cases word with
    | nil => exact absurd rfl hne
    | cons c word => exact hword c List.mem_cons_self
  rw [Prefers, Reader.runs, if_pos hfirst, List.takeWhile_append_of_pos hword,
    List.dropWhile_append_of_pos hword, htake, hdrop, List.append_nil]
  rfl

theorem Prefers.line {s : List Char} (hne : s ≠ []) (h : ∀ c ∈ s, isInLine c = true) :
    Prefers line s s [] := by
  rw [Prefers, Reader.line, if_neg (by simpa using hne), lineOrNothing, if_pos (List.all_eq_true.mpr h)]
  rfl

theorem Prefers.flag {reader : Reader α} {s rest : List Char} {a : α} (h : Prefers reader s a rest) :
    Prefers (flag reader) s true rest := by
  obtain ⟨ways, hways⟩ := List.head?_eq_some_iff.mp h
  rw [Prefers, Reader.flag, hways]
  rfl

theorem Prefers.no_flag {reader : Reader α} {s : List Char} (h : reader s = []) :
    Prefers (Reader.flag reader) s false s := by
  rw [Prefers, Reader.flag, h]
  rfl

theorem Prefers.maybe {reader : Reader α} {s rest : List Char} {a : α} (h : Prefers reader s a rest) :
    Prefers (maybe reader) s (some a) rest := by
  obtain ⟨ways, hways⟩ := List.head?_eq_some_iff.mp h
  rw [Prefers, Reader.maybe, hways]
  rfl

theorem Prefers.nothing {reader : Reader α} {s : List Char} (h : reader s = []) :
    Prefers (Reader.maybe reader) s none s := by
  rw [Prefers, Reader.maybe, h]
  rfl

/-- The first reader that reads anything is preferred. -/
theorem Prefers.oneOf {before after : List (Reader α)} {reader : Reader α} {s rest : List Char} {a : α}
    (hbefore : ∀ earlier ∈ before, earlier s = []) (h : Prefers reader s a rest) :
    Prefers (oneOf (before ++ reader :: after)) s a rest := by
  obtain ⟨ways, hways⟩ := List.head?_eq_some_iff.mp h
  rw [Prefers, Reader.oneOf, List.flatMap_append, List.flatMap_eq_nil_iff.mpr hbefore,
    List.flatMap_cons, hways]
  rfl

end CardRules.Text.Reader
