import CardRules.CardFile
import CardRules.Proofs.Text.Splitting
import Mathlib.Data.List.Infix

/-!
# Lines of a card file

Each line of a card file says one thing about the card or nothing (`Remark`), and is refused or not by itself,
whatever the lines before it said (`addLine_eq`). What two lines of different keys say is about different parts
of the card and can be added in either order (`Remark.addTo_comm`), and of two such lines at most one is
refused. So their order does not matter (`read_swap`).

What a file is refused for can be told from its lines as well: there is a size without a slash, no name, or no
card type (`read_refused_iff`).
-/

set_option autoImplicit false

namespace CardRules.CardFile

open Text

/-! ## What a line says -/

/-- The key and the value of a line, if it is no comment and has a colon. -/
def keyed? (line : List Char) : Option (String × List Char) :=
  if (trim line).head? = some '#' then none
  else (cut? [':'] (trim line)).map fun (key, value) => (String.ofList (trim key), trim value)

/-- What a line says about the card. -/
inductive Remark where
  | name (text : String)
  | manaCost (cost : ManaCost)
  | types (types : List CardType) (subtypes : List Subtype)
  | size (power toughness : Option Int8)
  | oracle (text : String)
  | keyword (keyword : Keyword)
  | nothing

namespace Remark

/-- The key of the lines that say such a thing. -/
def key? : Remark → Option String
  | .name _ => some "Name"
  | .manaCost _ => some "ManaCost"
  | .types _ _ => some "Types"
  | .size _ _ => some "PT"
  | .oracle _ => some "Oracle"
  | .keyword _ => some "K"
  | .nothing => none

/-- The entries with one more thing said. -/
def addTo (entries : Entries) : Remark → Entries
  | .name text => { entries with name := some text }
  | .manaCost cost => { entries with manaCost := cost }
  | .types named others =>
    { entries with types := entries.types ++ named, subtypes := entries.subtypes ++ others }
  | .size power toughness => { entries with power, toughness }
  | .oracle text => { entries with oracle := text }
  | .keyword word => { entries with keywords := entries.keywords ++ [word] }
  | .nothing => entries

/-- What is said under different keys can be added in either order. -/
theorem addTo_comm {first second : Remark} (h : ∀ key ∈ first.key?, key ∉ second.key?)
    (entries : Entries) : (first.addTo entries |> second.addTo) = (second.addTo entries |> first.addTo) := by
  cases first <;> cases second <;> first | rfl | exact absurd rfl (h _ rfl)

end Remark

/-- The subtype that a word of the type line stands for. -/
def subtype? (word : List Char) : Option Subtype :=
  if supertypes.any (·.toList == word) || (CardType.ofWord? word).isSome then none
  else some ⟨String.ofList word⟩

/-- What a line of a key says, if it is not refused. -/
def remark (key : String) (value : List Char) : Except Fault Remark :=
  let text := String.ofList value
  match key with
  | "Name" => .ok (.name text)
  | "ManaCost" => .ok (if text = "no cost" then .nothing else .manaCost (ManaCost.ofText value))
  | "Types" => .ok (.types ((words value).filterMap CardType.ofWord?) ((words value).filterMap subtype?))
  | "PT" => match cut? ['/'] value with
    | none => .error (.badCard (.badSize text))
    | some (power, toughness) => .ok (.size (small? (trim power)) (small? (trim toughness)))
  | "Oracle" => .ok (.oracle (String.ofList (replace ['\\', 'n'] ['\n'] value)))
  | "K" => .ok (.keyword ((Keyword.ofText? value).getD (.other text)))
  | _ => .ok .nothing

/-- A supertype is no card type. -/
theorem ofWord?_of_supertype {word : List Char} (h : supertypes.any (·.toList == word) = true) :
    CardType.ofWord? word = none := by
  obtain ⟨supertype, hmem, hword⟩ := List.any_eq_true.mp h
  have hnone : ∀ supertype ∈ supertypes, CardType.ofWord? supertype.toList = none := by decide
  rw [← eq_of_beq hword]
  exact hnone supertype hmem

theorem foldl_addTypeWord (entries : Entries) (words : List (List Char)) :
    words.foldl addTypeWord entries =
      (Remark.types (words.filterMap CardType.ofWord?) (words.filterMap subtype?)).addTo entries := by
  induction words generalizing entries with
  | nil => simp [Remark.addTo]
  | cons word words ih =>
    rw [List.foldl_cons, ih]
    unfold addTypeWord
    cases hsuper : supertypes.any (·.toList == word) with
    | true =>
      have hnone := ofWord?_of_supertype hsuper
      simp [hnone, subtype?, hsuper]
    | false =>
      cases htype : CardType.ofWord? word with
      | some type => simp [Remark.addTo, subtype?, htype]
      | none => simp [Remark.addTo, subtype?, htype, hsuper]

theorem addEntry_eq (entries : Entries) (key value : List Char) :
    addEntry entries key value = (remark (String.ofList key) value).map (·.addTo entries) := by
  unfold addEntry
  generalize String.ofList key = name
  dsimp only
  split
  · rfl
  · unfold remark
    dsimp only
    split <;> rfl
  · rw [foldl_addTypeWord]
    rfl
  · unfold remark
    dsimp only
    cases cut? ['/'] value <;> rfl
  · rfl
  · rfl
  · rename_i hname hcost htypes hsize horacle hkeyword
    rw [remark.eq_7 name value hname hcost htypes hsize horacle hkeyword]
    rfl

/-- A remark is one of its own key. -/
theorem key_of_remark {key : String} {value : List Char} {r : Remark} (h : remark key value = .ok r) :
    ∀ name ∈ r.key?, key = name := by
  unfold remark at h
  dsimp only at h
  split at h
  case h_4 =>
    split at h
    · exact absurd h nofun
    · obtain rfl := Except.ok.inj h
      exact fun name hname => Option.some.inj hname
  case h_2 =>
    obtain rfl := Except.ok.inj h
    split
    · exact nofun
    · exact fun name hname => Option.some.inj hname
  case h_7 =>
    obtain rfl := Except.ok.inj h
    exact nofun
  all_goals
    obtain rfl := Except.ok.inj h
    exact fun name hname => Option.some.inj hname

/-- Only a size can be refused: one without a slash. -/
theorem remark_eq_error_iff {key : String} {value : List Char} {fault : Fault} :
    remark key value = .error fault ↔
      key = "PT" ∧ '/' ∉ value ∧ fault = .badCard (.badSize (String.ofList value)) := by
  have hslash : '/' ∉ value ↔ cut? ['/'] value = none := by
    rw [cut?_eq_none_iff, List.singleton_infix_iff]
  rw [hslash]
  unfold remark
  dsimp only
  split
  case h_4 =>
    split
    · rename_i hnone
      simp [hnone, eq_comm]
    · rename_i hsome
      simp [hsome]
  all_goals simp_all

/-! ## Lines -/

/-- The key of a line, if it is no comment and has a colon. -/
def key? (line : List Char) : Option String := (keyed? line).map (·.1)

/-- What a line says, if it is not refused. -/
def remarkOf (line : List Char) : Except Fault Remark :=
  match keyed? line with
  | none => .ok .nothing
  | some (key, value) => remark key value

theorem key?_eq_none_iff {line : List Char} :
    key? line = none ↔ (trim line).head? = some '#' ∨ ':' ∉ trim line := by
  unfold key? keyed?
  rw [Option.map_eq_none_iff]
  split
  · rename_i hcomment
    simp [hcomment]
  · rename_i hcomment
    rw [Option.map_eq_none_iff, cut?_eq_none_iff, List.singleton_infix_iff]
    simp [hcomment]

theorem addLine_eq (entries : Entries) (line : List Char) :
    addLine entries line = (remarkOf line).map (·.addTo entries) := by
  unfold addLine remarkOf keyed?
  dsimp only
  split
  · rfl
  · cases cut? [':'] (trim line) with
    | none => rfl
    | some parts => exact addEntry_eq entries (trim parts.1) (trim parts.2)

theorem key_of_remarkOf {line : List Char} {r : Remark} (h : remarkOf line = .ok r) :
    ∀ name ∈ r.key?, key? line = some name := by
  unfold remarkOf at h
  unfold key?
  cases hkeyed : keyed? line with
  | none =>
    rw [hkeyed] at h
    obtain rfl := Except.ok.inj h
    exact nofun
  | some entry =>
    rw [hkeyed] at h
    intro name hname
    exact congrArg some (key_of_remark h name hname)

theorem key_of_remarkOf_error {line : List Char} {fault : Fault} (h : remarkOf line = .error fault) :
    key? line = some "PT" := by
  unfold remarkOf at h
  unfold key?
  cases hkeyed : keyed? line with
  | none =>
    rw [hkeyed] at h
    exact absurd h nofun
  | some entry =>
    rw [hkeyed] at h
    exact congrArg some (remark_eq_error_iff.mp h).1

/-- Two lines that do not have a key in common. A comment, a blank line or a line without a colon has
none. -/
def Apart (first second : List Char) : Prop := key? first = key? second → key? first = none

theorem addLine_comm {first second : List Char} (h : Apart first second) (entries : Entries) :
    (addLine entries first >>= fun entries => addLine entries second) =
      (addLine entries second >>= fun entries => addLine entries first) := by
  simp only [addLine_eq]
  cases hfirst : remarkOf first with
  | error fault =>
    cases hsecond : remarkOf second with
    | error fault' =>
      -- only sizes are refused, and these lines are not both sizes
      have hkey := key_of_remarkOf_error hfirst
      exact absurd (h (hkey.trans (key_of_remarkOf_error hsecond).symm)) (by simp [hkey])
    | ok r => rfl
  | ok r =>
    cases hsecond : remarkOf second with
    | error fault => rfl
    | ok r' =>
      refine congrArg Except.ok (Remark.addTo_comm ?_ entries)
      intro key hkey hkey'
      have hfirst := key_of_remarkOf hfirst key hkey
      exact absurd (h (hfirst.trans (key_of_remarkOf hsecond key hkey').symm)) (by simp [hfirst])

theorem readLines_swap {first second : List Char} (h : Apart first second)
    (front back : List (List Char)) (entries : Entries) :
    readLines entries (front ++ first :: second :: back) =
      readLines entries (front ++ second :: first :: back) := by
  induction front generalizing entries with
  | nil =>
    have hpair (first second : List Char) : readLines entries (first :: second :: back) =
        (addLine entries first >>= fun entries => addLine entries second) >>=
          fun entries => readLines entries back := by
      rw [readLines, bind_assoc]
      rfl
    rw [List.nil_append, List.nil_append, hpair, hpair, addLine_comm h]
  | cons line front ih =>
    rw [List.cons_append, List.cons_append, readLines, readLines]
    exact bind_congr ih

/-- Blanks at the ends of lines do not count. -/
theorem readLines_trim (entries : Entries) (lines : List (List Char)) :
    readLines entries (lines.map trim) = readLines entries lines := by
  induction lines generalizing entries with
  | nil => rfl
  | cons line lines ih =>
    have htrim : remarkOf (trim line) = remarkOf line := by
      unfold remarkOf keyed?
      rw [trim_trim]
    rw [List.map_cons, readLines, readLines, addLine_eq, addLine_eq, htrim]
    exact bind_congr ih

theorem read_swap {content content' : String} {front back : List (List Char)} {first second : List Char}
    (h : (lines content.toList).map trim = front ++ first :: second :: back)
    (h' : (lines content'.toList).map trim = front ++ second :: first :: back)
    (hapart : Apart first second) : read content = read content' := by
  unfold read
  rw [← readLines_trim, h, readLines_swap hapart, ← h', readLines_trim]

/-! ## Files that are refused -/

/-- A line for the size without a slash. -/
def LacksSlash (line : List Char) : Prop := ∃ value, keyed? line = some ("PT", value) ∧ '/' ∉ value

/-- A line for the types in which a word names one. -/
def NamesType (line : List Char) : Prop :=
  ∃ value, keyed? line = some ("Types", value) ∧ ∃ word ∈ words value, CardType.ofWord? word ≠ none

variable {entries after : Entries} {line : List Char}

theorem addLine_refused_iff (entries : Entries) :
    (∃ fault, addLine entries line = .error fault) ↔ LacksSlash line := by
  rw [addLine_eq]
  unfold remarkOf LacksSlash
  cases hkeyed : keyed? line with
  | none => simp [Except.map]
  | some entry =>
    obtain ⟨key, value⟩ := entry
    dsimp only
    constructor
    · rintro ⟨fault, hfault⟩
      cases hremark : remark key value with
      | error fault =>
        obtain ⟨rfl, hslash, -⟩ := remark_eq_error_iff.mp hremark
        exact ⟨value, rfl, hslash⟩
      | ok r =>
        rw [hremark] at hfault
        exact absurd hfault nofun
    · rintro ⟨_, hsame, hslash⟩
      obtain ⟨rfl, rfl⟩ := Prod.mk.inj (Option.some.inj hsame)
      rw [remark_eq_error_iff.mpr ⟨rfl, hslash, rfl⟩]
      exact ⟨_, rfl⟩

theorem readLines_refused_iff (entries : Entries) {lines : List (List Char)} :
    (∃ fault, readLines entries lines = .error fault) ↔ ∃ line ∈ lines, LacksSlash line := by
  induction lines generalizing entries with
  | nil => simp [readLines]
  | cons line lines ih =>
    rw [List.exists_mem_cons_iff, ← addLine_refused_iff entries, readLines]
    cases addLine entries line with
    | error fault => exact ⟨fun _ => .inl ⟨fault, rfl⟩, fun _ => ⟨fault, rfl⟩⟩
    | ok after =>
      rw [← ih after]
      exact (or_iff_right (by simp)).symm

theorem addLine_eq_ok (h : addLine entries line = .ok after) :
    ∃ r, remarkOf line = .ok r ∧ after = r.addTo entries := by
  rw [addLine_eq] at h
  cases hremark : remarkOf line with
  | error fault =>
    rw [hremark] at h
    exact absurd h nofun
  | ok r =>
    rw [hremark] at h
    exact ⟨r, rfl, (Except.ok.inj h).symm⟩

/-- A line gives a name if it has that key, and only then. -/
theorem addLine_name (h : addLine entries line = .ok after) :
    after.name = none ↔ entries.name = none ∧ ¬key? line = some "Name" := by
  obtain ⟨r, hremark, rfl⟩ := addLine_eq_ok h
  by_cases hname : key? line = some "Name"
  · obtain ⟨⟨_, value⟩, hkeyed, rfl⟩ := Option.map_eq_some_iff.mp hname
    rw [remarkOf, hkeyed] at hremark
    obtain rfl : .name (String.ofList value) = r := Except.ok.inj hremark
    simp [Remark.addTo, hname]
  · have hsame : (r.addTo entries).name = entries.name := by
      cases r with
      | name text => exact absurd (key_of_remarkOf hremark "Name" rfl) hname
      | _ => rfl
    simp [hsame, hname]

theorem addLine_types (h : addLine entries line = .ok after) :
    after.types = [] ↔ entries.types = [] ∧ ¬NamesType line := by
  obtain ⟨r, hremark, rfl⟩ := addLine_eq_ok h
  by_cases htypes : key? line = some "Types"
  · obtain ⟨⟨_, value⟩, hkeyed, rfl⟩ := Option.map_eq_some_iff.mp htypes
    rw [remarkOf, hkeyed] at hremark
    obtain rfl : .types ((words value).filterMap CardType.ofWord?) ((words value).filterMap subtype?) = r :=
      Except.ok.inj hremark
    simp [Remark.addTo, NamesType, hkeyed]
  · have hsame : (r.addTo entries).types = entries.types := by
      cases r with
      | types named others => exact absurd (key_of_remarkOf hremark "Types" rfl) htypes
      | _ => rfl
    have hnone : ¬NamesType line := by
      rintro ⟨value, hkeyed, -⟩
      exact htypes (congrArg (·.map (·.1)) hkeyed)
    simp [hsame, hnone]

/-- What a line brings about and nothing takes back is missing at the end if it was missing before and no
line brings it about. -/
theorem readLines_missing (Missing : Entries → Prop) {Brings : List Char → Prop}
    (hstep : ∀ {entries after line}, addLine entries line = .ok after →
      (Missing after ↔ Missing entries ∧ ¬Brings line))
    {lines : List (List Char)} (h : readLines entries lines = .ok after) :
    Missing after ↔ Missing entries ∧ ∀ line ∈ lines, ¬Brings line := by
  induction lines generalizing entries with
  | nil =>
    obtain rfl := Except.ok.inj h
    simp
  | cons line lines ih =>
    rw [readLines] at h
    cases hline : addLine entries line with
    | error fault =>
      rw [hline] at h
      exact absurd h nofun
    | ok next =>
      rw [hline] at h
      rw [ih h, hstep hline, List.forall_mem_cons, and_assoc]

theorem define_refused_iff : (∃ fault, define entries = .error fault) ↔
    entries.name = none ∨ entries.types = [] := by
  unfold define
  cases entries.name with
  | none => simp
  | some name =>
    dsimp only
    split <;> simp_all

/-- A file is refused for a size without a slash, for having no name, or for having no card type. -/
theorem read_refused_iff (content : String) :
    (∃ fault, read content = .error fault) ↔
      (∃ line ∈ lines content.toList, LacksSlash line) ∨
        (∀ line ∈ lines content.toList, ¬key? line = some "Name") ∨
          ∀ line ∈ lines content.toList, ¬NamesType line := by
  rw [← readLines_refused_iff {}]
  unfold read
  cases hlines : readLines {} (lines content.toList) with
  | error fault => exact ⟨fun _ => .inl ⟨fault, rfl⟩, fun _ => ⟨fault, rfl⟩⟩
  | ok entries =>
    have hname := readLines_missing (·.name = none) addLine_name hlines
    have htypes := readLines_missing (·.types = []) addLine_types hlines
    rw [or_iff_right (by simp)]
    refine Iff.trans define_refused_iff (or_congr ?_ ?_)
    · simpa using hname
    · simpa using htypes

/-- The order of lines does not matter where they do not have a key in common: if two such lines next to each
other are exchanged, whatever blanks there are at the ends of lines, the file is read as the same card or
refused for the same reason. And a file is refused exactly if it has a size without a slash, no name, or no
card type. -/
theorem line_order_irrelevant :
    (∀ (content content' : String) (front back : List (List Char)) (first second : List Char),
      (lines content.toList).map trim = front ++ first :: second :: back →
        (lines content'.toList).map trim = front ++ second :: first :: back →
          Apart first second → read content = read content') ∧
    ∀ content : String,
      (∃ fault, read content = .error fault) ↔
        (∃ line ∈ lines content.toList, LacksSlash line) ∨
          (∀ line ∈ lines content.toList, ¬key? line = some "Name") ∨
            ∀ line ∈ lines content.toList, ¬NamesType line :=
  ⟨fun _ _ _ _ _ _ h h' hapart => read_swap h h' hapart, read_refused_iff⟩

/-- A size that is refused can come after the name or before it. -/
theorem line_order_irrelevant_unsized :
    let lion := "# Size: 2/1\r\n\tPT : 2\r\nName:Savannah Lions\nTypes:Creature Cat"
    let moved := "# Size: 2/1\nName:Savannah Lions \n PT : 2\nTypes:Creature Cat\n"
    Apart "PT : 2".toList "Name:Savannah Lions".toList ∧ read lion = read moved ∧
      read moved = .error (.badCard (.badSize "2")) := by
  intro lion moved
  have hapart : Apart "PT : 2".toList "Name:Savannah Lions".toList := by
    unfold Apart
    decide +kernel
  refine ⟨hapart, ?_, by decide +kernel⟩
  exact line_order_irrelevant.1 lion moved ["# Size: 2/1".toList] ["Types:Creature Cat".toList] _ _
    (by decide +kernel) (by decide +kernel) hapart

end CardRules.CardFile
