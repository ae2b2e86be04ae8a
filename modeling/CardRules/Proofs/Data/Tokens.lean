import CardRules.Proofs.Data.Cutting

/-!
# The tokens of a value

A value in which nothing is foreign is written as its tokens (`Native.tokens`), in the compact form and,
with blanks between them, in the form for readers.
-/

set_option autoImplicit false

namespace CardRules.Data

/-- Nothing in the value is foreign. -/
inductive Native : Data → Prop
  | null : Native .null
  | bool (b : Bool) : Native (.bool b)
  | int (n : Int) : Native (.int n)
  | text (s : String) : Native (.text s)
  | list {items : List Data} (h : ∀ d ∈ items, Native d) : Native (.list items)
  | object {members : List (String × Data)} (h : ∀ member ∈ members, Native member.2) :
    Native (.object members)

mutual

/-- The tokens of a value. -/
def tokens : Data → List Token
  | null => [.null]
  | bool b => [.bool b]
  | int n => [.int n]
  | text s => [.text s]
  | list items => .openList :: itemTokens items
  | object members => .openObject :: memberTokens members
  | foreign => [.null]

/-- The tokens of the items of a list and of its end. -/
def itemTokens : List Data → List Token
  | [] => [.closeList]
  | [d] => tokens d ++ [.closeList]
  | d :: items => tokens d ++ .comma :: itemTokens items

/-- The tokens of the members of an object and of its end. -/
def memberTokens : List (String × Data) → List Token
  | [] => [.closeObject]
  | [(key, d)] => .text key :: .colon :: tokens d ++ [.closeObject]
  | (key, d) :: members => .text key :: .colon :: tokens d ++ .comma :: memberTokens members

end

namespace Writes

/-! ## The compact form -/

theorem bool (b : Bool) : Writes (compact (.bool b)) [.bool b] := by
  cases b with
  | false => exact isRun_word.writes rfl (by decide) rfl
  | true => exact isRun_word.writes rfl (by decide) rfl

/-- A key, a colon and a value. -/
theorem member {s : List Char} {tokens : List Token} (key : String) (hs : Writes s tokens) :
    Writes (quote key ++ ':' :: s) (.text key :: .colon :: tokens) :=
  (writes_quote key).append_cons ':' [.colon] rfl (by decide) hs

theorem compactItems {items : List Data} (h : ∀ d ∈ items, Writes (compact d) d.tokens) :
    Writes (compactItems items) (itemTokens items) := by
  induction items with
  | nil => exact nil.cons ']' [.closeList] rfl
  | cons d items ih =>
    have hd := h d List.mem_cons_self
    cases items with
    | nil => exact hd.append_cons ']' [.closeList] rfl (by decide) .nil
    | cons e items =>
      have hitems := ih fun d hd => h d (List.mem_cons_of_mem _ hd)
      exact hd.append_cons ',' [.comma] rfl (by decide) hitems

theorem compactMembers {members : List (String × Data)}
    (h : ∀ member ∈ members, Writes (compact member.2) member.2.tokens) :
    Writes (compactMembers members) (memberTokens members) := by
  induction members with
  | nil => exact nil.cons '}' [.closeObject] rfl
  | cons first members ih =>
    obtain ⟨key, d⟩ := first
    have hd := member key (h (key, d) List.mem_cons_self)
    cases members with
    | nil => exact hd.append_cons '}' [.closeObject] rfl (by decide) .nil
    | cons second members =>
      have hmembers := ih fun member hmember => h member (List.mem_cons_of_mem _ hmember)
      exact hd.append_cons ',' [.comma] rfl (by decide) hmembers

end Writes

theorem Native.writes_compact {d : Data} (h : d.Native) : Writes d.compact d.tokens := by
  induction h with
  | null => exact isRun_word.writes rfl (by decide) rfl
  | bool b => exact .bool b
  | int n => exact writes_int n
  | text s => exact writes_quote s
  | list _ ih => exact (Writes.compactItems ih).cons '[' [.openList] rfl
  | object _ ih => exact (Writes.compactMembers ih).cons '{' [.openObject] rfl

/-! ## The form for readers -/

namespace Writes

variable {s : List Char} {tokens : List Token}

theorem newline (depth : Nat) (hs : Writes s tokens) : Writes (newline depth ++ s) tokens := by
  have hspaces (n : Nat) : Writes (List.replicate n ' ' ++ s) tokens := by
    induction n with
    | zero => exact hs
    | succ n ih => exact ih.cons ' ' [] rfl
  exact (hspaces _).cons '\n' [] rfl

/-- A line end and a closing bracket end what comes before them. -/
theorem append_newline (hs : Writes s tokens) (depth : Nat) {closing : List Char} {token : List Token}
    (hclosing : Writes closing token) : Writes (s ++ (Data.newline depth ++ closing)) (tokens ++ token) :=
  hs.append (hclosing.newline depth) fun _ _ => ends_cons (by decide) _

theorem prettyItems {items : List Data} (hne : items ≠ [])
    (h : ∀ d ∈ items, ∀ depth, Writes (pretty depth d) d.tokens) (depth outer : Nat) :
    Writes (prettyItems depth items ++ (Data.newline outer ++ [']'])) (itemTokens items) := by
  induction items with
  | nil => exact absurd rfl hne
  | cons d items ih =>
    have hd := h d List.mem_cons_self depth
    cases items with
    | nil =>
      rw [Data.prettyItems, List.append_assoc]
      exact (hd.append_newline outer (nil.cons ']' [.closeList] rfl)).newline depth
    | cons e items =>
      have hitems := ih (List.cons_ne_nil e items) fun d hd => h d (List.mem_cons_of_mem _ hd)
      have htext : Data.prettyItems depth (d :: e :: items) ++ (Data.newline outer ++ [']']) =
          Data.newline depth ++ (pretty depth d ++
            ',' :: (Data.prettyItems depth (e :: items) ++ (Data.newline outer ++ [']']))) := by
        simp [Data.prettyItems]
      rw [htext]
      exact (hd.append_cons ',' [.comma] rfl (by decide) hitems).newline depth

theorem prettyMembers {members : List (String × Data)} (hne : members ≠ [])
    (h : ∀ member ∈ members, ∀ depth, Writes (pretty depth member.2) member.2.tokens)
    (depth outer : Nat) :
    Writes (prettyMembers depth members ++ (Data.newline outer ++ ['}'])) (memberTokens members) := by
  induction members with
  | nil => exact absurd rfl hne
  | cons first members ih =>
    obtain ⟨key, d⟩ := first
    have hd := member key ((h (key, d) List.mem_cons_self depth).cons ' ' [] rfl)
    cases members with
    | nil =>
      have hall := (hd.append_newline outer (nil.cons '}' [.closeObject] rfl)).newline depth
      have htext : Data.prettyMembers depth [(key, d)] ++ (Data.newline outer ++ ['}']) =
          Data.newline depth ++
            (quote key ++ ':' :: ' ' :: pretty depth d ++ (Data.newline outer ++ ['}'])) := by
        simp [Data.prettyMembers]
      rw [htext]
      exact hall
    | cons second members =>
      have hmembers := ih (List.cons_ne_nil second members) fun member hmember =>
        h member (List.mem_cons_of_mem _ hmember)
      have hall := (hd.append_cons ',' [.comma] rfl (by decide) hmembers).newline depth
      have htext : Data.prettyMembers depth ((key, d) :: second :: members) ++
            (Data.newline outer ++ ['}']) =
          Data.newline depth ++ (quote key ++ ':' :: ' ' :: pretty depth d ++
            ',' :: (Data.prettyMembers depth (second :: members) ++ (Data.newline outer ++ ['}']))) := by
        simp [Data.prettyMembers]
      rw [htext]
      exact hall

end Writes

/-- In the form for readers, the value is written as its tokens. -/
theorem Native.writes_pretty {d : Data} (h : d.Native) (depth : Nat) :
    Writes (d.pretty depth) d.tokens := by
  -- empty lists and objects are written without a line end
  induction h generalizing depth with
  | null => exact isRun_word.writes rfl (by decide) rfl
  | bool b => exact .bool b
  | int n => exact writes_int n
  | text s => exact writes_quote s
  | @list items _ ih =>
    cases items with
    | nil => exact (Writes.nil.cons ']' [.closeList] rfl).cons '[' [.openList] rfl
    | cons d items =>
      have hitems := Writes.prettyItems (List.cons_ne_nil d items) ih (depth + 1) depth
      rw [pretty, List.cons_append, List.cons_append, List.append_assoc]
      exact hitems.cons '[' [.openList] rfl
  | @object members _ ih =>
    cases members with
    | nil => exact (Writes.nil.cons '}' [.closeObject] rfl).cons '{' [.openObject] rfl
    | cons member members =>
      have hmembers := Writes.prettyMembers (List.cons_ne_nil member members) ih (depth + 1) depth
      rw [pretty, List.cons_append, List.cons_append, List.append_assoc]
      exact hmembers.cons '{' [.openObject] rfl

/-- In both forms, the text of a value is cut into its tokens. -/
theorem Writes.tokens? {s : List Char} {tokens : List Token} (h : Writes s tokens) :
    tokens? s = some tokens := by
  have hcut := h [] [] ends_nil
  rw [List.append_nil, List.append_nil] at hcut
  refine hcut.trans ?_
  show some (tokens.reverse.reverse ++ []) = some tokens
  rw [List.append_nil, List.reverse_reverse]

end CardRules.Data
