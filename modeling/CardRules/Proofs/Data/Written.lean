import CardRules.Data.Written
import CardRules.Proofs.Data.Tokens

/-!
# Reading what was written

The tokens of a value in which nothing is foreign are read as the value (`Native.reads`), whatever is open
around it. So a value can be read from the text that it was written as, in both forms (`read?_line`,
`read?_block`).
-/

set_option autoImplicit false

namespace CardRules.Data

open Reading

/-- A value may come next. -/
def Want.takesValue (want : Want) : Prop := want = .value ∨ want = .item

/-- A key may come next. -/
def Want.takesKey (want : Want) : Prop := want = .key ∨ want = .member

/-- The tokens lead from the reading to another one. -/
def Leads (tokens : List Token) (reading after : Reading) : Prop :=
  tokens.foldlM Reading.step reading = some after

variable {tokens more : List Token} {token : Token} {reading mid after : Reading} {frames : List Frame}
  {want : Want}

theorem Leads.cons (h : reading.step token = some mid) (hmore : Leads more mid after) :
    Leads (token :: more) reading after := by
  rw [Leads, List.foldlM_cons, h]
  exact hmore

theorem Leads.append (h : Leads tokens reading mid) (hmore : Leads more mid after) :
    Leads (tokens ++ more) reading after := by
  rw [Leads, List.foldlM_append, h]
  exact hmore

theorem Leads.one (h : reading.step token = some after) : Leads [token] reading after :=
  .cons h rfl

theorem close_eq_none (frames : List Frame) (h : token ≠ .closeList) (h' : token ≠ .closeObject) :
    close frames token = none := by
  unfold close
  split
  · exact absurd rfl h
  · exact absurd rfl h'
  · rfl

/-- Where a value may come, a token that ends nothing is taken as one. -/
theorem step_value (hwant : want.takesValue) (h : token ≠ .closeList) (h' : token ≠ .closeObject) :
    Reading.step ⟨frames, want⟩ token = takeValue frames token := by
  rcases hwant with rfl | rfl
  · rfl
  · show (close frames token <|> takeValue frames token) = _
    rw [close_eq_none frames h h']
    rfl

theorem step_key (hwant : want.takesKey) (key : String) :
    Reading.step ⟨frames, want⟩ (.text key) = takeKey frames (.text key) := by
  rcases hwant with rfl | rfl
  · rfl
  · show (close frames (.text key) <|> takeKey frames (.text key)) = _
    rw [close_eq_none frames (by simp) (by simp)]
    rfl

/-- Wherever a value may come, the tokens of this one are read as it. -/
def Reads (d : Data) : Prop :=
  ∀ frames (want : Want), want.takesValue → Leads d.tokens ⟨frames, want⟩ (deliver d frames)

/-- Items are read one by one, and added to those that were read before. -/
theorem reads_items {items : List Data} (h : ∀ d ∈ items, Reads d) (seen : List Data)
    (hwant : want.takesValue) (hempty : items = [] → want = .item) :
    Leads (itemTokens items) ⟨.list seen :: frames, want⟩
      (deliver (.list (seen.reverse ++ items)) frames) := by
  -- a list may be closed at once, but not behind a comma: hence `hempty`
  induction items generalizing seen want with
  | nil =>
    rw [hempty rfl, List.append_nil]
    exact .one rfl
  | cons d items ih =>
    have hd := h d List.mem_cons_self (.list seen :: frames) want hwant
    have hseen : seen.reverse ++ d :: items = (d :: seen).reverse ++ items := by simp
    rw [hseen]
    have hcomma (seen : List Data) : Reading.step ⟨.list seen :: frames, .more⟩ .comma =
        some ⟨.list seen :: frames, .value⟩ := rfl
    cases items with
    | nil =>
      rw [List.append_nil]
      exact hd.append (.one rfl)
    | cons e items =>
      refine hd.append (.cons (hcomma (d :: seen)) ?_)
      exact ih (fun d hd => h d (List.mem_cons_of_mem _ hd)) _ (.inl rfl) nofun

theorem reads_members {members : List (String × Data)} (h : ∀ member ∈ members, Reads member.2)
    (seen : List (String × Data)) (key : String) (hwant : want.takesKey)
    (hempty : members = [] → want = .member) :
    Leads (memberTokens members) ⟨.object seen key true :: frames, want⟩
      (deliver (.object (seen.reverse ++ members)) frames) := by
  induction members generalizing seen key want with
  | nil =>
    rw [hempty rfl, List.append_nil]
    exact .one rfl
  | cons first members ih =>
    obtain ⟨name, d⟩ := first
    have hseen : seen.reverse ++ (name, d) :: members = ((name, d) :: seen).reverse ++ members := by simp
    have hmember : Leads (.text name :: .colon :: d.tokens) ⟨.object seen key true :: frames, want⟩
        ⟨.object ((name, d) :: seen) "" true :: frames, .more⟩ := by
      have hkey : Reading.step ⟨.object seen key true :: frames, want⟩ (.text name) =
          some ⟨.object seen name true :: frames, .colon⟩ := step_key hwant name
      have hcolon : Reading.step ⟨.object seen name true :: frames, .colon⟩ .colon =
          some ⟨.object seen name true :: frames, .value⟩ := rfl
      exact .cons hkey (.cons hcolon (h (name, d) List.mem_cons_self _ _ (.inl rfl)))
    rw [hseen]
    have hcomma (seen : List (String × Data)) :
        Reading.step ⟨.object seen "" true :: frames, .more⟩ .comma =
          some ⟨.object seen "" true :: frames, .key⟩ := rfl
    cases members with
    | nil =>
      rw [List.append_nil]
      exact hmember.append (.one rfl)
    | cons second members =>
      refine hmember.append (.cons (hcomma ((name, d) :: seen)) ?_)
      exact ih (fun d hd => h d (List.mem_cons_of_mem _ hd)) _ _ (.inl rfl) nofun

/-- The tokens of a value in which nothing is foreign are read as the value. -/
theorem Native.reads {d : Data} (h : d.Native) : Reads d := by
  induction h with
  | null => exact fun frames want hwant => .one (step_value hwant (by simp) (by simp))
  | bool b => exact fun frames want hwant => .one (step_value hwant (by simp) (by simp))
  | int n => exact fun frames want hwant => .one (step_value hwant (by simp) (by simp))
  | text s => exact fun frames want hwant => .one (step_value hwant (by simp) (by simp))
  | list _ ih =>
    exact fun frames want hwant => .cons (step_value hwant (by simp) (by simp))
      (reads_items ih [] (.inr rfl) fun _ => rfl)
  | object _ ih =>
    exact fun frames want hwant => .cons (step_value hwant (by simp) (by simp))
      (reads_members ih [] "" (.inr rfl) fun _ => rfl)

theorem read?_of_writes {d : Data} (h : d.Native) {s : List Char} (hs : Writes s d.tokens) :
    read? (String.ofList s) = some d := by
  have hread : d.tokens.foldlM Reading.step {} = some (deliver d []) := h.reads [] .value (.inl rfl)
  rw [read?, String.toList_ofList, hs.tokens?]
  show (d.tokens.foldlM Reading.step {}).bind Reading.value? = some d
  rw [hread]
  rfl

/-- A value is read from its line. -/
theorem read?_line {d : Data} (h : d.Native) : read? d.line = some d :=
  read?_of_writes h h.writes_compact

/-- A value is read from its lines. -/
theorem read?_block {d : Data} (h : d.Native) : read? d.block = some d :=
  read?_of_writes h (h.writes_pretty 0)

end CardRules.Data
