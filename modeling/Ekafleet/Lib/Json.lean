import Mathlib.Tactic

/-! JSON values as a parser hands them over, and their compact text. -/

/-- A JSON value. The fields of an object stand in some order. -/
inductive Json where
  | uint (n : ℕ)
  | str (s : String)
  | arr (items : List Json)
  | obj (fields : List (String × Json))
  /-- Any other value, by its text. -/
  | other (text : String)

namespace Json

/-- The field of an object. -/
def get (key : String) : Json → Option Json
  | .obj fields => fields.lookup key
  | _ => none

/-- The number, if it is one. -/
def asU64 : Json → Option ℕ
  | .uint n => some n
  | _ => none

/-- The text, if it is one. -/
def asStr : Json → Option String
  | .str s => some s
  | _ => none

/-! ### Rendering -/

/-- A character inside of a string. -/
def escapeChar (c : Char) : List Char :=
  if c = '"' ∨ c = '\\' then ['\\', c]
  else if 0x20 ≤ c.toNat then [c]
  else match c.toNat with
    | 8 => ['\\', 'b']
    | 9 => ['\\', 't']
    | 10 => ['\\', 'n']
    | 12 => ['\\', 'f']
    | 13 => ['\\', 'r']
    | n => ['\\', 'u', '0', '0', Nat.digitChar (n / 16), Nat.digitChar (n % 16)]

/-- A string between its quotes. -/
def quoted (s : String) : String := "\"" ++ String.ofList (s.toList.flatMap escapeChar) ++ "\""

mutual

/-- The text of a value, without white space. -/
def render : Json → String
  | .uint n => toString n
  | .str s => quoted s
  | .arr items => "[" ++ ",".intercalate (renderItems items) ++ "]"
  | .obj fields => "\x7b" ++ ",".intercalate (renderFields fields) ++ "\x7d"
  | .other text => text

/-- The texts of the elements of an array. -/
def renderItems : List Json → List String
  | [] => []
  | item :: rest => item.render :: renderItems rest

/-- The texts of the fields of an object. -/
def renderFields : List (String × Json) → List String
  | [] => []
  | (key, value) :: rest => (quoted key ++ ":" ++ value.render) :: renderFields rest

end

/-- A text that stands for itself in a string: no quotation mark, no backslash and no control
    character. -/
def PlainText (s : String) : Prop := ∀ c ∈ s.toList, c ≠ '"' ∧ c ≠ '\\' ∧ 0x20 ≤ c.toNat

instance (s : String) : Decidable (PlainText s) := List.decidableBAll _ s.toList

theorem quoted_of_plain {s : String} (h : PlainText s) : quoted s = "\"" ++ s ++ "\"" := by
  have hsame : s.toList.flatMap escapeChar = s.toList.flatMap fun c => [c] := by
    refine List.flatMap_congr fun c hc => ?_
    obtain ⟨hquote, hbackslash, hlow⟩ := h c hc
    simp [escapeChar, hquote, hbackslash, hlow]
  rw [quoted, hsame, List.flatMap_singleton', String.ofList_toList]

theorem renderItems_str {texts : List String} (h : ∀ s ∈ texts, PlainText s) :
    renderItems (texts.map .str) = texts.map fun s => "\"" ++ s ++ "\"" := by
  induction texts with
  | nil => rfl
  | cons s rest ih =>
    rw [List.forall_mem_cons] at h
    simp [renderItems, render, quoted_of_plain h.1, ih h.2]

/-- What is looked up does not depend on the order of the fields. -/
theorem get_of_mem {fields : List (String × Json)} (hnodup : (fields.map Prod.fst).Nodup)
    {key : String} {value : Json} (h : (key, value) ∈ fields) :
    get key (.obj fields) = some value := by
  rw [get]
  induction fields with
  | nil => cases h
  | cons f rest ih =>
    rw [List.map_cons, List.nodup_cons] at hnodup
    rcases List.mem_cons.mp h with rfl | h
    · simp
    · have hne : key ≠ f.1 := fun heq => hnodup.1 (heq ▸ List.mem_map_of_mem h)
      rw [List.lookup_cons, beq_false_of_ne hne]
      exact ih hnodup.2 h

end Json
