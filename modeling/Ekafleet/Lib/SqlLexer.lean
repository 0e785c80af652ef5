import Mathlib.Data.List.Forall2

/-! A lexer for SQL statements

    The text is read one character at a time. Outside of quotes it falls into words and symbols;
    a quoted token ends at its quote, where two in a row stand for one of them, and a dialect may
    let a backslash escape the next character. -/

namespace Sql

/-- What a statement is made of. -/
inductive Token where
  | word (text : List Char)
  | symbol (c : Char)
  | quoted (quote : Char) (content : List Char)
  deriving DecidableEq, Repr

/-- How a database reads quotes and comments. -/
structure Dialect where
  quotes : List Char
  /-- The quotes in which a backslash escapes, and what it makes of the next character. -/
  escapes : List Char
  unescape : Char → List Char
  /-- What the scanner makes of a finished token, if it accepts it. -/
  accept : Token → Option Token

/-- What the lexer is in the middle of. -/
inductive Mode where
  | plain
  | word (text : List Char)
  | quoted (quote : Char) (content : List Char)
  | escaped (quote : Char) (content : List Char)
  | closing (quote : Char) (content : List Char)
  deriving DecidableEq, Repr

def isWordChar (c : Char) : Bool := c.isAlphanum || c == '_'

namespace Dialect

variable (d : Dialect)

def plainStep (c : Char) : List Token × Mode :=
  if c.isWhitespace then ([], .plain)
  else if c ∈ d.quotes then ([], .quoted c [])
  else if isWordChar c then ([], .word [c])
  else ([.symbol c], .plain)

/-- The tokens that end before a character, and where the scan stands after it. -/
def step : Mode → Char → List Token × Mode
  | .plain, c => d.plainStep c
  | .word text, c =>
    if isWordChar c then ([], .word (text ++ [c]))
    else (.word text :: (d.plainStep c).1, (d.plainStep c).2)
  | .quoted q content, c =>
    if c = q then ([], .closing q content)
    else if c = '\\' ∧ q ∈ d.escapes then ([], .escaped q content)
    else ([], .quoted q (content ++ [c]))
  | .escaped q content, c => ([], .quoted q (content ++ d.unescape c))
  | .closing q content, c =>
    if c = q then ([], .quoted q (content ++ [q]))
    else (.quoted q content :: (d.plainStep c).1, (d.plainStep c).2)

/-- Read a text from a mode on. -/
def run : Mode → List Char → List Token × Mode
  | m, [] => ([], m)
  | m, c :: text =>
    match d.step m c with
    | (ts, m') => match run m' text with
      | (ts', m'') => (ts ++ ts', m'')

/-- At the end of the text a quoted token has to be closed. -/
def finish : Mode → Option (List Token)
  | .plain => some []
  | .word text => some [.word text]
  | .closing q content => some [.quoted q content]
  | .quoted _ _ | .escaped _ _ => none

/-- The tokens of a text. -/
def scan (m : Mode) (text : List Char) : Option (List Token) :=
  (finish (d.run m text).2).map ((d.run m text).1 ++ ·)

def lex (text : String) : Option (List Token) := (d.scan .plain text.toList).bind (·.mapM d.accept)

/-! ### Runs -/

theorem run_append (m : Mode) (text rest : List Char) :
    d.run m (text ++ rest) =
      ((d.run m text).1 ++ (d.run (d.run m text).2 rest).1, (d.run (d.run m text).2 rest).2) := by
  induction text generalizing m with
  | nil => rfl
  | cons c text ih => simp only [List.cons_append, run, ih, List.append_assoc]

theorem scan_append (m : Mode) (text rest : List Char) :
    d.scan m (text ++ rest) = (d.scan (d.run m text).2 rest).map ((d.run m text).1 ++ ·) := by
  simp only [scan, run_append, Option.map_map]
  congr 1
  funext ts
  simp only [Function.comp_apply, List.append_assoc]

theorem scan_cons (m : Mode) (c : Char) (text : List Char) :
    d.scan m (c :: text) = (d.scan (d.step m c).2 text).map ((d.step m c).1 ++ ·) := by
  simpa only [run, List.append_nil, List.singleton_append] using d.scan_append m [c] text

variable {q : Char} {fixed content : List Char} {ts : List Token}

variable {m : Mode} {text read : List Char} {ts' : List Token}

/-- Fixed text up to an opening quote, then a text that is read as `content`. -/
theorem run_open (hfixed : d.run m fixed = (ts, .quoted q []))
    (htext : d.run (.quoted q []) text = ([], .quoted q content)) :
    d.run m (fixed ++ text) = (ts, .quoted q content) := by
  rw [run_append, hfixed, htext, List.append_nil]

/-- Fixed text after what has been read. -/
theorem run_fixed {m' m'' : Mode} (hread : d.run m read = (ts, m'))
    (hfixed : d.run m' fixed = (ts', m'')) :
    d.run m (read ++ fixed) = (ts ++ ts', m'') := by
  rw [run_append, hread, hfixed]

/-- The same up to an opening quote, then a text that is read as `content`. -/
theorem run_quoted {m' : Mode} (hread : d.run m read = (ts, m'))
    (hfixed : d.run m' fixed = (ts', .quoted q []))
    (htext : d.run (.quoted q []) text = ([], .quoted q content)) :
    d.run m (read ++ fixed ++ text) = (ts ++ ts', .quoted q content) := by
  rw [run_append, d.run_fixed hread hfixed, htext, List.append_nil]

theorem scan_fixed {m' : Mode} (hread : d.run m read = (ts, m'))
    (hfixed : d.scan m' fixed = some ts') :
    d.scan m (read ++ fixed) = some (ts ++ ts') := by
  rw [scan_append, hread, hfixed]
  rfl

theorem mapM_accept :
    ts.mapM d.accept = some ts ↔ ∀ t ∈ ts, d.accept t = some t := by
  induction ts with
  | nil => simp
  | cons t ts ih =>
    rw [List.mapM_cons, List.forall_mem_cons, ← ih]
    cases d.accept t <;> cases ts.mapM d.accept <;> simp

/-- EXACT: statements that scan into tokens lex into them if those are accepted as they are. -/
theorem map_lex_iff {texts : List String} {tss : List (List Token)}
    (h : List.Forall₂ (fun text ts => d.scan .plain text.toList = some ts) texts tss) :
    texts.map d.lex = tss.map some ↔ ∀ ts ∈ tss, ∀ t ∈ ts, d.accept t = some t := by
  induction h with
  | nil => simp
  | cons hscan _ ih =>
    rw [List.map_cons, List.map_cons, List.cons.injEq, List.forall_mem_cons, ← ih, ← d.mapM_accept,
      lex, hscan, Option.bind_some]

/-! ### Inside of quotes -/

/-- RUN: a text that is escaped character by character. -/
theorem run_flatMap {escape : Char → List Char} (read : Char → List Char)
    (h : ∀ c content, d.run (.quoted q content) (escape c) = ([], .quoted q (content ++ read c)))
    (content text : List Char) :
    d.run (.quoted q content) (text.flatMap escape) =
      ([], .quoted q (content ++ text.flatMap read)) := by
  induction text generalizing content with
  | nil => rw [List.flatMap_nil, List.flatMap_nil, List.append_nil]; rfl
  | cons c text ih =>
    rw [List.flatMap_cons, List.flatMap_cons, run_append, h, ih, List.append_assoc]
    rfl

/-- RUN: a quote written twice is read once, whatever else the text contains. -/
theorem run_doubled (hq : q ∉ d.escapes) (content text : List Char) :
    d.run (.quoted q content) (text.flatMap fun c => if c = q then [q, q] else [c]) =
      ([], .quoted q (content ++ text)) := by
  have hone : ∀ c content, d.run (.quoted q content) (if c = q then [q, q] else [c]) =
      ([], .quoted q (content ++ [c])) := by
    intro c content
    by_cases hc : c = q <;> simp [run, step, hc, hq]
  rw [d.run_flatMap (fun c => [c]) hone, List.flatMap_singleton']

/-- What has been read of a quoted token stays at its beginning. -/
theorem scan_head (hm : m = .quoted q content ∨ m = .escaped q content ∨ m = .closing q content)
    (h : d.scan m text = some ts) : ∃ more ts', ts = .quoted q (content ++ more) :: ts' := by
  induction text generalizing m content ts with
  | nil =>
    rcases hm with rfl | rfl | rfl
    · cases h
    · cases h
    · cases h
      exact ⟨[], [], by rw [List.append_nil]; rfl⟩
  | cons c text ih =>
    rw [scan_cons] at h
    obtain ⟨ts', hscan, rfl⟩ := Option.map_eq_some_iff.mp h
    have hmore : ∀ read, (d.step m c).1 = [] → (d.step m c).2 = .quoted q (content ++ read) →
        ∃ more ts'', (d.step m c).1 ++ ts' = .quoted q (content ++ more) :: ts'' := by
      intro read htokens hmode
      obtain ⟨more, ts'', rfl⟩ := ih (.inl hmode) hscan
      exact ⟨read ++ more, ts'', by rw [htokens, List.nil_append, List.append_assoc]⟩
    rcases hm with rfl | rfl | rfl
    · by_cases hq : c = q
      · simp only [step, if_pos hq] at hscan ⊢
        exact ih (.inr (.inr rfl)) hscan
      · by_cases hescape : c = '\\' ∧ q ∈ d.escapes
        · simp only [step, if_neg hq, if_pos hescape] at hscan ⊢
          exact ih (.inr (.inl rfl)) hscan
        · exact hmore [c] (by simp only [step, if_neg hq, if_neg hescape])
            (by simp only [step, if_neg hq, if_neg hescape])
    · exact hmore _ rfl rfl
    · by_cases hq : c = q
      · exact hmore [q] (by simp only [step, if_pos hq]) (by simp only [step, if_pos hq])
      · refine ⟨[], (d.plainStep c).1 ++ ts', ?_⟩
        simp only [step, if_neg hq, List.append_nil, List.cons_append]

end Dialect
end Sql
