import Ekafleet.Lib.Float64
import Ekafleet.Lib.HashMap
import Ekafleet.Lib.TextSplit

/-! Scraped metrics | source: metrics/collector.rs

    A line is cut at its last blank and its first brace, and the labels at every comma, whatever
    stands between quotes. The lines of the text format are written with all the gaps the format
    allows, and those that the parser reads as they are meant are the compact ones. -/

namespace Ekafleet.Metrics

variable {F : Type} [F64 F]

/-- A sample as the scraper keeps it. -/
structure MetricSample (F : Type) where
  name : String
  value : F
  labels : HashMap String String
  timestamp : ℕ

def quote : Char := Char.ofNat 34

def backslash : Char := Char.ofNat 92

def openBrace : Char := Char.ofNat 123

def parseLabel (labels : HashMap String String) (part : String) : HashMap String String :=
  match Text.splitFirst '=' part with
  | (key, some value) => labels.insert key (Text.trimMatches quote value)
  | (_, none) => labels

/-- The labels between braces. -/
def parseLabels (s : String) : HashMap String String := (Text.split ',' s).foldl parseLabel ∅

/-- The slice up to the last byte. There has to be one, and it has to be a character. -/
def dropLastByte (s : String) : Option String :=
  match s.toList.getLast? with
  | some c => if c.utf8Size = 1 then some (String.ofList s.toList.dropLast) else none
  | none => none

/-- The body of the loop: `none` is a panic, and a line may give no sample. -/
def parseLine (now : ℕ) (line : String) : Option (Option (MetricSample F)) :=
  let line := Text.trim line
  if line = "" ∨ line.toList.head? = some '#' then some none
  else match Text.splitLast ' ' line with
    | none => some none
    | some (nameAndLabels, valueStr) =>
      match (F64.parse valueStr : Option F) with
      | none => some none
      | some value =>
        match Text.splitFirst openBrace nameAndLabels with
        | (_, none) => some (some ⟨nameAndLabels, value, ∅, now⟩)
        | (name, some rest) =>
          (dropLastByte rest).map fun labelsStr => some ⟨name, value, parseLabels labelsStr, now⟩

/-- The samples of a scrape. -/
def parsePrometheus (now : ℕ) (body : String) : Option (List (MetricSample F)) :=
  ((Text.lines body).mapM (parseLine now)).map (·.filterMap id)

/-! ### Lines of the format -/

/-- The characters of names and numbers, and more. -/
def isTokenChar (c : Char) : Bool :=
  !Text.isWhitespace c && c.utf8Size == 1 && c ∉ [',', '=', '#', quote, openBrace, '\x7d']

/-- A name or a number. -/
def IsToken (s : String) : Prop := s ≠ "" ∧ ∀ c ∈ s.toList, isTokenChar c = true

/-- The blanks and tabs between two parts of a line. -/
abbrev Gap := { s : List Char // ∀ c ∈ s, c = ' ' ∨ c = '\t' }

/-- No gap. -/
def Gap.none : Gap := ⟨[], by simp⟩

/-- One blank. -/
def Gap.blank : Gap := ⟨[' '], by simp⟩

/-- How a character of a label value is written. -/
def escapeChar (c : Char) : List Char :=
  if c = backslash then [backslash, backslash] else if c = quote then [backslash, quote]
  else if c = '\n' then [backslash, 'n'] else [c]

/-- A label `key="value"`, with the gaps around its parts. -/
structure WrittenLabel where
  key : String
  value : String
  isToken : IsToken key
  before : Gap := .none
  afterKey : Gap := .none
  afterEquals : Gap := .none
  behind : Gap := .none

/-- The label as it is written, its value between quotes. -/
def WrittenLabel.text (l : WrittenLabel) : List Char :=
  l.before.1 ++ l.key.toList ++ l.afterKey.1 ++ '=' :: l.afterEquals.1 ++
    quote :: l.value.toList.flatMap escapeChar ++ quote :: l.behind.1

/-- The labels between braces. There may be none, and a comma may stand behind the last one. -/
structure LabelSet where
  labels : List WrittenLabel
  nodup : (labels.map (·.key)).Nodup
  comma : Bool := false
  before : Gap := .none
  inner : Gap := .none

/-- What stands between the braces, cut at the commas between labels. -/
def LabelSet.parts (set : LabelSet) : List (List Char) :=
  set.labels.map (·.text) ++ if set.comma || set.labels.isEmpty then [set.inner.1] else []

/-- The braces and what is between them. -/
def LabelSet.text (set : LabelSet) : List Char :=
  set.before.1 ++ openBrace :: [','].intercalate set.parts ++ ['\x7d']

/-- A time after the value, behind a gap. -/
structure Stamp where
  gap : Gap
  time : String
  isToken : IsToken time
  apart : gap.1 ≠ []

/-- A line of the text format: a sample with the value that its number denotes. -/
structure Line (F : Type) where
  name : String
  braces : Option LabelSet
  valueText : String
  value : F
  stamp : Option Stamp := none
  isToken : IsToken name ∧ IsToken valueText
  lead : Gap := .none
  gap : Gap := .blank
  trail : Gap := .none
  apart : braces = none → gap.1 ≠ []

namespace Line

/-- The line without what may stand before and behind it. -/
def sampleText (line : Line F) : List Char :=
  line.name.toList ++ (line.braces.map (·.text)).getD [] ++ line.gap.1 ++ line.valueText.toList ++
    (line.stamp.map fun s => s.gap.1 ++ s.time.toList).getD []

/-- The line as it is written. -/
def text (line : Line F) : String :=
  String.ofList (line.lead.1 ++ line.sampleText ++ line.trail.1)

/-- The labels of the sample. -/
def labelMap (line : Line F) : HashMap String String :=
  ((line.braces.map (·.labels)).getD []).foldl (fun m l => m.insert l.key l.value) ∅

end Line

/-- A label without gaps whose value is written as it is and has no comma. -/
structure WrittenLabel.Plain (l : WrittenLabel) : Prop where
  tight : l.before = .none ∧ l.afterKey = .none ∧ l.afterEquals = .none ∧ l.behind = .none
  value : ∀ c ∈ l.value.toList, c ∉ [',', backslash, quote, '\n']

/-- A line with one blank before the value and no gap before or between labels, without a timestamp
    and with plain labels. -/
structure Line.Compact (line : Line F) : Prop where
  gap : line.gap = .blank
  stamp : line.stamp = none
  braces : ∀ set ∈ line.braces, set.before = .none ∧ ∀ l ∈ set.labels, l.Plain

/-! ### Tokens -/

variable {s : String} {c : Char}

theorem IsToken.not_mem (h : IsToken s) (hc : isTokenChar c = false) :
    c ∉ s.toList := fun hmem => by
  have := h.2 c hmem
  rw [hc] at this
  cases this

theorem not_isWhitespace (h : isTokenChar c = true) : ¬ Text.isWhitespace c = true := by
  simp only [isTokenChar, Bool.and_eq_true, Bool.not_eq_true'] at h
  simp [h.1.1]

theorem IsToken.exists_concat (h : IsToken s) :
    ∃ l c, s.toList = l ++ [c] ∧ isTokenChar c = true := by
  have hne : s.toList ≠ [] := fun hnil => h.1 (String.toList_eq_nil_iff.mp hnil)
  refine ⟨s.toList.dropLast, s.toList.getLast hne, (List.dropLast_append_getLast hne).symm, ?_⟩
  exact h.2 _ (List.getLast_mem hne)

theorem IsToken.exists_cons (h : IsToken s) :
    ∃ c l, s.toList = c :: l ∧ isTokenChar c = true := by
  have hne : s.toList ≠ [] := fun hnil => h.1 (String.toList_eq_nil_iff.mp hnil)
  obtain ⟨c, l, hl⟩ := List.exists_cons_of_ne_nil hne
  exact ⟨c, l, hl, h.2 c (by rw [hl]; exact List.mem_cons_self)⟩

theorem Gap.not_mem (gap : Gap) (hblank : c ≠ ' ') (htab : c ≠ '\t') : c ∉ gap.1 :=
  fun hmem => (gap.2 c hmem).elim hblank htab

theorem Gap.isWhitespace (gap : Gap) : ∀ c ∈ gap.1, Text.isWhitespace c = true := by
  intro c hc
  rcases gap.2 c hc with rfl | rfl <;> decide

/-! ### Labels -/

section Labels
variable {l : WrittenLabel} {set : LabelSet}

theorem escaped_eq_self {cs : List Char} (h : ∀ c ∈ cs, c ∉ [',', backslash, quote, '\n']) :
    cs.flatMap escapeChar = cs := by
  have hsame : cs.flatMap escapeChar = cs.flatMap fun c => [c] := by
    refine List.flatMap_congr fun c hc => ?_
    have := h c hc
    simp only [List.mem_cons, not_or] at this
    simp [escapeChar, this]
  rw [hsame, List.flatMap_singleton']

theorem WrittenLabel.Plain.text_eq (h : l.Plain) :
    l.text = l.key.toList ++ '=' :: quote :: l.value.toList ++ [quote] := by
  obtain ⟨h1, h2, h3, h4⟩ := h.tight
  simp [text, h1, h2, h3, h4, Gap.none, escaped_eq_self h.value]

/-- The quotes around a plain value, and nothing else, are taken away. -/
theorem WrittenLabel.Plain.trim_value (h : l.Plain) :
    Text.trimMatches quote (String.ofList (quote :: l.value.toList ++ [quote])) = l.value := by
  have hquote : ∀ c ∈ l.value.toList, ¬ decide (c = quote) = true := by
    intro c hc heq
    exact h.value c hc (by simp [of_decide_eq_true heq])
  rw [Text.trimMatches, String.toList_ofList, ← String.toList_inj, String.toList_ofList,
    List.cons_append, List.dropWhile_cons, if_pos (decide_eq_true rfl)]
  revert hquote
  generalize l.value.toList = v
  intro hquote
  rcases List.eq_nil_or_concat' v with rfl | ⟨w, x, rfl⟩
  · decide
  · have hdrop : ((w ++ [x]) ++ [quote]).dropWhile (fun c => decide (c = quote)) =
        (w ++ [x]) ++ [quote] := by
      rcases w with _ | ⟨y, w⟩
      · simpa using hquote x
      · simpa using hquote y
    rw [hdrop, List.rdropWhile_concat_pos _ _ _ (by decide),
      List.rdropWhile_concat_neg _ _ _ (by simpa using hquote x (by simp))]

theorem parseLabel_text (h : l.Plain) (m : HashMap String String) :
    parseLabel m (String.ofList l.text) = m.insert l.key l.value := by
  have hcut : Text.splitFirst '=' (String.ofList l.text) =
      (l.key, some (String.ofList (quote :: l.value.toList ++ [quote]))) :=
    Text.splitFirst_append (by simp [h.text_eq]) (l.isToken.not_mem (by decide))
  rw [parseLabel, hcut]
  simp only [h.trim_value]

theorem comma_not_mem_parts (h : ∀ l ∈ set.labels, l.Plain) : ∀ part ∈ set.parts, ',' ∉ part := by
  intro part hpart
  rcases List.mem_append.mp hpart with hpart | hpart
  · obtain ⟨l, hl, rfl⟩ := List.mem_map.mp hpart
    have hkey := l.isToken.not_mem (c := ',') (by decide)
    have hvalue : ',' ∉ l.value.toList := fun hc => (h l hl).value ',' hc List.mem_cons_self
    simp [(h l hl).text_eq, hkey, hvalue, quote]
  · split_ifs at hpart
    · rw [List.mem_singleton.mp hpart]
      exact set.inner.not_mem (by decide) (by decide)
    · cases hpart

theorem parts_ne_nil : set.parts ≠ [] := by
  cases hlabels : set.labels <;> simp [LabelSet.parts, hlabels]

/-- RUN: the parts between the braces are the labels. -/
theorem parseLabels_parts (h : ∀ l ∈ set.labels, l.Plain) :
    parseLabels (String.ofList ([','].intercalate set.parts)) =
      set.labels.foldl (fun m l => m.insert l.key l.value) ∅ := by
  have hinner : ∀ m, parseLabel m (String.ofList set.inner.1) = m := by
    intro m
    rw [parseLabel, Text.splitFirst_of_not_mem]
    rw [String.toList_ofList]
    exact set.inner.not_mem (by decide) (by decide)
  rw [parseLabels, Text.split, String.toList_ofList,
    List.splitOn_intercalate _ (comma_not_mem_parts h) parts_ne_nil, LabelSet.parts,
    List.foldl_map, List.foldl_append, List.foldl_map]
  have hlabels : set.labels.foldl (fun m l => parseLabel m (String.ofList l.text)) ∅ =
      set.labels.foldl (fun m l => m.insert l.key l.value) ∅ :=
    List.foldl_ext _ _ _ fun m l hl => parseLabel_text (h l hl) m
  split_ifs
  · exact (hinner _).trans hlabels
  · exact hlabels

end Labels

theorem dropLastByte_concat {l : List Char} (hs : s.toList = l ++ [c]) (hc : c.utf8Size = 1)
    : dropLastByte s = some (String.ofList l) := by
  rw [dropLastByte, hs, List.getLast?_concat]
  simp only [hc, if_true, List.dropLast_concat]

/-! ### Lines -/

namespace Line.Compact
variable {line : Line F} (h : line.Compact)
include h

omit [F64 F] in
theorem sampleText_eq : line.sampleText =
    line.name.toList ++ (line.braces.map (·.text)).getD [] ++ ' ' :: line.valueText.toList := by
  simp [sampleText, h.gap, h.stamp, Gap.blank]

omit [F64 F] in
/-- Trimming leaves the sample, which is neither blank nor a comment. -/
theorem trim_text : Text.trim line.text = String.ofList line.sampleText ∧
    ¬ (String.ofList line.sampleText = "" ∨
      (String.ofList line.sampleText).toList.head? = some '#') := by
  obtain ⟨c, l, hname, hc⟩ := line.isToken.1.exists_cons
  obtain ⟨m, x, hvalue, hx⟩ := line.isToken.2.exists_concat
  have hends : line.sampleText =
      c :: (l ++ (line.braces.map (·.text)).getD [] ++ ' ' :: m) ++ [x] := by
    rw [h.sampleText_eq, hname, hvalue]
    simp
  rw [text, hends]
  refine ⟨Text.trim_between (not_isWhitespace hc) (not_isWhitespace hx) line.lead.isWhitespace
    line.trail.isWhitespace _, ?_⟩
  rw [← String.toList_inj, String.toList_ofList]
  rintro (h | h)
  · cases h
  · cases h
    exact absurd hc (by decide)

/-- A compact line is read as it is written. -/
theorem parseLine_text (hvalue : F64.parse line.valueText = some line.value) (now : ℕ) :
    parseLine now line.text = some (some ⟨line.name, line.value, line.labelMap, now⟩) := by
  obtain ⟨htrim, hkeep⟩ := h.trim_text
  have hsplit : Text.splitLast ' ' (String.ofList line.sampleText) = some
      (String.ofList (line.name.toList ++ (line.braces.map (·.text)).getD []), line.valueText) :=
    Text.splitLast_eq_some.mpr ⟨by simp [h.sampleText_eq], line.isToken.2.not_mem (by decide)⟩
  have hname := line.isToken.1.not_mem (c := openBrace) (by decide)
  simp only [parseLine, htrim, if_neg hkeep, hsplit, hvalue]
  rcases hbraces : line.braces with _ | set
  · simp [Text.splitFirst_of_not_mem hname, labelMap, hbraces]
  · obtain ⟨hbefore, hplain⟩ := h.braces set hbraces
    have hbrace : Text.splitFirst openBrace
        (String.ofList (line.name.toList ++ ((some set).map (·.text)).getD [])) =
        (line.name, some (String.ofList ([','].intercalate set.parts ++ ['\x7d']))) :=
      Text.splitFirst_append (by simp [LabelSet.text, hbefore, Gap.none]) hname
    rw [hbrace]
    simp only [dropLastByte_concat (String.toList_ofList) (by decide : ('\x7d').utf8Size = 1),
      Option.map_some, parseLabels_parts hplain, labelMap, hbraces, Option.getD_some]

end Line.Compact

/-! ### Panics -/

/-- The line is sliced at its last byte where there is none behind the brace, or inside of a
    character. -/
def SlicesBadly (F : Type) [F64 F] (line : String) : Prop :=
  ¬ (Text.trim line = "" ∨ (Text.trim line).toList.head? = some '#') ∧
    ∃ nameAndLabels valueStr name rest,
      Text.splitLast ' ' (Text.trim line) = some (nameAndLabels, valueStr) ∧
      (F64.parse valueStr : Option F) ≠ none ∧
      Text.splitFirst openBrace nameAndLabels = (name, some rest) ∧
      ∀ c ∈ rest.toList.getLast?, c.utf8Size ≠ 1

theorem dropLastByte_eq_none :
    dropLastByte s = none ↔ ∀ c ∈ s.toList.getLast?, c.utf8Size ≠ 1 := by
  rw [dropLastByte]
  cases s.toList.getLast? with
  | none => simp
  | some c => by_cases hc : c.utf8Size = 1 <;> simp [hc]

theorem parseLine_eq_none {now : ℕ} {line : String} :
    parseLine (F := F) now line = none ↔ SlicesBadly F line := by
  unfold parseLine SlicesBadly
  by_cases hkeep : Text.trim line = "" ∨ (Text.trim line).toList.head? = some '#'
  · simp [hkeep]
  rcases hsplit : Text.splitLast ' ' (Text.trim line) with _ | ⟨nameAndLabels, valueStr⟩
  · simp [hkeep, hsplit]
  rcases hvalue : (F64.parse valueStr : Option F) with _ | value
  · simp [hkeep, hsplit, hvalue]
  rcases hbrace : Text.splitFirst openBrace nameAndLabels with ⟨name, _ | rest⟩
  · simp [hkeep, hsplit, hvalue, hbrace]
  · simp only [if_neg hkeep, hsplit, hvalue, hbrace, Option.map_eq_none_iff, dropLastByte_eq_none]
    constructor
    · exact fun h => ⟨hkeep, nameAndLabels, valueStr, name, rest, rfl, by simp [hvalue], hbrace, h⟩
    · rintro ⟨_, _, _, _, _, heq, _, hcut, h⟩
      cases heq
      rw [hbrace] at hcut
      cases hcut
      exact h

theorem mapM_eq_none {α β : Type} {f : α → Option β} {l : List α} :
    l.mapM f = none ↔ ∃ x ∈ l, f x = none := by
  induction l with
  | nil => simp
  | cons x l ih =>
    rw [List.mapM_cons, List.exists_mem_cons_iff, ← ih]
    cases f x <;> cases l.mapM f <;> simp

theorem mem_of_mapM {α β : Type} {f : α → Option β} {l : List α} {bs : List β}
    (h : l.mapM f = some bs) {x : α} (hx : x ∈ l) {b : β} (hb : f x = some b) : b ∈ bs := by
  induction l generalizing bs with
  | nil => cases hx
  | cons y l ih =>
    rw [List.mapM_cons] at h
    obtain ⟨b', hb', h⟩ := Option.bind_eq_some_iff.mp h
    obtain ⟨bs', hbs', h⟩ := Option.bind_eq_some_iff.mp h
    cases h
    rcases List.mem_cons.mp hx with rfl | hx
    · rw [hb] at hb'
      cases hb'
      exact List.mem_cons_self
    · exact List.mem_cons_of_mem _ (ih hbs' hx)

/-- Numbers whose texts are whole decimals. -/
@[reducible] def decimals : F64 Ratio :=
  { (inferInstance : F64 Ratio) with
    parse := fun s => (Text.parseUnsigned (2 ^ 64) s).map F64.ofNat }

theorem isToken_of (h : s ≠ "" ∧ s.toList.all isTokenChar = true) : IsToken s :=
  ⟨h.1, List.all_eq_true.mp h.2⟩

/-- The line `up{job="a",} 1` behind a blank. -/
def jobLine : Line Ratio where
  name := "up"
  braces := some
    { labels := [{ key := "job", value := "a", isToken := isToken_of (by decide) }]
      nodup := by decide
      comma := true }
  valueText := "1"
  value := F64.ofNat 1
  isToken := ⟨isToken_of (by decide), isToken_of (by decide)⟩
  lead := .blank
  apart h := by cases h

/-- The line `up{} 2`. -/
def bareLine : Line Ratio where
  name := "up"
  braces := some { labels := [], nodup := by decide }
  valueText := "2"
  value := F64.ofNat 2
  isToken := ⟨isToken_of (by decide), isToken_of (by decide)⟩
  apart h := by cases h

end Ekafleet.Metrics
