import Mathlib.Data.List.DropRight
import Mathlib.Tactic

/-! Text operations on `String`, defined through the list of characters so that they compute and
    so that their lemmas are lemmas about lists. -/

namespace Text

/-- The Unicode `White_Space` property. -/
def isWhitespace (c : Char) : Bool :=
  let n := c.toNat
  (9 ≤ n && n ≤ 13) || n == 0x20 || n == 0x85 || n == 0xA0 || n == 0x1680 ||
    (0x2000 ≤ n && n ≤ 0x200A) || n == 0x2028 || n == 0x2029 || n == 0x202F || n == 0x205F ||
    n == 0x3000

/-- Remove leading and trailing white space. -/
def trim (s : String) : String :=
  String.ofList ((s.toList.dropWhile isWhitespace).rdropWhile isWhitespace)

/-- All pieces between occurrences of `sep`; the empty string has one empty piece. -/
def split (sep : Char) (s : String) : List String := (s.toList.splitOn sep).map String.ofList

/-- The text before the first `sep`, and the text after it if there is one. -/
def splitFirst (sep : Char) (s : String) : String × Option String :=
  match s.toList.dropWhile (· ≠ sep) with
  | [] => (s, none)
  | _ :: rest => (String.ofList (s.toList.takeWhile (· ≠ sep)), some (String.ofList rest))

/-- The text before the last `sep`, or all of it if there is none. -/
def beforeLast (sep : Char) (s : String) : String :=
  match s.toList.reverse.dropWhile (· ≠ sep) with
  | [] => s
  | _ :: before => String.ofList before.reverse

/-- The texts before and after the last `sep`. -/
def splitLast (sep : Char) (s : String) : Option (String × String) :=
  match s.toList.reverse.dropWhile (· ≠ sep) with
  | [] => none
  | _ :: before => some (String.ofList before.reverse,
      String.ofList (s.toList.reverse.takeWhile (· ≠ sep)).reverse)

/-- What follows a given beginning of the text. -/
def stripPrefix (pre s : String) : Option String :=
  (pre.toList.isPrefixOf? s.toList).map String.ofList

/-- A number in decimal, filled up with zeros on the left. -/
def padded (width n : ℕ) : String := String.ofList ((toString n).toList.leftpad width '0')

/-- Stem and extension of a file name, split at the last dot; a leading dot splits nothing. -/
def fileParts (name : String) : String × Option String :=
  let chars := name.toList.reverse
  if name = ".." then (name, none)
  else match chars.dropWhile (· ≠ '.') with
    | [] | [_] => (name, none)
    | _ :: before => (String.ofList before.reverse,
        some (String.ofList (chars.takeWhile (· ≠ '.')).reverse))

/-- An unsigned decimal number below a bound, with an optional plus sign. -/
def parseUnsigned (bound : ℕ) (s : String) : Option ℕ :=
  let digits := match s.toList with
    | '+' :: ds => ds
    | ds => ds
  let n := digits.foldl (fun n c => 10 * n + (c.toNat - '0'.toNat)) 0
  if !digits.isEmpty && digits.all Char.isDigit && n < bound then some n else none

/-- What precedes a given end of the text. -/
def stripSuffix (suf s : String) : Option String :=
  (suf.toList.reverse.isPrefixOf? s.toList.reverse).map fun cs => String.ofList cs.reverse

theorem stripPrefix_eq_some {pre s t : String} (h : stripPrefix pre s = some t) : s = pre ++ t := by
  obtain ⟨cs, hcs, rfl⟩ := Option.map_eq_some_iff.mp h
  rw [← String.toList_inj, String.toList_append, String.toList_ofList]
  exact (List.isPrefixOf?_eq_some_iff_append_eq.mp hcs).symm

theorem stripPrefix_append (pre t : String) : stripPrefix pre (pre ++ t) = some t := by
  rw [stripPrefix, String.toList_append, List.isPrefixOf?_eq_some_iff_append_eq.mpr rfl,
    Option.map_some, String.ofList_toList]

theorem stripSuffix_append (t suf : String) : stripSuffix suf (t ++ suf) = some t := by
  rw [stripSuffix, String.toList_append, List.reverse_append,
    List.isPrefixOf?_eq_some_iff_append_eq.mpr rfl, Option.map_some, List.reverse_reverse,
    String.ofList_toList]

theorem stripSuffix_eq_some {suf s t : String} (h : stripSuffix suf s = some t) : s = t ++ suf := by
  obtain ⟨cs, hcs, rfl⟩ := Option.map_eq_some_iff.mp h
  rw [← String.toList_inj, String.toList_append, String.toList_ofList]
  have happend := List.isPrefixOf?_eq_some_iff_append_eq.mp hcs
  rw [← List.reverse_reverse s.toList, ← happend, List.reverse_append, List.reverse_reverse]

/-- The text after the last `sep`, or all of it if there is none. -/
def afterLast (sep : Char) (s : String) : String :=
  String.ofList (s.toList.reverse.takeWhile (· ≠ sep)).reverse

/-- Lines end at a line feed, with or without a carriage return before it; a last line without a
    line feed counts if it is not empty. -/
def lines (s : String) : List String :=
  let pieces := split '\n' s
  pieces.dropLast.map (fun l => (stripSuffix "\r" l).getD l) ++
    (pieces.getLast?.filter (· ≠ "")).toList

theorem split_append (sep : Char) (l rest : String) :
    split sep (l ++ (String.ofList [sep] ++ rest)) = split sep l ++ split sep rest := by
  rw [split, String.toList_append, String.toList_append, String.toList_ofList,
    List.singleton_append, List.splitOn_append_cons_self, List.map_append, split, split]

theorem split_of_not_mem {sep : Char} {l : String} (h : sep ∉ l.toList) : split sep l = [l] := by
  rw [split, List.splitOn_eq_singleton h, List.map_singleton, String.ofList_toList]

/-- The bytes of a text. -/
def utf8 (s : String) : List UInt8 := s.toUTF8.data.toList

/-- The text of bytes, if they are UTF-8. -/
def fromUtf8 (data : List UInt8) : Option String := String.fromUTF8? ⟨data.toArray⟩

@[simp] theorem fromUtf8_utf8 (s : String) : fromUtf8 (utf8 s) = some s := by
  simp only [fromUtf8, utf8, Array.toArray_toList, String.fromUTF8?]
  exact dif_pos s.isValidUTF8

theorem toList_loop (b : ByteArray) (i : ℕ) (r : List UInt8) :
    ByteArray.toList.loop b i r = r.reverse ++ b.data.toList.drop i := by
  fun_induction ByteArray.toList.loop b i r with
  | case1 i r h ih =>
    have hi : i < b.data.toList.length := by simpa using h
    have hget : b.get! i = b.data.toList[i] := by simp [ByteArray.get!, h]
    rw [ih]
    simp [hget, List.drop_eq_getElem_cons hi]
  | case2 i r h =>
    have hlength : b.data.toList.length ≤ i := by simpa using h
    simp [List.drop_eq_nil_of_le hlength]

theorem toUTF8_toList (s : String) : s.toUTF8.toList = utf8 s := toList_loop s.toUTF8 0 []

theorem utf8_inj {s t : String} : utf8 s = utf8 t ↔ s = t := by
  refine ⟨fun h => ?_, congrArg utf8⟩
  have hboth := congrArg fromUtf8 h
  rw [fromUtf8_utf8, fromUtf8_utf8] at hboth
  exact Option.some.inj hboth

theorem utf8_ofList (cs : List Char) :
    utf8 (String.ofList cs) = cs.flatMap String.utf8EncodeChar := by
  simp [utf8, String.toUTF8, List.utf8Encode]

theorem trim_eq_self {s : String} (h : ∀ c ∈ s.toList, isWhitespace c = false) : trim s = s := by
  grind [isWhitespace, List.dropWhile_eq_self_iff, List.getElem_mem, List.rdropWhile_eq_self_iff,
    List.getLast_mem, trim, String.ofList_toList]

theorem dropWhile_concat {α : Type} (p : α → Bool) (l : List α) (x : α) :
    (l ++ [x]).dropWhile p = if l.dropWhile p = [] ∧ p x then [] else l.dropWhile p ++ [x] := by
  rw [List.dropWhile_append]
  by_cases hl : l.dropWhile p = []
  · cases hx : p x <;> simp [hl, hx, List.dropWhile]
  · simp [hl]

theorem dropWhile_rdropWhile {α : Type} (p : α → Bool) (l : List α) :
    (l.rdropWhile p).dropWhile p = (l.dropWhile p).rdropWhile p := by
  induction l using List.reverseRecOn with
  | nil => rfl
  | append_singleton l x ih =>
    by_cases hx : p x
    · grind [List.rdropWhile_concat_pos, dropWhile_concat]
    · rw [List.rdropWhile_concat_neg p l x hx, dropWhile_concat, if_neg (fun h => hx h.2),
        List.rdropWhile_concat_neg p _ x hx]

theorem rdropWhile_append_of_last {α : Type} {p : α → Bool} {x : α} (hx : ¬ p x) (l s : List α) :
    (l ++ [x] ++ s).rdropWhile p = l ++ [x] ++ s.rdropWhile p := by
  induction s using List.reverseRecOn with
  | nil => simp [hx]
  | append_singleton s y ih =>
    rw [← List.append_assoc (l ++ [x])]
    by_cases hy : p y
    · rw [List.rdropWhile_concat_pos p _ y hy, List.rdropWhile_concat_pos p _ y hy, ih]
    · rw [List.rdropWhile_concat_neg p _ y hy, List.rdropWhile_concat_neg p _ y hy,
        List.append_assoc]

theorem trim_line (s : String) : trim ((stripSuffix "\r" s).getD s) = trim s := by
  rcases h : stripSuffix "\r" s with _ | t
  · rfl
  · have hreturn : isWhitespace '\r' = true := by decide
    rw [stripSuffix_eq_some h, Option.getD_some, trim, trim, String.toList_append,
      show "\r".toList = ['\r'] from rfl, dropWhile_concat]
    split
    · next hblank => rw [hblank.1]
    · rw [List.rdropWhile_concat_pos _ _ _ hreturn]

theorem stripPrefix_trim_append {c x : Char} (hc : ¬ isWhitespace c) (hx : ¬ isWhitespace x)
    (l : List Char) (s : String) :
    (stripPrefix (String.ofList (c :: l ++ [x])) (trim (String.ofList (c :: l ++ [x]) ++ s))).map
      trim = some (trim s) := by
  have htrim : (trim (String.ofList (c :: l ++ [x]) ++ s)).toList =
      c :: l ++ [x] ++ s.toList.rdropWhile isWhitespace := by
    rw [trim, String.toList_ofList, String.toList_append, String.toList_ofList,
      ← rdropWhile_append_of_last hx]
    simp only [List.cons_append, List.dropWhile_cons, hc, Bool.false_eq_true, if_false]
  rw [stripPrefix, htrim, String.toList_ofList,
    List.isPrefixOf?_eq_some_iff_append_eq.mpr rfl, Option.map_some, Option.map_some, trim,
    String.toList_ofList, dropWhile_rdropWhile, List.rdropWhile_idempotent, trim]

theorem trim_of_ends {c x : Char} (hc : ¬ isWhitespace c) (hx : ¬ isWhitespace x) (l : List Char) :
    trim (String.ofList (c :: l ++ [x])) = String.ofList (c :: l ++ [x]) := by
  rw [trim, String.toList_ofList, List.cons_append, List.dropWhile_cons, if_neg hc,
    ← List.cons_append, List.rdropWhile_concat_neg _ _ _ hx]

/-- White space around a text is removed, and no more. -/
theorem trim_between {c x : Char} (hc : ¬ isWhitespace c) (hx : ¬ isWhitespace x)
    {lead trail : List Char} (hlead : ∀ d ∈ lead, isWhitespace d = true)
    (htrail : ∀ d ∈ trail, isWhitespace d = true) (l : List Char) :
    trim (String.ofList (lead ++ (c :: l ++ [x]) ++ trail)) = String.ofList (c :: l ++ [x]) := by
  have hreverse : ∀ d ∈ trail.reverse, isWhitespace d = true := fun d hd =>
    htrail d (List.mem_reverse.mp hd)
  rw [trim, String.toList_ofList, List.append_assoc, List.dropWhile_append_of_pos hlead,
    List.cons_append, List.cons_append, List.dropWhile_cons, if_neg hc, List.rdropWhile]
  simp [List.dropWhile_append_of_pos hreverse, hx]

theorem stripPrefix_trim_of_head_ne {c d : Char} (hc : ¬ isWhitespace c) (hne : d ≠ c)
    (l m : List Char) :
    stripPrefix (String.ofList (d :: m)) (trim (String.ofList (c :: l))) = none := by
  rcases h : stripPrefix (String.ofList (d :: m)) (trim (String.ofList (c :: l))) with _ | t
  · rfl
  · -- the trimmed line is a beginning of the line
    have htrim : (trim (String.ofList (c :: l))).toList = (c :: l).rdropWhile isWhitespace := by
      rw [trim, String.toList_ofList, String.toList_ofList, List.dropWhile_cons, if_neg hc]
    have hpre : d :: m <+: c :: l := by
      refine List.IsPrefix.trans ?_ (List.rdropWhile_prefix isWhitespace (c :: l))
      rw [← htrim, stripPrefix_eq_some h, String.toList_append, String.toList_ofList]
      exact List.prefix_append _ _
    exact absurd (List.cons_prefix_cons.mp hpre).1 hne

/-- Remove a character from both ends. -/
def trimMatches (c : Char) (s : String) : String :=
  String.ofList ((s.toList.dropWhile (· = c)).rdropWhile (· = c))

/-- The characters before and after the first occurrence of a pattern. -/
def splitAtPattern (pat : List Char) : List Char → Option (List Char × List Char)
  | [] => if pat.isEmpty then some ([], []) else none
  | c :: cs =>
    match pat.isPrefixOf? (c :: cs) with
    | some rest => some ([], rest)
    | none => (splitAtPattern pat cs).map fun r => (c :: r.1, r.2)

/-- The texts before and after the first occurrence of `pat`. -/
def splitAt (pat s : String) : Option (String × String) :=
  (splitAtPattern pat.toList s.toList).map fun r => (String.ofList r.1, String.ofList r.2)

/-- Where `pat` first occurs. -/
def find (pat s : String) : Option ℕ := (splitAt pat s).map (·.1.length)

/-! ### Numbered file names -/

theorem toList_padded (width n : ℕ) :
    (padded width n).toList =
      List.replicate (width - (Nat.toDigits 10 n).length) '0' ++ Nat.toDigits 10 n := by
  rw [padded, String.toList_ofList, Nat.toString_eq_ofList_toDigits, String.toList_ofList]
  rfl

theorem isDigit_of_mem_padded {width n : ℕ} {c : Char} (h : c ∈ (padded width n).toList) :
    c.isDigit = true := by
  rw [toList_padded] at h
  rcases List.mem_append.mp h with h | h
  · rw [(List.mem_replicate.mp h).2]
    rfl
  · exact Nat.isDigit_of_mem_toDigits (by decide) (by decide) h

theorem padded_ne_nil (width n : ℕ) : (padded width n).toList ≠ [] := by
  rw [toList_padded]
  exact List.append_ne_nil_of_right_ne_nil _ Nat.toDigits_ne_nil

theorem parseUnsigned_padded {bound n : ℕ} (h : n < bound) (width : ℕ) :
    parseUnsigned bound (padded width n) = some n := by
  have hdigits : (match (padded width n).toList with | '+' :: ds => ds | ds => ds) =
      (padded width n).toList := by
    split
    · next ds hplus =>
      have hmem : '+' ∈ (padded width n).toList := by
        rw [hplus]
        exact List.mem_cons_self
      exact absurd (isDigit_of_mem_padded hmem) (by decide)
    · rfl
  have hvalue :
    (padded width n).toList.foldl (fun n c => 10 * n + (c.toNat - '0'.toNat)) 0 = n := by
    rw [← Nat.ofDigitChars_eq_foldl, toList_padded, Nat.ofDigitChars_append,
      Nat.ofDigitChars_replicate_zero, Nat.mul_zero,
      Nat.ofDigitChars_toDigits (by decide) (by decide)]
  have hall : (padded width n).toList.all Char.isDigit = true :=
    List.all_eq_true.mpr fun c hc => isDigit_of_mem_padded hc
  grind [padded, List.isEmpty_eq_false_iff, padded_ne_nil, parseUnsigned]

@[simp] theorem repr_inj {a b : ℕ} : a.repr = b.repr ↔ a = b := by
  constructor
  · intro h
    have ha := parseUnsigned_padded (Nat.lt_succ_of_le (Nat.le_max_left a b)) 0
    have hb := parseUnsigned_padded (Nat.lt_succ_of_le (Nat.le_max_right a b)) 0
    have hsame : padded 0 a = padded 0 b := by
      rw [padded, padded, Nat.toString_eq_repr, Nat.toString_eq_repr, h]
    rw [hsame, hb] at ha
    exact (Option.some.inj ha).symm
  · rintro rfl
    rfl

theorem afterLast_append {sep : Char} {t : List Char} (ht : sep ∉ t) (s : List Char) :
    afterLast sep (String.ofList (s ++ sep :: t)) = String.ofList t := by
  have hkeep : ∀ c ∈ t.reverse, decide (c ≠ sep) = true := fun c hc =>
    decide_eq_true fun h => ht (h ▸ List.mem_reverse.mp hc)
  rw [afterLast, String.toList_ofList, List.reverse_append, List.reverse_cons, List.append_assoc,
    List.takeWhile_append_of_pos hkeep]
  simp

theorem fileParts_append {stem ext : List Char} (hstem : stem ≠ []) (hdot : '.' ∉ ext)
    (hext : ext ≠ []) :
    fileParts (String.ofList (stem ++ '.' :: ext)) =
      (String.ofList stem, some (String.ofList ext)) := by
  have hrev : (stem ++ '.' :: ext).reverse = ext.reverse ++ '.' :: stem.reverse := by simp
  have hnot : ∀ c ∈ ext.reverse, decide (c ≠ '.') = true := fun c hc => by
    simp only [decide_eq_true_eq]
    rintro rfl
    exact hdot (List.mem_reverse.mp hc)
  have hdrop : (ext.reverse ++ '.' :: stem.reverse).dropWhile (· ≠ '.') = '.' :: stem.reverse := by
    rw [List.dropWhile_append_of_pos hnot]
    simp
  have htake : (ext.reverse ++ '.' :: stem.reverse).takeWhile (· ≠ '.') = ext.reverse := by
    rw [List.takeWhile_append_of_pos hnot]
    simp
  have hname : String.ofList (stem ++ '.' :: ext) ≠ ".." := by
    intro h
    have hlist := congrArg String.toList h
    rw [String.toList_ofList] at hlist
    -- an extension would be empty or have a dot
    obtain ⟨c, stem, rfl⟩ := List.exists_cons_of_ne_nil hstem
    obtain ⟨d, ext, rfl⟩ := List.exists_cons_of_ne_nil hext
    have hlen := congrArg List.length hlist
    grind
  obtain ⟨c, stem', hc⟩ := List.exists_cons_of_ne_nil (List.reverse_ne_nil_iff.mpr hstem)
  rw [fileParts, if_neg hname, String.toList_ofList, hrev, hdrop, htake, hc]
  simp only [← hc, List.reverse_reverse]

theorem fileParts_padded_append {suffix : String} {ext : List Char} (width n : ℕ)
    (hsuffix : suffix.toList = '.' :: ext) (hdot : '.' ∉ ext) (hext : ext ≠ []) :
    fileParts (padded width n ++ suffix) = (padded width n, some (String.ofList ext)) := by
  grind [padded, String.toList_inj, String.toList_append, String.toList_ofList, fileParts_append,
    padded_ne_nil, String.ofList_toList]

end Text
