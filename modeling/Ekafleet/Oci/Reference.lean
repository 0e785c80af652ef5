import Ekafleet.Lib.TextSplit
import Ekafleet.Oci.Image

/-! Image references as text | source: agent/oci/reference.rs

    A reference is taken apart from its end: a digest, a tag, then the registry, which is told from
    a part of the repository by how it looks. What is printed names all parts, so the same ones are
    found in it. -/

namespace Ekafleet.Oci

theorem Digest.not_mem_display (d : Digest) : '@' ∉ d.display.toList := by
  have hhex : '@' ∉ d.hex.toList := fun hmem => by
    simpa [isAsciiHexdigit] using List.all_eq_true.mp d.valid.2 '@' hmem
  have hdisplay : d.display.toList = "sha256:".toList ++ d.hex.toList := String.toList_append
  rw [hdisplay]
  simpa using hhex

namespace ImageReference

def tagText (tag : Option String) : String := (tag.map (":" ++ ·)).getD ""

def digestText (digest : Option Digest) : String := (digest.map fun d => "@" ++ d.display).getD ""

/-- `Display for ImageReference`. -/
def display (r : ImageReference) : String :=
  r.registry ++ "/" ++ r.repository ++ tagText r.tag ++ digestText r.digest

/-! ### The parts of a reference -/

/-- The digest is what follows the last at sign. -/
inductive DigestSplit (s : String) : String → Option Digest → Prop
  | digest {nameTag text : String} {d : Digest} : Text.splitLast '@' s = some (nameTag, text) →
      Digest.parse text = .ok d → DigestSplit s nameTag (some d)
  | none : Text.splitLast '@' s = none → DigestSplit s s none

/-- The tag is what follows the last colon, unless that is a port. -/
inductive TagSplit (nameTag : String) : String → Option String → Prop
  | tag {name after : String} : Text.splitLast ':' nameTag = some (name, after) →
      '/' ∉ after.toList → TagSplit nameTag name (some after)
  | port {before after : String} : Text.splitLast ':' nameTag = some (before, after) →
      '/' ∈ after.toList → TagSplit nameTag nameTag none
  | none : Text.splitLast ':' nameTag = none → TagSplit nameTag nameTag none

def IsRegistry (first : String) : Prop :=
  '.' ∈ first.toList ∨ ':' ∈ first.toList ∨ first = "localhost"

/-- What comes before the first slash is the registry if it looks like one. -/
inductive NameSplit (name : String) : String → String → Prop
  | registry {first rest : String} : Text.splitFirst '/' name = (first, some rest) →
      IsRegistry first → NameSplit name first rest
  | hub {first rest : String} : Text.splitFirst '/' name = (first, some rest) →
      ¬ IsRegistry first → NameSplit name "docker.io" name
  | library {first : String} : Text.splitFirst '/' name = (first, none) →
      NameSplit name "docker.io" ("library/" ++ name)

theorem exists_tagSplit (nameTag : String) : ∃ name tag, TagSplit nameTag name tag := by
  rcases hcolon : Text.splitLast ':' nameTag with _ | ⟨before, after⟩
  · exact ⟨_, _, .none hcolon⟩
  · by_cases hslash : '/' ∈ after.toList
    · exact ⟨_, _, .port hcolon hslash⟩
    · exact ⟨_, _, .tag hcolon hslash⟩

theorem exists_nameSplit (name : String) :
    ∃ registry repository, NameSplit name registry repository := by
  rcases hslash : Text.splitFirst '/' name with ⟨first, _ | rest⟩
  · exact ⟨_, _, .library hslash⟩
  · by_cases hfirst : IsRegistry first
    · exact ⟨_, _, .registry hslash hfirst⟩
    · exact ⟨_, _, .hub hslash hfirst⟩

variable {nameTag name : String} {tag : Option String}

/-- The parts determine what is parsed. -/
theorem parse_of_split {s registry repository : String} {digest : Option Digest} (hs : s ≠ "")
    (hdigest : DigestSplit s nameTag digest) (htag : TagSplit nameTag name tag)
    (hname : NameSplit name registry repository) :
    parse s = if repository = "" then .error .emptyRepository
      else .ok ⟨registry, repository, tag, digest⟩ := by
  -- the test for a slash in the name agrees with the cut at its first slash
  have hmem : ∀ first rest, Text.splitFirst '/' name = (first, some rest) → '/' ∈ name.toList :=
    fun first rest h => by rw [(Text.splitFirst_eq_some h).1]; simp
  cases hdigest <;> cases htag <;> cases hname with
  | registry hfirst hreg =>
    unfold IsRegistry at hreg
    simp only [parse, *, pure_bind, if_true, if_false]
    rfl
  | hub hfirst hreg =>
    have := hmem _ _ hfirst
    unfold IsRegistry at hreg
    simp only [parse, *, pure_bind, if_true, if_false]
    rfl
  | library hfirst =>
    have := Text.not_mem_of_splitFirst hfirst
    simp only [parse, *, pure_bind, if_true, if_false]
    rfl

/-- INVERSION: a reference that parses has these parts. -/
theorem split_of_parse {s : String} {r : ImageReference} (h : parse s = .ok r) :
    ∃ nameTag name, DigestSplit s nameTag r.digest ∧ TagSplit nameTag name r.tag ∧
      NameSplit name r.registry r.repository ∧ r.repository ≠ "" := by
  have hs : s ≠ "" := by
    rintro rfl
    cases h
  have hparts : ∀ nameTag digest, DigestSplit s nameTag digest →
      ∃ nameTag name, DigestSplit s nameTag r.digest ∧ TagSplit nameTag name r.tag ∧
        NameSplit name r.registry r.repository ∧ r.repository ≠ "" := by
    intro nameTag digest hdigest
    obtain ⟨name, tag, htag⟩ := exists_tagSplit nameTag
    obtain ⟨registry, repository, hname⟩ := exists_nameSplit name
    rw [parse_of_split hs hdigest htag hname] at h
    split_ifs at h with hempty
    cases h
    exact ⟨nameTag, name, hdigest, htag, hname, hempty⟩
  rcases hat : Text.splitLast '@' s with _ | ⟨before, text⟩
  · exact hparts s none (.none hat)
  · rcases hd : Digest.parse text with e | d
    · -- a digest that is refused
      simp only [parse, if_neg hs, hat, hd] at h
      cases h
    · exact hparts before (some d) (.digest hat hd)

/-! ### What is printed -/

theorem nameTag_eq (h : TagSplit nameTag name tag) :
    nameTag = name ++ tagText tag := by
  cases h with
  | tag hcolon _ =>
    rw [← String.toList_inj, (Text.splitLast_eq_some.mp hcolon).1]
    simp [tagText]
  | port _ _ => simp [tagText]
  | none _ => simp [tagText]

/-- The printed name is the name that was read, as it is or behind the defaults, and is cut at the
    same place. -/
theorem nameSplit_display {registry repository : String} (h : NameSplit name registry repository) :
    NameSplit (registry ++ "/" ++ repository) registry repository ∧
      ∃ pre, registry ++ "/" ++ repository = pre ++ name ∧ '@' ∉ pre.toList ∧
        ':' ∉ pre.toList := by
  have hcut : ∀ first rest : String, '/' ∉ first.toList → IsRegistry first →
      NameSplit (first ++ "/" ++ rest) first rest := fun first rest hslash hfirst =>
    .registry (Text.splitFirst_append (by simp) hslash) hfirst
  have hdocker : ∀ rest, NameSplit ("docker.io" ++ "/" ++ rest) "docker.io" rest := fun rest =>
    hcut _ rest (by decide) (.inl (by decide))
  cases h with
  | registry hslash hfirst =>
    obtain ⟨hname, hnot⟩ := Text.splitFirst_eq_some hslash
    refine ⟨hcut _ _ hnot hfirst, "", ?_, by simp, by simp⟩
    rw [← String.toList_inj]
    simp [hname]
  | hub _ _ => exact ⟨hdocker _, "docker.io/", rfl, by decide, by decide⟩
  | library _ =>
    refine ⟨hdocker _, "docker.io/library/", ?_, by decide, by decide⟩
    rw [← String.toList_inj]
    simp

theorem tagSplit_display {pre : String} (h : TagSplit nameTag name tag) (hpre : ':' ∉ pre.toList) :
    TagSplit (pre ++ name ++ tagText tag) (pre ++ name) tag := by
  have hnone : ∀ name : String, pre ++ name ++ tagText none = pre ++ name := by simp [tagText]
  cases h with
  | tag hcolon hslash =>
    refine .tag (Text.splitLast_eq_some.mpr ⟨?_, (Text.splitLast_eq_some.mp hcolon).2⟩) hslash
    simp [tagText]
  | @port before after hcolon hslash =>
    obtain ⟨hname, hafter⟩ := Text.splitLast_eq_some.mp hcolon
    have hshift : Text.splitLast ':' (pre ++ nameTag) = some (pre ++ before, after) := by
      refine Text.splitLast_eq_some.mpr ⟨?_, hafter⟩
      rw [String.toList_append, String.toList_append, hname, List.append_assoc]
    rw [hnone]
    exact .port hshift hslash
  | none hcolon =>
    rw [hnone]
    refine .none (Text.splitLast_eq_none.mpr ?_)
    rw [String.toList_append, List.mem_append]
    exact not_or.mpr ⟨hpre, Text.splitLast_eq_none.mp hcolon⟩

theorem digestSplit_display {shown : String} {digest : Option Digest}
    (h : digest = none → '@' ∉ shown.toList) :
    DigestSplit (shown ++ digestText digest) shown digest := by
  rcases digest with _ | d
  · have hshown : shown ++ digestText none = shown := by simp [digestText]
    rw [hshown]
    exact .none (Text.splitLast_eq_none.mpr (h rfl))
  · refine .digest (Text.splitLast_eq_some.mpr ⟨?_, d.not_mem_display⟩) d.parse_display
    simp [digestText]

/-- ROUND TRIP: what is printed of a reference that parses is read as the same reference. -/
theorem reference_roundtrip {s : String} {r : ImageReference} (h : parse s = .ok r) :
    parse r.display = .ok r := by
  obtain ⟨nameTag, name, hdigest, htag, hname, hrepository⟩ := split_of_parse h
  obtain ⟨hname', pre, hshown, hat, hcolon⟩ := nameSplit_display hname
  have htag' := tagSplit_display htag hcolon
  rw [← hshown] at htag'
  have hdigest' : DigestSplit r.display (r.registry ++ "/" ++ r.repository ++ tagText r.tag)
      r.digest := digestSplit_display fun hnone => by
      rw [hnone] at hdigest
      cases hdigest with
      | none hnot =>
        rw [hshown, String.append_assoc, ← nameTag_eq htag, String.toList_append, List.mem_append]
        exact not_or.mpr ⟨hat, Text.splitLast_eq_none.mp hnot⟩
  have hne : r.display ≠ "" := fun h => by
    have := congrArg String.toList h
    simp [display] at this
  rw [parse_of_split hne hdigest' htag' hname', if_neg hrepository]

theorem reference_roundtrip_alpine :
    parse "alpine:3" = .ok ⟨"docker.io", "library/alpine", some "3", none⟩ ∧
      parse "docker.io/library/alpine:3" = .ok ⟨"docker.io", "library/alpine", some "3", none⟩ :=
  have hparse : parse "alpine:3" = .ok ⟨"docker.io", "library/alpine", some "3", none⟩ := by
    rfl
  ⟨hparse, reference_roundtrip hparse⟩

end ImageReference
end Ekafleet.Oci
