import Mathlib.Data.String.Basic
import Ekafleet.Lib.Codec
import Ekafleet.Lib.HashMap
import Ekafleet.Lib.Text

/-! Digests, image references and manifests | source: agent/oci/{digest,reference,manifest}.rs

    SHA-256 and the JSON parsers of manifest and index are parameters. -/

namespace Ekafleet.Oci

/-! ### Digests -/

def isAsciiHexdigit (c : Char) : Bool :=
  ('0' ≤ c && c ≤ '9') || ('a' ≤ c && c ≤ 'f') || ('A' ≤ c && c ≤ 'F')

/-- An OCI digest `sha256:<hex>`, by its 64 hexadecimal digits. -/
structure Digest where
  hex : String
  valid : hex.toList.length = 64 ∧ hex.toList.all isAsciiHexdigit = true
  deriving DecidableEq, Repr

/-- Why a digest does not parse. -/
inductive DigestError where | unsupportedAlgorithm | invalidLength | invalidHex
  deriving DecidableEq, Repr

def DigestError.text : DigestError → String
  | .unsupportedAlgorithm => "unsupported digest algorithm (only sha256 supported)"
  | .invalidLength => "invalid digest length (expected 64 hex chars)"
  | .invalidHex => "invalid hex encoding"

theorem utf8Len_of_hexdigits : ∀ {cs : List Char}, cs.all isAsciiHexdigit = true →
    String.utf8Len cs = cs.length
  | [], _ => rfl
  | c :: cs, h => by
    simp only [List.all_cons, Bool.and_eq_true] at h
    have hc : c.utf8Size = 1 := by
      have : c.val ≤ 127 := by
        simp only [isAsciiHexdigit, Bool.or_eq_true, Bool.and_eq_true, decide_eq_true_eq] at h
        rcases h.1 with (h | h) | h <;>
          exact UInt32.le_trans h.2 (by decide)
      exact Char.utf8Size_eq_one_iff.mpr this
    rw [String.utf8Len_cons, utf8Len_of_hexdigits h.2, hc, List.length_cons]

namespace Digest

/-- The digits of one byte, in lower case. -/
def hexByte (b : UInt8) : List Char := [Nat.digitChar (b.toNat / 16), Nat.digitChar (b.toNat % 16)]

theorem digitChar_valid : ∀ n < 16, isAsciiHexdigit (Nat.digitChar n) = true := by decide

theorem hexByte_valid (b : UInt8) : (hexByte b).all isAsciiHexdigit = true := by
  grind [UInt8.toNat_lt, hexByte, digitChar_valid]

/-- The digest of a SHA-256 hash. -/
def ofHash (hash : List.Vector UInt8 32) : Digest where
  hex := String.ofList (hash.toList.flatMap hexByte)
  valid := by
    rw [String.toList_ofList, List.length_flatMap, List.all_flatMap]
    refine ⟨?_, List.all_eq_true.mpr fun b _ => hexByte_valid b⟩
    simp [hexByte]

def display (d : Digest) : String := s!"sha256:{d.hex}"

/-- `FromStr for Digest`. -/
def parse (s : String) : Except DigestError Digest :=
  match Text.stripPrefix "sha256:" s with
  | none => .error .unsupportedAlgorithm
  | some rest =>
    if hlen : rest.utf8ByteSize ≠ 64 then .error .invalidLength
    else if hhex : rest.toList.all isAsciiHexdigit = true then
      .ok ⟨rest, by
        rw [← utf8Len_of_hexdigits hhex, ← String.utf8ByteSize_ofList, String.ofList_toList]
        exact ⟨not_not.mp hlen, hhex⟩⟩
    else .error .invalidHex

/-- `Display for Digest` is read back. -/
theorem parse_display (d : Digest) : parse d.display = .ok d := by
  have hstrip : Text.stripPrefix "sha256:" d.display = some d.hex :=
    Text.stripPrefix_append "sha256:" d.hex
  have hlen : d.hex.utf8ByteSize = 64 := by
    rw [← d.valid.1, ← utf8Len_of_hexdigits d.valid.2, ← String.utf8ByteSize_ofList,
      String.ofList_toList]
  rw [parse, hstrip]
  simp only [hlen, ne_eq, not_true, dite_false, d.valid.2, dite_true]

end Digest

/-! ### Image references -/

/-- A parsed reference to an image. -/
structure ImageReference where
  registry : String
  repository : String
  tag : Option String
  digest : Option Digest
  deriving DecidableEq, Repr

/-- The reference used in registry API calls (digest or tag). -/
def ImageReference.apiReference (image : ImageReference) : String :=
  match image.digest with
  | some d => d.display
  | none => image.tag.getD "latest"

/-- Why a reference does not parse. -/
inductive ReferenceError where | empty | emptyRepository | invalidDigest
  deriving DecidableEq, Repr

/-- `FromStr for ImageReference`: `[registry/]repository[:tag][@sha256:hex]`. -/
def ImageReference.parse (s : String) : Except ReferenceError ImageReference := do
  if s = "" then throw .empty
  let (nameTag, digest) ← match Text.splitLast '@' s with
    | some (before, digestStr) => match Digest.parse digestStr with
      | .ok d => pure (before, some d)
      | .error _ => throw .invalidDigest
    | none => pure (s, none)
  -- a tag is what follows the last colon, unless that is a port
  let (name, tag) := match Text.splitLast ':' nameTag with
    | some (before, after) => if '/' ∈ after.toList then (nameTag, none) else (before, some after)
    | none => (nameTag, none)
  let hub := ("docker.io", if '/' ∈ name.toList then name else s!"library/{name}")
  let (registry, repository) := match Text.splitFirst '/' name with
    | (first, some rest) =>
      if '.' ∈ first.toList ∨ ':' ∈ first.toList ∨ first = "localhost" then (first, rest) else hub
    | (_, none) => hub
  if repository = "" then throw .emptyRepository
  return ⟨registry, repository, tag, digest⟩

/-! ### Manifests -/

/-- The platform of an image. -/
structure Platform where
  architecture : String
  os : String
  variant : Option String := none
  deriving DecidableEq, Repr

/-- Does `p` match `other` (ignoring the variant if unset)? -/
def Platform.matches (p other : Platform) : Bool :=
  let arch := p.architecture == other.architecture ||
    (p.architecture == "amd64" && other.architecture == "x86_64") ||
    (p.architecture == "x86_64" && other.architecture == "amd64") ||
    (p.architecture == "arm64" && other.architecture == "aarch64") ||
    (p.architecture == "aarch64" && other.architecture == "arm64")
  let variant := match p.variant, other.variant with
    | some a, some b => a == b
    | _, _ => true
  arch && p.os == other.os && variant

/-- A blob by digest. -/
structure Descriptor where
  digest : Digest
  platform : Option Platform := none
  annotations : Option (HashMap String String) := none

/-- A manifest: configuration and layers. -/
structure ImageManifest where
  config : Descriptor
  layers : List Descriptor

/-- An index of manifests by platform. -/
structure ImageIndex where
  manifests : List Descriptor

def ImageIndex.selectPlatform (idx : ImageIndex) (target : Platform) : Option Descriptor :=
  idx.manifests.find? fun d => d.platform.any (·.matches target)

/-- What the registry has under a reference. -/
inductive ManifestKind where
  | manifest (m : ImageManifest)
  | index (idx : ImageIndex)

/-- Why a manifest does not parse. -/
inductive ManifestError where
  | unsupportedMediaType (mediaType : String)
  | json (message : String)
  deriving DecidableEq, Repr

def ManifestError.text : ManifestError → String
  | .unsupportedMediaType t => s!"unsupported manifest media type: {t}"
  | .json m => s!"manifest JSON parse error: {m}"

/-- The hash function, the JSON parsers, and the platform the agent runs on. -/
structure ImageLib where
  sha256 : Bytes → List.Vector UInt8 32
  manifestJson : Bytes → Except String ImageManifest
  indexJson : Bytes → Except String ImageIndex
  host : Platform

variable (lib : ImageLib)

/-- `Digest::from_bytes`. -/
def ImageLib.digest (data : Bytes) : Digest := .ofHash (lib.sha256 data)

def mediaTypeManifest : String := "application/vnd.oci.image.manifest.v1+json"

def mediaTypeIndex : String := "application/vnd.oci.image.index.v1+json"

def mediaTypeDockerManifest : String := "application/vnd.docker.distribution.manifest.v2+json"

def mediaTypeDockerManifestList : String :=
  "application/vnd.docker.distribution.manifest.list.v2+json"

def acceptManifests : List String :=
  [mediaTypeManifest, mediaTypeIndex, mediaTypeDockerManifest, mediaTypeDockerManifestList]

/-- Parse a manifest or an index, as the content type says. -/
def ManifestKind.fromJson (mediaType : String) (data : Bytes) :
    Except ManifestError ManifestKind :=
  if mediaType = mediaTypeManifest ∨ mediaType = mediaTypeDockerManifest then
    ((lib.manifestJson data).map .manifest).mapError .json
  else if mediaType = mediaTypeIndex ∨ mediaType = mediaTypeDockerManifestList then
    ((lib.indexJson data).map .index).mapError .json
  else .error (.unsupportedMediaType mediaType)

end Ekafleet.Oci
