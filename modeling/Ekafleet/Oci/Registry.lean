import Ekafleet.Lib.Loop
import Ekafleet.Oci.Image

/-! The registry client | source: agent/oci/registry.rs

    What the registry answers is a parameter: a `Network` gives the answer to each request of an
    operation, numbered from zero, so that a registry may answer one request differently each time.
    -/

namespace Ekafleet.Oci

/-- Why a request to the registry failed. -/
inductive RegistryError where
  | http (message : String)
  | auth (message : String)
  | notFound (url : String)
  | digestMismatch (expected actual : String)
  | manifestParse (message : String)
  | body (message : String)
  | status (status : ℕ) (message : String)
  | timeout
  deriving DecidableEq, Repr

/-- A GET request (`authenticated_get`). -/
structure Request where
  url : String
  scope : String
  accept : Option String
  deriving DecidableEq, Repr

/-- The body of an answer. -/
structure Body where
  mediaType : String
  data : Bytes
  deriving DecidableEq, Repr

/-- The answers to the GET requests of one operation. -/
abbrev Network := ℕ → Request → Except RegistryError Body

/-- The answer to a HEAD request: the status, and the `docker-content-digest` header unless it is
    missing (a header that is not text is an error). -/
structure HeadAnswer where
  status : ℕ
  contentDigest : Option (Except String String)

namespace ImageReference

def scope (image : ImageReference) : String := s!"repository:{image.repository}:pull"

def manifestRequest (image : ImageReference) : Request where
  url := s!"https://{image.registry}/v2/{image.repository}/manifests/{image.apiReference}"
  scope := image.scope
  accept := some (", ".intercalate acceptManifests)

def blobRequest (image : ImageReference) (digest : Digest) : Request where
  url := s!"https://{image.registry}/v2/{image.repository}/blobs/{digest.display}"
  scope := image.scope
  accept := none

end ImageReference

/-- A manifest as it was fetched. -/
structure ManifestResponse where
  kind : ManifestKind
  raw : Bytes
  digest : Digest

variable (lib : ImageLib)

/-- Content that was asked for by digest must have it. -/
def checkDigest (expected : Option Digest) (actual : Digest) : Except RegistryError Unit :=
  match expected with
  | some e => if actual = e then .ok () else .error (.digestMismatch e.display actual.display)
  | none => .ok ()

/-- Fetch a manifest or image index; a pinned reference must hash to its digest. -/
def fetchManifest (answer : Request → Except RegistryError Body) (image : ImageReference) :
    Except RegistryError ManifestResponse := do
  let body ← answer image.manifestRequest
  checkDigest image.digest (lib.digest body.data)
  let kind ← (ManifestKind.fromJson lib body.mediaType body.data).mapError fun e =>
    .manifestParse e.text
  return ⟨kind, body.data, lib.digest body.data⟩

/-- Fetch a blob, which must hash to the digest asked for. -/
def fetchBlob (answer : Request → Except RegistryError Body) (image : ImageReference)
    (expected : Digest) : Except RegistryError (Digest × Bytes) := do
  let body ← answer (image.blobRequest expected)
  checkDigest (some expected) (lib.digest body.data)
  return (lib.digest body.data, body.data)

/-- The digest the registry names for the image, if it names one. -/
def headManifest (answer : Except RegistryError HeadAnswer) :
    Except RegistryError (Option Digest) := do
  let resp ← answer
  match resp.status with
  | 200 => match resp.contentDigest with
    | some header =>
      let text ← header.mapError .http
      let digest ← (Digest.parse text).mapError fun e => .http e.text
      return some digest
    | none => return none
  | 404 => return none
  | status => throw (.status status "HEAD manifest failed")

theorem eq_of_checkDigest {expected : Option Digest} {actual : Digest} {u : Unit}
    (h : checkDigest expected actual = .ok u) {d : Digest} (hd : expected = some d) :
    actual = d := by
  subst hd
  simp only [checkDigest] at h
  split at h
  · assumption
  · cases h

theorem ManifestKind.fromJson_ok {mediaType : String} {data : Bytes} {kind : ManifestKind}
    (h : fromJson lib mediaType data = .ok kind) :
    (∃ m, kind = .manifest m ∧ lib.manifestJson data = .ok m) ∨
      ∃ idx, kind = .index idx ∧ lib.indexJson data = .ok idx := by
  unfold fromJson at h
  split at h
  · rcases hjson : lib.manifestJson data with e | m <;> rw [hjson] at h <;> cases h
    exact .inl ⟨m, rfl, rfl⟩
  · split at h
    · rcases hjson : lib.indexJson data with e | idx <;> rw [hjson] at h <;> cases h
      exact .inr ⟨idx, rfl, rfl⟩
    · cases h

/-- A response that was accepted: its digest is that of its bytes and the one asked for. -/
structure ManifestResponse.Genuine (resp : ManifestResponse) (image : ImageReference) : Prop where
  digest : resp.digest = lib.digest resp.raw
  pinned : ∀ d, image.digest = some d → resp.digest = d
  manifest : ∀ m, resp.kind = .manifest m → lib.manifestJson resp.raw = .ok m
  index : ∀ idx, resp.kind = .index idx → lib.indexJson resp.raw = .ok idx

variable {answer : Request → Except RegistryError Body}

theorem fetchManifest_ok {image : ImageReference} {resp : ManifestResponse}
    (h : fetchManifest lib answer image = .ok resp) :
    resp.Genuine lib image := by
  obtain ⟨body, -, h⟩ := Loop.bind_eq_ok h
  obtain ⟨_, hcheck, h⟩ := Loop.bind_eq_ok h
  obtain ⟨kind, hkind, h⟩ := Loop.bind_eq_ok h
  cases h
  have hparsed : ManifestKind.fromJson lib body.mediaType body.data = .ok kind := by
    rcases hjson : ManifestKind.fromJson lib body.mediaType body.data with e | k <;>
      rw [hjson] at hkind <;> cases hkind
    rfl
  refine ⟨rfl, fun d hd => eq_of_checkDigest hcheck hd, ?_, ?_⟩
  · grind [ManifestKind.fromJson_ok]
  grind [ManifestKind.fromJson_ok]

theorem fetchBlob_ok {image : ImageReference} {expected digest : Digest} {data : Bytes}
    (h : fetchBlob lib answer image expected = .ok (digest, data)) :
    digest = lib.digest data ∧ digest = expected := by
  obtain ⟨body, -, h⟩ := Loop.bind_eq_ok h
  obtain ⟨_, hcheck, h⟩ := Loop.bind_eq_ok h
  cases h
  exact ⟨rfl, eq_of_checkDigest hcheck rfl⟩

end Ekafleet.Oci
