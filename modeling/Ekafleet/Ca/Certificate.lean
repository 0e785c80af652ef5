import Ekafleet.Lib.Text

/-! X.509 contents the fleet looks at | source: proxy/mtls.rs

    A certificate is what a verified parse of it gives: names, key usages, whether it is a CA. -/

namespace Ekafleet.Ca

/-- Kinds of subject alternative names. -/
inductive SanType where
  | rfc822Name (name : String)
  | dnsName (name : String)
  | uri (uri : String)
  | ipAddress (ip : String)
  deriving DecidableEq, Repr

/-- `NoCa` is the default; only `ca` writes a CA basic constraint. -/
inductive IsCa where | noCa | explicitNoCa | ca
  deriving DecidableEq, Repr

/-- Key usages of a certificate. -/
inductive KeyUsagePurpose where
  | digitalSignature | contentCommitment | keyEncipherment | dataEncipherment | keyAgreement
  | keyCertSign | crlSign | encipherOnly | decipherOnly
  deriving DecidableEq, Repr

/-- Extended key usages of a certificate. -/
inductive ExtendedKeyUsagePurpose where
  | any | serverAuth | clientAuth | codeSigning | emailProtection | timeStamping | ocspSigning
  deriving DecidableEq, Repr

/-- The contents of a certificate to be signed. -/
structure CertificateParams where
  subjectAltNames : List SanType := []
  commonName : Option String := none
  organizationName : Option String := none
  isCa : IsCa := .noCa
  keyUsages : List KeyUsagePurpose := []
  extendedKeyUsages : List ExtendedKeyUsagePurpose := []
  notAfter : ℕ := 0
  deriving DecidableEq, Repr

/-- The URI names, in order. -/
def uriSans (sans : List SanType) : List String :=
  sans.filterMap fun
    | .uri u => some u
    | _ => none

/-- The first URI name that starts with `spiffe://`. -/
def extractSpiffeId (sans : List SanType) : Option String :=
  (uriSans sans).find? fun u => "spiffe://".toList.isPrefixOf u.toList

end Ekafleet.Ca
