import AccessGate.Digest.Sha256

/-!
# Digests of credentials

A credential is never kept or logged: a store keeps its digest, an audit record the first twelve
digits of it.
-/

namespace AccessGate

/-- What stands for a credential in a store. -/
def credentialDigest (credential : String) : String := Sha256.hex credential.toUTF8.toList

/-- What stands for a credential in a log. -/
def fingerprint (credential : String) : String :=
  String.ofList ((credentialDigest credential).toList.take 12)

end AccessGate
