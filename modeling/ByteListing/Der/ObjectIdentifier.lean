import ByteListing.Bytes.Base128

/-! # Object identifiers

The body of an object identifier is a sequence of numbers below `2 ^ 64` in base 128, most
significant group first and possibly padded.  The first number of an absolute identifier
stands for its first two arcs. -/
set_option autoImplicit false
namespace ByteListing.Der.ObjectIdentifier

/-- The numbers in a body, if it consists of whole numbers below `2 ^ 64`. -/
def numbers? (data : Bytes) : Option (List Nat) :=
  match data with
  | [] => some []
  | byte :: rest =>
    match _found : Base128.mostFirst? (Nat.pow 2 64) 0 (byte :: rest) with
    | none => none
    | some (number, remaining) => (numbers? remaining).map (number :: ·)
termination_by data.length
decreasing_by exact Base128.length_lt_of_mostFirst? _found

/-- The two arcs that the first number of an absolute identifier stands for. -/
def firstArcs (number : Nat) : List Nat :=
  if number < 40 then [0, number]
  else if number < 80 then [1, number - 40]
  else [2, number - 80]

def arcs (relative : Bool) : List Nat → List Nat
  | [] => []
  | first :: rest => if relative then first :: rest else firstArcs first ++ rest

def dotted (arcs : List Nat) : String := ".".intercalate (arcs.map toString)

def decode? (relative : Bool) (body : Bytes) : Option String :=
  match numbers? body with
  | none | some [] => none
  | some numbers => some (dotted (arcs relative numbers))

def wellKnown : List (String × String) := [
  ("1.2.840.113549.1.1.1", "rsaEncryption"),
  ("1.2.840.113549.1.1.5", "sha1WithRSAEncryption"),
  ("1.2.840.113549.1.1.10", "rsassaPss"),
  ("1.2.840.113549.1.1.11", "sha256WithRSAEncryption"),
  ("1.2.840.113549.1.1.12", "sha384WithRSAEncryption"),
  ("1.2.840.113549.1.1.13", "sha512WithRSAEncryption"),
  ("1.2.840.113549.1.5.12", "pbkdf2"),
  ("1.2.840.113549.1.5.13", "pbes2"),
  ("1.2.840.113549.1.7.1", "data"),
  ("1.2.840.113549.1.7.2", "signedData"),
  ("1.2.840.113549.1.9.1", "emailAddress"),
  ("1.2.840.113549.1.9.14", "extensionRequest"),
  ("1.2.840.10045.2.1", "ecPublicKey"),
  ("1.2.840.10045.3.1.7", "prime256v1"),
  ("1.2.840.10045.4.3.2", "ecdsa-with-SHA256"),
  ("1.2.840.10045.4.3.3", "ecdsa-with-SHA384"),
  ("1.2.840.10045.4.3.4", "ecdsa-with-SHA512"),
  ("1.3.132.0.34", "secp384r1"),
  ("1.3.132.0.35", "secp521r1"),
  ("1.3.101.110", "X25519"),
  ("1.3.101.112", "ED25519"),
  ("2.5.4.3", "commonName"),
  ("2.5.4.5", "serialNumber"),
  ("2.5.4.6", "countryName"),
  ("2.5.4.7", "localityName"),
  ("2.5.4.8", "stateOrProvinceName"),
  ("2.5.4.10", "organizationName"),
  ("2.5.4.11", "organizationalUnitName"),
  ("2.5.29.14", "subjectKeyIdentifier"),
  ("2.5.29.15", "keyUsage"),
  ("2.5.29.17", "subjectAltName"),
  ("2.5.29.19", "basicConstraints"),
  ("2.5.29.31", "cRLDistributionPoints"),
  ("2.5.29.32", "certificatePolicies"),
  ("2.5.29.35", "authorityKeyIdentifier"),
  ("2.5.29.37", "extKeyUsage"),
  ("1.3.6.1.5.5.7.1.1", "authorityInfoAccess"),
  ("1.3.6.1.5.5.7.3.1", "serverAuth"),
  ("1.3.6.1.5.5.7.3.2", "clientAuth"),
  ("2.16.840.1.101.3.4.1.2", "aes128-CBC"),
  ("2.16.840.1.101.3.4.1.42", "aes256-CBC"),
  ("2.16.840.1.101.3.4.2.1", "sha256"),
  ("2.16.840.1.101.3.4.2.2", "sha384"),
  ("2.16.840.1.101.3.4.2.3", "sha512")]

def name? (identifier : String) : Option String := wellKnown.lookup identifier

end ByteListing.Der.ObjectIdentifier
