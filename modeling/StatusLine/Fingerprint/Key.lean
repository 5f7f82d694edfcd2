import StatusLine.Fingerprint.Canonical
import StatusLine.Fingerprint.Sha256

/-!
Cache keys: a domain and the digest of the canonical form of everything that tells two entries of
that domain apart.
-/

namespace StatusLine.Fingerprint

def domains : List String :=
  ["template", "fragment", "usage", "system", "git"]

def utf8 (text : List Char) : List UInt8 :=
  (String.ofList text).toUTF8.toList

def digest (fields : Datum) : Except Failure String :=
  fields.canonicalText.map fun encoded => String.ofList (Sha256.digest (utf8 encoded))

def key (domain : String) (fields : Datum) : Except Failure String :=
  if domains.contains domain then
    (digest fields).map fun hex => domain ++ "-" ++ hex
  else .error (.outOfRange ("Unknown cache domain: " ++ domain))

def domainOf (key : String) : String :=
  String.ofList (key.toList.takeWhile (· != '-'))

end StatusLine.Fingerprint
