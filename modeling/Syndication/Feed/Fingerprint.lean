import Syndication.Codec.Sha256
/-!
# Fingerprints

What is known of a payload without the payload: its length and digest, and the validators that
came with it over HTTP.
-/

namespace Syndication

/-- What is known of a payload. -/
structure Fingerprint where
  length : Option Int
  hash : Option (List UInt8)
  etag : Option String
  lastModified : Option String
  deriving DecidableEq

namespace Fingerprint

/-- Nothing is known. -/
def empty : Fingerprint := ⟨none, none, none, none⟩

instance : Inhabited Fingerprint := ⟨empty⟩

/-- Length and digest of a payload. -/
def ofContent (raw : List UInt8) : Fingerprint :=
  ⟨some raw.length, some (Sha256.digest raw), none, none⟩

/-- The same payload with other validators. -/
def withValidators (f : Fingerprint) (etag lastModified : Option String) : Fingerprint :=
  { f with etag, lastModified }

/-- Two fingerprints are of the same payload. Digests decide, together with the lengths, when both
sides have one; else the entity tags do; else the dates of modification. Without any of these in
common they are not. -/
def agrees (a b : Fingerprint) : Bool :=
  match a.hash, b.hash with
  | some x, some y => x = y && a.length = b.length
  | _, _ =>
    match a.etag, b.etag with
    | some x, some y => x = y
    | _, _ =>
      match a.lastModified, b.lastModified with
      | some x, some y => x = y
      | _, _ => false

/-- What is known after `new` has been learnt of a payload of which `old` was known: field by
field the new value, or the old one where there is none. -/
def refresh (old new : Fingerprint) : Fingerprint where
  length := new.length <|> old.length
  hash := new.hash <|> old.hash
  etag := new.etag <|> old.etag
  lastModified := new.lastModified <|> old.lastModified

end Fingerprint

end Syndication
