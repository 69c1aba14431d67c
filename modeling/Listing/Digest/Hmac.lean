import Listing.Digest.Sha256

/-!
# Keyed digests

The keyed digest of a message can be computed by whoever has the key. A key longer than a block is
replaced by its digest.
-/

set_option autoImplicit false

namespace Listing.Hmac

/-- A key of one block. -/
def blockKey (key : List UInt8) : List UInt8 :=
  let k := if key.length > 64 then Sha256.digest key else key
  k ++ List.replicate (64 - k.length) 0

/-- The keyed digest of a message. -/
def digest (key message : List UInt8) : List UInt8 :=
  let k := blockKey key
  let inner := Sha256.digest (k.map (· ^^^ 0x36) ++ message)
  Sha256.digest (k.map (· ^^^ 0x5c) ++ inner)

end Listing.Hmac
