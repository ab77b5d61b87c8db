/-
  FilmCatalog.Address.Percent
  ───────────────────────────
  **PERCENT ENCODING.**

  A web address holds ASCII only.  Each part of it has its own set of
  characters that may not stand for themselves; such a character is written
  as the bytes of its UTF-8 form, each as `%` and two hexadecimal digits.
-/

namespace FilmCatalog.Address

/-! ## §1. The sets. -/

/-- Control characters and everything outside of ASCII. -/
def isControl (c : Char) : Bool := c.toNat < 0x20 || 0x7e < c.toNat

/-- What is encoded in a fragment. -/
def inFragmentSet (c : Char) : Bool :=
  isControl c || c = ' ' || c = '"' || c = '<' || c = '>' || c.toNat = 0x60

/-- What is encoded in a path. -/
def inPathSet (c : Char) : Bool :=
  inFragmentSet c || c = '#' || c = '?' || c = '\x7b' || c = '\x7d'

/-- What is encoded in a user name or a password. -/
def inCredentialSet (c : Char) : Bool :=
  inPathSet c || c = '/' || c = ':' || c = ';' || c = '=' || c = '@' || c = '[' || c = '\\'
    || c = ']' || c = '^' || c = '|'

/-- What is encoded in a query; an apostrophe only under the well-known
schemes. -/
def inQuerySet (wellKnown : Bool) (c : Char) : Bool :=
  isControl c || c = ' ' || c = '"' || c = '#' || c = '<' || c = '>'
    || (wellKnown && c = '\'')

/-! ## §2. Encoding and decoding. -/

/-- A hexadecimal digit, in upper case. -/
def hexUpper (n : Nat) : Char :=
  if n < 10 then Char.ofNat ('0'.toNat + n) else Char.ofNat ('A'.toNat + (n - 10))

/-- A byte as `%` and two digits. -/
def encodeByte (byte : Nat) : List Char := ['%', hexUpper (byte / 16), hexUpper (byte % 16)]

/-- A character as its encoded bytes. -/
def encodeChar (c : Char) : List Char :=
  (String.utf8EncodeChar c).flatMap fun byte => encodeByte byte.toNat

/-- Encodes the characters of a set and keeps the others. -/
def percentEncode (inSet : Char → Bool) (text : List Char) : List Char :=
  text.flatMap fun c => if inSet c then encodeChar c else [c]

/-- The value of a hexadecimal digit. -/
def hexValue? (c : Char) : Option Nat :=
  if '0' ≤ c ∧ c ≤ '9' then some (c.toNat - '0'.toNat)
  else if 'a' ≤ c ∧ c ≤ 'f' then some (c.toNat - 'a'.toNat + 10)
  else if 'A' ≤ c ∧ c ≤ 'F' then some (c.toNat - 'A'.toNat + 10)
  else none

/-- The codes of a text in which encoded bytes are decoded; what is no
encoded byte stands for itself. -/
def percentDecode : List Char → List Nat
  | '%' :: a :: b :: rest =>
      match hexValue? a, hexValue? b with
      | some high, some low => (high * 16 + low) :: percentDecode rest
      | _, _ => '%'.toNat :: percentDecode (a :: b :: rest)
  | c :: rest => c.toNat :: percentDecode rest
  | [] => []

end FilmCatalog.Address
