/-!
# Bytes of a text

In memory a text is its bytes in UTF-8. Bytes are always read as a text: a part of them that begins
like a character, and goes on like none, becomes a replacement character.
-/

namespace PluginHost.Text

def bytes (s : String) : List UInt8 :=
  s.toUTF8.data.toList

/-- A byte that goes on with a character. -/
def isTail (b : UInt8) : Bool :=
  0x80 ≤ b && b ≤ 0xbf

/-- Whether a byte can stand behind the first one of a character. After some of them not every tail
can: the character would have a shorter form, be one half of a pair, or lie beyond the last one. -/
def mayFollow (first second : UInt8) : Bool :=
  if first = 0xe0 then 0xa0 ≤ second && second ≤ 0xbf
  else if first = 0xed then 0x80 ≤ second && second ≤ 0x9f
  else if first = 0xf0 then 0x90 ≤ second && second ≤ 0xbf
  else if first = 0xf4 then 0x80 ≤ second && second ≤ 0x8f
  else 0xc2 ≤ first && first ≤ 0xf4 && isTail second

/-- How many bytes are skipped where no character is: those that begin like one, and at least
one byte. -/
def brokenLength : List UInt8 → Nat
  | first :: second :: rest =>
    if 0xe0 ≤ first && mayFollow first second then
      if 0xf0 ≤ first && rest.head?.any isTail then 3 else 2
    else 1
  | _ => 1

/-- The character with which bytes begin. -/
def front? (bs : List UInt8) : Option Char :=
  (bs.take 4).toByteArray.utf8DecodeChar? 0

/-- Reads bytes, the first of which, `skip` of them, were read already. -/
def decodeFrom : Nat → List UInt8 → List Char
  | _, [] => []
  | skip + 1, _ :: bs => decodeFrom skip bs
  | 0, b :: bs =>
    match front? (b :: bs) with
    | some c => c :: decodeFrom (c.utf8Size - 1) bs
    | none => '\uFFFD' :: decodeFrom (brokenLength (b :: bs) - 1) bs

def decode (bs : List UInt8) : String :=
  String.ofList (decodeFrom 0 bs)

end PluginHost.Text
