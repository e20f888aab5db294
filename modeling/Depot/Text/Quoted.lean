import Depot.Text.Hex
import Depot.Text.Unprintable

/-! # Quoted texts

Messages quote the texts that a client sent: between double quotes, with quotes, backslashes and
common controls escaped by a letter and all that has no shape of its own by its code point.
-/

namespace Depot.Text

def quotedChar (c : Char) : List Char :=
  if c = '\"' then ['\\', '\"']
  else if c = '\\' then ['\\', '\\']
  else if c = '\n' then ['\\', 'n']
  else if c = '\r' then ['\\', 'r']
  else if c = '\t' then ['\\', 't']
  else if c = '\x00' then ['\\', '0']
  else if isUnprintable c then ['\\', 'u', '\x7b'] ++ Hex.ofNat c.toNat ++ ['\x7d']
  else [c]

def quoted (text : String) : String :=
  String.ofList ('\"' :: (text.toList.flatMap quotedChar ++ ['\"']))

end Depot.Text
