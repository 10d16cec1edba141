import MemoryArbiter.Text.Combining
import MemoryArbiter.Text.Unprintable

/-! # Quoted text in messages

A text stands between double marks so that all of it can be seen: marks and backslashes are
escaped, and so are characters that show nothing or that combine with the one before.
-/

namespace MemoryArbiter.Text

/-- A character by its number, without leading zeros. -/
def escapeByNumber (c : Char) : List Char :=
  '\\' :: 'u' :: '\x7b' :: Nat.toDigits 16 c.toNat ++ ['\x7d']

def quoteChar (c : Char) : List Char :=
  match c with
  | '\x00' => ['\\', '0']
  | '\t' => ['\\', 't']
  | '\r' => ['\\', 'r']
  | '\n' => ['\\', 'n']
  | '\\' => ['\\', '\\']
  | '"' => ['\\', '"']
  | c => if isCombining c || isUnprintable c then escapeByNumber c else [c]

def quoted (s : String) : String := String.ofList ('"' :: s.toList.flatMap quoteChar ++ ['"'])

end MemoryArbiter.Text
