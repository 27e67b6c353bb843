import ServiceTrace.Text.Printable

/-!
# `ServiceTrace.Text.Quoted` — a string shown between double quotes

A string constant that is shown inside a rendered expression stands between double quotes. Quotes
and backslashes are escaped, tab, carriage return, newline and NUL have escapes of their own, and
every other character that is not printable is written by its code point, as `\u` and the
hexadecimal number in braces. The single quote needs no escape.

## Contents
- **`quoteChar`** — the written form of one character.
- **`quote`** — the written form of a string.
-/

namespace ServiceTrace.Text

/-- The written form of one character between double quotes. -/
def quoteChar (c : Char) : List Char :=
  if c = '\x00' then ['\\', '0']
  else if c = '\t' then ['\\', 't']
  else if c = '\r' then ['\\', 'r']
  else if c = '\n' then ['\\', 'n']
  else if c = '"' then ['\\', '"']
  else if c = '\\' then ['\\', '\\']
  else if isPrintable c then [c]
  else ['\\', 'u', '{'] ++ Nat.toDigits 16 c.toNat ++ ['}']

/-- A string between double quotes, with its characters in written form. -/
def quote (s : String) : String :=
  String.ofList ('"' :: s.toList.flatMap quoteChar ++ ['"'])

end ServiceTrace.Text
