import StringRewriting.Text.Lines

/-!
# Quoted text

A text is shown between double quotes with every symbol that would be unclear escaped: the quote and
the backslash by themselves, four control characters by a letter or digit, and every other symbol
that cannot stand by itself by its code point in braces, in hexadecimal without leading zeros. Which
symbols can stand by themselves is a parameter `plain`.
-/

namespace StringRewriting.Quoted

/-! ## Code points in hexadecimal -/

/-- A number in lower case hexadecimal digits, without leading zeros. -/
def hexadecimal (n : Nat) : Text :=
  if n < 16 then [n.digitChar] else hexadecimal (n / 16) ++ [(n % 16).digitChar]

theorem hexadecimal_ne_nil (n : Nat) : hexadecimal n ≠ [] := by
  rw [hexadecimal]
  split <;> simp

/-! ## Symbols -/

/-- How one symbol is written between quotes. -/
def escapeSymbol (plain : Char → Bool) (c : Char) : Text :=
  if c = '"' then ['\\', '"']
  else if c = '\\' then ['\\', '\\']
  else if c = '\n' then ['\\', 'n']
  else if c = '\r' then ['\\', 'r']
  else if c = '\t' then ['\\', 't']
  else if c = '\x00' then ['\\', '0']
  else if plain c then [c]
  else '\\' :: 'u' :: '\x7b' :: (hexadecimal c.toNat ++ ['\x7d'])

/-- How the symbols of a text are written between quotes. -/
def escape (plain : Char → Bool) (t : Text) : Text :=
  t.flatMap (escapeSymbol plain)

@[simp] theorem escape_nil (plain : Char → Bool) : escape plain [] = [] := rfl

@[simp] theorem escape_cons (plain : Char → Bool) (c : Char) (t : Text) :
    escape plain (c :: t) = escapeSymbol plain c ++ escape plain t := List.flatMap_cons

/-! ## Texts and lists of texts -/

/-- A text between quotes. -/
def text (plain : Char → Bool) (t : Text) : Text :=
  '"' :: (escape plain t ++ ['"'])

/-- The quoted texts of a list, separated by a comma and a space, between square brackets. -/
def list (plain : Char → Bool) (ts : List Text) : Text :=
  '[' :: (List.intercalate [',', ' '] (ts.map (text plain)) ++ [']'])

end StringRewriting.Quoted
