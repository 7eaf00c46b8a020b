/-!
Characters and the places where a text is divided. Digits have values, and rows of digits denote
numbers. Blank characters are the twenty-five with the Unicode property White_Space; trimming drops
them from both ends of a text and from nowhere else. A text is split at the first occurrence of a
character, which belongs to neither part; the second part may hold it again.
-/
namespace BookCatalog.Text

/-! ## Digits -/

/-- The value of a hexadecimal digit in either case. -/
def hexValue? (c : Char) : Option Nat :=
  if '0' ≤ c ∧ c ≤ '9' then some (c.toNat - '0'.toNat)
  else if 'a' ≤ c ∧ c ≤ 'f' then some (c.toNat - 'a'.toNat + 10)
  else if 'A' ≤ c ∧ c ≤ 'F' then some (c.toNat - 'A'.toNat + 10)
  else none

/-- The value of a digit below a radix of at most sixteen. -/
def digitValue? (radix : Nat) (c : Char) : Option Nat := (hexValue? c).filter (· < radix)

/-- The number that a row of digits denotes; there must be one at least. -/
def natural? (radix : Nat) (chars : List Char) : Option Nat := do
  let values ← chars.mapM (digitValue? radix)
  if values.isEmpty then none else some (values.foldl (fun read digit => radix * read + digit) 0)

/-! ## Blanks -/

/-- Whether a character has the Unicode property White_Space. -/
def isBlank (c : Char) : Bool :=
  let n := c.toNat
  (0x09 ≤ n && n ≤ 0x0D) || n == 0x20 || n == 0x85 || n == 0xA0 || n == 0x1680 ||
    (0x2000 ≤ n && n ≤ 0x200A) || n == 0x2028 || n == 0x2029 || n == 0x202F || n == 0x205F ||
    n == 0x3000

/-- Drops characters from the end as long as they satisfy the test. -/
def dropEndWhile (p : Char → Bool) (chars : List Char) : List Char :=
  (chars.reverse.dropWhile p).reverse

/-- A text without the blanks at its two ends. -/
def trim (text : String) : String :=
  .ofList (dropEndWhile isBlank (text.toList.dropWhile isBlank))

/-- A text of blanks only, or of nothing. -/
def isBlankText (text : String) : Bool :=
  text.toList.all isBlank

/-! ## Splitting -/

/-- The characters before and after the first occurrence of a separator. -/
def splitChars (separator : Char) : List Char → Option (List Char × List Char)
  | [] => none
  | c :: rest =>
    if c = separator then some ([], rest)
    else (splitChars separator rest).map fun (before, after) => (c :: before, after)

/-- What stands behind a separator is shorter than the whole. -/
theorem length_of_splitChars {separator : Char} {chars before after : List Char}
    (split : splitChars separator chars = some (before, after)) : after.length < chars.length := by
  fun_induction splitChars separator chars generalizing before with
  | case1 => simp at split
  | case2 rest => simp_all
  | case3 c rest _ ih =>
    obtain ⟨⟨front, back⟩, found, same⟩ := Option.map_eq_some_iff.mp split
    simp only [Prod.mk.injEq] at same
    have shorter := ih (same.2 ▸ found)
    simp only [List.length_cons]
    omega

/-- The texts before and after the first occurrence of a separator. -/
def splitOnce (separator : Char) (text : String) : Option (String × String) :=
  (splitChars separator text.toList).map fun (before, after) => (.ofList before, .ofList after)

end BookCatalog.Text
