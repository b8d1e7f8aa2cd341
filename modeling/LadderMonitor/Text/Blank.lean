namespace LadderMonitor.Text

/-- Closed ranges of the white space of the character standard. -/
def whiteRanges : List (Nat × Nat) :=
  [(0x09, 0x0D), (0x20, 0x20), (0x85, 0x85), (0xA0, 0xA0), (0x1680, 0x1680), (0x2000, 0x200A),
   (0x2028, 0x2029), (0x202F, 0x202F), (0x205F, 0x205F), (0x3000, 0x3000)]

def isWhite (c : Char) : Bool :=
  whiteRanges.any fun range => range.1 ≤ c.toNat && c.toNat ≤ range.2

/-- White space and the information separators U+001C to U+001F. They are dropped around names and
addresses, and white space alone around numbers. -/
def isBlank (c : Char) : Bool := isWhite c || (0x1C ≤ c.toNat && c.toNat ≤ 0x1F)

/-- Drops the characters of a class at both ends. -/
def trimBoth (p : Char → Bool) (cs : List Char) : List Char :=
  ((cs.dropWhile p).reverse.dropWhile p).reverse

def strip (s : String) : List Char := trimBoth isBlank s.toList

/-- Lower case as far as it yields an ASCII letter: the ASCII capitals and the Kelvin sign. Every
other character keeps its place, and no lower-case form of it is ASCII. -/
def foldCase (c : Char) : Char :=
  if 'A' ≤ c && c ≤ 'Z' then Char.ofNat (c.toNat + 32)
  else if c.toNat = 0x212A then 'k'
  else c

/-- The key under which a name is looked up: trimmed and without regard to case. -/
def nameKey (s : String) : String := String.ofList ((strip s).map foldCase)

theorem trimBoth_eq_self {p : Char → Bool} {cs : List Char}
    (hhead : ∀ c ∈ cs.head?, p c = false) (hlast : ∀ c ∈ cs.getLast?, p c = false) :
    trimBoth p cs = cs := by
  have drop_eq : ∀ l : List Char, (∀ c ∈ l.head?, p c = false) → l.dropWhile p = l := by
    intro l hl
    cases l with
    | nil => rfl
    | cons c rest => simp [List.dropWhile, hl c rfl]
  unfold trimBoth
  rw [drop_eq cs hhead, drop_eq cs.reverse (by simpa using hlast), List.reverse_reverse]

end LadderMonitor.Text
