/-!
White space: the four blanks of markup and JSON, the two of them that stay on a line, and Unicode's
`White_Space` property.
-/

namespace PanelRelay

def isBlank (c : Char) : Bool :=
  c = ' ' || c = '\t' || c = '\r' || c = '\n'

def isLayout (c : Char) : Bool :=
  c = ' ' || c = '\t'

def isWhiteSpace (c : Char) : Bool :=
  let n := c.toNat
  (0x9 ≤ n && n ≤ 0xd) || n = 0x20 || n = 0x85 || n = 0xa0 || n = 0x1680 ||
    (0x2000 ≤ n && n ≤ 0x200a) || n = 0x2028 || n = 0x2029 || n = 0x202f ||
    n = 0x205f || n = 0x3000

def dropEndWhile (p : Char → Bool) (text : List Char) : List Char :=
  (text.reverse.dropWhile p).reverse

def trim (text : List Char) : List Char :=
  dropEndWhile isWhiteSpace (text.dropWhile isWhiteSpace)

theorem isBlank_iff (c : Char) :
    isBlank c = true ↔ c = ' ' ∨ c = '\t' ∨ c = '\r' ∨ c = '\n' := by
  simp [isBlank, or_assoc]

theorem dropEndWhile_append_of_all {p : Char → Bool} (text padding : List Char)
    (hpadding : padding.all p = true) :
    dropEndWhile p (text ++ padding) = dropEndWhile p text := by
  have hreversed : ∀ c ∈ padding.reverse, p c = true := by
    intro c hc
    exact List.all_eq_true.mp hpadding c (List.mem_reverse.mp hc)
  simp [dropEndWhile, List.dropWhile_append_of_pos hreversed]

theorem dropEndWhile_eq_self {p : Char → Bool} (text : List Char) (last : Char)
    (hlast : p last = false) :
    dropEndWhile p (text ++ [last]) = text ++ [last] := by
  simp [dropEndWhile, hlast]

end PanelRelay
