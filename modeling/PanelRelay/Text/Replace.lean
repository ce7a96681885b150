/-! Replacing every occurrence of a mark in a text, from the left and without overlaps. -/

namespace PanelRelay

/-- The mark is not empty. -/
def replaceAll (mark replacement text : List Char) : List Char :=
  match text with
  | [] => []
  | c :: rest =>
      if mark.isPrefixOf (c :: rest) then
        replacement ++ replaceAll mark replacement (rest.drop (mark.length - 1))
      else c :: replaceAll mark replacement rest
termination_by text.length
decreasing_by
  · simp only [List.length_drop, List.length_cons]
    omega
  · simp

end PanelRelay
