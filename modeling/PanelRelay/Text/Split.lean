/-! Cutting texts into parts. -/

namespace PanelRelay

/-- Cuts a text at every character that satisfies `p`; there is always one part more than cuts. -/
def splitAtAll (p : Char → Bool) : List Char → List (List Char)
  | [] => [[]]
  | c :: rest =>
      match splitAtAll p rest with
      | [] => [[]]
      | part :: parts => if p c then [] :: part :: parts else (c :: part) :: parts

def cut? {α : Type} [DecidableEq α] (mark : List α) : List α → Option (List α × List α)
  | [] => none
  | a :: rest =>
      if mark.isPrefixOf (a :: rest) then some ([], (a :: rest).drop mark.length)
      else (cut? mark rest).map fun parts => (a :: parts.1, parts.2)

theorem cut?_of_not_mem {α : Type} [DecidableEq α] {a b : α} {front : List α} (h : a ∉ front)
    (rest : List α) : cut? [a, b] (front ++ a :: b :: rest) = some (front, rest) := by
  induction front with
  | nil => simp [cut?]
  | cons c front ih =>
      have hne : a ≠ c := fun heq => h (heq ▸ List.mem_cons_self)
      have hfront := ih fun hmem => h (List.mem_cons_of_mem c hmem)
      simp [cut?, hne, hfront]

theorem length_of_dropWhile {p : Char → Bool} {text rest : List Char}
    (h : text.dropWhile p = rest) : rest.length ≤ text.length :=
  h ▸ (List.dropWhile_suffix p).length_le

/-- What was read, provided that this took up something of the text. -/
def progress? {α : Type} (text : List Char) (taken : Option (α × List Char)) :
    Option (α × { rest : List Char // rest.length < text.length }) :=
  taken.bind fun (a, rest) => if h : rest.length < text.length then some (a, ⟨rest, h⟩) else none

end PanelRelay
