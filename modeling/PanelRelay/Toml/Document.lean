import PanelRelay.Text.Utf8
import PanelRelay.Toml.Quoted
import PanelRelay.Toml.Table
import PanelRelay.Toml.Word

/-! TOML documents. -/

namespace PanelRelay.Toml

open Settings (Members Value)

/-- Whether a text holds no control characters but tabs and line breaks of one or two characters. -/
def isClean : List Char → Bool
  | [] => true
  | '\r' :: rest => rest.head? = some '\n' && isClean rest
  | c :: rest => (c = '\t' || c = '\n' || (' ' ≤ c && c ≠ '\x7f')) && isClean rest

def skipFill (text : List Char) : List Char :=
  match htext : text.dropWhile isBlank with
  | '#' :: rest =>
      have := length_of_dropWhile htext
      have := (List.dropWhile_suffix (l := rest) (· ≠ '\n')).length_le
      skipFill (rest.dropWhile (· ≠ '\n'))
  | rest => rest
termination_by text.length
decreasing_by simp only [List.length_cons] at *; omega

theorem length_skipFill (text : List Char) : (skipFill text).length ≤ text.length := by
  fun_induction skipFill text with
  | case1 text rest htext hfirst hsecond ih =>
      simp only [List.length_cons] at hfirst
      omega
  | case2 text rest =>
      exact (List.dropWhile_suffix (l := text) isBlank).length_le

theorem length_of_skipFill {text rest : List Char} (h : skipFill text = rest) :
    rest.length ≤ text.length :=
  h ▸ length_skipFill text

def tableOf? (entries : List (List String × Value)) : Option Value :=
  (entries.foldlM (fun table entry => Table.put? entry.2 entry.1 table) ([] : Table)).map
    fun table => .table (membersToValues table)

def takeAssigned? (skip : List Char → List Char) (text : List Char) :
    Option (List String × List Char) :=
  match takeKeys? text with
  | some (keys, rest) =>
      match skip rest with
      | '=' :: rest => some (keys, skip rest)
      | _ => none
  | none => none

mutual

def takeValue? (depth : Nat) (text : List Char) : Option (Value × List Char) :=
  match depth, text with
  | 0, '[' :: _ => none
  | 0, '\x7b' :: _ => none
  | depth + 1, '[' :: rest =>
      (takeElements? depth rest).map fun taken => (.array taken.1, taken.2)
  | depth + 1, '\x7b' :: rest =>
      match takeEntries? depth rest with
      | none => none
      | some (entries, rest) => (tableOf? entries).map (·, rest)
  | _, c :: rest =>
      if c = '"' ∨ c = '\'' then
        (takeQuoted? (c :: rest)).map fun taken => (.text (String.ofList taken.1), taken.2)
      else takeWord? (c :: rest)
  | _, [] => none
termination_by 2 * text.length

def takeElements? (depth : Nat) (text : List Char) : Option (List Value × List Char) :=
  match htext : skipFill text with
  | ']' :: rest => some ([], rest)
  | filled =>
      have hfilled := length_of_skipFill htext
      match progress? filled (takeValue? depth filled) with
      | none => none
      | some (value, ⟨rest, hvalue⟩) =>
          match hrest : skipFill rest with
          | ',' :: rest' =>
              have hcomma : (',' :: rest').length ≤ rest.length := length_of_skipFill hrest
              have : rest'.length < text.length :=
                Nat.lt_of_lt_of_le (Nat.lt_trans hcomma hvalue) hfilled
              (takeElements? depth rest').map fun taken => (value :: taken.1, taken.2)
          | ']' :: rest' => some ([value], rest')
          | _ => none
termination_by 2 * text.length + 1

def takeEntries? (depth : Nat) (text : List Char) :
    Option (List (List String × Value) × List Char) :=
  match htext : skipFill text with
  | '\x7d' :: rest => some ([], rest)
  | filled =>
      have hfilled := length_of_skipFill htext
      match progress? filled (takeAssigned? skipFill filled) with
      | none => none
      | some (keys, ⟨assigned, hkeys⟩) =>
          match progress? assigned (takeValue? depth assigned) with
          | none => none
          | some (value, ⟨rest, hvalue⟩) =>
              match hrest : skipFill rest with
              | ',' :: rest' =>
                  have hcomma : (',' :: rest').length ≤ rest.length := length_of_skipFill hrest
                  have : rest'.length < text.length :=
                    Nat.lt_of_lt_of_le
                      (Nat.lt_trans (Nat.lt_trans hcomma hvalue) hkeys) hfilled
                  (takeEntries? depth rest').map fun taken => ((keys, value) :: taken.1, taken.2)
              | '\x7d' :: rest' => some ([(keys, value)], rest')
              | _ => none
termination_by 2 * text.length + 1

end

structure Draft where
  root : Table := []
  header : List String := []

def takeHeader? (draft : Draft) (text : List Char) : Option (Draft × List Char) := do
  let (keys, rest) ← takeKeys? (skipLayout text)
  match rest with
  | ']' :: rest => do
      let key ← keys.getLast?
      let root ← draft.root.modify? (Table.define? key) keys.dropLast
      return ({ root, header := keys }, rest)
  | _ => none

def takeListHeader? (draft : Draft) (text : List Char) : Option (Draft × List Char) := do
  let (keys, rest) ← takeKeys? (skipLayout text)
  match rest with
  | ']' :: ']' :: rest => do
      let key ← keys.getLast?
      let root ← draft.root.modify? (Table.extend? key) keys.dropLast
      return ({ root, header := keys }, rest)
  | _ => none

def takePair? (draft : Draft) (text : List Char) : Option (Draft × List Char) := do
  let (keys, rest) ← takeAssigned? skipLayout text
  let (value, rest) ← takeValue? maxDepth rest
  let root ← draft.root.modify? (Table.put? value keys) draft.header
  return ({ draft with root }, rest)

def takeStatement? (draft : Draft) : List Char → Option (Draft × List Char)
  | '[' :: '[' :: text => takeListHeader? draft text
  | '[' :: text => takeHeader? draft text
  | text => takePair? draft text

def isLineEnd (text : List Char) : Bool :=
  (skipLayout text).head?.all fun c => c = '\n' || c = '\r' || c = '#'

def statements? (draft : Draft) (text : List Char) : Option Draft :=
  match htext : skipFill text with
  | [] => some draft
  | filled =>
      have := length_of_skipFill htext
      match progress? filled (takeStatement? draft filled) with
      | none => none
      | some (draft, ⟨rest, _⟩) => if isLineEnd rest then statements? draft rest else none
termination_by text.length

def parse? (text : List Char) : Option Members := do
  let draft ← if isClean text then statements? {} (Utf8.dropMark text) else none
  return membersToValues draft.root

end PanelRelay.Toml
