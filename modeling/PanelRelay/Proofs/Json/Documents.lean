import PanelRelay.Proofs.Json.Lexing

/-!
Reading a document undoes its writing, and what is read was written: a text is read as a value
exactly if it is one of the ways to write that value.
-/

namespace PanelRelay.Json

theorem numbersApart_append {front back : List Token} (hfront : NumbersApart front)
    (hback : NumbersApart back) (hnext : ∀ next ∈ back.head?, next.isNumber = false) :
    NumbersApart (front ++ back) :=
  List.isChain_append.mpr ⟨hfront, hback, fun _ _ next hmem _ => hnext next hmem⟩

theorem numbersApart_cons {token : Token} {tokens : List Token} (htoken : token.isNumber = false)
    (htokens : NumbersApart tokens) : NumbersApart (token :: tokens) := by
  refine List.isChain_cons.mpr ⟨?_, htokens⟩
  intro next _ hnumber
  rw [htoken] at hnumber
  cases hnumber

theorem numbersApart_singleton (token : Token) : NumbersApart [token] :=
  .singleton token

theorem numbersApart_member {start : Token} {value : Value} (hstart : start.isNumber = false)
    (name : List Piece) (hvalue : NumbersApart value.tokens) :
    NumbersApart (start :: .string name :: .colon :: value.tokens) :=
  numbersApart_cons hstart (numbersApart_cons rfl (numbersApart_cons rfl hvalue))

theorem head?_elementTokens (elements : List Value) {close : Token}
    (hclose : close.isNumber = false) :
    ∀ next ∈ (elementTokens elements ++ [close]).head?, next.isNumber = false := by
  intro next hnext
  cases elements with
  | nil =>
      obtain rfl := Option.mem_some.mp hnext
      exact hclose
  | cons element elements =>
      rw [elementTokens] at hnext
      obtain rfl := Option.mem_some.mp hnext
      rfl

theorem head?_memberTokens (members : List (List Piece × Value)) {close : Token}
    (hclose : close.isNumber = false) :
    ∀ next ∈ (memberTokens members ++ [close]).head?, next.isNumber = false := by
  intro next hnext
  cases members with
  | nil =>
      obtain rfl := Option.mem_some.mp hnext
      exact hclose
  | cons member members =>
      rw [memberTokens] at hnext
      obtain rfl := Option.mem_some.mp hnext
      rfl

mutual

theorem numbersApart_tokens : (value : Value) → NumbersApart value.tokens
  | .null => numbersApart_singleton _
  | .bool _ => numbersApart_singleton _
  | .number _ => numbersApart_singleton _
  | .string _ => numbersApart_singleton _
  | .array [] => numbersApart_cons rfl (numbersApart_singleton _)
  | .array (element :: elements) => by
      rw [Value.tokens, List.append_assoc]
      refine numbersApart_append (numbersApart_cons rfl (numbersApart_tokens element)) ?_
        (head?_elementTokens elements rfl)
      exact numbersApart_elementTokens elements
  | .object [] => numbersApart_cons rfl (numbersApart_singleton _)
  | .object ((name, value) :: members) => by
      rw [Value.tokens, List.append_assoc]
      exact numbersApart_append (numbersApart_member rfl name (numbersApart_tokens value))
        (numbersApart_memberTokens members) (head?_memberTokens members rfl)

theorem numbersApart_elementTokens :
    (elements : List Value) → NumbersApart (elementTokens elements ++ [.endArray])
  | [] => numbersApart_singleton _
  | element :: elements => by
      rw [elementTokens, List.append_assoc]
      exact numbersApart_append (numbersApart_cons rfl (numbersApart_tokens element))
        (numbersApart_elementTokens elements) (head?_elementTokens elements rfl)

theorem numbersApart_memberTokens :
    (members : List (List Piece × Value)) → NumbersApart (memberTokens members ++ [.endObject])
  | [] => numbersApart_singleton _
  | (name, value) :: members => by
      rw [memberTokens, List.append_assoc]
      exact numbersApart_append (numbersApart_member rfl name (numbersApart_tokens value))
        (numbersApart_memberTokens members) (head?_memberTokens members rfl)

end

/-! Reading what is written. -/

theorem read?_beginArray {tokens : List Token} (frames : List Frame)
    (h : tokens.head? ≠ some .endArray) :
    read? frames (.beginArray :: tokens) = read? (.array [] :: frames) tokens := by
  cases tokens with
  | nil => rfl
  | cons token tokens =>
      rw [read?]
      rintro _ heq
      exact h (congrArg List.head? heq)

theorem close?_comma_array {tokens : List Token} (value : Value) (before : List Value)
    (frames : List Frame) (h : ∀ name tail, tokens ≠ .string name :: .colon :: tail) :
    close? value (.array before :: frames) (.comma :: tokens) =
      read? (.array (value :: before) :: frames) tokens := by
  rw [close?]
  exact h

theorem head?_tokens_ne_endArray (value : Value) (rest : List Token) :
    (value.tokens ++ rest).head? ≠ some .endArray := by
  cases value with
  | array elements => cases elements <;> rintro ⟨⟩
  | object members => cases members <;> rintro ⟨⟩
  | _ => rintro ⟨⟩

/-- An element is not taken for the name of a member. -/
theorem tokens_ne_memberStart (value : Value) (elements : List Value) (rest : List Token) :
    ∀ name tail, value.tokens ++ (elementTokens elements ++ .endArray :: rest) ≠
      .string name :: .colon :: tail := by
  rintro name tail heq
  cases value with
  | string content => cases elements <;> cases heq
  | array inner => cases inner <;> cases heq
  | object members => cases members <;> cases heq
  | _ => cases heq

mutual

theorem read?_tokens : (value : Value) → (frames : List Frame) → (rest : List Token) →
    read? frames (value.tokens ++ rest) = close? value frames rest
  | .null, _, _ => rfl
  | .bool _, _, _ => rfl
  | .number _, _, _ => rfl
  | .string _, _, _ => rfl
  | .array [], _, _ => rfl
  | .array (element :: elements), frames, rest => by
      have hread := read?_tokens element (.array [] :: frames)
        (elementTokens elements ++ .endArray :: rest)
      have hclose := close?_elementTokens elements element [] frames rest
      simpa [Value.tokens, read?_beginArray frames (head?_tokens_ne_endArray element _), hread]
        using hclose
  | .object [], _, _ => rfl
  | .object ((name, value) :: members), frames, rest => by
      have hread := read?_tokens value (.object [] name :: frames)
        (memberTokens members ++ .endObject :: rest)
      have hclose := close?_memberTokens members value [] name frames rest
      simpa [Value.tokens, read?, hread] using hclose

theorem close?_elementTokens : (elements : List Value) → (value : Value) → (before : List Value) →
    (frames : List Frame) → (rest : List Token) →
    close? value (.array before :: frames) (elementTokens elements ++ .endArray :: rest) =
      close? (.array (before.reverse ++ value :: elements)) frames rest
  | [], value, before, frames, rest => by
      rw [elementTokens, List.nil_append, close?, List.reverse_cons]
  | element :: elements, value, before, frames, rest => by
      have hread := read?_tokens element (.array (value :: before) :: frames)
        (elementTokens elements ++ .endArray :: rest)
      have hclose := close?_elementTokens elements element (value :: before) frames rest
      rw [elementTokens, List.cons_append, List.cons_append, List.append_assoc,
        close?_comma_array value before frames (tokens_ne_memberStart element elements rest), hread,
        hclose, List.reverse_cons, List.append_assoc, List.singleton_append]

theorem close?_memberTokens : (members : List (List Piece × Value)) → (value : Value) →
    (before : List (List Piece × Value)) → (name : List Piece) →
    (frames : List Frame) → (rest : List Token) →
    close? value (.object before name :: frames) (memberTokens members ++ .endObject :: rest) =
      close? (.object (before.reverse ++ (name, value) :: members)) frames rest
  | [], value, before, name, frames, rest => by
      rw [memberTokens, List.nil_append, close?, List.reverse_cons]
  | (next, element) :: members, value, before, name, frames, rest => by
      have hread := read?_tokens element (.object ((name, value) :: before) next :: frames)
        (memberTokens members ++ .endObject :: rest)
      have hclose := close?_memberTokens members element ((name, value) :: before) next frames rest
      simpa [memberTokens, close?, hread] using hclose

end

/-! What is read is written. -/

def Frame.tokens : Frame → List Token
  | .array before => .beginArray :: before.reverse.flatMap fun element => element.tokens ++ [.comma]
  | .object before name =>
      .beginObject :: (before.reverse.flatMap fun member =>
        .string member.1 :: .colon :: member.2.tokens ++ [.comma]) ++ [.string name, .colon]

/-- What has been passed of the arrays and objects that are still open. -/
def openTokens (frames : List Frame) : List Token :=
  frames.reverse.flatMap Frame.tokens

theorem openTokens_cons (frame : Frame) (frames : List Frame) :
    openTokens (frame :: frames) = openTokens frames ++ frame.tokens := by
  simp [openTokens]

theorem elementTokens_concat (element last : Value) (elements : List Value) :
    element.tokens ++ elementTokens (elements ++ [last]) =
      ((element :: elements).flatMap fun element => element.tokens ++ [.comma]) ++ last.tokens := by
  induction elements generalizing element with
  | nil => simp [elementTokens]
  | cons next elements ih => simp [elementTokens, ih next]

theorem memberTokens_concat (name : List Piece) (value : Value) (last : List Piece × Value)
    (members : List (List Piece × Value)) :
    .string name :: .colon :: value.tokens ++ memberTokens (members ++ [last]) =
      (((name, value) :: members).flatMap fun member =>
        .string member.1 :: .colon :: member.2.tokens ++ [.comma]) ++
        .string last.1 :: .colon :: last.2.tokens := by
  induction members generalizing name value with
  | nil => simp [memberTokens]
  | cons next members ih =>
      have htail := ih next.1 next.2
      simpa [memberTokens] using htail

theorem tokens_array_of_frame (before : List Value) (value : Value) :
    (Value.array (value :: before).reverse).tokens =
      (Frame.array before).tokens ++ (value.tokens ++ [.endArray]) := by
  rw [List.reverse_cons, Frame.tokens]
  cases before.reverse with
  | nil => simp [Value.tokens, elementTokens]
  | cons element elements =>
      have h := elementTokens_concat element value elements
      simpa [Value.tokens] using congrArg (· ++ [Token.endArray]) h

theorem tokens_object_of_frame (before : List (List Piece × Value)) (name : List Piece)
    (value : Value) :
    (Value.object ((name, value) :: before).reverse).tokens =
      (Frame.object before name).tokens ++ (value.tokens ++ [.endObject]) := by
  rw [List.reverse_cons, Frame.tokens]
  cases before.reverse with
  | nil => simp [Value.tokens, memberTokens]
  | cons member members =>
      have h := memberTokens_concat member.1 member.2 (name, value) members
      simpa [Value.tokens] using congrArg (· ++ [Token.endObject]) h

mutual

/-- The rest of a document completes what has been passed of it. -/
theorem read?_spec {frames : List Frame} {rest : List Token} {value : Value}
    (h : read? frames rest = some value) : value.tokens = openTokens frames ++ rest := by
  unfold read? at h
  split at h
  -- `h_6` and `h_8` open an array or an object; in the other cases a value is complete.
  case h_6 => simpa [openTokens_cons, Frame.tokens] using read?_spec h
  case h_8 => simpa [openTokens_cons, Frame.tokens] using read?_spec h
  case h_9 => cases h
  all_goals exact close?_spec h
termination_by rest.length

theorem close?_spec {current : Value} {frames : List Frame} {rest : List Token} {value : Value}
    (h : close? current frames rest = some value) :
    value.tokens = openTokens frames ++ (current.tokens ++ rest) := by
  unfold close? at h
  split at h
  case h_1 =>
    split at h
    next =>
      cases h
      simp [openTokens]
    next => cases h
  case h_2 =>
    split at h
    next => simpa [openTokens_cons, Frame.tokens] using read?_spec h
    next => cases h
  case h_3 =>
    split at h
    next => simpa [openTokens_cons, Frame.tokens] using read?_spec h
    next => cases h
  case h_4 =>
    split at h
    next before frames =>
      have hread := close?_spec h
      rw [tokens_array_of_frame] at hread
      simpa [openTokens_cons] using hread
    next => cases h
  case h_5 =>
    split at h
    next before name frames =>
      have hread := close?_spec h
      rw [tokens_object_of_frame] at hread
      simpa [openTokens_cons] using hread
    next => cases h
  case h_6 => cases h
termination_by rest.length

end

theorem ofTokens?_eq_some_iff (tokens : List Token) (value : Value) :
    Value.ofTokens? tokens = some value ↔ tokens = value.tokens := by
  constructor
  · intro h
    exact (read?_spec h).symm
  · rintro rfl
    have hread := read?_tokens value [] []
    rw [List.append_nil] at hread
    exact hread

/-- Reading and writing agree: a text is read as a value exactly if it is written as that value. -/
theorem Value.parse?_eq_some_iff (text : String) (value : Value) :
    Value.parse? text = some value ↔ value.IsWrittenAs text := by
  constructor
  · intro h
    obtain ⟨tokens, htokens, hvalue⟩ := Option.bind_eq_some_iff.mp h
    obtain rfl := (ofTokens?_eq_some_iff tokens value).mp hvalue
    exact areSpelledBy_of_tokens? htokens
  · intro h
    have htokens := tokens?_of_areSpelledBy h (numbersApart_tokens value)
    rw [Value.parse?, htokens]
    exact (ofTokens?_eq_some_iff _ value).mpr rfl

end PanelRelay.Json
