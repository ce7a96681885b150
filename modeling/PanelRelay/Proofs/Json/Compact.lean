import PanelRelay.Proofs.Json.Documents

/-!
The compact text of a value is one of the ways to write it, so it is read back as the value. Strings
that are texts and whole numbers are printed as the grammar spells them.
-/

namespace PanelRelay.Json

theorem hexDigit?_digitChar : ∀ n < 16, hexDigit? (Nat.digitChar n) = some n := by
  decide

theorem isUnitSpelling_digitChars {unit : Nat} (h : unit < 0x10000) :
    IsUnitSpelling unit [Nat.digitChar (unit / 4096 % 16), Nat.digitChar (unit / 256 % 16),
      Nat.digitChar (unit / 16 % 16), Nat.digitChar (unit % 16)] := by
  have hdigit (n : Nat) : hexDigit? (Nat.digitChar (n % 16)) = some (n % 16) :=
    hexDigit?_digitChar _ (Nat.mod_lt n (by omega))
  have hspelled := IsUnitSpelling.digits (hdigit (unit / 4096)) (hdigit (unit / 256))
    (hdigit (unit / 16)) (hdigit unit)
  have hvalue : ((unit / 4096 % 16 * 16 + unit / 256 % 16) * 16 + unit / 16 % 16) * 16 +
      unit % 16 = unit := by omega
  rwa [hvalue] at hspelled

/-- Quotes, backslashes and control characters are escaped, and nothing else needs to be. -/
theorem Piece.isSpelledBy_spelling (c : Char) : (char c).IsSpelledBy (char c).spelling := by
  unfold spelling
  split
  case h_8 heq =>
    obtain rfl := Piece.char.inj heq
    split
    next hcontrol =>
      have hsmall : c.toNat < 32 := hcontrol
      exact .unit (isUnitSpelling_digitChars (by omega))
    next hcontrol =>
      exact .plain (Char.not_lt.mp hcontrol) (by assumption) (by assumption)
  case h_9 heq => cases heq
  all_goals
    rename_i heq
    obtain rfl := Piece.char.inj heq
    exact .short rfl

theorem isStringSpelling_pieces (text : String) :
    IsStringSpelling (pieces text) ((pieces text).flatMap Piece.spelling) where
  pieces := by
    rw [Json.pieces]
    induction text.toList with
    | nil => exact .nil
    | cons c chars ih => exact .cons (Piece.isSpelledBy_spelling c) ih
  apart := (List.isChain_map Piece.char).mpr (List.pairwise_of_forall fun _ _ => id).isChain

/-- A decimal numeral starts with a zero only if it is zero. -/
theorem eq_zero_of_head?_toDigits {n : Nat} (h : (Nat.toDigits 10 n).head? = some '0') : n = 0 := by
  induction n using Nat.strongRecOn with
  | ind n ih =>
      by_cases hsmall : n < 10
      · rw [Nat.toDigits_of_lt_base hsmall] at h
        have hdigit : ∀ n < 10, Nat.digitChar n = '0' → n = 0 := by decide
        exact hdigit n hsmall (Option.some.inj h)
      · rw [Nat.toDigits_of_base_le (by omega) (by omega), List.head?_append_of_ne_nil _
          Nat.toDigits_ne_nil] at h
        have hquotient := ih (n / 10) (by omega) h
        omega

theorem isWhole_toDigits (n : Nat) : IsWhole (Nat.toDigits 10 n) := by
  refine ⟨⟨Nat.toDigits_ne_nil, ?_⟩, ?_⟩
  · intro c hc
    exact Nat.isDigit_of_mem_toDigits (by omega) (by omega) hc
  · intro hhead
    obtain rfl := eq_zero_of_head?_toDigits hhead
    rfl

theorem Number.isSpelledBy_ofInt (n : Int) : (ofInt n).IsSpelledBy (ofInt n).spelling := by
  have hparts := @IsSpelledBy.parts (ofInt n) _ _ (isWhole_toDigits n.natAbs) .none .none
  simpa [spelling, sign, ofInt] using hparts

@[simp] theorem Number.integer?_ofInt (n : Int) : (ofInt n).integer? = some n := by
  simp only [integer?, ofInt, Option.isNone_none, and_self, if_true, Nat.ofDigitChars_ten_toDigits,
    decide_eq_true_eq]
  split
  next hnegative =>
    rw [if_neg (by omega)]
    exact congrArg some (by omega)
  next hnegative => exact congrArg some (by omega)

/-- Each token is printed as the grammar spells it. -/
def ArePrintable (tokens : List Token) : Prop :=
  ∀ token ∈ tokens, token.IsSpelledBy token.spelling

def Value.IsPrintable (value : Value) : Prop :=
  ArePrintable value.tokens

theorem Token.isSpelledBy_string (text : String) :
    (string (pieces text)).IsSpelledBy (string (pieces text)).spelling :=
  ⟨_, isStringSpelling_pieces text, rfl⟩

theorem arePrintable_elementTokens {elements : List Value}
    (h : ∀ element ∈ elements, element.IsPrintable) : ArePrintable (elementTokens elements) := by
  induction elements with
  | nil => exact List.forall_mem_nil _
  | cons element elements ih =>
      obtain ⟨helement, helements⟩ := List.forall_mem_cons.mp h
      exact List.forall_mem_append.mpr
        ⟨List.forall_mem_cons.mpr ⟨rfl, helement⟩, ih helements⟩

theorem arePrintable_member (start : Token) (hstart : start.IsSpelledBy start.spelling)
    (name : String) {value : Value} (hvalue : value.IsPrintable) :
    ArePrintable (start :: .string (pieces name) :: .colon :: value.tokens) := by
  refine List.forall_mem_cons.mpr ⟨hstart, ?_⟩
  refine List.forall_mem_cons.mpr ⟨Token.isSpelledBy_string name, ?_⟩
  exact List.forall_mem_cons.mpr ⟨rfl, hvalue⟩

theorem arePrintable_memberTokens {members : List (String × Value)}
    (h : ∀ member ∈ members, member.2.IsPrintable) :
    ArePrintable (memberTokens (members.map fun member => (pieces member.1, member.2))) := by
  induction members with
  | nil => exact List.forall_mem_nil _
  | cons member members ih =>
      obtain ⟨hmember, hmembers⟩ := List.forall_mem_cons.mp h
      exact List.forall_mem_append.mpr ⟨arePrintable_member .comma rfl member.1 hmember, ih hmembers⟩

namespace Value

theorem isPrintable_null : IsPrintable .null :=
  List.forall_mem_singleton.mpr rfl

theorem isPrintable_ofText (text : String) : (ofText text).IsPrintable :=
  List.forall_mem_singleton.mpr (Token.isSpelledBy_string text)

theorem isPrintable_ofInt (n : Int) : (ofInt n).IsPrintable :=
  List.forall_mem_singleton.mpr (Number.isSpelledBy_ofInt n)

theorem isPrintable_ofOption {α : Type} {f : α → Value} (h : ∀ a, (f a).IsPrintable) :
    (a : Option α) → (ofOption f a).IsPrintable
  | none => isPrintable_null
  | some a => h a

theorem isPrintable_array {elements : List Value}
    (h : ∀ element ∈ elements, element.IsPrintable) : (array elements).IsPrintable := by
  cases elements with
  | nil => exact List.forall_mem_cons.mpr ⟨rfl, List.forall_mem_singleton.mpr rfl⟩
  | cons element elements =>
      obtain ⟨helement, helements⟩ := List.forall_mem_cons.mp h
      rw [IsPrintable, tokens]
      refine List.forall_mem_append.mpr ⟨?_, List.forall_mem_singleton.mpr rfl⟩
      exact List.forall_mem_append.mpr
        ⟨List.forall_mem_cons.mpr ⟨rfl, helement⟩, arePrintable_elementTokens helements⟩

theorem isPrintable_ofMembers {members : List (String × Value)}
    (h : ∀ member ∈ members, member.2.IsPrintable) : (ofMembers members).IsPrintable := by
  cases members with
  | nil => exact List.forall_mem_cons.mpr ⟨rfl, List.forall_mem_singleton.mpr rfl⟩
  | cons member members =>
      obtain ⟨hmember, hmembers⟩ := List.forall_mem_cons.mp h
      rw [IsPrintable, ofMembers, List.map_cons, tokens]
      refine List.forall_mem_append.mpr ⟨?_, List.forall_mem_singleton.mpr rfl⟩
      exact List.forall_mem_append.mpr
        ⟨arePrintable_member .beginObject rfl member.1 hmember, arePrintable_memberTokens hmembers⟩

end Value

theorem ArePrintable.areSpelledBy {tokens : List Token} (h : ArePrintable tokens) :
    AreSpelledBy tokens (tokens.flatMap Token.spelling) := by
  induction tokens with
  | nil => exact .nil areBlanks_nil
  | cons token tokens ih =>
      obtain ⟨htoken, htokens⟩ := List.forall_mem_cons.mp h
      exact .cons areBlanks_nil htoken (ih htokens)

theorem Value.IsPrintable.isWrittenAs_compact {value : Value} (h : value.IsPrintable) :
    value.IsWrittenAs value.compact := by
  rw [IsWrittenAs, compact, String.toList_ofList]
  exact h.areSpelledBy

theorem Value.IsPrintable.parse?_compact {value : Value} (h : value.IsPrintable) :
    parse? value.compact = some value :=
  (parse?_eq_some_iff value.compact value).mpr h.isWrittenAs_compact

theorem AreBlanks.areSpelledBy {blanks : List Char} (h : AreBlanks blanks) {tokens : List Token}
    {text : List Char} (htext : AreSpelledBy tokens text) : AreSpelledBy tokens (blanks ++ text) := by
  induction blanks with
  | nil => exact htext
  | cons c blanks ih =>
      obtain ⟨hc, hblanks⟩ := List.forall_mem_cons.mp h
      exact (ih hblanks).blank hc

theorem AreSpelledBy.append {front back : List Token} {text rest : List Char}
    (hfront : AreSpelledBy front text) (hback : AreSpelledBy back rest) :
    AreSpelledBy (front ++ back) (text ++ rest) := by
  induction hfront with
  | nil hblanks => exact hblanks.areSpelledBy hback
  | cons hblanks htoken _ ih =>
      rw [List.cons_append, List.append_assoc, List.append_assoc]
      exact .cons hblanks htoken ih

/--
The texts are what stands in front of and behind the place of a value in a document, where `around`
makes the document of the value.
-/
def Surround (around : Value → Value) (front back : String) : Prop :=
  ∃ before after, AreSpelledBy before front.toList ∧ AreSpelledBy after back.toList ∧
    ∀ value, (around value).tokens = before ++ value.tokens ++ after

theorem Surround.isWrittenAs {around : Value → Value} {front back : String}
    (h : Surround around front back) {value : Value} {text : String} (htext : value.IsWrittenAs text) :
    (around value).IsWrittenAs (front ++ text ++ back) := by
  obtain ⟨before, after, hbefore, hafter, htokens⟩ := h
  rw [Value.IsWrittenAs, htokens, String.toList_append, String.toList_append]
  exact (hbefore.append htext).append hafter

end PanelRelay.Json
