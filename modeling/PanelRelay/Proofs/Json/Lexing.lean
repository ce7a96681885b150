import PanelRelay.Proofs.Json.Numbers
import PanelRelay.Proofs.Json.Strings

/-!
Cutting a text into tokens undoes their spelling, and what is cut is spelled. Only a number can run
into what stands behind it, and only into another number.
-/

namespace PanelRelay.Json

def Token.isNumber : Token → Bool
  | .number _ => true
  | _ => false

/-- No two numbers stand side by side. -/
def NumbersApart (tokens : List Token) : Prop :=
  tokens.IsChain fun token next => token.isNumber = true → next.isNumber = false

theorem number?_of_not_start {c : Char} (hminus : c ≠ '-') (hdigit : c.isDigit = false)
    (rest : List Char) : number? (c :: rest) = none := by
  have hzero : c ≠ '0' := by
    rintro rfl
    cases hdigit
  have hwhole : wholePart? (c :: rest) = none := by
    rw [wholePart?]
    · simp [takeDigits, hdigit]
    · rintro _ heq
      exact absurd (List.cons.inj heq).1 hzero
  rw [number?]
  · simp [magnitude?, hwhole]
  · rintro _ heq
    exact absurd (List.cons.inj heq).1 hminus

theorem token?_of_number? {text rest : List Char} {number : Number}
    (h : number? text = some (number, rest)) : token? text = some (.number number, rest) := by
  have hstart : ∀ c, c ≠ '-' → c.isDigit = false → ∀ tail, text ≠ c :: tail := by
    rintro c hminus hdigit tail rfl
    rw [number?_of_not_start hminus hdigit] at h
    cases h
  unfold token?
  split
  case h_11 => simp [h]
  all_goals exact absurd rfl (hstart _ (by decide) (by decide) _)

theorem token?_of_stringBody {text rest : List Char} {raw : List Piece}
    (h : stringBody text = some (raw, rest)) :
    token? ('"' :: text) = some (.string (joinSurrogates raw), rest) := by
  simp [token?, h]

theorem token?_append {token : Token} {text rest : List Char} (h : token.IsSpelledBy text)
    (hrest : token.isNumber = true → EndsNumber rest) :
    token? (text ++ rest) = some (token, rest) := by
  cases token with
  | number value => exact token?_of_number? (number?_append h (hrest rfl))
  | string content =>
      obtain ⟨body, hbody, rfl⟩ := h
      obtain ⟨raw, hread, rfl⟩ := stringBody_append hbody rest
      have htoken := token?_of_stringBody hread
      simpa using htoken
  | bool value =>
      obtain rfl := h
      cases value <;> rfl
  | _ =>
      obtain rfl := h
      rfl

theorem token?_spec {token : Token} {text rest : List Char} (h : token? text = some (token, rest)) :
    ∃ front, text = front ++ rest ∧ token.IsSpelledBy front := by
  unfold token? at h
  split at h
  case h_10 =>
    simp only [Option.bind_eq_bind, Option.bind_eq_some_iff] at h
    obtain ⟨⟨raw, remaining⟩, hraw, heq⟩ := h
    cases heq
    obtain ⟨body, rfl, hbody⟩ := stringBody_spec hraw
    exact ⟨'"' :: body ++ ['"'], by simp, body, isStringSpelling_joinSurrogates hbody, rfl⟩
  case h_11 =>
    simp only [Option.bind_eq_bind, Option.bind_eq_some_iff] at h
    obtain ⟨⟨number, remaining⟩, hnumber, heq⟩ := h
    cases heq
    exact number?_spec hnumber
  all_goals
    cases h
    exact ⟨_, rfl, rfl⟩

theorem token?_blank {c : Char} (h : isBlank c = true) (rest : List Char) :
    token? (c :: rest) = none := by
  rcases (isBlank_iff c).mp h with rfl | rfl | rfl | rfl <;>
    simp [token?, number?_of_not_start]

theorem tokens?_of_token? {token : Token} {text rest : List Char}
    (h : token? text = some (token, rest)) : tokens? text = (tokens? rest).map (token :: ·) := by
  cases text with
  | nil => cases h
  | cons c tail =>
      have hblank : ¬ isBlank c = true := by
        intro hblank
        rw [token?_blank hblank] at h
        cases h
      rw [tokens?, if_neg hblank]
      split
      next hnone =>
        rw [h] at hnone
        cases hnone
      next found remaining hfound =>
        rw [h] at hfound
        cases hfound
        rfl

theorem tokens?_blanks {blanks : List Char} (h : AreBlanks blanks) (text : List Char) :
    tokens? (blanks ++ text) = tokens? text := by
  induction blanks with
  | nil => rfl
  | cons c blanks ih =>
      obtain ⟨hc, hblanks⟩ := List.forall_mem_cons.mp h
      rw [List.cons_append, tokens?, if_pos hc, ih hblanks]

theorem endsNumber_of_blank {c : Char} (h : isBlank c = true) (rest : List Char) :
    EndsNumber (c :: rest) := by
  intro first hfirst
  obtain rfl := Option.mem_some.mp hfirst
  rcases (isBlank_iff c).mp h with rfl | rfl | rfl | rfl <;> decide

theorem endsNumber_of_isSpelledBy {token : Token} {text : List Char} (h : token.IsSpelledBy text)
    (hnumber : token.isNumber = false) (rest : List Char) : EndsNumber (text ++ rest) := by
  intro first hfirst
  cases token with
  | number value => cases hnumber
  | string content =>
      obtain ⟨body, -, rfl⟩ := h
      obtain rfl := Option.mem_some.mp hfirst
      decide
  | bool value =>
      obtain rfl := h
      cases value
      all_goals
        obtain rfl := Option.mem_some.mp hfirst
        decide
  | _ =>
      obtain rfl := h
      obtain rfl := Option.mem_some.mp hfirst
      decide

theorem endsNumber_of_areSpelledBy {tokens : List Token} {text : List Char}
    (h : AreSpelledBy tokens text) (hnext : ∀ next ∈ tokens.head?, next.isNumber = false) :
    EndsNumber text := by
  cases h with
  | nil hblanks =>
      cases text with
      | nil => exact nofun
      | cons c text => exact endsNumber_of_blank (hblanks c List.mem_cons_self) text
  | @cons token tokens blanks front rest hblanks htoken htokens =>
      cases blanks with
      | nil => exact endsNumber_of_isSpelledBy htoken (hnext token rfl) rest
      | cons c blanks => exact endsNumber_of_blank (hblanks c List.mem_cons_self) _

theorem tokens?_of_areSpelledBy {tokens : List Token} {text : List Char}
    (h : AreSpelledBy tokens text) (hapart : NumbersApart tokens) : tokens? text = some tokens := by
  induction h with
  | @nil blanks hblanks =>
      have hread := tokens?_blanks hblanks []
      rw [List.append_nil] at hread
      rw [hread, tokens?]
  | @cons token tokens blanks front rest hblanks htoken htokens ih =>
      obtain ⟨hnext, hapart⟩ := List.isChain_cons.mp hapart
      have hread := token?_append htoken fun hnumber =>
        endsNumber_of_areSpelledBy htokens fun next hmem => hnext next hmem hnumber
      rw [tokens?_blanks hblanks, tokens?_of_token? hread, ih hapart]
      rfl

theorem areBlanks_nil : AreBlanks [] :=
  List.forall_mem_nil _

theorem AreSpelledBy.blank {tokens : List Token} {c : Char} {text : List Char}
    (hc : isBlank c = true) (h : AreSpelledBy tokens text) : AreSpelledBy tokens (c :: text) := by
  cases h with
  | nil hblanks => exact .nil (List.forall_mem_cons.mpr ⟨hc, hblanks⟩)
  | cons hblanks htoken htokens =>
      exact .cons (List.forall_mem_cons.mpr ⟨hc, hblanks⟩) htoken htokens

theorem areSpelledBy_of_tokens? {tokens : List Token} {text : List Char}
    (h : tokens? text = some tokens) : AreSpelledBy tokens text := by
  fun_induction tokens? text generalizing tokens with
  | case1 =>
      cases h
      exact .nil areBlanks_nil
  | case2 c text hblank ih => exact (ih h).blank hblank
  | case3 => cases h
  | case4 c text hblank token rest htoken hlength ih =>
      obtain ⟨tokens, hrest, rfl⟩ := Option.map_eq_some_iff.mp h
      obtain ⟨front, htext, hfront⟩ := token?_spec htoken
      rw [htext]
      exact .cons areBlanks_nil hfront (ih hrest)

end PanelRelay.Json
