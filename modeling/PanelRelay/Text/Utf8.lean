/-! Texts as UTF-8 octets, read strictly or with replacement of what is no text. -/

namespace PanelRelay.Utf8

def encode (text : String) : List UInt8 :=
  text.toUTF8.data.toList

/-- Only the shortest form of a Unicode scalar value counts as its encoding. -/
def decode? (octets : List UInt8) : Option String :=
  String.fromUTF8? octets.toByteArray

/--
What a first octet announces: how many octets follow, the range of the next one, and the bits it
contributes itself.
-/
def lead? (octet : UInt8) : Option (Nat × (Nat × Nat) × Nat) :=
  let n := octet.toNat
  if n < 0x80 then some (0, (0, 0), n)
  else if 0xc2 ≤ n ∧ n ≤ 0xdf then some (1, (0x80, 0xbf), n % 32)
  else if n = 0xe0 then some (2, (0xa0, 0xbf), n % 16)
  else if n = 0xed then some (2, (0x80, 0x9f), n % 16)
  else if 0xe1 ≤ n ∧ n ≤ 0xef then some (2, (0x80, 0xbf), n % 16)
  else if n = 0xf0 then some (3, (0x90, 0xbf), n % 8)
  else if 0xf1 ≤ n ∧ n ≤ 0xf3 then some (3, (0x80, 0xbf), n % 8)
  else if n = 0xf4 then some (3, (0x80, 0x8f), n % 8)
  else none

/-- Takes continuation octets as far as they fit; no value if one is missing. -/
def continuation : Nat → (Nat × Nat) → Nat → List UInt8 → Option Nat × List UInt8
  | 0, _, bits, octets => (some bits, octets)
  | _ + 1, _, _, [] => (none, [])
  | count + 1, (low, high), bits, octet :: octets =>
      if low ≤ octet.toNat ∧ octet.toNat ≤ high then
        continuation count (0x80, 0xbf) (bits * 64 + octet.toNat % 64) octets
      else (none, octet :: octets)

theorem continuation_length_le (count : Nat) (range : Nat × Nat) (bits : Nat)
    (octets : List UInt8) :
    (continuation count range bits octets).2.length ≤ octets.length := by
  induction count generalizing range bits octets with
  | zero => simp [continuation]
  | succ count ih =>
      cases octets with
      | nil => simp [continuation]
      | cons octet octets =>
          simp only [continuation]
          split
          · exact Nat.le_trans (ih _ _ _) (by simp)
          · simp

def dropMark : List Char → List Char
  | '\ufeff' :: text => text
  | text => text

def replacement : Char := '\ufffd'

/-- Each longest start of a sequence that never completes becomes one replacement character. -/
def decodeLossy (octets : List UInt8) : List Char :=
  match octets with
  | [] => []
  | octet :: octets =>
      match lead? octet with
      | none => replacement :: decodeLossy octets
      | some (count, range, bits) =>
          have := continuation_length_le count range bits octets
          let taken := continuation count range bits octets
          taken.1.elim replacement Char.ofNat :: decodeLossy taken.2
termination_by octets.length

theorem encode_append (text other : String) :
    encode (text ++ other) = encode text ++ encode other := by
  simp [encode, String.toByteArray_append]

@[simp] theorem decode?_encode (text : String) : decode? (encode text) = some text := by
  have hoctets : (encode text).toByteArray = text.toByteArray := by
    apply ByteArray.ext
    simp [encode]
  simp only [decode?, hoctets, String.fromUTF8?, dif_pos text.isValidUTF8]
  rfl

/-- Octets are read as a text exactly if they are what the text is written as. -/
theorem decode?_eq_some_iff (octets : List UInt8) (text : String) :
    decode? octets = some text ↔ octets = encode text := by
  constructor
  · intro h
    rw [decode?, String.fromUTF8?] at h
    split at h
    next hvalid =>
      obtain rfl := Option.some.inj h
      simp [encode, String.fromUTF8]
    next => cases h
  · rintro rfl
    exact decode?_encode text

end PanelRelay.Utf8
