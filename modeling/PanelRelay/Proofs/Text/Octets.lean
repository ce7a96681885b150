import PanelRelay.Proofs.Text.Spelling

/-!
Octets as text, bit by bit. A spelling has a symbol for every six bits of the octets and is padded
to groups of four. Each list of octets has one spelling, and no other text is read as these octets.
-/

namespace PanelRelay.Base64

/-- The symbols in the order of the bits that they stand for. -/
def alphabet : List Char :=
  "ABCDEFGHIJKLMNOPQRSTUVWXYZabcdefghijklmnopqrstuvwxyz0123456789+/".toList

def letter (sextet : Fin 64) : Char :=
  alphabet.get (sextet.cast (by decide))

/-- The lowest bits of a number, the highest of them first. -/
def binary : Nat → Nat → List Bool
  | 0, _ => []
  | width + 1, n => binary width (n / 2) ++ [decide (n % 2 = 1)]

def sextetBits (sextets : List (Fin 64)) : List Bool :=
  sextets.flatMap fun sextet => binary 6 sextet.val

def octetBits (octets : List UInt8) : List Bool :=
  octets.flatMap fun octet => binary 8 octet.toNat

/-- The standard spelling; the bits of the last symbol that no octet uses are zero. -/
def IsSpelling (octets : List UInt8) (text : List Char) : Prop :=
  ∃ (sextets : List (Fin 64)) (padding : Nat),
    text = sextets.map letter ++ List.replicate padding '=' ∧
    padding < 3 ∧ (sextets.length + padding) % 4 = 0 ∧
    sextetBits sextets = octetBits octets ++ List.replicate (2 * padding) false

theorem letter_eq_symbol : ∀ sextet : Fin 64, letter sextet = symbol sextet := by
  decide

@[simp] theorem length_binary (width n : Nat) : (binary width n).length = width := by
  induction width generalizing n with
  | zero => rfl
  | succ width ih => simp [binary, ih]

theorem binary_append (width low n m : Nat) (hm : m < Nat.pow 2 low) :
    binary width n ++ binary low m = binary (width + low) (n * Nat.pow 2 low + m) := by
  induction low generalizing m with
  | zero =>
      obtain rfl : m = 0 := Nat.lt_one_iff.mp hm
      simp [binary]
  | succ low ih =>
      have hpow : Nat.pow 2 (low + 1) = Nat.pow 2 low * 2 := rfl
      rw [hpow] at hm
      have hhalf : (n * (Nat.pow 2 low * 2) + m) / 2 = n * Nat.pow 2 low + m / 2 := by
        rw [← Nat.mul_assoc]
        omega
      have hlast : (n * (Nat.pow 2 low * 2) + m) % 2 = m % 2 := by
        rw [← Nat.mul_assoc]
        omega
      rw [hpow, ← Nat.add_assoc, binary, binary, hhalf, hlast, ← ih (m / 2) (by omega),
        List.append_assoc]

theorem binary_append_octet (width n : Nat) {m : Nat} (hm : m < 256) :
    binary width n ++ binary 8 m = binary (width + 8) (n * 256 + m) :=
  binary_append width 8 n m hm

theorem binary_append_sextet (width n : Nat) {m : Nat} (hm : m < 64) :
    binary width n ++ binary 6 m = binary (width + 6) (n * 64 + m) :=
  binary_append width 6 n m hm

theorem isSpelling_cons {octets : List UInt8} {text : List Char} (a b c : UInt8)
    (h : IsSpelling octets text) :
    IsSpelling (a :: b :: c :: octets)
      (symbol (a.toNat / 4) :: symbol (a.toNat % 4 * 16 + b.toNat / 16) ::
        symbol (b.toNat % 16 * 4 + c.toNat / 64) :: symbol (c.toNat % 64) :: text) := by
  have ha := a.toNat_lt
  have hb := b.toNat_lt
  have hc := c.toNat_lt
  obtain ⟨sextets, padding, rfl, hpadding, hlength, hbits⟩ := h
  have hgroup : binary 6 (a.toNat / 4) ++ binary 6 (a.toNat % 4 * 16 + b.toNat / 16) ++
      binary 6 (b.toNat % 16 * 4 + c.toNat / 64) ++ binary 6 (c.toNat % 64) =
        binary 8 a.toNat ++ binary 8 b.toNat ++ binary 8 c.toNat := by
    rw [binary_append_sextet 6 _ (by omega), binary_append_sextet (6 + 6) _ (by omega),
      binary_append_sextet (6 + 6 + 6) _ (by omega), binary_append_octet 8 _ hb,
      binary_append_octet (8 + 8) _ hc]
    exact congrArg (binary 24) (by omega)
  refine ⟨⟨a.toNat / 4, by omega⟩ :: ⟨a.toNat % 4 * 16 + b.toNat / 16, by omega⟩ ::
    ⟨b.toNat % 16 * 4 + c.toNat / 64, by omega⟩ :: ⟨c.toNat % 64, by omega⟩ :: sextets, padding,
    ?_, hpadding, ?_, ?_⟩
  · simp [letter_eq_symbol]
  · simp only [List.length_cons]
    omega
  · rw [octetBits, List.flatMap_cons, List.flatMap_cons, List.flatMap_cons, ← octetBits]
    rw [sextetBits, List.flatMap_cons, List.flatMap_cons, List.flatMap_cons, List.flatMap_cons,
      ← sextetBits, hbits]
    simp only [← List.append_assoc]
    rw [hgroup]

theorem isSpelling_encode (octets : List UInt8) : IsSpelling octets (encode octets) := by
  induction octets using encode.induct with
  | case1 => exact ⟨[], 0, rfl, by decide, rfl, rfl⟩
  | case2 a =>
      have ha := a.toNat_lt
      refine ⟨[⟨a.toNat / 4, by omega⟩, ⟨a.toNat % 4 * 16, by omega⟩], 2, ?_, by decide, ?_, ?_⟩
      · simp [encode, letter_eq_symbol, List.replicate]
      · simp
      · have hunused : List.replicate (2 * 2) false = binary 4 0 := rfl
        simp only [sextetBits, octetBits, List.flatMap_cons, List.flatMap_nil, List.append_nil,
          hunused]
        rw [binary_append_sextet 6 _ (by omega), binary_append 8 4 _ 0 (by decide)]
        exact congrArg (binary 12) (by change _ = a.toNat * 16 + 0; omega)
  | case3 a b =>
      have ha := a.toNat_lt
      have hb := b.toNat_lt
      refine ⟨[⟨a.toNat / 4, by omega⟩, ⟨a.toNat % 4 * 16 + b.toNat / 16, by omega⟩,
        ⟨b.toNat % 16 * 4, by omega⟩], 1, ?_, by decide, ?_, ?_⟩
      · simp [encode, letter_eq_symbol, List.replicate]
      · simp
      · have hunused : List.replicate (2 * 1) false = binary 2 0 := rfl
        simp only [sextetBits, octetBits, List.flatMap_cons, List.flatMap_nil, List.append_nil,
          hunused, ← List.append_assoc]
        rw [binary_append_sextet 6 _ (by omega), binary_append_sextet (6 + 6) _ (by omega),
          binary_append_octet 8 _ hb, binary_append (8 + 8) 2 _ 0 (by decide)]
        exact congrArg (binary 18) (by change _ = (a.toNat * 256 + b.toNat) * 4 + 0; omega)
  | case4 a b c octets ih =>
      rw [encode]
      exact isSpelling_cons a b c ih

theorem length_flatMap_binary {α : Type} (width : Nat) (number : α → Nat) (items : List α) :
    (items.flatMap fun item => binary width (number item)).length = width * items.length := by
  induction items with
  | nil => rfl
  | cons item items ih =>
      rw [List.flatMap_cons, List.length_append, ih, length_binary, List.length_cons, Nat.mul_succ,
        Nat.add_comm]

theorem binary_sextet_inj {sextet other : Fin 64} (h : binary 6 sextet.val = binary 6 other.val) :
    sextet = other := by
  have hread : ∀ sextet : Fin 64,
      (binary 6 sextet.val).foldl (fun n bit => 2 * n + bit.toNat) 0 = sextet.val := by
    decide
  rw [Fin.ext_iff, ← hread sextet, h, hread other]

theorem sextetBits_inj {sextets others : List (Fin 64)}
    (h : sextetBits sextets = sextetBits others) : sextets = others := by
  induction sextets generalizing others with
  | nil =>
      cases others with
      | nil => rfl
      | cons other others =>
          simp [sextetBits, binary] at h
  | cons sextet sextets ih =>
      cases others with
      | nil =>
          simp [sextetBits, binary] at h
      | cons other others =>
          rw [sextetBits, sextetBits, List.flatMap_cons, List.flatMap_cons] at h
          obtain ⟨hfirst, hrest⟩ := List.append_inj h (by simp)
          rw [binary_sextet_inj hfirst, ih hrest]

/-- The number of the octets tells the padding, and their bits tell the symbols. -/
theorem IsSpelling.unique {octets : List UInt8} {text other : List Char}
    (htext : IsSpelling octets text) (hother : IsSpelling octets other) : text = other := by
  obtain ⟨sextets, padding, rfl, hpadding, -, hbits⟩ := htext
  obtain ⟨others, otherPadding, rfl, hotherPadding, -, hotherBits⟩ := hother
  have hlength := congrArg List.length hbits
  have hotherLength := congrArg List.length hotherBits
  rw [List.length_append, List.length_replicate, sextetBits, octetBits,
    length_flatMap_binary, length_flatMap_binary] at hlength hotherLength
  obtain rfl : padding = otherPadding := by omega
  rw [sextetBits_inj (hbits.trans hotherBits.symm)]

theorem isSpelling_iff {octets : List UInt8} {text : List Char} :
    IsSpelling octets text ↔ text = encode octets :=
  ⟨fun h => h.unique (isSpelling_encode octets), fun h => h ▸ isSpelling_encode octets⟩

theorem toNat_lt_of_bits? {c : Char} {n : Nat} (h : bits? c = some n) : c.toNat < 128 := by
  have hbound (last : Char) (hlast : last.toNat < 128) (hc : c ≤ last) : c.toNat < 128 :=
    Nat.lt_of_le_of_lt hc hlast
  unfold bits? at h
  split at h
  next hupper => exact hbound 'Z' (by decide) hupper.2
  next =>
    split at h
    next hlower => exact hbound 'z' (by decide) hlower.2
    next =>
      split at h
      next hdigit => exact hbound '9' (by decide) hdigit.2
      next =>
        split at h
        next hplus => exact hplus ▸ by decide
        next =>
          split at h
          next hslash => exact hslash ▸ by decide
          next => cases h

theorem eq_symbol_of_bits? {c : Char} {n : Nat} (h : bits? c = some n) : n < 64 ∧ c = symbol n := by
  have hall : ∀ code < 128, (bits? (Char.ofNat code)).all (fun n =>
      n < 64 && Char.ofNat code = symbol n) = true := by
    decide
  have hsymbol := hall c.toNat (toNat_lt_of_bits? h)
  rw [Char.ofNat_toNat, h] at hsymbol
  simpa using hsymbol

theorem toNat_ofNat_of_lt {n : Nat} (hn : n < 256) : (UInt8.ofNat n).toNat = n :=
  UInt8.toNat_ofNat_of_lt' hn

/-- Four symbols are told by the octets that they come to. -/
theorem eq_encode_of_decodeGroup? {a b c d : Char} {octets : List UInt8}
    (h : decodeGroup? a b c d = some octets) :
    ∃ x y z, octets = [x, y, z] ∧ [a, b, c, d] = encode [x, y, z] := by
  simp only [decodeGroup?, Option.bind_eq_bind, Option.bind_eq_some_iff, Option.some.injEq] at h
  obtain ⟨p, hp, q, hq, r, hr, s, hs, rfl⟩ := h
  obtain ⟨hp, rfl⟩ := eq_symbol_of_bits? hp
  obtain ⟨hq, rfl⟩ := eq_symbol_of_bits? hq
  obtain ⟨hr, rfl⟩ := eq_symbol_of_bits? hr
  obtain ⟨hs, rfl⟩ := eq_symbol_of_bits? hs
  have hfirst : (p * 4 + q / 16) / 4 = p := by omega
  have hsecond : (p * 4 + q / 16) % 4 * 16 + (q % 16 * 16 + r / 4) / 16 = q := by omega
  have hthird : (q % 16 * 16 + r / 4) % 16 * 4 + (r % 4 * 64 + s) / 64 = r := by omega
  have hfourth : (r % 4 * 64 + s) % 64 = s := by omega
  refine ⟨_, _, _, rfl, ?_⟩
  simp only [encode]
  rw [toNat_ofNat_of_lt (by omega), toNat_ofNat_of_lt (by omega),
    toNat_ofNat_of_lt (by omega), hfirst, hsecond, hthird, hfourth]

theorem eq_encode_of_decodeLast? {a b c : Char} {octets : List UInt8}
    (h : decodeLast? a b c '=' = some octets) : [a, b, c, '='] = encode octets := by
  simp only [decodeLast?, if_true, Option.bind_eq_bind, Option.bind_eq_some_iff] at h
  obtain ⟨p, hp, q, hq, h⟩ := h
  obtain ⟨hp, rfl⟩ := eq_symbol_of_bits? hp
  obtain ⟨hq, rfl⟩ := eq_symbol_of_bits? hq
  have hfirst : (p * 4 + q / 16) / 4 = p := by omega
  split at h
  next hpadding =>
    obtain ⟨hunused, h⟩ := Option.ite_none_right_eq_some.mp h
    obtain rfl := Option.some.inj h
    have hsecond : (p * 4 + q / 16) % 4 * 16 = q := by omega
    rw [encode, toNat_ofNat_of_lt (by omega), hfirst, hsecond, hpadding]
  next =>
    obtain ⟨r, hr, hlast⟩ := Option.bind_eq_some_iff.mp h
    obtain ⟨hunused, hoctets⟩ := Option.ite_none_right_eq_some.mp hlast
    obtain rfl := Option.some.inj hoctets
    obtain ⟨hr, rfl⟩ := eq_symbol_of_bits? hr
    have hsecond : (p * 4 + q / 16) % 4 * 16 + (q % 16 * 16 + r / 4) / 16 = q := by omega
    have hthird : (q % 16 * 16 + r / 4) % 16 * 4 = r := by omega
    rw [encode, toNat_ofNat_of_lt (by omega), toNat_ofNat_of_lt (by omega), hfirst,
      hsecond, hthird]

theorem eq_encode_of_decode? {text : List Char} {octets : List UInt8}
    (h : decode? text = some octets) : text = encode octets := by
  induction text using decode?.induct generalizing octets with
  | case1 =>
      obtain rfl := Option.some.inj h
      rfl
  | case2 a b c =>
      rw [decode?, if_pos rfl] at h
      exact eq_encode_of_decodeLast? h
  | case3 a b c d hd =>
      rw [decode?, if_neg hd] at h
      obtain ⟨x, y, z, rfl, htext⟩ := eq_encode_of_decodeGroup? h
      exact htext
  | case4 a b c d text htext ih =>
      rw [decode?] at h
      · obtain ⟨first, hfirst, hrest⟩ := Option.bind_eq_some_iff.mp h
        obtain ⟨rest, hread, hoctets⟩ := Option.bind_eq_some_iff.mp hrest
        obtain rfl := Option.some.inj hoctets
        obtain ⟨x, y, z, rfl, hgroup⟩ := eq_encode_of_decodeGroup? hfirst
        have hsymbols := congrArg (· ++ encode rest) hgroup
        rw [ih hread]
        exact hsymbols
      · exact htext
  | case5 text hnil hlast hgroup =>
      rw [decode?] at h
      · cases h
      · exact hnil
      · exact hlast
      · exact hgroup

theorem decode?_eq_some_iff {text : List Char} {octets : List UInt8} :
    decode? text = some octets ↔ text = encode octets :=
  ⟨eq_encode_of_decode?, fun h => h ▸ decode?_encode octets⟩

end PanelRelay.Base64
