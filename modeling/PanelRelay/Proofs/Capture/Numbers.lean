import PanelRelay.Proofs.Capture.Placement
import PanelRelay.Proofs.Capture.Refusal
import PanelRelay.Proofs.Json.Integers

/-!
Numbers of a capture. An index, an integer and an element of an octet list are read by one rule: a
literal is stored as the integer that its digits stand for, and the capture is none if the literal is
no integer or does not fit.
-/

namespace PanelRelay.Capture

open Json (IsIntegerLiteral Number Piece pieces)

variable {explain : String → String}

/-- A property with a place for a number: its index, in either form, or within its value. -/
inductive PropertyGap where
  | memberIndex (front back : List (List Piece × Json.Value))
  | listedIndex (name status value : Json.Value)
  | integer (frame : PropertyFrame)
  | octet (frame : PropertyFrame) (before after : List Json.Value)

namespace PropertyGap

def fill (number : Json.Value) : PropertyGap → Json.Value
  | memberIndex front back => .object (front ++ (pieces "index", number) :: back)
  | listedIndex name status value => .array [name, number, status, value]
  | integer frame => frame.fill (.object [(pieces "integer", number)])
  | octet frame before after =>
      frame.fill (.object [(pieces "bytes", .array (before ++ number :: after))])

/-- The numbers that fit in the place. -/
def Admits (n : Int) : PropertyGap → Prop
  | memberIndex _ _ | listedIndex _ _ _ => 0 ≤ n ∧ n ≤ 0xffffffff
  | integer _ => -0x80000000 ≤ n ∧ n ≤ 0x7fffffff
  | octet _ _ _ => 0 ≤ n ∧ n ≤ 255

/-- What is stored has the number in the place, and apart from it is the entry. -/
def Stores (n : Int) (entry stored : Entry) : PropertyGap → Prop
  | memberIndex _ _ | listedIndex _ _ _ =>
      ∃ index : UInt32, (index.toNat : Int) = n ∧ { entry with index } = stored
  | integer _ => ∃ word : Int32, word.toInt = n ∧ entry.withValue (.integer word) = stored
  | octet _ before _ =>
      ∃ front former back, entry.value = some (.bytes (front ++ former :: back)) ∧
        front.length = before.length ∧ ∃ octet : UInt8, (octet.toNat : Int) = n ∧
          entry.withValue (.bytes (front ++ octet :: back)) = stored

/-- The literal is that of an integer that fits in the place. -/
def Takes (gap : PropertyGap) (n : Int) (literal : List Char) : Prop :=
  IsIntegerLiteral n literal ∧ gap.Admits n

end PropertyGap

/-- A capture with a place for a number. -/
structure Gap where
  message : MessageFrame
  before : List Json.Value
  property : PropertyGap
  after : List Json.Value

def Gap.fill (gap : Gap) (number : Json.Value) : Json.Value :=
  gap.message.fill (.array (gap.before ++ gap.property.fill number :: gap.after))

/-- Of a list that is read, any element can be replaced and the others are read as before. -/
theorem mapM_refill {α β : Type} {read? : α → Option β} {before after : List α} {item : α}
    {found : List β} (h : (before ++ item :: after).mapM read? = some found) :
    ∃ earlier result later, found = earlier ++ result :: later ∧
      earlier.length = before.length ∧ read? item = some result ∧
      ∀ other, (before ++ other :: after).mapM read? =
        (read? other).map fun result => earlier ++ result :: later := by
  induction before generalizing found with
  | nil =>
      simp only [List.nil_append, List.mapM_cons, Option.bind_eq_bind, Option.bind_eq_some_iff] at h
      obtain ⟨result, hitem, later, hafter, heq⟩ := h
      refine ⟨[], result, later, (Option.some.inj heq).symm, rfl, hitem, ?_⟩
      intro other
      rw [List.nil_append, List.mapM_cons, hafter]
      cases read? other <;> rfl
  | cons first before ih =>
      simp only [List.cons_append, List.mapM_cons, Option.bind_eq_bind, Option.bind_eq_some_iff] at h
      obtain ⟨head, hfirst, rest, hrest, heq⟩ := h
      obtain ⟨earlier, result, later, rfl, hlength, hitem, hothers⟩ := ih hrest
      refine ⟨head :: earlier, result, later, (Option.some.inj heq).symm, congrArg (· + 1) hlength,
        hitem, ?_⟩
      intro other
      rw [List.cons_append, List.mapM_cons, hfirst, hothers other]
      cases read? other <;> rfl

theorem nullable?_integer (number : Json.Value) :
    nullable? Property.Value.ofJson? (.object [(pieces "integer", number)]) =
      ((Property.integer? number).bind int32?).map fun word => some (.integer word) := by
  rw [nullable?, Property.Value.ofJson?, Property.Value.ofMember?, if_neg (by decide), if_pos rfl,
    Option.map_map]
  · rfl
  · intro hnull
    cases hnull

theorem nullable?_bytes (elements : Json.Value) :
    nullable? Property.Value.ofJson? (.object [(pieces "bytes", elements)]) =
      (Property.octets? elements).map fun octets => some (.bytes octets) := by
  rw [nullable?, Property.Value.ofJson?, Property.Value.ofMember?, if_neg (by decide),
    if_neg (by decide), if_pos rfl, Option.map_map]
  · rfl
  · intro hnull
    cases hnull

theorem Entry.ofFields?_refill_index {name index value : Json.Value} {status : Option Json.Value}
    {entry : Entry} (h : ofFields? name (some index) status value = some entry)
    (other : Json.Value) :
    ofFields? name (some other) status value =
      (index? other).map fun index => { entry with index } := by
  simp only [ofFields?, Option.bind_eq_bind, Option.bind_eq_some_iff] at h
  obtain ⟨name, hname, _, _, status, hstatus, value, hvalue, heq⟩ := h
  cases heq
  have hread : defaulted? 0 index? (some other) = index? other := rfl
  simp only [ofFields?, hread, hname, hstatus, hvalue]
  cases index? other <;> rfl

namespace PropertyGap

theorem ofJson?_memberIndex {front back : List (List Piece × Json.Value)} {index : Json.Value}
    {entry : Entry} (h : Entry.ofJson? ((memberIndex front back).fill index) = some entry)
    (other : Json.Value) :
    Entry.ofJson? ((memberIndex front back).fill other) =
      (index? other).map fun index => { entry with index } := by
  simp only [fill, Entry.ofJson?, namesAreTexts_of_split _ other index,
    member?_of_other "name" "index" (by decide), member?_of_other "status" "index" (by decide),
    member?_of_other "value" "index" (by decide)] at h ⊢
  split at h
  next hnames =>
    simp only [Option.bind_eq_bind, Option.bind_eq_some_iff] at h
    obtain ⟨_, hname, name, rfl, found, hindex, status, hstatus, value, hvalue, hfields⟩ := h
    obtain ⟨rfl, hindices⟩ := member?_of_read hindex
    simp only [if_pos hnames, hname, hindices other, hstatus, hvalue]
    exact Entry.ofFields?_refill_index hfields other
  next => cases h

theorem ofJson?_integer {frame : PropertyFrame} {content : Json.Value} {entry : Entry}
    (h : Entry.ofJson? ((integer frame).fill content) = some entry) (other : Json.Value) :
    Entry.ofJson? ((integer frame).fill other) =
      ((Property.integer? other).bind int32?).map fun word => entry.withValue (.integer word) := by
  rw [fill, PropertyFrame.ofJson?_refill h, nullable?_integer, Option.map_map]
  rfl

/-- The octets in front of the place and behind it are read as they stand there. -/
theorem ofJson?_octet {frame : PropertyFrame} {before after : List Json.Value}
    {content : Json.Value} {entry : Entry}
    (h : Entry.ofJson? ((octet frame before after).fill content) = some entry) :
    ∃ front former back, entry.value = some (.bytes (front ++ former :: back)) ∧
      front.length = before.length ∧
      ∀ other, Entry.ofJson? ((octet frame before after).fill other) =
        ((Property.integer? other).bind octet?).map fun octet =>
          entry.withValue (.bytes (front ++ octet :: back)) := by
  have hrefill (other : Json.Value) := PropertyFrame.ofJson?_refill h
    (.object [(pieces "bytes", .array (before ++ other :: after))])
  simp only [nullable?_bytes, Property.octets?] at hrefill
  have hread := (hrefill content).symm.trans h
  simp only [Option.map_eq_some_iff] at hread
  obtain ⟨_, ⟨octets, hoctets, rfl⟩, hentry⟩ := hread
  obtain ⟨front, former, back, rfl, hlength, -, hothers⟩ := mapM_refill hoctets
  refine ⟨front, former, back, (congrArg Entry.value hentry).symm, hlength, ?_⟩
  intro other
  rw [fill, hrefill other, hothers other, Option.map_map, Option.map_map]
  rfl

theorem Stores.admits {gap : PropertyGap} {n : Int} {entry stored : Entry}
    (h : gap.Stores n entry stored) : gap.Admits n := by
  cases gap with
  | memberIndex | listedIndex =>
      obtain ⟨index, rfl, -⟩ := h
      have hhigh := index.toNat_lt
      exact ⟨by omega, by omega⟩
  | integer frame =>
      obtain ⟨word, rfl, -⟩ := h
      have hlow := word.le_toInt
      have hhigh := word.toInt_lt
      exact ⟨by omega, by omega⟩
  | octet frame before after =>
      obtain ⟨-, -, -, -, -, octet, rfl, -⟩ := h
      have hhigh := octet.toNat_lt
      exact ⟨by omega, by omega⟩

theorem exists_stores {gap : PropertyGap} {content : Json.Value} {entry : Entry}
    (h : Entry.ofJson? (gap.fill content) = some entry) {n : Int} (hn : gap.Admits n) :
    ∃ stored, gap.Stores n entry stored := by
  cases gap with
  | memberIndex | listedIndex =>
      obtain ⟨hlow, hhigh⟩ := hn
      exact ⟨_, _, (uint32?_eq_some_iff n _).mp (if_pos ⟨hlow, by omega⟩), rfl⟩
  | integer frame =>
      obtain ⟨hlow, hhigh⟩ := hn
      exact ⟨_, _, (int32?_eq_some_iff n _).mp (if_pos ⟨by omega, by omega⟩), rfl⟩
  | octet frame before after =>
      obtain ⟨hlow, hhigh⟩ := hn
      obtain ⟨front, former, back, hvalue, hlength, -⟩ := ofJson?_octet h
      exact ⟨_, front, former, back, hvalue, hlength, _,
        (octet?_eq_some_iff n _).mp (if_pos ⟨hlow, by omega⟩), rfl⟩

theorem Stores.isComplete {gap : PropertyGap} {n : Int} {entry stored : Entry}
    (h : gap.Stores n entry stored) (hcomplete : entry.IsComplete) : stored.IsComplete := by
  cases gap with
  | memberIndex | listedIndex =>
      obtain ⟨index, -, rfl⟩ := h
      exact hcomplete
  | integer frame =>
      obtain ⟨word, -, rfl⟩ := h
      exact fun _ => Option.some_ne_none _
  | octet frame before after =>
      obtain ⟨-, -, -, -, -, octet, -, rfl⟩ := h
      exact fun _ => Option.some_ne_none _

end PropertyGap

section Literal

variable {number : Number} {literal : List Char} (hnumber : number.IsSpelledBy literal)

include hnumber

/-- A word that is read holds the integer of the literal. -/
theorem map_bind_integer?_eq_some_iff {α : Type} {word? : Int → Option α} {value : α → Int}
    (hword : ∀ n word, word? n = some word ↔ value word = n) (put : α → Entry) (stored : Entry) :
    ((Property.integer? (.number number)).bind word?).map put = some stored ↔
      ∃ n, IsIntegerLiteral n literal ∧ ∃ word, value word = n ∧ put word = stored := by
  simp only [Property.integer?, Option.map_eq_some_iff, Option.bind_eq_some_iff, hword,
    Number.integer?_eq_some_iff hnumber]
  constructor
  · rintro ⟨word, ⟨n, hn, hvalue⟩, hstored⟩
    exact ⟨n, hn, word, hvalue, hstored⟩
  · rintro ⟨n, hn, word, hvalue, hstored⟩
    exact ⟨word, ⟨n, hn, hvalue⟩, hstored⟩

/-- What is read when the number is filled in is the entry that stores the number. -/
theorem PropertyGap.ofJson?_fill_eq_some_iff {gap : PropertyGap} {content : Json.Value}
    {entry : Entry} (h : Entry.ofJson? (gap.fill content) = some entry) (stored : Entry) :
    Entry.ofJson? (gap.fill (.number number)) = some stored ↔
      ∃ n, IsIntegerLiteral n literal ∧ gap.Stores n entry stored := by
  cases gap with
  | memberIndex front back =>
      rw [ofJson?_memberIndex h]
      exact map_bind_integer?_eq_some_iff hnumber uint32?_eq_some_iff _ stored
  | listedIndex name status value =>
      rw [fill, Entry.ofJson?, Entry.ofFields?_refill_index h]
      exact map_bind_integer?_eq_some_iff hnumber uint32?_eq_some_iff _ stored
  | integer frame =>
      rw [ofJson?_integer h]
      exact map_bind_integer?_eq_some_iff hnumber int32?_eq_some_iff _ stored
  | octet frame before after =>
      obtain ⟨front, former, back, hvalue, hlength, hfill⟩ := ofJson?_octet h
      rw [hfill, map_bind_integer?_eq_some_iff hnumber octet?_eq_some_iff]
      refine exists_congr fun n => and_congr_right fun _ => ?_
      constructor
      · exact fun hoctet => ⟨front, former, back, hvalue, hlength, hoctet⟩
      · rintro ⟨front', former', back', hother, hfront, hoctet⟩
        rw [hvalue, Option.some.injEq, Property.Value.bytes.injEq] at hother
        obtain ⟨rfl, hrest⟩ := List.append_inj hother (hlength.trans hfront.symm)
        obtain ⟨-, rfl⟩ := List.cons.inj hrest
        exact hoctet

theorem PropertyGap.exists_ofJson?_fill_iff {gap : PropertyGap} {content : Json.Value}
    {entry : Entry} (h : Entry.ofJson? (gap.fill content) = some entry) :
    (∃ stored, Entry.ofJson? (gap.fill (.number number)) = some stored) ↔
      ∃ n, gap.Takes n literal := by
  simp only [ofJson?_fill_eq_some_iff hnumber h]
  constructor
  · rintro ⟨stored, n, hn, hstores⟩
    exact ⟨n, hn, hstores.admits⟩
  · rintro ⟨n, hn, hadmits⟩
    obtain ⟨stored, hstores⟩ := exists_stores h hadmits
    exact ⟨stored, n, hn, hstores⟩

end Literal

namespace Gap

variable {gap : Gap}

/-- The other properties are read as before, whatever is filled in. -/
theorem ofJson?_fill {content : Json.Value} {document : Document}
    (h : Document.ofJson? (gap.fill content) = some document) :
    ∃ earlier entry later, document.entries = earlier ++ entry :: later ∧
      earlier.length = gap.before.length ∧
      Entry.ofJson? (gap.property.fill content) = some entry ∧
      ∀ other, Document.ofJson? (gap.fill other) =
        (Entry.ofJson? (gap.property.fill other)).map fun stored =>
          { document with entries := earlier ++ stored :: later } := by
  have hrefill (other : Json.Value) := MessageFrame.ofJson?_refill h
    (.array (gap.before ++ gap.property.fill other :: gap.after))
  have hread := (hrefill content).symm.trans h
  obtain ⟨entries, hentries, hdocument⟩ := Option.map_eq_some_iff.mp hread
  obtain ⟨earlier, entry, later, rfl, hlength, hentry, hothers⟩ := mapM_refill hentries
  refine ⟨earlier, entry, later, (congrArg Document.entries hdocument).symm, hlength, hentry, ?_⟩
  intro other
  rw [fill, hrefill other, entries?, hothers (gap.property.fill other), Option.map_map]
  rfl

end Gap

/-- An entry can be exchanged for a complete one at an address of its own. -/
theorem Document.exists_message_of_replaced {document : Document} {earlier later : List Entry}
    {entry stored : Entry} (hentries : document.entries = earlier ++ entry :: later)
    (hloads : ∃ message, document.message = .ok message)
    (hcomplete : entry.IsComplete → stored.IsComplete)
    (hfresh : stored.address ∉ (earlier ++ later).map Entry.address) :
    ∃ message, { document with entries := earlier ++ stored :: later }.message = .ok message := by
  rw [message_isOk_iff, hentries] at hloads
  rw [message_isOk_iff]
  have hperm (entry : Entry) : (earlier ++ entry :: later).Perm (entry :: (earlier ++ later)) :=
    List.perm_middle
  simp only [((hperm _).map Entry.address).nodup_iff, (hperm _).mem_iff, List.map_cons,
    List.nodup_cons, List.forall_mem_cons] at hloads ⊢
  obtain ⟨⟨-, hnodup⟩, hentry, hothers⟩ := hloads
  exact ⟨⟨hfresh, hnodup⟩, hcomplete hentry, hothers⟩

/--
A number that is put in a place of a capture is read exactly or refused. The capture is read if and
only if the literal is that of an integer that fits in the place, and then the property stores this
integer; nothing else in the capture changes. Otherwise the text is refused as no capture.
-/
theorem numbers_of_capture_read_exactly (explain : String → String) {gap : Gap}
    {front back sample : String} {content : Json.Value} {document : Document}
    (hsurround : Json.Surround gap.fill front back)
    (hsample : content.IsWrittenAs sample)
    (hvalid : Document.parse? (front ++ sample ++ back) = some document) :
    ∃ earlier entry later, document.entries = earlier ++ entry :: later ∧
      earlier.length = gap.before.length ∧
      ∀ (number : Number) (literal : List Char), number.IsSpelledBy literal →
        ∀ text, text = front ++ String.ofList literal ++ back →
          ((∃ found, Document.parse? text = some found) ↔
            ∃ n, gap.property.Takes n literal) ∧
          (Message.parse explain text = .error (.notACapture (explain text)) ↔
            ∀ n, ¬ gap.property.Takes n literal) ∧
          ∀ n, gap.property.Takes n literal → ∃ stored, gap.property.Stores n entry stored ∧
            Document.parse? text =
              some { document with entries := earlier ++ stored :: later } ∧
            (∀ message, Message.parse explain text = .ok message →
              message.properties.slot? stored.address = some stored.slot) ∧
            ((∃ message, Message.parse explain (front ++ sample ++ back) = .ok message) →
              stored.address ∉ (earlier ++ later).map Entry.address →
                ∃ message, Message.parse explain text = .ok message) := by
  have hread := hvalid
  rw [Document.parse?_of_isWrittenAs (hsurround.isWrittenAs hsample)] at hread
  obtain ⟨earlier, entry, later, hentries, hlength, hentry, hfill⟩ := Gap.ofJson?_fill hread
  refine ⟨earlier, entry, later, hentries, hlength, ?_⟩
  rintro number literal hnumber text rfl
  have hparse := Document.parse?_of_isWrittenAs
    (hsurround.isWrittenAs (Json.Value.isWrittenAs_number hnumber))
  rw [hfill] at hparse
  have hreads : (∃ found, Document.parse? (front ++ String.ofList literal ++ back) = some found) ↔
      ∃ n, gap.property.Takes n literal := by
    rw [hparse, ← PropertyGap.exists_ofJson?_fill_iff hnumber hentry]
    simp only [Option.map_eq_some_iff]
    exact ⟨fun ⟨_, stored, hstored, _⟩ => ⟨stored, hstored⟩,
      fun ⟨stored, hstored⟩ => ⟨_, stored, hstored, rfl⟩⟩
  refine ⟨hreads, ?_, ?_⟩
  · rw [Message.parse_eq_notACapture_iff, and_iff_left rfl, ← not_exists, ← hreads, not_exists,
      Option.eq_none_iff_forall_ne_some]
  · rintro n ⟨hliteral, hadmits⟩
    obtain ⟨stored, hstores⟩ := PropertyGap.exists_stores hentry hadmits
    have hstored := (PropertyGap.ofJson?_fill_eq_some_iff hnumber hentry stored).mpr
      ⟨n, hliteral, hstores⟩
    rw [hstored, Option.map_some] at hparse
    refine ⟨stored, hstores, hparse, ?_, ?_⟩
    · intro message hmessage
      rw [Message.parse_of_document hparse, Document.message_eq_ok_iff] at hmessage
      obtain ⟨-, -, -, hslots⟩ := hmessage
      exact slot?_of_listed hslots (List.mem_append_right earlier List.mem_cons_self)
    · rw [Message.parse_of_document hvalid, Message.parse_of_document hparse]
      intro hloads hfresh
      exact Document.exists_message_of_replaced hentries hloads hstores.isComplete hfresh

def indexGap : Gap where
  message := .array .null
  before := []
  property := .listedIndex (.ofText "a") (.ofText "Failed") .null
  after := []

def octetGap : Gap where
  message := .array .null
  before := []
  property := .octet (.array (.ofText "a") (.ofInt 0) (.ofText "Ok")) [.ofInt 7] []
  after := []

theorem surround_indexGap :
    Json.Surround indexGap.fill "[null,[[\"a\", " ",\"Failed\",null]]]" := by
  have hfront : Json.tokens? "[null,[[\"a\", ".toList = some
      [.beginArray, .null, .comma, .beginArray, .beginArray, .string (pieces "a"), .comma] := by
    decide +kernel
  have hback : Json.tokens? ",\"Failed\",null]]]".toList = some
      [.comma, .string (pieces "Failed"), .comma, .null, .endArray, .endArray, .endArray] := by
    decide +kernel
  refine ⟨_, _, Json.areSpelledBy_of_tokens? hfront, Json.areSpelledBy_of_tokens? hback, ?_⟩
  intro value
  simp [Gap.fill, MessageFrame.fill, PropertyGap.fill, indexGap, Json.Value.tokens,
    Json.elementTokens, Json.Value.ofText]

theorem surround_octetGap :
    Json.Surround octetGap.fill "[null,[[\"a\",0,\"Ok\",\x7b\"bytes\":[7," "]\x7d]]]" := by
  have hfront : Json.tokens? "[null,[[\"a\",0,\"Ok\",\x7b\"bytes\":[7,".toList = some
      [.beginArray, .null, .comma, .beginArray, .beginArray, .string (pieces "a"), .comma,
        .number (.ofInt 0), .comma, .string (pieces "Ok"), .comma, .beginObject,
        .string (pieces "bytes"), .colon, .beginArray, .number (.ofInt 7), .comma] := by
    decide +kernel
  have hback : Json.tokens? "]\x7d]]]".toList = some
      [.endArray, .endObject, .endArray, .endArray, .endArray] := by
    decide +kernel
  refine ⟨_, _, Json.areSpelledBy_of_tokens? hfront, Json.areSpelledBy_of_tokens? hback, ?_⟩
  intro value
  simp [Gap.fill, MessageFrame.fill, PropertyGap.fill, PropertyFrame.fill, octetGap,
    Json.Value.tokens, Json.elementTokens, Json.memberTokens, Json.Value.ofText, Json.Value.ofInt]

theorem isWrittenAs_zero : (Json.Value.ofInt 0).IsWrittenAs "0" :=
  Json.Value.isWrittenAs_number (Json.Number.isSpelledBy_ofInt 0)

theorem numbers_of_capture_read_greatest_and_too_great :
    (∃ message,
        Message.parse explainBriefly "[null,[[\"a\", 4294967295,\"Failed\",null]]]" = .ok message ∧
        message.properties.slot? ⟨"a", 4294967295⟩ = some ⟨.failed, none⟩) ∧
      Message.parse explainBriefly "[null,[[\"a\", 4294967296,\"Failed\",null]]]" =
        .error (.notACapture (explainBriefly "")) ∧
      ∀ literal ∈ ["18446744073709551871", "2.55e2", "-0"],
        Message.parse explainBriefly
            ("[null,[[\"a\",0,\"Ok\",\x7b\"bytes\":[7," ++ literal ++ "]\x7d]]]") =
          .error (.notACapture (explainBriefly "")) := by
  have hindex : Document.parse? "[null,[[\"a\", 0,\"Failed\",null]]]" =
      some { kind := none, entries := [{ name := "a", status := .failed, value := none }] } := by
    decide +kernel
  have hoctet : Document.parse? "[null,[[\"a\",0,\"Ok\",\x7b\"bytes\":[7,0]\x7d]]]" =
      some { kind := none, entries := [{ name := "a", value := some (.bytes [7, 0]) }] } := by
    decide +kernel
  obtain ⟨earlier, entry, later, hentries, hlength, hindices⟩ :=
    numbers_of_capture_read_exactly explainBriefly surround_indexGap isWrittenAs_zero hindex
  obtain ⟨_, _, _, -, -, hoctets⟩ :=
    numbers_of_capture_read_exactly explainBriefly surround_octetGap isWrittenAs_zero hoctet
  refine ⟨?_, ?_, ?_⟩
  · obtain rfl := List.eq_nil_of_length_eq_zero hlength
    obtain ⟨rfl, rfl⟩ := List.cons.inj hentries
    have hspelled := Json.Number.isSpelledBy_ofInt 4294967295
    obtain ⟨-, -, htaken⟩ := hindices _ _ hspelled
      "[null,[[\"a\", 4294967295,\"Failed\",null]]]" (by decide +kernel)
    obtain ⟨stored, ⟨index, hn, rfl⟩, -, hslot, hloads⟩ := htaken 4294967295
      ⟨(Json.Number.integer?_eq_some_iff hspelled _).mp (Json.Number.integer?_ofInt _),
        by decide, by decide⟩
    obtain rfl : index = 4294967295 := UInt32.toNat_inj.mp (Int.ofNat.inj hn)
    obtain ⟨sampled, hsampled, -⟩ := exists_parse_of_document hindex (by decide) (by
      intro entry hentry hok
      obtain rfl := List.mem_singleton.mp hentry
      cases hok)
    obtain ⟨message, hmessage⟩ := hloads ⟨sampled, hsampled⟩ (by decide)
    exact ⟨message, hmessage, hslot message hmessage⟩
  · have hspelled := Json.Number.isSpelledBy_ofInt 4294967296
    obtain ⟨-, hrefused, -⟩ := hindices _ _ hspelled
      "[null,[[\"a\", 4294967296,\"Failed\",null]]]" (by decide +kernel)
    refine hrefused.mpr ?_
    rintro n ⟨hliteral, -, hhigh⟩
    have hn := (Json.Number.integer?_eq_some_iff hspelled n).mpr hliteral
    rw [Json.Number.integer?_ofInt] at hn
    cases hn
    exact absurd hhigh (by decide)
  · have hrefuses (number : Number) (literal : String)
        (hread : Json.number? literal.toList = some (number, []))
        (hnone : ∀ n, number.integer? = some n → ¬ octetGap.property.Admits n) :
        Message.parse explainBriefly
            ("[null,[[\"a\",0,\"Ok\",\x7b\"bytes\":[7," ++ literal ++ "]\x7d]]]") =
          .error (.notACapture (explainBriefly "")) := by
      have hspelled := Json.isSpelledBy_of_number? hread
      obtain ⟨-, hrefused, -⟩ := hoctets _ _ hspelled _ (by rw [String.ofList_toList])
      refine hrefused.mpr fun n hn => ?_
      exact hnone n ((Json.Number.integer?_eq_some_iff hspelled n).mpr hn.1) hn.2
    have hlong := hrefuses (.ofInt 18446744073709551871) "18446744073709551871" (by decide +kernel) (by
      rintro n hn ⟨-, hhigh⟩
      rw [Json.Number.integer?_ofInt] at hn
      cases hn
      exact absurd hhigh (by decide))
    have hexponent := hrefuses ⟨false, ['2'], some ['5', '5'], some (false, ['2'])⟩ "2.55e2"
      (by decide +kernel) nofun
    have hzero := hrefuses ⟨true, ['0'], none, none⟩ "-0" (by decide +kernel) nofun
    simp only [List.forall_mem_cons]
    exact ⟨hlong, hexponent, hzero, List.forall_mem_nil _⟩

end PanelRelay.Capture
