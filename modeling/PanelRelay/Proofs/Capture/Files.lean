import Mathlib.Data.List.SplitBy
import PanelRelay.Capture.Load
import PanelRelay.Proofs.Capture.Refusal

/-!
Captures that are loaded from files. A file is loaded to what its text says, and the events tell how
many properties the capture lists, or which error was met in which file.
-/

namespace PanelRelay

namespace Files

/-- Nothing, or the steps before the last one with the slash behind them. -/
def IsFolder (folder : String) : Prop :=
  ∀ last ∈ folder.toList.getLast?, last = '/'

structure IsFileName (name : String) : Prop where
  nonempty : name ≠ ""
  slash : '/' ∉ name.toList
  dot : name ≠ "."
  dots : name ≠ ".."

theorem steps_append {folder name : String} (hfolder : IsFolder folder) (hname : IsFileName name) :
    steps (folder ++ name) = steps folder ++ [name.toList] := by
  have hplain : ∀ c ∈ name.toList, c ≠ '/' := fun c hc heq => hname.slash (heq ▸ hc)
  have hnonempty : name.toList ≠ [] := by simpa using hname.nonempty
  have hkept : name.toList ≠ ['/'] := by
    intro heq
    apply hname.slash
    rw [heq]
    exact List.mem_singleton_self _
  have hchain : List.IsChain (fun a b => (a ≠ '/' && b ≠ '/') = true) name.toList := by
    apply List.Pairwise.isChain
    apply List.pairwise_of_forall_mem_list
    intro a ha b hb
    simp [hplain a ha, hplain b hb]
  rw [steps, steps, String.toList_append, List.splitBy_append ?_,
    List.splitBy_of_isChain hnonempty hchain, List.filter_append]
  · simp [hkept]
  · intro last hlast first _
    rw [hfolder last hlast]
    rfl

/-- The name of a file is the last step of the path to it. -/
theorem baseName?_append {folder name : String} (hfolder : IsFolder folder)
    (hname : IsFileName name) : baseName? (folder ++ name) = some name := by
  have hdot : name.toList ≠ ['.'] := fun h => hname.dot (String.toList_inj.mp h)
  have hdots : name.toList ≠ ['.', '.'] := fun h => hname.dots (String.toList_inj.mp h)
  rw [baseName?, steps_append hfolder hname, List.filter_append,
    List.filter_cons_of_pos (by simpa using hdot), List.filter_nil, List.getLast?_concat]
  simp [hdots]

end Files

namespace Capture

open Files (IsFileName IsFolder)
open Journal (Event)

variable {explain : String → String}

/-- How many elements the list of properties of a capture has; none if there is no such list. -/
inductive HasSize : Json.Value → Nat → Prop
  | listed {value : Json.Value} {elements : List Json.Value} (hlists : Lists value elements) :
      HasSize value elements.length
  | unlisted {members : List (List Json.Piece × Json.Value)}
      (hmissing : member? "properties" members = some none) : HasSize (.object members) 0
  | kindOnly {kind : Json.Value} : HasSize (.array [kind]) 0

theorem length_of_mapM {elements : List Json.Value} {entries : List Entry}
    (h : elements.mapM Entry.ofJson? = some entries) : entries.length = elements.length := by
  induction elements generalizing entries with
  | nil =>
      obtain rfl := Option.some.inj h
      rfl
  | cons element elements ih =>
      rw [List.mapM_cons] at h
      obtain ⟨entry, -, h⟩ := Option.bind_eq_some_iff.mp h
      obtain ⟨rest, hrest, h⟩ := Option.bind_eq_some_iff.mp h
      obtain rfl := Option.some.inj h
      rw [List.length_cons, List.length_cons, ih hrest]

/-- The fields of a document, with the entries that its list of properties is read as. -/
theorem Document.ofFields?_eq_some {kind : Json.Value} {properties : Option Json.Value}
    {document : Document} (h : Document.ofFields? kind properties = some document) :
    (properties = none ∧ document.entries = []) ∨
      ∃ elements, properties = some (.array elements) ∧
        document.entries.length = elements.length := by
  obtain ⟨label, -, h⟩ := Option.bind_eq_some_iff.mp h
  obtain ⟨entries, hentries, h⟩ := Option.bind_eq_some_iff.mp h
  obtain rfl := Option.some.inj h
  cases properties with
  | none => exact .inl ⟨rfl, (Option.some.inj hentries).symm⟩
  | some list =>
      cases list with
      | array elements => exact .inr ⟨elements, rfl, length_of_mapM hentries⟩
      | _ => cases hentries

theorem hasSize_of_ofJson? {value : Json.Value} {document : Document}
    (h : Document.ofJson? value = some document) : HasSize value document.entries.length := by
  unfold Document.ofJson? at h
  split at h
  next members =>
    obtain ⟨-, h⟩ := Option.ite_none_right_eq_some.mp h
    obtain ⟨kind, -, h⟩ := Option.bind_eq_some_iff.mp h
    obtain ⟨properties, hproperties, h⟩ := Option.bind_eq_some_iff.mp h
    obtain ⟨rfl, hentries⟩ | ⟨elements, rfl, hlength⟩ := Document.ofFields?_eq_some h
    · rw [hentries]
      exact .unlisted hproperties
    · rw [hlength]
      exact .listed (.object hproperties)
  next kind =>
    obtain ⟨-, hentries⟩ | ⟨elements, hlist, -⟩ := Document.ofFields?_eq_some h
    · rw [hentries]
      exact .kindOnly
    · cases hlist
  next kind properties =>
    obtain ⟨hlist, -⟩ | ⟨elements, hlist, hlength⟩ := Document.ofFields?_eq_some h
    · cases hlist
    · obtain rfl := Option.some.inj hlist
      rw [hlength]
      exact .listed .array
  next => cases h

theorem Lists.unique {value : Json.Value} {elements others : List Json.Value}
    (h : Lists value elements) (hothers : Lists value others) : elements = others := by
  cases h with
  | object hmember =>
      cases hothers with
      | object hother =>
          rw [hmember] at hother
          cases hother
          rfl
  | array =>
      cases hothers
      rfl

theorem HasSize.unique {value : Json.Value} {size other : Nat} (h : HasSize value size)
    (hother : HasSize value other) : size = other := by
  cases h with
  | listed hlists =>
      cases hother with
      | listed hothers => rw [hlists.unique hothers]
      | unlisted hmissing =>
          cases hlists with
          | object hmember => cases hmember.symm.trans hmissing
      | kindOnly => cases hlists
  | unlisted hmissing =>
      cases hother with
      | listed hlists =>
          cases hlists with
          | object hmember => cases hmember.symm.trans hmissing
      | unlisted => rfl
  | kindOnly =>
      cases hother with
      | listed hlists => cases hlists
      | kindOnly => rfl

/-- The message of a capture holds as many properties as the capture lists. -/
theorem exists_hasSize_of_parse {text : String} {message : Message}
    (h : Message.parse explain text = .ok message) :
    ∃ value, Json.Value.parse? text = some value ∧ HasSize value message.properties.size := by
  unfold Message.parse at h
  split at h
  next => cases h
  next document hdocument =>
    obtain ⟨value, hvalue, hread⟩ := Option.bind_eq_some_iff.mp hdocument
    obtain ⟨-, -, -, hslots⟩ := (document.message_eq_ok_iff message).mp h
    refine ⟨value, hvalue, ?_⟩
    rw [size_of_listed hslots]
    exact hasSize_of_ofJson? hread

/-- The words in which an error is told; a text that is no capture is refused in its reader's. -/
inductive IsWordedAs : Error → String → Prop
  | notACapture (explanation : String) : IsWordedAs (.notACapture explanation) explanation
  | missingValue (name : String) (index : UInt32) :
      IsWordedAs (.missingValue ⟨name, index⟩)
        s!"property '{name}' at index {index} is Ok but has no value"
  | duplicateProperty (name : String) (index : UInt32) :
      IsWordedAs (.duplicateProperty ⟨name, index⟩)
        s!"property '{name}' at index {index} is defined more than once"

theorem isWordedAs_message (error : Error) : IsWordedAs error error.message := by
  cases error with
  | notACapture explanation => exact .notACapture explanation
  | missingValue address => exact .missingValue address.name address.index
  | duplicateProperty address => exact .duplicateProperty address.name address.index

/-- An event of the loader, with nothing but a message. -/
structure Says (level : Journal.Level) (message : String) (event : Event) : Prop where
  origin : event.origin = .loader
  level : event.level = level
  message : event.message = message
  fields : event.fields = []

/-- The events of a load for which nothing could be read. -/
def TellsNothing (events : List Event) : Prop :=
  ∃ event, Says .info "📁 Loading captured response..." event ∧ events = [event]

/-- The events of a load that ends with a message. -/
structure TellsSize (size : Nat) (events : List Event) : Prop where
  last : ∃ event, events.getLast? = some event ∧
    Says .info s!"📁 Loading captured response... OK, {size} properties" event
  quiet : ∀ event ∈ events, event.level ≠ .warn

/-- The events of a load that is refused for what the file says. -/
structure TellsError (path : String) (error : Error) (events : List Event) : Prop where
  warning : ∃ name words event, IsWordedAs error words ∧
    (∀ folder base, path = folder ++ base → IsFolder folder → IsFileName base → name = base) ∧
      Says .warn s!"⚠️ Failed to load '{name}': {words}" event ∧
        (events.filter fun event => event.level = .warn) = [event]
  silent : ∀ event ∈ events,
    ¬ "📁 Loading captured response... OK".toList <+: event.message.toList

theorem tellsNothing_loading : TellsNothing [loading] :=
  ⟨loading, ⟨rfl, rfl, rfl, rfl⟩, rfl⟩

theorem tellsSize_loaded (size : Nat) : TellsSize size [loading, loaded size] where
  last := ⟨loaded size, rfl, rfl, rfl, rfl, rfl⟩
  quiet := by simp [loading, loaded, loadEvent]

theorem not_prefix_loading :
    ¬ "📁 Loading captured response... OK".toList <+: loading.message.toList := by
  decide

theorem not_prefix_failedToLoad (path : String) (error : Error) :
    ¬ "📁 Loading captured response... OK".toList <+: (failedToLoad path error).message.toList := by
  rintro ⟨rest, hrest⟩
  have hhead := congrArg List.head? hrest
  simp only [failedToLoad, loadEvent, String.toList_append, List.append_assoc] at hhead
  rw [List.head?_append_of_ne_nil _ (by decide), List.head?_append_of_ne_nil _ (by decide)] at hhead
  revert hhead
  decide

theorem tellsError_failedToLoad (path : String) (error : Error) :
    TellsError path error [loading, failedToLoad path error] where
  warning := by
    refine ⟨(Files.baseName? path).getD "unknown", error.message, failedToLoad path error,
      isWordedAs_message error, ?_, ⟨rfl, rfl, rfl, rfl⟩, rfl⟩
    rintro folder base rfl hfolder hbase
    rw [Files.baseName?_append hfolder hbase]
    rfl
  silent := by
    simp only [List.forall_mem_cons]
    exact ⟨not_prefix_loading, not_prefix_failedToLoad path error, List.forall_mem_nil _⟩

theorem load_of_unreadable (explain : String → String) {path : String}
    {content : Except Files.Failure Files.Content} {failure : Files.Failure}
    (h : textOf content = .error failure) :
    load explain path content = ⟨.error (.file failure), [loading]⟩ := by
  rw [load, h]

theorem textOf_encode (text : String) : textOf (.ok (Utf8.encode text)) = .ok text := by
  rw [textOf, Utf8.decode?_encode]

theorem textOf_of_not_text {octets : List UInt8} (h : ∀ text, octets ≠ Utf8.encode text) :
    textOf (.ok octets) = .error .invalidData := by
  have hnone : Utf8.decode? octets = none := by
    rw [Option.eq_none_iff_forall_ne_some]
    intro text htext
    exact h text ((Utf8.decode?_eq_some_iff octets text).mp htext)
  rw [textOf, hnone]

theorem load_of_parse_ok {text : String} {message : Message} (path : String)
    (h : Message.parse explain text = .ok message) :
    load explain path (.ok (Utf8.encode text)) =
      ⟨.ok message, [loading, loaded message.properties.size]⟩ := by
  rw [load, textOf_encode]
  simp only [h]

theorem load_of_parse_error {text : String} {error : Error} (path : String)
    (h : Message.parse explain text = .error error) :
    load explain path (.ok (Utf8.encode text)) =
      ⟨.error (.capture error), [loading, failedToLoad path error]⟩ := by
  rw [load, textOf_encode]
  simp only [h]

/--
A file that cannot be read, or that is no text, is refused without a further event. Any other is
loaded to what its text gives: a message, with the number of properties that the capture lists as the
last event, or the very error, with one warning that has the name of the file and the error's words.
-/
theorem load_agrees_with_parse (explain : String → String) (path : String) :
    (∀ failure, (load explain path (.error failure)).result = .error (.file failure) ∧
        TellsNothing (load explain path (.error failure)).events) ∧
      (∀ octets, (∀ text, octets ≠ Utf8.encode text) →
        (load explain path (.ok octets)).result = .error (.file .invalidData) ∧
          TellsNothing (load explain path (.ok octets)).events) ∧
      (∀ text message, Message.parse explain text = .ok message →
        (load explain path (.ok (Utf8.encode text))).result = .ok message ∧
          ∃ value size, Json.Value.parse? text = some value ∧
            (∀ other, HasSize value other ↔ other = size) ∧
              TellsSize size (load explain path (.ok (Utf8.encode text))).events) ∧
      ∀ text error, Message.parse explain text = .error error →
        (load explain path (.ok (Utf8.encode text))).result = .error (.capture error) ∧
          TellsError path error (load explain path (.ok (Utf8.encode text))).events := by
  refine ⟨?_, ?_, ?_, ?_⟩
  · intro failure
    rw [load_of_unreadable explain rfl]
    exact ⟨rfl, tellsNothing_loading⟩
  · intro octets hoctets
    rw [load_of_unreadable explain (textOf_of_not_text hoctets)]
    exact ⟨rfl, tellsNothing_loading⟩
  · intro text message hmessage
    obtain ⟨value, hvalue, hsize⟩ := exists_hasSize_of_parse hmessage
    rw [load_of_parse_ok path hmessage]
    refine ⟨rfl, value, _, hvalue, fun other => ⟨fun hother => hother.unique hsize, ?_⟩,
      tellsSize_loaded _⟩
    rintro rfl
    exact hsize
  · intro text error herror
    rw [load_of_parse_error path herror]
    exact ⟨rfl, tellsError_failedToLoad path error⟩

/-- No text, a list of three properties, one that repeats an address, and one that is cut off. -/
theorem load_agrees_with_parse_of_mixed_and_repeating :
    (load explainBriefly "c.json" (.ok [0x7b, 0xff])).result = .error (.file .invalidData) ∧
      (∃ message,
        (load explainBriefly "c.json" (.ok (Utf8.encode mixedCapture))).result = .ok message ∧
          TellsSize 3 (load explainBriefly "c.json" (.ok (Utf8.encode mixedCapture))).events) ∧
      (load explainBriefly "site/c.json" (.ok (Utf8.encode shorterCapture))).result =
        .error (.capture (.duplicateProperty ⟨"a", 2⟩)) ∧
      (∃ event,
        Says .warn "⚠️ Failed to load 'c.json': property 'a' at index 2 is defined more than once"
            event ∧
          event ∈ (load explainBriefly "site/c.json" (.ok (Utf8.encode shorterCapture))).events) ∧
      (load explainBriefly "c.json" (.ok (Utf8.encode "["))).result =
        .error (.capture (.notACapture (explainBriefly "["))) ∧
      ∃ event, Says .warn "⚠️ Failed to load 'c.json': the text is not a captured message" event ∧
        event ∈ (load explainBriefly "c.json" (.ok (Utf8.encode "["))).events := by
  obtain ⟨-, hunread, hloaded, hcut⟩ := load_agrees_with_parse explainBriefly "c.json"
  obtain ⟨-, -, -, hrefused⟩ := load_agrees_with_parse explainBriefly "site/c.json"
  have hoctets : ∀ text, [0x7b, 0xff] ≠ Utf8.encode text := by
    have hnone : Utf8.decode? [0x7b, 0xff] = none := by decide +kernel
    intro text h
    rw [← Utf8.decode?_eq_some_iff, hnone] at h
    cases h
  have hmixed : Document.parse? mixedCapture = some mixedDocument := by decide +kernel
  obtain ⟨value, hvalue, hread⟩ := Option.bind_eq_some_iff.mp hmixed
  obtain ⟨message, hmessage, -, -⟩ := exists_parse_of_document hmixed (by decide)
    (by simp [mixedDocument, Entry.IsComplete])
  obtain ⟨hresult, found, size, hfound, hsize, htells⟩ := hloaded _ _ hmessage
  obtain rfl := Option.some.inj (hvalue.symm.trans hfound)
  have hthree : 3 = size := (hsize 3).mp (hasSize_of_ofJson? hread)
  have hshorter : Document.parse? shorterCapture =
      some { kind := none, entries := [failedEntry, bareEntry "a" 2] } := by decide +kernel
  have herror : Message.parse explainBriefly shorterCapture =
      .error (.duplicateProperty ⟨"a", 2⟩) := by
    rw [Message.parse_of_document hshorter]
    rfl
  have hcutError : Message.parse explainBriefly "[" = .error (.notACapture (explainBriefly "[")) :=
    (Message.parse_eq_notACapture_iff _ _).mpr ⟨by decide +kernel, rfl⟩
  have hfolder : IsFolder "site/" := fun last hlast => (Option.some.inj hlast).symm
  have hnoFolder : IsFolder "" := by
    intro last hlast
    cases hlast
  have hname : IsFileName "c.json" := ⟨by decide, by decide, by decide, by decide⟩
  obtain ⟨hrepeats, ⟨name, words, event, hwords, hbase, hsays, hevents⟩, -⟩ := hrefused _ _ herror
  obtain ⟨hends, ⟨name', words', event', hwords', hbase', hsays', hevents'⟩, -⟩ := hcut _ _ hcutError
  obtain rfl := hbase "site/" "c.json" rfl hfolder hname
  obtain rfl := hbase' "" "c.json" rfl hnoFolder hname
  cases hwords
  cases hwords'
  refine ⟨(hunread _ hoctets).1, ⟨message, hresult, hthree ▸ htells⟩, hrepeats,
    ⟨event, hsays, ?_⟩, hends, event', hsays', ?_⟩
  · exact List.mem_of_mem_filter (hevents ▸ List.mem_singleton_self event)
  · exact List.mem_of_mem_filter (hevents' ▸ List.mem_singleton_self event')

end Capture

end PanelRelay
