import PanelRelay.Envelope.Reply
import PanelRelay.Proofs.Envelope.Shape
import PanelRelay.Proofs.Text.Replacement

/-!
Requests that are sent back with operation and part renamed. The marks that are replaced stand in
the tags around the message only, whatever the texts of the message look like.
-/

namespace PanelRelay.Xml

/-- A mark that stands neither in tags nor in what is printed between them. -/
structure Spares (mark : List Char) (tags : Tag → Prop) : Prop where
  text : IsTagMark mark
  newLine : ∀ depth, Passes mark (newLine depth)
  printOpen : ∀ tag, tags tag → Passes mark tag.printOpen
  printEmpty : ∀ tag, tags tag → Passes mark tag.printEmpty
  printClose : ∀ tag, tags tag → Passes mark tag.printClose

variable {mark : List Char} {tags : Tag → Prop}

theorem passes_newLine (hmark : mark.head?.any (fun c => !isBlank c) = true) (depth : Nat) :
    Passes mark (newLine depth) := by
  cases mark with
  | nil => cases hmark
  | cons c mark =>
      apply passes_of_isClear (isClear_of_head rfl ?_)
      intro hmem
      have hblank := List.all_eq_true.mp (isBlank_newLine depth) c hmem
      simp [hblank] at hmark

theorem Spares.printLines (hspares : Spares mark tags) {nodes : List Node} {depth : Nat}
    (hnodes : ∀ node ∈ nodes, Passes mark (node.print depth)) :
    Passes mark (printLines depth nodes) := by
  induction nodes with
  | nil => exact passes_nil
  | cons node nodes ih =>
      exact ((hspares.newLine depth).append (hnodes node (by simp))).append
        (ih fun later hlater => hnodes later (by simp [hlater]))

theorem Spares.print (hspares : Spares mark tags) {node : Node} (hnode : node.Regular tags)
    (depth : Nat) : Passes mark (node.print depth) := by
  induction hnode generalizing depth with
  | @branch tag children htag hchildren ih =>
      cases children with
      | nil => exact hspares.printEmpty tag htag
      | cons child children =>
          rw [Node.Regular.print_branch hchildren]
          have hlines := hspares.printLines fun child hchild => ih child hchild (depth + 1)
          exact (((hspares.printOpen tag htag).append hlines).append (hspares.newLine depth)).append
            (hspares.printClose tag htag)
  | @leaf tag content htag hcontent =>
      rw [Node.print_leaf, List.append_assoc]
      exact (hspares.printOpen tag htag).append
        (hspares.text.passes_text (ne_of_mem_escaped _) (hspares.printClose tag htag))

end PanelRelay.Xml

namespace PanelRelay.Envelope

open Event (Message)
open Xml (Node Spares Tag newLine printLines)

/-- The start of the operation, its end, and the end of a tag of its part. -/
def renamedMarks : List (List Char) :=
  ["<logMessage xmlns".toList, "</logMessage>".toList, "message>".toList]

theorem spares_partTags : ∀ mark ∈ renamedMarks, Spares mark (· ∈ partTags) := by
  have htext : ∀ mark ∈ renamedMarks, IsTagMark mark := by decide
  have hhead : ∀ mark ∈ renamedMarks, mark.head?.any (fun c => !isBlank c) = true := by decide
  have htags : ∀ mark ∈ renamedMarks, ∀ tag ∈ partTags,
      isClear mark tag.printOpen = true ∧ isClear mark tag.printEmpty = true ∧
        isClear mark tag.printClose = true := by
    decide +kernel
  intro mark hmark
  exact {
    text := htext mark hmark
    newLine := Xml.passes_newLine (hhead mark hmark)
    printOpen := fun tag htag => passes_of_isClear (htags mark hmark tag htag).1
    printEmpty := fun tag htag => passes_of_isClear (htags mark hmark tag htag).2.1
    printClose := fun tag htag => passes_of_isClear (htags mark hmark tag htag).2.2 }

def opening (order : DeclarationOrder) : List Char :=
  "<?xml version=\"1.0\" encoding=\"UTF-8\"?>\n".toList ++ (envelopeTag order).printOpen ++
    newLine 1 ++ bodyTag.printOpen ++ newLine 2

def closing : List Char :=
  newLine 1 ++ bodyTag.printClose ++ newLine 0 ++ "</soap:Envelope>".toList

theorem printClose_envelopeTag (order : DeclarationOrder) :
    (envelopeTag order).printClose = "</soap:Envelope>".toList := by
  have hname : Tag.printClose { name := .qualified "soap" "Envelope" } =
      "</soap:Envelope>".toList := by
    decide
  exact hname

/-- What ends in a line of the opening is free of a mark if it is so in each order there is. -/
theorem isClear_opening (order : DeclarationOrder) {mark rest : List Char}
    (h : ∀ attributes ∈ declarations.permutations',
      isClear mark ("<?xml version=\"1.0\" encoding=\"UTF-8\"?>\n".toList ++
        Tag.printOpen { name := .qualified "soap" "Envelope", attributes } ++
          newLine 1 ++ bodyTag.printOpen ++ newLine 2 ++ rest) = true) :
    isClear mark (opening order ++ rest) = true :=
  h _ order.mem_permutations

def lines (message : Message) : List Char :=
  printLines 4 (messageParts message)

theorem print_around (tag inner : Tag) (children : List Node) (depth : Nat) :
    (Node.element tag [.element inner children]).print depth =
      tag.printOpen ++ (newLine (depth + 1) ++ ((Node.element inner children).print (depth + 1) ++
        (newLine depth ++ tag.printClose))) := by
  rw [Node.print_elements rfl, Xml.printLines_cons, Xml.printLines_nil]
  simp only [List.append_assoc, List.nil_append]

theorem print_part (part : Tag) (message : Message) (depth : Nat) :
    (Node.element part (messageParts message)).print depth =
      part.printOpen ++ (printLines (depth + 1) (messageParts message) ++
        (newLine depth ++ part.printClose)) := by
  have helements : (messageParts message).all Node.isElement = true := by
    obtain ⟨name, details⟩ := message
    cases name <;> cases details <;> rfl
  rw [messageParts] at helements ⊢
  rw [Node.print_elements helements]
  simp only [List.append_assoc]

theorem document_envelopeAround (order : DeclarationOrder) (operation part : Tag)
    (message : Message) :
    (envelopeAround order operation part message).document.toList =
      opening order ++ (operation.printOpen ++ (newLine 3 ++ (part.printOpen ++ (lines message ++
        (newLine 3 ++ (part.printClose ++ (newLine 2 ++ (operation.printClose ++ closing)))))))) := by
  unfold Node.document
  rw [String.toList_ofList, envelopeAround, envelopeNode, print_around, print_around, print_around,
    print_part, printClose_envelopeTag]
  unfold opening closing lines
  simp only [List.append_assoc]

def partTag : Tag := plainTag partName
def resultTag : Tag := plainTag resultName

def responseTag : Tag where
  name := .plain responseName
  attributes := operationTag.attributes

theorem rename_start (order : DeclarationOrder) {inner : List Char}
    (hinner : Passes "<logMessage xmlns".toList inner) :
    replaceAll "<logMessage xmlns".toList "<logMessageResponse xmlns".toList
        (opening order ++ (operationTag.printOpen ++ inner)) =
      opening order ++ (responseTag.printOpen ++ inner) := by
  have hopening : isClear "<logMessage xmlns".toList (opening order ++ []) = true :=
    isClear_opening order (by decide +kernel)
  rw [List.append_nil] at hopening
  have hvalue : isClear "<logMessage xmlns".toList "=\"ATSAdvanced.DTO\">".toList = true := by
    decide +kernel
  have hbefore : operationTag.printOpen =
      "<logMessage xmlns".toList ++ "=\"ATSAdvanced.DTO\">".toList := by decide
  have hafter : responseTag.printOpen =
      "<logMessageResponse xmlns".toList ++ "=\"ATSAdvanced.DTO\">".toList := by decide
  rw [hbefore, hafter, passes_of_isClear hopening, List.append_assoc, List.append_assoc,
    replaceAll_mark (by decide), passes_of_isClear hvalue, hinner.replaceAll_eq]

theorem rename_end {inner : List Char} (hinner : Passes "</logMessage>".toList inner) :
    replaceAll "</logMessage>".toList "</logMessageResponse>".toList
        (inner ++ (operationTag.printClose ++ closing)) =
      inner ++ (responseTag.printClose ++ closing) := by
  have hclosing : isClear "</logMessage>".toList closing = true := by decide +kernel
  have hbefore : operationTag.printClose = "</logMessage>".toList := by decide
  have hafter : responseTag.printClose = "</logMessageResponse>".toList := by decide
  rw [hbefore, hafter, hinner, replaceAll_mark (by decide),
    (passes_of_isClear hclosing).replaceAll_eq]

theorem rename_part {before inner after : List Char} (hbefore : Passes "message>".toList before)
    (hinner : Passes "message>".toList inner) (hafter : Passes "message>".toList after) :
    replaceAll "message>".toList "reponse>".toList
        (before ++ (partTag.printOpen ++ (inner ++ (partTag.printClose ++ after)))) =
      before ++ (resultTag.printOpen ++ (inner ++ (resultTag.printClose ++ after))) := by
  have hopen : isClear "message>".toList ['<'] = true := by decide
  have hclose : isClear "message>".toList ['<', '/'] = true := by decide
  have hpartOpen : partTag.printOpen = ['<'] ++ "message>".toList := by decide
  have hresultOpen : resultTag.printOpen = ['<'] ++ "reponse>".toList := by decide
  have hpartClose : partTag.printClose = ['<', '/'] ++ "message>".toList := by decide
  have hresultClose : resultTag.printClose = ['<', '/'] ++ "reponse>".toList := by decide
  rw [hpartOpen, hresultOpen, hpartClose, hresultClose, hbefore, List.append_assoc,
    List.append_assoc, List.append_assoc, List.append_assoc, passes_of_isClear hopen,
    replaceAll_mark (by decide), hinner, passes_of_isClear hclose, replaceAll_mark (by decide),
    hafter.replaceAll_eq]

/-- A request that is sent back holds the message as a response would. -/
theorem echo_requestTree (order : DeclarationOrder) {message : Message}
    (htexts : ∀ item ∈ messageTexts message, isCarried item.2 = true) :
    echo (requestTree order message).document =
      (envelopeAround order responseTag resultTag message).document := by
  have hlines : ∀ mark ∈ renamedMarks, Passes mark (lines message) := fun mark hmark =>
    (spares_partTags mark hmark).printLines fun node hnode =>
      (spares_partTags mark hmark).print (regular_messageParts htexts node hnode) 4
  have hnewLine : ∀ mark ∈ renamedMarks, ∀ depth, Passes mark (newLine depth) :=
    fun mark hmark => (spares_partTags mark hmark).newLine
  -- Each replacement meets what the one before it has left behind.
  have hstart : Passes "<logMessage xmlns".toList (newLine 3 ++ (partTag.printOpen ++
      (lines message ++ (newLine 3 ++ (partTag.printClose ++ (newLine 2 ++
        (operationTag.printClose ++ closing))))))) := by
    have hopen : isClear "<logMessage xmlns".toList partTag.printOpen = true := by decide
    have hclose : isClear "<logMessage xmlns".toList (newLine 3 ++ (partTag.printClose ++
        (newLine 2 ++ (operationTag.printClose ++ closing)))) = true := by decide +kernel
    exact (hnewLine _ (by decide) 3).append ((passes_of_isClear hopen).append
      ((hlines _ (by decide)).append (passes_of_isClear hclose)))
  have hend : Passes "</logMessage>".toList (opening order ++ (responseTag.printOpen ++
      (newLine 3 ++ (partTag.printOpen ++ (lines message ++ (newLine 3 ++ (partTag.printClose ++
        newLine 2))))))) := by
    have hopen : isClear "</logMessage>".toList
        (opening order ++ (responseTag.printOpen ++ (newLine 3 ++ partTag.printOpen))) = true :=
      isClear_opening order (by decide +kernel)
    have hclose : isClear "</logMessage>".toList (newLine 3 ++ (partTag.printClose ++
        newLine 2)) = true := by decide
    have hwhole := (passes_of_isClear hopen).append
      ((hlines _ (by decide)).append (passes_of_isClear hclose))
    simpa only [List.append_assoc] using hwhole
  have hbefore : isClear "message>".toList
      (opening order ++ (responseTag.printOpen ++ newLine 3)) = true :=
    isClear_opening order (by decide +kernel)
  have hafter : isClear "message>".toList
      (newLine 2 ++ (responseTag.printClose ++ closing)) = true := by decide +kernel
  have hfirst := rename_start order hstart
  have hsecond := rename_end hend
  have hthird := rename_part (passes_of_isClear hbefore)
    ((hlines _ (by decide)).append (hnewLine _ (by decide) 3)) (passes_of_isClear hafter)
  simp only [List.append_assoc] at hsecond hthird
  have hrequest : requestTree order message = envelopeAround order operationTag partTag message :=
    rfl
  unfold echo
  rw [← String.toList_inj, String.toList_ofList, hrequest, document_envelopeAround,
    document_envelopeAround, hfirst, hsecond, hthird]

end PanelRelay.Envelope
