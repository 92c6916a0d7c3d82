import CodeToolKit.TrimTSFile.RecallAll

/-!
# What a recall leaves alone

A recall is meant for the messages with the context and the source of an obsolete message.
`blank` makes the texts of the translations of these messages empty; two documents with
the same blanked form differ in nothing else.

The walk of a recall looks at less.  It leaves a context only at a differing name that
stands before the message, so a context without a name takes every recall
(`not_framed`), and it sets whatever node is the first child of a translation.
`framed_iff` says exactly when a pass over recalled items stays inside its frame.
-/

namespace CodeToolKit.TrimTSFile

open CodeToolKit.Lib Node

/-! ## Documents without the texts a recall is meant to change -/

namespace Node

/-- A node without its text. -/
def blankText : Node → Node
  | text _ => text ""
  | cdataSection _ => cdataSection ""
  | n => n

/-- A child of a message, without the text if it is a translation. -/
def blankTranslation (n : Node) : Node :=
  if n.isNamed "translation" then n.mapChildren (List.map blankText) else n

/-- A child of a context, without the texts of its translations if it is a message that is
meant. -/
def blankMessage (meant : String → String → Bool) (context : String) (n : Node) : Node :=
  if n.isCI "message" && meant context (textOf "source" n.children) then
    n.mapChildren (List.map blankTranslation)
  else n

/-- A child of the root element. -/
def blankContext (meant : String → String → Bool) (n : Node) : Node :=
  if n.isCI "context" then
    n.mapChildren (List.map (blankMessage meant (textOf "name" n.children)))
  else n

end Node

/-- A document without the texts of the translations of the messages that are meant. -/
def blank (meant : String → String → Bool) (doc : Document) : Document :=
  { doc with children := doc.children.map (blankContext meant) }

/-! ## Changes of slots that a blanked document does not show -/

section

variable {f : Slot → String → String}

theorem blankText_headSlot {label : Bool → Slot} (hlabel : ∀ isText, (label isText).isText = isText)
    (nodes : List Node) :
    ((headSlot label).map f nodes).map blankText = nodes.map blankText ↔
      ∀ p ∈ (headSlot label).get nodes, p.1.isText = true ∨ f p.1 p.2 = p.2 := by
  apply Slots.scanMap_view
  intro first n
  cases first with
  | false => exact ⟨fun _ ↦ nofun, fun _ ↦ rfl⟩
  | true =>
      show blankText (n.mapValue fun isText ↦ f (label isText)) = blankText n ↔
        ∀ p ∈ n.value.map fun p ↦ (label p.1, p.2), _
      rw [List.forall_mem_map]
      cases n with
      | element | entityReference | documentType => exact ⟨fun _ ↦ nofun, fun _ ↦ rfl⟩
      | text data | cdataSection data =>
          refine ⟨fun _ p hp ↦ .inl ?_, fun _ ↦ rfl⟩
          rw [hlabel, List.mem_singleton.mp hp]
      | comment data =>
          show Node.comment _ = Node.comment _ ↔ ∀ p ∈ [(false, data)], _
          rw [Node.comment.injEq, List.forall_mem_singleton, hlabel]
          simp
      | processingInstruction target data =>
          show Node.processingInstruction _ _ = Node.processingInstruction _ _ ↔
            ∀ p ∈ [(false, data)], _
          rw [Node.processingInstruction.injEq, List.forall_mem_singleton, hlabel]
          simp

theorem blankTranslation_messageSlots {label : List String × List String → Bool → Slot}
    (hlabel : ∀ c isText, (label c isText).isText = isText) (c : List String × List String)
    (nodes : List Node) :
    ((messageSlots label c).map f nodes).map blankTranslation = nodes.map blankTranslation ↔
      ∀ p ∈ (messageSlots label c).get nodes, p.1.isText = true ∨ f p.1 p.2 = p.2 := by
  apply Slots.scanMap_view
  intro c n
  cases n with
  | element tagName attributes children =>
      show blankTranslation (element tagName attributes
          (if decide (tagName = "translation") then _ else _)) = _ ↔
        ∀ p ∈ (if decide (tagName = "translation") then _ else _), _
      unfold blankTranslation
      show (if decide (tagName = "translation") then _ else _) =
        (if decide (tagName = "translation") then _ else _) ↔ _
      cases htag : decide (tagName = "translation") with
      | false => exact ⟨fun _ ↦ nofun, fun _ ↦ rfl⟩
      | true =>
          have hhead := @blankText_headSlot f _ (hlabel c) children
          show element tagName attributes _ = element tagName attributes _ ↔ _
          rw [Node.element.injEq, eq_self_iff_true, eq_self_iff_true, true_and, true_and]
          exact hhead
  | _ => exact ⟨fun _ ↦ nofun, fun _ ↦ rfl⟩

/-- A change of a slot that does not show. -/
def Hidden (meant : String → String → Bool) (f : Slot → String → String) (p : Slot × String) :
    Prop :=
  (p.1.isText = true ∧ meant p.1.context p.1.source = true) ∨ f p.1 p.2 = p.2

variable {meant : String → String → Bool}

theorem blankMessage_messageSlot (context : String) (names : List String) (n : Node) :
    blankMessage meant context ((messageSlot context names).map f n) =
        blankMessage meant context n ↔
      ∀ p ∈ (messageSlot context names).get n, Hidden meant f p := by
  cases n with
  | element tagName attributes children =>
      set source := textOf "source" children with hsource
      have hget : (messageSlot context names).get (element tagName attributes children) =
          if compareCI tagName "message" then
            (messageSlots (slotLabel context names source) ([], [])).get children else [] := rfl
      have hmap : (messageSlot context names).map f (element tagName attributes children) =
          element tagName attributes (if compareCI tagName "message" then
            (messageSlots (slotLabel context names source) ([], [])).map f children
            else children) := rfl
      rw [hget, hmap]
      cases hmsg : compareCI tagName "message" with
      | false => exact ⟨fun _ ↦ nofun, fun _ ↦ rfl⟩
      | true =>
          have hblank : ∀ l : List Node, textOf "source" l = source →
              blankMessage meant context (element tagName attributes l) =
                element tagName attributes
                  (if meant context source then l.map blankTranslation else l) := by
            intro l hl
            have hkind : (element tagName attributes l).isCI "message" = true := hmsg
            unfold blankMessage
            rw [hkind, Bool.true_and]
            show (if meant context (textOf "source" l) then _ else _) = _
            rw [hl]
            split <;> rfl
          have hlabel : ∀ p ∈ (messageSlots (slotLabel context names source) ([], [])).get children,
              p.1.context = context ∧ p.1.source = source := by
            intro p hp
            obtain ⟨c, isText, -, hl⟩ :=
              label_messageSlots (P := fun _ ↦ True) (fun _ _ h ↦ h) trivial p hp
            rw [hl]
            exact ⟨rfl, rfl⟩
          rw [if_pos rfl, if_pos rfl, hblank _ (textOf_messageSlots _ f _ children), hblank _ rfl,
            Node.element.injEq, eq_self_iff_true, eq_self_iff_true, true_and, true_and]
          cases hmeant : meant context source with
          | true =>
              rw [if_pos rfl, if_pos rfl, blankTranslation_messageSlots fun _ _ ↦ rfl]
              apply forall₂_congr
              intro p hp
              obtain ⟨hc, hs⟩ := hlabel p hp
              rw [Hidden, hc, hs, hmeant, eq_self_iff_true, and_true]
          | false =>
              rw [if_neg Bool.false_ne_true, if_neg Bool.false_ne_true, Slots.map_eq_self_iff]
              apply forall₂_congr
              intro p hp
              obtain ⟨hc, hs⟩ := hlabel p hp
              rw [Hidden, hc, hs, hmeant]
              simp
  | _ => exact ⟨fun _ ↦ nofun, fun _ ↦ rfl⟩

theorem blankContext_contextSlot (n : Node) :
    blankContext meant (contextSlot.map f n) = blankContext meant n ↔
      ∀ p ∈ contextSlot.get n, Hidden meant f p := by
  cases n with
  | element tagName attributes children =>
      set context := textOf "name" children with hcontext
      have hget : contextSlot.get (element tagName attributes children) =
          if compareCI tagName "context" then (contextSlots context []).get children else [] := rfl
      have hmap : contextSlot.map f (element tagName attributes children) =
          element tagName attributes (if compareCI tagName "context" then
            (contextSlots context []).map f children else children) := rfl
      rw [hget, hmap]
      cases htag : compareCI tagName "context" with
      | false => exact ⟨fun _ ↦ nofun, fun _ ↦ rfl⟩
      | true =>
          have hblank : ∀ l : List Node, textOf "name" l = context →
              blankContext meant (element tagName attributes l) =
                element tagName attributes (l.map (blankMessage meant context)) := by
            intro l hl
            have hkind : (element tagName attributes l).isCI "context" = true := htag
            unfold blankContext
            rw [hkind, if_pos rfl]
            show element tagName attributes (l.map (blankMessage meant (textOf "name" l))) = _
            rw [hl]
          have hname : textOf "name" ((contextSlots context []).map f children) = context :=
            textOf_scan (fun names f n ↦ messageSlot_map context names f n) f [] children
          rw [if_pos rfl, if_pos rfl, hblank _ hname, hblank _ rfl, Node.element.injEq,
            eq_self_iff_true, eq_self_iff_true, true_and, true_and]
          exact Slots.scanMap_view (fun names n ↦ blankMessage_messageSlot context names n) []
            children
  | _ => exact ⟨fun _ ↦ nofun, fun _ ↦ rfl⟩

/-- **What a blanked document shows of a change**: every change but those of texts of
translations of the messages that are meant. -/
theorem blank_docSlots (doc : Document) :
    blank meant (docSlots.map f doc) = blank meant doc ↔
      ∀ p ∈ docSlots.get doc, Hidden meant f p := by
  have hchildren := @Slots.scanMap_view _ _ _ Unit (fun c _ ↦ c) _ _ _ _ _
    (fun _ n ↦ @blankContext_contextSlot f meant n) () doc.children
  constructor
  · intro h
    exact hchildren.mp (congrArg Document.children h)
  · intro h
    exact congrArg (fun l ↦ { doc with children := l }) (hchildren.mpr h)

end

/-! ## A pass over recalled items -/

/-- The obsolete message behind an item of the left tree of a document. -/
def ItemRef.obsolete? (doc : Document) : ItemRef → Option Placed
  | .leaf i => ((placed doc).filter fun p ↦ !p.located)[i]?
  | _ => none

/-- The context and the source are those of an obsolete message among the items. -/
def meantBy (doc : Document) (items : List ItemRef) (context source : String) : Bool :=
  (items.filterMap (ItemRef.obsolete? doc)).any fun p ↦
    textOf "name" p.context = context && textOf "source" p.message = source

/-- The document of a file that was chosen and loaded, after the recalls since. -/
theorem output_doc_of_chosen {s : St} (h : system.Reachable s) {langFile : String}
    {doc : Document} (hc : s.chosen = some (langFile, .content (some doc))) :
    s.output_doc = some (s.recalls.foldl (fun doc r ↦ r.apply doc) (trim doc)) :=
  (tracks_of_reachable h).loaded langFile doc hc

/-- **The frame of a pass.**  A pass over recalled items changes nothing but the texts of
translations of the messages with the context and the source of a recalled obsolete
message, exactly when every node that some of the items target is such a text, or has the
text of the last of these items already. -/
theorem framed_iff {s : St} (h : system.Reachable s) {langFile : String} {chosen : Document}
    (hc : s.chosen = some (langFile, .content (some chosen))) (items : List ItemRef) :
    (items.foldl MainWindow.recallItemTranslation s.toMainWindow).output_doc.map
        (blank (meantBy chosen items)) = s.output_doc.map (blank (meantBy chosen items)) ↔
      ∀ p ∈ docSlots.get (s.recalls.foldl (fun doc r ↦ r.apply doc) (trim chosen)),
        (p.1.isText = true ∧ meantBy chosen items p.1.context p.1.source = true) ∨
          s.repeat_treewidget.lastText items p.1 p.2 = p.2 := by
  obtain ⟨-, hdoc⟩ := MainWindow.foldl_recallItemTranslation items s.toMainWindow
  rw [hdoc, output_doc_of_chosen h hc, Option.map_some, Option.map_some, Option.map_some,
    Option.some_inj]
  exact blank_docSlots _

/-- The recall of the one left leaf of `dialogDoc`. -/
theorem framed_dialogDoc : ∃ s, system.exec .initial
    [.choose "a.ts" (.content (some dialogDoc))] = some s ∧
    (([.leaf 0] : List ItemRef).foldl MainWindow.recallItemTranslation
        s.toMainWindow).output_doc.map (blank (meantBy dialogDoc [.leaf 0])) =
      s.output_doc.map (blank (meantBy dialogDoc [.leaf 0])) := by
  refine ⟨_, rfl, (framed_iff (System.reachable_of_exec
    [.choose "a.ts" (.content (some dialogDoc))] rfl rfl) rfl [.leaf 0]).mpr ?_⟩
  have hslots : docSlots.get (trim dialogDoc) =
      [(⟨"Dialog", ["Dialog"], "Open", [], ["Open"], true⟩, "?")] := rfl
  intro p hp
  have hp' : p ∈ docSlots.get (trim dialogDoc) := hp
  rw [hslots, List.mem_singleton] at hp'
  rw [hp']
  exact .inl ⟨rfl, rfl⟩

/-- A file with a context that has no name. -/
def unnamedContext : Document := { dialogDoc with
  children := [
    .element "context" [] [.element "name" [] [.text "Dialog"], message false "Open" "Datei"],
    .element "context" [] [message true "Open" "offen"]] }

/-- **A recall can reach a context without a name.** -/
theorem not_framed : ¬ ∀ (s : St) (langFile : String) (chosen : Document) (items : List ItemRef),
    system.Reachable s → s.chosen = some (langFile, .content (some chosen)) →
    (items.foldl MainWindow.recallItemTranslation s.toMainWindow).output_doc.map
        (blank (meantBy chosen items)) = s.output_doc.map (blank (meantBy chosen items)) := by
  intro h
  have hframe := h _ "a.ts" unnamedContext [.leaf 0] (System.reachable_of_exec
    [.choose "a.ts" (.content (some unnamedContext))] rfl rfl) rfl
  have htexts := congrArg (Option.map fun doc ↦ (messages doc).map translationText) hframe
  exact absurd htexts (by decide)

end CodeToolKit.TrimTSFile
