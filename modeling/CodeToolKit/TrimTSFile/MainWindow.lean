import CodeToolKit.Lib.Siblings
import CodeToolKit.Lib.Transition
import CodeToolKit.TrimTSFile.Dom

/-!
# `MainWindow`

The window loads a Qt translation file twice.  `prepareRepeatXml` fills the left tree
with the messages that have no location any more; `prepareOutputXml` fills the right
tree with the others, removes the former from the document and keeps it as
`output_doc`.  A recall copies the translation of a left item to the right tree and to
`output_doc`, and a save writes `output_doc` next to the file named in the text field.

Both trees have the root element at the top, below it one item for each message with
the name of its context, and below that one leaf with the source and the translation of
the message.  Columns 0 and 1 are the only data kept; column 1 is empty on every item
that is not a leaf.

The program is assumed to be over when it dereferences the null `itemRoot` or takes the
first string of an empty list; these are the results `none` below.
-/

namespace CodeToolKit.TrimTSFile

open CodeToolKit.Lib Node

/-! ## The widgets -/

/-- The item of a message with its leaf. -/
structure Entry where
  /-- Column 0 of the item: the context. -/
  name : String
  /-- Column 0 of the leaf. -/
  source : String
  /-- Column 1 of the leaf. -/
  translation : String
deriving DecidableEq, Repr

/-- An item of a tree. -/
inductive ItemRef where
  | root
  | file (i : ℕ)
  | leaf (i : ℕ)
deriving DecidableEq, Repr

/-- A `QTreeWidget`. -/
structure TreeWidget where
  /-- Column 0 of the root item, when there is one. -/
  itemRoot : Option String
  entries : List Entry
  currentItem : Option ItemRef
deriving DecidableEq, Repr

namespace TreeWidget

/-- `clear`. -/
def empty : TreeWidget := ⟨none, [], none⟩

/-- The items in the order of `QTreeWidgetItemIterator`. -/
def items (t : TreeWidget) : List ItemRef :=
  if t.itemRoot.isSome then
    .root :: (List.range t.entries.length).flatMap fun i ↦ [.file i, .leaf i]
  else []

/-- `text(0)`. -/
def text0 (t : TreeWidget) : ItemRef → String
  | .root => t.itemRoot.getD ""
  | .file i => (t.entries[i]?.map Entry.name).getD ""
  | .leaf i => (t.entries[i]?.map Entry.source).getD ""

/-- `text(1)`. -/
def text1 (t : TreeWidget) : ItemRef → String
  | .leaf i => (t.entries[i]?.map Entry.translation).getD ""
  | _ => ""

/-- `parent()->text(0)`, when there is a parent. -/
def parentText (t : TreeWidget) : ItemRef → Option String
  | .root => none
  | .file _ => t.itemRoot
  | .leaf i => t.entries[i]?.map Entry.name

/-- `setCurrentItem`. -/
def setCurrentItem (t : TreeWidget) (item : Option ItemRef) : TreeWidget :=
  { t with currentItem := item }

@[simp] theorem currentItem_setCurrentItem (t : TreeWidget) (item : Option ItemRef) :
    (t.setCurrentItem item).currentItem = item := rfl

@[simp] theorem text0_setCurrentItem (t : TreeWidget) (item : Option ItemRef) (i : ItemRef) :
    (t.setCurrentItem item).text0 i = t.text0 i := by cases i <;> rfl

@[simp] theorem parentText_setCurrentItem (t : TreeWidget) (item : Option ItemRef)
    (i : ItemRef) : (t.setCurrentItem item).parentText i = t.parentText i := by cases i <;> rfl

/-- `setText(1, value)`, for a leaf. -/
def setText1 (t : TreeWidget) (value : String) : ItemRef → TreeWidget
  | .leaf i => { t with entries := t.entries.modify i fun e ↦ { e with translation := value } }
  | _ => t

end TreeWidget

/-- What a file holds when it is opened and parsed; the document may be null. -/
inductive FileResult where
  | openFailed
  | malformed
  | content (doc : Option Document)

/-- The widgets and fields of `MainWindow` that its functions read. -/
structure MainWindow where
  url_linedit : String
  doall_chkbox : Bool
  repeat_treewidget : TreeWidget
  output_treewidget : TreeWidget
  output_doc : Option Document

/-! ## Loading a file -/

/-- The texts of the `source` and `translation` elements. -/
def stringLang (nodes : List Node) : List String :=
  (nodes.filter fun n ↦ n.isCI "source" || n.isCI "translation").map content

/-- The entry of a message: its item needs a root item, and its leaf takes the first and
the last of the strings. -/
def entry? (itemRoot : Option String) (nodeName : String) (strings : List String) : Option Entry :=
  match itemRoot, strings.head?, strings.getLast? with
  | some _, some first, some last => some ⟨nodeName, first, last⟩
  | _, _, _ => none

/-- The root item: there is one when the root element is `ts`. -/
def itemRoot (doc : Document) : Option String :=
  if compareCI doc.tagName "ts" then some doc.tagName else none

/-- The loop of `prepareRepeatXml` over the children of a context. -/
def repeatContext (itemRoot : Option String) (nodeName : String) :
    List Node → Option (List Entry)
  | [] => some []
  | e :: rest =>
      let nodeName := if e.isCI "name" then e.content else nodeName
      if e.isCI "message" && (firstChildElement "location" e.children).isNone then do
        let entry ← entry? itemRoot nodeName (stringLang e.children)
        let entries ← repeatContext itemRoot nodeName rest
        some (entry :: entries)
      else repeatContext itemRoot nodeName rest

/-- The loop of `prepareRepeatXml` over the children of the root element. -/
def repeatRoot (itemRoot : Option String) : List Node → Option (List Entry)
  | [] => some []
  | node :: rest => do
      let entries ← if node.isCI "context" then repeatContext itemRoot "" node.children else some []
      let entries' ← repeatRoot itemRoot rest
      some (entries ++ entries')

/-- The loop of `prepareOutputXml` over the children of a context `ele`, with the handle
`e` of the child it stands on: a message without a location is removed after `e` has
moved on.  The bound on the iterations is never the reason to stop. -/
def outputContext (itemRoot : Option String) : ℕ → Siblings Node → String → List Entry →
    Option ℕ → Option (Siblings Node × List Entry)
  | 0, ele, _, entries, _ => some (ele, entries)
  | _ + 1, ele, _, entries, none => some (ele, entries)
  | fuel + 1, ele, nodeName, entries, some e =>
      let node := (ele.get? e).getD (.text "")
      let nodeName := if node.isCI "name" then node.content else nodeName
      if node.isCI "message" then
        match firstChildElement "location" node.children with
        | none =>
            let temp := e
            let e := ele.next e isElement
            outputContext itemRoot fuel (ele.remove temp) nodeName entries e
        | some (eLoc, rest) =>
            match entry? itemRoot nodeName (stringLang (eLoc :: rest)) with
            | none => none
            | some entry =>
                outputContext itemRoot fuel ele nodeName (entries ++ [entry]) (ele.next e isElement)
      else outputContext itemRoot fuel ele nodeName entries (ele.next e isElement)

/-- The loop of `prepareOutputXml` over the children of the root element. -/
def outputRoot (itemRoot : Option String) : List Node → Option (List Node × List Entry)
  | [] => some ([], [])
  | .element tagName attributes children :: rest => do
      let (children, entries) ← if compareCI tagName "context" then
          let ele := Siblings.ofList children
          (outputContext itemRoot children.length ele "" [] (ele.first isElement)).map
            fun (ele, entries) ↦ (ele.toList, entries)
        else some (children, [])
      let (rest, entries') ← outputRoot itemRoot rest
      some (.element tagName attributes children :: rest, entries ++ entries')
  | node :: rest => do
      let (rest, entries) ← outputRoot itemRoot rest
      some (node :: rest, entries)

namespace MainWindow

/-- `prepareRepeatXml`, where the file it opens holds `file`. -/
def prepareRepeatXml (w : MainWindow) (file : FileResult) : Option MainWindow :=
  if w.url_linedit.length = 0 then some w
  else
    let w := { w with repeat_treewidget := .empty }
    match file with
    | .openFailed | .malformed | .content none => some w
    | .content (some doc) => do
        let entries ← repeatRoot (itemRoot doc) doc.children
        some { w with repeat_treewidget := ⟨itemRoot doc, entries, none⟩ }

/-- `prepareOutputXml`, where the file it opens holds `file`. -/
def prepareOutputXml (w : MainWindow) (file : FileResult) : Option MainWindow :=
  if w.url_linedit.length = 0 then some w
  else
    let w := { w with output_treewidget := .empty }
    match file with
    | .openFailed | .malformed | .content none => some w
    | .content (some doc) => do
        let (children, entries) ← outputRoot (itemRoot doc) doc.children
        some { w with
          output_treewidget := ⟨itemRoot doc, entries, none⟩
          output_doc := some { doc with children := children } }

/-- `onSlotChooseLangFileFunc`, where the dialog returns `langFile`. -/
def chooseLangFile (w : MainWindow) (langFile : String) (file : FileResult) : Option MainWindow :=
  if langFile.length = 0 then some w
  else do
    let w ← ({ w with url_linedit := langFile }).prepareRepeatXml file
    w.prepareOutputXml file

/-- `onSlotTrimLangFileContextFunc`: the name and the content of the file it writes. -/
def trimLangFileContext (w : MainWindow) : Option (String × Option Document) :=
  if w.url_linedit.length = 0 then none else some (w.url_linedit ++ ".mod.ts", w.output_doc)

end MainWindow

/-! ## Recalls -/

/-- `firstChild().setNodeValue(value)`; without a child nothing happens. -/
def setFirstValue (value : String) (children : List Node) : List Node :=
  children.modifyHead (setNodeValue value)

/-- `eTran.nextSiblingElement("translation")`, and `setNodeValue` on its first child. -/
def writeTranslation (value : String) : List Node → List Node
  | [] => []
  | n :: rest =>
      if n.isNamed "translation" then n.mapChildren (setFirstValue value) :: rest
      else n :: writeTranslation value rest

/-- The loop of `recallItemTranslation` over the children of a message: it ends at the
first `source` with the text of the item. -/
def recallMessage (source value : String) : List Node → List Node
  | [] => []
  | n :: rest =>
      if n.isNamed "source" && n.content = source then n :: writeTranslation value rest
      else n :: recallMessage source value rest

/-- The loop over the children of a context: it ends at a `name` that is not that of the
item's parent. -/
def recallContext (name source value : String) : List Node → List Node
  | [] => []
  | e :: rest =>
      if e.isCI "name" && e.content ≠ name then e :: rest
      else if e.isCI "message" then
        e.mapChildren (recallMessage source value) :: recallContext name source value rest
      else e :: recallContext name source value rest

/-- The loop over a child of the root element. -/
def recallNode (name source value : String) (node : Node) : Node :=
  if node.isCI "context" then node.mapChildren (recallContext name source value) else node

/-- A recall: the context, the source and the translation of the left item. -/
structure Recall where
  name : String
  source : String
  value : String

/-- What a recall does to `output_doc`. -/
def Recall.apply (r : Recall) (doc : Document) : Document :=
  { doc with children := doc.children.map (recallNode r.name r.source r.value) }

namespace MainWindow

/-- The search of `onSlotSelectedRightItemFunc`: the first right item with the texts of a
left item, its parent's included, and a column 1 that is not empty.  Only leaves have
such a column 1. -/
def findRightItem (w : MainWindow) (item : ItemRef) : Option ℕ :=
  (w.repeat_treewidget.parentText item).bind fun parent ↦
    w.output_treewidget.entries.findIdx? fun (e : Entry) ↦
      e.source = w.repeat_treewidget.text0 item && e.translation ≠ "" && e.name = parent

/-- `onSlotSelectedRightItemFunc`: select what belongs to the current left item. -/
def selectedRightItem (w : MainWindow) : MainWindow :=
  match w.repeat_treewidget.currentItem with
  | none => w
  | some item => { w with output_treewidget :=
      w.output_treewidget.setCurrentItem ((w.findRightItem item).map ItemRef.leaf) }

/-- `recallItemTranslation`. -/
def recallItemTranslation (w : MainWindow) (item : ItemRef) : MainWindow :=
  let value := w.repeat_treewidget.text1 item
  let w := { w with repeat_treewidget := w.repeat_treewidget.setCurrentItem (some item) }
  let w := w.selectedRightItem
  let w := match w.output_treewidget.currentItem with
    | some i => { w with output_treewidget := w.output_treewidget.setText1 value i }
    | none => w
  match w.repeat_treewidget.parentText item with
  | none => w
  | some parent => { w with
      output_doc :=
        w.output_doc.map (Recall.apply ⟨parent, w.repeat_treewidget.text0 item, value⟩) }

end MainWindow

/-! ## Runs of the window -/

/-- The window between two events; while `it` is not empty it is inside of the loop of
an all-items recall.  `chosen` is the last file chosen and `recalls` what was recalled
since; no step reads them. -/
structure St extends MainWindow where
  it : List ItemRef
  chosen : Option (String × FileResult)
  recalls : List Recall

/-- What the user does, with the content of the file that is chosen and the answer to
the question; and an iteration of the loop of an all-items recall. -/
inductive Act where
  | choose (langFile : String) (file : FileResult)
  | select (item : ItemRef)
  | check (doall : Bool)
  | recallItem (yes : Bool)
  | next
  | save

namespace St

/-- The recall an item stands for; the root item has no parent and recalls nothing. -/
def recallOf (s : St) (item : ItemRef) : Option Recall :=
  (s.repeat_treewidget.parentText item).map fun parent ↦
    ⟨parent, s.repeat_treewidget.text0 item, s.repeat_treewidget.text1 item⟩

/-- One call of `recallItemTranslation`. -/
def recallItem (s : St) (item : ItemRef) : St :=
  { s with
    toMainWindow := s.recallItemTranslation item
    recalls := s.recalls ++ (s.recallOf item).toList }

/-- The step of a label. -/
def next (s : St) : Act → Option St
  | .choose langFile file =>
      if s.it = [] then (s.chooseLangFile langFile file).map fun w ↦
        if langFile.length = 0 then s
        else { s with toMainWindow := w, chosen := some (langFile, file), recalls := [] }
      else none
  | .select item =>
      if s.it = [] ∧ item ∈ s.repeat_treewidget.items then
        let w := { s.toMainWindow with
          repeat_treewidget := s.repeat_treewidget.setCurrentItem (some item) }
        some { s with toMainWindow := w.selectedRightItem }
      else none
  | .check doall => if s.it = [] then some { s with doall_chkbox := doall } else none
  | .recallItem yes =>
      -- `onSlotRecallRepeatTranslationFunc`
      if s.it = [] then
        match s.repeat_treewidget.currentItem with
        | some item => some (s.recallItem item)
        | none => some (if s.doall_chkbox && yes then { s with it := s.repeat_treewidget.items }
            else s)
      else none
  | .next =>
      match s.it with
      | [] => none
      | item :: rest => some { s.recallItem item with it := rest }
  | .save => if s.it = [] then some s else none

/-- The window as its constructor leaves it. -/
def initial : St where
  url_linedit := ""
  doall_chkbox := false
  repeat_treewidget := .empty
  output_treewidget := .empty
  output_doc := none
  it := []
  chosen := none
  recalls := []

/-- What a label can do. -/
inductive Step (s : St) : Act → St → Prop
  /-- A file is chosen, and both functions come to their end. -/
  | choose {langFile : String} {file : FileResult} {w : MainWindow} :
      s.it = [] → langFile.length ≠ 0 → s.chooseLangFile langFile file = some w →
        Step s (.choose langFile file)
          { s with toMainWindow := w, chosen := some (langFile, file), recalls := [] }
  /-- A left item is selected. -/
  | select {item : ItemRef} :
      s.it = [] → item ∈ s.repeat_treewidget.items →
        Step s (.select item)
          { s with toMainWindow := MainWindow.selectedRightItem { s.toMainWindow with
              repeat_treewidget := s.repeat_treewidget.setCurrentItem (some item) } }
  /-- The box is checked or not. -/
  | check {doall : Bool} : s.it = [] → Step s (.check doall) { s with doall_chkbox := doall }
  /-- The selected item is recalled. -/
  | recallItem {yes : Bool} {item : ItemRef} :
      s.it = [] → s.repeat_treewidget.currentItem = some item →
        Step s (.recallItem yes) (s.recallItem item)
  /-- The loop over all items begins. -/
  | recallAll :
      s.it = [] → s.repeat_treewidget.currentItem = none → s.doall_chkbox →
        Step s (.recallItem true) { s with it := s.repeat_treewidget.items }
  /-- An iteration of the loop. -/
  | next {item : ItemRef} {rest : List ItemRef} :
      s.it = item :: rest → Step s .next { s.recallItem item with it := rest }
  /-- Nothing changes: no file is chosen, nothing is recalled, or a file is saved. -/
  | stay {a : Act} : s.it = [] → Step s a s

theorem step_of_next {s s' : St} {a : Act} (h : s.next a = some s') : s.Step a s' := by
  cases a with
  | choose langFile file =>
      simp only [next] at h
      split at h
      · rename_i hit
        obtain ⟨w, hw, rfl⟩ := Option.map_eq_some_iff.mp h
        by_cases hname : langFile.length = 0
        · rw [if_pos hname]
          exact .stay hit
        · rw [if_neg hname]
          exact .choose hit hname hw
      · cases h
  | select item =>
      simp only [next] at h
      split at h
      · rename_i hguard
        cases h
        exact .select hguard.1 hguard.2
      · cases h
  | check doall =>
      simp only [next] at h
      split at h
      · rename_i hit
        cases h
        exact .check hit
      · cases h
  | recallItem yes =>
      simp only [next] at h
      split at h
      · rename_i hit
        split at h
        · rename_i item hitem
          cases h
          exact .recallItem hit hitem
        · rename_i hnone
          cases h
          split
          · rename_i hall
            obtain ⟨hbox, rfl⟩ := Bool.and_eq_true_iff.mp hall
            exact .recallAll hit hnone hbox
          · exact .stay hit
      · cases h
  | next =>
      simp only [next] at h
      split at h
      · cases h
      · rename_i item rest hit
        cases h
        exact .next hit
  | save =>
      simp only [next] at h
      split at h
      · rename_i hit
        cases h
        exact .stay hit
      · cases h

end St

/-- The runs of the window. -/
def system : System St Act where
  start s := s = .initial
  next := St.next

end CodeToolKit.TrimTSFile
