import CodeToolKit.TrimTSFile.Written

/-!
# Recalling all items

`onSlotRecallRepeatTranslationFunc` without a selected item recalls the items of the left
tree one after the other.  As every recall is a write, the pass over all items is a list
of overlapping writes: each node ends with the text of the last item that reaches it, and
the pass once more changes nothing (`recallAll_lastWins`).
-/

namespace CodeToolKit.TrimTSFile

open CodeToolKit.Lib

namespace TreeWidget

/-! ## The items of a tree -/

/-- The items without a parent. -/
def topLevelItems (t : TreeWidget) : List ItemRef := if t.itemRoot.isSome then [.root] else []

/-- The items below an item, in their order. -/
def children (t : TreeWidget) : ItemRef → List ItemRef
  | .root => (List.range t.entries.length).map .file
  | .file i => [.leaf i]
  | .leaf _ => []

/-- A walk comes to an item, and then to those below it, down to a depth. -/
def walk (t : TreeWidget) : ℕ → ItemRef → List ItemRef
  | 0, item => [item]
  | depth + 1, item => item :: (t.children item).flatMap (t.walk depth)

/-- The iterator walks through the tree. -/
theorem items_eq_walk (t : TreeWidget) : t.items = t.topLevelItems.flatMap (t.walk 2) := by
  rw [items, topLevelItems]
  split
  · rw [List.flatMap_singleton, walk, children, List.flatMap_map]
    rfl
  · rfl

/-- It comes to the root item, and to the item and the leaf of each entry. -/
theorem mem_items {t : TreeWidget} {item : ItemRef} : item ∈ t.items ↔ t.itemRoot.isSome ∧
    (item = .root ∨ ∃ i < t.entries.length, item = .file i ∨ item = .leaf i) := by
  rw [items]
  split
  · rename_i hroot
    simp [hroot]
  · rename_i hroot
    simp [hroot]

/-- It comes to every item once. -/
theorem nodup_items (t : TreeWidget) : t.items.Nodup := by
  rw [items]
  split
  · refine List.nodup_cons.mpr ⟨by simp, List.nodup_flatMap.mpr ⟨fun i _ ↦ by simp, ?_⟩⟩
    refine List.nodup_range.imp_of_mem fun {i j} _ _ hne ↦ ?_
    simp [Function.onFun, Ne.symm hne]
  · exact List.nodup_nil

/-! ## The recalls -/

/-- The recall an item stands for; the root item has no parent and stands for none. -/
def recallOf (t : TreeWidget) (item : ItemRef) : Option Recall :=
  (t.parentText item).map fun parent ↦ ⟨parent, t.text0 item, t.text1 item⟩

/-- The recall of an item targets a node. -/
def targets (t : TreeWidget) (l : Slot) (item : ItemRef) : Bool :=
  (t.recallOf item).any (·.hits l)

/-- The text of the last item of a list that targets a node; without one the node keeps
its value. -/
def lastText (t : TreeWidget) (items : List ItemRef) (l : Slot) (value : String) : String :=
  ((items.filter (t.targets l)).getLast?.map t.text1).getD value

@[simp] theorem items_setCurrentItem (t : TreeWidget) (item : Option ItemRef) :
    (t.setCurrentItem item).items = t.items := rfl

/-- A selection changes no recall. -/
@[simp] theorem recallOf_setCurrentItem (t : TreeWidget) (item : Option ItemRef) :
    (t.setCurrentItem item).recallOf = t.recallOf := by
  funext i
  cases i <;> rfl

@[simp] theorem lastText_setCurrentItem (t : TreeWidget) (item : Option ItemRef) :
    (t.setCurrentItem item).lastText = t.lastText := by
  have htext : (t.setCurrentItem item).text1 = t.text1 := by
    funext i
    cases i <;> rfl
  have htargets : (t.setCurrentItem item).targets = t.targets := by
    funext l i
    unfold targets
    rw [recallOf_setCurrentItem]
  funext items l value
  unfold lastText
  rw [htext, htargets]

/-- The writes of a list of items. -/
def writes (t : TreeWidget) (items : List ItemRef) : List (Write Slot String) :=
  (items.filterMap t.recallOf).map Recall.write

/-- What the writes leave is the text of the last item that targets the node. -/
theorem last_writes (t : TreeWidget) (items : List ItemRef) :
    Write.last (t.writes items) = t.lastText items := by
  funext l value
  unfold writes
  induction items using List.reverseRecOn with
  | nil => rfl
  | append_singleton items item ih =>
      have happend : t.lastText (items ++ [item]) l value =
          if t.targets l item then t.text1 item else t.lastText items l value := by
        unfold lastText
        rw [List.filter_append]
        cases htargets : t.targets l item with
        | true =>
            rw [List.filter_cons_of_pos htargets, List.filter_nil, List.getLast?_append]
            rfl
        | false =>
            rw [List.filter_cons_of_neg (by simp [htargets]), List.filter_nil, List.append_nil]
            rfl
      rw [happend, ← ih, List.filterMap_append, List.map_append]
      unfold targets recallOf
      cases hparent : t.parentText item with
      | none =>
          rw [List.filterMap_cons_none (by rw [hparent]; rfl)]
          simp
      | some parent =>
          rw [List.filterMap_cons_some (b := ⟨parent, t.text0 item, t.text1 item⟩)
            (by rw [hparent]; rfl)]
          exact Write.last_append _ _ l value

end TreeWidget

namespace MainWindow

/-- The pass over all items of the left tree. -/
def recallAll (w : MainWindow) : MainWindow :=
  w.repeat_treewidget.items.foldl recallItemTranslation w

/-- A recall selects its item on the left and applies what it stands for. -/
theorem recallItemTranslation_spec (w : MainWindow) (item : ItemRef) :
    (w.recallItemTranslation item).repeat_treewidget =
        w.repeat_treewidget.setCurrentItem (some item) ∧
      (w.recallItemTranslation item).output_doc = w.output_doc.map fun doc ↦
        (w.repeat_treewidget.writes [item]).foldl (fun doc r ↦ docSlots.map r.run doc) doc := by
  constructor
  · unfold recallItemTranslation selectedRightItem
    dsimp only [TreeWidget.currentItem_setCurrentItem]
    split <;> split <;> rfl
  · obtain ⟨-, -, hdoc⟩ := w.recallItemTranslation_eq item
    rw [hdoc]
    unfold TreeWidget.writes TreeWidget.recallOf
    cases hparent : w.repeat_treewidget.parentText item with
    | none =>
        rw [List.filterMap_cons_none (by rw [hparent]; rfl)]
        show w.output_doc = w.output_doc.map id
        rw [Option.map_id, id]
    | some parent =>
        rw [List.filterMap_cons_some (b := ⟨parent, _, _⟩) (by rw [hparent]; rfl)]
        show w.output_doc.map _ = _
        congr 1
        funext doc
        exact apply_eq _ doc

/-- **A pass** over a list of items writes what they target. -/
theorem foldl_recallItemTranslation (items : List ItemRef) (w : MainWindow) :
    (∃ item, (items.foldl recallItemTranslation w).repeat_treewidget =
        w.repeat_treewidget.setCurrentItem item) ∧
      (items.foldl recallItemTranslation w).output_doc = w.output_doc.map
        (docSlots.map (w.repeat_treewidget.lastText items)) := by
  rw [← TreeWidget.last_writes]
  have hfold : (docSlots.map (Write.last (w.repeat_treewidget.writes items))) = fun doc ↦
      (w.repeat_treewidget.writes items).foldl (fun doc r ↦ docSlots.map r.run doc) doc := by
    funext doc
    exact (docSlots.foldl_write _ doc).symm
  rw [hfold]
  induction items generalizing w with
  | nil =>
      refine ⟨⟨w.repeat_treewidget.currentItem, rfl⟩, ?_⟩
      show w.output_doc = w.output_doc.map id
      rw [Option.map_id, id]
  | cons item items ih =>
      obtain ⟨htree, hdoc⟩ := w.recallItemTranslation_spec item
      obtain ⟨⟨last, hlast⟩, hrest⟩ := ih (w.recallItemTranslation item)
        (by
          funext doc
          exact (docSlots.foldl_write _ doc).symm)
      have hwrites : ∀ items, (w.recallItemTranslation item).repeat_treewidget.writes items =
          w.repeat_treewidget.writes items := by
        intro items
        unfold TreeWidget.writes
        rw [htree, TreeWidget.recallOf_setCurrentItem]
      refine ⟨⟨last, ?_⟩, ?_⟩
      · rw [List.foldl_cons, hlast, htree]
        rfl
      · rw [List.foldl_cons, hrest, hdoc, hwrites, Option.map_map]
        congr 1
        funext doc
        have happend : w.repeat_treewidget.writes (item :: items) =
            w.repeat_treewidget.writes [item] ++ w.repeat_treewidget.writes items := by
          unfold TreeWidget.writes
          rw [← List.singleton_append, List.filterMap_append, List.map_append]
        rw [happend, List.foldl_append]
        rfl

/-- **Recalling all is last-wins and idempotent.**  The pass once more leaves `output_doc`
as it is; it changes values of nodes only, and the value of every node that it can write
is the text of the last item that targets the node. -/
theorem recallAll_lastWins (w : MainWindow) :
    w.recallAll.recallAll.output_doc = w.recallAll.output_doc ∧
      w.recallAll.output_doc = w.output_doc.map
        (docSlots.map (w.repeat_treewidget.lastText w.repeat_treewidget.items)) ∧
      w.recallAll.output_doc.map docSlots.get = w.output_doc.map fun doc ↦
        (docSlots.get doc).map fun p ↦
          (p.1, w.repeat_treewidget.lastText w.repeat_treewidget.items p.1 p.2) := by
  obtain ⟨⟨last, htree⟩, hdoc⟩ := foldl_recallItemTranslation w.repeat_treewidget.items w
  refine ⟨?_, hdoc, ?_⟩
  · obtain ⟨-, hagain⟩ :=
      foldl_recallItemTranslation w.recallAll.repeat_treewidget.items w.recallAll
    have htree' : w.recallAll.repeat_treewidget = w.repeat_treewidget.setCurrentItem last := htree
    have hdoc' : w.recallAll.output_doc = _ := hdoc
    rw [htree', TreeWidget.items_setCurrentItem, TreeWidget.lastText_setCurrentItem] at hagain
    show (w.recallAll.repeat_treewidget.items.foldl _ w.recallAll).output_doc = _
    rw [htree', TreeWidget.items_setCurrentItem, hagain, hdoc', Option.map_map]
    congr 1
    funext doc
    show docSlots.map _ (docSlots.map _ doc) = _
    rw [← TreeWidget.last_writes]
    exact docSlots.map_last_last _ doc
  · show (w.repeat_treewidget.items.foldl _ w).output_doc.map _ = _
    rw [hdoc, Option.map_map]
    congr 1
    funext doc
    exact docSlots.get_map _ doc

end MainWindow

/-- The steps of the window that make up the loop of the pass. -/
theorem exec_next (items : List ItemRef) {s : St} (hit : s.it = items) :
    ∃ s', system.exec s (List.replicate items.length .next) = some s' ∧ s'.it = [] ∧
      s'.toMainWindow = items.foldl MainWindow.recallItemTranslation s.toMainWindow := by
  induction items generalizing s with
  | nil => exact ⟨s, rfl, hit, rfl⟩
  | cons item items ih =>
      have hnext : s.next .next = some { s.recallItem item with it := items } := by
        simp only [St.next, hit]
      obtain ⟨s', hexec, hempty, hwindow⟩ := ih (s := { s.recallItem item with it := items }) rfl
      refine ⟨s', ?_, hempty, hwindow⟩
      rw [List.length_cons, List.replicate_succ, System.exec_cons]
      show (s.next .next).bind _ = _
      rw [hnext, Option.bind_some, hexec]

end CodeToolKit.TrimTSFile
