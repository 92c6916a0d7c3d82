import CodeToolKit.TrimTSFile.Trim

/-!
# Which document is saved

`onSlotChooseLangFileFunc` puts the name of the chosen file into the text field before it
reads the file, and `prepareOutputXml` leaves `output_doc` alone when the file does not
open or parse.  A save takes the name from the text field and the content from
`output_doc`, so after a choice that failed it writes the document of an earlier choice,
or nothing, under the name of the file that failed (`not_savesOwnFile`).

`Tracks` is the invariant of all runs: the text field holds the last name chosen, and
`output_doc` is the trimmed document of the last choice, changed by the recalls since,
whenever that choice opened and parsed.
-/

namespace CodeToolKit.TrimTSFile

open CodeToolKit.Lib

/-- The last file chosen, if any, opened and parsed. -/
def St.LastChoiceLoaded (s : St) : Prop :=
  ∀ langFile file, s.chosen = some (langFile, file) → ∃ doc, file = .content (some doc)

/-- What a save writes belongs to the file that is named: the name is that of the last
file chosen, which has a document, and the content is that document, trimmed and changed
by the recalls made since. -/
def St.SavesOwnFile (s : St) : Prop :=
  ∀ name content, s.trimLangFileContext = some (name, content) →
    ∃ langFile doc, s.chosen = some (langFile, .content (some doc)) ∧
      name = langFile ++ ".mod.ts" ∧
      content = some (s.recalls.foldl (fun doc r ↦ r.apply doc) (trim doc))

/-- The text field and `output_doc` follow the last choice. -/
structure Tracks (s : St) : Prop where
  unchosen : s.chosen = none → s.url_linedit = ""
  named : ∀ langFile file, s.chosen = some (langFile, file) →
    s.url_linedit = langFile ∧ langFile.length ≠ 0
  loaded : ∀ langFile doc, s.chosen = some (langFile, .content (some doc)) →
    s.output_doc = some (s.recalls.foldl (fun doc r ↦ r.apply doc) (trim doc))

theorem tracks_initial : Tracks .initial := ⟨fun _ ↦ rfl, nofun, nofun⟩

/-- A step that touches neither the text field nor `output_doc` keeps the invariant. -/
theorem Tracks.congr {s s' : St} (hs : Tracks s) (hurl : s'.url_linedit = s.url_linedit)
    (hdoc : s'.output_doc = s.output_doc) (hchosen : s'.chosen = s.chosen)
    (hrecalls : s'.recalls = s.recalls) : Tracks s' := by
  constructor
  · rw [hurl, hchosen]
    exact hs.unchosen
  · rw [hurl, hchosen]
    exact hs.named
  · rw [hdoc, hchosen, hrecalls]
    exact hs.loaded

/-! ## The steps -/

namespace MainWindow

/-- What a recall does: the leaf that belongs to the item takes its translation, and the
recall of the item is applied to `output_doc`. -/
theorem recallItemTranslation_eq (w : MainWindow) (item : ItemRef) :
    let value := w.repeat_treewidget.text1 item
    let w' := w.recallItemTranslation item
    w'.url_linedit = w.url_linedit ∧
      w'.output_treewidget.entries = (w.findRightItem item).elim w.output_treewidget.entries
        (fun i ↦ w.output_treewidget.entries.modify i fun e ↦ { e with translation := value }) ∧
      w'.output_doc = (w.repeat_treewidget.parentText item).elim w.output_doc fun parent ↦
        w.output_doc.map (Recall.apply ⟨parent, w.repeat_treewidget.text0 item, value⟩) := by
  have hfound : ({ w with
      repeat_treewidget := w.repeat_treewidget.setCurrentItem (some item) } :
        MainWindow).findRightItem item = w.findRightItem item := by
    unfold findRightItem
    simp only [TreeWidget.parentText_setCurrentItem, TreeWidget.text0_setCurrentItem]
  unfold recallItemTranslation selectedRightItem
  simp only [TreeWidget.currentItem_setCurrentItem, hfound]
  cases w.findRightItem item <;>
    simp only [Option.map_none, Option.map_some, TreeWidget.parentText_setCurrentItem,
      TreeWidget.text0_setCurrentItem] <;>
    cases w.repeat_treewidget.parentText item <;>
    exact ⟨rfl, rfl, rfl⟩

/-- A selection changes nothing but the current item on the right. -/
theorem selectedRightItem_frame (w : MainWindow) :
    w.selectedRightItem.url_linedit = w.url_linedit ∧
      w.selectedRightItem.output_doc = w.output_doc := by
  unfold selectedRightItem
  split <;> exact ⟨rfl, rfl⟩

/-- The left file is read without touching the text field. -/
theorem prepareRepeatXml_url {w w' : MainWindow} {file : FileResult}
    (h : w.prepareRepeatXml file = some w') : w'.url_linedit = w.url_linedit := by
  unfold prepareRepeatXml at h
  split at h
  · cases h
    rfl
  · dsimp only at h
    split at h
    · cases h
      rfl
    · cases h
      rfl
    · cases h
      rfl
    · obtain ⟨entries, -, he⟩ := Option.bind_eq_some_iff.mp h
      cases he
      rfl

/-- The right file is read without touching the text field. -/
theorem prepareOutputXml_url {w w' : MainWindow} {file : FileResult}
    (h : w.prepareOutputXml file = some w') : w'.url_linedit = w.url_linedit := by
  unfold prepareOutputXml at h
  split at h
  · cases h
    rfl
  · dsimp only at h
    split at h
    · cases h
      rfl
    · cases h
      rfl
    · cases h
      rfl
    · obtain ⟨⟨children, entries⟩, -, he⟩ := Option.bind_eq_some_iff.mp h
      cases he
      rfl

/-- A choice puts the name into the text field, and the trimmed document into
`output_doc` when the file has one. -/
theorem chooseLangFile_spec {w w' : MainWindow} {langFile : String} {file : FileResult}
    (hname : langFile.length ≠ 0) (h : w.chooseLangFile langFile file = some w') :
    w'.url_linedit = langFile ∧
      ∀ doc, file = .content (some doc) → w'.output_doc = some (trim doc) := by
  unfold chooseLangFile at h
  rw [if_neg hname] at h
  obtain ⟨w₁, hrepeat, houtput⟩ := Option.bind_eq_some_iff.mp h
  have hurl : w₁.url_linedit = langFile := prepareRepeatXml_url hrepeat
  constructor
  · rw [prepareOutputXml_url houtput, hurl]
  · rintro doc rfl
    rw [prepareOutputXml_content (hurl ▸ hname)] at houtput
    obtain ⟨entries, -, rfl⟩ := Option.map_eq_some_iff.mp houtput
    rfl

end MainWindow

namespace St

/-- A recall changes `output_doc` by the recall its item stands for, and leaves the text
field alone. -/
theorem recallItem_doc (s : St) (item : ItemRef) :
    (s.recallItem item).url_linedit = s.url_linedit ∧
      (s.recallItem item).output_doc =
        s.output_doc.map fun doc ↦
          (s.recallOf item).toList.foldl (fun doc r ↦ r.apply doc) doc := by
  obtain ⟨hurl, -, hdoc⟩ := s.recallItemTranslation_eq item
  refine ⟨hurl, hdoc.trans ?_⟩
  unfold recallOf
  cases s.repeat_treewidget.parentText item with
  | none =>
      show s.output_doc = s.output_doc.map id
      rw [Option.map_id, id]
  | some parent => rfl

end St

/-- A recall is recorded where it is applied. -/
theorem Tracks.recallItem {s : St} (hs : Tracks s) (item : ItemRef) :
    Tracks (s.recallItem item) := by
  obtain ⟨hurl, hdoc⟩ := s.recallItem_doc item
  constructor
  · rw [hurl]
    exact hs.unchosen
  · rw [hurl]
    exact hs.named
  · intro langFile doc hchosen
    rw [hdoc, hs.loaded langFile doc hchosen]
    show some _ = some _
    rw [St.recallItem, List.foldl_append]

/-- **Step.** -/
theorem Tracks.next {s s' : St} {a : Act} (hs : Tracks s) (hn : s.next a = some s') :
    Tracks s' := by
  cases St.step_of_next hn with
  | choose hit hname hw =>
      obtain ⟨hurl, hdoc⟩ := MainWindow.chooseLangFile_spec hname hw
      constructor
      · exact nofun
      · rintro _ _ ⟨⟩
        exact ⟨hurl, hname⟩
      · rintro _ doc ⟨⟩
        exact hdoc doc rfl
  | select =>
      refine hs.congr ?_ ?_ rfl rfl
      · exact (MainWindow.selectedRightItem_frame _).1
      · exact (MainWindow.selectedRightItem_frame _).2
  | check => exact hs.congr rfl rfl rfl rfl
  | recallItem => exact hs.recallItem _
  | recallAll => exact hs.congr rfl rfl rfl rfl
  | next => exact (hs.recallItem _).congr rfl rfl rfl rfl
  | stay => exact hs

/-- **Run.** -/
theorem tracks_of_reachable {s : St} (h : system.Reachable s) : Tracks s :=
  h.invariant (fun _ hs ↦ hs ▸ tracks_initial) fun _ _ _ hs _ hn ↦ hs.next hn

/-- **What is saved belongs to the file that is named exactly when that file loaded**: in
every reached state, a save writes the trimmed document of the last file chosen, changed
by the recalls since, if and only if that file opened and parsed. -/
theorem savesOwnFile_iff {s : St} (h : system.Reachable s) :
    s.SavesOwnFile ↔ s.LastChoiceLoaded := by
  have hs := tracks_of_reachable h
  constructor
  · intro hsaves langFile file hc
    obtain ⟨hurl, hname⟩ := hs.named langFile file hc
    have hwrites : s.trimLangFileContext = some (langFile ++ ".mod.ts", s.output_doc) := by
      unfold MainWindow.trimLangFileContext
      rw [hurl, if_neg hname]
    obtain ⟨langFile', doc, hc', -, -⟩ := hsaves _ _ hwrites
    rw [hc] at hc'
    cases hc'
    exact ⟨doc, rfl⟩
  · intro hload name content hw
    unfold MainWindow.trimLangFileContext at hw
    cases hc : s.chosen with
    | none =>
        rw [hs.unchosen hc] at hw
        cases hw
    | some choice =>
        obtain ⟨langFile, file⟩ := choice
        obtain ⟨hurl, hname⟩ := hs.named langFile file hc
        obtain ⟨doc, rfl⟩ := hload langFile file hc
        rw [hurl, if_neg hname] at hw
        cases hw
        exact ⟨langFile, doc, rfl, rfl, hs.loaded langFile doc hc⟩

/-- A message of a context, with a location or without. -/
def message (location : Bool) (source translation : String) : Node :=
  .element "message" [] ((if location then [.element "location" [] []] else []) ++
    [.element "source" [] [.text source], .element "translation" [] [.text translation]])

/-- A file in which a message has moved: the old one carries the translation. -/
def dialogDoc : Document where
  prolog := []
  tagName := "TS"
  attributes := []
  children := [.element "context" [] [.element "name" [] [.text "Dialog"],
    message true "Open" "?", message false "Open" "Datei"]]
  epilog := []

/-- The file is chosen, its left leaf is selected and recalled. -/
def recallOnce : List Act := [.choose "a.ts" (.content (some dialogDoc)), .select (.leaf 0),
  .recallItem true]

theorem savesOwnFile_recallOnce : ∃ s, system.exec .initial recallOnce = some s ∧
    s.SavesOwnFile ∧ s.output_doc.map Document.children = some [.element "context" []
      [.element "name" [] [.text "Dialog"], message true "Open" "Datei"]] :=
  ⟨_, rfl, (savesOwnFile_iff (System.reachable_of_exec recallOnce rfl rfl)).mpr
    (fun _ _ hc ↦ by cases hc; exact ⟨_, rfl⟩), rfl⟩

/-- One file is chosen and loads, another is chosen and does not open. -/
def chooseMissing : List Act :=
  [.choose "a.ts" (.content (some dialogDoc)), .choose "b.ts" .openFailed]

/-- **A save can write one file's document under another file's name.** -/
theorem not_savesOwnFile : ¬ ∀ s, system.Reachable s → s.SavesOwnFile := by
  intro h
  have hsaves := h _ (System.reachable_of_exec chooseMissing rfl rfl)
  obtain ⟨langFile, doc, hc, -, -⟩ := hsaves "b.ts.mod.ts" (some (trim dialogDoc)) rfl
  cases hc

end CodeToolKit.TrimTSFile
