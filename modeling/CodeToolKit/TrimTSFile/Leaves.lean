import CodeToolKit.TrimTSFile.Loading

/-!
# What the leaves show

Once a document is loaded, its messages are parted between the two trees, each in document
order (`entries_of_loaded`).  What a leaf shows is another matter: the item above it has
the name that stands last before the message, and the leaf has the first and the last of
the texts that were collected, whatever they are the texts of.

`InPlace` says of a message that this is the name of its context, its source and its
translation.  A message without a translation is not in place, since its leaf shows the
source twice (`not_shown`).
-/

namespace CodeToolKit.TrimTSFile

open Node

/-- The text of the first child with a tag, or no text. -/
def textOf (tag : String) (nodes : List Node) : String :=
  ((nodes.find? (isCI tag)).map content).getD ""

/-- The sources and translations of a message that are read. -/
def langNodes (message : List Node) : List Node := (readFrom message).filter isLang

namespace Placed

/-- What the leaf of a message is meant to show. -/
def shown (p : Placed) : Entry :=
  ⟨textOf "name" p.context, textOf "source" p.message, textOf "translation" p.message⟩

/-- The leaf of a message, once there is one. -/
def leafOf (p : Placed) : Entry :=
  ⟨lastName p.before, (stringLang (readFrom p.message)).head?.getD "",
    (stringLang (readFrom p.message)).getLast?.getD ""⟩

/-- The name before the message reads like that of its context, the first source or
translation read like the source of the message, and the last one like its translation. -/
structure InPlace (p : Placed) : Prop where
  name : lastName p.before = textOf "name" p.context
  source : ∀ n ∈ (langNodes p.message).head?, n.content = textOf "source" p.message
  translation : ∀ n ∈ (langNodes p.message).getLast?, n.content = textOf "translation" p.message

theorem leafOf_of_leafOf? {p : Placed} {itemRoot : Option String} {entry : Entry}
    (h : p.leafOf? itemRoot = some entry) : entry = p.leafOf := by
  unfold leafOf? entry? at h
  split at h
  · rename_i first last _ hfirst hlast
    cases h
    unfold leafOf
    rw [hfirst, hlast]
    rfl
  · cases h

/-- A leaf shows what it is meant to show exactly for a message in place. -/
theorem leafOf_eq_shown {p : Placed} (htext : ∃ n ∈ readFrom p.message, n.isLang) :
    p.leafOf = p.shown ↔ p.InPlace := by
  obtain ⟨n, hn, hlang⟩ := htext
  have hne : langNodes p.message ≠ [] := List.ne_nil_of_mem (List.mem_filter.mpr ⟨hn, hlang⟩)
  have hfirst : (langNodes p.message).head? = some ((langNodes p.message).head hne) :=
    List.head?_eq_some_head hne
  have hlast : (langNodes p.message).getLast? = some ((langNodes p.message).getLast hne) :=
    List.getLast?_eq_some_getLast hne
  have hstrings : stringLang (readFrom p.message) = (langNodes p.message).map content := rfl
  unfold leafOf shown
  rw [hstrings, List.head?_map, List.getLast?_map, hfirst, hlast, Option.map_some, Option.map_some,
    Option.getD_some, Option.getD_some, Entry.mk.injEq]
  constructor
  · rintro ⟨hname, hsource, htranslation⟩
    refine ⟨hname, ?_, ?_⟩
    · intro m hm
      rw [hfirst, Option.mem_some_iff] at hm
      rw [← hm, hsource]
    · intro m hm
      rw [hlast, Option.mem_some_iff] at hm
      rw [← hm, htranslation]
  · intro h
    exact ⟨h.name, h.source _ hfirst, h.translation _ hlast⟩

end Placed

/-- **The leaves of a loaded document.**  Every message has one leaf, on the left when it
has no location and on the right otherwise, in document order. -/
theorem entries_of_loaded {w w' : MainWindow} {langFile : String} {doc : Document}
    (hname : langFile.length ≠ 0)
    (h : w.chooseLangFile langFile (.content (some doc)) = some w') :
    Loads doc ∧
      w'.repeat_treewidget.entries = ((placed doc).filter fun p ↦ !p.located).map Placed.leafOf ∧
      w'.output_treewidget.entries = ((placed doc).filter Placed.located).map Placed.leafOf := by
  rw [MainWindow.chooseLangFile_content hname] at h
  obtain ⟨left, hleft, h⟩ := Option.bind_eq_some_iff.mp h
  obtain ⟨right, hright, rfl⟩ := Option.map_eq_some_iff.mp h
  have hloads : Loads doc := by
    rw [← leaves_iff_loads, hleft, hright]
    exact ⟨rfl, rfl⟩
  rw [repeatRoot_eq] at hleft
  rw [outputEntries_eq] at hright
  exact ⟨hloads, eq_map_of_mapM hleft fun p _ _ ↦ Placed.leafOf_of_leafOf?,
    eq_map_of_mapM hright fun p _ _ ↦ Placed.leafOf_of_leafOf?⟩

/-- Two functions agree on a list when they agree on both parts of it. -/
theorem map_filter_eq_iff {α β : Type} {f g : α → β} {q : α → Bool} {l : List α} :
    ((l.filter fun a ↦ !q a).map f = (l.filter fun a ↦ !q a).map g ∧
      (l.filter q).map f = (l.filter q).map g) ↔ ∀ a ∈ l, f a = g a := by
  rw [List.map_inj_left, List.map_inj_left]
  constructor
  · rintro ⟨hnot, hq⟩ a ha
    cases hqa : q a with
    | false => exact hnot a (List.mem_filter.mpr ⟨ha, by rw [hqa]; rfl⟩)
    | true => exact hq a (List.mem_filter.mpr ⟨ha, hqa⟩)
  · intro h
    exact ⟨fun a ha ↦ h a (List.mem_filter.mp ha).1, fun a ha ↦ h a (List.mem_filter.mp ha).1⟩

/-- **The trees are faithful exactly when every message is in place**: then, and only then,
the left tree shows the messages without a location and the right tree the others, each
under the name of its context and with its source and its translation. -/
theorem shown_iff_inPlace {w w' : MainWindow} {langFile : String} {doc : Document}
    (hname : langFile.length ≠ 0)
    (h : w.chooseLangFile langFile (.content (some doc)) = some w') :
    (w'.repeat_treewidget.entries = ((placed doc).filter fun p ↦ !p.located).map Placed.shown ∧
      w'.output_treewidget.entries = ((placed doc).filter Placed.located).map Placed.shown) ↔
    ∀ p ∈ placed doc, p.InPlace := by
  obtain ⟨hloads, hleft, hright⟩ := entries_of_loaded hname h
  rw [hleft, hright, map_filter_eq_iff]
  apply forall₂_congr
  intro p hp
  apply Placed.leafOf_eq_shown
  apply hloads.text
  rw [← message_placed]
  exact List.mem_map.mpr ⟨p, hp, rfl⟩

/-- The window after `dialogDoc` was chosen. -/
def dialogWindow : MainWindow where
  url_linedit := "a.ts"
  doall_chkbox := false
  repeat_treewidget := ⟨some "TS", [⟨"Dialog", "Open", "Datei"⟩], none⟩
  output_treewidget := ⟨some "TS", [⟨"Dialog", "Open", "?"⟩], none⟩
  output_doc := some (trim dialogDoc)

theorem shown_dialogDoc :
    St.initial.toMainWindow.chooseLangFile "a.ts" (.content (some dialogDoc)) =
        some dialogWindow ∧
      ∀ p ∈ placed dialogDoc, p.InPlace :=
  ⟨rfl, (@shown_iff_inPlace St.initial.toMainWindow dialogWindow "a.ts" dialogDoc (by decide)
    rfl).mp ⟨rfl, rfl⟩⟩

/-- A message without location and translation. -/
def untranslated : Document := { dialogDoc with
  children := [.element "context" [] [.element "name" [] [.text "Dialog"],
    .element "message" [] [.element "source" [] [.text "Open"]]]] }

/-- **A leaf can show the source as the translation.** -/
theorem not_shown : ¬ ∀ (w w' : MainWindow) (langFile : String) (doc : Document),
    langFile.length ≠ 0 → compareCI doc.tagName "ts" →
    w.chooseLangFile langFile (.content (some doc)) = some w' →
    w'.repeat_treewidget.entries = ((placed doc).filter fun p ↦ !p.located).map Placed.shown ∧
      w'.output_treewidget.entries = ((placed doc).filter Placed.located).map Placed.shown := by
  intro h
  have hshown := h St.initial.toMainWindow { dialogWindow with
      repeat_treewidget := ⟨some "TS", [⟨"Dialog", "Open", "Open"⟩], none⟩
      output_treewidget := ⟨some "TS", [], none⟩
      output_doc := some (trim untranslated) } "a.ts" untranslated (by decide) rfl rfl
  exact absurd hshown.1 (by decide)

end CodeToolKit.TrimTSFile
