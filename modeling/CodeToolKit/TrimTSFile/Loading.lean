import CodeToolKit.TrimTSFile.View

/-!
# When a file can be loaded

`prepareRepeatXml` and `prepareOutputXml` share the messages of a document: the first
makes a leaf for every message without a location, the second for every other one, and
both make it in the same way (`leafOf?`).  So each of them is one pass over a part of
`placed`, the messages with what stands before them in their context.

A leaf needs the root item, which only a `ts` root has, and at least one `source` or
`translation` in the part of the message that is read.  `loads_iff` says that a document
is loaded exactly when these are there for every message.
-/

namespace CodeToolKit.TrimTSFile

open Node

/-! ## Making a list of results that may fail -/

section

universe u v

variable {α : Type u} {β : Type v} {f : α → Option β}

/-- All results are there when each of them is. -/
theorem isSome_mapM {l : List α} : (l.mapM f).isSome ↔ ∀ a ∈ l, (f a).isSome := by
  induction l with
  | nil => exact ⟨fun _ ↦ nofun, fun _ ↦ rfl⟩
  | cons a l ih =>
      rw [List.mapM_cons, List.forall_mem_cons, ← ih]
      cases f a with
      | none => exact ⟨nofun, fun h ↦ absurd h.1 Bool.false_ne_true⟩
      | some b =>
          cases l.mapM f with
          | none => exact ⟨nofun, fun h ↦ absurd h.2 Bool.false_ne_true⟩
          | some bs => exact ⟨fun _ ↦ ⟨rfl, rfl⟩, fun _ ↦ rfl⟩

/-- Results that are there, one by one. -/
theorem eq_map_of_mapM {g : α → β} {l : List α} {bs : List β} (h : l.mapM f = some bs)
    (hg : ∀ a ∈ l, ∀ b, f a = some b → b = g a) : bs = l.map g := by
  induction l generalizing bs with
  | nil =>
      cases h
      rfl
  | cons a l ih =>
      rw [List.mapM_cons] at h
      obtain ⟨b, hb, h⟩ := Option.bind_eq_some_iff.mp h
      obtain ⟨bs, hbs, h⟩ := Option.bind_eq_some_iff.mp h
      cases h
      rw [List.map_cons, ← hg a List.mem_cons_self b hb,
        ← ih hbs fun a' ha' ↦ hg a' (List.mem_cons_of_mem _ ha')]

end

/-! ## The messages of a document in their places -/

/-- A message where it stands. -/
structure Placed where
  /-- The children of its context. -/
  context : List Node
  /-- The children of the context before the message. -/
  before : List Node
  /-- The children of the message. -/
  message : List Node

/-- The messages among the children of a context that come after `before`. -/
def placedIn (context : List Node) : List Node → List Node → List Placed
  | _, [] => []
  | before, n :: rest =>
      let later := placedIn context (before ++ [n]) rest
      if n.isCI "message" then ⟨context, before, n.children⟩ :: later else later

/-- The messages of a document. -/
def placed (doc : Document) : List Placed :=
  doc.children.flatMap fun n ↦ if n.isCI "context" then placedIn n.children [] n.children else []

/-- The text of the last name, or no text. -/
def lastName (nodes : List Node) : String :=
  ((nodes.filter (isCI "name")).getLast?.map content).getD ""

/-- What is read of a message: the children from the first location on, or all children
when there is none. -/
def readFrom (message : List Node) : List Node :=
  match firstChildElement "location" message with
  | some (eLoc, rest) => eLoc :: rest
  | none => message

/-- The message has a location, and belongs to the right tree. -/
def Placed.located (p : Placed) : Bool := p.message.any (isNamed "location")

/-- The leaf of a message, with the item above it. -/
def Placed.leafOf? (itemRoot : Option String) (p : Placed) : Option Entry :=
  entry? itemRoot (lastName p.before) (stringLang (readFrom p.message))

theorem lastName_append (nodes : List Node) (n : Node) :
    lastName (nodes ++ [n]) = if n.isCI "name" then n.content else lastName nodes := by
  unfold lastName
  rw [List.filter_append]
  cases hn : n.isCI "name" with
  | true =>
      rw [List.filter_cons_of_pos hn, List.filter_nil, List.getLast?_append]
      rfl
  | false =>
      rw [List.filter_cons_of_neg (by simp [hn]), List.filter_nil, List.append_nil]
      rfl

theorem message_mem_placedIn {context before nodes : List Node} :
    (placedIn context before nodes).map Placed.message = contextMessages nodes := by
  induction nodes generalizing before with
  | nil => rfl
  | cons n nodes ih =>
      rw [placedIn, contextMessages]
      cases hmsg : n.isCI "message" with
      | false =>
          rw [List.filter_cons_of_neg (by simp [hmsg])]
          exact ih
      | true =>
          rw [List.filter_cons_of_pos hmsg, List.map_cons, if_pos rfl, List.map_cons, ih,
            contextMessages]

/-- The messages in their places are the messages. -/
theorem message_placed (doc : Document) : (placed doc).map Placed.message = messages doc := by
  unfold placed messages
  rw [List.map_flatMap]
  apply List.flatMap_congr
  intro n _
  split
  · exact message_mem_placedIn
  · rfl

/-! ## The two loops -/

theorem readFrom_of_not_located {message : List Node}
    (h : firstChildElement "location" message = none) : readFrom message = message := by
  unfold readFrom
  rw [h]

theorem located_of_firstChildElement {context before message : List Node} {found : Node × List Node}
    (h : firstChildElement "location" message = some found) :
    (Placed.mk context before message).located = true := by
  rw [Placed.located]
  by_contra hne
  rw [firstChildElement_eq_none.mpr (by simpa using hne)] at h
  cases h

/-- The loop of `prepareRepeatXml` makes the leaves of the messages without a location. -/
theorem repeatContext_eq (itemRoot : Option String) (context before nodes : List Node) :
    repeatContext itemRoot (lastName before) nodes =
      ((placedIn context before nodes).filter fun p ↦ !p.located).mapM
        (Placed.leafOf? itemRoot) := by
  induction nodes generalizing before with
  | nil => rfl
  | cons n nodes ih =>
      rw [repeatContext, placedIn, ← lastName_append, ih]
      cases hmsg : n.isCI "message" with
      | false => rfl
      | true =>
          have hname : n.isCI "name" = false := not_isCI_name hmsg
          rw [Bool.true_and, if_pos rfl]
          cases hloc : firstChildElement "location" n.children with
          | none =>
              have hp : (!(Placed.mk context before n.children).located) = true := by
                rw [Placed.located, firstChildElement_eq_none.mp hloc]
                rfl
              rw [List.filter_cons_of_pos (p := fun p : Placed ↦ !p.located) hp, List.mapM_cons,
                Placed.leafOf?, readFrom_of_not_located hloc, lastName_append, hname]
              rfl
          | some found =>
              have hp : (Placed.mk context before n.children).located = true :=
                located_of_firstChildElement hloc
              rw [List.filter_cons_of_neg (by simp [hp])]
              rfl

/-- The loop of `prepareOutputXml` makes the leaves of the messages with a location. -/
theorem contextEntries_eq (itemRoot : Option String) (context before nodes : List Node) :
    contextEntries itemRoot (lastName before) nodes =
      ((placedIn context before nodes).filter Placed.located).mapM
        (Placed.leafOf? itemRoot) := by
  induction nodes generalizing before with
  | nil => rfl
  | cons n nodes ih =>
      rw [contextEntries, placedIn, ← lastName_append, ih]
      cases hmsg : n.isCI "message" with
      | false => rfl
      | true =>
          have hname : n.isCI "name" = false := not_isCI_name hmsg
          rw [if_pos rfl, if_pos rfl]
          cases hloc : firstChildElement "location" n.children with
          | none =>
              have hp : (Placed.mk context before n.children).located = false :=
                firstChildElement_eq_none.mp hloc
              rw [List.filter_cons_of_neg (by simp [hp])]
          | some found =>
              have hp : (Placed.mk context before n.children).located = true :=
                located_of_firstChildElement hloc
              have hread : readFrom n.children = found.1 :: found.2 := by
                unfold readFrom
                rw [hloc]
              rw [List.filter_cons_of_pos hp, List.mapM_cons, Placed.leafOf?, hread,
                lastName_append, hname]
              rfl

/-- **The left tree** has the leaves of the messages without a location. -/
theorem repeatRoot_eq (doc : Document) : repeatRoot (itemRoot doc) doc.children =
    ((placed doc).filter fun p ↦ !p.located).mapM (Placed.leafOf? (itemRoot doc)) := by
  unfold placed
  generalize itemRoot doc = root
  induction doc.children with
  | nil => rfl
  | cons n nodes ih =>
      rw [repeatRoot, ih, List.flatMap_cons, List.filter_append, List.mapM_append]
      cases hcontext : n.isCI "context" with
      | false =>
          rw [if_neg Bool.false_ne_true, if_neg Bool.false_ne_true]
          rfl
      | true =>
          rw [if_pos rfl, if_pos rfl, ← repeatContext_eq root n.children []]
          rfl

/-- **The right tree** has the leaves of the others. -/
theorem outputEntries_eq (doc : Document) : outputEntries doc =
    ((placed doc).filter Placed.located).mapM (Placed.leafOf? (itemRoot doc)) := by
  unfold placed outputEntries
  generalize itemRoot doc = root
  induction doc.children with
  | nil => rfl
  | cons n nodes ih =>
      rw [rootEntries, ih, List.flatMap_cons, List.filter_append, List.mapM_append]
      cases hcontext : n.isCI "context" with
      | false =>
          rw [if_neg Bool.false_ne_true, if_neg Bool.false_ne_true]
          rfl
      | true =>
          rw [if_pos rfl, if_pos rfl, ← contextEntries_eq root n.children []]
          rfl

/-! ## When the leaves can be made -/

/-- The document has the root item for its messages, and every message has a source or a
translation where it is read. -/
structure Loads (doc : Document) : Prop where
  root : compareCI doc.tagName "ts" ∨ messages doc = []
  text : ∀ m ∈ messages doc, ∃ n ∈ readFrom m, n.isLang

theorem isSome_entry {root : Option String} {nodeName : String} {strings : List String} :
    ( entry? root nodeName strings).isSome ↔ root.isSome ∧ strings ≠ [] := by
  cases root with
  | none => exact ⟨nofun, fun h ↦ absurd h.1 Bool.false_ne_true⟩
  | some root =>
      cases strings with
      | nil => exact ⟨nofun, fun h ↦ absurd rfl h.2⟩
      | cons first rest =>
          refine ⟨fun _ ↦ ⟨rfl, List.cons_ne_nil _ _⟩, fun _ ↦ ?_⟩
          unfold entry?
          rw [List.head?_cons, List.getLast?_cons]
          rfl

theorem stringLang_ne_nil {nodes : List Node} : stringLang nodes ≠ [] ↔ ∃ n ∈ nodes, n.isLang := by
  unfold stringLang
  rw [ne_eq, List.map_eq_nil_iff, List.filter_eq_nil_iff, not_forall]
  constructor
  · rintro ⟨n, h⟩
    rw [Classical.not_imp, not_not] at h
    exact ⟨n, h⟩
  · rintro ⟨n, hn, hlang⟩
    exact ⟨n, fun h ↦ h hn hlang⟩

theorem itemRoot_isSome {doc : Document} : (itemRoot doc).isSome ↔ compareCI doc.tagName "ts" := by
  unfold itemRoot
  split
  · rename_i h
    exact ⟨fun _ ↦ h, fun _ ↦ rfl⟩
  · rename_i h
    exact ⟨nofun, fun h' ↦ absurd h' h⟩

/-- The leaves of both trees can be made exactly for a document that loads. -/
theorem leaves_iff_loads (doc : Document) :
    (repeatRoot (itemRoot doc) doc.children).isSome ∧ (outputEntries doc).isSome ↔ Loads doc := by
  rw [repeatRoot_eq, outputEntries_eq, isSome_mapM, isSome_mapM]
  have hleaf : ∀ p : Placed, (p.leafOf? (itemRoot doc)).isSome ↔
      compareCI doc.tagName "ts" ∧ ∃ n ∈ readFrom p.message, n.isLang := by
    intro p
    rw [Placed.leafOf?, isSome_entry, itemRoot_isSome, stringLang_ne_nil]
  constructor
  · rintro ⟨hstale, hlive⟩
    have hall : ∀ p ∈ placed doc, compareCI doc.tagName "ts" ∧
        ∃ n ∈ readFrom p.message, n.isLang := by
      intro p hp
      rw [← hleaf]
      cases hloc : p.located with
      | false => exact hstale p (List.mem_filter.mpr ⟨hp, by rw [hloc]; rfl⟩)
      | true => exact hlive p (List.mem_filter.mpr ⟨hp, hloc⟩)
    constructor
    · rw [← message_placed, List.map_eq_nil_iff]
      cases hnil : placed doc with
      | nil => exact .inr rfl
      | cons p ps => exact .inl (hall p (hnil ▸ List.mem_cons_self)).1
    · rw [← message_placed]
      intro m hm
      obtain ⟨p, hp, rfl⟩ := List.mem_map.mp hm
      exact (hall p hp).2
  · intro hloads
    have hall : ∀ p ∈ placed doc, (p.leafOf? (itemRoot doc)).isSome := by
      intro p hp
      have hm : p.message ∈ messages doc := by
        rw [← message_placed]
        exact List.mem_map.mpr ⟨p, hp, rfl⟩
      rw [hleaf]
      refine ⟨hloads.root.resolve_right ?_, hloads.text _ hm⟩
      intro hnil
      rw [hnil] at hm
      cases hm
    exact ⟨fun p hp ↦ hall p (List.mem_filter.mp hp).1, fun p hp ↦ hall p (List.mem_filter.mp hp).1⟩

namespace MainWindow

/-- `prepareRepeatXml` on a file that was opened and parsed. -/
theorem prepareRepeatXml_content {w : MainWindow} (hurl : w.url_linedit.length ≠ 0)
    (doc : Document) :
    w.prepareRepeatXml (.content (some doc)) =
      (repeatRoot (itemRoot doc) doc.children).map fun entries ↦
        { w with repeat_treewidget := ⟨itemRoot doc, entries, none⟩ } := by
  unfold prepareRepeatXml
  rw [if_neg hurl]
  dsimp only
  cases repeatRoot (itemRoot doc) doc.children <;> rfl

/-- A choice of a file with a document: the leaves of both trees, when they can be made. -/
theorem chooseLangFile_content {w : MainWindow} {langFile : String}
    (hname : langFile.length ≠ 0) (doc : Document) :
    w.chooseLangFile langFile (.content (some doc)) =
      (repeatRoot (itemRoot doc) doc.children).bind fun left ↦
        (outputEntries doc).map fun right ↦
          { w with
            url_linedit := langFile
            repeat_treewidget := ⟨itemRoot doc, left, none⟩
            output_treewidget := ⟨itemRoot doc, right, none⟩
            output_doc := some (trim doc) } := by
  unfold chooseLangFile
  rw [if_neg hname, prepareRepeatXml_content hname]
  cases repeatRoot (itemRoot doc) doc.children with
  | none => rfl
  | some left =>
      rw [Option.map_some, Option.bind_eq_bind, Option.bind_some, prepareOutputXml_content hname]
      rfl

end MainWindow

/-- **Loading.**  A chosen file with a document is loaded by both functions exactly when
the document has a `ts` root or no message, and every message has a source or a
translation, after its first location when it has one. -/
theorem loads_iff (w : MainWindow) {langFile : String} (hname : langFile.length ≠ 0)
    (doc : Document) :
    (w.chooseLangFile langFile (.content (some doc))).isSome ↔ Loads doc := by
  rw [← leaves_iff_loads, MainWindow.chooseLangFile_content hname]
  cases repeatRoot (itemRoot doc) doc.children with
  | none => exact ⟨nofun, fun h ↦ absurd h.1 Bool.false_ne_true⟩
  | some left =>
      rw [Option.bind_some, Option.isSome_map]
      exact ⟨fun h ↦ ⟨rfl, h⟩, And.right⟩

/-- A document in TS order loads. -/
theorem TsDocument.loads {doc : Document} (h : TsDocument doc) : Loads doc where
  root := .inl h.root
  text := by
    intro m hm
    have hts := h.message m hm
    rw [← stringLang_ne_nil]
    cases hloc : firstChildElement "location" m with
    | none =>
        obtain ⟨before, sourceAttrs, source, between, _, _, _, rfl, -, -⟩ := hts
        rw [readFrom_of_not_located hloc, stringLang_ne_nil]
        exact ⟨.element "source" sourceAttrs source, by simp, rfl⟩
    | some found =>
        have hread : readFrom m = found.1 :: found.2 := by
          unfold readFrom
          rw [hloc]
        obtain ⟨entry, hentry, -⟩ := @exists_entry_tsOrder doc.tagName "" m _ _ hts hloc
        rw [hread]
        exact (isSome_entry.mp (Option.isSome_iff_exists.mpr ⟨entry, hentry⟩)).2

theorem loads_dialogDoc :
    (St.initial.toMainWindow.chooseLangFile "a.ts" (.content (some dialogDoc))).isSome :=
  (loads_iff _ (by decide) dialogDoc).mpr tsDocument_dialogDoc.loads

/-- A document with a message that is empty. -/
def emptyMessage : Document := { dialogDoc with
  children := [.element "context" [] [.element "message" [] []]] }

/-- **Loading can fail** on a file that is well formed. -/
theorem not_loads : ¬ ∀ (w : MainWindow) (langFile : String) (doc : Document),
    langFile.length ≠ 0 → (w.chooseLangFile langFile (.content (some doc))).isSome := by
  intro h
  exact absurd (h St.initial.toMainWindow "a.ts" emptyMessage (by decide)) (by decide)

/-- So it does when the root has another tag. -/
example : (St.initial.toMainWindow.chooseLangFile "a.ts"
    (.content (some { dialogDoc with tagName := "catalog" }))).isSome = false := by decide

end CodeToolKit.TrimTSFile
