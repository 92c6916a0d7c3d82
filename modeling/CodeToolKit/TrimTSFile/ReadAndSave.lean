import CodeToolKit.TrimTSFile.Trim

/-!
# `readAndSave`

The first form of the program: it reads the file, removes the stale messages and writes the rest,
all in one function.  Its loop is that of `prepareOutputXml` without the tree, so that it writes
what a save writes after the file was chosen (`readAndSave_eq`).

The files are a part of the model here.  How Qt parses and writes a document is a parameter.
-/

namespace CodeToolKit.TrimTSFile

open CodeToolKit.Lib Node

/-! ## The files -/

/-- `QDomDocument`, between its text and its nodes. -/
structure QDom where
  /-- `setContent`: the document, which may be null, or an error. -/
  setContent : List UInt8 → Option (Option Document)
  /-- `save`. -/
  save : Option Document → List UInt8

/-- The files that can be opened for reading, and whether one can be opened for writing. -/
structure Disk where
  files : String → Option (List UInt8)
  writable : String → Bool

namespace Disk

/-- The file is opened and parsed. -/
def read (q : QDom) (d : Disk) (name : String) : FileResult :=
  match d.files name with
  | none => .openFailed
  | some bytes =>
      match q.setContent bytes with
      | none => .malformed
      | some doc => .content doc

theorem read_eq {q : QDom} {d : Disk} {name : String} {bytes : List UInt8} {doc : Option Document}
    (hfile : d.files name = some bytes) (hparse : q.setContent bytes = some doc) :
    d.read q name = .content doc := by
  rw [read, hfile]
  dsimp only
  rw [hparse]

/-- A document is written, if there is one to write and its file can be opened. -/
def write (q : QDom) (d : Disk) : Option (String × Option Document) → Disk
  | none => d
  | some (name, doc) =>
      if d.writable name then { d with files := Function.update d.files name (some (q.save doc)) }
      else d

end Disk

/-! ## The function -/

/-- The loop over the children of a context `ele`, with the handle `e` of the child it stands on. -/
def removeContext : ℕ → Siblings Node → Option ℕ → Siblings Node
  | 0, ele, _ => ele
  | _ + 1, ele, none => ele
  | fuel + 1, ele, some e =>
      let node := (ele.get? e).getD (.text "")
      if node.isCI "message" then
        match firstChildElement "location" node.children with
        | none =>
            let temp := e
            let e := ele.next e isElement
            removeContext fuel (ele.remove temp) e
        | some _ => removeContext fuel ele (ele.next e isElement)
      else removeContext fuel ele (ele.next e isElement)

/-- The loop over the children of the root element. -/
def removeRoot : List Node → List Node
  | [] => []
  | .element tagName attributes children :: rest =>
      let children := if compareCI tagName "context" then
          let ele := Siblings.ofList children
          (removeContext children.length ele (ele.first isElement)).toList
        else children
      .element tagName attributes children :: removeRoot rest
  | node :: rest => node :: removeRoot rest

/-- `readAndSave`, where the file it opens holds `file`: the name and the content of the file it
writes. -/
def MainWindow.readAndSave (w : MainWindow) (file : FileResult) :
    Option (String × Option Document) :=
  if w.url_linedit.length = 0 then none
  else
    match file with
    | .openFailed | .malformed | .content none => none
    | .content (some doc) =>
        some (w.url_linedit ++ ".mod.ts", some { doc with children := removeRoot doc.children })

/-! ## The loops -/

/-- **The walk** keeps what is behind it, and filters what is ahead. -/
theorem removeContext_eq {fuel : ℕ} {ele : Siblings Node} {behind ahead : List (ℕ × Node)}
    {e : Option ℕ} (hc : ele.Cursor isElement behind ahead e) (hfuel : ahead.length ≤ fuel) :
    (removeContext fuel ele e).toList =
      behind.map Prod.snd ++ (ahead.map Prod.snd).filter fun n ↦ !n.isStale := by
  -- a walk that ends has only nodes ahead that are no elements
  have hstop : ∀ {ele : Siblings Node} {behind ahead : List (ℕ × Node)},
      ele.nodes = behind ++ ahead → (∀ n ∈ ahead, n.2.isElement = false) →
      ele.toList = behind.map Prod.snd ++ (ahead.map Prod.snd).filter fun n ↦ !n.isStale := by
    intro ele behind ahead hs hno
    rw [filter_stale_of_not_isElement (List.forall_mem_map.mpr hno), Siblings.toList, hs,
      List.map_append]
  induction fuel generalizing ele behind ahead e with
  | zero =>
      have hnil : ahead = [] := List.length_eq_zero_iff.mp (Nat.le_zero.mp hfuel)
      subst hnil
      exact hstop hc.split fun n hn ↦ absurd hn List.not_mem_nil
  | succ fuel ih =>
      cases e with
      | none => exact hstop hc.split hc.stop
      | some e =>
          obtain ⟨skipped, a, rest, rfl, hskipped, ha, hget, hmove, hremove⟩ := hc.step
          have hrest : rest.length ≤ fuel := by
            simp only [List.length_append, List.length_cons] at hfuel
            omega
          have hskipped' : ∀ n ∈ skipped.map Prod.snd, n.isElement = false :=
            List.forall_mem_map.mpr hskipped
          rw [List.map_append, List.map_cons, List.filter_append,
            filter_stale_of_not_isElement hskipped', removeContext, hget, Option.getD_some]
          cases hmsg : a.isCI "message" with
          | false =>
              -- not a message: it stays
              rw [if_neg Bool.false_ne_true, ih hmove hrest,
                List.filter_cons_of_pos (by simp [isStale_of_not_message hmsg])]
              simp
          | true =>
              rw [if_pos rfl]
              cases hloc : firstChildElement "location" a.children with
              | none =>
                  -- a message without a location: it is removed behind the walk
                  have hstale : a.isStale = true := by
                    rw [isStale_of_message hmsg, hloc]
                    rfl
                  dsimp only
                  rw [ih hremove hrest, List.filter_cons_of_neg (by simp [hstale])]
                  simp
              | some found =>
                  -- a message with a location: it stays
                  have hstale : a.isStale = false := by
                    rw [isStale_of_message hmsg, hloc]
                    rfl
                  dsimp only
                  rw [ih hmove hrest, List.filter_cons_of_pos (by simp [hstale])]
                  simp

/-- The loops trim the document. -/
theorem removeRoot_eq (nodes : List Node) : removeRoot nodes = nodes.map trimNode := by
  induction nodes with
  | nil => rfl
  | cons n nodes ih =>
      cases n with
      | element tagName attributes children =>
          have hwalk := @removeContext_eq children.length _ _ _ _
            (Siblings.Cursor.start (Siblings.ofList children) isElement)
            (by simp [Siblings.ofList])
          have hlist : (Siblings.ofList children).nodes.map Prod.snd = children :=
            Siblings.toList_ofList children
          rw [hlist, List.map_nil, List.nil_append] at hwalk
          rw [removeRoot, ih, hwalk, List.map_cons]
          cases hcontext : compareCI tagName "context" with
          | false => simp [trimNode, isCI, hcontext]
          | true => simp [trimNode, isCI, hcontext, mapChildren]
      | text | cdataSection | comment | processingInstruction | entityReference
      | documentType =>
          rw [removeRoot, ih]
          · rfl
          · intro _ _ _ h
            cases h

namespace MainWindow

variable {w w' : MainWindow} {doc : Document}

theorem readAndSave_content (hurl : w.url_linedit.length ≠ 0) (doc : Document) :
    w.readAndSave (.content (some doc)) =
      some (w.url_linedit ++ ".mod.ts", some (trim doc)) := by
  rw [readAndSave, if_neg hurl, removeRoot_eq]
  rfl

/-- After the file was loaded a save writes its trimmed document. -/
theorem trimLangFileContext_loaded (hurl : w.url_linedit.length ≠ 0)
    (h : w.prepareOutputXml (.content (some doc)) = some w') :
    w'.trimLangFileContext = some (w.url_linedit ++ ".mod.ts", some (trim doc)) := by
  rw [prepareOutputXml_content hurl] at h
  obtain ⟨entries, -, rfl⟩ := Option.map_eq_some_iff.mp h
  exact if_neg hurl

/-- The window has just loaded a file, alone or when it was chosen; nothing was recalled. -/
inductive JustLoaded (langFile : String) (file : FileResult) (w' : MainWindow) : Prop
  | prepared {w : MainWindow} :
      w.url_linedit = langFile → w.prepareOutputXml file = some w' → JustLoaded langFile file w'
  | chosen {w : MainWindow} :
      w.chooseLangFile langFile file = some w' → JustLoaded langFile file w'

/-- A file that is chosen is loaded from a window with its name. -/
theorem JustLoaded.exists_prepared {langFile : String} (hname : langFile.length ≠ 0)
    (h : JustLoaded langFile (.content (some doc)) w') :
    ∃ w : MainWindow, w.url_linedit = langFile ∧
      w.prepareOutputXml (.content (some doc)) = some w' := by
  cases h with
  | prepared hurl houtput => exact ⟨_, hurl, houtput⟩
  | chosen h =>
      rw [chooseLangFile, if_neg hname] at h
      obtain ⟨w, hrepeat, houtput⟩ := Option.bind_eq_some_iff.mp h
      refine ⟨w, ?_, houtput⟩
      rw [prepareRepeatXml, if_neg hname] at hrepeat
      obtain ⟨entries, -, heq⟩ := Option.bind_eq_some_iff.mp hrepeat
      rw [← Option.some.inj heq]

end MainWindow

/-! ## Both saves -/

theorem append_mod_ne (name : String) : name ++ ".mod.ts" ≠ name := by
  intro h
  have hlength := congrArg String.length h
  have hmod : ".mod.ts".length = 7 := rfl
  rw [String.length_append] at hlength
  omega

/-- A save next to a file leaves the file as it is. -/
theorem Disk.files_write (q : QDom) (d : Disk) (name : String) (doc : Option Document) :
    (d.write q (some (name ++ ".mod.ts", doc))).files name = d.files name := by
  rw [Disk.write]
  split
  · exact Function.update_of_ne (append_mod_ne name).symm ..
  · rfl

/-- **Both saves write the same document to the same file**, and leave the file as it is that they
were made from. -/
theorem readAndSave_eq {q : QDom} {d : Disk} {langFile : String} {doc : Document}
    (hname : langFile.length ≠ 0) (hread : d.read q langFile = .content (some doc))
    {w w' : MainWindow} (hw : w.url_linedit = langFile)
    (hw' : w'.JustLoaded langFile (d.read q langFile)) :
    w.readAndSave (d.read q langFile) = w'.trimLangFileContext ∧
      (d.write q (w.readAndSave (d.read q langFile))).files langFile = d.files langFile ∧
      (d.write q w'.trimLangFileContext).files langFile = d.files langFile := by
  rw [hread] at hw' ⊢
  obtain ⟨w₀, hurl, houtput⟩ := hw'.exists_prepared hname
  have hsaved := MainWindow.trimLangFileContext_loaded (hurl ▸ hname) houtput
  have hwritten := MainWindow.readAndSave_content (hw ▸ hname) doc
  rw [hsaved, hwritten, hurl, hw]
  exact ⟨rfl, d.files_write q langFile _, d.files_write q langFile _⟩

/-- The bytes of an ASCII text. -/
def bytes (text : String) : List UInt8 := text.toList.map Char.toUInt8

/-- A context with one message, which is stale. -/
def staleText : String :=
  "<TS><context><message><source>a</source></message></context></TS>"

/-- Its document. -/
def staleDoc : Document where
  prolog := []
  tagName := "TS"
  attributes := []
  children := [.element "context" []
    [.element "message" [] [.element "source" [] [.text "a"]]]]
  epilog := []

/-- What Qt makes of it, and of the document without the message. -/
def staleQDom : QDom where
  setContent content := if content = bytes staleText then some (some staleDoc) else none
  save _ := bytes ("<?xml version=\"1.0\" encoding=\"UTF-8\"?>\n" ++
    "<TS>\n    <context/>\n</TS>\n")

/-- The only file. -/
def staleDisk : Disk where
  files name := if name = "a.ts" then some (bytes staleText) else none
  writable _ := true

theorem readAndSave_stale :
    ∃ w', named.chooseLangFile "a.ts" (staleDisk.read staleQDom "a.ts") = some w' ∧
      w'.readAndSave (staleDisk.read staleQDom "a.ts") = w'.trimLangFileContext := by
  have hfile : staleDisk.files "a.ts" = some (bytes staleText) := by simp [staleDisk]
  have hparse : staleQDom.setContent (bytes staleText) = some (some staleDoc) := by
    simp [staleQDom]
  have hread := Disk.read_eq hfile hparse
  obtain ⟨w', hchosen, hurl⟩ : ∃ w',
      named.chooseLangFile "a.ts" (staleDisk.read staleQDom "a.ts") = some w' ∧
        w'.url_linedit = "a.ts" := by
    rw [hread]
    refine ⟨_, rfl, ?_⟩
    rfl
  exact ⟨w', hchosen, (readAndSave_eq (by decide) hread hurl (.chosen hchosen)).1⟩

end CodeToolKit.TrimTSFile
