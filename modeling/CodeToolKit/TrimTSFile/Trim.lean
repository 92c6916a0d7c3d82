import CodeToolKit.TrimTSFile.MainWindow
import Mathlib.Data.List.TakeWhile

/-!
# Trimming is a filter

`prepareOutputXml` walks over the children of every context and removes the message it
stands on when that message has no location.  The walk goes on from the handle it read
before the removal, so it skips nothing: what is left are exactly the other children, in
their order (`trim`), and the tree gets one entry for every message that is left
(`outputEntries`).
-/

namespace CodeToolKit.TrimTSFile

open CodeToolKit.Lib Node

/-! ## What is removed, and what is shown -/

/-- A message without a child element `location`. -/
def Node.isStale (n : Node) : Bool :=
  n.isCI "message" && !n.children.any (Node.isNamed "location")

/-- A child of the root element, without the stale messages if it is a context. -/
def trimNode (n : Node) : Node :=
  if n.isCI "context" then n.mapChildren (List.filter fun n ↦ !n.isStale) else n

/-- The document without its stale messages. -/
def trim (doc : Document) : Document := { doc with children := doc.children.map trimNode }

/-- The entries of the messages of a context that have a location. -/
def contextEntries (itemRoot : Option String) (nodeName : String) :
    List Node → Option (List Entry)
  | [] => some []
  | n :: rest =>
      let nodeName := if n.isCI "name" then n.content else nodeName
      if n.isCI "message" then
        match firstChildElement "location" n.children with
        | none => contextEntries itemRoot nodeName rest
        | some (eLoc, after) => do
            let entry ← entry? itemRoot nodeName (stringLang (eLoc :: after))
            let entries ← contextEntries itemRoot nodeName rest
            some (entry :: entries)
      else contextEntries itemRoot nodeName rest

/-- The entries of the children of the root element. -/
def rootEntries (itemRoot : Option String) : List Node → Option (List Entry)
  | [] => some []
  | n :: rest => do
      let entries ← if n.isCI "context" then contextEntries itemRoot "" n.children else some []
      let entries' ← rootEntries itemRoot rest
      some (entries ++ entries')

/-- The entries of a document. -/
def outputEntries (doc : Document) : Option (List Entry) := rootEntries (itemRoot doc) doc.children

/-! ## Nodes that the walk passes over -/

theorem isCI_of_not_isElement {n : Node} (h : n.isElement = false) (name : String) :
    n.isCI name = false := by
  cases n with
  | element => cases h
  | _ => rfl

theorem isStale_of_not_message {n : Node} (h : n.isCI "message" = false) : n.isStale = false := by
  rw [Node.isStale, h, Bool.false_and]

theorem firstChildElement_eq_none {name : String} {children : List Node} :
    firstChildElement name children = none ↔ children.any (Node.isNamed name) = false := by
  unfold firstChildElement
  rw [List.any_eq_false]
  cases hd : children.dropWhile fun n ↦ !n.isNamed name with
  | nil =>
      rw [List.dropWhile_eq_nil_iff] at hd
      simpa using hd
  | cons n rest =>
      -- the first child that is left does have the name
      have hn : n.isNamed name = true := by
        have := List.head?_dropWhile_not (fun n ↦ !n.isNamed name) children
        rw [hd] at this
        simpa using this
      have hmem : n ∈ children :=
        (List.dropWhile_sublist _).subset (hd ▸ List.mem_cons_self)
      simpa using ⟨n, hmem, hn⟩

/-- A message is stale when it has no location. -/
theorem isStale_of_message {n : Node} (h : n.isCI "message" = true) :
    n.isStale = (firstChildElement "location" n.children).isNone := by
  rw [Node.isStale, h, Bool.true_and]
  cases hloc : firstChildElement "location" n.children with
  | none =>
      rw [firstChildElement_eq_none.mp hloc]
      rfl
  | some found =>
      by_contra hne
      rw [firstChildElement_eq_none.mpr (by simpa using hne)] at hloc
      cases hloc

theorem contextEntries_skip {itemRoot : Option String} {nodeName : String} {skipped : List Node}
    (h : ∀ n ∈ skipped, n.isElement = false) (rest : List Node) :
    contextEntries itemRoot nodeName (skipped ++ rest) = contextEntries itemRoot nodeName rest := by
  induction skipped with
  | nil => rfl
  | cons n skipped ih =>
      have hn := isCI_of_not_isElement (h n List.mem_cons_self)
      rw [List.cons_append, contextEntries, hn, hn]
      exact ih fun m hm ↦ h m (List.mem_cons_of_mem _ hm)

theorem filter_stale_of_not_isElement {nodes : List Node} (h : ∀ n ∈ nodes, n.isElement = false) :
    nodes.filter (fun n ↦ !n.isStale) = nodes := by
  rw [List.filter_eq_self]
  intro n hn
  rw [isStale_of_not_message (isCI_of_not_isElement (h n hn) _), Bool.not_false]

/-! ## The walk -/

/-- A walk that ends leaves the children as they are, and none of those ahead has an
entry or is removed. -/
theorem outputContext_stop {itemRoot : Option String} {ele : Siblings Node} {nodeName : String}
    {entries : List Entry} {behind ahead : List (ℕ × Node)} (hs : ele.nodes = behind ++ ahead)
    (hno : ∀ n ∈ ahead, n.2.isElement = false) :
    some (ele.toList, entries) =
      (contextEntries itemRoot nodeName (ahead.map Prod.snd)).map fun new ↦
        (behind.map Prod.snd ++ (ahead.map Prod.snd).filter (fun n ↦ !n.isStale),
          entries ++ new) := by
  have hno' : ∀ n ∈ ahead.map Prod.snd, n.isElement = false := List.forall_mem_map.mpr hno
  have hentries := @contextEntries_skip itemRoot nodeName _ hno' []
  rw [List.append_nil] at hentries
  rw [hentries, filter_stale_of_not_isElement hno', Siblings.toList, hs, List.map_append]
  show _ = some (_, entries ++ [])
  rw [List.append_nil]

/-- **The walk** over the children of a context keeps what is behind it, filters what is
ahead, and adds the entries of what is ahead. -/
theorem outputContext_eq {itemRoot : Option String} {fuel : ℕ} {ele : Siblings Node}
    {nodeName : String} {entries : List Entry} {behind ahead : List (ℕ × Node)} {e : Option ℕ}
    (hc : ele.Cursor isElement behind ahead e) (hfuel : ahead.length ≤ fuel) :
    (outputContext itemRoot fuel ele nodeName entries e).map (fun r ↦ (r.1.toList, r.2)) =
      (contextEntries itemRoot nodeName (ahead.map Prod.snd)).map fun new ↦
        (behind.map Prod.snd ++ (ahead.map Prod.snd).filter (fun n ↦ !n.isStale),
          entries ++ new) := by
  induction fuel generalizing ele nodeName entries behind ahead e with
  | zero =>
      have hnil : ahead = [] := List.length_eq_zero_iff.mp (Nat.le_zero.mp hfuel)
      subst hnil
      exact outputContext_stop hc.split nofun
  | succ fuel ih =>
      cases e with
      | none => exact outputContext_stop hc.split hc.stop
      | some e =>
          obtain ⟨skipped, a, rest, rfl, hskipped, ha, hget, hmove, hremove⟩ := hc.step
          have hrest : rest.length ≤ fuel := by
            simp only [List.length_append, List.length_cons] at hfuel
            omega
          have hskipped' : ∀ n ∈ skipped.map Prod.snd, n.isElement = false :=
            List.forall_mem_map.mpr hskipped
          rw [List.map_append, List.map_cons, contextEntries_skip hskipped', List.filter_append,
            filter_stale_of_not_isElement hskipped']
          rw [outputContext, hget, Option.getD_some, contextEntries]
          generalize (if a.isCI "name" then a.content else nodeName) = nodeName'
          cases hmsg : a.isCI "message" with
          | false =>
              -- not a message: it stays
              rw [if_neg Bool.false_ne_true, if_neg Bool.false_ne_true, ih hmove hrest,
                List.filter_cons_of_pos (by simp [isStale_of_not_message hmsg])]
              simp
          | true =>
              rw [if_pos rfl, if_pos rfl]
              cases hloc : firstChildElement "location" a.children with
              | none =>
                  -- a message without a location: it is removed behind the walk
                  have hstale : a.isStale = true := by
                    rw [isStale_of_message hmsg, hloc]
                    rfl
                  dsimp only
                  rw [ih hremove hrest, List.filter_cons_of_neg (by simp [hstale])]
                  simp
              | some found =>
                  -- a message with a location: it stays and has an entry
                  have hstale : a.isStale = false := by
                    rw [isStale_of_message hmsg, hloc]
                    rfl
                  dsimp only
                  cases entry? itemRoot nodeName' (stringLang (found.1 :: found.2)) with
                  | none => rfl
                  | some entry =>
                      dsimp only
                      rw [ih hmove hrest, List.filter_cons_of_pos (by simp [hstale])]
                      cases contextEntries itemRoot nodeName' (rest.map Prod.snd) <;> simp

/-- The loop over the children of the root element trims them and makes their entries. -/
theorem outputRoot_eq (itemRoot : Option String) (nodes : List Node) :
    outputRoot itemRoot nodes =
      (rootEntries itemRoot nodes).map fun entries ↦ (nodes.map trimNode, entries) := by
  induction nodes with
  | nil => rfl
  | cons n nodes ih =>
      cases n with
      | element tagName attributes children =>
          rw [outputRoot, rootEntries, ih]
          cases hcontext : compareCI tagName "context" with
          | false =>
              have hn : (Node.element tagName attributes children).isCI "context" = false :=
                hcontext
              rw [hn]
              cases rootEntries itemRoot nodes <;> simp [trimNode, isCI, hcontext]
          | true =>
              have hn : (Node.element tagName attributes children).isCI "context" = true :=
                hcontext
              have hwalk := @outputContext_eq itemRoot children.length _ "" [] _ _ _
                (Siblings.Cursor.start (Siblings.ofList children) isElement)
                (by simp [Siblings.ofList])
              have hlist : (Siblings.ofList children).nodes.map Prod.snd = children :=
                Siblings.toList_ofList children
              rw [hlist] at hwalk
              rw [hn, if_pos rfl, if_pos rfl]
              dsimp only
              rw [hwalk]
              show _ = Option.map _ (contextEntries itemRoot "" children >>= _)
              cases contextEntries itemRoot "" children <;>
                cases rootEntries itemRoot nodes <;> simp [trimNode, isCI, hcontext, mapChildren]
      | text | cdataSection | comment | processingInstruction | entityReference
      | documentType =>
          rw [outputRoot, rootEntries, ih]
          · cases rootEntries itemRoot nodes <;> simp [trimNode, isCI]
          · exact nofun

namespace MainWindow

/-- `prepareOutputXml` on a file that was opened and parsed. -/
theorem prepareOutputXml_content {w : MainWindow} (hurl : w.url_linedit.length ≠ 0)
    (doc : Document) :
    w.prepareOutputXml (.content (some doc)) = (outputEntries doc).map fun entries ↦
      { w with
        output_treewidget := ⟨itemRoot doc, entries, none⟩, output_doc := some (trim doc) } := by
  unfold prepareOutputXml outputEntries
  rw [if_neg hurl]
  dsimp only
  rw [outputRoot_eq]
  cases rootEntries (itemRoot doc) doc.children <;> rfl

end MainWindow

/-! ## Trimming twice -/

theorem contextEntries_filter (itemRoot : Option String) (nodeName : String)
    (nodes : List Node) :
    contextEntries itemRoot nodeName (nodes.filter fun n ↦ !n.isStale) =
      contextEntries itemRoot nodeName nodes := by
  induction nodes generalizing nodeName with
  | nil => rfl
  | cons n nodes ih =>
      cases hstale : n.isStale with
      | false =>
          rw [List.filter_cons_of_pos (by simp [hstale]), contextEntries, contextEntries]
          simp only [ih]
      | true =>
          -- a stale message has no entry and is not a `name`
          rw [List.filter_cons_of_neg (by simp [hstale]), ih, contextEntries]
          rw [Node.isStale, Bool.and_eq_true, Bool.not_eq_true'] at hstale
          have hname : n.isCI "name" = false := by
            cases n with
            | element tagName _ _ =>
                by_contra hname
                have heq := compareCI_unique hstale.1 (Bool.not_eq_false _ ▸ hname)
                exact absurd heq (by decide)
            | _ => rfl
          rw [hname, hstale.1, firstChildElement_eq_none.mpr hstale.2]
          rfl

theorem outputEntries_trim (doc : Document) : outputEntries (trim doc) = outputEntries doc := by
  show rootEntries (itemRoot doc) (doc.children.map trimNode) =
    rootEntries (itemRoot doc) doc.children
  induction doc.children with
  | nil => rfl
  | cons n nodes ih =>
      rw [List.map_cons, rootEntries, rootEntries, ih]
      cases n with
      | element tagName attributes children =>
          cases hcontext : compareCI tagName "context" with
          | false => simp [trimNode, isCI, hcontext]
          | true =>
              simp [trimNode, hcontext, isCI, mapChildren, Node.children, contextEntries_filter]
      | _ => rfl

/-- Trimming is idempotent. -/
theorem trim_trim (doc : Document) : trim (trim doc) = trim doc := by
  unfold trim
  rw [List.map_map]
  congr 1
  apply List.map_congr_left
  intro n _
  cases n with
  | element tagName attributes children =>
      cases hcontext : compareCI tagName "context" with
      | false => simp [trimNode, isCI, hcontext]
      | true => simp [trimNode, isCI, hcontext, mapChildren]
  | _ => rfl

/-- **Trimming is exactly a filter.**  When `prepareOutputXml` runs to its end on a
document, `output_doc` is the document without its stale messages, and on the trimmed
document it runs to its end as well and changes nothing. -/
theorem prepareOutputXml_eq_trim {w w' : MainWindow} {doc : Document}
    (hurl : w.url_linedit.length ≠ 0) (h : w.prepareOutputXml (.content (some doc)) = some w') :
    w'.output_doc = some (trim doc) ∧
      w.prepareOutputXml (.content (some (trim doc))) = some w' := by
  rw [MainWindow.prepareOutputXml_content hurl] at h ⊢
  rw [outputEntries_trim, trim_trim]
  obtain ⟨entries, hentries, rfl⟩ := Option.map_eq_some_iff.mp h
  rw [hentries]
  exact ⟨rfl, rfl⟩

/-- A context with a stale message at both ends and in a row, and comments between. -/
def sampleDoc : Document where
  prolog := [.documentType "TS"]
  tagName := "TS"
  attributes := [("version", "2.0")]
  children := [.comment "head", .element "context" [] [
    .element "message" [] [.element "source" [] [.text "a"]],
    .comment "one",
    .element "Message" [] [],
    .element "name" [] [.text "Dialog"],
    .element "message" [] [.element "location" [("line", "7")] [],
      .element "source" [] [.text "b"], .element "translation" [] [.text "B"]],
    .comment "two",
    .element "message" [] []]]
  epilog := []

/-- A window with a file name in its text field. -/
def named : MainWindow := { St.initial.toMainWindow with url_linedit := "x.ts" }

theorem prepareOutputXml_sampleDoc :
    ∃ w', named.prepareOutputXml (.content (some sampleDoc)) = some w' ∧
      w'.output_doc = some (trim sampleDoc) ∧
      (trim sampleDoc).children = [.comment "head",
        .element "context" [] [.comment "one", .element "name" [] [.text "Dialog"],
          .element "message" [] [.element "location" [("line", "7")] [],
            .element "source" [] [.text "b"], .element "translation" [] [.text "B"]],
          .comment "two"]] :=
  ⟨_, rfl, (prepareOutputXml_eq_trim (w := named) (by decide) rfl).1, rfl⟩

end CodeToolKit.TrimTSFile
