import CodeToolKit.TrimTSFile.Saved

/-!
# The right tree and the document

A recall writes a translation twice.  In the tree it goes to the first leaf with the
source and the context of the item whose translation is not empty.  In `output_doc` it
goes to every message with the source, in every context that has no differing name
before the message, and only into the first child of the translation, if that is a node
with a value.  Two messages with one source in one context are enough for the two to part
(`not_inStep`).

`KeepsMessage` says for one message when a recall writes the same text to its leaf and to
its translation.  In every run whose recalls satisfy it for all messages, the leaves show
the texts of the document: `inStep_of_reachable`.
-/

namespace CodeToolKit.TrimTSFile

open CodeToolKit.Lib Node

/-! ## Messages -/

/-- The children of the messages of a context. -/
def contextMessages (nodes : List Node) : List (List Node) :=
  (nodes.filter (isCI "message")).map Node.children

/-- The children of the messages of a document. -/
def messages (doc : Document) : List (List Node) :=
  doc.children.flatMap fun n ↦ if n.isCI "context" then contextMessages n.children else []

/-- The children of the first child element with a name. -/
def childNamed (name : String) (children : List Node) : List Node :=
  match firstChildElement name children with
  | some (n, _) => n.children
  | none => []

/-- The text of the translation of a message. -/
def translationText (message : List Node) : String := contents (childNamed "translation" message)

/-- A `source` or `translation` element, in any case. -/
def Node.isLang (n : Node) : Bool := n.isCI "source" || n.isCI "translation"

/-- The children of a message have exactly one source and one translation, in this order
and after the locations. -/
def InTsOrder (message : List Node) : Prop :=
  ∃ before sourceAttrs source between translationAttrs translation after,
    message = before ++ .element "source" sourceAttrs source :: (between ++
      .element "translation" translationAttrs translation :: after) ∧
    (∀ n ∈ before, n.isLang = false) ∧
    ∀ n ∈ between ++ after, n.isLang = false ∧ n.isNamed "location" = false

/-- A document with a TS root in which every message is in TS order. -/
structure TsDocument (doc : Document) : Prop where
  root : compareCI doc.tagName "ts"
  message : ∀ m ∈ messages doc, InTsOrder m

/-- Every leaf shows the text of the translation of its message. -/
def St.InStep (s : St) : Prop :=
  s.output_treewidget.entries.map Entry.translation =
    ((s.output_doc.map messages).getD []).map translationText

/-! ## What a recall reaches -/

/-- The messages of a context, with whether the loop of a recall comes to them: it leaves
the context at a differing name. -/
def reachedMessages (name : String) : Bool → List Node → List (Bool × List Node)
  | _, [] => []
  | reached, n :: rest =>
      let reached := reached && !(n.isCI "name" && n.content ≠ name)
      if n.isCI "message" then (reached, n.children) :: reachedMessages name reached rest
      else reachedMessages name reached rest

/-- The messages of a document, with whether a recall comes to them. -/
def reachedIn (name : String) (doc : Document) : List (Bool × List Node) :=
  doc.children.flatMap fun n ↦
    if n.isCI "context" then reachedMessages name true n.children else []

/-- The text a translation begins with, when its first child is text or CDATA. -/
def leadingData : List Node → Option String
  | .text data :: _ | .cdataSection data :: _ => some data
  | _ => none

/-- The recall writes the same to the translation of a message and to its leaf.  When the
loop comes to the message and the translation begins with text, that text is replaced: the
leaf has to be the selected one and to show no other text, or the text is the same already.
Otherwise the translation stays as it is. -/
def KeepsMessage (r : Recall) (selected : Prop) (reached : Bool) (message : List Node) : Prop :=
  let translation := childNamed "translation" message
  match if reached && contents (childNamed "source" message) = r.source then
      leadingData translation else none with
  | some data => (selected → contents translation.tail = "") ∧ (¬ selected → data = r.value)
  | none => selected → contents translation = r.value

/-- The recall of an item keeps every leaf in step with its message. -/
def St.RecallAgrees (s : St) (item : ItemRef) : Prop :=
  ∀ r doc, s.recallOf item = some r → s.output_doc = some doc →
    ∀ i reached message, (reachedIn r.name doc)[i]? = some (reached, message) →
      KeepsMessage r (s.findRightItem item = some i) reached message

/-- Only documents in TS order are loaded. -/
def OnlyTs (_ : St) : Act → Prop
  | .choose langFile file =>
      langFile.length = 0 ∨ ∃ doc, file = .content (some doc) ∧ TsDocument doc
  | _ => True

/-- Only documents in TS order are loaded, and every recall agrees. -/
def RecallsAgree (s : St) (a : Act) : Prop :=
  OnlyTs s a ∧ match a with
    | .recallItem _ => ∀ item, s.repeat_treewidget.currentItem = some item → s.RecallAgrees item
    | .next => ∀ item rest, s.it = item :: rest → s.RecallAgrees item
    | _ => True

/-! ## One message -/

theorem isLang_of_isNamed {n : Node} {name : String}
    (hname : name = "source" ∨ name = "translation")
    (h : n.isNamed name) : n.isLang = true := by
  cases n with
  | element tagName _ _ =>
      have htag : tagName = name := of_decide_eq_true h
      subst htag
      rcases hname with rfl | rfl <;> rfl
  | _ => cases h

theorem isNamed_of_not_isLang {n : Node} {name : String}
    (hname : name = "source" ∨ name = "translation") (h : n.isLang = false) :
    n.isNamed name = false := by
  by_contra hne
  rw [isLang_of_isNamed hname (by simpa using hne)] at h
  cases h

/-- The first element with a name is found behind a part without it. -/
theorem childNamed_append {name : String} {before : List Node}
    (h : ∀ n ∈ before, n.isNamed name = false)
    (attrs : Attrs) (children rest : List Node) :
    childNamed name (before ++ .element name attrs children :: rest) = children := by
  have hbefore : ∀ n ∈ before, (!n.isNamed name) = true := by
    intro n hn
    rw [h n hn, Bool.not_false]
  have hself : (Node.element name attrs children).isNamed name = true := decide_eq_true rfl
  unfold childNamed firstChildElement
  rw [List.dropWhile_append_of_pos hbefore, List.dropWhile_cons_of_neg (by simp [hself])]
  rfl

/-- The translation of a message in TS order. -/
theorem childNamed_translation {before between after : List Node} {sourceAttrs attrs : Attrs}
    {src translation : List Node} (hbefore : ∀ n ∈ before, n.isLang = false)
    (hbetween : ∀ n ∈ between, n.isLang = false) :
    childNamed "translation" (before ++ .element "source" sourceAttrs src ::
      (between ++ .element "translation" attrs translation :: after)) = translation := by
  have hnot : ∀ n ∈ before ++ .element "source" sourceAttrs src :: between,
      n.isNamed "translation" = false := by
    intro n hn
    rw [List.mem_append, List.mem_cons] at hn
    rcases hn with hn | rfl | hn
    · exact isNamed_of_not_isLang (.inr rfl) (hbefore n hn)
    · rfl
    · exact isNamed_of_not_isLang (.inr rfl) (hbetween n hn)
  have hfound := childNamed_append hnot attrs translation after
  rwa [List.append_assoc, List.cons_append] at hfound

theorem isNamed_element (name : String) (attrs : Attrs) (children : List Node) :
    (Node.element name attrs children).isNamed name = true := decide_eq_true rfl

theorem writeTranslation_append {value : String} {before : List Node}
    (h : ∀ n ∈ before, n.isNamed "translation" = false) (attrs : Attrs)
    (children rest : List Node) :
    writeTranslation value (before ++ .element "translation" attrs children :: rest) =
      before ++ .element "translation" attrs (setFirstValue value children) :: rest := by
  induction before with
  | nil =>
      rw [List.nil_append, writeTranslation, if_pos (isNamed_element _ _ _)]
      rfl
  | cons n before ih =>
      rw [List.cons_append, writeTranslation, h n List.mem_cons_self, if_neg Bool.false_ne_true,
        ih fun m hm ↦ h m (List.mem_cons_of_mem _ hm)]
      rfl

theorem recallMessage_skip {source value : String} {before : List Node}
    (h : ∀ n ∈ before, n.isNamed "source" = false) (rest : List Node) :
    recallMessage source value (before ++ rest) = before ++ recallMessage source value rest := by
  induction before with
  | nil => rfl
  | cons n before ih =>
      rw [List.cons_append, recallMessage, h n List.mem_cons_self, Bool.false_and,
        if_neg Bool.false_ne_true, ih fun m hm ↦ h m (List.mem_cons_of_mem _ hm)]
      rfl

/-- A recall rewrites the translation of a message in TS order when the source fits. -/
theorem recallMessage_tsOrder {source value : String} {before between after : List Node}
    {sourceAttrs translationAttrs : Attrs} {src translation : List Node}
    (hbefore : ∀ n ∈ before, n.isLang = false)
    (hrest : ∀ n ∈ between ++ after, n.isLang = false) :
    recallMessage source value (before ++ .element "source" sourceAttrs src :: (between ++
        .element "translation" translationAttrs translation :: after)) =
      before ++ .element "source" sourceAttrs src :: (between ++
        .element "translation" translationAttrs
          (if contents src = source then setFirstValue value translation else translation) ::
          after) := by
  have hsource : ∀ n ∈ before, n.isNamed "source" = false := fun n hn ↦
    isNamed_of_not_isLang (.inl rfl) (hbefore n hn)
  have hbetween : ∀ n ∈ between, n.isLang = false := fun n hn ↦
    hrest n (List.mem_append_left _ hn)
  rw [recallMessage_skip hsource, recallMessage, isNamed_element, Bool.true_and]
  show before ++ (if decide (contents src = source) = true then _ else _) = _
  by_cases hfit : contents src = source
  · rw [if_pos (decide_eq_true hfit), if_pos hfit, writeTranslation_append fun n hn ↦
      isNamed_of_not_isLang (.inr rfl) (hbetween n hn)]
  · -- no other source follows
    have hnone : ∀ n ∈ between ++ .element "translation" translationAttrs translation :: after,
        n.isNamed "source" = false := by
      intro n hn
      rw [List.mem_append, List.mem_cons] at hn
      rcases hn with hn | rfl | hn
      · exact isNamed_of_not_isLang (.inl rfl) (hbetween n hn)
      · rfl
      · exact isNamed_of_not_isLang (.inl rfl) (hrest n (List.mem_append_right _ hn))
    have hskip := @recallMessage_skip source value _ hnone []
    rw [List.append_nil, recallMessage, List.append_nil] at hskip
    rw [if_neg (by simpa using hfit), if_neg hfit, hskip]

theorem contents_setFirstValue (value : String) (translation : List Node) :
    contents (setFirstValue value translation) = match leadingData translation with
      | some _ => value ++ contents translation.tail
      | none => contents translation := by
  cases translation with
  | nil => rfl
  | cons n rest => cases n <;> rfl

theorem contents_of_leadingData {translation : List Node} {data : String}
    (h : leadingData translation = some data) :
    contents translation = data ++ contents translation.tail := by
  cases translation with
  | nil => cases h
  | cons n rest =>
      cases n with
      | text | cdataSection =>
          cases h
          rfl
      | _ => cases h

/-- The text of a translation after a recall, from the condition. -/
theorem contents_recalled {value : String} {selected : Prop} [Decidable selected] {hit : Bool}
    {translation : List Node}
    (hk : match if hit then leadingData translation else none with
      | some data => (selected → contents translation.tail = "") ∧ (¬ selected → data = value)
      | none => selected → contents translation = value) :
    contents (if hit then setFirstValue value translation else translation) =
      if selected then value else contents translation := by
  have hkept : (selected → contents translation = value) →
      contents translation = if selected then value else contents translation := by
    intro h
    split
    · rename_i hsel
      exact h hsel
    · rfl
  cases hit with
  | false => exact hkept hk
  | true =>
      rw [if_pos rfl, contents_setFirstValue]
      rw [if_pos rfl] at hk
      cases hdata : leadingData translation with
      | none =>
          rw [hdata] at hk
          exact hkept hk
      | some data =>
          rw [hdata] at hk
          obtain ⟨hsel, hother⟩ := hk
          dsimp only
          split
          · rename_i h
            rw [hsel h, String.append_empty]
          · rename_i h
            rw [contents_of_leadingData hdata, hother h]

/-- **One message.**  Where `KeepsMessage` holds, the translation after a recall reads what
the leaf shows. -/
theorem KeepsMessage.translationText {r : Recall} {selected : Prop} [Decidable selected]
    {reached : Bool} {m : List Node} (hm : InTsOrder m) (hk : KeepsMessage r selected reached m) :
    InTsOrder (if reached then recallMessage r.source r.value m else m) ∧
      TrimTSFile.translationText (if reached then recallMessage r.source r.value m else m) =
        if selected then r.value else TrimTSFile.translationText m := by
  obtain ⟨before, sourceAttrs, src, between, translationAttrs, translation, after, rfl,
    hbefore, hrest⟩ := hm
  have hlang : ∀ n ∈ between ++ after, n.isLang = false := fun n hn ↦ (hrest n hn).1
  have hbetween : ∀ n ∈ between, n.isLang = false := fun n hn ↦
    hlang n (List.mem_append_left _ hn)
  have hsource : childNamed "source" (before ++ .element "source" sourceAttrs src ::
      (between ++ .element "translation" translationAttrs translation :: after)) = src :=
    childNamed_append (fun n hn ↦ isNamed_of_not_isLang (.inl rfl) (hbefore n hn)) _ _ _
  unfold KeepsMessage at hk
  rw [childNamed_translation hbefore hbetween, hsource] at hk
  have hafter : (if reached then recallMessage r.source r.value (before ++
        .element "source" sourceAttrs src :: (between ++
          .element "translation" translationAttrs translation :: after)) else
        before ++ .element "source" sourceAttrs src :: (between ++
          .element "translation" translationAttrs translation :: after)) =
      before ++ .element "source" sourceAttrs src :: (between ++
        .element "translation" translationAttrs
          (if reached && contents src = r.source then setFirstValue r.value translation
            else translation) :: after) := by
    cases reached with
    | false => rfl
    | true =>
        rw [if_pos rfl, recallMessage_tsOrder hbefore hlang, Bool.true_and]
        simp only [decide_eq_true_eq]
  rw [hafter]
  refine ⟨⟨before, sourceAttrs, src, between, translationAttrs, _, after, rfl, hbefore, hrest⟩, ?_⟩
  unfold TrimTSFile.translationText
  rw [childNamed_translation hbefore hbetween, childNamed_translation hbefore hbetween]
  exact contents_recalled hk

/-! ## All messages -/

theorem not_isCI_name {n : Node} (h : n.isCI "message" = true) : n.isCI "name" = false := by
  cases n with
  | element tagName _ _ =>
      by_contra hname
      have heq := compareCI_unique h (Bool.not_eq_false _ ▸ hname)
      exact absurd heq (by decide)
  | _ => rfl

/-- What is reached are the messages. -/
theorem reachedMessages_snd (name : String) (reached : Bool) (nodes : List Node) :
    (reachedMessages name reached nodes).map Prod.snd = contextMessages nodes := by
  induction nodes generalizing reached with
  | nil => rfl
  | cons n nodes ih =>
      unfold contextMessages at ih ⊢
      rw [reachedMessages]
      cases hmsg : n.isCI "message" with
      | false =>
          rw [if_neg Bool.false_ne_true, ih, List.filter_cons_of_neg (by simp [hmsg])]
      | true =>
          rw [if_pos rfl, List.map_cons, ih, List.filter_cons_of_pos hmsg, List.map_cons]

/-- Once the loop has left the context it reaches nothing. -/
theorem reachedMessages_false (name : String) (nodes : List Node) :
    ∀ p ∈ reachedMessages name false nodes, p.1 = false := by
  induction nodes with
  | nil => exact nofun
  | cons n nodes ih =>
      rw [reachedMessages, Bool.false_and]
      split
      · intro p hp
        rcases List.mem_cons.mp hp with rfl | hp
        · rfl
        · exact ih p hp
      · exact ih

/-- A recall of a message. -/
def Recall.applyMessage (r : Recall) (p : Bool × List Node) : List Node :=
  if p.1 then recallMessage r.source r.value p.2 else p.2

theorem contextMessages_recallContext (r : Recall) (nodes : List Node) :
    contextMessages (recallContext r.name r.source r.value nodes) =
      (reachedMessages r.name true nodes).map r.applyMessage := by
  induction nodes with
  | nil => rfl
  | cons n nodes ih =>
      rw [recallContext, reachedMessages]
      by_cases hname : (n.isCI "name" && decide (n.content ≠ r.name)) = true
      · -- the loop leaves the context: nothing changes
        have hsame : (reachedMessages r.name false nodes).map r.applyMessage =
            (reachedMessages r.name false nodes).map Prod.snd := by
          apply List.map_congr_left
          intro p hp
          rw [Recall.applyMessage, reachedMessages_false _ _ p hp]
          rfl
        have hmsg : n.isCI "message" = false := by
          by_contra hmsg
          rw [not_isCI_name (by simpa using hmsg), Bool.false_and] at hname
          cases hname
        rw [if_pos hname, hname]
        rw [hmsg, if_neg Bool.false_ne_true, Bool.not_true, Bool.and_false, hsame,
          reachedMessages_snd, contextMessages, List.filter_cons_of_neg (by simp [hmsg]),
          contextMessages]
      · rw [Bool.not_eq_true] at hname
        rw [hname, if_neg Bool.false_ne_true]
        rw [Bool.not_false, Bool.and_true]
        cases hmsg : n.isCI "message" with
        | false =>
            rw [if_neg Bool.false_ne_true, if_neg Bool.false_ne_true, ← ih, contextMessages,
              List.filter_cons_of_neg (by simp [hmsg]), contextMessages]
        | true =>
            rw [if_pos rfl, if_pos rfl, List.map_cons, ← ih]
            have hmsg' := (isCI_mapChildren "message" (recallMessage r.source r.value) n).trans hmsg
            rw [contextMessages, List.filter_cons_of_pos hmsg', List.map_cons,
              children_mapChildren hmsg]
            rfl

theorem messages_apply (r : Recall) (doc : Document) :
    messages (r.apply doc) = (reachedIn r.name doc).map r.applyMessage := by
  unfold messages reachedIn
  show List.flatMap _ (doc.children.map (recallNode r.name r.source r.value)) = _
  rw [List.flatMap_map, List.map_flatMap]
  apply List.flatMap_congr
  intro n _
  unfold recallNode
  cases hcontext : n.isCI "context" with
  | false => simp [hcontext]
  | true =>
      rw [if_pos rfl, isCI_mapChildren, hcontext, if_pos rfl, if_pos rfl,
        children_mapChildren hcontext]
      exact contextMessages_recallContext r n.children

theorem messages_reachedIn (name : String) (doc : Document) :
    (reachedIn name doc).map Prod.snd = messages doc := by
  unfold messages reachedIn
  rw [List.map_flatMap]
  apply List.flatMap_congr
  intro n _
  split
  · exact reachedMessages_snd name true n.children
  · rfl

/-! ## Loading -/

/-- A message in TS order with a location has an entry with the text of its translation. -/
theorem exists_entry_tsOrder {root nodeName : String} {m : List Node} {eLoc : Node}
    {rest : List Node}
    (hm : InTsOrder m) (hloc : firstChildElement "location" m = some (eLoc, rest)) :
    ∃ entry, entry? (some root) nodeName (stringLang (eLoc :: rest)) = some entry ∧
      entry.translation = translationText m := by
  obtain ⟨before, sourceAttrs, src, between, translationAttrs, translation, after, rfl,
    hbefore, hrest⟩ := hm
  set tail := Node.element "source" sourceAttrs src :: (between ++
    .element "translation" translationAttrs translation :: after) with htail
  have hnone : ∀ n ∈ tail, (!n.isNamed "location") = true := by
    intro n hn
    rw [htail, List.mem_cons, List.mem_append, List.mem_cons] at hn
    rcases hn with rfl | hn | rfl | hn
    · rfl
    · rw [(hrest n (List.mem_append_left _ hn)).2, Bool.not_false]
    · rfl
    · rw [(hrest n (List.mem_append_right _ hn)).2, Bool.not_false]
  -- the location stands before the source
  have hsplit : eLoc :: rest = before.dropWhile (fun n ↦ !n.isNamed "location") ++ tail := by
    unfold firstChildElement at hloc
    rw [List.dropWhile_append, List.dropWhile_eq_nil_iff.mpr hnone] at hloc
    split at hloc
    · cases hloc
    · rename_i n' rest' hd
      cases hloc
      split at hd
      · cases hd
      · exact hd.symm
  have hlang : stringLang (eLoc :: rest) = [contents src, contents translation] := by
    have hno : ∀ l : List Node, (∀ n ∈ l, n.isLang = false) → l.filter Node.isLang = [] := by
      intro l hl
      rw [List.filter_eq_nil_iff]
      intro n hn
      rw [hl n hn]
      exact Bool.false_ne_true
    show ((eLoc :: rest).filter Node.isLang).map content = _
    rw [hsplit, List.filter_append,
      hno _ fun n hn ↦ hbefore n ((List.dropWhile_sublist _).subset hn), htail,
      List.filter_cons_of_pos rfl, List.filter_append,
      hno _ fun n hn ↦ (hrest n (List.mem_append_left _ hn)).1, List.filter_cons_of_pos rfl,
      hno _ fun n hn ↦ (hrest n (List.mem_append_right _ hn)).1]
    rfl
  refine ⟨⟨nodeName, contents src, contents translation⟩, by rw [hlang]; rfl, ?_⟩
  have htranslation : childNamed "translation" (before ++ tail) = translation :=
    childNamed_translation hbefore fun n hn ↦ (hrest n (List.mem_append_left _ hn)).1
  rw [translationText, htranslation]

/-- The entries of a context in which every message is in TS order. -/
theorem contextEntries_tsOrder (root nodeName : String) {nodes : List Node}
    (h : ∀ m ∈ contextMessages nodes, InTsOrder m) :
    ∃ entries, contextEntries (some root) nodeName nodes = some entries ∧
      entries.map Entry.translation =
        (contextMessages (nodes.filter fun n ↦ !n.isStale)).map translationText := by
  induction nodes generalizing nodeName with
  | nil => exact ⟨[], rfl, rfl⟩
  | cons n nodes ih =>
      rw [contextEntries]
      generalize (if n.isCI "name" then n.content else nodeName) = nodeName'
      cases hmsg : n.isCI "message" with
      | false =>
          have hnot : ∀ l, contextMessages (n :: l) = contextMessages l := by
            intro l
            rw [contextMessages, List.filter_cons_of_neg (by simp [hmsg]), contextMessages]
          rw [hnot] at h
          obtain ⟨entries, he, ht⟩ := ih nodeName' h
          refine ⟨entries, he, ?_⟩
          rw [List.filter_cons_of_pos (by simp [isStale_of_not_message hmsg]), hnot, ht]
      | true =>
          have hcons : ∀ l, contextMessages (n :: l) = n.children :: contextMessages l := by
            intro l
            rw [contextMessages, List.filter_cons_of_pos hmsg, List.map_cons, contextMessages]
          rw [hcons] at h
          obtain ⟨entries, he, ht⟩ := ih nodeName' fun m hm ↦ h m (List.mem_cons_of_mem _ hm)
          cases hloc : firstChildElement "location" n.children with
          | none =>
              have hstale : n.isStale = true := by
                rw [Node.isStale, hmsg, firstChildElement_eq_none.mp hloc]
                rfl
              refine ⟨entries, he, ?_⟩
              rw [List.filter_cons_of_neg (by simp [hstale]), ht]
          | some found =>
              have hstale : n.isStale = false := by
                rw [Node.isStale, hmsg]
                by_contra hne
                rw [firstChildElement_eq_none.mpr (by simpa using hne)] at hloc
                cases hloc
              obtain ⟨entry, hentry, htext⟩ :=
                @exists_entry_tsOrder root nodeName' _ _ _ (h _ List.mem_cons_self) hloc
              refine ⟨entry :: entries, ?_, ?_⟩
              · rw [if_pos rfl]
                dsimp only
                rw [hentry, he]
                rfl
              · rw [List.filter_cons_of_pos (by simp [hstale]), hcons, List.map_cons,
                  List.map_cons, htext, ht]

/-- The messages of a trimmed document. -/
theorem messages_trim (doc : Document) : messages (trim doc) = doc.children.flatMap fun n ↦
    if n.isCI "context" then contextMessages (n.children.filter fun n ↦ !n.isStale) else [] := by
  unfold messages
  show List.flatMap _ (doc.children.map trimNode) = _
  rw [List.flatMap_map]
  apply List.flatMap_congr
  intro n _
  unfold trimNode
  cases hcontext : n.isCI "context" with
  | false => simp [hcontext]
  | true =>
      rw [if_pos rfl, isCI_mapChildren, hcontext, if_pos rfl, if_pos rfl,
        children_mapChildren hcontext]

/-- Trimming a document only takes messages away. -/
theorem messages_trim_subset (doc : Document) : ∀ m ∈ messages (trim doc), m ∈ messages doc := by
  rw [messages_trim]
  unfold messages
  intro m hm
  obtain ⟨n, hn, hm⟩ := List.mem_flatMap.mp hm
  refine List.mem_flatMap.mpr ⟨n, hn, ?_⟩
  split at hm
  · rename_i hcontext
    rw [if_pos hcontext]
    unfold contextMessages at hm ⊢
    obtain ⟨k, hk, rfl⟩ := List.mem_map.mp hm
    rw [List.mem_filter, List.mem_filter] at hk
    exact List.mem_map.mpr ⟨k, List.mem_filter.mpr ⟨hk.1.1, hk.2⟩, rfl⟩
  · cases hm

/-- **Loading.**  The leaves of a document in TS order show the texts of the trimmed
document. -/
theorem outputEntries_tsDocument {doc : Document} (h : TsDocument doc) :
    ∃ entries, outputEntries doc = some entries ∧
      entries.map Entry.translation = (messages (trim doc)).map translationText := by
  have hroot : itemRoot doc = some doc.tagName := if_pos h.root
  have hall : ∀ nodes : List Node,
      (∀ n ∈ nodes, ∀ m ∈ contextMessages n.children, n.isCI "context" → InTsOrder m) →
      ∃ entries, rootEntries (some doc.tagName) nodes = some entries ∧
        entries.map Entry.translation = (nodes.flatMap fun n ↦
          if n.isCI "context" then contextMessages (n.children.filter fun n ↦ !n.isStale)
          else []).map translationText := by
    intro nodes hnodes
    induction nodes with
    | nil => exact ⟨[], rfl, rfl⟩
    | cons n nodes ih =>
        obtain ⟨entries, he, ht⟩ := ih fun k hk ↦ hnodes k (List.mem_cons_of_mem _ hk)
        rw [rootEntries, he, List.flatMap_cons, List.map_append, ← ht]
        cases hcontext : n.isCI "context" with
        | false => exact ⟨entries, rfl, rfl⟩
        | true =>
            obtain ⟨new, hnew, htnew⟩ := contextEntries_tsOrder doc.tagName ""
              fun m hm ↦ hnodes n List.mem_cons_self m hm hcontext
            refine ⟨new ++ entries, ?_, ?_⟩
            · rw [if_pos rfl, hnew]
              rfl
            · rw [if_pos rfl, List.map_append, htnew]
  rw [outputEntries, hroot, messages_trim]
  apply hall
  intro n hn m hm hcontext
  apply h.message
  refine List.mem_flatMap.mpr ⟨n, hn, ?_⟩
  rw [if_pos hcontext]
  exact hm

/-! ## The invariant -/

/-- The leaves are in step with the messages, which are in TS order. -/
structure ViewInv (s : St) : Prop where
  inStep : s.InStep
  tsOrder : ∀ doc, s.output_doc = some doc → ∀ m ∈ messages doc, InTsOrder m

theorem viewInv_initial : ViewInv .initial := ⟨rfl, nofun⟩

theorem ViewInv.congr {s s' : St} (hs : ViewInv s)
    (hentries : s'.output_treewidget.entries = s.output_treewidget.entries)
    (hdoc : s'.output_doc = s.output_doc) : ViewInv s' := by
  constructor
  · unfold St.InStep
    rw [hentries, hdoc]
    exact hs.inStep
  · rw [hdoc]
    exact hs.tsOrder

/-- A choice of a document in TS order establishes the invariant. -/
theorem viewInv_choose {w w' : MainWindow} {s' : St} {langFile : String} {doc : Document}
    (hname : langFile.length ≠ 0) (hdoc : TsDocument doc)
    (h : w.chooseLangFile langFile (.content (some doc)) = some w')
    (hs' : s'.toMainWindow = w') : ViewInv s' := by
  unfold MainWindow.chooseLangFile at h
  rw [if_neg hname] at h
  obtain ⟨w₁, hrepeat, houtput⟩ := Option.bind_eq_some_iff.mp h
  have hurl : w₁.url_linedit = langFile := MainWindow.prepareRepeatXml_url hrepeat
  obtain ⟨entries, hentries, htext⟩ := outputEntries_tsDocument hdoc
  rw [MainWindow.prepareOutputXml_content (hurl ▸ hname), hentries] at houtput
  cases houtput
  constructor
  · unfold St.InStep
    rw [hs']
    exact htext
  · rw [hs']
    rintro _ ⟨⟩ m hm
    exact hdoc.message m (messages_trim_subset doc m hm)

/-- The leaves after a recall: the selected one takes the value. -/
theorem translation_recalled (entries : List Entry) (found : Option ℕ) (value : String) (i : ℕ) :
    ((found.elim entries fun j ↦ entries.modify j fun e ↦ { e with translation := value }).map
        Entry.translation)[i]? =
      entries[i]?.map fun e ↦ if found = some i then value else e.translation := by
  rw [List.getElem?_map]
  cases found with
  | none => rfl
  | some j =>
      rw [Option.elim_some, List.getElem?_modify, Option.map_eq_map, Option.map_map]
      congr 1
      funext e
      by_cases hj : j = i
      · simp [hj]
      · simp [hj]

section

variable {r : Recall} {doc : Document} {found : Option ℕ}

theorem inTsOrder_of_reachedIn (hts : ∀ m ∈ messages doc, InTsOrder m) {name : String} {i : ℕ}
    {reached : Bool} {m : List Node} (hi : (reachedIn name doc)[i]? = some (reached, m)) :
    InTsOrder m := by
  apply hts
  rw [← messages_reachedIn name doc]
  exact List.mem_map.mpr ⟨_, List.mem_of_getElem? hi, rfl⟩

/-- A recall that agrees leaves the messages in TS order. -/
theorem inTsOrder_apply (hts : ∀ m ∈ messages doc, InTsOrder m)
    (hkeep : ∀ i reached m, (reachedIn r.name doc)[i]? = some (reached, m) →
      KeepsMessage r (found = some i) reached m) :
    ∀ m ∈ messages (r.apply doc), InTsOrder m := by
  intro m hm
  rw [messages_apply] at hm
  obtain ⟨⟨reached, m⟩, hp, rfl⟩ := List.mem_map.mp hm
  obtain ⟨i, hi⟩ := List.getElem?_of_mem hp
  exact ((hkeep i reached m hi).translationText (inTsOrder_of_reachedIn hts hi)).1

/-- The leaves after a recall that agrees: each shows the translation of its message. -/
theorem translations_recalled {entries : List Entry} (hts : ∀ m ∈ messages doc, InTsOrder m)
    (hkeep : ∀ i reached m, (reachedIn r.name doc)[i]? = some (reached, m) →
      KeepsMessage r (found = some i) reached m)
    (hstep : entries.map Entry.translation = (messages doc).map translationText) :
    (found.elim entries fun j ↦ entries.modify j fun e ↦ { e with translation := r.value }).map
        Entry.translation = (messages (r.apply doc)).map translationText := by
  have htext : ∀ i : ℕ, entries[i]?.map Entry.translation =
      (reachedIn r.name doc)[i]?.map (translationText ∘ Prod.snd) := by
    intro i
    have := congrArg (fun l : List String ↦ l[i]?) hstep
    simpa [← messages_reachedIn r.name doc] using this
  rw [messages_apply]
  apply List.ext_getElem?
  intro i
  rw [translation_recalled, List.map_map, List.getElem?_map]
  have hi := htext i
  cases hri : (reachedIn r.name doc)[i]? with
  | none =>
      rw [hri] at hi
      rw [Option.map_eq_none_iff.mp hi]
      rfl
  | some p =>
      rw [hri] at hi
      obtain ⟨e, he, htr⟩ := Option.map_eq_some_iff.mp hi
      obtain ⟨reached, m⟩ := p
      have hmsg := (hkeep i reached m hri).translationText (inTsOrder_of_reachedIn hts hri)
      have htr' : e.translation = translationText m := htr
      rw [he]
      show some (if _ then _ else e.translation) =
        some (translationText (r.applyMessage (reached, m)))
      rw [Recall.applyMessage, hmsg.2, htr']

end

/-- A recall that agrees keeps the invariant. -/
theorem ViewInv.recallItem {s : St} (hs : ViewInv s) {item : ItemRef} (ha : s.RecallAgrees item) :
    ViewInv (s.recallItem item) := by
  obtain ⟨-, hentries, hdoc⟩ := s.recallItemTranslation_eq item
  have hstep := hs.inStep
  unfold St.InStep at hstep
  cases hp : s.repeat_treewidget.parentText item with
  | none =>
      -- the root item: nothing is searched and nothing is written
      have hfound : s.findRightItem item = none := by
        unfold MainWindow.findRightItem
        rw [hp]
        rfl
      rw [hfound] at hentries
      rw [hp] at hdoc
      exact hs.congr hentries hdoc
  | some parent =>
      rw [hp, Option.elim_some] at hdoc
      cases hd : s.output_doc with
      | none =>
          rw [hd] at hdoc hstep
          have hnil : s.output_treewidget.entries = [] := List.map_eq_nil_iff.mp hstep
          rw [hnil] at hentries
          refine hs.congr (hentries.trans ?_) (hdoc.trans hd.symm)
          rw [hnil]
          cases s.findRightItem item with
          | none => rfl
          | some i => exact List.modify_nil _ _
      | some doc =>
          set r : Recall := ⟨parent, s.repeat_treewidget.text0 item, s.repeat_treewidget.text1 item⟩
            with hr
          have hrecall : s.recallOf item = some r := by
            unfold St.recallOf
            rw [hp]
            rfl
          have hkeep := ha r doc hrecall hd
          have hts := hs.tsOrder doc hd
          rw [hd] at hdoc hstep
          have hdoc' : (s.recallItem item).output_doc = some (r.apply doc) := hdoc
          have hentries' : (s.recallItem item).output_treewidget.entries = _ := hentries
          constructor
          · unfold St.InStep
            rw [hdoc', hentries']
            exact translations_recalled hts hkeep hstep
          · intro doc' happly
            cases hdoc'.symm.trans happly
            exact inTsOrder_apply hts hkeep

/-- **Step.** -/
theorem ViewInv.next {s s' : St} {a : Act} (hs : ViewInv s) (hg : RecallsAgree s a)
    (hn : s.next a = some s') : ViewInv s' := by
  obtain ⟨honly, hg⟩ := hg
  cases St.step_of_next hn with
  | choose hit hname hw =>
      rcases honly with hname' | ⟨doc, rfl, hdoc⟩
      · exact absurd hname' hname
      · exact viewInv_choose hname hdoc hw rfl
  | select =>
      refine hs.congr ?_ (MainWindow.selectedRightItem_frame _).2
      unfold MainWindow.selectedRightItem
      rfl
  | check => exact hs.congr rfl rfl
  | recallItem hit hitem => exact hs.recallItem (hg _ hitem)
  | recallAll => exact hs.congr rfl rfl
  | next hit => exact (hs.recallItem (hg _ _ hit)).congr rfl rfl
  | stay => exact hs

/-- **The tree and the document stay in step** in every run that loads documents in TS
order and whose recalls agree for every message. -/
theorem inStep_of_reachable {s : St} (h : system.ReachableIf RecallsAgree s) : s.InStep := by
  have hinv : ViewInv s :=
    h.invariant (fun _ hs ↦ hs ▸ viewInv_initial) fun _ _ _ hs hg hn ↦ hs.next hg hn
  exact hinv.inStep

/-! ## A run in step, and one out of step -/

/-- The messages made by `message` are in TS order. -/
theorem inTsOrder_message (location : Bool) (source translation : String) :
    InTsOrder (message location source translation).children := by
  refine ⟨if location then [.element "location" [] []] else [], [], [.text source], [], [],
    [.text translation], [], rfl, ?_, nofun⟩
  cases location with
  | false => exact nofun
  | true =>
      intro n hn
      rw [if_pos rfl, List.mem_singleton] at hn
      rw [hn]
      rfl

theorem tsDocument_dialogDoc : TsDocument dialogDoc where
  root := rfl
  message := by
    have hm : messages dialogDoc = [(message true "Open" "?").children,
      (message false "Open" "Datei").children] := rfl
    rw [hm]
    intro m h
    rw [List.mem_cons, List.mem_singleton] at h
    rcases h with rfl | rfl <;> exact inTsOrder_message _ _ _

theorem inStep_recallOnce : ∃ s, system.exec .initial recallOnce = some s ∧ s.InStep ∧
    s.output_treewidget.entries = [⟨"Dialog", "Open", "Datei"⟩] := by
  refine ⟨_, rfl, inStep_of_reachable ?_, rfl⟩
  -- the three steps, with the condition at the recall
  refine .step (a := .recallItem true) (.step (a := .select (.leaf 0)) (.step
    (a := .choose "a.ts" (.content (some dialogDoc))) (.start rfl) ?_ rfl) ⟨trivial, trivial⟩ rfl)
    ⟨trivial, ?_⟩ rfl
  · exact ⟨.inr ⟨dialogDoc, rfl, tsDocument_dialogDoc⟩, trivial⟩
  · rintro item hitem r doc hr hdoc i reached m hi
    cases hitem
    cases hr
    cases hdoc
    cases i with
    | zero =>
        cases hi
        exact ⟨fun _ ↦ rfl, fun hsel ↦ absurd rfl hsel⟩
    | succ i => cases hi

/-- Two messages with one source in one context, and a stale one with a translation. -/
def twiceDoc : Document where
  prolog := []
  tagName := "TS"
  attributes := []
  children := [.element "context" [] [.element "name" [] [.text "Dialog"],
    message true "Open" "a", message true "Open" "b", message false "Open" "Datei"]]
  epilog := []

theorem tsDocument_twiceDoc : TsDocument twiceDoc where
  root := rfl
  message := by
    have hm : messages twiceDoc = [(message true "Open" "a").children,
      (message true "Open" "b").children, (message false "Open" "Datei").children] := rfl
    rw [hm]
    intro m h
    rw [List.mem_cons, List.mem_cons, List.mem_singleton] at h
    rcases h with rfl | rfl | rfl <;> exact inTsOrder_message _ _ _

/-- **The tree and the document can part**: one recall changes both translations of
`twiceDoc` in the document and one leaf in the tree. -/
theorem not_inStep : ¬ ∀ s, system.ReachableIf OnlyTs s → s.InStep := by
  intro h
  have hrun : ∃ s, system.ReachableIf OnlyTs s ∧
      s.output_treewidget.entries.map Entry.translation = ["Datei", "b"] ∧
      (s.output_doc.map messages).getD [] =
        [(message true "Open" "Datei").children, (message true "Open" "Datei").children] := by
    refine ⟨_, .step (a := .recallItem true) (.step (a := .select (.leaf 0)) (.step
      (a := .choose "a.ts" (.content (some twiceDoc))) (.start rfl) ?_ rfl) trivial rfl)
      trivial rfl, rfl, rfl⟩
    exact .inr ⟨twiceDoc, rfl, tsDocument_twiceDoc⟩
  obtain ⟨s, hs, hview, hdoc⟩ := hrun
  have hstep := h s hs
  unfold St.InStep at hstep
  rw [hview, hdoc] at hstep
  exact absurd hstep (by decide)

end CodeToolKit.TrimTSFile
