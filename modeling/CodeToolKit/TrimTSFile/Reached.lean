import CodeToolKit.TrimTSFile.Frame

/-!
# What a recall reaches

The recall of an obsolete message is meant for every message with its source in a context
with its name: afterwards each of them should have a translation with its text.

`Gets` says for one of these messages when it does.  The walk has to come to it, the
translation it takes has to begin with text, and nothing else may follow in it; otherwise
the message keeps its translations.  The translation of a new message is empty, so there
is nothing in it to set, and such a message gets nothing (`not_reached`).
-/

namespace CodeToolKit.TrimTSFile

open CodeToolKit.Lib Node

/-! ## The translation that a recall takes -/

/-- The first translation, with what is before and behind it. -/
def firstTranslation : List Node → Option (List Node × Node × List Node)
  | [] => none
  | n :: rest =>
      if n.isNamed "translation" then some ([], n, rest)
      else (firstTranslation rest).map fun (before, found, after) ↦ (n :: before, found, after)

/-- The first translation behind the first source with a text. -/
def taken (source : String) : List Node → Option (List Node × Node × List Node)
  | [] => none
  | n :: rest =>
      if n.isNamed "source" && n.content = source then
        (firstTranslation rest).map fun (before, found, after) ↦ (n :: before, found, after)
      else (taken source rest).map fun (before, found, after) ↦ (n :: before, found, after)

/-- A list of nodes with a translation that has a text. -/
def Translated (text : String) (nodes : List Node) : Prop :=
  ∃ n ∈ nodes, n.isCI "translation" ∧ n.content = text

theorem writeTranslation_eq (value : String) (nodes : List Node) :
    writeTranslation value nodes = match firstTranslation nodes with
      | some (before, found, after) => before ++ found.mapChildren (setFirstValue value) :: after
      | none => nodes := by
  induction nodes with
  | nil => rfl
  | cons n rest ih =>
      rw [writeTranslation, firstTranslation]
      cases n.isNamed "translation" with
      | true => rfl
      | false =>
          rw [if_neg Bool.false_ne_true, if_neg Bool.false_ne_true, ih]
          cases firstTranslation rest <;> rfl

/-- A recall of a message changes the translation it takes. -/
theorem recallMessage_eq (source value : String) (nodes : List Node) :
    recallMessage source value nodes = match taken source nodes with
      | some (before, found, after) => before ++ found.mapChildren (setFirstValue value) :: after
      | none => nodes := by
  induction nodes with
  | nil => rfl
  | cons n rest ih =>
      rw [recallMessage, taken]
      split
      · rw [writeTranslation_eq]
        cases firstTranslation rest <;> rfl
      · rw [ih]
        cases taken source rest <;> rfl

theorem firstTranslation_spec {nodes before after : List Node} {found : Node}
    (h : firstTranslation nodes = some (before, found, after)) :
    nodes = before ++ found :: after ∧ found.isNamed "translation" := by
  induction nodes generalizing before with
  | nil => cases h
  | cons n rest ih =>
      rw [firstTranslation] at h
      split at h
      · rename_i hn
        cases h
        exact ⟨rfl, hn⟩
      · obtain ⟨⟨b, t, a⟩, hrest, heq⟩ := Option.map_eq_some_iff.mp h
        cases heq
        obtain ⟨rfl, hfound⟩ := ih hrest
        exact ⟨rfl, hfound⟩

theorem taken_spec {source : String} {nodes before after : List Node} {found : Node}
    (h : taken source nodes = some (before, found, after)) :
    nodes = before ++ found :: after ∧ found.isNamed "translation" := by
  induction nodes generalizing before with
  | nil => cases h
  | cons n rest ih =>
      rw [taken] at h
      split at h
      · obtain ⟨⟨b, t, a⟩, hrest, heq⟩ := Option.map_eq_some_iff.mp h
        cases heq
        obtain ⟨rfl, hfound⟩ := firstTranslation_spec hrest
        exact ⟨rfl, hfound⟩
      · obtain ⟨⟨b, t, a⟩, hrest, heq⟩ := Option.map_eq_some_iff.mp h
        cases heq
        obtain ⟨rfl, hfound⟩ := ih hrest
        exact ⟨rfl, hfound⟩

/-! ## One message -/

namespace Placed

/-- The walk of a recall comes to the message. -/
def reachedBy (q : Placed) (r : Recall) : Bool :=
  (q.before.filter (isCI "name")).all fun n ↦ n.content = r.name

/-- The children of a message after a recall. -/
def recalled (q : Placed) (r : Recall) : List Node :=
  if q.reachedBy r then recallMessage r.source r.value q.message else q.message

/-- After the recall the message has a translation with the text: one that it had and that
is not taken, or the one that is taken, when that begins with text and the value and what
follows make up the text. -/
def Gets (q : Placed) (r : Recall) (text : String) : Prop :=
  match if q.reachedBy r then taken r.source q.message else none with
  | some (before, found, after) => Translated text (before ++ after) ∨
      match leadingData found.children with
      | some _ => r.value ++ contents found.children.tail = text
      | none => contents found.children = text
  | none => Translated text q.message

end Placed

theorem translated_append {text : String} {before after : List Node} {found : Node} :
    Translated text (before ++ found :: after) ↔
      Translated text (before ++ after) ∨ (found.isCI "translation" ∧ found.content = text) := by
  unfold Translated
  simp only [List.mem_append, List.mem_cons]
  constructor
  · rintro ⟨n, hn | rfl | hn, h⟩
    · exact .inl ⟨n, .inl hn, h⟩
    · exact .inr h
    · exact .inl ⟨n, .inr hn, h⟩
  · rintro (⟨n, hn | hn, h⟩ | h)
    · exact ⟨n, .inl hn, h⟩
    · exact ⟨n, .inr (.inr hn), h⟩
    · exact ⟨found, .inr (.inl rfl), h⟩

/-- **One message.**  It has the text after the recall exactly when it gets it. -/
theorem translated_recalled {q : Placed} {r : Recall} {text : String} :
    Translated text (q.recalled r) ↔ q.Gets r text := by
  unfold Placed.recalled Placed.Gets
  cases q.reachedBy r with
  | false => exact Iff.rfl
  | true =>
      rw [if_pos rfl, if_pos rfl, recallMessage_eq]
      cases htaken : taken r.source q.message with
      | none => exact Iff.rfl
      | some split =>
          obtain ⟨before, found, after⟩ := split
          obtain ⟨-, hname⟩ := taken_spec htaken
          dsimp only
          rw [translated_append]
          apply or_congr_right
          cases found with
          | element tagName attributes children =>
              have htag : tagName = "translation" := of_decide_eq_true hname
              subst htag
              have hcontent : (Node.mapChildren (setFirstValue r.value)
                  (.element "translation" attributes children)).content =
                    contents (setFirstValue r.value children) := by
                rw [mapChildren, content]
              rw [hcontent, contents_setFirstValue]
              show (_ ∧ _) ↔ match leadingData children with | some _ => _ | none => _
              have hkind : (Node.mapChildren (setFirstValue r.value)
                  (.element "translation" attributes children)).isCI "translation" = true := rfl
              rw [hkind, eq_self_iff_true, true_and]
              cases leadingData children <;> exact Iff.rfl
          | _ => cases hname

/-! ## All messages -/

section

variable (r : Recall)

theorem textOf_recallMessage (nodes : List Node) :
    textOf "source" (recallMessage r.source r.value nodes) = textOf "source" nodes := by
  rw [← @messageSlots_beforeSource r "" "" [] rfl ([], []) List.not_mem_nil List.not_mem_nil]
  exact textOf_messageSlots _ _ _ nodes

theorem textOf_recallContext (nodes : List Node) :
    textOf "name" (recallContext r.name r.source r.value nodes) = textOf "name" nodes := by
  rw [← @contextSlots_write r "" [] rfl]
  exact textOf_scan (fun names f n ↦ messageSlot_map "" names f n) _ [] nodes

/-- A message with the name of its context. -/
def Placed.named (p : Placed) : String × List Node := (textOf "name" p.context, p.message)

variable {r}

theorem reachedBy_append {context before message : List Node} {n : Node} :
    (Placed.mk context (before ++ [n]) message).reachedBy r =
      ((Placed.mk context before message).reachedBy r &&
        !(n.isCI "name" && decide (n.content ≠ r.name))) := by
  unfold Placed.reachedBy
  rw [List.filter_append, List.all_append]
  congr 1
  cases hn : n.isCI "name" with
  | true =>
      rw [List.filter_cons_of_pos hn]
      simp
  | false =>
      rw [List.filter_cons_of_neg (by simp [hn])]
      rfl

/-- Behind a name that is not its own, a recall comes to no message of the context. -/
theorem recalled_otherName {context before : List Node}
    (hbefore : (Placed.mk context before []).reachedBy r = false) (nodes : List Node) :
    ∀ q ∈ placedIn context before nodes, q.recalled r = q.message := by
  induction nodes generalizing before with
  | nil => exact nofun
  | cons n nodes ih =>
      have hpass : (Placed.mk context (before ++ [n]) []).reachedBy r = false := by
        rw [reachedBy_append, hbefore, Bool.false_and]
      rw [placedIn]
      split
      · rw [List.forall_mem_cons]
        refine ⟨?_, ih hpass⟩
        have hreached : (Placed.mk context before n.children).reachedBy r = false := hbefore
        rw [Placed.recalled, hreached]
        rfl
      · exact ih hpass

theorem context_placedIn {context before nodes : List Node} :
    ∀ q ∈ placedIn context before nodes, q.context = context := by
  induction nodes generalizing before with
  | nil => exact nofun
  | cons n nodes ih =>
      rw [placedIn]
      split
      · rw [List.forall_mem_cons]
        exact ⟨rfl, ih⟩
      · exact ih

theorem named_placedIn {context before nodes : List Node} :
    (placedIn context before nodes).map Placed.named =
      (contextMessages nodes).map fun m ↦ (textOf "name" context, m) := by
  rw [← @message_mem_placedIn context before nodes, List.map_map]
  apply List.map_congr_left
  intro q hq
  rw [Placed.named, context_placedIn q hq]
  rfl

/-- The messages of a context after a recall. -/
theorem named_recallContext {context before : List Node} (context' before' : List Node)
    (hname : textOf "name" context' = textOf "name" context)
    (hbefore : (Placed.mk context before []).reachedBy r = true) (nodes : List Node) :
    (placedIn context' before' (recallContext r.name r.source r.value nodes)).map Placed.named =
      (placedIn context before nodes).map fun q ↦ (textOf "name" q.context, q.recalled r) := by
  induction nodes generalizing before before' with
  | nil => rfl
  | cons n nodes ih =>
      have hpass := @reachedBy_append r context before [] n
      rw [hbefore, Bool.true_and] at hpass
      rw [recallContext, placedIn]
      cases hleave : n.isCI "name" && decide (n.content ≠ r.name) with
      | true =>
          -- the recall leaves the context
          rw [hleave, Bool.not_true] at hpass
          have hmsg : n.isCI "message" = false := by
            by_contra hmsg
            rw [not_isCI_name (by simpa using hmsg), Bool.false_and] at hleave
            cases hleave
          have hrest : (placedIn context (before ++ [n]) nodes).map
              (fun q ↦ (textOf "name" q.context, q.recalled r)) =
                (placedIn context (before ++ [n]) nodes).map Placed.named := by
            apply List.map_congr_left
            intro q hq
            rw [recalled_otherName hpass nodes q hq]
            rfl
          rw [if_pos rfl, placedIn, hmsg, if_neg Bool.false_ne_true, if_neg Bool.false_ne_true,
            hrest, named_placedIn, named_placedIn, hname]
      | false =>
          rw [hleave, Bool.not_false] at hpass
          rw [if_neg Bool.false_ne_true]
          cases hmsg : n.isCI "message" with
          | false =>
              rw [if_neg Bool.false_ne_true, if_neg Bool.false_ne_true, placedIn, hmsg,
                if_neg Bool.false_ne_true]
              exact ih _ hpass
          | true =>
              have hreached : (Placed.mk context before n.children).reachedBy r = true := hbefore
              rw [if_pos rfl, if_pos rfl, placedIn, isCI_mapChildren, hmsg, if_pos rfl,
                List.map_cons, List.map_cons, ih _ hpass]
              congr 1
              rw [Placed.recalled, hreached, if_pos rfl, Placed.named, children_mapChildren hmsg,
                hname]

/-- **The messages of a document after a recall.** -/
theorem named_apply (doc : Document) : (placed (r.apply doc)).map Placed.named =
    (placed doc).map fun q ↦ (textOf "name" q.context, q.recalled r) := by
  unfold placed
  show (List.flatMap _ (doc.children.map (recallNode r.name r.source r.value))).map _ = _
  rw [List.flatMap_map, List.map_flatMap, List.map_flatMap]
  apply List.flatMap_congr
  intro n _
  unfold recallNode
  cases hcontext : n.isCI "context" with
  | false =>
      rw [if_neg Bool.false_ne_true, if_neg (by simp [hcontext]), if_neg Bool.false_ne_true]
      rfl
  | true =>
      rw [if_pos rfl, isCI_mapChildren, hcontext, if_pos rfl, if_pos rfl,
        children_mapChildren hcontext]
      exact named_recallContext _ [] (textOf_recallContext r n.children) rfl n.children

/-! ## The recall of an obsolete message -/

/-- Every message with a source in a context with a name has a translation with a text. -/
def ReachesAll (name source text : String) (doc : Document) : Prop :=
  ∀ q ∈ placed doc, textOf "name" q.context = name → textOf "source" q.message = source →
    Translated text q.message

theorem reachesAll_apply {name source text : String} (doc : Document) :
    ReachesAll name source text (r.apply doc) ↔
      ∀ q ∈ placed doc, textOf "name" q.context = name → textOf "source" q.message = source →
        q.Gets r text := by
  have hsource : ∀ q : Placed, textOf "source" (q.recalled r) = textOf "source" q.message := by
    intro q
    unfold Placed.recalled
    split
    · exact textOf_recallMessage r q.message
    · rfl
  have hview : ReachesAll name source text (r.apply doc) ↔
      ∀ m ∈ (placed (r.apply doc)).map Placed.named,
        m.1 = name → textOf "source" m.2 = source → Translated text m.2 := by
    rw [List.forall_mem_map]
    exact Iff.rfl
  rw [hview, named_apply, List.forall_mem_map]
  apply forall₂_congr
  intro q _
  dsimp only
  rw [hsource, translated_recalled]

end

/-! ## The left tree in all runs -/

/-- The left tree has the leaves of the obsolete messages of the file that was chosen. -/
def LeftTree (s : St) : Prop :=
  ∀ langFile doc, s.chosen = some (langFile, .content (some doc)) →
    s.repeat_treewidget.entries = ((placed doc).filter fun p ↦ !p.located).map Placed.leafOf

theorem LeftTree.congr {s s' : St} (hs : LeftTree s)
    (htree : s'.repeat_treewidget.entries = s.repeat_treewidget.entries)
    (hchosen : s'.chosen = s.chosen) : LeftTree s' := by
  unfold LeftTree
  rw [htree, hchosen]
  exact hs

theorem LeftTree.recallItem {s : St} (hs : LeftTree s) (item : ItemRef) :
    LeftTree (s.recallItem item) := by
  obtain ⟨htree, -⟩ := s.recallItemTranslation_spec item
  refine hs.congr ?_ rfl
  show (s.recallItemTranslation item).repeat_treewidget.entries = _
  rw [htree]
  rfl

/-- **Step.** -/
theorem LeftTree.next {s s' : St} {a : Act} (hs : LeftTree s) (hn : s.next a = some s') :
    LeftTree s' := by
  cases St.step_of_next hn with
  | choose hit hname hw =>
      rintro _ doc ⟨⟩
      exact (entries_of_loaded hname hw).2.1
  | select =>
      refine hs.congr ?_ rfl
      unfold MainWindow.selectedRightItem
      rfl
  | check => exact hs.congr rfl rfl
  | recallItem => exact hs.recallItem _
  | recallAll => exact hs.congr rfl rfl
  | next => exact (hs.recallItem _).congr rfl rfl
  | stay => exact hs

/-- **Run.** -/
theorem leftTree_of_reachable {s : St} (h : system.Reachable s) : LeftTree s :=
  h.invariant (fun _ hs ↦ hs ▸ nofun) fun _ _ _ hs _ hn ↦ hs.next hn

/-- The recall of an obsolete message, from its leaf. -/
def Placed.recall (p : Placed) : Recall :=
  ⟨p.leafOf.name, p.leafOf.source, p.leafOf.translation⟩

/-- **What a recall reaches.**  After the recall of an obsolete message, every message with
its source in a context with its name has a translation with its text exactly when each of
them gets one from the recall. -/
theorem reached_iff {s : St} (h : system.Reachable s) {langFile : String} {chosen : Document}
    (hc : s.chosen = some (langFile, .content (some chosen))) {i : ℕ} {p : Placed}
    (hp : ((placed chosen).filter fun p ↦ !p.located)[i]? = some p) :
    ∃ after, (s.recallItemTranslation (.leaf i)).output_doc = some after ∧
      (ReachesAll (textOf "name" p.context) (textOf "source" p.message)
          (textOf "translation" p.message) after ↔
        ∀ q ∈ placed (s.recalls.foldl (fun doc r ↦ r.apply doc) (trim chosen)),
          textOf "name" q.context = textOf "name" p.context →
          textOf "source" q.message = textOf "source" p.message →
          q.Gets p.recall (textOf "translation" p.message)) := by
  have hentry : s.repeat_treewidget.entries[i]? = some p.leafOf := by
    rw [leftTree_of_reachable h langFile chosen hc, List.getElem?_map, hp]
    rfl
  have hrecall : s.repeat_treewidget.recallOf (.leaf i) = some p.recall := by
    show (s.repeat_treewidget.entries[i]?.map Entry.name).map (fun parent ↦ (⟨parent,
      (s.repeat_treewidget.entries[i]?.map Entry.source).getD "",
      (s.repeat_treewidget.entries[i]?.map Entry.translation).getD ""⟩ : Recall)) = _
    rw [hentry]
    rfl
  have hafter : (s.recallItemTranslation (.leaf i)).output_doc = some (p.recall.apply
      (s.recalls.foldl (fun doc r ↦ r.apply doc) (trim chosen))) := by
    obtain ⟨-, hdoc⟩ := s.recallItem_doc (.leaf i)
    have hdoc' : (s.recallItemTranslation (.leaf i)).output_doc = _ := hdoc
    have hof : s.recallOf (.leaf i) = some p.recall := hrecall
    rw [hdoc', output_doc_of_chosen h hc, hof]
    rfl
  exact ⟨_, hafter, reachesAll_apply _⟩

/-- The recall of the left leaf of `dialogDoc` reaches the message that replaced it. -/
theorem reached_dialogDoc : ∃ s after,
    system.exec .initial [.choose "a.ts" (.content (some dialogDoc))] = some s ∧
      (s.recallItemTranslation (.leaf 0)).output_doc = some after ∧
      ReachesAll "Dialog" "Open" "Datei" after := by
  obtain ⟨after, hafter, hiff⟩ := reached_iff (System.reachable_of_exec
    [.choose "a.ts" (.content (some dialogDoc))] rfl rfl) (i := 0) rfl rfl
  refine ⟨_, after, rfl, hafter, hiff.mpr ?_⟩
  have hplaced : placed (trim dialogDoc) = [⟨[.element "name" [] [.text "Dialog"],
      message true "Open" "?"], [.element "name" [] [.text "Dialog"]],
      (message true "Open" "?").children⟩] := rfl
  intro q hq _ _
  have hq' : q ∈ placed (trim dialogDoc) := hq
  rw [hplaced, List.mem_singleton] at hq'
  rw [hq']
  exact .inr rfl

/-- A file with a new message, whose translation is empty. -/
def newMessage : Document := { dialogDoc with
  children := [.element "context" [] [.element "name" [] [.text "Dialog"],
    .element "message" [] [.element "location" [] [], .element "source" [] [.text "Open"],
      .element "translation" [("type", "unfinished")] []],
    message false "Open" "Datei"]] }

/-- **A recall does not reach a new message.** -/
theorem not_reached : ¬ ∀ (s : St) (langFile : String) (chosen : Document) (i : ℕ) (p : Placed),
    system.Reachable s → s.chosen = some (langFile, .content (some chosen)) →
    ((placed chosen).filter fun p ↦ !p.located)[i]? = some p →
    ∀ after, (s.recallItemTranslation (.leaf i)).output_doc = some after →
      ReachesAll (textOf "name" p.context) (textOf "source" p.message)
        (textOf "translation" p.message) after := by
  intro h
  have hreaches := h _ "a.ts" newMessage 0 _ (System.reachable_of_exec
    [.choose "a.ts" (.content (some newMessage))] rfl rfl) rfl rfl _ rfl
  obtain ⟨n, hn, -, htext⟩ := hreaches _ List.mem_cons_self rfl rfl
  have hno : ([Node.element "location" [] [], .element "source" [] [.text "Open"],
      .element "translation" [("type", "unfinished")] []].all fun n ↦ n.content ≠ "Datei") := by
    decide
  have htext' : n.content = "Datei" := htext
  exact absurd htext' (by simpa using List.all_eq_true.mp hno n hn)

end CodeToolKit.TrimTSFile
