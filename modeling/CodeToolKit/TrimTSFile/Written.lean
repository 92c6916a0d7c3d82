import CodeToolKit.Lib.Slots
import CodeToolKit.TrimTSFile.Leaves

/-!
# What a recall can write

A recall changes values of nodes only: of first children of `translation` elements of
messages of contexts, when these have a value.  These nodes are the slots of a document.

The label of a slot has what decides whether a recall reaches it: the names that stand
before the message in its context, and the sources that stand before the translation in
its message, those before the translation before it apart, because a recall does not go
on behind the first translation it could take.  No recall changes a label, so a recall is
a write (`apply_eq`).
-/

namespace CodeToolKit.TrimTSFile

open CodeToolKit.Lib Node

/-- The label of a slot. -/
structure Slot where
  /-- The name of the context. -/
  context : String
  /-- The texts of the names of the context before the message. -/
  names : List String
  /-- The text of the source of the message. -/
  source : String
  /-- The texts of the sources of the message before the previous translation. -/
  earlier : List String
  /-- The texts of the sources between the previous translation and this one. -/
  sources : List String
  /-- The node is text or CDATA. -/
  isText : Bool

/-! ## The slots of a document -/

namespace Node

/-- The value of a node, with whether it is text. -/
def value : Node → List (Bool × String)
  | text data | cdataSection data => [(true, data)]
  | comment data | processingInstruction _ data => [(false, data)]
  | _ => []

/-- Change the value of a node. -/
def mapValue (f : Bool → String → String) : Node → Node
  | text data => text (f true data)
  | cdataSection data => cdataSection (f true data)
  | comment data => comment (f false data)
  | processingInstruction target data => processingInstruction target (f false data)
  | n => n

/-- The slot of a node. -/
def slot (label : Bool → Slot) : Slots Node Slot String where
  get n := n.value.map fun p ↦ (label p.1, p.2)
  map f := mapValue fun isText ↦ f (label isText)
  get_map f n := by cases n <;> rfl
  map_map f g n := by cases n <;> rfl
  map_congr {f g n} h := by
    cases n with
    | element | entityReference | documentType => rfl
    | text data =>
        exact congrArg Node.text (h (label true, data) List.mem_cons_self)
    | cdataSection data =>
        exact congrArg Node.cdataSection (h (label true, data) List.mem_cons_self)
    | comment data =>
        exact congrArg Node.comment (h (label false, data) List.mem_cons_self)
    | processingInstruction target data =>
        exact congrArg (Node.processingInstruction target)
          (h (label false, data) List.mem_cons_self)
  map_id n := by cases n <;> rfl

/-- The slots of the children of an element whose tag fits, from a text of these children
that no change of the slots reaches. -/
def inside (fits : String → Bool) (key : List Node → String)
    (A : String → Slots (List Node) Slot String)
    (key_map : ∀ k f l, key ((A k).map f l) = key l) : Slots Node Slot String where
  get
    | element tagName _ children => if fits tagName then (A (key children)).get children else []
    | _ => []
  map f
    | element tagName attributes children => element tagName attributes
        (if fits tagName then (A (key children)).map f children else children)
    | n => n
  get_map f n := by
    cases n with
    | element tagName attributes children =>
        dsimp only
        split
        · rw [key_map, Slots.get_map]
        · rfl
    | _ => rfl
  map_map f g n := by
    cases n with
    | element tagName attributes children =>
        dsimp only
        split
        · rw [key_map, Slots.map_map]
        · rfl
    | _ => rfl
  map_congr {f g n} h := by
    cases n with
    | element tagName attributes children =>
        dsimp only at h ⊢
        split
        · rename_i hfits
          rw [if_pos hfits] at h
          rw [Slots.map_congr _ h]
        · rfl
    | _ => rfl
  map_id n := by
    cases n with
    | element tagName attributes children =>
        dsimp only
        rw [Slots.map_id, ite_self]
    | _ => rfl

end Node

/-- The slot of the first node of a list. -/
def headSlot (label : Bool → Slot) : Slots (List Node) Slot String :=
  @Slots.scan _ _ _ Bool (fun _ _ ↦ false)
    (fun first ↦ if first then Node.slot label else Slots.none) (fun _ _ _ ↦ rfl) true

/-- The slot of a translation. -/
def translationSlot (label : Bool → Slot) : Slots Node Slot String :=
  Node.inside (fun tagName ↦ tagName = "translation") (fun _ ↦ "") (fun _ ↦ headSlot label)
    fun _ _ _ ↦ rfl

/-- The sources before the previous translation, and those since, behind a node. -/
def passSource (c : List String × List String) (n : Node) : List String × List String :=
  if n.isNamed "translation" then (c.1 ++ c.2, [])
  else if n.isNamed "source" then (c.1, c.2 ++ [n.content])
  else c

/-- A change of the slot of a translation changes nothing that is read of a message. -/
theorem translationSlot_map (label : Bool → Slot) (f : Slot → String → String) (n : Node) :
    ((translationSlot label).map f n).isNamed "translation" = n.isNamed "translation" ∧
      (n.isNamed "translation" = false → (translationSlot label).map f n = n) := by
  cases n with
  | element tagName attributes children =>
      refine ⟨rfl, ?_⟩
      intro h
      show element tagName attributes (if decide (tagName = "translation") then _ else _) = _
      rw [show decide (tagName = "translation") = false from h, if_neg Bool.false_ne_true]
  | _ => exact ⟨rfl, fun _ ↦ rfl⟩

theorem passSource_map (label : Bool → Slot) (c : List String × List String)
    (f : Slot → String → String) (n : Node) :
    passSource c ((translationSlot label).map f n) = passSource c n := by
  obtain ⟨hname, hsame⟩ := translationSlot_map label f n
  cases hn : n.isNamed "translation" with
  | false => rw [hsame hn]
  | true =>
      unfold passSource
      rw [hname, hn]
      rfl

/-- The slots of a message. -/
def messageSlots (label : List String × List String → Bool → Slot)
    (c : List String × List String) : Slots (List Node) Slot String :=
  @Slots.scan _ _ _ _ passSource (fun c ↦ translationSlot (label c))
    (fun c ↦ passSource_map (label c) c) c

/-- A text of a list of nodes stays when the nodes that carry it stay. -/
theorem textOf_scan {C : Type} {advance : C → Node → C} {A : C → Slots Node Slot String}
    {tag : String} (h : ∀ c f n, ((A c).map f n).isCI tag = n.isCI tag ∧
      (n.isCI tag = true → (A c).map f n = n)) (f : Slot → String → String) (c : C)
    (nodes : List Node) : textOf tag (Slots.scanMap advance A f c nodes) = textOf tag nodes := by
  unfold textOf
  induction nodes generalizing c with
  | nil => rfl
  | cons n nodes ih =>
      obtain ⟨hkind, hsame⟩ := h c f n
      rw [Slots.scanMap, List.find?_cons, List.find?_cons, hkind]
      cases hn : n.isCI tag with
      | true => rw [hsame hn]
      | false => exact ih _

/-- Slots inside of elements with other tags leave the elements with a tag alone. -/
theorem Node.inside_map {fits : String → Bool} {key : List Node → String}
    {A : String → Slots (List Node) Slot String} {hkey : ∀ k f l, key ((A k).map f l) = key l}
    {tag : String} (hother : ∀ t, fits t → compareCI t tag = false) (f : Slot → String → String)
    (n : Node) : ((Node.inside fits key A hkey).map f n).isCI tag = n.isCI tag ∧
      (n.isCI tag = true → (Node.inside fits key A hkey).map f n = n) := by
  cases n with
  | element tagName attributes children =>
      refine ⟨rfl, ?_⟩
      intro htag
      have hfits : ¬ fits tagName = true := by
        intro hfits
        have := hother tagName hfits
        rw [show compareCI tagName tag = true from htag] at this
        cases this
      show element tagName attributes (if fits tagName then _ else _) = _
      rw [if_neg hfits]
  | _ => exact ⟨rfl, fun _ ↦ rfl⟩

/-- A tag that is compared without case is no other one. -/
theorem compareCI_other {a b : String} (hab : a ≠ b) (t : String) (ht : compareCI t a) :
    compareCI t b = false := by
  by_contra hb
  exact hab (compareCI_unique ht (Bool.not_eq_false _ ▸ hb))

theorem textOf_messageSlots (label : List String × List String → Bool → Slot)
    (f : Slot → String → String) (c : List String × List String) (nodes : List Node) :
    textOf "source" ((messageSlots label c).map f nodes) = textOf "source" nodes := by
  apply textOf_scan
  intro c f n
  apply Node.inside_map
  intro t ht
  rw [of_decide_eq_true ht]
  rfl

/-- The names before a message, behind a node. -/
def passName (names : List String) (n : Node) : List String :=
  if n.isCI "name" then names ++ [n.content] else names

/-- The labels of the messages of a context. -/
def slotLabel (context : String) (names : List String) (source : String)
    (c : List String × List String) (isText : Bool) : Slot :=
  ⟨context, names, source, c.1, c.2, isText⟩

/-- The slots of a child of a context. -/
def messageSlot (context : String) (names : List String) : Slots Node Slot String :=
  Node.inside (compareCI · "message") (textOf "source")
    (fun source ↦ messageSlots (slotLabel context names source) ([], []))
    fun _ f nodes ↦ textOf_messageSlots _ f _ nodes

theorem messageSlot_map (context : String) (names : List String) (f : Slot → String → String)
    (n : Node) : ((messageSlot context names).map f n).isCI "name" = n.isCI "name" ∧
      (n.isCI "name" = true → (messageSlot context names).map f n = n) :=
  Node.inside_map (compareCI_other (by decide)) f n

/-- The slots of a context. -/
def contextSlots (context : String) (names : List String) : Slots (List Node) Slot String :=
  @Slots.scan _ _ _ _ passName (messageSlot context)
    (by
      intro names f n
      obtain ⟨hkind, hsame⟩ := messageSlot_map context names f n
      unfold passName
      rw [hkind]
      cases hn : n.isCI "name" with
      | true => rw [hsame hn]
      | false => rfl) names

/-- The slots of a child of the root element. -/
def contextSlot : Slots Node Slot String :=
  Node.inside (compareCI · "context") (textOf "name") (fun context ↦ contextSlots context [])
    (by
      intro context f nodes
      apply textOf_scan
      exact fun names f n ↦ messageSlot_map context names f n)

/-- The slots of a document. -/
def docSlots : Slots Document Slot String :=
  Slots.focus Document.children (fun f doc ↦ { doc with children := f doc.children })
    (@Slots.scan _ _ _ Unit (fun c _ ↦ c) (fun _ ↦ contextSlot) (fun _ _ _ ↦ rfl) ())
    (fun _ ↦ rfl) (fun _ _ _ ↦ rfl)
    (by
      intro f g doc h
      exact congrArg (fun l ↦ { doc with children := l }) h)
    fun _ _ ↦ rfl

/-! ## Values and labels -/

theorem headSlot_map (label : Bool → Slot) (f : Slot → String → String) (nodes : List Node) :
    (headSlot label).map f nodes = nodes.modifyHead (mapValue fun isText ↦ f (label isText)) := by
  have hrest : ∀ l : List Node, Slots.scanMap (fun (_ : Bool) (_ : Node) ↦ false)
      (fun first ↦ if first then Node.slot label else Slots.none) f false l = l := by
    intro l
    induction l with
    | nil => rfl
    | cons n l ih => exact congrArg (n :: ·) ih
  cases nodes with
  | nil => rfl
  | cons n rest =>
      show Node.mapValue (fun isText ↦ f (label isText)) n :: _ = _
      rw [hrest]
      rfl

/-- The slots of a list have its label. -/
theorem label_headSlot {label : Bool → Slot} {nodes : List Node} :
    ∀ p ∈ (headSlot label).get nodes, ∃ isText, p.1 = label isText := by
  have hrest : ∀ l : List Node, Slots.scanGet (fun (_ : Bool) (_ : Node) ↦ false)
      (fun first ↦ if first then Node.slot label else Slots.none) false l = [] := by
    intro l
    induction l with
    | nil => rfl
    | cons n l ih => exact ih
  cases nodes with
  | nil => exact nofun
  | cons n rest =>
      show ∀ p ∈ (n.value.map fun p ↦ (label p.1, p.2)) ++ _, _
      rw [hrest, List.append_nil]
      intro p hp
      obtain ⟨⟨isText, data⟩, -, rfl⟩ := List.mem_map.mp hp
      exact ⟨isText, rfl⟩

theorem label_translationSlot {label : Bool → Slot} {n : Node} :
    ∀ p ∈ (translationSlot label).get n, ∃ isText, p.1 = label isText := by
  cases n with
  | element tagName attributes children =>
      show ∀ p ∈ (if decide (tagName = "translation") then _ else _), _
      split
      · exact label_headSlot
      · exact nofun
  | _ => exact nofun

/-- The labels of the slots of a message, from what holds of the sources before it. -/
theorem label_messageSlots {label : List String × List String → Bool → Slot}
    {P : List String × List String → Prop} (hpass : ∀ c n, P c → P (passSource c n))
    {c : List String × List String} (hc : P c) {nodes : List Node} :
    ∀ p ∈ (messageSlots label c).get nodes, ∃ c isText, P c ∧ p.1 = label c isText := by
  induction nodes generalizing c with
  | nil => exact nofun
  | cons n nodes ih =>
      intro p hp
      rcases List.mem_append.mp hp with hp | hp
      · obtain ⟨isText, hl⟩ := label_translationSlot p hp
        exact ⟨c, isText, hc, hl⟩
      · exact ih (hpass c n hc) p hp

/-! ## A recall is a write -/

namespace Recall

/-- The recall reaches the slot: every name before the message is that of the recall, and
its source stands before the translation and before no earlier one. -/
def hits (r : Recall) (l : Slot) : Bool :=
  l.names.all (· = r.name) && !l.earlier.contains r.source && l.sources.contains r.source

/-- The write of a recall. -/
def write (r : Recall) : Write Slot String := ⟨r.hits, r.value⟩

end Recall

section

variable {r : Recall}

/-- A recall that reaches the slot of a list sets the value of its first node. -/
theorem headSlot_write {label : Bool → Slot} (hhit : ∀ isText, r.hits (label isText) = true)
    (nodes : List Node) :
    (headSlot label).map r.write.run nodes = setFirstValue r.value nodes := by
  have hrun : ∀ isText data, r.write.run (label isText) data = r.value := fun isText _ ↦
    if_pos (hhit isText)
  rw [headSlot_map]
  cases nodes with
  | nil => rfl
  | cons n rest =>
      cases n <;> simp only [List.modifyHead_cons, mapValue, hrun, setFirstValue, setNodeValue]

variable {context source : String} {names : List String}

/-- A recall whose name differs from one before the message leaves the message as it is. -/
theorem messageSlots_otherName (hnames : names.all (· = r.name) = false)
    (c : List String × List String) (nodes : List Node) :
    (messageSlots (slotLabel context names source) c).map r.write.run nodes = nodes := by
  apply Slots.map_run_of_not_hits
  intro p hp
  obtain ⟨c, isText, -, hl⟩ := label_messageSlots (P := fun _ ↦ True) (fun _ _ h ↦ h) trivial p hp
  rw [hl]
  show (names.all _ && _ && _) = false
  rw [hnames, Bool.false_and, Bool.false_and]

/-- Behind the translation that a recall takes, it leaves the message as it is. -/
theorem messageSlots_written {c : List String × List String} (hc : r.source ∈ c.1)
    (nodes : List Node) :
    (messageSlots (slotLabel context names source) c).map r.write.run nodes = nodes := by
  apply Slots.map_run_of_not_hits
  intro p hp
  have hpass : ∀ (c : List String × List String) (n : Node), r.source ∈ c.1 →
      r.source ∈ (passSource c n).1 := by
    intro c n h
    unfold passSource
    split
    · exact List.mem_append_left _ h
    · split
      · exact h
      · exact h
  obtain ⟨c, isText, hc, hl⟩ := label_messageSlots hpass hc p hp
  rw [hl]
  show (names.all _ && !c.1.contains r.source && _) = false
  rw [List.contains_iff_mem.mpr hc]
  simp

/-- Behind the source, a recall takes the next translation. -/
theorem messageSlots_afterSource (hnames : names.all (· = r.name) = true)
    {c : List String × List String} (hearlier : r.source ∉ c.1) (hsource : r.source ∈ c.2)
    (nodes : List Node) :
    (messageSlots (slotLabel context names source) c).map r.write.run nodes =
      writeTranslation r.value nodes := by
  induction nodes generalizing c with
  | nil => rfl
  | cons n nodes ih =>
      obtain ⟨-, hsame⟩ := translationSlot_map (slotLabel context names source c) r.write.run n
      show _ ::
        (messageSlots (slotLabel context names source) (passSource c n)).map r.write.run nodes = _
      rw [writeTranslation]
      cases htranslation : n.isNamed "translation" with
      | true =>
          -- the translation that is taken
          have hpass : passSource c n = (c.1 ++ c.2, []) := if_pos htranslation
          have hhit : ∀ isText, r.hits (slotLabel context names source c isText) = true := by
            intro isText
            show (names.all _ && !c.1.contains r.source && c.2.contains r.source) = true
            rw [hnames, List.contains_iff_mem.mpr hsource]
            simpa using hearlier
          rw [hpass, messageSlots_written (List.mem_append_right _ hsource), if_pos rfl]
          cases n with
          | element tagName attributes children =>
              show Node.element tagName attributes
                (if decide (tagName = "translation") then _ else _) :: _ = _
              rw [show decide (tagName = "translation") = true from htranslation, if_pos rfl,
                headSlot_write hhit]
              rfl
          | _ => cases htranslation
      | false =>
          rw [if_neg Bool.false_ne_true, hsame htranslation]
          congr 1
          unfold passSource
          rw [htranslation, if_neg Bool.false_ne_true]
          split
          · exact ih hearlier (List.mem_append_left _ hsource)
          · exact ih hearlier hsource

/-- Before the source, a recall looks for it. -/
theorem messageSlots_beforeSource (hnames : names.all (· = r.name) = true)
    {c : List String × List String} (hearlier : r.source ∉ c.1) (hsource : r.source ∉ c.2)
    (nodes : List Node) :
    (messageSlots (slotLabel context names source) c).map r.write.run nodes =
      recallMessage r.source r.value nodes := by
  induction nodes generalizing c with
  | nil => rfl
  | cons n nodes ih =>
      -- no slot before the source is reached
      have hsame : (translationSlot (slotLabel context names source c)).map r.write.run n = n := by
        apply Slots.map_run_of_not_hits
        intro p hp
        obtain ⟨isText, hl⟩ := label_translationSlot p hp
        rw [hl]
        show (_ && c.2.contains r.source) = false
        simpa using fun _ _ ↦ hsource
      show _ :: (messageSlots (slotLabel context names source) (passSource c n)).map _ nodes = _
      rw [hsame, recallMessage]
      cases hn : n.isNamed "source" with
      | false =>
          rw [Bool.false_and, if_neg Bool.false_ne_true]
          congr 1
          unfold passSource
          rw [hn, if_neg Bool.false_ne_true]
          split
          · apply ih
            · simpa using ⟨hearlier, hsource⟩
            · exact List.not_mem_nil
          · exact ih hearlier hsource
      | true =>
          have htranslation : n.isNamed "translation" = false := by
            cases n with
            | element tagName _ _ =>
                rw [Node.isNamed, decide_eq_true_eq] at hn
                rw [Node.isNamed, hn]
                rfl
            | _ => cases hn
          have hpass : passSource c n = (c.1, c.2 ++ [n.content]) := by
            unfold passSource
            rw [htranslation, if_neg Bool.false_ne_true, if_pos hn]
          rw [hpass, Bool.true_and]
          by_cases hcontent : n.content = r.source
          · rw [if_pos (decide_eq_true hcontent)]
            congr 1
            refine messageSlots_afterSource (c := (c.1, c.2 ++ [n.content])) hnames hearlier ?_
              nodes
            rw [← hcontent]
            exact List.mem_append_right _ List.mem_cons_self
          · rw [if_neg (by simpa using hcontent)]
            congr 1
            refine ih (c := (c.1, c.2 ++ [n.content])) hearlier ?_
            simpa using ⟨hsource, fun h ↦ hcontent h.symm⟩

/-- A message as the slots of its context see it. -/
theorem messageSlot_message (f : Slot → String → String) {n : Node} (hn : n.isCI "message" = true) :
    (messageSlot context names).map f n = n.mapChildren
      ((messageSlots (slotLabel context names (textOf "source" n.children)) ([], [])).map f) := by
  cases n with
  | element tagName attributes children =>
      show Node.element tagName attributes (if compareCI tagName "message" then _ else _) = _
      rw [show compareCI tagName "message" = true from hn, if_pos rfl]
      rfl
  | _ => cases hn

theorem messageSlot_other (f : Slot → String → String) {n : Node} (hn : n.isCI "message" = false) :
    (messageSlot context names).map f n = n := by
  cases n with
  | element tagName attributes children =>
      show Node.element tagName attributes (if compareCI tagName "message" then _ else _) = _
      rw [show compareCI tagName "message" = false from hn, if_neg Bool.false_ne_true]
  | _ => rfl

theorem mapChildren_self {f : List Node → List Node} {n : Node} (h : f n.children = n.children) :
    n.mapChildren f = n := by
  cases n with
  | element tagName attributes children => exact congrArg (element tagName attributes) h
  | _ => rfl

theorem mapChildren_congr {f g : List Node → List Node} {n : Node}
    (h : f n.children = g n.children) : n.mapChildren f = n.mapChildren g := by
  cases n with
  | element tagName attributes children => exact congrArg (element tagName attributes) h
  | _ => rfl

/-- Behind a name that is not its own, a recall leaves the context as it is. -/
theorem contextSlots_otherName (hnames : names.all (· = r.name) = false) (nodes : List Node) :
    (contextSlots context names).map r.write.run nodes = nodes := by
  induction nodes generalizing names with
  | nil => rfl
  | cons n nodes ih =>
      have hn : (messageSlot context names).map r.write.run n = n := by
        cases hmsg : n.isCI "message" with
        | false => exact messageSlot_other _ hmsg
        | true =>
            rw [messageSlot_message _ hmsg]
            exact mapChildren_self (messageSlots_otherName hnames _ _)
      have hpass : (passName names n).all (· = r.name) = false := by
        unfold passName
        split
        · rw [List.all_append, hnames, Bool.false_and]
        · exact hnames
      show _ :: (contextSlots context (passName names n)).map r.write.run nodes = _
      rw [hn, ih hpass]

/-- A recall is a write of the slots of a context. -/
theorem contextSlots_write (hnames : names.all (· = r.name) = true) (nodes : List Node) :
    (contextSlots context names).map r.write.run nodes =
      recallContext r.name r.source r.value nodes := by
  induction nodes generalizing names with
  | nil => rfl
  | cons n nodes ih =>
      show _ :: (contextSlots context (passName names n)).map r.write.run nodes = _
      rw [recallContext]
      cases hmsg : n.isCI "message" with
      | true =>
          have hname : n.isCI "name" = false := not_isCI_name hmsg
          have hpass : passName names n = names := by
            unfold passName
            rw [hname, if_neg Bool.false_ne_true]
          rw [hname, Bool.false_and, if_neg Bool.false_ne_true, if_pos rfl, hpass, ih hnames,
            messageSlot_message _ hmsg]
          congr 1
          exact mapChildren_congr
            (messageSlots_beforeSource hnames List.not_mem_nil List.not_mem_nil _)
      | false =>
          rw [messageSlot_other _ hmsg, if_neg Bool.false_ne_true]
          cases hname : n.isCI "name" with
          | false =>
              have hpass : passName names n = names := by
                unfold passName
                rw [hname, if_neg Bool.false_ne_true]
              rw [Bool.false_and, if_neg Bool.false_ne_true, hpass, ih hnames]
          | true =>
              have hpass : passName names n = names ++ [n.content] := if_pos hname
              rw [hpass, Bool.true_and]
              by_cases hcontent : n.content = r.name
              · rw [if_neg (by simpa using hcontent)]
                congr 1
                apply ih
                rw [List.all_append, hnames]
                simpa using hcontent
              · -- the recall leaves the context here
                rw [if_pos (by simpa using hcontent)]
                congr 1
                apply contextSlots_otherName
                rw [List.all_append]
                simpa using fun _ ↦ hcontent

end

/-- **A recall is a write**: it overwrites the slots that it reaches. -/
theorem apply_eq (r : Recall) (doc : Document) : r.apply doc = docSlots.map r.write.run doc := by
  have hnodes : ∀ nodes : List Node, nodes.map (recallNode r.name r.source r.value) =
      Slots.scanMap (fun (c : Unit) (_ : Node) ↦ c) (fun _ ↦ contextSlot) r.write.run () nodes := by
    intro nodes
    induction nodes with
    | nil => rfl
    | cons n nodes ih =>
        rw [List.map_cons, Slots.scanMap, ih]
        congr 1
        unfold recallNode
        cases n with
        | element tagName attributes children =>
            show _ = Node.element tagName attributes (if compareCI tagName "context" then _ else _)
            rw [contextSlots_write rfl]
            show (if compareCI tagName "context" then _ else _) = _
            split <;> rfl
        | _ => rfl
  exact congrArg (fun l ↦ { doc with children := l }) (hnodes doc.children)

end CodeToolKit.TrimTSFile
