import Mathlib.Data.List.Basic

/-!
# The XML documents of `TrimTSFile`

`QDomDocument` as an ordered tree.  A node is an element with its attributes and
children, or one of the kinds of leaf a parsed file can hold; text and CDATA sections
are the kinds that count as text.

Tag names are compared in two ways: exactly, by `firstChildElement` and
`nextSiblingElement` with a name, and with `Qt::CaseInsensitive`, by Unicode case
folding.
-/

namespace CodeToolKit.TrimTSFile

/-- The attributes of an element. -/
abbrev Attrs := List (String × String)

/-- `QDomNode`. -/
inductive Node where
  | element (tagName : String) (attributes : Attrs) (children : List Node)
  | text (data : String)
  | cdataSection (data : String)
  | comment (data : String)
  | processingInstruction (target data : String)
  | entityReference (name : String)
  | documentType (name : String)
deriving Repr

/-- A `QDomDocument` that is not null. -/
structure Document where
  /-- What stands before the root element. -/
  prolog : List Node
  tagName : String
  attributes : Attrs
  children : List Node
  /-- What stands after the root element. -/
  epilog : List Node
deriving Repr

namespace Node

/-- Whether `toElement` is not null. -/
def isElement : Node → Bool
  | element _ _ _ => true
  | _ => false

mutual

/-- What a node adds to the `text()` of its parent. -/
def content : Node → String
  | element _ _ children => contents children
  | text data | cdataSection data => data
  | _ => ""

/-- `QDomElement::text()`, from the children of the element. -/
def contents : List Node → String
  | [] => ""
  | n :: rest => content n ++ contents rest

end

/-- `setNodeValue`: text, CDATA, comments and processing instructions have a value. -/
def setNodeValue (value : String) : Node → Node
  | text _ => text value
  | cdataSection _ => cdataSection value
  | comment _ => comment value
  | processingInstruction target _ => processingInstruction target value
  | n => n

end Node

open Node

/-- Case folding, as far as a comparison with lower-case ASCII can tell: besides the
capitals only the long s and the Kelvin sign fold to an ASCII letter. -/
def foldCase (c : Char) : Char :=
  if c = '\u017f' then 's' else if c = '\u212a' then 'k' else c.toLower

/-- `a.compare(b, Qt::CaseInsensitive) == 0`, for a lower-case ASCII `b`. -/
def compareCI (a b : String) : Bool := a.toList.map foldCase = b.toList

/-- An element with this tag name, compared without case. -/
def Node.isCI (name : String) : Node → Bool
  | element tagName _ _ => compareCI tagName name
  | _ => false

/-- An element with exactly this tag name. -/
def Node.isNamed (name : String) : Node → Bool
  | element tagName _ _ => tagName = name
  | _ => false

/-- The children of an element; other nodes have none. -/
def Node.children : Node → List Node
  | element _ _ children => children
  | _ => []

/-- Change the children of an element. -/
def Node.mapChildren (f : List Node → List Node) : Node → Node
  | element tagName attributes children => element tagName attributes (f children)
  | n => n

theorem Node.isCI_mapChildren (name : String) (f : List Node → List Node) (n : Node) :
    (n.mapChildren f).isCI name = n.isCI name := by
  cases n <;> rfl

theorem Node.children_mapChildren {name : String} {n : Node} (h : n.isCI name = true)
    (f : List Node → List Node) : (n.mapChildren f).children = f n.children := by
  cases n with
  | element => rfl
  | _ => cases h

/-- `firstChildElement(name)` among the children of an element, with the siblings after
it. -/
def firstChildElement (name : String) (children : List Node) : Option (Node × List Node) :=
  match children.dropWhile fun n ↦ !n.isNamed name with
  | [] => none
  | n :: rest => some (n, rest)

/-- No name matches two of the tags the program looks for. -/
theorem compareCI_unique {tag a b : String} (ha : compareCI tag a) (hb : compareCI tag b) :
    a = b := by
  unfold compareCI at ha hb
  rw [decide_eq_true_eq] at ha hb
  exact String.toList_inj.mp (ha.symm.trans hb)

end CodeToolKit.TrimTSFile
