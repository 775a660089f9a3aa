import Mathlib.Data.List.Sort
import Mathlib.Data.List.Dedup
import Vouch.Saml.Xml

/-!
# Exclusive canonicalisation

The canonical form of an element, over which XML signatures are computed
(`services/idp/saml/c14n.rs`).  Each element declares the namespaces it visibly uses, unless its
nearest output ancestor with the prefix declared them already; attributes are sorted; comments and
processing instructions are left out; text and attribute values are escaped.

* `elementPrefix`, `attrPrefix` — the prefix a name is written with.  It is read off the source text
  and used if it stands for the name's namespace; otherwise some binding of that namespace is looked
  up among the declarations in scope on the element and its ancestors.
* `collectNamespaces`, `namespacesToRender` — what an element declares, with the undeclaration
  `xmlns=""` of a default namespace.
* `canonicalizeNodes`, `exclusiveC14n` — the canonical text.

Namespace names are written as they are: only text and attribute values go through the escapes.
-/

namespace Vouch.Saml

open Xml

/-! ## Escapes -/

/-- Escapes the text of an element. -/
def escapeText (s : String) : String :=
  String.ofList (s.toList.flatMap fun
    | '&' => "&amp;".toList
    | '<' => "&lt;".toList
    | '>' => "&gt;".toList
    | '\r' => "&#xD;".toList
    | c => [c])

/-- Escapes the value of an attribute. -/
def escapeAttribute (s : String) : String :=
  String.ofList (s.toList.flatMap fun
    | '&' => "&amp;".toList
    | '<' => "&lt;".toList
    | '"' => "&quot;".toList
    | '\t' => "&#x9;".toList
    | '\n' => "&#xA;".toList
    | '\r' => "&#xD;".toList
    | c => [c])

/-! ## Prefixes

`scopes` are the declarations in scope on an element and on its ancestors, nearest first. -/

/-- A prefix bound to a namespace.  The candidates are collected nearest first, so that the stable
sort by depth leaves the first one in front. -/
def findPrefixForUri (scopes : List (List Namespace)) (uri : String) : Option String :=
  (scopes.flatten.find? fun n => n.uri = uri ∧ n.name.getD "" ≠ "xml").map (·.name.getD "")

/-- A prefix bound to a namespace that an attribute can have: the default binding is none. -/
def findAttrPrefixForUri (scopes : List (List Namespace)) (uri : String) : Option String :=
  (scopes.flatten.find? fun n => n.uri = uri ∧ n.name.getD "" ≠ "" ∧ n.name.getD "" ≠ "xml").map
    (·.name.getD "")

/-- What a prefix stands for. -/
def resolvePrefixInScope (scopes : List (List Namespace)) (p : String) : Option String :=
  (scopes.flatten.find? fun n => n.name.getD "" = p).map (·.uri)

/-- The prefix a qualified name was written with, if it stands for the given namespace. -/
def sourcePrefix (head : Head) (qname uri : String) : Option String :=
  ((splitOnce ':' qname).map (·.1)).filter fun p =>
    lookupNamespaceUri head.namespaces (some p) = some uri

/-- The prefix an element was written with; empty for the default namespace. -/
def elementPrefix (ancestors : List (List Namespace)) (head : Head) : Option String :=
  let nsUri := head.tagName.ns.getD ""
  match sourcePrefix head head.qname nsUri with
  | some p => some p
  | none =>
    if lookupNamespaceUri head.namespaces none = some nsUri then some ""
    else findPrefixForUri (head.namespaces :: ancestors) nsUri

/-- The prefix an attribute was written with. -/
def attrPrefix (ancestors : List (List Namespace)) (head : Head) (attr : Attribute) :
    Option String :=
  match attr.name.ns with
  | none => none
  | some nsUri =>
    (sourcePrefix head attr.qname nsUri).orElse fun _ =>
      findAttrPrefixForUri (head.namespaces :: ancestors) nsUri

/-- The qualified name of an element. -/
def nodeQualifiedName (ancestors : List (List Namespace)) (head : Head) : String :=
  let nsUri := head.tagName.ns.getD ""
  if nsUri = "" ∨ nsUri = nsXml then head.tagName.name
  else
    match elementPrefix ancestors head with
    | none => head.tagName.name
    | some p => if p = "" then head.tagName.name else p ++ ":" ++ head.tagName.name

/-- The qualified name of an attribute. -/
def attrQualifiedName (ancestors : List (List Namespace)) (head : Head) (attr : Attribute) :
    String :=
  let nsUri := attr.name.ns.getD ""
  if nsUri ≠ "" ∧ nsUri ≠ nsXml then
    match attrPrefix ancestors head attr with
    | some p => p ++ ":" ++ attr.name.name
    | none => attr.name.name
  else if nsUri = nsXml then "xml:" ++ attr.name.name
  else attr.name.name

/-! ## Declarations -/

/-- For every prefix, the binding most recently written by an ancestor, in front. -/
abbrev Rendered := List (String × String)

/-- The order of a set of pairs. -/
def pairLe (a b : String × String) : Prop := a.1 < b.1 ∨ a.1 = b.1 ∧ a.2 ≤ b.2

instance : DecidableRel pairLe := fun _ _ => inferInstanceAs (Decidable (_ ∨ _))

/-- Sorts declarations by prefix. -/
def sortByPrefix (entries : List (String × String)) : List (String × String) :=
  entries.insertionSort (·.1 ≤ ·.1)

/-- The declaration that the name of an element needs. -/
def elementNamespace (ancestors : List (List Namespace)) (head : Head) : List (String × String) :=
  if head.tagName.ns.getD "" = "" ∨ head.tagName.ns.getD "" = nsXml then []
  else [((elementPrefix ancestors head).getD "", head.tagName.ns.getD "")]

/-- The declaration that the name of an attribute needs. -/
def attributeNamespace (ancestors : List (List Namespace)) (head : Head) (attr : Attribute) :
    Option (String × String) :=
  if attr.name.ns.getD "" = "" ∨ attr.name.ns.getD "" = nsXml ∨ attr.name.ns.getD "" = nsXmlns then
    none
  else (attrPrefix ancestors head attr).map fun p => (p, attr.name.ns.getD "")

/-- The declaration of a prefix that is listed as inclusive, if it is in scope. -/
def inclusiveNamespace (scopes : List (List Namespace)) (p : String) : Option (String × String) :=
  ((resolvePrefixInScope scopes p).filter (· ≠ "")).map fun uri => (p, uri)

/-- The declarations an element needs: those of its own name, of its attributes and of the prefixes
listed as inclusive. -/
def usedNamespaces (inclusive : List String) (ancestors : List (List Namespace)) (head : Head) :
    List (String × String) :=
  elementNamespace ancestors head ++
    (head.attributes.filterMap (attributeNamespace ancestors head) ++
      inclusive.filterMap fun p =>
        inclusiveNamespace (head.namespaces :: ancestors) (if p = "#default" then "" else p))

/-- The declarations an element needs that its output ancestors do not provide. -/
def collectNamespaces (inclusive : List String) (ancestors : List (List Namespace)) (head : Head)
    (rendered : Rendered) : List (String × String) :=
  ((usedNamespaces inclusive ancestors head).dedup.insertionSort pairLe).filter fun e =>
    rendered.lookup e.1 ≠ some e.2

/-- Whether an element has to undeclare the default namespace of an output ancestor. -/
def undeclaresDefault (inclusive : List String) (ancestors : List (List Namespace)) (head : Head)
    (rendered : Rendered) (entries : List (String × String)) : Bool :=
  let elemNsUri := head.tagName.ns.getD ""
  let elemUsesDefaultNs := elemNsUri = "" || elemNsUri = nsXml ||
    (elementPrefix ancestors head).getD "" = "" || "#default" ∈ inclusive
  elemUsesDefaultNs && !entries.any (·.1 = "") &&
    (lookupNamespaceUri head.namespaces none).getD "" = "" && (rendered.lookup "").getD "" ≠ ""

/-- What an element declares, in the order it is written. -/
def namespacesToRender (inclusive : List String) (ancestors : List (List Namespace)) (head : Head)
    (rendered : Rendered) : List (String × String) :=
  let entries := sortByPrefix (collectNamespaces inclusive ancestors head rendered)
  if undeclaresDefault inclusive ancestors head rendered entries then
    sortByPrefix (entries ++ [("", "")])
  else entries

/-- The attribute a declaration is written as. -/
def namespaceAttribute (p : String) : String := if p = "" then "xmlns" else "xmlns:" ++ p

/-! ## The canonical text -/

/-- Attributes are sorted by namespace name, then by local name. -/
def attributeLe (a b : Attribute) : Prop :=
  a.name.ns.getD "" < b.name.ns.getD "" ∨
    a.name.ns.getD "" = b.name.ns.getD "" ∧ a.name.name ≤ b.name.name

instance : DecidableRel attributeLe := fun _ _ => inferInstanceAs (Decidable (_ ∨ _))

/-- The attributes that are written, in the order they are written. -/
def attributesToRender (head : Head) : List Attribute :=
  (head.attributes.insertionSort attributeLe).filter fun a => a.name.ns.getD "" ≠ nsXmlns

/-- The canonical text of some nodes, below output ancestors that declared `rendered`. -/
def canonicalizeNodes (inclusive : List String) (ancestors : List (List Namespace))
    (rendered : Rendered) : Nodes → String
  | .nil => ""
  | .text s rest => escapeText s ++ canonicalizeNodes inclusive ancestors rendered rest
  | .misc rest => canonicalizeNodes inclusive ancestors rendered rest
  | .element head children rest =>
    let qname := nodeQualifiedName ancestors head
    let entries := namespacesToRender inclusive ancestors head rendered
    "<" ++ qname ++
      (entries.map fun e => " " ++ namespaceAttribute e.1 ++ "=\"" ++ e.2 ++ "\"").foldr
        (· ++ ·) "" ++
      ((attributesToRender head).map fun a =>
        " " ++ attrQualifiedName ancestors head a ++ "=\"" ++ escapeAttribute a.value ++ "\"").foldr
          (· ++ ·) "" ++
      ">" ++
      canonicalizeNodes inclusive (head.namespaces :: ancestors)
        (entries.foldl (fun r e => e :: r) rendered) children ++
      "</" ++ qname ++ ">" ++ canonicalizeNodes inclusive ancestors rendered rest

/-- The exclusive canonical form of an element. -/
def exclusiveC14n (node : Node) (inclusive : List String) : String :=
  canonicalizeNodes inclusive node.ancestors []
    (.element node.element.head node.element.children .nil)

end Vouch.Saml
