import LoxLang.Text.Base64
import LoxLang.Text.Utf8
import LoxLang.Yaml.Plain

/-! The nodes of a YAML document, and what its scalars stand for. -/
namespace LoxLang.Yaml

/-- A scalar with its tag, which is empty if none is given. -/
structure Scalar where
  tag : String := ""
  /-- The form of the text may decide what it stands for: it is not quoted. -/
  plain : Bool := true
  text : List Char
  line : Nat
deriving DecidableEq, Inhabited, Repr

inductive Node where
  | scalar (scalar : Scalar)
  | sequence (items : List Node) (line : Nat)
  | mapping (entries : List (Node × Node)) (line : Nat)
  /-- The place of a node that is found elsewhere, by the number of its anchor. -/
  | reference (name : String) (target : Nat) (line : Nat)
deriving Inhabited

namespace Node

/-- A node that is not written: null. -/
def absent (line : Nat) : Node :=
  .scalar { text := [], line }

def line : Node → Nat
  | scalar s => s.line
  | sequence _ line | mapping _ line | reference _ _ line => line

def isMapping : Node → Bool
  | mapping _ _ => true
  | _ => false

end Node

/-- A document: its root, the nodes with anchors, numbered in the order in which they begin, and the
number that each name of an anchor has at the end. -/
structure Document where
  root : Node
  anchored : List (Nat × Node) := []
  anchors : List (String × Nat) := []
deriving Inhabited

namespace Document

def target? (d : Document) (number : Nat) : Option Node :=
  d.anchored.lookup number

/-- The node that has the name of an anchor at the end of the document. -/
def named? (d : Document) (name : String) : Option Node :=
  (d.anchors.lookup name).bind d.target?

end Document

/-! Tags. -/

def commonTag : String := "tag:yaml.org,2002:"

def shownTag (tag : String) : String :=
  if tag.startsWith commonTag then "!!" ++ String.ofList (tag.toList.drop commonTag.length) else tag

namespace Plain

def tag : Plain → String
  | null => commonTag ++ "null"
  | bool _ => commonTag ++ "bool"
  | int _ => commonTag ++ "int"
  | float _ => commonTag ++ "float"
  | timestamp => commonTag ++ "timestamp"
  | str => commonTag ++ "str"

/-- The tags that a scalar's text has to agree with. -/
def typedTags : List String :=
  ["bool", "int", "float", "null", "timestamp"].map (commonTag ++ ·)

/-- What a text stands for under a tag that it has to agree with. A whole number also agrees with the
tag of fractions. -/
def agreeing? (tag : String) (text : List Char) : Option Plain :=
  let plain := resolve (tag == timestamp.tag) text
  if plain.tag == tag then some plain
  else
    match plain with
    | int n =>
      if tag == (float 0).tag && n < Int.pow 2 63 then
        let x := Float.ofBits (UInt64.ofNat (Number.nearest n.natAbs 1))
        some (float (if n < 0 then -x else x))
      else none
    | _ => none

end Plain

namespace Scalar

/-- What the scalar stands for, and its text, which is decoded if the tag says that it holds bytes. A
scalar that is quoted, or has the tag of strings or an unknown one, is a string. If the text does not
agree with the tag, it stands for nothing. -/
def meaning? (s : Scalar) : Option (Plain × List Char) :=
  if s.tag == "" then some (if s.plain then Plain.resolve true s.text else .str, s.text)
  else if s.tag == commonTag ++ "binary" then
    (Text.decodeBase64? s.text).map fun bytes => (.str, Text.decodeUtf8 bytes)
  else if Plain.typedTags.contains s.tag then (Plain.agreeing? s.tag s.text).map (·, s.text)
  else some (.str, s.text)

def isMerge (s : Scalar) : Bool :=
  s.text == ['<', '<'] && (s.plain || s.tag == commonTag ++ "merge")

end Scalar
end LoxLang.Yaml
