import Flowchart.Number.Decimal
import Flowchart.Text.Lines
import Flowchart.Xml
import Flowchart.Yaml.Cursor

/-!
What a well-formed document is, and which tree it stands for: the rules of XML 1.0 for names, references, attributes
and content, less declarations and what they declare.
-/
namespace Flowchart.Xml

/-- A piece of content. An element has attributes and content of its own. -/
inductive Item where
  | char (c : Char)
  | raw (text : List Char)
  | comment (text : List Char)
  | instruction (text : List Char)
  | element (name : String) (attributes : List (String × String)) (content : List Item)

namespace Item

/-- Whether the item may stand beside the root of a document. -/
def isAside : Item → Bool
  | comment _ | instruction _ => true
  | char _ | raw _ | element _ _ _ => false

def isElement : Item → Bool
  | element _ _ _ => true
  | char _ | raw _ | comment _ | instruction _ => false

end Item

/-- The code point of a character lies in one of the ranges. -/
def isAmong (ranges : List (Nat × Nat)) (c : Char) : Bool :=
  ranges.any fun range => range.1 ≤ c.toNat && c.toNat ≤ range.2

/-- A character that a document may have. -/
def isLegal : Char → Bool :=
  isAmong [(0x9, 0xA), (0xD, 0xD), (0x20, 0xD7FF), (0xE000, 0xFFFD), (0x10000, 0x10FFFF)]

def isSpace (c : Char) : Bool :=
  c = ' ' || c = '\t' || c = '\n' || c = '\r'

def isNameStart : Char → Bool :=
  isAmong [(0x3A, 0x3A), (0x41, 0x5A), (0x5F, 0x5F), (0x61, 0x7A), (0xC0, 0xD6), (0xD8, 0xF6), (0xF8, 0x2FF),
    (0x370, 0x37D), (0x37F, 0x1FFF), (0x200C, 0x200D), (0x2070, 0x218F), (0x2C00, 0x2FEF), (0x3001, 0xD7FF),
    (0xF900, 0xFDCF), (0xFDF0, 0xFFFD), (0x10000, 0xEFFFF)]

def isNameChar (c : Char) : Bool :=
  isNameStart c || isAmong [(0x2D, 0x2E), (0x30, 0x39), (0xB7, 0xB7), (0x300, 0x36F), (0x203F, 0x2040)] c

def isName : List Char → Bool
  | [] => false
  | c :: cs => isNameStart c && cs.all isNameChar

/-- The entities that need no declaration. -/
def entities : List (List Char × Char) :=
  [(['l', 't'], '<'), (['g', 't'], '>'), (['a', 'm', 'p'], '&'), (['q', 'u', 'o', 't'], '"'),
    (['a', 'p', 'o', 's'], '\'')]

/-- What may stand between an ampersand and a semicolon, and the character it refers to. -/
inductive Reference : List Char → Char → Prop
  | entity {name c} : (name, c) ∈ entities → Reference name c
  | decimal {digits c} : digits ≠ [] → digits.all Char.isDigit = true → Number.digitsValue digits = c.toNat →
      isLegal c = true → Reference ('#' :: digits) c
  | hexadecimal {digits c} : digits ≠ [] → digits.all Yaml.isHexDigit = true →
      Yaml.hexValue digits = c.toNat → isLegal c = true → Reference ('#' :: 'x' :: digits) c

/-- What may stand between two quotes, and the value it gives an attribute. A blank gives a space. -/
inductive Value (quote : Char) : List Char → List Char → Prop
  | nil : Value quote [] []
  | char {c text value} : isLegal c = true → c ≠ quote → c ≠ '<' → c ≠ '&' → Value quote text value →
      Value quote (c :: text) ((if isSpace c then ' ' else c) :: value)
  | reference {body c text value} : Reference body c → Value quote text value →
      Value quote ('&' :: body ++ ';' :: text) (c :: value)

inductive Attributes : List Char → List (String × String) → Prop
  | nil : Attributes [] []
  | cons {blanks name before behind quote text value rest attributes} : blanks ≠ [] → blanks.all isSpace = true →
      isName name = true → before.all isSpace = true → behind.all isSpace = true → quote ∈ ['"', '\''] →
      Value quote text value → Attributes rest attributes →
      Attributes (blanks ++ name ++ before ++ '=' :: behind ++ quote :: text ++ quote :: rest)
        ((String.ofList name, String.ofList value) :: attributes)

/-- The end mark does not begin before the end of the body. -/
def EndsAt (mark body : List Char) : Prop :=
  ¬mark <:+: body ++ mark.dropLast

/-- What may stand between a start tag and its end tag, and the items it stands for. -/
inductive Content : List Char → List Item → Prop
  | nil : Content [] []
  | char {c text items} : isLegal c = true → c ≠ '<' → c ≠ '&' → ¬[']', ']', '>'] <+: c :: text →
      Content text items → Content (c :: text) (.char c :: items)
  | reference {body c text items} : Reference body c → Content text items →
      Content ('&' :: body ++ ';' :: text) (.char c :: items)
  | comment {body text items} : body.all isLegal = true → EndsAt ['-', '-'] body → Content text items →
      Content ('<' :: '!' :: '-' :: '-' :: body ++ '-' :: '-' :: '>' :: text) (.comment body :: items)
  | raw {body text items} : body.all isLegal = true → EndsAt [']', ']', '>'] body → Content text items →
      Content ('<' :: '!' :: '[' :: 'C' :: 'D' :: 'A' :: 'T' :: 'A' :: '[' :: body ++ ']' :: ']' :: '>' :: text)
        (.raw body :: items)
  | instruction {target body text items} : isName target = true → target.map Char.toLower ≠ ['x', 'm', 'l'] →
      (∀ c ∈ body.head?, isSpace c = true) → body.all isLegal = true → EndsAt ['?', '>'] (target ++ body) →
      Content text items →
      Content ('<' :: '?' :: target ++ body ++ '?' :: '>' :: text) (.instruction (target ++ body) :: items)
  | empty {name inside attributes blanks text items} : isName name = true → Attributes inside attributes →
      (attributes.map Prod.fst).Nodup → blanks.all isSpace = true → Content text items →
      Content ('<' :: name ++ inside ++ blanks ++ '/' :: '>' :: text)
        (.element (String.ofList name) attributes [] :: items)
  | element {name inside attributes blanks content children spaces text items} : isName name = true →
      Attributes inside attributes → (attributes.map Prod.fst).Nodup → blanks.all isSpace = true →
      Content content children → spaces.all isSpace = true → Content text items →
      Content ('<' :: name ++ inside ++ blanks ++ '>' :: content ++ '<' :: '/' :: name ++ spaces ++ '>' :: text)
        (.element (String.ofList name) attributes children :: items)

/-- The text of a document and its root, beside which only comments and instructions may stand. Line ends are unified
before anything else is read. -/
def IsDocument (text : String) (root : Item) : Prop :=
  ∃ front behind, (front ++ behind).all Item.isAside = true ∧ root.isElement = true ∧
    Content (Text.unifyNewlines text.toList) (front ++ root :: behind)

end Flowchart.Xml
