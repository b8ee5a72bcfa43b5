import ApiExposure.Net.NameMapping
import ApiExposure.Net.Punycode
import ApiExposure.Net.Address
import ApiExposure.Unicode.Direction
import ApiExposure.Unicode.Joining
import ApiExposure.Unicode.Mark

/-!
# Domain names

A domain name is mapped before it is checked. The result must not hold a
character that has a meaning in URLs, nor a control character or blank. A label
marked as encoded must decode to a text that needed the encoding and that the
mapping leaves as it is. No label begins with a mark, an invisible joiner stands
only where it shows, and in a name with letters from right to left every label
keeps to one direction.
-/

namespace ApiExposure.Net

open Text Unicode

/-- ASCII characters that a name cannot hold. -/
def isForbidden (c : Char) : Bool :=
  c.toNat ≤ 0x20 || c.toNat == 0x7F || "%#/:<>?@[\\]^|".toList.contains c

/-- Greatest length of a label beyond ASCII. -/
def greatestLabel : Nat := 1000

/-- Greatest length of an encoded label behind its mark. -/
def greatestEncoding : Nat := 2000

/-- Separates letters that would join. -/
def nonJoiner : Char := '\u200C'

/-- Joins letters that would stay apart. -/
def joiner : Char := '\u200D'

/-- Whether every joiner of a label shows, given the characters before, the nearest first. Behind
a sign that silences a vowel both kinds do; elsewhere letters must join that the sign separates. -/
def joinersShow (before : List Char) : List Char → Bool
  | [] => true
  | c :: cs =>
    let silenced := before.head?.any (fun p => combiningClass p == viramaClass)
    let separates :=
      c == nonJoiner && joinsAs [.both, .after] before && joinsAs [.both, .before] cs
    ((c != nonJoiner && c != joiner) || silenced || separates) && joinersShow (c :: before) cs

/-- Whether a label that was mapped can stand in a name. -/
def isSound (label : List Char) : Bool :=
  label.all isAscii
    || (!label.head?.any isMark && joinersShow [] label && label.length ≤ greatestLabel)

/-- The label that a mapped label means: what it encodes, if it is marked as encoded. -/
def meaning? (label : List Char) : Option (List Char) :=
  match label with
  | 'x' :: 'n' :: '-' :: '-' :: cs =>
    if label.getLast? = some '-' ∨ greatestEncoding < cs.length then none
    else
      (Punycode.decode? cs).filter (fun decoded =>
        isMapped decoded && !decoded.any (fun c => isForbidden c || c == '.'))
  | label => some label

/-- The labels that a mapped name means, if each can stand in a name. -/
def labels? (name : List Char) : Option (List (List Char)) :=
  ((splitAt '.' name).mapM meaning?).filter (·.all isSound)

/-- Whether labels keep to one direction each, where that matters. -/
def keepDirection (labels : List (List Char)) : Bool :=
  let directions := labels.map (·.map direction)
  !directions.any (·.any Direction.isFromRight) || directions.all Direction.areInOrder

/-- Whether a mapped name can be the host of a URL. -/
def isName (name : List Char) : Bool :=
  !name.any isForbidden && (labels? name).any keepDirection

end ApiExposure.Net
