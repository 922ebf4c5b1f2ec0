import TextBatch.Text.Unicode.Lowercase
import TextBatch.Text.Unicode.CaseIgnorable
/-!
# Lowercase

Function names are compared in lowercase. `lower` is the full lowercase mapping of Unicode
without a language: every letter becomes its simple lowercase partner (`Unicode.lowerScalar`),
with two exceptions that look beyond one letter.

* `İ` (U+0130) becomes two characters: `i` followed by a combining dot above (U+0307).
* A capital sigma becomes the final sigma `ς` when it ends a word and `σ` otherwise. It ends a
  word when a cased letter stands before it and none after it, case-ignorable characters in
  between being skipped on either side. The context is read in the text before mapping.
-/

namespace TextBatch

namespace Case

/-- Whether the first character that is not case-ignorable is cased. -/
def ignorableThenCased (cs : List Char) : Bool :=
  match cs.dropWhile Unicode.isCaseIgnorable with
  | c :: _ => Unicode.isCased c
  | [] => false

/-- The lowercase form of one letter by the simple mapping, or the letter itself. -/
def lowerChar (c : Char) : Char := Char.ofNat (Unicode.lowerScalar c.toNat)

/-- The lowercase form of a capital sigma between the characters `before` (nearest first) and
`after`. -/
def lowerSigma (before after : List Char) : Char :=
  if ignorableThenCased before && !ignorableThenCased after then Char.ofNat 0x3C2
  else Char.ofNat 0x3C3

/-- Lowercase of the characters `cs`, `before` being the characters in front of them, nearest
first. -/
def lowerFrom (before : List Char) : List Char → List Char
  | [] => []
  | c :: rest =>
    let here :=
      if c.toNat = 0x130 then ['i', Char.ofNat 0x307]
      else if c.toNat = 0x3A3 then [lowerSigma before rest]
      else [lowerChar c]
    here ++ lowerFrom (c :: before) rest

/-- The lowercase form of a text. -/
def lower (s : String) : String := String.ofList (lowerFrom [] s.toList)

end Case

end TextBatch
