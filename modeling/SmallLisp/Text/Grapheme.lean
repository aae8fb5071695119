import SmallLisp.Text.Grapheme.Table
import SmallLisp.Text.Ranges

namespace SmallLisp.Text

inductive GraphemeClass where
  | control
  | prepend
  | extend
  | linker
  | joiner
  | spacing
  | consonant
  | pictograph
  | regional
  | leading
  | vowel
  | trailing
  | openSyllable
  | closedSyllable
  | other
  deriving DecidableEq

/-- The class of a character. A Hangul syllable is open if it has no trailing consonant, as every
twenty-eighth of them. -/
def graphemeClass (c : Char) : GraphemeClass :=
  let n := c.toNat
  if 0x20 ≤ n && n < 0x7f then .other
  else if n = 0x200d then .joiner
  else if 0xac00 ≤ n && n ≤ 0xd7a3 then
    if (n - 0xac00) % 28 = 0 then .openSyllable else .closedSyllable
  else if 0x1f1e6 ≤ n && n ≤ 0x1f1ff then .regional
  else if inRanges controlRanges c then .control
  else if inRanges extendRanges c then .extend
  else if inRanges pictographRanges c then .pictograph
  else if inRanges spacingRanges c then .spacing
  else if inRanges consonantRanges c then .consonant
  else if inRanges linkerRanges c then .linker
  else if inRanges prependRanges c then .prepend
  else if inRanges leadingRanges c then .leading
  else if inRanges vowelRanges c then .vowel
  else if inRanges trailingRanges c then .trailing
  else .other

namespace GraphemeClass

def isMark : GraphemeClass → Bool
  | extend | linker | joiner | spacing => true
  | _ => false

def isSyllable : GraphemeClass → GraphemeClass → Bool
  | leading, leading | leading, vowel | leading, openSyllable | leading, closedSyllable => true
  | vowel, vowel | vowel, trailing | openSyllable, vowel | openSyllable, trailing => true
  | trailing, trailing | closedSyllable, trailing => true
  | _, _ => false

end GraphemeClass

/-- Whether characters, latest first, end with a consonant and marks of which one links it to the
next consonant. The mark that keeps consonants apart is none of these. -/
def endsLinked (latest : List Char) : Bool :=
  let isMark (c : Char) : Bool :=
    graphemeClass c ∈ [.extend, .linker, .joiner] && c ≠ '\u200c'
  (latest.takeWhile isMark).any (graphemeClass · = .linker) &&
    (latest.dropWhile isMark).head?.any (graphemeClass · = .consonant)

def endsPictograph (latest : List Char) : Bool :=
  (latest.dropWhile (graphemeClass · ∈ [.extend, .linker])).head?.any
    (graphemeClass · = .pictograph)

/-- Whether `c` continues the grapheme that ends with `last`, after the characters `before`, which
are given latest first. Regional indicators go in pairs. -/
def continuesGrapheme (last : Char) (before : List Char) (c : Char) : Bool :=
  let k := graphemeClass last
  let l := graphemeClass c
  if k = .control || l = .control then last = '\r' && c = '\n'
  else if l.isMark || k = .prepend then true
  else if l = .consonant then endsLinked (last :: before)
  else if k = .joiner && l = .pictograph then endsPictograph before
  else if k = .regional && l = .regional then
    (before.takeWhile (graphemeClass · = .regional)).length % 2 = 0
  else k.isSyllable l

def graphemesFrom (last : Char) (before : List Char) : List Char → List (List Char)
  | [] => [(last :: before).reverse]
  | c :: cs =>
      if continuesGrapheme last before c then graphemesFrom c (last :: before) cs
      else (last :: before).reverse :: graphemesFrom c [] cs

def graphemes : List Char → List (List Char)
  | [] => []
  | c :: cs => graphemesFrom c [] cs

end SmallLisp.Text
