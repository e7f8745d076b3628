import SpeedySweeties.Library.JsText

/-! Regular expressions as JavaScript tests and searches them, without captures. A
pattern sees the character before its position, so it can ask for a word boundary;
its possible matches are listed by the text they leave. -/

inductive Pattern where
  | empty
  | char (accepts : Char → Bool)
  | boundary
  | seq (first second : Pattern)
  | alt (first second : Pattern)
  | many (repeated : Pattern)

namespace Pattern

def isWord (c : Char) : Bool := c.isAlphanum || c = '_'

/-- The text before the position is only needed for its last character. -/
structure Position where
  previous : Option Char
  text : List Char

def Position.atBoundary (p : Position) : Bool := p.previous.any isWord ≠ p.text.head?.any isWord

/-- Matches that consume nothing are not repeated. -/
def repeated (ends : Position → List Position) : Nat → Position → List Position
  | 0,p => [p]
  | fuel + 1,p => p::((ends p).filter fun q => q.text.length < p.text.length).flatMap
      (repeated ends fuel)

def rests : Pattern → Position → List Position
  | empty,p => [p]
  | char accepts,⟨_,c::text⟩ => if accepts c then [⟨some c,text⟩] else []
  | char _,⟨_,[]⟩ => []
  | boundary,p => if p.atBoundary then [p] else []
  | seq first second,p => (rests first p).flatMap (rests second)
  | alt first second,p => rests first p ++ rests second p
  | many pattern,p => repeated (rests pattern) p.text.length p

def searchFrom (pattern : Pattern) (previous : Option Char) : List Char → Nat → Option Nat
  | [],index => if rests pattern ⟨previous,[]⟩ = [] then none else some index
  | c::text,index =>
    if rests pattern ⟨previous,c::text⟩ = [] then searchFrom pattern (some c) text (index + 1) else some index

/-- `text.search(pattern)`, `none` for -1. -/
def search (pattern : Pattern) (text : List Char) : Option Nat := searchFrom pattern none text 0

/-- A literal under the `i` flag. -/
def word (text : String) : Pattern :=
  text.toList.foldr (fun c rest => seq (char fun d => d.toUpper = c.toUpper) rest) empty

def oneOf : List Pattern → Pattern
  | [] => char fun _ => false
  | [pattern] => pattern
  | pattern::patterns => alt pattern (oneOf patterns)

def words (texts : List String) : Pattern := oneOf (texts.map word)
def optional (pattern : Pattern) : Pattern := alt pattern empty
def atLeastOnce (pattern : Pattern) : Pattern := seq pattern (many pattern)
def sequence (patterns : List Pattern) : Pattern := patterns.foldr seq empty
def space : Pattern := char JsText.isSpace

end Pattern
