import SpeedySweeties.Library.Pattern

/-! `text.replace(pattern, …)` under the `g` flag. Here the order matters in which a backtracking
search tries the matches at a position; a pattern starts with its only captured group. -/
namespace Pattern

/-- The longest repetition first. -/
def greedily (ends : Position → List Position) : Nat → Position → List Position
  | 0,p => [p]
  | fuel + 1,p => ((ends p).filter fun q => q.text.length < p.text.length).flatMap (greedily ends fuel) ++ [p]

def tried : Pattern → Position → List Position
  | empty,p => [p]
  | char accepts,⟨_,c::text⟩ => if accepts c then [⟨some c,text⟩] else []
  | char _,⟨_,[]⟩ => []
  | boundary,p => if p.atBoundary then [p] else []
  | seq first second,p => (tried first p).flatMap (tried second)
  | alt first second,p => tried first p ++ tried second p
  | many pattern,p => greedily (tried pattern) p.text.length p

structure Replacement where
  group : Pattern
  rest : Pattern := empty
  output : List Char → List Char

/-- What the group captures at the position, and where the match ends. -/
def Replacement.match? (r : Replacement) (p : Position) : Option (List Char × Position) :=
  ((tried r.group p).flatMap fun q => (tried r.rest q).map fun e => (p.text.take (p.text.length - q.text.length),e)).head?

/-- After an empty match the search goes on at the next character. -/
def Replacement.from (r : Replacement) : Nat → Position → List Char
  | 0,p => p.text
  | fuel + 1,p =>
    match p.text,r.match? p with
    | [],none => []
    | c::text,none => c::r.from fuel ⟨some c,text⟩
    | [],some (captured,_) => r.output captured
    | c::text,some (captured,e) =>
      if e.text.length < p.text.length then r.output captured ++ r.from fuel e
      else r.output captured ++ c::r.from fuel ⟨some c,text⟩

def Replacement.all (r : Replacement) (text : List Char) : List Char := r.from (text.length + 1) ⟨none,text⟩

def literal (text : String) : Pattern := text.toList.foldr (fun c rest => seq (char (· = c)) rest) empty

def literals (texts : List String) : Pattern := oneOf (texts.map literal)

def digit : Pattern := char Char.isDigit

end Pattern
