import Mathlib.Data.List.Basic

/- A pattern is looked for at every place of a text. It backtracks over all the ways it can match. -/

namespace NimbleBrain.Library

/-- A text is read at a place between two characters. -/
structure Place where
  before : Option Char
  rest : List Char

/-- A letter, a digit or an underscore is part of a word. -/
def isWord (c : Char) : Bool := c.isAlphanum || c = '_'

/-- A character ends a line. -/
def isLineEnd (c : Char) : Bool := c = '\n' || c = '\r' || c = '\u2028' || c = '\u2029'

inductive Pattern
  | empty
  | one (test : Char → Bool)
  | many (test : Char → Bool)
  | wordEdge
  | lineStart
  | andThen (first second : Pattern)
  | either (left right : Pattern)

namespace Pattern

/-- The places a run of passing characters can end at. -/
def runs (test : Char → Bool) : Option Char → List Char → List Place
  | before, [] => [⟨before, []⟩]
  | before, c :: rest => ⟨before, c :: rest⟩ :: if test c then runs test (some c) rest else []

/-- The places a match that starts at a place can end at. -/
def ends : Pattern → Place → List Place
  | empty, place => [place]
  | one test, ⟨_, rest⟩ =>
      match rest with
      | [] => []
      | c :: rest => if test c then [⟨some c, rest⟩] else []
  | many test, ⟨before, rest⟩ => runs test before rest
  | wordEdge, place => if place.before.any isWord = place.rest.head?.any isWord then [] else [place]
  | lineStart, place => if place.before.all isLineEnd then [place] else []
  | andThen first second, place => (first.ends place).flatMap second.ends
  | either left right, place => left.ends place ++ right.ends place

def places : Option Char → List Char → List Place
  | before, [] => [⟨before, []⟩]
  | before, c :: rest => ⟨before, c :: rest⟩ :: places (some c) rest

/-- A pattern is found in a text when it matches at some place. -/
def foundIn (pattern : Pattern) (text : String) : Bool :=
  (places none text.toList).any fun place => !(pattern.ends place).isEmpty

def inOrder (parts : List Pattern) : Pattern := parts.foldr andThen empty

/-- One of several patterns. No pattern matches nowhere. -/
def anyOf (parts : List Pattern) : Pattern := parts.foldr either (one fun _ => false)

def optional (pattern : Pattern) : Pattern := either pattern empty

def exactly (text : String) : Pattern := inOrder (text.toList.map fun c => one (· = c))

/-- The text in any letter case of the plain letters. -/
def spelled (text : String) : Pattern := inOrder (text.toList.map fun c => one (·.toLower = c.toLower))

def oneOf (chars : String) : Pattern := one fun c => c ∈ chars.toList

end Pattern

end NimbleBrain.Library
