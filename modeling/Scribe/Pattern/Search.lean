import Scribe.Pattern.Basic

/-!
# Searching with patterns

A search finds the leftmost place where a pattern matches. Finding all, replacing and splitting
go on behind each match, so matches never overlap; there a match is never empty.
-/
namespace Scribe.Pattern

structure Match where
  before : List Char
  covered : List Char
  after : List Char
  groups : List (Nat × List Char)
deriving DecidableEq, Repr

/-- What group `n` covered last, if it took part. -/
def Match.group? (m : Match) (n : Nat) : Option (List Char) :=
  m.groups.lookup n

def Match.group (m : Match) (n : Nat) : List Char :=
  (m.group? n).getD []

/-- A match at a place; `before` is what lies before it, read backwards. -/
def matchAt (p : Pattern) (before rest : List Char) : Option Match :=
  (p.run some ⟨before.head?, rest, []⟩).map fun c =>
    ⟨before.reverse, rest.take (rest.length - c.rest.length), c.rest, c.groups⟩

def matchStart (p : Pattern) (cs : List Char) : Option Match :=
  p.matchAt [] cs

/-- The leftmost match in a text that follows `before`, which is read backwards. -/
def searchFrom (p : Pattern) (before : List Char) : List Char → Option Match
  | [] => p.matchAt before []
  | c :: r =>
    match p.matchAt before (c :: r) with
    | some m => some m
    | none => p.searchFrom (c :: before) r

def search (p : Pattern) (cs : List Char) : Option Match :=
  p.searchFrom [] cs

def found (p : Pattern) (cs : List Char) : Bool :=
  (p.search cs).isSome

def dropFront (p : Pattern) (cs : List Char) : List Char :=
  match p.matchStart cs with
  | some m => m.after
  | none => cs

/-- All matches in a text that follows `before`, once `skip` characters are passed. -/
def findFrom (p : Pattern) (before : List Char) : (skip : Nat) → List Char → List Match
  | _, [] => []
  | skip + 1, c :: r => p.findFrom (c :: before) skip r
  | 0, c :: r =>
    match p.matchAt before (c :: r) with
    | some m => m :: p.findFrom (c :: before) (m.covered.length - 1) r
    | none => p.findFrom (c :: before) 0 r

def findAll (p : Pattern) (cs : List Char) : List Match :=
  p.findFrom [] 0 cs

def replaceFrom (p : Pattern) (f : Match → List Char) (before : List Char) :
    (skip : Nat) → List Char → List Char
  | _, [] => []
  | skip + 1, c :: r => p.replaceFrom f (c :: before) skip r
  | 0, c :: r =>
    match p.matchAt before (c :: r) with
    | some m => f m ++ p.replaceFrom f (c :: before) (m.covered.length - 1) r
    | none => c :: p.replaceFrom f (c :: before) 0 r

def replaceWith (p : Pattern) (f : Match → List Char) (cs : List Char) : List Char :=
  p.replaceFrom f [] 0 cs

def replace (p : Pattern) (new : String) (cs : List Char) : List Char :=
  p.replaceWith (fun _ => new.toList) cs

def splitFrom (p : Pattern) (before : List Char) : (skip : Nat) → List Char → List (List Char)
  | _, [] => [[]]
  | skip + 1, c :: r => p.splitFrom (c :: before) skip r
  | 0, c :: r =>
    match p.matchAt before (c :: r) with
    | some m => [] :: p.splitFrom (c :: before) (m.covered.length - 1) r
    | none =>
      match p.splitFrom (c :: before) 0 r with
      | [] => [[c]]
      | piece :: pieces => (c :: piece) :: pieces

def split (p : Pattern) (cs : List Char) : List (List Char) :=
  p.splitFrom [] 0 cs

end Scribe.Pattern
