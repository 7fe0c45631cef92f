import BannedCalls.Json.Shown

/-!
# Ban lists

A ban list holds pairs of a receiver and a member, in the order in which they were added and with
repetitions. A pair is offered as a value of any form and is taken when it has exactly two members
and both are texts that are not empty. What is refused leaves the list as it was.
-/

namespace BannedCalls

structure BannedPair where
  receiver : Text
  member : Text
  deriving DecidableEq, Repr

def BannedPair.shown (p : BannedPair) : Text := p.receiver ++ "." ++ p.member

def BannedPair.toJson (p : BannedPair) : Json := .arr [.str p.receiver, .str p.member]

/-- A value offered as a pair: one value with its members, or a fixed group of values. -/
inductive Offer
  | value (value : Json)
  | group (members : List Json)

def BannedPair.offer (p : BannedPair) : Offer := .group [.str p.receiver, .str p.member]

/-- The members of a value: the items of a list, the code points of a text, or the names in an
object. -/
def Json.members? : Json → Option (List Json)
  | .arr items => some items
  | .str t => some (t.map fun c => .str [c])
  | .obj members => some (members.map fun member => .str member.1)
  | _ => none

inductive PairError
  | notSequence (typeName : Text)
  | tooFew (count : Nat)
  | tooMany
  | badName (offer : Offer)
  | notList (typeName : Text)

namespace Offer

def shown : Offer → Text
  | value v => v.shown
  | group members => Json.shownGroup members

def members : Offer → Except PairError (List Json)
  | value v => v.members?.elim (.error (.notSequence v.typeName)) .ok
  | group members => .ok members

/-- The pair that an offer makes. -/
def pair (offer : Offer) : Except PairError BannedPair := do
  match ← offer.members with
  | [] => .error (.tooFew 0)
  | [_] => .error (.tooFew 1)
  | [receiver, member] =>
    match receiver, member with
    | .str r, .str m => if r = [] ∨ m = [] then .error (.badName offer) else .ok ⟨r, m⟩
    | _, _ => .error (.badName offer)
  | _ => .error .tooMany

end Offer

def PairError.message : PairError → Text
  | notSequence typeName => "cannot unpack non-iterable " ++ typeName ++ " object"
  | tooFew count => "not enough values to unpack (expected 2, got " ++ Text.ofNat count ++ ")"
  | tooMany => "too many values to unpack (expected 2)"
  | badName offer => "Banned names must be non-empty strings, got " ++ offer.shown
  | notList typeName => "'" ++ typeName ++ "' object is not iterable"

structure BanList where
  entries : List BannedPair
  deriving DecidableEq, Repr

namespace BanList

def empty : BanList := ⟨[]⟩

def size (list : BanList) : Nat := list.entries.length

def add (list : BanList) (offer : Offer) : Except PairError BanList := do
  let pair ← offer.pair
  return ⟨list.entries ++ [pair]⟩

def ofOffers (offers : List Offer) : Except PairError BanList := offers.foldlM add empty

/-- The list of the pairs that are the members of a value. -/
def ofJson (pairs : Json) : Except PairError BanList :=
  match pairs.members? with
  | some offers => ofOffers (offers.map .value)
  | none => .error (.notList pairs.typeName)

end BanList

/-! ## Logs -/

namespace BanList

/-- A step on a ban list: the first two may change it, the others read it. -/
inductive Step
  | replace (pairs : Json)
  | add (pair : Json)
  | size
  | entries
  | texts
  | contains (pair : Json)

inductive Reply
  | size (n : Nat)
  | entries (pairs : List BannedPair)
  | texts (texts : List Text)
  | answer (found : Bool)

def holds (list : BanList) : Json → Bool
  | .arr [.str r, .str m] => list.entries.contains ⟨r, m⟩
  | _ => false

/-- The reply to a step, and the list after it. -/
def step (list : BanList) : Step → Except PairError Reply × BanList
  | .replace pairs =>
    match ofJson pairs with
    | .ok next => (.ok (.entries next.entries), next)
    | .error e => (.error e, list)
  | .add pair =>
    match list.add (.value pair) with
    | .ok next => (.ok (.entries next.entries), next)
    | .error e => (.error e, list)
  | .size => (.ok (.size list.size), list)
  | .entries => (.ok (.entries list.entries), list)
  | .texts => (.ok (.texts (list.entries.map BannedPair.shown)), list)
  | .contains pair => (.ok (.answer (list.holds pair)), list)

/-- The replies to a series of steps, each with the list after it. -/
def run (list : BanList) : List Step → List (Except PairError Reply × BanList)
  | [] => []
  | s :: rest => list.step s :: run (list.step s).2 rest

end BanList

end BannedCalls
