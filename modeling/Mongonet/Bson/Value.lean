import Mongonet.Go.Result

/-!
# Mongonet.Bson.Value — documents as the walkers of bsonutil.go see them

`BSONWalkAll` and `BSONWalk` (bsonutil.go) take a `bson.D` of the Go driver apart with type
switches.  A value is one of the kinds the switches tell apart: a `bson.D`, a `[]bson.D`, a
`primitive.A` or an `[]interface{}`, the nil interface, and any other value, which the walkers
pass over and which is a `scalar` of a type `α` here.  A nil `bson.D` is not an empty one: the
walkers write nil in place of a deleted document and test for it, so both are kept apart
(`nilDoc`, and `none` in a `[]bson.D`).

A visitor (`BSONWalkVisitor`) is a function of its own state and of the element it is given: it
says which fields of the element it overwrites, and returns `nil`, `DELETE_ME` or another error.
That it reports what it writes, and not just the element it leaves, is what lets the model follow
Go's aliasing: a walker that writes into the array of a document it was given changes the
element only if the visitor left that document in place.
-/

namespace Mongonet.Bson

/-- A BSON value, by the kinds the walkers' type switches tell apart. -/
inductive Value (α : Type) where
  /-- Any value the walkers pass over: a number, a string, a boolean, ... -/
  | scalar (a : α)
  /-- The nil interface. -/
  | null
  /-- A non-nil `bson.D`. -/
  | doc (d : List (String × Value α))
  /-- A nil `bson.D` in an interface. -/
  | nilDoc
  /-- `[]bson.D`, `none` for a nil element. -/
  | docs (ds : List (Option (List (String × Value α))))
  /-- `primitive.A`. -/
  | primA (xs : List (Value α))
  /-- `[]interface{}`. -/
  | ifaces (xs : List (Value α))
  deriving Repr

variable {α σ ε : Type}

/-- `bson.E`: a key and its value. -/
abbrev E (α : Type) := String × Value α

/-- A non-nil `bson.D`. -/
abbrev D (α : Type) := List (E α)

/-- `BSONIndexOf(doc, name)`: the index of the first element with key `name`, or `-1`. -/
def bsonIndexOf (doc : D α) (name : String) : Int :=
  match doc.findIdx? (fun e => e.1 == name) with
  | some i => i
  | none => -1

theorem bsonIndexOf_eq_of_findIdx? {doc : D α} {name : String} {i : Nat}
    (h : doc.findIdx? (fun e => e.1 == name) = some i) : bsonIndexOf doc name = i := by
  simp [bsonIndexOf, h]

theorem bsonIndexOf_eq_neg_one {doc : D α} {name : String}
    (h : ∀ e ∈ doc, e.1 ≠ name) : bsonIndexOf doc name = -1 := by
  have hnone : doc.findIdx? (fun e => e.1 == name) = none :=
    List.findIdx?_eq_none_iff.mpr fun e he => by simpa using h e he
  simp [bsonIndexOf, hnone]

/-- What `BSONIndexOf` finds: `-1`, or the index of an element with the key, and no element
before it has it. -/
theorem bsonIndexOf_spec (doc : D α) (name : String) :
    (bsonIndexOf doc name = -1 ∧ ∀ e ∈ doc, e.1 ≠ name) ∨
      ∃ i, ∃ h : i < doc.length, bsonIndexOf doc name = i ∧ doc[i].1 = name ∧
        ∀ j (hj : j < i), doc[j].1 ≠ name := by
  cases hf : doc.findIdx? (fun e => e.1 == name) with
  | none =>
    refine .inl ⟨by simp [bsonIndexOf, hf], fun e he => ?_⟩
    simpa using List.findIdx?_eq_none_iff.mp hf e he
  | some i =>
    obtain ⟨hi, hp, hbefore⟩ := List.findIdx?_eq_some_iff_getElem.mp hf
    refine .inr ⟨i, hi, bsonIndexOf_eq_of_findIdx? hf, by simpa using hp, fun j hj => ?_⟩
    simpa using hbefore j hj

/-- `strings.Split(pathString, ".")`.  A path is split at the byte `.`, which no other character
of a UTF-8 string contains, so splitting the characters is splitting the bytes. -/
def splitPath (pathString : String) : List String :=
  (pathString.toList.splitOn '.').map String.ofList

/-! ## Visitors -/

/-- The error a visitor returns. -/
inductive VisitError (ε : Type) where
  /-- `DELETE_ME`. -/
  | deleteMe
  /-- Any other error. -/
  | other (e : ε)
  deriving Repr, DecidableEq

/-- What one `Visit(elem)` does: the key and the value it stores in the element (`none` for a
field it leaves as it was), its error, and the visitor's next state. -/
structure Visit (σ α ε : Type) where
  key : Option String
  value : Option (Value α)
  err : Option (VisitError ε)
  state : σ

/-- The element after the visit. -/
def Visit.apply (w : Visit σ α ε) (e : E α) : E α := (w.key.getD e.1, w.value.getD e.2)

/-- `BSONWalkVisitor`, with the visitor's state `σ` made explicit. -/
structure BSONWalkVisitor (σ α ε : Type) where
  visit : σ → E α → Visit σ α ε

/-- The errors of the walkers: a visitor's error other than `DELETE_ME`, wrapped by
`fmt.Errorf(format, err)` at each level it passes. -/
inductive WalkError (ε : Type) where
  | visitor (e : ε)
  | errorf (format : String) (err : WalkError ε)
  deriving Repr, DecidableEq

end Mongonet.Bson
