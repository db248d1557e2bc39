import Mongonet.Bson.Value
import Mongonet.Wire.Util
import Mongonet.Go.Bytes

/-!
# Mongonet.Bson.Get — an element's value as a given type (bsonutil.go)

`GetAsString`, `GetAsInt`, `GetAsBool`, `GetAsBSON` and `GetAsBSONDocs` take the value of an
element apart with a type switch.  Each returns three things: the value as the type asked for,
the dynamic type of the value as `fmt.Sprintf("%T", …)` prints it, and an error where the switch
has no case for the value.  The scalars are those of the Go types the switches name
(`GoScalar`), and every other type by its name.

The first four are one function, `getAs`, given the cases of their switch.  `GetAsBool` has
cases that `GetAsInt` lacks, and compares a `float64` with `0.0` where `GetAsInt` truncates it:
off those two, it reads what `GetAsInt` reads, compared with zero (`boolCase_eq_intCase`).
`GetAsBSONDocs` alone has a loop: over a `primitive.A` or an `[]interface{}`,
`getAsBsonDocsArray` fills a slice of the array's length with its documents and returns at the
first element that is not one, so that it gives all of the documents or none
(`getAsBSONDocs_spec`).
-/

namespace Mongonet.Bson

open Go Result

/-- The scalar types that the switches of the `GetAs*` functions name, and any other type by the
name `%T` prints for it. -/
inductive GoScalar where
  | int (i : Int)
  | int32 (i : Int32)
  | int64 (i : Int64)
  | float64 (f : Float)
  | bool (b : Bool)
  | string (s : String)
  | other (typeName : String)
  deriving Repr

/-- `fmt.Sprintf("%T", v)`: the dynamic type of a value, by the name of the driver's package
(`bson.D` is an alias of `primitive.D`). -/
def typeName : Value GoScalar → String
  | .scalar (.int _) => "int"
  | .scalar (.int32 _) => "int32"
  | .scalar (.int64 _) => "int64"
  | .scalar (.float64 _) => "float64"
  | .scalar (.bool _) => "bool"
  | .scalar (.string _) => "string"
  | .scalar (.other t) => t
  | .null => "<nil>"
  | .doc _ => "primitive.D"
  | .nilDoc => "primitive.D"
  | .docs _ => "[]primitive.D"
  | .primA _ => "primitive.A"
  | .ifaces _ => "[]interface {}"

/-- A `GetAs*` function whose switch has the cases `convert`: the value and no error where a case
matches, and otherwise the zero value `zero` and `NewStackErrorf(format, val, val)`; the type
name in both.  (The arguments of the error, the value and its type, are not kept.) -/
def getAs {β : Type} (convert : Value GoScalar → Option β) (zero : β) (format : String)
    (elem : E GoScalar) : β × String × Option GoError :=
  let tipe := typeName elem.2
  match convert elem.2 with
  | some val => (val, tipe, none)
  | none => (zero, tipe, some (newStackErrorf format []))

/-- The case of `GetAsString`. -/
def stringCase : Value GoScalar → Option String
  | .scalar (.string val) => some val
  | _ => none

/-- `GetAsString(elem)`. -/
def getAsString : E GoScalar → String × String × Option GoError :=
  getAs stringCase "" "not a string %T %s"

/-- The cases of `GetAsInt`: `int(val)` of each integer type, and of a `float64`, which truncates
toward zero (Go leaves the result for a float out of range to the implementation). -/
def intCase : Value GoScalar → Option Int
  | .scalar (.int val) => some val
  | .scalar (.int32 val) => some val.toInt
  | .scalar (.int64 val) => some val.toInt
  | .scalar (.float64 val) => some val.toInt64.toInt
  | _ => none

/-- `GetAsInt(elem)`. -/
def getAsInt : E GoScalar → Int × String × Option GoError :=
  getAs intCase 0 "not a number %T %s"

/-- The cases of `GetAsBool`: a `bool`, and a number compared with zero. -/
def boolCase : Value GoScalar → Option Bool
  | .scalar (.bool val) => some val
  | .scalar (.int val) => some (val != 0)
  | .scalar (.int32 val) => some (val.toInt != 0)
  | .scalar (.int64 val) => some (val.toInt != 0)
  | .scalar (.float64 val) => some (val != 0.0)
  | _ => none

/-- `GetAsBool(elem)`. -/
def getAsBool : E GoScalar → Bool × String × Option GoError :=
  getAs boolCase false "not a bool %T %s"

/-- The case `bson.D` of `GetAsBSON` and of `getAsBsonDocsArray`, which a nil `bson.D` matches
too (`none`). -/
def docCase : Value GoScalar → Option (Option (D GoScalar))
  | .doc d => some (some d)
  | .nilDoc => some none
  | _ => none

/-- `GetAsBSON(elem)`; its zero value is the empty `bson.D{}`, not nil. -/
def getAsBSON : E GoScalar → Option (D GoScalar) × String × Option GoError :=
  getAs docCase (some []) "not bson %T %s"

theorem boolCase_eq_intCase {v : Value GoScalar} (hb : ∀ b, v ≠ .scalar (.bool b))
    (hf : ∀ f, v ≠ .scalar (.float64 f)) : boolCase v = (intCase v).map (· != 0) := by
  cases v with
  | scalar a =>
    cases a with
    | float64 f => exact absurd rfl (hf f)
    | bool b => exact absurd rfl (hb b)
    | _ => rfl
  | _ => rfl

/-! ## `GetAsBSONDocs` -/

/-- The loop of `getAsBsonDocsArray` from index `num` on: `a[num] = fixed` for a document, and
`return []bson.D{}, tipe, err` at the first element that is not one. -/
def getAsBsonDocsLoop (tipe : String) :
    Nat → List (Value GoScalar) → List (Option (D GoScalar)) →
      Result Empty (List (Option (D GoScalar)) × String × Option GoError)
  | _, [], a => ok (a, tipe, none)
  | num, raw :: rest, a =>
    match docCase raw with
    | some fixed => do
      let a ← setIndex a num fixed
      getAsBsonDocsLoop tipe (num + 1) rest a
    | none => ok ([], tipe, some (newStackErrorf "not bson.D %T %s" []))

/-- `getAsBsonDocsArray(val, tipe)`: `a := make([]bson.D, len(val))`, then the loop. -/
def getAsBsonDocsArray (val : List (Value GoScalar)) (tipe : String) :
    Result Empty (List (Option (D GoScalar)) × String × Option GoError) := do
  let a ← make val.length none
  getAsBsonDocsLoop tipe 0 val a

/-- `GetAsBSONDocs(elem)`. -/
def getAsBSONDocs (elem : E GoScalar) :
    Result Empty (List (Option (D GoScalar)) × String × Option GoError) :=
  let tipe := typeName elem.2
  match elem.2 with
  | .docs val => ok (val, tipe, none)
  | .primA val => getAsBsonDocsArray val tipe
  | .ifaces val => getAsBsonDocsArray val tipe
  | _ => ok ([], tipe, some (newStackErrorf "not an array %T" []))

/-- The documents a value holds, when it is an array of documents: a `[]bson.D`, or a
`primitive.A` or an `[]interface{}` whose every element is a `bson.D`. -/
def arrayDocs : Value GoScalar → Option (List (Option (D GoScalar)))
  | .docs ds => some ds
  | .primA xs => xs.mapM docCase
  | .ifaces xs => xs.mapM docCase
  | _ => none

/-- The loop fills the slots after `pre` one by one: it never writes out of range, and it
returns every document, or the empty slice at the first element that is not one.  By induction on
the elements left, the slots of those done so far being `pre`. -/
theorem getAsBsonDocsLoop_eq (tipe : String) (rest : List (Value GoScalar))
    (pre : List (Option (D GoScalar))) :
    getAsBsonDocsLoop tipe pre.length rest (pre ++ List.replicate rest.length none) =
      ok (match rest.mapM docCase with
        | some ds => (pre ++ ds, tipe, none)
        | none => ([], tipe, some (newStackErrorf "not bson.D %T %s" []))) := by
  induction rest generalizing pre with
  | nil => simp [getAsBsonDocsLoop]
  | cons raw rest ih =>
    cases hraw : docCase raw with
    | none => simp [getAsBsonDocsLoop, hraw, List.mapM_cons]
    | some fixed =>
      -- the write lands in the first free slot, which moves to the done ones
      have hset : (setIndex (pre ++ List.replicate (rest.length + 1) none) pre.length fixed :
          Result Empty _) = ok ((pre ++ [fixed]) ++ List.replicate rest.length none) := by
        rw [setIndex_of_lt (by simp)]
        simp [List.replicate_succ, List.set_append_right]
      have hlen : (pre ++ [fixed]).length = pre.length + 1 := by simp
      rw [List.length_cons, getAsBsonDocsLoop, hraw]
      simp only
      rw [hset, ok_bind, ← hlen, ih]
      cases hds : rest.mapM docCase <;> simp [List.mapM_cons, hraw, hds]

theorem getAsBsonDocsArray_eq (val : List (Value GoScalar)) (tipe : String) :
    getAsBsonDocsArray val tipe =
      ok (match val.mapM docCase with
        | some ds => (ds, tipe, none)
        | none => ([], tipe, some (newStackErrorf "not bson.D %T %s" []))) := by
  have h := getAsBsonDocsLoop_eq tipe val []
  rw [List.nil_append, List.length_nil] at h
  unfold getAsBsonDocsArray
  rw [make_of_nonneg (by omega), ok_bind, Int.toNat_natCast, h]
  cases val.mapM docCase <;> rfl

/-- **`GetAsBSONDocs` gives all of an array's documents or none.**  It never panics, always
returns the type name, and returns the documents of `arrayDocs` without error exactly when the
value is an array of documents: a `[]bson.D` as it is, and a `primitive.A` or an `[]interface{}`
in order; otherwise it returns an empty slice and an error, never part of an array. -/
theorem getAsBSONDocs_spec (elem : E GoScalar) :
    ∃ err, getAsBSONDocs elem = ok ((arrayDocs elem.2).getD [], typeName elem.2, err) ∧
      (err = none ↔ (arrayDocs elem.2).isSome) := by
  obtain ⟨k, v⟩ := elem
  -- the two kinds of untyped array go through the same loop
  have harray : ∀ xs : List (Value GoScalar), ∃ err,
      getAsBsonDocsArray xs (typeName v) = ok ((xs.mapM docCase).getD [], typeName v, err) ∧
        (err = none ↔ (xs.mapM docCase).isSome) := by
    intro xs
    rw [getAsBsonDocsArray_eq]
    cases xs.mapM docCase with
    | none => exact ⟨_, rfl, by simp⟩
    | some ds => exact ⟨_, rfl, by simp⟩
  cases v with
  | docs ds => exact ⟨none, rfl, by simp [arrayDocs]⟩
  | primA xs => exact harray xs
  | ifaces xs => exact harray xs
  | scalar _ | null | doc _ | nilDoc => exact ⟨_, rfl, by simp [arrayDocs]⟩

end Mongonet.Bson
