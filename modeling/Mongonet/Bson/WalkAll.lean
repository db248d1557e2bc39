import Mongonet.Bson.Value

/-!
# Mongonet.Bson.WalkAll — `BSONWalkAll`

`BSONWalkAll(doc, fieldName, visitor)` visits, in document order and before going into its
value, every element with key `fieldName`, in `doc` and in every document below it: the values
of type `bson.D`, and the documents in `[]bson.D`, `primitive.A` and `[]interface{}` arrays.
A `DELETE_ME` ends the walk of the document it was returned in, which then returns `nil`.

The Go code writes its results back through slices, and the model follows where they land:

* the visitor writes through `&current[i]`, into the document's own array;
* a walk into a sub-document writes into the sub-document's array, which the element still
  holds unless the visitor stored another value in it (`kept`);
* into an array, `val[arrayOffset] = newDoc` writes into the array the element holds, so a
  document that returned `nil` is nil in it;
* into a `bson.D` value, `elem.Value = newDoc` writes the range variable `elem`, a copy: the
  `nil` a deleted sub-document returned is lost, and the element keeps the sub-document as its
  walk left it (`walkAllValue`, case `doc`).

A walk returns the document's elements as its array was left, and whether it returned `nil`.
With a visitor that neither deletes nor fails, the walk visits exactly the `occurrences` of the
field, in order (`bsonWalkAll_of_quiet`), and if the visitor only reads, the document comes back
as it was (`bsonWalkAll_of_readOnly`).
-/

namespace Mongonet.Bson

open Go Result

variable {α σ ε : Type}

/-- What the visit of an element decides before the walk goes into its value. -/
inductive AllStep (σ α : Type) where
  /-- The walk goes on with `current[i]` now `e`; `kept` when its value is still the one the
  range variable holds. -/
  | visited (e : E α) (kept : Bool) (s : σ)
  /-- `DELETE_ME`: `return nil, nil`, with `current[i]` now `e`. -/
  | deleted (e : E α) (s : σ)

/-- `if elem.Key == fieldName { err := visitor.Visit(elemDoc); … }` in `BSONWalkAll`. -/
def visitAll (v : BSONWalkVisitor σ α ε) (fieldName : String) (e : E α) (s : σ) :
    Result (WalkError ε) (AllStep σ α) :=
  if e.1 = fieldName then
    let w := v.visit s e
    match w.err with
    | none => ok (.visited (w.apply e) w.value.isNone w.state)
    | some .deleteMe => ok (.deleted (w.apply e) w.state)
    | some (.other err) => error (.errorf "error visiting node %v" (.visitor err))
  else ok (.visited e true s)

mutual

/-- `BSONWalkAll` on the elements of a document from element `i` on: the elements as the array
is left, whether the walk returned `nil`, and the visitor's state. -/
def walkAllDoc (v : BSONWalkVisitor σ α ε) (fieldName : String) :
    D α → σ → Result (WalkError ε) (D α × Bool × σ)
  | [], s => ok ([], false, s)
  | (k, val) :: rest, s => do
    match ← visitAll v fieldName (k, val) s with
    | .deleted e s => ok (e :: rest, true, s)
    | .visited e kept s =>
      -- the switch is on the range variable, the value from before the visit
      let (e, s) ← walkAllValue v fieldName val e kept s
      let (rest, deleted, s) ← walkAllDoc v fieldName rest s
      pure (e :: rest, deleted, s)

/-- The type switch on `elem.Value` in `BSONWalkAll`: what `current[i]` (now `e`) holds after
the walk below it. -/
def walkAllValue (v : BSONWalkVisitor σ α ε) (fieldName : String) :
    Value α → E α → Bool → σ → Result (WalkError ε) (E α × σ)
  | .doc d, e, kept, s => do
    let (d, _, s) ← (walkAllDoc v fieldName d s).mapError (.errorf "error going deeper into doc %v")
    -- `elem.Value = newDoc` writes the range variable: a `nil` from the walk is lost
    pure (if kept then (e.1, .doc d) else e, s)
  | .docs ds, e, kept, s => do
    let (ds, s) ← walkAllDocs v fieldName ds s
    pure (if kept then (e.1, .docs ds) else e, s)
  | .primA xs, e, kept, s => do
    let (xs, s) ← walkAllIfaces v fieldName xs s
    pure (if kept then (e.1, .primA xs) else e, s)
  | .ifaces xs, e, kept, s => do
    let (xs, s) ← walkAllIfaces v fieldName xs s
    pure (if kept then (e.1, .ifaces xs) else e, s)
  -- a nil `bson.D` walks to nil without a visit; other values are not walked
  | _, e, _, s => ok (e, s)

/-- The loop of `BSONWalkAll` over a `[]bson.D`: `val[arrayOffset] = newDoc`. -/
def walkAllDocs (v : BSONWalkVisitor σ α ε) (fieldName : String) :
    List (Option (D α)) → σ → Result (WalkError ε) (List (Option (D α)) × σ)
  | [], s => ok ([], s)
  | none :: rest, s => do
    let (rest, s) ← walkAllDocs v fieldName rest s
    pure (none :: rest, s)
  | some d :: rest, s => do
    let (d, deleted, s) ←
      (walkAllDoc v fieldName d s).mapError (.errorf "error going deeper into array %v")
    let (rest, s) ← walkAllDocs v fieldName rest s
    pure ((if deleted then none else some d) :: rest, s)

/-- The loop of `BSONWalkAll` over a `primitive.A` or an `[]interface{}`:
`valToUse[arrayOffset] = newDoc` for a document, the element itself for anything else. -/
def walkAllIfaces (v : BSONWalkVisitor σ α ε) (fieldName : String) :
    List (Value α) → σ → Result (WalkError ε) (List (Value α) × σ)
  | [], s => ok ([], s)
  | .doc d :: rest, s => do
    let (d, deleted, s) ←
      (walkAllDoc v fieldName d s).mapError (.errorf "error going deeper into doc %v")
    let (rest, s) ← walkAllIfaces v fieldName rest s
    pure ((if deleted then .nilDoc else .doc d) :: rest, s)
  | x :: rest, s => do
    let (rest, s) ← walkAllIfaces v fieldName rest s
    pure (x :: rest, s)

end

/-- `BSONWalkAll(doc, fieldName, visitor)`: the document, or `none` for the `nil` it returns
after a `DELETE_ME`, and the visitor's state. -/
def bsonWalkAll (doc : D α) (fieldName : String) (visitor : BSONWalkVisitor σ α ε) (s : σ) :
    Result (WalkError ε) (Option (D α) × σ) := do
  let (doc, deleted, s) ← walkAllDoc visitor fieldName doc s
  pure (if deleted then none else some doc, s)

/-! ## What the walk visits -/

mutual

/-- The elements with key `fieldName` of a document and of every document below it, in the
order `BSONWalkAll` reaches them: each before the documents in its value. -/
def occurrences (fieldName : String) : D α → List (E α)
  | [] => []
  | (k, val) :: rest =>
    (if k = fieldName then [(k, val)] else []) ++ occurrencesValue fieldName val ++
      occurrences fieldName rest

def occurrencesValue (fieldName : String) : Value α → List (E α)
  | .doc d => occurrences fieldName d
  | .docs ds => occurrencesDocs fieldName ds
  | .primA xs => occurrencesIfaces fieldName xs
  | .ifaces xs => occurrencesIfaces fieldName xs
  | _ => []

def occurrencesDocs (fieldName : String) : List (Option (D α)) → List (E α)
  | [] => []
  | none :: rest => occurrencesDocs fieldName rest
  | some d :: rest => occurrences fieldName d ++ occurrencesDocs fieldName rest

def occurrencesIfaces (fieldName : String) : List (Value α) → List (E α)
  | [] => []
  | .doc d :: rest => occurrences fieldName d ++ occurrencesIfaces fieldName rest
  | _ :: rest => occurrencesIfaces fieldName rest

end

section Visits

variable {v : BSONWalkVisitor σ α ε} {fieldName : String}

/-- The visitor's state after it has visited `es` in turn. -/
def BSONWalkVisitor.visitAll (v : BSONWalkVisitor σ α ε) (s : σ) (es : List (E α)) : σ :=
  es.foldl (fun s e => (v.visit s e).state) s

@[simp] theorem BSONWalkVisitor.visitAll_nil (s : σ) : v.visitAll s [] = s := rfl

@[simp] theorem BSONWalkVisitor.visitAll_append (s : σ) (es fs : List (E α)) :
    v.visitAll s (es ++ fs) = v.visitAll (v.visitAll s es) fs := by
  simp [BSONWalkVisitor.visitAll, List.foldl_append]

@[simp] theorem BSONWalkVisitor.visitAll_singleton (s : σ) (e : E α) :
    v.visitAll s [e] = (v.visit s e).state := rfl

/-- A visitor that neither deletes nor fails. -/
def BSONWalkVisitor.Quiet (v : BSONWalkVisitor σ α ε) : Prop := ∀ s e, (v.visit s e).err = none

theorem visitAll_of_quiet (hv : v.Quiet) (e : E α) (s : σ) :
    ∃ e' kept, visitAll v fieldName e s =
      ok (.visited e' kept (v.visitAll s (if e.1 = fieldName then [e] else []))) := by
  by_cases hk : e.1 = fieldName
  · simp only [visitAll, if_pos hk, hv s e]
    exact ⟨_, _, rfl⟩
  · simp only [visitAll, if_neg hk]
    exact ⟨_, _, rfl⟩

mutual

/-- **What `BSONWalkAll` visits.**  With a visitor that neither deletes nor fails, the walk of a
document visits exactly its `occurrences`, in their order, and returns the document. -/
theorem walkAllDoc_of_quiet (hv : v.Quiet) :
    ∀ (d : D α) (s : σ), ∃ d', walkAllDoc v fieldName d s =
      ok (d', false, v.visitAll s (occurrences fieldName d))
  | [], s => ⟨[], rfl⟩
  | (k, val) :: rest, s => by
    obtain ⟨e, kept, hvisit⟩ := @visitAll_of_quiet α σ ε v fieldName hv (k, val) s
    obtain ⟨e', hval⟩ := walkAllValue_of_quiet hv val e kept
      (v.visitAll s (if k = fieldName then [(k, val)] else []))
    obtain ⟨rest', hrest⟩ := walkAllDoc_of_quiet hv rest
      (v.visitAll (v.visitAll s (if k = fieldName then [(k, val)] else []))
        (occurrencesValue fieldName val))
    refine ⟨e' :: rest', ?_⟩
    rw [walkAllDoc, hvisit]
    simp only [ok_bind, hval, hrest, pure_eq, occurrences, BSONWalkVisitor.visitAll_append]

theorem walkAllValue_of_quiet (hv : v.Quiet) :
    ∀ (val : Value α) (e : E α) (kept : Bool) (s : σ), ∃ e', walkAllValue v fieldName val e kept s =
      ok (e', v.visitAll s (occurrencesValue fieldName val))
  | .doc d, e, kept, s => by
    obtain ⟨d', hd⟩ := walkAllDoc_of_quiet hv d s
    simp only [walkAllValue, hd, mapError_ok, ok_bind, pure_eq, occurrencesValue]
    exact ⟨_, rfl⟩
  | .docs ds, e, kept, s => by
    obtain ⟨ds', hds⟩ := walkAllDocs_of_quiet hv ds s
    simp only [walkAllValue, hds, ok_bind, pure_eq, occurrencesValue]
    exact ⟨_, rfl⟩
  | .primA xs, e, kept, s => by
    obtain ⟨xs', hxs⟩ := walkAllIfaces_of_quiet hv xs s
    simp only [walkAllValue, hxs, ok_bind, pure_eq, occurrencesValue]
    exact ⟨_, rfl⟩
  | .ifaces xs, e, kept, s => by
    obtain ⟨xs', hxs⟩ := walkAllIfaces_of_quiet hv xs s
    simp only [walkAllValue, hxs, ok_bind, pure_eq, occurrencesValue]
    exact ⟨_, rfl⟩
  | .scalar _, e, _, s => ⟨e, rfl⟩
  | .null, e, _, s => ⟨e, rfl⟩
  | .nilDoc, e, _, s => ⟨e, rfl⟩

theorem walkAllDocs_of_quiet (hv : v.Quiet) :
    ∀ (ds : List (Option (D α))) (s : σ), ∃ ds', walkAllDocs v fieldName ds s =
      ok (ds', v.visitAll s (occurrencesDocs fieldName ds))
  | [], s => ⟨[], rfl⟩
  | none :: rest, s => by
    obtain ⟨rest', hrest⟩ := walkAllDocs_of_quiet hv rest s
    simp only [walkAllDocs, hrest, ok_bind, pure_eq, occurrencesDocs]
    exact ⟨_, rfl⟩
  | some d :: rest, s => by
    obtain ⟨d', hd⟩ := walkAllDoc_of_quiet hv d s
    obtain ⟨rest', hrest⟩ := walkAllDocs_of_quiet hv rest (v.visitAll s (occurrences fieldName d))
    simp only [walkAllDocs, hd, mapError_ok, ok_bind, hrest, pure_eq, occurrencesDocs,
      BSONWalkVisitor.visitAll_append]
    exact ⟨_, rfl⟩

theorem walkAllIfaces_of_quiet (hv : v.Quiet) :
    ∀ (xs : List (Value α)) (s : σ), ∃ xs', walkAllIfaces v fieldName xs s =
      ok (xs', v.visitAll s (occurrencesIfaces fieldName xs))
  | [], s => ⟨[], rfl⟩
  | .doc d :: rest, s => by
    obtain ⟨d', hd⟩ := walkAllDoc_of_quiet hv d s
    obtain ⟨rest', hrest⟩ :=
      walkAllIfaces_of_quiet hv rest (v.visitAll s (occurrences fieldName d))
    simp only [walkAllIfaces, hd, mapError_ok, ok_bind, hrest, pure_eq, occurrencesIfaces,
      BSONWalkVisitor.visitAll_append]
    exact ⟨_, rfl⟩
  -- every other value is passed over: the same step for each kind
  | .scalar _ :: rest, s | .null :: rest, s | .nilDoc :: rest, s | .docs _ :: rest, s
  | .primA _ :: rest, s | .ifaces _ :: rest, s => by
    obtain ⟨rest', hrest⟩ := walkAllIfaces_of_quiet hv rest s
    simp only [walkAllIfaces, hrest, ok_bind, pure_eq, occurrencesIfaces]
    exact ⟨_, rfl⟩

end

/-- **What `BSONWalkAll` visits.**  With a visitor that neither deletes nor fails, `BSONWalkAll`
returns a document, never `nil` nor an error, and the visitor has seen exactly the elements with
key `fieldName`, of the document and of every document below it, in document order, each before
the documents in its own value. -/
theorem bsonWalkAll_of_quiet (hv : v.Quiet) (doc : D α) (s : σ) :
    ∃ doc', bsonWalkAll doc fieldName v s =
      ok (some doc', v.visitAll s (occurrences fieldName doc)) := by
  obtain ⟨doc', hdoc⟩ : ∃ doc', walkAllDoc v fieldName doc s =
      ok (doc', false, v.visitAll s (occurrences fieldName doc)) := walkAllDoc_of_quiet hv doc s
  exact ⟨doc', by simp only [bsonWalkAll, hdoc, ok_bind, pure_eq, if_false, Bool.false_eq_true]⟩

/-- A visitor that records the elements it is given and changes nothing. -/
def recordWalker : BSONWalkVisitor (List (E α)) α ε where
  visit seen e := ⟨none, none, none, seen ++ [e]⟩

/-- `a` outside and inside a sub-document, and inside an array: all three are seen, in order. -/
theorem bsonWalkAll_of_quiet_record :
    ∃ doc', bsonWalkAll [("a", .scalar 1), ("b", .doc [("a", .scalar 2)]),
        ("c", .primA [.doc [("a", .scalar 3)]])] "a"
        (recordWalker : BSONWalkVisitor _ Int Empty) [] =
      ok (some doc', (recordWalker : BSONWalkVisitor _ Int Empty).visitAll [] (occurrences "a"
        [("a", .scalar 1),
        ("b", .doc [("a", .scalar 2)]), ("c", .primA [.doc [("a", .scalar 3)]])])) :=
  bsonWalkAll_of_quiet (fun _ _ => rfl) _ _

/-! ### Visitors that only read -/

/-- A visitor that leaves every element as it finds it: what it stores, if anything, is what the
element holds already. -/
def BSONWalkVisitor.ReadOnly (v : BSONWalkVisitor σ α ε) : Prop :=
  ∀ s e, (v.visit s e).apply e = e

theorem visitAll_of_readOnly (hv : v.Quiet) (hr : v.ReadOnly) (e : E α) (s : σ) :
    ∃ kept, visitAll v fieldName e s =
      ok (.visited e kept (v.visitAll s (if e.1 = fieldName then [e] else []))) := by
  by_cases hk : e.1 = fieldName
  · simp only [visitAll, if_pos hk, hv s e, hr s e]
    exact ⟨_, rfl⟩
  · simp only [visitAll, if_neg hk]
    exact ⟨_, rfl⟩

mutual

theorem walkAllDoc_of_readOnly (hv : v.Quiet) (hr : v.ReadOnly) :
    ∀ (d : D α) (s : σ), walkAllDoc v fieldName d s =
      ok (d, false, v.visitAll s (occurrences fieldName d))
  | [], s => rfl
  | (k, val) :: rest, s => by
    obtain ⟨kept, hvisit⟩ := @visitAll_of_readOnly α σ ε v fieldName hv hr (k, val) s
    have hval := walkAllValue_of_readOnly hv hr val k kept
      (v.visitAll s (if k = fieldName then [(k, val)] else []))
    have hrest := walkAllDoc_of_readOnly hv hr rest
      (v.visitAll (v.visitAll s (if k = fieldName then [(k, val)] else []))
        (occurrencesValue fieldName val))
    -- the walk below the element writes back what was there, so whether it is `kept` is moot
    rw [walkAllDoc, hvisit]
    simp only [ok_bind, hval, hrest, pure_eq, occurrences, BSONWalkVisitor.visitAll_append]

theorem walkAllValue_of_readOnly (hv : v.Quiet) (hr : v.ReadOnly) :
    ∀ (val : Value α) (k : String) (kept : Bool) (s : σ), walkAllValue v fieldName val (k, val)
      kept s = ok ((k, val), v.visitAll s (occurrencesValue fieldName val))
  | .doc d, k, kept, s => by
    simp only [walkAllValue, walkAllDoc_of_readOnly hv hr d s, mapError_ok, ok_bind, pure_eq,
      ite_self, occurrencesValue]
  | .docs ds, k, kept, s => by
    simp only [walkAllValue, walkAllDocs_of_readOnly hv hr ds s, ok_bind, pure_eq, ite_self,
      occurrencesValue]
  | .primA xs, k, kept, s => by
    simp only [walkAllValue, walkAllIfaces_of_readOnly hv hr xs s, ok_bind, pure_eq, ite_self,
      occurrencesValue]
  | .ifaces xs, k, kept, s => by
    simp only [walkAllValue, walkAllIfaces_of_readOnly hv hr xs s, ok_bind, pure_eq, ite_self,
      occurrencesValue]
  | .scalar _, _, _, _ => rfl
  | .null, _, _, _ => rfl
  | .nilDoc, _, _, _ => rfl

theorem walkAllDocs_of_readOnly (hv : v.Quiet) (hr : v.ReadOnly) :
    ∀ (ds : List (Option (D α))) (s : σ), walkAllDocs v fieldName ds s =
      ok (ds, v.visitAll s (occurrencesDocs fieldName ds))
  | [], s => rfl
  | none :: rest, s => by
    simp only [walkAllDocs, walkAllDocs_of_readOnly hv hr rest s, ok_bind, pure_eq,
      occurrencesDocs]
  | some d :: rest, s => by
    -- a document that was not deleted is written back in its slot
    simp only [walkAllDocs, walkAllDoc_of_readOnly hv hr d s, mapError_ok, ok_bind,
      walkAllDocs_of_readOnly hv hr rest (v.visitAll s (occurrences fieldName d)), pure_eq,
      if_false, Bool.false_eq_true, occurrencesDocs, BSONWalkVisitor.visitAll_append]

theorem walkAllIfaces_of_readOnly (hv : v.Quiet) (hr : v.ReadOnly) :
    ∀ (xs : List (Value α)) (s : σ), walkAllIfaces v fieldName xs s =
      ok (xs, v.visitAll s (occurrencesIfaces fieldName xs))
  | [], s => rfl
  | .doc d :: rest, s => by
    simp only [walkAllIfaces, walkAllDoc_of_readOnly hv hr d s, mapError_ok, ok_bind,
      walkAllIfaces_of_readOnly hv hr rest (v.visitAll s (occurrences fieldName d)), pure_eq,
      if_false, Bool.false_eq_true, occurrencesIfaces, BSONWalkVisitor.visitAll_append]
  | .scalar _ :: rest, s | .null :: rest, s | .nilDoc :: rest, s | .docs _ :: rest, s
  | .primA _ :: rest, s | .ifaces _ :: rest, s => by
    simp only [walkAllIfaces, walkAllIfaces_of_readOnly hv hr rest s, ok_bind, pure_eq,
      occurrencesIfaces]

end

/-- **A visitor that only reads changes nothing.**  With a visitor that neither deletes nor fails
and stores nothing new, `BSONWalkAll` gives back the document it was given, element for element
and at every depth, after the visits of `bsonWalkAll_of_quiet`. -/
theorem bsonWalkAll_of_readOnly (hv : v.Quiet) (hr : v.ReadOnly) (doc : D α) (s : σ) :
    bsonWalkAll doc fieldName v s = ok (some doc, v.visitAll s (occurrences fieldName doc)) := by
  simp only [bsonWalkAll, walkAllDoc_of_readOnly hv hr doc s, ok_bind, pure_eq, if_false,
    Bool.false_eq_true]

/-- The recording visitor reads the document of `bsonWalkAll_of_quiet_record` and leaves it. -/
theorem bsonWalkAll_of_readOnly_record :
    bsonWalkAll [("a", .scalar 1), ("b", .doc [("a", .scalar 2)]),
        ("c", .primA [.doc [("a", .scalar 3)]])] "a"
        (recordWalker : BSONWalkVisitor _ Int Empty) [] =
      ok (some [("a", .scalar 1), ("b", .doc [("a", .scalar 2)]),
          ("c", .primA [.doc [("a", .scalar 3)]])],
        (recordWalker : BSONWalkVisitor _ Int Empty).visitAll [] (occurrences "a"
          [("a", .scalar 1), ("b", .doc [("a", .scalar 2)]),
          ("c", .primA [.doc [("a", .scalar 3)]])])) :=
  bsonWalkAll_of_readOnly (fun _ _ => rfl) (fun _ _ => rfl) _ _

end Visits

/-! ## A deletion under a field value -/

/-- The visitor of bsonutil_test.go: it records the element, returns `DELETE_ME` on the value
`111` and otherwise stores `17`.  (On a value that is not an `int` its type assertion panics;
the walks below only give it numbers.) -/
def testWalker : BSONWalkVisitor (List (E Int)) Int Empty where
  visit seen e :=
    match e.2 with
    | .scalar 111 => ⟨none, none, some .deleteMe, seen ++ [e]⟩
    | _ => ⟨none, some (.scalar 17), none, seen ++ [e]⟩

/-- The `nil` of a deleted sub-document replaces it in an array, and is lost under a field value:
`{b: {a: 111}}` comes back unchanged, `{c: [{a: 111}]}` as `{c: [nil]}`. -/
theorem bsonWalkAll_field_delete_lost :
    bsonWalkAll [("b", .doc [("a", .scalar 111)])] "a" testWalker [] =
        ok (some [("b", .doc [("a", .scalar 111)])], [("a", .scalar 111)]) ∧
      bsonWalkAll [("c", .docs [some [("a", .scalar 111)]])] "a" testWalker [] =
        ok (some [("c", .docs [none])], [("a", .scalar 111)]) ∧
      bsonWalkAll [("c", .primA [.doc [("a", .scalar 111)]])] "a" testWalker [] =
        ok (some [("c", .primA [.nilDoc])], [("a", .scalar 111)]) :=
  ⟨rfl, rfl, rfl⟩

end Mongonet.Bson
