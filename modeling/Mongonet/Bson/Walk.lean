import Mongonet.Bson.WalkAll

/-!
# Mongonet.Bson.Walk — `BSONWalk` and `BSONWalkHelp`

`BSONWalkHelp(doc, path, visitor, inArray)` follows `path` down from `doc`, one piece at a
time, with two slices into the document: `current`, where the next piece is looked up, and
`prev`, the document `current` was reached from; `docPath` records the index found at every
piece.  At the last piece the visitor is called on the element; before it the element's value
decides:

* a `bson.D` is gone into (`prev = current; current = val`);
* the documents of a `[]bson.D`, and the `bson.D` elements of a non-empty `primitive.A` or
  `[]interface{}`, are each walked with the rest of the path (`inArray = true`), and those whose
  walk returned `DELETE_ME` are compacted out;
* an empty `primitive.A` or `[]interface{}` is passed over with `continue`: the next piece is
  looked up in the same `current`;
* any other value ends the walk.

Every write of the Go code goes through `current`, `prev` or an array the element holds, all of
which are slices of the tree the call was given, so the model keeps that tree (`HelpState.doc`)
and the indices of the `bson.D` elements gone into (`descent`): `current` and `prev` are the
documents at `descent` and at `descent.dropLast`.

One write has no tree to land in.  After a `continue` with no `bson.D` gone into, `prev` and
`current` are both `doc`, and `prev[docPath[len(docPath)-2]].Value = fixed` stores in an element
of `doc` a slice of `doc`'s own array: the walk returns a cyclic document, `Walked.cyclic`.

Along a path whose pieces name documents only, the slices do what a functional update does:
`bsonWalk_docPath` shows the walk returns `updateAt` of the document at the element `pathTarget`
names, visited once.
-/

namespace Mongonet.Bson

open Go Result

variable {α σ ε : Type}

/-! ## The documents below a document -/

/-- The document reached from `d` through the `bson.D` values at the indices `descent`;
a nil `bson.D` is the empty document. -/
def docAt : D α → List Nat → D α
  | d, [] => d
  | d, i :: descent =>
    match d[i]? with
    | some (_, .doc d') => docAt d' descent
    | _ => []

/-- `d` with the document at `descent` replaced by `f` of it (unchanged if there is none). -/
def updateAt (f : D α → D α) : D α → List Nat → D α
  | d, [] => f d
  | d, i :: descent =>
    match d[i]? with
    | some (k, .doc d') => d.set i (k, .doc (updateAt f d' descent))
    | _ => d

/-- `current[idx].Value = val`, with `current` the document at `descent`. -/
def setValueAt (doc : D α) (descent : List Nat) (idx : Nat) (val : Value α) : D α :=
  updateAt (fun current => current.modify idx fun e => (e.1, val)) doc descent

/-! ## One call -/

/-- What `BSONWalkHelp` returns: a document, `DELETE_ME` (with `bson.D{}`), or a document whose
element `j` holds a slice of the document's own array, of its length less one. -/
inductive Walked (α : Type) where
  | doc (d : D α)
  | deleted
  | cyclic (d : D α) (j : Nat)
  deriving Repr

/-- The variables of one call of `BSONWalkHelp` that the model keeps: the tree `doc` as the
writes have left it, where `current` is in it, and `docPath`. -/
structure HelpState (α : Type) where
  doc : D α
  descent : List Nat
  docPath : List Nat
  deriving Repr

/-- `current` in the tree. -/
def HelpState.current (st : HelpState α) : D α := docAt st.doc st.descent

/-- `prev` in the tree. -/
def HelpState.prev (st : HelpState α) : D α := docAt st.doc st.descent.dropLast

/-- The state a call starts from: `prev := doc; current := doc; docPath := []int{}`. -/
def HelpState.init (doc : D α) : HelpState α := ⟨doc, [], []⟩

/-- `fixed := append(current[0:idx], current[idx+1:]...)` moves the elements after `idx` one
place down in `current`'s own array, which keeps its length and its last element. -/
def shiftDown (current : D α) (idx : Nat) : D α :=
  current.eraseIdx idx ++ current.drop (current.length - 1)

/-- A `DELETE_ME` at the last piece, outside an array, with `current[idx]` already visited:
`fixed` is returned at the first piece, and stored in `prev[docPath[len(docPath)-2]]` after it. -/
def deleteAt (st : HelpState α) (idx : Nat) : Result (WalkError ε) (Walked α) :=
  let current := st.current
  let fixed := current.eraseIdx idx
  match st.docPath.reverse with
  | [] | [_] => ok (.doc fixed)
  | _ :: j :: _ =>
    -- `prev` and `current` are one array when no `bson.D` was gone into
    if st.descent = [] then ok (.cyclic (shiftDown current idx) j)
    else
      let doc := updateAt (fun current => shiftDown current idx) st.doc st.descent
      if j < (docAt doc st.descent.dropLast).length then
        ok (.doc (setValueAt doc st.descent.dropLast j (.doc fixed)))
      else .panic "index out of range"

/-- The last piece: `visitor.Visit(elem)` on `elem = &current[idx]`, and what its error does. -/
def visitLast (v : BSONWalkVisitor σ α ε) (inArray : Bool) (st : HelpState α) (idx : Nat)
    (e : E α) (s : σ) : Result (WalkError ε) (Walked α × σ) :=
  if e.1.isEmpty then .panic "this is not ok right now" else
  let w := v.visit s e
  let st := { st with doc := updateAt (fun current => current.set idx (w.apply e)) st.doc st.descent }
  match w.err with
  | none => ok (.doc st.doc, w.state)
  | some .deleteMe =>
    if inArray then ok (.deleted, w.state)
    else do
      let r ← deleteAt st idx
      pure (r, w.state)
  | some (.other err) => error (.errorf "error visiting node %s" (.visitor err))

/-! ## The arrays -/

/-- The loop over a `[]bson.D`: every document walked with the rest of the path, `nil` for a
`DELETE_ME`; the documents and the number deleted. -/
def docsLoop (walk : D α → σ → Result (WalkError ε) (Walked α × σ)) :
    List (Option (D α)) → σ → Result (WalkError ε) (List (Option (D α)) × Nat × σ)
  | [], s => ok ([], 0, s)
  -- `BSONWalkHelp(nil, ...)` finds no first piece and returns `nil`
  | none :: rest, s => do
    let (rest, numDeleted, s) ← docsLoop walk rest s
    pure (none :: rest, numDeleted, s)
  | some sub :: rest, s => do
    let (w, s) ← (walk sub s).mapError (.errorf "error going deeper into array %s")
    let (rest, numDeleted, s) ← docsLoop walk rest s
    match w with
    | .deleted => pure (none :: rest, numDeleted + 1, s)
    | .doc d | .cyclic d _ => pure (some d :: rest, numDeleted, s)

/-- The loop over a `primitive.A` or `[]interface{}`: every `bson.D` walked with the rest of the
path, a nil `bson.D` for a `DELETE_ME`, anything else kept. -/
def ifacesLoop (walk : D α → σ → Result (WalkError ε) (Walked α × σ)) :
    List (Value α) → σ → Result (WalkError ε) (List (Value α) × Nat × σ)
  | [], s => ok ([], 0, s)
  | .doc sub :: rest, s => do
    let (w, s) ← (walk sub s).mapError (.errorf "error going deeper into array %s")
    let (rest, numDeleted, s) ← ifacesLoop walk rest s
    match w with
    | .deleted => pure (.nilDoc :: rest, numDeleted + 1, s)
    | .doc d | .cyclic d _ => pure (.doc d :: rest, numDeleted, s)
  -- a nil `bson.D` walks to itself; other values are set as they are
  | x :: rest, s => do
    let (rest, numDeleted, s) ← ifacesLoop walk rest s
    pure (x :: rest, numDeleted, s)

/-- `for _, sub := range val { if sub != nil { newArr[pos] = sub; pos++ } }`. -/
def compactDocs : List (Option (D α)) → List (Option (D α)) → Nat → List (Option (D α))
  | [], newArr, _ => newArr
  | none :: rest, newArr, pos => compactDocs rest newArr pos
  | some d :: rest, newArr, pos => compactDocs rest (newArr.set pos (some d)) (pos + 1)

/-- `for _, sub := range valToUse { if sub != nil && len(sub.(bson.D)) > 0 { ... } }`: the type
assertion panics on an element that is neither nil nor a `bson.D`. -/
def compactIfaces : List (Value α) → List (Value α) → Nat → Result (WalkError ε) (List (Value α))
  | [], newArr, _ => ok newArr
  | .null :: rest, newArr, pos => compactIfaces rest newArr pos
  | .nilDoc :: rest, newArr, pos => compactIfaces rest newArr pos
  | .doc d :: rest, newArr, pos =>
    if d.length > 0 then compactIfaces rest (newArr.set pos (.doc d)) (pos + 1)
    else compactIfaces rest newArr pos
  | .scalar _ :: _, _, _ | .docs _ :: _, _, _ | .primA _ :: _, _, _ | .ifaces _ :: _, _, _ =>
    .panic "interface conversion: interface is not primitive.D"

/-- After the loop over a `[]bson.D`: `current[idx].Value = newArr` if a document was deleted;
the loop's own writes went into the array the element holds. -/
def docsResult (ds : List (Option (D α))) (numDeleted : Nat) : Value α :=
  if numDeleted > 0 then .docs (compactDocs ds (List.replicate (ds.length - numDeleted) none) 0)
  else .docs ds

/-- After the loop over a `primitive.A` (`mk := .primA`) or `[]interface{}`: the
`[]interface{}` `newArr` if a document was deleted, the same array otherwise. -/
def ifacesResult (mk : List (Value α) → Value α) (xs : List (Value α)) (numDeleted : Nat) :
    Result (WalkError ε) (Value α) :=
  if numDeleted > 0 then
    .ifaces <$> compactIfaces xs (List.replicate (xs.length - numDeleted) .null) 0
  else ok (mk xs)

/-- The `valToUse` loop and what is stored after it. -/
def walkIfaces (walk : D α → σ → Result (WalkError ε) (Walked α × σ))
    (mk : List (Value α) → Value α) (xs : List (Value α)) (s : σ) :
    Result (WalkError ε) (Value α × σ) := do
  let (xs, numDeleted, s) ← ifacesLoop walk xs s
  let val ← ifacesResult mk xs numDeleted
  pure (val, s)

/-! ## The walk -/

/-- `idx := BSONIndexOf(current, piece)` and `elem := &current[idx]`, or `none` for `idx < 0`. -/
def findPiece (st : HelpState α) (piece : String) : Option (Nat × E α) :=
  let idx := bsonIndexOf st.current piece
  if idx < 0 then none else (st.current[idx.toNat]?).map fun e => (idx.toNat, e)

/-- The loop `for pieceOffset, piece := range path` of `BSONWalkHelp`, from the piece at the
head of `path`; a walk into an array is a new call on the rest of the path. -/
def walkPieces (v : BSONWalkVisitor σ α ε) (inArray : Bool) :
    List String → HelpState α → σ → Result (WalkError ε) (Walked α × σ)
  | [], st, s => ok (.doc st.doc, s)
  -- `pieceOffset == len(path)-1`
  | [piece], st, s =>
    match findPiece st piece with
    | none => ok (.doc st.doc, s)
    | some (i, e) => visitLast v inArray { st with docPath := st.docPath ++ [i] } i e s
  | piece :: next :: rest, st, s =>
    match findPiece st piece with
    | none => ok (.doc st.doc, s)
    | some (i, e) =>
      let st := { st with docPath := st.docPath ++ [i] }
      match e.2 with
      | .doc _ | .nilDoc => walkPieces v inArray (next :: rest)
          { st with descent := st.descent ++ [i] } s
      | .docs ds => do
        let (ds, numDeleted, s) ←
          docsLoop (fun sub s => walkPieces v true (next :: rest) (.init sub) s) ds s
        pure (.doc (setValueAt st.doc st.descent i (docsResult ds numDeleted)), s)
      -- `if len(valToUse) == 0 { continue }`: the next piece, in the same `current`
      | .primA xs =>
        if xs.isEmpty then walkPieces v inArray (next :: rest) st s
        else do
          let (val, s) ←
            walkIfaces (fun sub s => walkPieces v true (next :: rest) (.init sub) s) .primA xs s
          pure (.doc (setValueAt st.doc st.descent i val), s)
      | .ifaces xs =>
        if xs.isEmpty then walkPieces v inArray (next :: rest) st s
        else do
          let (val, s) ←
            walkIfaces (fun sub s => walkPieces v true (next :: rest) (.init sub) s) .ifaces xs s
          pure (.doc (setValueAt st.doc st.descent i val), s)
      | .scalar _ | .null => ok (.doc st.doc, s)

/-- `BSONWalkHelp(doc, path, visitor, inArray)`. -/
def bsonWalkHelp (doc : D α) (path : List String) (visitor : BSONWalkVisitor σ α ε)
    (inArray : Bool) (s : σ) : Result (WalkError ε) (Walked α × σ) :=
  walkPieces visitor inArray path (.init doc) s

/-- `BSONWalk(doc, pathString, visitor)`. -/
def bsonWalk (doc : D α) (pathString : String) (visitor : BSONWalkVisitor σ α ε) (s : σ) :
    Result (WalkError ε) (Walked α × σ) :=
  bsonWalkHelp doc (splitPath pathString) visitor false s

/-! ## Where the walk leaves the path -/

/-- An empty array on the path is passed over with `continue`: walked along `c.x`, `{c: [], x: 1}`
has its top-level `x` visited (and set to `17`), though no document of `c` holds an `x`. -/
theorem bsonWalk_empty_array_continue :
    bsonWalk [("c", .primA []), ("x", .scalar 1)] "c.x" testWalker [] =
        ok (.doc [("c", .primA []), ("x", .scalar 17)], [("x", .scalar 1)]) ∧
      bsonWalk [("c", .ifaces []), ("x", .scalar 1)] "c.x" testWalker [] =
        ok (.doc [("c", .ifaces []), ("x", .scalar 17)], [("x", .scalar 1)]) :=
  ⟨rfl, rfl⟩

/-- After a deletion in an array the compaction does not keep the other elements in order: in a
`primitive.A` the type assertion panics on a number, drops an empty document and leaves a nil
slot; in a `[]bson.D` a nil element moves behind the documents. -/
theorem bsonWalk_array_delete_compaction :
    bsonWalk [("c", .primA [.doc [("x", .scalar 111)], .scalar 5])] "c.x" testWalker [] =
        .panic "interface conversion: interface is not primitive.D" ∧
      bsonWalk [("c", .primA [.doc [], .doc [("x", .scalar 111)]])] "c.x" testWalker [] =
        ok (.doc [("c", .ifaces [.null])], [("x", .scalar 111)]) ∧
      bsonWalk [("c", .docs [none, some [("x", .scalar 111)], some [("x", .scalar 5)]])] "c.x"
          testWalker [] =
        ok (.doc [("c", .docs [some [("x", .scalar 17)], none])],
          [("x", .scalar 111), ("x", .scalar 5)]) :=
  ⟨rfl, rfl, rfl⟩

/-! ## Along a path of documents -/

/-- The element a path names when every piece but the last names, by its first occurrence, an
element whose value is a `bson.D`: the indices of those elements, the index of the last piece in
the document it is looked up in, and the element; `none` when a piece is missing or its value is
not a document. -/
def pathTarget : D α → List String → Option (List Nat × Nat × E α)
  | _, [] => none
  | d, [piece] =>
    match d.findIdx? (fun e => e.1 == piece) with
    | none => none
    | some i => d[i]?.map fun e => ([], i, e)
  | d, piece :: next :: rest =>
    match d.findIdx? (fun e => e.1 == piece) with
    | none => none
    | some i =>
      match d[i]? with
      | some (_, .doc d') => (pathTarget d' (next :: rest)).map fun t => (i :: t.1, t.2)
      | _ => none

theorem docAt_nil : ∀ descent : List Nat, docAt ([] : D α) descent = []
  | [] => rfl
  | _ :: _ => rfl

theorem docAt_append : ∀ (d : D α) (a b : List Nat), docAt d (a ++ b) = docAt (docAt d a) b
  | _, [], _ => rfl
  | d, i :: a, b => by
    simp only [List.cons_append, docAt]
    split
    · next k d' heq => exact docAt_append d' a b
    · exact (docAt_nil b).symm

theorem findPiece_eq_some {st : HelpState α} {piece : String} {i : Nat} {e : E α}
    (hi : st.current.findIdx? (fun e => e.1 == piece) = some i) (he : st.current[i]? = some e) :
    findPiece st piece = some (i, e) := by
  simp [findPiece, bsonIndexOf_eq_of_findIdx? hi, he]

section DocPath

variable {v : BSONWalkVisitor σ α ε} {inArray : Bool} {s : σ}

/-- The walk from any point of the loop: with `current` the document at `st.descent`, a path of
documents from `current` on is followed to its element, which is visited once, in place. -/
theorem walkPieces_pathTarget :
    ∀ (path : List String) (st : HelpState α) {descent : List Nat} {j : Nat} {e : E α},
      pathTarget st.current path = some (descent, j, e) → e.1 ≠ "" → (v.visit s e).err = none →
      walkPieces v inArray path st s =
        ok (.doc (updateAt (fun cur => cur.set j ((v.visit s e).apply e)) st.doc
          (st.descent ++ descent)), (v.visit s e).state)
  | [], _, _, _, _, h, _, _ => by
    simp [pathTarget] at h
  | [piece], st, descent, j, e, h, hkey, hv => by
    rw [pathTarget] at h
    rcases hi : st.current.findIdx? (fun e => e.1 == piece) with _ | i
    · rw [hi] at h
      cases h
    rw [hi] at h
    obtain ⟨e', he', heq⟩ := Option.map_eq_some_iff.mp h
    cases heq
    -- the last piece: `visitor.Visit(&current[i])`, written back into `current`
    rw [walkPieces, findPiece_eq_some hi he']
    dsimp only
    rw [visitLast, if_neg (by rw [String.isEmpty_eq_false_iff.mpr hkey]; exact Bool.false_ne_true)]
    simp only [hv, List.append_nil]
  | piece :: next :: rest, st, descent, j, e, h, hkey, hv => by
    rw [pathTarget] at h
    rcases hi : st.current.findIdx? (fun e => e.1 == piece) with _ | i
    · rw [hi] at h
      cases h
    rw [hi] at h
    dsimp only at h
    split at h
    · next k d' hget =>
      obtain ⟨⟨descent', j', e'⟩, ht, heq⟩ := Option.map_eq_some_iff.mp h
      simp only [Prod.mk.injEq] at heq
      obtain ⟨rfl, rfl, rfl⟩ := heq
      -- a `bson.D` on the path: `prev = current; current = val`, one level down
      have hcur : docAt st.doc (st.descent ++ [i]) = d' := by
        rw [docAt_append]
        change docAt st.current [i] = d'
        simp [docAt, hget]
      have hrest := walkPieces_pathTarget (next :: rest)
        { st with docPath := st.docPath ++ [i], descent := st.descent ++ [i] }
        (show pathTarget (docAt st.doc (st.descent ++ [i])) (next :: rest) = some (descent', j', e') by
          rw [hcur]
          exact ht) hkey hv
      rw [walkPieces, findPiece_eq_some hi hget]
      dsimp only
      rw [hrest, List.append_assoc, List.singleton_append]
    · cases h

/-- **`BSONWalk` along a path of documents updates the element at its end.**  When every piece
but the last of the dotted path names, by its first occurrence, a `bson.D`, and the last names
an element with a non-empty key, a visit of that element that neither fails nor deletes makes
the walk return the document with that element replaced by the visitor's, and nothing else
changed: the slices `prev` and `current` of the Go code write into the document it was given
exactly where a functional update at the path would. -/
theorem bsonWalk_docPath {doc : D α} {pathString : String} {descent : List Nat} {j : Nat}
    {e : E α} (hp : pathTarget doc (splitPath pathString) = some (descent, j, e))
    (hkey : e.1 ≠ "") (hv : (v.visit s e).err = none) :
    bsonWalk doc pathString v s =
      ok (.doc (updateAt (fun cur => cur.set j ((v.visit s e).apply e)) doc descent),
        (v.visit s e).state) := by
  unfold bsonWalk bsonWalkHelp
  exact walkPieces_pathTarget (splitPath pathString) (.init doc) hp hkey hv

/-- `a.b` in `{a: {b: 1}, c: 2}`: the walk sets the inner `b` to `17`. -/
theorem bsonWalk_docPath_nested :
    bsonWalk [("a", .doc [("b", .scalar 1)]), ("c", .scalar 2)] "a.b" testWalker [] =
      ok (.doc (updateAt (fun cur => cur.set 0 ((testWalker.visit [] ("b", .scalar 1)).apply
          ("b", .scalar 1))) [("a", .doc [("b", .scalar 1)]), ("c", .scalar 2)] [0]),
        (testWalker.visit [] ("b", .scalar 1)).state) :=
  bsonWalk_docPath rfl (by decide) rfl

end DocPath

end Mongonet.Bson
