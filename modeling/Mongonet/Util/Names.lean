import Mongonet.Go.Strings
import Mongonet.Go.Bytes

/-!
# Mongonet.Util.Names — namespaces and file names (namespace.go, util.go)

A namespace is `db.collection`: `NamespaceToDB` and `NamespaceToCollection` split it at its first
`.`, and `NamespaceIsCommand` tests the byte after that `.` for `$`.  `stripDirectories`, which
`NewStackErrorf` applies to the file of every frame of a stack trace, keeps the last `toKeep`
directories of a path.  Go strings are byte strings, `List UInt8` here; every slice and index
goes through the checked operations of `Go.Bytes`, so that a theorem that a function returns
`ok` says in particular that it never panics.

* `namespace_split`: every namespace is its database, then `.`, then its collection, or its
  database alone when it has no `.`; it is a command namespace exactly when its collection starts
  with `$`;
* `namespace_join`: a database without `.` and any collection are read back from
  `db.collection`;
* `stripDirectories_spec`: the result is what follows a `/` of the path, with the path's last
  `toKeep` directories, or all of them but the first component when there are fewer.
-/

namespace Mongonet

open Go Result

/-! ## namespace.go -/

/-- `NamespaceIsCommand(ns)`. -/
def namespaceIsCommand (ns : List UInt8) : Result Empty Bool :=
  -- `strings.IndexByte(ns, '.')`
  let idx := indexByte ns 46
  if idx = -1 ∨ ns.length ≤ idx + 1 then ok false
  else do
    let b ← index ns (idx + 1)
    -- `ns[idx+1] == '$'`
    pure (b == 36)

/-- `NamespaceToDB(ns)`. -/
def namespaceToDB (ns : List UInt8) : Result Empty (List UInt8) :=
  let idx := indexByte ns 46
  if idx = -1 then ok ns else slice ns 0 idx

/-- `NamespaceToCollection(ns)`. -/
def namespaceToCollection (ns : List UInt8) : Result Empty (List UInt8) :=
  let idx := indexByte ns 46
  if idx = -1 then ok [] else sliceFrom ns (idx + 1)

theorem namespace_of_index {ns pre post : List UInt8} (hns : ns = pre ++ 46 :: post)
    (hidx : indexByte ns 46 = pre.length) :
    namespaceToDB ns = ok pre ∧ namespaceToCollection ns = ok post ∧
      namespaceIsCommand ns = ok (post.head? == some 36) := by
  have hne : (pre.length : Int) ≠ -1 := by omega
  have hlen : ns.length = pre.length + 1 + post.length := by
    rw [hns, List.length_append, List.length_cons]
    omega
  refine ⟨?_, ?_, ?_⟩
  · unfold namespaceToDB
    rw [hidx, if_neg hne, slice_zero_of_le (by omega), hns]
    simp
  · unfold namespaceToCollection
    rw [hidx, if_neg hne, show (pre.length : Int) + 1 = ((pre.length + 1 : Nat) : Int) by omega,
      sliceFrom_of_le (by omega), hns]
    simp
  · unfold namespaceIsCommand
    rw [hidx]
    rcases post with _ | ⟨b, post⟩
    · -- the `.` is the last byte
      rw [if_pos (.inr (by simp only [hlen, List.length_nil]; omega))]
      rfl
    · rw [if_neg (by simp only [hlen, List.length_cons]; omega),
        show (pre.length : Int) + 1 = ((pre.length + 1 : Nat) : Int) by omega,
        index_of_lt (by simp only [hlen, List.length_cons]; omega), ok_bind]
      subst hns
      simp

/-- **Every namespace splits at its first `.`.**  The three functions never panic: the database
is what comes before the first `.` (the whole namespace when there is none), the collection what
comes after it (nothing when there is none), and the namespace is a command namespace exactly
when its collection starts with `$`. -/
theorem namespace_split (ns : List UInt8) :
    ∃ db coll, namespaceToDB ns = ok db ∧ namespaceToCollection ns = ok coll ∧
      namespaceIsCommand ns = ok (coll.head? == some 36) ∧ 46 ∉ db ∧
      (46 ∈ ns → ns = db ++ 46 :: coll) ∧ (46 ∉ ns → db = ns ∧ coll = []) := by
  rcases indexByte_spec ns 46 with ⟨hidx, hnot⟩ | ⟨pre, post, hns, hpre, hidx⟩
  · -- no `.`: the database is the whole namespace
    refine ⟨ns, [], by simp [namespaceToDB, hidx], by simp [namespaceToCollection, hidx], ?_,
      hnot, fun h => absurd h hnot, fun _ => ⟨rfl, rfl⟩⟩
    simp [namespaceIsCommand, hidx]
  · obtain ⟨hdb, hcoll, hcmd⟩ := namespace_of_index hns hidx
    refine ⟨pre, post, hdb, hcoll, hcmd, hpre, fun _ => hns, fun h => absurd ?_ h⟩
    rw [hns]
    simp

/-- **A namespace is read back.**  For a database name without `.` and any collection name
(which may hold `.`s), `db.collection` gives back both, and is a command namespace exactly when
the collection starts with `$`. -/
theorem namespace_join {db coll : List UInt8} (hdb : 46 ∉ db) :
    namespaceToDB (db ++ 46 :: coll) = ok db ∧ namespaceToCollection (db ++ 46 :: coll) = ok coll ∧
      namespaceIsCommand (db ++ 46 :: coll) = ok (coll.head? == some 36) :=
  namespace_of_index rfl (indexByte_append_cons hdb)

/-- `test.$cmd`. -/
theorem namespace_join_cmd :
    namespaceToDB ([116, 101, 115, 116] ++ 46 :: [36, 99, 109, 100]) = ok [116, 101, 115, 116] ∧
      namespaceToCollection ([116, 101, 115, 116] ++ 46 :: [36, 99, 109, 100]) =
        ok [36, 99, 109, 100] ∧
      namespaceIsCommand ([116, 101, 115, 116] ++ 46 :: [36, 99, 109, 100]) =
        ok (([36, 99, 109, 100] : List UInt8).head? == some 36) :=
  namespace_join (by decide)

/-! ## util.go -/

/-- The `for` loop of `stripDirectories`, with `n` rounds left: each round looks for a `/` before
`idxCutoff` and moves `idxCutoff` back to it. -/
def keepDirectories (filepath : List UInt8) : Nat → Int → Result Empty Int
  | 0, idxCutoff => ok idxCutoff
  | n + 1, idxCutoff => do
    let before ← slice filepath 0 idxCutoff
    let idx := lastIndexByte before 47
    -- `case -1: break` leaves the `switch`, not the loop, which goes on with `idxCutoff` as it is
    keepDirectories filepath n (if idx = -1 then idxCutoff else idx)

/-- `stripDirectories(filepath, toKeep)`. -/
def stripDirectories (filepath : List UInt8) (toKeep : Int) : Result Empty (List UInt8) :=
  let idxCutoff := lastIndexByte filepath 47
  if idxCutoff = -1 then ok filepath
  else do
    let idxCutoff ← keepDirectories filepath toKeep.toNat idxCutoff
    sliceFrom filepath (idxCutoff + 1)

/-- Each round of the loop moves the cut to the `/` before it, when there is one: after `n`
rounds, `n` fewer `/`s are before the cut, or none. -/
theorem keepDirectories_spec {filepath : List UInt8} :
    ∀ (n : Nat) {pre post : List UInt8}, filepath = pre ++ 47 :: post →
      ∃ pre' post', keepDirectories filepath n pre.length = ok pre'.length ∧
        filepath = pre' ++ 47 :: post' ∧ pre'.count 47 = pre.count 47 - n := by
  intro n
  induction n with
  | zero => exact fun h => ⟨_, _, rfl, h, rfl⟩
  | succ n ih =>
    intro pre post h
    have hslice : (slice filepath 0 pre.length : Result Empty (List UInt8)) = ok pre := by
      rw [slice_zero_of_le (by rw [h]; simp), h]
      simp
    rw [keepDirectories, hslice, ok_bind]
    rcases lastIndexByte_spec pre 47 with ⟨hj, hnot⟩ | ⟨p, q, hpq, hq, hj⟩
    · -- no `/` before the cut: it stays, for this round and every later one
      rw [hj]
      dsimp only
      rw [if_pos rfl]
      obtain ⟨pre', post', hk, hfp, hc⟩ := ih h
      have hzero : pre.count 47 = 0 := List.count_eq_zero.mpr hnot
      exact ⟨pre', post', hk, hfp, by omega⟩
    · rw [hj]
      dsimp only
      rw [if_neg (by omega)]
      have h' : filepath = p ++ 47 :: (q ++ 47 :: post) := by
        rw [h, hpq]
        simp
      obtain ⟨pre', post', hk, hfp, hc⟩ := ih h'
      have hcount : pre.count 47 = p.count 47 + 1 := by
        rw [hpq, List.count_append, List.count_cons_self, List.count_eq_zero.mpr hq]
      exact ⟨pre', post', hk, hfp, by omega⟩

/-- **`stripDirectories` keeps the last `toKeep` directories.**  A path without `/` comes back
whole.  Otherwise the result never panics and is what follows one of the path's `/`s: the file
name with the path's last `toKeep` directories, or, when the path has fewer, all but its first
component. -/
theorem stripDirectories_spec (filepath : List UInt8) (toKeep : Int) :
    (47 ∉ filepath → stripDirectories filepath toKeep = ok filepath) ∧
      (47 ∈ filepath → ∃ pre name, stripDirectories filepath toKeep = ok name ∧
        filepath = pre ++ 47 :: name ∧ name.count 47 = min (filepath.count 47 - 1) toKeep.toNat) := by
  rcases lastIndexByte_spec filepath 47 with ⟨hj, hnot⟩ | ⟨pre, post, hfp, hpost, hj⟩
  · exact ⟨fun _ => by simp [stripDirectories, hj], fun h => absurd h hnot⟩
  refine ⟨fun h => absurd (by rw [hfp]; simp) h, fun _ => ?_⟩
  obtain ⟨pre', name, hk, hfp', hc⟩ := keepDirectories_spec toKeep.toNat hfp
  have hslice : (sliceFrom filepath ((pre'.length : Int) + 1) : Result Empty (List UInt8)) =
      ok name := by
    rw [show (pre'.length : Int) + 1 = ((pre'.length + 1 : Nat) : Int) by omega,
      sliceFrom_of_le (by rw [hfp']; simp), hfp']
    simp
  refine ⟨pre', name, ?_, hfp', ?_⟩
  · unfold stripDirectories
    rw [hj, if_neg (by omega), hk, ok_bind, hslice]
  · -- the `/`s of the path: those before the cut, the cut, and those of the result
    have htotal : filepath.count 47 = pre.count 47 + 1 := by
      rw [hfp, List.count_append, List.count_cons_self, List.count_eq_zero.mpr hpost]
    have htotal' : filepath.count 47 = pre'.count 47 + 1 + name.count 47 := by
      rw [hfp', List.count_append, List.count_cons_self]
      omega
    omega

example : stripDirectories [97, 47, 98, 47, 99, 47, 100] 1 = ok [99, 47, 100] := rfl

end Mongonet
