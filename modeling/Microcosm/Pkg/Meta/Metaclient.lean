import Microcosm.Pkg.Errors
import Microcosm.Library.KeyRange

/-!
# Operations of the metastore client

`pkg/meta/metaclient/op.go`. An `Op` is a get, put, delete or transaction on byte-string
keys. The range options fill in its range end and set one flag each: `WithRange(end)`
takes `end`, `WithFromKey` takes `"\x00"`, and `WithPrefix` takes `getPrefix(key)`, the
least key above every key with the prefix `key`. On an empty key `WithPrefix` does not
set its flag, and `WithFromKey` replaces the key by `"\x00"`.

Keys are lists of bytes; a Go string is its bytes. `getPrefix` is also the function
clientv3 uses for its own `WithPrefix`, of which this file is a copy.
-/

namespace Microcosm

namespace Meta

/-- `opType`; an `Op` whose type was never set is `invalid`. -/
inductive OpType
  | invalid
  | get
  | put
  | delete
  | txn
  deriving DecidableEq, Repr

/-- `Op`. The field `end` is `rangeEnd` here. -/
structure Op where
  t : OpType
  key : List UInt8
  rangeEnd : List UInt8
  val : List UInt8
  ops : List Op
  isOptsWithPrefix : Bool
  isOptsWithFromKey : Bool
  isOptsWithRange : Bool

/-- `noPrefixEnd`. -/
def noPrefixEnd : List UInt8 := [0]

/-- The loop of `getPrefix`, on the key read from its last byte: the last byte below
`0xff` is incremented and the bytes after it are cut off; `none` if there is no such
byte. -/
def incrementLast : List UInt8 → Option (List UInt8)
  | [] => none
  | b :: rest => if b < 0xff then some ((b + 1) :: rest) else incrementLast rest

-- Many proofs below unfold this definition, and Lean elaborates them in parallel: the empty
-- section generates its equation lemmas here, once, so that the proofs do not all wait on it.
-- The simp set outside the section is unchanged.
section
attribute [local simp] incrementLast
end

/-- `getPrefix`. -/
def getPrefix (key : List UInt8) : List UInt8 :=
  match incrementLast key.reverse with
  | some e => e.reverse
  | none => noPrefixEnd

/-- The range options of `op.go`. -/
inductive OpOption
  | withPrefix
  | withRange (endKey : List UInt8)
  | withFromKey
  deriving DecidableEq, Repr

/-- Applying an option to an `Op`. -/
def OpOption.apply : OpOption → Op → Op
  | .withPrefix, op =>
      if op.key.length = 0 then { op with key := [0], rangeEnd := [0] }
      else { op with rangeEnd := getPrefix op.key, isOptsWithPrefix := true }
  | .withRange endKey, op => { op with rangeEnd := endKey, isOptsWithRange := true }
  | .withFromKey, op =>
      let op := if op.key.length = 0 then { op with key := [0] } else op
      { op with rangeEnd := [0], isOptsWithFromKey := true }

/-- `ApplyOpts`. -/
def Op.applyOpts (op : Op) (opts : List OpOption) : Op :=
  opts.foldl (fun op opt => opt.apply op) op

/-- The zero `Op`, which `NewOp` also returns. -/
def Op.empty : Op :=
  { t := .invalid, key := [], rangeEnd := [], val := [], ops := [],
    isOptsWithPrefix := false, isOptsWithFromKey := false, isOptsWithRange := false }

/-- `IsOptsWithRange`. -/
def isOptsWithRange (opts : List OpOption) : Bool :=
  (Op.empty.applyOpts opts).isOptsWithRange

/-- `IsOptsWithPrefix`. -/
def isOptsWithPrefix (opts : List OpOption) : Bool :=
  (Op.empty.applyOpts opts).isOptsWithPrefix

/-- `IsOptsWithFromKey`. -/
def isOptsWithFromKey (opts : List OpOption) : Bool :=
  (Op.empty.applyOpts opts).isOptsWithFromKey

/-- `CheckValidOp`: at most one of the three flags. -/
def Op.checkValidOp (op : Op) : Except Error Unit :=
  if !(op.isOptsWithRange || op.isOptsWithPrefix || op.isOptsWithFromKey) then .ok ()
  else if op.isOptsWithRange && !(op.isOptsWithPrefix || op.isOptsWithFromKey) then .ok ()
  else if op.isOptsWithPrefix && !(op.isOptsWithRange || op.isOptsWithFromKey) then .ok ()
  else if op.isOptsWithFromKey && !(op.isOptsWithPrefix || op.isOptsWithRange) then .ok ()
  else .error .errMetaOptionConflict

/-- `OpGet` and `OpDelete`: an operation of type `t` on `key`, with the options `opts`. -/
def rangeOp (t : OpType) (key : List UInt8) (opts : List OpOption) : Op :=
  { Op.empty with t, key }.applyOpts opts

/-- `OpGet`. -/
def opGet (key : List UInt8) (opts : List OpOption) : Op :=
  rangeOp .get key opts

/-- `OpDelete`. -/
def opDelete (key : List UInt8) (opts : List OpOption) : Op :=
  rangeOp .delete key opts

/-- `OpPut`. -/
def opPut (key val : List UInt8) : Op :=
  { Op.empty with t := .put, key, val }

/-- `OpTxn`. -/
def opTxn (ops : List Op) : Op :=
  { Op.empty with t := .txn, ops }

/-- `KeyValue`, by the two fields the namespace layer reads and writes. -/
structure KeyValue where
  key : List UInt8
  value : List UInt8
  deriving DecidableEq, Repr

@[simp] theorem OpOption.apply_t (opt : OpOption) (op : Op) : (opt.apply op).t = op.t := by
  cases opt <;> simp only [OpOption.apply] <;> split <;> rfl

@[simp] theorem Op.applyOpts_t (op : Op) (opts : List OpOption) :
    (op.applyOpts opts).t = op.t := by
  induction opts generalizing op with
  | nil => rfl
  | cons opt opts ih =>
      simp only [Op.applyOpts, List.foldl_cons] at ih ⊢
      rw [ih, OpOption.apply_t]

@[simp] theorem rangeOp_t (t : OpType) (key : List UInt8) (opts : List OpOption) :
    (rangeOp t key opts).t = t :=
  Op.applyOpts_t _ opts

/-! `OpGet` and `OpDelete` with no option or one option. -/

theorem rangeOp_nil (t : OpType) (key : List UInt8) :
    rangeOp t key [] = { Op.empty with t, key } := rfl

theorem rangeOp_withRange (t : OpType) (key e : List UInt8) :
    rangeOp t key [.withRange e] =
      { Op.empty with t, key, rangeEnd := e, isOptsWithRange := true } := rfl

theorem rangeOp_withPrefix_nil (t : OpType) :
    rangeOp t [] [.withPrefix] = { Op.empty with t, key := [0], rangeEnd := [0] } := rfl

theorem rangeOp_withPrefix (t : OpType) {key : List UInt8} (hk : key ≠ []) :
    rangeOp t key [.withPrefix] =
      { Op.empty with t, key, rangeEnd := getPrefix key, isOptsWithPrefix := true } := by
  have hlen : key.length ≠ 0 := by simpa using hk
  simp only [rangeOp, Op.applyOpts, List.foldl_cons, List.foldl_nil, OpOption.apply, hlen,
    if_false]

theorem rangeOp_withFromKey (t : OpType) (key : List UInt8) :
    rangeOp t key [.withFromKey] =
      { Op.empty with
        t, key := if key.length = 0 then [0] else key, rangeEnd := [0], isOptsWithFromKey := true } := by
  by_cases hk : key.length = 0 <;>
    simp only [rangeOp, Op.applyOpts, List.foldl_cons, List.foldl_nil, OpOption.apply, hk,
      if_true, if_false]

/-! What the range lemmas need of `incrementLast` and `getPrefix`: an incremented key ends
in a byte that is not `0`, and a key ending in a byte below `0xff` has that byte
incremented. -/

theorem incrementLast_eq_some {r e : List UInt8} (h : incrementLast r = some e) :
    ∃ b rest, b < 0xff ∧ e = (b + 1) :: rest := by
  induction r with
  | nil => cases h
  | cons c r ih =>
      unfold incrementLast at h
      split at h
      · cases h
        exact ⟨c, r, ‹_›, rfl⟩
      · exact ih h

/-- The prefix end of a key ending in a byte below `0xff` is the key with that byte
incremented. -/
theorem getPrefix_append_singleton {q : List UInt8} {b : UInt8} (hb : b < 0xff) :
    getPrefix (q ++ [b]) = q ++ [b + 1] := by
  simp [getPrefix, incrementLast, hb]

/-- The prefix end of `p ++ k` is that of `k` behind `p`, unless `k` has no byte below
`0xff`; then it is the prefix end of `p`. -/
theorem getPrefix_append (p k : List UInt8) :
    getPrefix (p ++ k) =
      match incrementLast k.reverse with
      | some e => p ++ e.reverse
      | none => getPrefix p := by
  have hsplit : ∀ r, incrementLast (r ++ p.reverse) =
      match incrementLast r with
      | some e => some (e ++ p.reverse)
      | none => incrementLast p.reverse := by
    intro r
    induction r with
    | nil => rfl
    | cons c r ih =>
        simp only [List.cons_append, incrementLast]
        split
        · rfl
        · exact ih
  unfold getPrefix
  rw [List.reverse_append, hsplit]
  cases incrementLast k.reverse with
  | some e => simp
  | none => rfl

end Meta

end Microcosm
